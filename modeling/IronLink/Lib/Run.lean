import Mathlib.Data.List.Induction
import Mathlib.Order.Basic
import Mathlib.Tactic.Common

/-!
# Runs of partial step functions

A system is a step function `σ → α → Option σ` on states `σ` and actions `α`;
`none` means that the action is not enabled. Everything the environment
chooses (which call moves, what a query returns, how much time passes) is part
of the action, so a run is a list of actions.

Results:
* `Guarded.invariant`: an invariant kept by every step whose action satisfies a
  guard holds after every run whose actions all satisfy the guard.
* `Guarded.at_step`: it also holds in every state such a run passes through.
* `guarded_iff_takes`: a run is guarded if and only if the guard holds at every
  step it takes.
* `guarded_congr`: guards that agree under an invariant guard the same runs.
* `guarded_ghost`: a run with more on record is guarded as the run is.
* `run_relates`: a preorder that every step follows relates the ends of a run.
* `guarded_or_lasting`: a run keeps its guard, or ends in an error that lasts.
* `throughout_iff_guarded`: what holds throughout exactly the guarded runs.
* `run_history`: an invariant on the state and the actions that have led to it.
-/

namespace Lib

variable {σ α : Type*}

/-- The state after the actions `as`, taken in order from `s`; `none` when one
    of them is not enabled. -/
def run (step : σ → α → Option σ) : σ → List α → Option σ
  | s, [] => some s
  | s, a :: as => (step s a).bind fun s' => run step s' as

/-- Every action of the run from `s` along `as` satisfies `G` in the state it
    is taken in. -/
def Guarded (step : σ → α → Option σ) (G : σ → α → Prop) : σ → List α → Prop
  | _, [] => True
  | s, a :: as => G s a ∧ ∀ s' ∈ step s a, Guarded step G s' as

/-- The run from `s` along `as` takes the action `a` in the state `m`, which
    leads to `m'`. -/
def Takes (step : σ → α → Option σ) (s : σ) (as : List α) (m : σ) (a : α) (m' : σ) : Prop :=
  ∃ pre post, as = pre ++ a :: post ∧ run step s pre = some m ∧ step m a = some m'

/-- `P` holds in every state the run from `s` along `as` goes through, the first
    and the last included. -/
def Throughout (step : σ → α → Option σ) (P : σ → Prop) (s : σ) (as : List α) : Prop :=
  ∀ pre post, as = pre ++ post → ∀ m ∈ run step s pre, P m

/-- The action `a`, taken some number of times, leads from `s` to `s'`. -/
def Drives (step : σ → α → Option σ) (a : α) (s s' : σ) : Prop :=
  ∃ k, run step s (List.replicate k a) = some s'

variable {step : σ → α → Option σ}

@[simp] theorem run_nil (s : σ) : run step s [] = some s := rfl

@[simp] theorem run_cons (s : σ) (a : α) (as : List α) :
    run step s (a :: as) = (step s a).bind fun s' => run step s' as := rfl

theorem run_append (s : σ) (as bs : List α) :
    run step s (as ++ bs) = (run step s as).bind fun m => run step m bs := by
  induction as generalizing s with
  | nil => rfl
  | cons a as ih =>
    rw [List.cons_append, run_cons, run_cons]
    cases step s a with
    | none => rfl
    | some m => exact ih m

theorem run_cons_some {s s' : σ} {a : α} {as : List α} (h : run step s (a :: as) = some s') :
    ∃ m, step s a = some m ∧ run step m as = some s' :=
  Option.bind_eq_some_iff.mp h

/-! ## One action again and again -/

theorem Drives.refl (step : σ → α → Option σ) (a : α) (s : σ) : Drives step a s s := ⟨0, rfl⟩

theorem Drives.head {a : α} {s m s' : σ} (hs : step s a = some m) (h : Drives step a m s') :
    Drives step a s s' := by
  obtain ⟨k, hk⟩ := h
  refine ⟨k + 1, ?_⟩
  rw [List.replicate_succ, run_cons, hs]
  exact hk

theorem Drives.trans {a : α} {s m s' : σ} (h : Drives step a s m) (h' : Drives step a m s') :
    Drives step a s s' := by
  obtain ⟨k, hk⟩ := h
  obtain ⟨k', hk'⟩ := h'
  refine ⟨k + k', ?_⟩
  rw [← List.replicate_append_replicate, run_append, hk]
  exact hk'

/-! ## Guarded runs -/

@[simp] theorem guarded_nil (G : σ → α → Prop) (s : σ) : Guarded step G s [] := trivial

theorem guarded_cons {G : σ → α → Prop} {s : σ} {a : α} {as : List α} :
    Guarded step G s (a :: as) ↔ G s a ∧ ∀ s' ∈ step s a, Guarded step G s' as := Iff.rfl

/-- A guarded run can be checked by executing it. -/
instance decidableGuarded {G : σ → α → Prop} [∀ s a, Decidable (G s a)] :
    ∀ s as, Decidable (Guarded step G s as)
  | _, [] => isTrue trivial
  | s, a :: as =>
    match h : step s a with
    | none => decidable_of_iff (G s a) (by simp [guarded_cons, h])
    | some m =>
      have := decidableGuarded (G := G) m as
      decidable_of_iff (G s a ∧ Guarded step G m as) (by simp [guarded_cons, h])

theorem guarded_true (s : σ) (as : List α) : Guarded step (fun _ _ => True) s as := by
  induction as generalizing s with
  | nil => trivial
  | cons a as ih => exact ⟨trivial, fun s' _ => ih s'⟩

theorem guarded_append {G : σ → α → Prop} {s : σ} {as bs : List α} :
    Guarded step G s (as ++ bs) ↔
      Guarded step G s as ∧ ∀ m ∈ run step s as, Guarded step G m bs := by
  induction as generalizing s with
  | nil => simp
  | cons a as ih =>
    rw [List.cons_append, guarded_cons, guarded_cons, run_cons]
    cases hs : step s a with
    | none => simp
    | some m => simp [ih, and_assoc]

/-- **Invariant rule.** `I` holds after a run when it holds at its start and
    every step whose action satisfies `G` keeps it. -/
theorem Guarded.invariant {G : σ → α → Prop} {I : σ → Prop}
    (hstep : ∀ s a s', I s → G s a → step s a = some s' → I s') {s s' : σ} {as : List α}
    (hg : Guarded step G s as) (h0 : I s) (hr : run step s as = some s') : I s' := by
  induction as generalizing s with
  | nil => cases hr; exact h0
  | cons a as ih =>
    obtain ⟨m, hm, hr⟩ := run_cons_some hr
    exact ih (hg.2 m hm) (hstep s a m h0 hg.1 hm) hr

/-- The invariant and the guard hold wherever the run takes a step. -/
theorem Guarded.at_step {G : σ → α → Prop} {I : σ → Prop}
    (hstep : ∀ s a s', I s → G s a → step s a = some s' → I s') {s m m' : σ} {a : α}
    {as : List α} (hg : Guarded step G s as) (h0 : I s) (ht : Takes step s as m a m') :
    I m ∧ G m a := by
  obtain ⟨pre, post, rfl, hr, -⟩ := ht
  obtain ⟨hpre, hpost⟩ := guarded_append.mp hg
  exact ⟨hpre.invariant hstep h0 hr, (hpost m hr).1⟩

/-- In a run that succeeds, the guard holds throughout if and only if it holds
    at every step taken. -/
theorem guarded_iff_takes {G : σ → α → Prop} {s s' : σ} {as : List α}
    (hr : run step s as = some s') :
    Guarded step G s as ↔ ∀ m a m', Takes step s as m a m' → G m a := by
  constructor
  · rintro hg m a m' ⟨pre, post, rfl, hpre, -⟩
    exact ((guarded_append.mp hg).2 m hpre).1
  · intro h
    induction as generalizing s with
    | nil => trivial
    | cons a as ih =>
      obtain ⟨m, hm, hr⟩ := run_cons_some hr
      refine ⟨h s a m ⟨[], as, rfl, rfl, hm⟩, fun m₂ hm₂ => ?_⟩
      obtain rfl := Option.some.inj (hm.symm.trans hm₂)
      refine ih hr ?_
      rintro n b n' ⟨pre, post, rfl, hpre, hstep⟩
      exact h n b n' ⟨a :: pre, post, rfl, by rw [run_cons, hm]; exact hpre, hstep⟩

/-- Two guards that agree wherever an invariant and a third guard hold guard the
    same of the runs the third one guards. -/
theorem guarded_congr_of {H G G' : σ → α → Prop} {I : σ → Prop}
    (hstep : ∀ s a s', I s → step s a = some s' → I s')
    (hiff : ∀ s a, I s → H s a → (G s a ↔ G' s a)) {s : σ} {as : List α} (h0 : I s)
    (hH : Guarded step H s as) : Guarded step G s as ↔ Guarded step G' s as := by
  induction as generalizing s with
  | nil => exact Iff.rfl
  | cons a as ih =>
    rw [guarded_cons, guarded_cons, hiff s a h0 hH.1]
    exact and_congr_right fun _ =>
      forall₂_congr fun s' hs' => ih (hstep s a s' h0 hs') (hH.2 s' hs')

/-- Two guards that agree wherever an invariant holds guard the same runs. -/
theorem guarded_congr {G G' : σ → α → Prop} {I : σ → Prop}
    (hstep : ∀ s a s', I s → step s a = some s' → I s')
    (hiff : ∀ s a, I s → (G s a ↔ G' s a)) {s : σ} {as : List α} (h0 : I s) :
    Guarded step G s as ↔ Guarded step G' s as :=
  guarded_congr_of hstep (fun s a hs _ => hiff s a hs) h0 (guarded_true s as)

/-- A system that keeps more on record than `step` is guarded as `step` is. -/
theorem guarded_ghost {τ : Type*} {ghostStep : τ → α → Option τ} {forget : τ → σ}
    (hforget : ∀ t a, (ghostStep t a).map forget = step (forget t) a) {G : σ → α → Prop} {t : τ}
    {as : List α} :
    Guarded ghostStep (fun t a => G (forget t) a) t as ↔ Guarded step G (forget t) as := by
  induction as generalizing t with
  | nil => exact Iff.rfl
  | cons a as ih =>
    rw [guarded_cons, guarded_cons, ← hforget t a]
    refine and_congr_right fun _ => ?_
    cases ghostStep t a with
    | none => simp
    | some t' => simpa using ih

/-- An invariant kept by every step holds after every run. -/
theorem run_invariant {I : σ → Prop} (hstep : ∀ s a s', I s → step s a = some s' → I s')
    {s s' : σ} {as : List α} (h0 : I s) (hr : run step s as = some s') : I s' :=
  (guarded_true s as).invariant (fun s a s' hi _ hs => hstep s a s' hi hs) h0 hr

/-- A reflexive and transitive relation that every step follows, where an
    invariant holds, relates the start of a run to its end. -/
theorem run_relates {I : σ → Prop} {R : σ → σ → Prop} (hrefl : ∀ s, R s s)
    (htrans : ∀ s₁ s₂ s₃, R s₁ s₂ → R s₂ s₃ → R s₁ s₃)
    (hstep : ∀ s a s', I s → step s a = some s' → I s' ∧ R s s') {s s' : σ} {as : List α}
    (h0 : I s) (hr : run step s as = some s') : R s s' := by
  induction as generalizing s with
  | nil => cases hr; exact hrefl _
  | cons a as ih =>
    obtain ⟨m, hm, hr⟩ := run_cons_some hr
    obtain ⟨hi, hrel⟩ := hstep s a m h0 hm
    exact htrans s m s' hrel (ih hi hr)

/-- An error that lasts: a run keeps its guard, or ends in the error. -/
theorem guarded_or_lasting {G : σ → α → Prop} {I B : σ → Prop}
    (hstep : ∀ s a s', I s → G s a → step s a = some s' → I s')
    (hbad : ∀ s a s', I s → ¬ G s a → step s a = some s' → B s')
    (hlast : ∀ s a s', B s → step s a = some s' → B s') {s s' : σ} {as : List α}
    (h0 : I s) (hr : run step s as = some s') : Guarded step G s as ∨ B s' := by
  induction as generalizing s with
  | nil => exact .inl trivial
  | cons a as ih =>
    obtain ⟨m, hm, hr⟩ := run_cons_some hr
    by_cases hg : G s a
    · refine (ih (hstep s a m h0 hg hm) hr).imp_left fun hrest => ⟨hg, fun m' hm' => ?_⟩
      obtain rfl := Option.some.inj (hm.symm.trans hm')
      exact hrest
    · exact .inr (run_invariant hlast (hbad s a m h0 hg hm) hr)

/-! ## Every state of a run -/

theorem throughout_nil {P : σ → Prop} {s : σ} : Throughout step P s [] ↔ P s := by
  constructor
  · intro h
    exact h [] [] rfl s rfl
  · rintro hs pre post h m hm
    obtain ⟨rfl, -⟩ := List.append_eq_nil_iff.mp h.symm
    obtain rfl := Option.some.inj hm
    exact hs

theorem throughout_cons {P : σ → Prop} {s : σ} {a : α} {as : List α} :
    Throughout step P s (a :: as) ↔ P s ∧ ∀ s' ∈ step s a, Throughout step P s' as := by
  constructor
  · intro h
    refine ⟨h [] (a :: as) rfl s rfl, fun s' hs' pre post heq m hm => ?_⟩
    have hrun : run step s (a :: pre) = some m := by
      rw [run_cons, Option.mem_def.mp hs']
      exact hm
    exact h (a :: pre) post (by rw [heq, List.cons_append]) m hrun
  · rintro ⟨hs, hrest⟩ pre post heq m hm
    cases pre with
    | nil =>
      obtain rfl := Option.some.inj hm
      exact hs
    | cons b pre =>
      obtain ⟨hab, htail⟩ := List.cons_eq_cons.mp heq
      subst hab
      obtain ⟨s', hs', hrun⟩ := run_cons_some hm
      exact hrest s' hs' pre post htail m hrun

/-- When guarded steps keep an invariant that gives `P`, and a step against the
    guard leads out of `P`, then `P` holds throughout exactly the guarded runs. -/
theorem throughout_iff_guarded {G : σ → α → Prop} {I P : σ → Prop} (hI : ∀ s, I s → P s)
    (hstep : ∀ s a s', I s → G s a → step s a = some s' → I s')
    (hbad : ∀ s a, I s → ¬ G s a → ∃ s' ∈ step s a, ¬ P s') {s : σ} {as : List α}
    (h0 : I s) : Throughout step P s as ↔ Guarded step G s as := by
  induction as generalizing s with
  | nil => exact ⟨fun _ => trivial, fun _ => throughout_nil.mpr (hI s h0)⟩
  | cons a as ih =>
    rw [throughout_cons, guarded_cons]
    constructor
    · rintro ⟨-, hrest⟩
      have hg : G s a := by
        by_contra hn
        obtain ⟨s', hs', hnot⟩ := hbad s a h0 hn
        exact hnot (hrest s' hs' [] as rfl s' rfl)
      exact ⟨hg, fun s' hs' => (ih (hstep s a s' h0 hg hs')).mp (hrest s' hs')⟩
    · rintro ⟨hg, hrest⟩
      exact ⟨hI s h0, fun s' hs' => (ih (hstep s a s' h0 hg hs')).mpr (hrest s' hs')⟩

/-! ## What a run has been through -/

theorem Takes.append {s m m' : σ} {a : α} {as : List α} (h : Takes step s as m a m')
    (bs : List α) : Takes step s (as ++ bs) m a m' := by
  obtain ⟨pre, post, rfl, hr, hstep⟩ := h
  exact ⟨pre, post ++ bs, by rw [List.append_assoc, List.cons_append], hr, hstep⟩

theorem takes_last {s m m' : σ} {a : α} {as : List α} (hr : run step s as = some m)
    (hstep : step m a = some m') : Takes step s (as ++ [a]) m a m' := ⟨as, [], rfl, hr, hstep⟩

/-- `P`, which may speak of the actions there have been, holds after a run when it
    holds before the first one and every step keeps it. -/
theorem run_history {P : List α → σ → Prop} {s s' : σ} {as : List α} (h0 : P [] s)
    (hstep : ∀ as m a m', run step s as = some m → P as m → step m a = some m' →
      P (as ++ [a]) m') (hr : run step s as = some s') : P as s' := by
  induction as using List.reverseRecOn generalizing s' with
  | nil =>
    obtain rfl := Option.some.inj hr
    exact h0
  | append_singleton as a ih =>
    rw [run_append] at hr
    obtain ⟨m, hm, hlast⟩ := Option.bind_eq_some_iff.mp hr
    obtain ⟨m', hm', hnil⟩ := run_cons_some hlast
    obtain rfl := Option.some.inj hnil
    exact hstep as m a m' hm (ih hm) hm'

end Lib
