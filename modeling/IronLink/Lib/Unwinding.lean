import Mathlib.Data.List.Forall2
import Mathlib.Data.Option.Basic
import Mathlib.Tactic.Common

/-!
# Runs that an observer cannot tell apart

A step answers with the next state and the events it causes, or with `none` when
the action is not enabled. An observer sees some of the events and nothing of the
states. Two runs look alike to the observer when at each step a relation on the
states is kept and the events that are seen agree.

Result: `Indistinct.trace`, from steps to runs.
-/

namespace Lib

variable {σ α ω : Type*}

/-- The state after the actions `as`, taken in order from `s`, and all the events. -/
def trace (step : σ → α → Option (σ × List ω)) : σ → List α → Option (σ × List ω)
  | s, [] => some (s, [])
  | s, a :: as =>
    (step s a).bind fun r => (trace step r.1 as).map fun r' => (r'.1, r.2 ++ r'.2)

/-- Both are refused, or their states are related and the observer sees the same. -/
def Indistinct (R : σ → σ → Prop) (sees : ω → Bool) :
    Option (σ × List ω) → Option (σ × List ω) → Prop :=
  Option.Rel fun r r' => R r.1 r'.1 ∧ r.2.filter sees = r'.2.filter sees

variable {step : σ → α → Option (σ × List ω)} {R : σ → σ → Prop} {A : α → α → Prop}
  {sees : ω → Bool}

theorem Indistinct.of_some {r r' : σ × List ω} (hR : R r.1 r'.1)
    (hsees : r.2.filter sees = r'.2.filter sees) : Indistinct R sees (some r) (some r') :=
  .some ⟨hR, hsees⟩

theorem Indistinct.cases {x y : Option (σ × List ω)} (h : Indistinct R sees x y) :
    x = none ∧ y = none ∨ ∃ r r', x = some r ∧ y = some r' ∧ R r.1 r'.1 ∧
      r.2.filter sees = r'.2.filter sees := by
  cases h with
  | none => exact .inl ⟨rfl, rfl⟩
  | some h => exact .inr ⟨_, _, rfl, rfl, h⟩

theorem Indistinct.symm (hR : ∀ s s', R s s' → R s' s) {x y : Option (σ × List ω)}
    (h : Indistinct R sees x y) : Indistinct R sees y x := by
  cases h with
  | none => exact .none
  | some h => exact .some ⟨hR _ _ h.1, h.2.symm⟩

theorem Indistinct.trans (hR : ∀ s s' s'', R s s' → R s' s'' → R s s'')
    {x y z : Option (σ × List ω)} (h : Indistinct R sees x y) (h' : Indistinct R sees y z) :
    Indistinct R sees x z := by
  cases h with
  | none => exact h'
  | some h =>
    cases h' with
    | some h' => exact .some ⟨hR _ _ _ h.1 h'.1, h.2.trans h'.2⟩

/-- Actions that are enabled alike. -/
theorem Indistinct.guard {p q : Prop} [Decidable p] [Decidable q] (hpq : p ↔ q)
    {x y : Option (σ × List ω)} (h : q → Indistinct R sees x y) :
    Indistinct R sees (if p then x else none) (if q then y else none) := by
  by_cases hq : q
  · rw [if_pos hq, if_pos (hpq.mpr hq)]
    exact h hq
  · rw [if_neg hq, if_neg fun hp => hq (hpq.mp hp)]
    exact .none

/-- **Unwinding.** When related states and actions lead to indistinct answers, so do
    related runs. -/
theorem Indistinct.trace
    (hstep : ∀ s s' a a', R s s' → A a a' → Indistinct R sees (step s a) (step s' a')) {s s' : σ}
    (hs : R s s') {as as' : List α} (has : List.Forall₂ A as as') :
    Indistinct R sees (trace step s as) (trace step s' as') := by
  induction has generalizing s s' with
  | nil => exact .of_some hs rfl
  | @cons a a' as as' ha _ ih =>
    unfold Lib.trace
    rcases (hstep s s' a a' hs ha).cases with ⟨hr, hr'⟩ | ⟨r, r', hr, hr', hR, hsees⟩
    · rw [hr, hr']
      exact .none
    · rw [hr, hr', Option.bind_some, Option.bind_some]
      rcases (ih hR).cases with ⟨ht, ht'⟩ | ⟨t, t', ht, ht', hR', hrest⟩
      · rw [ht, ht']
        exact .none
      · rw [ht, ht', Option.map_some, Option.map_some]
        refine .of_some hR' ?_
        rw [List.filter_append, List.filter_append, hsees, hrest]

end Lib
