import Mathlib.Data.List.Forall2
import Mathlib.Tactic.Common

/-!
# Two runs in lockstep

A server answers every request. Two runs that get corresponding requests are
compared request by request; `Lockstep G` says that `G` holds of the two states and
the two requests at every step.

Result: `answers_eq_iff`, the two runs give the same answers exactly when `G` holds at
every step, provided that `G` is what one step needs to give the same answer.
-/

namespace Lib

variable {σ α ω : Type*}

/-- The answers to the requests `as`, in turn. -/
def answers (step : σ → α → σ × ω) : σ → List α → List ω
  | _, [] => []
  | s, a :: as => (step s a).2 :: answers step (step s a).1 as

/-- `G` holds of both runs at every step. -/
def Lockstep (step : σ → α → σ × ω) (G : σ → σ → α → α → Prop) :
    σ → σ → List α → List α → Prop
  | s, s', a :: as, a' :: as' =>
    G s s' a a' ∧ Lockstep step G (step s a).1 (step s' a').1 as as'
  | _, _, _, _ => True

variable {step : σ → α → σ × ω} {G H : σ → σ → α → α → Prop} {R : σ → σ → Prop}
  {A : α → α → Prop}

/-- A run in lockstep can be checked by executing it. -/
instance decidableLockstep [∀ s s' a a', Decidable (G s s' a a')] :
    ∀ s s' as as', Decidable (Lockstep step G s s' as as')
  | s, s', a :: as, a' :: as' =>
    have := decidableLockstep (step s a).1 (step s' a').1 as as'
    inferInstanceAs (Decidable (G s s' a a' ∧ Lockstep step G _ _ as as'))
  | _, _, [], _ => isTrue (by unfold Lockstep; trivial)
  | _, _, _ :: _, [] => isTrue (by unfold Lockstep; trivial)

/-- **Two runs.** While related states and requests keep the relation, under the
    condition `H` on the two runs, the answers agree exactly as long as `G` holds. -/
theorem answers_eq_iff
    (hkeep : ∀ s s' a a', R s s' → A a a' → H s s' a a' → R (step s a).1 (step s' a').1)
    (hiff : ∀ s s' a a', R s s' → A a a' → H s s' a a' →
      ((step s a).2 = (step s' a').2 ↔ G s s' a a')) {s s' : σ} {as as' : List α}
    (hR : R s s') (hA : List.Forall₂ A as as') (hH : Lockstep step H s s' as as') :
    answers step s as = answers step s' as' ↔ Lockstep step G s s' as as' := by
  induction hA generalizing s s' with
  | nil => exact iff_of_true rfl trivial
  | @cons a a' as as' ha _ ih =>
    obtain ⟨hstep, hrest⟩ := hH
    show _ :: _ = _ :: _ ↔ _ ∧ _
    rw [List.cons_eq_cons, hiff s s' a a' hR ha hstep, ih (hkeep s s' a a' hR ha hstep) hrest]

end Lib
