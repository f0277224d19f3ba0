import Mathlib.Algebra.Order.Group.Defs
import Mathlib.Data.List.Chain
import Mathlib.Order.Lattice

/-!
# Leases that a timer renews

A lease is renewed by messages that arrive in the order they were sent in. A timer sends one every
`period`, or up to `late` after that.

Results:
* `Renewed.send`, `Renewed.reset`, `Renewed.arrive`: what the timer and an arrival leave of the
  renewals on their way.
* `Renewed.now_le`: how long ago the renewal that counts was sent, at most.
-/

namespace Lib

section Renewed

variable {T : Type*} [AddCommGroup T] [LinearOrder T]

/-- The last renewal that has arrived was sent at `base`. Those of `sent` are on their way, oldest
    first, each sent at most `gap` after the one before it; the next one is due `period` after the
    last of them, or earlier. -/
structure Renewed (gap period base : T) (sent : List T) (due now : T) : Prop where
  spaced : (base :: sent).IsChain fun p p' => p' ≤ p + gap
  due : due ≤ sent.getLast?.getD base + period
  past : ∀ p ∈ base :: sent, p ≤ now

variable {gap period late latency base due due' now now' p : T} {sent : List T}

theorem renewed_start (hdue : due ≤ now + period) : Renewed gap period now [] due now :=
  ⟨List.isChain_singleton now, hdue, fun _ hp => (List.mem_singleton.mp hp).le⟩

theorem Renewed.mono (h : Renewed gap period base sent due now) (hle : now ≤ now') :
    Renewed gap period base sent due now' :=
  ⟨h.spaced, h.due, fun p hp => (h.past p hp).trans hle⟩

/-- The renewal that was sent last, the one that has arrived included. -/
theorem Renewed.last_le (h : Renewed gap period base sent due now) :
    sent.getLast?.getD base ≤ now := by
  refine h.past _ ?_
  cases hlast : sent.getLast? with
  | none => exact List.mem_cons_self
  | some p => exact List.mem_cons_of_mem base (List.mem_of_getLast? hlast)

/-- The oldest renewal arrives. -/
theorem Renewed.arrive (h : Renewed gap period base (p :: sent) due now) :
    Renewed gap period p sent due now := by
  refine ⟨(List.isChain_cons_cons.mp h.spaced).2, ?_, fun p' hp' => ?_⟩
  · have hdue := h.due
    rw [List.getLast?_cons] at hdue
    exact hdue
  · exact h.past p' (List.mem_cons_of_mem base hp')

/-- The timer has sent a renewal now, and sets the time of the next one. -/
theorem Renewed.reset (h : Renewed gap period base sent due now)
    (hlast : sent.getLast? = some now) (hdue : due' ≤ now + period) :
    Renewed gap period base sent due' now := by
  refine ⟨h.spaced, ?_, h.past⟩
  rw [hlast]
  exact hdue

section Delays

variable [IsOrderedAddMonoid T]

/-- The timer, or anyone else before it is overdue, sends a renewal. -/
theorem Renewed.send (h : Renewed (period + late) period base sent due now)
    (hnow : now ≤ due + late) :
    Renewed (period + late) period base (sent ++ [now]) due now := by
  refine ⟨List.isChain_append.mpr ⟨h.spaced, List.isChain_singleton now, ?_⟩, ?_, fun p hp => ?_⟩
  · intro last hlast p hp
    rw [List.getLast?_cons, Option.mem_def, Option.some.injEq] at hlast
    obtain rfl := Option.some.inj hp
    subst hlast
    calc now ≤ due + late := hnow
      _ ≤ sent.getLast?.getD base + period + late := add_le_add_left h.due late
      _ = sent.getLast?.getD base + (period + late) := add_assoc _ _ _
  · rw [List.getLast?_concat]
    exact h.due.trans (add_le_add_left h.last_le period)
  · obtain rfl | hp := List.mem_cons.mp hp
    · exact h.past p List.mem_cons_self
    · obtain hp | hp := List.mem_append.mp hp
      · exact h.past p (List.mem_cons_of_mem base hp)
      · exact (List.mem_singleton.mp hp).le

/-- The renewal that counts is not older than one period and the delays. -/
theorem Renewed.now_le (h : Renewed (period + late) period base sent due now)
    (hlatency : 0 ≤ latency) (hnow : now ≤ due + late) (hsent : ∀ p ∈ sent, now ≤ p + latency) :
    now ≤ base + (period + late) + latency := by
  cases sent with
  | nil =>
    calc now ≤ due + late := hnow
      _ ≤ base + period + late := add_le_add_left h.due late
      _ = base + (period + late) := add_assoc _ _ _
      _ ≤ base + (period + late) + latency := le_add_of_nonneg_right hlatency
  | cons p sent =>
    calc now ≤ p + latency := hsent p List.mem_cons_self
      _ ≤ base + (period + late) + latency :=
        add_le_add_left (List.isChain_cons_cons.mp h.spaced).1 latency

end Delays

end Renewed

end Lib
