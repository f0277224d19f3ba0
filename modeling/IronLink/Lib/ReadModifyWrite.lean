import Mathlib.Data.Multiset.AddSub
import Mathlib.Tactic.Common

/-!
# Overlapping read-modify-write

Several clients advance one shared counter: each reads the value, and later
writes the value after it. Nothing keeps a client from reading between the read
and the write of another one, and then an advance is lost.

Results:
* `Exact.step`: as long as at most one write is pending, the counter is exact: it
  counts the writes.
* `Behind.step`, `Behind.value_lt`: once two writes were pending, the counter falls
  behind the number of writes and stays behind for good.
-/

namespace Lib

/-- A shared counter, the values that are about to be written, and the number of
    writes there have been. -/
structure Shared where
  value : ℕ
  pending : Multiset ℕ
  writes : ℕ

inductive SharedStep : Shared → Shared → Prop
  | idle (s : Shared) : SharedStep s s
  | read (s : Shared) : SharedStep s { s with pending := (s.value + 1) ::ₘ s.pending }
  | write (s : Shared) (v : ℕ) (rest : Multiset ℕ) (h : s.pending = v ::ₘ rest) :
      SharedStep s ⟨v, rest, s.writes + 1⟩

/-- The value every write so far has advanced from `base`. -/
def Shared.due (base : ℕ) (s : Shared) : ℕ := base + s.writes

/-- Nothing is ahead of the number of writes. -/
structure Shared.Bounded (base : ℕ) (s : Shared) : Prop where
  value : s.value ≤ s.due base
  pending : ∀ v ∈ s.pending, v ≤ s.due base + 1

/-- The counter counts the writes, and one write at most is pending. -/
structure Shared.Exact (base : ℕ) (s : Shared) : Prop where
  value : s.value = s.due base
  alone : s.pending.card ≤ 1
  pending : ∀ v ∈ s.pending, v = s.due base + 1

/-- An advance is lost, or bound to be: a stale write is pending, or two writes
    are, or the counter has fallen behind with no write pending. -/
def Shared.Behind (base : ℕ) (s : Shared) : Prop :=
  (∃ v ∈ s.pending, v ≤ s.due base) ∨ 2 ≤ s.pending.card ∨
    s.pending = 0 ∧ s.value < s.due base

variable {base : ℕ} {s s' : Shared}

theorem Shared.due_succ (base v : ℕ) (s : Shared) (rest : Multiset ℕ) :
    Shared.due base ⟨v, rest, s.writes + 1⟩ = s.due base + 1 := (Nat.add_assoc ..).symm

theorem Shared.Bounded.step (h : s.Bounded base) (hs : SharedStep s s') : s'.Bounded base := by
  cases hs with
  | idle => exact h
  | read =>
    refine ⟨h.value, fun v hv => ?_⟩
    obtain rfl | hv := Multiset.mem_cons.mp hv
    · exact Nat.succ_le_succ h.value
    · exact h.pending v hv
  | write v rest hpending =>
    have hmem : ∀ w ∈ v ::ₘ rest, w ≤ s.due base + 1 := fun w hw => h.pending w (hpending ▸ hw)
    refine ⟨?_, fun w hw => ?_⟩
    · rw [Shared.due_succ]
      exact hmem v (Multiset.mem_cons_self v rest)
    · rw [Shared.due_succ]
      exact (hmem w (Multiset.mem_cons_of_mem hw)).trans (Nat.le_succ _)

theorem Shared.Exact.step (h : s.Exact base) (hs : SharedStep s s') (halone : s'.pending.card ≤ 1) :
    s'.Exact base := by
  cases hs with
  | idle => exact h
  | read =>
    refine ⟨h.value, halone, fun v hv => ?_⟩
    obtain rfl | hv := Multiset.mem_cons.mp hv
    · exact congrArg (· + 1) h.value
    · exact h.pending v hv
  | write v rest hpending =>
    have hv : v = s.due base + 1 := by
      apply h.pending
      rw [hpending]
      exact Multiset.mem_cons_self v rest
    have hcard : rest.card = 0 := by
      have hone := h.alone
      rw [hpending, Multiset.card_cons] at hone
      omega
    obtain rfl : rest = 0 := Multiset.card_eq_zero.mp hcard
    refine ⟨?_, halone, fun w hw => absurd hw (Multiset.notMem_zero w)⟩
    rw [Shared.due_succ]
    exact hv

/-- What is behind stays behind. -/
theorem Shared.Behind.step (h : s.Behind base) (hbounded : s.Bounded base) (hs : SharedStep s s') :
    s'.Behind base := by
  cases hs with
  | idle => exact h
  | read =>
    obtain ⟨v, hv, hle⟩ | htwo | ⟨-, hlt⟩ := h
    · exact .inl ⟨v, Multiset.mem_cons_of_mem hv, hle⟩
    · refine .inr (.inl ?_)
      rw [Multiset.card_cons]
      omega
    · exact .inl ⟨s.value + 1, Multiset.mem_cons_self _ _, hlt⟩
  | write v rest hpending =>
    have hbound : ∀ w ∈ rest, w ≤ s.due base + 1 := fun w hw =>
      hbounded.pending w (hpending ▸ Multiset.mem_cons_of_mem hw)
    rcases Multiset.empty_or_exists_mem rest with rfl | ⟨w, hw⟩
    · -- the last pending write is the stale one
      refine .inr (.inr ⟨rfl, ?_⟩)
      obtain ⟨w, hw, hle⟩ | htwo | ⟨hnone, -⟩ := h
      · rw [hpending, Multiset.cons_zero, Multiset.mem_singleton] at hw
        subst hw
        rw [Shared.due_succ]
        exact Nat.lt_succ_of_le hle
      · rw [hpending, Multiset.cons_zero, Multiset.card_singleton] at htwo
        omega
      · rw [hpending] at hnone
        exact absurd hnone Multiset.cons_ne_zero
    · -- any other pending write is stale now
      refine .inl ⟨w, hw, ?_⟩
      rw [Shared.due_succ]
      exact hbound w hw

theorem Shared.Behind.value_lt (h : s.Behind base) (hnone : s.pending = 0) :
    s.value < s.due base := by
  obtain ⟨v, hv, -⟩ | htwo | ⟨-, hlt⟩ := h
  · rw [hnone] at hv
    exact absurd hv (Multiset.notMem_zero v)
  · rw [hnone, Multiset.card_zero] at htwo
    omega
  · exact hlt

end Lib
