import Mathlib.Algebra.BigOperators.Group.List.Basic
import Mathlib.Algebra.Ring.Nat
import Mathlib.Tactic.Common

/-!
# Offsets into a text that is written wider

Each element of a list takes one place or more. An offset counts places: some of the
elements have ended there, and some have begun before it.

Results:
* `sum_take_ended_le`, `le_sum_take_begun`: what these elements take.
* `ended_begun_count`: where an element takes one place or two, an offset is ahead of the
  elements by the wide ones.
-/

namespace Lib

variable {α : Type*} {width : α → ℕ} {wide : α → Bool} {cs : List α} {m n : ℕ}

/-- How many elements end by the offset. -/
def ended (width : α → ℕ) : List α → (offset : ℕ) → ℕ
  | [], _ => 0
  | c :: cs, offset => if width c ≤ offset then ended width cs (offset - width c) + 1 else 0

/-- How many elements begin before the offset. -/
def begun (width : α → ℕ) : List α → (offset : ℕ) → ℕ
  | [], _ => 0
  | c :: cs, offset => if offset = 0 then 0 else begun width cs (offset - width c) + 1

theorem sum_take_ended_le (width : α → ℕ) (cs : List α) (n : ℕ) :
    ((cs.take (ended width cs n)).map width).sum ≤ n := by
  induction cs generalizing n with
  | nil => simp
  | cons c cs ih =>
    rw [ended]
    split_ifs with hc
    · have hrest := ih (n - width c)
      rw [List.take_succ_cons, List.map_cons, List.sum_cons]
      omega
    · simp

theorem le_sum_take_begun (h : n ≤ (cs.map width).sum) :
    n ≤ ((cs.take (begun width cs n)).map width).sum := by
  induction cs generalizing n with
  | nil => simpa using h
  | cons c cs ih =>
    rw [List.map_cons, List.sum_cons] at h
    rw [begun]
    split_ifs with hn
    · omega
    · have hrest := ih (n := n - width c) (by omega)
      rw [List.take_succ_cons, List.map_cons, List.sum_cons]
      omega

theorem begun_le_length (width : α → ℕ) (cs : List α) (n : ℕ) : begun width cs n ≤ cs.length := by
  induction cs generalizing n with
  | nil => exact Nat.le_refl 0
  | cons c cs ih =>
    rw [begun, List.length_cons]
    split_ifs
    · exact Nat.zero_le _
    · exact Nat.succ_le_succ (ih _)

/-- What has ended begins before. -/
theorem ended_le_begun (hwidth : ∀ c, 0 < width c) (hmn : m ≤ n) :
    ended width cs m ≤ begun width cs n := by
  induction cs generalizing m n with
  | nil => exact Nat.le_refl 0
  | cons c cs ih =>
    have hc := hwidth c
    rw [ended, begun]
    split_ifs with hm hn
    · omega
    · exact Nat.succ_le_succ (ih (by omega))
    · exact Nat.le_refl 0
    · exact Nat.zero_le _

/-! ## One place or two -/

/-- The wide elements that have begun are what the offset is ahead of those that have ended,
    and the other way round. -/
theorem ended_begun_count (hwidth : ∀ c, width c = if wide c then 2 else 1)
    (h : n ≤ (cs.map width).sum) :
    ended width cs n + (cs.take (begun width cs n)).countP wide = n ∧
      begun width cs n + (cs.take (ended width cs n)).countP wide = n := by
  induction cs generalizing n with
  | nil =>
    have hn : n = 0 := by simpa using h
    simp [ended, begun, hn]
  | cons c cs ih =>
    rw [List.map_cons, List.sum_cons] at h
    obtain ⟨hended, hbegun⟩ := ih (n := n - width c) (by omega)
    have hpos : 0 < width c := by
      rw [hwidth]
      split_ifs <;> omega
    rw [ended, begun]
    by_cases hn : n = 0
    · rw [if_neg (by omega), if_pos hn, List.take_zero, List.countP_nil]
      omega
    · rw [if_neg hn, List.take_succ_cons, List.countP_cons]
      have hc := hwidth c
      split_ifs with hfits hwide hwide
      · rw [if_pos hwide] at hc
        rw [List.take_succ_cons, List.countP_cons, if_pos hwide]
        omega
      · rw [if_neg hwide] at hc
        rw [List.take_succ_cons, List.countP_cons, if_neg hwide]
        omega
      · -- the offset is in the middle of `c`
        rw [if_pos hwide] at hc
        have hzero : n - width c = 0 := by omega
        rw [hzero] at hended hbegun ⊢
        rw [List.take_zero, List.countP_nil]
        omega
      · rw [if_neg hwide] at hc
        omega

end Lib
