import Mathlib.Algebra.Order.Floor.Div
import Mathlib.Data.Finset.Card
import Mathlib.Data.List.Basic
import Mathlib.Tactic.Ring

/-!
# Cutting a list into slices

A list cut into slices of width `w`: slice `i` holds the entries from `i * w`
up to `(i + 1) * w`, or up to the end of the list. A list of length `n > 0` has
`n ⌈/⌉ w` slices that are not empty.

Results:
* `flatten_slices`: the first `k` slices, one after the other, are the first
  `k * w` entries.
* `flatten_all_slices`: all slices are the list.
* `pred_ceilDiv_mul_lt`, `ceilDiv_refine_le`: how the number of slices bounds the
  length, and the width that spreads the list evenly over that number.
* `flatten_mixedSlices`, `length_mixed_slices`: slices of two different widths, put
  together, have the length of the list only when all are of one width.
-/

namespace Lib

variable {α : Type*}

/-- Slice `i` of `xs`, of width `w`. -/
def slice (w : ℕ) (xs : List α) (i : ℕ) : List α := (xs.drop (i * w)).take w

theorem length_slice (w : ℕ) (xs : List α) (i : ℕ) :
    (slice w xs i).length = min w (xs.length - i * w) := by
  simp [slice]

theorem length_slice_le (w : ℕ) (xs : List α) (i : ℕ) : (slice w xs i).length ≤ w := by
  rw [length_slice]
  exact min_le_left _ _

theorem slice_ne_nil {w : ℕ} {xs : List α} {i : ℕ} (hw : 0 < w) (hi : i * w < xs.length) :
    slice w xs i ≠ [] := by
  rw [← List.length_pos_iff, length_slice]
  omega

/-- The slice between two bounds. -/
theorem take_drop_eq_slice (w : ℕ) (xs : List α) (i : ℕ) :
    (xs.drop (i * w)).take (min (i * w + w) xs.length - i * w) = slice w xs i := by
  unfold slice
  rw [List.take_eq_take_iff, List.length_drop]
  omega

theorem flatten_slices (w : ℕ) (xs : List α) (k : ℕ) :
    ((List.range k).map (slice w xs)).flatten = xs.take (k * w) := by
  induction k with
  | zero => simp
  | succ k ih =>
    rw [List.range_succ, List.map_append, List.flatten_append, ih, Nat.succ_mul, List.take_add]
    simp [slice]

/-! ## The number of slices -/

/-- The last slice is not empty. -/
theorem pred_ceilDiv_mul_lt {n w : ℕ} (hw : 0 < w) (hn : 0 < n) : (n ⌈/⌉ w - 1) * w < n := by
  by_contra h
  have hle : n ⌈/⌉ w ≤ n ⌈/⌉ w - 1 := by
    rw [ceilDiv_le_iff_le_mul hw, Nat.mul_comm]
    exact Nat.le_of_not_lt h
  have hpos : 0 < n ⌈/⌉ w := by
    by_contra h0
    have := (ceilDiv_le_iff_le_mul hw).mp (Nat.le_of_not_lt h0)
    omega
  omega

theorem ceilDiv_pos_of_pos {n w : ℕ} (hw : 0 < w) (hn : 0 < n) : 0 < n ⌈/⌉ w := by
  by_contra h
  have := (ceilDiv_le_iff_le_mul hw).mp (Nat.le_of_not_lt h)
  omega

theorem le_ceilDiv_mul {n w : ℕ} (hw : 0 < w) : n ≤ n ⌈/⌉ w * w := by
  rw [Nat.mul_comm]
  exact (ceilDiv_le_iff_le_mul hw).mp le_rfl

theorem mul_lt_of_lt_ceilDiv {n w i : ℕ} (hw : 0 < w) (hn : 0 < n) (hi : i < n ⌈/⌉ w) :
    i * w < n := by
  have hlast := pred_ceilDiv_mul_lt hw hn
  have hmono : i * w ≤ (n ⌈/⌉ w - 1) * w := Nat.mul_le_mul_right w (by omega)
  omega

/-- All slices together are the list. -/
theorem flatten_all_slices {w : ℕ} (hw : 0 < w) (xs : List α) :
    ((List.range (xs.length ⌈/⌉ w)).map (slice w xs)).flatten = xs := by
  rw [flatten_slices]
  exact List.take_of_length_le (le_ceilDiv_mul hw)

/-- Spread evenly over the number of slices, no slice gets longer. -/
theorem ceilDiv_refine_le {n w : ℕ} (hw : 0 < w) (hn : 0 < n) : n ⌈/⌉ (n ⌈/⌉ w) ≤ w := by
  rw [ceilDiv_le_iff_le_mul (ceilDiv_pos_of_pos hw hn)]
  exact le_ceilDiv_mul hw

/-- As many slices as are needed, spread evenly: the last one is not empty when
    there are no more slices than the width. -/
theorem mul_refine_lt {n t i : ℕ} (ht : t ≤ n ⌈/⌉ t) (hi : i < t) :
    i * (n ⌈/⌉ t) < n := by
  have hpos : 0 < t := by omega
  have hlow : t * (n ⌈/⌉ t - 1) < n := by
    by_contra h
    have := (ceilDiv_le_iff_le_mul hpos).mpr (Nat.le_of_not_lt h)
    omega
  have hmono : i * (n ⌈/⌉ t) ≤ (t - 1) * (n ⌈/⌉ t) := Nat.mul_le_mul_right _ (by omega)
  have hexpand : (t - 1) * (n ⌈/⌉ t) + n ⌈/⌉ t = t * (n ⌈/⌉ t - 1) + t := by
    obtain ⟨k, rfl⟩ : ∃ k, t = k + 1 := ⟨t - 1, by omega⟩
    obtain ⟨c, hc⟩ : ∃ c, n ⌈/⌉ (k + 1) = c + 1 := ⟨n ⌈/⌉ (k + 1) - 1, by omega⟩
    rw [hc, Nat.add_sub_cancel, Nat.add_sub_cancel]
    ring
  omega

/-! ## Slices of two widths -/

theorem length_slice_full {w i : ℕ} {xs : List α} (h : (i + 1) * w ≤ xs.length) :
    (slice w xs i).length = w := by
  rw [Nat.succ_mul] at h
  rw [length_slice]
  omega

theorem length_slice_last {w k : ℕ} {xs : List α} (h : xs.length ≤ (k + 1) * w) :
    (slice w xs k).length = xs.length - k * w := by
  rw [Nat.succ_mul] at h
  rw [length_slice]
  omega

/-- Slice `i` is of width `w` when `i ∈ S`, of width `v` when not. -/
def mixedSlice (w v : ℕ) (S : Finset ℕ) (xs : List α) (i : ℕ) : List α :=
  if i ∈ S then slice w xs i else slice v xs i

/-- Each of the slices before the last adds its width. -/
theorem length_mixedSlices_init {w v k : ℕ} (S : Finset ℕ) {xs : List α} (hvw : v ≤ w)
    (hk : k * w ≤ xs.length) :
    ((List.range k).map (mixedSlice w v S xs)).flatten.length =
      k * v + ((Finset.range k).filter (· ∈ S)).card * (w - v) := by
  induction k with
  | zero => simp
  | succ k ih =>
    have hkw : k * w ≤ xs.length := le_trans (Nat.mul_le_mul_right w (Nat.le_succ k)) hk
    have hv : (k + 1) * v ≤ xs.length := le_trans (Nat.mul_le_mul_left _ hvw) hk
    rw [List.range_succ, List.map_append, List.flatten_append, List.length_append, ih hkw,
      Finset.range_add_one, Finset.filter_insert]
    by_cases hmem : k ∈ S
    · have hlast : (mixedSlice w v S xs k).length = v + (w - v) := by
        rw [mixedSlice, if_pos hmem, length_slice_full hk]
        omega
      rw [if_pos hmem, Finset.card_insert_of_notMem (by simp)]
      simp only [List.map_cons, List.map_nil, List.flatten_singleton, hlast]
      ring
    · have hlast : (mixedSlice w v S xs k).length = v := by
        rw [mixedSlice, if_neg hmem, length_slice_full hv]
      rw [if_neg hmem]
      simp only [List.map_cons, List.map_nil, List.flatten_singleton, hlast]
      ring

/-- Slices that are all of the same width are the list. -/
theorem flatten_mixedSlices {w v t : ℕ} {S : Finset ℕ} {xs : List α} (hw : xs.length ≤ t * w)
    (hv : xs.length ≤ t * v) (h : v = w ∨ (∀ i < t, i ∉ S) ∨ ∀ i < t, i ∈ S) :
    ((List.range t).map (mixedSlice w v S xs)).flatten = xs := by
  have hsame : ∀ u, xs.length ≤ t * u → (∀ i < t, mixedSlice w v S xs i = slice u xs i) →
      ((List.range t).map (mixedSlice w v S xs)).flatten = xs := by
    intro u hu heq
    rw [List.map_congr_left fun i hi => heq i (List.mem_range.mp hi), flatten_slices]
    exact List.take_of_length_le hu
  obtain rfl | hnone | hall := h
  · exact hsame v hv fun i _ => ite_self _
  · exact hsame v hv fun i hi => if_neg (hnone i hi)
  · exact hsame w hw fun i hi => if_pos (hall i hi)

/-- Slices of two widths, one after the other, have the length of the list only
    when all are of the same width. -/
theorem length_mixed_slices {w v t : ℕ} (S : Finset ℕ) {xs : List α} (hvw : v < w) (ht : 0 < t)
    (hw : (t - 1) * w ≤ xs.length) (hv : xs.length ≤ t * v) :
    ((List.range t).map (mixedSlice w v S xs)).flatten.length = xs.length ↔
      (∀ i < t, i ∉ S) ∨ ∀ i < t, i ∈ S := by
  obtain ⟨k, rfl⟩ : ∃ k, t = k + 1 := ⟨t - 1, by omega⟩
  rw [Nat.add_sub_cancel] at hw
  have hcard : ((Finset.range k).filter (· ∈ S)).card ≤ k := by
    simpa using Finset.card_filter_le (Finset.range k) (· ∈ S)
  have hnone : ((Finset.range k).filter (· ∈ S)).card = 0 ↔ ∀ i < k, i ∉ S := by
    simp [Finset.filter_eq_empty_iff]
  have hall : ((Finset.range k).filter (· ∈ S)).card = k ↔ ∀ i < k, i ∈ S := by
    have h := Finset.card_filter_eq_iff (s := Finset.range k) (p := (· ∈ S))
    rw [Finset.card_range] at h
    rw [h]
    simp
  generalize hA : ((Finset.range k).filter (· ∈ S)).card = A at *
  have hkv : k * v ≤ k * w := Nat.mul_le_mul_left k hvw.le
  have hd : k * (w - v) = k * w - k * v := Nat.mul_sub ..
  rw [List.range_succ, List.map_append, List.flatten_append, List.length_append,
    length_mixedSlices_init S hvw.le hw, hA]
  simp only [List.map_cons, List.map_nil, List.flatten_singleton]
  by_cases hmem : k ∈ S
  · rw [mixedSlice, if_pos hmem,
      length_slice_last (le_trans hv (Nat.mul_le_mul_left _ hvw.le))]
    have hiff : k * v + A * (w - v) + (xs.length - k * w) = xs.length ↔ A = k := by
      constructor
      · intro h
        have hAk : A * (w - v) = k * (w - v) := by omega
        exact Nat.eq_of_mul_eq_mul_right (by omega) hAk
      · rintro rfl
        omega
    rw [hiff, hall]
    constructor
    · intro h
      right
      intro i hi
      by_cases hik : i = k
      · exact hik ▸ hmem
      · exact h i (by omega)
    · rintro (h | h) i hi
      · exact absurd hmem (h k (by omega))
      · exact h i (by omega)
  · rw [mixedSlice, if_neg hmem, length_slice_last hv]
    have hiff : k * v + A * (w - v) + (xs.length - k * v) = xs.length ↔ A = 0 := by
      constructor
      · intro h
        have hA0 : A * (w - v) = 0 := by omega
        exact (Nat.mul_eq_zero.mp hA0).resolve_right (by omega)
      · rintro rfl
        omega
    rw [hiff, hnone]
    constructor
    · intro h
      left
      intro i hi
      by_cases hik : i = k
      · exact hik ▸ hmem
      · exact h i (by omega)
    · rintro (h | h) i hi
      · exact h i (by omega)
      · exact absurd (h k (by omega)) hmem

end Lib
