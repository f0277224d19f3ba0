import Mathlib.Data.List.Basic
import Mathlib.Data.List.Perm.Basic
import Mathlib.Tactic.Common

/-!
# Concurrent calls kept in a list

The calls in flight of a concurrent program are the entries of a list; a call
is named by its position, and a step replaces one entry. These are the facts
about replacing one entry that invariants over all calls use.
-/

namespace Lib

variable {κ : Type*} {calls : List κ} {i : ℕ} {c c' x : κ}

/-- Counting after one entry is replaced. -/
theorem countP_set_add (p : κ → Bool) (h : calls[i]? = some c) (c' : κ) :
    (calls.set i c').countP p + (if p c then 1 else 0) =
      calls.countP p + (if p c' then 1 else 0) := by
  obtain ⟨hi, rfl⟩ := List.getElem?_eq_some_iff.mp h
  rw [List.countP_set hi]
  have hpos : p calls[i] = true → 0 < calls.countP p := fun hp =>
    List.countP_pos_iff.mpr ⟨_, List.getElem_mem hi, hp⟩
  by_cases hp : p calls[i] = true
  · have := hpos hp
    simp only [hp, if_true]
    omega
  · simp only [hp]
    simp

/-- An entry that stops being counted lowers the count by one. -/
theorem countP_set_leave {p : κ → Bool} (h : calls[i]? = some c) (hp : p c = true)
    (hp' : p c' = false) : (calls.set i c').countP p + 1 = calls.countP p := by
  have := countP_set_add p h c'
  simpa [hp, hp'] using this

/-- An entry that starts being counted raises the count by one. -/
theorem countP_set_enter {p : κ → Bool} (h : calls[i]? = some c) (hp : p c = false)
    (hp' : p c' = true) : (calls.set i c').countP p = calls.countP p + 1 := by
  have := countP_set_add p h c'
  simpa [hp, hp'] using this

/-- An entry that stays counted, or stays uncounted, leaves the count alone. -/
theorem countP_set_same {p : κ → Bool} (h : calls[i]? = some c) (hp : p c' = p c) :
    (calls.set i c').countP p = calls.countP p := by
  have := countP_set_add p h c'
  rw [hp] at this
  omega

/-- An entry that does not start being counted does not raise the count. -/
theorem countP_set_le {p : κ → Bool} (h : calls[i]? = some c) (hp : p c' = true → p c = true) :
    (calls.set i c').countP p ≤ calls.countP p := by
  have := countP_set_add p h c'
  cases hc' : p c' with
  | false =>
    rw [hc'] at this
    simp only [Bool.false_eq_true, if_false] at this
    omega
  | true =>
    rw [hc', hp hc'] at this
    omega

/-- An entry that is counted only if `P` raises the count by one at most, and only if
    `P`. -/
theorem countP_set_le_add {p : κ → Bool} {P : Prop} [Decidable P] (h : calls[i]? = some c)
    (hp : p c' = true → P) : (calls.set i c').countP p ≤ calls.countP p + if P then 1 else 0 := by
  have := countP_set_add p h c'
  cases hc' : p c' with
  | false =>
    rw [hc'] at this
    simp only [Bool.false_eq_true, if_false] at this
    omega
  | true =>
    rw [hc', if_pos rfl] at this
    rw [if_pos (hp hc')]
    omega

/-- Of entries that are pairwise far apart, a predicate that no two such entries share
    counts one at most. -/
theorem countP_le_one_of_pairwise {R : κ → κ → Prop} {p : κ → Bool} (h : calls.Pairwise R)
    (hp : ∀ x y, R x y → p x = true → p y = false) : calls.countP p ≤ 1 := by
  induction calls with
  | nil => exact Nat.zero_le 1
  | cons first calls ih =>
    obtain ⟨hfirst, hrest⟩ := List.pairwise_cons.mp h
    rw [List.countP_cons]
    split_ifs with hcounted
    · have hzero : calls.countP p = 0 := List.countP_eq_zero.mpr fun y hy hy' => by
        rw [hp first y (hfirst y hy) hcounted] at hy'
        cases hy'
      omega
    · exact ih hrest

/-- When one entry is counted at most, two entries that are counted are one. -/
theorem eq_of_countP_le_one {p : κ → Bool} {j : ℕ} (h : calls.countP p ≤ 1)
    (hc : calls[i]? = some c) (hx : calls[j]? = some x) (hpc : p c = true) (hpx : p x = true) :
    i = j := by
  induction calls generalizing i j with
  | nil => simp at hc
  | cons first calls ih =>
    have hpos : ∀ {n y}, calls[n]? = some y → p y = true → 0 < calls.countP p := fun hy hpy =>
      List.countP_pos_iff.mpr ⟨_, List.mem_of_getElem? hy, hpy⟩
    rw [List.countP_cons] at h
    cases i with
    | zero =>
      cases j with
      | zero => rfl
      | succ j =>
        obtain rfl : first = c := by simpa using hc
        have := hpos (by simpa using hx) hpx
        rw [if_pos hpc] at h
        omega
    | succ i =>
      cases j with
      | zero =>
        obtain rfl : first = x := by simpa using hx
        have := hpos (by simpa using hc) hpc
        rw [if_pos hpx] at h
        omega
      | succ j =>
        have := ih (by omega) (by simpa using hc) (by simpa using hx)
        omega

/-- What holds of every entry and of the new one holds of every entry afterwards. -/
theorem forall_set {P : κ → Prop} (h : ∀ x ∈ calls, P x) (hc : P c') :
    ∀ x ∈ calls.set i c', P x := fun x hx => by
  rcases List.mem_or_eq_of_mem_set hx with hx | rfl
  · exact h x hx
  · exact hc

/-- Counting after one entry is gone. -/
theorem countP_eraseIdx_add (p : κ → Bool) (h : calls[i]? = some c) :
    (calls.eraseIdx i).countP p + (if p c then 1 else 0) = calls.countP p := by
  obtain ⟨hi, rfl⟩ := List.getElem?_eq_some_iff.mp h
  rw [← (List.getElem_cons_eraseIdx_perm hi).countP_eq p, List.countP_cons]

/-- The entry that was put at the end is gone. -/
theorem eraseIdx_concat_length (calls : List κ) (c : κ) :
    (calls ++ [c]).eraseIdx calls.length = calls := by
  rw [List.eraseIdx_append_of_length_le (Nat.le_refl _), Nat.sub_self, List.eraseIdx_zero,
    List.tail_cons, List.append_nil]

/-- The new entry is at its place. -/
theorem getElem?_set_here (h : calls[i]? = some c) (c' : κ) : (calls.set i c')[i]? = some c' := by
  obtain ⟨hi, -⟩ := List.getElem?_eq_some_iff.mp h
  rw [List.getElem?_set_self hi]

/-- An entry stays at its place when another is added at the end. -/
theorem getElem?_append_here (h : calls[i]? = some c) (x : κ) : (calls ++ [x])[i]? = some c := by
  obtain ⟨hi, -⟩ := List.getElem?_eq_some_iff.mp h
  rw [List.getElem?_append_left hi, h]

/-- Another entry is still there. -/
theorem mem_set_of_ne (hx : x ∈ calls) (h : calls[i]? = some c) (hne : x ≠ c) (c' : κ) :
    x ∈ calls.set i c' := by
  obtain ⟨j, hj⟩ := List.getElem?_of_mem hx
  have hij : i ≠ j := by
    rintro rfl
    exact hne (Option.some.inj (hj.symm.trans h))
  exact List.mem_of_getElem? ((List.getElem?_set_ne hij).trans hj)

theorem mem_eraseIdx_of_ne (hx : x ∈ calls) (h : calls[i]? = some c) (hne : x ≠ c) :
    x ∈ calls.eraseIdx i := by
  obtain ⟨hi, rfl⟩ := List.getElem?_eq_some_iff.mp h
  have hperm := (List.getElem_cons_eraseIdx_perm hi).mem_iff.mpr hx
  exact (List.mem_cons.mp hperm).resolve_left hne

theorem filterMap_cons_toList {β : Type*} (f : κ → Option β) (x : κ) (xs : List κ) :
    (x :: xs).filterMap f = (f x).toList ++ xs.filterMap f := by
  cases hx : f x with
  | none => rw [List.filterMap_cons_none hx]; rfl
  | some b => rw [List.filterMap_cons_some hx]; rfl

/-- What `f` picks out of the entries, when one of them is gone. -/
theorem filterMap_eraseIdx_perm {β : Type*} (f : κ → Option β) (h : calls[i]? = some c) :
    ((f c).toList ++ (calls.eraseIdx i).filterMap f).Perm (calls.filterMap f) := by
  obtain ⟨hi, rfl⟩ := List.getElem?_eq_some_iff.mp h
  rw [← filterMap_cons_toList]
  exact (List.getElem_cons_eraseIdx_perm hi).filterMap f

/-- What `f` picks out of the entries, when one of them is replaced. -/
theorem filterMap_set_perm {β : Type*} (f : κ → Option β) (h : calls[i]? = some c) (c' : κ) :
    ((f c).toList ++ (calls.set i c').filterMap f).Perm ((f c').toList ++ calls.filterMap f) := by
  induction calls generalizing i with
  | nil => simp at h
  | cons first calls ih =>
    cases i with
    | zero =>
      obtain rfl : first = c := by simpa using h
      rw [List.set_cons_zero, filterMap_cons_toList, filterMap_cons_toList]
      exact List.perm_append_comm_assoc _ _ _
    | succ i =>
      have htail := ih (by simpa using h)
      rw [List.set_cons_succ, filterMap_cons_toList, filterMap_cons_toList]
      have hfront := List.perm_append_comm_assoc (f c).toList (f first).toList
        ((calls.set i c').filterMap f)
      exact hfront.trans ((htail.append_left _).trans (List.perm_append_comm_assoc _ _ _))

/-! ## All entries but one -/

/-- `P` holds of every entry but the `i`-th. -/
def Others (calls : List κ) (i : ℕ) (P : κ → Prop) : Prop :=
  ∀ j x, j ≠ i → calls[j]? = some x → P x

theorem Others.mono {P Q : κ → Prop} (h : Others calls i P) (hPQ : ∀ x, P x → Q x) :
    Others calls i Q := fun j x hj hx => hPQ x (h j x hj hx)

/-- The entry that is left out may be replaced by anything. -/
theorem Others.set_self {P : κ → Prop} (h : Others calls i P) (c' : κ) :
    Others (calls.set i c') i P := fun j x hj hx =>
  h j x hj ((List.getElem?_set_ne (Ne.symm hj)).symm.trans hx)

/-- Another entry may be replaced by one with the property. -/
theorem Others.set {P : κ → Prop} (h : Others calls i P) (j : ℕ) (hc : P c') :
    Others (calls.set j c') i P := by
  intro k x hk hx
  obtain hset | rfl := List.mem_or_eq_of_mem_set (List.mem_of_getElem? hx)
  · by_cases hkj : j = k
    · subst hkj
      obtain ⟨hlt, hget⟩ := List.getElem?_eq_some_iff.mp hx
      rw [List.getElem_set_self] at hget
      exact hget ▸ hc
    · exact h k x hk ((List.getElem?_set_ne hkj).symm.trans hx)
  · exact hc

theorem Others.append {P : κ → Prop} (h : Others calls i P) (hc : P c) :
    Others (calls ++ [c]) i P := by
  intro j x hj hx
  obtain hlt | hge := Nat.lt_or_ge j calls.length
  · rw [List.getElem?_append_left hlt] at hx
    exact h j x hj hx
  · rw [List.getElem?_append_right hge] at hx
    obtain rfl := List.mem_singleton.mp (List.mem_of_getElem? hx)
    exact hc

end Lib
