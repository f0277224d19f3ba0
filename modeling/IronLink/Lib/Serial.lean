import IronLink.Lib.Table
import Mathlib.Data.Int.Basic

/-!
# Tables whose keys a sequence gives

A row that is inserted gets the next value of a sequence as its primary key. The sequence
never goes back, so a key that has been given is not given again, whatever is deleted.

Results:
* `find_insert`, `find_update`, `find_delete`: what a lookup sees after a write.
* `filter_insert`, `filter_delete`: what any other `SELECT` sees.
* `find_next`: no row has the key that comes next.
-/

namespace Lib

/-- A table and the sequence of its primary key. -/
structure Serial {R : Type*} (key : R → ℤ) where
  rows : List R
  /-- The value the sequence gives next. -/
  next : ℤ
  keys : (rows.map key).Nodup
  given : ∀ row ∈ rows, key row < next

namespace Serial

variable {R : Type*} {key : R → ℤ} (t : Serial key)

/-- No row, and a sequence that starts at one. -/
def empty (key : R → ℤ) : Serial key := ⟨[], 1, List.nodup_nil, fun _ h => (by cases h)⟩

/-- `SELECT … WHERE key = k`. -/
def find (k : ℤ) : Option R := Table.find key t.rows k

theorem find_next : t.find t.next = none := by
  refine Table.find_eq_none.mpr fun row hrow hkey => ?_
  have := t.given row hrow
  omega

/-- `INSERT`. -/
def insert (make : ℤ → R) (hmake : ∀ k, key (make k) = k) : Serial key where
  rows := t.rows ++ [make t.next]
  next := t.next + 1
  keys := Table.nodup_append t.keys (by rw [hmake]; exact t.find_next)
  given := by
    intro row hrow
    obtain hold | hnew := List.mem_append.mp hrow
    · have := t.given row hold
      omega
    · rw [List.mem_singleton.mp hnew, hmake]
      omega

/-- An `INSERT` that is rolled back: the value of the sequence is gone. -/
def skip : Serial key where
  rows := t.rows
  next := t.next + 1
  keys := t.keys
  given row hrow := by
    have := t.given row hrow
    omega

/-- `UPDATE … WHERE key = k`. -/
def update (k : ℤ) (f : R → R) (hf : ∀ row, key (f row) = key row) : Serial key where
  rows := Table.modify key t.rows k f
  next := t.next
  keys := by
    rw [Table.map_key_modify hf]
    exact t.keys
  given := by
    intro row hrow
    obtain ⟨old, hold, rfl⟩ := List.mem_map.mp hrow
    have := t.given old hold
    split_ifs
    · rw [hf]
      exact this
    · exact this

/-- `DELETE … WHERE p`. -/
def delete (p : R → Bool) : Serial key where
  rows := t.rows.filter fun row => !p row
  next := t.next
  keys := t.keys.sublist (List.filter_sublist.map key)
  given row hrow := t.given row (List.mem_filter.mp hrow).1

variable {t} {make : ℤ → R} {hmake : ∀ k, key (make k) = k} {f : R → R}
  {hf : ∀ row, key (f row) = key row} {p : R → Bool} {k : ℤ} {row : R}

theorem find_mem (h : t.find k = some row) : row ∈ t.rows := Table.find_mem h

theorem find_key (h : t.find k = some row) : key row = k := Table.find_key h

theorem find_of_mem (h : row ∈ t.rows) : t.find (key row) = some row := Table.find_of_mem t.keys h

theorem next_ne (h : row ∈ t.rows) : t.next ≠ key row := (Int.ne_of_lt (t.given row h)).symm

@[simp] theorem rows_insert : (t.insert make hmake).rows = t.rows ++ [make t.next] := rfl

@[simp] theorem rows_update : (t.update k f hf).rows = Table.modify key t.rows k f := rfl

@[simp] theorem rows_delete : (t.delete p).rows = t.rows.filter fun row => !p row := rfl

theorem find_insert :
    (t.insert make hmake).find k = if k = t.next then some (make t.next) else t.find k := by
  show Table.find key (t.rows ++ [make t.next]) k = _
  rw [Table.find_append, hmake]
  split_ifs with hnext hk hk
  · rw [hk]
    exact congrArg (·.or (some (make t.next))) t.find_next
  · exact absurd hnext.symm hk
  · exact absurd hk.symm hnext
  · exact Option.or_none

/-- What a `WHERE` clause sees after an insert. -/
theorem filter_insert (q : R → Bool) :
    (t.insert make hmake).rows.filter q =
      t.rows.filter q ++ if q (make t.next) then [make t.next] else [] := by
  rw [rows_insert, List.filter_append, List.filter_singleton, Bool.cond_eq_ite]

/-- What a `WHERE` clause sees after a delete. -/
theorem filter_delete (q : R → Bool) :
    (t.delete p).rows.filter q = (t.rows.filter q).filter fun row => !p row := by
  rw [rows_delete, List.filter_filter, List.filter_filter]
  exact List.filter_congr fun row _ => Bool.and_comm _ _

/-- None of the rows that are asked for is deleted. -/
theorem filter_delete_of_not {q : R → Bool} (h : ∀ row ∈ t.rows, q row = true → p row = false) :
    (t.delete p).rows.filter q = t.rows.filter q := by
  rw [filter_delete]
  refine List.filter_eq_self.mpr fun row hrow => ?_
  obtain ⟨hin, hasked⟩ := List.mem_filter.mp hrow
  rw [h row hin hasked]
  rfl

theorem find_update (k' : ℤ) :
    (t.update k f hf).find k' = (t.find k').map fun row => if key row = k then f row else row :=
  Table.find_modify hf t.rows k k'

theorem find_delete (k : ℤ) : (t.delete p).find k = (t.find k).filter fun row => !p row := by
  cases hrow : t.find k with
  | none =>
    refine Table.find_eq_none.mpr fun row hmem hkey => ?_
    exact Table.find_eq_none.mp hrow row (List.mem_filter.mp hmem).1 hkey
  | some row =>
    by_cases hp : p row = true
    · rw [Option.filter_some, hp, Bool.not_true, if_neg Bool.false_ne_true]
      refine Table.find_eq_none.mpr fun other hmem hkey => ?_
      obtain ⟨hin, hkept⟩ := List.mem_filter.mp hmem
      have hother := find_of_mem hin
      rw [hkey, hrow] at hother
      rw [Option.some.inj hother] at hp
      rw [hp] at hkept
      cases hkept
    · have hstays : (!p row) = true := by simpa using hp
      rw [Option.filter_some, if_pos hstays]
      have hkept : row ∈ (t.delete p).rows := List.mem_filter.mpr ⟨find_mem hrow, hstays⟩
      have := find_of_mem hkept
      rwa [find_key hrow] at this

end Serial

end Lib
