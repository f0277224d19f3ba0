import Mathlib.Tactic.Common

/-!
# Columns written back after a stale read

A client loads a row, changes it, and later writes back the columns it has
changed; the other columns keep what is in the table by then. `writeBack` is one
column of that.

A column that only ever falls from what it is to one last value (a text to null,
a flag to true) survives this: whoever has seen the last value, or writes it,
leaves it.

Results:
* `FallsTo.writeBack`: a stale write of such a column is one more fall.
* `writeBack_eq_last`: the last value stays, and is written.
-/

namespace Lib

variable {α : Type*}

/-- `b` is what `a` was, or the last value `z`. -/
def FallsTo (z a b : α) : Prop := b = a ∨ b = z

theorem FallsTo.refl (z a : α) : FallsTo z a a := .inl rfl

theorem FallsTo.last (z a : α) : FallsTo z a z := .inr rfl

theorem FallsTo.trans {z a b c : α} (h : FallsTo z a b) (h' : FallsTo z b c) : FallsTo z a c := by
  obtain rfl | rfl := h'
  · exact h
  · exact .inr rfl

/-- From the last value there is no way back. -/
theorem FallsTo.eq_last {z a b : α} (h : FallsTo z a b) (ha : a = z) : b = z := by
  obtain rfl | rfl := h
  · exact ha
  · rfl

variable [DecidableEq α]

/-- The column of a row that holds `current`, after a client that had loaded
    `loaded` and made `changed` of it has written back. -/
def writeBack (loaded changed current : α) : α := if changed = loaded then current else changed

/-- With nothing in between, the client's own value is written. -/
@[simp] theorem writeBack_loaded (loaded changed : α) :
    writeBack loaded changed loaded = changed := by
  unfold writeBack
  split_ifs with h
  · exact h.symm
  · rfl

theorem writeBack_eq_or (loaded changed current : α) :
    writeBack loaded changed current = changed ∨ writeBack loaded changed current = current := by
  unfold writeBack
  split_ifs
  · exact .inr rfl
  · exact .inl rfl

variable {z loaded changed current : α}

/-- A client that writes the last value leaves the last value. -/
theorem writeBack_of_changed (hstale : FallsTo z loaded current) (h : changed = z) :
    writeBack loaded changed current = z := by
  unfold writeBack
  split_ifs with heq
  · exact hstale.eq_last (heq.symm.trans h)
  · exact h

/-- The last value is not overwritten by a client that changes the column to
    nothing else. -/
theorem writeBack_of_current (hchange : FallsTo z loaded changed) (h : current = z) :
    writeBack loaded changed current = z := by
  unfold writeBack
  split_ifs with heq
  · exact h
  · exact hchange.resolve_left heq

theorem writeBack_eq_last (hstale : FallsTo z loaded current) (hchange : FallsTo z loaded changed) :
    writeBack loaded changed current = z ↔ changed = z ∨ current = z := by
  constructor
  · intro h
    rcases writeBack_eq_or loaded changed current with heq | heq
    · exact .inl (heq.symm.trans h)
    · exact .inr (heq.symm.trans h)
  · rintro (h | h)
    · exact writeBack_of_changed hstale h
    · exact writeBack_of_current hchange h

theorem FallsTo.writeBack (hchange : FallsTo z loaded changed) :
    FallsTo z current (writeBack loaded changed current) := by
  unfold Lib.writeBack
  split_ifs with heq
  · exact .refl z current
  · rw [hchange.resolve_left heq]
    exact .last z current

end Lib
