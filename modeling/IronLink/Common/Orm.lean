import IronLink.Auth.Account

/-!
# Queries and commits of the synchronous routers

What backend/app/api/routes/channels.py and communities.py get from SQLAlchemy and PostgreSQL, apart
from the tables themselves.
-/

namespace IronLink.Orm

open Auth

/-- PostgreSQL takes the text for a column without a limit. -/
def textTakes (text : String) : Bool := !text.toList.contains '\x00'

/-- A category that is left out is short enough. -/
theorem noCategory_le : ∀ category ∈ (none : Option String), category.length ≤ 50 :=
  fun _ h => (by cases h)

/-- The order in which PostgreSQL returns rows when a query has no `ORDER BY`. -/
structure Scan where
  order : {R : Type} → List R → List R
  perm : ∀ {R : Type} (rows : List R), (order rows).Perm rows

/-- Rows come as they have been inserted. -/
def Scan.inserted : Scan := ⟨fun rows => rows, fun rows => .refl rows⟩

/-- `.offset(skip).limit(limit).all()`. PostgreSQL refuses negative numbers. -/
def Scan.page {R : Type} (scan : Scan) (skip limit : ℤ) (rows : List R) :
    Except HttpError (List R) :=
  if skip < 0 ∨ limit < 0 then .error internalServerError
  else .ok (((scan.order rows).drop skip.toNat).take limit.toNat)

/-- `.filter(p).first()`. -/
def Scan.first {R : Type} (scan : Scan) (p : R → Bool) (rows : List R) : Option R :=
  (scan.order rows).find? p

variable {scan : Scan} {R : Type} {p : R → Bool} {rows : List R} {row : R}

theorem Scan.first_some (h : scan.first p rows = some row) : row ∈ rows ∧ p row = true :=
  ⟨(scan.perm rows).mem_iff.mp (List.mem_of_find?_eq_some h), List.find?_some h⟩

theorem Scan.first_eq_none : scan.first p rows = none ↔ ∀ row ∈ rows, p row = false := by
  unfold first
  rw [List.find?_eq_none]
  constructor
  · intro h row hrow
    simpa using h row ((scan.perm rows).mem_iff.mpr hrow)
  · intro h row hrow
    simpa using h row ((scan.perm rows).mem_iff.mp hrow)

/-- What is refused while there is a row with `p`. -/
theorem unless_any_eq_some {α : Type*} {x y : α} :
    (if rows.any p then none else some x) = some y ↔ (∀ row ∈ rows, p row = false) ∧ y = x := by
  split_ifs with hany
  · obtain ⟨row, hrow, hp⟩ := List.any_eq_true.mp hany
    refine iff_of_false (fun h => (by cases h)) fun h => ?_
    rw [h.1 row hrow] at hp
    cases hp
  · rw [Option.some_inj, eq_comm]
    refine (and_iff_right fun row hrow => ?_).symm
    exact Bool.eq_false_iff.mpr fun hp => hany (List.any_eq_true.mpr ⟨row, hrow, hp⟩)

end IronLink.Orm
