import Mathlib.Data.List.Nodup
import Mathlib.Tactic.Common

/-!
# Tables of rows with a primary key

A table is a list of rows in insertion order; `key` reads a row's primary key.
`find` is `SELECT … WHERE key = k`, `modify` is `UPDATE … WHERE key = k`. An
update that keeps keys commutes with every lookup, whatever else it changes.

Results:
* `find_modify_self`, `find_modify_of_ne`: what a lookup sees after an update.
* `find_append`: an inserted row is found last.
* `evolves_append`, `evolves_modify_iff`: when every row stays, changed along a
  preorder (`Evolves`).
-/

namespace Lib.Table

variable {K R : Type*} [DecidableEq K] {key : R → K}

/-- The first row with the key `k`. -/
def find (key : R → K) (rows : List R) (k : K) : Option R := rows.find? fun r => key r = k

/-- `rows` with `f` applied to every row with the key `k`. -/
def modify (key : R → K) (rows : List R) (k : K) (f : R → R) : List R :=
  rows.map fun r => if key r = k then f r else r

theorem find_key {rows : List R} {k : K} {r : R} (h : find key rows k = some r) : key r = k := by
  have := List.find?_some h
  simpa using this

theorem find_mem {rows : List R} {k : K} {r : R} (h : find key rows k = some r) : r ∈ rows :=
  List.mem_of_find?_eq_some h

theorem find_eq_none {rows : List R} {k : K} :
    find key rows k = none ↔ ∀ r ∈ rows, key r ≠ k := by
  unfold find
  simp [List.find?_eq_none]

/-- A change of rows that keeps their keys is seen through every lookup. -/
theorem find_map {g : R → R} (hg : ∀ r, key (g r) = key r) (rows : List R) (k : K) :
    find key (rows.map g) k = (find key rows k).map g := by
  unfold find
  rw [List.find?_map]
  have : ((fun r => decide (key r = k)) ∘ g) = fun r => decide (key r = k) := by
    funext r
    simp [hg]
  rw [this]

theorem find_modify {f : R → R} (hf : ∀ r, key (f r) = key r) (rows : List R) (k k' : K) :
    find key (modify key rows k f) k' =
      (find key rows k').map fun r => if key r = k then f r else r := by
  refine find_map ?_ rows k'
  intro r
  split_ifs
  · exact hf r
  · rfl

theorem find_modify_self {f : R → R} (hf : ∀ r, key (f r) = key r) (rows : List R) (k : K) :
    find key (modify key rows k f) k = (find key rows k).map f := by
  rw [find_modify hf]
  cases h : find key rows k with
  | none => rfl
  | some r => simp [find_key h]

theorem find_modify_of_ne {f : R → R} (hf : ∀ r, key (f r) = key r) (rows : List R) {k k' : K}
    (hk : k' ≠ k) : find key (modify key rows k f) k' = find key rows k' := by
  rw [find_modify hf]
  cases h : find key rows k' with
  | none => rfl
  | some r => simp [find_key h, hk]

theorem find_append (rows : List R) (r : R) (k : K) :
    find key (rows ++ [r]) k = (find key rows k).or (if key r = k then some r else none) := by
  unfold find
  rw [List.find?_append]
  by_cases h : key r = k
  · simp [h]
  · simp [h]

/-- With distinct keys, looking up a row's key finds the row. -/
theorem find_of_mem {rows : List R} (h : (rows.map key).Nodup) {r : R} (hr : r ∈ rows) :
    find key rows (key r) = some r := by
  cases hf : find key rows (key r) with
  | none => exact absurd rfl (find_eq_none.mp hf r hr)
  | some r' =>
    have := List.inj_on_of_nodup_map h (find_mem hf) hr (find_key hf)
    rw [this]

/-- With distinct keys, `k` selects one row at most. -/
theorem filter_key {rows : List R} (h : (rows.map key).Nodup) (k : K) :
    rows.filter (fun r => decide (key r = k)) = (find key rows k).toList := by
  induction rows with
  | nil => rfl
  | cons r rows ih =>
    obtain ⟨hnew, hrest⟩ := List.nodup_cons.mp h
    unfold find
    by_cases hk : key r = k
    · have hnone : rows.filter (fun r' => decide (key r' = k)) = [] := by
        refine List.filter_eq_nil_iff.mpr fun r' hr' heq => hnew ?_
        rw [hk, ← of_decide_eq_true heq]
        exact List.mem_map_of_mem hr'
      simp [hk, hnone]
    · have hrows := ih hrest
      unfold find at hrows
      simp [hk, hrows]

/-- A change of rows that keeps their keys keeps the list of keys. -/
theorem map_key_modify {f : R → R} (hf : ∀ r, key (f r) = key r) (rows : List R) (k : K) :
    (modify key rows k f).map key = rows.map key := by
  unfold modify
  rw [List.map_map]
  refine List.map_congr_left fun r _ => ?_
  show key (if key r = k then f r else r) = key r
  split_ifs
  · exact hf r
  · rfl

theorem nodup_append {rows : List R} {r : R} (h : (rows.map key).Nodup)
    (hr : find key rows (key r) = none) : ((rows ++ [r]).map key).Nodup := by
  rw [List.map_append, List.map_singleton, List.nodup_append]
  refine ⟨h, List.nodup_singleton _, ?_⟩
  intro k hk k' hk' heq
  obtain ⟨r', hr', rfl⟩ := List.mem_map.mp hk
  rw [List.mem_singleton.mp hk'] at heq
  exact find_eq_none.mp hr r' hr' heq

/-! ## Rows that stay -/

/-- Every row of `rows` is still in `rows'`, and is related by `R` to what it is
    there. -/
def Evolves (key : R → K) (Rel : R → R → Prop) (rows rows' : List R) : Prop :=
  ∀ k r, find key rows k = some r → ∃ r', find key rows' k = some r' ∧ Rel r r'

variable {Rel : R → R → Prop} {rows rows' rows'' : List R}

theorem Evolves.refl (hrefl : ∀ r, Rel r r) (rows : List R) : Evolves key Rel rows rows :=
  fun _ r hr => ⟨r, hr, hrefl r⟩

theorem Evolves.trans (htrans : ∀ r₁ r₂ r₃, Rel r₁ r₂ → Rel r₂ r₃ → Rel r₁ r₃)
    (h : Evolves key Rel rows rows') (h' : Evolves key Rel rows' rows'') :
    Evolves key Rel rows rows'' := by
  intro k r hr
  obtain ⟨r', hr', hrel⟩ := h k r hr
  obtain ⟨r'', hr'', hrel'⟩ := h' k r' hr'
  exact ⟨r'', hr'', htrans r r' r'' hrel hrel'⟩

theorem evolves_append (hrefl : ∀ r, Rel r r) (rows : List R) (r : R) :
    Evolves key Rel rows (rows ++ [r]) := by
  intro k old hold
  refine ⟨old, ?_, hrefl old⟩
  rw [find_append, hold, Option.some_or]

/-- Updating the row `k` follows the preorder exactly when the update of the row
    that is there does. -/
theorem evolves_modify_iff (hrefl : ∀ r, Rel r r) {f : R → R} (hf : ∀ r, key (f r) = key r)
    {k : K} :
    Evolves key Rel rows (modify key rows k f) ↔ ∀ r, find key rows k = some r → Rel r (f r) := by
  constructor
  · intro h r hr
    obtain ⟨r', hr', hrel⟩ := h k r hr
    rw [find_modify_self hf, hr] at hr'
    rw [Option.some.inj hr']
    exact hrel
  · intro h k' r hr
    refine ⟨if key r = k then f r else r, ?_, ?_⟩
    · rw [find_modify hf, hr, Option.map_some]
    · split_ifs with hk
      · refine h r ?_
        rw [← hk, find_key hr]
        exact hr
      · exact hrefl r

/-- Tables with the same distinct keys are told apart by their lookups. -/
theorem ext_find (hkeys : rows.map key = rows'.map key) (hnd : (rows.map key).Nodup)
    (h : ∀ k, find key rows k = find key rows' k) : rows = rows' := by
  have hlen : rows.length = rows'.length := by
    simpa using congrArg List.length hkeys
  refine List.ext_getElem hlen fun i hi hi' => ?_
  have hkey : key rows[i] = key rows'[i] := by
    have := List.getElem_of_eq hkeys (by simpa using hi)
    simpa using this
  have hfind := find_of_mem hnd (List.getElem_mem hi)
  rw [h, hkey, find_of_mem (hkeys ▸ hnd) (List.getElem_mem hi')] at hfind
  exact (Option.some.inj hfind).symm

end Lib.Table
