import Mathlib.Data.List.Basic
import Mathlib.Tactic.Common

/-!
# Objects shared between lists

Mutable objects lie on a heap, in the order of their allocation; a reference is a
position on it. Lists of references share objects, so a change made through one
list is seen through every other. An object that is new is seen through no list
that is older.

Results:
* `view_mutate`: what a list shows after a loop over it has changed its objects.
* `view_append`: a list shows the same after an allocation.
* `view_rebuild`: what a copy of a list shows that refers to new objects in places.
-/

namespace Lib.Heap

variable {α : Type*}

/-- A reference to an object. -/
abbrev Ref := ℕ

/-- The objects behind `refs`. -/
def view (heap : List α) (refs : List Ref) : List α := refs.filterMap fun r => heap[r]?

/-- Every reference is to an allocated object. -/
def Valid (heap : List α) (refs : List Ref) : Prop := ∀ r ∈ refs, r < heap.length

/-- The references to the next `n` objects. -/
def fresh (heap : List α) (n : ℕ) : List Ref := List.range' heap.length n

/-- A loop over `refs` that replaces what each object holds. -/
def mutate (g : α → α) (heap : List α) (refs : List Ref) : List α :=
  refs.foldl (fun heap r => heap.modify r g) heap

/-- A copy of `refs`. Where `g` answers with an object the copy refers to a new one
    that holds it; where `g` throws nothing comes of the copy. -/
def rebuild (g : α → Option (Option α)) : List α → List Ref → Option (List α × List Ref)
  | heap, [] => some (heap, [])
  | heap, r :: refs =>
    match heap[r]? with
    | none => rebuild g heap refs
    | some a =>
      match g a with
      | none => none
      | some none => (rebuild g heap refs).map fun p => (p.1, r :: p.2)
      | some (some b) => (rebuild g (heap ++ [b]) refs).map fun p => (p.1, heap.length :: p.2)

variable {heap : List α} {refs : List Ref}

/-! ## What a list shows -/

theorem view_cons {r : Ref} {a : α} (h : heap[r]? = some a) :
    view heap (r :: refs) = a :: view heap refs := by
  unfold view
  rw [List.filterMap_cons, h]

theorem view_append_refs (refs' : List Ref) :
    view heap (refs ++ refs') = view heap refs ++ view heap refs' := List.filterMap_append

theorem Valid.cons {r : Ref} (h : Valid heap (r :: refs)) :
    (∃ a, heap[r]? = some a) ∧ Valid heap refs :=
  ⟨⟨_, List.getElem?_eq_getElem (h r List.mem_cons_self)⟩,
    fun s hs => h s (List.mem_cons_of_mem r hs)⟩

/-- Allocated objects stay. -/
theorem Valid.append (h : Valid heap refs) (new : List α) : Valid (heap ++ new) refs := by
  intro r hr
  rw [List.length_append]
  exact Nat.lt_add_right _ (h r hr)

theorem valid_append_refs {refs' : List Ref} (h : Valid heap refs) (h' : Valid heap refs') :
    Valid heap (refs ++ refs') := by
  intro r hr
  rcases List.mem_append.mp hr with hr | hr
  · exact h r hr
  · exact h' r hr

theorem length_view (h : Valid heap refs) : (view heap refs).length = refs.length := by
  induction refs with
  | nil => rfl
  | cons r refs ih =>
    obtain ⟨⟨a, ha⟩, hrefs⟩ := h.cons
    rw [view_cons ha, List.length_cons, ih hrefs, List.length_cons]

/-! ## Allocation -/

/-- A list shows the same after an allocation. -/
theorem view_append (h : Valid heap refs) (new : List α) :
    view (heap ++ new) refs = view heap refs := by
  refine List.filterMap_congr fun r hr => ?_
  exact List.getElem?_append_left (h r hr)

theorem valid_fresh (new : List α) : Valid (heap ++ new) (fresh heap new.length) := by
  intro r hr
  have := (List.mem_range'_1.mp hr).2
  rw [List.length_append]
  omega

theorem length_fresh (n : ℕ) : (fresh heap n).length = n := List.length_range'

/-- The fresh references show the new objects. -/
theorem view_fresh (new : List α) : view (heap ++ new) (fresh heap new.length) = new := by
  induction new generalizing heap with
  | nil => rfl
  | cons a new ih =>
    have hget : (heap ++ a :: new)[heap.length]? = some a := by simp
    have hrest : fresh heap (new.length + 1) = heap.length :: fresh (heap ++ [a]) new.length := by
      unfold fresh
      rw [List.range'_succ, List.length_append, List.length_singleton]
    rw [List.length_cons, hrest, view_cons hget]
    refine congrArg (a :: ·) ?_
    have hnew : view (heap ++ [a] ++ new) (fresh (heap ++ [a]) new.length) = new := ih
    rwa [List.append_assoc, List.singleton_append] at hnew

/-! ## Mutation -/

@[simp] theorem length_mutate (g : α → α) : (mutate g heap refs).length = heap.length := by
  unfold mutate
  induction refs generalizing heap with
  | nil => rfl
  | cons r refs ih => rw [List.foldl_cons, ih, List.length_modify]

theorem Valid.mutate {refs' : List Ref} (h : Valid heap refs') (g : α → α) :
    Valid (mutate g heap refs) refs' := by
  intro r hr
  rw [length_mutate]
  exact h r hr

/-- An object is changed if the loop comes to it; a change made twice is made once. -/
theorem getElem?_mutate {g : α → α} (hg : ∀ a, g (g a) = g a) (i : ℕ) :
    (mutate g heap refs)[i]? = if i ∈ refs then (heap[i]?).map g else heap[i]? := by
  unfold mutate
  induction refs generalizing heap with
  | nil => rw [List.foldl_nil, if_neg List.not_mem_nil]
  | cons r refs ih =>
    rw [List.foldl_cons, ih, List.getElem?_modify]
    by_cases hi : r = i
    · subst hi
      cases heap[r]? with
      | none => simp
      | some a => by_cases hmem : r ∈ refs <;> simp [hmem, hg]
    · have hne : i ≠ r := fun h => hi h.symm
      cases heap[i]? with
      | none => simp
      | some a => simp [hi, hne]

/-- The list shows every object changed. -/
theorem view_mutate {g : α → α} (hg : ∀ a, g (g a) = g a) :
    view (mutate g heap refs) refs = (view heap refs).map g := by
  unfold view
  rw [List.map_filterMap]
  refine List.filterMap_congr fun r hr => ?_
  rw [getElem?_mutate hg, if_pos hr]

/-! ## Copies -/

/-- The new heap extends the old one, and the copy is as long as the original. -/
theorem rebuild_some {g : α → Option (Option α)} {heap' : List α} {refs' : List Ref}
    (h : Valid heap refs) (hb : rebuild g heap refs = some (heap', refs')) :
    (∃ new, heap' = heap ++ new) ∧ Valid heap' refs' ∧ refs'.length = refs.length := by
  induction refs generalizing heap refs' with
  | nil =>
    obtain ⟨rfl, rfl⟩ := Prod.mk.inj (Option.some.inj hb)
    exact ⟨⟨[], (List.append_nil heap).symm⟩, h, rfl⟩
  | cons r refs ih =>
    obtain ⟨⟨a, ha⟩, hrefs⟩ := h.cons
    simp only [rebuild, ha] at hb
    cases hga : g a with
    | none => rw [hga] at hb; cases hb
    | some b =>
      rw [hga] at hb
      cases b with
      | none =>
        obtain ⟨⟨heap₁, refs₁⟩, hrest, heq⟩ := Option.map_eq_some_iff.mp hb
        obtain ⟨rfl, rfl⟩ := Prod.mk.inj heq
        obtain ⟨⟨new, rfl⟩, hvalid, hlen⟩ := ih hrefs hrest
        refine ⟨⟨new, rfl⟩, ?_, by rw [List.length_cons, hlen, List.length_cons]⟩
        intro i hi
        rcases List.mem_cons.mp hi with rfl | hi
        · exact h.append new _ List.mem_cons_self
        · exact hvalid i hi
      | some b =>
        obtain ⟨⟨heap₁, refs₁⟩, hrest, heq⟩ := Option.map_eq_some_iff.mp hb
        obtain ⟨rfl, rfl⟩ := Prod.mk.inj heq
        obtain ⟨⟨new, rfl⟩, hvalid, hlen⟩ := ih (hrefs.append [b]) hrest
        refine ⟨⟨b :: new, by simp⟩, ?_, by rw [List.length_cons, hlen, List.length_cons]⟩
        intro i hi
        rcases List.mem_cons.mp hi with rfl | hi
        · simp
        · exact hvalid i hi

/-- A copy comes of the list when `g` throws on no object. -/
theorem rebuild_isSome {g : α → Option (Option α)} (hg : ∀ a, (g a).isSome = true) :
    (rebuild g heap refs).isSome = true := by
  induction refs generalizing heap with
  | nil => rfl
  | cons r refs ih =>
    unfold rebuild
    cases heap[r]? with
    | none => exact ih
    | some a =>
      have ha := hg a
      cases hga : g a with
      | none => rw [hga] at ha; cases ha
      | some b =>
        cases b with
        | none => simpa [hga] using ih
        | some b => simpa [hga] using ih

/-- The copy shows the objects of `g` in their places. -/
theorem view_rebuild (g : α → Option (Option α)) (h : Valid heap refs) :
    (rebuild g heap refs).map (fun p => view p.1 p.2) =
      (view heap refs).mapM fun a => (g a).map fun b => b.getD a := by
  induction refs generalizing heap with
  | nil => rfl
  | cons r refs ih =>
    obtain ⟨⟨a, ha⟩, hrefs⟩ := h.cons
    rw [view_cons ha, List.mapM_cons]
    simp only [rebuild, ha]
    cases g a with
    | none => rfl
    | some b =>
      cases b with
      | none =>
        rw [← ih hrefs]
        cases hb : rebuild g heap refs with
        | none => rfl
        | some p =>
          obtain ⟨heap', refs'⟩ := p
          obtain ⟨⟨new, rfl⟩, -, -⟩ := rebuild_some hrefs hb
          refine congrArg some (view_cons ?_)
          exact (List.getElem?_append_left (h r List.mem_cons_self)).trans ha
      | some b =>
        rw [← view_append hrefs [b], ← ih (hrefs.append [b])]
        simp only
        cases hb : rebuild g (heap ++ [b]) refs with
        | none => rfl
        | some p =>
          obtain ⟨heap', refs'⟩ := p
          obtain ⟨⟨new, rfl⟩, -, -⟩ := rebuild_some (hrefs.append [b]) hb
          refine congrArg some (view_cons ?_)
          simp

/-- `u` tells what the copy shows in the place of an object. -/
theorem view_rebuild_some {g : α → Option (Option α)} {u : α → α} {heap' : List α}
    {refs' : List Ref} (hu : ∀ a, ∀ b ∈ g a, b.getD a = u a) (h : Valid heap refs)
    (hb : rebuild g heap refs = some (heap', refs')) :
    view heap' refs' = (view heap refs).map u := by
  have hmap : (view heap refs).mapM (fun a => (g a).map fun b => b.getD a) =
      some (view heap' refs') := by
    rw [← view_rebuild g h, hb]
    rfl
  generalize view heap refs = as at hmap
  generalize view heap' refs' = bs at hmap
  induction as generalizing bs with
  | nil => exact (Option.some.inj hmap).symm
  | cons a as ih =>
    rw [List.mapM_cons] at hmap
    obtain ⟨b, hga, hmap⟩ := Option.bind_eq_some_iff.mp hmap
    obtain ⟨bs, has, hmap⟩ := Option.bind_eq_some_iff.mp hmap
    obtain rfl := Option.some.inj hmap
    obtain ⟨b, hb, rfl⟩ := Option.map_eq_some_iff.mp hga
    rw [List.map_cons, ← hu a b hb, ih bs has]

end Lib.Heap
