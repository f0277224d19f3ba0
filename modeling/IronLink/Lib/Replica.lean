import Mathlib.Data.List.Basic
import Mathlib.Data.List.Perm.Basic
import Mathlib.Tactic.Common

/-!
# A replica of a fact

A fact becomes true once and stays true. A replica of it is a flag that may be
shown, set or unset, or is still to be shown; it hears of the fact by marks that
arrive in order: `true` sets the flag, `false` shows it anew, unset.

Results:
* `Agrees.handles`: the replica handles a mark, or something else.
* `Agrees.tells`: more marks are sent, and the fact may become true.
* `Agrees.reorder`: before the fact is true the order of the marks is free.
* `Agrees.converged`: with no mark on its way, the flag is the fact.
-/

namespace Lib

/-- What a replica shows, has asked for, and has still to handle. -/
structure Replica where
  /-- the flag is shown, unset -/
  unset : Prop
  /-- the flag is shown, set -/
  set : Prop
  /-- the fact is asked for -/
  asked : Prop
  /-- the flag is still to be shown, unset -/
  coming : Prop
  /-- on their way, the next one first -/
  marks : List Bool

/-- A flag that is set stands for the fact, or for a request of it; once the fact
    is true, a flag that is not set, or may be shown so, is set by the last mark. -/
structure Agrees (fact concerned : Prop) (r : Replica) : Prop where
  told : true ∈ r.marks → fact
  set : r.set → fact ∨ r.asked
  unset : fact → r.unset ∨ r.coming ∨ false ∈ r.marks → r.marks.getLast? = some true
  known : r.unset ∨ r.set ∨ r.coming ∨ r.marks ≠ [] → concerned

/-- From `r` to `r'` the replica handles the mark `m`, or something else. -/
structure Handles (r r' : Replica) (m : Option Bool) : Prop where
  marks : r.marks = m.toList ++ r'.marks
  unset : r'.unset → r.unset ∧ m ≠ some true ∨ m = some false ∨ r.coming
  set : r'.set → r.set ∨ m = some true ∨ r.unset ∧ r'.asked
  asked : r.asked → r'.asked
  coming : r'.coming → r.coming ∨ m = some false

/-- The marks `new` are sent as `fact` becomes `fact'`; if it becomes true, all
    the replicas concerned are told. -/
structure Tells (fact fact' concerned : Prop) (new : List Bool) : Prop where
  told : true ∈ new → fact'
  anew : false ∈ new → ¬ fact'
  known : new ≠ [] → concerned
  fact : fact' → fact ∨ (concerned → new ≠ [])

variable {fact fact' concerned concerned' : Prop} {r r' : Replica}

theorem getLast?_of_all_true {marks : List Bool} (hne : marks ≠ []) (hall : false ∉ marks) :
    marks.getLast? = some true := by
  rw [List.getLast?_eq_some_getLast hne, Option.some.injEq]
  by_contra h
  apply hall
  rw [← Bool.not_eq_true _ |>.mp h]
  exact List.getLast_mem hne

theorem Agrees.handles {m : Option Bool} (h : Agrees fact concerned r) (hr : Handles r r' m)
    (hclear : m = some true → ¬ r.coming) : Agrees fact concerned r' := by
  have hhead : ∀ b, m = some b → b ∈ r.marks := by
    rintro b rfl
    rw [hr.marks]
    exact List.mem_cons_self
  have htail : ∀ b ∈ r'.marks, b ∈ r.marks := by
    intro b hb
    rw [hr.marks]
    exact List.mem_append_right _ hb
  have hlast : r'.marks ≠ [] → r'.marks.getLast? = r.marks.getLast? := by
    intro hne
    rw [hr.marks, List.getLast?_append_of_ne_nil _ hne]
  constructor
  · exact fun htrue => h.told (htail true htrue)
  · intro hset
    obtain hset | rfl | hasked := hr.set hset
    · exact (h.set hset).imp_right hr.asked
    · exact .inl (h.told (hhead true rfl))
    · exact .inr hasked.2
  · intro hfact hopen
    cases m with
    | none =>
      have hmarks : r.marks = r'.marks := hr.marks
      rw [← hmarks] at hopen ⊢
      refine h.unset hfact ?_
      obtain hunset | hcoming | hfalse := hopen
      · obtain ⟨hunset, -⟩ | hfalse | hcoming := hr.unset hunset
        · exact .inl hunset
        · cases hfalse
        · exact .inr (.inl hcoming)
      · exact .inr (.inl ((hr.coming hcoming).resolve_right (by simp)))
      · exact .inr (.inr hfalse)
    | some b =>
      cases b with
      | true =>
        -- the flag is set now, and nothing will show it unset but a mark
        have hfalse : false ∈ r'.marks := by
          obtain hunset | hcoming | hfalse := hopen
          · obtain ⟨-, hne⟩ | hfalse | hcoming := hr.unset hunset
            · exact absurd rfl hne
            · cases hfalse
            · exact absurd hcoming (hclear rfl)
          · obtain hcoming | hfalse := hr.coming hcoming
            · exact absurd hcoming (hclear rfl)
            · cases hfalse
          · exact hfalse
        rw [hlast (List.ne_nil_of_mem hfalse)]
        exact h.unset hfact (.inr (.inr (htail false hfalse)))
      | false =>
        have hle := h.unset hfact (.inr (.inr (hhead false rfl)))
        rw [hlast, hle]
        intro hnil
        rw [hr.marks, hnil] at hle
        cases hle
  · intro hknown
    have hmark : ∀ b, m = some b → concerned := fun b hb =>
      h.known (.inr (.inr (.inr (List.ne_nil_of_mem (hhead b hb)))))
    obtain hunset | hset | hcoming | hne := hknown
    · obtain ⟨hunset, -⟩ | hfalse | hcoming := hr.unset hunset
      · exact h.known (.inl hunset)
      · exact hmark false hfalse
      · exact h.known (.inr (.inr (.inl hcoming)))
    · obtain hset | htrue | ⟨hunset, -⟩ := hr.set hset
      · exact h.known (.inr (.inl hset))
      · exact hmark true htrue
      · exact h.known (.inl hunset)
    · obtain hcoming | hfalse := hr.coming hcoming
      · exact h.known (.inr (.inr (.inl hcoming)))
      · exact hmark false hfalse
    · obtain ⟨b, hb⟩ := List.exists_mem_of_ne_nil _ hne
      exact h.known (.inr (.inr (.inr (List.ne_nil_of_mem (htail b hb)))))

theorem Agrees.tells {new : List Bool} {asked' : Prop} (h : Agrees fact concerned r)
    (hfact : fact → fact') (hconcerned : concerned → concerned')
    (hnew : Tells fact fact' concerned' new) (hasked : r.set → r.asked → fact' ∨ asked') :
    Agrees fact' concerned' { r with asked := asked', marks := r.marks ++ new } := by
  constructor
  · intro htrue
    obtain htrue | htrue := List.mem_append.mp htrue
    · exact hfact (h.told htrue)
    · exact hnew.told htrue
  · intro hset
    obtain htrue | hask := h.set hset
    · exact .inl (hfact htrue)
    · exact hasked hset hask
  · intro htrue hopen
    have hall : false ∉ new := fun hfalse => hnew.anew hfalse htrue
    have hold : r.unset ∨ r.coming ∨ false ∈ r.marks :=
      hopen.imp_right fun hlater => hlater.imp_right fun hfalse =>
        (List.mem_append.mp hfalse).resolve_right hall
    by_cases hne : new = []
    · subst hne
      show (r.marks ++ []).getLast? = some true
      rw [List.append_nil]
      refine h.unset ((hnew.fact htrue).resolve_right fun htold => ?_) hold
      refine htold (hconcerned (h.known ?_)) rfl
      obtain hunset | hcoming | hfalse := hold
      · exact .inl hunset
      · exact .inr (.inr (.inl hcoming))
      · exact .inr (.inr (.inr (List.ne_nil_of_mem hfalse)))
    · show (r.marks ++ new).getLast? = some true
      rw [List.getLast?_append_of_ne_nil _ hne]
      exact getLast?_of_all_true hne hall
  · intro hknown
    have hmarks : r.marks ++ new ≠ [] → concerned' := by
      intro hne
      by_cases hold : r.marks = []
      · rw [hold, List.nil_append] at hne
        exact hnew.known hne
      · exact hconcerned (h.known (.inr (.inr (.inr hold))))
    obtain hunset | hset | hcoming | hne := hknown
    · exact hconcerned (h.known (.inl hunset))
    · exact hconcerned (h.known (.inr (.inl hset)))
    · exact hconcerned (h.known (.inr (.inr (.inl hcoming))))
    · exact hmarks hne

theorem Agrees.reorder {marks : List Bool} (h : Agrees fact concerned r) (hfact : ¬ fact)
    (hperm : marks.Perm r.marks) : Agrees fact concerned { r with marks := marks } := by
  refine ⟨fun htrue => h.told (hperm.mem_iff.mp htrue), h.set, fun htrue => absurd htrue hfact,
    fun hknown => h.known ?_⟩
  refine hknown.imp_right fun hlater => hlater.imp_right fun hlater => hlater.imp_right ?_
  intro hne hnil
  apply hne
  rw [hnil] at hperm
  exact List.perm_nil.mp hperm

theorem Agrees.converged (h : Agrees fact concerned r) (hmarks : r.marks = [])
    (hasked : ¬ r.asked) : (r.set → fact) ∧ (r.unset → ¬ fact) := by
  constructor
  · exact fun hset => (h.set hset).resolve_right hasked
  · intro hunset hfact
    have hlast := h.unset hfact (.inl hunset)
    rw [hmarks] at hlast
    cases hlast

end Lib
