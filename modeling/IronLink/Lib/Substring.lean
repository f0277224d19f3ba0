import Mathlib.Data.List.Infix
import Mathlib.Tactic.Common
import Mathlib.Tactic.Ring

/-!
# Substrings: searching and replacing

`s.find(old)` and `s.replace(old, new)` on lists, and `s.count(old)`, which says how often
something is replaced. A match ends before the next one begins. The empty text is not
replaced.

Results:
* `replace_singleton`: replacing one element by nothing filters it out.
* `replace_last_iff`: a match at the end is the only change exactly when the text before it
  has none, or nothing changes.
* `find_eq_some`, `infix_of_between`: what is found, and where.
* `infix_append_sep`: what lacks an element lies on one side of it.
* `append_sep_inj`: a text is cut at a separator in one way.
-/

namespace Lib

variable {α : Type*} [DecidableEq α] {old new cs xs ys : List α} {x : α}

/-- `s.replace(old, new)`; `skip` elements of a match are still to be dropped. -/
def replace (old new : List α) : (skip : ℕ) → List α → List α
  | _, [] => []
  | skip + 1, _ :: cs => replace old new skip cs
  | 0, c :: cs =>
    if old <+: c :: cs then new ++ replace old new (old.length - 1) cs
    else c :: replace old new 0 cs

/-- `s.count(old)`. -/
def count (old : List α) : (skip : ℕ) → List α → ℕ
  | _, [] => 0
  | skip + 1, _ :: cs => count old skip cs
  | 0, c :: cs =>
    if old <+: c :: cs then count old (old.length - 1) cs + 1 else count old 0 cs

/-- `s.find(old)`; `none` for `-1`. -/
def find (old : List α) : List α → Option ℕ
  | [] => if old = [] then some 0 else none
  | c :: cs => if old <+: c :: cs then some 0 else (find old cs).map (· + 1)

/-- `s[i:j]`. -/
def between (cs : List α) (i j : ℕ) : List α := (cs.take j).drop i

theorem replace_skip (old new xs ys : List α) :
    replace old new xs.length (xs ++ ys) = replace old new 0 ys := by
  induction xs with
  | nil => rfl
  | cons x xs ih => exact ih

/-- A match is replaced, and the rest is gone through. -/
theorem replace_match (x : α) (old new ys : List α) :
    replace (x :: old) new 0 (x :: old ++ ys) = new ++ replace (x :: old) new 0 ys := by
  rw [List.cons_append, replace, if_pos (by simp), List.length_cons, Nat.add_sub_cancel,
    replace_skip]

theorem replace_cons (h : ¬ old <+: x :: cs) :
    replace old new 0 (x :: cs) = x :: replace old new 0 cs := by
  rw [replace, if_neg h]

theorem replace_self (hold : old ≠ []) (skip : ℕ) (cs : List α) :
    replace old old skip cs = cs.drop skip := by
  induction cs generalizing skip with
  | nil => simp [replace]
  | cons c cs ih =>
    cases skip with
    | succ skip => exact ih skip
    | zero =>
      rw [replace]
      split_ifs with hmatch
      · have hlen : old.length = old.length - 1 + 1 := by
          have hpos : 0 < old.length := List.length_pos_iff.mpr hold
          omega
        have hrest := List.prefix_iff_eq_append.mp hmatch
        rw [hlen, List.drop_succ_cons] at hrest
        rw [ih, hrest, List.drop_zero]
      · rw [ih, List.drop_zero, List.drop_zero]

theorem replace_singleton (x : α) (cs : List α) :
    replace [x] [] 0 cs = cs.filter fun c => c ≠ x := by
  induction cs with
  | nil => rfl
  | cons c cs ih =>
    by_cases hc : c = x
    · rw [hc, List.filter_cons_of_neg (by simp), ← ih]
      exact replace_match x [] [] cs
    · rw [List.filter_cons_of_pos (by simpa using hc), ← ih, replace_cons]
      simpa using Ne.symm hc

/-! ## How often -/

theorem length_replace (old new : List α) (hold : old ≠ []) (skip : ℕ) (cs : List α) :
    (replace old new skip cs).length + count old skip cs * old.length =
      (cs.drop skip).length + count old skip cs * new.length := by
  induction cs generalizing skip with
  | nil => simp [replace, count]
  | cons c cs ih =>
    cases skip with
    | succ skip => exact ih skip
    | zero =>
      rw [replace, count]
      split_ifs with hmatch
      · have hpos : 0 < old.length := List.length_pos_iff.mpr hold
        have hlen : old.length ≤ cs.length + 1 := hmatch.length_le
        have hrest := ih (old.length - 1)
        rw [List.length_drop] at hrest
        rw [List.length_append, List.drop_zero, List.length_cons, Nat.succ_mul, Nat.succ_mul]
        omega
      · have hrest := ih 0
        rw [List.drop_zero] at hrest
        rw [List.drop_zero, List.length_cons, List.length_cons]
        omega

theorem count_pos (h : old <:+: cs) (hold : old ≠ []) : 0 < count old 0 cs := by
  induction cs with
  | nil => exact absurd (List.infix_nil.mp h) hold
  | cons c cs ih =>
    rw [count]
    split_ifs with hmatch
    · exact Nat.succ_pos _
    · exact ih ((List.infix_cons_iff.mp h).resolve_left hmatch)

/-- What is replaced at least once and keeps the length was replaced by as much. -/
theorem length_eq_of_length_replace (h : old <:+: cs) (hold : old ≠ [])
    (hlen : (replace old new 0 cs).length = cs.length) : new.length = old.length := by
  have hcount := length_replace old new hold 0 cs
  rw [hlen, List.drop_zero] at hcount
  exact (Nat.eq_of_mul_eq_mul_left (count_pos h hold) (Nat.add_left_cancel hcount)).symm

/-! ## Where -/

theorem find_isSome (h : old <:+: cs) : (find old cs).isSome = true := by
  induction cs with
  | nil =>
    rw [find, if_pos (List.infix_nil.mp h)]
    rfl
  | cons c cs ih =>
    rw [find]
    split_ifs with hmatch
    · rfl
    · rw [Option.isSome_map]
      exact ih ((List.infix_cons_iff.mp h).resolve_left hmatch)

/-- A match stands where it is found, and none before. -/
theorem find_eq_some {i : ℕ} (h : find old cs = some i) :
    i ≤ cs.length ∧ old <+: cs.drop i ∧ ∀ m < i, ¬ old <+: cs.drop m := by
  induction cs generalizing i with
  | nil =>
    rw [find] at h
    split_ifs at h with hold
    obtain rfl := Option.some.inj h
    rw [hold]
    exact ⟨Nat.le_refl 0, List.nil_prefix, fun m hm => absurd hm (Nat.not_lt_zero m)⟩
  | cons c cs ih =>
    rw [find] at h
    split_ifs at h with hmatch
    · obtain rfl := Option.some.inj h
      exact ⟨Nat.zero_le _, hmatch, fun m hm => absurd hm (Nat.not_lt_zero m)⟩
    · obtain ⟨i', hi', rfl⟩ := Option.map_eq_some_iff.mp h
      obtain ⟨hlen, hfound, hfirst⟩ := ih hi'
      refine ⟨Nat.succ_le_succ hlen, hfound, fun m hm => ?_⟩
      cases m with
      | zero => exact hmatch
      | succ m => exact hfirst m (by omega)

omit [DecidableEq α] in
theorem isInfix_between (cs : List α) (i j : ℕ) : between cs i j <:+: cs :=
  (List.drop_suffix i _).isInfix.trans (List.take_prefix j cs).isInfix

omit [DecidableEq α] in
theorem length_between (cs : List α) (i j : ℕ) :
    (between cs i j).length = min j cs.length - i := by
  unfold between
  rw [List.length_drop, List.length_take]

omit [DecidableEq α] in
theorem between_append {i j m : ℕ} (hij : i ≤ j) (hjm : j ≤ m) (cs : List α) :
    between cs i j ++ between cs j m = between cs i m := by
  unfold between
  conv_rhs => rw [← List.take_append_drop j (cs.take m), List.take_take, min_eq_left hjm]
  by_cases hlen : j ≤ cs.length
  · exact (List.drop_append_of_le_length (by rw [List.length_take]; omega)).symm
  · have hnil : (cs.take m).drop j = [] := by
      rw [List.drop_eq_nil_iff, List.length_take]
      omega
    rw [hnil, List.append_nil, List.append_nil]

omit [DecidableEq α] in
/-- A match between two bounds lies in what is between them. -/
theorem infix_of_between {us vs ws : List α} {i : ℕ} (h : old <+: (us ++ (vs ++ ws)).drop i)
    (hfirst : us.length ≤ i) (hlast : i + old.length ≤ us.length + vs.length) : old <:+: vs := by
  have hdrop : (us ++ (vs ++ ws)).drop i = vs.drop (i - us.length) ++ ws := by
    rw [List.drop_append, List.drop_eq_nil_of_le hfirst, List.nil_append,
      List.drop_append_of_le_length (by omega)]
  rw [hdrop] at h
  have hlen : old.length ≤ (vs.drop (i - us.length)).length := by
    rw [List.length_drop]
    omega
  have hmatch : old <+: vs.drop (i - us.length) :=
    List.prefix_of_prefix_length_le h (List.prefix_append _ ws) hlen
  exact hmatch.isInfix.trans (List.drop_suffix _ vs).isInfix

/-! ## Around a separator -/

omit [DecidableEq α] in
theorem mem_of_prefix_cons (hold : old ≠ []) (h : old <+: x :: ys) : x ∈ old := by
  cases old with
  | nil => exact absurd rfl hold
  | cons c old =>
    rw [(List.cons_prefix_cons.mp h).1]
    exact List.mem_cons_self

omit [DecidableEq α] in
theorem prefix_append_sep (h : x ∉ old) : old <+: xs ++ x :: ys ↔ old <+: xs := by
  induction xs generalizing old with
  | nil =>
    rw [List.nil_append, List.prefix_nil]
    constructor
    · intro hmatch
      by_contra hold
      exact h (mem_of_prefix_cons hold hmatch)
    · rintro rfl
      exact List.nil_prefix
  | cons c xs ih =>
    cases old with
    | nil => simp
    | cons d old =>
      rw [List.cons_append, List.cons_prefix_cons, List.cons_prefix_cons,
        ih fun hmem => h (List.mem_cons_of_mem d hmem)]

omit [DecidableEq α] in
theorem infix_append_sep (h : x ∉ old) (hold : old ≠ []) :
    old <:+: xs ++ x :: ys ↔ old <:+: xs ∨ old <:+: ys := by
  constructor
  · intro hmatch
    rcases List.infix_append_iff_ne_nil.mp hmatch with hxs | hys | ⟨l, r, -, hr, rfl, -, hys⟩
    · exact .inl hxs
    · rcases List.infix_cons_iff.mp hys with hhere | hys
      · exact absurd (mem_of_prefix_cons hold hhere) h
      · exact .inr hys
    · exact absurd (List.mem_append_right l (mem_of_prefix_cons hr hys)) h
  · rintro (hxs | hys)
    · exact hxs.trans (List.prefix_append _ _).isInfix
    · exact hys.trans ((List.suffix_cons x ys).trans (List.suffix_append _ _)).isInfix

omit [DecidableEq α] in
/-- Two texts are cut at the first separator in the same place. -/
theorem append_sep_inj {us vs : List α} (hxs : x ∉ xs) (hys : x ∉ ys)
    (h : xs ++ x :: us = ys ++ x :: vs) : xs = ys ∧ us = vs := by
  induction xs generalizing ys with
  | nil =>
    cases ys with
    | nil => exact ⟨rfl, List.tail_eq_of_cons_eq h⟩
    | cons d ys =>
      obtain ⟨rfl, -⟩ := List.cons_eq_cons.mp h
      exact absurd List.mem_cons_self hys
  | cons c xs ih =>
    cases ys with
    | nil =>
      obtain ⟨rfl, -⟩ := List.cons_eq_cons.mp h
      exact absurd List.mem_cons_self hxs
    | cons d ys =>
      obtain ⟨rfl, htail⟩ := List.cons_eq_cons.mp h
      obtain ⟨rfl, rfl⟩ := ih (fun hmem => hxs (List.mem_cons_of_mem _ hmem))
        (fun hmem => hys (List.mem_cons_of_mem _ hmem)) htail
      exact ⟨rfl, rfl⟩

/-- A match before the last one changes the length, or puts `d` where `b` was. -/
theorem eq_of_replace_last {b d : List α} (hb : x ∉ b) (h : x :: b <:+: xs)
    (heq : replace (x :: b) (x :: d) 0 (xs ++ x :: b) = xs ++ x :: d) : b = d := by
  induction xs with
  | nil => cases List.infix_nil.mp h
  | cons c xs ih =>
    have hhere : x :: b <+: c :: (xs ++ x :: b) ↔ x :: b <+: c :: xs := by
      rw [List.cons_prefix_cons, List.cons_prefix_cons, prefix_append_sep hb]
    by_cases hmatch : x :: b <+: c :: xs
    · obtain ⟨rest, hrest⟩ := hmatch
      rw [← hrest, List.append_assoc, replace_match] at heq
      have hcons : d ++ replace (x :: b) (x :: d) 0 (rest ++ x :: b) =
          b ++ (rest ++ x :: d) := by simpa using heq
      have hlen := congrArg List.length hcons
      simp only [List.length_append, List.length_cons] at hlen
      have hsame : (x :: d).length = (x :: b).length := by
        refine length_eq_of_length_replace (List.suffix_append rest _).isInfix
          (List.cons_ne_nil _ _) ?_
        simp only [List.length_append, List.length_cons]
        omega
      have hlength : d.length = b.length := by simpa using hsame
      exact (List.append_inj_left hcons hlength).symm
    · rw [List.cons_append, replace_cons fun hpre => hmatch (hhere.mp hpre)] at heq
      exact ih ((List.infix_cons_iff.mp h).resolve_left hmatch) (List.tail_eq_of_cons_eq heq)

/-- The match at the end is the only one that changes anything. -/
theorem replace_last_iff {b d : List α} (hb : x ∉ b) (xs : List α) :
    replace (x :: b) (x :: d) 0 (xs ++ x :: b) = xs ++ x :: d ↔
      b = d ∨ ¬ x :: b <:+: xs := by
  constructor
  · intro heq
    by_cases h : x :: b <:+: xs
    · exact .inl (eq_of_replace_last hb h heq)
    · exact .inr h
  · rintro (rfl | h)
    · rw [replace_self (List.cons_ne_nil _ _), List.drop_zero]
    · induction xs with
      | nil =>
        have hlast := replace_match x b (x :: d) []
        rw [List.append_nil, replace, List.append_nil] at hlast
        exact hlast
      | cons c xs ih =>
        rw [List.infix_cons_iff, not_or] at h
        have hnot : ¬ x :: b <+: c :: (xs ++ x :: b) := by
          rw [List.cons_prefix_cons, prefix_append_sep hb, ← List.cons_prefix_cons]
          exact h.1
        rw [List.cons_append, replace_cons hnot, ih h.2, List.cons_append]

end Lib
