import Mathlib.Data.List.Basic
import Mathlib.Tactic.Common

/-!
# Regular expressions with anchors

A backtracking matcher goes from a position in the text, what is before it (the last
element first) and what is after it, to the positions where a match can end, the preferred
one first. `Spans` says what the expression means.

Results:
* `mem_rests_iff`: the matcher finds the positions that the meaning allows.
* `isMatch_iff`: when a match is found at the start of the text.
* `repeated_one`: how often a class may be repeated.
-/

namespace Lib

/-- Regular expressions over the elements `α`. -/
inductive Regex (α : Type)
  /-- `^` -/
  | bos
  /-- `$`: at the end, or before a `newline` that is the end -/
  | eol (newline : α)
  /-- one element of a class -/
  | one (p : α → Bool)
  | seq (r s : Regex α)
  /-- `r{lo,hi}` with `hi = lo + extra`, greedy -/
  | rep (r : Regex α) (lo extra : ℕ)

namespace Regex

variable {α : Type}

/-- What is before the position, the last element first, and what is after it. -/
abbrev Pos (α : Type) := List α × List α

/-- Up to `extra` times, as often as possible first. -/
def upTo (rests : Pos α → List (Pos α)) : (extra : ℕ) → Pos α → List (Pos α)
  | 0, pos => [pos]
  | extra + 1, pos => (rests pos).flatMap (upTo rests extra) ++ [pos]

/-- `lo` times, and up to `extra` times more. -/
def atLeast (rests : Pos α → List (Pos α)) (extra : ℕ) : (lo : ℕ) → Pos α → List (Pos α)
  | 0, pos => upTo rests extra pos
  | lo + 1, pos => (rests pos).flatMap (atLeast rests extra lo)

/-- Where a match that begins at the position can end. -/
def rests [DecidableEq α] : Regex α → Pos α → List (Pos α)
  | .bos, pos => if pos.1 = [] then [pos] else []
  | .eol newline, pos => if pos.2 = [] ∨ pos.2 = [newline] then [pos] else []
  | .one _, (_, []) => []
  | .one p, (before, c :: after) => if p c then [(c :: before, after)] else []
  | .seq r s, pos => (r.rests pos).flatMap s.rests
  | .rep r lo extra, pos => atLeast r.rests extra lo pos

/-- `re.match(r, s)` finds a match. -/
def isMatch [DecidableEq α] (r : Regex α) (cs : List α) : Bool := r.rests ([], cs) ≠ []

/-! ## Meaning -/

/-- `n` matches of `spans`, one after the other. -/
def Times (spans : List α → List α → List α → Prop) : ℕ → List α → List α → List α → Prop
  | 0, _, mid, _ => mid = []
  | n + 1, before, mid, after => ∃ xs ys, mid = xs ++ ys ∧ spans before xs (ys ++ after) ∧
      Times spans n (xs.reverse ++ before) ys after

/-- At least `lo` and at most `lo + extra` of them. -/
def Repeated (spans : List α → List α → List α → Prop) (lo extra : ℕ)
    (before mid after : List α) : Prop :=
  ∃ n, lo ≤ n ∧ n ≤ lo + extra ∧ Times spans n before mid after

/-- `mid` is a match where it stands between `before`, the last element first, and `after`. -/
def Spans : Regex α → (before mid after : List α) → Prop
  | .bos, before, mid, _ => before = [] ∧ mid = []
  | .eol newline, _, mid, after => mid = [] ∧ (after = [] ∨ after = [newline])
  | .one p, _, mid, _ => ∃ c, mid = [c] ∧ p c = true
  | .seq r s, before, mid, after => ∃ xs ys, mid = xs ++ ys ∧ r.Spans before xs (ys ++ after) ∧
      s.Spans (xs.reverse ++ before) ys after
  | .rep r lo extra, before, mid, after => Repeated r.Spans lo extra before mid after

/-- The matcher `rests` finds the matches of `spans`. -/
def Finds (rests : Pos α → List (Pos α)) (spans : List α → List α → List α → Prop) : Prop :=
  ∀ before cs before' after, (before', after) ∈ rests (before, cs) ↔
    ∃ mid, cs = mid ++ after ∧ before' = mid.reverse ++ before ∧ spans before mid after

variable {f g : Pos α → List (Pos α)} {P Q : List α → List α → List α → Prop}

theorem finds_seq (hf : Finds f P) (hg : Finds g Q) :
    Finds (fun pos => (f pos).flatMap g) fun before mid after => ∃ xs ys, mid = xs ++ ys ∧
      P before xs (ys ++ after) ∧ Q (xs.reverse ++ before) ys after := by
  intro before cs before' after
  rw [List.mem_flatMap]
  constructor
  · rintro ⟨⟨middle, rest⟩, hmiddle, hend⟩
    obtain ⟨xs, rfl, rfl, hxs⟩ := (hf _ _ _ _).mp hmiddle
    obtain ⟨ys, rfl, rfl, hys⟩ := (hg _ _ _ _).mp hend
    exact ⟨xs ++ ys, by simp, by simp, xs, ys, rfl, hxs, hys⟩
  · rintro ⟨mid, rfl, rfl, xs, ys, rfl, hxs, hys⟩
    refine ⟨(xs.reverse ++ before, ys ++ after), (hf _ _ _ _).mpr ⟨xs, by simp, rfl, hxs⟩, ?_⟩
    exact (hg _ _ _ _).mpr ⟨ys, rfl, by simp, hys⟩

theorem Finds.congr (hf : Finds f P)
    (h : ∀ before mid after, P before mid after ↔ Q before mid after) : Finds f Q := by
  have hsame : P = Q := funext fun before => funext fun mid => funext fun after =>
    propext (h before mid after)
  exact hsame ▸ hf

/-- One more in front. -/
theorem repeated_succ (lo extra : ℕ) (before mid after : List α) :
    (∃ xs ys, mid = xs ++ ys ∧ P before xs (ys ++ after) ∧
        Repeated P lo extra (xs.reverse ++ before) ys after) ↔
      Repeated P (lo + 1) extra before mid after := by
  constructor
  · rintro ⟨xs, ys, hmid, hxs, n, hlo, hhi, hys⟩
    exact ⟨n + 1, by omega, by omega, xs, ys, hmid, hxs, hys⟩
  · rintro ⟨n, hlo, hhi, htimes⟩
    obtain ⟨n, rfl⟩ : ∃ k, n = k + 1 := ⟨n - 1, by omega⟩
    obtain ⟨xs, ys, hmid, hxs, hys⟩ := htimes
    exact ⟨xs, ys, hmid, hxs, n, by omega, by omega, hys⟩

theorem finds_upTo (hf : Finds f P) (extra : ℕ) : Finds (upTo f extra) (Repeated P 0 extra) := by
  induction extra with
  | zero =>
    intro before cs before' after
    rw [upTo, List.mem_singleton, Prod.mk.injEq]
    constructor
    · rintro ⟨rfl, rfl⟩
      exact ⟨[], rfl, rfl, 0, Nat.le_refl _, Nat.le_refl _, rfl⟩
    · rintro ⟨mid, rfl, rfl, n, -, hhi, htimes⟩
      obtain rfl : n = 0 := by omega
      rw [show mid = [] from htimes]
      exact ⟨rfl, rfl⟩
  | succ extra ih =>
    intro before cs before' after
    rw [upTo, List.mem_append, List.mem_singleton, Prod.mk.injEq,
      finds_seq hf ih before cs before' after]
    constructor
    · rintro (⟨mid, hcs, hbefore, hmid⟩ | ⟨rfl, rfl⟩)
      · obtain ⟨n, -, hhi, htimes⟩ := (repeated_succ 0 extra before mid after).mp hmid
        exact ⟨mid, hcs, hbefore, n, by omega, by omega, htimes⟩
      · exact ⟨[], rfl, rfl, 0, Nat.le_refl _, by omega, rfl⟩
    · rintro ⟨mid, hcs, hbefore, n, -, hhi, htimes⟩
      by_cases hn : n = 0
      · subst hn
        obtain rfl : mid = [] := htimes
        exact .inr ⟨hbefore, hcs.symm⟩
      · exact .inl ⟨mid, hcs, hbefore, (repeated_succ 0 extra before mid after).mpr
          ⟨n, by omega, by omega, htimes⟩⟩

theorem finds_atLeast (hf : Finds f P) (lo extra : ℕ) :
    Finds (atLeast f extra lo) (Repeated P lo extra) := by
  induction lo with
  | zero => exact finds_upTo hf extra
  | succ lo ih => exact (finds_seq hf ih).congr (repeated_succ lo extra)

/-- The matcher finds what the expression means. -/
theorem mem_rests_iff [DecidableEq α] (r : Regex α) : Finds r.rests r.Spans := by
  induction r with
  | bos =>
    intro before cs before' after
    rw [rests]
    split_ifs with h
    · simp only [List.mem_singleton, Prod.mk.injEq, Spans]
      constructor
      · rintro ⟨rfl, rfl⟩
        exact ⟨[], rfl, rfl, h, rfl⟩
      · rintro ⟨mid, rfl, rfl, -, rfl⟩
        exact ⟨rfl, rfl⟩
    · constructor
      · intro hnone
        cases hnone
      · rintro ⟨mid, -, -, hbefore, -⟩
        exact absurd hbefore h
  | eol newline =>
    intro before cs before' after
    rw [rests]
    split_ifs with h
    · simp only [List.mem_singleton, Prod.mk.injEq, Spans]
      constructor
      · rintro ⟨rfl, rfl⟩
        exact ⟨[], rfl, rfl, rfl, h⟩
      · rintro ⟨mid, rfl, rfl, rfl, -⟩
        exact ⟨rfl, rfl⟩
    · constructor
      · intro hnone
        cases hnone
      · rintro ⟨mid, rfl, -, rfl, hafter⟩
        exact absurd hafter h
  | one p =>
    intro before cs before' after
    cases cs with
    | nil => simp [rests, Spans]
    | cons c cs =>
      rw [rests]
      by_cases hc : p c = true
      · rw [if_pos hc, List.mem_singleton, Prod.mk.injEq]
        constructor
        · rintro ⟨rfl, rfl⟩
          exact ⟨[c], rfl, rfl, c, rfl, hc⟩
        · rintro ⟨mid, hcs, rfl, d, rfl, -⟩
          obtain ⟨rfl, rfl⟩ := List.cons_eq_cons.mp hcs
          exact ⟨rfl, rfl⟩
      · rw [if_neg hc]
        constructor
        · intro hnone
          cases hnone
        · rintro ⟨mid, hcs, -, d, rfl, hd⟩
          obtain ⟨rfl, -⟩ := List.cons_eq_cons.mp hcs
          exact absurd hd hc
  | seq r s ihr ihs => exact finds_seq ihr ihs
  | rep r lo extra ih => exact finds_atLeast ih lo extra

theorem isMatch_iff [DecidableEq α] (r : Regex α) (cs : List α) :
    r.isMatch cs = true ↔ ∃ mid after, cs = mid ++ after ∧ r.Spans [] mid after := by
  unfold isMatch
  rw [decide_eq_true_eq, ne_eq, List.eq_nil_iff_forall_not_mem]
  push Not
  constructor
  · rintro ⟨⟨before', after⟩, hmem⟩
    obtain ⟨mid, hcs, -, hmid⟩ := (mem_rests_iff r _ _ _ _).mp hmem
    exact ⟨mid, after, hcs, hmid⟩
  · rintro ⟨mid, after, hcs, hmid⟩
    exact ⟨(mid.reverse ++ [], after), (mem_rests_iff r _ _ _ _).mpr ⟨mid, hcs, rfl, hmid⟩⟩

/-- A class repeated. -/
theorem times_one (p : α → Bool) (n : ℕ) (before mid after : List α) :
    Times (one p).Spans n before mid after ↔ mid.length = n ∧ ∀ c ∈ mid, p c = true := by
  induction n generalizing before mid with
  | zero =>
    rw [Times, List.length_eq_zero_iff]
    constructor
    · rintro rfl
      simp
    · exact fun h => h.1
  | succ n ih =>
    constructor
    · rintro ⟨xs, ys, rfl, ⟨c, rfl, hc⟩, hys⟩
      obtain ⟨hlen, hall⟩ := (ih _ _).mp hys
      refine ⟨by simp [hlen], fun d hd => ?_⟩
      rcases List.mem_cons.mp hd with rfl | hd
      · exact hc
      · exact hall d hd
    · rintro ⟨hlen, hall⟩
      cases mid with
      | nil => cases hlen
      | cons c mid =>
        refine ⟨[c], mid, rfl, ⟨c, rfl, hall c List.mem_cons_self⟩, (ih _ _).mpr ⟨?_, ?_⟩⟩
        · exact Nat.succ.inj hlen
        · exact fun d hd => hall d (List.mem_cons_of_mem c hd)

theorem repeated_one (p : α → Bool) (lo extra : ℕ) (before mid after : List α) :
    Repeated (one p).Spans lo extra before mid after ↔
      (lo ≤ mid.length ∧ mid.length ≤ lo + extra) ∧ ∀ c ∈ mid, p c = true := by
  unfold Repeated
  simp only [times_one]
  constructor
  · rintro ⟨n, hlo, hhi, rfl, hall⟩
    exact ⟨⟨hlo, hhi⟩, hall⟩
  · rintro ⟨⟨hlo, hhi⟩, hall⟩
    exact ⟨mid.length, hlo, hhi, rfl, hall⟩

end Regex

end Lib
