import Mathlib.Data.List.Infix
import Mathlib.Tactic.Common

/-!
# Patterns of `LIKE`

`%` stands for any run of characters, `_` for any one character, a character after a backslash for
itself. A pattern that ends in a lone backslash is an error.

Results:
* `likes_append`: a pattern in two parts cuts the text in two.
* `likes_between`: a pattern between two `%` is met inside of the text.
* `parseLike_append`, `parseLike_error`: how a pattern is read that has been put together.
-/

namespace Lib

inductive LikeToken
  | run
  | one
  | char (c : Char)
  deriving DecidableEq

/-- The token of a character that is not escaped. -/
def LikeToken.ofChar (c : Char) : LikeToken :=
  if c = '%' then .run else if c = '_' then .one else .char c

/-- The pattern as it is read; `none`: it ends in the escape character. -/
def parseLike : List Char → Option (List LikeToken)
  | [] => some []
  | c :: pattern =>
    if c = '\\' then
      match pattern with
      | [] => none
      | a :: pattern => (parseLike pattern).map (.char a :: ·)
    else (parseLike pattern).map (.ofChar c :: ·)

/-- The text is like the pattern. -/
def likes : List LikeToken → List Char → Bool
  | [], text => text.isEmpty
  | .run :: tokens, text => text.tails.any (likes tokens)
  | .one :: _, [] => false
  | .one :: tokens, _ :: text => likes tokens text
  | .char _ :: _, [] => false
  | .char a :: tokens, c :: text => a = c && likes tokens text

/-- A character that a pattern does not read as itself. -/
def isSpecial (c : Char) : Bool := c = '%' || c = '_' || c = '\\'

variable {tokens tokens' : List LikeToken} {text : List Char} {a c : Char}

/-! ## Texts that are like a pattern -/

@[simp] theorem likes_nil : likes [] text = true ↔ text = [] := List.isEmpty_iff

theorem likes_run : likes (.run :: tokens) text = true ↔
    ∃ skipped rest, text = skipped ++ rest ∧ likes tokens rest = true := by
  rw [likes, List.any_eq_true]
  constructor
  · rintro ⟨rest, hrest, hlikes⟩
    obtain ⟨skipped, rfl⟩ := (List.mem_tails rest text).mp hrest
    exact ⟨skipped, rest, rfl, hlikes⟩
  · rintro ⟨skipped, rest, rfl, hlikes⟩
    exact ⟨rest, (List.mem_tails _ _).mpr (List.suffix_append _ _), hlikes⟩

theorem likes_one : likes (.one :: tokens) text = true ↔
    ∃ c rest, text = c :: rest ∧ likes tokens rest = true := by
  cases text with
  | nil => simp [likes]
  | cons c text => simp [likes]

theorem likes_char : likes (.char a :: tokens) text = true ↔
    ∃ rest, text = a :: rest ∧ likes tokens rest = true := by
  cases text with
  | nil => simp [likes]
  | cons c text =>
    rw [likes, Bool.and_eq_true, decide_eq_true_eq]
    constructor
    · rintro ⟨rfl, hrest⟩
      exact ⟨text, rfl, hrest⟩
    · rintro ⟨rest, heq, hrest⟩
      obtain ⟨rfl, rfl⟩ := List.cons_eq_cons.mp heq
      exact ⟨rfl, hrest⟩

/-- The parts of a pattern are met one after the other. -/
theorem likes_append : likes (tokens ++ tokens') text = true ↔
    ∃ first rest, text = first ++ rest ∧ likes tokens first = true ∧ likes tokens' rest = true := by
  induction tokens generalizing text with
  | nil => simp
  | cons token tokens ih =>
    rw [List.cons_append]
    cases token with
    | run =>
      simp only [likes_run, ih]
      constructor
      · rintro ⟨skipped, _, rfl, first, rest, rfl, hfirst, hrest⟩
        exact ⟨skipped ++ first, rest, by simp, ⟨skipped, first, rfl, hfirst⟩, hrest⟩
      · rintro ⟨_, rest, rfl, ⟨skipped, first, rfl, hfirst⟩, hrest⟩
        exact ⟨skipped, first ++ rest, by simp, first, rest, rfl, hfirst, hrest⟩
    | one =>
      simp only [likes_one, ih]
      constructor
      · rintro ⟨c, _, rfl, first, rest, rfl, hfirst, hrest⟩
        exact ⟨c :: first, rest, by simp, ⟨c, first, rfl, hfirst⟩, hrest⟩
      · rintro ⟨_, rest, rfl, ⟨c, first, rfl, hfirst⟩, hrest⟩
        exact ⟨c, first ++ rest, by simp, first, rest, rfl, hfirst, hrest⟩
    | char a =>
      simp only [likes_char, ih]
      constructor
      · rintro ⟨_, rfl, first, rest, rfl, hfirst, hrest⟩
        exact ⟨a :: first, rest, by simp, ⟨first, rfl, hfirst⟩, hrest⟩
      · rintro ⟨_, rest, rfl, ⟨first, rfl, hfirst⟩, hrest⟩
        exact ⟨first ++ rest, by simp, first, rest, rfl, hfirst, hrest⟩

/-- Only the text itself is like a pattern without wildcards. -/
theorem likes_literal (literal : List Char) :
    likes (literal.map .char) text = true ↔ text = literal := by
  induction literal generalizing text with
  | nil => simp
  | cons a literal ih =>
    rw [List.map_cons, likes_char]
    simp only [ih]
    constructor
    · rintro ⟨_, rfl, rfl⟩
      rfl
    · rintro rfl
      exact ⟨literal, rfl, rfl⟩

/-- What stands between two `%` is met somewhere. -/
theorem likes_between : likes (.run :: tokens ++ [.run]) text = true ↔
    ∃ stretch, stretch <:+: text ∧ likes tokens stretch = true := by
  rw [likes_append]
  constructor
  · rintro ⟨_, after, rfl, hfirst, -⟩
    obtain ⟨before, stretch, rfl, hstretch⟩ := likes_run.mp hfirst
    exact ⟨stretch, ⟨before, after, rfl⟩, hstretch⟩
  · rintro ⟨stretch, ⟨before, after, rfl⟩, hstretch⟩
    refine ⟨before ++ stretch, after, rfl, likes_run.mpr ⟨before, stretch, rfl, hstretch⟩, ?_⟩
    exact likes_run.mpr ⟨after, [], by simp, likes_nil.mpr rfl⟩

/-! ## Patterns that are put together -/

theorem parseLike_escape (a : Char) (pattern : List Char) :
    parseLike ('\\' :: a :: pattern) = (parseLike pattern).map (.char a :: ·) := by
  rw [parseLike, if_pos rfl]

theorem parseLike_cons (hc : c ≠ '\\') (pattern : List Char) :
    parseLike (c :: pattern) = (parseLike pattern).map (.ofChar c :: ·) := by
  rw [parseLike.eq_def]
  exact if_neg hc

/-- A pattern without special characters is read as itself. -/
theorem parseLike_literal {literal : List Char} (h : ∀ c ∈ literal, isSpecial c = false) :
    parseLike literal = some (literal.map .char) := by
  induction literal with
  | nil => rfl
  | cons c literal ih =>
    obtain ⟨hc, hliteral⟩ := List.forall_mem_cons.mp h
    simp only [isSpecial, Bool.or_eq_false_iff, decide_eq_false_iff_not] at hc
    obtain ⟨⟨hrun, hone⟩, hescape⟩ := hc
    rw [parseLike_cons hescape, ih hliteral, LikeToken.ofChar, if_neg hrun, if_neg hone]
    rfl

/-- What follows a pattern that can be read is read after it. -/
theorem parseLike_append {pattern : List Char} (h : parseLike pattern = some tokens)
    (rest : List Char) : parseLike (pattern ++ rest) = (parseLike rest).map (tokens ++ ·) := by
  induction pattern using parseLike.induct generalizing tokens with
  | case1 =>
    obtain rfl := Option.some.inj h
    simp
  | case2 => cases h
  | case3 a pattern ih =>
    rw [parseLike_escape] at h
    obtain ⟨tail, htail, rfl⟩ := Option.map_eq_some_iff.mp h
    rw [List.cons_append, List.cons_append, parseLike_escape, ih htail, Option.map_map]
    rfl
  | case4 c pattern hc ih =>
    rw [parseLike_cons hc] at h
    obtain ⟨tail, htail, rfl⟩ := Option.map_eq_some_iff.mp h
    rw [List.cons_append, parseLike_cons hc, ih htail, Option.map_map]
    rfl

/-- What is missing is the character that a last backslash stands before. -/
theorem parseLike_error {pattern : List Char} (h : parseLike pattern = none) :
    ∃ first tokens, pattern = first ++ ['\\'] ∧ parseLike first = some tokens := by
  induction pattern using parseLike.induct with
  | case1 => cases h
  | case2 => exact ⟨[], [], rfl, rfl⟩
  | case3 a pattern ih =>
    rw [parseLike_escape, Option.map_eq_none_iff] at h
    obtain ⟨first, tokens, rfl, hfirst⟩ := ih h
    exact ⟨'\\' :: a :: first, .char a :: tokens, rfl, by rw [parseLike_escape, hfirst]; rfl⟩
  | case4 c pattern hc ih =>
    rw [parseLike_cons hc, Option.map_eq_none_iff] at h
    obtain ⟨first, tokens, rfl, hfirst⟩ := ih h
    exact ⟨c :: first, .ofChar c :: tokens, rfl, by rw [parseLike_cons hc, hfirst]; rfl⟩

end Lib
