import Mathlib.Data.List.DropRight
import Mathlib.Data.List.Infix

/-!
# Words of a list

Some of the elements separate. A word is a run of the others that is not empty and
cannot be made longer.

Results:
* `mem_words_iff`: the pieces between the separators are the runs.
* `words_append_of_head`, `words_append_of_getLast`: where one of two lists begins or ends
  with a separator, the words of both together are those of each.
* `words_dropWhile`, `words_rdropWhile`, `words_map`: what leaves the words as they are.
-/

namespace Lib

variable {α : Type*} {sep : α → Bool} {xs ys word : List α}

/-- The pieces between the separators, without the empty ones. -/
def words (sep : α → Bool) (xs : List α) : List (List α) :=
  (xs.splitOnP sep).filter fun word => word ≠ []

/-- `word` is a run of `p` in `xs`, with nothing of `p` before or after it. -/
structure IsRun (p : α → Bool) (xs word : List α) : Prop where
  ne_nil : word ≠ []
  all : ∀ c ∈ word, p c = true
  maximal : ∃ before after, xs = before ++ word ++ after ∧
    (∀ c ∈ before.getLast?, p c = false) ∧ ∀ c ∈ after.head?, p c = false

@[simp] theorem words_nil : words sep [] = [] := by
  simp [words, List.splitOnP_nil]

/-- A list splits at a separator. -/
theorem words_append_cons {c : α} (hc : sep c = true) (xs ys : List α) :
    words sep (xs ++ c :: ys) = words sep xs ++ words sep ys := by
  unfold words
  rw [List.splitOnP_append_cons xs ys hc, List.filter_append]

theorem words_cons_sep {c : α} (hc : sep c = true) (xs : List α) :
    words sep (c :: xs) = words sep xs := by
  simpa using words_append_cons hc [] xs

theorem words_of_all (hne : xs ≠ []) (h : ∀ c ∈ xs, sep c = false) : words sep xs = [xs] := by
  unfold words
  rw [List.splitOnP_eq_singleton h]
  simp [hne]

theorem words_append_of_head (h : ∀ c ∈ ys.head?, sep c = true) (xs : List α) :
    words sep (xs ++ ys) = words sep xs ++ words sep ys := by
  cases ys with
  | nil => simp
  | cons c ys => rw [words_append_cons (h c rfl), words_cons_sep (h c rfl)]

theorem words_append_of_getLast (h : ∀ c ∈ xs.getLast?, sep c = true) (ys : List α) :
    words sep (xs ++ ys) = words sep xs ++ words sep ys := by
  rcases List.eq_nil_or_concat xs with rfl | ⟨xs, c, rfl⟩
  · simp
  · have hc : sep c = true := h c (by simp)
    have hxs : words sep (xs ++ [c]) = words sep xs := by simp [words_append_cons hc]
    rw [List.concat_eq_append, hxs, List.append_assoc, List.singleton_append,
      words_append_cons hc]

/-! ## Words and runs -/

/-- A word is a run: where the text read so far, `acc`, has no separator, the word is `acc`
    and what follows up to the next one, or comes later. -/
theorem maximal_of_mem_words (acc xs : List α) (hacc : ∀ c ∈ acc, sep c = false)
    (h : word ∈ words sep (acc ++ xs)) :
    (∀ c ∈ word, sep c = false) ∧ ∃ before after, acc ++ xs = before ++ word ++ after ∧
      (∀ c ∈ before.getLast?, sep c = true) ∧ ∀ c ∈ after.head?, sep c = true := by
  have hfirst : word ∈ words sep acc → word = acc := fun hword => by
    by_cases hnil : acc = []
    · rw [hnil, words_nil] at hword
      cases hword
    · rw [words_of_all hnil hacc] at hword
      exact List.mem_singleton.mp hword
  induction xs generalizing acc with
  | nil =>
    rw [List.append_nil] at h
    obtain rfl := hfirst h
    exact ⟨hacc, [], [], by simp⟩
  | cons c xs ih =>
    by_cases hc : sep c = true
    · rw [words_append_cons hc, List.mem_append] at h
      rcases h with h | h
      · obtain rfl := hfirst h
        exact ⟨hacc, [], c :: xs, by simp [hc]⟩
      · obtain ⟨hall, before, after, hxs, hbefore, hafter⟩ := ih [] (by simp) h (by simp)
        rw [List.nil_append] at hxs
        refine ⟨hall, acc ++ c :: before, after, by simp [hxs], ?_, hafter⟩
        rw [List.getLast?_append_cons]
        cases before with
        | nil => simpa using hc
        | cons d before => rwa [List.getLast?_cons_cons]
    · have hnext : ∀ d ∈ acc ++ [c], sep d = false := by
        intro d hd
        rcases List.mem_append.mp hd with hd | hd
        · exact hacc d hd
        · rw [List.mem_singleton.mp hd]
          exact Bool.eq_false_iff.mpr hc
      have hword : word ∈ words sep (acc ++ [c]) → word = acc ++ [c] := fun hword => by
        rw [words_of_all (by simp) hnext] at hword
        exact List.mem_singleton.mp hword
      simpa using ih (acc ++ [c]) hnext (by simpa using h) hword

/-- The words are the runs. -/
theorem mem_words_iff : word ∈ words sep xs ↔ IsRun (fun c => !sep c) xs word := by
  constructor
  · intro h
    have hne : word ≠ [] := of_decide_eq_true (List.mem_filter.mp h).2
    obtain ⟨hall, before, after, hxs, hbefore, hafter⟩ :=
      maximal_of_mem_words [] xs (by simp) h
    exact ⟨hne, by simpa using hall, before, after, by simpa using hxs, by simpa using hbefore,
      by simpa using hafter⟩
  · rintro ⟨hne, hall, before, after, rfl, hbefore, hafter⟩
    have hword : words sep word = [word] := words_of_all hne (by simpa using hall)
    rw [words_append_of_head (by simpa using hafter),
      words_append_of_getLast (by simpa using hbefore), hword]
    simp

/-! ## What leaves the words as they are -/

theorem words_dropWhile (sep : α → Bool) (xs : List α) :
    words sep (xs.dropWhile sep) = words sep xs := by
  induction xs with
  | nil => rfl
  | cons c xs ih =>
    by_cases hc : sep c = true
    · rw [List.dropWhile_cons_of_pos hc, ih, words_cons_sep hc]
    · rw [List.dropWhile_cons_of_neg hc]

theorem words_rdropWhile (sep : α → Bool) (xs : List α) :
    words sep (xs.rdropWhile sep) = words sep xs := by
  induction xs using List.reverseRecOn with
  | nil => rfl
  | append_singleton xs c ih =>
    by_cases hc : sep c = true
    · rw [List.rdropWhile_concat_pos _ _ _ hc, ih, words_append_cons hc, words_nil,
        List.append_nil]
    · rw [List.rdropWhile_concat_neg _ _ _ hc]

/-- Separators are replaced by separators, and the other elements stay. -/
theorem words_map {f : α → α} {sep' : α → Bool} (hsep : ∀ c, sep' (f c) = sep c)
    (hf : ∀ c, sep c = false → f c = c) (xs : List α) :
    words sep' (xs.map f) = words sep xs := by
  have hsplit : (xs.map f).splitOnP sep' = xs.splitOnP sep := by
    induction xs with
    | nil => simp [List.splitOnP_nil]
    | cons c xs ih =>
      rw [List.map_cons, List.splitOnP_cons_eq_if_modifyHead, hsep, ih,
        List.splitOnP_cons_eq_if_modifyHead]
      by_cases hc : sep c = true
      · rw [if_pos hc, if_pos hc]
      · rw [if_neg hc, if_neg hc, hf c (Bool.eq_false_iff.mpr hc)]
  unfold words
  rw [hsplit]

end Lib
