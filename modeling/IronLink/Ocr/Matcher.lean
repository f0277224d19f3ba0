import IronLink.Common.Text
import IronLink.Lib.Words
import Mathlib.Data.Finset.Card
import Mathlib.Data.List.Infix

/-!
# The two keyword matchers

`contains_keywords` (app/ocr.py:80-87) intersects the words of the normalised text with the
keywords. `_process_ocr` (app/api/routes/media.py:283-342) goes through the keywords, in the
order in which the set yields them, and takes the first that is a substring of the
normalised text.

Results:
* `infix_of_mem_split`: a word of a text is a substring of it.
* `alertsAsMatched_iff`: the task alerts as the matcher says, whatever the order of the
  keywords, exactly when those that are substrings are words.
* `cat_in_category`: the keyword `cat` is found in `category`.
-/

namespace IronLink.Ocr

open Lib Text

/-! ## Model -/

/-- `[a-z0-9]`. -/
def isAlphanumeric (c : Char) : Bool := ('a' ≤ c && c ≤ 'z') || ('0' ≤ c && c ≤ '9')

/-- `re.sub(r'[^a-z0-9\s]', ' ', text)`. -/
def blankOthers (cs : List Char) : List Char :=
  cs.map fun c => if isAlphanumeric c || isSpace c then c else ' '

/-- `re.sub(r'\s+', ' ', text)`; `inRun` when the run of white space has its `' '` already. -/
def collapse : (inRun : Bool) → List Char → List Char
  | _, [] => []
  | inRun, c :: cs =>
    if isSpace c then (if inRun then [] else [' ']) ++ collapse true cs
    else c :: collapse false cs

/-- `normalize_text` (app/ocr.py:14-22). -/
def normalizeText (finalSigma : List Char → List Char → Bool) (text : String) : String :=
  strip (String.ofList (collapse false (blankOthers (lower finalSigma text).toList)))

/-- `s.split()`. -/
def split (s : String) : List String :=
  ((s.toList.splitOnP isSpace).filter fun word => word ≠ []).map String.ofList

/-- `kw in s`. -/
def isSubstring (kw s : String) : Bool := kw.toList <:+: s.toList

/-- `contains_keywords` (app/ocr.py:80-87). -/
def containsKeywords (finalSigma : List Char → List Char → Bool) (text : String)
    (keywords : Finset String) : Bool :=
  let words := (split (normalizeText finalSigma text)).toFinset
  words ∩ keywords ≠ ∅

/-- The calls that `_process_ocr` makes when there is a match. -/
inductive OcrCall
  | publishOcrAlert (fileId userId keyword : String)
  | setAlertFlag (fileId : String)
  deriving DecidableEq

/-- `_process_ocr` from the extracted text on (app/api/routes/media.py:313-333);
    `keywords` is the set in the order of the `for` loop. -/
def processOcr (finalSigma : List Char → List Char → Bool) (mediaKey userId text : String)
    (keywords : List String) : List OcrCall :=
  if text = "" then []
  else if keywords = [] then []
  else
    let normalized := normalizeText finalSigma text
    match keywords.find? fun kw => isSubstring kw normalized with
    | none => []
    | some matchedKw =>
      if matchedKw ≠ "" then [.publishOcrAlert mediaKey userId matchedKw, .setAlertFlag mediaKey]
      else []

variable {finalSigma : List Char → List Char → Bool} {text kw : String} {cs word : List Char}

/-! ## Words and substrings -/

theorem mem_split : kw ∈ split text ↔ kw.toList ∈ words isSpace text.toList := by
  unfold split words
  constructor
  · intro h
    obtain ⟨word, hword, rfl⟩ := List.mem_map.mp h
    simpa using hword
  · intro h
    exact List.mem_map.mpr ⟨kw.toList, by simpa using h, String.ofList_toList⟩

/-- A word of a text is a substring of it. -/
theorem infix_of_mem_split {s : String} (h : kw ∈ split s) : isSubstring kw s = true := by
  obtain ⟨before, after, hs, -, -⟩ := (mem_words_iff.mp (mem_split.mp h)).maximal
  unfold isSubstring
  rw [decide_eq_true_eq]
  exact ⟨before, after, hs.symm⟩

/-- `words & keywords`. -/
theorem words_meet_iff {words : List String} {keywords : Finset String} :
    words.toFinset ∩ keywords ≠ ∅ ↔ ∃ kw ∈ keywords, kw ∈ words := by
  rw [ne_eq, ← Finset.disjoint_iff_inter_eq_empty, Finset.not_disjoint_iff]
  simp only [List.mem_toFinset, and_comm]

theorem containsKeywords_iff {keywords : Finset String} :
    containsKeywords finalSigma text keywords = true ↔
      ∃ kw ∈ keywords, kw ∈ split (normalizeText finalSigma text) := by
  unfold containsKeywords
  rw [decide_eq_true_eq, words_meet_iff]

/-! ## When they agree -/

/-- The task publishes an alert and sets the flag when the matcher finds a keyword, and
    the keyword of the alert is one of the user's that occurs as a word; otherwise it does
    neither. -/
structure AlertsAsMatched (finalSigma : List Char → List Char → Bool)
    (mediaKey userId text : String) (keywords : Finset String) (calls : List OcrCall) :
    Prop where
  found : containsKeywords finalSigma text keywords = true →
    ∃ kw ∈ keywords, kw ∈ split (normalizeText finalSigma text) ∧
      calls = [.publishOcrAlert mediaKey userId kw, .setAlertFlag mediaKey]
  notFound : containsKeywords finalSigma text keywords = false → calls = []

/-- The keywords that are substrings of the normalised text are words of it. An empty
    keyword is in every text: no keyword may be a word then. -/
structure WholeWords (finalSigma : List Char → List Char → Bool) (text : String)
    (keywords : Finset String) : Prop where
  words : ∀ kw ∈ keywords, kw ≠ "" → isSubstring kw (normalizeText finalSigma text) = true →
    kw ∈ split (normalizeText finalSigma text)
  empty : "" ∈ keywords → ∀ kw ∈ keywords, kw ∉ split (normalizeText finalSigma text)

theorem isSubstring_empty (s : String) : isSubstring "" s = true :=
  decide_eq_true List.nil_infix

theorem normalizeText_empty : normalizeText finalSigma "" = "" := by
  unfold normalizeText
  rw [lower_eq_empty.mpr rfl]
  rfl

theorem not_mem_split_empty : kw ∉ split "" := fun hword => (by cases hword)

/-- Without text there is nothing to find. -/
theorem eq_empty_of_isSubstring_empty (h : isSubstring kw "" = true) : kw = "" :=
  String.toList_eq_nil_iff.mp (List.infix_nil.mp (of_decide_eq_true h))

/-- What the task does with the first keyword that is a substring. -/
theorem processOcr_cases (mediaKey userId text : String) {keywords : List String}
    (htext : text ≠ "") :
    processOcr finalSigma mediaKey userId text keywords =
      match keywords.find? fun kw => isSubstring kw (normalizeText finalSigma text) with
      | none => []
      | some kw =>
        if kw ≠ "" then [.publishOcrAlert mediaKey userId kw, .setAlertFlag mediaKey]
        else [] := by
  unfold processOcr
  rw [if_neg htext]
  by_cases hkeywords : keywords = []
  · rw [if_pos hkeywords, hkeywords]
    rfl
  · rw [if_neg hkeywords]

theorem containsKeywords_eq_false {keywords : Finset String} :
    containsKeywords finalSigma text keywords = false ↔
      ∀ kw ∈ keywords, kw ∉ split (normalizeText finalSigma text) := by
  rw [← Bool.not_eq_true, containsKeywords_iff]
  push Not
  rfl

/-- Whole words: whatever keyword comes first, it is the right answer. -/
theorem alertsAsMatched_of_wholeWords (mediaKey userId : String) {keywords : List String}
    (hwhole : WholeWords finalSigma text keywords.toFinset) :
    AlertsAsMatched finalSigma mediaKey userId text keywords.toFinset
      (processOcr finalSigma mediaKey userId text keywords) := by
  by_cases htext : text = ""
  · subst htext
    refine ⟨fun hfound => ?_, fun _ => rfl⟩
    obtain ⟨kw, -, hword⟩ := containsKeywords_iff.mp hfound
    rw [normalizeText_empty] at hword
    exact absurd hword not_mem_split_empty
  · rw [processOcr_cases mediaKey userId text htext]
    cases hfirst : keywords.find? fun kw => isSubstring kw (normalizeText finalSigma text) with
    | none =>
      refine ⟨fun hfound => ?_, fun _ => rfl⟩
      obtain ⟨kw, hkw, hword⟩ := containsKeywords_iff.mp hfound
      exact absurd (infix_of_mem_split hword)
        (List.find?_eq_none.mp hfirst kw (List.mem_toFinset.mp hkw))
    | some kw =>
      have hkw : kw ∈ keywords.toFinset := List.mem_toFinset.mpr (List.mem_of_find?_eq_some hfirst)
      have hsub := List.find?_some (p := fun kw => isSubstring kw (normalizeText finalSigma text))
        hfirst
      dsimp only at hsub ⊢
      split_ifs with hempty
      · have hword := hwhole.words kw hkw hempty hsub
        refine ⟨fun _ => ⟨kw, hkw, hword, rfl⟩, fun hnot => ?_⟩
        exact absurd hword (containsKeywords_eq_false.mp hnot kw hkw)
      · refine ⟨fun hfound => ?_, fun _ => rfl⟩
        obtain ⟨other, hother, hword⟩ := containsKeywords_iff.mp hfound
        rw [not_not.mp hempty] at hkw
        exact absurd hword (hwhole.empty hkw other hother)

/-- A keyword of the set may come first. -/
theorem exists_order_cons {keywords : Finset String} (hkw : kw ∈ keywords) :
    ∃ rest, (kw :: rest).Nodup ∧ (kw :: rest).toFinset = keywords := by
  have hnot : kw ∉ (keywords.erase kw).toList := by simp
  refine ⟨(keywords.erase kw).toList, List.nodup_cons.mpr ⟨hnot, Finset.nodup_toList _⟩, ?_⟩
  rw [List.toFinset_cons, Finset.toList_toFinset, Finset.insert_erase hkw]

/-- The task alerts as the matcher says, in whatever order the set yields the keywords,
    exactly when the keywords that are substrings of the normalised text are its words. -/
theorem alertsAsMatched_iff (finalSigma : List Char → List Char → Bool)
    (mediaKey userId text : String) (keywords : Finset String) :
    (∀ order : List String, order.Nodup → order.toFinset = keywords →
        AlertsAsMatched finalSigma mediaKey userId text keywords
          (processOcr finalSigma mediaKey userId text order)) ↔
      WholeWords finalSigma text keywords := by
  constructor
  · intro hall
    by_cases htext : text = ""
    · subst htext
      constructor
      · intro kw _ hempty hsub
        rw [normalizeText_empty] at hsub
        exact absurd (eq_empty_of_isSubstring_empty hsub) hempty
      · intro _ kw _
        rw [normalizeText_empty]
        exact not_mem_split_empty
    have hfirst : ∀ kw ∈ keywords, isSubstring kw (normalizeText finalSigma text) = true →
        AlertsAsMatched finalSigma mediaKey userId text keywords
          (if kw ≠ "" then [.publishOcrAlert mediaKey userId kw, .setAlertFlag mediaKey]
          else []) := by
      intro kw hkw hsub
      obtain ⟨rest, hnd, hset⟩ := exists_order_cons hkw
      have halerts := hall (kw :: rest) hnd hset
      rw [processOcr_cases mediaKey userId text htext,
        List.find?_cons_of_pos (p := fun kw => isSubstring kw (normalizeText finalSigma text)) hsub]
        at halerts
      exact halerts
    constructor
    · intro kw hkw hempty hsub
      have halerts := hfirst kw hkw hsub
      rw [if_pos hempty] at halerts
      by_cases hfound : containsKeywords finalSigma text keywords = true
      · obtain ⟨other, -, hword, hcalls⟩ := halerts.found hfound
        have hsame : kw = other := by simpa using hcalls
        rw [hsame]
        exact hword
      · exact absurd (halerts.notFound (Bool.eq_false_iff.mpr hfound)) (List.cons_ne_nil _ _)
    · intro hkw
      have halerts := hfirst "" hkw (isSubstring_empty _)
      rw [if_neg (not_not.mpr rfl)] at halerts
      refine containsKeywords_eq_false.mp (Bool.eq_false_iff.mpr fun hfound => ?_)
      obtain ⟨other, -, -, hcalls⟩ := halerts.found hfound
      cases hcalls
  · rintro hwhole order - rfl
    exact alertsAsMatched_of_wholeWords mediaKey userId hwhole

/-- The keyword `cat` is no word of `category`, and the task alerts. -/
theorem cat_in_category :
    processOcr (fun _ _ => false) "media/1/scan.png" "7" "category" ["cat"] =
        [.publishOcrAlert "media/1/scan.png" "7" "cat", .setAlertFlag "media/1/scan.png"] ∧
      ¬ AlertsAsMatched (fun _ _ => false) "media/1/scan.png" "7" "category" {"cat"}
        (processOcr (fun _ _ => false) "media/1/scan.png" "7" "category" ["cat"]) := by
  have hcalls : processOcr (fun _ _ => false) "media/1/scan.png" "7" "category" ["cat"] =
      [.publishOcrAlert "media/1/scan.png" "7" "cat", .setAlertFlag "media/1/scan.png"] := by
    decide +kernel
  have hnot : containsKeywords (fun _ _ => false) "category" {"cat"} = false := by decide +kernel
  refine ⟨hcalls, fun h => ?_⟩
  have hnone := h.notFound hnot
  rw [hcalls] at hnone
  cases hnone

end IronLink.Ocr
