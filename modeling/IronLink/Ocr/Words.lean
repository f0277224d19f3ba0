import IronLink.Client.OcrSettings
import IronLink.Lib.Words
import IronLink.Ocr.Matcher
import Mathlib.Data.List.Chain

/-!
# The words of the normalised text

`normalize_text` and `contains_keywords` (app/ocr.py:14-22, 80-87) for any `str.lower()`
that keeps the texts of `a-z`, `0-9` and `' '`; and the keywords that `set_ocr_keywords`
(app/api/routes/ocr.py:23-32) can store.

Results:
* `containsKeywordsWith_iff`: the matcher finds a keyword exactly when one is a run of
  `[a-z0-9]` in the lower case of the text; `normalize_text` twice is `normalize_text`,
  and its result has single spaces, all of them inside.
* `matches_itself_iff`: a stored keyword is found in the document that says nothing else
  exactly when it has, white space at its ends aside, only the characters of
  `isKeywordChar`.
* `arabic_keyword_never_matches`: an Arabic word can be stored, and is not found.
-/

namespace IronLink.Ocr

open Lib Text Client

/-! ## Model -/

/-- `normalize_text`, `str.lower()` left open. -/
def normalizeTextWith (lower : String → String) (text : String) : String :=
  strip (String.ofList (collapse false (blankOthers (lower text).toList)))

/-- `contains_keywords`, `str.lower()` left open. -/
def containsKeywordsWith (lower : String → String) (text : String)
    (keywords : Finset String) : Bool :=
  let words := (split (normalizeTextWith lower text)).toFinset
  words ∩ keywords ≠ ∅

theorem normalizeText_eq (finalSigma : List Char → List Char → Bool) :
    normalizeText finalSigma = normalizeTextWith (lower finalSigma) := rfl

theorem containsKeywords_eq (finalSigma : List Char → List Char → Bool) :
    containsKeywords finalSigma = containsKeywordsWith (lower finalSigma) := rfl

/-! ## The words stay the same -/

variable {lower : String → String} {text kw : String} {cs : List Char} {c : Char} {inRun : Bool}

theorem isSpace_of_isAlphanumeric (h : isAlphanumeric c = true) : isSpace c = false := by
  have hrange : (97 ≤ c.toNat ∧ c.toNat ≤ 122) ∨ (48 ≤ c.toNat ∧ c.toNat ≤ 57) := by
    simp only [isAlphanumeric, Bool.or_eq_true, Bool.and_eq_true, decide_eq_true_eq] at h
    exact h
  have hspaces : ∀ n ∈ spaces, ¬ ((97 ≤ n ∧ n ≤ 122) ∨ (48 ≤ n ∧ n ≤ 57)) := by decide
  exact decide_eq_false fun hmem => hspaces _ hmem hrange

/-- What is blanked separates, and nothing else does. -/
theorem words_blankOthers (cs : List Char) :
    words isSpace (blankOthers cs) = words (fun c => !isAlphanumeric c) cs := by
  refine words_map (fun c => ?_) (fun c hc => ?_) cs
  · by_cases hc : isAlphanumeric c = true
    · simp [hc, isSpace_of_isAlphanumeric hc]
    · by_cases hs : isSpace c = true
      · simp [hc, hs]
      · simp [hc, hs]
        decide
  · rw [Bool.not_eq_false'] at hc
    simp [hc]

/-- A run of white space separates as one space does. In a run nothing of it is needed;
    else the words may have begun in `before`. -/
theorem words_collapse (cs : List Char) :
    words isSpace (collapse true cs) = words isSpace cs ∧
      ∀ before, words isSpace (before ++ collapse false cs) = words isSpace (before ++ cs) := by
  have hblank : isSpace ' ' = true := by decide
  induction cs with
  | nil => exact ⟨rfl, fun before => rfl⟩
  | cons c cs ih =>
    obtain ⟨htrue, hfalse⟩ := ih
    by_cases hc : isSpace c = true
    · have hskip : collapse true (c :: cs) = collapse true cs := by simp [collapse, hc]
      have hone : collapse false (c :: cs) = ' ' :: collapse true cs := by simp [collapse, hc]
      constructor
      · rw [hskip, htrue, words_cons_sep hc]
      · intro before
        rw [hone, words_append_cons hblank, words_append_cons hc, htrue]
    · have hkeep : ∀ inRun, collapse inRun (c :: cs) = c :: collapse false cs := by
        simp [collapse, hc]
      constructor
      · rw [hkeep]
        exact hfalse [c]
      · intro before
        rw [hkeep]
        simpa using hfalse (before ++ [c])

theorem words_stripChars (cs : List Char) :
    words isSpace (stripChars cs) = words isSpace cs := by
  unfold stripChars
  rw [words_rdropWhile, words_dropWhile]

/-- The three passes leave the words as they were. -/
theorem mem_split_normalizeTextWith :
    kw ∈ split (normalizeTextWith lower text) ↔
      IsRun isAlphanumeric (lower text).toList kw.toList := by
  have hwords : words isSpace (normalizeTextWith lower text).toList =
      words (fun c => !isAlphanumeric c) (lower text).toList := by
    unfold normalizeTextWith strip
    rw [String.toList_ofList, String.toList_ofList, words_stripChars]
    exact ((words_collapse _).2 []).trans (words_blankOthers _)
  rw [mem_split, hwords, mem_words_iff]
  simp

/-! ## Single spaces -/

/-- Only `a-z`, `0-9` and spaces, no two of these together and none at an end. -/
structure SingleSpaced (s : String) : Prop where
  chars : ∀ c ∈ s.toList, isAlphanumeric c = true ∨ c = ' '
  single : s.toList.IsChain fun c d => ¬ (c = ' ' ∧ d = ' ')
  first : ∀ c ∈ s.toList.head?, c ≠ ' '
  last : ∀ c ∈ s.toList.getLast?, c ≠ ' '

theorem mem_collapse (h : c ∈ collapse inRun cs) : c = ' ' ∨ c ∈ cs ∧ isSpace c = false := by
  induction cs generalizing inRun with
  | nil => cases h
  | cons d cs ih =>
    by_cases hd : isSpace d = true
    · rw [collapse, if_pos hd] at h
      rcases List.mem_append.mp h with h | h
      · cases inRun with
        | true => cases h
        | false => exact .inl (List.mem_singleton.mp h)
      · exact (ih h).imp_right fun hc => ⟨List.mem_cons_of_mem _ hc.1, hc.2⟩
    · rw [collapse, if_neg hd] at h
      rcases List.mem_cons.mp h with rfl | h
      · exact .inr ⟨List.mem_cons_self, Bool.eq_false_iff.mpr hd⟩
      · exact (ih h).imp_right fun hc => ⟨List.mem_cons_of_mem _ hc.1, hc.2⟩

/-- No two spaces come together, and in a run none comes next. -/
theorem single_collapse (cs : List Char) (inRun : Bool) :
    (collapse inRun cs).IsChain (fun c d => ¬ (c = ' ' ∧ d = ' ')) ∧
      (inRun = true → ∀ c ∈ (collapse inRun cs).head?, c ≠ ' ') := by
  induction cs generalizing inRun with
  | nil => exact ⟨List.IsChain.nil, fun _ c hc => (by cases hc)⟩
  | cons d cs ih =>
    by_cases hd : isSpace d = true
    · obtain ⟨hchain, hhead⟩ := ih true
      cases inRun with
      | true => simpa [collapse, hd] using ih true
      | false =>
        have hone : collapse false (d :: cs) = ' ' :: collapse true cs := by simp [collapse, hd]
        rw [hone, List.isChain_cons]
        exact ⟨⟨fun c hc hboth => hhead rfl c hc hboth.2, hchain⟩, fun h => (by cases h)⟩
    · have hne : d ≠ ' ' := by
        rintro rfl
        exact hd (by decide)
      rw [collapse, if_neg hd, List.isChain_cons]
      refine ⟨⟨fun c _ hboth => hne hboth.1, (ih false).1⟩, fun _ c hc => ?_⟩
      obtain rfl := Option.some.inj hc
      exact hne

theorem mem_stripChars (h : c ∈ stripChars cs) : c ∈ cs := by
  obtain ⟨front, back, hcs, -⟩ := exists_spaces_around cs
  rw [hcs]
  exact List.mem_append_right _ (List.mem_append_left _ h)

theorem isChain_stripChars {r : Char → Char → Prop} (h : cs.IsChain r) :
    (stripChars cs).IsChain r := by
  obtain ⟨front, back, hcs, -⟩ := exists_spaces_around cs
  rw [hcs] at h
  exact h.right_of_append.left_of_append

theorem singleSpaced_normalizeTextWith (lower : String → String) (text : String) :
    SingleSpaced (normalizeTextWith lower text) := by
  have hstripped : Stripped (normalizeTextWith lower text).toList := by
    unfold normalizeTextWith strip
    rw [String.toList_ofList]
    exact stripped_stripChars _
  have hblank : isSpace ' ' = true := by decide
  refine ⟨fun c hc => ?_, ?_, ?_, ?_⟩
  · unfold normalizeTextWith strip at hc
    rw [String.toList_ofList, String.toList_ofList] at hc
    rcases mem_collapse (mem_stripChars hc) with hblank | ⟨hmem, hspace⟩
    · exact .inr hblank
    · obtain ⟨d, -, hd⟩ := List.mem_map.mp hmem
      by_cases hkeep : (isAlphanumeric d || isSpace d) = true
      · rw [if_pos hkeep] at hd
        rw [hd, hspace, Bool.or_false] at hkeep
        exact .inl hkeep
      · rw [if_neg hkeep] at hd
        exact .inr hd.symm
  · unfold normalizeTextWith strip
    rw [String.toList_ofList, String.toList_ofList]
    exact isChain_stripChars (single_collapse _ false).1
  · rintro c hc rfl
    rw [hstripped.first ' ' hc] at hblank
    cases hblank
  · rintro c hc rfl
    rw [hstripped.last ' ' hc] at hblank
    cases hblank

theorem collapse_eq_self (hchars : ∀ c ∈ cs, isAlphanumeric c = true ∨ c = ' ')
    (hsingle : cs.IsChain fun c d => ¬ (c = ' ' ∧ d = ' '))
    (hhead : inRun = true → ∀ c ∈ cs.head?, c ≠ ' ') : collapse inRun cs = cs := by
  induction cs generalizing inRun with
  | nil => rfl
  | cons c cs ih =>
    rw [List.isChain_cons] at hsingle
    have hcs := fun d hd => hchars d (List.mem_cons_of_mem c hd)
    rcases hchars c List.mem_cons_self with hc | rfl
    · rw [collapse, if_neg (by simp [isSpace_of_isAlphanumeric hc]),
        ih hcs hsingle.2 fun h => (by cases h)]
    · have hnot : inRun = false := Bool.eq_false_iff.mpr fun h => hhead h ' ' rfl rfl
      have hnext : ∀ d ∈ cs.head?, d ≠ ' ' := fun d hd hblank => hsingle.1 d hd ⟨rfl, hblank⟩
      have hone : collapse false (' ' :: cs) = ' ' :: collapse true cs := by
        rw [collapse, if_pos (by decide)]
        rfl
      rw [hnot, hone, ih hcs hsingle.2 fun _ => hnext]

/-- A text with single spaces is its own normal form. -/
theorem normalizeTextWith_eq_self (hlower : lower text = text) (h : SingleSpaced text) :
    normalizeTextWith lower text = text := by
  have hblank : blankOthers text.toList = text.toList := by
    refine (List.map_congr_left fun c hc => ?_).trans (List.map_id _)
    rcases h.chars c hc with hc | rfl
    · simp [hc]
    · simp
  have hends : ∀ c ∈ text.toList, c ≠ ' ' → isSpace c = false := fun c hc hne =>
    isSpace_of_isAlphanumeric ((h.chars c hc).resolve_right hne)
  have hstripped : Stripped text.toList :=
    ⟨fun c hc => hends c (List.mem_of_mem_head? hc) (h.first c hc),
      fun c hc => hends c (List.mem_of_getLast? hc) (h.last c hc)⟩
  have hcollapse : collapse false text.toList = text.toList :=
    collapse_eq_self h.chars h.single fun hrun => (by cases hrun)
  unfold normalizeTextWith strip
  rw [hlower, hblank, hcollapse, String.toList_ofList, stripChars_eq_self hstripped,
    String.ofList_toList]

theorem containsKeywordsWith_iff_split {keywords : Finset String} :
    containsKeywordsWith lower text keywords = true ↔
      ∃ kw ∈ keywords, kw ∈ split (normalizeTextWith lower text) := by
  unfold containsKeywordsWith
  rw [decide_eq_true_eq, words_meet_iff]

/-- **Words.** The matcher finds the keywords that are runs of `[a-z0-9]` in the lower case
    of the text, and the normalised text has single spaces and stays as it is. -/
theorem containsKeywordsWith_iff (lower : String → String)
    (hlower : ∀ s : String, (∀ c ∈ s.toList, isAlphanumeric c = true ∨ c = ' ') → lower s = s)
    (text : String) (keywords : Finset String) :
    (containsKeywordsWith lower text keywords = true ↔
        ∃ kw ∈ keywords, IsRun isAlphanumeric (lower text).toList kw.toList) ∧
      normalizeTextWith lower (normalizeTextWith lower text) = normalizeTextWith lower text ∧
      SingleSpaced (normalizeTextWith lower text) := by
  have hsingle := singleSpaced_normalizeTextWith lower text
  refine ⟨?_, normalizeTextWith_eq_self (hlower _ hsingle.chars) hsingle, hsingle⟩
  rw [containsKeywordsWith_iff_split]
  simp only [mem_split_normalizeTextWith]

theorem plain_codes : ∀ n ∈ spaces ++ (List.range' 48 10 ++ List.range' 97 26),
    lowerCode n = n := by
  decide +kernel

theorem toNat_of_isAlphanumeric :
    isAlphanumeric c = true ↔ (97 ≤ c.toNat ∧ c.toNat ≤ 122) ∨ (48 ≤ c.toNat ∧ c.toNat ≤ 57) := by
  simp only [isAlphanumeric, Bool.or_eq_true, Bool.and_eq_true, decide_eq_true_eq]
  exact Iff.rfl

theorem isLower_of_isAlphanumeric (h : isAlphanumeric c = true) : IsLower c := by
  have hcode : lowerCode c.toNat = c.toNat := by
    apply plain_codes
    rw [toNat_of_isAlphanumeric] at h
    simp only [List.mem_append, List.mem_range'_1]
    omega
  refine ⟨?_, ?_, hcode⟩ <;> rintro rfl <;> revert h <;> decide

theorem isLower_of_isSpace (h : isSpace c = true) : IsLower c := by
  have hcode : lowerCode c.toNat = c.toNat :=
    plain_codes _ (List.mem_append_left _ (of_decide_eq_true h))
  refine ⟨?_, ?_, hcode⟩ <;> rintro rfl <;> revert h <;> decide

/-- `str.lower()` keeps the texts of `a-z`, `0-9` and `' '`. -/
theorem lower_plain (finalSigma : List Char → List Char → Bool) (s : String)
    (h : ∀ c ∈ s.toList, isAlphanumeric c = true ∨ c = ' ') : Text.lower finalSigma s = s := by
  have hlower : ∀ c ∈ s.toList, IsLower c := by
    intro c hc
    rcases h c hc with hc | rfl
    · exact isLower_of_isAlphanumeric hc
    · exact isLower_of_isSpace (by decide)
  unfold Text.lower
  rw [lowerChars_of_isLower hlower, String.ofList_toList]

theorem containsKeywordsWith_iff_invoice :
    containsKeywordsWith (Text.lower fun _ _ => false) "Pay\tthe INVOICE!" {"invoice"} = true ∧
      ((containsKeywordsWith (Text.lower fun _ _ => false) "Pay\tthe INVOICE!" {"invoice"} = true ↔
          ∃ kw ∈ ({"invoice"} : Finset String), IsRun isAlphanumeric
            (Text.lower (fun _ _ => false) "Pay\tthe INVOICE!").toList kw.toList) ∧
        normalizeTextWith (Text.lower fun _ _ => false)
            (normalizeTextWith (Text.lower fun _ _ => false) "Pay\tthe INVOICE!") =
          normalizeTextWith (Text.lower fun _ _ => false) "Pay\tthe INVOICE!" ∧
        SingleSpaced (normalizeTextWith (Text.lower fun _ _ => false) "Pay\tthe INVOICE!")) :=
  ⟨by decide +kernel, containsKeywordsWith_iff (Text.lower fun _ _ => false)
    (lower_plain fun _ _ => false) "Pay\tthe INVOICE!" {"invoice"}⟩

/-! ## What can be stored -/

/-- `A-Z`, `a-z`, `0-9` and the sign `K` for kelvin, whose lower case is `k`. -/
def isKeywordChar (c : Char) : Bool :=
  isAlphanumeric c || ('A' ≤ c && c ≤ 'Z') || c = '\u212a'

variable {finalSigma : List Char → List Char → Bool} {before after xs : List Char} {k : String}

/-- The runs of the table whose lower case may be ASCII: `A-Z` and the kelvin sign. -/
theorem caseRuns_ascii : (caseRuns.all fun r => Nat.blt 122 r.lower ||
    (Nat.ble 0x41 r.first && Nat.ble (r.first + r.span) 0x5a) ||
    (Nat.beq r.first 0x212a && Nat.beq r.span 0)) = true := by
  decide +kernel

theorem lowerCode_ascii {n : ℕ} (h : lowerCode n ≤ 122) :
    lowerCode n = n ∨ (0x41 ≤ n ∧ n ≤ 0x5a) ∨ n = 0x212a := by
  cases hfind : caseRuns.find? (·.covers n) with
  | none =>
    left
    unfold lowerCode
    rw [hfind]
  | some r =>
    right
    have hascii := List.all_eq_true.mp caseRuns_ascii r (List.mem_of_find?_eq_some hfind)
    obtain ⟨i, hi, hn⟩ := exists_of_covers
      (List.find?_some (p := fun s : CaseRun => s.covers n) hfind)
    have hspan := le_span hi
    unfold lowerCode at h
    rw [hfind] at h
    simp only [Bool.or_eq_true, Bool.and_eq_true, Nat.blt_eq, Nat.ble_eq, Nat.beq_eq] at hascii h
    omega

theorem upper_codes : ∀ i < 26, lowerCode (0x41 + i) = 0x61 + i := by
  decide +kernel

theorem isKeywordChar_iff : isKeywordChar c = true ↔ isAlphanumeric c = true ∨
    (0x41 ≤ c.toNat ∧ c.toNat ≤ 0x5a) ∨ c.toNat = 0x212a := by
  have hkelvin : c = '\u212a' ↔ c.toNat = 0x212a :=
    ⟨fun h => congrArg Char.toNat h, fun h => Char.toNat_inj.mp h⟩
  unfold isKeywordChar
  rw [Bool.or_eq_true, Bool.or_eq_true, Bool.and_eq_true, decide_eq_true_eq, decide_eq_true_eq,
    decide_eq_true_eq, hkelvin, or_assoc]
  exact Iff.rfl

/-- The lower case of a character is in `[a-z0-9]` exactly for these. -/
theorem isKeywordChar_iff_lowerChar (before after : List Char) (c : Char) :
    (∀ d ∈ lowerChar finalSigma before c after, isAlphanumeric d = true) ↔
      isKeywordChar c = true := by
  unfold lowerChar
  split_ifs with hdot hsigma hfinal
  · rw [hdot]
    exact iff_of_false (fun h => absurd (h '\u0307' (by simp)) (by decide)) (by decide)
  · rw [hsigma]
    exact iff_of_false (fun h => absurd (h 'ς' (by simp)) (by decide)) (by decide)
  · rw [hsigma]
    exact iff_of_false (fun h => absurd (h 'σ' (by simp)) (by decide)) (by decide)
  · have hvalid : (Char.ofNat (lowerCode c.toNat)).toNat = lowerCode c.toNat := by
      rcases lowerCode_cases c.toNat with hsame | ⟨hvalid, -⟩
      · rw [hsame, Char.ofNat_toNat]
      · exact toNat_ofNat hvalid
    rw [isKeywordChar_iff]
    simp only [List.mem_singleton, forall_eq, toNat_of_isAlphanumeric, hvalid]
    constructor
    · intro h
      rcases lowerCode_ascii (n := c.toNat) (by omega) with hsame | hupper
      · rw [hsame] at h
        exact .inl h
      · exact .inr hupper
    · rintro (h | h | h)
      · have hcode := (isLower_of_isAlphanumeric (toNat_of_isAlphanumeric.mpr h)).2.2
        rw [hcode]
        exact h
      · have hcode := upper_codes (c.toNat - 0x41) (by omega)
        rw [show 0x41 + (c.toNat - 0x41) = c.toNat by omega] at hcode
        omega
      · rw [h]
        decide

theorem isKeywordChar_iff_lowerChars {cs : List Char} :
    (∀ d ∈ lowerChars finalSigma before cs, isAlphanumeric d = true) ↔
      ∀ c ∈ cs, isKeywordChar c = true := by
  induction cs generalizing before with
  | nil => simp [lowerChars]
  | cons c cs ih =>
    rw [lowerChars, List.forall_mem_append, isKeywordChar_iff_lowerChar, ih, List.forall_mem_cons]

theorem lowerWithin_of_isSpace {cs : List Char} (h : ∀ c ∈ cs, isSpace c = true)
    (before after : List Char) : lowerWithin finalSigma before cs after = cs := by
  have hlower : ∀ c ∈ cs, IsLower c := fun c hc => isLower_of_isSpace (h c hc)
  rw [lowerWithin_congr (fun c hc => (hlower c hc).2.1) before before after [],
    lowerWithin_nil_right, lowerChars_of_isLower hlower]

/-- White space around the keyword leaves its lower case a run. -/
theorem isRun_lower_strip (h : ∀ c ∈ (strip k).toList, isKeywordChar c = true)
    (hk : strip k ≠ "") :
    IsRun isAlphanumeric (Text.lower finalSigma k).toList
      (Text.lower finalSigma (strip k)).toList := by
  have hcore : (strip k).toList = stripChars k.toList := String.toList_ofList
  rw [hcore] at h
  have hsigma : ∀ c ∈ stripChars k.toList, c ≠ 'Σ' := by
    rintro c hc rfl
    have hkeyword := h 'Σ' hc
    revert hkeyword
    decide
  obtain ⟨front, back, htext, hfront, hback⟩ := exists_spaces_around k.toList
  have hends : ∀ c, isSpace c = true → isAlphanumeric c = false := fun c hc =>
    Bool.eq_false_iff.mpr fun halnum => by
      rw [isSpace_of_isAlphanumeric halnum] at hc
      cases hc
  have hlower : (Text.lower finalSigma k).toList =
      front ++ (Text.lower finalSigma (strip k)).toList ++ back := by
    unfold Text.lower
    rw [String.toList_ofList, String.toList_ofList, hcore]
    calc lowerChars finalSigma [] k.toList
        = lowerChars finalSigma [] (front ++ (stripChars k.toList ++ back)) :=
          congrArg _ htext
      _ = front ++ (lowerWithin finalSigma (front.reverse ++ []) (stripChars k.toList) back ++
            lowerChars finalSigma _ back) := by
          rw [lowerChars_append, lowerWithin_of_isSpace hfront, lowerChars_append]
      _ = front ++ lowerChars finalSigma [] (stripChars k.toList) ++ back := by
          rw [lowerWithin_congr hsigma _ [] _ [], lowerWithin_nil_right,
            ← lowerWithin_nil_right _ back, lowerWithin_of_isSpace hback, List.append_assoc]
  refine ⟨?_, ?_, front, back, hlower, fun c hc => ?_, fun c hc => ?_⟩
  · rw [ne_eq, String.toList_eq_nil_iff, lower_eq_empty]
    exact hk
  · unfold Text.lower
    rw [String.toList_ofList, hcore]
    exact isKeywordChar_iff_lowerChars.mpr h
  · exact hends c (hfront c (List.mem_of_getLast? hc))
  · exact hends c (hback c (List.mem_of_mem_head? hc))

/-- **Own document.** A stored keyword, whatever else is stored, is found in the document
    whose text is the keyword exactly when it has only the characters of `isKeywordChar`,
    white space at its ends aside. -/
theorem matches_itself_iff (finalSigma : List Char → List Char → Bool) (k : String)
    (hk : strip k ≠ "") :
    (∀ payload : List String, k ∈ payload →
        containsKeywords finalSigma k (Client.setOcrKeywords finalSigma payload).1 = true) ↔
      ∀ c ∈ (strip k).toList, isKeywordChar c = true := by
  have hstored : ∀ payload : List String, (Client.setOcrKeywords finalSigma payload).1 =
      (normalized finalSigma payload).toFinset := fun payload => setUserKeywords_eq _
  simp only [containsKeywords_eq, containsKeywordsWith_iff_split, mem_split_normalizeTextWith,
    hstored, List.mem_toFinset]
  constructor
  · intro h
    obtain ⟨kw, hkw, hrun⟩ := h [k] List.mem_cons_self
    obtain ⟨k', hk', -, rfl⟩ := mem_normalized.mp hkw
    obtain rfl := List.mem_singleton.mp hk'
    have hall := hrun.all
    unfold Text.lower at hall
    rw [String.toList_ofList] at hall
    exact isKeywordChar_iff_lowerChars.mp hall
  · intro h payload hpayload
    exact ⟨Text.lower finalSigma (strip k), mem_normalized.mpr ⟨k, hpayload, hk, rfl⟩,
      isRun_lower_strip h hk⟩

theorem matches_itself_invoice :
    (∀ payload : List String, " Invoice7\n" ∈ payload →
        containsKeywords (fun _ _ => false) " Invoice7\n"
          (Client.setOcrKeywords (fun _ _ => false) payload).1 = true) ↔
      ∀ c ∈ (strip " Invoice7\n").toList, isKeywordChar c = true :=
  matches_itself_iff (fun _ _ => false) " Invoice7\n" (by decide +kernel)

/-- An Arabic word can be stored, as can two words or a sign. None is found in itself. -/
theorem arabic_keyword_never_matches :
    (["فاتورة", "purchase order", "c++"].all fun k => strip k ≠ "" &&
      !containsKeywords (fun _ _ => false) k
        (Client.setOcrKeywords (fun _ _ => false) [k]).1) = true := by
  decide +kernel

end IronLink.Ocr
