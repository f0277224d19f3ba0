import IronLink.Common.Text
import IronLink.Lib.Run
import Mathlib.Data.Finset.Card

/-!
# The OCR keywords of a user

`OcrSettingsBloc` (frontend/lib/features/settings/ocr_settings_bloc.dart:20-88) and the
routes it calls (app/api/routes/ocr.py:17-39). The bloc adds and removes one keyword at a
time; the routes replace the whole set and clear it. Events are handled one after the
other.

Results:
* `normalized_self`: normalising what the server stores changes nothing.
* `matches_iff`: the list and the set stay the same exactly when every `AddKeyword` adds
  to nothing but spellings of its keyword, every `RemoveKeyword` removes the last keyword,
  and no request fails after a change of the list.
-/

namespace IronLink.Client

open Lib Text

/-! ## Model -/

structure OcrSettingsState where
  isLoading : Bool
  keywords : List String
  errorMessage : Option String
  deriving DecidableEq

/-- `const OcrSettingsState()`. -/
def OcrSettingsState.initial : OcrSettingsState := ⟨false, [], none⟩

/-- `copyWith`: `null` keeps the old value, of `errorMessage` too. -/
def OcrSettingsState.copyWith (s : OcrSettingsState) (isLoading : Option Bool)
    (keywords : Option (List String)) (errorMessage : Option String) : OcrSettingsState :=
  ⟨isLoading.getD s.isLoading, keywords.getD s.keywords,
    errorMessage.orElse fun _ => s.errorMessage⟩

/-- `_onLoadKeywords` (ocr_settings_bloc.dart:20-41): the field `keywords` of the response,
    or the exception. -/
def onLoadKeywords (s : OcrSettingsState) (response : Except String (Option (List String))) :
    OcrSettingsState :=
  let s := s.copyWith (some true) none none
  match response with
  | .ok keywordsData => s.copyWith (some false) (some (keywordsData.getD [])) none
  | .error e => s.copyWith (some false) none (some ("Failed to load keywords: " ++ e))

/-- The second half of `_onAddKeyword` and `_onRemoveKeyword`: the list in `state` is the
    changed one already. -/
def afterRequest (s : OcrSettingsState) (response : Except String Unit) (what : String) :
    OcrSettingsState :=
  match response with
  | .ok _ => s
  -- "Revert the optimistic update"
  | .error e => (s.copyWith none (some s.keywords) none).copyWith none none (some (what ++ e))

/-- `_onAddKeyword` (ocr_settings_bloc.dart:43-66). -/
def onAddKeyword (s : OcrSettingsState) (keyword : String) (response : Except String Unit) :
    OcrSettingsState :=
  afterRequest (s.copyWith none (some (s.keywords ++ [keyword])) none) response
    "Failed to add keyword: "

/-- `_onRemoveKeyword` (ocr_settings_bloc.dart:68-88). -/
def onRemoveKeyword (s : OcrSettingsState) (keyword : String) (response : Except String Unit) :
    OcrSettingsState :=
  afterRequest (s.copyWith none (some (s.keywords.erase keyword)) none) response
    "Failed to remove keyword: "

/-- `normalized` (app/api/routes/ocr.py:30). -/
def normalized (finalSigma : List Char → List Char → Bool) (keywords : List String) :
    List String :=
  (keywords.filter fun k => strip k ≠ "").map fun k => lower finalSigma (strip k)

/-- `set_user_keywords` (app/redis.py:37-52). -/
def setUserKeywords (keywords : Finset String) : Finset String :=
  -- after the `delete`
  let stored : Finset String := ∅
  if keywords ≠ ∅ then stored ∪ keywords else stored

/-- `set_ocr_keywords` (app/api/routes/ocr.py:23-32): the set and the response. -/
def setOcrKeywords (finalSigma : List Char → List Char → Bool) (payload : List String) :
    Finset String × List String :=
  let normalized := normalized finalSigma payload
  (setUserKeywords normalized.toFinset, normalized)

/-- `delete_ocr_keywords` (app/api/routes/ocr.py:35-39), which reads no body. -/
def deleteOcrKeywords : Finset String := setUserKeywords ∅

/-- The bloc and the set of the user. -/
structure OcrKeywords where
  bloc : OcrSettingsState
  stored : Finset String

/-- A new bloc; `saved` is what the server was given before. -/
def OcrKeywords.init (finalSigma : List Char → List Char → Bool) (saved : List String) :
    OcrKeywords := ⟨.initial, (setOcrKeywords finalSigma saved).1⟩

/-- An event and how its request ends; an `error` has had no effect on the server. -/
inductive OcrSettingsEvent
  /-- `keywords` is the order of `list(keywords)` -/
  | loadKeywords (keywords : Except String (List String))
  | addKeyword (keyword : String) (response : Except String Unit)
  | removeKeyword (keyword : String) (response : Except String Unit)

/-- The event is handled. -/
def ocrStep (finalSigma : List Char → List Char → Bool) (s : OcrKeywords) :
    OcrSettingsEvent → Option OcrKeywords
  | .loadKeywords (.ok keywords) =>
    if keywords.Nodup ∧ keywords.toFinset = s.stored then
      some { s with bloc := onLoadKeywords s.bloc (.ok (some keywords)) }
    else none
  | .loadKeywords (.error e) => some { s with bloc := onLoadKeywords s.bloc (.error e) }
  | .addKeyword keyword (.ok ()) =>
    some ⟨onAddKeyword s.bloc keyword (.ok ()), (setOcrKeywords finalSigma [keyword]).1⟩
  | .addKeyword keyword (.error e) =>
    some { s with bloc := onAddKeyword s.bloc keyword (.error e) }
  | .removeKeyword keyword (.ok ()) =>
    some ⟨onRemoveKeyword s.bloc keyword (.ok ()), deleteOcrKeywords⟩
  | .removeKeyword keyword (.error e) =>
    some { s with bloc := onRemoveKeyword s.bloc keyword (.error e) }

/-! ## Property and condition -/

/-- Normalised, the list has the elements of the set. -/
def SameKeywords (finalSigma : List Char → List Char → Bool) (s : OcrKeywords) : Prop :=
  (normalized finalSigma s.bloc.keywords).toFinset = s.stored

instance (finalSigma : List Char → List Char → Bool) (s : OcrKeywords) :
    Decidable (SameKeywords finalSigma s) := inferInstanceAs (Decidable (_ = _))

/-- The request of the event fails. -/
def OcrSettingsEvent.failed : OcrSettingsEvent → Prop
  | .loadKeywords (.error _) => True
  | .addKeyword _ (.error _) => True
  | .removeKeyword _ (.error _) => True
  | _ => False

/-- The event leads to the same keywords on both sides, and a failed request leaves both
    sides as they were. -/
def Matches (finalSigma : List Char → List Char → Bool) (s : OcrKeywords)
    (event : OcrSettingsEvent) : Prop :=
  ∀ s' ∈ ocrStep finalSigma s event, SameKeywords finalSigma s' ∧
    (event.failed → s'.bloc.keywords = s.bloc.keywords ∧ s'.stored = s.stored)

/-- The added keyword normalises to all there is, the removed one is all there is, and a
    request fails only when the list did not change. -/
def Harmless (finalSigma : List Char → List Char → Bool) (s : OcrKeywords) :
    OcrSettingsEvent → Prop
  | .loadKeywords (.ok _) => True
  | .loadKeywords (.error _) => SameKeywords finalSigma s
  | .addKeyword keyword (.ok _) =>
    ∀ k ∈ normalized finalSigma s.bloc.keywords, k ∈ normalized finalSigma [keyword]
  | .addKeyword _ (.error _) => False
  | .removeKeyword keyword (.ok _) => normalized finalSigma (s.bloc.keywords.erase keyword) = []
  | .removeKeyword keyword (.error _) => keyword ∉ s.bloc.keywords ∧ SameKeywords finalSigma s

/-! ## Normalising -/

variable {finalSigma : List Char → List Char → Bool} {s s' : OcrKeywords}
  {event : OcrSettingsEvent} {k keyword : String} {keywords : List String}

theorem mem_normalized : k ∈ normalized finalSigma keywords ↔
    ∃ k' ∈ keywords, strip k' ≠ "" ∧ lower finalSigma (strip k') = k := by
  simp [normalized, and_assoc]

/-- A normalised keyword is its own normal form. -/
theorem normal_of_mem (h : k ∈ normalized finalSigma keywords) :
    strip k ≠ "" ∧ lower finalSigma (strip k) = k := by
  obtain ⟨k', -, hne, rfl⟩ := mem_normalized.mp h
  rw [strip_lower, lower_lower]
  exact ⟨fun hempty => hne (lower_eq_empty.mp hempty), rfl⟩

theorem normalized_self (h : ∀ k ∈ keywords, strip k ≠ "" ∧ lower finalSigma (strip k) = k) :
    normalized finalSigma keywords = keywords := by
  induction keywords with
  | nil => rfl
  | cons k ks ih =>
    obtain ⟨hne, hk⟩ := h k List.mem_cons_self
    have hks := ih fun k' hk' => h k' (List.mem_cons_of_mem _ hk')
    unfold normalized at hks ⊢
    rw [List.filter_cons_of_pos (by simpa using hne), List.map_cons, hk, hks]

theorem normalized_append (xs ys : List String) : normalized finalSigma (xs ++ ys) =
    normalized finalSigma xs ++ normalized finalSigma ys := by
  simp [normalized]

theorem setUserKeywords_eq (set : Finset String) : setUserKeywords set = set := by
  unfold setUserKeywords
  by_cases h : set = ∅
  · simp [h]
  · simp [h]

/-! ## The server's set -/

/-- What the server stores is normalised. -/
def StoresNormal (finalSigma : List Char → List Char → Bool) (s : OcrKeywords) : Prop :=
  ∀ k ∈ s.stored, strip k ≠ "" ∧ lower finalSigma (strip k) = k

theorem normal_setOcrKeywords (payload : List String) :
    ∀ k ∈ (setOcrKeywords finalSigma payload).1, strip k ≠ "" ∧ lower finalSigma (strip k) = k := by
  intro k hk
  rw [setOcrKeywords, setUserKeywords_eq, List.mem_toFinset] at hk
  exact normal_of_mem hk

theorem storesNormal_step (s : OcrKeywords) (event : OcrSettingsEvent) (s' : OcrKeywords)
    (h : StoresNormal finalSigma s) (hs : ocrStep finalSigma s event = some s') :
    StoresNormal finalSigma s' := by
  cases event with
  | loadKeywords response =>
    cases response with
    | error e =>
      obtain rfl := Option.some.inj hs
      exact h
    | ok keywords =>
      simp only [ocrStep] at hs
      split_ifs at hs
      obtain rfl := Option.some.inj hs
      exact h
  | addKeyword keyword response =>
    cases response with
    | error e =>
      obtain rfl := Option.some.inj hs
      exact h
    | ok =>
      obtain rfl := Option.some.inj hs
      exact normal_setOcrKeywords [keyword]
  | removeKeyword keyword response =>
    cases response with
    | error e =>
      obtain rfl := Option.some.inj hs
      exact h
    | ok =>
      obtain rfl := Option.some.inj hs
      intro k hk
      rw [deleteOcrKeywords, setUserKeywords_eq] at hk
      cases hk

/-! ## One event -/

theorem matches_load_ok (h : StoresNormal finalSigma s) (order : List String) :
    Matches finalSigma s (.loadKeywords (.ok order)) := by
  intro s' hs'
  simp only [ocrStep, Option.mem_def] at hs'
  split_ifs at hs' with horder
  obtain rfl := Option.some.inj hs'
  refine ⟨?_, fun hfailed => hfailed.elim⟩
  have hnormal : normalized finalSigma order = order := normalized_self fun k hk => by
    rw [← List.mem_toFinset, horder.2] at hk
    exact h k hk
  change (normalized finalSigma order).toFinset = s.stored
  rw [hnormal, horder.2]

theorem matches_load_error (e : String) :
    Matches finalSigma s (.loadKeywords (.error e)) ↔ SameKeywords finalSigma s := by
  constructor
  · intro h
    exact (h _ rfl).1
  · rintro h s' hs'
    obtain rfl := Option.some.inj hs'
    exact ⟨h, fun _ => ⟨rfl, rfl⟩⟩

/-- A successful `AddKeyword` drops every other keyword from the set. -/
theorem matches_add_ok : Matches finalSigma s (.addKeyword keyword (.ok ())) ↔
    ∀ k ∈ normalized finalSigma s.bloc.keywords, k ∈ normalized finalSigma [keyword] := by
  have hset : ∀ s' ∈ ocrStep finalSigma s (.addKeyword keyword (.ok ())),
      SameKeywords finalSigma s' ↔
        ∀ k ∈ normalized finalSigma s.bloc.keywords, k ∈ normalized finalSigma [keyword] := by
    intro s' hs'
    obtain rfl := Option.some.inj hs'
    unfold SameKeywords
    rw [setOcrKeywords, setUserKeywords_eq]
    change (normalized finalSigma (s.bloc.keywords ++ [keyword])).toFinset = _ ↔ _
    rw [normalized_append, List.toFinset_append, Finset.union_eq_right]
    simp only [Finset.subset_iff, List.mem_toFinset]
  constructor
  · intro h
    exact (hset _ rfl).mp (h _ rfl).1
  · intro h s' hs'
    exact ⟨(hset s' hs').mpr h, fun hfailed => hfailed.elim⟩

/-- The keyword of a failed `AddKeyword` stays on the list. -/
theorem not_matches_add_error (e : String) :
    ¬ Matches finalSigma s (.addKeyword keyword (.error e)) := by
  intro h
  have hsame : s.bloc.keywords ++ [keyword] = s.bloc.keywords := ((h _ rfl).2 trivial).1
  exact List.cons_ne_nil _ _ (List.append_right_eq_self.mp hsame)

/-- A successful `RemoveKeyword` clears the set. -/
theorem matches_remove_ok : Matches finalSigma s (.removeKeyword keyword (.ok ())) ↔
    normalized finalSigma (s.bloc.keywords.erase keyword) = [] := by
  have hset : ∀ s' ∈ ocrStep finalSigma s (.removeKeyword keyword (.ok ())),
      SameKeywords finalSigma s' ↔ normalized finalSigma (s.bloc.keywords.erase keyword) = [] := by
    intro s' hs'
    obtain rfl := Option.some.inj hs'
    unfold SameKeywords
    rw [deleteOcrKeywords, setUserKeywords_eq, List.toFinset_eq_empty_iff]
    rfl
  constructor
  · intro h
    exact (hset _ rfl).mp (h _ rfl).1
  · intro h s' hs'
    exact ⟨(hset s' hs').mpr h, fun hfailed => hfailed.elim⟩

/-- The keyword of a failed `RemoveKeyword` is gone from the list. -/
theorem matches_remove_error (e : String) :
    Matches finalSigma s (.removeKeyword keyword (.error e)) ↔
      keyword ∉ s.bloc.keywords ∧ SameKeywords finalSigma s := by
  constructor
  · intro h
    obtain ⟨hsame, hkept⟩ := h _ rfl
    have herase : s.bloc.keywords.erase keyword = s.bloc.keywords := (hkept trivial).1
    refine ⟨List.erase_eq_self_iff.mp herase, ?_⟩
    unfold SameKeywords at hsame ⊢
    rw [← herase]
    exact hsame
  · rintro ⟨hnot, hsame⟩ s' hs'
    obtain rfl := Option.some.inj hs'
    have herase : s.bloc.keywords.erase keyword = s.bloc.keywords := List.erase_of_not_mem hnot
    refine ⟨?_, fun _ => ⟨herase, rfl⟩⟩
    change (normalized finalSigma (s.bloc.keywords.erase keyword)).toFinset = s.stored
    rw [herase]
    exact hsame

theorem matches_iff_harmless (s : OcrKeywords) (event : OcrSettingsEvent)
    (h : StoresNormal finalSigma s) : Matches finalSigma s event ↔ Harmless finalSigma s event := by
  cases event with
  | loadKeywords response =>
    cases response with
    | error e => exact matches_load_error e
    | ok order => exact iff_of_true (matches_load_ok h order) trivial
  | addKeyword keyword response =>
    cases response with
    | error e => exact iff_of_false (not_matches_add_error e) not_false
    | ok => exact matches_add_ok
  | removeKeyword keyword response =>
    cases response with
    | error e => exact matches_remove_error e
    | ok => exact matches_remove_ok

/-- **Keywords.** Over every sequence of events, the list on the phone stays the set of the
    server, and failed requests change neither, if and only if every event is harmless. -/
theorem matches_iff (finalSigma : List Char → List Char → Bool) (saved : List String)
    (events : List OcrSettingsEvent) :
    Guarded (ocrStep finalSigma) (Matches finalSigma) (.init finalSigma saved) events ↔
      Guarded (ocrStep finalSigma) (Harmless finalSigma) (.init finalSigma saved) events :=
  guarded_congr storesNormal_step matches_iff_harmless (normal_setOcrKeywords saved)

/-- Two keywords are added, one after the other. -/
def twoKeywords : List OcrSettingsEvent :=
  [.addKeyword "invoice" (.ok ()), .addKeyword "contract" (.ok ())]

/-- The phone shows both, and the server knows the second. -/
theorem second_keyword_replaces :
    ∃ s ∈ run (ocrStep fun _ _ => false) (.init (fun _ _ => false) []) twoKeywords,
      s.bloc.keywords = ["invoice", "contract"] ∧ s.stored = {"contract"} ∧
        ¬ SameKeywords (fun _ _ => false) s := by
  decide +kernel

end IronLink.Client
