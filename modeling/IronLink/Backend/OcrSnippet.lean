import IronLink.Lib.Offsets
import IronLink.Lib.Ttl
import IronLink.Ocr.Words

/-!
# The snippet of an OCR alert

`process_ocr` (backend/app/api/routes/media.py:69-157) from the extracted text on. It looks
for the keyword in the lower case of the text, and cuts the snippet out of the text at the
offset that it finds there. Sets are gone through in any order. While a message is sent
other tasks may change everything.

Results:
* `alert_of_mem_processOcr`: an alert is for a user to check and for a keyword of theirs
  that is a word of the lower case of the text.
* `snippet_shows_iff`: the snippet shows the keyword with at most 20 characters on each
  side exactly when `İ` and `Σ` leave it in its place.
* `snippet_without_keyword`: after 21 `İ` it has lost the first character of the keyword.
-/

namespace IronLink.Backend

open Lib Text

/-! ## Model -/

/-- The elements of a set in the order of a `for` loop. -/
structure SetOrder (α : Type*) where
  list : Finset α → List α
  coe_list : ∀ s, (list s : Multiset α) = s.val

structure OcrJob where
  fileId : String
  fileName : String
  uploaderId : ℤ
  chatId : Option ℤ
  groupId : Option ℤ

structure Chat where
  user1Id : ℤ
  user2Id : ℤ

structure OcrAlert where
  type : String
  fileId : String
  fileName : String
  matchedKeyword : String
  groupId : Option ℤ
  chatId : Option ℤ
  snippet : String
  userId : ℤ
  timestamp : ℕ

/-- What Redis holds. -/
structure OcrState where
  /-- in seconds -/
  now : ℕ
  /-- `user:{user_id}:ocr_keywords` -/
  keywords : ℤ → Finset String
  debounce : TtlMap ℕ String Unit
  /-- `user:{user_id}:ocr_alerts` -/
  alerts : TtlMap ℕ ℤ (List OcrAlert)

/-- What `process_ocr` has no part in. -/
structure OcrEnv where
  finalSigma : List Char → List Char → Bool
  /-- `GroupMember.user_id`, by `group_id` -/
  members : ℤ → Finset ℤ
  chats : ℤ → Option Chat
  userOrder : SetOrder ℤ
  /-- the order of `matched_keywords`, by user -/
  matchOrder : ℤ → SetOrder String
  /-- what holds after `await manager.send_personal_message`; `none`: it raises -/
  send : OcrAlert → OcrState → Option OcrState

def ocrDebounceSeconds : ℕ := 5

def ocrAlertHistoryLimit : ℕ := 50

def ocrAlertHistoryTtl : ℕ := 24 * 60 * 60

variable (env : OcrEnv)

/-- `get_user_keywords`. -/
def getUserKeywords (s : OcrState) (userId : ℤ) : Finset String :=
  (s.keywords userId).image (lower env.finalSigma)

/-- `add_ocr_alert`: `lpush`, `ltrim` and `expire`. -/
def addOcrAlert (s : OcrState) (userId : ℤ) (alert : OcrAlert) : OcrState :=
  let history := alert :: (s.alerts.get s.now userId).getD []
  let deadline := s.now + ocrAlertHistoryTtl
  { s with alerts := s.alerts.set userId (history.take ocrAlertHistoryLimit) (some deadline) }

def ocrDebounceKey (fileId : String) (userId : ℤ) : String :=
  "ocr:debounce:" ++ fileId ++ ":" ++ toString userId

/-- `is_ocr_debounced`. -/
def isOcrDebounced (s : OcrState) (fileId : String) (userId : ℤ) : Bool × OcrState :=
  let key := ocrDebounceKey fileId userId
  if (s.debounce.lookup s.now key).isSome then (true, s)
  else (false,
    { s with debounce := s.debounce.set key () (some (s.now + ocrDebounceSeconds)) })

/-- `user_ids_to_check`. -/
def userIdsToCheck (job : OcrJob) : Finset ℤ :=
  match job.groupId with
  | some groupId => env.members groupId
  | none =>
    match job.chatId with
    | some chatId =>
      match env.chats chatId with
      | some chat => ({chat.user1Id, chat.user2Id} : Finset ℤ).erase job.uploaderId
      | none => ∅
    | none => {job.uploaderId}

/-- `start`, for the `idx` where the keyword is found. -/
def snippetStart (idx : ℕ) : ℕ := idx - 20

/-- `end`. -/
def snippetEnd (text keyword : List Char) (idx : ℕ) : ℕ :=
  min text.length (idx + keyword.length + 20)

/-- `snippet`. -/
def snippetOf (text textLower keyword : List Char) : List Char :=
  match find keyword textLower with
  | some idx => between text (snippetStart idx) (snippetEnd text keyword idx)
  | none => text.take 100

/-- `alert`. -/
def alertPayload (job : OcrJob) (text keyword : String) (s : OcrState) (userId : ℤ) : OcrAlert where
  type := "ocr_alert"
  fileId := job.fileId
  fileName := job.fileName
  matchedKeyword := keyword
  groupId := job.groupId
  chatId := job.chatId
  snippet := String.ofList
    (snippetOf text.toList (lower env.finalSigma text).toList keyword.toList)
  userId := userId
  timestamp := s.now

/-- The loop body up to the sending of the message, and the alert to be sent. -/
def checkUser (job : OcrJob) (text : String) (s : OcrState) (userId : ℤ) :
    Option OcrAlert × OcrState :=
  let (debounced, s) := isOcrDebounced s job.fileId userId
  if debounced then (none, s)
  else
    let keywords := getUserKeywords env s userId
    if keywords = ∅ then (none, s)
    else
      let words := (Ocr.split (lower env.finalSigma text)).toFinset
      -- `next(iter(matched_keywords))`
      match ((env.matchOrder userId).list (words ∩ keywords)).head? with
      | none => (none, s)
      | some keyword =>
        let alert := alertPayload env job text keyword s userId
        (some alert, addOcrAlert s userId alert)

/-- `for user_id in user_ids_to_check`: the alerts, and what Redis holds in the end. -/
def checkUsers (job : OcrJob) (text : String) : OcrState → List ℤ → List OcrAlert × OcrState
  | s, [] => ([], s)
  | s, userId :: userIds =>
    match checkUser env job text s userId with
    | (none, s) => checkUsers job text s userIds
    | (some alert, s) =>
      match env.send alert s with
      | none => ([alert], s)
      | some s =>
        let (alerts, s) := checkUsers job text s userIds
        (alert :: alerts, s)

/-- `process_ocr`; `text` is what `extract_text` returns. -/
def processOcr (job : OcrJob) (text : String) (s : OcrState) : List OcrAlert × OcrState :=
  checkUsers env job text s (env.userOrder.list (userIdsToCheck env job))

variable {env} {job : OcrJob} {text : String} {s : OcrState} {alert : OcrAlert} {userId : ℤ}
  {userIds : List ℤ}

/-! ## Which alerts there are -/

theorem SetOrder.mem_list {α : Type*} (order : SetOrder α) {t : Finset α} {a : α} :
    a ∈ order.list t ↔ a ∈ t := by
  rw [← Multiset.mem_coe, order.coe_list, Finset.mem_val]

theorem SetOrder.list_singleton {α : Type*} (order : SetOrder α) (a : α) :
    order.list {a} = [a] := by
  have hcoe := order.coe_list {a}
  rwa [Finset.singleton_val, Multiset.coe_eq_singleton] at hcoe

/-- `is_ocr_debounced` leaves the keywords as they are. -/
theorem getUserKeywords_isOcrDebounced (s : OcrState) (fileId : String) (userId userId' : ℤ) :
    getUserKeywords env (isOcrDebounced s fileId userId).2 userId' =
      getUserKeywords env s userId' := by
  unfold isOcrDebounced
  dsimp only
  split_ifs <;> rfl

/-- `alert` is for `userId`, and for a keyword of theirs that is a word of the text. -/
def IsAlertFor (env : OcrEnv) (job : OcrJob) (text : String) (userId : ℤ) (alert : OcrAlert) :
    Prop :=
  ∃ keyword s, keyword ∈ Ocr.split (lower env.finalSigma text) ∧
    keyword ∈ getUserKeywords env s userId ∧ alert = alertPayload env job text keyword s userId

theorem isAlertFor_of_checkUser (h : (checkUser env job text s userId).1 = some alert) :
    IsAlertFor env job text userId alert := by
  unfold checkUser at h
  generalize hdebounced : isOcrDebounced s job.fileId userId = debounced at h
  dsimp only at h
  split_ifs at h with _ hkeywords
  split at h
  · cases h
  · rename_i keyword hfirst
    have hmem := (SetOrder.mem_list _).mp (List.mem_of_mem_head? hfirst)
    rw [Finset.mem_inter, List.mem_toFinset] at hmem
    exact ⟨keyword, debounced.2, hmem.1, hmem.2, (Option.some.inj h).symm⟩

theorem alert_of_mem_checkUsers (h : alert ∈ (checkUsers env job text s userIds).1) :
    ∃ userId ∈ userIds, IsAlertFor env job text userId alert := by
  induction userIds generalizing s with
  | nil => cases h
  | cons userId userIds ih =>
    have hrest : ∀ s, alert ∈ (checkUsers env job text s userIds).1 →
        ∃ userId' ∈ userId :: userIds, IsAlertFor env job text userId' alert := fun s h =>
      (ih h).imp fun _ hfor => hfor.imp_left (List.mem_cons_of_mem userId)
    have hhere : ∀ first, (checkUser env job text s userId).1 = some first →
        IsAlertFor env job text userId first := fun first => isAlertFor_of_checkUser
    rw [checkUsers] at h
    generalize checkUser env job text s userId = checked at h hhere
    obtain ⟨_ | first, s'⟩ := checked
    · exact hrest s' h
    · have hfirst := hhere first rfl
      dsimp only at h
      cases hsend : env.send first s' with
      | none =>
        rw [hsend] at h
        obtain rfl := List.mem_singleton.mp h
        exact ⟨userId, List.mem_cons_self, hfirst⟩
      | some s'' =>
        rw [hsend] at h
        obtain rfl | h := List.mem_cons.mp h
        · exact ⟨userId, List.mem_cons_self, hfirst⟩
        · exact hrest s'' h

/-- Every alert is for a user to check. -/
theorem alert_of_mem_processOcr (h : alert ∈ (processOcr env job text s).1) :
    ∃ userId ∈ userIdsToCheck env job, IsAlertFor env job text userId alert := by
  obtain ⟨userId, huser, hfor⟩ := alert_of_mem_checkUsers h
  exact ⟨userId, env.userOrder.mem_list.mp huser, hfor⟩

/-- Where one keyword matches, the user gets an alert for it. -/
theorem checkUser_of_single {keyword : String}
    (hlive : s.debounce.lookup s.now (ocrDebounceKey job.fileId userId) = none)
    (hmatch : (Ocr.split (lower env.finalSigma text)).toFinset ∩ getUserKeywords env s userId =
      {keyword}) :
    (checkUser env job text s userId).1 = some (alertPayload env job text keyword
      (isOcrDebounced s job.fileId userId).2 userId) := by
  have hkeywords : getUserKeywords env s userId ≠ ∅ := by
    intro hnone
    rw [hnone, Finset.inter_empty] at hmatch
    exact Finset.singleton_ne_empty keyword hmatch.symm
  have hdebounced : (isOcrDebounced s job.fileId userId).1 = false := by
    unfold isOcrDebounced
    dsimp only
    rw [hlive, if_neg (by simp)]
  unfold checkUser
  rw [← getUserKeywords_isOcrDebounced s job.fileId userId userId] at hkeywords hmatch
  dsimp only
  rw [hdebounced, if_neg Bool.false_ne_true, if_neg hkeywords, hmatch, SetOrder.list_singleton]
  rfl

/-- Where there is one user to check, that alert is raised. -/
theorem mem_processOcr_of_single {keyword : String} (husers : userIdsToCheck env job = {userId})
    (hlive : s.debounce.lookup s.now (ocrDebounceKey job.fileId userId) = none)
    (hmatch : (Ocr.split (lower env.finalSigma text)).toFinset ∩ getUserKeywords env s userId =
      {keyword}) :
    alertPayload env job text keyword (isOcrDebounced s job.fileId userId).2 userId ∈
      (processOcr env job text s).1 := by
  have halert := checkUser_of_single hlive hmatch
  unfold processOcr
  rw [husers, SetOrder.list_singleton, checkUsers]
  generalize checkUser env job text s userId = checked at halert
  obtain ⟨_, s'⟩ := checked
  obtain rfl := halert
  dsimp only
  cases env.send _ s' <;> exact List.mem_cons_self

/-! ## Where the keyword is -/

section Place

variable (finalSigma : List Char → List Char → Bool) (cs k : List Char) (idx : ℕ)

/-- How many characters of the text end before the keyword begins. -/
def placeStart : ℕ := ended lowerWidth cs idx

/-- How many characters of the text begin before the keyword ends. -/
def placeEnd : ℕ := begun lowerWidth cs (idx + k.length)

/-- The characters of the text whose lower case has the keyword. -/
def place : List Char := between cs (placeStart cs idx) (placeEnd cs k idx)

/-- The characters before these, from `start` on. -/
def contextBefore : List Char := between cs (snippetStart idx) (placeStart cs idx)

/-- The characters after these, up to `end`. -/
def contextAfter : List Char := between cs (placeEnd cs k idx) (snippetEnd cs k idx)

/-- The snippet shows the keyword that was found at `idx`. -/
structure Shows (snippet : List Char) : Prop where
  substring : snippet <:+: cs
  contains : k <:+: lowerChars finalSigma [] snippet
  around : snippet = contextBefore cs idx ++ (place cs k idx ++ contextAfter cs k idx)
  before : (contextBefore cs idx).length ≤ 20
  after : (contextAfter cs k idx).length ≤ 20
  /-- The characters of the keyword have in the snippet the lower case that they have in the
      text. -/
  same : lowerWithin finalSigma (contextBefore cs idx).reverse (place cs k idx)
      (contextAfter cs k idx) =
    lowerWithin finalSigma (cs.take (placeStart cs idx)).reverse (place cs k idx)
      (cs.drop (placeEnd cs k idx))

/-- Lower case leaves the keyword in its place: at most 20 `İ` begin before it does, and none
    ends before it does or at most 20 characters follow; its `Σ` end a word in the snippet
    as they do in the text. -/
structure StaysInPlace : Prop where
  before : (cs.take (begun lowerWidth cs idx)).countP (· == 'İ') ≤ 20
  after : (cs.take (ended lowerWidth cs (idx + k.length))).countP (· == 'İ') = 0 ∨
    cs.length ≤ placeEnd cs k idx + 20
  sigma : ∀ us vs, place cs k idx = us ++ 'Σ' :: vs →
    finalSigma (us.reverse ++ (contextBefore cs idx).reverse) (vs ++ contextAfter cs k idx) =
      finalSigma (us.reverse ++ (cs.take (placeStart cs idx)).reverse)
        (vs ++ cs.drop (placeEnd cs k idx))

end Place

variable {finalSigma : List Char → List Char → Bool} {cs k : List Char} {idx : ℕ}

theorem lowerWidth_eq (c : Char) : lowerWidth c = if (c == 'İ') = true then 2 else 1 := by
  simp [lowerWidth]

theorem lowerWidth_pos (c : Char) : 0 < lowerWidth c := by
  unfold lowerWidth
  split_ifs <;> omega

theorem placeStart_le_placeEnd : placeStart cs idx ≤ placeEnd cs k idx :=
  ended_le_begun lowerWidth_pos (Nat.le_add_right idx k.length)

theorem take_append_place (cs k : List Char) (idx : ℕ) :
    cs.take (placeStart cs idx) ++ place cs k idx = cs.take (placeEnd cs k idx) :=
  between_append (Nat.zero_le _) placeStart_le_placeEnd cs

/-- What is between two others has its lower case between theirs. -/
theorem isInfix_lowerWithin (xs ys zs : List Char) :
    lowerWithin finalSigma xs.reverse ys zs <:+: lowerChars finalSigma [] (xs ++ (ys ++ zs)) := by
  rw [lowerChars_append, lowerChars_append, List.append_nil]
  exact (List.prefix_append _ _).isInfix.trans (List.suffix_append _ _).isInfix

theorem length_le_of_find (h : find k (lowerChars finalSigma [] cs) = some idx) :
    idx + k.length ≤ (cs.map lowerWidth).sum := by
  obtain ⟨hle, hfound, -⟩ := find_eq_some h
  have hk := hfound.length_le
  rw [List.length_drop, length_lowerChars] at hk
  rw [length_lowerChars] at hle
  omega

/-- The characters of the place have the keyword in their lower case. -/
theorem keyword_infix_place (h : find k (lowerChars finalSigma [] cs) = some idx) :
    k <:+: lowerWithin finalSigma (cs.take (placeStart cs idx)).reverse (place cs k idx)
      (cs.drop (placeEnd cs k idx)) := by
  obtain ⟨-, hfound, -⟩ := find_eq_some h
  have hcs : cs =
      cs.take (placeStart cs idx) ++ (place cs k idx ++ cs.drop (placeEnd cs k idx)) := by
    rw [← List.append_assoc, take_append_place, List.take_append_drop]
  rw [hcs, lowerChars_append, lowerChars_append, List.append_nil] at hfound
  refine infix_of_between hfound ?_ ?_
  · rw [length_lowerWithin]
    exact sum_take_ended_le lowerWidth cs idx
  · rw [length_lowerWithin, length_lowerWithin, ← List.sum_append, ← List.map_append,
      take_append_place]
    exact le_sum_take_begun (length_le_of_find h)

/-- How far lower case has moved the place, which is not empty. -/
theorem place_bounds (h : find k (lowerChars finalSigma [] cs) = some idx) (hk : k ≠ []) :
    placeStart cs idx + (cs.take (begun lowerWidth cs idx)).countP (· == 'İ') = idx ∧
      placeEnd cs k idx + (cs.take (ended lowerWidth cs (idx + k.length))).countP (· == 'İ') =
        idx + k.length ∧
      placeStart cs idx < placeEnd cs k idx ∧ placeEnd cs k idx ≤ cs.length := by
  have hlength := length_le_of_find h
  have hpos : 0 < k.length := List.length_pos_iff.mpr hk
  have hlt : placeStart cs idx < placeEnd cs k idx := by
    refine lt_of_le_of_ne placeStart_le_placeEnd fun heq => ?_
    have hfirst : ((cs.take (placeStart cs idx)).map lowerWidth).sum ≤ idx :=
      sum_take_ended_le lowerWidth cs idx
    have hlast : idx + k.length ≤ ((cs.take (placeEnd cs k idx)).map lowerWidth).sum :=
      le_sum_take_begun hlength
    rw [heq] at hfirst
    omega
  exact ⟨(ended_begun_count lowerWidth_eq (by omega)).1,
    (ended_begun_count lowerWidth_eq hlength).2, hlt, begun_le_length lowerWidth cs _⟩

/-- The snippet shows the keyword exactly when the keyword stays in its place. -/
theorem shows_iff (h : find k (lowerChars finalSigma [] cs) = some idx) (hk : k ≠ []) :
    Shows finalSigma cs k idx (between cs (snippetStart idx) (snippetEnd cs k idx)) ↔
      StaysInPlace finalSigma cs k idx := by
  obtain ⟨hstart, hend, hlt, hlength⟩ := place_bounds h hk
  have hstop : placeEnd cs k idx ≤ snippetEnd cs k idx := by
    unfold snippetEnd
    omega
  have hbefore : (contextBefore cs idx).length = placeStart cs idx - snippetStart idx := by
    unfold contextBefore
    rw [length_between]
    omega
  have hafter : (contextAfter cs k idx).length = snippetEnd cs k idx - placeEnd cs k idx := by
    unfold contextAfter snippetEnd
    rw [length_between]
    omega
  have hsnippet : between cs (snippetStart idx) (snippetEnd cs k idx) =
      contextBefore cs idx ++ (place cs k idx ++ contextAfter cs k idx) ↔
        snippetStart idx ≤ placeStart cs idx := by
    constructor
    · -- cut later than the keyword begins, the snippet is too short
      intro heq
      have hlen := congrArg List.length heq
      rw [List.length_append, List.length_append, hbefore, hafter] at hlen
      unfold place at hlen
      rw [length_between, length_between] at hlen
      unfold snippetEnd at hlen hstop
      omega
    · intro hle
      unfold contextBefore place contextAfter
      rw [between_append hlt.le hstop, between_append hle (hlt.le.trans hstop)]
  constructor
  · intro hshows
    have hfront := hsnippet.mp hshows.around
    have hback := hshows.after
    rw [hafter] at hback
    unfold snippetStart at hfront
    unfold snippetEnd at hback
    exact ⟨by omega, by omega, lowerWithin_eq_iff.mp hshows.same⟩
  · intro hstays
    have hdots := hstays.before
    have hlast := hstays.after
    have hsame := lowerWithin_eq_iff.mpr hstays.sigma
    have haround := hsnippet.mpr (by unfold snippetStart; omega)
    refine ⟨isInfix_between cs _ _, ?_, haround, ?_, ?_, hsame⟩
    · rw [haround]
      refine List.IsInfix.trans ?_ (isInfix_lowerWithin _ _ _)
      rw [hsame]
      exact keyword_infix_place h
    · rw [hbefore]
      unfold snippetStart
      omega
    · rw [hafter]
      unfold snippetEnd
      omega

/-- Without `İ` and `Σ` every keyword stays in its place. -/
theorem stays_of_plain (hdot : 'İ' ∉ cs) (hsigma : 'Σ' ∉ cs) :
    StaysInPlace finalSigma cs k idx := by
  have hnone : ∀ n, (cs.take n).countP (· == 'İ') = 0 := by
    intro n
    rw [List.countP_eq_zero]
    rintro c hc hdotted
    obtain rfl := beq_iff_eq.mp hdotted
    exact hdot (List.mem_of_mem_take hc)
  refine ⟨by rw [hnone]; omega, .inl (hnone _), fun us vs heq => ?_⟩
  have hmem : 'Σ' ∈ place cs k idx := by
    rw [heq]
    simp
  exact absurd ((isInfix_between cs _ _).subset hmem) hsigma

/-! ## The snippet of an alert -/

/-- **Snippet.** The keyword of an alert is found in the lower case of the text, and the
    snippet is the part of the text that shows it exactly when lower case leaves it in its
    place. -/
theorem snippet_shows_iff (env : OcrEnv) (job : OcrJob) (text : String) (s : OcrState) :
    ∀ alert ∈ (processOcr env job text s).1, ∃ idx,
      find alert.matchedKeyword.toList (lower env.finalSigma text).toList = some idx ∧
        (Shows env.finalSigma text.toList alert.matchedKeyword.toList idx alert.snippet.toList ↔
          StaysInPlace env.finalSigma text.toList alert.matchedKeyword.toList idx) := by
  intro alert halert
  obtain ⟨userId, -, keyword, s', hword, -, rfl⟩ := alert_of_mem_processOcr halert
  have hlower : (lower env.finalSigma text).toList = lowerChars env.finalSigma [] text.toList :=
    String.toList_ofList
  have hinfix : keyword.toList <:+: (lower env.finalSigma text).toList :=
    of_decide_eq_true (Ocr.infix_of_mem_split hword)
  obtain ⟨idx, hidx⟩ := Option.isSome_iff_exists.mp (find_isSome hinfix)
  refine ⟨idx, hidx, ?_⟩
  have hsnippet : (alertPayload env job text keyword s' userId).snippet.toList =
      between text.toList (snippetStart idx) (snippetEnd text.toList keyword.toList idx) := by
    unfold alertPayload snippetOf
    rw [String.toList_ofList, hidx]
  rw [hsnippet]
  rw [hlower] at hidx
  exact shows_iff hidx (mem_words_iff.mp (Ocr.mem_split.mp hword)).ne_nil

/-- Any order of a set. -/
noncomputable def SetOrder.arbitrary (α : Type*) : SetOrder α := ⟨Finset.toList, Finset.coe_toList⟩

noncomputable def sampleEnv : OcrEnv where
  finalSigma := fun _ _ => false
  members := fun _ => ∅
  chats := fun _ => none
  userOrder := .arbitrary ℤ
  matchOrder := fun _ => .arbitrary String
  send := fun _ s => some s

def sampleJob : OcrJob := ⟨"f", "scan.png", 7, none, none⟩

def sampleState : OcrState := ⟨0, fun _ => {"urgent"}, fun _ => none, fun _ => none⟩

/-- The alert for `urgent` that the user is sent. -/
noncomputable def sampleAlert (text : String) : OcrAlert :=
  alertPayload sampleEnv sampleJob text "urgent" (isOcrDebounced sampleState "f" 7).2 7

theorem sampleAlert_mem {text : String}
    (hmatch : (Ocr.split (lower (fun _ _ => false) text)).toFinset ∩
      ({"urgent"} : Finset String).image (lower fun _ _ => false) = {"urgent"}) :
    sampleAlert text ∈ (processOcr sampleEnv sampleJob text sampleState).1 :=
  mem_processOcr_of_single rfl rfl hmatch

theorem snippet_shows_sample :
    ∃ idx, find "urgent".toList (lower (fun _ _ => false) "an URGENT call").toList = some idx ∧
      (Shows (fun _ _ => false) "an URGENT call".toList "urgent".toList idx
          (sampleAlert "an URGENT call").snippet.toList ↔
        StaysInPlace (fun _ _ => false) "an URGENT call".toList "urgent".toList idx) :=
  snippet_shows_iff sampleEnv sampleJob "an URGENT call" sampleState (sampleAlert "an URGENT call")
    (sampleAlert_mem (by decide +kernel))

/-- After 21 `İ` the snippet begins behind the first character of the keyword. -/
theorem snippet_without_keyword :
    ∃ alert ∈ (processOcr sampleEnv sampleJob "İİİİİİİİİİİİİİİİİİİİİ urgent" sampleState).1,
      alert.matchedKeyword = "urgent" ∧ alert.snippet = "rgent" ∧
        ¬ alert.matchedKeyword.toList <:+: (lower (fun _ _ => false) alert.snippet).toList := by
  have hsnippet : (sampleAlert "İİİİİİİİİİİİİİİİİİİİİ urgent").snippet = "rgent" := by
    show String.ofList (snippetOf _ (lower (fun _ _ => false) _).toList "urgent".toList) = _
    decide +kernel
  refine ⟨sampleAlert _, sampleAlert_mem (by decide +kernel), rfl, hsnippet, ?_⟩
  rw [hsnippet]
  show ¬ "urgent".toList <:+: (lower (fun _ _ => false) "rgent").toList
  decide +kernel

end IronLink.Backend
