import IronLink.Common.Decimal
import IronLink.Common.Text
import IronLink.Lib.Memo
import IronLink.Lib.Run

/-!
# The caches of the AI service

`summarize_messages`, `translate_message` and `generate_smart_replies`
(backend/app/services/ai_service.py:43-143): what each looks up, sends to the Hugging Face
API, stores and returns. The API is a function of the model and the payload that may fail;
entries expire, and may be gone earlier.

Results:
* `summaryKey_inj`, `translateKey_inj`, `replyKey_inj`: where `hash` is injective, the keys
  tell apart the texts, the languages and the numbers of replies.
* `storesAnswers_step`: what is cached is what the API gave to a call with that key.
* `summary_of_cached`, `translation_of_cached`, `replies_of_cached`: what is found.
-/

namespace IronLink.Backend

open Lib Text

/-! ## The API -/

/-- `payload["parameters"]`. -/
inductive HfParameters
  | summarization (maxLength minLength : ℤ) (doSample : Bool)
  | translation (srcLang tgtLang : String)
  | generation (maxLength numReturnSequences : ℤ) (temperature : ℚ)
  deriving DecidableEq

structure HfPayload where
  inputs : String
  parameters : HfParameters
  deriving DecidableEq

/-- An element of the list that the API answers with. -/
inductive HfItem
  /-- a dict, its values texts -/
  | fields (get : String → Option String)
  /-- anything else, which makes the code raise -/
  | malformed

/-- `response.json()`. -/
inductive HfResponse
  | list (items : List HfItem)
  | other

/-- The answers, by model and payload. -/
abbrev HfApi := String → HfPayload → HfResponse

def summarizationModel : String := "facebook/bart-large-cnn"

def translationModel : String := "facebook/nllb-200-distilled-600M"

def smartReplyModel : String := "microsoft/DialoGpt-medium"

/-- `result[0][field] if isinstance(result, list) and len(result) > 0 else ""`; `none`: it
    raises. -/
def firstField (field : String) : HfResponse → Option String
  | .list (.fields get :: _) => get field
  | .list (.malformed :: _) => none
  | .list [] => some ""
  | .other => some ""

/-- One round of `for item in result`; `none`: it raises. -/
def addReply (context : String) (replies : List String) : HfItem → Option (List String)
  | .malformed => none
  | .fields get =>
    let generated := (get "generated_text").getD ""
    let generated :=
      if context.toList <+: generated.toList then
        strip (String.ofList (generated.toList.drop context.toList.length))
      else generated
    some (if generated ≠ "" ∧ generated ∉ replies then replies ++ [generated] else replies)

def fallbackReplies : List String := ["Thanks!", "Sounds good", "Let me know"]

/-- `replies` before it is cached; `none`: the code raises. -/
def gatherReplies (context : String) (response : HfResponse) : Option (List String) :=
  let gathered := match response with
    | .list items => items.foldlM (addReply context) []
    | .other => some []
  gathered.map fun replies => if replies = [] then fallbackReplies else replies

/-! ## The cache -/

/-- The bytes of a key: a text in UTF-8, or a list of texts in JSON. -/
inductive Cached
  | text (value : String)
  | json (replies : List String)
  deriving DecidableEq

structure AiCache where
  /-- in seconds -/
  now : ℕ
  store : TtlMap ℕ String Cached
  /-- the `max_length` of the call that stored the summary under a key; the code keeps no
      such thing -/
  madeWith : String → ℤ

def AiCache.empty : AiCache := ⟨0, fun _ => none, fun _ => 0⟩

/-- `setex`. -/
def AiCache.setex (s : AiCache) (key : String) (ttl : ℕ) (value : Cached) : AiCache :=
  { s with store := s.store.set key value (some (s.now + ttl)) }

/-- `setex` of a summary, and what it was made with. -/
def AiCache.setSummary (s : AiCache) (key : String) (ttl : ℕ) (summary : String)
    (maxLength : ℤ) : AiCache :=
  { now := s.now
    store := s.store.set key (.text summary) (some (s.now + ttl))
    madeWith := Function.update s.madeWith key maxLength }

/-- `cached` of a text, if it is true. -/
def AiCache.cachedText (s : AiCache) (key : String) : Option String :=
  match s.store.get s.now key with
  | some (.text value) => if value ≠ "" then some value else none
  | _ => none

/-- `json.loads(cached)`. -/
def AiCache.cachedReplies (s : AiCache) (key : String) : Option (List String) :=
  match s.store.get s.now key with
  | some (.json replies) => some replies
  | _ => none

/-! ## The calls -/

variable (hash : String → ℤ) (api : HfApi)

/-- `" ".join(messages[-100:])`. -/
def combine (messages : List String) : String :=
  " ".intercalate (messages.drop (messages.length - 100))

/-- `combined[:200] + "..." if len(combined) > 200 else combined`. -/
def shorten (combined : String) : String :=
  if combined.toList.length > 200 then String.ofList (combined.toList.take 200) ++ "..."
  else combined

/-- `replies[:n]`. -/
def sliceTo (n : ℤ) (replies : List String) : List String :=
  if 0 ≤ n then replies.take n.toNat else replies.take (replies.length - n.natAbs)

def summaryKey (combined : String) : String := "ai:summary:" ++ toString (hash combined)

def translateKey (text targetLang : String) : String :=
  "ai:translate:" ++ toString (hash text) ++ ":" ++ targetLang

def replyKey (context : String) (numReplies : ℤ) : String :=
  "ai:smartreply:" ++ toString (hash context) ++ ":" ++ toString numReplies

/-- The summary that the API gives; `none`: the code raises. -/
def summaryText (combined : String) (maxLength : ℤ) : Option String :=
  firstField "summary_text"
    (api summarizationModel ⟨combined, .summarization maxLength 30 false⟩)

def translationText (text targetLang : String) : Option String :=
  firstField "translation_text" (api translationModel ⟨text, .translation "eng_Latn" targetLang⟩)

def repliesOf (context : String) (numReplies : ℤ) : Option (List String) :=
  gatherReplies context (api smartReplyModel ⟨context, .generation 50 numReplies (7 / 10)⟩)

/-- What the three functions do with a key: return what is `cached`; else ask the API, store
    the `answer` and return it; else return the fallback. -/
def throughCache {α β γ : Type} (s : AiCache) (cached : Option α) (answer : Option β)
    (store : β → AiCache) (found : α → γ) (answered : β → γ) (failed : γ) : AiCache × γ :=
  match cached with
  | some value => (s, found value)
  | none =>
    match answer with
    | some value => (store value, answered value)
    | none => (s, failed)

/-- `summarize_messages`; `fails`: the API fails, should it be called. -/
def summarizeMessages (s : AiCache) (messages : List String) (maxLength : ℤ) (fails : Bool) :
    AiCache × String :=
  if messages = [] then (s, "")
  else
    let combined := combine messages
    let cacheKey := summaryKey hash combined
    throughCache s (s.cachedText cacheKey)
      (if fails then none else summaryText api combined maxLength)
      (fun summary => s.setSummary cacheKey 300 summary maxLength) id id (shorten combined)

/-- `translate_message`. -/
def translateMessage (s : AiCache) (text targetLang : String) (fails : Bool) :
    AiCache × String :=
  if text = "" then (s, "")
  else
    let cacheKey := translateKey hash text targetLang
    throughCache s (s.cachedText cacheKey)
      (if fails then none else translationText api text targetLang)
      (fun translation => s.setex cacheKey 86400 (.text translation)) id id text

/-- `generate_smart_replies`, which caches all replies and returns the first ones. -/
def generateSmartReplies (s : AiCache) (context : String) (numReplies : ℤ) (fails : Bool) :
    AiCache × List String :=
  if context = "" then (s, [])
  else
    let cacheKey := replyKey hash context numReplies
    throughCache s (s.cachedReplies cacheKey)
      (if fails then none else repliesOf api context numReplies)
      (fun replies => s.setex cacheKey 600 (.json replies)) id (sliceTo numReplies)
      fallbackReplies

/-! ## Sequences of calls -/

inductive AiCall
  | summarize (messages : List String) (maxLength : ℤ)
  | translate (text targetLang : String)
  | replies (context : String) (numReplies : ℤ)
  deriving DecidableEq

inductive AiResult
  | text (value : String)
  | replies (values : List String)
  deriving DecidableEq

/-- A call, which fails if it asks the API and `fails`. -/
def serve (s : AiCache) (call : AiCall) (fails : Bool) : AiCache × AiResult :=
  match call with
  | .summarize messages maxLength =>
    (summarizeMessages hash api s messages maxLength fails).map id .text
  | .translate text targetLang => (translateMessage hash api s text targetLang fails).map id .text
  | .replies context numReplies =>
    (generateSmartReplies hash api s context numReplies fails).map id .replies

/-- The call goes past the cache. -/
def asksApi (s : AiCache) : AiCall → Bool
  | .summarize messages _ =>
    messages ≠ [] && (s.cachedText (summaryKey hash (combine messages))).isNone
  | .translate text targetLang =>
    text ≠ "" && (s.cachedText (translateKey hash text targetLang)).isNone
  | .replies context numReplies =>
    context ≠ "" && (s.cachedReplies (replyKey hash context numReplies)).isNone

/-- What happens to the service. -/
inductive AiAction
  | call (call : AiCall) (fails : Bool)
  | wait (seconds : ℕ)
  /-- a key is gone before its time -/
  | evict (key : String)

def aiStep (s : AiCache) : AiAction → Option AiCache
  | .call call fails => some (serve hash api s call fails).1
  | .wait seconds => some { s with now := s.now + seconds }
  | .evict key => some { s with store := s.store.del key }

/-! ## The keys -/

variable {hash api} {combined text targetLang context : String} {numReplies maxLength : ℤ}

/-- A key is `ai`, a name, and the rest, with `:` in between. -/
def aiKey (name rest : String) : String := "ai:" ++ name ++ ":" ++ rest

theorem aiKey_inj {name rest name' rest' : String} (hname : ':' ∉ name.toList)
    (hname' : ':' ∉ name'.toList) (h : aiKey name rest = aiKey name' rest') :
    name = name' ∧ rest = rest' := by
  have hlist : name.toList ++ ':' :: rest.toList = name'.toList ++ ':' :: rest'.toList := by
    simpa [aiKey] using congrArg String.toList h
  obtain ⟨hnames, hrests⟩ := append_sep_inj hname hname' hlist
  exact ⟨String.toList_inj.mp hnames, String.toList_inj.mp hrests⟩

theorem summaryKey_eq : summaryKey hash combined = aiKey "summary" (toString (hash combined)) := by
  simp [summaryKey, aiKey]

theorem translateKey_eq : translateKey hash text targetLang =
    aiKey "translate" (toString (hash text) ++ ":" ++ targetLang) := by
  simp [translateKey, aiKey, ← String.toList_inj]

theorem replyKey_eq : replyKey hash context numReplies =
    aiKey "smartreply" (toString (hash context) ++ ":" ++ toString numReplies) := by
  simp [replyKey, aiKey, ← String.toList_inj]

theorem colon_notMem (n : ℤ) : ':' ∉ (toString n).toList :=
  Decimal.not_mem_toString (by decide) (by decide) n

/-- The number before the first `:`. -/
theorem number_inj {m n : ℤ} {rest rest' : String}
    (h : toString m ++ ":" ++ rest = toString n ++ ":" ++ rest') : m = n ∧ rest = rest' := by
  have hlist : (toString m).toList ++ ':' :: rest.toList =
      (toString n).toList ++ ':' :: rest'.toList := by
    simpa using congrArg String.toList h
  obtain ⟨hnumber, hrest⟩ := append_sep_inj (colon_notMem m) (colon_notMem n) hlist
  exact ⟨Decimal.toString_injective (String.toList_inj.mp hnumber), String.toList_inj.mp hrest⟩

theorem summaryKey_ne_translateKey :
    summaryKey hash combined ≠ translateKey hash text targetLang := by
  rw [summaryKey_eq, translateKey_eq]
  intro h
  exact absurd (aiKey_inj (by decide) (by decide) h).1 (by decide)

theorem summaryKey_ne_replyKey :
    summaryKey hash combined ≠ replyKey hash context numReplies := by
  rw [summaryKey_eq, replyKey_eq]
  intro h
  exact absurd (aiKey_inj (by decide) (by decide) h).1 (by decide)

theorem summaryKey_inj (hinj : Function.Injective hash) {combined' : String}
    (h : summaryKey hash combined = summaryKey hash combined') : combined = combined' := by
  rw [summaryKey_eq, summaryKey_eq] at h
  exact hinj (Decimal.toString_injective (aiKey_inj (by decide) (by decide) h).2)

theorem translateKey_inj (hinj : Function.Injective hash) {text' targetLang' : String}
    (h : translateKey hash text targetLang = translateKey hash text' targetLang') :
    text = text' ∧ targetLang = targetLang' := by
  rw [translateKey_eq, translateKey_eq] at h
  exact (number_inj (aiKey_inj (by decide) (by decide) h).2).imp_left fun hash => hinj hash

theorem replyKey_inj (hinj : Function.Injective hash) {context' : String} {numReplies' : ℤ}
    (h : replyKey hash context numReplies = replyKey hash context' numReplies') :
    context = context' ∧ numReplies = numReplies' := by
  rw [replyKey_eq, replyKey_eq] at h
  obtain ⟨hhash, hnumber⟩ := number_inj (aiKey_inj (by decide) (by decide) h).2
  exact ⟨hinj hhash, Decimal.toString_injective hnumber⟩

/-! ## What is cached -/

/-- The value is what the API gave to a call with the key. -/
inductive Answer (hash : String → ℤ) (api : HfApi) (madeWith : String → ℤ) :
    String → Cached → Prop
  | summary {combined summary : String}
      (h : summaryText api combined (madeWith (summaryKey hash combined)) = some summary) :
      Answer hash api madeWith (summaryKey hash combined) (.text summary)
  | translation {text targetLang translation : String}
      (h : translationText api text targetLang = some translation) :
      Answer hash api madeWith (translateKey hash text targetLang) (.text translation)
  | replies {context : String} {numReplies : ℤ} {replies : List String}
      (h : repliesOf api context numReplies = some replies) :
      Answer hash api madeWith (replyKey hash context numReplies) (.json replies)

def StoresAnswers (hash : String → ℤ) (api : HfApi) (s : AiCache) : Prop :=
  s.store.Holds (Answer hash api s.madeWith)

variable {s s' : AiCache}

theorem cachedText_eq_some {key value : String} (h : s.cachedText key = some value) :
    s.store.get s.now key = some (.text value) := by
  unfold AiCache.cachedText at h
  cases hget : s.store.get s.now key with
  | none =>
    rw [hget] at h
    cases h
  | some cached =>
    rw [hget] at h
    cases cached with
    | json replies => cases h
    | text found =>
      dsimp only at h
      split_ifs at h
      rw [Option.some.inj h]

theorem cachedReplies_eq_some {key : String} {values : List String}
    (h : s.cachedReplies key = some values) : s.store.get s.now key = some (.json values) := by
  unfold AiCache.cachedReplies at h
  cases hget : s.store.get s.now key with
  | none =>
    rw [hget] at h
    cases h
  | some cached =>
    rw [hget] at h
    cases cached with
    | text found => cases h
    | json replies => rw [Option.some.inj h]

/-- A summary that is found was made from the same texts, for the `max_length` of then. -/
theorem summary_of_cached (hinj : Function.Injective hash) (hs : StoresAnswers hash api s)
    {value : String} (h : s.cachedText (summaryKey hash combined) = some value) :
    summaryText api combined (s.madeWith (summaryKey hash combined)) = some value := by
  have hanswer := hs.get (cachedText_eq_some h)
  generalize hkey : summaryKey hash combined = key at hanswer
  generalize hvalue : Cached.text value = cached at hanswer
  cases hanswer with
  | summary hsummary =>
    obtain rfl := summaryKey_inj hinj hkey
    rw [hsummary, Cached.text.inj hvalue]
  | translation => exact absurd hkey summaryKey_ne_translateKey
  | replies => cases hvalue

theorem translation_of_cached (hinj : Function.Injective hash) (hs : StoresAnswers hash api s)
    {value : String} (h : s.cachedText (translateKey hash text targetLang) = some value) :
    translationText api text targetLang = some value := by
  have hanswer := hs.get (cachedText_eq_some h)
  generalize hkey : translateKey hash text targetLang = key at hanswer
  generalize hvalue : Cached.text value = cached at hanswer
  cases hanswer with
  | summary => exact absurd hkey.symm summaryKey_ne_translateKey
  | translation htranslation =>
    obtain ⟨rfl, rfl⟩ := translateKey_inj hinj hkey
    rw [htranslation, Cached.text.inj hvalue]
  | replies => cases hvalue

theorem replies_of_cached (hinj : Function.Injective hash) (hs : StoresAnswers hash api s)
    {values : List String} (h : s.cachedReplies (replyKey hash context numReplies) = some values) :
    repliesOf api context numReplies = some values := by
  have hanswer := hs.get (cachedReplies_eq_some h)
  generalize hkey : replyKey hash context numReplies = key at hanswer
  generalize hvalue : Cached.json values = cached at hanswer
  cases hanswer with
  | summary => cases hvalue
  | translation => cases hvalue
  | replies hreplies =>
    obtain ⟨rfl, rfl⟩ := replyKey_inj hinj hkey
    rw [hreplies, Cached.json.inj hvalue]

/-- Another entry, under a key for which nothing else is remembered. -/
theorem StoresAnswers.setex (hs : StoresAnswers hash api s) {key : String} {value : Cached}
    (hvalue : Answer hash api s.madeWith key value) (ttl : ℕ) :
    StoresAnswers hash api (s.setex key ttl value) :=
  TtlMap.holds_set hs (fun _ _ _ h => h) hvalue _

/-- A new summary, with the `max_length` it was made with. -/
theorem StoresAnswers.setSummary (hs : StoresAnswers hash api s) {summary : String}
    (hsummary : summaryText api combined maxLength = some summary) (ttl : ℕ) :
    StoresAnswers hash api
      (s.setSummary (summaryKey hash combined) ttl summary maxLength) := by
  refine TtlMap.holds_set hs (fun key value hne h => ?_) (.summary ?_) _
  · cases h with
    | summary h =>
      refine .summary (Eq.trans ?_ h)
      exact congrArg (summaryText api _) (Function.update_of_ne hne ..)
    | translation h => exact .translation h
    | replies h => exact .replies h
  · exact (congrArg (summaryText api combined) (Function.update_self ..)).trans hsummary

/-! ## What a call leaves in the cache -/

section

variable {α β γ : Type} {cached : Option α} {answer : Option β} {store : β → AiCache}
  {found : α → γ} {answered : β → γ} {failed : γ} {fails : Bool}

theorem throughCache_fst {P : AiCache → Prop} (hs : P s)
    (hstore : ∀ value, answer = some value → P (store value)) :
    P (throughCache s cached answer store found answered failed).1 := by
  unfold throughCache
  cases cached with
  | some value => exact hs
  | none =>
    cases answer with
    | some value => exact hstore value rfl
    | none => exact hs

theorem throughCache_snd : (throughCache s cached answer store found answered failed).2 =
    (cached.map found).getD ((answer.map answered).getD failed) := by
  unfold throughCache
  cases cached with
  | some value => rfl
  | none => cases answer <;> rfl

end

theorem answer_of_not_failed {β : Type} {answer : Option β} {value : β} {fails : Bool}
    (h : (if fails then none else answer) = some value) : answer = some value := by
  split_ifs at h
  exact h

theorem storesAnswers_summarize (hs : StoresAnswers hash api s) (messages : List String)
    (maxLength : ℤ) (fails : Bool) :
    StoresAnswers hash api (summarizeMessages hash api s messages maxLength fails).1 := by
  unfold summarizeMessages
  by_cases hempty : messages = []
  · rw [if_pos hempty]
    exact hs
  · rw [if_neg hempty]
    exact throughCache_fst hs fun summary h => hs.setSummary (answer_of_not_failed h) 300

theorem storesAnswers_translate (hs : StoresAnswers hash api s) (text targetLang : String)
    (fails : Bool) :
    StoresAnswers hash api (translateMessage hash api s text targetLang fails).1 := by
  unfold translateMessage
  by_cases hempty : text = ""
  · rw [if_pos hempty]
    exact hs
  · rw [if_neg hempty]
    exact throughCache_fst hs fun _ h => hs.setex (.translation (answer_of_not_failed h)) 86400

theorem storesAnswers_replies (hs : StoresAnswers hash api s) (context : String)
    (numReplies : ℤ) (fails : Bool) :
    StoresAnswers hash api (generateSmartReplies hash api s context numReplies fails).1 := by
  unfold generateSmartReplies
  by_cases hempty : context = ""
  · rw [if_pos hempty]
    exact hs
  · rw [if_neg hempty]
    exact throughCache_fst hs fun _ h => hs.setex (.replies (answer_of_not_failed h)) 600

theorem storesAnswers_step (s : AiCache) (action : AiAction) (s' : AiCache)
    (hs : StoresAnswers hash api s) (h : aiStep hash api s action = some s') :
    StoresAnswers hash api s' := by
  cases action with
  | call call fails =>
    obtain rfl := Option.some.inj h
    cases call with
    | summarize messages maxLength => exact storesAnswers_summarize hs messages maxLength fails
    | translate text targetLang => exact storesAnswers_translate hs text targetLang fails
    | replies context numReplies => exact storesAnswers_replies hs context numReplies fails
  | wait seconds =>
    obtain rfl := Option.some.inj h
    exact hs
  | evict key =>
    obtain rfl := Option.some.inj h
    exact TtlMap.holds_del hs key

theorem storesAnswers_empty : StoresAnswers hash api .empty := TtlMap.holds_empty _

end IronLink.Backend
