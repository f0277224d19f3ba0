import IronLink.Backend.AiService

/-!
# Whether the AI caches show

A call that does not run into a failure of the API should return what it would return with
an empty cache, and no more replies than were asked for.

Results:
* `transparent_iff`: over every sequence of calls and expiries the caches do not show, and
  the replies are no more than asked for, exactly when every call is `Harmless`: a summary
  that is found was made with a `max_length` to the same effect; the number of replies is
  not negative, and no less than those found, or than the three of the fallback when the
  API fails.
* `stale_summary`: a summary of another length, and more replies than asked for.
-/

namespace IronLink.Backend

open Lib

/-! ## Property and condition -/

variable (hash : String → ℤ) (api : HfApi)

/-- What the call returns with an empty cache, when the API does not fail. -/
def freshResult (call : AiCall) : AiResult := (serve hash api .empty call false).2

/-- The call runs into a failure of the API. -/
def MeetsFailure (s : AiCache) (call : AiCall) (fails : Bool) : Prop :=
  fails = true ∧ asksApi hash s call = true

/-- No more replies than asked for. -/
def AiCall.Allows : AiCall → AiResult → Prop
  | .replies _ numReplies, .replies values => (values.length : ℤ) ≤ numReplies
  | _, _ => True

def Transparent (s : AiCache) : AiAction → Prop
  | .call call fails =>
    (¬ MeetsFailure hash s call fails →
        (serve hash api s call fails).2 = freshResult hash api call) ∧
      call.Allows (serve hash api s call fails).2
  | _ => True

/-- The summary that is returned without a cache. -/
def summaryOr (combined : String) (maxLength : ℤ) : String :=
  (summaryText api combined maxLength).getD (shorten combined)

/-- What is found was made to the same effect, and the replies are enough. -/
def Harmless (s : AiCache) : AiAction → Prop
  | .call (.summarize messages maxLength) _ =>
    let key := summaryKey hash (combine messages)
    messages ≠ [] → (s.cachedText key).isSome →
      summaryOr api (combine messages) (s.madeWith key) = summaryOr api (combine messages) maxLength
  | .call (.translate _ _) _ => True
  | .call (.replies context numReplies) fails =>
    let key := replyKey hash context numReplies
    0 ≤ numReplies ∧ (context ≠ "" →
      (∀ cached ∈ s.cachedReplies key, (cached.length : ℤ) ≤ numReplies) ∧
      (s.cachedReplies key = none → fails = true ∨ repliesOf api context numReplies = none →
        (fallbackReplies.length : ℤ) ≤ numReplies))
  | _ => True

/-! ## One call -/

variable {hash api} {s : AiCache}

/-- Without a failure the caches show exactly where something is found that is not what the
    API would give. -/
theorem fresh_iff {α β γ : Type} {cached : Option α} {answer : Option β} {found : α → γ}
    {answered : β → γ} {failed : γ} {fails : Bool} :
    (¬ (fails = true ∧ cached = none) →
        (cached.map found).getD (((if fails then none else answer).map answered).getD failed) =
          (answer.map answered).getD failed) ↔
      ∀ value ∈ cached, found value = (answer.map answered).getD failed := by
  cases cached with
  | some value => simp
  | none =>
    cases fails with
    | true => simp
    | false => simp

theorem cachedText_empty (key : String) : AiCache.empty.cachedText key = none := rfl

theorem cachedReplies_empty (key : String) : AiCache.empty.cachedReplies key = none := rfl

theorem cachedText_of_stored {key value : String} {deadline : ℕ}
    (h : s.store key = some ⟨.text value, some deadline⟩) (hlive : s.now < deadline)
    (hvalue : value ≠ "") : s.cachedText key = some value := by
  unfold AiCache.cachedText TtlMap.get
  rw [TtlMap.lookup_of_live h ((Entry.live_of_deadline rfl).mpr hlive)]
  exact if_pos hvalue

theorem cachedReplies_of_stored {key : String} {replies : List String}
    {deadline : ℕ} (h : s.store key = some ⟨.json replies, some deadline⟩)
    (hlive : s.now < deadline) : s.cachedReplies key = some replies := by
  unfold AiCache.cachedReplies TtlMap.get
  rw [TtlMap.lookup_of_live h ((Entry.live_of_deadline rfl).mpr hlive)]
  rfl

theorem serve_summarize (s : AiCache) {messages : List String} (hne : messages ≠ [])
    (maxLength : ℤ) (fails : Bool) :
    (serve hash api s (.summarize messages maxLength) fails).2 =
      .text (((s.cachedText (summaryKey hash (combine messages))).map id).getD
        (((if fails then none else summaryText api (combine messages) maxLength).map id).getD
          (shorten (combine messages)))) := by
  show AiResult.text (summarizeMessages hash api s messages maxLength fails).2 = _
  rw [summarizeMessages, if_neg hne]
  exact congrArg AiResult.text throughCache_snd

theorem serve_translate (s : AiCache) {text : String} (hne : text ≠ "") (targetLang : String)
    (fails : Bool) :
    (serve hash api s (.translate text targetLang) fails).2 =
      .text (((s.cachedText (translateKey hash text targetLang)).map id).getD
        (((if fails then none else translationText api text targetLang).map id).getD text)) := by
  show AiResult.text (translateMessage hash api s text targetLang fails).2 = _
  rw [translateMessage, if_neg hne]
  exact congrArg AiResult.text throughCache_snd

theorem serve_replies (s : AiCache) {context : String} (hne : context ≠ "") (numReplies : ℤ)
    (fails : Bool) :
    (serve hash api s (.replies context numReplies) fails).2 =
      .replies (((s.cachedReplies (replyKey hash context numReplies)).map id).getD
        (((if fails then none else repliesOf api context numReplies).map (sliceTo numReplies)).getD
          fallbackReplies)) := by
  show AiResult.replies (generateSmartReplies hash api s context numReplies fails).2 = _
  rw [generateSmartReplies, if_neg hne]
  exact congrArg AiResult.replies throughCache_snd

/-- Only the `max_length` of a summary that is found may matter. -/
theorem transparent_summarize_iff (hinj : Function.Injective hash)
    (hs : StoresAnswers hash api s) (messages : List String) (maxLength : ℤ) (fails : Bool) :
    Transparent hash api s (.call (.summarize messages maxLength) fails) ↔
      Harmless hash api s (.call (.summarize messages maxLength) fails) := by
  by_cases hne : messages = []
  · subst hne
    simp [Transparent, Harmless, freshResult, serve, summarizeMessages, AiCall.Allows]
  · have hmeets : MeetsFailure hash s (.summarize messages maxLength) fails ↔
        fails = true ∧ s.cachedText (summaryKey hash (combine messages)) = none := by
      simp [MeetsFailure, asksApi, hne]
    unfold Transparent Harmless freshResult
    simp only [hmeets, serve_summarize s hne, serve_summarize .empty hne, cachedText_empty,
      AiCall.Allows, and_true, AiResult.text.injEq, Option.map_none, Option.getD_none,
      Bool.false_eq_true, if_false]
    rw [fresh_iff]
    constructor
    · intro h _ hfound
      obtain ⟨cached, hcached⟩ := Option.isSome_iff_exists.mp hfound
      have hmade := summary_of_cached hinj hs hcached
      have hsame := h cached hcached
      unfold summaryOr
      rw [hmade]
      simpa using hsame
    · intro h cached hcached
      have hsame := h hne (Option.isSome_iff_exists.mpr ⟨cached, hcached⟩)
      have hmade := summary_of_cached hinj hs hcached
      unfold summaryOr at hsame
      rw [hmade] at hsame
      simpa using hsame

/-- Text and language are both in the key. -/
theorem transparent_translate (hinj : Function.Injective hash)
    (hs : StoresAnswers hash api s) (text targetLang : String) (fails : Bool) :
    Transparent hash api s (.call (.translate text targetLang) fails) := by
  by_cases hne : text = ""
  · subst hne
    simp [Transparent, freshResult, serve, translateMessage, AiCall.Allows]
  · have hmeets : MeetsFailure hash s (.translate text targetLang) fails ↔
        fails = true ∧ s.cachedText (translateKey hash text targetLang) = none := by
      simp [MeetsFailure, asksApi, hne]
    unfold Transparent freshResult
    simp only [hmeets, serve_translate s hne, serve_translate .empty hne, cachedText_empty,
      AiCall.Allows, and_true, AiResult.text.injEq, Option.map_none, Option.getD_none,
      Bool.false_eq_true, if_false]
    refine fresh_iff.mpr fun cached hcached => ?_
    rw [translation_of_cached hinj hs hcached]
    rfl

theorem length_sliceTo_le {numReplies : ℤ} (h : 0 ≤ numReplies) (values : List String) :
    ((sliceTo numReplies values).length : ℤ) ≤ numReplies := by
  unfold sliceTo
  rw [if_pos h, List.length_take]
  omega

theorem sliceTo_eq_self_iff {numReplies : ℤ} (h : 0 ≤ numReplies) (values : List String) :
    values = sliceTo numReplies values ↔ (values.length : ℤ) ≤ numReplies := by
  unfold sliceTo
  rw [if_pos h, eq_comm, List.take_eq_self_iff]
  omega

/-- All replies are cached; the first ones are returned when nothing was. -/
theorem transparent_replies_iff (hinj : Function.Injective hash)
    (hs : StoresAnswers hash api s) (context : String) (numReplies : ℤ) (fails : Bool) :
    Transparent hash api s (.call (.replies context numReplies) fails) ↔
      Harmless hash api s (.call (.replies context numReplies) fails) := by
  by_cases hne : context = ""
  · subst hne
    simp [Transparent, Harmless, freshResult, serve, generateSmartReplies, AiCall.Allows]
  · have hmeets : MeetsFailure hash s (.replies context numReplies) fails ↔
        fails = true ∧ s.cachedReplies (replyKey hash context numReplies) = none := by
      simp [MeetsFailure, asksApi, hne]
    unfold Transparent Harmless freshResult
    simp only [hmeets, serve_replies s hne, serve_replies .empty hne, cachedReplies_empty,
      AiCall.Allows, AiResult.replies.injEq, Option.map_none, Option.getD_none,
      Bool.false_eq_true, if_false]
    rw [fresh_iff]
    cases hcached : s.cachedReplies (replyKey hash context numReplies) with
    | some cached =>
      simp only [replies_of_cached hinj hs hcached, Option.mem_def, Option.some.injEq, forall_eq',
        id_eq, Option.map_some, Option.getD_some, reduceCtorEq, false_imp_iff, and_true]
      constructor
      · rintro ⟨-, hbound⟩
        exact ⟨by omega, fun _ => hbound⟩
      · rintro ⟨hnonneg, hbound⟩
        exact ⟨(sliceTo_eq_self_iff hnonneg cached).mpr (hbound hne), hbound hne⟩
    | none =>
      simp only [Option.mem_def, reduceCtorEq, false_imp_iff, implies_true, true_and,
        Option.map_none, Option.getD_none, true_imp_iff]
      cases hasked : if fails then none else repliesOf api context numReplies with
      | some values =>
        have hanswer := answer_of_not_failed hasked
        have hworks : ¬ (fails = true ∨ repliesOf api context numReplies = none) := by
          rintro (rfl | hnone)
          · cases hasked
          · rw [hnone] at hanswer
            cases hanswer
        rw [Option.map_some, Option.getD_some]
        constructor
        · intro hbound
          exact ⟨by omega, fun _ hfailed => absurd hfailed hworks⟩
        · rintro ⟨hnonneg, -⟩
          exact length_sliceTo_le hnonneg values
      | none =>
        have hfailed : fails = true ∨ repliesOf api context numReplies = none := by
          cases fails with
          | true => exact .inl rfl
          | false => exact .inr hasked
        rw [Option.map_none, Option.getD_none]
        constructor
        · intro hbound
          exact ⟨by omega, fun _ _ => hbound⟩
        · rintro ⟨-, hbound⟩
          exact hbound hne hfailed

/-! ## Runs -/

/-- **Caches.** Over every sequence of calls and expiries from an empty cache. -/
theorem transparent_iff (hash : String → ℤ) (hinj : Function.Injective hash) (api : HfApi)
    (actions : List AiAction) :
    Guarded (aiStep hash api) (Transparent hash api) .empty actions ↔
      Guarded (aiStep hash api) (Harmless hash api) .empty actions := by
  refine guarded_congr storesAnswers_step (fun s action hs => ?_) storesAnswers_empty
  cases action with
  | wait seconds => exact Iff.rfl
  | evict key => exact Iff.rfl
  | call call fails =>
    cases call with
    | summarize messages maxLength =>
      exact transparent_summarize_iff hinj hs messages maxLength fails
    | translate text targetLang =>
      exact iff_of_true (transparent_translate hinj hs text targetLang fails) trivial
    | replies context numReplies => exact transparent_replies_iff hinj hs context numReplies fails

/-- The characters of a text as the digits of a number, none of them zero. -/
def sampleHash (s : String) : ℤ :=
  (s.toList.foldl (fun n c => n * 0x110000 + (c.toNat + 1)) 0 : ℕ)

theorem toNat_lt (c : Char) : c.toNat < 0x110000 := by
  have hvalid : c.toNat.isValidChar := c.valid
  unfold Nat.isValidChar at hvalid
  omega

/-- The last digit and the number before it. -/
theorem digit_inj {m n a b w : ℕ} (ha : a < w) (hb : b < w)
    (h : m * w + (a + 1) = n * w + (b + 1)) : m = n ∧ a = b := by
  have hsame : m * w + a = n * w + b := Nat.succ.inj h
  have hdigit : a = b := by
    have hmod := congrArg (· % w) hsame
    rwa [Nat.mul_add_mod_of_lt ha, Nat.mul_add_mod_of_lt hb] at hmod
  rw [hdigit] at hsame
  exact ⟨Nat.eq_of_mul_eq_mul_right (by omega) (Nat.add_right_cancel hsame), hdigit⟩

theorem sampleHash_injective : Function.Injective sampleHash := by
  have hdigits : ∀ cs ds : List Char,
      cs.foldl (fun n c => n * 0x110000 + (c.toNat + 1)) 0 =
        ds.foldl (fun n c => n * 0x110000 + (c.toNat + 1)) 0 → cs = ds := by
    intro cs
    induction cs using List.reverseRecOn with
    | nil =>
      intro ds h
      rcases List.eq_nil_or_concat ds with rfl | ⟨ds, d, rfl⟩
      · rfl
      · rw [List.concat_eq_append, List.foldl_append] at h
        exact absurd h.symm (Nat.succ_ne_zero _)
    | append_singleton cs c ih =>
      intro ds h
      rcases List.eq_nil_or_concat ds with rfl | ⟨ds, d, rfl⟩
      · rw [List.foldl_append] at h
        exact absurd h (Nat.succ_ne_zero _)
      · rw [List.concat_eq_append, List.foldl_append, List.foldl_append] at h
        obtain ⟨hinit, hlast⟩ := digit_inj (toNat_lt c) (toNat_lt d) h
        rw [List.concat_eq_append, ih ds hinit, Char.toNat_inj.mp hlast]
  intro s t h
  exact String.toList_inj.mp (hdigits _ _ (Int.ofNat_inj.mp h))

/-- The summary says how long it may be, and there are always three replies. -/
def sampleApi : HfApi := fun _ payload =>
  match payload.parameters with
  | .summarization maxLength _ _ =>
    .list [.fields fun field => if field = "summary_text" then some (toString maxLength) else none]
  | .translation _ _ => .list []
  | .generation _ _ _ =>
    .list (["Hi", "Hello", "Hey"].map fun reply =>
      .fields fun field => if field = "generated_text" then some reply else none)

theorem transparent_iff_sample :
    Guarded (aiStep sampleHash sampleApi) (Transparent sampleHash sampleApi) .empty
        [.call (.replies "Good morning" 5) false, .wait 60,
          .call (.replies "Good morning" 5) true] ↔
      Guarded (aiStep sampleHash sampleApi) (Harmless sampleHash sampleApi) .empty
        [.call (.replies "Good morning" 5) false, .wait 60,
          .call (.replies "Good morning" 5) true] :=
  transparent_iff sampleHash sampleHash_injective sampleApi _

section StaleSample

variable (hash : String → ℤ)

/-- After a summary of 150. -/
def summarized : AiCache :=
  AiCache.empty.setSummary (summaryKey hash (combine ["Meet at noon"])) 300 "150" 150

/-- After three replies as well. -/
def replied : AiCache :=
  (summarized hash).setex (replyKey hash "Ready?" 1) 600 (.json ["Hi", "Hello", "Hey"])

theorem sampleKey_ne :
    summaryKey hash (combine ["Meet at noon"]) ≠ replyKey hash "Ready?" 1 :=
  summaryKey_ne_replyKey

theorem run_replied : run (aiStep hash sampleApi) .empty
    [.call (.summarize ["Meet at noon"] 150) false, .call (.replies "Ready?" 1) false] =
      some (replied hash) := by
  have hfirst : (serve hash sampleApi .empty (.summarize ["Meet at noon"] 150) false).1 =
      summarized hash := rfl
  have hmiss : (summarized hash).cachedReplies (replyKey hash "Ready?" 1) = none := by
    have hnone : (summarized hash).store (replyKey hash "Ready?" 1) = none :=
      TtlMap.set_of_ne (sampleKey_ne hash).symm (.text "150") (some 300)
    unfold AiCache.cachedReplies TtlMap.get
    rw [TtlMap.lookup_of_none hnone]
    rfl
  have hsecond : (serve hash sampleApi (summarized hash) (.replies "Ready?" 1) false).1 =
      replied hash := by
    show (generateSmartReplies hash sampleApi (summarized hash) "Ready?" 1 false).1 = _
    rw [generateSmartReplies, if_neg (by decide)]
    dsimp only
    rw [hmiss]
    rfl
  rw [run_cons, aiStep, Option.bind_some, hfirst, run_cons, aiStep, Option.bind_some, hsecond,
    run_nil]

theorem cachedText_replied :
    (replied hash).cachedText (summaryKey hash (combine ["Meet at noon"])) = some "150" := by
  refine cachedText_of_stored ?_ (show 0 < 300 by omega) (by decide)
  have hkeeps : (replied hash).store (summaryKey hash (combine ["Meet at noon"])) =
      (summarized hash).store (summaryKey hash (combine ["Meet at noon"])) :=
    TtlMap.set_of_ne (sampleKey_ne hash) (.json ["Hi", "Hello", "Hey"]) (some 600)
  rw [hkeeps]
  exact TtlMap.set_self ..

theorem cachedReplies_replied :
    (replied hash).cachedReplies (replyKey hash "Ready?" 1) = some ["Hi", "Hello", "Hey"] :=
  cachedReplies_of_stored (TtlMap.set_self ..) (show 0 < 600 by omega)

end StaleSample

/-- After a summary of 150 and one reply, the summary of 30 is the old one, and the same
    question for one reply gets three. -/
theorem stale_summary :
    ∃ s ∈ run (aiStep sampleHash sampleApi) .empty
        [.call (.summarize ["Meet at noon"] 150) false, .call (.replies "Ready?" 1) false],
      (serve sampleHash sampleApi s (.summarize ["Meet at noon"] 30) false).2 = .text "150" ∧
      freshResult sampleHash sampleApi (.summarize ["Meet at noon"] 30) = .text "30" ∧
      (serve sampleHash sampleApi s (.replies "Ready?" 1) false).2 =
        .replies ["Hi", "Hello", "Hey"] ∧
      freshResult sampleHash sampleApi (.replies "Ready?" 1) = .replies ["Hi"] := by
  refine ⟨replied sampleHash, run_replied sampleHash, ?_, ?_, ?_, ?_⟩
  · rw [serve_summarize _ (by decide), cachedText_replied]
    rfl
  · rw [freshResult, serve_summarize _ (by decide), cachedText_empty]
    rfl
  · rw [serve_replies _ (by decide), cachedReplies_replied]
    rfl
  · rw [freshResult, serve_replies _ (by decide), cachedReplies_empty]
    rfl

end IronLink.Backend
