import IronLink.Broadcasts.Server
import IronLink.Lib.Slices
import Mathlib.Algebra.BigOperators.Group.List.Basic

/-!
# Pushes of a broadcast

`send_broadcast_push` (app/services/push_service.py:66-91) hands the tokens to FCM in batches of
500 at most. FCM is a parameter: whether `_ensure_init` finds it available, and what it answers to
a batch, or raises.

Results:
* `broadcast_pushed`: a broadcast that is recorded is on the banner of every device whatever FCM
  does; FCM gets the tokens in order, each once, in full batches up to the last, and all of them
  unless a batch raises.
-/

namespace IronLink.Broadcasts

open Lib Auth

/-! ## Model -/

/-- `messaging.MulticastMessage` (app/services/push_service.py:82-87). -/
structure MulticastMessage where
  tokens : List String
  title : String
  body : String
  kind : String := "broadcast"
  broadcastId : String
  priority : String := "high"
  deriving DecidableEq

/-- The messages that FCM was called with, and what the function returns or raises. -/
structure Pushed where
  messages : List MulticastMessage
  result : Except HttpError ℕ

/-- The batch `fcm_tokens[i:i + 500]`, with `i = 500 * k`. -/
def batchOf (tokens : List String) (title body broadcastId : String) (k : ℕ) : MulticastMessage :=
  { tokens := slice 500 tokens k
    title := title
    body := String.ofList (body.toList.take 120)
    broadcastId := broadcastId }

/-- The loop of `send_broadcast_push` over the batches that are left. -/
def pushLoop (send : MulticastMessage → Except HttpError ℕ) :
    List MulticastMessage → ℕ → Pushed
  | [], delivered => ⟨[], .ok delivered⟩
  | batch :: rest, delivered =>
    match send batch with
    | .error e => ⟨[batch], .error e⟩
    | .ok successCount =>
      let r := pushLoop send rest (delivered + successCount)
      ⟨batch :: r.messages, r.result⟩

/-- `send_broadcast_push`; `available` is what `_ensure_init` returns. -/
def sendBroadcastPush (available : Bool) (send : MulticastMessage → Except HttpError ℕ)
    (tokens : List String) (title body broadcastId : String) : Pushed :=
  if !available || tokens.isEmpty then ⟨[], .ok 0⟩
  else
    pushLoop send ((List.range (tokens.length ⌈/⌉ 500)).map (batchOf tokens title body broadcastId))
      0

/-! ## The loop -/

section Loop

variable {send : MulticastMessage → Except HttpError ℕ} {batches : List MulticastMessage}
  {delivered : ℕ}

/-- FCM is called with the batches in order, up to the one that raises. -/
theorem pushLoop_initial (send : MulticastMessage → Except HttpError ℕ)
    (batches : List MulticastMessage) (delivered : ℕ) :
    (pushLoop send batches delivered).messages <+: batches := by
  induction batches generalizing delivered with
  | nil => exact List.prefix_rfl
  | cons batch rest ih =>
    rw [pushLoop]
    cases send batch with
    | error e => exact List.cons_prefix_cons.mpr ⟨rfl, List.nil_prefix⟩
    | ok successCount => exact List.cons_prefix_cons.mpr ⟨rfl, ih _⟩

/-- The call raises if and only if a batch does, and that batch is the last. -/
theorem pushLoop_error {e : HttpError} (h : (pushLoop send batches delivered).result = .error e) :
    ∃ batch, (pushLoop send batches delivered).messages.getLast? = some batch ∧
      send batch = .error e := by
  induction batches generalizing delivered with
  | nil => cases h
  | cons batch rest ih =>
    rw [pushLoop] at h ⊢
    cases hsend : send batch with
    | error e' =>
      rw [hsend] at h
      obtain rfl := Except.error.inj h
      exact ⟨batch, rfl, hsend⟩
    | ok successCount =>
      rw [hsend] at h
      obtain ⟨last, hlast, herror⟩ := ih h
      refine ⟨last, ?_, herror⟩
      dsimp only
      rw [List.getLast?_cons, hlast]
      rfl

/-- A call that returns has made all the calls, and adds their counts up. -/
theorem pushLoop_ok {n : ℕ} (h : (pushLoop send batches delivered).result = .ok n)
    (hsend : ∀ batch k, send batch = .ok k → k ≤ batch.tokens.length) :
    (pushLoop send batches delivered).messages = batches ∧
      n ≤ delivered + (batches.map fun batch => batch.tokens.length).sum := by
  induction batches generalizing delivered with
  | nil =>
    obtain rfl := Except.ok.inj h
    exact ⟨rfl, le_rfl⟩
  | cons batch rest ih =>
    rw [pushLoop] at h ⊢
    cases hbatch : send batch with
    | error e =>
      rw [hbatch] at h
      cases h
    | ok successCount =>
      rw [hbatch] at h
      obtain ⟨hmessages, hle⟩ := ih h
      have := hsend batch successCount hbatch
      refine ⟨congrArg (batch :: ·) hmessages, ?_⟩
      rw [List.map_cons, List.sum_cons]
      omega

end Loop

/-! ## The batches -/

theorem tokens_batchOf (tokens : List String) (title body broadcastId : String) (n : ℕ) :
    (((List.range n).map (batchOf tokens title body broadcastId)).map
      MulticastMessage.tokens) = (List.range n).map (slice 500 tokens) := by
  rw [List.map_map]
  rfl

/-- The tokens of a call: batches of 500 up to the last, in order. -/
structure Batched (tokens : List String) (p : Pushed) : Prop where
  sizes : ∀ m ∈ p.messages, m.tokens ≠ [] ∧ m.tokens.length ≤ 500
  full : ∀ m ∈ p.messages.dropLast, m.tokens.length = 500
  inOrder : (p.messages.map MulticastMessage.tokens).flatten <+: tokens
  /-- nothing is left out unless a batch raises -/
  complete : ∀ n, p.result = .ok n → (p.messages.map MulticastMessage.tokens).flatten = tokens

/-- With FCM configured, the tokens go out in batches. -/
theorem batched_of_available (send : MulticastMessage → Except HttpError ℕ)
    (hsend : ∀ batch k, send batch = .ok k → k ≤ batch.tokens.length) (tokens : List String)
    (title body broadcastId : String) :
    Batched tokens (sendBroadcastPush true send tokens title body broadcastId) := by
  cases tokens with
  | nil =>
    constructor
    · exact fun m hm => absurd hm List.not_mem_nil
    · exact fun m hm => absurd hm List.not_mem_nil
    · exact List.prefix_rfl
    · exact fun n _ => rfl
  | cons first rest =>
    generalize htokens : first :: rest = tokens
    have hpos : 0 < tokens.length := by
      rw [← htokens]
      exact Nat.succ_pos _
    have heq : sendBroadcastPush true send tokens title body broadcastId = pushLoop send
        ((List.range (tokens.length ⌈/⌉ 500)).map (batchOf tokens title body broadcastId)) 0 := by
      rw [← htokens]
      rfl
    rw [heq]
    have hprefix := pushLoop_initial send
      ((List.range (tokens.length ⌈/⌉ 500)).map (batchOf tokens title body broadcastId)) 0
    generalize hp : pushLoop send
      ((List.range (tokens.length ⌈/⌉ 500)).map (batchOf tokens title body broadcastId)) 0 = p at *
    -- the messages are those of the first batches
    obtain ⟨k, hk, hmessages⟩ : ∃ k ≤ tokens.length ⌈/⌉ 500,
        p.messages = (List.range k).map (batchOf tokens title body broadcastId) := by
      have hlen := hprefix.length_le
      rw [List.length_map, List.length_range] at hlen
      refine ⟨p.messages.length, hlen, ?_⟩
      have htake := List.prefix_iff_eq_take.mp hprefix
      rwa [← List.map_take, List.take_range, Nat.min_eq_left hlen] at htake
    have hflat : (p.messages.map MulticastMessage.tokens).flatten = tokens.take (k * 500) := by
      rw [hmessages, tokens_batchOf, flatten_slices]
    constructor
    · intro m hm
      rw [hmessages] at hm
      obtain ⟨i, hi, rfl⟩ := List.mem_map.mp hm
      have hlt : i < tokens.length ⌈/⌉ 500 := lt_of_lt_of_le (List.mem_range.mp hi) hk
      exact ⟨slice_ne_nil (by decide) (mul_lt_of_lt_ceilDiv (by decide) hpos hlt),
        length_slice_le 500 tokens i⟩
    · intro m hm
      rw [hmessages, ← List.map_dropLast] at hm
      obtain ⟨i, hi, rfl⟩ := List.mem_map.mp hm
      have hik : i + 1 < k := by
        cases k with
        | zero => cases hi
        | succ k =>
          rw [List.range_succ, List.dropLast_concat] at hi
          have := List.mem_range.mp hi
          omega
      have hlt := mul_lt_of_lt_ceilDiv (by decide) hpos (lt_of_lt_of_le hik hk)
      exact length_slice_full hlt.le
    · rw [hflat]
      exact List.take_prefix _ _
    · intro n hn
      rw [← hp] at hn
      have hall := (pushLoop_ok hn hsend).1
      rw [hp] at hall
      rw [hall, tokens_batchOf]
      exact flatten_all_slices (by decide) tokens

/-- A call of `send_broadcast_push` delivers to the tokens it was given at most. -/
theorem delivered_le {send : MulticastMessage → Except HttpError ℕ}
    (hsend : ∀ batch k, send batch = .ok k → k ≤ batch.tokens.length) {available : Bool}
    {tokens : List String} {title body broadcastId : String} {n : ℕ}
    (h : (sendBroadcastPush available send tokens title body broadcastId).result = .ok n) :
    n ≤ tokens.length := by
  unfold sendBroadcastPush at h
  split_ifs at h
  · obtain rfl := Except.ok.inj h
    exact Nat.zero_le _
  · have hle := (pushLoop_ok h hsend).2
    rw [List.map_map] at hle
    have hsum := congrArg List.length (flatten_all_slices (w := 500) (by decide) tokens)
    rw [List.length_flatten, List.map_map] at hsum
    have hsame : (MulticastMessage.tokens · |>.length) ∘ batchOf tokens title body broadcastId =
        List.length ∘ slice 500 tokens := rfl
    rw [hsame, hsum] at hle
    omega

/-! ## `send_broadcast` with its pushes -/

/-- The tokens of the devices that a broadcast is for. -/
def deviceTokens (users : List Member) (department : Option String) : List String :=
  ((targets users department).filterMap fun user => user.fcmToken).filter (· ≠ "")

/-- What is left behind by a broadcast that is not refused. -/
structure Delivered (tables : Tables) (body : BroadcastIn) (id : UUID) (available : Bool)
    (send : MulticastMessage → Except HttpError ℕ) (sent : Sent) (p : Pushed) : Prop where
  /-- the banner is there for the department -/
  listed : ∀ member : Member, Lists sent.tables member id ↔
    body.department = none ∨ body.department = member.department
  published : sent.published = some (broadcastFrame id body)
  batched : available = true → Batched (deviceTokens tables.users body.department) p
  /-- without its credentials FCM is handed nothing -/
  unavailable : available = false → p.messages = []
  /-- each push tells of this broadcast -/
  about : ∀ m ∈ p.messages, m.broadcastId = id.str ∧ m.title = body.title
  response : match sent.response with
    | .ok out => out.id = id ∧ p.result = .ok out.pushDelivered ∧
        out.pushDelivered ≤ out.targetUsers
    | .error e => ∃ m, p.messages.getLast? = some m ∧ send m = .error e

theorem length_deviceTokens_le (users : List Member) (department : Option String) :
    (deviceTokens users department).length ≤ (targets users department).length :=
  (List.length_filter_le _ _).trans (List.length_filterMap_le _ _)

theorem about_sendBroadcastPush {available : Bool} {send : MulticastMessage → Except HttpError ℕ}
    {tokens : List String} {title body broadcastId : String} {m : MulticastMessage}
    (hm : m ∈ (sendBroadcastPush available send tokens title body broadcastId).messages) :
    m.broadcastId = broadcastId ∧ m.title = title := by
  unfold sendBroadcastPush at hm
  split_ifs at hm
  · cases hm
  · obtain ⟨i, -, rfl⟩ := List.mem_map.mp ((pushLoop_initial ..).subset hm)
    exact ⟨rfl, rfl⟩

/-- A call that raises does so at the last batch. -/
theorem raised_sendBroadcastPush {available : Bool} {send : MulticastMessage → Except HttpError ℕ}
    {tokens : List String} {title body broadcastId : String} {e : HttpError}
    (h : (sendBroadcastPush available send tokens title body broadcastId).result = .error e) :
    ∃ m, (sendBroadcastPush available send tokens title body broadcastId).messages.getLast? =
      some m ∧ send m = .error e := by
  unfold sendBroadcastPush at h ⊢
  by_cases hnone : (!available || tokens.isEmpty) = true
  · rw [if_pos hnone] at h
    cases h
  · rw [if_neg hnone] at h ⊢
    exact pushLoop_error h

/-- **Pushes.** Whatever FCM does, a broadcast is refused before anything is written, or it is on
    the banners of its department, has been published, and, when FCM is configured, its tokens
    have been handed to FCM in order, each once, in batches of 500 up to the last; none is left
    out unless a batch has raised, and the response counts no more deliveries than users. -/
theorem broadcast_pushed (tables : Tables) (h : TablesInv tables) (now : Time)
    (creds : Option AccessToken) (body : BroadcastIn) (id : UUID) (available : Bool)
    (send : MulticastMessage → Except HttpError ℕ)
    (hsend : ∀ batch k, send batch = .ok k → k ≤ batch.tokens.length) :
    let push := fun tokens => sendBroadcastPush available send tokens body.title body.body id.str
    let sent := sendBroadcast tables now creds body id fun tokens => (push tokens).result
    (∃ e, sent = ⟨tables, none, [], .error e⟩) ∨
      Delivered tables body id available send sent (push sent.pushed) := by
  intro push sent
  obtain ⟨e, heq⟩ | ⟨admin, hnew, heq⟩ := sendBroadcast_cases tables now creds body id
    fun tokens => (push tokens).result
  · exact .inl ⟨e, heq⟩
  have hsent : sent = recordBroadcast tables now admin body id fun tokens =>
      (push tokens).result := heq
  have hpushed : sent.pushed = deviceTokens tables.users body.department := by
    rw [hsent]
    rfl
  have hresponse : sent.response =
      (push sent.pushed).result.map fun delivered =>
        ⟨id, body.title, (targets tables.users body.department).length, delivered⟩ := by
    rw [hpushed, hsent]
    rfl
  refine .inr ⟨?_, ?_, ?_, ?_, fun m hm => about_sendBroadcastPush hm, ?_⟩
  · intro member
    rw [hsent, lists_iff]
    have hacked : (recordBroadcast tables now admin body id fun tokens =>
        (push tokens).result).tables.acked member.id id = false := acked_of_new h hnew member.id
    rw [hacked, and_iff_right rfl]
    constructor
    · rintro ⟨b, hb, hid, hdept⟩
      obtain hold | rfl := (List.mem_append.mp hb).imp_right List.mem_singleton.mp
      · exact absurd hid (hnew b hold)
      · exact hdept
    · intro hdept
      exact ⟨_, List.mem_append_right _ (List.mem_singleton.mpr rfl), rfl, hdept⟩
  · rw [hsent]
    rfl
  · rintro rfl
    rw [hpushed]
    exact batched_of_available send hsend ..
  · rintro rfl
    simp [push, sendBroadcastPush]
  · rw [hresponse]
    cases hresult : (push sent.pushed).result with
    | ok delivered =>
      refine ⟨rfl, rfl, ?_⟩
      have hle : delivered ≤ sent.pushed.length := delivered_le hsend hresult
      rw [hpushed] at hle
      exact hle.trans (length_deviceTokens_le ..)
    | error e =>
      exact raised_sendBroadcastPush hresult

/-- Two devices of the department get the push, and one of them cannot be reached. -/
theorem broadcast_pushed_two :
    let users : List Member := [⟨{ sampleUser with fcmToken := some "a" }, some "HQ"⟩,
      ⟨{ sampleAdmin with fcmToken := some "b" }, some "HQ"⟩]
    let send : MulticastMessage → Except HttpError ℕ := fun m => .ok (m.tokens.length - 1)
    let push := fun tokens => sendBroadcastPush true send tokens "Alarm" "Report" (5 : UUID).str
    let sent := sendBroadcast ⟨users, [], [], []⟩ 0 (some (createAccessToken 1 1 .ADMIN 0))
      ⟨"Alarm", "Report", some "HQ"⟩ 5 fun tokens => (push tokens).result
    sent.response = .ok ⟨5, "Alarm", 2, 1⟩ ∧
      Delivered ⟨users, [], [], []⟩ ⟨"Alarm", "Report", some "HQ"⟩ 5 true send sent
        (push sent.pushed) := by
  intro users send push sent
  have hresponse : sent.response = .ok ⟨5, "Alarm", 2, 1⟩ := by decide +kernel
  refine ⟨hresponse, ?_⟩
  have hsend : ∀ (batch : MulticastMessage) k, send batch = .ok k → k ≤ batch.tokens.length := by
    intro batch k hk
    obtain rfl := Except.ok.inj hk
    exact Nat.sub_le _ _
  obtain ⟨e, he⟩ | h := broadcast_pushed ⟨users, [], [], []⟩
    ⟨.nil, fun _ h => absurd h List.not_mem_nil⟩ 0 (some (createAccessToken 1 1 .ADMIN 0))
    ⟨"Alarm", "Report", some "HQ"⟩ 5 true send hsend
  · have : sent.response = .error e := congrArg Sent.response he
    rw [hresponse] at this
    cases this
  · exact h

end IronLink.Broadcasts
