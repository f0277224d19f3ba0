import IronLink.Messages.Transactions
import IronLink.Ws.Outcome

/-!
# Receipts over both ways

A receipt comes as a frame, or over REST (app/api/routes/receipts.py). The routes
are read with `select` and the Redis client in scope, which the modules do not
import. Beside receipts, the runs have every other frame and the sweep; accounts,
groups and the registry of connections change as they like.

Results:
* `frame_receipt`, `markMessageDelivered_cases`, `markMessageRead_cases`: what each way
  of asking for a receipt comes to.
* `trafficStep_receipt`: what one action does to the receipts of a message, and
  what it publishes about them.
-/

namespace IronLink.Ws

open Lib Auth Messages

/-! ## The routes -/

/-- What `broadcast_delivered` publishes (app/services/ws_manager.py:156-166). -/
def deliveredFrame (messageId : UUID) : Frame :=
  [("type", .str "delivered"), ("message_id", .str messageId.str)]

/-- What `broadcast_read` publishes (app/services/ws_manager.py:194-197). -/
def readFrame (messageId : UUID) : Frame :=
  [("type", .str "read"), ("message_id", .str messageId.str)]

/-- The users `broadcast_read` publishes for (app/services/ws_manager.py:173-192). -/
def readChannels (groups : Groups) (rows : MessageRows) (chatId messageId readerId : UUID) :
    List UUID :=
  if groups.ids.contains chatId then
    (groups.members.filter fun member => member.1 = chatId).map Prod.snd
  else
    match rows.byId messageId with
    | none => []
    | some msg =>
      (if msg.recipientId = some readerId then msg.senderId else msg.recipientId).toList

/-- `is_recipient` (app/api/routes/receipts.py:88-100 and 132-143). -/
def isRecipient (groups : Groups) (msg : Message) (userId : UUID) : Bool :=
  match msg.groupId with
  | some groupId => groups.members.contains (groupId, userId)
  | none => msg.recipientId = some userId

/-- `mark_message_delivered` (app/api/routes/receipts.py:60-109): the rows and what is
    published. -/
def markMessageDelivered (groups : Groups) (rows : MessageRows) (now : Time)
    (chatId messageId userId : UUID) : Except HttpError (MessageRows × List (UUID × Frame)) :=
  match (rows.byId messageId).filter fun msg =>
      decide (msg.recipientId = some userId ∧ msg.groupId = none) ||
        decide (msg.groupId = some chatId ∧ msg.recipientId = none) with
  | none => .error ⟨404, "Message not found or not in this chat"⟩
  | some msg =>
    if isRecipient groups msg userId then
      match markDelivered groups rows now messageId userId with
      | (_, none) => .error ⟨304, "Already delivered or read"⟩
      | (rows, some updated) =>
        .ok (rows, updated.senderId.toList.map (·, deliveredFrame messageId))
    else .error ⟨403, "You are not the recipient of this message"⟩

/-- `mark_message_read` (app/api/routes/receipts.py:112-151). -/
def markMessageRead (groups : Groups) (rows : MessageRows) (now : Time)
    (chatId messageId userId : UUID) : Except HttpError (MessageRows × List (UUID × Frame)) :=
  match rows.byId messageId with
  | none => .error ⟨404, "Message not found"⟩
  | some msg =>
    if isRecipient groups msg userId then
      match markRead groups rows now messageId userId with
      | (_, none) => .error ⟨304, "Already read"⟩
      | (rows, some _) =>
        .ok (rows, (readChannels groups rows chatId messageId userId).map (·, readFrame messageId))
    else .error ⟨403, "You are not the recipient of this message"⟩

/-! ## Runs -/

/-- The server, its bucket, and all that has been published so far: the user of the
    channel and the payload. -/
structure Traffic where
  world : World
  bucket : Bucket
  log : List (UUID × Frame)

/-- No messages, and nothing published. -/
def Traffic.init (world : World) (bucket : Bucket) : Traffic :=
  ⟨{ world with messages := [] }, bucket, []⟩

inductive TrafficAction
  /-- a frame received on a socket of `userId`; `fresh` is the key a new row gets -/
  | frame (userId : UUID) (connectionId : String) (fresh : NewRow) (frame : Frame)
  | markMessageDelivered (chatId messageId userId : UUID)
  | markMessageRead (chatId messageId userId : UUID)
  /-- a sweep whose query answers `batch` -/
  | sweep (batch : List UUID) (fails : UUID → Bool) (commitOk : Bool)
  /-- accounts, groups, connections and the setting of Firebase become other ones -/
  | surroundings (users : Users) (groups : Groups) (presence : Presence) (fcm : Bool)
  | tick (d : ℕ)

/-- The channel and the payload of a publication. -/
def Effect.published : Effect → Option (UUID × Frame)
  | .publish userId payload => some (userId, payload)
  | _ => none

/-- The rows and the log after a route; an error leaves them. -/
def Traffic.answered (s : Traffic)
    (r : Except HttpError (MessageRows × List (UUID × Frame))) : Traffic :=
  match r with
  | .error _ => s
  | .ok (rows, sent) =>
    { s with world := { s.world with messages := rows }, log := s.log ++ sent }

def trafficStep (s : Traffic) : TrafficAction → Option Traffic
  | .frame userId connectionId fresh frame =>
    let r := handleFrame s.world userId connectionId fresh frame
    some { s with world := r.world, log := s.log ++ r.effects.filterMap Effect.published }
  | .markMessageDelivered chatId messageId userId =>
    some (s.answered (markMessageDelivered s.world.groups s.world.messages s.world.now chatId
      messageId userId))
  | .markMessageRead chatId messageId userId =>
    some (s.answered (markMessageRead s.world.groups s.world.messages s.world.now chatId
      messageId userId))
  | .sweep batch fails commitOk =>
    if IsBatch s.world.messages s.world.now batch then
      let r := sweepOnce s.world.now s.world.messages s.bucket batch fails commitOk
      some ⟨{ s.world with messages := r.rows }, r.bucket, s.log ++ r.published⟩
    else none
  | .surroundings users groups presence fcm =>
    some { s with
      world := { s.world with users := users, groups := groups, presence := presence, fcm := fcm } }
  | .tick d => some { s with world := { s.world with now := s.world.now + d } }

/-- `sampleWorld` without messages, and nothing published. -/
def sampleTraffic : Traffic := Traffic.init sampleWorld .empty

/-- User 7 sends user 1 a text. -/
def sampleText : List TrafficAction := [.frame 7 "c7" 100 (sampleFrame "text" 1 [])]

/-- `{"type": frameType, "message_id": …}`. -/
def idFrame (frameType : String) (messageId : UUID) : Frame :=
  [("type", .str frameType), ("message_id", .str messageId.str)]

/-! ## Who asks for a receipt, and who gets it -/

/-- The receipt an action asks for: whether it is a read, the message and the user. -/
def TrafficAction.asks : TrafficAction → Option (Bool × UUID × UUID)
  | .frame userId _ _ f =>
    match branchOf (Json.get f "type") with
    | .receipt isRead => (uuidOrNone (Json.get f "message_id")).map (isRead, ·, userId)
    | _ => none
  | .markMessageDelivered _ messageId userId => some (false, messageId, userId)
  | .markMessageRead _ messageId userId => some (true, messageId, userId)
  | _ => none

/-- The action may record a receipt on `msg`: a frame for a participant, a route for
    the recipient. -/
def TrafficAction.mayMark (groups : Groups) (msg : Message) : TrafficAction → Bool
  | .frame userId _ _ _ => isParticipant groups msg userId
  | .markMessageDelivered chatId _ userId =>
    (decide (msg.recipientId = some userId ∧ msg.groupId = none) ||
        decide (msg.groupId = some chatId ∧ msg.recipientId = none)) &&
      isRecipient groups msg userId
  | .markMessageRead _ _ userId => isRecipient groups msg userId
  | _ => false

/-- The types of the frames that tell a receipt. -/
def receiptTypes : List String := ["receipt", "delivered", "read"]

/-- The frame tells a receipt of the message `id`. -/
def TellsReceipt (id : UUID) (f : Frame) : Prop :=
  (∃ t ∈ receiptTypes, Json.get f "type" = .str t) ∧ Json.get f "message_id" = .str id.str

/-- The frame tells that the message `id` was read. -/
def TellsRead (id : UUID) (f : Frame) : Prop :=
  (Json.get f "type" = .str "receipt" ∧ Json.get f "status" = .str "read" ∨
    Json.get f "type" = .str "read") ∧ Json.get f "message_id" = .str id.str

theorem TellsRead.tellsReceipt {id : UUID} {f : Frame} (h : TellsRead id f) :
    TellsReceipt id f := by
  obtain ⟨⟨htype, -⟩ | htype, hid⟩ := h
  · exact ⟨⟨"receipt", by decide, htype⟩, hid⟩
  · exact ⟨⟨"read", by decide, htype⟩, hid⟩

/-- What a receipt does to the row it is for. -/
def mark (now : Time) (isRead : Bool) (msg : Message) : Message :=
  if isRead then read now msg else deliver now msg

theorem mark_id (now : Time) (isRead : Bool) (msg : Message) :
    (mark now isRead msg).id = msg.id := by
  cases isRead with
  | true => exact read_id now msg
  | false => rfl

theorem isParticipant_of_isRecipient {groups : Groups} {msg : Message} {userId : UUID}
    (h : isRecipient groups msg userId = true) : isParticipant groups msg userId = true := by
  unfold isRecipient at h
  unfold isParticipant
  cases hgroup : msg.groupId with
  | some groupId =>
    rw [hgroup] at h
    exact h
  | none =>
    rw [hgroup] at h
    simp only [h, Bool.or_true]

/-- `mark_delivered` and `mark_read` for a participant. -/
theorem mark_of_participant {groups : Groups} {rows : MessageRows} {messageId userId : UUID}
    {msg : Message} (hpart : isParticipant groups msg userId = true)
    (hmsg : rows.byId messageId = some msg) (now : Time) (isRead : Bool) :
    (if isRead then markRead groups rows now messageId userId
      else markDelivered groups rows now messageId userId) =
      (Table.modify Message.id rows messageId (mark now isRead), some (mark now isRead msg)) := by
  cases isRead with
  | true => exact receipt_of_participant (read now) hmsg hpart
  | false => exact receipt_of_participant (deliver now) hmsg hpart

/-- `mark_delivered` and `mark_read` for a stranger. -/
theorem mark_of_stranger {groups : Groups} {rows : MessageRows} {now : Time}
    {messageId userId : UUID}
    (h : ∀ msg, rows.byId messageId = some msg → isParticipant groups msg userId = false)
    (isRead : Bool) :
    (if isRead then markRead groups rows now messageId userId
      else markDelivered groups rows now messageId userId) = (rows, none) := by
  cases isRead with
  | true => exact receipt_of_stranger (read now) h
  | false => exact receipt_of_stranger (deliver now) h

theorem mark_senderId (now : Time) (isRead : Bool) (msg : Message) :
    (mark now isRead msg).senderId = msg.senderId := by
  unfold mark Messages.read
  split_ifs <;> rfl

theorem asks_frame (userId : UUID) (connectionId : String) (fresh : NewRow) (f : Frame) :
    (TrafficAction.frame userId connectionId fresh f).asks =
      match branchOf (Json.get f "type") with
      | .receipt isRead => (uuidOrNone (Json.get f "message_id")).map (isRead, ·, userId)
      | _ => none := rfl

/-! ## What an action does to the receipts of a message -/

/-- What an action makes of the row `msg` of the message `id`, and what it publishes. -/
inductive RowOutcome (s : Traffic) (a : TrafficAction) (id : UUID) (msg : Message) :
    Message → List (UUID × Frame) → Prop
  | untouched (msg' : Message) (sent : List (UUID × Frame))
      (hasked : ∀ isRead userId, a.asks = some (isRead, id, userId) →
        a.mayMark s.world.groups msg = false)
      (hrow : msg' = msg ∨ msg' = retract s.world.now msg ∨ msg' = destroy s.world.now msg)
      (hsent : ∀ p ∈ sent, ¬ TellsReceipt id p.2) :
      RowOutcome s a id msg msg' sent
  | frame (userId : UUID) (connectionId : String) (fresh : NewRow) (f : Frame) (isRead : Bool)
      (ha : a = .frame userId connectionId fresh f)
      (hasks : a.asks = some (isRead, id, userId))
      (hpart : isParticipant s.world.groups msg userId = true) :
      RowOutcome s a id msg (mark s.world.now isRead msg)
        (msg.senderId.toList.map (·, receiptFrame id isRead))
  | delivered (chatId userId : UUID) (ha : a = .markMessageDelivered chatId id userId)
      (hmay : a.mayMark s.world.groups msg = true) :
      RowOutcome s a id msg (mark s.world.now false msg)
        (msg.senderId.toList.map (·, deliveredFrame id))
  | read (chatId userId : UUID) (ha : a = .markMessageRead chatId id userId)
      (hmay : a.mayMark s.world.groups msg = true) (channels : List UUID) :
      RowOutcome s a id msg (mark s.world.now true msg) (channels.map (·, readFrame id))

section Frames

variable {w : World} {userId id : UUID} {fresh : NewRow} {connectionId : String} {f : Frame}
  {msg : Message}

theorem not_tellsReceipt_of_type {t : String} (htype : Json.get f "type" = .str t)
    (hne : t ∉ receiptTypes) : ¬ TellsReceipt id f := by
  rintro ⟨⟨t', ht', htype'⟩, -⟩
  rw [htype] at htype'
  exact hne (Json.str.inj htype' ▸ ht')

/-- A receipt of another message. -/
theorem not_tellsReceipt_of_ne {messageId : UUID}
    (hid : Json.get f "message_id" = .str messageId.str) (hne : messageId ≠ id) :
    ¬ TellsReceipt id f := by
  rintro ⟨-, hid'⟩
  rw [hid] at hid'
  exact hne (UUID.str_injective (Json.str.inj hid'))

/-- A push is no publication. -/
theorem published_offlinePush (w : World) (userId toId : UUID) (messageType : MessageType)
    (content : Option String) :
    (offlinePush w userId toId messageType content).filterMap Effect.published = [] := by
  rw [List.filterMap_eq_nil_iff]
  intro e he
  obtain ⟨fcmToken, title, body, peerId, rfl⟩ := push_of_mem_offlinePush he
  rfl

/-- A frame that is no receipt retracts a row or leaves it. -/
theorem handleFrame_no_receipt_row
    (hbranch : ∀ isRead, branchOf (Json.get f "type") ≠ .receipt isRead)
    (hmsg : w.messages.byId id = some msg) :
    ∃ msg', (handleFrame w userId connectionId fresh f).world.messages.byId id = some msg' ∧
      (msg' = msg ∨ msg' = retract w.now msg) := by
  have hsame : ∃ msg', w.messages.byId id = some msg' ∧ (msg' = msg ∨ msg' = retract w.now msg) :=
    ⟨msg, hmsg, .inl rfl⟩
  unfold handleFrame
  split
  · exact hsame
  · exact hsame
  · split <;> exact hsame
  · unfold handleContent
    split
    · exact hsame
    · split
      · exact hsame
      · split
        · exact hsame
        · next rows hrows =>
          obtain ⟨rfl, -⟩ := saveMessage_rows hrows
          refine ⟨msg, ?_, .inl rfl⟩
          unfold MessageRows.byId at hmsg ⊢
          rw [Table.find_append, hmsg, Option.some_or]
  · next isRead htype => exact absurd htype (hbranch isRead)
  · unfold handleUnsend
    split
    · exact hsame
    · next messageId hid =>
      split
      · exact hsame
      · next rows row hok =>
        obtain ⟨old, hold, howner, hwindow, heq⟩ := unsendMessage_rows hok
        obtain ⟨rfl, rfl⟩ := Prod.mk.inj heq
        exact byId_modify_of_some (retract_id w.now) hmsg messageId
  · exact hsame

/-- A frame that is no receipt tells none. -/
theorem handleFrame_no_receipt_sent
    (hbranch : ∀ isRead, branchOf (Json.get f "type") ≠ .receipt isRead) :
    ∀ p ∈ (handleFrame w userId connectionId fresh f).effects.filterMap Effect.published,
      ¬ TellsReceipt id p.2 := by
  unfold handleFrame
  split
  · simp [Effect.published]
  · simp [Effect.published]
  · next frameType htype =>
    split
    · simp
    · rintro p (_ | ⟨_, hp⟩)
      · refine not_tellsReceipt_of_type rfl ?_
        obtain rfl | rfl := branchOf_typing htype
        · decide
        · decide
      · cases hp
  · unfold handleContent
    split
    · simp [Effect.published]
    · split
      · simp
      · split
        · simp
        · intro p hp
          rw [List.filterMap_append, List.mem_append] at hp
          rcases hp with hp | hp
          · split_ifs at hp
            · cases hp
            · rw [published_offlinePush] at hp
              cases hp
          · obtain rfl := List.mem_singleton.mp hp
            exact not_tellsReceipt_of_type (t := "message") rfl (by decide)
  · next isRead htype => exact absurd htype (hbranch isRead)
  · unfold handleUnsend
    split
    · simp
    · next messageId hid =>
      split
      · simp [Effect.published]
      · intro p hp
        have hp : ∃ u, p = (u, unsendEvent messageId) := by
          simp only [List.filterMap_append, List.mem_append, List.filterMap_map,
            List.mem_filterMap, List.mem_singleton] at hp
          rcases hp with ⟨u, -, hu⟩ | ⟨effect, rfl, hu⟩
          · exact ⟨u, (Option.some.inj hu).symm⟩
          · exact ⟨userId, (Option.some.inj hu).symm⟩
        obtain ⟨u, rfl⟩ := hp
        exact not_tellsReceipt_of_type (t := "unsend") rfl (by decide)
  · simp [Effect.published]

end Frames

variable {s s' : Traffic} {a : TrafficAction} {id : UUID} {msg : Message}

/-- A sweep publishes `unsend` frames. -/
theorem sweepOnce_published {now : Time} {rows : MessageRows} {bucket : Bucket} {batch : List UUID}
    {fails : UUID → Bool} {commitOk : Bool} {p : UUID × Frame}
    (hp : p ∈ (sweepOnce now rows bucket batch fails commitOk).published) :
    ∃ messageId, p.2 = unsendEvent messageId := by
  have hloop : ∀ (batch : List UUID) (s : Sweep),
      (∀ p ∈ s.published, ∃ messageId, p.2 = unsendEvent messageId) →
      ∀ p ∈ (batch.foldl (sweepMessage now fails) s).published,
        ∃ messageId, p.2 = unsendEvent messageId := by
    intro batch
    induction batch with
    | nil => exact fun s hs => hs
    | cons b batch ih =>
      refine fun s hs => ih _ fun p hp => ?_
      unfold sweepMessage at hp
      split at hp
      · exact hs p hp
      · next msg hmsg =>
        split_ifs at hp
        · simp only [List.mem_append, List.mem_map] at hp
          obtain (hp | ⟨u, -, rfl⟩) | ⟨u, -, rfl⟩ := hp
          · exact hs p hp
          · exact ⟨msg.id, rfl⟩
          · exact ⟨msg.id, rfl⟩
        · exact hs p hp
  refine hloop batch ⟨rows, bucket, [], [], 0⟩ (by simp) p ?_
  unfold sweepOnce at hp
  cases commitOk with
  | true => exact hp
  | false => exact hp

/-- A row that another row's receipt leaves alone. -/
theorem byId_receipt_of_ne {groups : Groups} {rows : MessageRows} {f : Message → Message}
    (hf : ∀ msg, (f msg).id = msg.id) {messageId userId : UUID} (hne : id ≠ messageId) :
    MessageRows.byId (receipt groups rows f messageId userId).1 id = rows.byId id := by
  obtain h | ⟨-, h⟩ := receipt_rows groups rows f messageId userId
  · rw [h]
  · rw [h]
    exact Table.find_modify_of_ne hf rows hne

/-- `message_delivered` and `message_read` frames. -/
theorem frame_receipt {userId : UUID} {connectionId : String} {fresh : NewRow} {f : Frame}
    {isRead : Bool} (hbranch : branchOf (Json.get f "type") = .receipt isRead)
    (hmsg : s.world.messages.byId id = some msg) :
    ∃ msg' sent,
      (handleFrame s.world userId connectionId fresh f).world.messages.byId id = some msg' ∧
      (handleFrame s.world userId connectionId fresh f).effects.filterMap Effect.published =
        sent ∧
      RowOutcome s (.frame userId connectionId fresh f) id msg msg' sent := by
  have hasks : (TrafficAction.frame userId connectionId fresh f).asks =
      (uuidOrNone (Json.get f "message_id")).map (isRead, ·, userId) := by
    rw [asks_frame, hbranch]
  unfold handleFrame
  rw [hbranch]
  show ∃ msg' sent, (handleReceipt s.world userId isRead f).world.messages.byId id = some msg' ∧ _
  unfold handleReceipt
  cases hid : uuidOrNone (Json.get f "message_id") with
  | none =>
    rw [hid] at hasks
    refine ⟨msg, [], hmsg, rfl, .untouched _ _ ?_ (.inl rfl) (by simp)⟩
    intro isRead' userId' hasked
    rw [hasks] at hasked
    cases hasked
  | some messageId =>
    rw [hid] at hasks
    by_cases hne : id = messageId
    · subst hne
      by_cases hpart : isParticipant s.world.groups msg userId = true
      · refine ⟨mark s.world.now isRead msg, msg.senderId.toList.map (·, receiptFrame id isRead),
          ?_, ?_, .frame userId connectionId fresh f isRead rfl hasks hpart⟩
        · simp only [mark_of_participant hpart hmsg s.world.now isRead]
          show Table.find Message.id _ id = _
          rw [Table.find_modify_self (mark_id s.world.now isRead)]
          exact congrArg (Option.map (mark s.world.now isRead)) hmsg
        · simp only [mark_of_participant hpart hmsg s.world.now isRead, Option.bind_some]
          rw [mark_senderId]
          cases msg.senderId with
          | none => rfl
          | some senderId => rfl
      · have hstranger : ∀ row, s.world.messages.byId id = some row →
            isParticipant s.world.groups row userId = false := by
          intro row hrow
          rw [← Option.some.inj (hmsg.symm.trans hrow)]
          exact Bool.eq_false_iff.mpr hpart
        refine ⟨msg, [], ?_, ?_, .untouched _ _ ?_ (.inl rfl) (by simp)⟩
        · simp only [mark_of_stranger hstranger isRead]
          exact hmsg
        · simp only [mark_of_stranger hstranger isRead]
          rfl
        · intro isRead' userId' hasked
          exact Bool.eq_false_iff.mpr hpart
    · refine ⟨msg, _, ?_, rfl, .untouched _ _ ?_ (.inl rfl) ?_⟩
      · cases isRead with
        | true => exact (byId_receipt_of_ne (read_id s.world.now) hne).trans hmsg
        | false => exact (byId_receipt_of_ne (deliver_id s.world.now) hne).trans hmsg
      · intro isRead' userId' hasked
        rw [hasks] at hasked
        cases hasked
        exact absurd rfl hne
      · intro p hp
        dsimp only at hp
        split at hp
        · obtain rfl := List.mem_singleton.mp hp
          exact not_tellsReceipt_of_ne rfl fun h => hne h.symm
        · cases hp

/-- `mark_message_delivered` answers the recipient, and nobody else. -/
theorem markMessageDelivered_cases (groups : Groups) (rows : MessageRows) (now : Time)
    (chatId messageId userId : UUID) :
    (∃ e, markMessageDelivered groups rows now chatId messageId userId = .error e ∧
      ∀ msg, rows.byId messageId = some msg →
        (TrafficAction.markMessageDelivered chatId messageId userId).mayMark groups msg = false) ∨
    ∃ msg, rows.byId messageId = some msg ∧
      (TrafficAction.markMessageDelivered chatId messageId userId).mayMark groups msg = true ∧
      markMessageDelivered groups rows now chatId messageId userId =
        .ok (Table.modify Message.id rows messageId (mark now false),
          msg.senderId.toList.map (·, deliveredFrame messageId)) := by
  unfold markMessageDelivered
  simp only [TrafficAction.mayMark]
  cases hrow : rows.byId messageId with
  | none => exact .inl ⟨_, rfl, fun msg hmsg => by cases hmsg⟩
  | some msg =>
    rw [Option.filter_some]
    by_cases hchat : (decide (msg.recipientId = some userId ∧ msg.groupId = none) ||
        decide (msg.groupId = some chatId ∧ msg.recipientId = none)) = true
    · rw [if_pos hchat]
      by_cases hrec : isRecipient groups msg userId = true
      · refine .inr ⟨msg, rfl, by rw [hchat, hrec]; rfl, ?_⟩
        have hmark := mark_of_participant (isParticipant_of_isRecipient hrec) hrow now false
        simp only [Bool.false_eq_true, if_false] at hmark
        simp only [hrec, if_true, hmark, mark_senderId]
      · refine .inl ⟨_, if_neg hrec, fun row hsame => ?_⟩
        rw [← Option.some.inj hsame, Bool.eq_false_iff.mpr hrec, Bool.and_false]
    · rw [if_neg hchat]
      refine .inl ⟨_, rfl, fun row hsame => ?_⟩
      rw [← Option.some.inj hsame, Bool.eq_false_iff.mpr hchat, Bool.false_and]

/-- `mark_message_read` answers the recipient, and nobody else. -/
theorem markMessageRead_cases (groups : Groups) (rows : MessageRows) (now : Time)
    (chatId messageId userId : UUID) :
    (∃ e, markMessageRead groups rows now chatId messageId userId = .error e ∧
      ∀ msg, rows.byId messageId = some msg →
        (TrafficAction.markMessageRead chatId messageId userId).mayMark groups msg = false) ∨
    ∃ msg, ∃ channels : List UUID, rows.byId messageId = some msg ∧
      (TrafficAction.markMessageRead chatId messageId userId).mayMark groups msg = true ∧
      markMessageRead groups rows now chatId messageId userId =
        .ok (Table.modify Message.id rows messageId (mark now true),
          channels.map (·, readFrame messageId)) := by
  unfold markMessageRead
  simp only [TrafficAction.mayMark]
  cases hrow : rows.byId messageId with
  | none => exact .inl ⟨_, rfl, fun msg hmsg => by cases hmsg⟩
  | some msg =>
    by_cases hrec : isRecipient groups msg userId = true
    · refine .inr ⟨msg, readChannels groups (Table.modify Message.id rows messageId (mark now true))
        chatId messageId userId, rfl, hrec, ?_⟩
      have hmark := mark_of_participant (isParticipant_of_isRecipient hrec) hrow now true
      simp only [if_true] at hmark
      simp only [hrec, if_true, hmark]
    · refine .inl ⟨_, if_neg hrec, fun row hsame => ?_⟩
      rw [← Option.some.inj hsame]
      exact Bool.eq_false_iff.mpr hrec

/-- A route that marks another message, and tells `channels` so. -/
theorem marked_other {messageId : UUID} (hmsg : s.world.messages.byId id = some msg)
    (hne : id ≠ messageId) {asked : Bool} {userId : UUID}
    (hasks : a.asks = some (asked, messageId, userId)) (isRead : Bool) (channels : List UUID)
    {f : Frame} (hid : Json.get f "message_id" = .str messageId.str) :
    ∃ msg' sent,
      MessageRows.byId (Table.modify Message.id s.world.messages messageId
        (mark s.world.now isRead)) id = some msg' ∧
      s.log ++ channels.map (·, f) = s.log ++ sent ∧ RowOutcome s a id msg msg' sent := by
  refine ⟨msg, _, (Table.find_modify_of_ne (mark_id _ _) s.world.messages hne).trans hmsg, rfl,
    .untouched _ _ ?_ (.inl rfl) fun p hp => ?_⟩
  · intro isRead' userId' hasked
    rw [hasks] at hasked
    cases hasked
    exact absurd rfl hne
  · obtain ⟨u, -, rfl⟩ := List.mem_map.mp hp
    exact not_tellsReceipt_of_ne hid fun h => hne h.symm

/-- A route that refuses to mark a message. -/
theorem refused_untouched {messageId : UUID} (hmsg : s.world.messages.byId id = some msg)
    {asked : Bool} {userId : UUID} (hasks : a.asks = some (asked, messageId, userId))
    (hmay : ∀ msg, s.world.messages.byId messageId = some msg →
      a.mayMark s.world.groups msg = false) :
    ∃ msg' sent, s.world.messages.byId id = some msg' ∧ s.log = s.log ++ sent ∧
      RowOutcome s a id msg msg' sent := by
  refine ⟨msg, [], hmsg, (List.append_nil _).symm, .untouched _ _ ?_ (.inl rfl) (by simp)⟩
  intro isRead userId' hasked
  rw [hasks] at hasked
  cases hasked
  exact hmay msg hmsg

/-- What an action does to the row of a message, and publishes about its receipts. -/
theorem trafficStep_receipt (hs : trafficStep s a = some s')
    (hmsg : s.world.messages.byId id = some msg) :
    ∃ msg' sent, s'.world.messages.byId id = some msg' ∧ s'.log = s.log ++ sent ∧
      RowOutcome s a id msg msg' sent := by
  cases a with
  | frame userId connectionId fresh f =>
    obtain rfl := Option.some.inj hs
    by_cases hbranch : ∃ isRead, branchOf (Json.get f "type") = .receipt isRead
    · obtain ⟨isRead, hbranch⟩ := hbranch
      obtain ⟨msg', sent, hmsg', rfl, houtcome⟩ := frame_receipt hbranch hmsg
      exact ⟨msg', _, hmsg', rfl, houtcome⟩
    · have hother : ∀ isRead, branchOf (Json.get f "type") ≠ .receipt isRead :=
        fun isRead h => hbranch ⟨isRead, h⟩
      obtain ⟨msg', hmsg', hrow⟩ := handleFrame_no_receipt_row hother hmsg
      refine ⟨msg', _, hmsg', rfl, .untouched _ _ ?_ (hrow.imp_right .inl)
        (handleFrame_no_receipt_sent hother)⟩
      intro isRead userId' hasked
      rw [asks_frame] at hasked
      split at hasked
      · next isRead' h => exact absurd h (hother isRead')
      · cases hasked
  | markMessageDelivered chatId messageId userId =>
    obtain rfl := Option.some.inj hs
    obtain ⟨e, herr, hmay⟩ | ⟨row, hrow, hmay, hok⟩ := markMessageDelivered_cases
      s.world.groups s.world.messages s.world.now chatId messageId userId
    · rw [herr]
      exact refused_untouched hmsg rfl hmay
    · rw [hok]
      by_cases hne : id = messageId
      · subst hne
        obtain rfl := Option.some.inj (hmsg.symm.trans hrow)
        refine ⟨_, _, ?_, rfl, .delivered chatId userId rfl hmay⟩
        exact (Table.find_modify_self (mark_id _ _) _ _).trans (congrArg (Option.map _) hmsg)
      · exact marked_other hmsg hne rfl false _ rfl
  | markMessageRead chatId messageId userId =>
    obtain rfl := Option.some.inj hs
    obtain ⟨e, herr, hmay⟩ | ⟨row, channels, hrow, hmay, hok⟩ := markMessageRead_cases
      s.world.groups s.world.messages s.world.now chatId messageId userId
    · rw [herr]
      exact refused_untouched hmsg rfl hmay
    · rw [hok]
      by_cases hne : id = messageId
      · subst hne
        obtain rfl := Option.some.inj (hmsg.symm.trans hrow)
        refine ⟨_, _, ?_, rfl, .read chatId userId rfl hmay channels⟩
        exact (Table.find_modify_self (mark_id _ _) _ _).trans (congrArg (Option.map _) hmsg)
      · exact marked_other hmsg hne rfl true _ rfl
  | sweep batch fails commitOk =>
    simp only [trafficStep] at hs
    split_ifs at hs with hbatch
    obtain rfl := Option.some.inj hs
    refine ⟨_, _, (sweepOnce_byId hbatch.1 id).trans (congrArg (Option.map _) hmsg), rfl,
      .untouched _ _ (fun _ _ h => by cases h) ?_ fun p hp => ?_⟩
    · dsimp only
      split_ifs
      · exact .inr (.inr rfl)
      · exact .inl rfl
    · obtain ⟨messageId, hunsend⟩ := sweepOnce_published hp
      rw [hunsend]
      exact not_tellsReceipt_of_type (t := "unsend") rfl (by decide)
  | surroundings users groups presence fcm =>
    obtain rfl := Option.some.inj hs
    exact ⟨msg, [], hmsg, (List.append_nil _).symm,
      .untouched _ _ (fun _ _ h => by cases h) (.inl rfl) (by simp)⟩
  | tick d =>
    obtain rfl := Option.some.inj hs
    exact ⟨msg, [], hmsg, (List.append_nil _).symm,
      .untouched _ _ (fun _ _ h => by cases h) (.inl rfl) (by simp)⟩

/-- A route that marks a message, told to `channels`, when there is none with the key `id`. -/
theorem marked_absent {messageId : UUID} {row : Message}
    (hnone : s.world.messages.byId id = none) (hrow : s.world.messages.byId messageId = some row)
    (isRead : Bool) (channels : List UUID) {f : Frame}
    (hid : Json.get f "message_id" = .str messageId.str) :
    (∀ msg', MessageRows.byId (Table.modify Message.id s.world.messages messageId
        (mark s.world.now isRead)) id = some msg' → msg'.status = .SENT) ∧
      ∃ sent, s.log ++ channels.map (·, f) = s.log ++ sent ∧
        ∀ p ∈ sent, ¬ TellsReceipt id p.2 := by
  refine ⟨fun msg' hmsg' => ?_, _, rfl, fun p hp => ?_⟩
  · obtain ⟨msg, hmsg, -⟩ := byId_modify (mark_id _ _) hmsg'
    rw [hnone] at hmsg
    cases hmsg
  · obtain ⟨u, -, rfl⟩ := List.mem_map.mp hp
    refine not_tellsReceipt_of_ne hid ?_
    rintro rfl
    rw [hnone] at hrow
    cases hrow

/-- No receipt is published for a key without a row, and a new row is sent. -/
theorem trafficStep_absent (hs : trafficStep s a = some s')
    (hnone : s.world.messages.byId id = none) :
    (∀ msg', s'.world.messages.byId id = some msg' → msg'.status = .SENT) ∧
      ∃ sent, s'.log = s.log ++ sent ∧ ∀ p ∈ sent, ¬ TellsReceipt id p.2 := by
  have hsame : (∀ msg', s.world.messages.byId id = some msg' → msg'.status = .SENT) := by
    intro msg' hmsg'
    rw [hnone] at hmsg'
    cases hmsg'
  cases a with
  | frame userId connectionId fresh f =>
    obtain rfl := Option.some.inj hs
    refine ⟨?_, _, rfl, ?_⟩
    · intro msg' hmsg'
      rcases rowsStep_byId (handleFrame_rows s.world userId connectionId fresh f) hmsg' with
        ⟨msg, hmsg, -⟩ | ⟨-, -, _, _, _, _, _, _, rfl⟩
      · rw [hnone] at hmsg
        cases hmsg
      · rfl
    · by_cases hbranch : ∃ isRead, branchOf (Json.get f "type") = .receipt isRead
      · obtain ⟨isRead, hbranch⟩ := hbranch
        unfold handleFrame
        rw [hbranch]
        show ∀ p ∈ (handleReceipt s.world userId isRead f).effects.filterMap _, _
        unfold handleReceipt
        cases hid : uuidOrNone (Json.get f "message_id") with
        | none => simp
        | some messageId =>
          intro p hp
          dsimp only at hp
          by_cases heq : messageId = id
          · subst heq
            have hstranger : ∀ msg, s.world.messages.byId messageId = some msg →
                isParticipant s.world.groups msg userId = false := by
              intro msg hmsg
              rw [hnone] at hmsg
              cases hmsg
            rw [mark_of_stranger hstranger isRead] at hp
            cases hp
          · split at hp
            · obtain rfl := List.mem_singleton.mp hp
              exact not_tellsReceipt_of_ne rfl heq
            · cases hp
      · exact handleFrame_no_receipt_sent fun isRead h => hbranch ⟨isRead, h⟩
  | markMessageDelivered chatId messageId userId =>
    obtain rfl := Option.some.inj hs
    obtain ⟨e, herr, -⟩ | ⟨row, hrow, -, hok⟩ := markMessageDelivered_cases
      s.world.groups s.world.messages s.world.now chatId messageId userId
    · rw [herr]
      exact ⟨hsame, [], (List.append_nil _).symm, by simp⟩
    · rw [hok]
      exact marked_absent hnone hrow false _ rfl
  | markMessageRead chatId messageId userId =>
    obtain rfl := Option.some.inj hs
    obtain ⟨e, herr, -⟩ | ⟨row, channels, hrow, -, hok⟩ := markMessageRead_cases
      s.world.groups s.world.messages s.world.now chatId messageId userId
    · rw [herr]
      exact ⟨hsame, [], (List.append_nil _).symm, by simp⟩
    · rw [hok]
      exact marked_absent hnone hrow true _ rfl
  | sweep batch fails commitOk =>
    simp only [trafficStep] at hs
    split_ifs at hs with hbatch
    obtain rfl := Option.some.inj hs
    refine ⟨?_, _, rfl, fun p hp => ?_⟩
    · intro msg' hmsg'
      change (sweepOnce _ _ _ _ _ _).rows.byId id = some msg' at hmsg'
      rw [sweepOnce_byId hbatch.1, hnone] at hmsg'
      cases hmsg'
    · obtain ⟨messageId, hunsend⟩ := sweepOnce_published hp
      rw [hunsend]
      exact not_tellsReceipt_of_type (t := "unsend") rfl (by decide)
  | surroundings users groups presence fcm =>
    obtain rfl := Option.some.inj hs
    exact ⟨hsame, [], (List.append_nil _).symm, by simp⟩
  | tick d =>
    obtain rfl := Option.some.inj hs
    exact ⟨hsame, [], (List.append_nil _).symm, by simp⟩

end IronLink.Ws
