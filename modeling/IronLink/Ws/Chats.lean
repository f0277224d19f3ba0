import IronLink.Messages.History
import IronLink.Ws.Receive
import IronLink.Ws.Traffic

/-!
# Frames, the chat routes and what a user sees of them

Every request around direct messages: frames on any socket, `list_conversations`,
`message_history`, the receipt routes and the typing route. The sweep, the clock,
accounts, groups and connections go on beside them. A step says which events a user
can observe: frames on the user's channel and sockets, responses to their calls, and
pushes for the token in their record. None of the requests publishes on
`chan:broadcast`.

Result: `chatStep_keys`, primary keys stay distinct.
-/

namespace IronLink.Ws

open Lib Auth Messages

/-! ## The typing route -/

/-- `update_typing` (app/api/routes/receipts.py:154-210) with `broadcast_typing`
    (app/services/ws_manager.py:110-154): what is published. -/
def updateTyping (groups : Groups) (rows : MessageRows) (chatId userId : UUID) (typing : Bool) :
    Except HttpError (List (UUID × Frame)) :=
  let typingPayload : Frame :=
    [("type", .str (if typing then "typing_start" else "typing_stop")), ("from", .str userId.str)]
  if groups.ids.contains chatId then
    if groups.members.contains (chatId, userId) then
      .ok ((groups.members.filter fun member => member.1 = chatId && member.2 ≠ userId).map
        fun member => (member.2, typingPayload))
    else .error ⟨403, "Not a member of this group"⟩
  else if rows.any fun msg =>
      (decide (msg.senderId = some userId ∧ msg.recipientId = some chatId) ||
        decide (msg.senderId = some chatId ∧ msg.recipientId = some userId)) &&
          msg.groupId.isNone then
    .ok [(chatId, typingPayload)]
  else .error ⟨403, "No direct chat with this user"⟩

/-! ## Requests and events -/

structure Chats where
  world : World
  bucket : Bucket

/-- A server without messages. -/
def Chats.init (world : World) (bucket : Bucket) : Chats := ⟨{ world with messages := [] }, bucket⟩

inductive Request
  /-- a frame received on a socket of `userId`; `fresh` is the key a new row gets,
      `pushRefused` whether `messaging.send` raises -/
  | frame (userId : UUID) (connectionId : String) (fresh : NewRow) (frame : Frame)
      (pushRefused : Bool)
  /-- `GET /chats`, whose queries answer `peers` -/
  | listConversations (userId : UUID) (peers : Conversations)
  /-- `GET /chats/{peer_id}/messages`, whose query answers the rows `ids` -/
  | messageHistory (userId peerId : UUID) (before : Option Time) (limit : ℕ) (ids : List UUID)
  | markMessageDelivered (chatId messageId userId : UUID)
  | markMessageRead (chatId messageId userId : UUID)
  | updateTyping (chatId userId : UUID) (typing : Bool)
  /-- a sweep whose query answers `batch` -/
  | sweep (batch : List UUID) (fails : UUID → Bool) (commitOk : Bool)
  /-- accounts, groups, connections and the setting of Firebase become other ones -/
  | surroundings (users : Users) (groups : Groups) (presence : Presence) (fcm : Bool)
  | tick (d : ℕ)

/-- What one user can observe. -/
inductive ChatEvent
  /-- a frame on `chan:user:{user_id}` -/
  | published (userId : UUID) (payload : Frame)
  /-- a frame on the socket of the user that sent the request -/
  | sent (userId : UUID) (frame : Frame)
  /-- a push to the token of the user's record -/
  | pushed (userId : UUID) (fcmToken title body peerId : String)
  | conversations (userId : UUID) (response : List ConversationOut)
  | history (userId : UUID) (response : Except HttpError (List MessageOut))
  /-- the response of a route without a body -/
  | answered (userId : UUID) (response : Except HttpError Unit)

/-- The user who observes the event. -/
def ChatEvent.user : ChatEvent → UUID
  | published userId _ => userId
  | sent userId _ => userId
  | pushed userId _ _ _ _ => userId
  | conversations userId _ => userId
  | history userId _ => userId
  | answered userId _ => userId

/-- The observer `u`. -/
def ChatEvent.seenBy (u : UUID) (e : ChatEvent) : Bool := e.user = u

/-- The event of an effect of a frame of `userId`; `toId` is whom the frame names in
    `to`, the user any push is for. -/
def Effect.event (userId : UUID) (toId : Option UUID) : Effect → Option ChatEvent
  | .send f => some (.sent userId f)
  | .publish u payload => some (.published u payload)
  | .push fcmToken title body peerId => toId.map (.pushed · fcmToken title body peerId)

/-- The rows after a route, what it publishes and what it answers `userId`. -/
def Chats.answer (s : Chats) (userId : UUID)
    (r : Except HttpError (MessageRows × List (UUID × Frame))) : Chats × List ChatEvent :=
  match r with
  | .error e => (s, [.answered userId (.error e)])
  | .ok (rows, sent) =>
    ({ s with world := { s.world with messages := rows } },
      sent.map (fun p => .published p.1 p.2) ++ [.answered userId (.ok ())])

def chatStep (s : Chats) : Request → Option (Chats × List ChatEvent)
  | .frame userId connectionId fresh f pushRefused =>
    let t := (handleFrame s.world userId connectionId fresh f).turn
      (fun _ _ _ _ => pushRefused) userId connectionId
    some ({ s with world := t.world },
      t.effects.filterMap (Effect.event userId (uuidOrNone (Json.get f "to"))))
  | .listConversations userId peers =>
    if IsConversations s.world.users s.world.messages userId peers then
      some (s, [.conversations userId (listConversations s.world.users s.world.messages
        (isOnline s.world.presence) userId peers)])
    else none
  | .messageHistory userId peerId before limit ids =>
    let messages := ids.filterMap s.world.messages.byId
    if IsHistory s.world.messages userId peerId before limit messages then
      some (s, [.history userId (messageHistory s.world.users peerId messages)])
    else none
  | .markMessageDelivered chatId messageId userId =>
    some (s.answer userId (markMessageDelivered s.world.groups s.world.messages s.world.now chatId
      messageId userId))
  | .markMessageRead chatId messageId userId =>
    some (s.answer userId (markMessageRead s.world.groups s.world.messages s.world.now chatId
      messageId userId))
  | .updateTyping chatId userId typing =>
    some (s.answer userId ((updateTyping s.world.groups s.world.messages chatId userId typing).map
      (s.world.messages, ·)))
  | .sweep batch fails commitOk =>
    if IsBatch s.world.messages s.world.now batch then
      let r := sweepOnce s.world.now s.world.messages s.bucket batch fails commitOk
      some (⟨{ s.world with messages := r.rows }, r.bucket⟩,
        r.published.map fun p => .published p.1 p.2)
    else none
  | .surroundings users groups presence fcm =>
    some ({ s with
      world := { s.world with
        users := users, groups := groups, presence := presence, fcm := fcm } }, [])
  | .tick d => some ({ s with world := { s.world with now := s.world.now + d } }, [])

/-! ## Primary keys -/

/-- No two messages have the same primary key. -/
def Chats.Keys (s : Chats) : Prop := (s.world.messages.map Message.id).Nodup

theorem Chats.keys_init (world : World) (bucket : Bucket) : (Chats.init world bucket).Keys :=
  List.nodup_nil

/-- An exception leaves the messages as the handler left them. -/
theorem Handled.turn_messages (refuses : Refuses) (userId : UUID) (connectionId : String)
    (h : Handled) : (h.turn refuses userId connectionId).world.messages = h.world.messages := by
  unfold Handled.turn
  split_ifs <;> rfl

theorem receipt_keys {f : Message → Message} (hf : ∀ msg, (f msg).id = msg.id) (groups : Groups)
    (rows : MessageRows) (messageId userId : UUID) :
    (receipt groups rows f messageId userId).1.map Message.id = rows.map Message.id := by
  rcases receipt_rows groups rows f messageId userId with h | ⟨-, h⟩
  · rw [h]
  · rw [h]
    exact Table.map_key_modify hf rows messageId

variable {groups : Groups} {rows rows' : MessageRows} {now : Time} {chatId messageId userId : UUID}
  {sent : List (UUID × Frame)}

/-- The end of both receipt routes: `sent` is what goes out for the message that was
    changed. -/
def answerOf (err : HttpError) (sent : MessageRows → Message → List (UUID × Frame)) :
    MessageRows × Option Message → Except HttpError (MessageRows × List (UUID × Frame))
  | (_, none) => .error err
  | (rows, some m) => .ok (rows, sent rows m)

theorem answerOf_rows {err : HttpError} {send : MessageRows → Message → List (UUID × Frame)}
    {r : MessageRows × Option Message} (h : answerOf err send r = .ok (rows', sent)) :
    r.1 = rows' := by
  obtain ⟨rows, msg⟩ := r
  cases msg with
  | none => cases h
  | some m => exact congrArg Prod.fst (Except.ok.inj h)

theorem markMessageDelivered_keys
    (h : markMessageDelivered groups rows now chatId messageId userId = .ok (rows', sent)) :
    rows'.map Message.id = rows.map Message.id := by
  unfold markMessageDelivered at h
  split at h
  · cases h
  · split_ifs at h
    have hrows : (receipt groups rows (deliver now) messageId userId).1 = rows' := answerOf_rows h
    rw [← hrows]
    exact receipt_keys (deliver_id now) groups rows messageId userId

theorem markMessageRead_keys
    (h : markMessageRead groups rows now chatId messageId userId = .ok (rows', sent)) :
    rows'.map Message.id = rows.map Message.id := by
  unfold markMessageRead at h
  split at h
  · cases h
  · split_ifs at h
    have hrows : (receipt groups rows (Messages.read now) messageId userId).1 = rows' :=
      answerOf_rows h
    rw [← hrows]
    exact receipt_keys (read_id now) groups rows messageId userId

theorem Chats.answer_keys {s : Chats} {r : Except HttpError (MessageRows × List (UUID × Frame))}
    (h : ∀ rows sent, r = .ok (rows, sent) →
      rows.map Message.id = s.world.messages.map Message.id) (hkeys : s.Keys) :
    (s.answer userId r).1.Keys := by
  unfold Chats.answer
  split
  · exact hkeys
  · next rows sent =>
    show (rows.map Message.id).Nodup
    rw [h rows sent rfl]
    exact hkeys

/-- Primary keys stay distinct. -/
theorem chatStep_keys {s s' : Chats} {r : Request} {events : List ChatEvent}
    (h : chatStep s r = some (s', events)) (hkeys : s.Keys) : s'.Keys := by
  cases r with
  | frame userId connectionId fresh f pushRefused =>
    obtain ⟨rfl, -⟩ := Prod.mk.inj (Option.some.inj h)
    show (List.map Message.id (Handled.turn _ _ _ _).world.messages).Nodup
    rw [Handled.turn_messages]
    exact rowsStep_nodup (handleFrame_rows ..) hkeys
  | listConversations userId peers =>
    simp only [chatStep] at h
    split_ifs at h
    obtain ⟨rfl, -⟩ := Prod.mk.inj (Option.some.inj h)
    exact hkeys
  | messageHistory userId peerId before limit ids =>
    simp only [chatStep] at h
    split_ifs at h
    obtain ⟨rfl, -⟩ := Prod.mk.inj (Option.some.inj h)
    exact hkeys
  | markMessageDelivered chatId messageId userId =>
    obtain rfl := (Prod.ext_iff.mp (Option.some.inj h)).1
    exact Chats.answer_keys (fun rows sent heq => markMessageDelivered_keys heq) hkeys
  | markMessageRead chatId messageId userId =>
    obtain rfl := (Prod.ext_iff.mp (Option.some.inj h)).1
    exact Chats.answer_keys (fun rows sent heq => markMessageRead_keys heq) hkeys
  | updateTyping chatId userId typing =>
    obtain rfl := (Prod.ext_iff.mp (Option.some.inj h)).1
    refine Chats.answer_keys (fun rows sent heq => ?_) hkeys
    cases hr : updateTyping s.world.groups s.world.messages chatId userId typing with
    | error e =>
      rw [hr] at heq
      cases heq
    | ok sent' =>
      rw [hr] at heq
      rw [(Prod.mk.inj (Except.ok.inj heq)).1]
  | sweep batch fails commitOk =>
    simp only [chatStep] at h
    split_ifs at h
    obtain ⟨rfl, -⟩ := Prod.mk.inj (Option.some.inj h)
    show (List.map Message.id (sweepOnce _ _ _ _ _ _).rows).Nodup
    rw [sweepOnce_map_id]
    exact hkeys
  | surroundings users groups presence fcm =>
    obtain ⟨rfl, -⟩ := Prod.mk.inj (Option.some.inj h)
    exact hkeys
  | tick d =>
    obtain ⟨rfl, -⟩ := Prod.mk.inj (Option.some.inj h)
    exact hkeys

end IronLink.Ws
