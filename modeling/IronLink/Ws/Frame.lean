import IronLink.Messages.Sweep
import IronLink.Ws.Manager

/-!
# The frame handler

`_handle_frame` (app/api/routes/websocket.py:104-229) on an arbitrary JSON
object. The handler reads and changes the `World` and produces effects in
order: frames for the sender's own socket, publications on a user's channel and
pushes. An exception leaves the rest undone and ends the connection.

Results:
* `handleFrame_rows`: a frame leaves the messages alone, inserts one row, or
  changes one row by a delivery, a first read or a retraction.
* `handleFrame_read`: what a `message_read` frame of a participant does.
-/

namespace IronLink.Ws

open Lib Auth Messages

/-! ## Model -/

/-- What the handler reads and writes: the clock, the database, Redis, and
    whether Firebase is configured. -/
structure World where
  now : Time
  users : Users
  groups : Groups
  messages : MessageRows
  presence : Presence
  fcm : Bool

inductive Effect
  /-- `websocket.send_json(frame)` -/
  | send (frame : Frame)
  /-- `publish(user_id, payload)`: `PUBLISH chan:user:{user_id}` -/
  | publish (userId : UUID) (payload : Frame)
  /-- `messaging.send(…)` with the token, title, body and `peer_id` -/
  | push (fcmToken title body peerId : String)

structure Handled where
  world : World
  effects : List Effect
  raised : Bool

/-- The branch a frame type is dispatched to. -/
inductive Branch
  | ping
  | presence
  | typing (frameType : String)
  | content (messageType : MessageType)
  | receipt (isRead : Bool)
  | unsend
  | unsupported
  deriving DecidableEq

/-- The chain of comparisons on `frame.get("type")`
    (app/api/routes/websocket.py:107-209). -/
def branchOf : Json → Branch
  | .str s =>
    if s = "ping" then .ping
    else if s = "presence" then .presence
    else if s = "typing_start" ∨ s = "typing_stop" then .typing s
    else if s = "text" then .content .TEXT
    else if s = "image" then .content .IMAGE
    else if s = "file" then .content .FILE
    else if s = "message_delivered" then .receipt false
    else if s = "message_read" then .receipt true
    else if s = "unsend" then .unsend
    else .unsupported
  | _ => .unsupported

/-- `{"type": "error", "detail": …}`. -/
def errorFrame (detail : Json) : Frame := [("type", .str "error"), ("detail", detail)]

/-- `send_message_push` (app/services/push_service.py:38-62). -/
def sendMessagePush (fcm : Bool) (fcmToken senderName preview peerId : String) : List Effect :=
  if fcm then [.push fcmToken senderName (String.ofList (preview.toList.take 80)) peerId] else []

/-- The push of a content message whose recipient is offline
    (app/api/routes/websocket.py:155-167). -/
def offlinePush (w : World) (userId toId : UUID) (messageType : MessageType)
    (content : Option String) : List Effect :=
  match w.users.byId toId, w.users.byId userId with
  | some recipient, some sender =>
    if truthyStr recipient.fcmToken then
      let preview :=
        if truthyStr content then content.getD "" else "[" ++ messageType.value ++ "]"
      sendMessagePush w.fcm (recipient.fcmToken.getD "") sender.fullName preview userId.str
    else []
  | _, _ => []

/-- The `ack` frame (app/api/routes/websocket.py:170-175). -/
def ackFrame (frame : Frame) (msg : Message) : Frame :=
  [("type", .str "ack"), ("client_ref", Json.get frame "client_ref"),
    ("message_id", .str msg.id.str), ("created_at", .iso msg.createdAt)]

/-- The `message` frame (app/api/routes/websocket.py:178-187). -/
def messageFrame (frame : Frame) (userId : UUID) (msg : Message) : Frame :=
  [("type", .str "message"), ("message_id", .str msg.id.str),
    ("message_type", .str msg.messageType.value), ("from", .str userId.str),
    ("content", Json.get frame "content"), ("media_key", Json.get frame "media_key"),
    ("media_mime", Json.get frame "media_mime"), ("created_at", .iso msg.createdAt)]

/-- The row of a content frame, when its fields have the types the database
    takes. -/
def contentRow (now : Time) (fresh : NewRow) (userId toId : UUID) (messageType : MessageType)
    (frame : Frame) : Option Message :=
  (Json.get frame "content").asOptStr.bind fun content =>
    (Json.get frame "media_key").asOptStr.bind fun mediaKey =>
      (Json.get frame "media_mime").asOptStr.bind fun mediaMime =>
        (Json.get frame "destruct_after").asOptNumber.map fun destructAfter =>
          newMessage now fresh userId (some toId) none messageType content mediaKey mediaMime
            destructAfter

/-- `text`, `image` and `file` (app/api/routes/websocket.py:134-188). `fresh`
    is what the row gets on its way; `w.now` is the time of the flush. -/
def handleContent (w : World) (userId : UUID) (fresh : NewRow) (messageType : MessageType)
    (frame : Frame) : Handled :=
  match uuidOrNone (Json.get frame "to") with
  | none => ⟨w, [.send (errorFrame (.str "missing/invalid 'to'"))], false⟩
  | some toId =>
    match contentRow w.now fresh userId toId messageType frame with
    | none => ⟨w, [], true⟩
    | some msg =>
      match saveMessage w.users w.groups w.messages msg with
      | none => ⟨w, [], true⟩
      | some rows =>
        let w := { w with messages := rows }
        let push :=
          if isOnline w.presence toId then []
          else offlinePush w userId toId messageType msg.contentCiphertext
        ⟨w, push ++ [.send (ackFrame frame msg), .publish toId (messageFrame frame userId msg)],
          false⟩

/-- The `receipt` frame (app/api/routes/websocket.py:201-205). -/
def receiptFrame (messageId : UUID) (isRead : Bool) : Frame :=
  [("type", .str "receipt"), ("message_id", .str messageId.str),
    ("status", .str (if isRead then "read" else "delivered"))]

/-- `message_delivered` and `message_read` (app/api/routes/websocket.py:191-206). -/
def handleReceipt (w : World) (userId : UUID) (isRead : Bool) (frame : Frame) : Handled :=
  match uuidOrNone (Json.get frame "message_id") with
  | none => ⟨w, [], false⟩
  | some messageId =>
    let r :=
      if isRead then markRead w.groups w.messages w.now messageId userId
      else markDelivered w.groups w.messages w.now messageId userId
    let effects :=
      match r.2.bind Message.senderId with
      | some senderId => [.publish senderId (receiptFrame messageId isRead)]
      | none => []
    ⟨{ w with messages := r.1 }, effects, false⟩

/-- `unsend` (app/api/routes/websocket.py:209-224). -/
def handleUnsend (w : World) (userId : UUID) (frame : Frame) : Handled :=
  match uuidOrNone (Json.get frame "message_id") with
  | none => ⟨w, [], false⟩
  | some messageId =>
    match unsendMessage w.messages w.now messageId userId with
    | .error denied => ⟨w, [.send (errorFrame (.str denied))], false⟩
    | .ok (rows, msg) =>
      ⟨{ w with messages := rows },
        msg.recipientId.toList.map (.publish · (unsendEvent messageId)) ++
          [.publish userId (unsendEvent messageId)], false⟩

/-- `_handle_frame` (app/api/routes/websocket.py:104-229). -/
def handleFrame (w : World) (userId : UUID) (connectionId : String) (fresh : NewRow)
    (frame : Frame) : Handled :=
  match branchOf (Json.get frame "type") with
  | .ping =>
    ⟨{ w with presence := heartbeat w.presence w.now connectionId },
      [.send [("type", .str "pong")]], false⟩
  | .presence =>
    ⟨w, [.send [("type", .str "presence"), ("online_users", .int (onlineCount w.presence))]], false⟩
  | .typing frameType =>
    match uuidOrNone (Json.get frame "to") with
    | none => ⟨w, [], false⟩
    | some toId => ⟨w, [.publish toId [("type", .str frameType), ("from", .str userId.str)]], false⟩
  | .content messageType => handleContent w userId fresh messageType frame
  | .receipt isRead => handleReceipt w userId isRead frame
  | .unsend => handleUnsend w userId frame
  | .unsupported =>
    ⟨w, [.send (errorFrame (.fmt "unsupported frame type: " (Json.get frame "type")))], false⟩

/-- Two users and no messages, for the examples. -/
def sampleWorld : World :=
  ⟨0, [sampleUser, sampleAdmin], ⟨[], []⟩, [], Presence.empty, true⟩

/-- A content frame of type `frameType` to `toId`. -/
def sampleFrame (frameType : String) (toId : UUID) (fields : Frame) : Frame :=
  ("type", .str frameType) :: ("to", .str toId.str) :: fields

/-! ## What a frame does to the messages -/

/-- The message an `unsend` frame names. -/
def unsendTarget (frame : Frame) : Option UUID :=
  if branchOf (Json.get frame "type") = .unsend then uuidOrNone (Json.get frame "message_id")
  else none

/-- One change of the `messages` table by `userId` at `now`; `target` is the
    message the user asks to retract, if any. -/
inductive RowsStep (now : Time) (userId : UUID) (fresh : NewRow) (target : Option UUID) :
    MessageRows → MessageRows → Prop
  | same (rows : MessageRows) : RowsStep now userId fresh target rows rows
  | insert (rows : MessageRows) (recipientId : UUID) (messageType : MessageType)
      (content mediaKey mediaMime : Option String) (destructAfter : Option Number)
      (hfresh : rows.byId fresh = none) :
      RowsStep now userId fresh target rows (rows ++ [newMessage now fresh userId
        (some recipientId) none messageType content mediaKey mediaMime destructAfter])
  | deliver (rows : MessageRows) (messageId : UUID) :
      RowsStep now userId fresh target rows
        (Table.modify Message.id rows messageId (Messages.deliver now))
  | read (rows : MessageRows) (messageId : UUID) :
      RowsStep now userId fresh target rows
        (Table.modify Message.id rows messageId (Messages.read now))
  | retract (rows : MessageRows) (messageId : UUID) (msg : Message)
      (htarget : target = some messageId) (hmsg : rows.byId messageId = some msg)
      (howner : msg.senderId = some userId) (hwindow : now - msg.createdAt ≤ UNSEND_WINDOW) :
      RowsStep now userId fresh target rows
        (Table.modify Message.id rows messageId (Messages.retract now))

variable {w : World} {userId : UUID} {fresh : NewRow} {connectionId : String} {frame : Frame}

/-- An offline recipient is pushed to, and nothing else. -/
theorem push_of_mem_offlinePush {toId : UUID} {messageType : MessageType} {content : Option String}
    {effect : Effect} (h : effect ∈ offlinePush w userId toId messageType content) :
    ∃ fcmToken title body peerId, effect = .push fcmToken title body peerId := by
  unfold offlinePush at h
  split at h
  · split at h
    · simp only [sendMessagePush] at h
      split at h
      · exact ⟨_, _, _, _, List.mem_singleton.mp h⟩
      · cases h
    · cases h
  · cases h

theorem contentRow_some {now : Time} {toId : UUID} {messageType : MessageType} {msg : Message}
    (h : contentRow now fresh userId toId messageType frame = some msg) :
    ∃ content mediaKey mediaMime destructAfter,
      (Json.get frame "content").asOptStr = some content ∧
      (Json.get frame "media_key").asOptStr = some mediaKey ∧
      (Json.get frame "media_mime").asOptStr = some mediaMime ∧
      (Json.get frame "destruct_after").asOptNumber = some destructAfter ∧
      msg = newMessage now fresh userId (some toId) none messageType content mediaKey mediaMime
        destructAfter := by
  unfold contentRow at h
  obtain ⟨content, hc, h⟩ := Option.bind_eq_some_iff.mp h
  obtain ⟨mediaKey, hk, h⟩ := Option.bind_eq_some_iff.mp h
  obtain ⟨mediaMime, hm, h⟩ := Option.bind_eq_some_iff.mp h
  obtain ⟨destructAfter, hd, h⟩ := Option.map_eq_some_iff.mp h
  exact ⟨content, mediaKey, mediaMime, destructAfter, hc, hk, hm, hd, h.symm⟩

/-- A content frame whose fields have the right types, in full. -/
theorem handleContent_of_row {toId : UUID} {messageType : MessageType} {msg : Message}
    (hto : uuidOrNone (Json.get frame "to") = some toId)
    (hrow : contentRow w.now fresh userId toId messageType frame = some msg) :
    handleContent w userId fresh messageType frame =
      if msg.insertable w.users w.groups && (w.messages.byId msg.id).isNone then
        ⟨{ w with messages := w.messages ++ [msg] },
          (if isOnline w.presence toId then []
            else offlinePush w userId toId messageType msg.contentCiphertext) ++
            [.send (ackFrame frame msg), .publish toId (messageFrame frame userId msg)], false⟩
      else ⟨w, [], true⟩ := by
  unfold handleContent saveMessage
  rw [hto]
  dsimp only
  rw [hrow]
  by_cases hok : (msg.insertable w.users w.groups && (w.messages.byId msg.id).isNone) = true
  · simp only [if_pos hok]
    rfl
  · simp only [if_neg hok]

theorem handleContent_rows (target : Option UUID) (messageType : MessageType) :
    RowsStep w.now userId fresh target w.messages
      (handleContent w userId fresh messageType frame).world.messages := by
  unfold handleContent
  split
  · exact .same _
  · rename_i toId hto
    split
    · exact .same _
    · rename_i msg hmsg
      split
      · exact .same _
      · rename_i rows hrows
        obtain ⟨rfl, hnone⟩ := saveMessage_rows hrows
        obtain ⟨content, mediaKey, mediaMime, destructAfter, -, -, -, -, rfl⟩ :=
          contentRow_some hmsg
        exact .insert _ toId messageType content mediaKey mediaMime destructAfter hnone

/-- A receipt makes the change `f` to one row, or none. -/
theorem receipt_rowsStep_of {groups : Groups} {now : Time} {rows : MessageRows}
    {messageId userId : UUID} {fresh : NewRow} {target : Option UUID} {f : Message → Message}
    (hf : ∀ id, RowsStep now userId fresh target rows (Table.modify Message.id rows id f)) :
    RowsStep now userId fresh target rows (receipt groups rows f messageId userId).1 := by
  rcases receipt_rows groups rows f messageId userId with h | ⟨-, h⟩
  · rw [h]
    exact .same _
  · rw [h]
    exact hf messageId

theorem receipt_rowsStep (groups : Groups) (now : Time) (rows : MessageRows)
    (messageId userId : UUID) (fresh : NewRow) (target : Option UUID) (isRead : Bool) :
    RowsStep now userId fresh target rows
      (if isRead then markRead groups rows now messageId userId
        else markDelivered groups rows now messageId userId).1 := by
  cases isRead with
  | true => exact receipt_rowsStep_of fun id => .read rows id
  | false => exact receipt_rowsStep_of fun id => .deliver rows id

theorem handleUnsend_rows (fresh : NewRow)
    (htype : branchOf (Json.get frame "type") = .unsend) :
    RowsStep w.now userId fresh (unsendTarget frame) w.messages
      (handleUnsend w userId frame).world.messages := by
  unfold handleUnsend
  split
  · exact .same _
  · rename_i messageId hid
    split
    · exact .same _
    · rename_i rows msg hok
      obtain ⟨row, hrow, howner, hwindow, heq⟩ := unsendMessage_rows hok
      obtain ⟨rfl, -⟩ := Prod.mk.inj heq
      have htarget : unsendTarget frame = some messageId := by
        unfold unsendTarget
        rw [if_pos htype, hid]
      exact .retract _ messageId row htarget hrow howner hwindow

/-- What any frame does to the messages. -/
theorem handleFrame_rows (w : World) (userId : UUID) (connectionId : String) (fresh : NewRow)
    (frame : Frame) :
    RowsStep w.now userId fresh (unsendTarget frame) w.messages
      (handleFrame w userId connectionId fresh frame).world.messages := by
  unfold handleFrame
  split
  · exact .same _
  · exact .same _
  · split <;> exact .same _
  · exact handleContent_rows _ _
  · unfold handleReceipt
    split
    · exact .same _
    · exact receipt_rowsStep ..
  · rename_i htype
    exact handleUnsend_rows fresh htype
  · exact .same _

/-- Beside the messages a frame changes the presence keys only. -/
theorem handleFrame_frame (w : World) (userId : UUID) (connectionId : String) (fresh : NewRow)
    (frame : Frame) :
    let w' := (handleFrame w userId connectionId fresh frame).world
    w'.now = w.now ∧ w'.users = w.users ∧ w'.groups = w.groups ∧ w'.fcm = w.fcm := by
  unfold handleFrame
  split
  · exact ⟨rfl, rfl, rfl, rfl⟩
  · exact ⟨rfl, rfl, rfl, rfl⟩
  · split <;> exact ⟨rfl, rfl, rfl, rfl⟩
  · unfold handleContent
    split
    · exact ⟨rfl, rfl, rfl, rfl⟩
    · split
      · exact ⟨rfl, rfl, rfl, rfl⟩
      · split <;> exact ⟨rfl, rfl, rfl, rfl⟩
  · unfold handleReceipt
    split <;> exact ⟨rfl, rfl, rfl, rfl⟩
  · unfold handleUnsend
    split
    · exact ⟨rfl, rfl, rfl, rfl⟩
    · split <;> exact ⟨rfl, rfl, rfl, rfl⟩
  · exact ⟨rfl, rfl, rfl, rfl⟩

/-- A `message_read` frame of a participant reads the message. -/
theorem handleFrame_read {messageId : UUID} {msg : Message}
    (htype : Json.get frame "type" = .str "message_read")
    (hid : uuidOrNone (Json.get frame "message_id") = some messageId)
    (hmsg : w.messages.byId messageId = some msg)
    (hpart : isParticipant w.groups msg userId = true) :
    (handleFrame w userId connectionId fresh frame).world =
      { w with messages := Table.modify Message.id w.messages messageId (read w.now) } := by
  have hbranch : branchOf (Json.get frame "type") = .receipt true := by
    rw [htype]
    decide
  unfold handleFrame
  rw [hbranch]
  show (handleReceipt w userId true frame).world = _
  unfold handleReceipt
  rw [hid]
  show { w with messages := (markRead w.groups w.messages w.now messageId userId).1 } = _
  unfold markRead
  rw [receipt_of_participant (read w.now) hmsg hpart]

end IronLink.Ws
