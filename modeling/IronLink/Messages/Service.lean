import IronLink.Auth.Account

/-!
# The message service

Rows of `messages` (app/models/message.py) and the four functions of
app/services/message_service.py on them. Each function is one transaction: it
returns the table after its commit, or leaves it as it was.

Results:
* `receipt_rows`, `unsendMessage_rows`: which row a call changes and how; every
  other row stays as it is.
* `saveMessage_rows`: what an inserted row holds.
-/

namespace IronLink.Messages

open Lib Auth

/-! ## Rows -/

/-- `MessageType` (app/models/message.py:28-35). -/
inductive MessageType
  | TEXT
  | IMAGE
  | VIDEO
  | AUDIO
  | FILE
  | LOCATION
  | SYSTEM
  deriving DecidableEq

/-- `MessageType(…).value`. -/
def MessageType.value : MessageType → String
  | TEXT => "text"
  | IMAGE => "image"
  | VIDEO => "video"
  | AUDIO => "audio"
  | FILE => "file"
  | LOCATION => "location"
  | SYSTEM => "system"

/-- `MessageStatus` (app/models/message.py:38-42). -/
inductive MessageStatus
  | SENT
  | DELIVERED
  | READ
  | FAILED
  deriving DecidableEq

/-- The columns of `Message` that the code below reads or writes
    (app/models/message.py:66-148). -/
structure Message where
  id : UUID
  senderId : Option UUID
  recipientId : Option UUID
  groupId : Option UUID
  messageType : MessageType
  contentCiphertext : Option String
  mediaObjectKey : Option String
  mediaMimeType : Option String
  status : MessageStatus
  deliveredAt : Option Time
  readAt : Option Time
  isSelfDestruct : Bool
  destructAfterSeconds : Option ℤ
  destructAt : Option Time
  isDestructed : Bool
  deletedAt : Option Time
  deletedForEveryone : Bool
  createdAt : Time
  deriving DecidableEq

/-- The `messages` table, oldest row first. -/
abbrev MessageRows := List Message

/-- `select(Message).where(Message.id == id)`. -/
def MessageRows.byId (rows : MessageRows) (id : UUID) : Option Message :=
  Table.find Message.id rows id

/-- The tables a message refers to: `groups` by id, `group_members` as pairs of
    group and user. -/
structure Groups where
  ids : List UUID
  members : List (UUID × UUID)

/-! ## `save_message` -/

/-- The truth value of an `int | None`. -/
def truthyInt : Option ℤ → Bool
  | none => false
  | some n => n ≠ 0

/-- The truth value of a `str | None`. -/
def truthyStr : Option String → Bool
  | none => false
  | some s => s ≠ ""

/-- What a row gets on its way into the table: its primary key, and the time from the `now` of
    `save_message` to the flush, when the default of `created_at` is called. -/
structure NewRow where
  id : UUID
  lag : ℕ

instance : Coe NewRow UUID := ⟨NewRow.id⟩

instance (n : ℕ) : OfNat NewRow n := ⟨⟨BitVec.ofNat 128 n, 0⟩⟩

/-- The row `save_message` builds (app/services/message_service.py:31-49), as it is in the table
    after a flush at `flushed`. The columns keep the integer part of `destruct_after_seconds`, and
    of the two `VARCHAR` no spaces beyond their length. -/
def newMessage (flushed : Time) (fresh : NewRow) (senderId : UUID)
    (recipientId groupId : Option UUID) (messageType : MessageType)
    (contentCiphertext mediaObjectKey mediaMimeType : Option String)
    (destructAfterSeconds : Option Number) : Message :=
  let now := flushed - fresh.lag
  { id := fresh.id
    senderId := some senderId
    recipientId := recipientId
    groupId := groupId
    messageType := messageType
    contentCiphertext := contentCiphertext
    mediaObjectKey := mediaObjectKey.map (columnText 500)
    mediaMimeType := mediaMimeType.map (columnText 100)
    status := .SENT
    deliveredAt := some now
    readAt := none
    isSelfDestruct := destructAfterSeconds.isSome
    destructAfterSeconds := destructAfterSeconds.map Number.trunc
    destructAt :=
      if destructAfterSeconds.any Number.truthy then
        destructAfterSeconds.map fun s => now + s.timedelta
      else none
    isDestructed := false
    deletedAt := none
    deletedForEveryone := false
    createdAt := flushed }

/-- PostgreSQL takes the text, cut by `columnText`: no NUL, and no longer than the column. -/
def textFits (max : Option ℕ) : Option String → Bool
  | none => true
  | some s => !s.toList.contains '\x00' && max.all (s.toList.length ≤ ·)

/-- A foreign key is null or refers to a row. -/
def refersTo (ids : List UUID) : Option UUID → Bool
  | none => true
  | some id => ids.contains id

/-- The `INSERT` is accepted: foreign keys, `VARCHAR(500)`, `VARCHAR(100)` and
    `INTEGER` (app/models/message.py:56-88 and 117-121). -/
def Message.insertable (users : Users) (groups : Groups) (msg : Message) : Bool :=
  refersTo (users.map User.id) msg.senderId && refersTo (users.map User.id) msg.recipientId &&
    refersTo groups.ids msg.groupId && textFits none msg.contentCiphertext &&
    textFits (some 500) msg.mediaObjectKey && textFits (some 100) msg.mediaMimeType &&
    msg.destructAfterSeconds.all fun s => -2147483648 ≤ s && s ≤ 2147483647

/-- `save_message` (app/services/message_service.py:19-53) with the primary key
    `id`; `none` when the commit is refused. -/
def saveMessage (users : Users) (groups : Groups) (rows : MessageRows) (msg : Message) :
    Option MessageRows :=
  if msg.insertable users groups && (rows.byId msg.id).isNone then some (rows ++ [msg]) else none

/-! ## Receipts -/

/-- `is_participant` (app/services/message_service.py:61-73 and 87-99). -/
def isParticipant (groups : Groups) (msg : Message) (userId : UUID) : Bool :=
  match msg.groupId with
  | some groupId => groups.members.contains (groupId, userId)
  | none => msg.senderId = some userId || msg.recipientId = some userId

/-- What `mark_delivered` does to the row (app/services/message_service.py:76-77). -/
def deliver (now : Time) (msg : Message) : Message :=
  { msg with deliveredAt := msg.deliveredAt.or (some now) }

/-- What `mark_read` does to the row (app/services/message_service.py:102-110). -/
def read (now : Time) (msg : Message) : Message :=
  if msg.status ≠ .READ then
    { msg with
      status := .READ
      readAt := some now
      deliveredAt := msg.deliveredAt.or (some now)
      destructAt :=
        if msg.isSelfDestruct && truthyInt msg.destructAfterSeconds && msg.destructAt.isNone then
          msg.destructAfterSeconds.map fun s => now + seconds s
        else msg.destructAt }
  else msg

/-- A receipt: `f` on the row, for a participant. -/
def receipt (groups : Groups) (rows : MessageRows) (f : Message → Message)
    (messageId userId : UUID) : MessageRows × Option Message :=
  match rows.byId messageId with
  | none => (rows, none)
  | some msg =>
    if isParticipant groups msg userId then (Table.modify Message.id rows messageId f, some (f msg))
    else (rows, none)

/-- `mark_delivered` (app/services/message_service.py:56-79). -/
def markDelivered (groups : Groups) (rows : MessageRows) (now : Time) (messageId userId : UUID) :
    MessageRows × Option Message := receipt groups rows (deliver now) messageId userId

/-- `mark_read` (app/services/message_service.py:82-112). -/
def markRead (groups : Groups) (rows : MessageRows) (now : Time) (messageId userId : UUID) :
    MessageRows × Option Message := receipt groups rows (read now) messageId userId

/-! ## `unsend_message` -/

/-- `UNSEND_WINDOW` (app/services/message_service.py:12). -/
def UNSEND_WINDOW : Time := seconds (5 * 60)

/-- What `unsend_message` does to the row (app/services/message_service.py:138-142). -/
def retract (now : Time) (msg : Message) : Message :=
  { msg with
    contentCiphertext := none
    mediaObjectKey := none
    mediaMimeType := none
    deletedForEveryone := true
    deletedAt := some now }

/-- `unsend_message` (app/services/message_service.py:115-144); the error is the
    text of `UnsendDenied`. -/
def unsendMessage (rows : MessageRows) (now : Time) (messageId senderId : UUID) :
    Except String (MessageRows × Message) :=
  match (rows.byId messageId).filter fun msg => msg.senderId = some senderId with
  | none => .error "message not found or not owned by caller"
  | some msg =>
    if now - msg.createdAt > UNSEND_WINDOW then .error "unsend window (5 minutes) has passed"
    else .ok (Table.modify Message.id rows messageId (retract now), retract now msg)

/-! ## What each function does to the table -/

variable {users : Users} {groups : Groups} {rows rows' : MessageRows} {now : Time}
  {messageId userId : UUID}

@[simp] theorem deliver_id (now : Time) (msg : Message) : (deliver now msg).id = msg.id := rfl

@[simp] theorem read_id (now : Time) (msg : Message) : (read now msg).id = msg.id := by
  unfold read
  split_ifs <;> rfl

@[simp] theorem retract_id (now : Time) (msg : Message) : (retract now msg).id = msg.id := rfl

theorem saveMessage_rows {msg : Message} (h : saveMessage users groups rows msg = some rows') :
    rows' = rows ++ [msg] ∧ rows.byId msg.id = none := by
  unfold saveMessage at h
  split_ifs at h with hok
  obtain rfl := Option.some.inj h
  rw [Bool.and_eq_true, Option.isNone_iff_eq_none] at hok
  exact ⟨rfl, hok.2⟩

/-- A receipt changes the row it names with `f`, or nothing. -/
theorem receipt_rows (groups : Groups) (rows : MessageRows) (f : Message → Message)
    (messageId userId : UUID) :
    (receipt groups rows f messageId userId).1 = rows ∨
      (∃ msg, rows.byId messageId = some msg ∧ isParticipant groups msg userId = true) ∧
      (receipt groups rows f messageId userId).1 = Table.modify Message.id rows messageId f := by
  unfold receipt
  split
  · exact .inl rfl
  · rename_i msg hmsg
    split_ifs with hpart
    · exact .inr ⟨⟨msg, hmsg, hpart⟩, rfl⟩
    · exact .inl rfl

theorem receipt_of_participant {msg : Message} (f : Message → Message)
    (h : rows.byId messageId = some msg) (hpart : isParticipant groups msg userId = true) :
    receipt groups rows f messageId userId =
      (Table.modify Message.id rows messageId f, some (f msg)) := by
  unfold receipt
  rw [h]
  simp [hpart]

theorem unsendMessage_rows {senderId : UUID} {r : MessageRows × Message}
    (h : unsendMessage rows now messageId senderId = .ok r) :
    ∃ msg, rows.byId messageId = some msg ∧ msg.senderId = some senderId ∧
      now - msg.createdAt ≤ UNSEND_WINDOW ∧
      r = (Table.modify Message.id rows messageId (retract now), retract now msg) := by
  unfold unsendMessage at h
  split at h
  · cases h
  · rename_i msg hmsg
    obtain ⟨hmsg, hsender⟩ := Option.filter_eq_some_iff.mp hmsg
    split_ifs at h with hwin
    exact ⟨msg, hmsg, by simpa using hsender, not_lt.mp hwin, (Except.ok.inj h).symm⟩

end IronLink.Messages
