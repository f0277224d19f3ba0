import IronLink.Messages.Service

/-!
# The history of a conversation, and the list of conversations

`message_history` and `list_conversations` (app/api/routes/chats.py:42-138). The
queries order by `created_at` only: rows of the same moment come in any order,
and when `limit` cuts through them any of them are left out.

Results:
* `isHistory_byId`: a history holds rows of the table.
* `messageHistory_content`, `listConversations_preview`: the rows whose content a
  response shows.
-/

namespace IronLink.Messages

open Lib Auth

/-- The rows the query selects (app/api/routes/chats.py:122-134). -/
def inHistory (userId peerId : UUID) (before : Option Time) (msg : Message) : Bool :=
  (decide (msg.senderId = some userId ∧ msg.recipientId = some peerId) ||
      decide (msg.senderId = some peerId ∧ msg.recipientId = some userId)) &&
    !msg.isDestructed && before.all (msg.createdAt < ·)

/-- `messages` is a possible answer: the newest `limit` rows, oldest first. -/
def IsHistory (rows : MessageRows) (userId peerId : UUID) (before : Option Time) (limit : ℕ)
    (messages : List Message) : Prop :=
  let selected := rows.filter (inHistory userId peerId before)
  (messages.map Message.id).Nodup ∧ (∀ msg ∈ messages, msg ∈ selected) ∧
    messages.length = min limit selected.length ∧
    messages.Pairwise (fun msg msg' => msg.createdAt ≤ msg'.createdAt) ∧
    ∀ msg ∈ selected, msg ∉ messages → ∀ msg' ∈ messages, msg.createdAt ≤ msg'.createdAt

instance (rows : MessageRows) (userId peerId : UUID) (before : Option Time) (limit : ℕ)
    (messages : List Message) : Decidable (IsHistory rows userId peerId before limit messages) := by
  unfold IsHistory
  infer_instance

theorem isHistory_byId {rows : MessageRows} {userId peerId : UUID} {before : Option Time}
    {limit : ℕ} {messages : List Message} (h : IsHistory rows userId peerId before limit messages)
    {msg : Message} (hmsg : msg ∈ messages) : (rows.byId msg.id).isSome = true := by
  have hrow : msg ∈ rows := (List.mem_filter.mp (h.2.1 msg hmsg)).1
  rw [Option.isSome_iff_ne_none]
  intro hnone
  exact Table.find_eq_none.mp hnone msg hrow rfl

/-! ## `message_history` -/

/-- `MessageOut` (app/api/routes/chats.py:29-39). -/
structure MessageOut where
  id : UUID
  senderId : Option UUID
  recipientId : Option UUID
  messageType : MessageType
  contentCiphertext : Option String
  status : MessageStatus
  createdAt : Time
  deletedForEveryone : Bool
  deriving DecidableEq

/-- `MessageOut.model_validate(message)`. -/
def MessageOut.modelValidate (msg : Message) : MessageOut :=
  { id := msg.id
    senderId := msg.senderId
    recipientId := msg.recipientId
    messageType := msg.messageType
    contentCiphertext := msg.contentCiphertext
    status := msg.status
    createdAt := msg.createdAt
    deletedForEveryone := msg.deletedForEveryone }

/-- The response of `message_history` (app/api/routes/chats.py:109-138) when its
    query answers `messages`. -/
def messageHistory (users : Users) (peerId : UUID) (messages : List Message) :
    Except HttpError (List MessageOut) :=
  if (users.byId peerId).isNone then .error ⟨404, "peer not found"⟩
  else .ok (messages.map MessageOut.modelValidate)

/-! ## `list_conversations` -/

/-- The rows `latest` groups (app/api/routes/chats.py:56-60). -/
def inConversations (userId : UUID) (msg : Message) : Bool :=
  decide (msg.senderId = some userId ∨ msg.recipientId = some userId) && msg.groupId.isNone &&
    !msg.isDestructed

/-- `peer_expr` (app/api/routes/chats.py:48-50): `coalesce(nullif(sender_id, user.id),
    recipient_id)`. -/
def peerOf (userId : UUID) (msg : Message) : Option UUID :=
  (msg.senderId.filter (· ≠ userId)).or msg.recipientId

/-- The rows of the group of `peerId`. -/
def conversation (rows : MessageRows) (userId peerId : UUID) : MessageRows :=
  rows.filter fun msg => inConversations userId msg && decide (peerOf userId msg = some peerId)

/-- `func.max(Message.created_at)` of the group; `none` when there is no group. -/
def lastAt (rows : MessageRows) (userId peerId : UUID) : Option Time :=
  ((conversation rows userId peerId).map Message.createdAt).max?

/-- `unread` (app/api/routes/chats.py:85-92). -/
def unreadCount (rows : MessageRows) (userId peerId : UUID) : ℕ :=
  rows.countP fun msg => decide (msg.senderId = some peerId ∧ msg.recipientId = some userId ∧
    msg.status ≠ .READ) && !msg.isDestructed

/-- `preview` (app/api/routes/chats.py:94-96). -/
def preview (lastMsg : Option Message) : Option String :=
  (lastMsg.filter fun msg => !msg.deletedForEveryone).map fun msg =>
    let text :=
      if truthyStr msg.contentCiphertext then msg.contentCiphertext.getD ""
      else "[" ++ msg.messageType.value ++ "]"
    String.ofList (text.toList.take 20)

/-- `ConversationOut` (app/api/routes/chats.py:19-26); `peer_avatar_url` is never
    set. -/
structure ConversationOut where
  peerId : UUID
  peerName : String
  isOnline : Bool
  lastMessagePreview : Option String
  lastMessageAt : Option Time
  unreadCount : ℕ
  deriving DecidableEq

/-- What the queries of `list_conversations` answer: the peers in their order,
    each with the message that is ordered first. -/
abbrev Conversations := List (UUID × Option UUID)

/-- `last` is a possible answer to the query for `last_msg`
    (app/api/routes/chats.py:73-84). -/
def IsLastMessage (rows : MessageRows) (userId peerId : UUID) (last : Option UUID) : Prop :=
  let selected := rows.filter (inHistory userId peerId none)
  match last with
  | none => selected = []
  | some id => ∃ msg ∈ rows.byId id, msg ∈ selected ∧
      ∀ msg' ∈ selected, msg'.createdAt ≤ msg.createdAt

instance decidableIsLastMessage (rows : MessageRows) (userId peerId : UUID) :
    (last : Option UUID) → Decidable (IsLastMessage rows userId peerId last)
  | none => inferInstanceAs (Decidable (_ = _))
  | some _ => inferInstanceAs (Decidable (∃ _ ∈ _, _))

/-- `peers` is a possible answer: the users there is a group for, those with the
    newest message first (app/api/routes/chats.py:65-69). -/
def IsConversations (users : Users) (rows : MessageRows) (userId : UUID) (peers : Conversations) :
    Prop :=
  (peers.map Prod.fst).Perm
      ((users.filter fun user => (lastAt rows userId user.id).isSome).map User.id) ∧
    peers.Pairwise (fun p p' => ∀ t ∈ lastAt rows userId p.1, ∀ t' ∈ lastAt rows userId p'.1,
      t' ≤ t) ∧
    ∀ p ∈ peers, IsLastMessage rows userId p.1 p.2

instance (users : Users) (rows : MessageRows) (userId : UUID) (peers : Conversations) :
    Decidable (IsConversations users rows userId peers) := by
  unfold IsConversations
  have : Decidable (∀ p ∈ peers, IsLastMessage rows userId p.1 p.2) := List.decidableBAll _ peers
  infer_instance

/-- The response of `list_conversations` (app/api/routes/chats.py:42-106) when its
    queries answer `peers`; `online` is `manager.is_online`. -/
def listConversations (users : Users) (rows : MessageRows) (online : UUID → Bool) (userId : UUID)
    (peers : Conversations) : List ConversationOut :=
  peers.filterMap fun p => (users.byId p.1).map fun peer =>
    { peerId := peer.id
      peerName := peer.fullName
      isOnline := online peer.id
      lastMessagePreview := preview (p.2.bind rows.byId)
      lastMessageAt := lastAt rows userId peer.id
      unreadCount := unreadCount rows userId peer.id }

/-! ## Whose content a response shows -/

section

variable {users : Users} {rows : MessageRows} {online : UUID → Bool} {userId peerId : UUID}

/-- A history shows the content of rows that are not destroyed. -/
theorem messageHistory_content {before : Option Time} {limit : ℕ} {messages : List Message}
    {outs : List MessageOut} (h : IsHistory rows userId peerId before limit messages)
    (hok : messageHistory users peerId messages = .ok outs) {out : MessageOut} (hout : out ∈ outs) :
    ∃ msg ∈ rows, out = MessageOut.modelValidate msg ∧ msg.isDestructed = false := by
  unfold messageHistory at hok
  split_ifs at hok
  obtain rfl := Except.ok.inj hok
  obtain ⟨msg, hmsg, rfl⟩ := List.mem_map.mp hout
  obtain ⟨hrow, hselected⟩ := List.mem_filter.mp (h.2.1 msg hmsg)
  simp only [inHistory, Bool.and_eq_true, Bool.not_eq_true'] at hselected
  exact ⟨msg, hrow, rfl, hselected.1.2⟩

/-- A preview shows the content of a row that is neither destroyed nor retracted. -/
theorem listConversations_preview {peers : Conversations}
    (h : IsConversations users rows userId peers) {out : ConversationOut}
    (hout : out ∈ listConversations users rows online userId peers) {text : String}
    (htext : out.lastMessagePreview = some text) :
    ∃ msg ∈ rows, preview (some msg) = some text ∧ msg.isDestructed = false ∧
      msg.deletedForEveryone = false := by
  obtain ⟨p, hp, hsome⟩ := List.mem_filterMap.mp hout
  obtain ⟨peer, hpeer, rfl⟩ := Option.map_eq_some_iff.mp hsome
  have hlast := h.2.2 p hp
  change preview (p.2.bind rows.byId) = some text at htext
  cases hid : p.2 with
  | none =>
    rw [hid] at htext
    cases htext
  | some id =>
    rw [hid] at hlast htext
    obtain ⟨msg, hmsg, hselected, -⟩ := hlast
    rw [Option.bind_some, Option.mem_def.mp hmsg] at htext
    obtain ⟨hrow, hselected⟩ := List.mem_filter.mp hselected
    simp only [inHistory, Bool.and_eq_true, Bool.not_eq_true'] at hselected
    refine ⟨msg, hrow, htext, hselected.1.2, ?_⟩
    obtain ⟨shown, hshown, -⟩ := Option.map_eq_some_iff.mp htext
    obtain ⟨hsame, hkept⟩ := Option.filter_eq_some_iff.mp hshown
    rw [Option.some.inj hsame]
    simpa using hkept

end

end IronLink.Messages
