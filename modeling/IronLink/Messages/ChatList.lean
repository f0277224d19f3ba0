import IronLink.Messages.History

/-!
# The list of conversations and the histories behind it

`list_conversations` computes the peer of a row with `coalesce(nullif(sender_id, …),
recipient_id)`, `message_history` and the query for the preview select by sender and
recipient. The two differ on rows whose sender is gone: such a row belongs to no history,
and the list shows it under the recipient's own name.

Results:
* `chatListAgrees_iff`: the tables for which list and histories agree.
* `orphan_listed`: tables for which they do not.
-/

namespace IronLink.Messages

open Lib Auth

/-! ## Statement -/

/-- What the schema says of the tables: primary keys, foreign keys and `chk_message_target`
    (scripts/init_db.sql:66-72). -/
structure Schema (users : Users) (rows : MessageRows) : Prop where
  userIds : (users.map User.id).Nodup
  messageIds : (rows.map Message.id).Nodup
  target : ∀ msg ∈ rows, msg.recipientId.isSome = msg.groupId.isNone
  sender : ∀ msg ∈ rows, ∀ id ∈ msg.senderId, (users.byId id).isSome = true
  recipient : ∀ msg ∈ rows, ∀ id ∈ msg.recipientId, (users.byId id).isSome = true

/-- The whole history with a peer. -/
def history (rows : MessageRows) (userId peerId : UUID) : MessageRows :=
  rows.filter (inHistory userId peerId none)

def IsNewest (rows : MessageRows) (userId peerId : UUID) (msg : Message) : Prop :=
  msg ∈ history rows userId peerId ∧
    ∀ msg' ∈ history rows userId peerId, msg'.createdAt ≤ msg.createdAt

/-- The list `outs` agrees with the responses of `message_history`. -/
structure ChatListAgrees (users : Users) (rows : MessageRows) (userId : UUID)
    (outs : List ConversationOut) : Prop where
  /-- The peers are those with a history. -/
  listed : ∀ peerId limit messages, 1 ≤ limit → limit ≤ 100 →
    IsHistory rows userId peerId none limit messages →
      ((∃ out ∈ outs, out.peerId = peerId) ↔
        ∃ page, messageHistory users peerId messages = .ok page ∧ page ≠ [])
  once : (outs.map ConversationOut.peerId).Nodup
  /-- Time and preview are those of a newest message; `preview` of an unsent one is null. -/
  newest : ∀ out ∈ outs, ∃ msg, IsNewest rows userId out.peerId msg ∧
    out.lastMessageAt = some msg.createdAt ∧ out.lastMessagePreview = preview (some msg)

/-- A message to the user whose sender's account is deleted. -/
def Orphan (userId : UUID) (msg : Message) : Prop :=
  msg.senderId = none ∧ msg.recipientId = some userId ∧ msg.isDestructed = false

/-- The user has a message to themself that is as new as every orphan. -/
def OrphansHidden (rows : MessageRows) (userId : UUID) : Prop :=
  ∀ msg ∈ rows, Orphan userId msg →
    ∃ own ∈ history rows userId userId, msg.createdAt ≤ own.createdAt

/-! ## The two queries -/

section

variable {users : Users} {rows : MessageRows} {userId peerId : UUID} {msg : Message}
  {peers : Conversations} {online : UUID → Bool}

theorem inHistory_iff : inHistory userId peerId none msg = true ↔
    (msg.senderId = some userId ∧ msg.recipientId = some peerId ∨
      msg.senderId = some peerId ∧ msg.recipientId = some userId) ∧ msg.isDestructed = false := by
  simp [inHistory]

/-- `peer_expr`, for a row with a recipient. -/
theorem peer_eq_some_iff (sender : Option UUID) (recipient userId peerId : UUID) :
    (sender = some userId ∨ recipient = userId) ∧
        (sender.filter (· ≠ userId)).or (some recipient) = some peerId ↔
      (sender = some userId ∧ recipient = peerId ∨ sender = some peerId ∧ recipient = userId) ∨
        peerId = userId ∧ sender = none ∧ recipient = userId := by
  cases sender with
  | none =>
    constructor
    · rintro ⟨hsender | rfl, hpeer⟩
      · cases hsender
      · exact .inr ⟨(Option.some.inj hpeer).symm, rfl, rfl⟩
    · rintro ((⟨hsender, -⟩ | ⟨hsender, -⟩) | ⟨rfl, -, rfl⟩)
      · cases hsender
      · cases hsender
      · exact ⟨.inr rfl, rfl⟩
  | some sender =>
    by_cases hown : sender = userId
    · subst hown
      have hfilter : (some sender).filter (· ≠ sender) = none := by simp
      rw [hfilter, Option.none_or]
      constructor
      · rintro ⟨-, hpeer⟩
        exact .inl (.inl ⟨rfl, Option.some.inj hpeer⟩)
      · rintro ((⟨-, rfl⟩ | ⟨hsender, rfl⟩) | ⟨-, hsender, -⟩)
        · exact ⟨.inl rfl, rfl⟩
        · exact ⟨.inl rfl, hsender⟩
        · cases hsender
    · have hfilter : (some sender).filter (· ≠ userId) = some sender := by simp [hown]
      rw [hfilter, Option.some_or]
      constructor
      · rintro ⟨hsender | rfl, hpeer⟩
        · exact absurd (Option.some.inj hsender) hown
        · exact .inl (.inr ⟨hpeer, rfl⟩)
      · rintro ((⟨hsender, -⟩ | ⟨hsender, rfl⟩) | ⟨-, hsender, -⟩)
        · exact absurd (Option.some.inj hsender) hown
        · exact ⟨.inr rfl, hsender⟩
        · cases hsender

/-- The rows of a group: those of the history, and the orphans in the user's own. -/
theorem mem_conversation_iff (h : Schema users rows) :
    msg ∈ conversation rows userId peerId ↔
      msg ∈ history rows userId peerId ∨ msg ∈ rows ∧ peerId = userId ∧ Orphan userId msg := by
  unfold conversation history inConversations peerOf Orphan
  rw [List.mem_filter, List.mem_filter, inHistory_iff, ← and_or_left]
  refine and_congr_right fun hrow => ?_
  have htarget := h.target msg hrow
  cases hrecipient : msg.recipientId with
  | none =>
    rw [hrecipient] at htarget
    rw [← htarget]
    simp
  | some recipient =>
    rw [hrecipient] at htarget
    have hpeer := peer_eq_some_iff msg.senderId recipient userId peerId
    rw [← htarget]
    simp only [Bool.and_eq_true, decide_eq_true_eq, Bool.not_eq_true', Option.isSome_some, and_true,
      Option.some.injEq]
    rw [and_right_comm, hpeer, or_and_right]
    refine or_congr_right ?_
    rw [and_assoc, and_assoc]

theorem lastAt_eq_some_iff {t : Time} : lastAt rows userId peerId = some t ↔
    (∃ msg ∈ conversation rows userId peerId, msg.createdAt = t) ∧
      ∀ msg ∈ conversation rows userId peerId, msg.createdAt ≤ t := by
  unfold lastAt
  rw [List.max?_eq_some_iff, List.mem_map]
  exact and_congr_right fun _ => List.forall_mem_map

theorem lastAt_isSome_iff : (lastAt rows userId peerId).isSome = true ↔
    conversation rows userId peerId ≠ [] := by
  unfold lastAt
  rw [List.isSome_max?_iff, ne_eq, List.map_eq_nil_iff]

/-- A page of a history is empty when the history is. -/
theorem isHistory_ne_nil {limit : ℕ} {messages : List Message} (hlimit : 1 ≤ limit)
    (h : IsHistory rows userId peerId none limit messages) :
    messages ≠ [] ↔ history rows userId peerId ≠ [] := by
  have hlength : messages.length = min limit (history rows userId peerId).length := h.2.2.1
  rw [← List.length_pos_iff, ← List.length_pos_iff, hlength]
  omega

theorem messageHistory_ne_nil {messages : List Message} :
    (∃ page, messageHistory users peerId messages = .ok page ∧ page ≠ []) ↔
      (users.byId peerId).isSome = true ∧ messages ≠ [] := by
  unfold messageHistory
  cases hpeer : users.byId peerId with
  | none => simp
  | some peer => simp

/-! ## The list -/

/-- The peers of the list are the answers to the query. -/
theorem map_peerId (h : IsConversations users rows userId peers) :
    (listConversations users rows online userId peers).map ConversationOut.peerId =
      peers.map Prod.fst := by
  have hall : ∀ p ∈ peers, (users.byId p.1).isSome = true := by
    intro p hp
    have hmem := h.1.mem_iff.mp (List.mem_map_of_mem hp)
    obtain ⟨user, huser, hid⟩ := List.mem_map.mp hmem
    rw [Option.isSome_iff_ne_none]
    intro hnone
    exact Table.find_eq_none.mp hnone user (List.mem_filter.mp huser).1 hid
  unfold listConversations
  clear h
  induction peers with
  | nil => rfl
  | cons p peers ih =>
    obtain ⟨peer, hpeer⟩ := Option.isSome_iff_exists.mp (hall p List.mem_cons_self)
    rw [List.filterMap_cons_some (by rw [hpeer]; rfl), List.map_cons, List.map_cons,
      ih fun q hq => hall q (List.mem_cons_of_mem p hq)]
    exact congrArg (· :: _) (Users.byId_id hpeer)

theorem lastMessageAt_eq {out : ConversationOut}
    (hout : out ∈ listConversations users rows online userId peers) :
    out.lastMessageAt = lastAt rows userId out.peerId := by
  obtain ⟨p, -, hsome⟩ := List.mem_filterMap.mp hout
  obtain ⟨peer, -, rfl⟩ := Option.map_eq_some_iff.mp hsome
  rfl

/-- Who is listed. -/
theorem listed_iff (online : UUID → Bool) (hschema : Schema users rows)
    (h : IsConversations users rows userId peers) :
    (∃ out ∈ listConversations users rows online userId peers, out.peerId = peerId) ↔
      (users.byId peerId).isSome = true ∧ conversation rows userId peerId ≠ [] := by
  rw [← List.mem_map, map_peerId h, h.1.mem_iff, List.mem_map]
  constructor
  · rintro ⟨user, huser, rfl⟩
    obtain ⟨hmem, hlast⟩ := List.mem_filter.mp huser
    have hfind : users.byId user.id = some user := Table.find_of_mem hschema.userIds hmem
    exact ⟨by rw [hfind]; rfl, lastAt_isSome_iff.mp hlast⟩
  · rintro ⟨hsome, hconv⟩
    obtain ⟨user, huser⟩ := Option.isSome_iff_exists.mp hsome
    have hid : user.id = peerId := Users.byId_id huser
    refine ⟨user, List.mem_filter.mpr ⟨Table.find_mem huser, ?_⟩, hid⟩
    rw [hid]
    exact lastAt_isSome_iff.mpr hconv

/-- When every orphan is hidden by a message of the history, the groups and the histories have
    the same newest moments. -/
theorem isNewest_lastAt (hschema : Schema users rows) (hhidden : OrphansHidden rows userId)
    (hnewest : IsNewest rows userId peerId msg) :
    lastAt rows userId peerId = some msg.createdAt := by
  rw [lastAt_eq_some_iff]
  refine ⟨⟨msg, (mem_conversation_iff hschema).mpr (.inl hnewest.1), rfl⟩, fun m hm => ?_⟩
  obtain hin | ⟨hrow, rfl, horphan⟩ := (mem_conversation_iff hschema).mp hm
  · exact hnewest.2 m hin
  · obtain ⟨own, hown, hle⟩ := hhidden m hrow horphan
    exact hle.trans (hnewest.2 own hown)

theorem conversation_ne_nil_iff (hschema : Schema users rows)
    (hhidden : OrphansHidden rows userId) :
    conversation rows userId peerId ≠ [] ↔ history rows userId peerId ≠ [] := by
  constructor
  · intro hconv
    obtain ⟨m, hm⟩ := List.exists_mem_of_ne_nil _ hconv
    obtain hin | ⟨hrow, rfl, horphan⟩ := (mem_conversation_iff hschema).mp hm
    · exact List.ne_nil_of_mem hin
    · obtain ⟨own, hown, -⟩ := hhidden m hrow horphan
      exact List.ne_nil_of_mem hown
  · intro hhist
    obtain ⟨m, hm⟩ := List.exists_mem_of_ne_nil _ hhist
    exact List.ne_nil_of_mem ((mem_conversation_iff hschema).mpr (.inl hm))

/-- The message of an answer to the query for `last_msg` is a newest one. -/
theorem isNewest_of_isLastMessage {last : Option UUID}
    (hlast : IsLastMessage rows userId peerId last) (hhist : history rows userId peerId ≠ []) :
    ∃ msg, last.bind rows.byId = some msg ∧ IsNewest rows userId peerId msg := by
  cases last with
  | none => exact absurd hlast hhist
  | some id =>
    obtain ⟨msg, hmsg, hselected, hmax⟩ := hlast
    exact ⟨msg, hmsg, hselected, hmax⟩

theorem agrees_of_hidden (hschema : Schema users rows) (h : IsConversations users rows userId peers)
    (hhidden : OrphansHidden rows userId) :
    ChatListAgrees users rows userId (listConversations users rows online userId peers) := by
  refine ⟨fun peerId limit messages hlimit _ hpage => ?_, ?_, fun out hout => ?_⟩
  · rw [listed_iff online hschema h, messageHistory_ne_nil, isHistory_ne_nil hlimit hpage,
      conversation_ne_nil_iff hschema hhidden]
  · rw [map_peerId h]
    exact (h.1.nodup_iff).mpr (List.Nodup.sublist (List.filter_sublist.map _) hschema.userIds)
  · obtain ⟨-, hconv⟩ := (listed_iff online hschema h).mp ⟨out, hout, rfl⟩
    obtain ⟨p, hp, hsome⟩ := List.mem_filterMap.mp hout
    obtain ⟨peer, hpeer, rfl⟩ := Option.map_eq_some_iff.mp hsome
    have hid : peer.id = p.1 := Users.byId_id hpeer
    rw [hid] at hconv ⊢
    obtain ⟨msg, hmsg, hnewest⟩ := isNewest_of_isLastMessage (h.2.2 p hp)
      ((conversation_ne_nil_iff hschema hhidden).mp hconv)
    exact ⟨msg, hnewest, isNewest_lastAt hschema hhidden hnewest, congrArg preview hmsg⟩

/-- The list of conversations agrees with the histories exactly when a newest message of the
    user to themself hides what the deleted accounts have sent. -/
theorem chatListAgrees_iff (hschema : Schema users rows)
    (h : IsConversations users rows userId peers) :
    ChatListAgrees users rows userId (listConversations users rows online userId peers) ↔
      OrphansHidden rows userId := by
  refine ⟨fun hagrees msg hrow horphan => ?_, agrees_of_hidden hschema h⟩
  have hmem : msg ∈ conversation rows userId userId :=
    (mem_conversation_iff hschema).mpr (.inr ⟨hrow, rfl, horphan⟩)
  obtain ⟨out, hout, hpeer⟩ := (listed_iff online hschema h).mpr
    ⟨hschema.recipient msg hrow userId horphan.2.1, List.ne_nil_of_mem hmem⟩
  obtain ⟨own, hnewest, hat, -⟩ := hagrees.newest out hout
  rw [lastMessageAt_eq hout, hpeer] at hat
  rw [hpeer] at hnewest
  exact ⟨own, hnewest.1, (lastAt_eq_some_iff.mp hat).2 msg hmem⟩

end

/-! ## A deleted account -/

/-- A message to `sampleUser` from an account that is deleted. -/
def orphan : Message :=
  { id := 1
    senderId := none
    recipientId := some 7
    groupId := none
    messageType := .TEXT
    contentCiphertext := some "c2VlIHlvdQ=="
    mediaObjectKey := none
    mediaMimeType := none
    status := .READ
    deliveredAt := none
    readAt := none
    isSelfDestruct := false
    destructAfterSeconds := none
    destructAt := none
    isDestructed := false
    deletedAt := none
    deletedForEveryone := false
    createdAt := 5 }

theorem schema_orphan : Schema [sampleUser] [orphan] where
  userIds := by decide
  messageIds := by decide
  target msg hmsg := by
    rw [List.mem_singleton.mp hmsg]
    rfl
  sender msg hmsg id hid := by
    rw [List.mem_singleton.mp hmsg] at hid
    cases hid
  recipient msg hmsg id hid := by
    rw [List.mem_singleton.mp hmsg] at hid
    rw [← Option.some.inj hid]
    decide

/-- The list of conversations shows the user's own name, with a message of nobody's history. -/
theorem orphan_listed : Schema [sampleUser] [orphan] ∧
    IsConversations [sampleUser] [orphan] 7 [(7, none)] ∧
    ¬ ChatListAgrees [sampleUser] [orphan] 7
      (listConversations [sampleUser] [orphan] (fun _ => false) 7 [(7, none)]) := by
  refine ⟨schema_orphan, by decide +kernel, fun hagrees => ?_⟩
  obtain ⟨msg, hnewest, -⟩ := hagrees.newest _ (List.mem_singleton.mpr rfl)
  have hempty : history [orphan] 7 7 = [] := by decide
  have hin : msg ∈ history [orphan] 7 7 := hnewest.1
  rw [hempty] at hin
  cases hin

theorem chatListAgrees_orphan : Schema [sampleUser] [orphan] ∧
    IsConversations [sampleUser] [orphan] 7 [(7, none)] ∧
    (ChatListAgrees [sampleUser] [orphan] 7
        (listConversations [sampleUser] [orphan] (fun _ => false) 7 [(7, none)]) ↔
      OrphansHidden [orphan] 7) :=
  have hconversations : IsConversations [sampleUser] [orphan] 7 [(7, none)] := by decide +kernel
  ⟨schema_orphan, hconversations, chatListAgrees_iff schema_orphan hconversations⟩

end IronLink.Messages
