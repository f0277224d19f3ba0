import IronLink.Client.Stored
import IronLink.Lib.Replica

/-!
# Deleted bubbles

`_onUnsent` marks a bubble deleted and asks the server to retract the message; an
`unsend` frame marks it deleted, an `ack` and a `message` frame show it anew.
`_onFrame` has no case for the `error` frame of a refused request.

Results:
* `Moves.handles`: what a piece of a handler does to the bubbles of a message.
* `reports_handleFrame`: what the server tells of a message is true of its row,
  and a retraction is told to both.
-/

namespace IronLink.Client

open Lib Messages Ws

/-! ## Marks -/

/-- What a frame of the type does to the bubble it names: it marks it deleted, or
    shows it anew. -/
def typeMark : Option String → Option Bool
  | some "unsend" => some true
  | some "ack" => some false
  | some "message" => some false
  | _ => none

/-- What a frame does to the bubble `id`. -/
def mark (id : String) (f : Frame) : Option Bool :=
  if asStr (Json.get f "message_id") = some id then typeMark (asStr (Json.get f "type")) else none

/-- What an action does to the bubble `id` on behalf of the server. -/
def RoomAction.mark (id : String) : RoomAction → Option Bool
  | .event (.frameReceived f) _ => Client.mark id f
  | _ => none

/-- The bubble `id` is shown, deleted or not. -/
def Shows (messages : List ChatMessage) (id : String) (deleted : Bool) : Prop :=
  ∃ m ∈ messages, m.id = id ∧ m.deleted = deleted

instance (messages : List ChatMessage) (id : String) (deleted : Bool) :
    Decidable (Shows messages id deleted) :=
  inferInstanceAs (Decidable (∃ m ∈ messages, m.id = id ∧ m.deleted = deleted))

/-- The bubble `id` as a replica of `deleted_for_everyone`. -/
def Room.replica (room : Room) (outbox : List WsCall) (id : String) (marks : List Bool) :
    Replica where
  unset := Shows room.bloc.state.messages id false
  set := Shows room.bloc.state.messages id true
  asked := .unsend id ∈ outbox
  coming := 0 < room.decrypts id
  marks := marks

variable {chat : Chat} {room : Room} {action : RoomAction} {s : Segment} {u v : UUID}

theorem mark_notice {id : String} {f : Frame} (h : IsNotice f) : mark id f = none := by
  obtain ⟨t, ht, htype⟩ := h
  unfold mark
  rw [htype]
  simp only [noticeTypes, List.mem_cons, List.not_mem_nil, or_false] at ht
  obtain rfl | rfl | rfl | rfl | rfl | rfl := ht <;> exact ite_self none

/-- The mark of a frame about the row `v`, as its type has it. -/
theorem mark_of_type {f : Frame} {b : Bool} (hid : asStr (Json.get f "message_id") = some v.str)
    (htype : typeMark (asStr (Json.get f "type")) = some b) (u : UUID) :
    mark u.str f = if v = u then some b else none := by
  unfold mark
  rw [hid, htype]
  exact if_congr ⟨fun h => UUID.str_injective (Option.some.inj h), fun h => h ▸ rfl⟩ rfl rfl

theorem mark_ackFrame (frame : Frame) (msg : Message) (u : UUID) :
    mark u.str (ackFrame frame msg) = if msg.id = u then some false else none :=
  mark_of_type rfl rfl u

theorem mark_messageFrame (frame : Frame) (userId : UUID) (msg : Message) (u : UUID) :
    mark u.str (messageFrame frame userId msg) = if msg.id = u then some false else none :=
  mark_of_type rfl rfl u

theorem mark_unsendEvent (messageId u : UUID) :
    mark u.str (unsendEvent messageId) = if messageId = u then some true else none :=
  mark_of_type rfl rfl u

theorem mark_of_heard {id : String} (h : action.heard chat = some id) :
    action.mark id = some false := by
  unfold RoomAction.heard at h
  split at h
  · next f now =>
    show mark id f = some false
    unfold Chat.heard at h
    split_ifs at h with hmessage
    unfold mark
    rw [if_pos h, hmessage.1]
    rfl
  · cases h

/-! ## What a handler does to a bubble -/

section Shows

variable {messages messages' : List ChatMessage} {id : String} {deleted : Bool}

theorem shows_append (h : Shows (messages ++ messages') id deleted) :
    Shows messages id deleted ∨ Shows messages' id deleted := by
  obtain ⟨m, hm, hid⟩ := h
  obtain hm | hm := List.mem_append.mp hm
  · exact .inl ⟨m, hm, hid⟩
  · exact .inr ⟨m, hm, hid⟩

theorem shows_ticked {g : ChatMessage → MessageTick} (h : Shows (ticked g messages) id deleted) :
    Shows messages id deleted := by
  obtain ⟨m', hm', hid⟩ := h
  obtain ⟨m, hm, rfl⟩ := List.mem_map.mp hm'
  exact ⟨m, hm, hid⟩

theorem shows_confirmed {ref : Option String} {createdAt : Time}
    (h : Shows (messages.map (confirmed chat ref v.str createdAt)) u.str deleted) :
    Shows messages u.str deleted ∨ v = u ∧ deleted = false := by
  obtain ⟨m', hm', hid, hdeleted⟩ := h
  obtain ⟨m, hm, rfl⟩ := List.mem_map.mp hm'
  unfold confirmed at hid hdeleted
  split_ifs at hid hdeleted
  · exact .inr ⟨UUID.str_injective hid, hdeleted.symm⟩
  · exact .inl ⟨m, hm, hid, hdeleted⟩

theorem shows_tombstone {id' : String} (h : Shows (tombstone id' messages) id deleted) :
    id ≠ id' ∧ Shows messages id deleted ∨
      id = id' ∧ deleted = true ∧ ∃ before, Shows messages id before := by
  obtain ⟨m', hm', hid, hdeleted⟩ := h
  obtain ⟨m, hm, rfl⟩ := List.mem_map.mp hm'
  split_ifs at hid hdeleted with hm_id
  · exact .inr ⟨hid.symm.trans hm_id, hdeleted.symm, m.deleted, m, hm, hid, rfl⟩
  · exact .inl ⟨fun heq => hm_id (hid.trans heq), m, hm, hid, hdeleted⟩

/-- The bubble of a send has a reference for a name, which no message has. -/
theorem not_shows_optimistic {now : Time} {ref : ℕ} {content : String} :
    ¬ Shows [optimistic chat now (refName ref) content] u.str deleted := by
  rintro ⟨m, hm, hid, -⟩
  rw [List.mem_singleton.mp hm] at hid
  exact refName_ne_str ref u hid

theorem shows_arrivedBubble {userId : UUID} {msg : Message} {content : Option String}
    (h : Shows [arrivedBubble userId msg content] u.str deleted) :
    msg.id = u ∧ deleted = false := by
  obtain ⟨m, hm, hid, hdeleted⟩ := h
  rw [List.mem_singleton.mp hm] at hid hdeleted
  exact ⟨UUID.str_injective hid, hdeleted.symm⟩

end Shows

/-- A message that is sent is no retraction. -/
theorem mark_messageFrame_ne (frame : Frame) (userId : UUID) (msg : Message) (u : UUID) :
    mark u.str (messageFrame frame userId msg) ≠ some true := by
  rw [mark_messageFrame]
  split_ifs <;> simp

/-- Where a bubble that is shown comes from: it was shown as it is, a frame has
    changed it, it has been decrypted, or the user has retracted it. -/
theorem Moves.shows (hmoves : Moves chat room s action) (hanswered : room.answered action = none)
    {deleted : Bool} (h : Shows s.bloc.state.messages u.str deleted) :
    Shows room.bloc.state.messages u.str deleted ∧
        (deleted = false → action.mark u.str ≠ some true) ∨
      action.mark u.str = some deleted ∨
      deleted = false ∧ 0 < room.decrypts u.str ∨
      deleted = true ∧ Shows room.bloc.state.messages u.str false ∧ .unsend u.str ∈ s.calls := by
  have hsame : ∀ {messages k calls next}, Does s messages k calls next →
      Shows messages u.str deleted := fun hdoes => hdoes.messages ▸ h
  cases hmoves with
  | opened now hdoes => exact .inl ⟨hsame hdoes, fun _ hmark => (by cases hmark)⟩
  | sent e now content call hplain hcall hdoes =>
    obtain hold | hnew := shows_append (hsame hdoes)
    · exact .inl ⟨hold, fun _ hmark => (by cases hmark)⟩
    · exact absurd hnew not_shows_optimistic
  | sealing e now hsecret hdoes => exact .inl ⟨hsame hdoes, fun _ hmark => (by cases hmark)⟩
  | typed typing now hdoes => exact .inl ⟨hsame hdoes, fun _ hmark => (by cases hmark)⟩
  | unsent messageId now hdoes =>
    obtain ⟨-, hold⟩ | ⟨hid, rfl, before, hbefore⟩ := shows_tombstone (hsame hdoes)
    · exact .inl ⟨hold, fun _ hmark => (by cases hmark)⟩
    · cases before with
      | true => exact .inl ⟨hbefore, fun hfalse => (by cases hfalse)⟩
      | false =>
        refine .inr (.inr (.inr ⟨rfl, hbefore, ?_⟩))
        rw [hdoes.calls, hid]
        exact List.mem_singleton.mpr rfl
  | notice f now g hf hdoes =>
    refine .inl ⟨shows_ticked (hsame hdoes), fun _ => ?_⟩
    rw [show RoomAction.mark u.str (.event (.frameReceived f) now) = none from mark_notice hf]
    exact fun hmark => (by cases hmark)
  | ack frame msg now hdoes =>
    have hmark : RoomAction.mark u.str (.event (.frameReceived (ackFrame frame msg)) now) =
        if msg.id = u then some false else none := mark_ackFrame frame msg u
    obtain hold | ⟨hid, rfl⟩ := shows_confirmed (hsame hdoes)
    · refine .inl ⟨hold, fun _ => ?_⟩
      rw [hmark]
      split_ifs <;> simp
    · exact .inr (.inl (hmark.trans (if_pos hid)))
  | stranger frame userId msg now hfrom hdoes =>
    exact .inl ⟨hsame hdoes, fun _ => mark_messageFrame_ne frame userId msg u⟩
  | arrived frame userId msg content now hfrom hplain hdoes =>
    obtain hold | hnew := shows_append (hsame hdoes)
    · exact .inl ⟨hold, fun _ => mark_messageFrame_ne frame userId msg u⟩
    · obtain ⟨hid, rfl⟩ := shows_arrivedBubble hnew
      exact .inr (.inl ((mark_messageFrame frame userId msg u).trans (if_pos hid)))
  | sealed frame userId msg content now hfrom hsecret hdoes =>
    exact .inl ⟨hsame hdoes, fun _ => mark_messageFrame_ne frame userId msg u⟩
  | retracted messageId now hdoes =>
    have hmark : RoomAction.mark u.str (.event (.frameReceived (unsendEvent messageId)) now) =
        if messageId = u then some true else none := mark_unsendEvent messageId u
    obtain ⟨hne, hold⟩ | ⟨hid, rfl, -⟩ := shows_tombstone (hsame hdoes)
    · refine .inl ⟨hold, fun _ => ?_⟩
      rw [hmark, if_neg fun heq => hne (congrArg UUID.str heq).symm]
      exact fun hmark => (by cases hmark)
    · exact .inr (.inl (hmark.trans (if_pos (UUID.str_injective hid).symm)))
  | history i answer messages hi hanswer calls hcalls hdoes =>
    simp only [Room.answered, hi, hanswer] at hanswered
    cases hanswered
  | noHistory i answer err hi hanswer hdoes =>
    exact .inl ⟨hsame hdoes, fun _ hmark => (by cases hmark)⟩
  | session i answer n e hi hdoes => exact .inl ⟨hsame hdoes, fun _ hmark => (by cases hmark)⟩
  | encrypted i answer n e content call hi hcall hdoes =>
    obtain hold | hnew := shows_append (hsame hdoes)
    · exact .inl ⟨hold, fun _ hmark => (by cases hmark)⟩
    · exact absurd hnew not_shows_optimistic
  | notEncrypted i answer n e hi hdoes => exact .inl ⟨hsame hdoes, fun _ hmark => (by cases hmark)⟩
  | decrypted i answer frame userId msg content content' hi hdoes =>
    obtain hold | hnew := shows_append (hsame hdoes)
    · exact .inl ⟨hold, fun _ hmark => (by cases hmark)⟩
    · obtain ⟨hid, rfl⟩ := shows_arrivedBubble hnew
      refine .inr (.inr (.inl ⟨rfl, ?_⟩))
      refine List.countP_pos_iff.mpr ⟨_, List.mem_of_getElem? hi, ?_⟩
      rw [decrypts_messageFrame, hid]
      exact decide_eq_true rfl
  | stored storage hdoes => exact .inl ⟨hsame hdoes, fun _ hmark => (by cases hmark)⟩

/-- A message waits for its decryption since its frame has arrived. -/
theorem Turn.decrypts_pos {room' : Room} {refs : List String} {id : String}
    (hturn : Turn chat room room' refs action) (h : 0 < room'.decrypts id) :
    0 < room.decrypts id ∨ action.mark id = some false := by
  cases hturn with
  | own _ _ _ _ _ _ _ hdecrypts | ack _ _ _ _ _ hdecrypts | arrived _ _ _ _ _ _ hdecrypts
  | history _ _ _ _ _ _ hdecrypts => exact .inl (hdecrypts id ▸ h)
  | sealed _ u hheard hanswered hrests hnames hdecrypts =>
    by_cases hid : id = u.str
    · rw [hid]
      exact .inr (mark_of_heard hheard)
    · rw [hdecrypts, if_neg hid] at h
      exact .inl h
  | decrypted _ u hheard hanswered hrests hnames hdecrypts =>
    rw [hdecrypts]
    exact .inl (Nat.add_pos_left h _)

/-- A piece of a handler, as what it does to a replica. -/
theorem Moves.handles (hmoves : Moves chat room s action) (hanswered : room.answered action = none)
    (outbox : List WsCall) {marks marks' : List Bool}
    (hmarks : marks = (action.mark u.str).toList ++ marks') :
    Handles (room.replica outbox u.str marks)
      ((room.after action s).replica (outbox ++ s.calls) u.str marks') (action.mark u.str) := by
  refine ⟨hmarks, fun hunset => ?_, fun hset => ?_, fun hasked => List.mem_append_left _ hasked,
    fun hcoming => hmoves.turn.decrypts_pos hcoming⟩
  · obtain ⟨hold, hne⟩ | hmark | ⟨-, hcoming⟩ | ⟨hfalse, -⟩ := hmoves.shows hanswered hunset
    · exact .inl ⟨hold, hne rfl⟩
    · exact .inr (.inl hmark)
    · exact .inr (.inr hcoming)
    · cases hfalse
  · obtain ⟨hold, -⟩ | hmark | ⟨hfalse, -⟩ | ⟨-, hold, hcall⟩ := hmoves.shows hanswered hset
    · exact .inl hold
    · exact .inr (.inl hmark)
    · cases hfalse
    · exact .inr (.inr ⟨hold, List.mem_append_right _ hcall⟩)

/-! ## What the server tells of a row -/

/-- The message is deleted for everyone. -/
def Gone (rows : MessageRows) (u : UUID) : Prop :=
  ∃ row ∈ rows.byId u, row.deletedForEveryone = true

/-- The message is from or to the user. -/
def Concerns (rows : MessageRows) (u userId : UUID) : Prop :=
  ∃ row ∈ rows.byId u, row.senderId = some userId ∨ row.recipientId = some userId

/-- What the handler of a frame of `userId` does to row `u`, and tells of it: what
    it tells is true, and of a retraction it tells everybody concerned. -/
structure Reports (rows rows' : MessageRows) (userId u : UUID) (effects : List Effect) :
    Prop where
  gone : Gone rows u → Gone rows' u
  concerns : ∀ v, Concerns rows u v → Concerns rows' u v
  truth : ∀ effect ∈ effects, ∀ f ∈ effectFrame effect, ∀ b ∈ mark u.str f,
    (b = true ↔ Gone rows' u) ∧ SentBy rows' u userId
  sends : ∀ f, .send f ∈ effects → mark u.str f ≠ some true
  publishes : ∀ v f, .publish v f ∈ effects → mark u.str f ≠ none → Concerns rows' u v
  retracts : Gone rows' u → Gone rows u ∨ SentBy rows' u userId ∧
    ∀ v, Concerns rows' u v → .publish v (unsendEvent u) ∈ effects

section Reports

variable {rows rows' : MessageRows} {userId : UUID} {fresh : NewRow} {effects : List Effect}
  {msg : Message} {f : Message → Message}

theorem Gone.isSome (h : Gone rows u) : (rows.byId u).isSome = true := by
  obtain ⟨row, hrow, -⟩ := h
  exact Option.isSome_iff_exists.mpr ⟨row, hrow⟩

theorem SentBy.concerns (h : SentBy rows u userId) : Concerns rows u userId := by
  obtain ⟨row, hrow, hsender⟩ := h
  exact ⟨row, hrow, .inl hsender⟩

theorem Concerns.mono (h : Concerns rows u userId) (hgrows : Jobs.Grows rows rows') :
    Concerns rows' u userId := by
  obtain ⟨row, hrow, hparty⟩ := h
  obtain ⟨row', hrow', hkeeps⟩ := hgrows u row hrow
  exact ⟨row', hrow', by rw [hkeeps.sender, hkeeps.recipient]; exact hparty⟩

theorem byId_append (rows : MessageRows) (msg : Message) (u : UUID) :
    MessageRows.byId (rows ++ [msg]) u =
      (rows.byId u).or (if msg.id = u then some msg else none) :=
  Table.find_append rows msg u

/-- A receipt deletes nothing. -/
theorem gone_modify (hf : ∀ msg, (f msg).id = msg.id)
    (hkeep : ∀ msg, (f msg).deletedForEveryone = msg.deletedForEveryone) (k : UUID) :
    Gone (Table.modify Message.id rows k f) u ↔ Gone rows u := by
  constructor
  · rintro ⟨row', hrow', hgone⟩
    obtain ⟨row, hrow, rfl | rfl⟩ := byId_modify hf hrow'
    · exact ⟨row', hrow, hgone⟩
    · exact ⟨row, hrow, (hkeep row).symm.trans hgone⟩
  · rintro ⟨row, hrow, hgone⟩
    obtain ⟨row', hrow', rfl | rfl⟩ := byId_modify_of_some hf hrow k
    · exact ⟨row', hrow', hgone⟩
    · exact ⟨_, hrow', (hkeep row).trans hgone⟩

/-- A new message is not deleted. -/
theorem gone_append (hfresh : rows.byId msg.id = none) (hnew : msg.deletedForEveryone = false) :
    Gone (rows ++ [msg]) u ↔ Gone rows u := by
  unfold Gone
  rw [byId_append]
  by_cases hid : msg.id = u
  · subst hid
    rw [hfresh, if_pos rfl]
    constructor
    · rintro ⟨row, hrow, hgone⟩
      obtain rfl := Option.some.inj hrow
      rw [hnew] at hgone
      cases hgone
    · rintro ⟨row, hrow, -⟩
      cases hrow
  · rw [if_neg hid, Option.or_none]

theorem deletedForEveryone_read (now : Time) (msg : Message) :
    (Messages.read now msg).deletedForEveryone = msg.deletedForEveryone := by
  unfold Messages.read
  split_ifs <;> rfl

/-- Nothing happens to the row, and nothing is told of it. -/
theorem reports_nothing (hgrows : Jobs.Grows rows rows') (hgone : Gone rows' u ↔ Gone rows u)
    (hsilent : ∀ effect ∈ effects, ∀ f ∈ effectFrame effect, mark u.str f = none) :
    Reports rows rows' userId u effects where
  gone := hgone.mpr
  concerns := fun _ h => h.mono hgrows
  truth := fun effect heffect f hf b hb => by
    rw [hsilent effect heffect f hf] at hb
    cases hb
  sends := fun f hf => by
    rw [hsilent (.send f) hf f rfl]
    exact fun hmark => (by cases hmark)
  publishes := fun v f hf hmark => absurd (hsilent (.publish v f) hf f rfl) hmark
  retracts := fun h => .inl (hgone.mp h)

theorem mark_of_isNotice {effect : Effect} (h : effect.IsNotice) :
    ∀ f ∈ effectFrame effect, mark u.str f = none := by
  intro f hf
  cases effect with
  | send g => exact Option.some.inj hf ▸ mark_notice h
  | publish userId g => exact Option.some.inj hf ▸ mark_notice h
  | push fcmToken title body peerId => cases hf

/-- The message is new, and its sender and its recipient are told. -/
theorem reports_content {frame : Frame} {toId : UUID} {pushes : List Effect}
    (hid : msg.id = u) (hsender : msg.senderId = some userId)
    (hrecipient : msg.recipientId = some toId) (hnew : msg.deletedForEveryone = false)
    (hfresh : rows.byId u = none) (hnotice : ∀ effect ∈ pushes, effect.IsNotice)
    (hgrows : Jobs.Grows rows (rows ++ [msg])) :
    Reports rows (rows ++ [msg]) userId u
      (pushes ++ [.send (ackFrame frame msg), .publish toId (messageFrame frame userId msg)]) := by
  subst hid
  have hsent : SentBy (rows ++ [msg]) msg.id userId := sentBy_append rfl hsender hfresh
  have hgone : ¬ Gone (rows ++ [msg]) msg.id := by
    intro h
    have := ((gone_append hfresh hnew).mp h).isSome
    rw [hfresh] at this
    cases this
  have hack : mark msg.id.str (ackFrame frame msg) = some false := by
    rw [mark_ackFrame, if_pos rfl]
  have hmessage : mark msg.id.str (messageFrame frame userId msg) = some false := by
    rw [mark_messageFrame, if_pos rfl]
  have hframe : ∀ effect ∈ pushes ++
      [.send (ackFrame frame msg), .publish toId (messageFrame frame userId msg)],
      ∀ f ∈ effectFrame effect, mark msg.id.str f = none ∨ mark msg.id.str f = some false := by
    intro effect heffect f hf
    obtain heffect | heffect := List.mem_append.mp heffect
    · exact .inl (mark_of_isNotice (hnotice effect heffect) f hf)
    obtain rfl | heffect := List.mem_cons.mp heffect
    · exact .inr (Option.some.inj hf ▸ hack)
    · obtain rfl := List.mem_singleton.mp heffect
      exact .inr (Option.some.inj hf ▸ hmessage)
  refine ⟨fun h => absurd ((gone_append hfresh hnew).mpr h) hgone, fun _ h => h.mono hgrows, ?_, ?_,
    ?_, fun h => absurd h hgone⟩
  · intro effect heffect f hf b hb
    refine ⟨?_, hsent⟩
    obtain hnone | hfalse := hframe effect heffect f hf
    · rw [hnone] at hb
      cases hb
    · rw [hfalse] at hb
      obtain rfl := Option.some.inj hb
      exact iff_of_false Bool.false_ne_true hgone
  · intro f hf
    obtain hnone | hfalse := hframe _ hf f rfl
    · rw [hnone]
      exact fun hmark => (by cases hmark)
    · rw [hfalse]
      exact fun hmark => (by cases hmark)
  · intro v f hf hmark
    obtain hf | hf := List.mem_append.mp hf
    · exact absurd (mark_of_isNotice (hnotice _ hf) f rfl) hmark
    obtain hf | hf := List.mem_cons.mp hf
    · cases hf
    · obtain ⟨rfl, -⟩ := Effect.publish.inj (List.mem_singleton.mp hf)
      refine ⟨msg, ?_, .inr hrecipient⟩
      rw [Option.mem_def, byId_append, hfresh, if_pos rfl]
      rfl

/-- The message is deleted, and its sender and its recipient are told. -/
theorem reports_retract {now : Time} (hmsg : rows.byId u = some msg)
    (howner : msg.senderId = some userId)
    (hgrows : Jobs.Grows rows (Table.modify Message.id rows u (retract now))) :
    Reports rows (Table.modify Message.id rows u (retract now)) userId u
      (msg.recipientId.toList.map (.publish · (unsendEvent u)) ++
        [.publish userId (unsendEvent u)]) := by
  have hrow : MessageRows.byId (Table.modify Message.id rows u (retract now)) u =
      some (retract now msg) := by
    show Table.find Message.id (Table.modify Message.id rows u (retract now)) u = _
    rw [Table.find_modify_self (retract_id now)]
    exact congrArg _ hmsg
  have hgone : Gone (Table.modify Message.id rows u (retract now)) u := ⟨_, hrow, rfl⟩
  have hsent : SentBy (Table.modify Message.id rows u (retract now)) u userId :=
    ⟨_, hrow, howner⟩
  have hmark : mark u.str (unsendEvent u) = some true := by
    rw [mark_unsendEvent, if_pos rfl]
  have hpublish : ∀ effect : Effect, effect ∈
      msg.recipientId.toList.map (.publish · (unsendEvent u)) ++
        [.publish userId (unsendEvent u)] ↔
        ∃ v, (msg.senderId = some v ∨ msg.recipientId = some v) ∧
          effect = .publish v (unsendEvent u) := by
    intro effect
    rw [List.mem_append, List.mem_map, List.mem_singleton]
    constructor
    · rintro (⟨v, hv, rfl⟩ | rfl)
      · exact ⟨v, .inr (Option.mem_toList.mp hv), rfl⟩
      · exact ⟨userId, .inl howner, rfl⟩
    · rintro ⟨v, hv | hv, rfl⟩
      · rw [howner] at hv
        exact .inr (Option.some.inj hv ▸ rfl)
      · exact .inl ⟨v, Option.mem_toList.mpr hv, rfl⟩
  refine ⟨fun _ => hgone, fun _ h => h.mono hgrows, ?_, ?_, ?_, fun _ => .inr ⟨hsent, ?_⟩⟩
  · intro effect heffect f hf b hb
    obtain ⟨v, -, rfl⟩ := (hpublish effect).mp heffect
    rw [← Option.some.inj hf, hmark] at hb
    exact ⟨iff_of_true (Option.some.inj hb).symm hgone, hsent⟩
  · intro f hf
    obtain ⟨v, -, heq⟩ := (hpublish _).mp hf
    cases heq
  · intro v f hf _
    obtain ⟨v', hv', heq⟩ := (hpublish _).mp hf
    obtain ⟨rfl, -⟩ := Effect.publish.inj heq
    exact ⟨_, hrow, hv'⟩
  · rintro v ⟨row, hrow', hparty⟩
    obtain rfl := Option.some.inj (hrow.symm.trans hrow')
    exact (hpublish _).mpr ⟨v, hparty, rfl⟩

/-- What the server tells of any message when it handles a frame. -/
theorem reports_handleFrame (w : World) (userId : UUID) (connectionId : String) (fresh : NewRow)
    (frame : Frame) (u : UUID) :
    let r := handleFrame w userId connectionId fresh frame
    Reports w.messages r.world.messages userId u r.effects := by
  intro r
  have hgrows : Jobs.Grows w.messages r.world.messages :=
    grows_handleFrame w userId connectionId fresh frame
  have houtcome : Outcome w userId fresh frame r :=
    handleFrame_outcome w userId connectionId fresh frame
  clear_value r
  have hnotices : ∀ {effects : List Effect}, (∀ effect ∈ effects, effect.IsNotice) →
      ∀ effect ∈ effects, ∀ f ∈ effectFrame effect, mark u.str f = none :=
    fun hnotice effect heffect => mark_of_isNotice (hnotice effect heffect)
  cases houtcome with
  | quiet presence effects raised hnotice => exact reports_nothing hgrows Iff.rfl (hnotices hnotice)
  | receipt messageId f effects hf hnotice =>
    refine reports_nothing hgrows ?_ (hnotices hnotice)
    obtain rfl | rfl := hf
    · exact gone_modify (deliver_id w.now) (fun _ => rfl) messageId
    · exact gone_modify (read_id w.now) (deletedForEveryone_read w.now) messageId
  | content messageType toId msg pushes htype hto hmsg hfresh hnotice =>
    obtain ⟨content, _, _, _, -, -, -, -, rfl⟩ := contentRow_some hmsg
    by_cases hid : fresh = u
    · subst hid
      exact reports_content rfl rfl rfl rfl hfresh hnotice hgrows
    · refine reports_nothing hgrows (gone_append hfresh rfl) fun effect heffect f hf => ?_
      obtain heffect | heffect := List.mem_append.mp heffect
      · exact hnotices hnotice effect heffect f hf
      obtain rfl | heffect := List.mem_cons.mp heffect
      · rw [← Option.some.inj hf, mark_ackFrame]
        exact if_neg hid
      · obtain rfl := List.mem_singleton.mp heffect
        rw [← Option.some.inj hf, mark_messageFrame]
        exact if_neg hid
  | retract messageId msg htype hid hmsg howner hwindow =>
    by_cases hmu : messageId = u
    · subst hmu
      exact reports_retract hmsg howner hgrows
    · refine reports_nothing hgrows ?_ fun effect heffect f hf => ?_
      · unfold Gone
        rw [show MessageRows.byId (Table.modify Message.id w.messages messageId (retract w.now)) u =
          w.messages.byId u from Table.find_modify_of_ne (retract_id w.now) _ (Ne.symm hmu)]
      · have heq : f = unsendEvent messageId := by
          obtain heffect | heffect := List.mem_append.mp heffect
          · obtain ⟨_, -, rfl⟩ := List.mem_map.mp heffect
            exact (Option.some.inj hf).symm
          · rw [List.mem_singleton.mp heffect] at hf
            exact (Option.some.inj hf).symm
        rw [heq, mark_unsendEvent, if_neg hmu]

/-- The marks that reach `v`, as what a replica is told. -/
theorem Reports.tells (h : Reports rows rows' userId u effects) (v : UUID)
    (g : Effect → Option Frame) (hframe : ∀ effect, ∀ f ∈ g effect, f ∈ effectFrame effect)
    (hto : ∀ effect ∈ effects, ∀ f ∈ g effect, mark u.str f ≠ none → Concerns rows' u v)
    (hpublish : ∀ f, g (.publish v f) = some f) :
    Tells (Gone rows u) (Gone rows' u) (Concerns rows' u v)
      ((effects.filterMap g).filterMap (mark u.str)) := by
  have hmem : ∀ {b}, b ∈ (effects.filterMap g).filterMap (mark u.str) →
      ∃ effect ∈ effects, ∃ f ∈ g effect, b ∈ mark u.str f := by
    intro b hb
    obtain ⟨f, hf, hmark⟩ := List.mem_filterMap.mp hb
    obtain ⟨effect, heffect, hg⟩ := List.mem_filterMap.mp hf
    exact ⟨effect, heffect, f, hg, hmark⟩
  have htruth : ∀ {b}, b ∈ (effects.filterMap g).filterMap (mark u.str) →
      (b = true ↔ Gone rows' u) := by
    intro b hb
    obtain ⟨effect, heffect, f, hf, hmark⟩ := hmem hb
    exact (h.truth effect heffect f (hframe effect f hf) b hmark).1
  constructor
  · exact fun htrue => (htruth htrue).mp rfl
  · exact fun hfalse hgone => Bool.false_ne_true ((htruth hfalse).mpr hgone)
  · intro hne
    obtain ⟨b, hb⟩ := List.exists_mem_of_ne_nil _ hne
    obtain ⟨effect, heffect, f, hf, hmark⟩ := hmem hb
    refine hto effect heffect f hf fun hnone => ?_
    rw [hnone] at hmark
    cases hmark
  · intro hgone
    refine (h.retracts hgone).imp_right fun hall hconcerns => ?_
    apply List.ne_nil_of_mem (a := true)
    refine List.mem_filterMap.mpr ⟨unsendEvent u, ?_, ?_⟩
    · exact List.mem_filterMap.mpr ⟨_, hall.2 v hconcerns, hpublish _⟩
    · rw [mark_unsendEvent, if_pos rfl]

theorem Reports.tells_publishes (h : Reports rows rows' userId u effects) (v : UUID) :
    Tells (Gone rows u) (Gone rows' u) (Concerns rows' u v)
      ((effects.filterMap (Client.publishes v)).filterMap (mark u.str)) := by
  refine h.tells v _ (fun _ _ => effectFrame_of_publishes) (fun effect heffect f hf hmark => ?_)
    fun f => if_pos rfl
  cases effect with
  | publish toId g =>
    simp only [Client.publishes] at hf
    split_ifs at hf with hto
    · rw [hto] at heffect
      exact h.publishes v f (Option.some.inj hf ▸ heffect) hmark
    · cases hf
  | send g | push fcmToken title body peerId => cases hf

theorem Reports.tells_reaches (h : Reports rows rows' userId u effects) :
    Tells (Gone rows u) (Gone rows' u) (Concerns rows' u userId)
      ((effects.filterMap (reaches userId)).filterMap (mark u.str)) := by
  refine h.tells userId _ (fun _ _ => effectFrame_of_reaches) (fun effect heffect f hf hmark => ?_)
    fun f => if_pos rfl
  obtain ⟨b, hb⟩ := Option.ne_none_iff_exists'.mp hmark
  exact (h.truth effect heffect f (effectFrame_of_reaches hf) b hb).2.concerns

/-- All the frames are of the kinds a room knows. -/
theorem serverFrame_handleFrame (w : World) (userId : UUID) (connectionId : String)
    (fresh : NewRow) (frame : Frame) :
    ∀ effect ∈ (handleFrame w userId connectionId fresh frame).effects,
      ∀ f ∈ effectFrame effect, ServerFrame f := by
  intro effect heffect f hf
  have hhandling := handling w userId connectionId fresh frame
  generalize handleFrame w userId connectionId fresh frame = r at heffect hhandling
  cases hhandling with
  | content messageType toId msg content pushes htype hto hcontent hid hsender hfresh hrows hpushes
      heffects hraised =>
    obtain ⟨push, hpush, hframe⟩ | rfl | rfl := frame_of_content heffects heffect hf
    · exact (hpushes ⟨"", "", false⟩ push hpush f hframe).server
    · exact .ack frame msg
    · exact .message frame userId msg content hcontent
  | calm hnone hcalm => exact (hcalm ⟨"", "", false⟩ effect heffect f hf).server

end Reports

end IronLink.Client
