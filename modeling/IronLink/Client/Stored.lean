import IronLink.Client.Line
import IronLink.Jobs.Announce

/-!
# Rows and acknowledgements

What the server stores for a frame, and the `ack` that says so.

Results:
* `SentBy.mono`, `SentBy.unique`: a message keeps its sender.
* `answers_ackFrame`: an `ack` names the ref and the row of the frame it answers.
-/

namespace IronLink.Client

open Lib Messages Ws

/-- `ChatMessage.fromJson` (frontend/lib/features/chat/chat_repository.dart:28-43) on
    the `MessageOut` of a row (app/api/routes/chats.py:29-39). -/
def ChatMessage.ofRow (myId : String) (msg : Message) : ChatMessage :=
  { id := msg.id.str
    senderId := (msg.senderId.map UUID.str).getD ""
    content := msg.contentCiphertext
    createdAt := msg.createdAt
    isMine := msg.senderId.map UUID.str = some myId
    tick := match msg.status with
      | .READ => .read
      | .DELIVERED => .delivered
      | _ => .sent
    deleted := msg.deletedForEveryone }

/-- The row of a message of `userId`. -/
def SentBy (rows : MessageRows) (id userId : UUID) : Prop :=
  ∃ msg, rows.byId id = some msg ∧ msg.senderId = some userId

section Rows

variable {rows rows' : MessageRows} {id userId userId' : UUID}

theorem SentBy.mono (h : SentBy rows id userId) (hgrows : Jobs.Grows rows rows') :
    SentBy rows' id userId := by
  obtain ⟨msg, hmsg, hsender⟩ := h
  obtain ⟨msg', hmsg', hkeeps⟩ := hgrows id msg hmsg
  exact ⟨msg', hmsg', hkeeps.sender.trans hsender⟩

theorem SentBy.unique (h : SentBy rows id userId) (h' : SentBy rows id userId') :
    userId = userId' := by
  obtain ⟨msg, hmsg, hsender⟩ := h
  obtain ⟨msg', hmsg', hsender'⟩ := h'
  obtain rfl := Option.some.inj (hmsg.symm.trans hmsg')
  exact Option.some.inj (hsender.symm.trans hsender')

theorem SentBy.ne_fresh {freshId : UUID} (h : SentBy rows id userId)
    (hfresh : rows.byId freshId = none) : id ≠ freshId := by
  rintro rfl
  obtain ⟨msg, hmsg, -⟩ := h
  rw [hfresh] at hmsg
  cases hmsg

theorem SentBy.isSome (h : SentBy rows id userId) : (rows.byId id).isSome = true := by
  obtain ⟨msg, hmsg, -⟩ := h
  exact Option.isSome_iff_exists.mpr ⟨msg, hmsg⟩

theorem sentBy_append {msg : Message} (hid : msg.id = id) (hsender : msg.senderId = some userId)
    (hfresh : rows.byId id = none) : SentBy (rows ++ [msg]) id userId := by
  refine ⟨msg, ?_, hsender⟩
  unfold MessageRows.byId at hfresh ⊢
  rw [Table.find_append, hfresh, Option.none_or, if_pos hid]

theorem grows_handleFrame (w : World) (userId : UUID) (connectionId : String) (fresh : NewRow)
    (frame : Frame) :
    Jobs.Grows w.messages (handleFrame w userId connectionId fresh frame).world.messages :=
  Jobs.grows_of_rowsStep (handleFrame_rows w userId connectionId fresh frame)

end Rows

theorem isSome_of_grows {rows rows' : MessageRows} (hgrows : Jobs.Grows rows rows') {id : UUID}
    (h : (rows.byId id).isSome = true) : (rows'.byId id).isSome = true := by
  obtain ⟨msg, hmsg⟩ := Option.isSome_iff_exists.mp h
  obtain ⟨msg', hmsg', -⟩ := hgrows id msg hmsg
  exact Option.isSome_iff_exists.mpr ⟨msg', hmsg'⟩

/-! ## Acknowledgements -/

/-- The row of a frame that was sent under a ref. -/
def storedFor (frame : Frame) (r : Handled) (freshId : UUID) : List (String × UUID) :=
  if (r.world.messages.byId freshId).isSome then (refOf frame).toList.map (·, freshId) else []

theorem storedFor_of_isSome {frame : Frame} {r : Handled} {freshId : UUID} {ref : String}
    (hrow : (r.world.messages.byId freshId).isSome = true) (href : refOf frame = some ref) :
    storedFor frame r freshId = [(ref, freshId)] := by
  unfold storedFor
  rw [if_pos hrow, href]
  rfl

theorem storedFor_of_none {frame : Frame} {r : Handled} {freshId : UUID}
    (hrow : r.world.messages.byId freshId = none) : storedFor frame r freshId = [] := by
  unfold storedFor
  rw [hrow]
  rfl

/-- If the frame is an `ack`, it answers a frame that was stored; `ref` says what
    a stored frame was sent under. -/
def Answers {κ : Type} (ref : κ → String) (stored : List (κ × UUID)) (f : Frame) : Prop :=
  ∀ frame msg, f = ackFrame frame msg →
    ∃ k, refOf frame = some (ref k) ∧ (k, msg.id) ∈ stored

section Answers

variable {κ : Type} {ref : κ → String} {stored : List (κ × UUID)}

theorem Answers.mono {stored' : List (κ × UUID)} {f : Frame} (h : Answers ref stored f)
    (hsub : stored ⊆ stored') : Answers ref stored' f := by
  intro frame msg heq
  obtain ⟨k, hk, hmem⟩ := h frame msg heq
  exact ⟨k, hk, hsub hmem⟩

theorem Answers.append {f : Frame} (h : Answers ref stored f) (more : List (κ × UUID)) :
    Answers ref (stored ++ more) f := h.mono (List.subset_append_left stored more)

theorem Calm.answers {chat : Chat} {f : Frame} (h : Calm chat f) : Answers ref stored f :=
  fun frame msg heq => absurd heq (h.noAck frame msg)

/-- An `ack` is told apart by its ref and its message. -/
theorem answers_ackFrame {frame : Frame} {msg : Message} {k : κ}
    (href : refOf frame = some (ref k)) (hmem : (k, msg.id) ∈ stored) :
    Answers ref stored (ackFrame frame msg) := by
  intro frame' msg' heq
  have hclient : Json.get frame "client_ref" = Json.get frame' "client_ref" := by
    have := congrArg (fun f => Json.get f "client_ref") heq
    exact this
  have hid : Json.str msg.id.str = Json.str msg'.id.str := by
    have := congrArg (fun f => Json.get f "message_id") heq
    exact this
  refine ⟨k, ?_, ?_⟩
  · unfold refOf at href ⊢
    rw [← hclient]
    exact href
  · rw [← UUID.str_injective (Json.str.inj hid)]
    exact hmem

theorem answers_messageFrame {frame : Frame} {userId : UUID} {msg : Message} :
    Answers ref stored (messageFrame frame userId msg) := by
  intro frame' msg' heq
  have htype := congrArg (fun f => asStr (Json.get f "type")) heq
  exact absurd (Option.some.inj htype) (by decide)

end Answers

end IronLink.Client
