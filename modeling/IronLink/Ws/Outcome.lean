import IronLink.Ws.Frame

/-!
# What a frame makes the server send

`_handle_frame` answers one frame in one of four ways: it stores a message,
acknowledges it and publishes it; it retracts one and publishes that; it records
a receipt; or it leaves the messages alone. Nothing else it sends concerns a
client's list of messages.

Results:
* `handleFrame_outcome`: these are all the outcomes.
* `handleFrame_retract`: a frame that retracts the user's own message in time has
  the second one.
-/

namespace IronLink.Ws

open Lib Auth Messages

/-- The types of frames that leave a client's list of messages as it is, ticks apart. -/
def noticeTypes : List String :=
  ["pong", "presence", "error", "typing_start", "typing_stop", "receipt"]

/-- A frame of such a type. -/
def IsNotice (f : Frame) : Prop := ∃ t ∈ noticeTypes, Json.get f "type" = .str t

/-- The effect sends no `ack`, `message` or `unsend` frame. -/
def Effect.IsNotice : Effect → Prop
  | .send f => Ws.IsNotice f
  | .publish _ payload => Ws.IsNotice payload
  | .push _ _ _ _ => True

inductive Outcome (w : World) (userId : UUID) (fresh : NewRow) (frame : Frame) : Handled → Prop
  | quiet (presence : Presence) (effects : List Effect) (raised : Bool)
      (hnotice : ∀ effect ∈ effects, effect.IsNotice) :
      Outcome w userId fresh frame ⟨{ w with presence := presence }, effects, raised⟩
  | content (messageType : MessageType) (toId : UUID) (msg : Message) (pushes : List Effect)
      (htype : branchOf (Json.get frame "type") = .content messageType)
      (hto : uuidOrNone (Json.get frame "to") = some toId)
      (hmsg : contentRow w.now fresh userId toId messageType frame = some msg)
      (hfresh : w.messages.byId fresh = none)
      (hnotice : ∀ effect ∈ pushes, effect.IsNotice) :
      Outcome w userId fresh frame
        ⟨{ w with messages := w.messages ++ [msg] },
          pushes ++ [.send (ackFrame frame msg), .publish toId (messageFrame frame userId msg)],
          false⟩
  | receipt (messageId : UUID) (f : Message → Message) (effects : List Effect)
      (hf : f = deliver w.now ∨ f = read w.now)
      (hnotice : ∀ effect ∈ effects, effect.IsNotice) :
      Outcome w userId fresh frame
        ⟨{ w with messages := Table.modify Message.id w.messages messageId f }, effects, false⟩
  | retract (messageId : UUID) (msg : Message)
      (htype : branchOf (Json.get frame "type") = .unsend)
      (hid : uuidOrNone (Json.get frame "message_id") = some messageId)
      (hmsg : w.messages.byId messageId = some msg) (howner : msg.senderId = some userId)
      (hwindow : w.now - msg.createdAt ≤ UNSEND_WINDOW) :
      Outcome w userId fresh frame
        ⟨{ w with messages := Table.modify Message.id w.messages messageId (retract w.now) },
          msg.recipientId.toList.map (.publish · (unsendEvent messageId)) ++
            [.publish userId (unsendEvent messageId)], false⟩

variable {w : World} {userId : UUID} {fresh : NewRow} {connectionId : String} {frame : Frame}

theorem isNotice_error (detail : Json) : IsNotice (errorFrame detail) :=
  ⟨"error", by decide, rfl⟩

theorem isNotice_receipt (messageId : UUID) (isRead : Bool) :
    IsNotice (receiptFrame messageId isRead) := ⟨"receipt", by decide, rfl⟩

theorem isNotice_offlinePush {toId : UUID} {messageType : MessageType} {content : Option String} :
    ∀ effect ∈ offlinePush w userId toId messageType content, effect.IsNotice := by
  intro effect heffect
  obtain ⟨fcmToken, title, body, peerId, rfl⟩ := push_of_mem_offlinePush heffect
  trivial

theorem branchOf_typing {json : Json} {frameType : String} (h : branchOf json = .typing frameType) :
    frameType = "typing_start" ∨ frameType = "typing_stop" := by
  unfold branchOf at h
  split at h
  · split_ifs at h with _ _ htyping
    obtain rfl := Branch.typing.inj h
    exact htyping
  · cases h

theorem handleContent_outcome {messageType : MessageType}
    (htype : branchOf (Json.get frame "type") = .content messageType) :
    Outcome w userId fresh frame (handleContent w userId fresh messageType frame) := by
  unfold handleContent
  split
  · exact .quiet w.presence _ _ (List.forall_mem_singleton.mpr (isNotice_error _))
  · next toId hto =>
    split
    · exact .quiet w.presence _ _ (by simp)
    · next msg hmsg =>
      split
      · exact .quiet w.presence _ _ (by simp)
      · next rows hrows =>
        obtain ⟨rfl, hfresh⟩ := saveMessage_rows hrows
        have hid : msg.id = fresh := by
          obtain ⟨_, _, _, _, -, -, -, -, rfl⟩ := contentRow_some hmsg
          rfl
        rw [hid] at hfresh
        refine .content messageType toId msg _ htype hto hmsg hfresh ?_
        split_ifs
        · exact fun effect heffect => absurd heffect List.not_mem_nil
        · exact isNotice_offlinePush

theorem handleReceipt_outcome (isRead : Bool) :
    Outcome w userId fresh frame (handleReceipt w userId isRead frame) := by
  unfold handleReceipt
  split
  · exact .quiet w.presence _ _ (by simp)
  · next messageId hid =>
    have hrows : ∀ f, (f = deliver w.now ∨ f = read w.now) →
        ∀ effects : List Effect, (∀ effect ∈ effects, effect.IsNotice) →
          Outcome w userId fresh frame
            ⟨{ w with messages := (receipt w.groups w.messages f messageId userId).1 }, effects,
              false⟩ := by
      intro f hf effects heffects
      rcases receipt_rows w.groups w.messages f messageId userId with h | ⟨-, h⟩
      · rw [h]
        exact .quiet w.presence effects false heffects
      · rw [h]
        exact .receipt messageId f effects hf heffects
    cases isRead with
    | true =>
      refine hrows _ (.inr rfl) _ ?_
      split
      · exact List.forall_mem_singleton.mpr (isNotice_receipt messageId true)
      · exact fun effect heffect => absurd heffect List.not_mem_nil
    | false =>
      refine hrows _ (.inl rfl) _ ?_
      split
      · exact List.forall_mem_singleton.mpr (isNotice_receipt messageId false)
      · exact fun effect heffect => absurd heffect List.not_mem_nil

theorem handleUnsend_outcome (htype : branchOf (Json.get frame "type") = .unsend) :
    Outcome w userId fresh frame (handleUnsend w userId frame) := by
  unfold handleUnsend
  split
  · exact .quiet w.presence _ _ (by simp)
  · next messageId hid =>
    split
    · exact .quiet w.presence _ _ (List.forall_mem_singleton.mpr (isNotice_error _))
    · next rows msg hok =>
      obtain ⟨row, hrow, howner, hwindow, heq⟩ := unsendMessage_rows hok
      obtain ⟨rfl, rfl⟩ := Prod.mk.inj heq
      exact .retract messageId row htype hid hrow howner hwindow

/-- Everything a frame can do to the messages, and send. -/
theorem handleFrame_outcome (w : World) (userId : UUID) (connectionId : String) (fresh : NewRow)
    (frame : Frame) :
    Outcome w userId fresh frame (handleFrame w userId connectionId fresh frame) := by
  unfold handleFrame
  split
  · exact .quiet _ _ _ (List.forall_mem_singleton.mpr ⟨"pong", by decide, rfl⟩)
  · exact .quiet w.presence _ _ (List.forall_mem_singleton.mpr ⟨"presence", by decide, rfl⟩)
  · next frameType htype =>
    split
    · exact .quiet w.presence _ _ (by simp)
    · refine .quiet w.presence _ _ (List.forall_mem_singleton.mpr ?_)
      obtain rfl | rfl := branchOf_typing htype
      · exact ⟨"typing_start", by decide, rfl⟩
      · exact ⟨"typing_stop", by decide, rfl⟩
  · next htype => exact handleContent_outcome htype
  · exact handleReceipt_outcome _
  · next htype => exact handleUnsend_outcome htype
  · exact .quiet w.presence _ _ (List.forall_mem_singleton.mpr (isNotice_error _))

/-- A user retracts a message of their own in time. -/
theorem handleFrame_retract {messageId : UUID} {msg : Message}
    (htype : branchOf (Json.get frame "type") = .unsend)
    (hid : uuidOrNone (Json.get frame "message_id") = some messageId)
    (hmsg : w.messages.byId messageId = some msg) (howner : msg.senderId = some userId)
    (hwindow : w.now - msg.createdAt ≤ UNSEND_WINDOW) :
    handleFrame w userId connectionId fresh frame =
      ⟨{ w with messages := Table.modify Message.id w.messages messageId (retract w.now) },
        msg.recipientId.toList.map (.publish · (unsendEvent messageId)) ++
          [.publish userId (unsendEvent messageId)], false⟩ := by
  unfold handleFrame
  rw [htype]
  show handleUnsend w userId frame = _
  unfold handleUnsend
  rw [hid]
  have hok : unsendMessage w.messages w.now messageId userId =
      .ok (Table.modify Message.id w.messages messageId (retract w.now), retract w.now msg) := by
    unfold unsendMessage
    rw [hmsg, Option.filter_some, if_pos (decide_eq_true howner)]
    exact if_neg (not_lt.mpr hwindow)
  simp only [hok]
  rfl

end IronLink.Ws
