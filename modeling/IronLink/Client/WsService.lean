import IronLink.Ws.Frame

/-!
# The client's frames

The typed helpers of `WsService` (frontend/lib/core/ws_service.dart:62-103),
and the branch of `_handle_frame` each of them is written for.

Results:
* `sendText_dispatched`, `sendMedia_dispatched`, `sendTyping_dispatched`,
  `sendRead_unsupported`, `sendDelivered_unsupported`, `unsend_dispatched`:
  where the server dispatches each frame.
* `dispatched_iff`: the frames that reach the handler of their operation.
-/

namespace IronLink.Client

open Lib Messages Ws

/-! ## Model -/

/-- `sendText` (core/ws_service.dart:64-74). -/
def sendText (toId content clientRef : String) : Frame :=
  [("type", .str "text"), ("to", .str toId), ("content", .str content),
    ("client_ref", .str clientRef)]

/-- `sendMedia` (core/ws_service.dart:76-91). -/
def sendMedia (toId kind mediaKey mimeType : String) (caption : Option String)
    (clientRef : String) : Frame :=
  [("type", .str kind), ("to", .str toId), ("media_key", .str mediaKey),
    ("media_mime", .str mimeType), ("content", .ofOptStr caption), ("client_ref", .str clientRef)]

/-- `sendTyping` (core/ws_service.dart:93-94). -/
def sendTyping (toId : String) (typing : Bool) : Frame :=
  [("type", .str (if typing then "typing_start" else "typing_stop")), ("to", .str toId)]

/-- `sendRead` (core/ws_service.dart:96-97). -/
def sendRead (messageId : String) : Frame :=
  [("type", .str "read"), ("message_id", .str messageId)]

/-- `sendDelivered` (core/ws_service.dart:99-100). -/
def sendDelivered (messageId : String) : Frame :=
  [("type", .str "delivered"), ("message_id", .str messageId)]

/-- `unsend` (core/ws_service.dart:102-103). -/
def unsend (messageId : String) : Frame :=
  [("type", .str "unsend"), ("message_id", .str messageId)]

/-- A call of a typed helper. -/
inductive WsCall
  | sendText (toId content clientRef : String)
  | sendMedia (toId kind mediaKey mimeType : String) (caption : Option String) (clientRef : String)
  | sendTyping (toId : String) (typing : Bool)
  | sendRead (messageId : String)
  | sendDelivered (messageId : String)
  | unsend (messageId : String)
  deriving DecidableEq

/-- The frame the call puts on the socket. -/
def WsCall.frame : WsCall → Frame
  | .sendText toId content clientRef => Client.sendText toId content clientRef
  | .sendMedia toId kind mediaKey mimeType caption clientRef =>
    Client.sendMedia toId kind mediaKey mimeType caption clientRef
  | .sendTyping toId typing => Client.sendTyping toId typing
  | .sendRead messageId => Client.sendRead messageId
  | .sendDelivered messageId => Client.sendDelivered messageId
  | .unsend messageId => Client.unsend messageId

/-- The branch of `_handle_frame` that carries out the call's operation. -/
def WsCall.Handles : WsCall → Branch → Prop
  | .sendText _ _ _, branch => branch = .content .TEXT
  | .sendMedia _ kind _ _ _ _, branch => ∃ messageType, branch = .content messageType ∧
      messageType.value = kind
  | .sendTyping _ typing, branch =>
    branch = .typing (if typing then "typing_start" else "typing_stop")
  | .sendRead _, branch => branch = .receipt true
  | .sendDelivered _, branch => branch = .receipt false
  | .unsend _, branch => branch = .unsend

/-- The server dispatches the frame of the call to the handler of its operation. -/
def WsCall.Dispatched (call : WsCall) : Prop :=
  call.Handles (branchOf (Json.get call.frame "type"))

/-! ## Where the server dispatches the frames -/

/-- The kinds of media the server has a branch for. -/
def mediaKinds : List String := ["text", "image", "file"]

variable {toId content clientRef kind mediaKey mimeType : String} {caption : Option String}

theorem sendText_dispatched : (WsCall.sendText toId content clientRef).Dispatched := by
  show branchOf (.str "text") = .content .TEXT
  decide

theorem sendTyping_dispatched (typing : Bool) : (WsCall.sendTyping toId typing).Dispatched := by
  show branchOf (.str (if typing then "typing_start" else "typing_stop")) = _
  cases typing <;> decide

theorem unsend_dispatched (messageId : String) : (WsCall.unsend messageId).Dispatched := by
  show branchOf (.str "unsend") = .unsend
  decide

/-- The server knows `message_read`, not `read`. -/
theorem sendRead_unsupported (messageId : String) :
    branchOf (Json.get (sendRead messageId) "type") = .unsupported := by
  show branchOf (.str "read") = .unsupported
  decide

/-- The server knows `message_delivered`, not `delivered`. -/
theorem sendDelivered_unsupported (messageId : String) :
    branchOf (Json.get (sendDelivered messageId) "type") = .unsupported := by
  show branchOf (.str "delivered") = .unsupported
  decide

/-- The branch of a content type, and only of it. -/
theorem branchOf_content {messageType : MessageType}
    (h : branchOf (.str kind) = .content messageType) :
    messageType.value = kind ∧ kind ∈ mediaKinds := by
  unfold branchOf at h
  simp only at h
  split_ifs at h with h₁ h₂ h₃ h₄ h₅ h₆ h₇ h₈ h₉
  · obtain rfl := Branch.content.inj h
    exact ⟨h₄.symm, by simp [mediaKinds, h₄]⟩
  · obtain rfl := Branch.content.inj h
    exact ⟨h₅.symm, by simp [mediaKinds, h₅]⟩
  · obtain rfl := Branch.content.inj h
    exact ⟨h₆.symm, by simp [mediaKinds, h₆]⟩

theorem sendMedia_dispatched :
    (WsCall.sendMedia toId kind mediaKey mimeType caption clientRef).Dispatched ↔
      kind ∈ mediaKinds := by
  constructor
  · rintro ⟨messageType, hbranch, -⟩
    exact (branchOf_content hbranch).2
  · intro hkind
    show ∃ messageType, branchOf (.str kind) = .content messageType ∧ messageType.value = kind
    simp only [mediaKinds, List.mem_cons, List.not_mem_nil, or_false] at hkind
    rcases hkind with rfl | rfl | rfl
    · exact ⟨.TEXT, by decide, rfl⟩
    · exact ⟨.IMAGE, by decide, rfl⟩
    · exact ⟨.FILE, by decide, rfl⟩

/-- The frames that reach the handler of their operation. -/
def WsCall.Known : WsCall → Prop
  | .sendMedia _ kind _ _ _ _ => kind ∈ mediaKinds
  | .sendRead _ => False
  | .sendDelivered _ => False
  | _ => True

theorem dispatched_iff (call : WsCall) : call.Dispatched ↔ call.Known := by
  cases call with
  | sendText toId content clientRef => exact iff_of_true sendText_dispatched trivial
  | sendMedia toId kind mediaKey mimeType caption clientRef => exact sendMedia_dispatched
  | sendTyping toId typing => exact iff_of_true (sendTyping_dispatched typing) trivial
  | sendRead messageId =>
    refine iff_of_false (fun h => ?_) id
    have hread : branchOf (Json.get (sendRead messageId) "type") = .receipt true := h
    rw [sendRead_unsupported] at hread
    cases hread
  | sendDelivered messageId =>
    refine iff_of_false (fun h => ?_) id
    have hdelivered : branchOf (Json.get (sendDelivered messageId) "type") = .receipt false := h
    rw [sendDelivered_unsupported] at hdelivered
    cases hdelivered
  | unsend messageId => exact iff_of_true (unsend_dispatched messageId) trivial

end IronLink.Client
