import IronLink.Client.ChatBloc

/-!
# The frame protocol between client and server

The frames a room hands to `WsService`, dispatched by `_handle_frame`
(README_Sprint2.md:44-52). The client says `read` and `delivered` where the
server knows `message_read` and `message_delivered`, and it sends voice notes
under a kind of its own.

Results:
* `arrived_message_stays_unread`: the frames for a message that has arrived
  change nothing on the server and publish nothing.
* `message_not_receipted`: so the protocol is broken by the first message.
* `frames_understood_iff`: the runs in which every frame reaches the handler of
  its operation.
-/

namespace IronLink.Client

open Lib Messages Ws

variable {S : Type} (lib : Libsignal S) (keys : KeyServer) (chat : Chat)

/-! ## Agreement -/

/-- The id of the message `showMessage` shows. -/
def shownId (f : Frame) : Option String :=
  match asStr (Json.get f "message_id"), asStr (Json.get f "from"),
    asDateTime (Json.get f "created_at") with
  | some id, some _, some _ => some id
  | _, _, _ => none

/-- The message of the peer an action shows: at once, or, in a secret chat, when
    `decryptMessage` has answered. -/
def arrives (r : Room) : RoomAction → Option String
  | .event (.frameReceived f) _ =>
    if chat.isSecret = false ∧ asStr (Json.get f "type") = some "message" ∧
        asStr (Json.get f "from") = some chat.peerId ∧
        (Json.get f "content").asOptStr.isSome = true then shownId f
    else none
  | .resume i _ =>
    match r.waiting[i]? with
    | some (.decryption f _) => shownId f
    | _ => none
  | _ => none

/-- The server handles the frames in order. -/
def serve (w : World) (userId : UUID) (connectionId : String) (fresh : NewRow) :
    List WsCall → World × List Effect
  | [] => (w, [])
  | call :: calls =>
    let h := handleFrame w userId connectionId fresh call.frame
    let rest := serve h.world userId connectionId fresh calls
    (rest.1, h.effects ++ rest.2)

/-- Once the frames are handled the message is READ and its sender has the
    receipt. -/
def ReadAfter (calls : List WsCall) (messageId : String) : Prop :=
  ∀ (w : World) (userId id : UUID) (fresh : NewRow) (connectionId : String) (msg : Message),
    userId.str = chat.myId → id.str = messageId → w.messages.byId id = some msg →
      isParticipant w.groups msg userId = true →
      let served := serve w userId connectionId fresh calls
      (∃ row, served.1.messages.byId id = some row ∧ row.status = .READ) ∧
        ∀ senderId ∈ msg.senderId, Effect.publish senderId (receiptFrame id true) ∈ served.2

/-- Every frame of an action reaches the handler of its operation, and a message
    it shows is read. -/
def Agrees (r : Room) (a : RoomAction) : Prop :=
  (∀ call ∈ emitted lib keys chat r a, call.Dispatched) ∧
    ∀ messageId ∈ arrives chat r a, ReadAfter chat (emitted lib keys chat r a) messageId

/-- Media have a kind the server knows. -/
def Content.KindKnown : Content → Prop
  | .textSent _ => True
  | .mediaSent kind _ _ _ => kind ∈ mediaKinds

/-- No message of the peer is shown, the history holds no unread one, and the
    media that are sent have a known kind. -/
def Understood (r : Room) : RoomAction → Prop
  | .event (.contentSent e) _ => chat.isSecret = false → e.KindKnown
  | .event (.frameReceived f) now => arrives chat r (.event (.frameReceived f) now) = none
  | .resume i answer =>
    match r.waiting[i]? with
    | some .history => ∀ history ∈ answer.history.toOption, ∀ m ∈ history,
        m.isMine = true ∨ m.tick = .read
    | some (.encryption _ e) =>
      (encryptMessage lib chat.myId r.storage e.plaintext chat.peerId).1.isOk = true → e.KindKnown
    | some (.decryption f _) => shownId f = none
    | _ => True
  | _ => True

instance (e : Content) : Decidable e.KindKnown := by
  unfold Content.KindKnown
  split <;> infer_instance

instance (r : Room) : (a : RoomAction) → Decidable (Understood lib chat r a)
  | .event .chatOpened _ => isTrue trivial
  | .event (.contentSent _) _ => by unfold Understood; infer_instance
  | .event (.typingChanged _) _ => isTrue trivial
  | .event (.messageUnsent _) _ => isTrue trivial
  | .event (.frameReceived _) _ => by unfold Understood; infer_instance
  | .resume i answer => by unfold Understood; dsimp only; split <;> infer_instance
  | .store _ => isTrue trivial

/-! ## The frames of an arrived message -/

variable {lib keys chat} {r : Room} {a : RoomAction} {w : World}

/-- `read` and `delivered` are answered with an error. -/
theorem handleFrame_unsupported (userId : UUID) (fresh : NewRow) (connectionId : String)
    {frame : Frame}
    (h : branchOf (Json.get frame "type") = .unsupported) :
    handleFrame w userId connectionId fresh frame =
      ⟨w, [.send (errorFrame (.fmt "unsupported frame type: " (Json.get frame "type")))],
        false⟩ := by
  unfold handleFrame
  rw [h]

/-- The frames for a message that has arrived change nothing and publish
    nothing. -/
theorem arrived_message_stays_unread (w : World) (userId : UUID) (fresh : NewRow)
    (connectionId messageId : String) :
    let served :=
      serve w userId connectionId fresh [.sendDelivered messageId, .sendRead messageId]
    served.1 = w ∧ ∀ u payload, Effect.publish u payload ∉ served.2 := by
  have hdelivered := handleFrame_unsupported (w := w) userId fresh connectionId
    (sendDelivered_unsupported messageId)
  have hread := handleFrame_unsupported (w := w) userId fresh connectionId
    (sendRead_unsupported messageId)
  constructor
  · simp only [serve, WsCall.frame, hdelivered, hread]
  · intro u payload hmem
    simp only [serve, WsCall.frame, hdelivered, hread] at hmem
    simp at hmem

/-- User 7 in the room with user 1. -/
def sampleChat : Chat := ⟨(7 : UUID).str, (1 : UUID).str, false⟩

/-- A message of user 1 to user 7. -/
def sampleMessage : Message := newMessage 0 100 1 (some 7) none .TEXT (some "hi") none none none

/-- The room of user 7 shows the message, which stays unread. -/
theorem message_not_receipted :
    ¬ ∀ (lib : Libsignal String) (keys : KeyServer) (chat : Chat) (storage : Storage)
      (as : List RoomAction) (m : Room) (a : RoomAction) (m' : Room),
        Takes (roomStep lib keys chat) (Room.init storage) as m a m' →
          Agrees lib keys chat m a := by
  intro h
  let a : RoomAction :=
    .event (.frameReceived (messageFrame [("content", .str "hi")] 1 sampleMessage)) 0
  have hagrees := h sampleLib sampleKeys sampleChat (fun _ => none) [a] _ a _
    ⟨[], [], rfl, rfl, rfl⟩
  have harrives : arrives sampleChat (Room.init fun _ => none) a = some (100 : UUID).str := by
    decide +kernel
  have hemitted : emitted sampleLib sampleKeys sampleChat (Room.init fun _ => none) a =
      [.sendDelivered (100 : UUID).str, .sendRead (100 : UUID).str] := by
    decide +kernel
  have hread := hagrees.2 _ harrives { sampleWorld with messages := [sampleMessage] } 7 100 0 "c7"
    sampleMessage rfl rfl rfl rfl
  rw [hemitted] at hread
  obtain ⟨⟨row, hrow, hstatus⟩, -⟩ := hread
  rw [(arrived_message_stays_unread _ _ _ _ _).1] at hrow
  obtain rfl := Option.some.inj hrow
  cases hstatus

/-! ## Which actions agree -/

/-- The frames that show a message. -/
theorem showMessage_calls (bloc : ChatBloc) (storage : Storage) (f : Frame)
    (content : Option String) : (showMessage bloc storage f content).calls =
      match shownId f with
      | some id => [.sendDelivered id, .sendRead id]
      | none => [] := by
  unfold showMessage shownId
  cases asStr (Json.get f "message_id") <;> cases asStr (Json.get f "from") <;>
    cases asDateTime (Json.get f "created_at") <;> rfl

theorem showMessage_dispatched {bloc : ChatBloc} {storage : Storage} {f : Frame}
    {content : Option String} :
    (∀ call ∈ (showMessage bloc storage f content).calls, call.Dispatched) ↔ shownId f = none := by
  rw [showMessage_calls]
  cases shownId f with
  | none => simp
  | some id =>
    refine iff_of_false (fun h => ?_) (by simp)
    exact (dispatched_iff _).mp (h (.sendRead id) (by simp))

theorem finish_dispatched {bloc : ChatBloc} {storage : Storage} {now : Time} {ref : String}
    {ciphertext : Option String} (e : Content) :
    (∀ call ∈ (e.finish chat bloc storage now ref ciphertext).calls, call.Dispatched) ↔
      e.KindKnown := by
  cases e with
  | textSent content =>
    refine iff_of_true (fun call hcall => ?_) trivial
    obtain rfl := List.mem_singleton.mp hcall
    exact sendText_dispatched
  | mediaSent kind mediaKey mimeType caption =>
    constructor
    · intro h
      exact sendMedia_dispatched.mp (h _ List.mem_cons_self)
    · intro hkind call hcall
      obtain rfl := List.mem_singleton.mp hcall
      exact sendMedia_dispatched.mpr hkind

theorem history_dispatched {bloc : ChatBloc} {storage : Storage}
    {history : Except String (List ChatMessage)} :
    (∀ call ∈ (resumeHistory bloc storage history).calls, call.Dispatched) ↔
      ∀ messages ∈ history.toOption, ∀ m ∈ messages, m.isMine = true ∨ m.tick = .read := by
  cases history with
  | error err => simp [resumeHistory, ChatBloc.leave, Except.toOption]
  | ok messages =>
    simp only [resumeHistory, List.forall_mem_map, List.mem_filter, Except.toOption,
      Option.mem_def, Option.some.injEq, forall_eq']
    constructor
    · intro h m hm
      by_contra hunread
      rw [not_or] at hunread
      exact (dispatched_iff _).mp (h m ⟨hm, by simp [hunread]⟩)
    · rintro h m ⟨hm, hunread⟩
      rcases h m hm with hmine | hread
      · simp [hmine] at hunread
      · simp [hread] at hunread

/-- The frames of an incoming frame outside a secret chat. -/
theorem onFrame_dispatched (bloc : ChatBloc) (storage : Storage) (now : Time) (f : Frame) :
    (∀ call ∈ (onFrame chat bloc storage f).calls, call.Dispatched) ↔
      arrives chat r (.event (.frameReceived f) now) = none := by
  by_cases hmessage : asStr (Json.get f "type") = some "message"
  · have hcalls : (onFrame chat bloc storage f).calls = (onMessage chat bloc storage f).calls := by
      unfold onFrame
      rw [hmessage]
      rfl
    rw [hcalls]
    unfold onMessage arrives
    simp only [hmessage, true_and]
    by_cases hfrom : asStr (Json.get f "from") = some chat.peerId
    · cases hcontent : (Json.get f "content").asOptStr with
      | none => simp [hfrom, ChatBloc.leave]
      | some content =>
        by_cases hsecret : chat.isSecret = true
        · simp [hfrom, hsecret, ChatBloc.leave]
        · rw [Bool.not_eq_true] at hsecret
          simp only [hfrom, hsecret]
          simp [showMessage_dispatched]
    · simp [hfrom, ChatBloc.leave]
  · have hcalls : (onFrame chat bloc storage f).calls = [] := by
      unfold onFrame
      split <;> first | rfl | contradiction
    rw [hcalls]
    simp [arrives, hmessage]

theorem resumeDecryption_dispatched {bloc : ChatBloc} {storage : Storage} {f : Frame}
    {content : Option String} :
    (∀ call ∈ (resumeDecryption lib chat bloc storage f content).calls, call.Dispatched) ↔
      shownId f = none := by
  unfold resumeDecryption
  split <;> exact showMessage_dispatched

theorem resumeEncryption_dispatched {bloc : ChatBloc} {storage : Storage} {now : Time}
    {ref : String} (e : Content) :
    (∀ call ∈ (resumeEncryption lib chat bloc storage now ref e).calls, call.Dispatched) ↔
      ((encryptMessage lib chat.myId storage e.plaintext chat.peerId).1.isOk = true →
        e.KindKnown) := by
  unfold resumeEncryption
  split <;> rename_i henc
  · simp [henc, ChatBloc.leave, Except.isOk, Except.toBool]
  · simp only [henc, Except.isOk, Except.toBool, forall_const]
    exact finish_dispatched e

/-- Every frame of an action is dispatched if and only if the action is
    understood. -/
theorem dispatched_iff_understood :
    (∀ call ∈ emitted lib keys chat r a, call.Dispatched) ↔ Understood lib chat r a := by
  cases a with
  | event e now =>
    cases e with
    | chatOpened => exact iff_of_true (fun call hcall => by cases hcall) trivial
    | contentSent e =>
      show (∀ call ∈ (onContentSent chat r.bloc r.storage now e).calls, call.Dispatched) ↔
        (chat.isSecret = false → e.KindKnown)
      unfold onContentSent
      by_cases hsecret : chat.isSecret = true
      · simp [hsecret, ChatBloc.leave]
      · rw [Bool.not_eq_true] at hsecret
        simp only [hsecret, forall_const]
        exact finish_dispatched e
    | typingChanged typing => exact iff_of_true (fun call hcall => by cases hcall) trivial
    | messageUnsent messageId =>
      refine iff_of_true (fun call hcall => ?_) trivial
      obtain rfl := List.mem_singleton.mp hcall
      exact unsend_dispatched messageId
    | frameReceived f => exact onFrame_dispatched r.bloc r.storage now f
  | resume i answer =>
    simp only [emitted, segment, Understood]
    cases r.waiting[i]? with
    | none => simp
    | some p =>
      cases p with
      | history => exact history_dispatched
      | session ref e => exact iff_of_true (fun call hcall => by cases hcall) trivial
      | encryption ref e => exact resumeEncryption_dispatched e
      | decryption f content => exact resumeDecryption_dispatched
  | store storage => exact iff_of_true (fun call hcall => by cases hcall) trivial

/-- Nothing arrives in an action that is understood. -/
theorem arrives_eq_none (h : Understood lib chat r a) : arrives chat r a = none := by
  cases a with
  | event e now =>
    cases e with
    | frameReceived f => exact h
    | chatOpened => rfl
    | contentSent e => rfl
    | typingChanged typing => rfl
    | messageUnsent messageId => rfl
  | resume i answer =>
    simp only [Understood] at h
    simp only [arrives]
    cases hp : r.waiting[i]? with
    | none => rfl
    | some p =>
      rw [hp] at h
      cases p with
      | decryption f content => exact h
      | history => rfl
      | session ref e => rfl
      | encryption ref e => rfl
  | store storage => rfl

theorem agrees_iff_understood : Agrees lib keys chat r a ↔ Understood lib chat r a := by
  constructor
  · intro h
    exact dispatched_iff_understood.mp h.1
  · intro h
    refine ⟨dispatched_iff_understood.mpr h, fun messageId hmem => ?_⟩
    rw [arrives_eq_none h] at hmem
    cases hmem

/-! ## Runs -/

/-- **The frame protocol.** In a run of a room every frame reaches the handler of
    its operation, and every message shown is read, if and only if no message of
    the peer is shown, no unread one is in the history, and the media that are sent
    are texts, images or files. -/
theorem frames_understood_iff (lib : Libsignal S) (keys : KeyServer) (chat : Chat)
    (storage : Storage) (as : List RoomAction) (r : Room)
    (hr : run (roomStep lib keys chat) (Room.init storage) as = some r) :
    (∀ m a m', Takes (roomStep lib keys chat) (Room.init storage) as m a m' →
        Agrees lib keys chat m a) ↔
      Guarded (roomStep lib keys chat) (Understood lib chat) (Room.init storage) as := by
  rw [guarded_iff_takes hr]
  constructor
  · intro h m a m' ht
    exact agrees_iff_understood.mp (h m a m' ht)
  · intro h m a m' ht
    exact agrees_iff_understood.mpr (h m a m' ht)

/-- The user opens the room, sees an old message, writes, sends a picture and
    takes the text back. -/
def talkRun : List RoomAction :=
  [.event .chatOpened 0,
    .resume 0 ⟨.ok [⟨"m1", (1 : UUID).str, some "hi", 0, false, .read, false, false⟩],
      ⟨"", ""⟩, ⟨"", ""⟩, 0⟩,
    .event (.contentSent (.textSent "hello")) 1,
    .event (.contentSent (.mediaSent "image" "photo" "image/png" none)) 2,
    .event (.frameReceived [("type", .str "ack"), ("client_ref", .str "ref_1"),
      ("message_id", .str "m2"), ("created_at", .iso 1)]) 3,
    .event (.messageUnsent "m2") 4]

/-- All frames of `talkRun` are understood. -/
theorem talkRun_understood : ∃ r,
    run (roomStep sampleLib sampleKeys sampleChat) (Room.init fun _ => none) talkRun = some r ∧
      r.bloc.state.messages.map ChatMessage.id = ["m1", "m2", "ref_2"] ∧
      ∀ m a m', Takes (roomStep sampleLib sampleKeys sampleChat) (Room.init fun _ => none)
        talkRun m a m' → Agrees sampleLib sampleKeys sampleChat m a := by
  refine ⟨_, rfl, rfl, ?_⟩
  refine (frames_understood_iff sampleLib sampleKeys sampleChat _ talkRun _ rfl).mpr ?_
  decide +kernel

end IronLink.Client
