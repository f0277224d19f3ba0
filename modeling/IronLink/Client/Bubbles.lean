import IronLink.Client.ChatBloc
import IronLink.Lib.Calls
import IronLink.Ws.Outcome

/-!
# What the handlers do to the bubbles

A room shows one bubble for each message: a sent one under its `ref_n`, until an
`ack` gives it the id of its row, every other one under that id.

Results:
* `does_notice`, `does_ack`, `does_message`, `does_unsend`: what a frame of the
  server does to the bubbles.
* `does_finish`: the end of a send shows one bubble and hands over one frame.
* `moves_of_segment`: everything a handler can do between two awaits.
* `Moves.turn`: the same, by the names of the bubbles.
* `RoomInv.after`: a ref is in use once at most, and no ref is the name of a row
  (`refName_ne_str`).
-/

namespace IronLink.Client

open Lib Messages Ws

/-! ## Names of bubbles -/

/-- `'ref_${n}'`. -/
def refName (n : ℕ) : String := "ref_" ++ toString n

theorem refName_toList (n : ℕ) :
    (refName n).toList = 'r' :: 'e' :: 'f' :: '_' :: (toString n).toList := by
  unfold refName
  rw [String.toList_append]
  rfl

theorem refName_injective {m n : ℕ} (h : refName m = refName n) : m = n := by
  have hlist := congrArg String.toList h
  rw [refName_toList, refName_toList] at hlist
  simp only [List.cons.injEq, true_and] at hlist
  -- a number is read back from its digits
  have hread := congrArg (fun digits => Nat.ofDigitChars 10 digits 0) hlist
  simpa [Nat.toString_eq_ofList_toDigits] using hread

theorem not_mem_str (u : UUID) : 'r' ∉ u.str.toList := by
  intro h
  obtain h | h := UUID.mem_str h
  · obtain ⟨d, hd, hchar⟩ := List.mem_map.mp h
    have hdigit : ∀ d < 16, UUID.hexChar d ≠ 'r' := by decide
    exact hdigit d (UUID.hexDigits_lt hd) hchar
  · exact absurd h (by decide)

theorem refName_ne_str (n : ℕ) (u : UUID) : refName n ≠ u.str := by
  intro h
  apply not_mem_str u
  rw [← h, refName_toList]
  exact List.mem_cons_self

/-! ## Segments -/

/-- What a piece of a handler leaves and hands over, as far as bubbles go. -/
structure Does (s : Segment) (messages : List ChatMessage) (refCounter : ℕ) (calls : List WsCall)
    (next : Option Pending) : Prop where
  messages : s.bloc.state.messages = messages
  refCounter : s.bloc.refCounter = refCounter
  calls : s.calls = calls
  next : s.next = next

/-- The bubbles with other ticks. -/
def ticked (g : ChatMessage → MessageTick) (messages : List ChatMessage) : List ChatMessage :=
  messages.map fun m => { m with tick := g m }

/-- The `client_ref` an `ack` of `frame` carries. -/
def refOf (frame : Frame) : Option String := (Json.get frame "client_ref").asOptStr.getD none

/-- The bubble `ref` becomes the message `id`. -/
def confirmed (chat : Chat) (ref : Option String) (id : String) (createdAt : Time)
    (m : ChatMessage) : ChatMessage :=
  if some m.id = ref then
    { id := id, senderId := chat.myId, content := m.content, createdAt := createdAt
      isMine := true }
  else m

/-- The bubble of a message that has arrived. -/
def arrivedBubble (userId : UUID) (msg : Message) (content : Option String) : ChatMessage :=
  { id := msg.id.str, senderId := userId.str, content := content, createdAt := msg.createdAt
    isMine := false }

section Frames

variable (chat : Chat) (bloc : ChatBloc) (storage : Storage)

theorem does_leave : Does (bloc.leave storage) bloc.state.messages bloc.refCounter [] none :=
  ⟨rfl, rfl, rfl, rfl⟩

theorem ticked_same (messages : List ChatMessage) : ticked ChatMessage.tick messages = messages :=
  List.map_id messages

theorem does_onTick (tick : MessageTick → MessageTick) (f : Frame) :
    ∃ g, Does ((onTick bloc tick f).leave storage) (ticked g bloc.state.messages) bloc.refCounter []
      none := by
  unfold onTick
  split
  · exact ⟨ChatMessage.tick, (ticked_same bloc.state.messages).symm, rfl, rfl, rfl⟩
  · next id _ =>
    refine ⟨fun m => if m.id = id then tick m.tick else m.tick, ?_, rfl, rfl, rfl⟩
    refine List.map_congr_left fun m _ => ?_
    by_cases hid : m.id = id
    · simp only [hid, if_true]
    · simp only [hid, if_false]

theorem does_onReceipt (f : Frame) :
    ∃ g, Does ((onReceipt bloc f).leave storage) (ticked g bloc.state.messages) bloc.refCounter []
      none := by
  unfold onReceipt
  split
  · exact does_onTick bloc storage _ f
  · exact does_onTick bloc storage _ f

theorem does_onTyping (typing : Bool) (f : Frame) :
    Does ((onTyping chat bloc typing f).leave storage) bloc.state.messages bloc.refCounter []
      none := by
  unfold onTyping
  split_ifs
  · exact ⟨rfl, rfl, rfl, rfl⟩
  · exact does_leave bloc storage

/-- Ticks at most change. -/
theorem does_notice {f : Frame} (h : IsNotice f) :
    ∃ g, Does (onFrame chat bloc storage f) (ticked g bloc.state.messages) bloc.refCounter []
      none := by
  obtain ⟨t, ht, htype⟩ := h
  have hsame : ∀ s, Does s bloc.state.messages bloc.refCounter [] none →
      ∃ g, Does s (ticked g bloc.state.messages) bloc.refCounter [] none := fun s hs =>
    ⟨ChatMessage.tick, (ticked_same bloc.state.messages).symm ▸ hs⟩
  unfold onFrame
  rw [htype]
  simp only [noticeTypes, List.mem_cons, List.not_mem_nil, or_false] at ht
  obtain rfl | rfl | rfl | rfl | rfl | rfl := ht
  · exact hsame _ (does_leave bloc storage)
  · exact hsame _ (does_leave bloc storage)
  · exact hsame _ (does_leave bloc storage)
  · exact hsame _ (does_onTyping chat bloc storage true f)
  · exact hsame _ (does_onTyping chat bloc storage false f)
  · exact does_onReceipt bloc storage f

/-- An `ack` confirms the bubble it names. -/
theorem does_ack (frame : Frame) (msg : Message) :
    Does (onFrame chat bloc storage (ackFrame frame msg))
      (bloc.state.messages.map (confirmed chat (refOf frame) msg.id.str msg.createdAt))
      bloc.refCounter [] none := by
  show Does ((onAck chat bloc (ackFrame frame msg)).leave storage) _ _ _ _
  have hconfirm : ∀ m, confirm chat (ackFrame frame msg) m = some
      { id := msg.id.str, senderId := chat.myId, content := m.content, createdAt := msg.createdAt
        isMine := true } := fun m => rfl
  have href : Json.get (ackFrame frame msg) "client_ref" = Json.get frame "client_ref" := rfl
  unfold onAck refOf
  rw [href]
  cases hclient : (Json.get frame "client_ref").asOptStr with
  | none =>
    refine ⟨?_, rfl, rfl, rfl⟩
    exact (List.map_id _).symm
  | some ref =>
    have hupdate : (fun m : ChatMessage =>
        if some m.id = ref then confirm chat (ackFrame frame msg) m else some m) =
          fun m => some (confirmed chat ref msg.id.str msg.createdAt m) := by
      funext m
      unfold confirmed
      split_ifs
      · exact hconfirm m
      · rfl
    have hmap : bloc.state.messages.mapM
        (fun m => some (confirmed chat ref msg.id.str msg.createdAt m)) =
        some (bloc.state.messages.map (confirmed chat ref msg.id.str msg.createdAt)) :=
      List.mapM_pure
    simp only [hupdate, hmap]
    exact ⟨rfl, rfl, rfl, rfl⟩

theorem does_showMessage (frame : Frame) (userId : UUID) (msg : Message)
    (content : Option String) :
    Does (showMessage bloc storage (messageFrame frame userId msg) content)
      (bloc.state.messages ++ [arrivedBubble userId msg content]) bloc.refCounter
      [.sendDelivered msg.id.str, .sendRead msg.id.str] none :=
  ⟨rfl, rfl, rfl, rfl⟩

/-- A message of the peer is shown, in a secret chat once it is decrypted; one of
    somebody else is not. -/
theorem does_message (frame : Frame) (userId : UUID) (msg : Message) {content : Option String}
    (hcontent : (Json.get frame "content").asOptStr = some content) :
    (userId.str ≠ chat.peerId ∧
      Does (onFrame chat bloc storage (messageFrame frame userId msg)) bloc.state.messages
        bloc.refCounter [] none) ∨
    (userId.str = chat.peerId ∧ chat.isSecret = false ∧
      Does (onFrame chat bloc storage (messageFrame frame userId msg))
        (bloc.state.messages ++ [arrivedBubble userId msg content]) bloc.refCounter
        [.sendDelivered msg.id.str, .sendRead msg.id.str] none) ∨
    (userId.str = chat.peerId ∧ chat.isSecret = true ∧
      Does (onFrame chat bloc storage (messageFrame frame userId msg)) bloc.state.messages
        bloc.refCounter [] (some (.decryption (messageFrame frame userId msg) content))) := by
  have hframe : onFrame chat bloc storage (messageFrame frame userId msg) =
      onMessage chat bloc storage (messageFrame frame userId msg) := rfl
  have hfrom : asStr (Json.get (messageFrame frame userId msg) "from") = some userId.str := rfl
  have hget : Json.get (messageFrame frame userId msg) "content" = Json.get frame "content" := rfl
  rw [hframe]
  unfold onMessage
  rw [hfrom, hget, hcontent]
  by_cases hpeer : userId.str = chat.peerId
  · right
    rw [if_pos (congrArg some hpeer)]
    cases hsecret : chat.isSecret with
    | false => exact .inl ⟨hpeer, rfl, does_showMessage bloc storage frame userId msg content⟩
    | true => exact .inr ⟨hpeer, rfl, rfl, rfl, rfl, rfl⟩
  · left
    rw [if_neg fun h => hpeer (Option.some.inj h)]
    exact ⟨hpeer, does_leave bloc storage⟩

/-- An `unsend` frame marks the bubble it names. -/
theorem does_unsend (messageId : UUID) :
    Does (onFrame chat bloc storage (unsendEvent messageId))
      (tombstone messageId.str bloc.state.messages) bloc.refCounter [] none :=
  ⟨rfl, rfl, rfl, rfl⟩

end Frames

/-! ## Sending -/

/-- The `client_ref` of a call that sends a message. -/
def WsCall.clientRef : WsCall → Option String
  | .sendText _ _ clientRef => some clientRef
  | .sendMedia _ _ _ _ _ clientRef => some clientRef
  | _ => none

/-- A send ends with one bubble and one frame under the same ref. -/
theorem does_finish (chat : Chat) (bloc : ChatBloc) (storage : Storage) (now : Time) (ref : String)
    (ciphertext : Option String) (e : Content) :
    ∃ content call, call.clientRef = some ref ∧
      Does (e.finish chat bloc storage now ref ciphertext)
        (bloc.state.messages ++ [optimistic chat now ref content]) bloc.refCounter [call] none := by
  cases e with
  | textSent content => exact ⟨_, _, rfl, rfl, rfl, rfl, rfl⟩
  | mediaSent kind mediaKey mimeType caption => exact ⟨_, _, rfl, rfl, rfl, rfl, rfl⟩

/-- A frame that sends a message carries the call's ref. -/
theorem clientRef_of_content {call : WsCall} {messageType : MessageType}
    (h : branchOf (Json.get call.frame "type") = .content messageType) :
    ∃ ref, call.clientRef = some ref ∧ refOf call.frame = some ref := by
  cases call with
  | sendText toId content clientRef => exact ⟨clientRef, rfl, rfl⟩
  | sendMedia toId kind mediaKey mimeType caption clientRef => exact ⟨clientRef, rfl, rfl⟩
  | sendTyping toId typing =>
    have hbranch : branchOf (Json.get (WsCall.sendTyping toId typing).frame "type") =
        .typing (if typing then "typing_start" else "typing_stop") := sendTyping_dispatched typing
    rw [hbranch] at h
    cases h
  | sendRead messageId =>
    have hbranch : branchOf (Json.get (WsCall.sendRead messageId).frame "type") = .unsupported :=
      sendRead_unsupported messageId
    rw [hbranch] at h
    cases h
  | sendDelivered messageId =>
    have hbranch : branchOf (Json.get (WsCall.sendDelivered messageId).frame "type") =
        .unsupported := sendDelivered_unsupported messageId
    rw [hbranch] at h
    cases h
  | unsend messageId =>
    have hbranch : branchOf (Json.get (WsCall.unsend messageId).frame "type") = .unsend :=
      unsend_dispatched messageId
    rw [hbranch] at h
    cases h

/-! ## Everything a room can do -/

/-- A frame the server sends. -/
inductive ServerFrame : Frame → Prop
  | notice (f : Frame) (h : IsNotice f) : ServerFrame f
  | ack (frame : Frame) (msg : Message) : ServerFrame (ackFrame frame msg)
  | message (frame : Frame) (userId : UUID) (msg : Message) (content : Option String)
      (h : (Json.get frame "content").asOptStr = some content) :
      ServerFrame (messageFrame frame userId msg)
  | unsend (messageId : UUID) : ServerFrame (unsendEvent messageId)

/-- The name of a row, as the server prints it. -/
def NamesRow (id : String) : Prop := ∃ u : UUID, id = u.str

/-- What a waiting handler holds: refs of its own, messages of the server. -/
inductive Pending.Sound : Pending → Prop
  | history : Sound .history
  | session (n : ℕ) (e : Content) : Sound (.session (refName n) e)
  | encryption (n : ℕ) (e : Content) : Sound (.encryption (refName n) e)
  | decryption (frame : Frame) (userId : UUID) (msg : Message) (content : Option String) :
      Sound (.decryption (messageFrame frame userId msg) content)

/-- The history an action shows. -/
def Room.answered (room : Room) : RoomAction → Option (List ChatMessage)
  | .resume i answer =>
    match room.waiting[i]?, answer.history with
    | some .history, .ok messages => some messages
    | _, _ => none
  | _ => none

/-- The frames come from the server, and so do the ids in a history. -/
structure Admissible (room : Room) (action : RoomAction) : Prop where
  frame : ∀ f now, action = .event (.frameReceived f) now → ServerFrame f
  history : ∀ messages ∈ room.answered action, ∀ m ∈ messages, NamesRow m.id

/-- A piece of a handler, whatever runs: what it does to the bubbles. -/
inductive Moves (chat : Chat) (room : Room) (s : Segment) : RoomAction → Prop
  | opened (now : Time)
      (h : Does s room.bloc.state.messages room.bloc.refCounter [] (some .history)) :
      Moves chat room s (.event .chatOpened now)
  | sent (e : Content) (now : Time) (content : String) (call : WsCall)
      (hplain : chat.isSecret = false)
      (hcall : call.clientRef = some (refName (room.bloc.refCounter + 1)))
      (h : Does s (room.bloc.state.messages ++
        [optimistic chat now (refName (room.bloc.refCounter + 1)) content])
        (room.bloc.refCounter + 1) [call] none) :
      Moves chat room s (.event (.contentSent e) now)
  | sealing (e : Content) (now : Time) (hsecret : chat.isSecret = true)
      (h : Does s room.bloc.state.messages (room.bloc.refCounter + 1) []
        (some (.session (refName (room.bloc.refCounter + 1)) e))) :
      Moves chat room s (.event (.contentSent e) now)
  | typed (typing : Bool) (now : Time)
      (h : Does s room.bloc.state.messages room.bloc.refCounter [] none) :
      Moves chat room s (.event (.typingChanged typing) now)
  | unsent (messageId : String) (now : Time)
      (h : Does s (tombstone messageId room.bloc.state.messages) room.bloc.refCounter
        [.unsend messageId] none) :
      Moves chat room s (.event (.messageUnsent messageId) now)
  | notice (f : Frame) (now : Time) (g : ChatMessage → MessageTick)
      (hf : IsNotice f)
      (h : Does s (ticked g room.bloc.state.messages) room.bloc.refCounter [] none) :
      Moves chat room s (.event (.frameReceived f) now)
  | ack (frame : Frame) (msg : Message) (now : Time)
      (h : Does s (room.bloc.state.messages.map
        (confirmed chat (refOf frame) msg.id.str msg.createdAt)) room.bloc.refCounter [] none) :
      Moves chat room s (.event (.frameReceived (ackFrame frame msg)) now)
  | stranger (frame : Frame) (userId : UUID) (msg : Message) (now : Time)
      (hfrom : userId.str ≠ chat.peerId)
      (h : Does s room.bloc.state.messages room.bloc.refCounter [] none) :
      Moves chat room s (.event (.frameReceived (messageFrame frame userId msg)) now)
  | arrived (frame : Frame) (userId : UUID) (msg : Message)
      (content : Option String) (now : Time) (hfrom : userId.str = chat.peerId)
      (hplain : chat.isSecret = false)
      (h : Does s (room.bloc.state.messages ++ [arrivedBubble userId msg content])
        room.bloc.refCounter [.sendDelivered msg.id.str, .sendRead msg.id.str] none) :
      Moves chat room s (.event (.frameReceived (messageFrame frame userId msg)) now)
  | sealed (frame : Frame) (userId : UUID) (msg : Message)
      (content : Option String) (now : Time) (hfrom : userId.str = chat.peerId)
      (hsecret : chat.isSecret = true)
      (h : Does s room.bloc.state.messages room.bloc.refCounter []
        (some (.decryption (messageFrame frame userId msg) content))) :
      Moves chat room s (.event (.frameReceived (messageFrame frame userId msg)) now)
  | retracted (messageId : UUID) (now : Time)
      (h : Does s (tombstone messageId.str room.bloc.state.messages) room.bloc.refCounter [] none) :
      Moves chat room s (.event (.frameReceived (unsendEvent messageId)) now)
  | history (i : ℕ) (answer : Answer) (messages : List ChatMessage)
      (hi : room.waiting[i]? = some .history) (hanswer : answer.history = .ok messages)
      (calls : List WsCall) (hcalls : ∀ call ∈ calls, ∃ id, call = .sendRead id)
      (h : Does s messages room.bloc.refCounter calls none) :
      Moves chat room s (.resume i answer)
  | noHistory (i : ℕ) (answer : Answer) (err : String)
      (hi : room.waiting[i]? = some .history) (hanswer : answer.history = .error err)
      (h : Does s room.bloc.state.messages room.bloc.refCounter [] none) :
      Moves chat room s (.resume i answer)
  | session (i : ℕ) (answer : Answer) (n : ℕ) (e : Content)
      (hi : room.waiting[i]? = some (.session (refName n) e))
      (h : Does s room.bloc.state.messages room.bloc.refCounter []
        (some (.encryption (refName n) e))) :
      Moves chat room s (.resume i answer)
  | encrypted (i : ℕ) (answer : Answer) (n : ℕ) (e : Content) (content : String)
      (call : WsCall) (hi : room.waiting[i]? = some (.encryption (refName n) e))
      (hcall : call.clientRef = some (refName n))
      (h : Does s (room.bloc.state.messages ++ [optimistic chat answer.now (refName n) content])
        room.bloc.refCounter [call] none) :
      Moves chat room s (.resume i answer)
  | notEncrypted (i : ℕ) (answer : Answer) (n : ℕ) (e : Content)
      (hi : room.waiting[i]? = some (.encryption (refName n) e))
      (h : Does s room.bloc.state.messages room.bloc.refCounter [] none) :
      Moves chat room s (.resume i answer)
  | decrypted (i : ℕ) (answer : Answer) (frame : Frame) (userId : UUID)
      (msg : Message) (content content' : Option String)
      (hi : room.waiting[i]? = some (.decryption (messageFrame frame userId msg) content))
      (h : Does s (room.bloc.state.messages ++ [arrivedBubble userId msg content'])
        room.bloc.refCounter [.sendDelivered msg.id.str, .sendRead msg.id.str] none) :
      Moves chat room s (.resume i answer)
  | stored (storage : Storage)
      (h : Does s room.bloc.state.messages room.bloc.refCounter [] none) :
      Moves chat room s (.store storage)

variable {S : Type} {lib : Libsignal S} {keys : KeyServer} {chat : Chat} {room : Room}
  {action : RoomAction} {s : Segment}

theorem moves_event {e : ChatEvent} {now : Time} (hin : Admissible room (.event e now)) :
    Moves chat room (handle chat room.bloc room.storage now e) (.event e now) := by
  cases e with
  | chatOpened => exact .opened now ⟨rfl, rfl, rfl, rfl⟩
  | contentSent e =>
    show Moves chat room (onContentSent chat room.bloc room.storage now e) _
    unfold onContentSent
    cases hsecret : chat.isSecret with
    | true => exact .sealing e now hsecret ⟨rfl, rfl, rfl, rfl⟩
    | false =>
      obtain ⟨content, call, hcall, h⟩ := does_finish chat
        { room.bloc with refCounter := room.bloc.refCounter + 1 } room.storage now
        (refName (room.bloc.refCounter + 1)) none e
      exact .sent e now content call hsecret hcall h
  | typingChanged typing => exact .typed typing now ⟨rfl, rfl, rfl, rfl⟩
  | messageUnsent messageId => exact .unsent messageId now ⟨rfl, rfl, rfl, rfl⟩
  | frameReceived f =>
    have hserver : ServerFrame f := hin.frame f now rfl
    cases hserver with
    | notice f hf =>
      obtain ⟨g, h⟩ := does_notice chat room.bloc room.storage hf
      exact .notice f now g hf h
    | ack frame msg => exact .ack frame msg now (does_ack chat room.bloc room.storage frame msg)
    | message frame userId msg content hcontent =>
      obtain ⟨hfrom, h⟩ | ⟨hfrom, hplain, h⟩ | ⟨hfrom, hsecret, h⟩ :=
        does_message chat room.bloc room.storage frame userId msg hcontent
      · exact .stranger frame userId msg now hfrom h
      · exact .arrived frame userId msg content now hfrom hplain h
      · exact .sealed frame userId msg content now hfrom hsecret h
    | unsend messageId =>
      exact .retracted messageId now (does_unsend chat room.bloc room.storage messageId)

theorem moves_resume {i : ℕ} {answer : Answer} {p : Pending} (hi : room.waiting[i]? = some p)
    (hsound : p.Sound) :
    Moves chat room (resume lib keys chat room.bloc room.storage answer p) (.resume i answer) := by
  cases hsound with
  | history =>
    show Moves chat room (resumeHistory room.bloc room.storage answer.history) _
    cases hanswer : answer.history with
    | error err => exact .noHistory i answer err hi hanswer ⟨rfl, rfl, rfl, rfl⟩
    | ok messages =>
      refine .history i answer messages hi hanswer _ (fun call hcall => ?_) ⟨rfl, rfl, rfl, rfl⟩
      obtain ⟨m, -, rfl⟩ := List.mem_map.mp hcall
      exact ⟨m.id, rfl⟩
  | session n e => exact .session i answer n e hi ⟨rfl, rfl, rfl, rfl⟩
  | encryption n e =>
    show Moves chat room
      (resumeEncryption lib chat room.bloc room.storage answer.now (refName n) e) _
    unfold resumeEncryption
    split
    · exact .notEncrypted i answer n e hi ⟨rfl, rfl, rfl, rfl⟩
    · next ciphertext storage _ =>
      obtain ⟨content, call, hcall, h⟩ := does_finish chat room.bloc storage answer.now (refName n)
        (some ciphertext) e
      exact .encrypted i answer n e content call hi hcall h
  | decryption frame userId msg content =>
    show Moves chat room (resumeDecryption lib chat room.bloc room.storage
      (messageFrame frame userId msg) content) _
    unfold resumeDecryption
    split
    · exact .decrypted i answer frame userId msg content _ hi
        (does_showMessage room.bloc _ frame userId msg _)
    · exact .decrypted i answer frame userId msg content _ hi
        (does_showMessage room.bloc _ frame userId msg _)

/-- Every piece of every handler is one of these moves. -/
theorem moves_of_segment (hsound : ∀ p ∈ room.waiting, p.Sound) (hin : Admissible room action)
    (h : segment lib keys chat room action = some s) : Moves chat room s action := by
  cases action with
  | event e now =>
    obtain rfl := Option.some.inj h
    exact moves_event hin
  | resume i answer =>
    obtain ⟨p, hi, rfl⟩ := Option.map_eq_some_iff.mp h
    exact moves_resume hi (hsound p (List.mem_of_getElem? hi))
  | store storage =>
    obtain rfl := Option.some.inj h
    exact .stored storage ⟨rfl, rfl, rfl, rfl⟩

/-! ## What waits -/

/-- The handler is still to send under `ref_n`. -/
def Pending.holdsRef (n : ℕ) : Pending → Bool
  | .session ref _ => decide (ref = refName n)
  | .encryption ref _ => decide (ref = refName n)
  | _ => false

/-- The handler is still to show the message `id`. -/
def Pending.decrypts (id : String) : Pending → Bool
  | .decryption f _ => decide (asStr (Json.get f "message_id") = some id)
  | _ => false

/-- What waits next is sound. -/
theorem Moves.sound_next (hmoves : Moves chat room s action) : ∀ p ∈ s.next, p.Sound := by
  intro p hp
  have hnext : ∀ {q : Option Pending} {messages n calls}, Does s messages n calls q → p ∈ q :=
    fun h => h.next ▸ hp
  cases hmoves with
  | opened now h => exact Option.some.inj (hnext h) ▸ .history
  | sealing e now hsecret h => exact Option.some.inj (hnext h) ▸ .session _ e
  | sealed frame userId msg content now hfrom hsecret h =>
    exact Option.some.inj (hnext h) ▸ .decryption frame userId msg content
  | session i answer n e hi h => exact Option.some.inj (hnext h) ▸ .encryption n e
  | sent _ _ _ _ _ _ h | typed _ _ h | unsent _ _ h | notice _ _ _ _ h | ack _ _ _ h
  | stranger _ _ _ _ _ h | arrived _ _ _ _ _ _ _ h | retracted _ _ h | history _ _ _ _ _ _ _ h
  | noHistory _ _ _ _ _ h | encrypted _ _ _ _ _ _ _ _ h | notEncrypted _ _ _ _ _ h
  | decrypted _ _ _ _ _ _ _ _ h | stored _ h => cases hnext h

theorem sound_othersWaiting (h : ∀ p ∈ room.waiting, p.Sound) :
    ∀ p ∈ othersWaiting room action, p.Sound := by
  cases action with
  | event e now => exact h
  | resume i answer => exact fun p hp => h p (List.mem_of_mem_eraseIdx hp)
  | store storage => exact h

/-- The room after a piece of a handler. -/
def Room.after (room : Room) (action : RoomAction) (s : Segment) : Room :=
  ⟨s.bloc, s.storage, othersWaiting room action ++ s.next.toList⟩

theorem countP_after (q : Pending → Bool) :
    (room.after action s).waiting.countP q =
      (othersWaiting room action).countP q + s.next.toList.countP q := List.countP_append

theorem countP_toList_some (q : Pending → Bool) (p : Pending) :
    (some p).toList.countP q = if q p then 1 else 0 := List.countP_singleton

/-- The handler that goes on no longer waits. -/
theorem countP_others {i : ℕ} {p : Pending} (hi : room.waiting[i]? = some p) (answer : Answer)
    (q : Pending → Bool) :
    (othersWaiting room (.resume i answer)).countP q + (if q p then 1 else 0) =
      room.waiting.countP q :=
  countP_eraseIdx_add q hi

/-! ## The names of the bubbles -/

/-- The ids of the bubbles. -/
def Room.names (room : Room) : List String := room.bloc.state.messages.map ChatMessage.id

/-- How many handlers are still to send under `ref_n`. -/
def Room.holds (room : Room) (n : ℕ) : ℕ := room.waiting.countP (Pending.holdsRef n)

/-- How many handlers are still to show the message `id`. -/
def Room.decrypts (room : Room) (id : String) : ℕ := room.waiting.countP (Pending.decrypts id)

/-- The message of the peer that a frame brings. -/
def Chat.heard (chat : Chat) (f : Frame) : Option String :=
  if asStr (Json.get f "type") = some "message" ∧
      asStr (Json.get f "from") = some chat.peerId then
    asStr (Json.get f "message_id")
  else none

/-- The message of the peer that an action brings. -/
def RoomAction.heard (chat : Chat) : RoomAction → Option String
  | .event (.frameReceived f) _ => chat.heard f
  | _ => none

/-- The bubble `ref` gets another name. -/
def renamed (ref : Option String) (id name : String) : String :=
  if some name = ref then id else name

/-- Nothing is sent; no ref is taken, and none is given back. -/
structure Rests (room room' : Room) (refs : List String) : Prop where
  refs : refs = []
  counter : room'.bloc.refCounter = room.bloc.refCounter
  holds : ∀ n, room'.holds n = room.holds n

/-- A move, by the names of the bubbles; `refs` are those it sends under. -/
inductive Turn (chat : Chat) (room room' : Room) (refs : List String) : RoomAction → Prop
  | own (action : RoomAction) (hheard : action.heard chat = none)
      (hanswered : room.answered action = none) (hnames : room'.names = room.names ++ refs)
      (hrefs : ∀ ref ∈ refs, ∃ n, ref = refName n)
      (hcounter : room.bloc.refCounter ≤ room'.bloc.refCounter)
      (hholds : ∀ n, refs.count (refName n) + room'.holds n ≤ room.holds n +
        if room.bloc.refCounter < n ∧ n ≤ room'.bloc.refCounter then 1 else 0)
      (hdecrypts : ∀ id, room'.decrypts id = room.decrypts id) : Turn chat room room' refs action
  | ack (frame : Frame) (msg : Message) (now : Time) (hrests : Rests room room' refs)
      (hnames : room'.names = room.names.map (renamed (refOf frame) msg.id.str))
      (hdecrypts : ∀ id, room'.decrypts id = room.decrypts id) :
      Turn chat room room' refs (.event (.frameReceived (ackFrame frame msg)) now)
  | arrived (action : RoomAction) (u : UUID) (hheard : action.heard chat = some u.str)
      (hanswered : room.answered action = none) (hrests : Rests room room' refs)
      (hnames : room'.names = room.names ++ [u.str])
      (hdecrypts : ∀ id, room'.decrypts id = room.decrypts id) : Turn chat room room' refs action
  | sealed (action : RoomAction) (u : UUID) (hheard : action.heard chat = some u.str)
      (hanswered : room.answered action = none) (hrests : Rests room room' refs)
      (hnames : room'.names = room.names)
      (hdecrypts : ∀ id, room'.decrypts id = room.decrypts id + if id = u.str then 1 else 0) :
      Turn chat room room' refs action
  | decrypted (action : RoomAction) (u : UUID) (hheard : action.heard chat = none)
      (hanswered : room.answered action = none) (hrests : Rests room room' refs)
      (hnames : room'.names = room.names ++ [u.str])
      (hdecrypts : ∀ id, room.decrypts id = room'.decrypts id + if id = u.str then 1 else 0) :
      Turn chat room room' refs action
  | history (action : RoomAction) (messages : List ChatMessage) (hheard : action.heard chat = none)
      (hanswered : room.answered action = some messages) (hrests : Rests room room' refs)
      (hnames : room'.names = messages.map ChatMessage.id)
      (hdecrypts : ∀ id, room'.decrypts id = room.decrypts id) : Turn chat room room' refs action

section Does

variable {messages : List ChatMessage} {k : ℕ} {calls : List WsCall} {next : Option Pending}

theorem Does.names (h : Does s messages k calls next) (action : RoomAction) :
    (room.after action s).names = messages.map ChatMessage.id := by
  show s.bloc.state.messages.map ChatMessage.id = _
  rw [h.messages]

theorem Does.countP (h : Does s messages k calls next) (action : RoomAction)
    (q : Pending → Bool) :
    (room.after action s).waiting.countP q =
      (othersWaiting room action).countP q + next.toList.countP q := by
  rw [countP_after, h.next]

/-- A handler that starts, and waits for nothing that counts. -/
theorem Does.countP_event (h : Does s messages k calls next) {e : ChatEvent} {now : Time}
    {q : Pending → Bool} (hq : ∀ p ∈ next, q p = false) :
    (room.after (.event e now) s).waiting.countP q = room.waiting.countP q := by
  have hnone : next.toList.countP q = 0 := by
    refine List.countP_eq_zero.mpr fun p hp => ?_
    rw [hq p (Option.mem_toList.mp hp)]
    exact Bool.false_ne_true
  rw [h.countP, hnone]
  rfl

/-- A handler that goes on from `p`, and waits for something that counts as much. -/
theorem Does.countP_resume (h : Does s messages k calls next) {i : ℕ} {answer : Answer}
    {p : Pending} (hi : room.waiting[i]? = some p) {q : Pending → Bool}
    (hq : next.toList.countP q = if q p then 1 else 0) :
    (room.after (.resume i answer) s).waiting.countP q = room.waiting.countP q := by
  rw [h.countP, hq]
  exact countP_others hi answer q

/-- A handler that goes on from `p` to its end. -/
theorem Does.countP_end (h : Does s messages k calls none) {i : ℕ} {p : Pending}
    (hi : room.waiting[i]? = some p) (answer : Answer) (q : Pending → Bool) :
    (room.after (.resume i answer) s).waiting.countP q + (if q p then 1 else 0) =
      room.waiting.countP q := by
  rw [h.countP, Option.toList_none, List.countP_nil, Nat.add_zero]
  exact countP_others hi answer q

end Does

theorem names_ticked (g : ChatMessage → MessageTick) (messages : List ChatMessage) :
    (ticked g messages).map ChatMessage.id = messages.map ChatMessage.id := by
  unfold ticked
  rw [List.map_map]
  rfl

theorem names_tombstone (id : String) (messages : List ChatMessage) :
    (tombstone id messages).map ChatMessage.id = messages.map ChatMessage.id := by
  unfold tombstone
  rw [List.map_map]
  refine List.map_congr_left fun m _ => ?_
  rw [Function.comp_apply]
  split_ifs <;> rfl

theorem names_confirmed (chat : Chat) (ref : Option String) (id : String) (createdAt : Time)
    (messages : List ChatMessage) :
    (messages.map (confirmed chat ref id createdAt)).map ChatMessage.id =
      (messages.map ChatMessage.id).map (renamed ref id) := by
  rw [List.map_map, List.map_map]
  refine List.map_congr_left fun m _ => ?_
  show (confirmed chat ref id createdAt m).id = renamed ref id m.id
  unfold confirmed renamed
  split_ifs <;> rfl

theorem heard_notice {f : Frame} (h : IsNotice f) : chat.heard f = none := by
  obtain ⟨t, ht, htype⟩ := h
  refine if_neg fun hmessage => ?_
  have heq : t = "message" := by
    have := hmessage.1
    rw [htype] at this
    exact Option.some.inj this
  revert ht
  rw [heq]
  decide

theorem heard_messageFrame (frame : Frame) (userId : UUID) (msg : Message) :
    chat.heard (messageFrame frame userId msg) =
      if userId.str = chat.peerId then some msg.id.str else none := by
  have hfrom : asStr (Json.get (messageFrame frame userId msg) "from") = some userId.str := rfl
  unfold Chat.heard
  rw [hfrom]
  exact if_congr ⟨fun h => Option.some.inj h.2, fun h => ⟨rfl, congrArg some h⟩⟩ rfl rfl

theorem heard_of_peer {userId : UUID} (h : userId.str = chat.peerId) (frame : Frame)
    (msg : Message) : chat.heard (messageFrame frame userId msg) = some msg.id.str := by
  rw [heard_messageFrame, if_pos h]

theorem heard_of_stranger {userId : UUID} (h : userId.str ≠ chat.peerId) (frame : Frame)
    (msg : Message) : chat.heard (messageFrame frame userId msg) = none := by
  rw [heard_messageFrame, if_neg h]

theorem heard_ackFrame (frame : Frame) (msg : Message) : chat.heard (ackFrame frame msg) = none :=
  if_neg fun h => absurd (Option.some.inj h.1) (by decide)

theorem heard_unsendEvent (messageId : UUID) : chat.heard (unsendEvent messageId) = none :=
  if_neg fun h => absurd (Option.some.inj h.1) (by decide)

theorem answered_of_ne {i : ℕ} {answer : Answer} {p : Pending} (hi : room.waiting[i]? = some p)
    (hp : p ≠ .history) : room.answered (.resume i answer) = none := by
  simp only [Room.answered, hi]
  cases p with
  | history => exact absurd rfl hp
  | session ref e => rfl
  | encryption ref e => rfl
  | decryption f content => rfl

/-- Bubbles and handlers stay as they are. -/
theorem turn_quiet {messages : List ChatMessage} {k : ℕ} {calls : List WsCall}
    {next : Option Pending} (h : Does s messages k calls next)
    (hheard : action.heard chat = none) (hanswered : room.answered action = none)
    (hk : k = room.bloc.refCounter) (hnames : messages.map ChatMessage.id = room.names)
    (hcalls : calls.filterMap WsCall.clientRef = [])
    (hholds : ∀ n, (room.after action s).holds n ≤ room.holds n)
    (hdecrypts : ∀ id, (room.after action s).decrypts id = room.decrypts id) :
    Turn chat room (room.after action s) (s.calls.filterMap WsCall.clientRef) action := by
  rw [h.calls, hcalls]
  have hcounter : (room.after action s).bloc.refCounter = room.bloc.refCounter :=
    h.refCounter.trans hk
  refine .own action hheard hanswered ?_ (by simp) hcounter.ge (fun n => ?_) hdecrypts
  · rw [h.names, hnames, List.append_nil]
  · rw [List.count_nil, Nat.zero_add]
    exact (hholds n).trans (Nat.le_add_right _ _)

/-- A handler of an event that ends at once, or waits for something without a reference. -/
theorem turn_quiet_event {e : ChatEvent} {now : Time} {messages : List ChatMessage}
    {calls : List WsCall} {next : Option Pending}
    (h : Does s messages room.bloc.refCounter calls next)
    (hheard : RoomAction.heard chat (.event e now) = none)
    (hnames : messages.map ChatMessage.id = room.names)
    (hcalls : calls.filterMap WsCall.clientRef = [])
    (hholds : ∀ n, ∀ p ∈ next, p.holdsRef n = false)
    (hdecrypts : ∀ id, ∀ p ∈ next, p.decrypts id = false) :
    Turn chat room (room.after (.event e now) s) (s.calls.filterMap WsCall.clientRef)
      (.event e now) :=
  turn_quiet h hheard rfl rfl hnames hcalls (fun n => (h.countP_event (hholds n)).le) fun id =>
    h.countP_event (hdecrypts id)

/-- A handler that goes on, and waits for as much as before. -/
theorem turn_quiet_resume {i : ℕ} {answer : Answer} {p : Pending} {next : Option Pending}
    (h : Does s room.bloc.state.messages room.bloc.refCounter [] next)
    (hi : room.waiting[i]? = some p) (hanswered : room.answered (.resume i answer) = none)
    (hholds : ∀ n, next.toList.countP (Pending.holdsRef n) = if p.holdsRef n then 1 else 0)
    (hdecrypts : ∀ id, next.toList.countP (Pending.decrypts id) = if p.decrypts id then 1 else 0) :
    Turn chat room (room.after (.resume i answer) s) (s.calls.filterMap WsCall.clientRef)
      (.resume i answer) :=
  turn_quiet h rfl hanswered rfl rfl rfl (fun n => (h.countP_resume hi (hholds n)).le) fun id =>
    h.countP_resume hi (hdecrypts id)

theorem holdsRef_refName (n k : ℕ) (e : Content) :
    Pending.holdsRef n (.session (refName k) e) = decide (k = n) :=
  decide_eq_decide.mpr ⟨refName_injective, congrArg refName⟩

theorem decrypts_messageFrame (id : String) (frame : Frame) (userId : UUID) (msg : Message)
    (content : Option String) :
    Pending.decrypts id (.decryption (messageFrame frame userId msg) content) =
      decide (id = msg.id.str) := by
  have hid : asStr (Json.get (messageFrame frame userId msg) "message_id") = some msg.id.str := rfl
  show decide (asStr (Json.get (messageFrame frame userId msg) "message_id") = some id) = _
  rw [hid]
  exact decide_eq_decide.mpr ⟨fun h => (Option.some.inj h).symm, fun h => congrArg some h.symm⟩

theorem count_refName_singleton (n k : ℕ) :
    [refName k].count (refName n) = if k = n then 1 else 0 := by
  rw [List.count_singleton]
  exact if_congr (beq_iff_eq.trans ⟨refName_injective, congrArg refName⟩) rfl rfl

/-- A handler that starts a send. -/
theorem turn_contentSent (refs : List String) {e : Content} {now : Time}
    {messages : List ChatMessage} {calls : List WsCall} {next : Option Pending}
    (h : Does s messages (room.bloc.refCounter + 1) calls next)
    (hnames : messages.map ChatMessage.id = room.names ++ refs)
    (hcalls : calls.filterMap WsCall.clientRef = refs)
    (hone : refs.count (refName (room.bloc.refCounter + 1)) +
      next.toList.countP (Pending.holdsRef (room.bloc.refCounter + 1)) ≤ 1)
    (hothers : ∀ n, n ≠ room.bloc.refCounter + 1 →
      refs.count (refName n) + next.toList.countP (Pending.holdsRef n) = 0)
    (hrefs : ∀ ref ∈ refs, ∃ n, ref = refName n)
    (hdecrypts : ∀ id, ∀ p ∈ next, p.decrypts id = false) :
    Turn chat room (room.after (.event (.contentSent e) now) s)
      (s.calls.filterMap WsCall.clientRef) (.event (.contentSent e) now) := by
  rw [h.calls, hcalls]
  have hcounter : (room.after (.event (.contentSent e) now) s).bloc.refCounter =
      room.bloc.refCounter + 1 := h.refCounter
  refine .own _ rfl rfl ?_ hrefs (by omega) (fun n => ?_) fun id => h.countP_event (hdecrypts id)
  · rw [h.names, hnames]
  · unfold Room.holds
    rw [h.countP, hcounter]
    show _ + (room.waiting.countP _ + _) ≤ _
    by_cases hn : n = room.bloc.refCounter + 1
    · subst hn
      rw [if_pos ⟨by omega, le_rfl⟩]
      omega
    · have := hothers n hn
      omega

/-- A plain send: the bubble and the frame have the new ref. -/
theorem turn_sent {e : Content} {now : Time} {content : String} {call : WsCall}
    (hcall : call.clientRef = some (refName (room.bloc.refCounter + 1)))
    (h : Does s (room.bloc.state.messages ++
      [optimistic chat now (refName (room.bloc.refCounter + 1)) content])
      (room.bloc.refCounter + 1) [call] none) :
    Turn chat room (room.after (.event (.contentSent e) now) s)
      (s.calls.filterMap WsCall.clientRef) (.event (.contentSent e) now) := by
  refine turn_contentSent [refName (room.bloc.refCounter + 1)] h ?_ ?_ ?_ ?_ ?_ ?_
  · exact List.map_append
  · rw [List.filterMap_cons_some hcall]
    rfl
  · rw [count_refName_singleton, if_pos rfl]
    rfl
  · intro n hn
    rw [count_refName_singleton, if_neg hn.symm]
    rfl
  · exact List.forall_mem_singleton.mpr ⟨_, rfl⟩
  · exact fun id p hp => by cases hp

/-- A send in a secret chat: the new ref waits for the session. -/
theorem turn_sealing {e : Content} {now : Time}
    (h : Does s room.bloc.state.messages (room.bloc.refCounter + 1) []
      (some (.session (refName (room.bloc.refCounter + 1)) e))) :
    Turn chat room (room.after (.event (.contentSent e) now) s)
      (s.calls.filterMap WsCall.clientRef) (.event (.contentSent e) now) := by
  refine turn_contentSent [] h ?_ rfl ?_ ?_ ?_ ?_
  · exact (List.append_nil _).symm
  · rw [countP_toList_some, List.count_nil, Nat.zero_add]
    split_ifs <;> omega
  · intro n hn
    rw [countP_toList_some, holdsRef_refName, decide_eq_false hn.symm]
    rfl
  · simp
  · exact fun id p hp => Option.some.inj hp ▸ rfl

/-- The ref that was waiting goes to the bubble and the frame. -/
theorem turn_encrypted {i k : ℕ} {answer : Answer} {e : Content} {content : String} {call : WsCall}
    (hi : room.waiting[i]? = some (.encryption (refName k) e))
    (hcall : call.clientRef = some (refName k))
    (h : Does s (room.bloc.state.messages ++ [optimistic chat answer.now (refName k) content])
      room.bloc.refCounter [call] none) :
    Turn chat room (room.after (.resume i answer) s) (s.calls.filterMap WsCall.clientRef)
      (.resume i answer) := by
  have hcalls : [call].filterMap WsCall.clientRef = [refName k] := by
    rw [List.filterMap_cons_some hcall]
    rfl
  rw [h.calls, hcalls]
  refine .own _ rfl (answered_of_ne hi (by simp)) ?_ ?_ h.refCounter.ge (fun n => ?_) fun id =>
    h.countP_resume hi rfl
  · rw [h.names, List.map_append]
    rfl
  · exact List.forall_mem_singleton.mpr ⟨_, rfl⟩
  · have hend := h.countP_end hi answer (Pending.holdsRef n)
    rw [show Pending.holdsRef n (.encryption (refName k) e) = decide (k = n) from
      holdsRef_refName n k e] at hend
    simp only [decide_eq_true_eq] at hend
    rw [count_refName_singleton]
    unfold Room.holds
    omega

theorem turn_ack {frame : Frame} {msg : Message} {now : Time}
    (h : Does s (room.bloc.state.messages.map
      (confirmed chat (refOf frame) msg.id.str msg.createdAt)) room.bloc.refCounter [] none) :
    Turn chat room (room.after (.event (.frameReceived (ackFrame frame msg)) now) s)
      (s.calls.filterMap WsCall.clientRef) (.event (.frameReceived (ackFrame frame msg)) now) := by
  refine .ack frame msg now ⟨?_, h.refCounter, fun n => h.countP_event (by simp)⟩ ?_ fun id =>
    h.countP_event (by simp)
  · rw [h.calls]
    rfl
  · rw [h.names]
    exact names_confirmed chat (refOf frame) msg.id.str msg.createdAt _

/-- A message of the peer in a plain chat is shown. -/
theorem turn_arrived {frame : Frame} {userId : UUID} {msg : Message} {content : Option String}
    {now : Time} (hfrom : userId.str = chat.peerId)
    (h : Does s (room.bloc.state.messages ++ [arrivedBubble userId msg content])
      room.bloc.refCounter [.sendDelivered msg.id.str, .sendRead msg.id.str] none) :
    Turn chat room (room.after (.event (.frameReceived (messageFrame frame userId msg)) now) s)
      (s.calls.filterMap WsCall.clientRef)
      (.event (.frameReceived (messageFrame frame userId msg)) now) := by
  refine .arrived _ msg.id (heard_of_peer hfrom frame msg) rfl
    ⟨?_, h.refCounter, fun n => h.countP_event (by simp)⟩ ?_ fun id => h.countP_event (by simp)
  · rw [h.calls]
    rfl
  · rw [h.names, List.map_append]
    rfl

/-- In a secret chat it waits to be decrypted. -/
theorem turn_sealed {frame : Frame} {userId : UUID} {msg : Message} {content : Option String}
    {now : Time} (hfrom : userId.str = chat.peerId)
    (h : Does s room.bloc.state.messages room.bloc.refCounter []
      (some (.decryption (messageFrame frame userId msg) content))) :
    Turn chat room (room.after (.event (.frameReceived (messageFrame frame userId msg)) now) s)
      (s.calls.filterMap WsCall.clientRef)
      (.event (.frameReceived (messageFrame frame userId msg)) now) := by
  refine .sealed _ msg.id (heard_of_peer hfrom frame msg) rfl
    ⟨?_, h.refCounter, fun n => h.countP_event ?_⟩ ?_ fun id => ?_
  · rw [h.calls]
    rfl
  · exact fun p hp => Option.some.inj hp ▸ rfl
  · rw [h.names]
    rfl
  · unfold Room.decrypts
    rw [h.countP, countP_toList_some, decrypts_messageFrame]
    simp only [othersWaiting, decide_eq_true_eq]

/-- It has been decrypted, and is shown. -/
theorem turn_decrypted {i : ℕ} {answer : Answer} {frame : Frame} {userId : UUID} {msg : Message}
    {content content' : Option String}
    (hi : room.waiting[i]? = some (.decryption (messageFrame frame userId msg) content))
    (h : Does s (room.bloc.state.messages ++ [arrivedBubble userId msg content'])
      room.bloc.refCounter [.sendDelivered msg.id.str, .sendRead msg.id.str] none) :
    Turn chat room (room.after (.resume i answer) s) (s.calls.filterMap WsCall.clientRef)
      (.resume i answer) := by
  refine .decrypted _ msg.id rfl (answered_of_ne hi (by simp))
    ⟨?_, h.refCounter, fun n => h.countP_resume hi rfl⟩ ?_ fun id => ?_
  · rw [h.calls]
    rfl
  · rw [h.names, List.map_append]
    rfl
  · have hend := h.countP_end hi answer (Pending.decrypts id)
    rw [decrypts_messageFrame] at hend
    simp only [decide_eq_true_eq] at hend
    exact hend.symm

/-- The history replaces the bubbles, and the handler sends what it has read. -/
theorem turn_history {i : ℕ} {answer : Answer} {messages : List ChatMessage}
    {calls : List WsCall} (hi : room.waiting[i]? = some .history)
    (hanswer : answer.history = .ok messages) (hcalls : ∀ call ∈ calls, ∃ id, call = .sendRead id)
    (h : Does s messages room.bloc.refCounter calls none) :
    Turn chat room (room.after (.resume i answer) s) (s.calls.filterMap WsCall.clientRef)
      (.resume i answer) := by
  have hanswered : room.answered (.resume i answer) = some messages := by
    simp only [Room.answered, hi, hanswer]
  refine .history _ messages rfl hanswered
    ⟨?_, h.refCounter, fun n => h.countP_resume hi rfl⟩ (h.names _) fun id =>
      h.countP_resume hi rfl
  rw [h.calls]
  refine List.filterMap_eq_nil_iff.mpr fun call hcall => ?_
  obtain ⟨id, rfl⟩ := hcalls call hcall
  rfl

/-- A move, by the names of the bubbles. -/
theorem Moves.turn (hmoves : Moves chat room s action) :
    Turn chat room (room.after action s) (s.calls.filterMap WsCall.clientRef) action := by
  cases hmoves with
  | opened now h =>
    refine turn_quiet_event h rfl rfl rfl (fun n p hp => ?_) fun id p hp => ?_
    · exact Option.some.inj hp ▸ rfl
    · exact Option.some.inj hp ▸ rfl
  | sent e now content call hplain hcall h => exact turn_sent hcall h
  | sealing e now hsecret h => exact turn_sealing h
  | typed typing now h =>
    exact turn_quiet_event h rfl rfl rfl (by simp) (by simp)
  | unsent messageId now h =>
    exact turn_quiet_event h rfl (names_tombstone messageId _) rfl (by simp) (by simp)
  | notice f now g hf h =>
    exact turn_quiet_event h (heard_notice hf) (names_ticked g _) rfl (by simp) (by simp)
  | ack frame msg now h => exact turn_ack h
  | stranger frame userId msg now hfrom h =>
    exact turn_quiet_event h (heard_of_stranger hfrom frame msg) rfl rfl (by simp) (by simp)
  | arrived frame userId msg content now hfrom hplain h => exact turn_arrived hfrom h
  | sealed frame userId msg content now hfrom hsecret h => exact turn_sealed hfrom h
  | retracted messageId now h =>
    exact turn_quiet_event h (heard_unsendEvent messageId) (names_tombstone messageId.str _) rfl
      (by simp) (by simp)
  | history i answer messages hi hanswer calls hcalls h => exact turn_history hi hanswer hcalls h
  | noHistory i answer err hi hanswer h =>
    have hanswered : room.answered (.resume i answer) = none := by
      simp only [Room.answered, hi, hanswer]
    exact turn_quiet_resume h hi hanswered (fun _ => rfl) fun _ => rfl
  | session i answer n e hi h =>
    exact turn_quiet_resume h hi (answered_of_ne hi (by simp))
      (fun k => countP_toList_some (Pending.holdsRef k) _) fun _ => rfl
  | encrypted i answer k e content call hi hcall h => exact turn_encrypted hi hcall h
  | notEncrypted i answer k e hi h =>
    refine turn_quiet h rfl (answered_of_ne hi (by simp)) rfl rfl rfl (fun n => ?_) fun id =>
      h.countP_resume hi rfl
    have hend := h.countP_end hi answer (Pending.holdsRef n)
    exact Nat.le.intro hend
  | decrypted i answer frame userId msg content content' hi h => exact turn_decrypted hi h
  | stored storage h =>
    refine turn_quiet h rfl rfl rfl rfl rfl (fun n => ?_) fun id => ?_
    · exact (h.countP _ _).le
    · exact h.countP _ _

/-! ## Refs -/

/-- No bubble gets a ref for its name. -/
theorem renamed_eq_refName {ref : Option String} {u : UUID} {name : String} {n : ℕ}
    (h : renamed ref u.str name = refName n) : name = refName n ∧ some name ≠ ref := by
  unfold renamed at h
  split_ifs at h with hname
  · exact absurd h.symm (refName_ne_str n u)
  · exact ⟨h, hname⟩

theorem count_renamed_refName (n : ℕ) (ref : Option String) (u : UUID) (names : List String) :
    (names.map (renamed ref u.str)).count (refName n) ≤ names.count (refName n) := by
  rw [List.count, List.countP_map]
  refine List.countP_mono_left fun name _ hname => ?_
  rw [Function.comp_apply, beq_iff_eq] at hname
  exact beq_iff_eq.mpr (renamed_eq_refName hname).1

/-- Handlers wait for what a handler of this room can wait for; a ref is in use
    once at most, and none is beyond the counter. -/
structure RoomInv (room : Room) : Prop where
  sound : ∀ p ∈ room.waiting, p.Sound
  refs : ∀ n, room.names.count (refName n) + room.holds n ≤
    if n ≤ room.bloc.refCounter then 1 else 0

theorem roomInv_init (storage : Storage) : RoomInv (.init storage) :=
  ⟨fun _ hp => absurd hp List.not_mem_nil, fun _ => Nat.zero_le _⟩

theorem sound_after (h : ∀ p ∈ room.waiting, p.Sound) (hmoves : Moves chat room s action) :
    ∀ p ∈ (room.after action s).waiting, p.Sound := by
  intro p hp
  obtain hp | hp := List.mem_append.mp hp
  · exact sound_othersWaiting h p hp
  · exact hmoves.sound_next p (Option.mem_toList.mp hp)

theorem count_refName_rows {n : ℕ} {messages : List ChatMessage}
    (h : ∀ m ∈ messages, NamesRow m.id) : (messages.map ChatMessage.id).count (refName n) = 0 := by
  refine List.count_eq_zero.mpr fun hmem => ?_
  obtain ⟨m, hm, hid⟩ := List.mem_map.mp hmem
  obtain ⟨u, hu⟩ := h m hm
  exact refName_ne_str n u (hid.symm.trans hu)

theorem count_refName_concat (n : ℕ) (names : List String) (u : UUID) :
    (names ++ [u.str]).count (refName n) = names.count (refName n) := by
  rw [List.count_append, List.count_singleton, if_neg, Nat.add_zero]
  rw [beq_iff_eq]
  exact (refName_ne_str n u).symm

/-- A new ref comes from the counter; a waiting handler passes its ref on to the
    bubble. -/
theorem Turn.refs {room' : Room} {refs : List String} (hturn : Turn chat room room' refs action)
    (hin : Admissible room action) (n : ℕ)
    (hle : room.names.count (refName n) + room.holds n ≤
      if n ≤ room.bloc.refCounter then 1 else 0) :
    room'.names.count (refName n) + room'.holds n ≤
      if n ≤ room'.bloc.refCounter then 1 else 0 := by
  cases hturn with
  | own _ hheard hanswered hnames hrefs hcounter hholds hdecrypts =>
    have := hholds n
    rw [hnames, List.count_append]
    split_ifs at hle this ⊢ <;> omega
  | ack frame msg now hrests hnames hdecrypts =>
    rw [hnames, hrests.holds, hrests.counter]
    exact le_trans (Nat.add_le_add_right (count_renamed_refName n _ _ _) _) hle
  | arrived _ u hheard hanswered hrests hnames hdecrypts =>
    rw [hnames, hrests.holds, hrests.counter, count_refName_concat]
    exact hle
  | sealed _ u hheard hanswered hrests hnames hdecrypts =>
    rw [hnames, hrests.holds, hrests.counter]
    exact hle
  | decrypted _ u hheard hanswered hrests hnames hdecrypts =>
    rw [hnames, hrests.holds, hrests.counter, count_refName_concat]
    exact hle
  | history _ messages hheard hanswered hrests hnames hdecrypts =>
    rw [hnames, hrests.holds, hrests.counter, count_refName_rows (hin.history messages hanswered)]
    exact le_trans (by omega) hle

theorem RoomInv.moves (h : RoomInv room) (hin : Admissible room action)
    (hs : segment lib keys chat room action = some s) : Moves chat room s action :=
  moves_of_segment h.sound hin hs

theorem RoomInv.after (h : RoomInv room) (hin : Admissible room action)
    (hs : segment lib keys chat room action = some s) : RoomInv (room.after action s) := by
  have hmoves := h.moves hin hs
  exact ⟨sound_after h.sound hmoves, fun n => hmoves.turn.refs hin n (h.refs n)⟩

end IronLink.Client
