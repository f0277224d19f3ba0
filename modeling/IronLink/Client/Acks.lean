import IronLink.Client.Stored

/-!
# Acknowledgements of several rooms

Every open `ChatBloc` listens to `WsService.frames`
(frontend/lib/features/chat/bloc/chat_bloc.dart:282), and numbers its messages
from `ref_1` on. A closed one no longer listens, and what it emits is dropped; its
handlers that wait go on.

Results:
* `acks_exact_iff`: in every run exactly the `ack`s that find no bubble of the same
  ref in another room confirm their own bubble, and no other.
* `twoRooms_sameRef`: a bubble of one room takes the row of another.
-/

namespace IronLink.Client

open Lib Messages Ws

/-! ## Model -/

/-- A `ChatBloc`, with the events it has yet to handle. -/
structure OpenRoom where
  chat : Chat
  bloc : ChatBloc
  waiting : List Pending
  isOpen : Bool
  queue : List Frame

def OpenRoom.room (o : OpenRoom) (storage : Storage) : Room := ⟨o.bloc, storage, o.waiting⟩

/-- `ChatBloc(…)`. -/
def OpenRoom.init (chat : Chat) : OpenRoom := ⟨chat, ⟨ChatRoomState.init, 0⟩, [], true, []⟩

/-- A message by the instance that sent it and the ref it was sent under. -/
abbrev Origin := ℕ × String

/-- A device of `me` with all the rooms it has entered, and the server. The last
    two fields are no data of the program: the rows of the messages that were sent,
    and the names that bubbles have got from an `ack`. -/
structure App where
  world : World
  storage : Storage
  rooms : List OpenRoom
  line : Line (ℕ × WsCall)
  /-- what other handlers have still to publish on the user's channel -/
  others : List Frame
  stored : List (Origin × UUID)
  confirmed : List (Origin × String)

/-- The device before a room is entered. -/
def App.init (world : World) (storage : Storage) : App :=
  ⟨world, storage, [], .idle, [], [], []⟩

inductive AppAction
  /-- a room is entered, or entered again -/
  | enter (chat : Chat)
  /-- the `i`-th room is left -/
  | leave (i : ℕ)
  /-- a piece of a handler of the `i`-th room, with what a history request answers -/
  | room (i : ℕ) (action : RoomAction) (history : Except String (List Message))
  /-- the `i`-th room handles the next frame -/
  | handle (i : ℕ) (now : Time)
  /-- the rest of the app writes the storage -/
  | store (storage : Storage)
  /-- the device gets a frame -/
  | receive
  /-- the server reads a frame of the device; `fresh` is the key a new row gets -/
  | serve (connectionId : String) (fresh : NewRow)
  /-- the handler of that frame goes on -/
  | perform
  /-- the server reads a frame of another connection, of any user -/
  | frame (userId : UUID) (connectionId : String) (fresh : NewRow) (frame : Frame)
  /-- the `k`-th publication of the other handlers -/
  | publish (k : ℕ)
  | relay
  | tick (d : ℕ)

section Model

variable {S : Type} (lib : Libsignal S) (keys : KeyServer) (me : UUID)

/-- What can happen in a room beside frames. -/
def OpenRoom.admits (o : OpenRoom) (history : Except String (List Message)) :
    RoomAction → Option RoomAction
  | .event (.frameReceived _) _ => none
  | .event e now => if o.isOpen then some (.event e now) else none
  | .resume k answer =>
    some (.resume k
      { answer with history := history.map (List.map (ChatMessage.ofRow o.chat.myId)) })
  | .store _ => none

/-- The instance after a piece of a handler; a closed one emits nothing. -/
def OpenRoom.after (o : OpenRoom) (storage : Storage) (action : RoomAction) (seg : Segment) :
    OpenRoom :=
  { o with
    bloc := if o.isOpen then seg.bloc else { o.bloc with refCounter := seg.bloc.refCounter }
    waiting := ((o.room storage).after action seg).waiting }

/-- The `i`-th room runs a piece of a handler. -/
def App.turn (s : App) (i : ℕ) (o : OpenRoom) (action : RoomAction) : Option App :=
  (segment lib keys o.chat (o.room s.storage) action).map fun seg =>
    { s with
      storage := seg.storage
      rooms := s.rooms.set i (o.after s.storage action seg)
      line := s.line.send (seg.calls.map (i, ·)) }

/-- The bubbles an `ack` renames, and their new name. -/
def OpenRoom.acked (o : OpenRoom) (f : Frame) : List (String × String) :=
  match asStr (Json.get f "type"), asStr (Json.get f "message_id") with
  | some "ack", some id =>
    ((o.bloc.state.messages.map ChatMessage.id).filter fun name => some name = refOf f).map (·, id)
  | _, _ => []

def appStep (s : App) : AppAction → Option App
  | .enter chat => some { s with rooms := s.rooms ++ [.init chat] }
  | .leave i =>
    s.rooms[i]?.map fun o =>
      { s with rooms := s.rooms.set i { o with isOpen := false, queue := [] } }
  | .room i action history =>
    s.rooms[i]?.bind fun o => (o.admits history action).bind (s.turn lib keys i o)
  | .handle i now =>
    s.rooms[i]?.bind fun o =>
      match o.isOpen, o.queue with
      | true, f :: queue =>
        let confirmed := (o.acked f).map fun p : String × String => ((i, p.1), p.2)
        { s with confirmed := s.confirmed ++ confirmed }.turn lib keys i { o with queue := queue }
          (.event (.frameReceived f) now)
      | _, _ => none
  | .store storage => some { s with storage := storage }
  | .receive =>
    s.line.takes.map fun (f, line) =>
      { s with
        line := line
        rooms := s.rooms.map fun o => if o.isOpen then { o with queue := o.queue ++ [f] } else o }
  | .serve connectionId fresh =>
    s.line.reads.bind fun ((i, call), rest) =>
      if (s.world.messages.byId fresh).isNone then
        let r := handleFrame s.world me connectionId fresh call.frame
        let stored := (storedFor call.frame r fresh).map fun p : String × UUID => ((i, p.1), p.2)
        some { s with
          world := r.world
          line := s.line.handled rest r
          stored := s.stored ++ stored }
      else none
  | .perform => s.line.performs.map fun (effect, line) => { s with line := line.act me effect }
  | .frame userId connectionId fresh frame =>
    let r := handleFrame s.world userId connectionId fresh frame
    some { s with world := r.world, others := s.others ++ r.effects.filterMap (publishes me) }
  | .publish k =>
    s.others[k]?.map fun f => { s with others := s.others.eraseIdx k, line := s.line.publish f }
  | .relay => s.line.relay.map fun line => { s with line := line }
  | .tick d => some { s with world := { s.world with now := s.world.now + d } }

end Model

/-- The bubble takes the name of row `msg` when the row was stored for it. -/
def App.confirms (s : App) (i : ℕ) (chat : Chat) (msg : Message) (m : ChatMessage) : ChatMessage :=
  if ((i, m.id), msg.id) ∈ s.stored then
    { id := msg.id.str, senderId := chat.myId, content := m.content, createdAt := msg.createdAt
      isMine := true }
  else m

/-- The `ack` that is handled confirms the bubble whose frame it answers, if the
    instance shows it, and changes no other bubble. -/
def AckExact (s : App) : AppAction → Prop
  | .handle i _ => ∀ o, s.rooms[i]? = some o → o.isOpen = true →
      ∀ frame msg, o.queue.head? = some (ackFrame frame msg) →
        (onAck o.chat o.bloc (ackFrame frame msg)).state.messages =
          o.bloc.state.messages.map (s.confirms i o.chat msg) ∧
        o.bloc.state.messages.countP (fun m => decide (((i, m.id), msg.id) ∈ s.stored)) ≤ 1
  | _ => True

/-- Every confirmed bubble carries the id of the row that was stored for it. -/
def ConfirmedOwn (s : App) : Prop :=
  ∀ p ∈ s.confirmed, ∃ q ∈ s.stored, q.1 = p.1 ∧ q.2.str = p.2

/-- An `ack` that answers another instance finds no bubble under its ref. -/
def NoClash (s : App) : AppAction → Prop
  | .handle i _ => ∀ o ∈ s.rooms[i]?, o.isOpen = true → ∀ f ∈ o.queue.head?,
      asStr (Json.get f "type") = some "ack" →
        ∀ p ∈ s.stored, asStr (Json.get f "message_id") = some p.2.str → p.1.1 ≠ i →
          ∀ m ∈ o.bloc.state.messages, some m.id ≠ refOf f
  | _ => True

/-! ## The invariant -/

/-- The frames on their way to the device. -/
def App.onWay (s : App) (me : UUID) : List Frame := s.others ++ s.line.onWay me

/-- Every `ack` answers a frame that was sent by some instance, and stored. -/
structure AppInv (me : UUID) (s : App) : Prop where
  rooms : ∀ o ∈ s.rooms, RoomInv (o.room s.storage)
  queues : ∀ o ∈ s.rooms, ∀ f ∈ o.queue, ServerFrame f ∧ Answers Prod.snd s.stored f
  frames : ∀ f ∈ s.onWay me, ServerFrame f ∧ Answers Prod.snd s.stored f
  outbox : ∀ p ∈ s.line.outbox, ∀ ref, p.2.clientRef = some ref → ∃ n, ref = refName n
  refs : ∀ p ∈ s.stored, ∃ n, p.1.2 = refName n
  rows : ∀ p ∈ s.stored, (s.world.messages.byId p.2).isSome = true
  once : (s.stored.map Prod.snd).Nodup

theorem appInv_init (me : UUID) (world : World) (storage : Storage) :
    AppInv me (.init world storage) := by
  constructor <;> simp [App.init, App.onWay, Line.idle, Line.onWay]

variable {S : Type} {lib : Libsignal S} {keys : KeyServer} {me : UUID} {s s' : App}
  {o : OpenRoom} {i : ℕ} {seg : Segment}

/-- A row was stored for one message only. -/
theorem AppInv.origin_unique (h : AppInv me s) {k k' : Origin} {u : UUID} (hk : (k, u) ∈ s.stored)
    (hk' : (k', u) ∈ s.stored) : k = k' :=
  (Prod.mk.inj (List.inj_on_of_nodup_map h.once hk hk' rfl)).1

theorem roomInv_storage {storage : Storage} (h : RoomInv (o.room storage)) (storage' : Storage) :
    RoomInv (o.room storage') := ⟨h.sound, h.refs⟩

/-- More frames are on their way. -/
theorem AppInv.pass (h : AppInv me s) (new : List Frame) {w : World} {l : Line (ℕ × WsCall)}
    {others : List Frame} (hgrows : Jobs.Grows s.world.messages w.messages)
    (hout : ∀ p ∈ l.outbox, p ∈ s.line.outbox)
    (hway : (others ++ l.onWay me).Subperm (new ++ s.onWay me))
    (hnew : ∀ f ∈ new, ServerFrame f ∧ Answers Prod.snd s.stored f) :
    AppInv me { s with world := w, line := l, others := others } := by
  refine { h with
    frames := fun f hf => ?_
    outbox := fun p hp => h.outbox p (hout p hp)
    rows := fun p hp => isSome_of_grows hgrows (h.rows p hp) }
  obtain hf | hf := List.mem_append.mp (hway.subset hf)
  · exact hnew f hf
  · exact h.frames f hf

/-! ## A piece of a handler of a room -/

/-- A closed room takes refs and gives them away, and shows what it showed. -/
theorem Turn.refs_closed {chat : Chat} {room room' : Room} {refs : List String}
    {action : RoomAction} (hturn : Turn chat room room' refs action) (n : ℕ)
    (hle : room.names.count (refName n) + room.holds n ≤
      if n ≤ room.bloc.refCounter then 1 else 0) :
    room.names.count (refName n) + room'.holds n ≤
      if n ≤ room'.bloc.refCounter then 1 else 0 := by
  have hrests : Rests room room' refs → room.names.count (refName n) + room'.holds n ≤
      if n ≤ room'.bloc.refCounter then 1 else 0 := by
    intro hrests
    rw [hrests.holds, hrests.counter]
    exact hle
  cases hturn with
  | own _ hheard hanswered hnames hrefs hcounter hholds hdecrypts =>
    have := hholds n
    split_ifs at hle this ⊢ <;> omega
  | ack _ _ _ h | arrived _ _ _ _ h | sealed _ _ _ _ h | decrypted _ _ _ _ h
  | history _ _ _ _ h => exact hrests h

theorem RoomInv.openRoom_after {storage : Storage} {action : RoomAction}
    (h : RoomInv (o.room storage)) (hin : Admissible (o.room storage) action)
    (hs : segment lib keys o.chat (o.room storage) action = some seg) :
    RoomInv ((o.after storage action seg).room seg.storage) := by
  have hafter := h.after hin hs
  have hturn := (h.moves hin hs).turn
  by_cases hopen : o.isOpen = true
  · have hroom : (o.after storage action seg).room seg.storage =
        (o.room storage).after action seg := by
      unfold OpenRoom.after OpenRoom.room
      rw [if_pos hopen]
      rfl
    rw [hroom]
    exact hafter
  · have hroom : (o.after storage action seg).room seg.storage =
        ⟨{ o.bloc with refCounter := seg.bloc.refCounter }, seg.storage,
          ((o.room storage).after action seg).waiting⟩ := by
      unfold OpenRoom.after OpenRoom.room
      rw [if_neg hopen]
    rw [hroom]
    exact ⟨hafter.sound, fun n => hturn.refs_closed n (h.refs n)⟩

theorem AppInv.turn (h : AppInv me s) {action : RoomAction} (hroom : RoomInv (o.room s.storage))
    (hqueue : ∀ f ∈ o.queue, ServerFrame f ∧ Answers Prod.snd s.stored f)
    (hin : Admissible (o.room s.storage) action) (hs : s.turn lib keys i o action = some s') :
    AppInv me s' ∧ s'.stored = s.stored ∧ s'.confirmed = s.confirmed := by
  obtain ⟨seg, hseg, rfl⟩ := Option.map_eq_some_iff.mp hs
  have hturn := (hroom.moves hin hseg).turn
  have hrefs : ∀ call ∈ seg.calls, ∀ ref, call.clientRef = some ref → ∃ n, ref = refName n := by
    intro call hcall ref href
    have hmem : ref ∈ seg.calls.filterMap WsCall.clientRef :=
      List.mem_filterMap.mpr ⟨call, hcall, href⟩
    cases hturn with
    | own _ _ _ _ hnames => exact hnames ref hmem
    | ack _ _ _ hrests | arrived _ _ _ _ hrests | sealed _ _ _ _ hrests
    | decrypted _ _ _ _ hrests | history _ _ _ _ hrests =>
      rw [hrests.refs] at hmem
      cases hmem
  refine ⟨{ h with rooms := ?_, queues := ?_, frames := ?_, outbox := ?_ }, rfl, rfl⟩
  · refine forall_set (fun o' ho' => roomInv_storage (h.rooms o' ho') seg.storage) ?_
    exact hroom.openRoom_after hin hseg
  · exact forall_set h.queues hqueue
  · intro f hf
    unfold App.onWay at hf
    rw [onWay_send] at hf
    exact h.frames f hf
  · intro p hp
    unfold Line.send at hp
    simp only at hp
    split_ifs at hp
    · obtain hp | hp := List.mem_append.mp hp
      · exact h.outbox p hp
      · obtain ⟨call, hcall, rfl⟩ := List.mem_map.mp hp
        exact hrefs call hcall
    · exact h.outbox p hp

/-- What a room is told outside frames is admissible. -/
theorem admissible_admits {storage : Storage} {history : Except String (List Message)}
    {action action' : RoomAction} (h : o.admits history action = some action') :
    Admissible (o.room storage) action' := by
  cases action with
  | event e now =>
    cases e with
    | frameReceived f => cases h
    | chatOpened | contentSent | typingChanged | messageUnsent =>
      simp only [OpenRoom.admits] at h
      split_ifs at h
      obtain rfl := Option.some.inj h
      exact ⟨fun f now heq => (by cases heq), fun messages hanswered => (by cases hanswered)⟩
  | resume k answer =>
    obtain rfl := Option.some.inj h
    refine ⟨fun f now heq => (by cases heq), fun messages hanswered m hm => ?_⟩
    simp only [Room.answered] at hanswered
    split at hanswered
    · next shown hi hanswer =>
      obtain rfl := Option.some.inj hanswered
      cases history with
      | error err => cases hanswer
      | ok rows =>
        obtain rfl := Except.ok.inj hanswer
        obtain ⟨msg, -, rfl⟩ := List.mem_map.mp hm
        exact ⟨msg.id, rfl⟩
    · cases hanswered
  | store storage' => cases h

theorem admissible_frame {storage : Storage} {f : Frame} {now : Time} (h : ServerFrame f) :
    Admissible (o.room storage) (.event (.frameReceived f) now) := by
  refine ⟨fun g now' heq => ?_, fun messages hanswered => (by cases hanswered)⟩
  obtain ⟨hframe, -⟩ := RoomAction.event.inj heq
  exact ChatEvent.frameReceived.inj hframe ▸ h

/-! ## Steps -/

/-- The server stores a message under a new id, for a frame of the device. -/
theorem AppInv.stores (h : AppInv me s) {w : World} {k : Origin} {u : UUID}
    (hgrows : Jobs.Grows s.world.messages w.messages) (hfresh : s.world.messages.byId u = none)
    (hsome : (w.messages.byId u).isSome = true) (hname : ∃ n, k.2 = refName n) :
    AppInv me { s with world := w, stored := s.stored ++ [(k, u)] } := by
  refine { h with
    queues := fun o ho f hf => ⟨(h.queues o ho f hf).1, (h.queues o ho f hf).2.append _⟩
    frames := fun f hf => ⟨(h.frames f hf).1, (h.frames f hf).2.append _⟩
    refs := fun p hp => ?_
    rows := fun p hp => ?_
    once := ?_ }
  · obtain hp | hp := List.mem_append.mp hp
    · exact h.refs p hp
    · rw [List.mem_singleton.mp hp]
      exact hname
  · obtain hp | hp := List.mem_append.mp hp
    · exact isSome_of_grows hgrows (h.rows p hp)
    · rw [List.mem_singleton.mp hp]
      exact hsome
  · -- the row is new, so that no other message has it
    rw [List.map_append, List.map_singleton, List.nodup_append]
    refine ⟨h.once, List.nodup_singleton _, fun v hv v' hv' heq => ?_⟩
    obtain ⟨p, hp, rfl⟩ := List.mem_map.mp hv
    have hrow := h.rows p hp
    rw [heq, List.mem_singleton.mp hv', hfresh] at hrow
    cases hrow

/-- The server handles a frame of the device. -/
theorem AppInv.serve (h : AppInv me s) {call : WsCall} {rest : List (ℕ × WsCall)}
    (hreads : s.line.reads = some ((i, call), rest)) (connectionId : String) {fresh : NewRow}
    (hfresh : s.world.messages.byId fresh = none) :
    let r := handleFrame s.world me connectionId fresh call.frame
    AppInv me
      { s with
        world := r.world
        line := s.line.handled rest r
        stored := s.stored ++
          (storedFor call.frame r fresh).map fun p : String × UUID => ((i, p.1), p.2) } := by
  intro r
  have hgrows : Jobs.Grows s.world.messages r.world.messages :=
    grows_handleFrame s.world me connectionId fresh call.frame
  have houtbox := outbox_reads hreads
  have hsub : ∀ p ∈ (s.line.handled rest r).outbox, p ∈ s.line.outbox := by
    intro p hp
    rw [houtbox]
    exact List.mem_cons_of_mem _ ((outbox_handled s.line rest r).subset hp)
  have hway : (s.others ++ (s.line.handled rest r).onWay me).Subperm
      (r.effects.filterMap (reaches me) ++ s.onWay me) := others_onWay_handled s.others hreads r
  have hhandling : Handling s.world me fresh call.frame r :=
    handling s.world me connectionId fresh call.frame
  cases hhandling with
  | content messageType toId msg content pushes htype hto hcontent hid hsender _ hrows hpushes
      heffects hraised =>
    obtain ⟨ref, hclient, href⟩ := clientRef_of_content htype
    have hrow : SentBy r.world.messages fresh me := by
      rw [hrows]
      exact sentBy_append hid hsender hfresh
    have hsome : (r.world.messages.byId fresh).isSome = true := hrow.isSome
    rw [storedFor_of_isSome hsome href, List.map_singleton]
    have hstore := h.stores (k := (i, ref)) hgrows hfresh hsome
      (h.outbox (i, call) (houtbox ▸ List.mem_cons_self) ref hclient)
    refine hstore.pass (r.effects.filterMap (reaches me))
      (fun id msg hmsg => ⟨msg, hmsg, .refl msg⟩) hsub hway fun f hf => ?_
    obtain ⟨effect, heffect, hframe⟩ := frame_of_reaches hf
    obtain ⟨push, hpush, hframe⟩ | rfl | rfl := frame_of_content heffects heffect hframe
    · have hcalm := hpushes ⟨"", "", false⟩ push hpush f hframe
      exact ⟨hcalm.server, hcalm.answers⟩
    · refine ⟨.ack call.frame msg, answers_ackFrame (k := (i, ref)) href ?_⟩
      rw [hid]
      exact List.mem_append_right _ (List.mem_singleton.mpr rfl)
    · exact ⟨.message call.frame me msg content hcontent, answers_messageFrame⟩
  | calm hnone hcalm =>
    rw [storedFor_of_none (hnone fresh hfresh), List.map_nil, List.append_nil]
    refine h.pass (r.effects.filterMap (reaches me)) hgrows hsub hway fun f hf => ?_
    obtain ⟨effect, heffect, hframe⟩ := frame_of_reaches hf
    have := hcalm ⟨"", "", false⟩ effect heffect f hframe
    exact ⟨this.server, this.answers⟩

/-- The server handles a frame of another connection. -/
theorem AppInv.frame (h : AppInv me s) (userId : UUID) (connectionId : String) (fresh : NewRow)
    (frame : Frame) :
    let r := handleFrame s.world userId connectionId fresh frame
    AppInv me
      { s with world := r.world, others := s.others ++ r.effects.filterMap (publishes me) } := by
  intro r
  have hgrows : Jobs.Grows s.world.messages r.world.messages :=
    grows_handleFrame s.world userId connectionId fresh frame
  refine h.pass (r.effects.filterMap (publishes me)) hgrows (fun p hp => hp) ?_ fun f hf => ?_
  · rw [List.append_assoc]
    exact (List.perm_append_comm_assoc _ _ _).subperm
  obtain ⟨effect, heffect, hpublishes⟩ := List.mem_filterMap.mp hf
  have hframe := effectFrame_of_publishes hpublishes
  have hhandling : Handling s.world userId fresh frame r :=
    handling s.world userId connectionId fresh frame
  cases hhandling with
  | content messageType toId msg content pushes htype hto hcontent hid hsender _ hrows hpushes
      heffects hraised =>
    rw [heffects] at heffect
    obtain heffect | heffect := List.mem_append.mp heffect
    · have hcalm := hpushes ⟨"", "", false⟩ effect heffect f hframe
      exact ⟨hcalm.server, hcalm.answers⟩
    obtain rfl | heffect := List.mem_cons.mp heffect
    · cases hpublishes
    · obtain rfl := List.mem_singleton.mp heffect
      obtain rfl := Option.some.inj hframe
      exact ⟨.message frame userId msg content hcontent, answers_messageFrame⟩
  | calm hnone hcalm =>
    have := hcalm ⟨"", "", false⟩ effect heffect f hframe
    exact ⟨this.server, this.answers⟩

theorem appStep_handle {now : Time} {f : Frame} {queue : List Frame} (ho : s.rooms[i]? = some o)
    (hopen : o.isOpen = true) (hqueue : o.queue = f :: queue) :
    appStep lib keys me s (.handle i now) =
      App.turn lib keys
        { s with
          confirmed := s.confirmed ++ (o.acked f).map fun p : String × String => ((i, p.1), p.2) }
        i { o with queue := queue } (.event (.frameReceived f) now) := by
  simp only [appStep, ho, Option.bind_some, hopen, hqueue]

/-- A room that handles a frame is open, and has one. -/
theorem appStep_handle_some {now : Time}
    (hs : appStep lib keys me s (.handle i now) = some s') :
    ∃ o f queue, s.rooms[i]? = some o ∧ o.isOpen = true ∧ o.queue = f :: queue := by
  obtain ⟨o, ho, hs⟩ := Option.bind_eq_some_iff.mp hs
  split at hs
  · next f queue hopen hqueue => exact ⟨o, f, queue, ho, hopen, hqueue⟩
  · cases hs

/-- The invariant, the rows stored and the names given after a frame is handled. -/
theorem AppInv.handle (h : AppInv me s) {now : Time} {f : Frame} {queue : List Frame}
    (ho : s.rooms[i]? = some o) (hopen : o.isOpen = true) (hqueue : o.queue = f :: queue)
    (hs : appStep lib keys me s (.handle i now) = some s') :
    AppInv me s' ∧ s'.stored = s.stored ∧ s'.confirmed = s.confirmed ++
      (o.acked f).map fun p : String × String => ((i, p.1), p.2) := by
  rw [appStep_handle ho hopen hqueue] at hs
  have hmem := List.mem_of_getElem? ho
  have hframes : ∀ g ∈ f :: queue, ServerFrame g ∧ Answers Prod.snd s.stored g :=
    hqueue ▸ h.queues o hmem
  have hinv : AppInv me
      { s with
        confirmed := s.confirmed ++ (o.acked f).map fun p : String × String => ((i, p.1), p.2) } :=
    { h with }
  have hroom : RoomInv (o.room s.storage) := h.rooms o hmem
  have hroom' : RoomInv (({ o with queue := queue } : OpenRoom).room s.storage) :=
    ⟨hroom.sound, hroom.refs⟩
  exact hinv.turn hroom' (fun g hg => hframes g (List.mem_cons_of_mem f hg))
    (admissible_frame (hframes f List.mem_cons_self).1) hs

/-- Every open room queues the frame that the device receives. -/
theorem AppInv.receive (h : AppInv me s) {f : Frame} {l : Line (ℕ × WsCall)}
    (htakes : s.line.takes = some (f, l)) :
    AppInv me
      { s with
        line := l
        rooms := s.rooms.map fun o =>
          if o.isOpen then { o with queue := o.queue ++ [f] } else o } := by
  have hperm : (s.onWay me).Perm (f :: (s.others ++ l.onWay me)) :=
    ((onWay_takes htakes).append_left s.others).trans List.perm_middle
  have hframe := h.frames f (hperm.mem_iff.mpr List.mem_cons_self)
  have hpass : AppInv me { s with line := l } :=
    h.pass [] (fun id msg hmsg => ⟨msg, hmsg, .refl msg⟩) (fun p hp => outbox_takes htakes ▸ hp)
      ((List.sublist_cons_self f _).subperm.trans hperm.symm.subperm)
      fun g hg => absurd hg List.not_mem_nil
  refine { hpass with rooms := fun o ho => ?_, queues := fun o ho g hg => ?_ }
  · obtain ⟨o', ho', rfl⟩ := List.mem_map.mp ho
    have hroom := h.rooms o' ho'
    split_ifs
    · exact ⟨hroom.sound, hroom.refs⟩
    · exact hroom
  · obtain ⟨o', ho', rfl⟩ := List.mem_map.mp ho
    split_ifs at hg
    · obtain hg | hg := List.mem_append.mp hg
      · exact h.queues o' ho' g hg
      · rw [List.mem_singleton.mp hg]
        exact hframe
    · exact h.queues o' ho' g hg

/-- Every step keeps the invariant. -/
theorem AppInv.step {action : AppAction} (h : AppInv me s)
    (hs : appStep lib keys me s action = some s') : AppInv me s' := by
  have hsame : Jobs.Grows s.world.messages s.world.messages := fun id msg hmsg =>
    ⟨msg, hmsg, .refl msg⟩
  cases action with
  | enter chat =>
    obtain rfl := Option.some.inj hs
    refine { h with rooms := fun o ho => ?_, queues := fun o ho => ?_ }
    · obtain ho | ho := List.mem_append.mp ho
      · exact h.rooms o ho
      · rw [List.mem_singleton.mp ho]
        exact roomInv_init s.storage
    · obtain ho | ho := List.mem_append.mp ho
      · exact h.queues o ho
      · rw [List.mem_singleton.mp ho]
        exact fun f hf => absurd hf List.not_mem_nil
  | leave i =>
    obtain ⟨o, ho, rfl⟩ := Option.map_eq_some_iff.mp hs
    have hroom := h.rooms o (List.mem_of_getElem? ho)
    refine { h with rooms := forall_set h.rooms ?_, queues := forall_set h.queues ?_ }
    · exact ⟨hroom.sound, hroom.refs⟩
    · exact fun f hf => absurd hf List.not_mem_nil
  | room i action history =>
    obtain ⟨o, ho, hs⟩ := Option.bind_eq_some_iff.mp hs
    obtain ⟨action', hadmits, hs⟩ := Option.bind_eq_some_iff.mp hs
    have hmem := List.mem_of_getElem? ho
    exact (h.turn (h.rooms o hmem) (h.queues o hmem) (admissible_admits hadmits) hs).1
  | handle i now =>
    obtain ⟨o, f, queue, ho, hopen, hqueue⟩ := appStep_handle_some hs
    exact (h.handle ho hopen hqueue hs).1
  | store storage =>
    obtain rfl := Option.some.inj hs
    exact { h with rooms := fun o ho => roomInv_storage (h.rooms o ho) storage }
  | receive =>
    obtain ⟨⟨f, l⟩, htakes, rfl⟩ := Option.map_eq_some_iff.mp hs
    exact h.receive htakes
  | serve connectionId fresh =>
    obtain ⟨⟨⟨i, call⟩, rest⟩, hreads, hs⟩ := Option.bind_eq_some_iff.mp hs
    simp only at hs
    split_ifs at hs with hfresh
    obtain rfl := Option.some.inj hs
    exact h.serve hreads connectionId (Option.isNone_iff_eq_none.mp hfresh)
  | perform =>
    obtain ⟨⟨effect, l⟩, hperforms, rfl⟩ := Option.map_eq_some_iff.mp hs
    refine h.pass [] hsame (fun p hp => ?_) ?_ (by simp)
    · rw [outbox_act hperforms] at hp
      exact hp
    · exact (List.subperm_append_left s.others).mpr (onWay_act hperforms)
  | frame userId connectionId fresh frame =>
    obtain rfl := Option.some.inj hs
    exact h.frame userId connectionId fresh frame
  | publish k =>
    obtain ⟨f, hf, rfl⟩ := Option.map_eq_some_iff.mp hs
    refine h.pass [] hsame (fun p hp => ?_) ?_ (by simp)
    · rw [outbox_publish] at hp
      exact hp
    · exact others_onWay_publish hf
  | relay =>
    obtain ⟨l, hrelay, rfl⟩ := Option.map_eq_some_iff.mp hs
    refine h.pass [] hsame (fun p hp => ?_) ?_ (by simp)
    · rw [outbox_relay hrelay] at hp
      exact hp
    · exact ((onWay_relay hrelay).append_left s.others).subperm
  | tick d =>
    obtain rfl := Option.some.inj hs
    exact h.pass [] hsame (fun p hp => hp) (List.Subperm.refl _) (by simp)

/-! ## The `ack` that is handled -/

theorem ServerFrame.eq_ackFrame {f : Frame} (h : ServerFrame f)
    (htype : asStr (Json.get f "type") = some "ack") : ∃ frame msg, f = ackFrame frame msg := by
  cases h with
  | notice f hf =>
    exfalso
    obtain ⟨t, ht, heq⟩ := hf
    rw [heq] at htype
    rw [Option.some.inj htype] at ht
    revert ht
    decide
  | ack frame msg => exact ⟨frame, msg, rfl⟩
  | message frame userId msg content hcontent => exact absurd (Option.some.inj htype) (by decide)
  | unsend messageId => exact absurd (Option.some.inj htype) (by decide)

theorem acked_ackFrame (o : OpenRoom) (frame : Frame) (msg : Message) :
    o.acked (ackFrame frame msg) =
      ((o.bloc.state.messages.map ChatMessage.id).filter fun name => some name = refOf frame).map
        (·, msg.id.str) := rfl

theorem acked_of_ne {f : Frame} (htype : asStr (Json.get f "type") ≠ some "ack") :
    o.acked f = [] := by
  unfold OpenRoom.acked
  split
  · next id heq _ => exact absurd heq htype
  · rfl

theorem onAck_messages (chat : Chat) (bloc : ChatBloc) (frame : Frame) (msg : Message) :
    (onAck chat bloc (ackFrame frame msg)).state.messages =
      bloc.state.messages.map (confirmed chat (refOf frame) msg.id.str msg.createdAt) :=
  (does_ack chat bloc (fun _ => none) frame msg).messages

/-- The frame an `ack` answers. -/
theorem AppInv.origin (h : AppInv me s) (ho : o ∈ s.rooms) {frame : Frame} {msg : Message}
    (hf : ackFrame frame msg ∈ o.queue) :
    ∃ j n, refOf frame = some (refName n) ∧ ((j, refName n), msg.id) ∈ s.stored := by
  obtain ⟨⟨j, ref⟩, href, hmem⟩ := (h.queues o ho _ hf).2 frame msg rfl
  obtain ⟨n, hn⟩ := h.refs _ hmem
  have hname : ref = refName n := hn
  subst hname
  exact ⟨j, n, href, hmem⟩

/-- The bubble of its own frame is the only one an `ack` should rename. -/
theorem AppInv.own_iff (h : AppInv me s) {j n : ℕ} {u : UUID}
    (hstored : ((j, refName n), u) ∈ s.stored) (name : String) :
    ((i, name), u) ∈ s.stored ↔ i = j ∧ name = refName n := by
  constructor
  · intro hmem
    have := h.origin_unique hmem hstored
    exact Prod.mk.inj this
  · rintro ⟨rfl, rfl⟩
    exact hstored

/-- An `ack` does what it should if and only if it is one of the room, or finds no
    bubble. -/
theorem AppInv.onAck_iff (h : AppInv me s) {frame : Frame} {msg : Message} {j n : ℕ}
    (href : refOf frame = some (refName n)) (hstored : ((j, refName n), msg.id) ∈ s.stored) :
    (onAck o.chat o.bloc (ackFrame frame msg)).state.messages =
        o.bloc.state.messages.map (s.confirms i o.chat msg) ↔
      (j ≠ i → ∀ m ∈ o.bloc.state.messages, some m.id ≠ refOf frame) := by
  rw [onAck_messages, List.map_inj_left]
  have hrename : ∀ m : ChatMessage, m.id = refName n →
      confirmed o.chat (refOf frame) msg.id.str msg.createdAt m ≠ m := by
    intro m hm heq
    have hid := congrArg ChatMessage.id heq
    unfold confirmed at hid
    rw [if_pos (by rw [href, hm]), hm] at hid
    exact refName_ne_str n msg.id hid.symm
  constructor
  · intro heq hne m hm hclash
    have hname : m.id = refName n := Option.some.inj (hclash.trans href)
    refine hrename m hname ((heq m hm).trans (if_neg fun hmem => ?_))
    exact hne ((h.own_iff hstored m.id).mp hmem).1.symm
  · intro hclear m hm
    unfold confirmed App.confirms
    refine if_congr ?_ rfl rfl
    rw [h.own_iff hstored, href, Option.some.injEq]
    constructor
    · intro hname
      refine ⟨?_, hname⟩
      by_contra hne
      exact hclear (Ne.symm hne) m hm (by rw [hname, href])
    · exact And.right

theorem AppInv.count_own_le (h : AppInv me s) (ho : o ∈ s.rooms) {msg : Message} {j n : ℕ}
    (hstored : ((j, refName n), msg.id) ∈ s.stored) :
    o.bloc.state.messages.countP (fun m => decide (((i, m.id), msg.id) ∈ s.stored)) ≤ 1 := by
  have hle : o.bloc.state.messages.countP (fun m => decide (((i, m.id), msg.id) ∈ s.stored)) ≤
      (o.room s.storage).names.count (refName n) := by
    unfold Room.names
    rw [List.count, List.countP_map]
    refine List.countP_mono_left fun m _ hm => ?_
    rw [Function.comp_apply, beq_iff_eq]
    exact ((h.own_iff hstored m.id).mp (of_decide_eq_true hm)).2
  have hrefs := (h.rooms o ho).refs n
  split_ifs at hrefs <;> omega

/-- The `ack`s of other instances, by the row they name. -/
theorem noClash_iff (h : AppInv me s) {now : Time} :
    NoClash s (.handle i now) ↔ ∀ o, s.rooms[i]? = some o → o.isOpen = true → ∀ frame msg,
      o.queue.head? = some (ackFrame frame msg) → ∀ j n,
        refOf frame = some (refName n) → ((j, refName n), msg.id) ∈ s.stored → j ≠ i →
          ∀ m ∈ o.bloc.state.messages, some m.id ≠ refOf frame := by
  constructor
  · intro hclear o ho hopen frame msg hhead j n href hstored hne
    exact hclear o ho hopen (ackFrame frame msg) hhead rfl ((j, refName n), msg.id) hstored rfl hne
  · intro hclear o ho hopen f hhead htype p hp hid hne m hm
    have hmem := List.mem_of_getElem? ho
    have hqueue : f ∈ o.queue := List.mem_of_mem_head? hhead
    obtain ⟨frame, msg, rfl⟩ := (h.queues o hmem f hqueue).1.eq_ackFrame htype
    obtain ⟨j, n, href, hstored⟩ := h.origin hmem hqueue
    have hrow : msg.id = p.2 := UUID.str_injective (Option.some.inj hid)
    have hkey : p.1 = (j, refName n) := h.origin_unique (u := msg.id) (hrow ▸ hp) hstored
    refine hclear o ho hopen frame msg hhead j n href hstored ?_ m hm
    rw [hkey] at hne
    exact hne

theorem ackExact_iff (h : AppInv me s) (action : AppAction) :
    AckExact s action ↔ NoClash s action := by
  cases action with
  | handle i now =>
    rw [noClash_iff h]
    constructor
    · intro hexact o ho hopen frame msg hhead j n href hstored
      exact (h.onAck_iff href hstored).mp (hexact o ho hopen frame msg hhead).1
    · intro hclear o ho hopen frame msg hhead
      have hmem := List.mem_of_getElem? ho
      obtain ⟨j, n, href, hstored⟩ := h.origin hmem (List.mem_of_mem_head? hhead)
      exact ⟨(h.onAck_iff href hstored).mpr (hclear o ho hopen frame msg hhead j n href hstored),
        h.count_own_le hmem hstored⟩
  | enter | leave | room | store | receive | serve | perform | frame | publish | relay | tick =>
    exact Iff.rfl

/-- An `ack` that is handled without a clash names own rows only. -/
theorem own_of_acked (h : AppInv me s) {now : Time} (hclear : NoClash s (.handle i now))
    (ho : s.rooms[i]? = some o) (hopen : o.isOpen = true) {f : Frame} {queue : List Frame}
    (hqueue : o.queue = f :: queue) {name id : String} (hacked : (name, id) ∈ o.acked f) :
    ∃ q ∈ s.stored, q.1 = (i, name) ∧ q.2.str = id := by
  by_cases htype : asStr (Json.get f "type") = some "ack"
  · have hmem := List.mem_of_getElem? ho
    have hf : f ∈ o.queue := hqueue ▸ List.mem_cons_self
    obtain ⟨frame, msg, rfl⟩ := (h.queues o hmem f hf).1.eq_ackFrame htype
    obtain ⟨j, n, href, hrow⟩ := h.origin hmem hf
    rw [acked_ackFrame] at hacked
    obtain ⟨name', hname', heq⟩ := List.mem_map.mp hacked
    obtain ⟨rfl, rfl⟩ := Prod.mk.inj heq
    obtain ⟨hshown, hclash⟩ := List.mem_filter.mp hname'
    obtain ⟨m, hm, rfl⟩ := List.mem_map.mp hshown
    have hclash := of_decide_eq_true hclash
    have hj : j = i := by
      by_contra hne
      have hhead : o.queue.head? = some (ackFrame frame msg) := by
        rw [hqueue]
        rfl
      exact (noClash_iff h).mp hclear o ho hopen frame msg hhead j n href hrow hne m hm hclash
    have hname : m.id = refName n := Option.some.inj (hclash.trans href)
    exact ⟨_, hrow, by rw [hj, hname], rfl⟩
  · rw [acked_of_ne htype] at hacked
    cases hacked

/-- A frame is confirmed when a room handles it, and messages stay stored. -/
theorem appStep_stored {action : AppAction} (h : AppInv me s)
    (hhandle : ∀ i now, action ≠ .handle i now) (hs : appStep lib keys me s action = some s') :
    (∃ more, s'.stored = s.stored ++ more) ∧ s'.confirmed = s.confirmed := by
  cases action with
  | handle i now => exact absurd rfl (hhandle i now)
  | room i action history =>
    obtain ⟨o, ho, hs⟩ := Option.bind_eq_some_iff.mp hs
    obtain ⟨action', hadmits, hs⟩ := Option.bind_eq_some_iff.mp hs
    have hmem := List.mem_of_getElem? ho
    obtain ⟨-, hstored, hconfirmed⟩ :=
      h.turn (h.rooms o hmem) (h.queues o hmem) (admissible_admits hadmits) hs
    exact ⟨⟨[], by rw [hstored, List.append_nil]⟩, hconfirmed⟩
  | serve connectionId fresh =>
    obtain ⟨⟨⟨i, call⟩, rest⟩, hreads, hs⟩ := Option.bind_eq_some_iff.mp hs
    simp only at hs
    split_ifs at hs
    obtain rfl := Option.some.inj hs
    exact ⟨⟨_, rfl⟩, rfl⟩
  | enter chat =>
    obtain rfl := Option.some.inj hs
    exact ⟨⟨[], (List.append_nil _).symm⟩, rfl⟩
  | store storage =>
    obtain rfl := Option.some.inj hs
    exact ⟨⟨[], (List.append_nil _).symm⟩, rfl⟩
  | frame userId connectionId fresh frame =>
    obtain rfl := Option.some.inj hs
    exact ⟨⟨[], (List.append_nil _).symm⟩, rfl⟩
  | tick d =>
    obtain rfl := Option.some.inj hs
    exact ⟨⟨[], (List.append_nil _).symm⟩, rfl⟩
  | leave i =>
    obtain ⟨o, -, rfl⟩ := Option.map_eq_some_iff.mp hs
    exact ⟨⟨[], (List.append_nil _).symm⟩, rfl⟩
  | receive =>
    obtain ⟨⟨f, l⟩, -, rfl⟩ := Option.map_eq_some_iff.mp hs
    exact ⟨⟨[], (List.append_nil _).symm⟩, rfl⟩
  | perform =>
    obtain ⟨⟨effect, l⟩, -, rfl⟩ := Option.map_eq_some_iff.mp hs
    exact ⟨⟨[], (List.append_nil _).symm⟩, rfl⟩
  | publish k =>
    obtain ⟨f, -, rfl⟩ := Option.map_eq_some_iff.mp hs
    exact ⟨⟨[], (List.append_nil _).symm⟩, rfl⟩
  | relay =>
    obtain ⟨l, -, rfl⟩ := Option.map_eq_some_iff.mp hs
    exact ⟨⟨[], (List.append_nil _).symm⟩, rfl⟩

/-- Without a clash, confirmed bubbles keep own rows. -/
theorem ConfirmedOwn.step {action : AppAction} (h : AppInv me s) (hown : ConfirmedOwn s)
    (hclear : NoClash s action) (hs : appStep lib keys me s action = some s') :
    ConfirmedOwn s' := by
  intro p hp
  by_cases hhandle : ∃ i now, action = .handle i now
  · obtain ⟨i, now, rfl⟩ := hhandle
    obtain ⟨o, f, queue, ho, hopen, hqueue⟩ := appStep_handle_some hs
    obtain ⟨-, hstored, hconfirmed⟩ := h.handle ho hopen hqueue hs
    rw [hconfirmed] at hp
    rw [hstored]
    obtain hp | hp := List.mem_append.mp hp
    · exact hown p hp
    · obtain ⟨⟨name, id⟩, hacked, rfl⟩ := List.mem_map.mp hp
      exact own_of_acked h hclear ho hopen hqueue hacked
  · have hother : ∀ i now, action ≠ .handle i now := fun i now heq => hhandle ⟨i, now, heq⟩
    obtain ⟨⟨more, hstored⟩, hconfirmed⟩ := appStep_stored h hother hs
    rw [hconfirmed] at hp
    obtain ⟨q, hq, heq⟩ := hown p hp
    rw [hstored]
    exact ⟨q, List.mem_append_left _ hq, heq⟩

/-- A clash gives a bubble the row of another message. -/
theorem not_confirmedOwn {action : AppAction} (h : AppInv me s) (hclash : ¬ NoClash s action) :
    ∃ s' ∈ appStep lib keys me s action, ¬ ConfirmedOwn s' := by
  cases action with
  | handle i now =>
    rw [noClash_iff h] at hclash
    push Not at hclash
    obtain ⟨o, ho, hopen, frame, msg, hhead, j, n, href, hrow, hne, m, hm, hname⟩ := hclash
    obtain ⟨queue, hqueue⟩ : ∃ queue, o.queue = ackFrame frame msg :: queue := by
      cases hq : o.queue with
      | nil =>
        rw [hq] at hhead
        cases hhead
      | cons f queue =>
        rw [hq] at hhead
        obtain rfl := Option.some.inj hhead
        exact ⟨queue, rfl⟩
    obtain ⟨s', hs⟩ : ∃ s', appStep lib keys me s (.handle i now) = some s' := by
      rw [appStep_handle ho hopen hqueue]
      exact ⟨_, rfl⟩
    obtain ⟨-, hstored, hconfirmed⟩ := h.handle ho hopen hqueue hs
    refine ⟨s', hs, fun hown => ?_⟩
    have hentry : ((i, m.id), msg.id.str) ∈ s'.confirmed := by
      rw [hconfirmed, acked_ackFrame]
      refine List.mem_append_right _ (List.mem_map.mpr ⟨(m.id, msg.id.str), ?_, rfl⟩)
      refine List.mem_map.mpr ⟨m.id, List.mem_filter.mpr ⟨List.mem_map_of_mem hm, ?_⟩, rfl⟩
      exact decide_eq_true hname
    obtain ⟨⟨k, u⟩, hk, hkey, hid⟩ := hown _ hentry
    rw [hstored] at hk
    have hkeys : k = (i, m.id) := hkey
    have hrows : u = msg.id := UUID.str_injective hid
    subst hkeys hrows
    exact hne ((h.own_iff hrow m.id).mp hk).1.symm
  | enter | leave | room | store | receive | serve | perform | frame | publish | relay | tick =>
    exact absurd trivial hclash

/-! ## Runs -/

/-- **Acknowledgements.** In a run of any number of rooms on one connection, every
    `ack` confirms the bubble whose frame it answers and changes no other, if and
    only if no instance handles an `ack` of another one's frame while it shows a
    bubble under the same ref. The same runs are those in which every confirmed
    bubble carries the id of its own row throughout. -/
theorem acks_exact_iff (lib : Libsignal S) (keys : KeyServer) (me : UUID) (world : World)
    (storage : Storage) (actions : List AppAction) :
    (Guarded (appStep lib keys me) AckExact (.init world storage) actions ↔
      Guarded (appStep lib keys me) NoClash (.init world storage) actions) ∧
    (Throughout (appStep lib keys me) ConfirmedOwn (.init world storage) actions ↔
      Guarded (appStep lib keys me) NoClash (.init world storage) actions) := by
  have hinit := appInv_init me world storage
  constructor
  · exact guarded_congr (I := AppInv me) (fun _ _ _ h hs => h.step hs)
      (fun _ action h => ackExact_iff h action) hinit
  · refine throughout_iff_guarded (I := fun s => AppInv me s ∧ ConfirmedOwn s) (fun _ h => h.2)
      (fun _ _ _ h hclear hs => ⟨h.1.step hs, h.2.step h.1 hclear hs⟩)
      (fun _ _ h hclash => not_confirmedOwn h.1 hclash) ⟨hinit, fun p hp => ?_⟩
    cases hp

instance (s : App) : ∀ action, Decidable (NoClash s action)
  | .handle i _ => inferInstanceAs (Decidable (∀ o ∈ s.rooms[i]?, o.isOpen = true →
      ∀ f ∈ o.queue.head?, asStr (Json.get f "type") = some "ack" →
        ∀ p ∈ s.stored, asStr (Json.get f "message_id") = some p.2.str → p.1.1 ≠ i →
          ∀ m ∈ o.bloc.state.messages, some m.id ≠ refOf f))
  | .enter _ | .leave _ | .room .. | .store _ | .receive | .serve .. | .perform | .frame ..
  | .publish _ | .relay | .tick _ => isTrue trivial

instance (s : App) : Decidable (ConfirmedOwn s) :=
  inferInstanceAs (Decidable (∀ p ∈ s.confirmed, ∃ q ∈ s.stored, q.1 = p.1 ∧ q.2.str = p.2))

/-- The room of user 7 with user 1. -/
def ackChat : Chat := ⟨(7 : UUID).str, (1 : UUID).str, false⟩

def sampleApp : App := .init sampleWorld fun _ => none

/-- A text is sent, the room is left and entered again, and another text is sent
    before the first is acknowledged. -/
def sendTwice : List AppAction :=
  [.enter ackChat, .room 0 (.event (.contentSent (.textSent "hello")) 0) (.ok []), .leave 0,
    .enter ackChat, .room 1 (.event (.contentSent (.textSent "again")) 0) (.ok []),
    .serve "c" 200, .perform, .perform, .receive, .handle 1 0]

/-- Both texts are sent as `ref_1`: the second takes the row of the first. -/
theorem twoRooms_sameRef :
    ¬ Guarded (appStep sampleLib sampleKeys 7) AckExact sampleApp sendTwice ∧
      ∃ s ∈ run (appStep sampleLib sampleKeys 7) sampleApp sendTwice, ¬ ConfirmedOwn s ∧
        (∃ o ∈ s.rooms[1]?, o.bloc.state.messages.map (fun m => (m.id, m.content)) =
          [((200 : UUID).str, some "again")]) ∧
        ∃ row ∈ s.world.messages.byId 200, row.contentCiphertext = some "hello" := by
  have hclash : ¬ Guarded (appStep sampleLib sampleKeys 7) NoClash sampleApp sendTwice := by
    decide +kernel
  refine ⟨fun hexact => hclash ?_, by decide +kernel⟩
  exact (guarded_congr (I := AppInv 7) (fun _ _ _ h hs => h.step hs)
    (fun _ action h => ackExact_iff h action) (appInv_init 7 sampleWorld _)).mp hexact

end IronLink.Client
