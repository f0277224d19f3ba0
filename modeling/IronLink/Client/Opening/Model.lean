import IronLink.Client.Stored
import IronLink.Messages.History

/-!
# Opening a chat room

The page of a room creates its `ChatBloc` and adds `ChatOpened`
(frontend/lib/features/chat/screens/chat_room_screen.dart:46-54). The history is
read by the server at some moment and handled at a later one; in between the
room shows what is sent and what arrives. The answer then replaces all of it.

The connection belongs to the app: other rooms, and earlier instances of this one,
send on it as well, number their messages from `ref_1` on as it does, and all their
`ack`s reach it.

Results:
* `count_renamed_of_ne`, `count_renamed_self`: what an `ack` does to the names.
-/

namespace IronLink.Client

open Lib Messages Ws

/-! ## Model -/

/-- The `limit` that `history` asks for (chat_repository.dart:97-103). -/
def HISTORY_LIMIT : ℕ := 100

/-- A device, one of its rooms, and the server. What the room has sent is marked on
    the line. The last five fields are no data of the program: the refs that the
    room has sent messages under, the rows stored for them and for those of the
    other rooms, and the messages that arrived and that the history brought. -/
structure Opening where
  world : World
  isOpened : Bool
  room : Room
  line : Line (Bool × WsCall)
  /-- what other handlers have still to publish on the user's channel -/
  others : List Frame
  /-- the answer to the history request -/
  response : Option (Except String (List ChatMessage))
  sent : List String
  stored : List (String × UUID)
  elsewhere : List (String × UUID)
  arrived : List String
  answered : List String

/-- The device before the room is opened. -/
def Opening.init (world : World) (storage : Storage) : Opening :=
  ⟨world, false, .init storage, .idle, [], none, [], [], [], [], []⟩

inductive OpeningAction
  /-- the page of the room is built -/
  | enter (now : Time)
  /-- a piece of a handler of the room -/
  | room (action : RoomAction)
  /-- other rooms of the app, or earlier instances of this one, send -/
  | sendElsewhere (calls : List WsCall)
  /-- the device gets a frame -/
  | receive (now : Time)
  /-- the server reads the history -/
  | evaluate (messages : List Message)
  /-- the history request fails -/
  | refuse (err : String)
  /-- the server reads a frame of the device; `fresh` is the key a new row gets -/
  | serve (connectionId : String) (fresh : NewRow)
  /-- the handler of that frame goes on -/
  | perform
  /-- the server reads a frame of another connection, of any user -/
  | frame (userId : UUID) (connectionId : String) (fresh : NewRow) (frame : Frame)
  /-- the `k`-th publication of the other handlers -/
  | publish (k : ℕ)
  | relay
  | tick (d : ℕ)

section Model

variable {S : Type} (lib : Libsignal S) (keys : KeyServer) (me peer : UUID) (isSecret : Bool)

/-- The room of `me` with `peer`. -/
def chatOf : Chat := ⟨me.str, peer.str, isSecret⟩

/-- What can happen in the room: it is opened once, frames come from the
    connection, and the history is what the server answered. -/
def Opening.admits (s : Opening) : RoomAction → Option RoomAction
  | .event .chatOpened _ => none
  | .event (.frameReceived _) _ => none
  | .event e now => if s.isOpened then some (.event e now) else none
  | .resume i answer =>
    match s.room.waiting[i]? with
    | some .history => s.response.map fun history => .resume i { answer with history := history }
    | _ => some (.resume i answer)
  | .store storage => some (.store storage)

/-- A piece of a handler of the room. -/
def Opening.turn (s : Opening) (action : RoomAction) : Option Opening :=
  (segment lib keys (chatOf me peer isSecret) s.room action).map fun seg =>
    { s with
      room := s.room.after action seg
      line := s.line.send (seg.calls.map (true, ·))
      sent := s.sent ++ seg.calls.filterMap WsCall.clientRef
      arrived := s.arrived ++ (action.heard (chatOf me peer isSecret)).toList
      answered := s.answered ++ ((s.room.answered action).getD []).map ChatMessage.id }

def openingStep (s : Opening) : OpeningAction → Option Opening
  | .enter now =>
    if s.isOpened then none
    else { s with isOpened := true }.turn lib keys me peer isSecret (.event .chatOpened now)
  | .room action => (s.admits action).bind (s.turn lib keys me peer isSecret)
  | .sendElsewhere calls => some { s with line := s.line.send (calls.map (false, ·)) }
  | .receive now =>
    s.line.takes.bind fun (f, line) =>
      if s.isOpened then
        { s with line := line }.turn lib keys me peer isSecret (.event (.frameReceived f) now)
      else some { s with line := line }
  | .evaluate messages =>
    if s.response.isNone ∧ s.isOpened ∧ (s.world.users.byId peer).isSome ∧
        IsHistory s.world.messages me peer none HISTORY_LIMIT messages then
      some { s with response := some (.ok (messages.map (ChatMessage.ofRow me.str))) }
    else none
  | .refuse err =>
    if s.response.isNone ∧ s.isOpened then some { s with response := some (.error err) } else none
  | .serve connectionId fresh =>
    s.line.reads.bind fun ((own, call), rest) =>
      if (s.world.messages.byId fresh).isNone then
        let r := handleFrame s.world me connectionId fresh call.frame
        let rows := storedFor call.frame r fresh
        some { s with
          world := r.world
          line := s.line.handled rest r
          stored := s.stored ++ if own then rows else []
          elsewhere := s.elsewhere ++ if own then [] else rows }
      else none
  | .perform => s.line.performs.map fun (effect, line) => { s with line := line.act me effect }
  | .frame userId connectionId fresh frame =>
    let r := handleFrame s.world userId connectionId fresh frame
    some { s with world := r.world, others := s.others ++ r.effects.filterMap (publishes me) }
  | .publish k =>
    s.others[k]?.map fun f => { s with others := s.others.eraseIdx k, line := s.line.publish f }
  | .relay => s.line.relay.map fun line => { s with line := line }
  | .tick d => some { s with world := { s.world with now := s.world.now + d } }

/-- The frames on their way to the device. -/
def Opening.onWay (s : Opening) : List Frame := s.others ++ s.line.onWay me

/-- How often the message `id` is still to be shown. -/
def Opening.coming (s : Opening) (id : String) : ℕ :=
  (s.onWay me).countP (fun f => decide ((chatOf me peer isSecret).heard f = some id)) +
    s.room.decrypts id

/-- `name` names the message sent under `ref`: by the ref, or by its row. -/
def Opening.isNameOf (s : Opening) (ref name : String) : Bool :=
  decide (name = ref) || s.stored.any fun p => decide (p.1 = ref) && decide (name = p.2.str)

/-- The history is there, and so is everything that was sent. -/
structure Opening.Settled (s : Opening) : Prop where
  line : s.line.Quiet
  others : s.others = []
  waiting : s.room.waiting = []

/-- Every message is shown exactly once: those of the history, those that arrived,
    and those that were sent in the room. -/
structure Opening.Complete (s : Opening) : Prop where
  answered : ∀ id ∈ s.answered, s.room.names.count id = 1
  arrived : ∀ id ∈ s.arrived, s.room.names.count id = 1
  sent : ∀ ref ∈ s.sent, s.room.names.countP (s.isNameOf ref) = 1

/-- The `ack` of a message of another room finds no bubble under its ref. -/
def Opening.Unclashed (s : Opening) (f : Frame) : Prop :=
  asStr (Json.get f "type") = some "ack" →
    ∀ p ∈ s.elsewhere, asStr (Json.get f "message_id") = some p.2.str →
      ∀ name ∈ s.room.names, some name ≠ refOf f

instance (s : Opening) (f : Frame) : Decidable (s.Unclashed f) := by
  unfold Opening.Unclashed
  infer_instance

/-- When the history is handled, it holds every message that the room shows, and
    no message that is still to come; and no `ack` of another room takes a bubble. -/
def Undisturbed (s : Opening) : OpeningAction → Prop
  | .room action => ∀ action' ∈ s.admits action, ∀ messages ∈ s.room.answered action',
      (∀ name ∈ s.room.names, name ∈ messages.map ChatMessage.id ∨
        ∃ p ∈ s.stored, p.1 = name ∧ p.2.str ∈ messages.map ChatMessage.id) ∧
      ∀ m ∈ messages, s.coming me peer isSecret m.id = 0
  | .receive _ => ∀ taken ∈ s.line.takes, s.isOpened = true → s.Unclashed taken.1
  | _ => True

end Model

/-! ## Names -/

theorem count_renamed_of_ne {ref id name : String} (href : name ≠ ref) (hid : name ≠ id)
    (names : List String) : (names.map (renamed (some ref) id)).count name = names.count name := by
  rw [List.count, List.countP_map]
  refine List.countP_congr fun y _ => ?_
  rw [Function.comp_apply, beq_iff_eq, beq_iff_eq]
  unfold renamed
  split_ifs with hy
  · obtain rfl := Option.some.inj hy
    exact iff_of_false hid.symm href.symm
  · exact Iff.rfl

theorem count_renamed_self {ref id : String} (hne : ref ≠ id) (names : List String) :
    (names.map (renamed (some ref) id)).count id = names.count id + names.count ref := by
  induction names with
  | nil => rfl
  | cons first names ih =>
    have hfirst : (if renamed (some ref) id first == id then 1 else 0) =
        (if first == id then 1 else 0) + if first == ref then 1 else 0 := by
      unfold renamed
      by_cases href : first = ref
      · subst href
        simp [hne]
      · have hsome : ¬ some first = some ref := fun h => href (Option.some.inj h)
        simp [hsome, href]
    rw [List.map_cons, List.count_cons, List.count_cons, List.count_cons, ih, hfirst]
    omega

theorem isNameOf_iff {s : Opening} {ref name : String} : s.isNameOf ref name = true ↔
    name = ref ∨ ∃ u, (ref, u) ∈ s.stored ∧ name = u.str := by
  simp only [Opening.isNameOf, Bool.or_eq_true, decide_eq_true_eq, List.any_eq_true,
    Bool.and_eq_true, Prod.exists]
  constructor
  · rintro (h | ⟨ref', u, hmem, rfl, hname⟩)
    · exact .inl h
    · exact .inr ⟨u, hmem, hname⟩
  · rintro (h | ⟨u, hmem, hname⟩)
    · exact .inl h
    · exact .inr ⟨ref, u, hmem, rfl, hname⟩

end IronLink.Client
