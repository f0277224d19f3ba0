import IronLink.Client.Opening.Model
import IronLink.Client.Tombstones

/-!
# Two devices with their chat open

A sender and a recipient with the room of their chat open, and the server between
them. Either may retract messages: the bubble is marked at once, the row when the
server grants it (app/services/message_service.py:115-143), the bubble of the
other when the `unsend` frame arrives.

Results:
* `marks_takes`, `marks_relay`, `marks_handled`, `marks_act`, `marks_hears`: what
  the frames on their way do to a bubble, in the order in which they come.
-/

namespace IronLink.Client

open Lib Messages Ws

/-! ## Model -/

inductive Party
  | sender
  | recipient
  deriving DecidableEq

def Party.other : Party → Party
  | .sender => .recipient
  | .recipient => .sender

/-- A device with its room open. The last field is no data of the program: the
    refs that messages were sent under, and the rows stored for them. -/
structure Device where
  room : Room
  line : Line WsCall
  stored : List (String × UUID)

structure Pair where
  world : World
  device : Party → Device

def Pair.set (s : Pair) (p : Party) (d : Device) : Pair :=
  { s with device := fun q => if q = p then d else s.device q }

inductive PairAction
  /-- a piece of a handler of the room -/
  | room (p : Party) (action : RoomAction)
  /-- the device gets a frame -/
  | receive (p : Party) (now : Time)
  /-- the server reads a frame of the device; `fresh` is the key a new row gets -/
  | serve (p : Party) (connectionId : String) (fresh : NewRow)
  /-- the handler of that frame goes on -/
  | perform (p : Party)
  | relay (p : Party)
  | tick (d : ℕ)

/-- An effect of another handler, as far as the device of `me` is concerned. -/
def Line.hears {κ : Type} (l : Line κ) (me : UUID) : Effect → Line κ
  | .publish userId f => if userId = me then l.publish f else l
  | _ => l

/-- What can happen in an open room beside frames; its history is there. -/
def Room.admits (room : Room) : RoomAction → Bool
  | .event .chatOpened _ => false
  | .event (.frameReceived _) _ => false
  | .event _ _ => true
  | .resume i _ =>
    match room.waiting[i]? with
    | some .history => false
    | _ => true
  | .store _ => true

/-- The message a call asks to retract. -/
def WsCall.retracts : WsCall → Option String
  | .unsend messageId => some messageId
  | _ => none

section Model

variable {S : Type} (lib : Libsignal S) (keys : KeyServer) (me : Party → UUID)
  (isSecret : Party → Bool)

/-- The room of `p` with the other. -/
def partyChat (p : Party) : Chat := chatOf (me p) (me p.other) (isSecret p)

/-- A piece of a handler of the room of `p`; `line` is its connection before. -/
def Pair.turn (s : Pair) (p : Party) (line : Line WsCall) (action : RoomAction) : Option Pair :=
  (segment lib keys (partyChat me isSecret p) (s.device p).room action).map fun seg =>
    s.set p
      { s.device p with
        room := (s.device p).room.after action seg
        line := line.send seg.calls }

def pairStep (s : Pair) : PairAction → Option Pair
  | .room p action =>
    if (s.device p).room.admits action then s.turn lib keys me isSecret p (s.device p).line action
    else none
  | .receive p now =>
    (s.device p).line.takes.bind fun (f, line) =>
      s.turn lib keys me isSecret p line (.event (.frameReceived f) now)
  | .serve p connectionId fresh =>
    (s.device p).line.reads.bind fun (call, rest) =>
      if (s.world.messages.byId fresh).isNone then
        let r := handleFrame s.world (me p) connectionId fresh call.frame
        some ({ s with world := r.world }.set p
          { s.device p with
            line := (s.device p).line.handled rest r
            stored := (s.device p).stored ++ storedFor call.frame r fresh })
      else none
  | .perform p =>
    (s.device p).line.performs.map fun (effect, line) =>
      { s with
        device := fun q =>
          if q = p then { s.device p with line := line.act (me p) effect }
          else { s.device q with line := (s.device q).line.hears (me q) effect } }
  | .relay p => (s.device p).line.relay.map fun line => s.set p { s.device p with line := line }
  | .tick d => some { s with world := { s.world with now := s.world.now + d } }

/-- Both rooms show what the history request has answered, and nothing is on its
    way. -/
structure Pair.Opened (s : Pair) : Prop where
  keys : (s.world.messages.map Message.id).Nodup
  history : ∀ p, ∃ messages,
    IsHistory s.world.messages (me p) (me p.other) none HISTORY_LIMIT messages ∧
      (s.device p).room.bloc.state.messages = messages.map (ChatMessage.ofRow (me p).str)
  waiting : ∀ p, (s.device p).room.waiting = []
  line : ∀ p, (s.device p).line = .idle
  stored : ∀ p, (s.device p).stored = []

/-- The connection has not ended, nothing is on its way, and no handler waits. -/
def Device.Settled (d : Device) : Prop :=
  d.line.isOpen = true ∧ d.line.Quiet ∧ d.room.waiting = []

/-- Every frame has been handled. -/
def Pair.Settled (s : Pair) : Prop := ∀ p, (s.device p).Settled

/-- A bubble of row `u` is marked deleted if and only if the row is, whether it
    goes by the id of the row or still by its ref. -/
def Pair.Converged (s : Pair) : Prop :=
  ∀ p u, ∀ row ∈ s.world.messages.byId u, ∀ m ∈ (s.device p).room.bloc.state.messages,
    m.id = u.str ∨ (m.id, u) ∈ (s.device p).stored → m.deleted = row.deletedForEveryone

/-- The request to retract a message that is shown deleted is granted, or was
    granted before; an `unsend` frame finds no message that is still to be
    decrypted. -/
def Granted (s : Pair) : PairAction → Prop
  | .serve p _ _ => ∀ call ∈ (s.device p).line.outbox.head?, ∀ id ∈ call.retracts,
      Shows (s.device p).room.bloc.state.messages id true →
        ∀ row ∈ (UUID.ofStr id).bind s.world.messages.byId, row.deletedForEveryone = true ∨
          row.senderId = some (me p) ∧ s.world.now - row.createdAt ≤ UNSEND_WINDOW
  | .receive p _ => ∀ f ∈ (s.device p).line.inbox.head?,
      asStr (Json.get f "type") = some "unsend" →
        ∀ id ∈ asStr (Json.get f "message_id"), (s.device p).room.decrypts id = 0
  | _ => True

end Model

/-! ## The frames on their way, in order -/

section Stream

variable {κ : Type} {l l' other other' : Line κ} {me u : UUID} {effect : Effect} {call : κ}
  {rest : List κ} {r : Handled}

/-- The frames on their way to the device of `me`, the next one first; `other` is
    the connection of the other device, whose handler publishes too. -/
def Line.stream (l other : Line κ) (me : UUID) : List Frame :=
  l.inbox ++ (l.channel ++
    (other.running.filterMap (publishes me) ++ l.running.filterMap (reaches me)))

/-- What they do to the bubble of row `u`. -/
def Line.marks (l other : Line κ) (me u : UUID) : List Bool :=
  (l.stream other me).filterMap (mark u.str)

theorem marks_eq (l other : Line κ) (me u : UUID) : l.marks other me u =
    l.inbox.filterMap (mark u.str) ++ (l.channel.filterMap (mark u.str) ++
      ((other.running.filterMap (publishes me)).filterMap (mark u.str) ++
        (l.running.filterMap (reaches me)).filterMap (mark u.str))) := by
  unfold Line.marks Line.stream
  rw [List.filterMap_append, List.filterMap_append, List.filterMap_append]

theorem marks_of_quiet (h : l.Quiet) (hother : other.Quiet) : l.marks other me u = [] := by
  obtain ⟨-, hrunning, hchannel, hinbox⟩ := h
  rw [marks_eq, hinbox, hchannel, hrunning, hother.2.1]
  rfl

theorem marks_other (h : other'.running = other.running) :
    l.marks other' me u = l.marks other me u := by
  rw [marks_eq, marks_eq, h]

theorem send_of_open (hopen : l.isOpen = true) (frames : List κ) :
    l.send frames = { l with outbox := l.outbox ++ frames } := if_pos hopen

theorem publish_of_open (hopen : l.isOpen = true) (f : Frame) :
    l.publish f = { l with channel := l.channel ++ [f] } := if_pos hopen

theorem relay_some (h : l.relay = some l') :
    ∃ f rest, l.channel = f :: rest ∧ l' = { l with channel := rest, inbox := l.inbox ++ [f] } := by
  unfold Line.relay at h
  split at h
  · cases h
  · next f rest hchannel => exact ⟨f, rest, hchannel, (Option.some.inj h).symm⟩

theorem takes_some {f : Frame} (h : l.takes = some (f, l')) :
    ∃ rest, l.inbox = f :: rest ∧ l' = { l with inbox := rest } := by
  unfold Line.takes at h
  split at h
  · cases h
  · next g rest hinbox =>
    obtain ⟨rfl, rfl⟩ := Prod.mk.inj (Option.some.inj h)
    exact ⟨rest, hinbox, rfl⟩

theorem performs_some (h : l.performs = some (effect, l')) :
    ∃ rest, l.running = effect :: rest ∧ l' = { l with running := rest } := by
  unfold Line.performs at h
  split at h
  · cases h
  · next first rest hrunning =>
    obtain ⟨rfl, rfl⟩ := Prod.mk.inj (Option.some.inj h)
    exact ⟨rest, hrunning, rfl⟩

theorem running_of_reads (h : l.reads = some (call, rest)) : l.running = [] := by
  unfold Line.reads at h
  split at h
  · next call' rest' hrunning houtbox => exact hrunning
  · cases h

theorem handled_of_not_raised (hraised : r.raised = false) :
    l.handled rest r = { l with outbox := rest, running := r.effects } := by
  unfold Line.handled
  rw [hraised]
  rfl

theorem marks_relay (h : l.relay = some l') : l'.marks other me u = l.marks other me u := by
  obtain ⟨f, rest, hchannel, rfl⟩ := relay_some h
  unfold Line.marks Line.stream
  rw [hchannel, List.append_assoc]
  rfl

theorem marks_takes {f : Frame} (h : l.takes = some (f, l')) :
    l.marks other me u = (mark u.str f).toList ++ l'.marks other me u := by
  obtain ⟨rest, hinbox, rfl⟩ := takes_some h
  unfold Line.marks Line.stream
  rw [hinbox, List.cons_append]
  cases hmark : mark u.str f with
  | none => exact List.filterMap_cons_none hmark
  | some b => exact List.filterMap_cons_some hmark

theorem marks_handled (hreads : l.reads = some (call, rest)) (hraised : r.raised = false) :
    (l.handled rest r).marks other me u =
      l.marks other me u ++ (r.effects.filterMap (reaches me)).filterMap (mark u.str) := by
  rw [handled_of_not_raised hraised, marks_eq, marks_eq, running_of_reads hreads]
  simp only [List.filterMap_nil, List.append_nil, List.append_assoc]

/-- What the handler of one device publishes comes last, when the handler of the
    other one says nothing of the message. -/
theorem marks_handled_other (hreads : other.reads = some (call, rest))
    (hraised : r.raised = false)
    (hone : (r.effects.filterMap (publishes me)).filterMap (mark u.str) = [] ∨
      (l.running.filterMap (reaches me)).filterMap (mark u.str) = []) :
    l.marks (other.handled rest r) me u =
      l.marks other me u ++ (r.effects.filterMap (publishes me)).filterMap (mark u.str) := by
  rw [handled_of_not_raised hraised, marks_eq, marks_eq, running_of_reads hreads]
  obtain hone | hone := hone <;>
    simp only [hone, List.filterMap_nil, List.nil_append, List.append_nil, List.append_assoc]

/-- A frame sent directly overtakes what is published; a frame published overtakes
    what the other handler has still to publish. -/
theorem marks_act (hperforms : l.performs = some (effect, l')) (hopen : l.isOpen = true)
    (hone : ∀ f ∈ effectFrame effect, mark u.str f ≠ none →
      (other.running.filterMap (publishes me)).filterMap (mark u.str) = []) :
    ((l'.act me effect).marks other me u).Perm (l.marks other me u) ∧
      ((∀ f, effect = .send f → mark u.str f = none) →
        (l'.act me effect).marks other me u = l.marks other me u) := by
  obtain ⟨rest, hrunning, rfl⟩ := performs_some hperforms
  rw [marks_eq l, hrunning]
  cases effect with
  | send f =>
    have hreaches : reaches me (.send f) = some f := rfl
    rw [marks_eq, List.filterMap_cons_some hreaches]
    simp only [Line.act, List.filterMap_append]
    cases hmark : mark u.str f with
    | none =>
      rw [List.filterMap_cons_none hmark, List.filterMap_cons_none hmark, List.filterMap_nil,
        List.append_nil]
      exact ⟨.refl _, fun _ => rfl⟩
    | some b =>
      rw [List.filterMap_cons_some hmark, List.filterMap_cons_some hmark, List.filterMap_nil]
      refine ⟨?_, fun hnone => ?_⟩
      · rw [List.append_assoc]
        refine List.Perm.append_left _ ?_
        rw [List.singleton_append]
        exact ((List.perm_middle.append_left _).trans List.perm_middle).symm
      · rw [hnone f rfl] at hmark
        cases hmark
  | publish userId f =>
    suffices heq : (({ l with running := rest } : Line κ).act me (.publish userId f)).marks other
        me u = l.inbox.filterMap (mark u.str) ++ (l.channel.filterMap (mark u.str) ++
          ((other.running.filterMap (publishes me)).filterMap (mark u.str) ++
            ((.publish userId f :: rest).filterMap (reaches me)).filterMap (mark u.str))) from
      ⟨heq ▸ .refl _, fun _ => heq⟩
    by_cases hto : userId = me
    · have hreaches : reaches me (.publish userId f) = some f := if_pos hto
      have hact : ({ l with running := rest } : Line κ).act me (.publish userId f) =
          { l with running := rest, channel := l.channel ++ [f] } := by
        simp only [Line.act, if_pos hto]
        exact publish_of_open (l := { l with running := rest }) hopen f
      rw [hact, marks_eq, List.filterMap_cons_some hreaches]
      cases hmark : mark u.str f with
      | none =>
        simp only [List.filterMap_append, List.filterMap_cons_none hmark, List.filterMap_nil,
          List.append_nil]
      | some b =>
        rw [hone f rfl fun hnone => (by cases hmark.symm.trans hnone)]
        simp only [List.filterMap_append, List.filterMap_cons_some hmark, List.filterMap_nil,
          List.nil_append, List.append_assoc, List.singleton_append]
    · have hreaches : reaches me (.publish userId f) = none := if_neg hto
      have hact : ({ l with running := rest } : Line κ).act me (.publish userId f) =
          { l with running := rest } := if_neg hto
      rw [hact, marks_eq, List.filterMap_cons_none hreaches]
  | push fcmToken title body peerId =>
    rw [marks_eq]
    exact ⟨.refl _, fun _ => rfl⟩

/-- What the other handler publishes comes next after what is published. -/
theorem marks_hears (hperforms : other.performs = some (effect, other')) (hopen : l.isOpen = true)
    (actor : UUID) :
    (l.hears me effect).marks (other'.act actor effect) me u = l.marks other me u := by
  obtain ⟨rest, hrunning, rfl⟩ := performs_some hperforms
  have hact : (({ other with running := rest } : Line κ).act actor effect).running = rest := by
    unfold Line.act Line.publish
    split <;> (try split_ifs) <;> rfl
  unfold Line.marks Line.stream
  rw [hact, hrunning]
  cases effect with
  | send f => rfl
  | publish userId f =>
    by_cases hto : userId = me
    · have hpublishes : publishes me (.publish userId f) = some f := if_pos hto
      have hhears : l.hears me (.publish userId f) = { l with channel := l.channel ++ [f] } := by
        simp only [Line.hears, if_pos hto]
        exact publish_of_open hopen f
      rw [hhears, List.filterMap_cons_some hpublishes, List.append_assoc]
      rfl
    · have hpublishes : publishes me (.publish userId f) = none := if_neg hto
      have hhears : l.hears me (.publish userId f) = l := if_neg hto
      rw [hhears, List.filterMap_cons_none hpublishes]
  | push fcmToken title body peerId => rfl

end Stream

end IronLink.Client
