import IronLink.Client.Converge.Model

/-!
# One of two devices

What every run keeps of a device and of the bubbles of a message, and that a piece
of a handler of the room keeps it.

Results:
* `pairInv_init`: the rooms agree with the table when they are opened.
* `Turn.kept`, `Turn.taken`: a ref that was sent under names no new bubble.
* `DeviceInv.turn`: a piece of a handler keeps the invariant of its device.
-/

namespace IronLink.Client

open Lib Messages Ws

/-! ## The invariant -/

/-- One device: frames come from the server; a message whose bubble still goes by
    its ref has its `ack` on the way; what the handler says is of own messages, and
    what it sends directly is of no deleted one. -/
structure DeviceInv (me : UUID) (rows : MessageRows) (d : Device) : Prop where
  isOpen : d.line.isOpen = true
  room : RoomInv d.room
  refs : ∀ ref ∈ d.line.outbox.filterMap WsCall.clientRef ++ d.stored.map Prod.fst,
    ∃ n, ref = refName n ∧ n ≤ d.room.bloc.refCounter ∧ d.room.holds n = 0
  acked : ∀ q ∈ d.stored, q.1 ∈ d.room.names → ∃ frame msg, refOf frame = some q.1 ∧
    (ackFrame frame msg ∈ d.line.inbox ∨ .send (ackFrame frame msg) ∈ d.line.running)
  arriving : ∀ f ∈ d.line.inbox ++ d.line.channel, ServerFrame f
  running : ∀ effect ∈ d.line.running, ∀ f ∈ effectFrame effect, ServerFrame f ∧
    ∀ u : UUID, mark u.str f ≠ none → SentBy rows u me
  sending : ∀ f, .send f ∈ d.line.running → ∀ u : UUID, mark u.str f ≠ none → ¬ Gone rows u

/-- The bubbles of row `u` on the device of `p`. -/
def Pair.replica (me : Party → UUID) (s : Pair) (p : Party) (u : UUID) : Replica :=
  (s.device p).room.replica (s.device p).line.outbox u.str
    ((s.device p).line.marks (s.device p.other).line (me p) u)

structure PairInv (me : Party → UUID) (s : Pair) : Prop where
  device : ∀ p, DeviceInv (me p) s.world.messages (s.device p)
  agrees : ∀ p u, Lib.Agrees (Gone s.world.messages u) (Concerns s.world.messages u (me p))
    (s.replica me p u)

variable {S : Type} {lib : Libsignal S} {keys : KeyServer} {me : Party → UUID}
  {isSecret : Party → Bool} {s s' : Pair} {p q : Party}

theorem Party.eq_or_other (p q : Party) : q = p ∨ q = p.other := by
  cases p <;> cases q <;> decide

theorem Party.other_ne (p : Party) : p.other ≠ p := by
  cases p <;> decide

theorem Party.other_other (p : Party) : p.other.other = p := by
  cases p <;> rfl

@[simp] theorem Pair.set_self (s : Pair) (p : Party) (d : Device) : (s.set p d).device p = d :=
  if_pos rfl

@[simp] theorem Pair.set_other (s : Pair) (p : Party) (d : Device) :
    (s.set p d).device p.other = s.device p.other := if_neg p.other_ne

/-- What holds of `p` and of the other one holds of both. -/
theorem Party.both {P : Party → Prop} (p : Party) (h : P p) (hother : P p.other) : ∀ q, P q := by
  intro q
  obtain rfl | rfl := p.eq_or_other q
  · exact h
  · exact hother

theorem pairInv_init (h : s.Opened me) : PairInv me s := by
  refine ⟨fun p => ?_, fun p u => ?_⟩
  · obtain ⟨messages, -, hshown⟩ := h.history p
    have hnames : ∀ m ∈ (s.device p).room.bloc.state.messages, NamesRow m.id := by
      intro m hm
      rw [hshown] at hm
      obtain ⟨msg, -, rfl⟩ := List.mem_map.mp hm
      exact ⟨msg.id, rfl⟩
    have hroom : RoomInv (s.device p).room := by
      refine ⟨fun q hq => ?_, fun n => ?_⟩
      · rw [h.waiting p] at hq
        cases hq
      · unfold Room.names Room.holds
        rw [count_refName_rows hnames, h.waiting p]
        exact Nat.zero_le _
    constructor
    · rw [h.line p]
      rfl
    · exact hroom
    all_goals simp [h.line p, h.stored p, Line.idle]
  · obtain ⟨messages, hhistory, hshown⟩ := h.history p
    have hrow : ∀ deleted, Shows (s.device p).room.bloc.state.messages u.str deleted →
        ∃ row ∈ s.world.messages.byId u, row.deletedForEveryone = deleted ∧
          (row.senderId = some (me p) ∨ row.recipientId = some (me p)) := by
      rintro deleted ⟨m, hm, hid, hdeleted⟩
      rw [hshown] at hm
      obtain ⟨msg, hmsg, rfl⟩ := List.mem_map.mp hm
      obtain ⟨hmem, hselected⟩ := List.mem_filter.mp (hhistory.2.1 msg hmsg)
      refine ⟨msg, ?_, hdeleted, ?_⟩
      · rw [← UUID.str_injective hid]
        exact Table.find_of_mem h.keys hmem
      · simp only [inHistory, Bool.and_eq_true, Bool.or_eq_true, decide_eq_true_eq] at hselected
        exact hselected.1.1.imp And.left And.right
    have hmarks : (s.device p).line.marks (s.device p.other).line (me p) u = [] := by
      rw [h.line p, h.line p.other]
      rfl
    have hcoming : (s.device p).room.decrypts u.str = 0 := by
      unfold Room.decrypts
      rw [h.waiting p]
      rfl
    unfold Pair.replica
    rw [hmarks]
    constructor
    · exact fun htrue => absurd htrue List.not_mem_nil
    · intro hset
      obtain ⟨row, hrow, hdeleted, -⟩ := hrow true hset
      exact .inl ⟨row, hrow, hdeleted⟩
    · rintro ⟨row, hgone, hdeleted⟩ (hunset | hcoming' | hfalse)
      · obtain ⟨row', hrow', hdeleted', -⟩ := hrow false hunset
        obtain rfl := Option.some.inj (hgone.symm.trans hrow')
        rw [hdeleted] at hdeleted'
        cases hdeleted'
      · exact absurd hcoming' (by show ¬ 0 < _; rw [hcoming]; exact Nat.lt_irrefl 0)
      · cases hfalse
    · rintro (hunset | hset | hcoming' | hne)
      · obtain ⟨row, hrow, -, hparty⟩ := hrow false hunset
        exact ⟨row, hrow, hparty⟩
      · obtain ⟨row, hrow, -, hparty⟩ := hrow true hset
        exact ⟨row, hrow, hparty⟩
      · exact absurd hcoming' (by show ¬ 0 < _; rw [hcoming]; exact Nat.lt_irrefl 0)
      · exact absurd rfl hne

/-! ## A piece of a handler of a room -/

/-- An action of a room: one of its own, or the next frame. -/
inductive Delivers (l : Line WsCall) (room : Room) : Line WsCall → RoomAction → Prop
  | own (action : RoomAction) (hadmits : room.admits action = true) : Delivers l room l action
  | frame (f : Frame) (now : Time) (l' : Line WsCall) (htakes : l.takes = some (f, l')) :
      Delivers l room l' (.event (.frameReceived f) now)

section Turn

variable {chat : Chat} {room room' : Room} {action : RoomAction} {refs : List String}
  {l l' other : Line WsCall} {rows : MessageRows} {userId u : UUID} {d : Device} {seg : Segment}

/-- A ref that is no longer held stays so, and names no new bubble. -/
theorem Turn.kept (hturn : Turn chat room room' refs action)
    (hanswered : room.answered action = none) {n : ℕ} (hle : n ≤ room.bloc.refCounter)
    (hholds : room.holds n = 0) : (n ≤ room'.bloc.refCounter ∧ room'.holds n = 0) ∧
      (refName n ∈ room'.names → refName n ∈ room.names) := by
  have hrests : Rests room room' refs → n ≤ room'.bloc.refCounter ∧ room'.holds n = 0 := by
    intro hrests
    rw [hrests.counter, hrests.holds]
    exact ⟨hle, hholds⟩
  have hconcat : ∀ {v : UUID}, room'.names = room.names ++ [v.str] →
      refName n ∈ room'.names → refName n ∈ room.names := by
    intro v hnames hmem
    rw [hnames] at hmem
    refine (List.mem_append.mp hmem).resolve_right fun hnew => ?_
    exact refName_ne_str n v (List.mem_singleton.mp hnew)
  cases hturn with
  | own _ hheard hanswered hnames hrefs hcounter hothers hdecrypts =>
    have hcount := hothers n
    rw [hholds, if_neg fun h => absurd h.1 (not_lt.mpr hle)] at hcount
    refine ⟨⟨hle.trans hcounter, by omega⟩, fun hmem => ?_⟩
    rw [hnames] at hmem
    refine (List.mem_append.mp hmem).resolve_right fun hnew => ?_
    have := List.count_pos_iff.mpr hnew
    omega
  | ack frame msg now h hnames hdecrypts =>
    refine ⟨hrests h, fun hmem => ?_⟩
    rw [hnames] at hmem
    obtain ⟨name, hname, heq⟩ := List.mem_map.mp hmem
    exact (renamed_eq_refName heq).1 ▸ hname
  | arrived _ v hheard hanswered h hnames hdecrypts => exact ⟨hrests h, hconcat hnames⟩
  | sealed _ v hheard hanswered h hnames hdecrypts => exact ⟨hrests h, fun hmem => hnames ▸ hmem⟩
  | decrypted _ v hheard hanswered h hnames hdecrypts => exact ⟨hrests h, hconcat hnames⟩
  | history _ messages hheard hsome h hnames hdecrypts =>
    rw [hanswered] at hsome
    cases hsome

/-- A ref that is sent under is no longer held. -/
theorem Turn.taken (hturn : Turn chat room room' refs action) (hroom : RoomInv room) :
    ∀ ref ∈ refs, ∃ n, ref = refName n ∧ n ≤ room'.bloc.refCounter ∧ room'.holds n = 0 := by
  intro ref href
  cases hturn with
  | own _ hheard hanswered hnames hrefs hcounter hothers hdecrypts =>
    obtain ⟨n, rfl⟩ := hrefs ref href
    have hpos := List.count_pos_iff.mpr href
    have hcount := hothers n
    have hle := hroom.refs n
    refine ⟨n, rfl, ?_⟩
    split_ifs at hcount hle <;> omega
  | ack _ _ _ hrests | arrived _ _ _ _ hrests | sealed _ _ _ _ hrests | decrypted _ _ _ _ hrests
  | history _ _ _ _ hrests =>
    rw [hrests.refs] at href
    cases href

theorem answered_of_admits (h : room.admits action = true) : room.answered action = none := by
  unfold Room.admits at h
  split at h
  · cases h
  · cases h
  · rfl
  · next i answer =>
    split at h
    · cases h
    · next hne =>
      cases hi : room.waiting[i]? with
      | none => simp only [Room.answered, hi]
      | some q => exact answered_of_ne hi fun heq => hne (heq ▸ hi)
  · rfl

theorem mark_of_admits (h : room.admits action = true) (id : String) : action.mark id = none := by
  cases action with
  | event e now =>
    cases e with
    | frameReceived f => cases h
    | chatOpened | contentSent | typingChanged | messageUnsent => rfl
  | resume | store => rfl

theorem Delivers.answered (h : Delivers l room l' action) : room.answered action = none := by
  cases h with
  | own action hadmits => exact answered_of_admits hadmits
  | frame f now l' htakes => rfl

theorem Delivers.line (h : Delivers l room l' action) :
    ∃ inbox, l' = { l with inbox := inbox } ∧ inbox ⊆ l.inbox ∧
      ∀ f ∈ l.inbox, f ∈ inbox ∨ ∃ now, action = .event (.frameReceived f) now := by
  cases h with
  | own action hadmits => exact ⟨l.inbox, rfl, List.Subset.refl _, fun f hf => .inl hf⟩
  | frame f now l' htakes =>
    obtain ⟨rest, hinbox, rfl⟩ := takes_some htakes
    rw [hinbox]
    refine ⟨rest, rfl, List.subset_cons_self f rest, fun g hg => ?_⟩
    obtain rfl | hg := List.mem_cons.mp hg
    · exact .inr ⟨now, rfl⟩
    · exact .inl hg

theorem Delivers.marks (h : Delivers l room l' action) :
    l.marks other userId u = (action.mark u.str).toList ++ l'.marks other userId u := by
  cases h with
  | own action hadmits =>
    rw [mark_of_admits hadmits]
    rfl
  | frame f now l' htakes => exact marks_takes htakes

theorem Delivers.admissible (h : Delivers l room l' action)
    (hframes : ∀ f ∈ l.inbox, ServerFrame f) : Admissible room action := by
  refine ⟨fun f now heq => ?_, fun messages hanswered => ?_⟩
  · cases h with
    | own action hadmits =>
      rw [heq] at hadmits
      cases hadmits
    | frame g now' l' htakes =>
      obtain ⟨rest, hinbox, rfl⟩ := takes_some htakes
      obtain ⟨hevent, -⟩ := RoomAction.event.inj heq
      obtain rfl := ChatEvent.frameReceived.inj hevent
      exact hframes g (hinbox ▸ List.mem_cons_self)
  · rw [h.answered] at hanswered
    cases hanswered

/-- An `ack` leaves no bubble under its ref. -/
theorem not_mem_names_ack (storage : Storage) {bloc : ChatBloc} {frame : Frame} {msg : Message}
    {n : ℕ} (href : refOf frame = some (refName n)) :
    refName n ∉ (onFrame chat bloc storage (ackFrame frame msg)).bloc.state.messages.map
      ChatMessage.id := by
  rw [(does_ack chat bloc storage frame msg).messages, names_confirmed, href]
  intro hmem
  obtain ⟨name, -, heq⟩ := List.mem_map.mp hmem
  obtain ⟨rfl, hother⟩ := renamed_eq_refName heq
  exact hother rfl

theorem DeviceInv.turn (h : DeviceInv userId rows d) (hdelivers : Delivers d.line d.room l' action)
    (hs : segment lib keys chat d.room action = some seg) :
    DeviceInv userId rows
      { d with room := d.room.after action seg, line := l'.send seg.calls } := by
  have hin := hdelivers.admissible fun f hf => h.arriving f (List.mem_append_left _ hf)
  have hanswered := hdelivers.answered
  have hturn := (h.room.moves hin hs).turn
  obtain ⟨inbox, rfl, hsub, hkept⟩ := hdelivers.line
  rw [send_of_open (l := { d.line with inbox := inbox }) h.isOpen]
  refine ⟨h.isOpen, h.room.after hin hs, fun ref href => ?_, fun q hq hname => ?_, fun f hf => ?_,
    h.running, h.sending⟩
  · have hold : ref ∈ d.line.outbox.filterMap WsCall.clientRef ++ d.stored.map Prod.fst →
        ∃ n, ref = refName n ∧ n ≤ (d.room.after action seg).bloc.refCounter ∧
          (d.room.after action seg).holds n = 0 := by
      intro hmem
      obtain ⟨n, rfl, hle, hholds⟩ := h.refs ref hmem
      exact ⟨n, rfl, (hturn.kept hanswered hle hholds).1⟩
    obtain href | href := List.mem_append.mp href
    · rw [List.filterMap_append] at href
      obtain href | href := List.mem_append.mp href
      · exact hold (List.mem_append_left _ href)
      · exact hturn.taken h.room ref href
    · exact hold (List.mem_append_right _ href)
  · obtain ⟨n, hn, hle, hholds⟩ := h.refs q.1 (List.mem_append_right _ (List.mem_map_of_mem hq))
    rw [hn] at hname
    have hold := (hturn.kept hanswered hle hholds).2 hname
    obtain ⟨frame, msg, href, hack⟩ := h.acked q hq (hn ▸ hold)
    refine ⟨frame, msg, href, hack.imp_left fun hinbox => ?_⟩
    refine (hkept _ hinbox).resolve_right ?_
    rintro ⟨now, rfl⟩
    obtain rfl := Option.some.inj hs
    exact not_mem_names_ack d.room.storage (hn ▸ href) hname
  · obtain hf | hf := List.mem_append.mp hf
    · exact h.arriving f (List.mem_append_left _ (hsub hf))
    · exact h.arriving f (List.mem_append_right _ hf)

end Turn

end IronLink.Client
