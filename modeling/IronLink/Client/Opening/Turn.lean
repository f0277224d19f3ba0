import IronLink.Client.Opening.Model

/-!
# A room that is being opened

What every run keeps, as long as the history does not disturb it, and that a piece
of a handler of the room keeps it.

Results:
* `OpeningInv.pass`, `OpeningInv.store`, `OpeningInv.message`: what the server adds.
* `OpeningInv.turn_bubbles`: a message that was sent is shown once.
* `OpeningInv.turn_once`: a message is shown or still comes, and not twice.
-/

namespace IronLink.Client

open Lib Messages Ws

/-! ## The invariant -/

/-- The ref of a message that the room has sent. -/
def ownRef (call : Bool × WsCall) : Option String := if call.1 then call.2.clientRef else none

/-- What every run keeps, as long as the history does not disturb it. -/
structure OpeningInv (me peer : UUID) (isSecret : Bool) (s : Opening) : Prop where
  sound : ∀ p ∈ s.room.waiting, p.Sound
  frames : ∀ f ∈ s.onWay me, ServerFrame f ∧ Answers id (s.stored ++ s.elsewhere) f
  /-- a ref is held by one handler, or was sent under once -/
  refs : ∀ n, s.sent.count (refName n) + s.room.holds n ≤
    if n ≤ s.room.bloc.refCounter then 1 else 0
  sentRefs : ∀ ref ∈ s.sent, ∃ n, ref = refName n
  /-- a frame is sent once, and stored once -/
  outbox : ∀ ref, (s.line.outbox.filterMap ownRef).count ref +
    (s.stored.map Prod.fst).count ref ≤ s.sent.count ref
  stored : ∀ p ∈ s.stored, SentBy s.world.messages p.2 me
  storedOnce : (s.stored.map Prod.snd).Nodup
  bubbles : ∀ ref ∈ s.sent, s.room.names.countP (s.isNameOf ref) = 1
  unsent : ∀ n, refName n ∈ s.room.names → refName n ∈ s.sent
  rows : ∀ u : UUID, u.str ∈ s.room.names → (s.world.messages.byId u).isSome = true
  response : ∀ messages, s.response = some (.ok messages) →
    (messages.map ChatMessage.id).Nodup ∧
      ∀ m ∈ messages, ∃ u : UUID, m.id = u.str ∧ (s.world.messages.byId u).isSome = true
  coming : ∀ u : UUID, 0 < s.coming me peer isSecret u.str → SentBy s.world.messages u peer
  /-- a message is shown or still comes, and not twice -/
  once : ∀ u : UUID, s.room.names.count u.str + s.coming me peer isSecret u.str ≤ 1
  arrived : ∀ id ∈ s.arrived, NamesRow id ∧ s.room.names.count id + s.room.decrypts id = 1
  answered : ∀ id ∈ s.answered, NamesRow id ∧ s.room.names.count id = 1

variable {me peer : UUID} {isSecret : Bool} {s : Opening}

theorem openingInv_init (world : World) (storage : Storage) :
    OpeningInv me peer isSecret (.init world storage) := by
  constructor <;> simp [Opening.init, Room.init, ChatRoomState.init, Room.names, Room.holds,
    Room.decrypts, Opening.onWay, Opening.coming, Line.idle, Line.onWay]

/-- What the history names is still there when the rows grow. -/
theorem OpeningInv.response_grows (h : OpeningInv me peer isSecret s) {rows : MessageRows}
    (hgrows : Jobs.Grows s.world.messages rows) {messages : List ChatMessage}
    (hresponse : s.response = some (.ok messages)) :
    (messages.map ChatMessage.id).Nodup ∧
      ∀ m ∈ messages, ∃ u : UUID, m.id = u.str ∧ (rows.byId u).isSome = true := by
  obtain ⟨hnodup, hrows⟩ := h.response messages hresponse
  refine ⟨hnodup, fun m hm => ?_⟩
  obtain ⟨u, hu, hmem⟩ := hrows m hm
  exact ⟨u, hu, isSome_of_grows hgrows hmem⟩

/-- More frames are on their way, none of them a message of the peer. -/
theorem OpeningInv.pass (h : OpeningInv me peer isSecret s) (new : List Frame) {w : World}
    {l : Line (Bool × WsCall)} {others : List Frame}
    (hgrows : Jobs.Grows s.world.messages w.messages)
    (hout : ∀ ref, (l.outbox.filterMap ownRef).count ref ≤
      (s.line.outbox.filterMap ownRef).count ref)
    (hway : (others ++ l.onWay me).Subperm (new ++ s.onWay me))
    (hnew : ∀ f ∈ new, ServerFrame f ∧ Answers id (s.stored ++ s.elsewhere) f ∧
      (chatOf me peer isSecret).heard f = none) :
    OpeningInv me peer isSecret { s with world := w, line := l, others := others } := by
  have hcoming : ∀ id, Opening.coming me peer isSecret
      { s with world := w, line := l, others := others } id ≤ s.coming me peer isSecret id := by
    intro id
    refine Nat.add_le_add_right ((hway.countP_le _).trans ?_) _
    have hnone : new.countP (fun f =>
        decide ((chatOf me peer isSecret).heard f = some id)) = 0 := by
      refine List.countP_eq_zero.mpr fun f hf => ?_
      rw [(hnew f hf).2.2]
      simp
    rw [List.countP_append, hnone, Nat.zero_add]
  refine { h with
    frames := fun f hf => ?_
    outbox := fun ref => (Nat.add_le_add_right (hout ref) _).trans (h.outbox ref)
    stored := fun p hp => (h.stored p hp).mono hgrows
    rows := fun u hu => isSome_of_grows hgrows (h.rows u hu)
    response := fun messages hresponse => ?_
    coming := fun u hu => (h.coming u (lt_of_lt_of_le hu (hcoming _))).mono hgrows
    once := fun u => (Nat.add_le_add_left (hcoming _) _).trans (h.once u) }
  · obtain hf | hf := List.mem_append.mp (hway.subset hf)
    · exact ⟨(hnew f hf).1, (hnew f hf).2.1⟩
    · exact h.frames f hf
  · exact h.response_grows hgrows hresponse

theorem OpeningInv.sent_of_stored (h : OpeningInv me peer isSecret s) {ref : String} {u : UUID}
    (hmem : (ref, u) ∈ s.stored) : ref ∈ s.sent := by
  have hcount := h.outbox ref
  have hpos : 0 < (s.stored.map Prod.fst).count ref :=
    List.count_pos_iff.mpr (List.mem_map.mpr ⟨_, hmem, rfl⟩)
  exact List.count_pos_iff.mp (by omega)

/-- The frame of another room that was sent under `ref` gets its row. -/
theorem OpeningInv.storeElsewhere (h : OpeningInv me peer isSecret s) {w : World}
    {call : Bool × WsCall} {rest : List (Bool × WsCall)} (ref : String) (freshId : UUID)
    (houtbox : s.line.outbox = call :: rest) (hgrows : Jobs.Grows s.world.messages w.messages) :
    OpeningInv me peer isSecret
      { s with world := w, line := { s.line with outbox := rest },
               elsewhere := s.elsewhere ++ [(ref, freshId)] } := by
  refine { h with
    frames := fun f hf => ⟨(h.frames f hf).1, (h.frames f hf).2.mono ?_⟩
    outbox := fun r => ?_
    stored := fun p hp => (h.stored p hp).mono hgrows
    rows := fun u hu => isSome_of_grows hgrows (h.rows u hu)
    response := fun messages hresponse => h.response_grows hgrows hresponse
    coming := fun u hu => (h.coming u hu).mono hgrows }
  · show s.stored ++ s.elsewhere ⊆ s.stored ++ (s.elsewhere ++ [(ref, freshId)])
    rw [← List.append_assoc]
    exact List.subset_append_left _ _
  · refine le_trans (Nat.add_le_add_right ?_ _) (h.outbox r)
    rw [houtbox]
    exact ((List.sublist_cons_self call rest).filterMap ownRef).count_le r

/-- The frame that was sent under `ref` gets its row. -/
theorem OpeningInv.store (h : OpeningInv me peer isSecret s) {w : World} {call : WsCall}
    {rest : List (Bool × WsCall)} {ref : String} {freshId : UUID}
    (houtbox : s.line.outbox = (true, call) :: rest)
    (href : call.clientRef = some ref) (hgrows : Jobs.Grows s.world.messages w.messages)
    (hfresh : s.world.messages.byId freshId = none) (hrow : SentBy w.messages freshId me) :
    OpeningInv me peer isSecret
      { s with world := w, line := { s.line with outbox := rest },
               stored := s.stored ++ [(ref, freshId)] } := by
  have hshown : ∀ name ∈ s.room.names, name ≠ freshId.str := by
    rintro name hname rfl
    have := h.rows freshId hname
    rw [hfresh] at this
    cases this
  refine { h with
    frames := fun f hf => ⟨(h.frames f hf).1, (h.frames f hf).2.mono ?_⟩
    outbox := fun r => ?_
    stored := fun p hp => ?_
    storedOnce := ?_
    bubbles := fun r hr => ?_
    rows := fun u hu => isSome_of_grows hgrows (h.rows u hu)
    response := fun messages hresponse => ?_
    coming := fun u hu => (h.coming u hu).mono hgrows }
  · exact List.append_subset.mpr ⟨fun p hp => List.mem_append_left _ (List.mem_append_left _ hp),
      List.subset_append_right _ _⟩
  · have hcount := h.outbox r
    have hown : ownRef (true, call) = some ref := href
    rw [houtbox, List.filterMap_cons_some hown, List.count_cons] at hcount
    rw [List.map_append, List.count_append, List.map_singleton, List.count_singleton]
    show (rest.filterMap ownRef).count r +
      ((s.stored.map Prod.fst).count r + if ref == r then 1 else 0) ≤ s.sent.count r
    omega
  · obtain hp | hp := List.mem_append.mp hp
    · exact (h.stored p hp).mono hgrows
    · rw [List.mem_singleton.mp hp]
      exact hrow
  · rw [List.map_append, List.map_singleton, List.nodup_append]
    refine ⟨h.storedOnce, List.nodup_singleton _, fun u hu v hv => ?_⟩
    obtain ⟨p, hp, rfl⟩ := List.mem_map.mp hu
    rw [List.mem_singleton.mp hv]
    exact (h.stored p hp).ne_fresh hfresh
  · refine (List.countP_congr fun name hname => ?_).trans (h.bubbles r hr)
    rw [isNameOf_iff, isNameOf_iff]
    refine or_congr_right (exists_congr fun u => and_congr_left ?_)
    rintro rfl
    show (r, u) ∈ s.stored ++ [(ref, freshId)] ↔ _
    rw [List.mem_append]
    refine or_iff_left fun hmem => ?_
    rw [(Prod.mk.inj (List.mem_singleton.mp hmem)).2] at hname
    exact hshown _ hname rfl
  · exact h.response_grows hgrows hresponse

/-- A message of the peer is stored, and is to be published. -/
theorem OpeningInv.message (h : OpeningInv me peer isSecret s) {w : World} {frame : Frame}
    {msg : Message} {content : Option String}
    (hcontent : (Json.get frame "content").asOptStr = some content)
    (hgrows : Jobs.Grows s.world.messages w.messages)
    (hfresh : s.world.messages.byId msg.id = none) (hrow : SentBy w.messages msg.id peer) :
    OpeningInv me peer isSecret
      { s with world := w, others := s.others ++ [messageFrame frame peer msg] } := by
  have hcoming : ∀ u : UUID, Opening.coming me peer isSecret
      { s with world := w, others := s.others ++ [messageFrame frame peer msg] } u.str =
        s.coming me peer isSecret u.str + if u = msg.id then 1 else 0 := by
    intro u
    show (s.others ++ [messageFrame frame peer msg] ++ s.line.onWay me).countP _ +
      s.room.decrypts u.str = (s.others ++ s.line.onWay me).countP _ + s.room.decrypts u.str + _
    have hheard : (chatOf me peer isSecret).heard (messageFrame frame peer msg) =
        some msg.id.str := by
      rw [heard_messageFrame]
      exact if_pos rfl
    rw [List.append_assoc, List.countP_append, List.countP_append, List.countP_append,
      List.countP_singleton, hheard]
    have hiff : (decide (some msg.id.str = some u.str) = true) ↔ u = msg.id := by
      rw [decide_eq_true_eq, Option.some.injEq]
      exact ⟨fun heq => UUID.str_injective heq.symm, fun heq => congrArg UUID.str heq.symm⟩
    rw [if_congr hiff rfl rfl]
    omega
  have hnever : s.room.names.count msg.id.str + s.coming me peer isSecret msg.id.str = 0 := by
    have hshown : s.room.names.count msg.id.str = 0 := by
      refine List.count_eq_zero.mpr fun hmem => ?_
      have := h.rows msg.id hmem
      rw [hfresh] at this
      cases this
    have hway : s.coming me peer isSecret msg.id.str = 0 := by
      by_contra hpos
      exact (h.coming msg.id (Nat.pos_of_ne_zero hpos)).ne_fresh hfresh rfl
    omega
  refine { h with
    frames := fun f hf => ?_
    stored := fun p hp => (h.stored p hp).mono hgrows
    rows := fun u hu => isSome_of_grows hgrows (h.rows u hu)
    response := fun messages hresponse => ?_
    coming := fun u hu => ?_
    once := fun u => ?_ }
  · rw [show Opening.onWay me _ = s.others ++ [messageFrame frame peer msg] ++ s.line.onWay me
      from rfl, List.append_assoc] at hf
    obtain hf | hf := List.mem_append.mp hf
    · exact h.frames f (List.mem_append_left _ hf)
    obtain rfl | hf := List.mem_cons.mp hf
    · refine ⟨.message frame peer msg content hcontent, fun frame' msg' heq => ?_⟩
      have htype := congrArg (fun f => asStr (Json.get f "type")) heq
      exact absurd (Option.some.inj htype) (by decide)
    · exact h.frames f (List.mem_append_right _ hf)
  · exact h.response_grows hgrows hresponse
  · rw [hcoming] at hu
    by_cases hid : u = msg.id
    · rw [hid]
      exact hrow
    · rw [if_neg hid] at hu
      exact (h.coming u hu).mono hgrows
  · rw [hcoming]
    have honce := h.once u
    by_cases hid : u = msg.id
    · subst hid
      rw [if_pos rfl]
      show s.room.names.count _ + _ ≤ 1
      omega
    · rw [if_neg hid]
      exact honce

/-! ## A piece of a handler of the room -/

/-- What a handler finds: a line `l` from which it has taken a frame, if that is
    what it handles. -/
structure Finds (me peer : UUID) (isSecret : Bool) (s : Opening) (l : Line (Bool × WsCall))
    (action : RoomAction) : Prop where
  outbox : l.outbox = s.line.outbox
  way : ∀ f ∈ s.others ++ l.onWay me, f ∈ s.onWay me
  coming : ∀ id, (s.others ++ l.onWay me).countP
      (fun f => decide ((chatOf me peer isSecret).heard f = some id)) +
    (if action.heard (chatOf me peer isSecret) = some id then 1 else 0) ≤
      (s.onWay me).countP fun f => decide ((chatOf me peer isSecret).heard f = some id)
  ack : ∀ f now, action = .event (.frameReceived f) now → f ∈ s.onWay me
  unclashed : ∀ f now, action = .event (.frameReceived f) now → s.Unclashed f
  response : ∀ messages ∈ s.room.answered action, s.response = some (.ok messages)
  undisturbed : ∀ messages ∈ s.room.answered action,
    (∀ name ∈ s.room.names, name ∈ messages.map ChatMessage.id ∨
      ∃ p ∈ s.stored, p.1 = name ∧ p.2.str ∈ messages.map ChatMessage.id) ∧
    ∀ m ∈ messages, s.coming me peer isSecret m.id = 0

section Turn

variable {l : Line (Bool × WsCall)} {action : RoomAction} {room' : Room} {refs : List String}

theorem Finds.admissible (hfinds : Finds me peer isSecret s l action)
    (h : OpeningInv me peer isSecret s) : Admissible s.room action := by
  refine ⟨fun f now heq => (h.frames f (hfinds.ack f now heq)).1, fun messages hanswered m hm => ?_⟩
  obtain ⟨u, hu, -⟩ := (h.response messages (hfinds.response messages hanswered)).2 m hm
  exact ⟨u, hu⟩

/-- The `ack` that is handled answers a frame of the room, or renames nothing. -/
theorem Finds.answers {frame : Frame} {msg : Message} {now : Time}
    (hfinds : Finds me peer isSecret s l (.event (.frameReceived (ackFrame frame msg)) now))
    (h : OpeningInv me peer isSecret s) :
    (∃ n, refOf frame = some (refName n) ∧ (refName n, msg.id) ∈ s.stored) ∨
      s.room.names.map (renamed (refOf frame) msg.id.str) = s.room.names := by
  obtain ⟨ref, href, hmem⟩ := (h.frames _ (hfinds.ack _ now rfl)).2 frame msg rfl
  obtain hmem | hmem := List.mem_append.mp hmem
  · obtain ⟨n, rfl⟩ := h.sentRefs ref (h.sent_of_stored hmem)
    exact .inl ⟨n, href, hmem⟩
  · right
    have hclear := hfinds.unclashed _ now rfl rfl _ hmem rfl
    refine (List.map_congr_left fun name hname => ?_).trans (List.map_id _)
    exact if_neg (hclear name hname)

/-- The message that is shown now is one of the peer. -/
theorem Finds.sentBy (hfinds : Finds me peer isSecret s l action)
    (h : OpeningInv me peer isSecret s) {u : UUID}
    (hheard : action.heard (chatOf me peer isSecret) = some u.str) :
    SentBy s.world.messages u peer := by
  have hway := hfinds.coming u.str
  rw [if_pos hheard] at hway
  refine h.coming u ?_
  unfold Opening.coming
  omega

/-- A ref is used by one message. -/
theorem OpeningInv.sent_le (h : OpeningInv me peer isSecret s) (ref : String) :
    s.sent.count ref ≤ 1 := by
  by_cases hmem : ref ∈ s.sent
  · obtain ⟨n, rfl⟩ := h.sentRefs ref hmem
    have := h.refs n
    split_ifs at this <;> omega
  · rw [List.count_eq_zero.mpr hmem]
    exact Nat.zero_le 1

theorem OpeningInv.turn_refs (h : OpeningInv me peer isSecret s)
    (hturn : Turn (chatOf me peer isSecret) s.room room' refs action) (n : ℕ) :
    (s.sent ++ refs).count (refName n) + room'.holds n ≤
      if n ≤ room'.bloc.refCounter then 1 else 0 := by
  have hle := h.refs n
  have hrests : Rests s.room room' refs → (s.sent ++ refs).count (refName n) + room'.holds n ≤
      if n ≤ room'.bloc.refCounter then 1 else 0 := by
    intro hrests
    rw [hrests.refs, hrests.holds, hrests.counter, List.append_nil]
    exact hle
  cases hturn with
  | own _ hheard hanswered hnames hrefs hcounter hholds hdecrypts =>
    have := hholds n
    rw [List.count_append]
    split_ifs at hle this ⊢ <;> omega
  | ack _ _ _ h | arrived _ _ _ _ h | sealed _ _ _ _ h | decrypted _ _ _ _ h
  | history _ _ _ _ h => exact hrests h

theorem OpeningInv.turn_sentRefs (h : OpeningInv me peer isSecret s)
    (hturn : Turn (chatOf me peer isSecret) s.room room' refs action) :
    ∀ ref ∈ s.sent ++ refs, ∃ n, ref = refName n := by
  have hrests : Rests s.room room' refs → ∀ ref ∈ s.sent ++ refs, ∃ n, ref = refName n := by
    intro hrests
    rw [hrests.refs, List.append_nil]
    exact h.sentRefs
  cases hturn with
  | own _ hheard hanswered hnames hrefs hcounter hholds hdecrypts =>
    intro ref href
    obtain href | href := List.mem_append.mp href
    · exact h.sentRefs ref href
    · exact hrefs ref href
  | ack _ _ _ h | arrived _ _ _ _ h | sealed _ _ _ _ h | decrypted _ _ _ _ h
  | history _ _ _ _ h => exact hrests h

/-- A ref that is sent under now was not in use. -/
theorem OpeningInv.fresh_ref (h : OpeningInv me peer isSecret s)
    (hturn : Turn (chatOf me peer isSecret) s.room room' refs action) {ref : String}
    (href : ref ∈ refs) : ref ∉ s.sent ∧ refs.count ref = 1 := by
  obtain ⟨n, rfl⟩ := h.turn_sentRefs hturn ref (List.mem_append_right _ href)
  have hle := h.turn_refs hturn n
  rw [List.count_append] at hle
  have hpos := List.count_pos_iff.mpr href
  have hone : s.sent.count (refName n) = 0 ∧ refs.count (refName n) = 1 := by
    split_ifs at hle <;> omega
  exact ⟨List.count_eq_zero.mp hone.1, hone.2⟩

/-- The name of a row that is not stored for `ref` does not name its message. -/
theorem OpeningInv.isNameOf_peer (h : OpeningInv me peer isSecret s) (hpeer : peer ≠ me)
    {ref : String} (href : ref ∈ s.sent) {u : UUID} (hu : SentBy s.world.messages u peer) :
    s.isNameOf ref u.str = false := by
  rw [Bool.eq_false_iff, Ne, isNameOf_iff]
  rintro (heq | ⟨v, hmem, heq⟩)
  · obtain ⟨n, rfl⟩ := h.sentRefs ref href
    exact refName_ne_str n u heq.symm
  · obtain rfl := UUID.str_injective heq
    exact hpeer (hu.unique (h.stored _ hmem))

theorem OpeningInv.countP_concat (h : OpeningInv me peer isSecret s) (hpeer : peer ≠ me)
    {ref : String} (href : ref ∈ s.sent) {u : UUID} (hu : SentBy s.world.messages u peer) :
    (s.room.names ++ [u.str]).countP (s.isNameOf ref) = 1 := by
  rw [List.countP_append, List.countP_singleton, h.isNameOf_peer hpeer href hu, h.bubbles ref href]
  rfl

/-- The bubble of a message keeps naming it when it gets the name of its row. -/
theorem OpeningInv.isNameOf_renamed (h : OpeningInv me peer isSecret s) {ref : String} {n : ℕ}
    {u : UUID} (href : ref ∈ s.sent) (hmem : (refName n, u) ∈ s.stored) (name : String) :
    s.isNameOf ref (renamed (some (refName n)) u.str name) = s.isNameOf ref name := by
  unfold renamed
  split_ifs with hname
  · obtain rfl := Option.some.inj hname
    rw [Bool.eq_iff_iff, isNameOf_iff, isNameOf_iff]
    obtain ⟨k, rfl⟩ := h.sentRefs ref href
    have hiff : (∃ v, (refName k, v) ∈ s.stored ∧ u.str = v.str) ↔ refName n = refName k := by
      constructor
      · rintro ⟨v, hv, heq⟩
        obtain rfl := UUID.str_injective heq
        have hpair := List.inj_on_of_nodup_map h.storedOnce hmem hv rfl
        exact (Prod.mk.inj hpair).1
      · intro heq
        exact ⟨u, heq ▸ hmem, rfl⟩
    rw [hiff]
    constructor
    · rintro (heq | heq)
      · exact absurd heq.symm (refName_ne_str k u)
      · exact .inl heq
    · rintro (heq | ⟨v, -, heq⟩)
      · exact .inr heq
      · exact absurd heq (refName_ne_str n v)
  · rfl

/-- A ref has one row. -/
theorem OpeningInv.stored_unique (h : OpeningInv me peer isSecret s) {ref : String} {u v : UUID}
    (hu : (ref, u) ∈ s.stored) (hv : (ref, v) ∈ s.stored) : u = v := by
  have hnodup : (s.stored.map Prod.fst).Nodup := by
    refine List.nodup_iff_count_le_one.mpr fun r => ?_
    have := h.outbox r
    have := h.sent_le r
    omega
  exact (Prod.mk.inj (List.inj_on_of_nodup_map hnodup hu hv rfl)).2

/-- The answer of the history holds the message that was sent under `ref` once. -/
theorem OpeningInv.countP_history (h : OpeningInv me peer isSecret s)
    (hfinds : Finds me peer isSecret s l action) {messages : List ChatMessage}
    (hanswered : s.room.answered action = some messages) {ref : String} (href : ref ∈ s.sent) :
    (messages.map ChatMessage.id).countP (s.isNameOf ref) = 1 := by
  obtain ⟨hnodup, hrows⟩ := h.response messages (hfinds.response messages hanswered)
  obtain ⟨hheld, -⟩ := hfinds.undisturbed messages hanswered
  obtain ⟨n, hn⟩ := h.sentRefs ref href
  -- every name it has in the answer is that of a row
  have hrow : ∀ name ∈ messages.map ChatMessage.id, s.isNameOf ref name = true →
      ∃ v, (ref, v) ∈ s.stored ∧ name = v.str := by
    intro name hname hnameOf
    obtain rfl | hv := isNameOf_iff.mp hnameOf
    · obtain ⟨m, hm, hid⟩ := List.mem_map.mp hname
      obtain ⟨u, hu, -⟩ := hrows m hm
      exact absurd (hn.symm.trans (hid.symm.trans hu)) (refName_ne_str n u)
    · exact hv
  -- the name that is shown is in the answer, or its row is
  have hsome : ∃ name ∈ messages.map ChatMessage.id, s.isNameOf ref name = true := by
    have hpos : 0 < s.room.names.countP (s.isNameOf ref) := by
      rw [h.bubbles ref href]
      exact Nat.one_pos
    obtain ⟨name, hname, hnameOf⟩ := List.countP_pos_iff.mp hpos
    obtain hmem | ⟨⟨ref', v⟩, hstored, heq, hmem⟩ := hheld name hname
    · exact ⟨name, hmem, hnameOf⟩
    · refine ⟨v.str, hmem, isNameOf_iff.mpr (.inr ⟨v, ?_, rfl⟩)⟩
      have hfst : ref' = name := heq
      subst hfst
      obtain hself | ⟨u, -, hrowName⟩ := isNameOf_iff.mp hnameOf
      · exact hself ▸ hstored
      · obtain ⟨k, hk⟩ := h.sentRefs ref' (h.sent_of_stored hstored)
        exact absurd (hk.symm.trans hrowName) (refName_ne_str k u)
  obtain ⟨name, hname, hnameOf⟩ := hsome
  obtain ⟨v, hv, rfl⟩ := hrow name hname hnameOf
  have hle : (messages.map ChatMessage.id).countP (s.isNameOf ref) ≤
      (messages.map ChatMessage.id).count v.str := by
    refine List.countP_mono_left fun name' hname' hnameOf' => ?_
    obtain ⟨v', hv', rfl⟩ := hrow name' hname' hnameOf'
    rw [h.stored_unique hv' hv]
    exact beq_self_eq_true v.str
  have hone := List.nodup_iff_count_le_one.mp hnodup v.str
  have hpos := List.countP_pos_iff.mpr ⟨v.str, hname, hnameOf⟩
  omega

/-- A message that was sent is shown once. -/
theorem OpeningInv.turn_bubbles (h : OpeningInv me peer isSecret s) (hpeer : peer ≠ me)
    (hfinds : Finds me peer isSecret s l action)
    (hturn : Turn (chatOf me peer isSecret) s.room room' refs action) :
    ∀ ref ∈ s.sent ++ refs, room'.names.countP (s.isNameOf ref) = 1 := by
  have hrests : Rests s.room room' refs →
      (∀ ref ∈ s.sent, room'.names.countP (s.isNameOf ref) = 1) →
        ∀ ref ∈ s.sent ++ refs, room'.names.countP (s.isNameOf ref) = 1 := by
    intro hrests hsent
    rw [hrests.refs, List.append_nil]
    exact hsent
  cases hturn with
  | own _ hheard hanswered hnames hrefs hcounter hholds hdecrypts =>
    have hturn' : Turn (chatOf me peer isSecret) s.room room' refs action :=
      .own _ hheard hanswered hnames hrefs hcounter hholds hdecrypts
    -- a new ref names itself only
    have hself : ∀ ref, ∀ r ∈ refs, s.isNameOf ref r = decide (r = ref) := by
      intro ref r hr
      obtain ⟨n, rfl⟩ := hrefs r hr
      rw [Bool.eq_iff_iff, isNameOf_iff, decide_eq_true_iff]
      refine or_iff_left ?_
      rintro ⟨u, -, heq⟩
      exact refName_ne_str n u heq
    have hnew : ∀ ref, refs.countP (s.isNameOf ref) = refs.count ref := by
      intro ref
      refine List.countP_congr fun r hr => ?_
      rw [hself ref r hr, decide_eq_true_iff, beq_iff_eq]
    intro ref href
    rw [hnames, List.countP_append, hnew]
    obtain href | href := List.mem_append.mp href
    · have hnot : refs.count ref = 0 :=
        List.count_eq_zero.mpr fun hmem => (h.fresh_ref hturn' hmem).1 href
      rw [h.bubbles ref href, hnot]
    · obtain ⟨hunused, hone⟩ := h.fresh_ref hturn' href
      have hnone : s.room.names.countP (s.isNameOf ref) = 0 := by
        refine List.countP_eq_zero.mpr fun name hname hnameOf => ?_
        obtain rfl | ⟨u, hmem, -⟩ := isNameOf_iff.mp hnameOf
        · obtain ⟨n, rfl⟩ := hrefs name href
          exact hunused (h.unsent n hname)
        · exact hunused (h.sent_of_stored hmem)
      rw [hnone, hone]
  | ack frame msg now hrest hnames hdecrypts =>
    refine hrests hrest fun ref href => ?_
    obtain ⟨n, hclient, hmem⟩ | hsame := hfinds.answers h
    rotate_left
    · rw [hnames, hsame]
      exact h.bubbles ref href
    rw [hnames, hclient, List.countP_map]
    refine (List.countP_congr fun name _ => ?_).trans (h.bubbles ref href)
    rw [Function.comp_apply, h.isNameOf_renamed href hmem]
  | arrived _ u hheard hanswered hrest hnames hdecrypts =>
    refine hrests hrest fun ref href => ?_
    rw [hnames]
    exact h.countP_concat hpeer href (hfinds.sentBy h hheard)
  | sealed _ u hheard hanswered hrest hnames hdecrypts =>
    refine hrests hrest fun ref href => ?_
    rw [hnames]
    exact h.bubbles ref href
  | decrypted _ u hheard hanswered hrest hnames hdecrypts =>
    refine hrests hrest fun ref href => ?_
    rw [hnames]
    refine h.countP_concat hpeer href (h.coming u ?_)
    have := hdecrypts u.str
    rw [if_pos rfl] at this
    unfold Opening.coming
    omega
  | history _ messages hheard hanswered hrest hnames hdecrypts =>
    refine hrests hrest fun ref href => ?_
    rw [hnames]
    exact h.countP_history hfinds hanswered href

theorem OpeningInv.turn_unsent (h : OpeningInv me peer isSecret s)
    (hfinds : Finds me peer isSecret s l action)
    (hturn : Turn (chatOf me peer isSecret) s.room room' refs action) (n : ℕ)
    (hmem : refName n ∈ room'.names) : refName n ∈ s.sent ++ refs := by
  have hold : refName n ∈ s.room.names → refName n ∈ s.sent ++ refs := fun hname =>
    List.mem_append_left _ (h.unsent n hname)
  have hconcat : ∀ u : UUID, refName n ∈ s.room.names ++ [u.str] → refName n ∈ s.sent ++ refs := by
    intro u hname
    obtain hname | hname := List.mem_append.mp hname
    · exact hold hname
    · exact absurd (List.mem_singleton.mp hname) (refName_ne_str n u)
  cases hturn with
  | own _ hheard hanswered hnames hrefs hcounter hholds hdecrypts =>
    rw [hnames] at hmem
    obtain hmem | hmem := List.mem_append.mp hmem
    · exact hold hmem
    · exact List.mem_append_right _ hmem
  | ack frame msg now hrest hnames hdecrypts =>
    rw [hnames] at hmem
    obtain ⟨name, hname, heq⟩ := List.mem_map.mp hmem
    exact hold ((renamed_eq_refName heq).1 ▸ hname)
  | arrived _ u hheard hanswered hrest hnames hdecrypts => exact hconcat u (hnames ▸ hmem)
  | sealed _ u hheard hanswered hrest hnames hdecrypts => exact hold (hnames ▸ hmem)
  | decrypted _ u hheard hanswered hrest hnames hdecrypts => exact hconcat u (hnames ▸ hmem)
  | history _ messages hheard hanswered hrest hnames hdecrypts =>
    rw [hnames] at hmem
    obtain ⟨m, hm, hid⟩ := List.mem_map.mp hmem
    obtain ⟨u, hu⟩ := (hfinds.admissible h).history messages hanswered m hm
    exact absurd (hid.symm.trans hu) (refName_ne_str n u)

/-- The names of rows that the room shows after a piece of a handler. -/
theorem OpeningInv.turn_rows (h : OpeningInv me peer isSecret s)
    (hfinds : Finds me peer isSecret s l action)
    (hturn : Turn (chatOf me peer isSecret) s.room room' refs action) (u : UUID)
    (hmem : u.str ∈ room'.names) : (s.world.messages.byId u).isSome = true := by
  have hsentBy : ∀ {v userId : UUID}, SentBy s.world.messages v userId →
      (s.world.messages.byId v).isSome = true := fun ⟨msg, hmsg, _⟩ =>
    Option.isSome_iff_exists.mpr ⟨msg, hmsg⟩
  have hconcat : ∀ v : UUID, SentBy s.world.messages v peer → u.str ∈ s.room.names ++ [v.str] →
      (s.world.messages.byId u).isSome = true := by
    intro v hv hname
    obtain hname | hname := List.mem_append.mp hname
    · exact h.rows u hname
    · rw [UUID.str_injective (List.mem_singleton.mp hname)]
      exact hsentBy hv
  cases hturn with
  | own _ hheard hanswered hnames hrefs hcounter hholds hdecrypts =>
    rw [hnames] at hmem
    obtain hmem | hmem := List.mem_append.mp hmem
    · exact h.rows u hmem
    · obtain ⟨n, hn⟩ := hrefs _ hmem
      exact absurd hn.symm (refName_ne_str n u)
  | ack frame msg now hrest hnames hdecrypts =>
    obtain ⟨n, hclient, hstored⟩ | hsame := hfinds.answers h
    rotate_left
    · rw [hnames, hsame] at hmem
      exact h.rows u hmem
    rw [hnames] at hmem
    obtain ⟨name, hname, heq⟩ := List.mem_map.mp hmem
    unfold renamed at heq
    split_ifs at heq
    · rw [← UUID.str_injective heq]
      exact hsentBy (h.stored _ hstored)
    · exact h.rows u (heq ▸ hname)
  | arrived _ v hheard hanswered hrest hnames hdecrypts =>
    exact hconcat v (hfinds.sentBy h hheard) (hnames ▸ hmem)
  | sealed _ v hheard hanswered hrest hnames hdecrypts => exact h.rows u (hnames ▸ hmem)
  | decrypted _ v hheard hanswered hrest hnames hdecrypts =>
    refine hconcat v (h.coming v ?_) (hnames ▸ hmem)
    have := hdecrypts v.str
    rw [if_pos rfl] at this
    unfold Opening.coming
    omega
  | history _ messages hheard hanswered hrest hnames hdecrypts =>
    rw [hnames] at hmem
    obtain ⟨m, hm, hid⟩ := List.mem_map.mp hmem
    obtain ⟨v, hv, hrow⟩ := (h.response messages (hfinds.response messages hanswered)).2 m hm
    rw [← UUID.str_injective (hv.symm.trans hid)]
    exact hrow

/-- How often the message `id` still comes, as a handler finds it. -/
def comingTo (me peer : UUID) (isSecret : Bool) (s : Opening) (l : Line (Bool × WsCall))
    (room : Room) (id : String) : ℕ :=
  (s.others ++ l.onWay me).countP
    (fun f => decide ((chatOf me peer isSecret).heard f = some id)) + room.decrypts id

/-- A message is taken from what comes before it is shown. -/
theorem Finds.turn_coming (hfinds : Finds me peer isSecret s l action)
    (hturn : Turn (chatOf me peer isSecret) s.room room' refs action) (id : String) :
    comingTo me peer isSecret s l room' id ≤ s.coming me peer isSecret id := by
  have hway := hfinds.coming id
  unfold comingTo Opening.coming
  cases hturn with
  | own _ hheard hanswered hnames hrefs hcounter hholds hdecrypts =>
    rw [hdecrypts]
    omega
  | ack frame msg now hrest hnames hdecrypts =>
    rw [hdecrypts]
    omega
  | arrived _ v hheard hanswered hrest hnames hdecrypts =>
    rw [hdecrypts]
    omega
  | sealed _ v hheard hanswered hrest hnames hdecrypts =>
    rw [hdecrypts]
    rw [hheard] at hway
    by_cases hid : id = v.str
    · subst hid
      rw [if_pos rfl] at hway ⊢
      omega
    · rw [if_neg hid]
      omega
  | decrypted _ v hheard hanswered hrest hnames hdecrypts =>
    have := hdecrypts id
    omega
  | history _ messages hheard hanswered hrest hnames hdecrypts =>
    rw [hdecrypts]
    omega

theorem OpeningInv.turn_once (h : OpeningInv me peer isSecret s) (hpeer : peer ≠ me)
    (hfinds : Finds me peer isSecret s l action)
    (hturn : Turn (chatOf me peer isSecret) s.room room' refs action) (u : UUID) :
    room'.names.count u.str + comingTo me peer isSecret s l room' u.str ≤ 1 := by
  have honce := h.once u
  have hle := hfinds.turn_coming hturn u.str
  have hway := hfinds.coming u.str
  cases hturn with
  | own _ hheard hanswered hnames hrefs hcounter hholds hdecrypts =>
    have hnone : refs.count u.str = 0 := by
      refine List.count_eq_zero.mpr fun hmem => ?_
      obtain ⟨n, hn⟩ := hrefs _ hmem
      exact refName_ne_str n u hn.symm
    rw [hnames, List.count_append, hnone]
    omega
  | ack frame msg now hrest hnames hdecrypts =>
    obtain ⟨n, hclient, hstored⟩ | hsame := hfinds.answers h
    rotate_left
    · rw [hnames, hsame]
      omega
    rw [hnames, hclient]
    by_cases hid : u = msg.id
    · subst hid
      rw [count_renamed_self (refName_ne_str n msg.id)]
      -- no message of the peer has this row
      have hnever : s.coming me peer isSecret msg.id.str = 0 := by
        by_contra hpos
        exact hpeer ((h.coming msg.id (Nat.pos_of_ne_zero hpos)).unique (h.stored _ hstored))
      have hboth : s.room.names.count msg.id.str + s.room.names.count (refName n) ≤
          s.room.names.countP (s.isNameOf (refName n)) := by
        rw [← count_renamed_self (refName_ne_str n msg.id), List.count, List.countP_map]
        refine List.countP_mono_left fun name _ hname => ?_
        rw [Function.comp_apply, beq_iff_eq] at hname
        rw [← h.isNameOf_renamed (h.sent_of_stored hstored) hstored, hname]
        exact isNameOf_iff.mpr (.inr ⟨msg.id, hstored, rfl⟩)
      rw [h.bubbles _ (h.sent_of_stored hstored)] at hboth
      omega
    · rw [count_renamed_of_ne (refName_ne_str n u).symm fun heq => hid (UUID.str_injective heq)]
      omega
  | arrived _ v hheard hanswered hrest hnames hdecrypts =>
    rw [hnames, List.count_append, List.count_singleton]
    unfold comingTo at hle ⊢
    rw [hdecrypts]
    rw [hheard] at hway
    unfold Opening.coming at honce
    simp only [beq_iff_eq, Option.some.injEq] at hway ⊢
    split_ifs at hway ⊢ <;> omega
  | sealed _ v hheard hanswered hrest hnames hdecrypts =>
    rw [hnames]
    omega
  | decrypted _ v hheard hanswered hrest hnames hdecrypts =>
    rw [hnames, List.count_append, List.count_singleton]
    unfold comingTo at hle ⊢
    have hdec := hdecrypts u.str
    unfold Opening.coming at honce
    simp only [beq_iff_eq] at hdec ⊢
    by_cases hid : v.str = u.str
    · rw [if_pos hid]
      rw [if_pos hid.symm] at hdec
      omega
    · rw [if_neg hid]
      rw [if_neg fun heq => hid heq.symm] at hdec
      omega
  | history _ messages hheard hanswered hrest hnames hdecrypts =>
    obtain ⟨hnodup, -⟩ := h.response messages (hfinds.response messages hanswered)
    obtain ⟨-, hnocoming⟩ := hfinds.undisturbed messages hanswered
    rw [hnames]
    by_cases hmem : u.str ∈ messages.map ChatMessage.id
    · obtain ⟨m, hm, hid⟩ := List.mem_map.mp hmem
      have hzero := hnocoming m hm
      rw [hid] at hzero
      have hone := List.nodup_iff_count_le_one.mp hnodup u.str
      omega
    · rw [List.count_eq_zero.mpr hmem]
      omega

/-- The name of a row stays, unless the history comes without it. -/
theorem OpeningInv.turn_keeps (h : OpeningInv me peer isSecret s)
    (hfinds : Finds me peer isSecret s l action)
    (hturn : Turn (chatOf me peer isSecret) s.room room' refs action) (u : UUID)
    (hmem : u.str ∈ s.room.names) : u.str ∈ room'.names := by
  cases hturn with
  | own _ hheard hanswered hnames hrefs hcounter hholds hdecrypts =>
    rw [hnames]
    exact List.mem_append_left _ hmem
  | ack frame msg now hrest hnames hdecrypts =>
    obtain ⟨n, hclient, hstored⟩ | hsame := hfinds.answers h
    rotate_left
    · rw [hnames, hsame]
      exact hmem
    rw [hnames, hclient]
    refine List.mem_map.mpr ⟨u.str, hmem, if_neg fun heq => ?_⟩
    exact refName_ne_str n u (Option.some.inj heq).symm
  | arrived _ v hheard hanswered hrest hnames hdecrypts =>
    rw [hnames]
    exact List.mem_append_left _ hmem
  | sealed _ v hheard hanswered hrest hnames hdecrypts => exact hnames ▸ hmem
  | decrypted _ v hheard hanswered hrest hnames hdecrypts =>
    rw [hnames]
    exact List.mem_append_left _ hmem
  | history _ messages hheard hanswered hrest hnames hdecrypts =>
    rw [hnames]
    obtain hmem | ⟨⟨ref, v⟩, hstored, heq, -⟩ :=
      (hfinds.undisturbed messages hanswered).1 u.str hmem
    · exact hmem
    · obtain ⟨n, hn⟩ := h.sentRefs _ (h.sent_of_stored hstored)
      exact absurd (hn.symm.trans heq) (refName_ne_str n u)

theorem OpeningInv.turn_answered (h : OpeningInv me peer isSecret s) (hpeer : peer ≠ me)
    (hfinds : Finds me peer isSecret s l action)
    (hturn : Turn (chatOf me peer isSecret) s.room room' refs action) :
    ∀ id ∈ s.answered ++ ((s.room.answered action).getD []).map ChatMessage.id,
      NamesRow id ∧ room'.names.count id = 1 := by
  have hone : ∀ u : UUID, u.str ∈ room'.names → NamesRow u.str ∧ room'.names.count u.str = 1 := by
    intro u hmem
    have hpos := List.count_pos_iff.mpr hmem
    have hle := h.turn_once hpeer hfinds hturn u
    exact ⟨⟨u, rfl⟩, by omega⟩
  intro id hid
  obtain hid | hid := List.mem_append.mp hid
  · obtain ⟨⟨u, rfl⟩, hcount⟩ := h.answered id hid
    refine hone u (h.turn_keeps hfinds hturn u (List.count_pos_iff.mp ?_))
    omega
  · cases hanswered : s.room.answered action with
    | none =>
      rw [hanswered] at hid
      cases hid
    | some messages =>
      rw [hanswered] at hid
      have hmem : id ∈ room'.names := by
        cases hturn with
        | own _ _ hnone | arrived _ _ _ hnone | sealed _ _ _ hnone | decrypted _ _ _ hnone =>
          rw [hanswered] at hnone
          cases hnone
        | ack => cases hanswered
        | history _ messages' hheard hanswered' hrest hnames hdecrypts =>
          obtain rfl := Option.some.inj (hanswered.symm.trans hanswered')
          rw [hnames]
          exact hid
      obtain ⟨m, hm, rfl⟩ := List.mem_map.mp hid
      obtain ⟨u, hu⟩ := (hfinds.admissible h).history messages hanswered m hm
      rw [hu] at hmem ⊢
      exact hone u hmem

/-- A message that arrived is shown, or waits for its decryption. -/
theorem OpeningInv.turn_arrived (h : OpeningInv me peer isSecret s) (hpeer : peer ≠ me)
    (hfinds : Finds me peer isSecret s l action)
    (hturn : Turn (chatOf me peer isSecret) s.room room' refs action) :
    ∀ id ∈ s.arrived ++ (action.heard (chatOf me peer isSecret)).toList,
      NamesRow id ∧ room'.names.count id + room'.decrypts id = 1 := by
  have hle : ∀ u : UUID, room'.names.count u.str + room'.decrypts u.str ≤ 1 := by
    intro u
    have := h.turn_once hpeer hfinds hturn u
    unfold comingTo at this
    omega
  have hone : ∀ u : UUID, 0 < room'.names.count u.str + room'.decrypts u.str →
      NamesRow u.str ∧ room'.names.count u.str + room'.decrypts u.str = 1 := by
    intro u hpos
    have := hle u
    exact ⟨⟨u, rfl⟩, by omega⟩
  intro id hid
  obtain hid | hid := List.mem_append.mp hid
  · obtain ⟨⟨u, rfl⟩, hcount⟩ := h.arrived id hid
    refine hone u ?_
    have hkeeps : u.str ∈ s.room.names → 0 < room'.names.count u.str := fun hmem =>
      List.count_pos_iff.mpr (h.turn_keeps hfinds hturn u hmem)
    by_cases hmem : u.str ∈ s.room.names
    · have := hkeeps hmem
      omega
    rw [List.count_eq_zero.mpr hmem] at hcount
    -- it waits still, or has been decrypted
    cases hturn with
    | own _ _ _ _ _ _ _ hdecrypts | ack _ _ _ _ _ hdecrypts | arrived _ _ _ _ _ _ hdecrypts
    | history _ _ _ _ _ _ hdecrypts =>
      rw [hdecrypts]
      omega
    | sealed _ v hheard hanswered hrest hnames hdecrypts =>
      rw [hdecrypts]
      omega
    | decrypted _ v hheard hanswered hrest hnames hdecrypts =>
      have hdec := hdecrypts u.str
      by_cases hv : u.str = v.str
      · rw [hnames, List.count_append, List.count_singleton, hv, if_pos (beq_self_eq_true _)]
        omega
      · rw [if_neg hv] at hdec
        omega
  · have hheard : action.heard (chatOf me peer isSecret) = some id := Option.mem_toList.mp hid
    cases hturn with
    | own _ hnone | decrypted _ _ hnone | history _ _ hnone =>
      rw [hheard] at hnone
      cases hnone
    | ack frame msg =>
      have hnone : (chatOf me peer isSecret).heard (ackFrame frame msg) = none :=
        heard_ackFrame frame msg
      cases hheard.symm.trans hnone
    | arrived _ v hv hanswered hrest hnames hdecrypts =>
      obtain rfl := Option.some.inj (hheard.symm.trans hv)
      refine hone v ?_
      rw [hnames, List.count_append, List.count_singleton, if_pos (beq_self_eq_true _)]
      omega
    | sealed _ v hv hanswered hrest hnames hdecrypts =>
      obtain rfl := Option.some.inj (hheard.symm.trans hv)
      refine hone v ?_
      rw [hdecrypts, if_pos rfl]
      omega

end Turn

end IronLink.Client
