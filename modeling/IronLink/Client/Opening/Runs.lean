import IronLink.Client.Opening.Turn

/-!
# Runs that open a room

Results:
* `complete_of_undisturbed`: when the history holds every message that is shown,
  and no frame of one of its messages is still to come, and no `ack` of another room
  takes a bubble, then every message of the history, every one that arrived and every
  one that was sent is shown once.
* `opening_loses`, `opening_duplicates`, `opening_confuses`: without any of the
  conditions it is not.
-/

namespace IronLink.Client

open Lib Messages Ws

variable {me peer : UUID} {isSecret : Bool} {s : Opening}

/-! ## Steps -/

variable {S : Type} {lib : Libsignal S} {keys : KeyServer} {action : OpeningAction}
  {s' : Opening}

theorem outbox_send_le (l : Line (Bool × WsCall)) (calls : List (Bool × WsCall)) (ref : String) :
    ((l.send calls).outbox.filterMap ownRef).count ref ≤
      (l.outbox.filterMap ownRef).count ref + (calls.filterMap ownRef).count ref := by
  unfold Line.send
  split_ifs
  · exact (by rw [List.filterMap_append, List.count_append] : _ = _).le
  · exact Nat.le_add_right _ _

theorem filterMap_ownRef_own (calls : List WsCall) :
    (calls.map (true, ·)).filterMap ownRef = calls.filterMap WsCall.clientRef := by
  rw [List.filterMap_map]
  rfl

theorem filterMap_ownRef_elsewhere (calls : List WsCall) :
    (calls.map (false, ·)).filterMap ownRef = [] := by
  rw [List.filterMap_map]
  exact List.filterMap_eq_nil_iff.mpr fun _ _ => rfl

theorem OpeningInv.turn (h : OpeningInv me peer isSecret s) (hpeer : peer ≠ me)
    {l : Line (Bool × WsCall)} {action : RoomAction} (hfinds : Finds me peer isSecret s l action)
    (hs : Opening.turn lib keys me peer isSecret { s with line := l } action = some s') :
    OpeningInv me peer isSecret s' := by
  obtain ⟨seg, hseg, rfl⟩ := Option.map_eq_some_iff.mp hs
  have hmoves : Moves (chatOf me peer isSecret) s.room seg action :=
    moves_of_segment h.sound (hfinds.admissible h) hseg
  have hturn := hmoves.turn
  have hway : ∀ l' : Line (Bool × WsCall),
      (l'.send (seg.calls.map (true, ·))).onWay me = l'.onWay me := fun l' => onWay_send _
  have hcoming : ∀ id, (Opening.coming me peer isSecret
      { s with
        line := l.send (seg.calls.map (true, ·))
        room := s.room.after action seg
        sent := s.sent ++ seg.calls.filterMap WsCall.clientRef
        arrived := s.arrived ++ (action.heard (chatOf me peer isSecret)).toList
        answered := s.answered ++
          ((s.room.answered action).getD []).map ChatMessage.id } id) =
      comingTo me peer isSecret s l (s.room.after action seg) id := by
    intro id
    unfold Opening.coming comingTo Opening.onWay
    rw [hway]
  refine ⟨sound_after h.sound hmoves, fun f hf => ?_, h.turn_refs hturn, h.turn_sentRefs hturn,
    fun ref => ?_, h.stored, h.storedOnce, h.turn_bubbles hpeer hfinds hturn,
    h.turn_unsent hfinds hturn, h.turn_rows hfinds hturn, h.response, fun u hu => h.coming u ?_,
    fun u => ?_, h.turn_arrived hpeer hfinds hturn, h.turn_answered hpeer hfinds hturn⟩
  · unfold Opening.onWay at hf
    rw [hway] at hf
    exact h.frames f (hfinds.way f hf)
  · have hsend := outbox_send_le l (seg.calls.map (true, ·)) ref
    rw [filterMap_ownRef_own] at hsend
    have hout := h.outbox ref
    rw [← hfinds.outbox] at hout
    rw [List.count_append]
    show ((l.send (seg.calls.map (true, ·))).outbox.filterMap ownRef).count ref +
      (s.stored.map Prod.fst).count ref ≤
        s.sent.count ref + (seg.calls.filterMap WsCall.clientRef).count ref
    omega
  · exact lt_of_lt_of_le hu (hcoming u.str ▸ hfinds.turn_coming hturn u.str)
  · rw [hcoming]
    exact h.turn_once hpeer hfinds hturn u

/-- A piece of a handler that takes no frame. -/
theorem finds_same {action : RoomAction}
    (hframe : ∀ f now, action ≠ .event (.frameReceived f) now)
    (hresponse : ∀ messages ∈ s.room.answered action, s.response = some (.ok messages))
    (hundisturbed : ∀ messages ∈ s.room.answered action,
      (∀ name ∈ s.room.names, name ∈ messages.map ChatMessage.id ∨
        ∃ p ∈ s.stored, p.1 = name ∧ p.2.str ∈ messages.map ChatMessage.id) ∧
      ∀ m ∈ messages, s.coming me peer isSecret m.id = 0) :
    Finds me peer isSecret s s.line action := by
  have hheard : action.heard (chatOf me peer isSecret) = none := by
    cases action with
    | event e now =>
      cases e with
      | frameReceived f => exact absurd rfl (hframe f now)
      | chatOpened | contentSent | typingChanged | messageUnsent => rfl
    | resume i answer => rfl
    | store storage => rfl
  refine ⟨rfl, fun f hf => hf, fun id => ?_, fun f now heq => absurd heq (hframe f now),
    fun f now heq => absurd heq (hframe f now), hresponse, hundisturbed⟩
  rw [hheard, if_neg (by simp)]
  exact le_rfl

/-- The piece of a handler that takes a frame. -/
theorem finds_takes {f : Frame} {l : Line (Bool × WsCall)} (h : s.line.takes = some (f, l))
    (hclear : s.Unclashed f) (now : Time) :
    Finds me peer isSecret s l (.event (.frameReceived f) now) := by
  have hperm : (s.onWay me).Perm (f :: (s.others ++ l.onWay me)) :=
    ((onWay_takes h).append_left s.others).trans List.perm_middle
  refine ⟨outbox_takes h, fun g hg => hperm.mem_iff.mpr (List.mem_cons_of_mem f hg), fun id => ?_,
    fun g now' heq => ?_, fun g now' heq => ?_, fun messages hanswered => ?_,
    fun messages hanswered => ?_⟩
  · rw [hperm.countP_eq, List.countP_cons]
    simp only [decide_eq_true_eq]
    exact le_rfl
  · obtain ⟨hframe, -⟩ := RoomAction.event.inj heq
    rw [← ChatEvent.frameReceived.inj hframe]
    exact hperm.mem_iff.mpr List.mem_cons_self
  · obtain ⟨hframe, -⟩ := RoomAction.event.inj heq
    rw [← ChatEvent.frameReceived.inj hframe]
    exact hclear
  · cases hanswered
  · cases hanswered

/-- An event of the room itself is let through as it is. -/
theorem admits_event {e : ChatEvent} {now : Time} {action' : RoomAction}
    (h : s.admits (.event e now) = some action') :
    action' = .event e now ∧ ∀ f, e ≠ .frameReceived f := by
  cases e with
  | chatOpened | frameReceived => cases h
  | contentSent | typingChanged | messageUnsent =>
    simp only [Opening.admits] at h
    split_ifs at h
    exact ⟨(Option.some.inj h).symm, fun f heq => by cases heq⟩

/-- The room goes on with what the server answered. -/
theorem finds_admits {action action' : RoomAction}
    (h : s.admits action = some action')
    (hundisturbed : Undisturbed me peer isSecret s (.room action)) :
    Finds me peer isSecret s s.line action' := by
  refine finds_same (fun f now heq => ?_) (fun messages hanswered => ?_) (hundisturbed action' h)
  · subst heq
    cases action with
    | event e now' =>
      obtain ⟨heq, hother⟩ := admits_event h
      obtain ⟨rfl, -⟩ := RoomAction.event.inj heq
      exact absurd rfl (hother f)
    | resume i answer =>
      simp only [Opening.admits] at h
      split at h
      · obtain ⟨_, -, heq⟩ := Option.map_eq_some_iff.mp h
        cases heq
      · cases h
    | store storage => cases h
  · cases action with
    | event e now =>
      obtain ⟨rfl, -⟩ := admits_event h
      cases hanswered
    | resume i answer =>
      simp only [Opening.admits] at h
      split at h
      · next hi =>
        obtain ⟨history, hresponse, rfl⟩ := Option.map_eq_some_iff.mp h
        rw [hresponse]
        simp only [Room.answered, hi] at hanswered
        cases history with
        | error err => cases hanswered
        | ok history => rw [Option.some.inj hanswered]
      · next hother =>
        obtain rfl := Option.some.inj h
        simp only [Room.answered] at hanswered
        split at hanswered
        · next hi _ => exact absurd hi hother
        · cases hanswered
    | store storage =>
      obtain rfl := Option.some.inj h
      cases hanswered

theorem Calm.passes {f : Frame} {stored : List (String × UUID)}
    (h : Calm (chatOf me peer isSecret) f) : ServerFrame f ∧ Answers id stored f ∧
      (chatOf me peer isSecret).heard f = none :=
  ⟨h.server, h.answers, h.heard⟩

/-- The server handles a frame of the device; `hrow` says what becomes of its row. -/
theorem OpeningInv.serve_of {w : World} {stored elsewhere : List (String × UUID)}
    {call : Bool × WsCall} {rest : List (Bool × WsCall)} {toId : UUID} {msg : Message}
    {content : Option String} {pushes : List Effect} {ref : String} {r : Handled}
    (h : OpeningInv me peer isSecret { s with
      world := w, line := { s.line with outbox := rest }, stored := stored,
      elsewhere := elsewhere })
    (hpeer : peer ≠ me) (hreads : s.line.reads = some (call, rest))
    (hcontent : (Json.get call.2.frame "content").asOptStr = some content)
    (hpushes : ∀ chat, ∀ effect ∈ pushes, ∀ f ∈ effectFrame effect, Calm chat f)
    (heffects : r.effects = pushes ++ [.send (ackFrame call.2.frame msg),
      .publish toId (messageFrame call.2.frame me msg)])
    (href : refOf call.2.frame = some ref) (hrow : (ref, msg.id) ∈ stored ++ elsewhere) :
    OpeningInv me peer isSecret { s with
      world := w, line := s.line.handled rest r, stored := stored, elsewhere := elsewhere } := by
  have hway : (s.others ++ (s.line.handled rest r).onWay me).Subperm
      (r.effects.filterMap (reaches me) ++ s.onWay me) := others_onWay_handled s.others hreads r
  refine h.pass (r.effects.filterMap (reaches me)) (fun id msg hmsg => ⟨msg, hmsg, .refl msg⟩)
    (fun ref => ((outbox_handled s.line rest r).filterMap ownRef).count_le ref) hway
    fun f hf => ?_
  obtain ⟨effect, heffect, hframe⟩ := frame_of_reaches hf
  obtain ⟨push, hpush, hframe⟩ | rfl | rfl := frame_of_content heffects heffect hframe
  · exact (hpushes _ push hpush f hframe).passes
  · exact ⟨.ack call.2.frame msg, answers_ackFrame href hrow, heard_ackFrame _ _⟩
  · have hother : me.str ≠ (chatOf me peer isSecret).peerId := fun heq =>
      hpeer (UUID.str_injective heq).symm
    exact (calm_messageFrame hcontent hother).passes

/-- The server handles a frame of the device. -/
theorem OpeningInv.serve (h : OpeningInv me peer isSecret s) (hpeer : peer ≠ me) {own : Bool}
    {call : WsCall} {rest : List (Bool × WsCall)}
    (hreads : s.line.reads = some ((own, call), rest)) (connectionId : String) {fresh : NewRow}
    (hfresh : s.world.messages.byId fresh = none) :
    let r := handleFrame s.world me connectionId fresh call.frame
    let rows := storedFor call.frame r fresh
    OpeningInv me peer isSecret
      { s with
        world := r.world
        line := s.line.handled rest r
        stored := s.stored ++ if own then rows else []
        elsewhere := s.elsewhere ++ if own then [] else rows } := by
  intro r rows
  have hgrows : Jobs.Grows s.world.messages r.world.messages :=
    grows_handleFrame s.world me connectionId fresh call.frame
  have houtbox := outbox_reads hreads
  have hhandling : Handling s.world me fresh call.frame r :=
    handling s.world me connectionId fresh call.frame
  cases hhandling with
  | content messageType toId msg content pushes htype hto hcontent hid hsender _ hrows hpushes
      heffects hraised =>
    obtain ⟨ref, hclient, href⟩ := clientRef_of_content htype
    have hrow : SentBy r.world.messages fresh me := by
      rw [hrows]
      exact sentBy_append hid hsender hfresh
    have hstored : rows = [(ref, (fresh : UUID))] := storedFor_of_isSome hrow.isSome href
    rw [hstored]
    cases own with
    | true =>
      simp only [if_true, List.append_nil]
      refine (h.store houtbox hclient hgrows hfresh hrow).serve_of hpeer hreads hcontent hpushes
        heffects href ?_
      rw [hid]
      exact List.mem_append_left _ (List.mem_append_right _ List.mem_cons_self)
    | false =>
      simp only [Bool.false_eq_true, if_false, List.append_nil]
      refine (h.storeElsewhere ref fresh houtbox hgrows).serve_of hpeer hreads hcontent hpushes
        heffects href ?_
      rw [hid]
      exact List.mem_append_right _ (List.mem_append_right _ List.mem_cons_self)
  | calm hnone hcalm =>
    have hrows : rows = [] := storedFor_of_none (hnone fresh hfresh)
    rw [hrows, ite_self, List.append_nil, List.append_nil]
    refine h.pass (r.effects.filterMap (reaches me)) hgrows (fun ref => ?_)
      (others_onWay_handled s.others hreads r) fun f hf => ?_
    · refine (((outbox_handled s.line rest r).filterMap ownRef).count_le ref).trans ?_
      rw [houtbox]
      exact ((List.sublist_cons_self _ rest).filterMap ownRef).count_le ref
    · obtain ⟨effect, heffect, hframe⟩ := frame_of_reaches hf
      exact (hcalm _ effect heffect f hframe).passes

/-- The server handles a frame of another connection. -/
theorem OpeningInv.frame (h : OpeningInv me peer isSecret s) (userId : UUID)
    (connectionId : String) (fresh : NewRow) (frame : Frame) :
    let r := handleFrame s.world userId connectionId fresh frame
    OpeningInv me peer isSecret
      { s with world := r.world, others := s.others ++ r.effects.filterMap (publishes me) } := by
  intro r
  have hgrows : Jobs.Grows s.world.messages r.world.messages :=
    grows_handleFrame s.world userId connectionId fresh frame
  have hhandling : Handling s.world userId fresh frame r :=
    handling s.world userId connectionId fresh frame
  have hperm : ∀ new : List Frame, (s.others ++ new ++ s.line.onWay me).Subperm
      (new ++ s.onWay me) := by
    intro new
    rw [List.append_assoc]
    exact (List.perm_append_comm_assoc _ _ _).subperm
  cases hhandling with
  | content messageType toId msg content pushes htype hto hcontent hid hsender hfresh hrows hpushes
      heffects hraised =>
    have hcalm : ∀ f ∈ pushes.filterMap (publishes me), Calm (chatOf me peer isSecret) f := by
      intro f hf
      obtain ⟨effect, heffect, hpublishes⟩ := List.mem_filterMap.mp hf
      exact hpushes _ effect heffect f (effectFrame_of_publishes hpublishes)
    have hnew : r.effects.filterMap (publishes me) = pushes.filterMap (publishes me) ++
        if toId = me then [messageFrame frame userId msg] else [] := by
      rw [heffects, List.filterMap_append]
      congr 1
      rw [List.filterMap_cons_none rfl]
      by_cases hme : toId = me
      · have hsome : publishes me (.publish toId (messageFrame frame userId msg)) =
            some (messageFrame frame userId msg) := if_pos hme
        rw [if_pos hme, List.filterMap_cons_some hsome, List.filterMap_nil]
      · have hnone : publishes me (.publish toId (messageFrame frame userId msg)) = none :=
          if_neg hme
        rw [if_neg hme, List.filterMap_cons_none hnone, List.filterMap_nil]
    by_cases hpeer : toId = me ∧ userId = peer
    · obtain ⟨rfl, rfl⟩ := hpeer
      rw [hnew, if_pos rfl]
      have hrow : SentBy r.world.messages msg.id userId := by
        rw [hrows]
        exact sentBy_append rfl hsender (hid ▸ hfresh)
      have hnew : s.world.messages.byId msg.id = none := hid ▸ hfresh
      have hmessage := h.message hcontent hgrows hnew hrow
      refine hmessage.pass (pushes.filterMap (publishes toId))
        (fun id msg hmsg => ⟨msg, hmsg, .refl msg⟩) (fun ref => le_rfl) ?_
        fun f hf => (hcalm f hf).passes
      show (s.others ++ (_ ++ [_]) ++ _).Subperm (_ ++ (s.others ++ [_] ++ _))
      rw [List.append_assoc, List.append_assoc, List.append_assoc]
      exact (List.perm_append_comm_assoc _ _ _).subperm
    · refine h.pass _ hgrows (fun ref => le_rfl) (hperm _) fun f hf => ?_
      rw [hnew] at hf
      obtain hf | hf := List.mem_append.mp hf
      · exact (hcalm f hf).passes
      · split_ifs at hf with hme
        · obtain rfl := List.mem_singleton.mp hf
          have hother : userId.str ≠ (chatOf me peer isSecret).peerId := fun heq =>
            hpeer ⟨hme, UUID.str_injective heq⟩
          exact (calm_messageFrame hcontent hother).passes
        · cases hf
  | calm hnone hcalm =>
    refine h.pass _ hgrows (fun ref => le_rfl) (hperm _) fun f hf => ?_
    obtain ⟨effect, heffect, hpublishes⟩ := List.mem_filterMap.mp hf
    exact (hcalm _ effect heffect f (effectFrame_of_publishes hpublishes)).passes

/-- What is on the line moves on, and nothing is added to it. -/
theorem OpeningInv.move (h : OpeningInv me peer isSecret s) {l : Line (Bool × WsCall)}
    {others : List Frame}
    (hout : ∀ ref, (l.outbox.filterMap ownRef).count ref ≤
      (s.line.outbox.filterMap ownRef).count ref)
    (hway : (others ++ l.onWay me).Subperm (s.onWay me)) :
    OpeningInv me peer isSecret { s with line := l, others := others } :=
  h.pass [] (fun _ msg hmsg => ⟨msg, hmsg, .refl msg⟩) hout hway (by simp)

/-- The server answers the request for the history. -/
theorem OpeningInv.evaluate (h : OpeningInv me peer isSecret s) {messages : List Message}
    (hhistory : IsHistory s.world.messages me peer none HISTORY_LIMIT messages) :
    OpeningInv me peer isSecret
      { s with response := some (.ok (messages.map (ChatMessage.ofRow me.str))) } := by
  refine { h with response := fun shown hresponse => ?_ }
  obtain rfl := Except.ok.inj (Option.some.inj hresponse)
  have hids : (messages.map (ChatMessage.ofRow me.str)).map ChatMessage.id =
      (messages.map Message.id).map UUID.str := by
    rw [List.map_map, List.map_map]
    rfl
  constructor
  · rw [hids]
    exact hhistory.1.map fun _ _ => UUID.str_injective
  · intro m hm
    obtain ⟨msg, hmsg, rfl⟩ := List.mem_map.mp hm
    exact ⟨msg.id, rfl, isHistory_byId hhistory hmsg⟩

/-- Every step keeps the invariant, when the history does not disturb it. -/
theorem OpeningInv.step (h : OpeningInv me peer isSecret s) (hpeer : peer ≠ me)
    (hundisturbed : Undisturbed me peer isSecret s action)
    (hs : openingStep lib keys me peer isSecret s action = some s') :
    OpeningInv me peer isSecret s' := by
  cases action with
  | enter now =>
    simp only [openingStep] at hs
    split_ifs at hs
    have hopened : OpeningInv me peer isSecret { s with isOpened := true } := { h with }
    refine hopened.turn hpeer (finds_same (fun f now' heq => ?_) (fun messages hanswered => ?_)
      fun messages hanswered => ?_) hs
    · cases heq
    · cases hanswered
    · cases hanswered
  | room action =>
    obtain ⟨action', hadmits, hs⟩ := Option.bind_eq_some_iff.mp hs
    exact h.turn hpeer (finds_admits hadmits hundisturbed) hs
  | sendElsewhere calls =>
    obtain rfl := Option.some.inj hs
    refine h.move (fun ref => ?_) ?_
    · refine (outbox_send_le s.line _ ref).trans ?_
      rw [filterMap_ownRef_elsewhere, List.count_nil, add_zero]
    · rw [onWay_send]
      exact List.Subperm.refl _
  | receive now =>
    obtain ⟨⟨f, l⟩, htakes, hs⟩ := Option.bind_eq_some_iff.mp hs
    simp only at hs
    split_ifs at hs with hopened
    · exact h.turn hpeer (finds_takes htakes (hundisturbed _ htakes hopened) now) hs
    · obtain rfl := Option.some.inj hs
      refine h.move (fun ref => ?_) ?_
      · rw [outbox_takes htakes]
      · refine (List.subperm_append_left s.others).mpr ?_
        exact (List.sublist_cons_self f _).subperm.trans (onWay_takes htakes).symm.subperm
  | evaluate messages =>
    simp only [openingStep] at hs
    split_ifs at hs with hok
    obtain rfl := Option.some.inj hs
    exact h.evaluate hok.2.2.2
  | refuse err =>
    simp only [openingStep] at hs
    split_ifs at hs with hok
    obtain rfl := Option.some.inj hs
    refine { h with response := fun messages hresponse => ?_ }
    cases hresponse
  | serve connectionId fresh =>
    obtain ⟨⟨⟨own, call⟩, rest⟩, hreads, hs⟩ := Option.bind_eq_some_iff.mp hs
    obtain ⟨hfresh, hs⟩ := Option.ite_none_right_eq_some.mp hs
    obtain rfl := Option.some.inj hs
    exact h.serve hpeer hreads connectionId (Option.isNone_iff_eq_none.mp hfresh)
  | perform =>
    obtain ⟨⟨effect, l⟩, hperforms, rfl⟩ := Option.map_eq_some_iff.mp hs
    refine h.move (fun ref => ?_) ?_
    · rw [outbox_act hperforms]
    · exact (List.subperm_append_left s.others).mpr (onWay_act hperforms)
  | frame userId connectionId fresh frame =>
    obtain rfl := Option.some.inj hs
    exact h.frame userId connectionId fresh frame
  | publish k =>
    obtain ⟨f, hf, rfl⟩ := Option.map_eq_some_iff.mp hs
    refine h.move (fun ref => ?_) ?_
    · rw [outbox_publish]
    · exact others_onWay_publish hf
  | relay =>
    obtain ⟨l, hrelay, rfl⟩ := Option.map_eq_some_iff.mp hs
    refine h.move (fun ref => ?_) ?_
    · rw [outbox_relay hrelay]
    · exact ((onWay_relay hrelay).append_left s.others).subperm
  | tick d =>
    obtain rfl := Option.some.inj hs
    exact h.pass [] (fun _ msg hmsg => ⟨msg, hmsg, .refl msg⟩) (fun ref => le_rfl)
      (List.Subperm.refl _) (by simp)

/-! ## Runs -/

instance (s : Opening) : Decidable s.Settled :=
  decidable_of_iff (s.line.Quiet ∧ s.others = [] ∧ s.room.waiting = [])
    ⟨fun h => ⟨h.1, h.2.1, h.2.2⟩, fun h => ⟨h.line, h.others, h.waiting⟩⟩

instance (s : Opening) : Decidable s.Complete :=
  decidable_of_iff ((∀ id ∈ s.answered, s.room.names.count id = 1) ∧
      (∀ id ∈ s.arrived, s.room.names.count id = 1) ∧
      ∀ ref ∈ s.sent, s.room.names.countP (s.isNameOf ref) = 1)
    ⟨fun h => ⟨h.1, h.2.1, h.2.2⟩, fun h => ⟨h.answered, h.arrived, h.sent⟩⟩

theorem OpeningInv.complete (h : OpeningInv me peer isSecret s) (hsettled : s.Settled) :
    s.Complete := by
  refine ⟨fun id hid => (h.answered id hid).2, fun id hid => ?_, h.bubbles⟩
  have hdecrypts : s.room.decrypts id = 0 := by
    unfold Room.decrypts
    rw [hsettled.waiting, List.countP_nil]
  have := (h.arrived id hid).2
  omega

/-- **Opening a room.** In a run in which the history, when it is handled, holds
    every message shown and none that is still to come, and in which no `ack` of
    another room takes a bubble, every message is shown exactly once as soon as all
    frames have been handled. -/
theorem complete_of_undisturbed (lib : Libsignal S) (keys : KeyServer) (me peer : UUID)
    (isSecret : Bool) (world : World) (storage : Storage) (actions : List OpeningAction)
    (s : Opening) (hpeer : peer ≠ me)
    (hundisturbed : Guarded (openingStep lib keys me peer isSecret)
      (Undisturbed me peer isSecret) (.init world storage) actions)
    (hrun : run (openingStep lib keys me peer isSecret) (.init world storage) actions = some s)
    (hsettled : s.Settled) : s.Complete := by
  have hinv : OpeningInv me peer isSecret s :=
    hundisturbed.invariant (fun _ _ _ h hu hs => h.step hpeer hu hs) (openingInv_init world storage)
      hrun
  exact hinv.complete hsettled

instance (s : Opening) : ∀ action, Decidable (Undisturbed me peer isSecret s action)
  | .room action => inferInstanceAs (Decidable (∀ action' ∈ s.admits action,
      ∀ messages ∈ s.room.answered action',
        (∀ name ∈ s.room.names, name ∈ messages.map ChatMessage.id ∨
          ∃ p ∈ s.stored, p.1 = name ∧ p.2.str ∈ messages.map ChatMessage.id) ∧
        ∀ m ∈ messages, s.coming me peer isSecret m.id = 0))
  | .receive _ => inferInstanceAs
      (Decidable (∀ taken ∈ s.line.takes, s.isOpened = true → s.Unclashed taken.1))
  | .enter _ | .sendElsewhere _ | .evaluate _ | .refuse _ | .serve .. | .perform | .frame ..
  | .publish _ | .relay | .tick _ => isTrue trivial

/-- What the handlers of a room without secrets are told. -/
def sampleAnswer : Answer := ⟨.ok [], ⟨"", ""⟩, ⟨"", ""⟩, 0⟩

/-- The device of user 7 before it opens the room with user 1. -/
def sampleOpening : Opening := .init sampleWorld fun _ => none

abbrev sampleOpeningStep := openingStep sampleLib sampleKeys 7 1 false

/-- A text goes out once the history is there. -/
def sendWhenOpened : List OpeningAction :=
  [.enter 0, .evaluate [], .room (.resume 0 sampleAnswer),
    .room (.event (.contentSent (.textSent "hello")) 0), .serve "c" 200, .perform, .perform,
    .receive 0]

theorem complete_sendWhenOpened :
    ∃ s ∈ run sampleOpeningStep sampleOpening sendWhenOpened,
      s.Settled ∧ s.sent = ["ref_1"] ∧ s.Complete := by
  have hsettled : ∃ s ∈ run sampleOpeningStep sampleOpening sendWhenOpened,
      s.Settled ∧ s.sent = ["ref_1"] := by decide +kernel
  obtain ⟨s, hrun, hsettled, hsent⟩ := hsettled
  have hundisturbed : Guarded sampleOpeningStep (Undisturbed 7 1 false) sampleOpening
      sendWhenOpened := by decide +kernel
  exact ⟨s, hrun, hsettled, hsent, complete_of_undisturbed sampleLib sampleKeys 7 1 false
    sampleWorld _ sendWhenOpened s (by decide) hundisturbed hrun hsettled⟩

/-- A text goes out while the history is on its way. -/
def sendWhileOpening : List OpeningAction :=
  [.enter 0, .evaluate [], .room (.event (.contentSent (.textSent "hello")) 0),
    .room (.resume 0 sampleAnswer), .serve "c" 200, .perform, .perform, .receive 0]

/-- The history removes the bubble; the `ack` finds none. -/
theorem opening_loses :
    ∃ s ∈ run sampleOpeningStep sampleOpening sendWhileOpening,
      s.Settled ∧ s.sent = ["ref_1"] ∧ s.room.names = [] ∧ ¬ s.Complete := by
  decide +kernel

/-- A text of user 1 is in the history, and its frame comes later. -/
def readBeforePublished : List OpeningAction :=
  [.enter 0, .frame 1 "p" 100 (sampleFrame "text" 7 [("content", .str "hi")]),
    .evaluate [newMessage 0 100 1 (some 7) none .TEXT (some "hi") none none none],
    .room (.resume 0 sampleAnswer), .publish 0, .relay, .receive 0, .serve "c" 200, .perform,
    .serve "c" 200, .perform, .serve "c" 200, .perform, .receive 0, .receive 0, .receive 0]

/-- The message is shown twice. -/
theorem opening_duplicates :
    ∃ s ∈ run sampleOpeningStep sampleOpening readBeforePublished,
      s.Settled ∧ s.arrived = [(100 : UUID).str] ∧
        s.room.names = [(100 : UUID).str, (100 : UUID).str] ∧ ¬ s.Complete := by
  decide +kernel

/-- A text of an earlier instance of the room is acknowledged after the room has been
    entered again. -/
def ackOfEarlier : List OpeningAction :=
  [.sendElsewhere [.sendText (UUID.str 1) "old" "ref_1"], .serve "c" 200, .perform, .perform,
    .enter 0, .evaluate [newMessage 0 200 7 (some 1) none .TEXT (some "old") none none none],
    .room (.resume 0 sampleAnswer), .room (.event (.contentSent (.textSent "new")) 0),
    .serve "c" 201, .perform, .perform, .receive 0, .receive 0]

/-- The new bubble takes the name of the old message, and its own `ack` finds none. -/
theorem opening_confuses :
    ∃ s ∈ run sampleOpeningStep sampleOpening ackOfEarlier,
      s.Settled ∧ s.room.names = [(200 : UUID).str, (200 : UUID).str] ∧ ¬ s.Complete := by
  decide +kernel

end IronLink.Client
