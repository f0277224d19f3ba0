import IronLink.Client.Converge.Turn

/-!
# Runs that retract messages

Results:
* `converged_of_granted`: when every message marked deleted is retracted in time
  by its own sender, and no `unsend` frame comes before the message is decrypted,
  the two rooms and the table agree once nothing is on its way.
* `lateUnsend_diverges`, `earlyUnsend_diverges`: without either condition they do
  not.
-/

namespace IronLink.Client

open Lib Messages Ws

variable {S : Type} {lib : Libsignal S} {keys : KeyServer} {me : Party → UUID}
  {isSecret : Party → Bool} {s s' : Pair} {p q : Party}

/-! ## Steps -/

theorem replica_set_self (s : Pair) (p : Party) (d : Device) (u : UUID) :
    (s.set p d).replica me p u = d.room.replica d.line.outbox u.str
      (d.line.marks (s.device p.other).line (me p) u) := by
  unfold Pair.replica
  rw [Pair.set_self, Pair.set_other]

theorem replica_set_other (s : Pair) (p : Party) (d : Device) (u : UUID) :
    (s.set p d).replica me p.other u =
      (s.device p.other).room.replica (s.device p.other).line.outbox u.str
        ((s.device p.other).line.marks d.line (me p.other) u) := by
  unfold Pair.replica
  rw [Party.other_other, Pair.set_self, Pair.set_other]

/-- The other device notices nothing while the handler stands still. -/
theorem PairInv.set (h : PairInv me s) {d : Device}
    (hdevice : DeviceInv (me p) s.world.messages d)
    (hagrees : ∀ u, Lib.Agrees (Gone s.world.messages u) (Concerns s.world.messages u (me p))
      (d.room.replica d.line.outbox u.str (d.line.marks (s.device p.other).line (me p) u)))
    (hrunning : d.line.running = (s.device p).line.running) : PairInv me (s.set p d) := by
  refine ⟨p.both ?_ ?_, p.both (fun u => ?_) fun u => ?_⟩
  · rw [Pair.set_self]
    exact hdevice
  · rw [Pair.set_other]
    exact h.device p.other
  · rw [replica_set_self]
    exact hagrees u
  · rw [replica_set_other, marks_other hrunning]
    have hold := h.agrees p.other u
    unfold Pair.replica at hold
    rw [Party.other_other] at hold
    exact hold

theorem PairInv.turn (h : PairInv me s) {line : Line WsCall} {action : RoomAction}
    (hdelivers : Delivers (s.device p).line (s.device p).room line action)
    (hclear : ∀ id, action.mark id = some true → (s.device p).room.decrypts id = 0)
    (hs : s.turn lib keys me isSecret p line action = some s') : PairInv me s' := by
  obtain ⟨seg, hseg, rfl⟩ := Option.map_eq_some_iff.mp hs
  have hdevice := h.device p
  have hin := hdelivers.admissible fun f hf => hdevice.arriving f (List.mem_append_left _ hf)
  obtain ⟨inbox, rfl, -⟩ := hdelivers.line
  have hsend :=
    send_of_open (l := { (s.device p).line with inbox := inbox }) hdevice.isOpen seg.calls
  refine h.set (hdevice.turn hdelivers hseg) (fun u => ?_) (by rw [hsend])
  have hmarks : (s.device p).line.marks (s.device p.other).line (me p) u =
      (action.mark u.str).toList ++ Line.marks _ (s.device p.other).line (me p) u :=
    hdelivers.marks
  have hhandles := (hdevice.room.moves hin hseg).handles hdelivers.answered
    (s.device p).line.outbox hmarks
  rw [hsend]
  refine (h.agrees p u).handles hhandles fun hmark hcoming => ?_
  have hpos : 0 < (s.device p).room.decrypts u.str := hcoming
  rw [hclear u.str hmark] at hpos
  exact Nat.lt_irrefl 0 hpos

theorem PairInv.relay (h : PairInv me s) {line : Line WsCall}
    (hrelay : (s.device p).line.relay = some line) :
    PairInv me (s.set p { s.device p with line := line }) := by
  have hdevice := h.device p
  have hmarks : ∀ u, line.marks (s.device p.other).line (me p) u =
      (s.device p).line.marks (s.device p.other).line (me p) u := fun u => marks_relay hrelay
  obtain ⟨f, rest, hchannel, rfl⟩ := relay_some hrelay
  refine h.set ⟨hdevice.isOpen, hdevice.room, hdevice.refs, fun q hq hname => ?_, fun g hg => ?_,
    hdevice.running, hdevice.sending⟩ (fun u => ?_) rfl
  · obtain ⟨frame, msg, href, hack⟩ := hdevice.acked q hq hname
    exact ⟨frame, msg, href, hack.imp_left (List.mem_append_left _)⟩
  · apply hdevice.arriving
    rw [hchannel]
    simpa using hg
  · have hold := h.agrees p u
    unfold Pair.replica at hold
    rw [hmarks]
    exact hold

theorem PairInv.tick (h : PairInv me s) (now : Time) :
    PairInv me { s with world := { s.world with now := now } } := ⟨h.device, h.agrees⟩

section Perform

variable {userId u : UUID} {rows : MessageRows} {d : Device} {effect : Effect}

/-- A handler says nothing of a message somebody else has sent. -/
theorem DeviceInv.silent (h : DeviceInv userId rows d) (hother : ¬ SentBy rows u userId)
    {g : Effect → Option Frame} (hframe : ∀ effect, ∀ f ∈ g effect, f ∈ effectFrame effect) :
    (d.line.running.filterMap g).filterMap (mark u.str) = [] := by
  rw [List.filterMap_eq_nil_iff]
  intro f hf
  obtain ⟨effect, heffect, hg⟩ := List.mem_filterMap.mp hf
  by_contra hmark
  exact hother ((h.running effect heffect f (hframe effect f hg)).2 u hmark)

theorem DeviceInv.publish (h : DeviceInv userId rows d) {f : Frame} (hf : ServerFrame f) :
    DeviceInv userId rows { d with line := d.line.publish f } := by
  rw [publish_of_open h.isOpen]
  refine { h with arriving := fun g hg => ?_ }
  have hg : g ∈ d.line.inbox ++ (d.line.channel ++ [f]) := hg
  rw [← List.append_assoc] at hg
  obtain hg | hg := List.mem_append.mp hg
  · exact h.arriving g hg
  · exact List.mem_singleton.mp hg ▸ hf

/-- What is published leaves the handler. -/
theorem DeviceInv.skip (h : DeviceInv userId rows d) {rest : List Effect}
    (hrunning : d.line.running = effect :: rest) (heffect : ∀ f, effect ≠ .send f) :
    DeviceInv userId rows { d with line := { d.line with running := rest } } := by
  have hsub : ∀ e ∈ rest, e ∈ d.line.running := fun e he => hrunning ▸ List.mem_cons_of_mem _ he
  refine { h with
    acked := fun q hq hname => ?_
    running := fun e he => h.running e (hsub e he)
    sending := fun f hf => h.sending f (hsub _ hf) }
  obtain ⟨frame, msg, href, hack⟩ := h.acked q hq hname
  refine ⟨frame, msg, href, hack.imp_right fun hrun => ?_⟩
  rw [hrunning] at hrun
  exact (List.mem_cons.mp hrun).resolve_left fun heq => heffect _ heq.symm

theorem DeviceInv.act (h : DeviceInv userId rows d) {l' : Line WsCall}
    (hperforms : d.line.performs = some (effect, l')) :
    DeviceInv userId rows { d with line := l'.act userId effect } := by
  obtain ⟨rest, hrunning, rfl⟩ := performs_some hperforms
  have hserver : ∀ f ∈ effectFrame effect, ServerFrame f := fun f hf =>
    (h.running effect (hrunning ▸ List.mem_cons_self) f hf).1
  cases effect with
  | send f =>
    have hsub : ∀ e ∈ rest, e ∈ d.line.running := fun e he => hrunning ▸ List.mem_cons_of_mem _ he
    refine { h with
      acked := fun q hq hname => ?_
      arriving := fun g hg => ?_
      running := fun e he => h.running e (hsub e he)
      sending := fun g hg => h.sending g (hsub _ hg) }
    · obtain ⟨frame, msg, href, hack⟩ := h.acked q hq hname
      refine ⟨frame, msg, href, ?_⟩
      obtain hinbox | hrun := hack
      · exact .inl (List.mem_append_left _ hinbox)
      · rw [hrunning] at hrun
        obtain heq | hrun := List.mem_cons.mp hrun
        · rw [Effect.send.inj heq]
          exact .inl (List.mem_append_right _ List.mem_cons_self)
        · exact .inr hrun
    · have hg : g ∈ (d.line.inbox ++ [f]) ++ d.line.channel := hg
      obtain hg | hg := List.mem_append.mp hg
      · obtain hg | hg := List.mem_append.mp hg
        · exact h.arriving g (List.mem_append_left _ hg)
        · exact List.mem_singleton.mp hg ▸ hserver f rfl
      · exact h.arriving g (List.mem_append_right _ hg)
  | publish toId f =>
    have hskip := h.skip hrunning fun g hg => (by cases hg)
    by_cases hto : toId = userId
    · simp only [Line.act, if_pos hto]
      exact hskip.publish (hserver f rfl)
    · simp only [Line.act, if_neg hto]
      exact hskip
  | push fcmToken title body peerId => exact h.skip hrunning fun g hg => (by cases hg)

theorem DeviceInv.hears (h : DeviceInv userId rows d)
    (hserver : ∀ f ∈ effectFrame effect, ServerFrame f) :
    DeviceInv userId rows { d with line := d.line.hears userId effect } := by
  cases effect with
  | send f | push fcmToken title body peerId => exact h
  | publish toId f =>
    by_cases hto : toId = userId
    · simp only [Line.hears, if_pos hto]
      exact h.publish (hserver f rfl)
    · simp only [Line.hears, if_neg hto]
      exact h

theorem outbox_hears {κ : Type} (l : Line κ) (userId : UUID) (effect : Effect) :
    (l.hears userId effect).outbox = l.outbox := by
  unfold Line.hears
  split
  · split_ifs
    · exact outbox_publish _
    · rfl
  · rfl

theorem running_hears {κ : Type} (l : Line κ) (userId : UUID) (effect : Effect) :
    (l.hears userId effect).running = l.running := by
  unfold Line.hears Line.publish
  split <;> (try split_ifs) <;> rfl

end Perform

theorem PairInv.perform (h : PairInv me s) (hne : me p.other ≠ me p) {effect : Effect}
    {line : Line WsCall} (hperforms : (s.device p).line.performs = some (effect, line))
    (hworld : s'.world = s.world)
    (hself : s'.device p = { s.device p with line := line.act (me p) effect })
    (hother : s'.device p.other =
      { s.device p.other with line := (s.device p.other).line.hears (me p.other) effect }) :
    PairInv me s' := by
  obtain ⟨rest, hrunning, -⟩ := performs_some hperforms
  have hhead : effect ∈ (s.device p).line.running := hrunning ▸ List.mem_cons_self
  have hsaid := (h.device p).running effect hhead
  refine ⟨p.both ?_ ?_, p.both (fun u => ?_) fun u => ?_⟩
  · rw [hself, hworld]
    exact (h.device p).act hperforms
  · rw [hother, hworld]
    exact (h.device p.other).hears fun f hf => (hsaid f hf).1
  · have hone : ∀ f ∈ effectFrame effect, mark u.str f ≠ none →
        ((s.device p.other).line.running.filterMap (publishes (me p))).filterMap (mark u.str) =
          [] := by
      intro f hf hmark
      refine (h.device p.other).silent (fun hsent => ?_) fun _ _ => effectFrame_of_publishes
      exact hne (hsent.unique ((hsaid f hf).2 u hmark))
    obtain ⟨hperm, heq⟩ := marks_act hperforms (h.device p).isOpen hone
    have hold := h.agrees p u
    unfold Pair.replica at hold ⊢
    rw [hself, hother, hworld, marks_other (running_hears _ _ _)]
    show Lib.Agrees _ _ ((s.device p).room.replica (line.act (me p) effect).outbox u.str _)
    rw [outbox_act hperforms]
    by_cases hsend : ∀ f, effect = .send f → mark u.str f = none
    · rw [heq hsend]
      exact hold
    · -- the message is not deleted while its own `ack` is on the way
      push Not at hsend
      obtain ⟨f, rfl, hmark⟩ := hsend
      exact hold.reorder ((h.device p).sending f hhead u hmark) hperm
  · have hold := h.agrees p.other u
    unfold Pair.replica at hold ⊢
    rw [Party.other_other] at hold ⊢
    rw [hself, hother, hworld]
    show Lib.Agrees _ _ ((s.device p.other).room.replica
      ((s.device p.other).line.hears (me p.other) effect).outbox u.str _)
    rw [outbox_hears, marks_hears hperforms (h.device p.other).isOpen]
    exact hold

/-! ## A frame at the server -/

section Serve

variable {userId : UUID} {rows rows' : MessageRows} {d : Device} {call : WsCall}
  {rest : List WsCall} {r : Handled} {fresh : NewRow} {u : UUID} {connectionId : String} {w : World}

theorem gone_retract {msg : Message} (hmsg : w.messages.byId u = some msg) :
    Gone (Table.modify Message.id w.messages u (retract w.now)) u := by
  refine ⟨retract w.now msg, ?_, rfl⟩
  show Table.find Message.id (Table.modify Message.id w.messages u (retract w.now)) u = _
  rw [Table.find_modify_self (retract_id w.now)]
  exact congrArg _ hmsg

/-- The sender of a message retracts it in time. -/
theorem gone_of_unsend {msg : Message} (hmsg : w.messages.byId u = some msg)
    (howner : msg.senderId = some userId) (hwindow : w.now - msg.createdAt ≤ UNSEND_WINDOW) :
    Gone (handleFrame w userId connectionId fresh
      (WsCall.unsend u.str).frame).world.messages u := by
  have htype : branchOf (Json.get (WsCall.unsend u.str).frame "type") = .unsend :=
    unsend_dispatched u.str
  have hid : uuidOrNone (Json.get (WsCall.unsend u.str).frame "message_id") = some u :=
    uuidOrNone_str u
  rw [handleFrame_retract htype hid hmsg howner hwindow]
  exact gone_retract hmsg

/-- The rows that are stored have their `ack` sent. -/
theorem ack_of_storedFor (hfresh : w.messages.byId fresh = none) (userId : UUID)
    (connectionId : String) (frame : Frame) :
    let r := handleFrame w userId connectionId fresh frame
    ∀ q ∈ storedFor frame r fresh, refOf frame = some q.1 ∧
      ∃ msg, .send (ackFrame frame msg) ∈ r.effects := by
  intro r q hq
  have hhandling : Handling w userId fresh frame r :=
    handling w userId connectionId fresh frame
  cases hhandling with
  | content messageType toId msg content pushes htype hto hcontent hid hsender _ hrows hpushes
      heffects hraised =>
    unfold storedFor at hq
    split_ifs at hq
    · obtain ⟨ref, href, rfl⟩ := List.mem_map.mp hq
      refine ⟨Option.mem_toList.mp href, msg, ?_⟩
      rw [heffects]
      exact List.mem_append_right _ List.mem_cons_self
    · cases hq
  | calm hnone hcalm =>
    rw [storedFor_of_none (hnone fresh hfresh)] at hq
    cases hq

theorem clientRef_of_refOf {ref : String} (h : refOf call.frame = some ref) :
    call.clientRef = some ref := by
  cases call with
  | sendText toId content clientRef | sendMedia toId kind mediaKey mimeType caption clientRef =>
    exact h
  | sendTyping | sendRead | sendDelivered | unsend => cases h

/-- The device whose frame is handled. -/
theorem DeviceInv.serve (h : DeviceInv userId w.messages d)
    (hreads : d.line.reads = some (call, rest)) (hfresh : w.messages.byId fresh = none)
    (hr : handleFrame w userId connectionId fresh call.frame = r) (hraised : r.raised = false) :
    DeviceInv userId r.world.messages { d with
      line := d.line.handled rest r
      stored := d.stored ++ storedFor call.frame r fresh } := by
  subst hr
  rw [handled_of_not_raised hraised]
  have houtbox := outbox_reads hreads
  have hrunning := running_of_reads hreads
  have hack := ack_of_storedFor hfresh userId connectionId call.frame
  have hreports := reports_handleFrame w userId connectionId fresh call.frame
  refine ⟨h.isOpen, h.room, fun ref href => h.refs ref ?_, fun q hq hname => ?_, h.arriving,
    fun effect heffect f hf => ⟨?_, fun u hmark => ?_⟩, fun f hf u hmark => ?_⟩
  · rw [houtbox]
    obtain href | href := List.mem_append.mp href
    · obtain ⟨c, hc, hclient⟩ := List.mem_filterMap.mp href
      exact List.mem_append_left _ (List.mem_filterMap.mpr ⟨c, List.mem_cons_of_mem _ hc, hclient⟩)
    · rw [List.map_append] at href
      obtain href | href := List.mem_append.mp href
      · exact List.mem_append_right _ href
      · obtain ⟨q, hq, rfl⟩ := List.mem_map.mp href
        refine List.mem_append_left _ (List.mem_filterMap.mpr ⟨call, List.mem_cons_self, ?_⟩)
        exact clientRef_of_refOf (hack q hq).1
  · obtain hq | hq := List.mem_append.mp hq
    · obtain ⟨frame, msg, href, hway⟩ := h.acked q hq hname
      refine ⟨frame, msg, href, .inl (hway.resolve_right fun hrun => ?_)⟩
      rw [hrunning] at hrun
      cases hrun
    · obtain ⟨href, msg, hsend⟩ := hack q hq
      exact ⟨call.frame, msg, href, .inr hsend⟩
  · exact serverFrame_handleFrame w userId connectionId fresh call.frame effect heffect f hf
  · obtain ⟨b, hb⟩ := Option.ne_none_iff_exists'.mp hmark
    exact ((hreports u).truth effect heffect f hf b hb).2
  · obtain ⟨b, hb⟩ := Option.ne_none_iff_exists'.mp hmark
    intro hgone
    have htrue := ((hreports u).truth _ hf f rfl b hb).1.mpr hgone
    exact (hreports u).sends f hf (htrue ▸ hb)

/-- The other device. -/
theorem DeviceInv.served (h : DeviceInv userId rows d) {otherId : UUID} {effects : List Effect}
    (hne : userId ≠ otherId) (hgrows : Jobs.Grows rows rows')
    (hreports : ∀ u, Reports rows rows' otherId u effects) : DeviceInv userId rows' d := by
  have hsent : ∀ effect ∈ d.line.running, ∀ f ∈ effectFrame effect, ∀ u : UUID,
      mark u.str f ≠ none → SentBy rows' u userId := fun effect heffect f hf u hmark =>
    ((h.running effect heffect f hf).2 u hmark).mono hgrows
  refine { h with
    running := fun effect heffect f hf =>
      ⟨(h.running effect heffect f hf).1, hsent effect heffect f hf⟩
    sending := fun f hf u hmark hgone => ?_ }
  obtain hgone | ⟨hother, -⟩ := (hreports u).retracts hgone
  · exact h.sending f hf u hmark hgone
  · exact hne ((hsent _ hf f rfl u hmark).unique hother)

end Serve

theorem PairInv.serve (h : PairInv me s) (hne : me p.other ≠ me p) {call : WsCall}
    {rest : List WsCall} (hreads : (s.device p).line.reads = some (call, rest))
    {connectionId : String} {fresh : NewRow} (hfresh : s.world.messages.byId fresh = none)
    (hgranted : Granted me s (.serve p connectionId fresh)) {r : Handled}
    (hr : handleFrame s.world (me p) connectionId fresh call.frame = r)
    (hraised : r.raised = false) :
    PairInv me ({ s with world := r.world }.set p { s.device p with
      line := (s.device p).line.handled rest r
      stored := (s.device p).stored ++ storedFor call.frame r fresh }) := by
  have houtbox := outbox_reads hreads
  have hgrows : Jobs.Grows s.world.messages r.world.messages :=
    hr ▸ grows_handleFrame s.world (me p) connectionId fresh call.frame
  have hreports : ∀ u, Reports s.world.messages r.world.messages (me p) u r.effects :=
    fun u => hr ▸ reports_handleFrame s.world (me p) connectionId fresh call.frame u
  refine ⟨p.both ?_ ?_, p.both (fun u => ?_) fun u => ?_⟩
  · rw [Pair.set_self]
    exact (h.device p).serve hreads hfresh hr hraised
  · rw [Pair.set_other]
    exact (h.device p.other).served hne hgrows hreports
  · rw [replica_set_self]
    have hold := h.agrees p u
    show Lib.Agrees _ _
      ((s.device p).room.replica ((s.device p).line.handled rest r).outbox u.str _)
    rw [marks_handled hreads hraised, handled_of_not_raised hraised]
    refine hold.tells (hreports u).gone ((hreports u).concerns _) (hreports u).tells_reaches
      fun hset hasked => ?_
    have hasked : .unsend u.str ∈ (s.device p).line.outbox := hasked
    rw [houtbox] at hasked
    obtain hcall | hasked := List.mem_cons.mp hasked
    · -- the request of a bubble that is marked deleted is granted
      left
      obtain ⟨row, hrow, -⟩ := hold.known (.inr (.inl hset))
      have hnamed : row ∈ (UUID.ofStr u.str).bind s.world.messages.byId := by
        rw [UUID.ofStr_str]
        exact hrow
      have hhead : call ∈ (s.device p).line.outbox.head? := by
        rw [houtbox]
        rfl
      obtain hgone | ⟨howner, hwindow⟩ :=
        hgranted call hhead u.str (hcall ▸ rfl) hset row hnamed
      · exact (hreports u).gone ⟨row, hrow, hgone⟩
      · have hgone : Gone (handleFrame s.world (me p) connectionId fresh
            (WsCall.unsend u.str).frame).world.messages u :=
          gone_of_unsend (Option.mem_def.mp hrow) howner hwindow
        rw [hcall, hr] at hgone
        exact hgone
    · exact .inr hasked
  · rw [replica_set_other]
    have hold := h.agrees p.other u
    unfold Pair.replica at hold
    rw [Party.other_other] at hold
    have hone : (r.effects.filterMap (publishes (me p.other))).filterMap (mark u.str) = [] ∨
        ((s.device p.other).line.running.filterMap (reaches (me p.other))).filterMap
          (mark u.str) = [] := by
      by_cases hsent : SentBy s.world.messages u (me p.other)
      · left
        rw [List.filterMap_eq_nil_iff]
        intro f hf
        obtain ⟨effect, heffect, hpublishes⟩ := List.mem_filterMap.mp hf
        by_contra hmark
        obtain ⟨b, hb⟩ := Option.ne_none_iff_exists'.mp hmark
        have hframe := effectFrame_of_publishes hpublishes
        have htruth := (hreports u).truth effect heffect f hframe b hb
        exact hne ((hsent.mono hgrows).unique htruth.2)
      · exact .inr ((h.device p.other).silent hsent fun _ _ => effectFrame_of_reaches)
    show Lib.Agrees _ _ ((s.device p.other).room.replica (s.device p.other).line.outbox u.str
      ((s.device p.other).line.marks ((s.device p).line.handled rest r) (me p.other) u))
    rw [marks_handled_other hreads hraised hone]
    exact hold.tells (hreports u).gone ((hreports u).concerns _)
      ((hreports u).tells_publishes (me p.other)) fun _ hasked => .inr hasked

/-! ## Runs -/

theorem PairInv.converged (h : PairInv me s) (hsettled : s.Settled) : s.Converged := by
  intro p u row hrow m hm hbubble
  obtain ⟨-, hquiet, -⟩ := hsettled p
  obtain hid | hstored := hbubble
  · have hmarks : (s.replica me p u).marks = [] := marks_of_quiet hquiet (hsettled p.other).2.1
    have hasked : ¬ (s.replica me p u).asked := by
      show ¬ .unsend u.str ∈ (s.device p).line.outbox
      rw [hquiet.1]
      exact List.not_mem_nil
    obtain ⟨hset, hunset⟩ := (h.agrees p u).converged hmarks hasked
    cases hdeleted : m.deleted with
    | true =>
      obtain ⟨row', hrow', hgone⟩ := hset ⟨m, hm, hid, hdeleted⟩
      obtain rfl := Option.some.inj (hrow.symm.trans hrow')
      exact hgone.symm
    | false =>
      cases hrow_deleted : row.deletedForEveryone with
      | true => exact absurd ⟨row, hrow, hrow_deleted⟩ (hunset ⟨m, hm, hid, hdeleted⟩)
      | false => rfl
  · -- its `ack` would still be on the way
    exfalso
    obtain ⟨frame, msg, -, hway⟩ := (h.device p).acked _ hstored (List.mem_map_of_mem hm)
    rw [hquiet.2.1, hquiet.2.2.2] at hway
    obtain hway | hway := hway <;> cases hway

theorem isOpen_send {κ : Type} (l : Line κ) (frames : List κ) :
    (l.send frames).isOpen = l.isOpen := by
  unfold Line.send
  split_ifs <;> rfl

theorem isOpen_act {κ : Type} (l : Line κ) (userId : UUID) (effect : Effect) :
    (l.act userId effect).isOpen = l.isOpen := by
  unfold Line.act Line.publish
  split <;> (try split_ifs) <;> rfl

theorem isOpen_hears {κ : Type} (l : Line κ) (userId : UUID) (effect : Effect) :
    (l.hears userId effect).isOpen = l.isOpen := by
  unfold Line.hears Line.publish
  split <;> (try split_ifs) <;> rfl

theorem isOpen_handled {κ : Type} {l : Line κ} {rest : List κ} {r : Handled}
    (h : (l.handled rest r).isOpen = true) : r.raised = false ∧ l.isOpen = true := by
  unfold Line.handled at h
  split_ifs at h with hraised
  · cases h
  · exact ⟨Bool.eq_false_iff.mpr hraised, h⟩

theorem isOpen_set {d : Device} (h : ∀ q, ((s.set p d).device q).line.isOpen = true)
    (hline : d.line.isOpen = true → (s.device p).line.isOpen = true) :
    ∀ q, (s.device q).line.isOpen = true := by
  refine p.both (hline ?_) ?_
  · have := h p
    rwa [Pair.set_self] at this
  · have := h p.other
    rwa [Pair.set_other] at this

/-- A connection that has ended stays so. -/
theorem isOpen_of_step {action : PairAction}
    (hs : pairStep lib keys me isSecret s action = some s')
    (hopen : ∀ q, (s'.device q).line.isOpen = true) : ∀ q, (s.device q).line.isOpen = true := by
  have hturn : ∀ {p line action}, s.turn lib keys me isSecret p line action = some s' →
      line.isOpen = (s.device p).line.isOpen → ∀ q, (s.device q).line.isOpen = true := by
    intro p line action hturn hline
    obtain ⟨seg, hseg, rfl⟩ := Option.map_eq_some_iff.mp hturn
    refine isOpen_set hopen fun h => ?_
    have h : (line.send seg.calls).isOpen = true := h
    rw [isOpen_send, hline] at h
    exact h
  cases action with
  | room p action =>
    simp only [pairStep] at hs
    split_ifs at hs
    exact hturn hs rfl
  | receive p now =>
    obtain ⟨⟨f, line⟩, htakes, hs⟩ := Option.bind_eq_some_iff.mp hs
    obtain ⟨rest, -, rfl⟩ := takes_some htakes
    exact hturn hs rfl
  | serve p connectionId fresh =>
    obtain ⟨⟨call, rest⟩, hreads, hs⟩ := Option.bind_eq_some_iff.mp hs
    simp only at hs
    split_ifs at hs
    obtain rfl := Option.some.inj hs
    exact isOpen_set (s := { s with world := _ }) hopen fun h => (isOpen_handled h).2
  | perform p =>
    obtain ⟨⟨effect, line⟩, hperforms, rfl⟩ := Option.map_eq_some_iff.mp hs
    obtain ⟨rest, -, rfl⟩ := performs_some hperforms
    intro q
    have h := hopen q
    simp only at h
    split_ifs at h with hq
    · subst hq
      simp only [isOpen_act] at h
      exact h
    · simp only [isOpen_hears] at h
      exact h
  | relay p =>
    obtain ⟨line, hrelay, rfl⟩ := Option.map_eq_some_iff.mp hs
    obtain ⟨f, rest, -, rfl⟩ := relay_some hrelay
    exact isOpen_set hopen id
  | tick d =>
    obtain rfl := Option.some.inj hs
    exact hopen

theorem clear_of_granted {now : Time} {f : Frame} {line : Line WsCall}
    (hgranted : Granted me s (.receive p now)) (htakes : (s.device p).line.takes = some (f, line))
    {id : String} (hmark : mark id f = some true) : (s.device p).room.decrypts id = 0 := by
  obtain ⟨rest, hinbox, -⟩ := takes_some htakes
  have hhead : f ∈ (s.device p).line.inbox.head? := by
    rw [hinbox]
    rfl
  unfold mark at hmark
  split_ifs at hmark with hid
  refine hgranted f hhead ?_ id hid
  unfold typeMark at hmark
  split at hmark
  · assumption
  all_goals cases hmark

/-- Every step of which no connection ends keeps the invariant. -/
theorem PairInv.step (h : PairInv me s) (hne : ∀ p, me p.other ≠ me p) {action : PairAction}
    (hgranted : Granted me s action) (hs : pairStep lib keys me isSecret s action = some s')
    (hopen : ∀ q, (s'.device q).line.isOpen = true) : PairInv me s' := by
  cases action with
  | room p action =>
    simp only [pairStep] at hs
    split_ifs at hs with hadmits
    refine h.turn (.own action hadmits) (fun id hmark => ?_) hs
    rw [mark_of_admits hadmits] at hmark
    cases hmark
  | receive p now =>
    obtain ⟨⟨f, line⟩, htakes, hs⟩ := Option.bind_eq_some_iff.mp hs
    exact h.turn (.frame f now line htakes) (fun id => clear_of_granted hgranted htakes) hs
  | serve p connectionId fresh =>
    obtain ⟨⟨call, rest⟩, hreads, hs⟩ := Option.bind_eq_some_iff.mp hs
    simp only at hs
    split_ifs at hs with hfresh
    obtain rfl := Option.some.inj hs
    have hline := hopen p
    rw [Pair.set_self] at hline
    exact h.serve (hne p) hreads (Option.isNone_iff_eq_none.mp hfresh) hgranted rfl
      (isOpen_handled hline).1
  | perform p =>
    obtain ⟨⟨effect, line⟩, hperforms, rfl⟩ := Option.map_eq_some_iff.mp hs
    exact h.perform (hne p) hperforms rfl (if_pos rfl) (if_neg p.other_ne)
  | relay p =>
    obtain ⟨line, hrelay, rfl⟩ := Option.map_eq_some_iff.mp hs
    exact h.relay hrelay
  | tick d =>
    obtain rfl := Option.some.inj hs
    exact h.tick _

/-- **Convergence.** Both rooms are open. In every run in which the server grants
    every request to retract a message that is marked deleted, and no `unsend`
    frame comes while its message is being decrypted, a bubble of either room is
    marked deleted if and only if its row is, once every frame has been handled. -/
theorem converged_of_granted (lib : Libsignal S) (keys : KeyServer) (me : Party → UUID)
    (isSecret : Party → Bool) (s₀ s : Pair) (actions : List PairAction)
    (hne : me .sender ≠ me .recipient) (hopened : s₀.Opened me)
    (hgranted : Guarded (pairStep lib keys me isSecret) (Granted me) s₀ actions)
    (hrun : run (pairStep lib keys me isSecret) s₀ actions = some s) (hsettled : s.Settled) :
    s.Converged := by
  have hothers : ∀ p, me p.other ≠ me p
    | .sender => hne.symm
    | .recipient => hne
  have hinv : (∀ q, (s.device q).line.isOpen = true) → PairInv me s :=
    hgranted.invariant
      (I := fun s => (∀ q, (s.device q).line.isOpen = true) → PairInv me s)
      (fun _ _ _ h hguard hs hopen => (h (isOpen_of_step hs hopen)).step hothers hguard hs hopen)
      (fun _ => pairInv_init hopened) hrun
  exact (hinv fun q => (hsettled q).1).converged hsettled

instance Device.decidableSettled (d : Device) : Decidable d.Settled :=
  inferInstanceAs (Decidable (d.line.isOpen = true ∧ d.line.Quiet ∧ d.room.waiting = []))

instance Pair.decidableSettled (s : Pair) : Decidable s.Settled :=
  decidable_of_iff ((s.device .sender).Settled ∧ (s.device .recipient).Settled)
    ⟨fun h => Party.both .sender h.1 h.2, fun h => ⟨h .sender, h .recipient⟩⟩

instance (s : Pair) : ∀ action, Decidable (Granted me s action)
  | .serve p _ _ => inferInstanceAs (Decidable (∀ call ∈ (s.device p).line.outbox.head?,
      ∀ id ∈ call.retracts, Shows (s.device p).room.bloc.state.messages id true →
        ∀ row ∈ (UUID.ofStr id).bind s.world.messages.byId, row.deletedForEveryone = true ∨
          row.senderId = some (me p) ∧ s.world.now - row.createdAt ≤ UNSEND_WINDOW))
  | .receive p _ => inferInstanceAs (Decidable (∀ f ∈ (s.device p).line.inbox.head?,
      asStr (Json.get f "type") = some "unsend" →
        ∀ id ∈ asStr (Json.get f "message_id"), (s.device p).room.decrypts id = 0))
  | .room .. | .perform _ | .relay _ | .tick _ => isTrue trivial

/-- The users 7 and 1. -/
def sampleMe : Party → UUID
  | .sender => 7
  | .recipient => 1

/-- Their chat is open on both devices, with the history `messages`. -/
def openPair (messages : List Message) : Pair :=
  ⟨{ sampleWorld with messages := messages }, fun p =>
    ⟨⟨⟨⟨messages.map (ChatMessage.ofRow (sampleMe p).str), false, false, none⟩, 0⟩, fun _ => none,
      []⟩, .idle, []⟩⟩

theorem openPair_opened {messages : List Message} (hkeys : (messages.map Message.id).Nodup)
    (hhistory : ∀ p, IsHistory messages (sampleMe p) (sampleMe p.other) none HISTORY_LIMIT
      messages) : (openPair messages).Opened sampleMe :=
  ⟨hkeys, fun p => ⟨messages, hhistory p, rfl⟩, fun _ => rfl, fun _ => rfl, fun _ => rfl⟩

/-- A text of user 7. -/
def sampleHello : Message := newMessage 0 200 7 (some 1) none .TEXT (some "hello") none none none

/-- Whether the bubbles of row 200 are marked deleted, and whether the row is. -/
def deletions (s : Pair) : List Bool × List Bool × List Bool :=
  let shown (p : Party) := ((s.device p).room.bloc.state.messages.filter fun m =>
    m.id = (200 : UUID).str).map ChatMessage.deleted
  (shown .sender, (s.world.messages.byId 200).toList.map Message.deletedForEveryone,
    shown .recipient)

/-- The sender retracts the text. -/
def takeBack : List PairAction :=
  [.room .sender (.event (.messageUnsent (200 : UUID).str) 0), .serve .sender "c" 201,
    .perform .sender, .perform .sender, .relay .sender, .receive .sender 0, .relay .recipient,
    .receive .recipient 0]

theorem converged_takeBack :
    ∃ s ∈ run (pairStep sampleLib sampleKeys sampleMe fun _ => false) (openPair [sampleHello])
        takeBack,
      s.Settled ∧ deletions s = ([true], [true], [true]) ∧ s.Converged := by
  have hsettled : ∃ s ∈ run (pairStep sampleLib sampleKeys sampleMe fun _ => false)
      (openPair [sampleHello]) takeBack,
      s.Settled ∧ deletions s = ([true], [true], [true]) := by decide +kernel
  obtain ⟨s, hrun, hsettled, hdeletions⟩ := hsettled
  have hgranted : Guarded (pairStep sampleLib sampleKeys sampleMe fun _ => false)
      (Granted sampleMe) (openPair [sampleHello]) takeBack := by decide +kernel
  have hopened : (openPair [sampleHello]).Opened sampleMe :=
    openPair_opened (by decide) fun p => by cases p <;> decide
  exact ⟨s, hrun, hsettled, hdeletions, converged_of_granted sampleLib sampleKeys sampleMe _
    _ s takeBack (by decide) hopened hgranted hrun hsettled⟩

/-- The sender retracts it six minutes later. -/
def takeBackLate : List PairAction :=
  [.tick 360000000, .room .sender (.event (.messageUnsent (200 : UUID).str) 0),
    .serve .sender "c" 201, .perform .sender, .receive .sender 0]

/-- The server refuses; the sender's bubble stays deleted. -/
theorem lateUnsend_diverges :
    (openPair [sampleHello]).Opened sampleMe ∧
      ∃ s ∈ run (pairStep sampleLib sampleKeys sampleMe fun _ => false) (openPair [sampleHello])
          takeBackLate,
        s.Settled ∧ deletions s = ([true], [false], [false]) ∧ ¬ s.Converged := by
  refine ⟨openPair_opened (by decide) fun p => by cases p <;> decide, ?_⟩
  have hdiffer : ∃ s ∈ run (pairStep sampleLib sampleKeys sampleMe fun _ => false)
      (openPair [sampleHello]) takeBackLate,
      s.Settled ∧ deletions s = ([true], [false], [false]) ∧
        ∃ row ∈ s.world.messages.byId 200, ∃ m ∈ (s.device .sender).room.bloc.state.messages,
          m.id = (200 : UUID).str ∧ m.deleted ≠ row.deletedForEveryone := by
    decide +kernel
  obtain ⟨s, hrun, hsettled, hdeletions, row, hrow, m, hm, hid, hne⟩ := hdiffer
  exact ⟨s, hrun, hsettled, hdeletions, fun h => hne (h .sender 200 row hrow m hm (.inl hid))⟩

/-- The recipient's room is secret, and the text is retracted before it is decrypted. -/
def takeBackSealed : List PairAction :=
  [.room .sender (.event (.contentSent (.textSent "hello")) 0), .serve .sender "c" 200,
    .perform .sender, .perform .sender, .receive .sender 0, .relay .recipient,
    .receive .recipient 0] ++ takeBack ++
  [.room .recipient (.resume 0 ⟨.ok [], ⟨"", ""⟩, ⟨"", ""⟩, 0⟩), .serve .recipient "d" 201,
    .perform .recipient, .receive .recipient 0, .serve .recipient "d" 201, .perform .recipient,
    .receive .recipient 0]

/-- The `unsend` frame finds no bubble; the one shown later stays. -/
theorem earlyUnsend_diverges :
    (openPair []).Opened sampleMe ∧
      ∃ s ∈ run (pairStep sampleLib sampleKeys sampleMe (· = .recipient)) (openPair [])
          takeBackSealed,
        s.Settled ∧ deletions s = ([true], [true], [false]) ∧ ¬ s.Converged := by
  refine ⟨openPair_opened (by decide) fun p => by cases p <;> decide, ?_⟩
  have hdiffer : ∃ s ∈ run (pairStep sampleLib sampleKeys sampleMe (· = .recipient))
      (openPair []) takeBackSealed,
      s.Settled ∧ deletions s = ([true], [true], [false]) ∧
        ∃ row ∈ s.world.messages.byId 200, ∃ m ∈ (s.device .recipient).room.bloc.state.messages,
          m.id = (200 : UUID).str ∧ m.deleted ≠ row.deletedForEveryone := by
    decide +kernel
  obtain ⟨s, hrun, hsettled, hdeletions, row, hrow, m, hm, hid, hne⟩ := hdiffer
  exact ⟨s, hrun, hsettled, hdeletions, fun h => hne (h .recipient 200 row hrow m hm (.inl hid))⟩

end IronLink.Client
