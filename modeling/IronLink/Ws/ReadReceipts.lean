import IronLink.Ws.Traffic

/-!
# Who marks a direct message read

`mark_read` asks for a participant, the frame handler for nothing, and the route
for the recipient. The sender of a direct message is a participant, so the
sender's own `message_read` frame reads it.

Results:
* `staysUnread_iff`: while the recipient does not read, a direct message stays
  unread in exactly the runs without such a frame.
-/

namespace IronLink.Ws

open Lib Auth Messages

/-! ## Property and condition -/

/-- The user `b` does not ask to read the message `id`. -/
def NotReadBy (id b : UUID) (_ : Traffic) (a : TrafficAction) : Prop :=
  a.asks ≠ some (true, id, b)

instance (id b : UUID) (s : Traffic) (a : TrafficAction) : Decidable (NotReadBy id b s a) :=
  inferInstanceAs (Decidable (¬ _))

/-- The action leaves the columns a read sets, and publishes no read of the message. -/
def StaysUnread (id : UUID) (s : Traffic) (a : TrafficAction) : Prop :=
  ∀ msg, s.world.messages.byId id = some msg → ∀ s' ∈ trafficStep s a,
    (∃ msg', s'.world.messages.byId id = some msg' ∧ msg'.status = msg.status ∧
      msg'.readAt = msg.readAt ∧ msg'.destructAt = msg.destructAt) ∧
    ∃ sent, s'.log = s.log ++ sent ∧ ∀ p ∈ sent, ¬ TellsRead id p.2

/-- The action is no `message_read` frame for the message `id` of its sender. -/
def NotReadBySender (id : UUID) (s : Traffic) : TrafficAction → Prop
  | .frame userId _ _ f =>
    branchOf (Json.get f "type") = .receipt true →
      uuidOrNone (Json.get f "message_id") = some id →
        ∀ msg ∈ s.world.messages.byId id, msg.senderId ≠ some userId
  | _ => True

instance decidableNotReadBySender (id : UUID) (s : Traffic) :
    (a : TrafficAction) → Decidable (NotReadBySender id s a)
  | .frame _ _ _ _ => inferInstanceAs (Decidable (_ → _ → ∀ _ ∈ _, _))
  | .markMessageDelivered _ _ _ => isTrue trivial
  | .markMessageRead _ _ _ => isTrue trivial
  | .sweep _ _ _ => isTrue trivial
  | .surroundings _ _ _ _ => isTrue trivial
  | .tick _ => isTrue trivial

/-- The message `id` is a direct message to `b`. -/
def DirectTo (id b : UUID) (s : Traffic) : Prop :=
  ∃ msg, s.world.messages.byId id = some msg ∧ msg.groupId = none ∧ msg.recipientId = some b

/-! ## One action -/

variable {s s' : Traffic} {a : TrafficAction} {id b : UUID} {msg msg' : Message}
  {sent : List (UUID × Frame)}

theorem mark_parties (now : Time) (isRead : Bool) (msg : Message) :
    (mark now isRead msg).groupId = msg.groupId ∧
      (mark now isRead msg).recipientId = msg.recipientId := by
  unfold mark Messages.read
  split_ifs <;> exact ⟨rfl, rfl⟩

theorem RowOutcome.parties (h : RowOutcome s a id msg msg' sent) :
    msg'.groupId = msg.groupId ∧ msg'.recipientId = msg.recipientId := by
  cases h with
  | untouched _ _ _ hrow =>
    obtain rfl | rfl | rfl := hrow
    · exact ⟨rfl, rfl⟩
    · exact ⟨rfl, rfl⟩
    · exact ⟨rfl, rfl⟩
  | frame => exact mark_parties ..
  | delivered => exact mark_parties ..
  | read => exact mark_parties ..

theorem directTo_step (s : Traffic) (a : TrafficAction) (s' : Traffic) (h : DirectTo id b s)
    (hs : trafficStep s a = some s') : DirectTo id b s' := by
  obtain ⟨msg, hmsg, hgroup, hrecipient⟩ := h
  obtain ⟨msg', sent, hmsg', -, houtcome⟩ := trafficStep_receipt hs hmsg
  obtain ⟨hgroup', hrecipient'⟩ := houtcome.parties
  exact ⟨msg', hmsg', hgroup'.trans hgroup, hrecipient'.trans hrecipient⟩

theorem not_tellsRead_delivered {f : Frame}
    (hf : f = receiptFrame id false ∨ f = deliveredFrame id) : ¬ TellsRead id f := by
  rintro ⟨⟨htype, hstatus⟩ | htype, -⟩
  · obtain rfl | rfl := hf
    · exact absurd (Json.str.inj hstatus) (by decide)
    · exact absurd (Json.str.inj htype) (by decide)
  · obtain rfl | rfl := hf
    · exact absurd (Json.str.inj htype) (by decide)
    · exact absurd (Json.str.inj htype) (by decide)

/-- The sender's own read is told. -/
theorem tellsRead_of_sender {userId : UUID} {connectionId : String} {fresh : NewRow} {f : Frame}
    (h : RowOutcome s (.frame userId connectionId fresh f) id msg msg' sent)
    (hasks : (TrafficAction.frame userId connectionId fresh f).asks = some (true, id, userId))
    (hgroup : msg.groupId = none) (hsender : msg.senderId = some userId) :
    ∃ p ∈ sent, TellsRead id p.2 := by
  cases h with
  | untouched _ _ hasked =>
    have hstranger := hasked true userId hasks
    simp [TrafficAction.mayMark, isParticipant, hgroup, hsender] at hstranger
  | frame _ _ _ _ isRead ha hasks' =>
    rw [hasks] at hasks'
    cases hasks'
    refine ⟨(userId, receiptFrame id true), ?_, .inl ⟨rfl, rfl⟩, rfl⟩
    rw [hsender]
    exact List.mem_singleton_self _
  | delivered _ _ ha => cases ha
  | read _ _ ha => cases ha

/-- **One action**, while the recipient does not ask to read. -/
theorem staysUnread_iff_step (hdirect : DirectTo id b s) (hquiet : NotReadBy id b s a) :
    StaysUnread id s a ↔ NotReadBySender id s a := by
  obtain ⟨msg, hmsg, hgroup, hrecipient⟩ := hdirect
  constructor
  · intro h
    cases a with
    | frame userId connectionId fresh f =>
      intro hbranch hid row hrow hsender
      obtain rfl := Option.some.inj (hmsg.symm.trans hrow)
      obtain ⟨msg', sent, hmsg', hlog, houtcome⟩ := trafficStep_receipt
        (a := .frame userId connectionId fresh f) rfl hmsg
      have hasks : (TrafficAction.frame userId connectionId fresh f).asks =
          some (true, id, userId) := by
        rw [asks_frame, hbranch, hid]
        rfl
      obtain ⟨p, hp, htells⟩ := tellsRead_of_sender houtcome hasks hgroup hsender
      obtain ⟨-, sent', hlog', hsilent⟩ := h msg hmsg _ rfl
      obtain rfl := List.append_cancel_left (hlog.symm.trans hlog')
      exact hsilent p hp htells
    | _ => trivial
  · intro h row hrow s' hs'
    obtain rfl := Option.some.inj (hmsg.symm.trans hrow)
    obtain ⟨msg', sent, hmsg', hlog, houtcome⟩ := trafficStep_receipt hs' hmsg
    suffices hkept : (msg'.status = msg.status ∧ msg'.readAt = msg.readAt ∧
        msg'.destructAt = msg.destructAt) ∧ ∀ p ∈ sent, ¬ TellsRead id p.2 from
      ⟨⟨msg', hmsg', hkept.1⟩, sent, hlog, hkept.2⟩
    cases houtcome with
    | untouched _ _ _ hrow hsent =>
      refine ⟨?_, fun p hp htells => hsent p hp htells.tellsReceipt⟩
      obtain rfl | rfl | rfl := hrow
      · exact ⟨rfl, rfl, rfl⟩
      · exact ⟨rfl, rfl, rfl⟩
      · exact ⟨rfl, rfl, rfl⟩
    | frame userId connectionId fresh f isRead ha hasks hpart =>
      cases isRead with
      | false =>
        refine ⟨⟨rfl, rfl, rfl⟩, fun p hp => ?_⟩
        obtain ⟨u, -, rfl⟩ := List.mem_map.mp hp
        exact not_tellsRead_delivered (.inl rfl)
      | true =>
        -- a participant of a direct message who is not the recipient is the sender
        exfalso
        have hother : userId ≠ b := fun heq => hquiet (heq ▸ hasks)
        have hsender : msg.senderId = some userId := by
          simp only [isParticipant, hgroup, hrecipient, Bool.or_eq_true, decide_eq_true_eq,
            Option.some.injEq] at hpart
          exact hpart.resolve_right fun heq => hother heq.symm
        subst ha
        rw [asks_frame] at hasks
        split at hasks
        · next isRead hbranch =>
          obtain ⟨messageId, hid, heq⟩ := Option.map_eq_some_iff.mp hasks
          cases heq
          exact h hbranch hid msg hmsg hsender
        · cases hasks
    | delivered chatId userId ha hmay =>
      refine ⟨⟨rfl, rfl, rfl⟩, fun p hp => ?_⟩
      obtain ⟨u, -, rfl⟩ := List.mem_map.mp hp
      exact not_tellsRead_delivered (.inr rfl)
    | read chatId userId ha hmay channels =>
      exfalso
      subst ha
      have hother : userId ≠ b := fun heq => hquiet (heq ▸ rfl)
      simp only [TrafficAction.mayMark, isRecipient, hgroup, hrecipient, decide_eq_true_eq,
        Option.some.injEq] at hmay
      exact hother hmay.symm

/-! ## Runs -/

/-- In every run in which the recipient of a direct message does not ask to read
    it, it stays unread if and only if the sender sends no `message_read` for it. -/
theorem staysUnread_iff (hdirect : DirectTo id b s) {as : List TrafficAction}
    (hquiet : Guarded trafficStep (NotReadBy id b) s as) :
    Guarded trafficStep (StaysUnread id) s as ↔ Guarded trafficStep (NotReadBySender id) s as :=
  guarded_congr_of directTo_step (fun _ _ => staysUnread_iff_step) hdirect hquiet

/-- A stranger asks to read it, and the recipient acknowledges the delivery. -/
def strangerReads : List TrafficAction :=
  [.frame 5 "c5" 101 (idFrame "message_read" 100), .markMessageRead 1 100 7,
    .frame 1 "c1" 101 (idFrame "message_delivered" 100), .markMessageDelivered 1 100 1]

theorem staysUnread_strangerReads :
    ∃ s ∈ run trafficStep sampleTraffic sampleText,
      Guarded trafficStep (StaysUnread 100) s strangerReads := by
  have hrun : ∃ s ∈ run trafficStep sampleTraffic sampleText,
      (∃ msg ∈ s.world.messages.byId 100, msg.groupId = none ∧ msg.recipientId = some 1) ∧
        Guarded trafficStep (NotReadBy 100 1) s strangerReads ∧
        Guarded trafficStep (NotReadBySender 100) s strangerReads := by decide +kernel
  obtain ⟨s, hs, hdirect, hquiet, hsender⟩ := hrun
  exact ⟨s, hs, (staysUnread_iff hdirect hquiet).mpr hsender⟩

/-- The sender's own `message_read` frame. -/
def senderReads : List TrafficAction := [.frame 7 "c7" 101 (idFrame "message_read" 100)]

/-- It reads the message, though the recipient never did. -/
theorem sender_reads_own :
    ∃ s ∈ run trafficStep sampleTraffic sampleText, DirectTo 100 1 s ∧
      Guarded trafficStep (NotReadBy 100 1) s senderReads ∧
      ¬ Guarded trafficStep (StaysUnread 100) s senderReads := by
  have hrun : ∃ s ∈ run trafficStep sampleTraffic sampleText,
      (∃ msg ∈ s.world.messages.byId 100, msg.groupId = none ∧ msg.recipientId = some 1 ∧
        msg.status = .SENT) ∧
        Guarded trafficStep (NotReadBy 100 1) s senderReads ∧
        ∃ s' ∈ run trafficStep s senderReads,
          ∃ msg ∈ s'.world.messages.byId 100, msg.status = .READ := by decide +kernel
  obtain ⟨s, hs, ⟨msg, hmsg, hgroup, hrecipient, hsent⟩, hquiet, s', hs', msg', hmsg', hread⟩ :=
    hrun
  refine ⟨s, hs, ⟨msg, hmsg, hgroup, hrecipient⟩, hquiet, fun hunread => ?_⟩
  obtain ⟨m, hm, hend⟩ := run_cons_some hs'
  obtain rfl := Option.some.inj hend
  obtain ⟨⟨row, hrow, hstatus, -, -⟩, -⟩ := hunread.1 msg hmsg m hm
  obtain rfl := Option.some.inj (hmsg'.symm.trans hrow)
  rw [hread, hsent] at hstatus
  cases hstatus

end IronLink.Ws
