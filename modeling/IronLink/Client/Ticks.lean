import IronLink.Client.Stored
import IronLink.Ws.Traffic

/-!
# Ticks, live and reloaded

The open room of a sender turns a tick at every receipt that is published; a room
that is opened again takes the ticks from the status column. `mark_delivered` does
not write that column: it goes from `SENT` to `READ`, and `DELIVERED` is never
stored.

Results:
* `receipts_survive_iff`: the reloaded tick is as high as the live one throughout
  exactly the runs in which no delivery is recorded on a message before it is read.
-/

namespace IronLink.Client

open Lib Auth Messages Ws

/-! ## Property and condition -/

/-- The frame is a receipt of the message `id`, as `_onFrame` dispatches it. -/
def isReceiptOf (id : UUID) (f : Frame) : Bool :=
  (asStr (Json.get f "type")).any (receiptTypes.contains ·) &&
    decide (asStr (Json.get f "message_id") = some id.str)

/-- The receipts of the message `id` published for `me` so far. -/
def receiptsOf (me id : UUID) (log : List (UUID × Frame)) : List Frame :=
  (log.filter fun p => decide (p.1 = me) && isReceiptOf id p.2).map Prod.snd

/-- The room after it has handled `frames`. -/
def afterFrames (chat : Chat) (storage : Storage) (frames : List Frame) (bloc : ChatBloc) :
    ChatBloc := frames.foldl (fun bloc f => (onFrame chat bloc storage f).bloc) bloc

/-- Whatever open room of the sender has shown the message as sent and then handled
    every receipt published so far, a reload shows a tick that is as high. -/
def ReceiptsSurvive (s : Traffic) : Prop :=
  ∀ id msg me, s.world.messages.byId id = some msg → msg.senderId = some me →
    msg.isDestructed = false → ∀ chat storage (bloc : ChatBloc),
      (∀ m ∈ bloc.state.messages, m.id = id.str → m.tick = .sent) →
        ∀ m ∈ (afterFrames chat storage (receiptsOf me id s.log) bloc).state.messages,
          m.id = id.str → m.tick.index ≤ (ChatMessage.ofRow chat.myId msg).tick.index

/-- The action records no delivery on a message of a sender that is not read (nor
    destroyed). -/
def NoEarlyDelivery (s : Traffic) (a : TrafficAction) : Prop :=
  ∀ r ∈ a.asks, r.1 = false → ∀ msg ∈ s.world.messages.byId r.2.1,
    a.mayMark s.world.groups msg = true → msg.isDestructed = false →
      msg.senderId.isSome = true → msg.status = .READ

instance (s : Traffic) (a : TrafficAction) : Decidable (NoEarlyDelivery s a) :=
  inferInstanceAs (Decidable (∀ _ ∈ _, _ → ∀ _ ∈ _, _))

/-! ## What a receipt does to a bubble -/

section

variable {chat : Chat} {storage : Storage} {bloc : ChatBloc} {id : UUID} {f : Frame}

theorem isReceiptOf_iff : isReceiptOf id f = true ↔ TellsReceipt id f := by
  have hstr : ∀ {json : Json} {t : String}, asStr json = some t ↔ json = .str t := by
    intro json t
    cases json with
    | str s =>
      exact ⟨fun h => congrArg Json.str (Option.some.inj h),
        fun h => congrArg some (Json.str.inj h)⟩
    | _ => exact ⟨fun h => (by cases h), fun h => (by cases h)⟩
  unfold isReceiptOf TellsReceipt
  rw [Bool.and_eq_true, decide_eq_true_eq, hstr, Option.any_eq_true]
  refine and_congr_left fun _ => ⟨?_, ?_⟩
  · rintro ⟨t, htype, hmem⟩
    exact ⟨t, by simpa using hmem, hstr.mp htype⟩
  · rintro ⟨t, hmem, htype⟩
    exact ⟨t, hstr.mpr htype, by simpa using hmem⟩

/-- A receipt of a delivery leaves no bubble of the message as sent. -/
theorem tick_of_delivered (hf : f = receiptFrame id false ∨ f = deliveredFrame id) :
    ∀ m ∈ (onFrame chat bloc storage f).bloc.state.messages, m.id = id.str → m.tick ≠ .sent := by
  have hturn : (onFrame chat bloc storage f).bloc =
      onTick bloc (fun tick => if tick = .sent then .delivered else tick) f := by
    obtain rfl | rfl := hf
    · rfl
    · rfl
  have hid : asStr (Json.get f "message_id") = some id.str := by
    obtain rfl | rfl := hf
    · rfl
    · rfl
  rw [hturn]
  unfold onTick
  rw [hid]
  intro m hm hmid
  obtain ⟨m', -, rfl⟩ := List.mem_map.mp hm
  by_cases hm' : m'.id = id.str
  · rw [if_pos hm']
    dsimp only
    split_ifs with htick
    · decide
    · exact htick
  · rw [if_neg hm'] at hmid
    exact absurd hmid hm'

theorem onTick_map_id (tick : MessageTick → MessageTick) (f : Frame) :
    (onTick bloc tick f).state.messages.map ChatMessage.id =
      bloc.state.messages.map ChatMessage.id := by
  unfold onTick
  split
  · rfl
  · show (List.map _ _).map _ = _
    rw [List.map_map]
    refine List.map_congr_left fun m _ => ?_
    show (if m.id = _ then _ else m).id = m.id
    split_ifs <;> rfl

/-- A receipt adds and removes no bubble. -/
theorem onFrame_receipt_map_id (h : TellsReceipt id f) :
    (onFrame chat bloc storage f).bloc.state.messages.map ChatMessage.id =
      bloc.state.messages.map ChatMessage.id := by
  obtain ⟨⟨t, ht, htype⟩, -⟩ := h
  have hturn : ∃ tick, (onFrame chat bloc storage f).bloc = onTick bloc tick f := by
    unfold onFrame
    rw [htype]
    simp only [receiptTypes, List.mem_cons, List.not_mem_nil, or_false] at ht
    obtain rfl | rfl | rfl := ht
    · show ∃ tick, onReceipt bloc f = onTick bloc tick f
      unfold onReceipt
      split <;> exact ⟨_, rfl⟩
    · show ∃ tick, onDelivered bloc f = onTick bloc tick f
      exact ⟨_, rfl⟩
    · show ∃ tick, onRead bloc f = onTick bloc tick f
      exact ⟨_, rfl⟩
  obtain ⟨tick, hturn⟩ := hturn
  rw [hturn]
  exact onTick_map_id tick f

theorem afterFrames_map_id (id : UUID) {frames : List Frame}
    (h : ∀ f ∈ frames, TellsReceipt id f) :
    (afterFrames chat storage frames bloc).state.messages.map ChatMessage.id =
      bloc.state.messages.map ChatMessage.id := by
  unfold afterFrames
  induction frames generalizing bloc with
  | nil => rfl
  | cons f frames ih =>
    rw [List.foldl_cons, ih fun f' hf' => h f' (List.mem_cons_of_mem f hf')]
    exact onFrame_receipt_map_id (h f List.mem_cons_self)

theorem mem_receiptsOf {me : UUID} {log : List (UUID × Frame)} :
    f ∈ receiptsOf me id log ↔ (me, f) ∈ log ∧ TellsReceipt id f := by
  unfold receiptsOf
  rw [← isReceiptOf_iff]
  simp only [List.mem_map, List.mem_filter, Bool.and_eq_true, decide_eq_true_eq]
  constructor
  · rintro ⟨⟨u, f'⟩, ⟨hlog, rfl, hreceipt⟩, rfl⟩
    exact ⟨hlog, hreceipt⟩
  · rintro ⟨hlog, hreceipt⟩
    exact ⟨(me, f), ⟨hlog, rfl, hreceipt⟩, rfl⟩

theorem receiptsOf_append (me id : UUID) (log log' : List (UUID × Frame)) :
    receiptsOf me id (log ++ log') = receiptsOf me id log ++ receiptsOf me id log' := by
  unfold receiptsOf
  rw [List.filter_append, List.map_append]

theorem MessageTick.index_le_read (tick : MessageTick) : tick.index ≤ MessageTick.read.index := by
  cases tick <;> decide

end

/-! ## Runs -/

variable {s s' : Traffic} {a : TrafficAction} {id : UUID} {msg msg' : Message}
  {sent : List (UUID × Frame)}

/-- A message is read, or gone from the reloaded conversation. -/
def Settled (msg : Message) : Prop := msg.status = .READ ∨ msg.isDestructed = true

/-- What a receipt was published for is settled; `DELIVERED` is never stored. -/
structure TicksInv (s : Traffic) : Prop where
  stored : ∀ id msg, s.world.messages.byId id = some msg → msg.status ≠ .DELIVERED
  told : ∀ p ∈ s.log, ∀ id, TellsReceipt id p.2 →
    ∃ msg, s.world.messages.byId id = some msg ∧ Settled msg

theorem mark_true_status (now : Time) (msg : Message) : (Ws.mark now true msg).status = .READ :=
  Jobs.receiptRecorded_read now msg

theorem stored_of_outcome (h : RowOutcome s a id msg msg' sent) (hmsg : msg.status ≠ .DELIVERED) :
    msg'.status ≠ .DELIVERED := by
  have hmark : ∀ isRead, (Ws.mark s.world.now isRead msg).status ≠ .DELIVERED := by
    intro isRead
    cases isRead with
    | true =>
      rw [mark_true_status]
      decide
    | false => exact hmsg
  cases h with
  | untouched _ _ _ hrow => obtain rfl | rfl | rfl := hrow <;> exact hmsg
  | frame => exact hmark _
  | delivered => exact hmark _
  | read => exact hmark _

theorem settled_of_outcome (h : RowOutcome s a id msg msg' sent) (hmsg : Settled msg) :
    Settled msg' := by
  have hmark : ∀ isRead, Settled (Ws.mark s.world.now isRead msg) := by
    intro isRead
    cases isRead with
    | true => exact .inl (mark_true_status ..)
    | false => exact hmsg
  cases h with
  | untouched _ _ _ hrow =>
    obtain rfl | rfl | rfl := hrow
    · exact hmsg
    · exact hmsg
    · exact .inr rfl
  | frame => exact hmark _
  | delivered => exact hmark _
  | read => exact hmark _

/-- A receipt that is published for a message is a read, or the message was settled
    before. -/
theorem settled_of_tells (h : RowOutcome s a id msg msg' sent)
    (hrow : s.world.messages.byId id = some msg) (hg : NoEarlyDelivery s a) {p : UUID × Frame}
    (hp : p ∈ sent) (htells : TellsReceipt id p.2) : Settled msg' := by
  -- a delivery for a sender, granted
  have hdelivery : ∀ userId, a.asks = some (false, id, userId) →
      a.mayMark s.world.groups msg = true → msg.senderId.isSome = true →
        Settled (Ws.mark s.world.now false msg) := by
    intro userId hasks hmay hsender
    show Settled (deliver s.world.now msg)
    cases hd : msg.isDestructed with
    | true => exact .inr hd
    | false => exact .inl (hg _ hasks rfl msg hrow hmay hd hsender)
  cases h with
  | untouched _ _ _ _ hsent => exact absurd htells (hsent p hp)
  | frame userId connectionId fresh f isRead ha hasks hpart =>
    obtain ⟨u, hu, rfl⟩ := List.mem_map.mp hp
    have hsender : msg.senderId.isSome = true :=
      Option.isSome_iff_exists.mpr ⟨u, Option.mem_toList.mp hu⟩
    cases isRead with
    | true => exact .inl (mark_true_status ..)
    | false => exact hdelivery userId hasks (ha ▸ hpart) hsender
  | delivered chatId userId ha hmay =>
    obtain ⟨u, hu, rfl⟩ := List.mem_map.mp hp
    have hsender : msg.senderId.isSome = true :=
      Option.isSome_iff_exists.mpr ⟨u, Option.mem_toList.mp hu⟩
    exact hdelivery userId (ha ▸ rfl) hmay hsender
  | read => exact .inl (mark_true_status ..)

/-- **Step.** -/
theorem TicksInv.step (s : Traffic) (a : TrafficAction) (s' : Traffic) (h : TicksInv s)
    (hg : NoEarlyDelivery s a) (hs : trafficStep s a = some s') : TicksInv s' := by
  refine ⟨?_, ?_⟩
  · intro id msg' hmsg'
    cases hrow : s.world.messages.byId id with
    | none =>
      rw [(trafficStep_absent hs hrow).1 msg' hmsg']
      decide
    | some msg =>
      obtain ⟨row, sent, hrow', -, houtcome⟩ := trafficStep_receipt hs hrow
      obtain rfl := Option.some.inj (hmsg'.symm.trans hrow')
      exact stored_of_outcome houtcome (h.stored id msg hrow)
  · intro p hp id htells
    cases hrow : s.world.messages.byId id with
    | none =>
      obtain ⟨-, sent, hlog, hsilent⟩ := trafficStep_absent hs hrow
      rw [hlog] at hp
      rcases List.mem_append.mp hp with hp | hp
      · obtain ⟨msg, hmsg, -⟩ := h.told p hp id htells
        rw [hrow] at hmsg
        cases hmsg
      · exact absurd htells (hsilent p hp)
    | some msg =>
      obtain ⟨msg', sent, hmsg', hlog, houtcome⟩ := trafficStep_receipt hs hrow
      refine ⟨msg', hmsg', ?_⟩
      rw [hlog] at hp
      rcases List.mem_append.mp hp with hp | hp
      · obtain ⟨row, hrow', hsettled⟩ := h.told p hp id htells
        obtain rfl := Option.some.inj (hrow.symm.trans hrow')
        exact settled_of_outcome houtcome hsettled
      · exact settled_of_tells houtcome hrow hg hp htells

/-- What every receipt so far is settled for shows no tick that a reload loses. -/
theorem TicksInv.survive (h : TicksInv s) : ReceiptsSurvive s := by
  intro id msg me hmsg hsender hd chat storage bloc hsent m hm hid
  cases hframes : receiptsOf me id s.log with
  | nil =>
    rw [hframes] at hm
    rw [hsent m hm hid]
    exact Nat.zero_le _
  | cons f frames =>
    have hf : f ∈ receiptsOf me id s.log := by
      rw [hframes]
      exact List.mem_cons_self
    obtain ⟨hlog, htells⟩ := mem_receiptsOf.mp hf
    obtain ⟨row, hrow, hsettled⟩ := h.told _ hlog id htells
    obtain rfl := Option.some.inj (hmsg.symm.trans hrow)
    have hread : msg.status = .READ := hsettled.resolve_right (by simp [hd])
    have htick : (ChatMessage.ofRow chat.myId msg).tick = .read := by
      unfold ChatMessage.ofRow
      rw [hread]
    rw [htick]
    exact m.tick.index_le_read

/-- A delivery that is granted is published to the sender. -/
theorem sent_of_delivery (h : RowOutcome s a id msg msg' sent) {userId me : UUID}
    (hasks : a.asks = some (false, id, userId)) (hmay : a.mayMark s.world.groups msg = true)
    (hsender : msg.senderId = some me) :
    ∃ f, (f = receiptFrame id false ∨ f = deliveredFrame id) ∧ sent = [(me, f)] ∧
      msg' = Ws.mark s.world.now false msg := by
  cases h with
  | untouched _ _ hasked =>
    rw [hasked false userId hasks] at hmay
    cases hmay
  | frame _ _ _ _ isRead _ hasks' =>
    rw [Option.mem_def.mp hasks] at hasks'
    cases hasks'
    rw [hsender]
    exact ⟨_, .inl rfl, rfl, rfl⟩
  | delivered =>
    rw [hsender]
    exact ⟨_, .inr rfl, rfl, rfl⟩
  | read _ _ ha =>
    rw [ha] at hasks
    cases hasks

/-- A message that was never read is reloaded as sent. -/
theorem ofRow_tick_sent {myId : String} (hstored : msg.status ≠ .DELIVERED)
    (hunread : msg.status ≠ .READ) : (ChatMessage.ofRow myId msg).tick = .sent := by
  unfold ChatMessage.ofRow
  cases hstatus : msg.status with
  | READ => exact absurd hstatus hunread
  | DELIVERED => exact absurd hstatus hstored
  | SENT => rfl
  | FAILED => rfl

theorem tellsReceipt_of_delivered {f : Frame}
    (hf : f = receiptFrame id false ∨ f = deliveredFrame id) : TellsReceipt id f := by
  obtain rfl | rfl := hf
  · exact ⟨⟨"receipt", by decide, rfl⟩, rfl⟩
  · exact ⟨⟨"delivered", by decide, rfl⟩, rfl⟩

/-- A room that shows a message as sent shows another tick after receipts of which the last is
    a delivery. -/
theorem turned_of_delivered {f : Frame} (hf : f = receiptFrame id false ∨ f = deliveredFrame id)
    {frames : List Frame} (hframes : ∀ f ∈ frames, TellsReceipt id f) (chat : Chat)
    (storage : Storage) (bloc : ChatBloc)
    (hshown : id.str ∈ bloc.state.messages.map ChatMessage.id) :
    ∃ m ∈ (afterFrames chat storage (frames ++ [f]) bloc).state.messages,
      m.id = id.str ∧ m.tick ≠ .sent := by
  have hids : (afterFrames chat storage (frames ++ [f]) bloc).state.messages.map ChatMessage.id =
      bloc.state.messages.map ChatMessage.id := by
    refine afterFrames_map_id id fun f' hf' => ?_
    obtain hf' | hf' := List.mem_append.mp hf'
    · exact hframes f' hf'
    · rw [List.mem_singleton.mp hf']
      exact tellsReceipt_of_delivered hf
  obtain ⟨m, hm, hid⟩ := List.mem_map.mp (hids ▸ hshown)
  refine ⟨m, hm, hid, ?_⟩
  unfold afterFrames at hm
  rw [List.foldl_concat] at hm
  exact tick_of_delivered hf m hm hid

/-- **An early delivery** is shown, and lost by a reload. -/
theorem not_survive_of_delivery (h : TicksInv s) (hg : ¬ NoEarlyDelivery s a) :
    ∃ s' ∈ trafficStep s a, ¬ ReceiptsSurvive s' := by
  unfold NoEarlyDelivery at hg
  push Not at hg
  obtain ⟨⟨isRead, id, userId⟩, hasks, hfalse, msg, hmsg, hmay, hd, hsender, hunread⟩ := hg
  obtain rfl : isRead = false := hfalse
  obtain ⟨me, hme⟩ := Option.isSome_iff_exists.mp hsender
  have henabled : ∃ s', trafficStep s a = some s' := by
    cases a with
    | frame => exact ⟨_, rfl⟩
    | markMessageDelivered => exact ⟨_, rfl⟩
    | _ => cases hasks
  obtain ⟨s', hs⟩ := henabled
  obtain ⟨msg', sent, hmsg', hlog, houtcome⟩ := trafficStep_receipt hs hmsg
  obtain ⟨f, hf, rfl, rfl⟩ := sent_of_delivery houtcome hasks hmay hme
  refine ⟨s', hs, fun hsurvive => ?_⟩
  -- a room that shows the message as sent, and handles the receipts in order
  let chat : Chat := ⟨me.str, "", false⟩
  let bubble : ChatMessage := ⟨id.str, me.str, none, 0, true, .sent, false, false⟩
  let bloc : ChatBloc := ⟨⟨[bubble], false, false, none⟩, 0⟩
  have hlast : receiptsOf me id s'.log = receiptsOf me id s.log ++ [f] := by
    rw [hlog, receiptsOf_append]
    simp [receiptsOf, isReceiptOf_iff.mpr (tellsReceipt_of_delivered hf)]
  obtain ⟨m, hm, hid, hturned⟩ := turned_of_delivered hf
    (fun f' hf' => (mem_receiptsOf.mp hf').2) chat (fun _ => none) bloc
    (List.mem_singleton_self id.str)
  rw [← hlast] at hm
  have hlow := hsurvive id _ me hmsg' hme hd chat (fun _ => none) bloc
    (fun m hm _ => by rw [List.mem_singleton.mp hm]) m hm hid
  have hreload : (ChatMessage.ofRow chat.myId (Ws.mark s.world.now false msg)).tick = .sent :=
    ofRow_tick_sent (h.stored id msg hmsg) hunread
  rw [hreload] at hlow
  cases htick : m.tick with
  | sent => exact hturned htick
  | delivered =>
    rw [htick] at hlow
    exact absurd hlow (by decide)
  | read =>
    rw [htick] at hlow
    exact absurd hlow (by decide)

/-- Throughout a run a reload shows every message of a sender with a tick as high as
    the one its receipts have turned, if and only if no delivery is recorded on a
    message that is not read. -/
theorem receipts_survive_iff (world : World) (bucket : Bucket) (as : List TrafficAction) :
    Throughout trafficStep ReceiptsSurvive (Traffic.init world bucket) as ↔
      Guarded trafficStep NoEarlyDelivery (Traffic.init world bucket) as := by
  refine throughout_iff_guarded (I := TicksInv) (fun s h => h.survive) TicksInv.step
    (fun s a h hg => not_survive_of_delivery h hg) ⟨?_, ?_⟩
  · intro id msg hmsg
    cases hmsg
  · intro p hp
    cases hp

/-- The open room of user 7, which shows the message 100 as sent. -/
def sentBubble : ChatBloc :=
  let bubble : ChatMessage :=
    { id := UUID.str 100, senderId := UUID.str 7, content := some "hi", createdAt := 0
      isMine := true }
  ⟨⟨[bubble], false, false, none⟩, 0⟩

/-- The room turns the tick at the recipient's `message_delivered`; a reload shows
    the message as sent again. -/
theorem delivered_lost :
    ∃ s ∈ run trafficStep sampleTraffic
      (sampleText ++ [.frame 1 "c1" 101 (idFrame "message_delivered" 100)]),
      ¬ ReceiptsSurvive s := by
  have hrun : ∃ s ∈ run trafficStep sampleTraffic
      (sampleText ++ [.frame 1 "c1" 101 (idFrame "message_delivered" 100)]),
      (∃ msg ∈ s.world.messages.byId 100, msg.senderId = some 7 ∧ msg.isDestructed = false ∧
        msg.status = .SENT) ∧
      ∃ m ∈ (afterFrames ⟨UUID.str 7, UUID.str 1, false⟩ (fun _ => none) (receiptsOf 7 100 s.log)
        sentBubble).state.messages, m.id = UUID.str 100 ∧ m.tick = .delivered := by
    decide +kernel
  obtain ⟨s, hs, ⟨msg, hmsg, hsender, hd, hsent⟩, m, hm, hid, htick⟩ := hrun
  refine ⟨s, hs, fun hsurvive => ?_⟩
  have hlow := hsurvive 100 msg 7 hmsg hsender hd ⟨UUID.str 7, UUID.str 1, false⟩ (fun _ => none)
    sentBubble (fun m hm _ => by rw [List.mem_singleton.mp hm]) m hm hid
  have hreload : (ChatMessage.ofRow (UUID.str 7) msg).tick = .sent := by
    unfold ChatMessage.ofRow
    rw [hsent]
  rw [htick, hreload] at hlow
  exact absurd hlow (by decide)

end IronLink.Client
