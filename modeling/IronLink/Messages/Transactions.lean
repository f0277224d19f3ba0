import IronLink.Messages.System

/-!
# Transactions on the messages

The four functions of app/services/message_service.py and the sweep, called by
anyone with any arguments, each as one transaction. Accounts and groups change
as they like in between.

Results:
* `transact_cell`: what a transaction does to one row, or to a free key.
* `receipts_writeOnce`: the columns of the receipts agree with each other, are
  written once, and not by a stranger.
-/

namespace IronLink.Messages

open Lib Auth

/-! ## Model -/

/-- The tables the transactions read and write, the bucket and the clock. -/
structure Store where
  users : Users
  groups : Groups
  rows : MessageRows
  bucket : Bucket
  now : Time

/-- A store without messages. -/
def Store.init (users : Users) (groups : Groups) (bucket : Bucket) (now : Time) : Store :=
  ⟨users, groups, [], bucket, now⟩

inductive Transaction
  /-- `fresh` is what the row gets on its way -/
  | saveMessage (fresh : NewRow) (senderId : UUID) (recipientId groupId : Option UUID)
      (messageType : MessageType) (contentCiphertext mediaObjectKey mediaMimeType : Option String)
      (destructAfterSeconds : Option Number)
  | markDelivered (messageId userId : UUID)
  | markRead (messageId userId : UUID)
  | unsendMessage (messageId senderId : UUID)
  /-- a sweep whose query answers `batch` -/
  | sweepOnce (batch : List UUID) (fails : UUID → Bool) (commitOk : Bool)

/-- One transaction. A commit that is refused, and a call that raises before it,
    leave the rows as they were. -/
def transact (s : Store) : Transaction → Option Store
  | .saveMessage fresh senderId recipientId groupId messageType contentCiphertext mediaObjectKey
      mediaMimeType destructAfterSeconds =>
    let msg := newMessage s.now fresh senderId recipientId groupId messageType contentCiphertext
      mediaObjectKey mediaMimeType destructAfterSeconds
    some { s with rows := (saveMessage s.users s.groups s.rows msg).getD s.rows }
  | .markDelivered messageId userId =>
    some { s with rows := (markDelivered s.groups s.rows s.now messageId userId).1 }
  | .markRead messageId userId =>
    some { s with rows := (markRead s.groups s.rows s.now messageId userId).1 }
  | .unsendMessage messageId senderId =>
    match unsendMessage s.rows s.now messageId senderId with
    | .error _ => some s
    | .ok (rows, _) => some { s with rows := rows }
  | .sweepOnce batch fails commitOk =>
    if IsBatch s.rows s.now batch then
      let r := sweepOnce s.now s.rows s.bucket batch fails commitOk
      some { s with rows := r.rows, bucket := r.bucket }
    else none

inductive StoreAction
  | transaction (t : Transaction)
  /-- accounts and groups become other ones -/
  | directory (users : Users) (groups : Groups)
  | tick (d : ℕ)

def storeStep (s : Store) : StoreAction → Option Store
  | .transaction t => transact s t
  | .directory users groups => some { s with users := users, groups := groups }
  | .tick d => some { s with now := s.now + d }

/-! ## What a transaction does to one row -/

/-- A change of one row at `now`. -/
inductive RowEdit (now : Time) : Message → Message → Prop
  | change {msg msg' : Message} (h : RowChange now msg msg') : RowEdit now msg msg'
  | destroy {msg : Message} {rows : MessageRows} (h : msg ∈ expired rows now) :
      RowEdit now msg (destroy now msg)

/-- What a transaction at `now` makes of the row with the key `id`. -/
inductive CellStep (now : Time) (id : UUID) : Option Message → Option Message → Prop
  | free : CellStep now id none none
  | insert (lag : ℕ) (senderId : UUID) (recipientId groupId : Option UUID)
      (messageType : MessageType) (contentCiphertext mediaObjectKey mediaMimeType : Option String)
      (destructAfterSeconds : Option Number) :
      CellStep now id none (some (newMessage now ⟨id, lag⟩ senderId recipientId groupId messageType
        contentCiphertext mediaObjectKey mediaMimeType destructAfterSeconds))
  | edit {msg msg' : Message} (h : RowEdit now msg msg') : CellStep now id (some msg) (some msg')

theorem CellStep.same (now : Time) (id : UUID) (cell : Option Message) :
    CellStep now id cell cell := by
  cases cell with
  | none => exact .free
  | some msg => exact .edit (.change (.same msg))

/-- An update of the row `k` by a `RowChange`. -/
theorem cellStep_modify {now : Time} {f : Message → Message} (hf : ∀ msg, (f msg).id = msg.id)
    (hchange : ∀ msg, RowChange now msg (f msg)) (rows : MessageRows) (k id : UUID) :
    CellStep now id (rows.byId id)
      (MessageRows.byId (Table.modify Message.id rows k f) id) := by
  unfold MessageRows.byId
  rw [Table.find_modify hf]
  cases Table.find Message.id rows id with
  | none => exact .free
  | some msg =>
    refine .edit (.change ?_)
    show RowChange now msg (if msg.id = k then f msg else msg)
    split_ifs
    · exact hchange msg
    · exact .same msg

theorem cellStep_receipt {now : Time} {f : Message → Message} (hf : ∀ msg, (f msg).id = msg.id)
    (hchange : ∀ msg, RowChange now msg (f msg)) (groups : Groups) (rows : MessageRows)
    (messageId userId id : UUID) :
    CellStep now id (rows.byId id)
      (MessageRows.byId (receipt groups rows f messageId userId).1 id) := by
  obtain h | ⟨-, h⟩ := receipt_rows groups rows f messageId userId
  · rw [h]
    exact .same now id _
  · rw [h]
    exact cellStep_modify hf hchange rows messageId id

theorem cellStep_saveMessage {users : Users} {groups : Groups} {rows : MessageRows} {now : Time}
    {msg : Message} (hnew : CellStep now msg.id none (some msg)) (id : UUID) :
    CellStep now id (rows.byId id)
      (MessageRows.byId ((saveMessage users groups rows msg).getD rows) id) := by
  cases hsave : saveMessage users groups rows msg with
  | none => exact .same now id _
  | some rows' =>
    obtain ⟨rfl, hfree⟩ := saveMessage_rows hsave
    unfold MessageRows.byId at hfree ⊢
    rw [Option.getD_some, Table.find_append]
    by_cases hid : msg.id = id
    · subst hid
      rw [hfree, Option.none_or, if_pos rfl]
      exact hnew
    · rw [if_neg hid, Option.or_none]
      exact .same now id _

variable {s s' : Store} {t : Transaction} {a : StoreAction}

theorem transact_sweep {batch : List UUID} {fails : UUID → Bool} {commitOk : Bool}
    (h : transact s (.sweepOnce batch fails commitOk) = some s') :
    IsBatch s.rows s.now batch ∧
      s' = { s with
        rows := (sweepOnce s.now s.rows s.bucket batch fails commitOk).rows
        bucket := (sweepOnce s.now s.rows s.bucket batch fails commitOk).bucket } := by
  simp only [transact] at h
  split_ifs at h with hbatch
  exact ⟨hbatch, (Option.some.inj h).symm⟩

theorem transact_unsend {messageId senderId : UUID}
    (h : transact s (.unsendMessage messageId senderId) = some s') :
    s' = s ∨ ∃ msg, s.rows.byId messageId = some msg ∧ msg.senderId = some senderId ∧
      s.now - msg.createdAt ≤ UNSEND_WINDOW ∧
      s' = { s with rows := Table.modify Message.id s.rows messageId (retract s.now) } := by
  simp only [transact] at h
  split at h
  · exact .inl (Option.some.inj h).symm
  · rename_i rows msg hok
    obtain ⟨row, hrow, howner, hwindow, heq⟩ := unsendMessage_rows hok
    obtain ⟨rfl, -⟩ := Prod.mk.inj heq
    exact .inr ⟨row, hrow, howner, hwindow, (Option.some.inj h).symm⟩

/-- What a transaction does to the row with the key `id`. -/
theorem transact_cell (hnd : (s.rows.map Message.id).Nodup) (h : transact s t = some s')
    (id : UUID) : CellStep s.now id (s.rows.byId id) (s'.rows.byId id) := by
  cases t with
  | saveMessage =>
    obtain rfl := Option.some.inj h
    exact cellStep_saveMessage (.insert ..) id
  | markDelivered messageId userId =>
    obtain rfl := Option.some.inj h
    exact cellStep_receipt (deliver_id s.now) .deliver s.groups s.rows messageId userId id
  | markRead messageId userId =>
    obtain rfl := Option.some.inj h
    exact cellStep_receipt (read_id s.now) .read s.groups s.rows messageId userId id
  | unsendMessage messageId senderId =>
    obtain rfl | ⟨msg, -, -, -, rfl⟩ := transact_unsend h
    · exact .same s'.now id _
    · exact cellStep_modify (retract_id s.now) .retract s.rows messageId id
  | sweepOnce batch fails commitOk =>
    obtain ⟨hbatch, rfl⟩ := transact_sweep h
    show CellStep s.now id _ (MessageRows.byId (sweepOnce _ _ _ _ _ _).rows id)
    rw [sweepOnce_byId hbatch.1]
    cases hmsg : s.rows.byId id with
    | none => exact .free
    | some msg =>
      refine .edit ?_
      dsimp only
      split_ifs with hwiped
      · exact .destroy (expired_of_mem_batch hnd hbatch hwiped.2.1 hmsg)
      · exact .change (.same msg)

theorem storeStep_cell (hnd : (s.rows.map Message.id).Nodup) (h : storeStep s a = some s')
    (id : UUID) : CellStep s.now id (s.rows.byId id) (s'.rows.byId id) := by
  cases a with
  | transaction t => exact transact_cell hnd h id
  | directory users groups =>
    obtain rfl := Option.some.inj h
    exact .same s.now id _
  | tick d =>
    obtain rfl := Option.some.inj h
    exact .same s.now id _

theorem transact_now (h : transact s t = some s') : s'.now = s.now := by
  cases t with
  | unsendMessage messageId senderId =>
    obtain rfl | ⟨msg, -, -, -, rfl⟩ := transact_unsend h
    · rfl
    · rfl
  | sweepOnce batch fails commitOk =>
    obtain ⟨-, rfl⟩ := transact_sweep h
    rfl
  | _ =>
    obtain rfl := Option.some.inj h
    rfl

theorem storeStep_now (h : storeStep s a = some s') : s.now ≤ s'.now := by
  cases a with
  | transaction t => exact (transact_now h).ge
  | directory users groups =>
    obtain rfl := Option.some.inj h
    exact le_rfl
  | tick d =>
    obtain rfl := Option.some.inj h
    show s.now ≤ s.now + d
    simp

theorem transact_nodup (hnd : (s.rows.map Message.id).Nodup) (h : transact s t = some s') :
    (s'.rows.map Message.id).Nodup := by
  have hreceipt : ∀ (f : Message → Message), (∀ msg, (f msg).id = msg.id) → ∀ messageId userId,
      ((receipt s.groups s.rows f messageId userId).1.map Message.id).Nodup := by
    intro f hf messageId userId
    obtain h | ⟨-, h⟩ := receipt_rows s.groups s.rows f messageId userId
    · rw [h]
      exact hnd
    · rw [h, Table.map_key_modify hf]
      exact hnd
  cases t with
  | saveMessage fresh senderId recipientId groupId messageType content mediaKey mediaMime
      destructAfter =>
    obtain rfl := Option.some.inj h
    show (((saveMessage s.users s.groups s.rows _).getD s.rows).map Message.id).Nodup
    cases hsave : saveMessage s.users s.groups s.rows (newMessage s.now fresh senderId recipientId
        groupId messageType content mediaKey mediaMime destructAfter) with
    | none => exact hnd
    | some rows' =>
      obtain ⟨rfl, hfree⟩ := saveMessage_rows hsave
      exact Table.nodup_append hnd hfree
  | markDelivered messageId userId =>
    obtain rfl := Option.some.inj h
    exact hreceipt (deliver s.now) (deliver_id s.now) messageId userId
  | markRead messageId userId =>
    obtain rfl := Option.some.inj h
    exact hreceipt (read s.now) (read_id s.now) messageId userId
  | unsendMessage messageId senderId =>
    obtain rfl | ⟨msg, -, -, -, rfl⟩ := transact_unsend h
    · exact hnd
    · show (List.map Message.id (Table.modify Message.id s.rows messageId _)).Nodup
      rw [Table.map_key_modify (retract_id s.now)]
      exact hnd
  | sweepOnce batch fails commitOk =>
    obtain ⟨-, rfl⟩ := transact_sweep h
    show ((sweepOnce _ _ _ _ _ _).rows.map Message.id).Nodup
    rw [sweepOnce_map_id]
    exact hnd

theorem storeStep_nodup (hnd : (s.rows.map Message.id).Nodup) (h : storeStep s a = some s') :
    (s'.rows.map Message.id).Nodup := by
  cases a with
  | transaction t => exact transact_nodup hnd h
  | directory users groups =>
    obtain rfl := Option.some.inj h
    exact hnd
  | tick d =>
    obtain rfl := Option.some.inj h
    exact hnd

/-! ## The columns of the receipts -/

/-- The order of the states of a message; a message never gets to `FAILED`. -/
def MessageStatus.rank : MessageStatus → ℕ
  | .FAILED => 0
  | .SENT => 1
  | .DELIVERED => 2
  | .READ => 3

/-- The columns of the receipts agree with each other. -/
structure Message.Consistent (msg : Message) : Prop where
  read : msg.status = .READ ↔ msg.readAt.isSome = true
  delivered : ∃ d, msg.deliveredAt = some d ∧ ∀ r, msg.readAt = some r → d ≤ r

/-- `msg'` keeps what the receipts have set on `msg`. -/
structure Message.KeepsReceipts (msg msg' : Message) : Prop where
  readAt : ∀ t, msg.readAt = some t → msg'.readAt = some t
  deliveredAt : ∀ t, msg.deliveredAt = some t → msg'.deliveredAt = some t
  destructAt : ∀ t, msg.destructAt = some t → msg'.destructAt = some t
  status : msg.status.rank ≤ msg'.status.rank

theorem Message.KeepsReceipts.refl (msg : Message) : msg.KeepsReceipts msg :=
  ⟨fun _ h => h, fun _ h => h, fun _ h => h, le_rfl⟩

theorem Message.KeepsReceipts.trans (msg msg' msg'' : Message) (h : msg.KeepsReceipts msg')
    (h' : msg'.KeepsReceipts msg'') : msg.KeepsReceipts msg'' :=
  ⟨fun t ht => h'.readAt t (h.readAt t ht), fun t ht => h'.deliveredAt t (h.deliveredAt t ht),
    fun t ht => h'.destructAt t (h.destructAt t ht), h.status.trans h'.status⟩

/-- What holds of every row: a message was delivered before now, too. -/
structure ReceiptInv (now : Time) (msg : Message) : Prop where
  row : RowInv now msg
  consistent : msg.Consistent
  delivered : ∀ d, msg.deliveredAt = some d → d ≤ now

theorem ReceiptInv.mono {now now' : Time} {msg : Message} (h : ReceiptInv now msg)
    (hle : now ≤ now') : ReceiptInv now' msg :=
  ⟨h.row.mono hle, h.consistent, fun d hd => (h.delivered d hd).trans hle⟩

theorem receiptInv_newMessage (now : Time) (fresh : NewRow) (senderId : UUID)
    (recipientId groupId : Option UUID) (messageType : MessageType)
    (content mediaKey mediaMime : Option String) (destructAfter : Option Number) :
    ReceiptInv now (newMessage now fresh senderId recipientId groupId messageType content mediaKey
      mediaMime destructAfter) := by
  refine ⟨rowInv_newMessage .., ⟨?_, _, rfl, ?_⟩, ?_⟩
  · show MessageStatus.SENT = .READ ↔ (none : Option Time).isSome = true
    simp
  · intro r hr
    cases hr
  · intro d hd
    exact (Option.some.inj hd).ge.trans (sub_le_self _ (Int.natCast_nonneg _))

/-- A row that has been delivered stays as it is. -/
theorem deliver_eq_self {now : Time} {msg : Message} (h : msg.Consistent) :
    deliver now msg = msg := by
  obtain ⟨d, hd, -⟩ := h.delivered
  unfold deliver
  rw [hd, Option.some_or, ← hd]

theorem read_of_READ {now : Time} {msg : Message} (h : msg.status = .READ) :
    read now msg = msg := by
  unfold read
  rw [if_neg (not_not.mpr h)]

/-- The columns a first read leaves of the receipts. -/
theorem read_of_ne_READ {now : Time} {msg : Message} (h : ReceiptInv now msg)
    (hread : msg.status ≠ .READ) :
    (read now msg).status = .READ ∧ (read now msg).readAt = some now ∧
      (read now msg).deliveredAt = msg.deliveredAt ∧
      (read now msg).destructAt = msg.destructAt := by
  obtain ⟨d, hd, -⟩ := h.consistent.delivered
  refine ⟨?_, ?_, ?_, read_destructAt h.row⟩
  · unfold read
    rw [if_pos hread]
  · rw [read_readAt, if_pos hread]
  · unfold read
    rw [if_pos hread, hd, Option.some_or]

theorem MessageStatus.rank_le_READ (status : MessageStatus) :
    status.rank ≤ MessageStatus.READ.rank := by
  cases status <;> decide

/-- A first read sets what was not set. -/
theorem receiptInv_read {now : Time} {msg : Message} (h : ReceiptInv now msg) :
    ReceiptInv now (read now msg) ∧ msg.KeepsReceipts (read now msg) := by
  by_cases hread : msg.status = .READ
  · rw [read_of_READ hread]
    exact ⟨h, .refl msg⟩
  · obtain ⟨hstatus, hreadAt, hdelivered, hdestruct⟩ := read_of_ne_READ h hread
    obtain ⟨d, hd, -⟩ := h.consistent.delivered
    have hunread : msg.readAt = none := by
      rw [← Option.not_isSome_iff_eq_none, ← h.consistent.read]
      exact hread
    refine ⟨⟨rowInv_read h.row, ⟨?_, d, hdelivered.trans hd, ?_⟩, ?_⟩, ?_, ?_, ?_, ?_⟩
    · simp [hstatus, hreadAt]
    · intro r hr
      rw [hreadAt] at hr
      obtain rfl := Option.some.inj hr
      exact h.delivered d hd
    · intro d' hd'
      exact h.delivered d' (hdelivered ▸ hd')
    · intro t ht
      rw [hunread] at ht
      cases ht
    · intro t ht
      rw [hdelivered]
      exact ht
    · intro t ht
      rw [hdestruct]
      exact ht
    · rw [hstatus]
      exact msg.status.rank_le_READ

/-- **Row step.** Every change of a row keeps its receipts. -/
theorem RowEdit.receiptInv {now : Time} {msg msg' : Message} (h : RowEdit now msg msg')
    (hi : ReceiptInv now msg) : ReceiptInv now msg' ∧ msg.KeepsReceipts msg' := by
  cases h with
  | change hchange =>
    cases hchange with
    | same => exact ⟨hi, .refl msg⟩
    | deliver =>
      rw [deliver_eq_self hi.consistent]
      exact ⟨hi, .refl msg⟩
    | read => exact receiptInv_read hi
    | retract =>
      -- a retraction leaves the columns of the receipts alone
      have hrow : RowInv now (retract now msg) := (RowChange.retract msg).inv hi.row
      exact ⟨⟨hrow, ⟨hi.consistent.read, hi.consistent.delivered⟩, hi.delivered⟩,
        fun _ h => h, fun _ h => h, fun _ h => h, le_rfl⟩
  | destroy hexpired =>
    have hrow : RowInv now (Messages.destroy now msg) := rowInv_destroy hi.row hexpired
    exact ⟨⟨hrow, ⟨hi.consistent.read, hi.consistent.delivered⟩, hi.delivered⟩,
      fun _ h => h, fun _ h => h, fun _ h => h, le_rfl⟩

/-- The invariant of the table. -/
def Store.Inv (s : Store) : Prop :=
  (s.rows.map Message.id).Nodup ∧ ∀ id msg, s.rows.byId id = some msg → ReceiptInv s.now msg

theorem Store.inv_init (users : Users) (groups : Groups) (bucket : Bucket) (now : Time) :
    (Store.init users groups bucket now).Inv := by
  refine ⟨List.nodup_nil, ?_⟩
  intro id msg hmsg
  cases hmsg

/-- **Step.** A transaction keeps the invariant of the table, and what the
    receipts have set on each row. -/
theorem Store.Inv.step (s : Store) (a : StoreAction) (s' : Store) (h : s.Inv)
    (hs : storeStep s a = some s') :
    s'.Inv ∧ Table.Evolves Message.id Message.KeepsReceipts s.rows s'.rows := by
  obtain ⟨hnd, hrows⟩ := h
  have hcell := storeStep_cell hnd hs
  refine ⟨⟨storeStep_nodup hnd hs, ?_⟩, ?_⟩
  · intro id msg' hmsg'
    refine ReceiptInv.mono ?_ (storeStep_now hs)
    have hstep := hcell id
    rw [hmsg'] at hstep
    cases hmsg : s.rows.byId id with
    | none =>
      rw [hmsg] at hstep
      cases hstep
      exact receiptInv_newMessage ..
    | some msg =>
      rw [hmsg] at hstep
      cases hstep with
      | edit hedit => exact (hedit.receiptInv (hrows id msg hmsg)).1
  · intro id msg hmsg
    have hstep := hcell id
    rw [show s.rows.byId id = some msg from hmsg] at hstep
    generalize hrow : s'.rows.byId id = cell at hstep
    cases hstep with
    | edit hedit => exact ⟨_, hrow, (hedit.receiptInv (hrows id msg hmsg)).2⟩

theorem Store.inv_run {users : Users} {groups : Groups} {bucket : Bucket} {now : Time}
    {as : List StoreAction} (hr : run storeStep (Store.init users groups bucket now) as = some s) :
    s.Inv :=
  run_invariant (fun s a s' hi hs => (Store.Inv.step s a s' hi hs).1)
    (Store.inv_init users groups bucket now) hr

/-! ## Strangers -/

theorem receipt_of_stranger {groups : Groups} {rows : MessageRows} {messageId userId : UUID}
    (f : Message → Message)
    (h : ∀ msg, rows.byId messageId = some msg → isParticipant groups msg userId = false) :
    receipt groups rows f messageId userId = (rows, none) := by
  unfold receipt
  split
  · rfl
  · rename_i msg hmsg
    simp [h msg hmsg]

/-- Retracting a message of someone else, or none, changes nothing. -/
theorem transact_unsend_of_stranger {messageId userId : UUID}
    (h : ∀ msg, s.rows.byId messageId = some msg → msg.senderId ≠ some userId) :
    transact s (.unsendMessage messageId userId) = some s := by
  have hfilter : ((s.rows.byId messageId).filter fun msg => msg.senderId = some userId) = none := by
    rw [Option.filter_eq_none_iff]
    intro msg hmsg hsender
    exact h msg hmsg (of_decide_eq_true hsender)
  have hdenied : unsendMessage s.rows s.now messageId userId =
      .error "message not found or not owned by caller" := by
    unfold unsendMessage
    rw [hfilter]
  simp only [transact, hdenied]

/-- After every run the receipts of a row agree with each other; in every run
    that goes on from there they stay as they are once set, and a call by someone
    who has no part in the message changes nothing. -/
theorem receipts_writeOnce {users : Users} {groups : Groups} {bucket : Bucket} {now : Time}
    {as bs : List StoreAction} {s' : Store}
    (hs : run storeStep (Store.init users groups bucket now) as = some s)
    (hs' : run storeStep s bs = some s') :
    (∀ id msg, s.rows.byId id = some msg → msg.Consistent) ∧
      (∀ id msg, s.rows.byId id = some msg →
        ∃ msg', s'.rows.byId id = some msg' ∧ msg.KeepsReceipts msg') ∧
      ∀ messageId userId,
        ((∀ msg, s.rows.byId messageId = some msg → isParticipant s.groups msg userId = false) →
          transact s (.markDelivered messageId userId) = some s ∧
            transact s (.markRead messageId userId) = some s) ∧
        ((∀ msg, s.rows.byId messageId = some msg → msg.senderId ≠ some userId) →
          transact s (.unsendMessage messageId userId) = some s) := by
  have hinv : s.Inv := Store.inv_run hs
  refine ⟨fun id msg hmsg => (hinv.2 id msg hmsg).consistent, ?_, fun messageId userId => ⟨?_, ?_⟩⟩
  · have hevolves : Table.Evolves Message.id Message.KeepsReceipts s.rows s'.rows :=
      run_relates
        (R := fun s s' => Table.Evolves Message.id Message.KeepsReceipts s.rows s'.rows)
        (fun s => Table.Evolves.refl Message.KeepsReceipts.refl s.rows)
        (fun _ _ _ => Table.Evolves.trans Message.KeepsReceipts.trans) Store.Inv.step hinv hs'
    exact hevolves
  · intro hstranger
    refine ⟨?_, ?_⟩
    · simp only [transact, markDelivered]
      rw [receipt_of_stranger _ hstranger]
    · simp only [transact, markRead]
      rw [receipt_of_stranger _ hstranger]
  · exact transact_unsend_of_stranger

/-- Two users and no messages, for the examples. -/
def sampleStore : Store := Store.init [sampleUser, sampleAdmin] ⟨[], []⟩ .empty 0

/-- A text that burns five seconds after it was saved, read after one. -/
def saveAndRead : List StoreAction :=
  [.transaction (.saveMessage 100 7 (some 1) none .TEXT (some "hello") none none (some (.int 5))),
    .tick 1000000, .transaction (.markRead 100 1)]

/-- It is read again, retracted and destroyed. -/
def readAgain : List StoreAction :=
  [.tick 4000000, .transaction (.markRead 100 1), .transaction (.unsendMessage 100 7),
    .transaction (.sweepOnce [100] (fun _ => false) true)]

/-- The message was read after one second, whatever came later. -/
theorem receipts_writeOnce_readAgain :
    ∃ s ∈ run storeStep sampleStore saveAndRead, ∃ s' ∈ run storeStep s readAgain,
      ∃ msg ∈ s'.rows.byId 100, msg.status = .READ ∧ msg.readAt = some 1000000 := by
  have hrun : ∃ s ∈ run storeStep sampleStore saveAndRead, ∃ s' ∈ run storeStep s readAgain,
      (∃ msg ∈ s.rows.byId 100, msg.readAt = some 1000000) ∧
        ∃ msg ∈ s'.rows.byId 100, msg.status = .READ := by decide +kernel
  obtain ⟨s, hs, s', hs', ⟨msg, hmsg, hread⟩, msg', hmsg', hstatus⟩ := hrun
  obtain ⟨-, hkeeps, -⟩ := receipts_writeOnce hs hs'
  obtain ⟨msg'', hmsg'', hkept⟩ := hkeeps 100 msg hmsg
  obtain rfl := Option.some.inj (hmsg'.symm.trans hmsg'')
  exact ⟨s, hs, s', hs', msg', hmsg', hstatus, hkept.readAt _ hread⟩

end IronLink.Messages
