import IronLink.Messages.Transactions

/-!
# When a message was retracted

`deleted_at` is written by a retraction and by a sweep, and neither looks at
what the other has written: a second retraction within the window, and a sweep
of a retracted message, move the moment the tombstone names.

Results:
* `evidenceKept_iff_writtenOnce`: `deleted_at` stays as it is throughout exactly
  the runs in which it is never written twice.
-/

namespace IronLink.Messages

open Lib Auth

/-! ## Property and condition -/

/-- `msg'` names the moment `msg` names. -/
def Message.KeepsDeletedAt (msg msg' : Message) : Prop :=
  ∀ t, msg.deletedAt = some t → msg'.deletedAt = some t

/-- Between any two moments of the run from `s` along `as`, every row keeps the
    moment of its retraction. -/
def EvidenceKept (s : Store) (as : List StoreAction) : Prop :=
  ∀ pre mid post m n, as = pre ++ mid ++ post → run storeStep s pre = some m →
    run storeStep m mid = some n →
    Table.Evolves Message.id Message.KeepsDeletedAt m.rows n.rows

/-- At `now` the row names no moment, or this one. -/
def Message.Unretracted (now : Time) (msg : Message) : Prop :=
  msg.deletedAt = none ∨ msg.deletedAt = some now

instance (now : Time) (msg : Message) : Decidable (msg.Unretracted now) :=
  inferInstanceAs (Decidable (_ ∨ _))

/-- The transaction retracts and destroys only rows that are not retracted or
    destroyed yet: `unsend_message` by the sender within the window, and the rows
    of the batch whose loop does not `continue`, in a sweep that commits. -/
def WritesOnce (s : Store) : StoreAction → Prop
  | .transaction (.unsendMessage messageId senderId) =>
    ∀ msg ∈ s.rows.byId messageId, msg.senderId = some senderId →
      s.now - msg.createdAt ≤ UNSEND_WINDOW → msg.Unretracted s.now
  | .transaction (.sweepOnce batch fails commitOk) =>
    commitOk = true → ∀ id ∈ batch, ∀ msg ∈ s.rows.byId id, wipes fails msg = true →
      msg.Unretracted s.now
  | _ => True

instance decidableWritesOnce (s : Store) : (a : StoreAction) → Decidable (WritesOnce s a)
  | .transaction t => by cases t <;> (simp only [WritesOnce]; infer_instance)
  | .directory _ _ => inferInstanceAs (Decidable True)
  | .tick _ => inferInstanceAs (Decidable True)

/-! ## One transaction -/

variable {s s' : Store} {t : Transaction} {a : StoreAction}

theorem Message.KeepsDeletedAt.refl (msg : Message) : msg.KeepsDeletedAt msg := fun _ h => h

theorem Message.KeepsDeletedAt.trans (msg msg' msg'' : Message) (h : msg.KeepsDeletedAt msg')
    (h' : msg'.KeepsDeletedAt msg'') : msg.KeepsDeletedAt msg'' := fun t ht => h' t (h t ht)

/-- Writing `now` keeps the moment of a row that is not retracted at another. -/
theorem keepsDeletedAt_iff_unretracted {now : Time} {msg msg' : Message}
    (h : msg'.deletedAt = some now) : msg.KeepsDeletedAt msg' ↔ msg.Unretracted now := by
  unfold Message.KeepsDeletedAt Message.Unretracted
  rw [h]
  constructor
  · intro hkeeps
    cases hd : msg.deletedAt with
    | none => exact .inl rfl
    | some t => exact .inr (hkeeps t hd).symm
  · rintro (hnone | hnow) t ht
    · rw [hnone] at ht
      cases ht
    · rw [← hnow, ht]

theorem read_deletedAt (now : Time) (msg : Message) : (read now msg).deletedAt = msg.deletedAt := by
  unfold read
  split_ifs <;> rfl

theorem evolves_receipt {f : Message → Message} (hf : ∀ msg, (f msg).id = msg.id)
    (hkeeps : ∀ msg, (f msg).deletedAt = msg.deletedAt) (groups : Groups) (rows : MessageRows)
    (messageId userId : UUID) :
    Table.Evolves Message.id Message.KeepsDeletedAt rows
      (receipt groups rows f messageId userId).1 := by
  obtain h | ⟨-, h⟩ := receipt_rows groups rows f messageId userId
  · rw [h]
    exact .refl Message.KeepsDeletedAt.refl rows
  · rw [h, Table.evolves_modify_iff Message.KeepsDeletedAt.refl hf]
    intro msg _ t ht
    exact (hkeeps msg).trans ht

theorem evolves_saveMessage (users : Users) (groups : Groups) (rows : MessageRows) (msg : Message) :
    Table.Evolves Message.id Message.KeepsDeletedAt rows
      ((saveMessage users groups rows msg).getD rows) := by
  cases hsave : saveMessage users groups rows msg with
  | none => exact .refl Message.KeepsDeletedAt.refl rows
  | some rows' =>
    obtain ⟨rfl, -⟩ := saveMessage_rows hsave
    exact Table.evolves_append Message.KeepsDeletedAt.refl rows msg

/-- A transaction keeps every row's moment exactly when it writes none of them a
    second time. -/
theorem evolves_transact_iff (hs : transact s t = some s') :
    Table.Evolves Message.id Message.KeepsDeletedAt s.rows s'.rows ↔
      WritesOnce s (.transaction t) := by
  cases t with
  | saveMessage =>
    obtain rfl := Option.some.inj hs
    exact iff_of_true (evolves_saveMessage s.users s.groups s.rows _) trivial
  | markDelivered messageId userId =>
    obtain rfl := Option.some.inj hs
    exact iff_of_true
      (evolves_receipt (deliver_id s.now) (fun _ => rfl) s.groups s.rows messageId userId) trivial
  | markRead messageId userId =>
    obtain rfl := Option.some.inj hs
    exact iff_of_true
      (evolves_receipt (read_id s.now) (read_deletedAt s.now) s.groups s.rows messageId userId)
      trivial
  | unsendMessage messageId senderId =>
    simp only [transact] at hs
    cases hok : unsendMessage s.rows s.now messageId senderId with
    | error denied =>
      rw [hok] at hs
      obtain rfl := Option.some.inj hs
      refine iff_of_true (.refl Message.KeepsDeletedAt.refl s.rows) ?_
      -- nothing is granted, so nothing is written
      intro msg hmsg hsender hwindow
      exfalso
      have hfilter : ((s.rows.byId messageId).filter
          fun msg => msg.senderId = some senderId) = some msg :=
        Option.filter_eq_some_iff.mpr ⟨hmsg, decide_eq_true hsender⟩
      unfold unsendMessage at hok
      rw [hfilter] at hok
      simp only [gt_iff_lt, not_lt.mpr hwindow, if_false] at hok
      cases hok
    | ok r =>
      rw [hok] at hs
      obtain ⟨row, hrow, howner, hwindow, rfl⟩ := unsendMessage_rows hok
      obtain rfl := Option.some.inj hs
      show Table.Evolves Message.id Message.KeepsDeletedAt s.rows
        (Table.modify Message.id s.rows messageId (retract s.now)) ↔ _
      rw [Table.evolves_modify_iff Message.KeepsDeletedAt.refl (retract_id s.now)]
      constructor
      · intro h msg hmsg _ _
        exact (keepsDeletedAt_iff_unretracted rfl).mp (h msg hmsg)
      · intro h msg hmsg
        obtain rfl := Option.some.inj (hrow.symm.trans hmsg)
        exact (keepsDeletedAt_iff_unretracted rfl).mpr (h row hmsg howner hwindow)
  | sweepOnce batch fails commitOk =>
    obtain ⟨hbatch, rfl⟩ := transact_sweep hs
    have hrow : ∀ id msg, s.rows.byId id = some msg →
        (sweepOnce s.now s.rows s.bucket batch fails commitOk).rows.byId id = some
          (if commitOk = true ∧ id ∈ batch ∧ wipes fails msg = true then destroy s.now msg
            else msg) := by
      intro id msg hmsg
      rw [sweepOnce_byId hbatch.1, hmsg, Option.map_some]
    constructor
    · intro h hcommit id hid msg hmsg hwipes
      obtain ⟨msg', hmsg', hkeeps⟩ := h id msg hmsg
      have heq := (hrow id msg hmsg).symm.trans hmsg'
      rw [if_pos ⟨hcommit, hid, hwipes⟩] at heq
      rw [← Option.some.inj heq] at hkeeps
      exact (keepsDeletedAt_iff_unretracted rfl).mp hkeeps
    · intro h id msg hmsg
      refine ⟨_, hrow id msg hmsg, ?_⟩
      split_ifs with hwiped
      · exact (keepsDeletedAt_iff_unretracted rfl).mpr
          (h hwiped.1 id hwiped.2.1 msg hmsg hwiped.2.2)
      · exact .refl msg

/-- **One step.** -/
theorem evolves_iff_writesOnce (hs : storeStep s a = some s') :
    Table.Evolves Message.id Message.KeepsDeletedAt s.rows s'.rows ↔ WritesOnce s a := by
  cases a with
  | transaction t => exact evolves_transact_iff hs
  | directory users groups =>
    obtain rfl := Option.some.inj hs
    exact iff_of_true (.refl Message.KeepsDeletedAt.refl s.rows) trivial
  | tick d =>
    obtain rfl := Option.some.inj hs
    exact iff_of_true (.refl Message.KeepsDeletedAt.refl s.rows) trivial

/-! ## Runs -/

/-- **Evidence.** In a run the moment of a retraction stays as it is exactly
    when no transaction retracts or destroys a row a second time, at another
    moment. -/
theorem evidenceKept_iff_writtenOnce {as : List StoreAction} (hr : run storeStep s as = some s') :
    EvidenceKept s as ↔ Guarded storeStep WritesOnce s as := by
  rw [guarded_iff_takes hr]
  constructor
  · rintro h m a m' ⟨pre, post, rfl, hpre, hstep⟩
    refine (evolves_iff_writesOnce hstep).mp (h pre [a] post m m' (by simp) hpre ?_)
    rw [run_cons, hstep, Option.bind_some, run_nil]
  · rintro h pre mid post m n rfl hpre hmid
    have hg : Guarded storeStep WritesOnce m mid := by
      have hall := (guarded_iff_takes hr).mpr h
      rw [guarded_append, guarded_append] at hall
      exact hall.1.2 m hpre
    -- along `mid`, from `m`: nothing that `m` names is lost
    refine hg.invariant (I := fun n => Table.Evolves Message.id Message.KeepsDeletedAt m.rows
      n.rows) ?_ (.refl Message.KeepsDeletedAt.refl m.rows) hmid
    intro s a s' hevolves hwrites hs
    exact hevolves.trans Message.KeepsDeletedAt.trans ((evolves_iff_writesOnce hs).mpr hwrites)

/-- A message is saved and retracted after one second. -/
def saveAndUnsend : List StoreAction :=
  [.transaction (.saveMessage 100 7 (some 1) none .TEXT (some "hello") none none (some (.int 5))),
    .tick 1000000, .transaction (.unsendMessage 100 7)]

/-- When the window has passed, a retraction is denied; then the message is read. -/
def unsendTooLate : List StoreAction :=
  [.tick 400000000, .transaction (.unsendMessage 100 7), .transaction (.markRead 100 1)]

theorem evidenceKept_unsendTooLate :
    EvidenceKept sampleStore (saveAndUnsend ++ unsendTooLate) := by
  have hrun : ∃ s ∈ run storeStep sampleStore (saveAndUnsend ++ unsendTooLate),
      Guarded storeStep WritesOnce sampleStore (saveAndUnsend ++ unsendTooLate) := by
    decide +kernel
  obtain ⟨s, hs, hguarded⟩ := hrun
  exact (evidenceKept_iff_writtenOnce hs).mpr hguarded

/-- Nothing keeps the sender from retracting the message once more, and nothing
    keeps the sweep from destroying it: both move the moment of the retraction. -/
theorem evidence_moved :
    (∃ s ∈ run storeStep sampleStore saveAndUnsend,
      ∃ s' ∈ run storeStep s [.tick 1000000, .transaction (.unsendMessage 100 7)],
        (∃ msg ∈ s.rows.byId 100, msg.deletedAt = some 1000000) ∧
          ∃ msg ∈ s'.rows.byId 100, msg.deletedAt = some 2000000) ∧
    ∃ s ∈ run storeStep sampleStore saveAndUnsend,
      ∃ s' ∈ run storeStep s
        [.tick 4000000, .transaction (.sweepOnce [100] (fun _ => false) true)],
        (∃ msg ∈ s.rows.byId 100, msg.deletedAt = some 1000000) ∧
          ∃ msg ∈ s'.rows.byId 100, msg.deletedAt = some 5000000 := by
  decide +kernel

end IronLink.Messages
