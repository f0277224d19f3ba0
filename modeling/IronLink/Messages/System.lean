import IronLink.Lib.Run
import IronLink.Ws.Frame

/-!
# Runs of the message store

Frames from any user, receipts over REST, sweeps and the passing of time, each
taken as one step, over the `messages` table and the attachments bucket.

Results:
* `systemStep_rows`: a step is a sweep, or changes the rows by one `RowsStep`.
* `rowsInv_run`: what holds of every row in every run that starts without
  messages (`RowInv`): when the timer is armed, and what a destroyed row holds.
-/

namespace IronLink.Messages

open Lib Auth Ws

/-! ## Model -/

/-- The server and its bucket. `named` is no data of the program: the keys that
    rows have carried so far. -/
structure System where
  world : World
  bucket : Bucket
  named : Finset String

/-- The keys the rows carry. -/
def keysOf (rows : MessageRows) : Finset String := (rows.filterMap Message.mediaObjectKey).toFinset

/-- A server without messages, over any bucket. -/
def System.init (world : World) (bucket : Bucket) : System :=
  ⟨{ world with messages := [] }, bucket, ∅⟩

inductive SystemAction
  /-- a frame received on a socket of `userId`; `fresh` is the key a new row gets -/
  | frame (userId : UUID) (connectionId : String) (fresh : NewRow) (frame : Frame)
  /-- a receipt over REST (app/api/routes/receipts.py:104 and 146) -/
  | receipt (isRead : Bool) (messageId userId : UUID)
  /-- a sweep whose query answers `batch` -/
  | sweep (batch : List UUID) (fails : UUID → Bool) (commitOk : Bool)
  | tick (d : ℕ)

/-- The state with the rows `rows`. -/
def System.withRows (s : System) (rows : MessageRows) : System :=
  { s with
    world := { s.world with messages := rows }
    named := s.named ∪ keysOf rows }

def systemStep (s : System) : SystemAction → Option System
  | .frame userId connectionId fresh frame =>
    let w := (handleFrame s.world userId connectionId fresh frame).world
    some { s with world := w, named := s.named ∪ keysOf w.messages }
  | .receipt isRead messageId userId =>
    some (s.withRows (if isRead then
        markRead s.world.groups s.world.messages s.world.now messageId userId
      else markDelivered s.world.groups s.world.messages s.world.now messageId userId).1)
  | .sweep batch fails commitOk =>
    if IsBatch s.world.messages s.world.now batch then
      let r := sweepOnce s.world.now s.world.messages s.bucket batch fails commitOk
      some { s.withRows r.rows with bucket := r.bucket }
    else none
  | .tick d => some { s with world := { s.world with now := s.world.now + d } }

/-! ## What a step does -/

variable {s s' : System} {a : SystemAction}

theorem systemStep_sweep {batch : List UUID} {fails : UUID → Bool} {commitOk : Bool}
    (h : systemStep s (.sweep batch fails commitOk) = some s') :
    IsBatch s.world.messages s.world.now batch ∧
      s' = { s.withRows (sweepOnce s.world.now s.world.messages s.bucket batch fails commitOk).rows
        with bucket :=
          (sweepOnce s.world.now s.world.messages s.bucket batch fails commitOk).bucket } := by
  simp only [systemStep] at h
  split_ifs at h with hb
  exact ⟨hb, (Option.some.inj h).symm⟩

/-- A row after a sweep. -/
theorem systemStep_sweep_byId {batch : List UUID} {fails : UUID → Bool} {commitOk : Bool}
    (h : systemStep s (.sweep batch fails commitOk) = some s') {id : UUID} {msg : Message}
    (hmsg : s.world.messages.byId id = some msg) :
    s'.world.messages.byId id = some
      (if commitOk = true ∧ id ∈ batch ∧ wipes fails msg = true then destroy s.world.now msg
        else msg) := by
  obtain ⟨hbatch, rfl⟩ := systemStep_sweep h
  show MessageRows.byId (sweepOnce _ _ _ _ _ _).rows id = _
  rw [sweepOnce_byId hbatch.1, hmsg, Option.map_some]

/-- The message an action asks to retract, and the user who asks. -/
def SystemAction.target : SystemAction → Option (UUID × UUID)
  | .frame userId _ _ fr => (unsendTarget fr).map (userId, ·)
  | _ => none

/-- A step that is no sweep leaves the bucket alone and changes the rows by one
    `RowsStep`, or lets time pass. -/
theorem systemStep_rows (h : systemStep s a = some s') :
    (∃ batch fails commitOk, a = .sweep batch fails commitOk) ∨
      s'.bucket = s.bucket ∧ s.world.now ≤ s'.world.now ∧
        s'.named ⊆ s.named ∪ keysOf s'.world.messages ∧
        ∃ userId fresh target, (∀ id, target = some id → a.target = some (userId, id)) ∧
          RowsStep s.world.now userId fresh target s.world.messages s'.world.messages := by
  cases a with
  | frame userId connectionId fresh frame =>
    obtain rfl := Option.some.inj h
    obtain ⟨hnow, -, -, -⟩ := handleFrame_frame s.world userId connectionId fresh frame
    refine .inr ⟨rfl, hnow.ge, subset_rfl, userId, fresh, unsendTarget frame, ?_,
      handleFrame_rows s.world userId connectionId fresh frame⟩
    intro id hid
    show (unsendTarget frame).map (userId, ·) = _
    rw [hid]
    rfl
  | receipt isRead messageId userId =>
    obtain rfl := Option.some.inj h
    refine .inr ⟨rfl, le_rfl, subset_rfl, userId, 0, none, ?_,
      receipt_rowsStep s.world.groups s.world.now s.world.messages messageId userId 0 none isRead⟩
    intro id hid
    cases hid
  | sweep batch fails commitOk => exact .inl ⟨batch, fails, commitOk, rfl⟩
  | tick d =>
    obtain rfl := Option.some.inj h
    refine .inr ⟨rfl, by simp, Finset.subset_union_left, 0, 0, none, ?_, .same _⟩
    intro id hid
    cases hid

/-! ## What a step does to one row -/

/-- A change of one row at `now` that a frame or a receipt makes. -/
inductive RowChange (now : Time) : Message → Message → Prop
  | same (msg : Message) : RowChange now msg msg
  | deliver (msg : Message) : RowChange now msg (deliver now msg)
  | read (msg : Message) : RowChange now msg (read now msg)
  | retract (msg : Message) : RowChange now msg (retract now msg)

/-- An update of one row changes a row that is looked up by `f`, or not at all. -/
theorem byId_modify {rows : MessageRows} {f : Message → Message} (hf : ∀ msg, (f msg).id = msg.id)
    {id k : UUID} {msg' : Message}
    (h : MessageRows.byId (Table.modify Message.id rows k f) id = some msg') :
    ∃ msg, rows.byId id = some msg ∧ (msg' = msg ∨ msg' = f msg) := by
  unfold MessageRows.byId at h
  rw [Table.find_modify hf] at h
  obtain ⟨msg, hmsg, hif⟩ := Option.map_eq_some_iff.mp h
  refine ⟨msg, hmsg, ?_⟩
  split_ifs at hif
  · exact .inr hif.symm
  · exact .inl hif.symm

/-- A row after a step that is no sweep was there before, or is new. -/
theorem rowsStep_byId {now : Time} {userId : UUID} {fresh : NewRow} {target : Option UUID}
    {rows rows' : MessageRows} (h : RowsStep now userId fresh target rows rows') {id : UUID}
    {msg' : Message} (hmsg' : rows'.byId id = some msg') :
    (∃ msg, rows.byId id = some msg ∧ RowChange now msg msg') ∨
      rows.byId id = none ∧ id = fresh ∧
        ∃ recipientId messageType content mediaKey mediaMime destructAfter,
          msg' = newMessage now fresh userId (some recipientId) none messageType content
            mediaKey mediaMime destructAfter := by
  cases h with
  | same => exact .inl ⟨msg', hmsg', .same _⟩
  | insert recipientId messageType content mediaKey mediaMime destructAfter hfresh =>
    unfold MessageRows.byId at hmsg' hfresh
    rw [Table.find_append] at hmsg'
    cases hold : Table.find Message.id rows id with
    | some msg =>
      rw [hold] at hmsg'
      obtain rfl := Option.some.inj hmsg'
      exact .inl ⟨msg, hold, .same _⟩
    | none =>
      rw [hold, Option.none_or] at hmsg'
      split_ifs at hmsg' with hid
      exact .inr ⟨hold, hid.symm, recipientId, messageType, content, mediaKey, mediaMime,
        destructAfter, (Option.some.inj hmsg').symm⟩
  | deliver messageId =>
    obtain ⟨msg, hmsg, rfl | rfl⟩ := byId_modify (deliver_id now) hmsg'
    · exact .inl ⟨_, hmsg, .same _⟩
    · exact .inl ⟨_, hmsg, .deliver _⟩
  | read messageId =>
    obtain ⟨msg, hmsg, rfl | rfl⟩ := byId_modify (read_id now) hmsg'
    · exact .inl ⟨_, hmsg, .same _⟩
    · exact .inl ⟨_, hmsg, .read _⟩
  | retract messageId msg htarget hrow howner hwindow =>
    obtain ⟨msg, hmsg, rfl | rfl⟩ := byId_modify (retract_id now) hmsg'
    · exact .inl ⟨_, hmsg, .same _⟩
    · exact .inl ⟨_, hmsg, .retract _⟩

/-- A row that was there before a step is there after it. -/
theorem byId_modify_of_some {rows : MessageRows} {f : Message → Message}
    (hf : ∀ msg, (f msg).id = msg.id) {id : UUID} {msg : Message} (h : rows.byId id = some msg)
    (k : UUID) :
    ∃ msg', MessageRows.byId (Table.modify Message.id rows k f) id = some msg' ∧
      (msg' = msg ∨ msg' = f msg) := by
  refine ⟨if msg.id = k then f msg else msg, ?_, ?_⟩
  · unfold MessageRows.byId
    rw [Table.find_modify hf]
    exact congrArg (Option.map fun r => if r.id = k then f r else r) h
  · split_ifs
    · exact .inr rfl
    · exact .inl rfl

theorem rowsStep_byId_of_some {now : Time} {userId : UUID} {fresh : NewRow} {target : Option UUID}
    {rows rows' : MessageRows} (h : RowsStep now userId fresh target rows rows') {id : UUID}
    {msg : Message} (hmsg : rows.byId id = some msg) :
    ∃ msg', rows'.byId id = some msg' ∧ RowChange now msg msg' := by
  cases h with
  | same => exact ⟨msg, hmsg, .same _⟩
  | insert recipientId messageType content mediaKey mediaMime destructAfter hfresh =>
    refine ⟨msg, ?_, .same _⟩
    unfold MessageRows.byId at *
    rw [Table.find_append, hmsg, Option.some_or]
  | deliver messageId =>
    obtain ⟨msg', hmsg', rfl | rfl⟩ := byId_modify_of_some (deliver_id now) hmsg messageId
    · exact ⟨_, hmsg', .same _⟩
    · exact ⟨_, hmsg', .deliver _⟩
  | read messageId =>
    obtain ⟨msg', hmsg', rfl | rfl⟩ := byId_modify_of_some (read_id now) hmsg messageId
    · exact ⟨_, hmsg', .same _⟩
    · exact ⟨_, hmsg', .read _⟩
  | retract messageId row htarget hrow howner hwindow =>
    obtain ⟨msg', hmsg', rfl | rfl⟩ := byId_modify_of_some (retract_id now) hmsg messageId
    · exact ⟨_, hmsg', .same _⟩
    · exact ⟨_, hmsg', .retract _⟩

/-! ## What holds of every row -/

/-- Facts about a row in every run. -/
structure RowInv (now : Time) (msg : Message) : Prop where
  created : msg.createdAt ≤ now
  armed : truthyInt msg.destructAfterSeconds = true → msg.destructAt.isSome = true
  readAt : ∀ t, msg.readAt = some t → msg.createdAt ≤ t
  wiped : msg.isDestructed = true →
    msg.contentCiphertext = none ∧ msg.mediaObjectKey = none ∧ msg.mediaMimeType = none
  timed : msg.isDestructed = true → msg.destructAt.isSome = true

theorem RowInv.mono {now now' : Time} {msg : Message} (h : RowInv now msg) (hle : now ≤ now') :
    RowInv now' msg := ⟨h.created.trans hle, h.armed, h.readAt, h.wiped, h.timed⟩

theorem rowInv_newMessage (now : Time) (fresh : NewRow) (userId : UUID)
    (recipientId groupId : Option UUID) (messageType : MessageType)
    (content mediaKey mediaMime : Option String) (destructAfter : Option Number) :
    RowInv now (newMessage now fresh userId recipientId groupId messageType content mediaKey
      mediaMime destructAfter) := by
  refine ⟨le_rfl, ?_, ?_, ?_, ?_⟩
  · cases destructAfter with
    | none => exact fun h => (by cases h)
    | some x =>
      intro hcolumn
      have htruthy : x.truthy = true := Number.truthy_of_trunc (of_decide_eq_true hcolumn)
      simp [newMessage, htruthy]
  · intro t ht
    cases ht
  · intro hd
    cases hd
  · intro hd
    cases hd

/-- A first read arms the timer only of a row that `save_message` left unarmed,
    and there is none with a timer to arm. -/
theorem read_destructAt {now : Time} {msg : Message} (h : RowInv now msg) :
    (read now msg).destructAt = msg.destructAt := by
  unfold read
  split_ifs with hread harm
  · exfalso
    rw [Bool.and_eq_true, Bool.and_eq_true, Option.isNone_iff_eq_none] at harm
    obtain ⟨⟨-, htruthy⟩, hnone⟩ := harm
    have harmed := h.armed htruthy
    rw [hnone] at harmed
    cases harmed
  · rfl
  · rfl

theorem read_fields (now : Time) (msg : Message) :
    (read now msg).createdAt = msg.createdAt ∧ (read now msg).isDestructed = msg.isDestructed ∧
      (read now msg).destructAfterSeconds = msg.destructAfterSeconds ∧
      (read now msg).contentCiphertext = msg.contentCiphertext ∧
      (read now msg).mediaObjectKey = msg.mediaObjectKey ∧
      (read now msg).mediaMimeType = msg.mediaMimeType := by
  unfold read
  split_ifs <;> exact ⟨rfl, rfl, rfl, rfl, rfl, rfl⟩

/-- The first read sets `read_at`, and no later one changes it. -/
theorem read_readAt (now : Time) (msg : Message) :
    (read now msg).readAt = if msg.status ≠ .READ then some now else msg.readAt := by
  unfold read
  split_ifs <;> rfl

theorem rowInv_read {now : Time} {msg : Message} (h : RowInv now msg) :
    RowInv now (read now msg) := by
  obtain ⟨hcreated, hdestructed, hafter, hcontent, hkey, hmime⟩ := read_fields now msg
  refine ⟨?_, ?_, ?_, ?_, ?_⟩
  · rw [hcreated]
    exact h.created
  · rw [read_destructAt h, hafter]
    exact h.armed
  · intro t ht
    rw [hcreated]
    rw [read_readAt] at ht
    split_ifs at ht with hread
    · rw [← Option.some.inj ht]
      exact h.created
    · exact h.readAt t ht
  · intro hd
    rw [hcontent, hkey, hmime]
    exact h.wiped (hdestructed ▸ hd)
  · intro hd
    rw [read_destructAt h]
    exact h.timed (hdestructed ▸ hd)

theorem RowChange.inv {now : Time} {msg msg' : Message} (h : RowChange now msg msg')
    (hi : RowInv now msg) : RowInv now msg' := by
  cases h with
  | same => exact hi
  | deliver => exact ⟨hi.created, hi.armed, hi.readAt, hi.wiped, hi.timed⟩
  | read => exact rowInv_read hi
  | retract =>
    exact ⟨hi.created, hi.armed, hi.readAt, fun _ => ⟨rfl, rfl, rfl⟩, hi.timed⟩

theorem rowInv_destroy {now : Time} {rows : MessageRows} {msg : Message} (h : RowInv now msg)
    (hexp : msg ∈ expired rows now) : RowInv now (destroy now msg) :=
  ⟨h.created, h.armed, h.readAt, fun _ => ⟨rfl, rfl, rfl⟩, fun _ =>
    (mem_expired.mp hexp).2.2.elim fun _ hd => Option.isSome_of_mem hd.1⟩

/-- The invariant of the whole table. -/
def RowsInv (s : System) : Prop :=
  (s.world.messages.map Message.id).Nodup ∧
    ∀ id msg, s.world.messages.byId id = some msg → RowInv s.world.now msg

theorem rowsStep_nodup {now : Time} {userId : UUID} {fresh : NewRow} {target : Option UUID}
    {rows rows' : MessageRows} (h : RowsStep now userId fresh target rows rows')
    (hnd : (rows.map Message.id).Nodup) : (rows'.map Message.id).Nodup := by
  cases h with
  | same => exact hnd
  | insert recipientId messageType content mediaKey mediaMime destructAfter hfresh =>
    exact Table.nodup_append hnd hfresh
  | deliver messageId =>
    rw [Table.map_key_modify (deliver_id now)]
    exact hnd
  | read messageId =>
    rw [Table.map_key_modify (read_id now)]
    exact hnd
  | retract messageId msg htarget hrow howner hwindow =>
    rw [Table.map_key_modify (retract_id now)]
    exact hnd

theorem rowsInv_step (s : System) (a : SystemAction) (s' : System) (h : RowsInv s)
    (hs : systemStep s a = some s') : RowsInv s' := by
  obtain ⟨hnd, hrows⟩ := h
  rcases systemStep_rows hs with ⟨batch, fails, commitOk, rfl⟩ | ⟨-, hnow, -, userId, fresh,
    target, -, hstep⟩
  · obtain ⟨hbatch, rfl⟩ := systemStep_sweep hs
    refine ⟨?_, ?_⟩
    · show ((sweepOnce _ _ _ _ _ _).rows.map Message.id).Nodup
      rw [sweepOnce_map_id]
      exact hnd
    · intro id msg' hmsg'
      change (sweepOnce _ _ _ _ _ _).rows.byId id = some msg' at hmsg'
      rw [sweepOnce_byId hbatch.1] at hmsg'
      obtain ⟨msg, hmsg, rfl⟩ := Option.map_eq_some_iff.mp hmsg'
      split_ifs with hwiped
      · exact rowInv_destroy (hrows id msg hmsg)
          (expired_of_mem_batch hnd hbatch hwiped.2.1 hmsg)
      · exact hrows id msg hmsg
  · refine ⟨rowsStep_nodup hstep hnd, ?_⟩
    intro id msg' hmsg'
    rcases rowsStep_byId hstep hmsg' with ⟨msg, hmsg, hchange⟩ | ⟨-, -, recipientId, messageType,
      content, mediaKey, mediaMime, destructAfter, rfl⟩
    · exact (hchange.inv (hrows id msg hmsg)).mono hnow
    · exact (rowInv_newMessage ..).mono hnow

theorem rowsInv_init (world : World) (bucket : Bucket) : RowsInv (System.init world bucket) := by
  refine ⟨List.nodup_nil, ?_⟩
  intro id msg hmsg
  cases hmsg

/-- Every run keeps the invariant of the table. -/
theorem rowsInv_run {world : World} {bucket : Bucket} {as : List SystemAction}
    (hr : run systemStep (System.init world bucket) as = some s') : RowsInv s' :=
  run_invariant rowsInv_step (rowsInv_init world bucket) hr

end IronLink.Messages
