import IronLink.Messages.Service
import Mathlib.Data.Finset.Basic
import Mathlib.Data.List.Perm.Subperm

/-!
# The self-destruct sweep

`SelfDestructWorker.sweep_once` (app/services/self_destruct_worker.py:58-117)
over the `messages` table and the attachments bucket. The rows change at the one
commit after the loop; objects are deleted, and frames published, in the loop.

Results:
* `sweepOnce_byId`, `mem_sweepOnce_bucket`: the loop in closed form, row by row
  and object by object.
* `mem_batch_of_expired`: a batch that is not full holds every expired message.
-/

namespace IronLink.Messages

open Lib Auth

/-! ## Model -/

/-- The attachments bucket, by object key. S3 has no object with an empty key. -/
structure Bucket where
  objects : Finset String
  noEmptyKey : "" ∉ objects

/-- The bucket without objects. -/
def Bucket.empty : Bucket := ⟨∅, Finset.notMem_empty _⟩

/-- `StorageService.delete_object` (app/services/storage_service.py:115-121); a
    missing key is no error. -/
def Bucket.delete (bucket : Bucket) (key : String) : Bucket :=
  ⟨bucket.objects.erase key, fun h => bucket.noEmptyKey (Finset.mem_of_mem_erase h)⟩

instance : Membership String Bucket := ⟨fun bucket key => key ∈ bucket.objects⟩

instance (key : String) (bucket : Bucket) : Decidable (key ∈ bucket) :=
  inferInstanceAs (Decidable (key ∈ bucket.objects))

/-- The `AuditLog` row of a destroyed message
    (app/services/self_destruct_worker.py:99-106). -/
structure AuditLog where
  actorId : Option UUID
  action : String
  resourceType : String
  resourceId : String
  success : Bool
  hadMedia : Bool
  deriving DecidableEq

/-- `BATCH_SIZE` (app/services/self_destruct_worker.py:17). -/
def BATCH_SIZE : ℕ := 500

/-- The `where` clause of the sweep's query. -/
def expired (rows : MessageRows) (now : Time) : MessageRows :=
  rows.filter fun msg => !msg.isDestructed && msg.destructAt.any (· ≤ now)

/-- `batch` is a possible answer of the query: `LIMIT` without `ORDER BY` picks
    any `BATCH_SIZE` of the expired rows. -/
def IsBatch (rows : MessageRows) (now : Time) (batch : List UUID) : Prop :=
  batch.Nodup ∧ (∀ id ∈ batch, id ∈ (expired rows now).map Message.id) ∧
    batch.length = min BATCH_SIZE (expired rows now).length

instance (rows : MessageRows) (now : Time) (batch : List UUID) :
    Decidable (IsBatch rows now batch) := by
  unfold IsBatch
  infer_instance

/-- What the sweep writes to a row (app/services/self_destruct_worker.py:93-97). -/
def destroy (now : Time) (msg : Message) : Message :=
  { msg with
    contentCiphertext := none
    mediaObjectKey := none
    mediaMimeType := none
    isDestructed := true
    deletedAt := some now }

/-- `{"type": "unsend", "message_id": str(msg.id)}`. -/
def unsendEvent (id : UUID) : Frame := [("type", .str "unsend"), ("message_id", .str id.str)]

/-- The variables of the loop. -/
structure Sweep where
  rows : MessageRows
  bucket : Bucket
  audit : List AuditLog
  published : List (UUID × Frame)
  wiped : ℕ

/-- The loop does not `continue` on this message: it has no media, or the
    deletion of its object does not raise. -/
def wipes (fails : UUID → Bool) (msg : Message) : Bool :=
  !(truthyStr msg.mediaObjectKey && fails msg.id)

/-- `if msg.media_object_key: delete_object(…)`, when it does not raise. -/
def Bucket.deleteOf (bucket : Bucket) (msg : Message) : Bucket :=
  match msg.mediaObjectKey with
  | some key => if key ≠ "" then bucket.delete key else bucket
  | none => bucket

/-- The body of the loop (app/services/self_destruct_worker.py:77-113). -/
def sweepMessage (now : Time) (fails : UUID → Bool) (s : Sweep) (id : UUID) : Sweep :=
  match s.rows.byId id with
  | none => s
  | some msg =>
    if wipes fails msg then
      { rows := Table.modify Message.id s.rows id (destroy now)
        bucket := s.bucket.deleteOf msg
        audit := s.audit ++ [{
          actorId := none
          action := "message.self_destructed"
          resourceType := "message"
          resourceId := msg.id.str
          success := true
          -- read back after the pointer has been wiped
          hadMedia := (destroy now msg).mediaObjectKey.isSome }]
        published := s.published ++ msg.recipientId.toList.map (·, unsendEvent msg.id) ++
          msg.senderId.toList.map (·, unsendEvent msg.id)
        wiped := s.wiped + 1 }
    else s

/-- `sweep_once` at `now` on the selected `batch`: `fails` are the messages whose
    deletion raises. Without the commit the rows stay as they were. -/
def sweepOnce (now : Time) (rows : MessageRows) (bucket : Bucket) (batch : List UUID)
    (fails : UUID → Bool) (commitOk : Bool) : Sweep :=
  let s := batch.foldl (sweepMessage now fails) ⟨rows, bucket, [], [], 0⟩
  if commitOk then s else { s with rows := rows, audit := [] }

/-! ## The loop in closed form -/

variable {now : Time} {fails : UUID → Bool} {s : Sweep} {rows : MessageRows} {bucket : Bucket}
  {batch : List UUID} {commitOk : Bool}

@[simp] theorem destroy_id (now : Time) (msg : Message) : (destroy now msg).id = msg.id := rfl

theorem MessageRows.byId_id {id : UUID} {msg : Message} (h : rows.byId id = some msg) :
    msg.id = id := Table.find_key h

theorem Bucket.mem_delete {key k : String} : k ∈ bucket.delete key ↔ k ≠ key ∧ k ∈ bucket :=
  Finset.mem_erase

theorem Bucket.mem_deleteOf {msg : Message} {k : String} :
    k ∈ bucket.deleteOf msg ↔ k ∈ bucket ∧ msg.mediaObjectKey ≠ some k := by
  unfold Bucket.deleteOf
  split
  · rename_i key hkey
    rw [hkey]
    split_ifs with hne
    · rw [Bucket.mem_delete, ne_comm]
      simp [and_comm]
    · -- no object has the empty key
      have hempty : "" ∉ bucket := bucket.noEmptyKey
      have hkey : key = "" := not_not.mp hne
      subst hkey
      constructor
      · intro hk
        refine ⟨hk, ?_⟩
        intro heq
        rw [← Option.some.inj heq] at hk
        exact hempty hk
      · exact fun hk => hk.1
  · rename_i hnone
    simp [hnone]

theorem sweepMessage_byId_self (now : Time) (fails : UUID → Bool) (s : Sweep) (id : UUID) :
    (sweepMessage now fails s id).rows.byId id =
      (s.rows.byId id).map fun msg => if wipes fails msg then destroy now msg else msg := by
  unfold sweepMessage
  split
  · rename_i hnone
    rw [hnone]
    rfl
  · rename_i msg hmsg
    split_ifs with hw
    · show Table.find Message.id _ _ = _
      rw [Table.find_modify_self (destroy_id now)]
      change (s.rows.byId id).map _ = _
      rw [hmsg]
      simp [hw]
    · rw [hmsg]
      simp [hw]

theorem sweepMessage_byId_of_ne {id id' : UUID} (h : id' ≠ id) :
    (sweepMessage now fails s id).rows.byId id' = s.rows.byId id' := by
  unfold sweepMessage
  split
  · rfl
  · split_ifs
    · exact Table.find_modify_of_ne (destroy_id now) _ h
    · rfl

theorem mem_sweepMessage_bucket {id : UUID} {k : String} :
    k ∈ (sweepMessage now fails s id).bucket ↔
      k ∈ s.bucket ∧ ∀ msg ∈ s.rows.byId id, wipes fails msg → msg.mediaObjectKey ≠ some k := by
  unfold sweepMessage
  split
  · rename_i hnone
    simp [hnone]
  · rename_i msg hmsg
    split_ifs with hw
    · rw [Bucket.mem_deleteOf]
      simp [hmsg, hw]
    · simp [hmsg, hw]

/-- The loop wipes exactly the messages of the batch it does not skip. -/
theorem foldl_sweepMessage_byId (hnd : batch.Nodup) (s : Sweep) (id : UUID) :
    (batch.foldl (sweepMessage now fails) s).rows.byId id =
      (s.rows.byId id).map fun msg =>
        if id ∈ batch ∧ wipes fails msg = true then destroy now msg else msg := by
  induction batch generalizing s with
  | nil => simp
  | cons b batch ih =>
    obtain ⟨hb, hnd⟩ := List.nodup_cons.mp hnd
    rw [List.foldl_cons, ih hnd]
    by_cases hid : id = b
    · subst hid
      rw [sweepMessage_byId_self, Option.map_map]
      congr 1
      funext msg
      simp [hb]
    · rw [sweepMessage_byId_of_ne hid]
      simp [hid]

/-- The loop deletes exactly the objects of the messages it wipes. -/
theorem mem_foldl_sweepMessage_bucket (now : Time) (fails : UUID → Bool) (hnd : batch.Nodup)
    (s : Sweep) (k : String) :
    k ∈ (batch.foldl (sweepMessage now fails) s).bucket ↔
      k ∈ s.bucket ∧ ∀ id ∈ batch, ∀ msg ∈ s.rows.byId id, wipes fails msg →
        msg.mediaObjectKey ≠ some k := by
  induction batch generalizing s with
  | nil => simp
  | cons b batch ih =>
    obtain ⟨hb, hnd⟩ := List.nodup_cons.mp hnd
    rw [List.foldl_cons, ih hnd, mem_sweepMessage_bucket, List.forall_mem_cons, and_assoc]
    refine and_congr_right fun _ => and_congr_right fun _ => forall₂_congr fun id hid => ?_
    have hne : id ≠ b := fun h => hb (h ▸ hid)
    rw [sweepMessage_byId_of_ne hne]

theorem sweepOnce_byId (hnd : batch.Nodup) (id : UUID) :
    (sweepOnce now rows bucket batch fails commitOk).rows.byId id =
      (rows.byId id).map fun msg =>
        if commitOk = true ∧ id ∈ batch ∧ wipes fails msg = true then destroy now msg else msg := by
  unfold sweepOnce
  cases commitOk with
  | true =>
    simp only [if_true, true_and]
    exact foldl_sweepMessage_byId hnd _ id
  | false => simp

theorem mem_sweepOnce_bucket (hnd : batch.Nodup) (k : String) :
    k ∈ (sweepOnce now rows bucket batch fails commitOk).bucket ↔
      k ∈ bucket ∧ ∀ id ∈ batch, ∀ msg ∈ rows.byId id, wipes fails msg →
        msg.mediaObjectKey ≠ some k := by
  have h := mem_foldl_sweepMessage_bucket now fails hnd ⟨rows, bucket, [], [], 0⟩ k
  unfold sweepOnce
  cases commitOk with
  | true => exact h
  | false => exact h

theorem sweepMessage_map_id (now : Time) (fails : UUID → Bool) (s : Sweep) (id : UUID) :
    (sweepMessage now fails s id).rows.map Message.id = s.rows.map Message.id := by
  unfold sweepMessage
  split
  · rfl
  · split_ifs
    · exact Table.map_key_modify (destroy_id now) _ _
    · rfl

theorem foldl_sweepMessage_map_id (now : Time) (fails : UUID → Bool) (batch : List UUID)
    (s : Sweep) :
    (batch.foldl (sweepMessage now fails) s).rows.map Message.id = s.rows.map Message.id := by
  induction batch generalizing s with
  | nil => rfl
  | cons b batch ih => rw [List.foldl_cons, ih, sweepMessage_map_id]

/-- A sweep adds and removes no row. -/
theorem sweepOnce_map_id :
    (sweepOnce now rows bucket batch fails commitOk).rows.map Message.id = rows.map Message.id := by
  unfold sweepOnce
  cases commitOk with
  | true => exact foldl_sweepMessage_map_id now fails batch ⟨rows, bucket, [], [], 0⟩
  | false => rfl

/-! ## What the query selects -/

theorem mem_expired {msg : Message} :
    msg ∈ expired rows now ↔
      msg ∈ rows ∧ msg.isDestructed = false ∧ ∃ d, msg.destructAt = some d ∧ d ≤ now := by
  unfold expired
  rw [List.mem_filter]
  simp [Option.any_eq_true]

/-- A message of the batch is expired. -/
theorem expired_of_mem_batch (hnd : (rows.map Message.id).Nodup) (h : IsBatch rows now batch)
    {id : UUID} (hid : id ∈ batch) {msg : Message} (hmsg : rows.byId id = some msg) :
    msg ∈ expired rows now := by
  obtain ⟨msg', hmsg', rfl⟩ := List.mem_map.mp (h.2.1 id hid)
  have hfind := Table.find_of_mem hnd (mem_expired.mp hmsg').1
  rw [← Option.some.inj (hfind.symm.trans hmsg)]
  exact hmsg'

/-- A batch holds every expired message when they are no more than `BATCH_SIZE`. -/
theorem mem_batch_of_expired (h : IsBatch rows now batch)
    (hle : (expired rows now).length ≤ BATCH_SIZE) {msg : Message} (hmsg : msg ∈ expired rows now) :
    msg.id ∈ batch := by
  obtain ⟨hnd, hsub, hlen⟩ := h
  have hsp : batch.Subperm ((expired rows now).map Message.id) := List.subperm_of_subset hnd hsub
  have hperm := hsp.perm_of_length_le (by
    rw [List.length_map, hlen]
    omega)
  exact hperm.mem_iff.mpr (List.mem_map_of_mem hmsg)

end IronLink.Messages
