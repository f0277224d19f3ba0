import IronLink.Messages.System

/-!
# Media objects and the messages that name them

A message names its media by the key the sender's frame gave. The sweep deletes
the object of a message it wipes and looks at no other row; `unsend_message`
wipes the key and leaves the object where it is.

Results:
* `sweep_deletes_shared_media`: a sweep deletes an object another user's live
  message names.
* `sweep_keeps_media_iff`: in every run, a sweep keeps the media of the messages
  it leaves live exactly when none of them shares a key with a message whose
  object it deletes.
* `unsend_leaves_orphan`: after an unsend the object is still in the bucket.
* `noOrphans_of_keepsPointer`: as long as every unsend leaves another pointer, or
  had no object to point to, no object a row once named is left without a row.
-/

namespace IronLink.Messages

open Lib Auth Ws

variable {s s' : System} {batch : List UUID} {fails : UUID → Bool} {commitOk : Bool}

/-! ## Media that other messages need -/

/-- The message still stands: neither destroyed nor retracted. -/
def Message.Live (msg : Message) : Prop := msg.isDestructed = false ∧ msg.deletedForEveryone = false

instance (msg : Message) : Decidable msg.Live := by
  unfold Message.Live
  infer_instance

/-- Every message live after the step whose key named an object before it
    still names one. -/
def MediaKept (s s' : System) : Prop :=
  ∀ id msg msg', s.world.messages.byId id = some msg → s'.world.messages.byId id = some msg' →
    msg'.Live → ∀ key ∈ msg.mediaObjectKey, key ∈ s.bucket →
      ∃ key' ∈ msg'.mediaObjectKey, key' ∈ s'.bucket

/-- The sweep of `batch` leaves the row of `msg` as it is. -/
def Message.Skipped (batch : List UUID) (fails : UUID → Bool) (commitOk : Bool) (msg : Message) :
    Prop := ¬ (commitOk = true ∧ msg.id ∈ batch ∧ wipes fails msg = true)

/-- No live message that the sweep leaves as it is names the object of a message
    whose media it deletes. -/
def SweepDisjoint (s : System) (batch : List UUID) (fails : UUID → Bool) (commitOk : Bool) : Prop :=
  ∀ id ∈ batch, ∀ msg ∈ s.world.messages.byId id, wipes fails msg = true →
    ∀ key ∈ msg.mediaObjectKey, key ∈ s.bucket → ∀ other ∈ s.world.messages,
      other.Live → other.Skipped batch fails commitOk → other.mediaObjectKey ≠ some key

instance (msg : Message) : Decidable (msg.Skipped batch fails commitOk) := by
  unfold Message.Skipped
  infer_instance

instance : Decidable (SweepDisjoint s batch fails commitOk) := by
  unfold SweepDisjoint
  infer_instance

/-- The administrator sends the user an image that stays. The user, who has seen
    its key, sends a message with the same key that destroys itself. -/
def sharedKeyRun : List SystemAction :=
  [.frame 1 "c1" 100 (sampleFrame "image" 7 [("media_key", .str "photo")]),
    .frame 7 "c7" 101
      (sampleFrame "image" 1 [("media_key", .str "photo"), ("destruct_after", .int 1)]),
    .tick 1000000]

def photoBucket : Bucket := ⟨{"photo"}, by decide⟩

theorem sweep_deletes_shared_media :
    ¬ ∀ world bucket as s s' batch fails commitOk,
      run systemStep (System.init world bucket) as = some s →
      systemStep s (.sweep batch fails commitOk) = some s' → MediaKept s s' := by
  intro h
  have hrun : ∃ s ∈ run systemStep (System.init sampleWorld photoBucket) sharedKeyRun,
      ∃ s' ∈ systemStep s (.sweep [101] (fun _ => false) true),
        (∃ msg ∈ s.world.messages.byId 100, msg.mediaObjectKey = some "photo") ∧
        (∃ msg' ∈ s'.world.messages.byId 100, msg'.Live) ∧
        "photo" ∈ s.bucket ∧ s'.bucket.objects = ∅ := by decide +kernel
  obtain ⟨s, hs, s', hs', ⟨msg, hmsg, hkey⟩, ⟨msg', hmsg', hlive⟩, hin, hempty⟩ := hrun
  obtain ⟨key', -, hkey'⟩ :=
    h _ _ _ s s' _ _ _ hs hs' 100 msg msg' hmsg hmsg' hlive "photo" hkey hin
  change key' ∈ s'.bucket.objects at hkey'
  rw [hempty] at hkey'
  exact absurd hkey' (Finset.notMem_empty key')

/-- **When a sweep keeps the media of the others.** In every run. -/
theorem sweep_keeps_media_iff (world : World) (bucket : Bucket) (as : List SystemAction)
    (s s' : System) (batch : List UUID) (fails : UUID → Bool) (commitOk : Bool)
    (hr : run systemStep (System.init world bucket) as = some s)
    (hs : systemStep s (.sweep batch fails commitOk) = some s') :
    MediaKept s s' ↔ SweepDisjoint s batch fails commitOk := by
  obtain ⟨hnd, -⟩ := rowsInv_run hr
  have hobj : ∀ k, k ∈ s'.bucket ↔ k ∈ s.bucket ∧ ∀ id ∈ batch,
      ∀ msg ∈ s.world.messages.byId id, wipes fails msg → msg.mediaObjectKey ≠ some k := by
    obtain ⟨hbatch, rfl⟩ := systemStep_sweep hs
    exact mem_sweepOnce_bucket hbatch.1
  constructor
  · intro hkept id hid msg hmsg hwipes key hkey hin other hother hlive hskip hshared
    have hbefore : s.world.messages.byId other.id = some other := Table.find_of_mem hnd hother
    have hafter := systemStep_sweep_byId hs hbefore
    rw [if_neg hskip] at hafter
    obtain ⟨key', hkey', hin'⟩ := hkept other.id other other hbefore hafter hlive key hshared hin
    rw [hshared] at hkey'
    rw [← Option.some.inj hkey'] at hin'
    exact ((hobj key).mp hin').2 id hid msg hmsg hwipes hkey
  · intro hdisjoint id msg msg' hmsg hmsg' hlive key hkey hin
    rw [systemStep_sweep_byId hs hmsg] at hmsg'
    have hid := MessageRows.byId_id hmsg
    split_ifs at hmsg' with hwiped
    · -- a destroyed message is not live
      rw [← Option.some.inj hmsg'] at hlive
      exact absurd hlive.1 (by simp [destroy])
    · obtain rfl := Option.some.inj hmsg'
      refine ⟨key, hkey, (hobj key).mpr ⟨hin, ?_⟩⟩
      intro id' hid' msg'' hmsg'' hwipes hshared
      refine hdisjoint id' hid' msg'' hmsg'' hwipes key hshared hin msg (Table.find_mem hmsg) hlive
        ?_ hkey
      unfold Message.Skipped
      rw [hid]
      exact hwiped

/-- Two messages with objects of their own: the sweep destroys one and keeps the
    media of the other. -/
theorem sweep_keeps_media_own_keys :
    ∃ s ∈ run systemStep (System.init sampleWorld ⟨{"photo", "clip"}, by decide⟩)
        [.frame 1 "c1" 100 (sampleFrame "image" 7 [("media_key", .str "photo")]),
          .frame 7 "c7" 101
            (sampleFrame "file" 1 [("media_key", .str "clip"), ("destruct_after", .int 1)]),
          .tick 1000000],
      ∃ s' ∈ systemStep s (.sweep [101] (fun _ => false) true),
        s'.bucket.objects = {"photo"} ∧ MediaKept s s' := by
  have hrun : ∃ s ∈ run systemStep (System.init sampleWorld ⟨{"photo", "clip"}, by decide⟩)
        [.frame 1 "c1" 100 (sampleFrame "image" 7 [("media_key", .str "photo")]),
          .frame 7 "c7" 101
            (sampleFrame "file" 1 [("media_key", .str "clip"), ("destruct_after", .int 1)]),
          .tick 1000000],
      ∃ s' ∈ systemStep s (.sweep [101] (fun _ => false) true),
        s'.bucket.objects = {"photo"} ∧ SweepDisjoint s [101] (fun _ => false) true := by
    decide +kernel
  obtain ⟨s, hs, s', hs', hobjects, hdisjoint⟩ := hrun
  exact ⟨s, hs, s', hs', hobjects,
    (sweep_keeps_media_iff _ _ _ s s' _ _ _ hs hs').mpr hdisjoint⟩

/-! ## Objects that no message names any more -/

/-- Some row names the object. -/
def Named (rows : MessageRows) (key : String) : Prop := ∃ msg ∈ rows, msg.mediaObjectKey = some key

/-- Every object that a row has named is still named by a row. -/
def NoOrphans (s : System) : Prop :=
  ∀ key, key ∈ s.bucket → key ∈ s.named → Named s.world.messages key

/-- No storage call of the step fails. -/
def StorageOk (_ : System) : SystemAction → Prop
  | .sweep batch fails _ => ∀ id ∈ batch, fails id = false
  | _ => True

/-- If the message an action may retract names an object, so does another one. -/
def KeepsPointer (s : System) (a : SystemAction) : Prop :=
  ∀ p ∈ a.target, ∀ msg ∈ s.world.messages.byId p.2, msg.senderId = some p.1 →
    s.world.now - msg.createdAt ≤ UNSEND_WINDOW → ∀ key ∈ msg.mediaObjectKey, key ∈ s.bucket →
      ∃ other ∈ s.world.messages, other.id ≠ p.2 ∧ other.mediaObjectKey = some key

instance (s : System) : (a : SystemAction) → Decidable (StorageOk s a)
  | .sweep batch fails _ => inferInstanceAs (Decidable (∀ id ∈ batch, fails id = false))
  | .frame _ _ _ _ => isTrue trivial
  | .receipt _ _ _ => isTrue trivial
  | .tick _ => isTrue trivial

instance (s : System) (a : SystemAction) : Decidable (KeepsPointer s a) := by
  unfold KeepsPointer
  infer_instance

/-- The user sends a photo and retracts it: the photo stays in the bucket. -/
theorem unsend_leaves_orphan :
    ¬ ∀ world bucket as s, Guarded systemStep StorageOk (System.init world bucket) as →
      run systemStep (System.init world bucket) as = some s → NoOrphans s := by
  intro h
  have hrun : ∃ s ∈ run systemStep (System.init sampleWorld photoBucket)
      [.frame 7 "c7" 100 (sampleFrame "image" 1 [("media_key", .str "photo")]),
        .frame 7 "c7" 101 [("type", .str "unsend"), ("message_id", .str (UUID.str 100))]],
      "photo" ∈ s.bucket ∧ "photo" ∈ s.named ∧
        ∀ msg ∈ s.world.messages, msg.mediaObjectKey ≠ some "photo" := by decide +kernel
  obtain ⟨s, hs, hin, hnamed, hnone⟩ := hrun
  obtain ⟨msg, hmsg, hkey⟩ := h _ _ _ s (by decide +kernel) hs "photo" hin hnamed
  exact hnone msg hmsg hkey

theorem mem_keysOf {rows : MessageRows} {key : String} : key ∈ keysOf rows ↔ Named rows key := by
  unfold keysOf Named
  rw [List.mem_toFinset, List.mem_filterMap]

/-- An update that changes no key keeps every object named. -/
theorem Named.modify {rows : MessageRows} {key : String} (h : Named rows key)
    {f : Message → Message} (hf : ∀ msg, (f msg).mediaObjectKey = msg.mediaObjectKey) (id : UUID) :
    Named (Table.modify Message.id rows id f) key := by
  obtain ⟨msg, hmsg, hkey⟩ := h
  refine ⟨if msg.id = id then f msg else msg, List.mem_map_of_mem hmsg, ?_⟩
  split_ifs
  · rw [hf]
    exact hkey
  · exact hkey

/-- An update of one row keeps what another row names. -/
theorem Named.modify_of_ne {rows : MessageRows} {key : String} {id : UUID} {f : Message → Message}
    (h : ∃ msg ∈ rows, msg.id ≠ id ∧ msg.mediaObjectKey = some key) :
    Named (Table.modify Message.id rows id f) key := by
  obtain ⟨msg, hmsg, hne, hkey⟩ := h
  refine ⟨if msg.id = id then f msg else msg, List.mem_map_of_mem hmsg, ?_⟩
  rw [if_neg hne]
  exact hkey

/-- What a frame or a receipt leaves named, when a retraction keeps a pointer. -/
theorem named_rowsStep {now : Time} {userId : UUID} {fresh : NewRow} {target : Option UUID}
    {rows rows' : MessageRows} (hnd : (rows.map Message.id).Nodup)
    (h : RowsStep now userId fresh target rows rows') {key : String} (hnamed : Named rows key)
    (hkeep : ∀ id, target = some id → ∀ msg ∈ rows.byId id, msg.senderId = some userId →
      now - msg.createdAt ≤ UNSEND_WINDOW → msg.mediaObjectKey = some key →
      ∃ other ∈ rows, other.id ≠ id ∧ other.mediaObjectKey = some key) : Named rows' key := by
  cases h with
  | same => exact hnamed
  | insert recipientId messageType content mediaKey mediaMime destructAfter hfresh =>
    obtain ⟨msg, hmsg, hkey⟩ := hnamed
    exact ⟨msg, List.mem_append_left _ hmsg, hkey⟩
  | deliver messageId =>
    exact hnamed.modify (fun msg => (rfl : (deliver now msg).mediaObjectKey = _)) messageId
  | read messageId => exact hnamed.modify (fun msg => (read_fields now msg).2.2.2.2.1) messageId
  | retract messageId row htarget hrow howner hwindow =>
    obtain ⟨msg, hmsg, hkey⟩ := hnamed
    by_cases hid : msg.id = messageId
    · -- the retracted row itself: another one names the object
      have hfind := Table.find_of_mem hnd hmsg
      rw [hid] at hfind
      obtain rfl := Option.some.inj (hrow.symm.trans hfind)
      exact Named.modify_of_ne (hkeep messageId htarget row hrow howner hwindow hkey)
    · exact Named.modify_of_ne ⟨msg, hmsg, hid, hkey⟩

/-- An object that survives a sweep is named by a row that does; a message whose
    deletion fails keeps its key. -/
theorem named_sweepOnce {now : Time} {rows : MessageRows} {bucket : Bucket} (hnd : batch.Nodup)
    (hids : (rows.map Message.id).Nodup) {key : String}
    (hin : key ∈ (sweepOnce now rows bucket batch fails commitOk).bucket)
    (hnamed : Named rows key) :
    Named (sweepOnce now rows bucket batch fails commitOk).rows key := by
  obtain ⟨-, hdeleted⟩ := (mem_sweepOnce_bucket hnd key).mp hin
  obtain ⟨msg, hmsg, hkey⟩ := hnamed
  have hfind : rows.byId msg.id = some msg := Table.find_of_mem hids hmsg
  have hafter : MessageRows.byId (sweepOnce now rows bucket batch fails commitOk).rows msg.id = _ :=
    sweepOnce_byId hnd msg.id
  rw [hfind, Option.map_some, if_neg] at hafter
  · exact ⟨msg, Table.find_mem hafter, hkey⟩
  · rintro ⟨-, hbatch, hwipes⟩
    exact hdeleted msg.id hbatch msg hfind hwipes hkey

theorem noOrphans_step (s : System) (a : SystemAction) (s' : System)
    (h : RowsInv s ∧ NoOrphans s) (hkeep : KeepsPointer s a)
    (hs : systemStep s a = some s') : RowsInv s' ∧ NoOrphans s' := by
  obtain ⟨hrows, hno⟩ := h
  refine ⟨rowsInv_step s a s' hrows hs, ?_⟩
  intro key hin hnamed
  rcases systemStep_rows hs with ⟨batch, fails, commitOk, rfl⟩ | ⟨hbucket, -, hnames, userId,
    fresh, target, htarget, hstep⟩
  · obtain ⟨hbatch, rfl⟩ := systemStep_sweep hs
    rcases Finset.mem_union.mp hnamed with hnamed | hnamed
    · have hbefore : key ∈ s.bucket := ((mem_sweepOnce_bucket hbatch.1 key).mp hin).1
      exact named_sweepOnce hbatch.1 hrows.1 hin (hno key hbefore hnamed)
    · exact mem_keysOf.mp hnamed
  · rcases Finset.mem_union.mp (hnames hnamed) with hnamed | hnamed
    · rw [hbucket] at hin
      refine named_rowsStep hrows.1 hstep (hno key hin hnamed) ?_
      intro id hid msg hmsg howner hwindow hkey
      exact hkeep (userId, id) (htarget id hid) msg hmsg howner hwindow key hkey hin
    · exact mem_keysOf.mp hnamed

/-- **Retracted media is gone.** In every run in which every retraction of a
    message that names an object leaves another message that names it; whether
    storage calls fail does not matter. -/
theorem noOrphans_of_keepsPointer (world : World) (bucket : Bucket) (as : List SystemAction)
    (s : System) (hg : Guarded systemStep KeepsPointer (System.init world bucket) as)
    (hr : run systemStep (System.init world bucket) as = some s) : NoOrphans s := by
  have hinit : NoOrphans (System.init world bucket) := by
    intro key _ hnamed
    exact absurd hnamed (Finset.notMem_empty key)
  exact (hg.invariant noOrphans_step ⟨rowsInv_init world bucket, hinit⟩ hr).2

/-- A photo that destroys itself and a text that is retracted. -/
theorem noOrphans_photo_and_text :
    ∃ s ∈ run systemStep (System.init sampleWorld photoBucket)
        [.frame 7 "c7" 100
            (sampleFrame "image" 1 [("media_key", .str "photo"), ("destruct_after", .int 1)]),
          .frame 7 "c7" 101 (sampleFrame "text" 1 [("content", .str "hello")]), .tick 1000000,
          .frame 7 "c7" 102 [("type", .str "unsend"), ("message_id", .str (UUID.str 101))],
          .sweep [100] (fun _ => false) true],
      s.bucket.objects = ∅ ∧ NoOrphans s := by
  have hrun : ∃ s ∈ run systemStep (System.init sampleWorld photoBucket)
      [.frame 7 "c7" 100
          (sampleFrame "image" 1 [("media_key", .str "photo"), ("destruct_after", .int 1)]),
        .frame 7 "c7" 101 (sampleFrame "text" 1 [("content", .str "hello")]), .tick 1000000,
        .frame 7 "c7" 102 [("type", .str "unsend"), ("message_id", .str (UUID.str 101))],
        .sweep [100] (fun _ => false) true],
      s.bucket.objects = ∅ := by decide +kernel
  obtain ⟨s, hs, hempty⟩ := hrun
  exact ⟨s, hs, hempty, noOrphans_of_keepsPointer _ _ _ s (by decide +kernel) hs⟩

end IronLink.Messages
