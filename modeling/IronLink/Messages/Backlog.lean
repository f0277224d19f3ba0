import IronLink.Messages.Burn
import IronLink.Messages.SweepReport

/-!
# The backlog of the sweeps

A sweep takes any `BATCH_SIZE` of the expired messages
(app/services/self_destruct_worker.py:58-117), and wipes those whose media can be deleted. So a
message can be left out of sweep after sweep, but each of these has wiped others in its place.

Results:
* `sweep_wipes`: a sweep wipes what can be wiped of the backlog, or of a full batch.
* `sweeps_catch_up`: what can be said of a message that has expired, after any number of sweeps.
-/

namespace IronLink.Messages

open Lib Auth Ws

/-! ## Statements -/

def SystemAction.isSweep : SystemAction → Bool
  | .sweep .. => true
  | _ => false

/-- The number of destroyed messages. -/
def destroyed (rows : MessageRows) : ℕ := rows.countP Message.isDestructed

/-- A sweep commits, and fails to delete only the objects `broken`, which at most `stuck` of the
    expired messages have. -/
def SweepWorks (broken : String → Bool) (stuck : ℕ) (s : System) : SystemAction → Prop
  | .sweep _ fails commitOk => commitOk = true ∧
      (∀ msg ∈ expired s.world.messages s.world.now, isStuck broken msg = false →
        wipes fails msg = true) ∧
      (expired s.world.messages s.world.now).countP (isStuck broken) ≤ stuck
  | _ => True

/-! ## One sweep -/

section Sweep

variable {now : Time} {rows : MessageRows} {bucket : Bucket} {fails : UUID → Bool}
  {batch : List UUID} {broken : String → Bool} {stuck : ℕ}

/-- The rows of a batch. -/
theorem countP_batch (hkeys : (rows.map Message.id).Nodup) (hbatch : IsBatch rows now batch) :
    rows.countP (fun msg => decide (msg.id ∈ batch)) = batch.length := by
  have hperm : ((rows.filter fun msg => decide (msg.id ∈ batch)).map Message.id).Perm batch := by
    refine (List.perm_ext_iff_of_nodup (hkeys.sublist (List.filter_sublist.map _))
      hbatch.1).mpr fun id => ?_
    rw [List.mem_map]
    constructor
    · rintro ⟨msg, hmsg, rfl⟩
      exact of_decide_eq_true (List.mem_filter.mp hmsg).2
    · intro hid
      obtain ⟨msg, hmsg, rfl⟩ := List.mem_map.mp (hbatch.2.1 id hid)
      exact ⟨msg, List.mem_filter.mpr ⟨(mem_expired.mp hmsg).1, decide_eq_true hid⟩, rfl⟩
  rw [List.countP_eq_length_filter, ← hperm.length_eq, List.length_map]

/-- What a sweep adds to the destroyed messages. -/
theorem destroyed_sweepOnce (hkeys : (rows.map Message.id).Nodup)
    (hbatch : IsBatch rows now batch) :
    destroyed (sweepOnce now rows bucket batch fails true).rows =
      destroyed rows + rows.countP fun msg => decide (msg.id ∈ batch) && wipes fails msg := by
  have hrows : ∀ msg ∈ rows, msg.id ∈ batch → msg.isDestructed = false := by
    intro msg hmsg hid
    have hfind : rows.byId msg.id = some msg := Table.find_of_mem hkeys hmsg
    exact (mem_expired.mp (expired_of_mem_batch hkeys hbatch hid hfind)).2.1
  unfold destroyed
  rw [sweepOnce_rows hkeys hbatch.1, List.countP_map]
  clear hkeys hbatch
  induction rows with
  | nil => rfl
  | cons msg rows ih =>
    obtain ⟨hfirst, hrest⟩ := List.forall_mem_cons.mp hrows
    rw [List.countP_cons, List.countP_cons, List.countP_cons, ih hrest]
    by_cases hid : msg.id ∈ batch
    · by_cases hwipes : wipes fails msg = true
      · simp [hid, hwipes, hfirst hid, destroy]
        omega
      · simp [hid, hwipes, hfirst hid]
    · simp [hid]
      omega

theorem countP_le_add {α : Type} {p q r : α → Bool} {xs : List α}
    (h : ∀ x ∈ xs, p x = true → q x = true ∨ r x = true) :
    xs.countP p ≤ xs.countP q + xs.countP r := by
  induction xs with
  | nil => exact Nat.zero_le _
  | cons x xs ih =>
    obtain ⟨hx, hxs⟩ := List.forall_mem_cons.mp h
    have hrest := ih hxs
    simp only [List.countP_cons]
    by_cases hp : p x = true
    · obtain hq | hr := hx hp
      · rw [if_pos hp, if_pos hq]
        omega
      · rw [if_pos hp, if_pos hr]
        omega
    · rw [if_neg hp]
      omega

/-- Of a batch at most the stuck messages are left. -/
theorem batch_le_wiped (hkeys : (rows.map Message.id).Nodup) (hbatch : IsBatch rows now batch)
    (hworks : ∀ msg ∈ expired rows now, isStuck broken msg = false → wipes fails msg = true)
    (hstuck : (expired rows now).countP (isStuck broken) ≤ stuck) :
    batch.length ≤
      (rows.countP fun msg => decide (msg.id ∈ batch) && wipes fails msg) + stuck := by
  have hexpired : ∀ msg ∈ rows, msg.id ∈ batch → msg ∈ expired rows now := fun msg hmsg hid =>
    expired_of_mem_batch hkeys hbatch hid (Table.find_of_mem hkeys hmsg)
  rw [← countP_batch hkeys hbatch]
  refine (countP_le_add (q := fun msg => decide (msg.id ∈ batch) && wipes fails msg)
    (r := fun msg => isStuck broken msg && decide (msg.id ∈ batch)) fun msg hmsg hid => ?_).trans
    (Nat.add_le_add_left ?_ _)
  · rw [hid, Bool.true_and, Bool.and_true]
    cases hfree : isStuck broken msg with
    | true => exact .inr rfl
    | false => exact .inl (hworks msg (hexpired msg hmsg (of_decide_eq_true hid)) hfree)
  · refine Nat.le_trans ?_ hstuck
    unfold expired
    rw [List.countP_filter]
    refine List.countP_mono_left fun msg hmsg hboth => ?_
    rw [Bool.and_eq_true] at hboth ⊢
    refine ⟨hboth.1, ?_⟩
    exact (List.mem_filter.mp (hexpired msg hmsg (of_decide_eq_true hboth.2))).2

/-- A sweep wipes every message that it can, or as many as a full batch has of these. -/
theorem sweep_wipes (bucket : Bucket) (hkeys : (rows.map Message.id).Nodup)
    (hbatch : IsBatch rows now batch)
    (hworks : ∀ msg ∈ expired rows now, isStuck broken msg = false → wipes fails msg = true)
    (hstuck : (expired rows now).countP (isStuck broken) ≤ stuck) :
    (∀ msg ∈ expired rows now, isStuck broken msg = false →
        msg.id ∈ batch ∧ wipes fails msg = true) ∨
      destroyed rows + (BATCH_SIZE - stuck) ≤
        destroyed (sweepOnce now rows bucket batch fails true).rows := by
  by_cases hfits : (expired rows now).length ≤ BATCH_SIZE
  · exact .inl fun msg hmsg hfree => ⟨mem_batch_of_expired hbatch hfits hmsg, hworks msg hmsg hfree⟩
  · right
    have hwiped := batch_le_wiped hkeys hbatch hworks hstuck
    have hlength := hbatch.2.2
    rw [destroyed_sweepOnce hkeys hbatch]
    omega

end Sweep

/-! ## The other steps -/

section Steps

variable {s s' : System} {a : SystemAction} {id : UUID} {msg msg' : Message}
  {broken : String → Bool} {stuck : ℕ}

theorem RowChange.isDestructed {now : Time} (h : RowChange now msg msg') :
    msg'.isDestructed = msg.isDestructed := by
  cases h with
  | same => rfl
  | deliver => rfl
  | read => exact (read_fields now msg).2.1
  | retract => rfl

theorem RowChange.destructAt {now : Time} (h : RowChange now msg msg') (hrow : RowInv now msg) :
    msg'.destructAt = msg.destructAt := by
  cases h with
  | same => rfl
  | deliver => rfl
  | read => exact read_destructAt hrow
  | retract => rfl

/-- A message without broken media does not come to have some. -/
theorem RowChange.isStuck {now : Time} (h : RowChange now msg msg')
    (hfree : isStuck broken msg = false) : Messages.isStuck broken msg' = false := by
  cases h with
  | same => exact hfree
  | deliver => exact hfree
  | read =>
    unfold Messages.isStuck at hfree ⊢
    rw [(read_fields now msg).2.2.2.2.1]
    exact hfree
  | retract => rfl

theorem destroyed_modify {rows : MessageRows} {f : Message → Message}
    (hf : ∀ msg, (f msg).isDestructed = msg.isDestructed) (k : UUID) :
    destroyed (Table.modify Message.id rows k f) = destroyed rows := by
  unfold destroyed Table.modify
  rw [List.countP_map]
  refine List.countP_congr fun msg _ => ?_
  show (if msg.id = k then f msg else msg).isDestructed = true ↔ _
  split_ifs
  · rw [hf]
  · rfl

/-- Only sweeps destroy. -/
theorem destroyed_rowsStep {now : Time} {userId : UUID} {fresh : NewRow} {target : Option UUID}
    {rows rows' : MessageRows} (h : RowsStep now userId fresh target rows rows') :
    destroyed rows' = destroyed rows := by
  cases h with
  | same => rfl
  | insert recipientId messageType content mediaKey mediaMime destructAfter hfresh =>
    unfold destroyed
    rw [List.countP_append]
    rfl
  | deliver messageId => exact destroyed_modify (f := deliver now) (fun _ => rfl) messageId
  | read messageId => exact destroyed_modify (fun msg => (read_fields now msg).2.1) messageId
  | retract messageId msg htarget hrow howner hwindow =>
    exact destroyed_modify (f := retract now) (fun _ => rfl) messageId

/-- A destroyed message stays so. -/
theorem destructed_step (hmsg : s.world.messages.byId id = some msg)
    (hd : msg.isDestructed = true) (hs : systemStep s a = some s') :
    ∃ msg', s'.world.messages.byId id = some msg' ∧ msg'.isDestructed = true := by
  rcases systemStep_rows hs with ⟨batch, fails, commitOk, rfl⟩ | ⟨-, -, -, userId, fresh,
    target, -, hstep⟩
  · refine ⟨_, systemStep_sweep_byId hs hmsg, ?_⟩
    split_ifs
    · rfl
    · exact hd
  · obtain ⟨msg', hmsg', hchange⟩ := rowsStep_byId_of_some hstep hmsg
    exact ⟨msg', hmsg', hchange.isDestructed.trans hd⟩

/-- The message can be wiped by the next sweep. -/
structure Due (broken : String → Bool) (s : System) (msg : Message) : Prop where
  expired : msg ∈ expired s.world.messages s.world.now
  free : isStuck broken msg = false

theorem isSweep_iff :
    a.isSweep = true ↔ ∃ batch fails commitOk, a = .sweep batch fails commitOk := by
  constructor
  · intro h
    cases a with
    | sweep batch fails commitOk => exact ⟨batch, fails, commitOk, rfl⟩
    | frame => cases h
    | receipt => cases h
    | tick => cases h
  · rintro ⟨batch, fails, commitOk, rfl⟩
    rfl

/-- After a step a message that is due is destroyed, or still due, and then a sweep has wiped a
    batch of others. -/
theorem due_step (hinv : RowsInv s) (hworks : SweepWorks broken stuck s a) (h : Due broken s msg)
    (hs : systemStep s a = some s') :
    (∃ msg', s'.world.messages.byId msg.id = some msg' ∧ msg'.isDestructed = true) ∨
      ∃ msg', msg'.id = msg.id ∧ Due broken s' msg' ∧
        destroyed s.world.messages + (if a.isSweep then BATCH_SIZE - stuck else 0) ≤
          destroyed s'.world.messages := by
  obtain ⟨hkeys, hrows⟩ := hinv
  obtain ⟨hmem, hkept, d, hd, hle⟩ := mem_expired.mp h.expired
  have hmsg : s.world.messages.byId msg.id = some msg := Table.find_of_mem hkeys hmem
  by_cases hsweep : a.isSweep = true
  · obtain ⟨batch, fails, commitOk, rfl⟩ := isSweep_iff.mp hsweep
    obtain ⟨rfl, hdelete, hstuck⟩ := hworks
    have hrow := systemStep_sweep_byId hs hmsg
    obtain ⟨hbatch, rfl⟩ := systemStep_sweep hs
    obtain hall | hmany := sweep_wipes s.bucket hkeys hbatch hdelete hstuck
    · rw [if_pos ⟨rfl, hall msg h.expired h.free⟩] at hrow
      exact .inl ⟨_, hrow, rfl⟩
    · split_ifs at hrow with hwiped
      · exact .inl ⟨_, hrow, rfl⟩
      · refine .inr ⟨msg, rfl, ⟨?_, h.free⟩, hmany⟩
        exact mem_expired.mpr ⟨Table.find_mem hrow, hkept, d, hd, hle⟩
  · obtain hswept | ⟨-, hnow, -, userId, fresh, target, -, hstep⟩ := systemStep_rows hs
    · exact absurd (isSweep_iff.mpr hswept) hsweep
    obtain ⟨msg', hmsg', hchange⟩ := rowsStep_byId_of_some hstep hmsg
    refine .inr ⟨msg', MessageRows.byId_id hmsg', ⟨?_, hchange.isStuck h.free⟩, ?_⟩
    · refine mem_expired.mpr ⟨Table.find_mem hmsg', hchange.isDestructed.trans hkept, d, ?_,
        hle.trans hnow⟩
      exact (hchange.destructAt (hrows _ _ hmsg)).trans hd
    · rw [destroyed_rowsStep hstep, if_neg hsweep]
      exact le_rfl

/-- The rest of a run in which sweeps work. -/
theorem due_run {as : List SystemAction} (hinv : RowsInv s)
    (hworks : Guarded systemStep (SweepWorks broken stuck) s as) (h : Due broken s msg)
    (hr : run systemStep s as = some s') :
    (∃ msg', s'.world.messages.byId msg.id = some msg' ∧ msg'.isDestructed = true) ∨
      destroyed s.world.messages + as.countP SystemAction.isSweep * (BATCH_SIZE - stuck) ≤
        destroyed s'.world.messages := by
  induction as generalizing s msg with
  | nil =>
    obtain rfl := Option.some.inj hr
    right
    rw [List.countP_nil, Nat.zero_mul]
    exact le_rfl
  | cons a as ih =>
    obtain ⟨m, hm, hr⟩ := run_cons_some hr
    obtain ⟨hnow, hlater⟩ := hworks
    obtain ⟨msg', hmsg', hd⟩ | ⟨msg', hid, hdue, hcount⟩ := due_step hinv hnow h hm
    · -- it is destroyed at once
      left
      refine run_invariant (I := fun s => ∃ msg', s.world.messages.byId msg.id = some msg' ∧
        msg'.isDestructed = true) (fun s a s' hgone hs => ?_) ⟨msg', hmsg', hd⟩ hr
      obtain ⟨msg', hmsg', hd⟩ := hgone
      exact destructed_step hmsg' hd hs
    · rw [← hid]
      refine (ih (rowsInv_step s a m hinv hm) (hlater m hm) hdue hr).imp_right fun hrest => ?_
      rw [List.countP_cons, Nat.add_mul]
      split_ifs at hcount ⊢
      · rw [Nat.one_mul]
        omega
      · rw [Nat.zero_mul]
        omega

end Steps

/-- **The backlog.** In every run, of a message that has expired and whose media can be deleted: in
    any later state it is destroyed, or every sweep since has wiped at least `BATCH_SIZE` messages
    less those that are stuck, as long as the sweeps commit. -/
theorem sweeps_catch_up (world : World) (bucket : Bucket) (as as' : List SystemAction)
    (s s' : System) (hr : run systemStep (System.init world bucket) as = some s)
    (hr' : run systemStep s as' = some s') (broken : String → Bool) (stuck : ℕ)
    (hworks : Guarded systemStep (SweepWorks broken stuck) s as') (msg : Message)
    (hdue : msg ∈ expired s.world.messages s.world.now) (hfree : isStuck broken msg = false) :
    (∃ msg', s'.world.messages.byId msg.id = some msg' ∧ msg'.isDestructed = true) ∨
      destroyed s.world.messages + as'.countP SystemAction.isSweep * (BATCH_SIZE - stuck) ≤
        destroyed s'.world.messages :=
  due_run (rowsInv_run hr) hworks ⟨hdue, hfree⟩ hr'

/-- The message that is read at once, and the sweep after five seconds. -/
theorem sweeps_catch_up_readAtOnce :
    ∃ s s' msg, run systemStep (System.init sampleWorld .empty) (readAtOnce.take 3) = some s ∧
      run systemStep s [.sweep [100] (fun _ => false) true] = some s' ∧
      msg ∈ expired s.world.messages s.world.now ∧
      ((∃ msg', s'.world.messages.byId msg.id = some msg' ∧ msg'.isDestructed = true) ∨
        destroyed s.world.messages + BATCH_SIZE ≤ destroyed s'.world.messages) := by
  have hrun : ∃ s ∈ run systemStep (System.init sampleWorld .empty) (readAtOnce.take 3),
      ∃ s' ∈ run systemStep s [.sweep [100] (fun _ => false) true],
        ∃ msg ∈ s.world.messages.byId 100, msg ∈ expired s.world.messages s.world.now := by
    decide +kernel
  obtain ⟨s, hs, s', hs', msg, -, hdue⟩ := hrun
  have hnone : ∀ msg, isStuck (fun _ => false) msg = false := fun msg => by simp [isStuck]
  have hworks : Guarded systemStep (SweepWorks (fun _ => false) 0) s
      [.sweep [100] (fun _ => false) true] := by
    refine ⟨⟨rfl, fun msg _ _ => by simp [wipes], ?_⟩, fun _ _ => trivial⟩
    simp [hnone]
  exact ⟨s, s', msg, hs, hs', hdue, sweeps_catch_up sampleWorld .empty _ _ s s' hs hs'
    (fun _ => false) 0 hworks msg hdue (hnone msg)⟩

end IronLink.Messages
