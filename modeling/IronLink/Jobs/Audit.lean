import IronLink.Jobs.Step

/-!
# One audit row for each destroyed message

Sweeps select without locking and commit at the end, so two of them may hold the
same message. The audit rows are inserted at the commit whatever has happened to
the message since.

Results:
* `auditExact_iff`: the audit log has one row for each destroyed message, and none
  for the others, throughout exactly the runs in which no sweep commits a message
  that another one has destroyed since.
* `twoSweeps_twoLogs`: two overlapping sweeps leave two rows.
-/

namespace IronLink.Jobs

open Lib Auth Messages Ws

/-! ## The guarantee -/

/-- A `message.self_destructed` row about the message. -/
def isDestructedLog (id : UUID) (log : AuditLog) : Bool :=
  decide (log.action = "message.self_destructed") && decide (log.resourceId = id.str)

/-- The number of `message.self_destructed` rows about a message. -/
def destructedLogs (audit : List AuditLog) (id : UUID) : ℕ := audit.countP (isDestructedLog id)

/-- One audit row for each destroyed message, none for any other. -/
def AuditExact (server : Server) : Prop :=
  ∀ id, destructedLogs server.audit id =
    if isDestructed server.world.messages id then 1 else 0

/-- The messages the next step of the job destroys, when it succeeds. -/
def Job.committing : Job → List Message
  | .sweep ⟨_, [], [], wiped⟩ => wiped
  | _ => []

theorem Job.eq_of_mem_committing {job : Job} {msg : Message} (h : msg ∈ job.committing) :
    ∃ now wiped, job = .sweep ⟨now, [], [], wiped⟩ ∧ msg ∈ wiped := by
  unfold Job.committing at h
  split at h
  · exact ⟨_, _, rfl, h⟩
  · cases h

/-- A sweep commits only messages that no other one has destroyed. -/
def WipedOnce (server : Server) : JobAction → Prop
  | .next k true => ∀ job ∈ server.jobs[k]?, ∀ msg ∈ job.committing,
      isDestructed server.world.messages msg.id = false
  | _ => True

instance (server : Server) : ∀ action, Decidable (WipedOnce server action)
  | .next k true => inferInstanceAs (Decidable (∀ job ∈ server.jobs[k]?, ∀ msg ∈ job.committing,
      isDestructed server.world.messages msg.id = false))
  | .next _ false | .frame .. | .setUserStatus .. | .sweep _ | .stop _ | .tick _ => isTrue trivial

/-! ## Counting audit rows -/

theorem destructedLogs_append (audit audit' : List AuditLog) (id : UUID) :
    destructedLogs (audit ++ audit') id = destructedLogs audit id + destructedLogs audit' id :=
  List.countP_append ..

theorem isDestructedLog_destructedLog (now : Time) (msg : Message) (id : UUID) :
    isDestructedLog id (destructedLog now msg) = decide (msg.id = id) := by
  have haction : decide ((destructedLog now msg).action = "message.self_destructed") = true :=
    decide_eq_true rfl
  unfold isDestructedLog
  rw [haction, Bool.true_and, decide_eq_decide]
  exact ⟨UUID.str_injective, fun h => congrArg UUID.str h⟩

theorem destructedLogs_cons (now : Time) (msg : Message) (audit : List AuditLog) (id : UUID) :
    destructedLogs (destructedLog now msg :: audit) id =
      destructedLogs audit id + if msg.id = id then 1 else 0 := by
  unfold destructedLogs
  rw [List.countP_cons, isDestructedLog_destructedLog]
  by_cases hid : msg.id = id
  · simp [hid]
  · simp [hid]

/-- The rows of a commit: one for each message, when no message is listed twice. -/
theorem destructedLogs_wiped (now : Time) {wiped : List Message}
    (hnd : (wiped.map Message.id).Nodup) (id : UUID) :
    destructedLogs (wiped.map (destructedLog now)) id =
      if id ∈ wiped.map Message.id then 1 else 0 := by
  induction wiped with
  | nil => rfl
  | cons msg wiped ih =>
    rw [List.map_cons] at hnd
    obtain ⟨hnot, hnd⟩ := List.nodup_cons.mp hnd
    rw [List.map_cons, destructedLogs_cons, ih hnd]
    by_cases hid : msg.id = id
    · subst hid
      rw [if_neg hnot]
      simp
    · have hne : ¬ id = msg.id := fun h => hid h.symm
      simp [hid, hne]

/-! ## The invariant -/

structure AuditInv (server : Server) : Prop where
  exact : AuditExact server
  runs : SweepsInv server

/-- A frame destroys nothing and logs nothing. -/
theorem AuditExact.frame {server : Server} (h : AuditExact server) (userId : UUID)
    (connectionId : String) (fresh : NewRow) (frame : Frame) (commitOk : Bool) :
    AuditExact (frameJob server userId connectionId fresh frame commitOk) := by
  unfold frameJob
  simp only
  split_ifs with hcommit
  · intro id
    rw [rowsStep_isDestructed (handleFrame_rows server.world userId connectionId fresh frame) id]
    exact h id
  · exact h

/-- Whether a message is destroyed after the commit of a sweep. -/
theorem isDestructed_commitSweep (run : SweepRun) (rows : MessageRows) {id : UUID} :
    isDestructed (commitSweep run rows) id =
      (isDestructed rows id || decide ((rows.byId id).isSome ∧ id ∈ run.wiped.map Message.id)) := by
  unfold isDestructed
  rw [commitSweep_byId]
  cases rows.byId id with
  | none => rfl
  | some row =>
    rw [Option.map_some, Option.any_some, Option.any_some]
    by_cases hid : id ∈ run.wiped.map Message.id
    · rw [if_pos hid, decide_eq_true ⟨rfl, hid⟩, Bool.or_true]
      rfl
    · rw [if_neg hid, decide_eq_false (fun h => hid h.2), Bool.or_false]

/-- The audit rows after a commit. -/
theorem destructedLogs_commit {server : Server} (h : AuditInv server) {now : Time}
    {wiped : List Message} (hrun : RunInv server.world.messages ⟨now, [], [], wiped⟩) (id : UUID) :
    destructedLogs (server.audit ++ wiped.map (destructedLog now)) id =
      (if isDestructed server.world.messages id then 1 else 0) +
        if id ∈ wiped.map Message.id then 1 else 0 := by
  have hnd : (wiped.map Message.id).Nodup := by simpa using hrun.1
  rw [destructedLogs_append, h.exact id, destructedLogs_wiped now hnd]

theorem AuditInv.next {server server' : Server} (h : AuditInv server) {k : ℕ} {ok : Bool}
    (hg : WipedOnce server (.next k ok))
    (hs : jobStep server (.next k ok) = some server') : AuditExact server' := by
  obtain ⟨job, hjob, hnext⟩ := Option.bind_eq_some_iff.mp hs
  have hinv := h.runs job (List.mem_of_getElem? hjob)
  have hcases := jobNext_cases hnext
  cases hcases with
  | advance => exact h.exact
  | gone => exact h.exact
  | commitStatus => exact h.exact
  | commitSweep now wiped =>
    intro id
    show destructedLogs (server.audit ++ wiped.map (destructedLog now)) id = _
    rw [destructedLogs_commit h hinv id]
    show _ = if isDestructed (commitSweep ⟨now, [], [], wiped⟩ server.world.messages) id
      then 1 else 0
    rw [isDestructed_commitSweep]
    by_cases hid : id ∈ wiped.map Message.id
    · obtain ⟨msg, hmsg, rfl⟩ := List.mem_map.mp hid
      have hsome := hinv.2 msg (by simpa using hmsg)
      have hnot := hg _ hjob msg hmsg
      simp [hnot, hsome, hid]
    · simp [hid]

/-- A step under the condition keeps the invariant. -/
theorem AuditInv.step {server server' : Server} {action : JobAction} (h : AuditInv server)
    (hg : WipedOnce server action) (hs : jobStep server action = some server') :
    AuditInv server' := by
  refine ⟨?_, h.runs.step hs⟩
  cases action with
  | frame userId connectionId fresh frame commitOk =>
    obtain rfl := Option.some.inj hs
    exact h.exact.frame userId connectionId fresh frame commitOk
  | setUserStatus creds userId action =>
    simp only [jobStep] at hs
    split at hs <;> obtain rfl := Option.some.inj hs <;> exact h.exact
  | sweep batch =>
    simp only [jobStep] at hs
    split_ifs at hs with hbatch
    obtain rfl := Option.some.inj hs
    exact h.exact
  | next k ok => exact h.next hg hs
  | stop k =>
    obtain rfl := Option.some.inj hs
    exact h.exact
  | tick d =>
    obtain rfl := Option.some.inj hs
    exact h.exact

/-- A sweep that commits a destroyed message logs it a second time. -/
theorem auditExact_fails {server : Server} {action : JobAction} (h : AuditInv server)
    (hg : ¬ WipedOnce server action) :
    ∃ server' ∈ jobStep server action, ¬ AuditExact server' := by
  cases action with
  | next k ok =>
    cases ok with
    | false => exact absurd trivial hg
    | true =>
      simp only [WipedOnce, not_forall] at hg
      obtain ⟨job, hjob, msg, hmsg, hdestructed⟩ := hg
      obtain ⟨now, wiped, rfl, hmsg⟩ := Job.eq_of_mem_committing hmsg
      have hinv := h.runs _ (List.mem_of_getElem? hjob)
      refine ⟨_, by rw [jobStep, Option.mem_def.mp hjob]; rfl, fun hexact => ?_⟩
      have hcount := hexact msg.id
      have hmem : msg.id ∈ wiped.map Message.id := List.mem_map_of_mem hmsg
      have hrows : isDestructed server.world.messages msg.id = true :=
        Bool.not_eq_false _ ▸ hdestructed
      have hlogs := destructedLogs_commit h hinv msg.id
      rw [if_pos hrows, if_pos hmem] at hlogs
      have htwo : (1 + 1 : ℕ) ≤ 1 := by
        calc 1 + 1 = destructedLogs (server.audit ++ wiped.map (destructedLog now)) msg.id :=
              hlogs.symm
          _ = _ := hcount
          _ ≤ 1 := by split_ifs <;> omega
      omega
  | frame userId connectionId fresh frame commitOk => exact absurd trivial hg
  | setUserStatus creds userId action => exact absurd trivial hg
  | sweep batch => exact absurd trivial hg
  | stop k => exact absurd trivial hg
  | tick d => exact absurd trivial hg

/-- Whatever frames, status changes and sweeps run at once, and whichever of their
    steps fail: the audit log has exactly one row for each destroyed message in
    every state if and only if no sweep commits a message that another one has
    destroyed since it was selected. -/
theorem auditExact_iff (server : Server) (actions : List JobAction) (hidle : server.jobs = [])
    (hexact : AuditExact server) :
    Throughout jobStep AuditExact server actions ↔ Guarded jobStep WipedOnce server actions :=
  throughout_iff_guarded (I := AuditInv) (fun _ h => h.exact) (fun _ _ _ h hg hs => h.step hg hs)
    (fun _ _ h hg => auditExact_fails h hg) ⟨hexact, sweepsInv_idle hidle⟩

theorem sampleServer_exact : AuditExact sampleServer := fun _ => rfl

/-- A sweep from its query to its commit, as the only job. -/
def oneSweep : List JobAction :=
  [.sweep [100], .next 0 true, .next 0 true, .next 0 true, .next 0 true]

theorem auditExact_iff_oneSweep :
    (∃ server ∈ run jobStep sampleServer (sendExpiring ++ oneSweep),
      isDestructed server.world.messages 100 = true) ∧
      Throughout jobStep AuditExact sampleServer (sendExpiring ++ oneSweep) := by
  constructor
  · decide +kernel
  · exact (auditExact_iff sampleServer _ rfl sampleServer_exact).mpr (by decide +kernel)

/-- Two workers select the message before either commits. -/
def twoSweeps : List JobAction :=
  [.sweep [100], .sweep [100], .next 0 true, .next 1 true, .next 0 true, .next 0 true,
    .next 1 true, .next 1 true, .next 0 true, .next 0 true]

/-- Both log it. -/
theorem twoSweeps_twoLogs :
    ¬ Throughout jobStep AuditExact sampleServer (sendExpiring ++ twoSweeps) := by
  have hrun : ∃ server ∈ run jobStep sampleServer (sendExpiring ++ twoSweeps),
      destructedLogs server.audit 100 = 2 := by
    decide +kernel
  obtain ⟨server, hserver, htwo⟩ := hrun
  intro hexact
  have hcount := hexact (sendExpiring ++ twoSweeps) [] (List.append_nil _).symm server hserver 100
  rw [htwo] at hcount
  split_ifs at hcount
  omega

end IronLink.Jobs
