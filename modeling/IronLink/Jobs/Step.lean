import IronLink.Lib.Calls
import IronLink.Auth.TokenVersion
import IronLink.Messages.System

/-!
# Transactions and publications

Three jobs of the server change the database and publish on user channels: the
frame handler, the sweep of a self-destruct worker and `set_user_status`. Each
API process runs any number of the first and the last, and a worker of its own
(app/main.py:16-26, four processes in the Dockerfile).

A job goes on one database transaction, storage call or publication at a time.
Every one of them may fail, and a process may stop between any two.

Results:
* `jobNext_cases`: all a step of a job can do.
* `rowsStep_isDestructed`, `commitSweep_byId`: what a frame and the commit of a sweep
  leave of a row.
* `SweepsInv.step`: a running sweep holds no message twice, and only messages in the
  table.
-/

namespace IronLink.Jobs

open Lib Auth Messages Ws

/-! ## Model -/

/-- A publication: the channel's user and the payload. -/
abbrev Publication := UUID × Frame

/-- A running `sweep_once`: when it selected, the messages of its batch not handled
    yet, the frames to publish for the last one handled, and the messages wiped in
    its session, as it has loaded them. -/
structure SweepRun where
  now : Time
  todo : List Message
  events : List Publication
  wiped : List Message

inductive Job
  /-- a frame handler after its transaction, with the effects left -/
  | frame (effects : List Effect)
  | sweep (run : SweepRun)
  /-- `set_user_status` after its read, with the frames left to publish -/
  | status (target : User) (action : StatusAction) (events : List Publication)

structure Server where
  world : World
  bucket : Bucket
  audit : List AuditLog
  jobs : List Job

/-- `{"type": "account_suspended"}`. -/
def suspendedEvent : Frame := [("type", .str "account_suspended")]

/-- The frames `set_user_status` publishes before its commit
    (app/api/routes/admin.py:116-122). -/
def statusEvents (target : User) : StatusAction → List Publication
  | .suspend => [(target.id, suspendedEvent)]
  | .activate => []

/-- The audit row of a wiped message (app/services/self_destruct_worker.py:99-106). -/
def destructedLog (now : Time) (msg : Message) : AuditLog :=
  { actorId := none
    action := "message.self_destructed"
    resourceType := "message"
    resourceId := msg.id.str
    success := true
    hadMedia := (destroy now msg).mediaObjectKey.isSome }

/-- The frames of a wiped message (app/services/self_destruct_worker.py:109-113). -/
def destructedEvents (msg : Message) : List Publication :=
  msg.recipientId.toList.map (·, unsendEvent msg.id) ++
    msg.senderId.toList.map (·, unsendEvent msg.id)

/-- The rows after the commit of a sweep. -/
def commitSweep (run : SweepRun) (rows : MessageRows) : MessageRows :=
  run.wiped.foldl (fun rows msg => Table.modify Message.id rows msg.id (destroy run.now)) rows

/-- The commit of `set_user_status`; `none`: it is refused. -/
def commitStatus (users : Users) (target : User) (action : StatusAction) : Option Users :=
  match users.byId target.id with
  | none => none
  | some row =>
    if (statusColumns target action row).tokenVersion > int4Max then none
    else some (Table.modify User.id users target.id (statusColumns target action))

/-- The next storage call of a sweep (app/services/self_destruct_worker.py:78-113):
    the deletion of the media object of `msg`, if it has one. -/
def sweepNext (server : Server) (run : SweepRun) (msg : Message) (rest : List Message)
    (ok : Bool) : Server × SweepRun :=
  if wipes (fun _ => !ok) msg then
    ({ server with bucket := server.bucket.deleteOf msg },
      { run with todo := rest, events := destructedEvents msg, wiped := run.wiped ++ [msg] })
  else (server, { run with todo := rest })

/-- The next step of the job at `k`; it fails unless `ok`. A publication that fails
    raises, and ends the job as a failed commit does. -/
def jobNext (server : Server) (k : ℕ) (ok : Bool) : Job → Option Server
  | .frame [] => none
  | .frame (_ :: effects) =>
    some { server with
      jobs := if ok then server.jobs.set k (.frame effects) else server.jobs.eraseIdx k }
  | .sweep ⟨now, todo, _ :: events, wiped⟩ =>
    some { server with
      jobs := if ok then server.jobs.set k (.sweep ⟨now, todo, events, wiped⟩)
        else server.jobs.eraseIdx k }
  | .sweep ⟨now, msg :: rest, [], wiped⟩ =>
    let next := sweepNext server ⟨now, msg :: rest, [], wiped⟩ msg rest ok
    some { next.1 with jobs := server.jobs.set k (.sweep next.2) }
  | .sweep ⟨now, [], [], wiped⟩ =>
    if ok then
      some { server with
        world := { server.world with
          messages := commitSweep ⟨now, [], [], wiped⟩ server.world.messages }
        audit := server.audit ++ wiped.map (destructedLog now)
        jobs := server.jobs.eraseIdx k }
    else some { server with jobs := server.jobs.eraseIdx k }
  | .status target action (_ :: events) =>
    some { server with
      jobs := if ok then server.jobs.set k (.status target action events)
        else server.jobs.eraseIdx k }
  | .status target action [] =>
    match if ok then commitStatus server.world.users target action else none with
    | none => some { server with jobs := server.jobs.eraseIdx k }
    | some users =>
      some { server with
        world := { server.world with users := users }
        jobs := server.jobs.eraseIdx k }

inductive JobAction
  /-- a frame on a socket of `userId`: the handler up to the end of its transaction -/
  | frame (userId : UUID) (connectionId : String) (fresh : NewRow) (frame : Frame)
      (commitOk : Bool)
  /-- `POST /admin/users/{user_id}/status` up to its read -/
  | setUserStatus (creds : Option AccessToken) (userId : UUID) (action : StatusAction)
  /-- a worker begins a sweep; its query answers `batch` -/
  | sweep (batch : List UUID)
  /-- the `k`-th job takes its next step -/
  | next (k : ℕ) (ok : Bool)
  /-- the process of the `k`-th job stops -/
  | stop (k : ℕ)
  | tick (d : ℕ)

/-- A handler whose commit fails raises before it has sent anything; one that has
    nothing to write commits nothing. -/
def frameJob (server : Server) (userId : UUID) (connectionId : String) (fresh : NewRow)
    (frame : Frame) (commitOk : Bool) : Server :=
  let handled := handleFrame server.world userId connectionId fresh frame
  if commitOk || handled.world.messages = server.world.messages then
    { server with world := handled.world, jobs := server.jobs ++ [.frame handled.effects] }
  else server

def jobStep (server : Server) : JobAction → Option Server
  | .frame userId connectionId fresh frame commitOk =>
    some (frameJob server userId connectionId fresh frame commitOk)
  | .setUserStatus creds userId action =>
    match statusRead server.world.users server.world.now creds userId with
    | .error _ => some server
    | .ok target =>
      some { server with
        jobs := server.jobs ++ [.status target action (statusEvents target action)] }
  | .sweep batch =>
    if IsBatch server.world.messages server.world.now batch then
      some { server with
        jobs := server.jobs ++
          [.sweep ⟨server.world.now, batch.filterMap server.world.messages.byId, [], []⟩] }
    else none
  | .next k ok => server.jobs[k]?.bind (jobNext server k ok)
  | .stop k => some { server with jobs := server.jobs.eraseIdx k }
  | .tick d => some { server with world := { server.world with now := server.world.now + d } }

/-- What the step publishes. -/
def published (server : Server) : JobAction → Option Publication
  | .next k true =>
    match server.jobs[k]? with
    | some (.frame (.publish userId payload :: _)) => some (userId, payload)
    | some (.sweep ⟨_, _, event :: _, _⟩) => some event
    | some (.status _ _ (event :: _)) => some event
    | _ => none
  | _ => none

/-- `sampleWorld` in a server with no job running. -/
def sampleServer : Server := ⟨sampleWorld, .empty, [], []⟩

/-- A message with `destruct_after = 5` is sent, and expires. -/
def sendExpiring : List JobAction :=
  [.frame 7 "c7" 100 (sampleFrame "text" 1 [("destruct_after", .int 5)]) true, .next 0 true,
    .next 0 true, .stop 0, .tick 5000000]

/-! ## What a step of a job does -/

/-- A job goes on. -/
inductive Advance : Job → Job → Prop
  | effect (effect : Effect) (effects : List Effect) :
      Advance (.frame (effect :: effects)) (.frame effects)
  | publish (now : Time) (todo : List Message) (event : Publication) (events : List Publication)
      (wiped : List Message) :
      Advance (.sweep ⟨now, todo, event :: events, wiped⟩) (.sweep ⟨now, todo, events, wiped⟩)
  | wipe (now : Time) (msg : Message) (todo wiped : List Message) :
      Advance (.sweep ⟨now, msg :: todo, [], wiped⟩)
        (.sweep ⟨now, todo, destructedEvents msg, wiped ++ [msg]⟩)
  | skip (now : Time) (msg : Message) (todo wiped : List Message) :
      Advance (.sweep ⟨now, msg :: todo, [], wiped⟩) (.sweep ⟨now, todo, [], wiped⟩)
  | announce (target : User) (action : StatusAction) (event : Publication)
      (events : List Publication) :
      Advance (.status target action (event :: events)) (.status target action events)

/-- The commit of the job is refused. -/
def Job.Refused (users : Users) (job : Job) : Prop :=
  ∃ target action, job = .status target action [] ∧ commitStatus users target action = none

/-- What the server is after a step of the job at `k`. -/
inductive NextStep (server : Server) (k : ℕ) : Bool → Job → Server → Prop
  | advance (ok : Bool) (job job' : Job) (bucket : Bucket) (h : Advance job job') :
      NextStep server k ok job { server with bucket := bucket, jobs := server.jobs.set k job' }
  | gone (ok : Bool) (job : Job) (h : ok = true → job.Refused server.world.users) :
      NextStep server k ok job { server with jobs := server.jobs.eraseIdx k }
  | commitSweep (now : Time) (wiped : List Message) :
      NextStep server k true (.sweep ⟨now, [], [], wiped⟩) { server with
        world := { server.world with
          messages := commitSweep ⟨now, [], [], wiped⟩ server.world.messages }
        audit := server.audit ++ wiped.map (destructedLog now)
        jobs := server.jobs.eraseIdx k }
  | commitStatus (target : User) (action : StatusAction) (users : Users)
      (h : commitStatus server.world.users target action = some users) :
      NextStep server k true (.status target action []) { server with
        world := { server.world with users := users }
        jobs := server.jobs.eraseIdx k }

theorem jobNext_cases {server server' : Server} {k : ℕ} {ok : Bool} {job : Job}
    (h : jobNext server k ok job = some server') : NextStep server k ok job server' := by
  cases job with
  | frame effects =>
    cases effects with
    | nil => cases h
    | cons effect effects =>
      cases ok with
      | true =>
        obtain rfl := Option.some.inj h
        exact .advance _ _ _ server.bucket (.effect effect effects)
      | false =>
        obtain rfl := Option.some.inj h
        exact .gone _ _ (fun h => by cases h)
  | sweep run =>
    obtain ⟨now, todo, events, wiped⟩ := run
    cases events with
    | cons event events =>
      cases ok with
      | true =>
        cases todo <;> obtain rfl := Option.some.inj h
        · exact .advance _ _ _ server.bucket (.publish now [] event events wiped)
        · exact .advance _ _ _ server.bucket (.publish now _ event events wiped)
      | false =>
        cases todo <;> obtain rfl := Option.some.inj h <;> exact .gone _ _ (fun h => by cases h)
    | nil =>
      cases todo with
      | cons msg todo =>
        obtain rfl := Option.some.inj h
        unfold sweepNext
        split_ifs with hwipes
        · exact .advance _ _ _ (server.bucket.deleteOf msg) (.wipe now msg todo wiped)
        · exact .advance _ _ _ server.bucket (.skip now msg todo wiped)
      | nil =>
        cases ok with
        | true =>
          obtain rfl := Option.some.inj h
          exact .commitSweep now wiped
        | false =>
          obtain rfl := Option.some.inj h
          exact .gone _ _ (fun h => by cases h)
  | status target action events =>
    cases events with
    | cons event events =>
      cases ok with
      | true =>
        obtain rfl := Option.some.inj h
        exact .advance _ _ _ server.bucket (.announce target action event events)
      | false =>
        obtain rfl := Option.some.inj h
        exact .gone _ _ (fun h => by cases h)
    | nil =>
      simp only [jobNext] at h
      split at h
      · next hnone =>
        obtain rfl := Option.some.inj h
        refine .gone _ _ fun hok => ⟨target, action, rfl, ?_⟩
        rw [if_pos hok] at hnone
        exact hnone
      · next users husers =>
        obtain rfl := Option.some.inj h
        split_ifs at husers with hok
        subst hok
        exact .commitStatus target action users husers

theorem forall_jobs_erase {P : Job → Prop} {jobs : List Job} {k : ℕ} (h : ∀ job ∈ jobs, P job) :
    ∀ job ∈ jobs.eraseIdx k, P job := fun job hjob => h job (List.mem_of_mem_eraseIdx hjob)

theorem forall_jobs_append {P : Job → Prop} {jobs : List Job} {job' : Job}
    (h : ∀ job ∈ jobs, P job) (hjob : P job') : ∀ job ∈ jobs ++ [job'], P job := by
  intro job hmem
  obtain hmem | hmem := List.mem_append.mp hmem
  · exact h job hmem
  · rw [List.mem_singleton.mp hmem]
    exact hjob

/-! ## What a step leaves of a row -/

/-- The row is destroyed. -/
def isDestructed (rows : MessageRows) (id : UUID) : Bool := (rows.byId id).any Message.isDestructed

theorem rowChange_isDestructed {now : Time} {msg msg' : Message} (h : RowChange now msg msg') :
    msg'.isDestructed = msg.isDestructed := by
  cases h with
  | same => rfl
  | deliver => rfl
  | read =>
    unfold Messages.read
    split_ifs <;> rfl
  | retract => rfl

/-- No frame destroys a row or brings one back. -/
theorem rowsStep_isDestructed {now : Time} {userId : UUID} {fresh : NewRow} {target : Option UUID}
    {rows rows' : MessageRows} (h : RowsStep now userId fresh target rows rows') (id : UUID) :
    isDestructed rows' id = isDestructed rows id := by
  unfold isDestructed
  cases hmsg : rows.byId id with
  | some msg =>
    obtain ⟨msg', hmsg', hchange⟩ := rowsStep_byId_of_some h hmsg
    rw [hmsg']
    exact rowChange_isDestructed hchange
  | none =>
    cases hmsg' : rows'.byId id with
    | none => rfl
    | some msg' =>
      obtain ⟨msg, hold, -⟩ | ⟨-, -, _, _, _, _, _, _, rfl⟩ := rowsStep_byId h hmsg'
      · rw [hmsg] at hold
        cases hold
      · rfl

/-- The commit of a sweep destroys the rows of the messages it has wiped. -/
theorem commitSweep_byId (run : SweepRun) (rows : MessageRows) (id : UUID) :
    MessageRows.byId (commitSweep run rows) id = (rows.byId id).map fun row =>
      if id ∈ run.wiped.map Message.id then destroy run.now row else row := by
  obtain ⟨now, todo, events, wiped⟩ := run
  unfold commitSweep
  induction wiped generalizing rows with
  | nil => simp
  | cons msg wiped ih =>
    have hfirst : MessageRows.byId (Table.modify Message.id rows msg.id (destroy now)) id =
        (rows.byId id).map fun row => if row.id = msg.id then destroy now row else row :=
      Table.find_modify (destroy_id now) rows msg.id id
    rw [List.foldl_cons, ih, hfirst, Option.map_map]
    cases hrow : rows.byId id with
    | none => rfl
    | some row =>
      have hid : row.id = id := MessageRows.byId_id hrow
      simp only [Option.map_some, Function.comp_apply, hid, List.map_cons, List.mem_cons]
      by_cases hmsg : id = msg.id
      · simp only [hmsg, if_true, true_or]
        split_ifs <;> rfl
      · simp [hmsg]

/-! ## What the running sweeps hold -/

/-- A running sweep holds no message twice, and none that is not in the table. -/
def RunInv (rows : MessageRows) (run : SweepRun) : Prop :=
  ((run.wiped ++ run.todo).map Message.id).Nodup ∧
    ∀ msg ∈ run.wiped ++ run.todo, (rows.byId msg.id).isSome

/-- What `RunInv` says of a job. -/
def JobInv (rows : MessageRows) : Job → Prop
  | .sweep run => RunInv rows run
  | _ => True

/-- What `JobInv` says of every job. -/
def SweepsInv (server : Server) : Prop := ∀ job ∈ server.jobs, JobInv server.world.messages job

theorem sweepsInv_idle {server : Server} (h : server.jobs = []) : SweepsInv server := by
  intro job hjob
  rw [h] at hjob
  cases hjob

/-- It is enough that no row is lost. -/
theorem JobInv.mono {rows rows' : MessageRows} {job : Job} (h : JobInv rows job)
    (hkeep : ∀ id, (rows.byId id).isSome → (rows'.byId id).isSome) : JobInv rows' job := by
  cases job with
  | sweep run => exact ⟨h.1, fun msg hmsg => hkeep msg.id (h.2 msg hmsg)⟩
  | frame effects => trivial
  | status target action events => trivial

theorem JobInv.advance {rows : MessageRows} {job job' : Job} (h : JobInv rows job)
    (hadv : Advance job job') : JobInv rows job' := by
  cases hadv with
  | effect => trivial
  | publish => exact h
  | wipe now msg todo wiped =>
    obtain ⟨hnd, hrows⟩ := h
    rw [JobInv, RunInv, List.append_assoc]
    exact ⟨hnd, hrows⟩
  | skip now msg todo wiped =>
    obtain ⟨hnd, hrows⟩ := h
    have hsub : (wiped ++ todo).Sublist (wiped ++ msg :: todo) :=
      List.Sublist.append_left (List.sublist_cons_self msg todo) wiped
    exact ⟨hnd.sublist (hsub.map Message.id), fun m hm => hrows m (hsub.subset hm)⟩
  | announce => trivial

theorem filterMap_byId_sublist (rows : MessageRows) (batch : List UUID) :
    ((batch.filterMap rows.byId).map Message.id).Sublist batch := by
  induction batch with
  | nil => exact .slnil
  | cons id batch ih =>
    cases hmsg : rows.byId id with
    | none =>
      rw [List.filterMap_cons_none hmsg]
      exact ih.cons id
    | some msg =>
      rw [List.filterMap_cons_some hmsg, List.map_cons, MessageRows.byId_id hmsg]
      exact ih.cons_cons id

/-- What a sweep has just selected. -/
theorem jobInv_select (rows : MessageRows) (now : Time) {batch : List UUID} (hnd : batch.Nodup) :
    JobInv rows (.sweep ⟨now, batch.filterMap rows.byId, [], []⟩) := by
  refine ⟨hnd.sublist (filterMap_byId_sublist rows batch), fun msg hmsg => ?_⟩
  obtain ⟨id, -, hid⟩ := List.mem_filterMap.mp hmsg
  rw [MessageRows.byId_id hid, hid]
  rfl

theorem SweepsInv.frame {server : Server} (h : SweepsInv server) (userId : UUID)
    (connectionId : String) (fresh : NewRow) (frame : Frame) (commitOk : Bool) :
    SweepsInv (frameJob server userId connectionId fresh frame commitOk) := by
  unfold frameJob
  simp only
  split_ifs with hcommit
  · have hrows := handleFrame_rows server.world userId connectionId fresh frame
    refine forall_jobs_append (fun job hjob => ?_) trivial
    refine (h job hjob).mono fun id hid => ?_
    obtain ⟨msg, hmsg⟩ := Option.isSome_iff_exists.mp hid
    obtain ⟨msg', hmsg', -⟩ := rowsStep_byId_of_some hrows hmsg
    rw [hmsg']
    rfl
  · exact h

/-- Every step keeps it: no row is ever lost. -/
theorem SweepsInv.step {server server' : Server} {action : JobAction} (h : SweepsInv server)
    (hs : jobStep server action = some server') : SweepsInv server' := by
  cases action with
  | frame userId connectionId fresh frame commitOk =>
    obtain rfl := Option.some.inj hs
    exact h.frame userId connectionId fresh frame commitOk
  | setUserStatus creds userId action =>
    simp only [jobStep] at hs
    split at hs
    · obtain rfl := Option.some.inj hs
      exact h
    · obtain rfl := Option.some.inj hs
      exact forall_jobs_append h trivial
  | sweep batch =>
    simp only [jobStep] at hs
    split_ifs at hs with hbatch
    obtain rfl := Option.some.inj hs
    exact forall_jobs_append h (jobInv_select _ _ hbatch.1)
  | next k ok =>
    obtain ⟨job, hjob, hnext⟩ := Option.bind_eq_some_iff.mp hs
    have hcases := jobNext_cases hnext
    cases hcases with
    | advance _ job job' bucket hadv =>
      exact forall_set h ((h job (List.mem_of_getElem? hjob)).advance hadv)
    | gone => exact forall_jobs_erase h
    | commitStatus => exact forall_jobs_erase h
    | commitSweep now wiped =>
      refine forall_jobs_erase fun job hjob => (h job hjob).mono fun id hid => ?_
      rw [commitSweep_byId, Option.isSome_map]
      exact hid
  | stop k =>
    obtain rfl := Option.some.inj hs
    exact forall_jobs_erase h
  | tick d =>
    obtain rfl := Option.some.inj hs
    exact h

end IronLink.Jobs
