import IronLink.Jobs.Step

/-!
# The commits of a run

A transaction of a job changes what may be announced when it commits: a sweep
destroys the messages it has wiped, `unsend_message` retracts one, and
`set_user_status` writes the status of an account, when it is another one than it
has read. `Journaled` keeps these commits beside the server, the latest first.

Results:
* `JournalInv.step`: the messages a client may drop, and the accounts that are
  suspended, are those that were at the start and those that the commits since have
  made so.
-/

namespace IronLink.Jobs

open Lib Auth Messages Ws

/-! ## Model -/

inductive Commit
  /-- a sweep has wiped the message -/
  | wiped (messageId : UUID)
  /-- its sender has retracted it -/
  | retracted (messageId : UUID)
  /-- the status of the user has been written -/
  | wrote (userId : UUID) (status : UserStatus)
  deriving DecidableEq

/-- What the commit of a frame of `userId` adds. -/
def frameCommits (world : World) (userId : UUID) (frame : Frame) : List Commit :=
  match unsendTarget frame with
  | none => []
  | some messageId =>
    match unsendMessage world.messages world.now messageId userId with
    | .error _ => []
    | .ok _ => [.retracted messageId]

/-- The status that `set_user_status` writes: a value equal to the one read is no
    change. -/
def writtenStatus (read : User) : StatusAction → Option UserStatus
  | .suspend => if read.status = .SUSPENDED then none else some .SUSPENDED
  | .activate => if read.status = .ACTIVE then none else some .ACTIVE

/-- What the commit of a job adds. -/
def Job.commits (world : World) : Job → List Commit
  | .sweep ⟨_, [], [], wiped⟩ => wiped.map fun msg => .wiped msg.id
  | .status target action [] =>
    match commitStatus world.users target action with
    | none => []
    | some _ => (writtenStatus target action).toList.map (.wrote target.id)
  | _ => []

/-- What a step commits. -/
def commits (server : Server) : JobAction → List Commit
  | .frame userId _ _ frame true => frameCommits server.world userId frame
  | .next k true => (server.jobs[k]?.map (Job.commits server.world)).getD []
  | _ => []

structure Journaled where
  server : Server
  journal : List Commit

def journalStep (l : Journaled) (action : JobAction) : Option Journaled :=
  (jobStep l.server action).map fun server => ⟨server, commits l.server action ++ l.journal⟩

theorem journalStep_server (l : Journaled) (action : JobAction) :
    (journalStep l action).map Journaled.server = jobStep l.server action := by
  unfold journalStep
  rw [Option.map_map]
  exact Option.map_id'

/-! ## What the journal tells -/

/-- A client may drop the message. -/
def isGone (msg : Message) : Bool := msg.isDestructed || msg.deletedForEveryone

def goneAt (rows : MessageRows) (id : UUID) : Bool := (rows.byId id).any isGone

/-- The account is suspended in the database. -/
def isSuspended (users : Users) (userId : UUID) : Bool :=
  (users.byId userId).any fun user => decide (user.status = .SUSPENDED)

/-- The commit wipes or retracts the message. -/
def Commit.drops (id : UUID) : Commit → Bool
  | .wiped messageId => messageId = id
  | .retracted messageId => messageId = id
  | .wrote _ _ => false

/-- The status of `userId` that the commit writes. -/
def Commit.statusOf (userId : UUID) : Commit → Option UserStatus
  | .wrote user status => if user = userId then some status else none
  | _ => none

/-- The message was gone at the start, or a commit has wiped or retracted it. -/
def droppedBefore (start : World) (journal : List Commit) (id : UUID) : Bool :=
  goneAt start.messages id || journal.any (Commit.drops id)

/-- The last commit that has written the status of the account has suspended it; the
    account was suspended at the start if none has. -/
def suspendedBefore (start : World) (journal : List Commit) (userId : UUID) : Bool :=
  match journal.findSome? (Commit.statusOf userId) with
  | some status => decide (status = .SUSPENDED)
  | none => isSuspended start.users userId

/-! ## What a commit does -/

variable {rows : MessageRows} {now : Time} {id : UUID}

/-- An update that says nothing about a message being gone. -/
theorem goneAt_modify {f : Message → Message} (hf : ∀ msg, (f msg).id = msg.id)
    (hgone : ∀ msg, isGone (f msg) = isGone msg) (messageId : UUID) :
    goneAt (Table.modify Message.id rows messageId f) id = goneAt rows id := by
  unfold goneAt MessageRows.byId
  rw [Table.find_modify hf, Option.any_map]
  congr 1
  funext msg
  show isGone (if msg.id = messageId then f msg else msg) = isGone msg
  split_ifs
  · exact hgone msg
  · rfl

theorem goneAt_retract {messageId : UUID} {msg : Message} (hmsg : rows.byId messageId = some msg) :
    goneAt (Table.modify Message.id rows messageId (retract now)) id =
      (goneAt rows id || decide (messageId = id)) := by
  unfold goneAt MessageRows.byId
  rw [Table.find_modify (retract_id now)]
  by_cases hid : messageId = id
  · subst hid
    have hrow : Table.find Message.id rows messageId = some msg := hmsg
    rw [hrow, Option.map_some, if_pos (MessageRows.byId_id hmsg), decide_eq_true rfl, Bool.or_true]
    exact Bool.or_true _
  · rw [decide_eq_false hid, Bool.or_false]
    cases hrow : Table.find Message.id rows id with
    | none => rfl
    | some row =>
      have hne : row.id ≠ messageId := by
        rw [Table.find_key hrow]
        exact Ne.symm hid
      rw [Option.map_some, if_neg hne]

/-- No frame but an `unsend` drops a message. -/
theorem goneAt_rowsStep {userId : UUID} {fresh : NewRow} {rows' : MessageRows}
    (h : RowsStep now userId fresh none rows rows') : goneAt rows' id = goneAt rows id := by
  cases h with
  | same => rfl
  | insert recipientId messageType content mediaKey mediaMime destructAfter hfresh =>
    unfold goneAt MessageRows.byId at *
    rw [Table.find_append]
    cases hrow : Table.find Message.id rows id with
    | some row => rfl
    | none =>
      rw [Option.none_or]
      split_ifs <;> rfl
  | deliver messageId => exact goneAt_modify (deliver_id now) (fun msg => rfl) messageId
  | read messageId =>
    refine goneAt_modify (read_id now) (fun msg => ?_) messageId
    unfold Messages.read
    split_ifs <;> rfl
  | retract messageId msg htarget => cases htarget

theorem goneAt_handleFrame (w : World) (userId : UUID) (connectionId : String) (fresh : NewRow)
    (frame : Frame) :
    goneAt (handleFrame w userId connectionId fresh frame).world.messages id =
      (goneAt w.messages id || (frameCommits w userId frame).any (Commit.drops id)) := by
  by_cases htype : branchOf (Json.get frame "type") = .unsend
  · have hhandle : handleFrame w userId connectionId fresh frame =
        handleUnsend w userId frame := by
      unfold handleFrame
      rw [htype]
    have htarget : unsendTarget frame = uuidOrNone (Json.get frame "message_id") := if_pos htype
    rw [hhandle]
    unfold handleUnsend frameCommits
    rw [htarget]
    cases hid : uuidOrNone (Json.get frame "message_id") with
    | none => exact (Bool.or_false _).symm
    | some messageId =>
      dsimp only
      cases hunsend : unsendMessage w.messages w.now messageId userId with
      | error denied => exact (Bool.or_false _).symm
      | ok r =>
        obtain ⟨msg, hmsg, -, -, rfl⟩ := unsendMessage_rows hunsend
        show goneAt (Table.modify Message.id w.messages messageId (retract w.now)) id = _
        rw [goneAt_retract hmsg, List.any_cons, List.any_nil, Bool.or_false]
        rfl
  · have htarget : unsendTarget frame = none := if_neg htype
    have hrows := handleFrame_rows w userId connectionId fresh frame
    rw [htarget] at hrows
    unfold frameCommits
    rw [goneAt_rowsStep hrows, htarget]
    exact (Bool.or_false _).symm

/-- The commit of a sweep, whose messages are all in the table. -/
theorem goneAt_commitSweep {run : SweepRun} (h : ∀ msg ∈ run.wiped, (rows.byId msg.id).isSome) :
    goneAt (commitSweep run rows) id =
      (goneAt rows id || (run.wiped.map fun msg => Commit.wiped msg.id).any (Commit.drops id)) := by
  have hany : (run.wiped.map fun msg => Commit.wiped msg.id).any (Commit.drops id) =
      decide (id ∈ run.wiped.map Message.id) := by
    rw [List.any_map, Bool.eq_iff_iff, List.any_eq_true, decide_eq_true_iff, List.mem_map]
    simp only [Function.comp_apply, Commit.drops, decide_eq_true_eq]
  rw [hany]
  unfold goneAt
  rw [commitSweep_byId]
  by_cases hid : id ∈ run.wiped.map Message.id
  · obtain ⟨msg, hmsg, rfl⟩ := List.mem_map.mp hid
    obtain ⟨row, hrow⟩ := Option.isSome_iff_exists.mp (h msg hmsg)
    rw [hrow, Option.map_some, if_pos hid, decide_eq_true hid, Bool.or_true]
    rfl
  · rw [decide_eq_false hid, Bool.or_false]
    cases rows.byId id with
    | none => rfl
    | some row => rw [Option.map_some, if_neg hid]

theorem statusColumns_status (read : User) (action : StatusAction) (row : User) :
    (statusColumns read action row).status = (writtenStatus read action).getD row.status := by
  cases action with
  | suspend =>
    show (if read.status = .SUSPENDED then row.status else .SUSPENDED) = _
    unfold writtenStatus
    split_ifs <;> rfl
  | activate =>
    show (if read.status = .ACTIVE then row.status else .ACTIVE) = _
    unfold writtenStatus
    split_ifs <;> rfl

/-- The commit of `set_user_status`. -/
theorem isSuspended_commitStatus {users users' : Users} {target : User} {action : StatusAction}
    (h : commitStatus users target action = some users') (userId : UUID) :
    isSuspended users' userId =
      if target.id = userId then
        ((writtenStatus target action).map fun status => decide (status = .SUSPENDED)).getD
          (isSuspended users userId)
      else isSuspended users userId := by
  unfold commitStatus at h
  split at h
  · cases h
  · rename_i row hrow
    split_ifs at h
    obtain rfl := Option.some.inj h
    have hfind : Users.byId (Table.modify User.id users target.id (statusColumns target action))
        userId = (users.byId userId).map fun row =>
          if row.id = target.id then statusColumns target action row else row :=
      Table.find_modify (statusColumns_id target action) users target.id userId
    unfold isSuspended
    rw [hfind]
    by_cases hid : target.id = userId
    · subst hid
      rw [if_pos rfl, hrow, Option.map_some, if_pos (Users.byId_id hrow), Option.any_some,
        statusColumns_status, Option.any_some]
      cases writtenStatus target action <;> rfl
    · rw [if_neg hid]
      cases hother : users.byId userId with
      | none => rfl
      | some other =>
        have hne : other.id ≠ target.id := by
          rw [Users.byId_id hother]
          exact Ne.symm hid
        rw [Option.map_some, if_neg hne]

/-! ## The journal is true -/

/-- The database is what the journal tells. -/
structure JournalInv (start : World) (l : Journaled) : Prop where
  gone : ∀ id, goneAt l.server.world.messages id = droppedBefore start l.journal id
  suspended : ∀ userId, isSuspended l.server.world.users userId =
    suspendedBefore start l.journal userId
  sweeps : SweepsInv l.server

theorem journalInv_idle {server : Server} (h : server.jobs = []) :
    JournalInv server.world ⟨server, []⟩ := by
  refine ⟨fun id => ?_, fun userId => rfl, sweepsInv_idle h⟩
  exact (Bool.or_false _).symm

theorem droppedBefore_append (start : World) (journal journal' : List Commit) (id : UUID) :
    droppedBefore start (journal' ++ journal) id =
      (droppedBefore start journal id || journal'.any (Commit.drops id)) := by
  unfold droppedBefore
  rw [List.any_append, Bool.or_comm (journal'.any _), Bool.or_assoc]

/-- Commits that write no status. -/
theorem suspendedBefore_append {start : World} {journal journal' : List Commit} {userId : UUID}
    (h : ∀ c ∈ journal', c.statusOf userId = none) :
    suspendedBefore start (journal' ++ journal) userId =
      suspendedBefore start journal userId := by
  have hnone : journal'.findSome? (Commit.statusOf userId) = none :=
    List.findSome?_eq_none_iff.mpr h
  unfold suspendedBefore
  rw [List.findSome?_append, hnone, Option.none_or]

/-- Commits that neither drop a message nor write a status. -/
theorem JournalInv.congr {start : World} {l l' : Journaled} (h : JournalInv start l)
    (hrows : l'.server.world.messages = l.server.world.messages)
    (husers : l'.server.world.users = l.server.world.users) (hjournal : l'.journal = l.journal)
    (hsweeps : SweepsInv l'.server) : JournalInv start l' := by
  refine ⟨fun id => ?_, fun userId => ?_, hsweeps⟩
  · rw [hrows, hjournal]
    exact h.gone id
  · rw [husers, hjournal]
    exact h.suspended userId

theorem JournalInv.frame {start : World} {l : Journaled} (h : JournalInv start l) (userId : UUID)
    (connectionId : String) (fresh : NewRow) (frame : Frame) (commitOk : Bool)
    (hsweeps : SweepsInv (frameJob l.server userId connectionId fresh frame commitOk)) :
    JournalInv start ⟨frameJob l.server userId connectionId fresh frame commitOk,
      commits l.server (.frame userId connectionId fresh frame commitOk) ++ l.journal⟩ := by
  have husers := (handleFrame_frame l.server.world userId connectionId fresh frame).2.1
  cases commitOk with
  | true =>
    have hquiet : ∀ c ∈ frameCommits l.server.world userId frame, ∀ u, c.statusOf u = none := by
      intro c hc u
      unfold frameCommits at hc
      split at hc
      · cases hc
      · split at hc
        · cases hc
        · obtain rfl := List.mem_singleton.mp hc
          rfl
    refine ⟨fun id => ?_, fun u => ?_, hsweeps⟩
    · show goneAt (handleFrame l.server.world userId connectionId fresh frame).world.messages id =
        droppedBefore start (frameCommits l.server.world userId frame ++ l.journal) id
      rw [goneAt_handleFrame, droppedBefore_append, h.gone]
    · show isSuspended (handleFrame l.server.world userId connectionId fresh frame).world.users u =
        suspendedBefore start (frameCommits l.server.world userId frame ++ l.journal) u
      rw [husers, suspendedBefore_append fun c hc => hquiet c hc u]
      exact h.suspended u
  | false =>
    refine h.congr ?_ ?_ rfl hsweeps
    · show (frameJob l.server userId connectionId fresh frame false).world.messages = _
      unfold frameJob
      simp only [Bool.false_or, decide_eq_true_eq]
      split_ifs with hsame
      · exact hsame
      · rfl
    · show (frameJob l.server userId connectionId fresh frame false).world.users = _
      unfold frameJob
      simp only
      split_ifs
      · exact husers
      · rfl

theorem JournalInv.next {start : World} {l : Journaled} {server : Server}
    (h : JournalInv start l) {k : ℕ} {ok : Bool}
    (hs : jobStep l.server (.next k ok) = some server) :
    JournalInv start ⟨server, commits l.server (.next k ok) ++ l.journal⟩ := by
  have hsweeps := h.sweeps.step hs
  obtain ⟨job, hjob, hnext⟩ := Option.bind_eq_some_iff.mp hs
  have hcommits : commits l.server (.next k true) = job.commits l.server.world := by
    simp only [commits, hjob, Option.map_some, Option.getD_some]
  have hcases := jobNext_cases hnext
  cases hcases with
  | advance _ _ _ bucket hadv =>
    have hnone : commits l.server (.next k ok) = [] := by
      cases ok with
      | false => rfl
      | true =>
        rw [hcommits]
        cases hadv with
        | effect => rfl
        | publish now todo event events wiped => cases todo <;> rfl
        | wipe => rfl
        | skip => rfl
        | announce => rfl
    exact h.congr rfl rfl (by rw [hnone]; rfl) hsweeps
  | gone _ _ hrefused =>
    have hnone : commits l.server (.next k ok) = [] := by
      cases ok with
      | false => rfl
      | true =>
        obtain ⟨target, action, rfl, hnone⟩ := hrefused rfl
        rw [hcommits]
        simp only [Job.commits, hnone]
    exact h.congr rfl rfl (by rw [hnone]; rfl) hsweeps
  | commitSweep now wiped =>
    have hinv := (h.sweeps _ (List.mem_of_getElem? hjob)).2
    rw [hcommits]
    refine ⟨fun id => ?_, fun userId => ?_, hsweeps⟩
    · refine (goneAt_commitSweep fun msg hmsg => hinv msg (List.mem_append_left _ hmsg)).trans ?_
      rw [h.gone]
      exact (droppedBefore_append start l.journal _ id).symm
    · refine (h.suspended userId).trans (suspendedBefore_append fun c hc => ?_).symm
      obtain ⟨msg, -, rfl⟩ := List.mem_map.mp hc
      rfl
  | commitStatus target action users husers =>
    have hwrote : Job.commits l.server.world (.status target action []) =
        (writtenStatus target action).toList.map (.wrote target.id) := by
      simp only [Job.commits, husers]
    rw [hcommits, hwrote]
    refine ⟨fun id => ?_, fun userId => ?_, hsweeps⟩
    · refine (h.gone id).trans ?_
      rw [droppedBefore_append]
      cases writtenStatus target action <;> exact (Bool.or_false _).symm
    · refine (isSuspended_commitStatus husers userId).trans ?_
      rw [h.suspended]
      cases writtenStatus target action with
      | none => exact ite_self _
      | some status =>
        show _ = suspendedBefore start (.wrote target.id status :: l.journal) userId
        unfold suspendedBefore
        rw [List.findSome?_cons]
        by_cases hid : target.id = userId
        · simp only [Commit.statusOf, if_pos hid, Option.map_some, Option.getD_some]
        · simp only [Commit.statusOf, if_neg hid]

/-- **Step.** -/
theorem JournalInv.step {start : World} {l l' : Journaled} {action : JobAction}
    (h : JournalInv start l) (hs : journalStep l action = some l') : JournalInv start l' := by
  obtain ⟨server, hserver, rfl⟩ := Option.map_eq_some_iff.mp hs
  have hsweeps := h.sweeps.step hserver
  cases action with
  | frame userId connectionId fresh frame commitOk =>
    obtain rfl := Option.some.inj hserver
    exact h.frame userId connectionId fresh frame commitOk hsweeps
  | setUserStatus creds userId action =>
    simp only [jobStep] at hserver
    split at hserver <;> obtain rfl := Option.some.inj hserver <;>
      exact h.congr rfl rfl rfl hsweeps
  | sweep batch =>
    simp only [jobStep] at hserver
    split_ifs at hserver
    obtain rfl := Option.some.inj hserver
    exact h.congr rfl rfl rfl hsweeps
  | next k ok => exact h.next hserver
  | stop k =>
    obtain rfl := Option.some.inj hserver
    exact h.congr rfl rfl rfl hsweeps
  | tick d =>
    obtain rfl := Option.some.inj hserver
    exact h.congr rfl rfl rfl hsweeps

end IronLink.Jobs
