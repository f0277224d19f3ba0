import IronLink.Groups.Routes
import IronLink.Lib.Calls

/-!
# Join requests and decisions at the same time

`request_join` and `decide_request` as transactions: a `SELECT` sees what is committed when it
runs, and a commit writes the changed columns whatever is in the row by then. Of the
conflicts, a commit notices only those that violate a primary key or a unique index.

Results:
* `join_alone`, `decide_alone`: a transaction on its own does what the route does.
* `agree_iff`: the interleavings in which requests and memberships agree throughout and no
  decision overwrites the opposite one.
* `rejected_member`: an approval and a rejection that leave a member with a rejected request.
-/

namespace IronLink.Groups

open Lib Auth

/-! ## Transactions -/

/-- A call of `request_join`. -/
structure Join where
  userId : UUID
  now : Time
  requestId : UUID
  groupId : UUID
  body : JoinRequestIn

/-- A call of `decide_request`. -/
structure Decide where
  userId : UUID
  role : UserRole
  now : Time
  groupId : UUID
  requestId : UUID
  approve : Bool

/-- After the commit. -/
inductive Ending
  /-- `db.refresh(req)` -/
  | refresh (id : UUID)
  | done (answer : Except HttpError JoinRequestOut)

/-- The next statement of a `request_join`. -/
inductive JoinPc
  /-- `select(Group)` -/
  | group
  /-- `_membership` -/
  | membership (group : Group)
  /-- `select(GroupJoinRequest)` -/
  | existing (group : Group)
  | commit (group : Group) (existing : Option GroupJoinRequest)
  | ending (e : Ending)

/-- The next statement of a `decide_request`. -/
inductive DecidePc
  /-- `_require_admin_member` -/
  | admin
  /-- `select(GroupJoinRequest)` -/
  | request
  | commit (request : GroupJoinRequest)
  | ending (e : Ending)

inductive Tx
  | join (j : Join) (pc : JoinPc)
  | decide (d : Decide) (pc : DecidePc)

/-- What the transaction is about to commit. -/
def Tx.writes : Tx → Option Writes
  | .join j (.commit group existing) =>
    some (joinWrites j.userId j.now j.requestId j.body.message group existing)
  | .decide d (.commit request) => some (decideWrites d.userId d.role d.now d.approve request)
  | _ => none

/-- The transaction ends. -/
def Tx.ends : Tx → Ending → Tx
  | .join j _, e => .join j (.ending e)
  | .decide d _, e => .decide d (.ending e)

/-- The tables and the transaction after its commit. -/
def Tx.commit (db : Db) (tx : Tx) (writes : Writes) : Db × Tx :=
  match db.commit writes with
  | none => (db, tx.ends (.done (.error internalServerError)))
  | some db' =>
    (db', tx.ends (writes.request.id.elim (.done (.error internalServerError)) .refresh))

def Ending.next (db : Db) : Ending → Option Ending
  | .refresh id => some (.done (refreshed db id))
  | .done _ => none

/-- An exception ends the request. -/
def Join.orEnd {α : Type} (j : Join) (read : Except HttpError α) (next : α → JoinPc) : Tx :=
  match read with
  | .error err => .join j (.ending (.done (.error err)))
  | .ok a => .join j (next a)

def Decide.orEnd {α : Type} (d : Decide) (read : Except HttpError α) (next : α → DecidePc) : Tx :=
  match read with
  | .error err => .decide d (.ending (.done (.error err)))
  | .ok a => .decide d (next a)

/-- The next statement that is no commit. -/
def Tx.read (db : Db) : Tx → Option Tx
  | .join j .group => some (j.orEnd (joinedGroup db j.groupId) .membership)
  | .join j (.membership group) =>
    some (j.orEnd (notMember db j.groupId j.userId) fun _ => .existing group)
  | .join j (.existing group) =>
    some (j.orEnd (existingRequest db j.groupId j.userId) (.commit group))
  | .join j (.ending e) => (e.next db).map fun e' => .join j (.ending e')
  | .join _ (.commit ..) => none
  | .decide d .admin => some (d.orEnd (requireAdminMember db d.groupId d.userId) fun _ => .request)
  | .decide d .request => some (d.orEnd (pendingRequest db d.groupId d.requestId) .commit)
  | .decide d (.ending e) => (e.next db).map fun e' => .decide d (.ending e')
  | .decide _ (.commit _) => none

/-- The next statement. -/
def Tx.next (db : Db) (tx : Tx) : Option (Db × Tx) :=
  match tx.writes with
  | some writes => some (tx.commit db writes)
  | none => (tx.read db).map fun tx' => (db, tx')

/-! ## Interleavings -/

/-- The row has been decided the other way, and the transaction is about to decide it. -/
def Tx.opposes (db : Db) : Tx → Bool
  | .decide d (.commit request) =>
    (Table.find GroupJoinRequest.id db.requests request.id).any fun row =>
      row.status = decidedStatus !d.approve
  | _ => false

/-- The commit is accepted. -/
def Tx.commits (db : Db) (tx : Tx) : Bool :=
  tx.writes.any fun writes => (db.commit writes).isSome

/-- The committed tables and the transactions. `overwritten` records whether a decision has
    replaced the opposite one. -/
structure Race where
  db : Db
  txs : List Tx
  overwritten : Bool

inductive RaceAction
  | join (j : Join)
  | decide (d : Decide)
  | next (i : ℕ)

def Race.step (s : Race) : RaceAction → Option Race
  | .join j => some { s with txs := s.txs ++ [.join j .group] }
  | .decide d => some { s with txs := s.txs ++ [.decide d .admin] }
  | .next i =>
    s.txs[i]?.bind fun tx =>
      (tx.next s.db).map fun p =>
        ⟨p.1, s.txs.set i p.2, s.overwritten || tx.commits s.db && tx.opposes s.db⟩

/-- The tables, and no transaction yet. -/
def Race.start (db : Db) : Race := ⟨db, [], false⟩

/-! ## A transaction on its own -/

variable {db db' : Db} {tx tx' : Tx} {overwritten : Bool}

/-- A statement that decides no request. -/
theorem next_alone (hnext : tx.next db = some (db', tx')) (hopposes : tx.opposes db = false) :
    Race.step ⟨db, [tx], overwritten⟩ (.next 0) = some ⟨db', [tx'], overwritten⟩ := by
  show (tx.next db).map _ = _
  rw [hnext, hopposes, Option.map_some, Bool.and_false, Bool.or_false]
  rfl

theorem drives_ends (db : Db) (tx : Tx) (id : Option UUID) :
    Drives Race.step (.next 0)
      ⟨db, [tx.ends (id.elim (.done (.error internalServerError)) .refresh)], overwritten⟩
      ⟨db, [tx.ends (.done (id.elim (.error internalServerError) (refreshed db)))],
        overwritten⟩ := by
  cases id with
  | none => exact .refl _ _ _
  | some id =>
    cases tx with
    | join j pc => exact .head (next_alone rfl rfl) (.refl _ _ _)
    | decide d pc => exact .head (next_alone rfl rfl) (.refl _ _ _)

theorem drives_commit {writes : Writes} (hwrites : tx.writes = some writes)
    (hopposes : tx.opposes db = false) :
    Drives Race.step (.next 0) ⟨db, [tx], overwritten⟩
      ⟨(finishRequest db (.ok writes)).2, [tx.ends (.done (finishRequest db (.ok writes)).1)],
        overwritten⟩ := by
  have hnext : tx.next db = some (tx.commit db writes) := by
    unfold Tx.next
    rw [hwrites]
  unfold Tx.commit at hnext
  unfold finishRequest
  dsimp only
  cases hcommit : db.commit writes with
  | none =>
    rw [hcommit] at hnext
    exact .head (next_alone hnext hopposes) (.refl _ _ _)
  | some db' =>
    rw [hcommit] at hnext
    exact .head (next_alone hnext hopposes) (drives_ends db' tx writes.request.id)

/-- `request_join` with nothing in between. -/
theorem join_alone (j : Join) :
    Drives Race.step (.next 0) ⟨db, [.join j .group], overwritten⟩
      ⟨(requestJoin db j.userId j.now j.requestId j.groupId j.body).2,
        [.join j (.ending (.done
          (requestJoin db j.userId j.now j.requestId j.groupId j.body).1))], overwritten⟩ := by
  unfold requestJoin readJoin
  refine .head (next_alone rfl rfl) ?_
  cases joinedGroup db j.groupId with
  | error err => exact .refl _ _ _
  | ok group =>
    refine .head (next_alone rfl rfl) ?_
    cases notMember db j.groupId j.userId with
    | error err => exact .refl _ _ _
    | ok u =>
      refine .head (next_alone rfl rfl) ?_
      cases existingRequest db j.groupId j.userId with
      | error err => exact .refl _ _ _
      | ok existing => exact drives_commit rfl rfl

/-- `decide_request` with nothing in between. -/
theorem decide_alone (d : Decide) :
    Drives Race.step (.next 0) ⟨db, [.decide d .admin], overwritten⟩
      ⟨(decideRequest db d.userId d.role d.now d.groupId d.requestId d.approve).2,
        [.decide d (.ending (.done
          (decideRequest db d.userId d.role d.now d.groupId d.requestId d.approve).1))],
        overwritten⟩ := by
  unfold decideRequest readDecision
  refine .head (next_alone rfl rfl) ?_
  cases requireAdminMember db d.groupId d.userId with
  | error err => exact .refl _ _ _
  | ok member =>
    refine .head (next_alone rfl rfl) ?_
    cases hrequest : pendingRequest db d.groupId d.requestId with
    | error err => exact .refl _ _ _
    | ok request =>
      obtain ⟨hfind, -, hpending⟩ := pendingRequest_ok hrequest
      refine drives_commit rfl ?_
      have hid : request.id = d.requestId := Table.find_key hfind
      show (Table.find GroupJoinRequest.id db.requests request.id).any _ = false
      rw [hid, hfind, Option.any_some, hpending]
      cases d.approve <;> rfl

/-! ## Agreement -/

def IsMember (db : Db) (key : UUID × UUID) : Prop := ∃ member ∈ db.members, member.key = key

/-- The approved requests are those of members. -/
def RequestsAgree (db : Db) : Prop :=
  ∀ request ∈ db.requests, request.status = .APPROVED ↔ IsMember db request.key

/-- What is committed agrees, and no decision has overwritten the opposite one. -/
def Agree (s : Race) : Prop := RequestsAgree s.db ∧ s.overwritten = false

/-- Tables to start from. -/
structure Consistent (db : Db) : Prop where
  keys : Keys db
  agree : RequestsAgree db

/-- The commit conflicts with one there has been since the transaction's reads, and is not
    stopped by an index: it puts a member's request back to `PENDING`, or decides a request
    that has been decided the other way. -/
def Tx.conflicts (db : Db) : Tx → Prop
  | .join j (.commit group (some request)) =>
    group.joinApprovalRequired = true ∧ messageTakes (some request) j.body.message = true ∧
      IsMember db (j.groupId, j.userId)
  | .decide d (.commit request) => Tx.opposes db (.decide d (.commit request)) = true
  | _ => False

def Conflict (s : Race) : RaceAction → Prop
  | .next i => ∃ tx ∈ s.txs[i]?, tx.conflicts s.db
  | _ => False

/-! ### What a transaction has read -/

/-- The user is no member, or has a request by now. -/
def Stranger (db : Db) (key : UUID × UUID) : Prop :=
  ¬ IsMember db key ∨ ∃ row ∈ db.requests, row.key = key

/-- The row is still there, under its key. -/
def Present (db : Db) (request : GroupJoinRequest) : Prop :=
  ∃ row ∈ db.requests, row.id = request.id ∧ row.key = request.key

/-- What is left of what a transaction has read. -/
def Tx.Sound (db : Db) : Tx → Prop
  | .join j (.membership group) => group.id = j.groupId
  | .join j (.existing group) => group.id = j.groupId ∧ Stranger db (j.groupId, j.userId)
  | .join j (.commit group none) => group.id = j.groupId ∧ Stranger db (j.groupId, j.userId)
  | .join j (.commit group (some request)) =>
    group.id = j.groupId ∧ request.key = (j.groupId, j.userId) ∧ Present db request ∧
      request.status ≠ .PENDING ∧
        (request.status = .APPROVED → IsMember db (j.groupId, j.userId))
  | .decide _ (.commit request) => Present db request ∧ request.status = .PENDING
  | _ => True

structure RaceInv (s : Race) : Prop where
  keys : Keys s.db
  agree : Agree s
  sound : ∀ tx ∈ s.txs, tx.Sound s.db

/-- What a commit leaves: members and requests stay, and a new member has a request. -/
structure Grows (db db' : Db) : Prop where
  members : ∀ key, IsMember db key → IsMember db' key
  rows : ∀ request, Present db request → Present db' request
  requested : ∀ key, ¬ IsMember db key → IsMember db' key → ∃ row ∈ db'.requests, row.key = key

theorem Grows.refl (db : Db) : Grows db db where
  members := fun _ h => h
  rows := fun _ h => h
  requested := fun _ h h' => absurd h' h

variable {key : UUID × UUID}

theorem Stranger.grows (h : Stranger db key) (hgrows : Grows db db') : Stranger db' key := by
  obtain hnot | ⟨row, hrow, hkey⟩ := h
  · by_cases hmember : IsMember db' key
    · exact .inr (hgrows.requested key hnot hmember)
    · exact .inl hmember
  · obtain ⟨row', hrow', -, hkey'⟩ := hgrows.rows row ⟨row, hrow, rfl, rfl⟩
    exact .inr ⟨row', hrow', hkey'.trans hkey⟩

theorem Tx.Sound.grows (h : tx.Sound db) (hgrows : Grows db db') : tx.Sound db' := by
  cases tx with
  | join j pc =>
    cases pc with
    | group => trivial
    | membership group => exact h
    | existing group => exact ⟨h.1, h.2.grows hgrows⟩
    | commit group existing =>
      cases existing with
      | none => exact ⟨h.1, h.2.grows hgrows⟩
      | some request =>
        obtain ⟨hgroup, hkey, hpresent, hpending, happroved⟩ := h
        exact ⟨hgroup, hkey, hgrows.rows request hpresent, hpending,
          fun hstatus => hgrows.members _ (happroved hstatus)⟩
    | ending e => trivial
  | decide d pc =>
    cases pc with
    | admin => trivial
    | request => trivial
    | commit request => exact ⟨hgrows.rows request h.1, h.2⟩
    | ending e => trivial

theorem not_isMember_iff :
    ¬ IsMember db key ↔ Table.find GroupMember.key db.members key = none := by
  unfold IsMember
  rw [Table.find_eq_none]
  constructor
  · intro h member hmember hkey
    exact h ⟨member, hmember, hkey⟩
  · rintro h ⟨member, hmember, hkey⟩
    exact h member hmember hkey

/-- A read learns what is committed. -/
theorem sound_read (hagree : RequestsAgree db) (h : tx.Sound db) (hread : tx.read db = some tx') :
    tx'.Sound db := by
  cases tx with
  | join j pc =>
    cases pc with
    | group =>
      obtain rfl := Option.some.inj hread
      unfold Join.orEnd
      cases hgroup : joinedGroup db j.groupId with
      | error err => trivial
      | ok group => exact group_id (joinedGroup_ok hgroup).1
    | membership group =>
      obtain rfl := Option.some.inj hread
      unfold Join.orEnd
      cases hmember : notMember db j.groupId j.userId with
      | error err => trivial
      | ok u => exact ⟨h, .inl (not_isMember_iff.mpr (notMember_ok hmember))⟩
    | existing group =>
      obtain rfl := Option.some.inj hread
      unfold Join.orEnd
      cases hold : existingRequest db j.groupId j.userId with
      | error err => trivial
      | ok existing =>
        cases existing with
        | none => exact h
        | some request =>
          obtain ⟨hfind, hpending⟩ := existingRequest_ok hold
          have hmem : request ∈ db.requests := Table.find_mem hfind
          have hkey : request.key = (j.groupId, j.userId) := Table.find_key hfind
          exact ⟨h.1, hkey, ⟨request, hmem, rfl, rfl⟩, hpending request rfl,
            fun hstatus => hkey ▸ (hagree request hmem).mp hstatus⟩
    | commit group existing => cases hread
    | ending e =>
      obtain ⟨e', -, rfl⟩ := Option.map_eq_some_iff.mp hread
      trivial
  | decide d pc =>
    cases pc with
    | admin =>
      obtain rfl := Option.some.inj hread
      unfold Decide.orEnd
      cases requireAdminMember db d.groupId d.userId with
      | error err => trivial
      | ok member => trivial
    | request =>
      obtain rfl := Option.some.inj hread
      unfold Decide.orEnd
      cases hrequest : pendingRequest db d.groupId d.requestId with
      | error err => trivial
      | ok request =>
        obtain ⟨hfind, -, hpending⟩ := pendingRequest_ok hrequest
        exact ⟨⟨request, Table.find_mem hfind, rfl, rfl⟩, hpending⟩
    | commit request => cases hread
    | ending e =>
      obtain ⟨e', -, rfl⟩ := Option.map_eq_some_iff.mp hread
      trivial

/-! ### Commits -/

/-- A commit that leaves the row `new` in the place of `old`, and makes the members. -/
structure Written (db db' : Db) (old : Option GroupJoinRequest) (new : GroupJoinRequest)
    (members : List GroupMember) : Prop where
  replaces : Replaces db.requests db'.requests old new
  replaced : ∀ row, old = some row → row ∈ db.requests ∧ row.id = new.id ∧ row.key = new.key
  added : db'.members = db.members ++ members
  ofRequest : ∀ member ∈ members, member.key = new.key

variable {old : Option GroupJoinRequest} {new request : GroupJoinRequest}
  {members : List GroupMember} {writes : Writes}

theorem Written.isMember (h : Written db db' old new members) :
    IsMember db' key ↔ IsMember db key ∨ ∃ member ∈ members, member.key = key := by
  unfold IsMember
  rw [h.added]
  simp only [List.mem_append, or_and_right, exists_or]

theorem Written.grows (h : Written db db' old new members) : Grows db db' where
  members key hmember := h.isMember.mpr (.inl hmember)
  rows request hpresent := by
    obtain ⟨row, hrow, hid, hkey⟩ := hpresent
    by_cases hold : old = some row
    · obtain ⟨-, hid', hkey'⟩ := h.replaced row hold
      exact ⟨new, (h.replaces new).mpr (.inl rfl), hid'.symm.trans hid, hkey'.symm.trans hkey⟩
    · exact ⟨row, (h.replaces row).mpr (.inr ⟨hrow, hold⟩), hid, hkey⟩
  requested key hnot hmember := by
    obtain hold | ⟨member, hin, hkey⟩ := h.isMember.mp hmember
    · exact absurd hold hnot
    · exact ⟨new, (h.replaces new).mpr (.inl rfl), (h.ofRequest member hin).symm.trans hkey⟩

/-- It is enough to look at the request that is written. -/
theorem Written.agree (h : Written db db' old new members) (hkeys : Keys db')
    (hagree : RequestsAgree db) (hnew : new.status = .APPROVED ↔ IsMember db' new.key) :
    RequestsAgree db' := by
  intro request hrequest
  obtain rfl | ⟨hin, -⟩ := (h.replaces request).mp hrequest
  · exact hnew
  · by_cases hkey : request.key = new.key
    · obtain rfl := List.inj_on_of_nodup_map hkeys.requestKeys hrequest
        ((h.replaces new).mpr (.inl rfl)) hkey
      exact hnew
    · rw [hagree request hin, h.isMember]
      refine ⟨.inl, fun hmember => hmember.resolve_right ?_⟩
      rintro ⟨member, hmember, hof⟩
      exact hkey (hof.symm.trans (h.ofRequest member hmember))

theorem written_insert (hcommit : db.commit writes = some db')
    (hinsert : writes.request = .insert new)
    (hof : ∀ member ∈ writes.member.toList, member.key = new.key) :
    Written db db' none new writes.member.toList := by
  obtain ⟨-, -, rfl⟩ := commit_eq_some hcommit
  refine ⟨?_, fun row hrow => (by cases hrow), rfl, hof⟩
  dsimp only
  rw [hinsert]
  exact replaces_append new

theorem written_update (hkeys : Keys db) (hcommit : db.commit writes = some db')
    {columns : RequestColumns} (hupdate : writes.request = .update request.id columns)
    (hpresent : Present db request)
    (hof : ∀ member ∈ writes.member.toList, member.key = request.key) :
    ∃ row ∈ db.requests, row.id = request.id ∧ row.key = request.key ∧
      Written db db' (some row) (columns.apply row) writes.member.toList := by
  obtain ⟨row, hrow, hid, hkey⟩ := hpresent
  obtain ⟨-, -, rfl⟩ := commit_eq_some hcommit
  refine ⟨row, hrow, hid, hkey, ⟨?_, fun r hr => ?_, rfl, fun member hmember => ?_⟩⟩
  · dsimp only
    rw [hupdate, ← hid]
    exact replaces_modify hkeys.requestIds hrow columns.apply
  · obtain rfl := Option.some.inj hr
    exact ⟨hrow, rfl, rfl⟩
  · exact (hof member hmember).trans hkey.symm

theorem changed_of_ne {α : Type} [DecidableEq α] {read new : α} (h : read ≠ new) :
    changed read new = some new := if_neg h

/-- The members that `request_join` adds. -/
theorem mem_joinWrites {userId : UUID} {now : Time} {requestId : UUID} {message : Option String}
    {group : Group} {existing : Option GroupJoinRequest} {member : GroupMember} :
    member ∈ (joinWrites userId now requestId message group existing).member.toList ↔
      group.joinApprovalRequired = false ∧ member = ⟨group.id, userId, .MEMBER, now⟩ := by
  unfold joinWrites
  dsimp only
  cases group.joinApprovalRequired with
  | true => simp
  | false => simp

/-- The members that `decide_request` adds. -/
theorem mem_decideWrites {userId : UUID} {role : UserRole} {now : Time} {approve : Bool}
    {member : GroupMember} :
    member ∈ (decideWrites userId role now approve request).member.toList ↔
      approve = true ∧ member = ⟨request.groupId, request.userId, .MEMBER, now⟩ := by
  unfold decideWrites
  dsimp only
  cases approve with
  | true => simp
  | false => simp

/-- A request for a user without one. -/
theorem agree_insert (hkeys : Keys db) (hagree : RequestsAgree db) {j : Join} {group : Group}
    (hsound : Tx.Sound db (.join j (.commit group none)))
    (hcommit : db.commit (joinWrites j.userId j.now j.requestId j.body.message group none) =
      some db') : RequestsAgree db' ∧ Grows db db' := by
  obtain ⟨hgroup, hstranger⟩ := hsound
  obtain ⟨-, haccepts, -⟩ := commit_eq_some hcommit
  have hwritten := written_insert hcommit rfl fun member hmember => by
    rw [(mem_joinWrites.mp hmember).2]
    rfl
  refine ⟨hwritten.agree (keys_commit hkeys hcommit) hagree ?_, hwritten.grows⟩
  rw [hwritten.isMember]
  show joinStatus group = .APPROVED ↔ IsMember db (group.id, j.userId) ∨ _
  unfold joinStatus
  split_ifs with happroval
  · refine iff_of_false (fun h => (by cases h)) ?_
    rintro (hmember | ⟨member, hmember, -⟩)
    · obtain hnot | ⟨row, hrow, hkey⟩ := hstranger
      · exact hnot (hgroup ▸ hmember)
      · exact Table.find_eq_none.mp (accepts_insert haccepts rfl).2 row hrow
          (hkey.trans (by rw [← hgroup]; rfl))
    · rw [(mem_joinWrites.mp hmember).1] at happroval
      cases happroval
  · exact iff_of_true rfl
      (.inr ⟨_, mem_joinWrites.mpr ⟨Bool.eq_false_iff.mpr happroval, rfl⟩, rfl⟩)

/-- A request in the row of an earlier one. -/
theorem agree_reuse (hkeys : Keys db) (hagree : RequestsAgree db) {j : Join} {group : Group}
    (hsound : Tx.Sound db (.join j (.commit group (some request))))
    (hconflict : ¬ Tx.conflicts db (.join j (.commit group (some request))))
    (hcommit : db.commit
      (joinWrites j.userId j.now j.requestId j.body.message group (some request)) = some db') :
    RequestsAgree db' ∧ Grows db db' := by
  obtain ⟨hgroup, hkey, hpresent, hpending, happroved⟩ := hsound
  obtain ⟨hstorable, haccepts, -⟩ := commit_eq_some hcommit
  obtain ⟨row, hrow, hid, hrowKey, hwritten⟩ := written_update hkeys hcommit rfl hpresent
    fun member hmember => by
      rw [(mem_joinWrites.mp hmember).2, hkey, ← hgroup]
      rfl
  refine ⟨hwritten.agree (keys_commit hkeys hcommit) hagree ?_, hwritten.grows⟩
  rw [hwritten.isMember, RequestColumns.apply_key, hrowKey, hkey]
  show (changed request.status (joinStatus group)).getD row.status = .APPROVED ↔ _
  unfold joinStatus
  split_ifs with happroval
  · rw [changed_of_ne hpending]
    refine iff_of_false (fun h => (by cases h)) ?_
    rintro (hmember | ⟨member, hmember, -⟩)
    · exact hconflict ⟨happroval, (storable_joinWrites ..).symm.trans hstorable, hmember⟩
    · rw [(mem_joinWrites.mp hmember).1] at happroval
      cases happroval
  · have hopen := Bool.eq_false_iff.mpr happroval
    have hnew : (⟨group.id, j.userId, .MEMBER, j.now⟩ : GroupMember) ∈ (joinWrites j.userId j.now
        j.requestId j.body.message group (some request)).member.toList :=
      mem_joinWrites.mpr ⟨hopen, rfl⟩
    have hnot : request.status ≠ .APPROVED := by
      intro hstatus
      have hnone := accepts_member haccepts (Option.mem_toList.mp hnew)
      refine not_isMember_iff.mpr hnone ?_
      show IsMember db (group.id, j.userId)
      rw [hgroup]
      exact happroved hstatus
    rw [changed_of_ne hnot]
    exact iff_of_true rfl (.inr ⟨_, hnew, by rw [← hgroup]; rfl⟩)

/-- A decision. -/
theorem agree_decide (hkeys : Keys db) (hagree : RequestsAgree db) {d : Decide}
    (hsound : Tx.Sound db (.decide d (.commit request)))
    (hconflict : ¬ Tx.conflicts db (.decide d (.commit request)))
    (hcommit : db.commit (decideWrites d.userId d.role d.now d.approve request) = some db') :
    RequestsAgree db' ∧ Grows db db' := by
  obtain ⟨hpresent, hpending⟩ := hsound
  obtain ⟨row, hrow, hid, hkey, hwritten⟩ := written_update hkeys hcommit rfl hpresent
    fun member hmember => by
      rw [(mem_decideWrites.mp hmember).2]
      rfl
  refine ⟨hwritten.agree (keys_commit hkeys hcommit) hagree ?_, hwritten.grows⟩
  rw [hwritten.isMember, RequestColumns.apply_key]
  show (changed request.status (decidedStatus d.approve)).getD row.status = .APPROVED ↔ _
  have hchanged : request.status ≠ decidedStatus d.approve := by
    rw [hpending]
    cases d.approve <;> decide
  rw [changed_of_ne hchanged, Option.getD_some]
  cases happrove : d.approve with
  | true =>
    exact iff_of_true rfl (.inr ⟨_, mem_decideWrites.mpr ⟨rfl, rfl⟩, hkey.symm⟩)
  | false =>
    refine iff_of_false (fun h => (by cases h)) ?_
    rintro (hmember | ⟨member, hmember, -⟩)
    · refine hconflict ?_
      have hfind : Table.find GroupJoinRequest.id db.requests request.id = some row :=
        hid ▸ Table.find_of_mem hkeys.requestIds hrow
      show (Table.find GroupJoinRequest.id db.requests request.id).any _ = true
      rw [hfind, Option.any_some, (hagree row hrow).mpr hmember, happrove]
      rfl
    · exact absurd (mem_decideWrites.mp hmember).1 Bool.false_ne_true

/-- The requests agree after a commit that does not conflict. -/
theorem agree_commit (hkeys : Keys db) (hagree : RequestsAgree db) (hsound : tx.Sound db)
    (hconflict : ¬ tx.conflicts db) (hwrites : tx.writes = some writes)
    (hcommit : db.commit writes = some db') : RequestsAgree db' ∧ Grows db db' := by
  cases tx with
  | join j pc =>
    cases pc with
    | group => cases hwrites
    | membership group => cases hwrites
    | existing group => cases hwrites
    | ending e => cases hwrites
    | commit group existing =>
      obtain rfl := Option.some.inj hwrites
      cases existing with
      | none => exact agree_insert hkeys hagree hsound hcommit
      | some request => exact agree_reuse hkeys hagree hsound hconflict hcommit
  | decide d pc =>
    cases pc with
    | admin => cases hwrites
    | request => cases hwrites
    | ending e => cases hwrites
    | commit request =>
      obtain rfl := Option.some.inj hwrites
      exact agree_decide hkeys hagree hsound hconflict hcommit

/-! ### Runs -/

theorem raceInv_start (h : Consistent db) : RaceInv (Race.start db) where
  keys := h.keys
  agree := ⟨h.agree, rfl⟩
  sound := fun _ htx => absurd htx List.not_mem_nil

variable {s s' : Race}

theorem sound_ends (tx : Tx) (e : Ending) : (tx.ends e).Sound db := by
  cases tx <;> trivial

/-- A decision that opposes the one there is conflicts with it. -/
theorem opposes_of_not_conflicts (h : ¬ tx.conflicts db) : tx.opposes db = false := by
  cases tx with
  | join j pc => rfl
  | decide d pc =>
    cases pc with
    | admin => rfl
    | request => rfl
    | ending e => rfl
    | commit request => exact Bool.eq_false_iff.mpr h

theorem raceInv_next (h : RaceInv s) {i : ℕ} (hguard : ¬ Conflict s (.next i))
    (hstep : s.step (.next i) = some s') : RaceInv s' := by
  obtain ⟨tx, htx, hmoves⟩ := Option.bind_eq_some_iff.mp hstep
  obtain ⟨⟨db', tx'⟩, hnext, rfl⟩ := Option.map_eq_some_iff.mp hmoves
  have hconflict : ¬ tx.conflicts s.db := fun hc => hguard ⟨tx, htx, hc⟩
  have hsound := h.sound tx (List.mem_of_getElem? htx)
  have hover : (s.overwritten || tx.commits s.db && tx.opposes s.db) = false := by
    rw [h.agree.2, opposes_of_not_conflicts hconflict, Bool.and_false]
    rfl
  unfold Tx.next at hnext
  cases hwrites : tx.writes with
  | none =>
    rw [hwrites] at hnext
    obtain ⟨tx'', hread, heq⟩ := Option.map_eq_some_iff.mp hnext
    obtain ⟨rfl, rfl⟩ := Prod.mk.inj heq
    exact ⟨h.keys, ⟨h.agree.1, hover⟩, forall_set h.sound (sound_read h.agree.1 hsound hread)⟩
  | some writes =>
    rw [hwrites] at hnext
    have hcommitted : tx.commit s.db writes = (db', tx') := Option.some.inj hnext
    unfold Tx.commit at hcommitted
    cases hcommit : s.db.commit writes with
    | none =>
      rw [hcommit] at hcommitted
      obtain ⟨rfl, rfl⟩ := Prod.mk.inj hcommitted
      exact ⟨h.keys, ⟨h.agree.1, hover⟩, forall_set h.sound (sound_ends tx _)⟩
    | some db'' =>
      rw [hcommit] at hcommitted
      obtain ⟨rfl, rfl⟩ := Prod.mk.inj hcommitted
      obtain ⟨hagree, hgrows⟩ := agree_commit h.keys h.agree.1 hsound hconflict hwrites hcommit
      exact ⟨keys_commit h.keys hcommit, ⟨hagree, hover⟩,
        forall_set (fun other hother => (h.sound other hother).grows hgrows) (sound_ends tx _)⟩

/-- A transaction starts. -/
theorem raceInv_append (h : RaceInv s) {tx : Tx} (hsound : tx.Sound s.db) :
    RaceInv { s with txs := s.txs ++ [tx] } := by
  refine ⟨h.keys, h.agree, fun other hother => ?_⟩
  obtain hin | hin := List.mem_append.mp hother
  · exact h.sound other hin
  · rw [List.mem_singleton.mp hin]
    exact hsound

theorem raceInv_step (h : RaceInv s) {a : RaceAction} (hguard : ¬ Conflict s a)
    (hstep : s.step a = some s') : RaceInv s' := by
  cases a with
  | join j =>
    obtain rfl := Option.some.inj hstep
    exact raceInv_append h trivial
  | decide d =>
    obtain rfl := Option.some.inj hstep
    exact raceInv_append h trivial
  | next i => exact raceInv_next h hguard hstep

/-! ### Conflicts -/

/-- A member's request is put back to `PENDING`. -/
theorem not_agree_reuse (hkeys : Keys db) {j : Join} {group : Group}
    (hsound : Tx.Sound db (.join j (.commit group (some request))))
    (hconflict : Tx.conflicts db (.join j (.commit group (some request)))) :
    ∃ db', db.commit (joinWrites j.userId j.now j.requestId j.body.message group (some request)) =
      some db' ∧ ¬ RequestsAgree db' := by
  obtain ⟨hgroup, hkey, hpresent, hpending, -⟩ := hsound
  obtain ⟨happroval, hmessage, hmember⟩ := hconflict
  have hnone : (joinWrites j.userId j.now j.requestId j.body.message group
      (some request)).member = none := if_pos happroval
  have haccepts : db.accepts
      (joinWrites j.userId j.now j.requestId j.body.message group (some request)) = true := by
    unfold Db.accepts
    rw [hnone]
    rfl
  have hcommit : ∃ db', db.commit
      (joinWrites j.userId j.now j.requestId j.body.message group (some request)) = some db' := by
    unfold Db.commit
    rw [storable_joinWrites, hmessage, haccepts]
    exact ⟨_, rfl⟩
  obtain ⟨db', hcommit⟩ := hcommit
  refine ⟨db', hcommit, fun hagree => ?_⟩
  obtain ⟨row, hrow, hid, hrowKey, hwritten⟩ := written_update hkeys hcommit rfl hpresent
    fun member hin => by
      rw [hnone] at hin
      cases hin
  have hnew := hagree _ ((hwritten.replaces _).mpr (.inl rfl))
  rw [RequestColumns.apply_key, hrowKey, hkey] at hnew
  have happroved := hnew.mpr (hwritten.isMember.mpr (.inl hmember))
  have hstatus : (changed request.status (joinStatus group)).getD row.status = .APPROVED :=
    happroved
  have hjoin : joinStatus group = .PENDING := if_pos happroval
  rw [hjoin, changed_of_ne hpending] at hstatus
  cases hstatus

/-- A decision against one the other way is not stopped. -/
theorem commits_of_opposes (hagree : RequestsAgree db) {d : Decide}
    (hsound : Tx.Sound db (.decide d (.commit request))) (hkeys : Keys db)
    (hopposes : Tx.opposes db (.decide d (.commit request)) = true) :
    Tx.commits db (.decide d (.commit request)) = true := by
  obtain ⟨⟨row, hrow, hid, hkey⟩, -⟩ := hsound
  have hfind : Table.find GroupJoinRequest.id db.requests request.id = some row :=
    hid ▸ Table.find_of_mem hkeys.requestIds hrow
  have hstatus : row.status = decidedStatus !d.approve := by
    have hany : (Table.find GroupJoinRequest.id db.requests request.id).any (fun row =>
        row.status = decidedStatus !d.approve) = true := hopposes
    rw [hfind, Option.any_some] at hany
    exact of_decide_eq_true hany
  have haccepts : db.accepts (decideWrites d.userId d.role d.now d.approve request) = true := by
    unfold Db.accepts decideWrites
    dsimp only
    cases happrove : d.approve with
    | false => rfl
    | true =>
      rw [happrove] at hstatus
      have hnot : ¬ IsMember db request.key := by
        intro hmember
        rw [(hagree row hrow).mpr (hkey ▸ hmember)] at hstatus
        cases hstatus
      have hnone : membership db request.groupId request.userId = none := not_isMember_iff.mp hnot
      rw [if_pos rfl, Option.all_some, hnone]
      rfl
  show (db.commit (decideWrites d.userId d.role d.now d.approve request)).isSome = true
  unfold Db.commit
  rw [haccepts]
  rfl

theorem not_agree_conflict (h : RaceInv s) {a : RaceAction} (hconflict : Conflict s a) :
    ∃ s', s.step a = some s' ∧ ¬ Agree s' := by
  cases a with
  | join j => exact absurd hconflict id
  | decide d => exact absurd hconflict id
  | next i =>
    obtain ⟨tx, htx, hconflict⟩ := hconflict
    have hsound := h.sound tx (List.mem_of_getElem? htx)
    have hstep : ∀ p, tx.next s.db = some p → s.step (.next i) =
        some ⟨p.1, s.txs.set i p.2, s.overwritten || tx.commits s.db && tx.opposes s.db⟩ := by
      intro p hp
      show s.txs[i]?.bind _ = _
      rw [Option.mem_def.mp htx, Option.bind_some, hp]
      rfl
    cases tx with
    | join j pc =>
      cases pc with
      | group => exact absurd hconflict id
      | membership group => exact absurd hconflict id
      | existing group => exact absurd hconflict id
      | ending e => exact absurd hconflict id
      | commit group existing =>
        cases existing with
        | none => exact absurd hconflict id
        | some request =>
          obtain ⟨db', hcommit, hnot⟩ := not_agree_reuse h.keys hsound hconflict
          refine ⟨_, hstep _ rfl, fun hagree => hnot ?_⟩
          have hfst : (Tx.commit s.db (.join j (.commit group (some request))) (joinWrites j.userId
              j.now j.requestId j.body.message group (some request))).1 = db' := by
            unfold Tx.commit
            rw [hcommit]
          rw [← hfst]
          exact hagree.1
    | decide d pc =>
      cases pc with
      | admin => exact absurd hconflict id
      | request => exact absurd hconflict id
      | ending e => exact absurd hconflict id
      | commit request =>
        refine ⟨_, hstep _ rfl, fun hagree => ?_⟩
        have hover : (s.overwritten || Tx.commits s.db (.decide d (.commit request)) &&
            Tx.opposes s.db (.decide d (.commit request))) = false := hagree.2
        have hopposes : Tx.opposes s.db (.decide d (.commit request)) = true := hconflict
        rw [commits_of_opposes h.agree.1 hsound h.keys hopposes, hopposes, Bool.true_and,
          Bool.or_true] at hover
        cases hover

/-- From consistent tables on, in an interleaving of joins and decisions everything committed
    agrees and no decision is overwritten exactly when no commit conflicts. -/
theorem agree_iff (h : Consistent db) (actions : List RaceAction) :
    Throughout Race.step Agree (Race.start db) actions ↔
      Guarded Race.step (fun s a => ¬ Conflict s a) (Race.start db) actions :=
  throughout_iff_guarded (fun _ hs => hs.agree)
    (fun _ _ _ hs hguard hstep => raceInv_step hs hguard hstep)
    (fun _ _ hs hguard => not_agree_conflict hs (not_not.mp hguard)) (raceInv_start h)

/-- A group with the owner `0` and the admin `2`, which user `1` has asked to join. -/
def askedDb : Db :=
  { groups := [newGroup 0 (plainGroup true)]
    members := [⟨0, 0, .OWNER, 0⟩, ⟨0, 2, .ADMIN, 0⟩]
    requests := [⟨0, 0, 1, .PENDING, none, none, none, 0⟩]
    audit := [] }

theorem consistent_askedDb : Consistent askedDb where
  keys := ⟨by decide, by decide, by decide, by decide⟩
  agree request hrequest := by
    rw [List.mem_singleton.mp hrequest]
    refine iff_of_false (fun h => (by cases h)) ?_
    rintro ⟨member, hmember, hkey⟩
    have hall : ∀ member ∈ askedDb.members, member.key ≠ (0, 1) := by decide
    exact hall member hmember hkey

/-- The owner approves the request while the admin rejects it. -/
def oppositeDecisions : List RaceAction :=
  [.decide ⟨0, .SOLDIER, 1, 0, 0, true⟩, .decide ⟨2, .SOLDIER, 1, 0, 0, false⟩, .next 0, .next 0,
    .next 1, .next 1, .next 0, .next 1]

/-- User `1` is a member, and the request is rejected. -/
theorem rejected_member : Consistent askedDb ∧
    ∃ s, run Race.step (Race.start askedDb) oppositeDecisions = some s ∧
      ¬ RequestsAgree s.db ∧ s.overwritten = true := by
  have hends : (run Race.step (Race.start askedDb) oppositeDecisions).map (fun s =>
      (s.db.requests, s.db.members.map GroupMember.key, s.overwritten)) =
      some ([⟨0, 0, 1, .REJECTED, none, some 2, some 1, 0⟩], [(0, 0), (0, 2), (0, 1)], true) := by
    decide +kernel
  obtain ⟨s, hrun, hs⟩ := Option.map_eq_some_iff.mp hends
  obtain ⟨hrequests, hrest⟩ := Prod.mk.inj hs
  obtain ⟨hmembers, hover⟩ := Prod.mk.inj hrest
  refine ⟨consistent_askedDb, s, hrun, fun hagree => ?_, hover⟩
  have hmember : IsMember s.db (0, 1) := by
    have hin : (0, 1) ∈ s.db.members.map GroupMember.key := by
      rw [hmembers]
      decide
    obtain ⟨member, hmem, hkey⟩ := List.mem_map.mp hin
    exact ⟨member, hmem, hkey⟩
  have hrow : (⟨0, 0, 1, .REJECTED, none, some 2, some 1, 0⟩ : GroupJoinRequest) ∈
      s.db.requests := by
    rw [hrequests]
    exact List.mem_singleton.mpr rfl
  cases (hagree _ hrow).mpr hmember

theorem agree_oppositeDecisions : Consistent askedDb ∧
    (Throughout Race.step Agree (Race.start askedDb) oppositeDecisions ↔
      Guarded Race.step (fun s a => ¬ Conflict s a) (Race.start askedDb) oppositeDecisions) :=
  ⟨consistent_askedDb, agree_iff consistent_askedDb oppositeDecisions⟩

end IronLink.Groups
