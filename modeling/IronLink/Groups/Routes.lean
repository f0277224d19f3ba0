import IronLink.Auth.Account
import IronLink.Lib.Run

/-!
# Groups: creating, joining, deciding

`create_group`, `request_join` and `decide_request` (app/api/routes/groups.py:75-287) on
the tables of app/models/group.py. A route reads first and writes in its commit; what it
writes is a `Writes`, of which the ORM sends the columns that the route has changed. A
commit that violates a primary key or a unique index raises and changes nothing.

Results:
* `keys_commit`: primary keys and unique indexes hold after every commit.
* `effect_run`: what a call does, in a case for each route.
-/

namespace IronLink.Groups

open Lib Auth

/-! ## Tables -/

/-- `GroupRole` (app/models/group.py:19-27). -/
inductive GroupRole
  | OBSERVER
  | MEMBER
  | MODERATOR
  | ADMIN
  | OWNER
  deriving DecidableEq

/-- `GROUP_ROLE_RANK` (app/models/group.py:31-37). -/
def GROUP_ROLE_RANK : GroupRole → ℕ
  | .OBSERVER => 0
  | .MEMBER => 1
  | .MODERATOR => 2
  | .ADMIN => 3
  | .OWNER => 4

/-- `JoinRequestStatus` (app/models/group.py:40-43). -/
inductive JoinRequestStatus
  | PENDING
  | APPROVED
  | REJECTED
  deriving DecidableEq

/-- The columns of `Group` that the routes read or write (app/models/group.py:53-112). -/
structure Group where
  id : UUID
  name : String
  description : Option String
  groupType : String
  maxMembers : ℤ
  isArchived : Bool
  isAnnouncementGroup : Bool
  joinApprovalRequired : Bool
  deriving DecidableEq

/-- The columns of `GroupMember` that the routes read or write (app/models/group.py:115-158). -/
structure GroupMember where
  groupId : UUID
  userId : UUID
  role : GroupRole
  joinedAt : Time
  deriving DecidableEq

/-- The columns of the unique index `ix_group_members_unique`. -/
def GroupMember.key (member : GroupMember) : UUID × UUID := (member.groupId, member.userId)

/-- `can_manage_members` (app/models/group.py:169-170). -/
def GroupMember.canManageMembers (member : GroupMember) : Bool :=
  GROUP_ROLE_RANK .ADMIN ≤ GROUP_ROLE_RANK member.role

/-- `GroupJoinRequest` (app/models/group.py:173-205). -/
structure GroupJoinRequest where
  id : UUID
  groupId : UUID
  userId : UUID
  status : JoinRequestStatus
  message : Option String
  decidedById : Option UUID
  decidedAt : Option Time
  createdAt : Time
  deriving DecidableEq

/-- The columns of the unique index `ix_join_req_unique_pending`. -/
def GroupJoinRequest.key (request : GroupJoinRequest) : UUID × UUID :=
  (request.groupId, request.userId)

/-- The columns of `AuditLog` that the routes write; `newMember` is the one entry of
    `metadata_`. -/
structure AuditLog where
  actorId : UUID
  actorRole : UserRole
  action : String
  resourceType : String
  resourceId : String
  newMember : Option String
  success : Bool
  deriving DecidableEq

structure Db where
  groups : List Group
  members : List GroupMember
  requests : List GroupJoinRequest
  audit : List AuditLog

def Db.empty : Db := ⟨[], [], [], []⟩

/-! ## Queries -/

/-- `select(Group).where(Group.id == group_id)`. -/
def Db.group (db : Db) (groupId : UUID) : Option Group := Table.find Group.id db.groups groupId

/-- `_membership` (app/api/routes/groups.py:75-83). -/
def membership (db : Db) (groupId userId : UUID) : Option GroupMember :=
  Table.find GroupMember.key db.members (groupId, userId)

/-- `_require_admin_member` (app/api/routes/groups.py:86-92). -/
def requireAdminMember (db : Db) (groupId userId : UUID) : Except HttpError GroupMember :=
  match membership db groupId userId with
  | none => .error ⟨403, "group admin role required"⟩
  | some member =>
    if member.canManageMembers then .ok member else .error ⟨403, "group admin role required"⟩

/-- The group of `request_join` (app/api/routes/groups.py:193-195). -/
def joinedGroup (db : Db) (groupId : UUID) : Except HttpError Group :=
  match db.group groupId with
  | none => .error ⟨404, "group not found"⟩
  | some group => if group.isArchived then .error ⟨404, "group not found"⟩ else .ok group

/-- Whether the user may ask (app/api/routes/groups.py:196-197). -/
def notMember (db : Db) (groupId userId : UUID) : Except HttpError Unit :=
  if (membership db groupId userId).isSome then .error ⟨409, "already a member"⟩ else .ok ()

/-- `existing` (app/api/routes/groups.py:199-206). -/
def existingRequest (db : Db) (groupId userId : UUID) :
    Except HttpError (Option GroupJoinRequest) :=
  match Table.find GroupJoinRequest.key db.requests (groupId, userId) with
  | none => .ok none
  | some existing =>
    if existing.status = .PENDING then .error ⟨409, "request already pending"⟩
    else .ok (some existing)

/-- The request that is to be decided (app/api/routes/groups.py:255-263). -/
def pendingRequest (db : Db) (groupId requestId : UUID) : Except HttpError GroupJoinRequest :=
  match Table.find GroupJoinRequest.id db.requests requestId with
  | none => .error ⟨404, "pending request not found"⟩
  | some request =>
    if request.groupId = groupId ∧ request.status = .PENDING then .ok request
    else .error ⟨404, "pending request not found"⟩

/-! ## Commits -/

/-- The columns of a request that an `UPDATE` sets. -/
structure RequestColumns where
  status : Option JoinRequestStatus
  message : Option (Option String)
  decidedById : Option UUID
  decidedAt : Option Time
  deriving DecidableEq

/-- What the ORM sends for a column: the new value, unless it is the one it has read. -/
def changed {α : Type} [DecidableEq α] (read new : α) : Option α :=
  if read = new then none else some new

def RequestColumns.apply (columns : RequestColumns) (request : GroupJoinRequest) :
    GroupJoinRequest :=
  { request with
    status := columns.status.getD request.status
    message := columns.message.getD request.message
    decidedById := columns.decidedById.or request.decidedById
    decidedAt := columns.decidedAt.or request.decidedAt }

/-- What a commit does to `group_join_requests`. -/
inductive RequestWrite
  | nothing
  | insert (request : GroupJoinRequest)
  | update (id : UUID) (columns : RequestColumns)
  deriving DecidableEq

structure Writes where
  group : Option Group
  member : Option GroupMember
  request : RequestWrite
  audit : List AuditLog
  deriving DecidableEq

/-- PostgreSQL takes no text with a NUL. -/
def noNul (text : String) : Bool := !text.toList.contains '\x00'

/-- The columns take the values. -/
def Writes.storable (writes : Writes) : Bool :=
  (writes.group.all fun group => columnTakes 200 group.name && group.description.all noNul) &&
    match writes.request with
    | .nothing => true
    | .insert request => request.message.all (columnTakes 300)
    | .update _ columns => columns.message.all fun message => message.all (columnTakes 300)

/-- The new rows violate no primary key and no unique index. -/
def Db.accepts (db : Db) (writes : Writes) : Bool :=
  (writes.group.all fun group => (db.group group.id).isNone) &&
    (writes.member.all fun member => (membership db member.groupId member.userId).isNone) &&
    match writes.request with
    | .insert request => (Table.find GroupJoinRequest.id db.requests request.id).isNone &&
        (Table.find GroupJoinRequest.key db.requests request.key).isNone
    | _ => true

def RequestWrite.run (requests : List GroupJoinRequest) : RequestWrite → List GroupJoinRequest
  | .nothing => requests
  | .insert request => requests ++ [request]
  | .update id columns => Table.modify GroupJoinRequest.id requests id columns.apply

/-- The tables after the commit; `none`: it raises. -/
def Db.commit (db : Db) (writes : Writes) : Option Db :=
  if writes.storable && db.accepts writes then
    some
      { groups := db.groups ++ writes.group.toList
        members := db.members ++ writes.member.toList
        requests := writes.request.run db.requests
        audit := db.audit ++ writes.audit }
  else none

/-! ## `create_group` -/

/-- `CreateGroupIn` (app/api/routes/groups.py:48-52). Other bodies are refused with 422
    before the handler runs. -/
structure CreateGroupIn where
  name : String
  description : Option String
  isAnnouncementGroup : Bool
  joinApprovalRequired : Bool
  name_ge : 2 ≤ name.length
  name_le : name.length ≤ 200
  description_le : ∀ text ∈ description, text.length ≤ 1000

/-- A body that leaves out what may be left out. -/
def plainGroup (joinApprovalRequired : Bool) : CreateGroupIn :=
  { name := "All hands"
    description := none
    isAnnouncementGroup := false
    joinApprovalRequired := joinApprovalRequired
    name_ge := by decide
    name_le := by decide
    description_le := fun _ h => (by cases h) }

/-- `GroupOut` (app/api/routes/groups.py:28-38). -/
structure GroupOut where
  id : UUID
  name : String
  description : Option String
  groupType : String
  isAnnouncementGroup : Bool
  joinApprovalRequired : Bool
  memberCount : ℕ
  myRole : Option GroupRole
  deriving DecidableEq

/-- The row that `create_group` adds; `max_members` and `is_archived` get their defaults. -/
def newGroup (groupId : UUID) (body : CreateGroupIn) : Group :=
  { id := groupId
    name := body.name
    description := body.description
    groupType := "task_force"
    maxMembers := 200
    isArchived := false
    isAnnouncementGroup := body.isAnnouncementGroup
    joinApprovalRequired := body.joinApprovalRequired }

def createdLog (userId : UUID) (role : UserRole) (groupId : UUID) : AuditLog :=
  ⟨userId, role, "group.created", "group", groupId.str, none, true⟩

/-- What `create_group` commits (app/api/routes/groups.py:127-151). -/
def createWrites (userId : UUID) (role : UserRole) (now : Time) (groupId : UUID)
    (body : CreateGroupIn) : Writes :=
  { group := some (newGroup groupId body)
    member := some ⟨groupId, userId, .OWNER, now⟩
    request := .nothing
    audit := [createdLog userId role groupId] }

/-- `create_group` (app/api/routes/groups.py:121-157); `groupId` is the key it draws. -/
def createGroup (db : Db) (userId : UUID) (role : UserRole) (now : Time) (groupId : UUID)
    (body : CreateGroupIn) : Except HttpError GroupOut × Db :=
  match db.commit (createWrites userId role now groupId body) with
  | none => (.error internalServerError, db)
  | some db' =>
    (.ok ⟨groupId, body.name, body.description, "task_force", body.isAnnouncementGroup,
      body.joinApprovalRequired, 1, some .OWNER⟩, db')

/-! ## `request_join` -/

/-- `JoinRequestOut` (app/api/routes/groups.py:59-66). -/
structure JoinRequestOut where
  id : UUID
  userId : UUID
  status : JoinRequestStatus
  message : Option String
  createdAt : Time
  deriving DecidableEq

/-- `JoinRequestOut.model_validate(req)`. -/
def JoinRequestOut.modelValidate (request : GroupJoinRequest) : JoinRequestOut :=
  ⟨request.id, request.userId, request.status, request.message, request.createdAt⟩

/-- `JoinRequestIn` (app/api/routes/groups.py:55-56). -/
structure JoinRequestIn where
  message : Option String
  message_le : ∀ text ∈ message, text.length ≤ 300

/-- A request without a message. -/
def plainRequest : JoinRequestIn := ⟨none, fun _ h => (by cases h)⟩

/-- The status that `request_join` gives a request. -/
def joinStatus (group : Group) : JoinRequestStatus :=
  if group.joinApprovalRequired then .PENDING else .APPROVED

/-- What `request_join` commits (app/api/routes/groups.py:208-224). -/
def joinWrites (userId : UUID) (now : Time) (requestId : UUID) (message : Option String)
    (group : Group) (existing : Option GroupJoinRequest) : Writes :=
  { group := none
    member := if group.joinApprovalRequired then none else some ⟨group.id, userId, .MEMBER, now⟩
    request :=
      match existing with
      | none => .insert ⟨requestId, group.id, userId, joinStatus group, message, none, none, now⟩
      | some request => .update request.id
          ⟨changed request.status (joinStatus group), changed request.message message, none, none⟩
    audit := [] }

/-- The reads of `request_join`, and what follows from them. -/
def readJoin (db : Db) (userId : UUID) (now : Time) (requestId groupId : UUID)
    (message : Option String) : Except HttpError Writes := do
  let group ← joinedGroup db groupId
  notMember db groupId userId
  let existing ← existingRequest db groupId userId
  return joinWrites userId now requestId message group existing

/-- The response of a route that ends with `refresh(req)`. -/
def refreshed (db : Db) (id : UUID) : Except HttpError JoinRequestOut :=
  match Table.find GroupJoinRequest.id db.requests id with
  | none => .error internalServerError
  | some request => .ok (.modelValidate request)

/-- The row that a commit writes. -/
def RequestWrite.id : RequestWrite → Option UUID
  | .nothing => none
  | .insert request => some request.id
  | .update id _ => some id

/-- The end of `request_join` and of `decide_request`: `commit` and `refresh`. -/
def finishRequest (db : Db) (writes : Except HttpError Writes) :
    Except HttpError JoinRequestOut × Db :=
  match writes with
  | .error err => (.error err, db)
  | .ok writes =>
    match db.commit writes with
    | none => (.error internalServerError, db)
    | some db' => (writes.request.id.elim (.error internalServerError) (refreshed db'), db')

/-- `request_join` (app/api/routes/groups.py:186-226); `requestId` is the key of a new row. -/
def requestJoin (db : Db) (userId : UUID) (now : Time) (requestId groupId : UUID)
    (body : JoinRequestIn) : Except HttpError JoinRequestOut × Db :=
  finishRequest db (readJoin db userId now requestId groupId body.message)

/-! ## `decide_request` -/

def decidedStatus (approve : Bool) : JoinRequestStatus := if approve then .APPROVED else .REJECTED

def memberAddedLog (userId : UUID) (role : UserRole) (request : GroupJoinRequest) : AuditLog :=
  ⟨userId, role, "group.member.added", "group", request.groupId.str, some request.userId.str, true⟩

/-- What `decide_request` commits (app/api/routes/groups.py:265-285); `request` is the row it
    has read. -/
def decideWrites (userId : UUID) (role : UserRole) (now : Time) (approve : Bool)
    (request : GroupJoinRequest) : Writes :=
  { group := none
    member := if approve then some ⟨request.groupId, request.userId, .MEMBER, now⟩ else none
    request := .update request.id
      ⟨changed request.status (decidedStatus approve), none,
        (changed request.decidedById (some userId)).map fun _ => userId,
        (changed request.decidedAt (some now)).map fun _ => now⟩
    audit := if approve then [memberAddedLog userId role request] else [] }

/-- The reads of `decide_request`, and what follows from them. -/
def readDecision (db : Db) (userId : UUID) (role : UserRole) (now : Time)
    (groupId requestId : UUID) (approve : Bool) : Except HttpError Writes := do
  let _ ← requireAdminMember db groupId userId
  let request ← pendingRequest db groupId requestId
  return decideWrites userId role now approve request

/-- `decide_request` (app/api/routes/groups.py:247-287). -/
def decideRequest (db : Db) (userId : UUID) (role : UserRole) (now : Time)
    (groupId requestId : UUID) (approve : Bool) : Except HttpError JoinRequestOut × Db :=
  finishRequest db (readDecision db userId role now groupId requestId approve)

/-! ## Calls -/

/-- A call, with what it draws and the time of it. -/
inductive Call
  | create (userId : UUID) (role : UserRole) (now : Time) (groupId : UUID)
      (body : CreateGroupIn)
  | join (userId : UUID) (now : Time) (requestId groupId : UUID) (body : JoinRequestIn)
  | decide (userId : UUID) (role : UserRole) (now : Time) (groupId requestId : UUID)
      (approve : Bool)

def Call.userId : Call → UUID
  | .create userId .. => userId
  | .join userId .. => userId
  | .decide userId .. => userId

/-- The tables after the call, whatever it answers. -/
def Call.run (db : Db) : Call → Db
  | .create userId role now groupId body => (createGroup db userId role now groupId body).2
  | .join userId now requestId groupId body =>
    (requestJoin db userId now requestId groupId body).2
  | .decide userId role now groupId requestId approve =>
    (decideRequest db userId role now groupId requestId approve).2

/-- The request that the call answers with. -/
def Call.answer (db : Db) : Call → Option JoinRequestOut
  | .create .. => none
  | .join userId now requestId groupId body =>
    (requestJoin db userId now requestId groupId body).1.toOption
  | .decide userId role now groupId requestId approve =>
    (decideRequest db userId role now groupId requestId approve).1.toOption

/-- Calls, each one transaction. -/
def step (db : Db) (c : Call) : Option Db := some (c.run db)

theorem run_total (cs : List Call) (db : Db) : ∃ db', run step db cs = some db' := by
  induction cs generalizing db with
  | nil => exact ⟨db, rfl⟩
  | cons c cs ih => exact ih (c.run db)

/-! ## Keys -/

/-- Primary keys and unique indexes. -/
structure Keys (db : Db) : Prop where
  groups : (db.groups.map Group.id).Nodup
  members : (db.members.map GroupMember.key).Nodup
  requestIds : (db.requests.map GroupJoinRequest.id).Nodup
  requestKeys : (db.requests.map GroupJoinRequest.key).Nodup

theorem keys_empty : Keys .empty :=
  ⟨List.nodup_nil, List.nodup_nil, List.nodup_nil, List.nodup_nil⟩

@[simp] theorem RequestColumns.apply_id (columns : RequestColumns) (request : GroupJoinRequest) :
    (columns.apply request).id = request.id := rfl

@[simp] theorem RequestColumns.apply_key (columns : RequestColumns) (request : GroupJoinRequest) :
    (columns.apply request).key = request.key := rfl

variable {db db' : Db} {writes : Writes}

theorem commit_eq_some (h : db.commit writes = some db') :
    writes.storable = true ∧ db.accepts writes = true ∧
    db' = { groups := db.groups ++ writes.group.toList
            members := db.members ++ writes.member.toList
            requests := writes.request.run db.requests
            audit := db.audit ++ writes.audit } := by
  unfold Db.commit at h
  split_ifs at h with hok
  obtain ⟨hstorable, haccepts⟩ := Bool.and_eq_true_iff.mp hok
  exact ⟨hstorable, haccepts, (Option.some.inj h).symm⟩

theorem accepts_group (h : db.accepts writes = true) {group : Group}
    (hgroup : writes.group = some group) : db.group group.id = none := by
  have hall := (Bool.and_eq_true_iff.mp (Bool.and_eq_true_iff.mp h).1).1
  rw [hgroup] at hall
  exact Option.isNone_iff_eq_none.mp hall

theorem accepts_member (h : db.accepts writes = true) {member : GroupMember}
    (hmember : writes.member = some member) :
    membership db member.groupId member.userId = none := by
  have hall := (Bool.and_eq_true_iff.mp (Bool.and_eq_true_iff.mp h).1).2
  rw [hmember] at hall
  exact Option.isNone_iff_eq_none.mp hall

theorem accepts_insert (h : db.accepts writes = true) {request : GroupJoinRequest}
    (hrequest : writes.request = .insert request) :
    Table.find GroupJoinRequest.id db.requests request.id = none ∧
      Table.find GroupJoinRequest.key db.requests request.key = none := by
  have hall := (Bool.and_eq_true_iff.mp h).2
  rw [hrequest] at hall
  obtain ⟨hid, hkey⟩ := Bool.and_eq_true_iff.mp hall
  exact ⟨Option.isNone_iff_eq_none.mp hid, Option.isNone_iff_eq_none.mp hkey⟩

/-- A row that may be there, put at the end of a table without its key. -/
theorem nodup_append_toList {K R : Type} [DecidableEq K] {key : R → K} {rows : List R}
    {row : Option R} (h : (rows.map key).Nodup)
    (hrow : ∀ r, row = some r → Table.find key rows (key r) = none) :
    ((rows ++ row.toList).map key).Nodup := by
  cases row with
  | none =>
    rw [Option.toList_none, List.append_nil]
    exact h
  | some r => exact Table.nodup_append h (hrow r rfl)

/-- Every commit keeps the keys. -/
theorem keys_commit (hkeys : Keys db) (h : db.commit writes = some db') : Keys db' := by
  obtain ⟨-, haccepts, rfl⟩ := commit_eq_some h
  refine ⟨nodup_append_toList hkeys.groups fun _ hgroup => accepts_group haccepts hgroup,
    nodup_append_toList hkeys.members fun _ hmember => accepts_member haccepts hmember, ?_, ?_⟩
  · show ((writes.request.run db.requests).map GroupJoinRequest.id).Nodup
    cases hrequest : writes.request with
    | nothing => exact hkeys.requestIds
    | insert request =>
      exact Table.nodup_append hkeys.requestIds (accepts_insert haccepts hrequest).1
    | update id columns =>
      show ((Table.modify _ _ _ _).map _).Nodup
      rw [Table.map_key_modify columns.apply_id]
      exact hkeys.requestIds
  · show ((writes.request.run db.requests).map GroupJoinRequest.key).Nodup
    cases hrequest : writes.request with
    | nothing => exact hkeys.requestKeys
    | insert request =>
      exact Table.nodup_append hkeys.requestKeys (accepts_insert haccepts hrequest).2
    | update id columns =>
      have hmap : (Table.modify GroupJoinRequest.id db.requests id columns.apply).map
          GroupJoinRequest.key = db.requests.map GroupJoinRequest.key := by
        unfold Table.modify
        rw [List.map_map]
        refine List.map_congr_left fun request _ => ?_
        show GroupJoinRequest.key (if request.id = id then _ else _) = _
        split_ifs <;> rfl
      show (List.map _ (Table.modify _ _ _ _)).Nodup
      rw [hmap]
      exact hkeys.requestKeys

/-! ## What a call does -/

/-- The requests afterwards are those before without `old`, and `row`. -/
def Replaces (requests requests' : List GroupJoinRequest) (old : Option GroupJoinRequest)
    (row : GroupJoinRequest) : Prop :=
  ∀ r, r ∈ requests' ↔ r = row ∨ r ∈ requests ∧ old ≠ some r

/-- The row that `request_join` leaves. -/
def joinRow (userId : UUID) (now : Time) (requestId : UUID) (message : Option String)
    (group : Group) : Option GroupJoinRequest → GroupJoinRequest
  | none => ⟨requestId, group.id, userId, joinStatus group, message, none, none, now⟩
  | some request => { request with status := joinStatus group, message := message }

/-- The row that `decide_request` leaves. -/
def decidedRow (userId : UUID) (now : Time) (approve : Bool) (request : GroupJoinRequest) :
    GroupJoinRequest :=
  { request with
    status := decidedStatus approve, decidedById := some userId, decidedAt := some now }

/-- The column takes the message, or nothing is sent for it. -/
def messageTakes (old : Option GroupJoinRequest) (message : Option String) : Bool :=
  match old with
  | none => message.all (columnTakes 300)
  | some request => (changed request.message message).all fun text => text.all (columnTakes 300)

/-- What `request_join` and the tables check before the user's request is taken; `old` is the
    row of an earlier one. -/
structure JoinTaken (db : Db) (userId requestId : UUID) (message : Option String) (group : Group)
    (old : Option GroupJoinRequest) : Prop where
  found : db.group group.id = some group
  live : group.isArchived = false
  notMember : membership db group.id userId = none
  existing : Table.find GroupJoinRequest.key db.requests (group.id, userId) = old
  notPending : ∀ request ∈ old, request.status ≠ .PENDING
  freshId : old = none → Table.find GroupJoinRequest.id db.requests requestId = none
  storable : messageTakes old message = true

/-- The user is an admin or owner member of the group. -/
def AdminOf (db : Db) (groupId userId : UUID) : Prop :=
  ∃ member, membership db groupId userId = some member ∧
    (member.role = .ADMIN ∨ member.role = .OWNER)

/-- What `decide_request` and the tables check before the decision is taken. -/
structure DecisionTaken (db : Db) (userId : UUID) (approve : Bool) (request : GroupJoinRequest) :
    Prop where
  admin : AdminOf db request.groupId userId
  found : Table.find GroupJoinRequest.id db.requests request.id = some request
  pending : request.status = .PENDING
  notMember : approve = true → membership db request.groupId request.userId = none

/-- The call lets its user into the open group. -/
def JoinsOpen (db : Db) : Call → Group → Prop
  | .join userId _ requestId groupId body, group =>
    group.id = groupId ∧ group.joinApprovalRequired = false ∧
      ∃ old, JoinTaken db userId requestId body.message group old
  | _, _ => False

/-- The call approves the request. -/
def Approves (db : Db) : Call → GroupJoinRequest → Prop
  | .decide userId _ _ groupId requestId approve, request =>
    request.groupId = groupId ∧ request.id = requestId ∧ approve = true ∧
      DecisionTaken db userId approve request
  | _, _ => False

/-- The answer to a call and the tables after it: it is refused, or does what its route is
    for. -/
inductive Effect (db : Db) : Call → Option JoinRequestOut → Db → Prop
  | refused (c : Call) : Effect db c none db
  | created {userId role now groupId body} (fresh : db.group groupId = none)
      (notMember : membership db groupId userId = none) :
      Effect db (.create userId role now groupId body) none
        { db with
          groups := db.groups ++ [newGroup groupId body]
          members := db.members ++ [⟨groupId, userId, .OWNER, now⟩]
          audit := db.audit ++ [createdLog userId role groupId] }
  | joined {userId now requestId body requests} (group : Group)
      (old : Option GroupJoinRequest)
      (taken : JoinTaken db userId requestId body.message group old)
      (replaces : Replaces db.requests requests old
        (joinRow userId now requestId body.message group old)) :
      Effect db (.join userId now requestId group.id body)
        (some (.modelValidate (joinRow userId now requestId body.message group old)))
        { db with
          members := db.members ++
            if group.joinApprovalRequired then [] else [⟨group.id, userId, .MEMBER, now⟩]
          requests := requests }
  | decided {userId role now approve requests} (request : GroupJoinRequest)
      (taken : DecisionTaken db userId approve request)
      (replaces : Replaces db.requests requests (some request)
        (decidedRow userId now approve request)) :
      Effect db (.decide userId role now request.groupId request.id approve)
        (some (.modelValidate (decidedRow userId now approve request)))
        { db with
          members := db.members ++
            if approve then [⟨request.groupId, request.userId, .MEMBER, now⟩] else []
          requests := requests
          audit := db.audit ++ if approve then [memberAddedLog userId role request] else [] }

/-! ### The rows -/

theorem replaces_append {requests : List GroupJoinRequest} (row : GroupJoinRequest) :
    Replaces requests (requests ++ [row]) none row := by
  intro r
  rw [List.mem_append, List.mem_singleton]
  constructor
  · rintro (hr | rfl)
    · exact .inr ⟨hr, fun h => (by cases h)⟩
    · exact .inl rfl
  · rintro (rfl | ⟨hr, -⟩)
    · exact .inr rfl
    · exact .inl hr

theorem replaces_modify {requests : List GroupJoinRequest} {old : GroupJoinRequest}
    (hids : (requests.map GroupJoinRequest.id).Nodup) (hold : old ∈ requests)
    (f : GroupJoinRequest → GroupJoinRequest) :
    Replaces requests (Table.modify GroupJoinRequest.id requests old.id f) (some old) (f old) := by
  intro r
  unfold Table.modify
  rw [List.mem_map]
  constructor
  · rintro ⟨q, hq, rfl⟩
    by_cases hid : q.id = old.id
    · obtain rfl := List.inj_on_of_nodup_map hids hq hold hid
      rw [if_pos rfl]
      exact .inl rfl
    · rw [if_neg hid]
      exact .inr ⟨hq, fun h => hid (by rw [Option.some.inj h])⟩
  · rintro (rfl | ⟨hr, hne⟩)
    · exact ⟨old, hold, if_pos rfl⟩
    · refine ⟨r, hr, if_neg fun hid => ?_⟩
      exact hne (congrArg some (List.inj_on_of_nodup_map hids hold hr hid.symm))

theorem getD_changed {α : Type} [DecidableEq α] (read new : α) :
    (changed read new).getD read = new := by
  unfold changed
  split_ifs with h
  · exact h
  · rfl

/-- The columns that `request_join` sends lead from the row it has read to `joinRow`. -/
theorem apply_joinColumns (userId : UUID) (now : Time) (requestId : UUID)
    (message : Option String) (group : Group) (request : GroupJoinRequest) :
    RequestColumns.apply
        ⟨changed request.status (joinStatus group), changed request.message message, none, none⟩
        request = joinRow userId now requestId message group (some request) := by
  unfold RequestColumns.apply
  dsimp only
  rw [getD_changed, getD_changed]
  rfl

theorem or_changed {α : Type} [DecidableEq α] (read : Option α) (new : α) :
    ((changed read (some new)).map fun _ => new).or read = some new := by
  unfold changed
  split_ifs with h
  · rw [h]
    rfl
  · rfl

/-- The columns that `decide_request` sends lead from the row it has read to `decidedRow`. -/
theorem apply_decideColumns (userId : UUID) (now : Time) (approve : Bool)
    (request : GroupJoinRequest) :
    RequestColumns.apply
        ⟨changed request.status (decidedStatus approve), none,
          (changed request.decidedById (some userId)).map fun _ => userId,
          (changed request.decidedAt (some now)).map fun _ => now⟩
        request = decidedRow userId now approve request := by
  unfold RequestColumns.apply
  dsimp only
  rw [getD_changed, or_changed, or_changed]
  rfl

/-- The row is the one of the group and the user that has asked. -/
theorem joinRow_key {userId : UUID} {now : Time} {requestId : UUID} {message : Option String}
    {group : Group} {old : Option GroupJoinRequest}
    (h : Table.find GroupJoinRequest.key db.requests (group.id, userId) = old) :
    (joinRow userId now requestId message group old).key = (group.id, userId) := by
  cases old with
  | none => rfl
  | some request =>
    have hkey : request.key = (group.id, userId) := Table.find_key h
    exact hkey

@[simp] theorem joinRow_status (userId : UUID) (now : Time) (requestId : UUID)
    (message : Option String) (group : Group) (old : Option GroupJoinRequest) :
    (joinRow userId now requestId message group old).status = joinStatus group := by
  cases old <;> rfl

/-! ### The routes -/

theorem canManageMembers_iff (member : GroupMember) :
    member.canManageMembers = true ↔ member.role = .ADMIN ∨ member.role = .OWNER := by
  unfold GroupMember.canManageMembers
  cases member.role <;> decide

theorem finishRequest_cases (db : Db) (writes : Except HttpError Writes) :
    (∃ err, finishRequest db writes = (.error err, db)) ∨
      ∃ w db', writes = .ok w ∧ db.commit w = some db' := by
  unfold finishRequest
  cases writes with
  | error err => exact .inl ⟨err, rfl⟩
  | ok w =>
    dsimp only
    cases hcommit : db.commit w with
    | none => exact .inl ⟨_, rfl⟩
    | some db' => exact .inr ⟨w, db', rfl, hcommit⟩

/-- A route answers with the row that it has written. -/
theorem refreshed_eq (hkeys : Keys db) {row : GroupJoinRequest} (h : row ∈ db.requests) :
    refreshed db row.id = .ok (.modelValidate row) := by
  unfold refreshed
  rw [Table.find_of_mem hkeys.requestIds h]

theorem bind_eq_ok {α β : Type} {x : Except HttpError α} {f : α → Except HttpError β} {b : β}
    (h : x >>= f = .ok b) : ∃ a, x = .ok a ∧ f a = .ok b := by
  cases x with
  | error err => cases h
  | ok a => exact ⟨a, rfl, h⟩

theorem joinedGroup_ok {groupId : UUID} {group : Group} (h : joinedGroup db groupId = .ok group) :
    db.group groupId = some group ∧ group.isArchived = false := by
  unfold joinedGroup at h
  cases hgroup : db.group groupId with
  | none =>
    rw [hgroup] at h
    cases h
  | some found =>
    rw [hgroup] at h
    dsimp only at h
    split_ifs at h with harchived
    rw [← Except.ok.inj h]
    exact ⟨rfl, Bool.eq_false_iff.mpr harchived⟩

theorem notMember_ok {groupId userId : UUID} {u : Unit} (h : notMember db groupId userId = .ok u) :
    membership db groupId userId = none := by
  unfold notMember at h
  split_ifs at h with hmember
  exact Option.not_isSome_iff_eq_none.mp hmember

theorem existingRequest_ok {groupId userId : UUID} {existing : Option GroupJoinRequest}
    (h : existingRequest db groupId userId = .ok existing) :
    Table.find GroupJoinRequest.key db.requests (groupId, userId) = existing ∧
      ∀ request ∈ existing, request.status ≠ .PENDING := by
  unfold existingRequest at h
  cases hfind : Table.find GroupJoinRequest.key db.requests (groupId, userId) with
  | none =>
    rw [hfind] at h
    obtain rfl := Except.ok.inj h
    exact ⟨rfl, fun _ hr => (by cases hr)⟩
  | some request =>
    rw [hfind] at h
    dsimp only at h
    split_ifs at h with hpending
    obtain rfl := Except.ok.inj h
    refine ⟨rfl, fun r hr => ?_⟩
    rw [← Option.some.inj hr]
    exact hpending

theorem requireAdminMember_ok {groupId userId : UUID} {member : GroupMember}
    (h : requireAdminMember db groupId userId = .ok member) : AdminOf db groupId userId := by
  unfold requireAdminMember at h
  cases hmember : membership db groupId userId with
  | none =>
    rw [hmember] at h
    cases h
  | some found =>
    rw [hmember] at h
    dsimp only at h
    split_ifs at h with hadmin
    exact ⟨found, hmember, (canManageMembers_iff found).mp hadmin⟩

theorem pendingRequest_ok {groupId requestId : UUID} {request : GroupJoinRequest}
    (h : pendingRequest db groupId requestId = .ok request) :
    Table.find GroupJoinRequest.id db.requests requestId = some request ∧
      request.groupId = groupId ∧ request.status = .PENDING := by
  unfold pendingRequest at h
  cases hfind : Table.find GroupJoinRequest.id db.requests requestId with
  | none =>
    rw [hfind] at h
    cases h
  | some found =>
    rw [hfind] at h
    dsimp only at h
    split_ifs at h with hpending
    obtain rfl := Except.ok.inj h
    exact ⟨rfl, hpending⟩

theorem group_id {groupId : UUID} {group : Group} (h : db.group groupId = some group) :
    group.id = groupId := Table.find_key h

theorem effect_create (db : Db) (userId : UUID) (role : UserRole) (now : Time) (groupId : UUID)
    (body : CreateGroupIn) :
    Effect db (.create userId role now groupId body) none
      (createGroup db userId role now groupId body).2 := by
  unfold createGroup
  cases hcommit : db.commit (createWrites userId role now groupId body) with
  | none => exact .refused _
  | some db' =>
    obtain ⟨-, haccepts, rfl⟩ := commit_eq_some hcommit
    exact .created (accepts_group haccepts rfl) (accepts_member haccepts rfl)

/-- The columns that a taken request sends for the message. -/
theorem storable_joinWrites (userId : UUID) (now : Time) (requestId : UUID)
    (message : Option String) (group : Group) (old : Option GroupJoinRequest) :
    (joinWrites userId now requestId message group old).storable = messageTakes old message := by
  cases old <;> rfl

theorem commit_join (hkeys : Keys db) {userId : UUID} {now : Time} {requestId : UUID}
    {message : Option String} {group : Group} {old : Option GroupJoinRequest}
    (hold : Table.find GroupJoinRequest.key db.requests (group.id, userId) = old)
    (hcommit : db.commit (joinWrites userId now requestId message group old) = some db') :
    Replaces db.requests db'.requests old (joinRow userId now requestId message group old) ∧
      db' = { db with
        members := db.members ++
          if group.joinApprovalRequired then [] else [⟨group.id, userId, .MEMBER, now⟩]
        requests := db'.requests } ∧
      finishRequest db (.ok (joinWrites userId now requestId message group old)) =
        (.ok (.modelValidate (joinRow userId now requestId message group old)), db') := by
  have hkeys' := keys_commit hkeys hcommit
  obtain ⟨-, -, hdb'⟩ := commit_eq_some hcommit
  have hreplaces : Replaces db.requests
      ((joinWrites userId now requestId message group old).request.run db.requests) old
      (joinRow userId now requestId message group old) := by
    cases old with
    | none => exact replaces_append _
    | some request =>
      have := replaces_modify hkeys.requestIds (Table.find_mem hold) (RequestColumns.apply
        ⟨changed request.status (joinStatus group), changed request.message message, none, none⟩)
      rw [apply_joinColumns userId now requestId] at this
      exact this
  have hrequests : db'.requests =
      (joinWrites userId now requestId message group old).request.run db.requests := by
    rw [hdb']
  rw [← hrequests] at hreplaces
  have hmembers : (if group.joinApprovalRequired then none
      else some (⟨group.id, userId, .MEMBER, now⟩ : GroupMember)).toList =
      if group.joinApprovalRequired then [] else [⟨group.id, userId, .MEMBER, now⟩] := by
    split_ifs <;> rfl
  have hid : (joinWrites userId now requestId message group old).request.id =
      some (joinRow userId now requestId message group old).id := by
    cases old <;> rfl
  refine ⟨hreplaces, ?_, ?_⟩
  · rw [hrequests, ← hmembers, hdb']
    unfold joinWrites
    dsimp only
    rw [Option.toList_none, List.append_nil, List.append_nil]
  · unfold finishRequest
    dsimp only
    rw [hcommit]
    dsimp only
    rw [hid, Option.elim_some, refreshed_eq hkeys' ((hreplaces _).mpr (.inl rfl))]

theorem effect_join (hkeys : Keys db) (userId : UUID) (now : Time) (requestId groupId : UUID)
    (body : JoinRequestIn) :
    Effect db (.join userId now requestId groupId body)
      (requestJoin db userId now requestId groupId body).1.toOption
      (requestJoin db userId now requestId groupId body).2 := by
  unfold requestJoin
  obtain ⟨err, hresult⟩ | ⟨w, db', hread, hcommit⟩ := finishRequest_cases db
    (readJoin db userId now requestId groupId body.message)
  · rw [hresult]
    exact .refused _
  · rw [hread]
    obtain ⟨group, hgroup, hread⟩ := bind_eq_ok hread
    obtain ⟨_, hmember, hread⟩ := bind_eq_ok hread
    obtain ⟨old, hold, hread⟩ := bind_eq_ok hread
    obtain rfl := Except.ok.inj hread
    obtain ⟨hgroup, hlive⟩ := joinedGroup_ok hgroup
    obtain rfl := group_id hgroup
    obtain ⟨hfind, hnot⟩ := existingRequest_ok hold
    obtain ⟨hstorable, haccepts, -⟩ := commit_eq_some hcommit
    obtain ⟨hreplaces, hdb, hfinish⟩ := commit_join hkeys hfind hcommit
    have hfresh : old = none → Table.find GroupJoinRequest.id db.requests requestId = none := by
      rintro rfl
      exact (accepts_insert haccepts rfl).1
    have htaken : JoinTaken db userId requestId body.message group old :=
      ⟨hgroup, hlive, notMember_ok hmember, hfind, hnot, hfresh,
        (storable_joinWrites userId now requestId body.message group old).symm.trans hstorable⟩
    rw [hfinish, hdb]
    exact .joined group old htaken hreplaces

/-- `request_join` takes the request whenever there is nothing against it. -/
theorem requestJoin_taken (hkeys : Keys db) {userId requestId : UUID} (now : Time)
    (body : JoinRequestIn) {group : Group} {old : Option GroupJoinRequest}
    (h : JoinTaken db userId requestId body.message group old) :
    ∃ db', requestJoin db userId now requestId group.id body =
        (.ok (.modelValidate (joinRow userId now requestId body.message group old)), db') ∧
      Replaces db.requests db'.requests old
        (joinRow userId now requestId body.message group old) ∧
      db' = { db with
        members := db.members ++
          if group.joinApprovalRequired then [] else [⟨group.id, userId, .MEMBER, now⟩]
        requests := db'.requests } := by
  have hread : readJoin db userId now requestId group.id body.message =
      .ok (joinWrites userId now requestId body.message group old) := by
    have hgroup : joinedGroup db group.id = .ok group := by
      unfold joinedGroup
      rw [h.found]
      dsimp only
      rw [h.live]
      rfl
    have hnot : notMember db group.id userId = .ok () := by
      unfold notMember
      rw [h.notMember]
      rfl
    have hold : existingRequest db group.id userId = .ok old := by
      unfold existingRequest
      rw [h.existing]
      cases old with
      | none => rfl
      | some request => exact if_neg (h.notPending request rfl)
    unfold readJoin
    rw [hgroup, hnot, hold]
    rfl
  have hmember : (joinWrites userId now requestId body.message group old).member.all
      (fun member => (membership db member.groupId member.userId).isNone) = true := by
    unfold joinWrites
    dsimp only
    split_ifs
    · rfl
    · rw [Option.all_some, h.notMember]
      rfl
  have haccepts : db.accepts (joinWrites userId now requestId body.message group old) = true := by
    unfold Db.accepts
    rw [hmember]
    cases old with
    | none =>
      show ((Table.find GroupJoinRequest.id db.requests requestId).isNone &&
        (Table.find GroupJoinRequest.key db.requests (group.id, userId)).isNone) = true
      rw [h.freshId rfl, h.existing]
      rfl
    | some request => rfl
  have hcommit : ∃ db', db.commit (joinWrites userId now requestId body.message group old) =
      some db' := by
    unfold Db.commit
    rw [storable_joinWrites, h.storable, haccepts]
    exact ⟨_, rfl⟩
  obtain ⟨db', hcommit⟩ := hcommit
  obtain ⟨hreplaces, hdb, hfinish⟩ := commit_join hkeys h.existing hcommit
  refine ⟨db', ?_, hreplaces, hdb⟩
  unfold requestJoin
  rw [hread]
  exact hfinish

theorem commit_decide (hkeys : Keys db) {userId : UUID} {role : UserRole} {now : Time}
    {approve : Bool} {request : GroupJoinRequest}
    (hfind : Table.find GroupJoinRequest.id db.requests request.id = some request)
    (hcommit : db.commit (decideWrites userId role now approve request) = some db') :
    Replaces db.requests db'.requests (some request) (decidedRow userId now approve request) ∧
      db' = { db with
        members := db.members ++
          if approve then [⟨request.groupId, request.userId, .MEMBER, now⟩] else []
        requests := db'.requests
        audit := db.audit ++ if approve then [memberAddedLog userId role request] else [] } ∧
      finishRequest db (.ok (decideWrites userId role now approve request)) =
        (.ok (.modelValidate (decidedRow userId now approve request)), db') := by
  have hkeys' := keys_commit hkeys hcommit
  obtain ⟨-, -, hdb'⟩ := commit_eq_some hcommit
  have hreplaces : Replaces db.requests
      ((decideWrites userId role now approve request).request.run db.requests) (some request)
      (decidedRow userId now approve request) := by
    have := replaces_modify hkeys.requestIds (Table.find_mem hfind) (RequestColumns.apply
      ⟨changed request.status (decidedStatus approve), none,
        (changed request.decidedById (some userId)).map fun _ => userId,
        (changed request.decidedAt (some now)).map fun _ => now⟩)
    rw [apply_decideColumns] at this
    exact this
  have hrequests : db'.requests =
      (decideWrites userId role now approve request).request.run db.requests := by
    rw [hdb']
  rw [← hrequests] at hreplaces
  have hmembers : (if approve then
      some (⟨request.groupId, request.userId, .MEMBER, now⟩ : GroupMember) else none).toList =
      if approve then [⟨request.groupId, request.userId, .MEMBER, now⟩] else [] := by
    split_ifs <;> rfl
  refine ⟨hreplaces, ?_, ?_⟩
  · rw [hrequests, ← hmembers, hdb']
    unfold decideWrites
    dsimp only
    rw [Option.toList_none, List.append_nil]
  · have hid : (decideWrites userId role now approve request).request.id =
        some (decidedRow userId now approve request).id := rfl
    unfold finishRequest
    dsimp only
    rw [hcommit]
    dsimp only
    rw [hid, Option.elim_some, refreshed_eq hkeys' ((hreplaces _).mpr (.inl rfl))]

theorem effect_decide (hkeys : Keys db) (userId : UUID) (role : UserRole) (now : Time)
    (groupId requestId : UUID) (approve : Bool) :
    Effect db (.decide userId role now groupId requestId approve)
      (decideRequest db userId role now groupId requestId approve).1.toOption
      (decideRequest db userId role now groupId requestId approve).2 := by
  unfold decideRequest
  obtain ⟨err, hresult⟩ | ⟨w, db', hread, hcommit⟩ := finishRequest_cases db
    (readDecision db userId role now groupId requestId approve)
  · rw [hresult]
    exact .refused _
  · rw [hread]
    obtain ⟨admin, hadmin, hread⟩ := bind_eq_ok hread
    obtain ⟨request, hrequest, hread⟩ := bind_eq_ok hread
    obtain rfl := Except.ok.inj hread
    obtain ⟨hfind, hgroup, hpending⟩ := pendingRequest_ok hrequest
    obtain rfl : request.id = requestId := Table.find_key hfind
    subst hgroup
    obtain ⟨-, haccepts, -⟩ := commit_eq_some hcommit
    obtain ⟨hreplaces, hdb, hfinish⟩ := commit_decide hkeys hfind hcommit
    have hnew : approve = true → membership db request.groupId request.userId = none := by
      rintro rfl
      exact accepts_member haccepts rfl
    rw [hfinish, hdb]
    exact .decided request ⟨requireAdminMember_ok hadmin, hfind, hpending, hnew⟩ hreplaces

/-- `decide_request` takes the decision whenever there is nothing against it. -/
theorem decideRequest_taken (hkeys : Keys db) {userId : UUID} (role : UserRole) (now : Time)
    {approve : Bool} {request : GroupJoinRequest} (h : DecisionTaken db userId approve request) :
    ∃ db', decideRequest db userId role now request.groupId request.id approve =
        (.ok (.modelValidate (decidedRow userId now approve request)), db') ∧
      Replaces db.requests db'.requests (some request) (decidedRow userId now approve request) ∧
      db' = { db with
        members := db.members ++
          if approve then [⟨request.groupId, request.userId, .MEMBER, now⟩] else []
        requests := db'.requests
        audit := db.audit ++ if approve then [memberAddedLog userId role request] else [] } := by
  obtain ⟨manager, hmanager, hrole⟩ := h.admin
  have hread : readDecision db userId role now request.groupId request.id approve =
      .ok (decideWrites userId role now approve request) := by
    have hadmin : requireAdminMember db request.groupId userId = .ok manager := by
      unfold requireAdminMember
      rw [hmanager]
      exact if_pos ((canManageMembers_iff manager).mpr hrole)
    have hpending : pendingRequest db request.groupId request.id = .ok request := by
      unfold pendingRequest
      rw [h.found]
      exact if_pos ⟨rfl, h.pending⟩
    unfold readDecision
    rw [hadmin, hpending]
    rfl
  have haccepts : db.accepts (decideWrites userId role now approve request) = true := by
    unfold Db.accepts decideWrites
    dsimp only
    cases happrove : approve with
    | false => rfl
    | true =>
      rw [if_pos rfl, Option.all_some, h.notMember happrove]
      rfl
  have hcommit : ∃ db', db.commit (decideWrites userId role now approve request) = some db' := by
    unfold Db.commit
    rw [haccepts]
    exact ⟨_, rfl⟩
  obtain ⟨db', hcommit⟩ := hcommit
  obtain ⟨hreplaces, hdb, hfinish⟩ := commit_decide hkeys h.found hcommit
  refine ⟨db', ?_, hreplaces, hdb⟩
  unfold decideRequest
  rw [hread]
  exact hfinish

/-- What a call does. -/
theorem effect_run (hkeys : Keys db) (c : Call) : Effect db c (c.answer db) (c.run db) := by
  cases c with
  | create userId role now groupId body => exact effect_create db userId role now groupId body
  | join userId now requestId groupId body =>
    exact effect_join hkeys userId now requestId groupId body
  | decide userId role now groupId requestId approve =>
    exact effect_decide hkeys userId role now groupId requestId approve

theorem keys_finishRequest (hkeys : Keys db) (writes : Except HttpError Writes) :
    Keys (finishRequest db writes).2 := by
  obtain ⟨err, hresult⟩ | ⟨w, db', rfl, hcommit⟩ := finishRequest_cases db writes
  · rw [hresult]
    exact hkeys
  · unfold finishRequest
    dsimp only
    rw [hcommit]
    exact keys_commit hkeys hcommit

theorem keys_run (hkeys : Keys db) (c : Call) : Keys (c.run db) := by
  cases c with
  | create userId role now groupId body =>
    show Keys (createGroup db userId role now groupId body).2
    unfold createGroup
    cases hcommit : db.commit (createWrites userId role now groupId body) with
    | none => exact hkeys
    | some db' => exact keys_commit hkeys hcommit
  | join userId now requestId groupId body => exact keys_finishRequest hkeys _
  | decide userId role now groupId requestId approve => exact keys_finishRequest hkeys _

end IronLink.Groups
