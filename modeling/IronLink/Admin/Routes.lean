import IronLink.Auth.TokenVersion
import IronLink.Broadcasts.Server
import IronLink.Lib.Like
import IronLink.Lib.OffsetPages
import IronLink.Messages.Service
import IronLink.Ws.Manager

/-!
# The admin routes

`list_users`, `set_user_status` and `live_stats` (app/api/routes/admin.py:76-175). What
`set_user_status` publishes is in `Jobs.Step`; `send_broadcast` is in `Broadcasts.Server`.
-/

namespace IronLink.Admin

open Lib Auth Messages Ws

/-! ## Accounts -/

/-- A row of `users` with its `created_at`. -/
structure Account extends Broadcasts.Member where
  createdAt : Time
  deriving DecidableEq

def Account.user (account : Account) : User := account.toMember.toUser

def users (accounts : List Account) : Users := accounts.map Account.user

def UserStatus.value : UserStatus → String
  | .ACTIVE => "active"
  | .SUSPENDED => "suspended"
  | .DEACTIVATED => "deactivated"

def UserRole.value : UserRole → String
  | .SOLDIER => "soldier"
  | .NCO => "nco"
  | .OFFICER => "officer"
  | .ADMIN => "admin"
  | .SUPERADMIN => "superadmin"

/-- Two accounts of one seeding transaction. -/
def seeded : List Account := [⟨⟨sampleAdmin, none⟩, 0⟩, ⟨⟨sampleUser, none⟩, 0⟩]

/-- `AdminUserOut` (app/api/routes/admin.py:35-45). -/
structure AdminUserOut where
  id : UUID
  fullName : String
  phoneNumber : String
  department : Option String
  role : String
  status : String
  lastSeenAt : Option Time
  createdAt : Time
  deriving DecidableEq

/-- `AdminUserOut.model_validate(u)`. -/
def AdminUserOut.modelValidate (account : Account) : AdminUserOut :=
  { id := account.id
    fullName := account.fullName
    phoneNumber := account.phoneNumber
    department := account.department
    role := UserRole.value account.role
    status := UserStatus.value account.status
    lastSeenAt := account.lastSeenAt
    createdAt := account.createdAt }

/-! ## `list_users` -/

/-- The query parameters of `list_users` (app/api/routes/admin.py:80-85). -/
structure UserQuery where
  department : Option String := none
  userStatus : Option String := none
  q : Option String := none
  limit : ℤ := 50
  offset : ℤ := 0
  deriving DecidableEq

def UserQuery.valid (query : UserQuery) : Bool :=
  (query.q.all fun q => q.toList.length ≤ 80) && query.limit ≤ 200 && 0 ≤ query.offset

/-- PostgreSQL takes the parameters that are used: no text with a NUL, no negative `LIMIT`, and
    numbers of four bytes. -/
def UserQuery.taken (query : UserQuery) : Bool :=
  ([query.department, query.userStatus, query.q].all fun text =>
      text.all fun text => !text.toList.contains '\x00') &&
    0 ≤ query.limit && query.offset ≤ int4Max

section Search

-- how `ILIKE` takes a character in lower case
variable (fold : Char → Char)

/-- `text ILIKE pattern`; `none`: the pattern is an error. -/
def ilike (text pattern : List Char) : Option Bool :=
  (parseLike (pattern.map fold)).map (likes · (text.map fold))

/-- The pattern of `list_users` for a search (app/api/routes/admin.py:95-98). -/
def searchPattern (q : String) : List Char := '%' :: q.toList ++ ['%']

/-- The row is found by `q`. -/
def found (q : String) (account : Account) : Bool :=
  [account.fullName, account.phoneNumber].any fun text =>
    (ilike fold text.toList (searchPattern q)).getD false

/-- The rows that `list_users` selects (app/api/routes/admin.py:90-98). -/
def selected (query : UserQuery) (accounts : List Account) : List Account :=
  accounts.filter fun account =>
    (!Broadcasts.truthy query.department || account.department = query.department) &&
      (!Broadcasts.truthy query.userStatus ||
        some (UserStatus.value account.status) = query.userStatus) &&
      (query.q.all fun q => q = "" || found fold q account)

/-- `list_users` (app/api/routes/admin.py:78-100), when its query has the rows it selects in the
    order `sorted`. -/
def listUsers (accounts : List Account) (now : Time) (creds : Option AccessToken)
    (query : UserQuery) (sorted : List Account) : Except HttpError (List AdminUserOut) :=
  match requireSuperadmin (users accounts) now creds with
  | .error e => .error e
  | .ok _ =>
    if !query.valid then .error Broadcasts.unprocessable
    else if !query.taken then .error internalServerError
    else .ok ((pageOf query.offset.toNat query.limit.toNat sorted).map AdminUserOut.modelValidate)

end Search

/-! ## `live_stats` -/

/-- `StatsOut` (app/api/routes/admin.py:54-60). -/
structure StatsOut where
  onlineNow : ℕ
  totalUsers : ℕ
  activeUsers : ℕ
  suspendedUsers : ℕ
  messagesToday : ℕ
  storageUsedBytes : ℤ
  deriving DecidableEq

/-- `live_stats` (app/api/routes/admin.py:139-175); `mediaSizeBytes` is the column of that name, by
    the id of the row. -/
def liveStats (accounts : List Account) (messages : MessageRows)
    (mediaSizeBytes : UUID → Option ℤ) (presence : Presence) (now : Time)
    (creds : Option AccessToken) : Except HttpError StatsOut :=
  match requireSuperadmin (users accounts) now creds with
  | .error e => .error e
  | .ok _ =>
    let todayStart := Day.of now * seconds 86400
    .ok
      { onlineNow := onlineCount presence
        totalUsers := accounts.length
        activeUsers := accounts.countP fun account => account.status = .ACTIVE
        suspendedUsers := accounts.countP fun account => account.status = .SUSPENDED
        messagesToday := messages.countP fun msg => todayStart ≤ msg.createdAt
        storageUsedBytes :=
          messages.foldl (fun sum msg => sum + (mediaSizeBytes msg.id).getD 0) 0 }

/-! ## `set_user_status` -/

/-- `SetStatusIn` (app/api/routes/admin.py:48-51). -/
structure SetStatusIn where
  action : StatusAction
  reason : String
  deriving DecidableEq

def SetStatusIn.valid (body : SetStatusIn) : Bool :=
  5 ≤ body.reason.toList.length && body.reason.toList.length ≤ 500

/-- What `set_user_status` has read when it goes on. -/
structure StatusCall where
  admin : User
  target : User
  body : SetStatusIn
  deriving DecidableEq

/-- `set_user_status` up to the changes (app/api/routes/admin.py:103-114). -/
def statusCheck (accounts : List Account) (now : Time) (creds : Option AccessToken) (userId : UUID)
    (body : SetStatusIn) : Except HttpError StatusCall :=
  match requireSuperadmin (users accounts) now creds with
  | .error e => .error e
  | .ok admin =>
    if !body.valid then .error Broadcasts.unprocessable
    else
      match statusRead (users accounts) now creds userId with
      | .error e => .error e
      | .ok target => .ok ⟨admin, target, body⟩

/-- The row that `set_user_status` adds to `audit_logs`. -/
structure StatusAudit where
  actorId : UUID
  actorRole : UserRole
  action : String
  resourceType : String
  resourceId : String
  description : String
  success : Bool
  deriving DecidableEq

/-- `AuditAction.USER_SUSPENDED` and `AuditAction.USER_REACTIVATED`
    (app/models/audit_log.py:28-29). -/
def auditAction : StatusAction → String
  | .suspend => "user.suspended"
  | .activate => "user.reactivated"

/-- app/api/routes/admin.py:126-134. -/
def StatusCall.audit (call : StatusCall) : StatusAudit :=
  { actorId := call.admin.id
    actorRole := call.admin.role
    action := auditAction call.body.action
    resourceType := "user"
    resourceId := call.target.id.str
    description := call.body.reason
    success := true }

/-- The change of the row (app/api/routes/admin.py:116-124). -/
def StatusCall.columns (call : StatusCall) (account : Account) : Account :=
  { account with
    toUser := statusColumns call.target call.body.action account.toUser }

/-- The commit goes through (app/api/routes/admin.py:135): the row is there, the version fits into
    its column, and the reason is a text without a NUL. -/
def StatusCall.commits (call : StatusCall) (accounts : List Account) : Bool :=
  match Table.find (fun account : Account => account.id) accounts call.target.id with
  | none => false
  | some account =>
    (call.columns account).tokenVersion ≤ int4Max && !call.body.reason.toList.contains '\x00'

end IronLink.Admin
