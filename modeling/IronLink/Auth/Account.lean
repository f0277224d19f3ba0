import IronLink.Common.Json
import IronLink.Lib.Table

/-!
# Accounts, access tokens and the status route

The `users` table, the access token and the three routes that decide about an
account: `get_current_user` (app/api/deps.py), `verify` (app/api/routes/auth.py)
and `set_user_status` (app/api/routes/admin.py). A route that writes is split
where the program awaits: what it reads (`verifyRead`, `statusRead`), and the
columns its `commit` writes (`loginColumns`, `statusColumns`). The ORM writes
only the columns the route changed, as the literal values it computed from the
row it had read.

Results:
* `getCurrentUser_ok`: a token is accepted for the row named by its `sub`, when
  the row is ACTIVE and has the token's version, and the token has not expired.
-/

namespace IronLink.Auth

open Lib

/-! ## Rows and tokens -/

/-- `UserStatus` (app/models/user.py:19-22). -/
inductive UserStatus
  | ACTIVE
  | SUSPENDED
  | DEACTIVATED
  deriving DecidableEq

/-- `UserRole` (app/models/user.py:25-30). -/
inductive UserRole
  | SOLDIER
  | NCO
  | OFFICER
  | ADMIN
  | SUPERADMIN
  deriving DecidableEq

/-- A calendar day in UTC, counted from the epoch. -/
abbrev Day := ℤ

/-- `t.date()`. -/
def Day.of (t : Time) : Day := t / seconds 86400

/-- The columns of `User` that the routes below read or write
    (app/models/user.py:48-100). -/
structure User where
  id : UUID
  phoneNumber : String
  fullName : String
  fcmToken : Option String
  hashedMilitaryId : String
  deviceFingerprint : Option String
  tokenVersion : ℤ
  status : UserStatus
  role : UserRole
  expiryDate : Option Day
  lastSeenAt : Option Time
  deriving DecidableEq

/-- The `users` table. -/
abbrev Users := List User

/-- `select(User).where(User.id == id)`. -/
def Users.byId (users : Users) (id : UUID) : Option User := Table.find User.id users id

/-- `select(User).where(User.phone_number == phone)`; the column is unique. -/
def Users.byPhone (users : Users) (phone : String) : Option User :=
  users.find? fun user => user.phoneNumber = phone

/-- `user.expiry_date is not None and user.expiry_date < today`. -/
def User.expired (user : User) (now : Time) : Bool :=
  match user.expiryDate with
  | none => false
  | some day => day < Day.of now

/-- An `HTTPException`. -/
structure HttpError where
  status : ℕ
  detail : String
  deriving DecidableEq

/-- What Starlette answers when a route raises. -/
def internalServerError : HttpError := ⟨500, "Internal Server Error"⟩

/-- What PostgreSQL keeps of a text in a column of at most `max` characters: it cuts off spaces
    beyond them, if there is nothing else. -/
def columnText (max : ℕ) (text : String) : String :=
  if (text.toList.drop max).all (· = ' ') then String.ofList (text.toList.take max) else text

/-- PostgreSQL takes the text, cut by `columnText` where no schema bounds it to the column. -/
def columnTakes (max : ℕ) (text : String) : Bool :=
  !text.toList.contains '\x00' && text.toList.length ≤ max

/-- The payload of a signed access token; `exp` is in seconds, as JWT has it. -/
structure AccessToken where
  sub : String
  ver : ℤ
  role : UserRole
  iat : Time
  exp : ℤ
  deriving DecidableEq

/-- `ACCESS_TOKEN_EXPIRE_MINUTES` (app/config.py). -/
def ACCESS_TOKEN_EXPIRE_MINUTES : ℤ := 60

/-- `create_access_token` (app/core/security.py:64-84). -/
def createAccessToken (userId : UUID) (tokenVersion : ℤ) (role : UserRole) (now : Time) :
    AccessToken :=
  { sub := userId.str
    ver := tokenVersion
    role := role
    iat := now
    exp := (now + seconds (ACCESS_TOKEN_EXPIRE_MINUTES * 60)) / seconds 1 }

/-- `decode_access_token` (app/core/security.py:87-95) on a token the server
    signed: what is left of `jwt.decode` is the check of `exp`. -/
def decodeAccessToken (token : AccessToken) (now : Time) : Option AccessToken :=
  if token.exp < now / seconds 1 then none else some token

/-- `_CREDENTIALS_ERROR` (app/api/deps.py:16-20). -/
def credentialsError : HttpError := ⟨401, "Invalid or expired credentials"⟩

/-- `get_current_user` from its query on (app/api/deps.py:41-50). -/
def selectUser (users : Users) (payload : AccessToken) : Except HttpError User :=
  match (UUID.ofStr payload.sub).bind users.byId with
  | none => .error credentialsError
  | some user =>
    if user.status ≠ .ACTIVE then .error credentialsError
    else if payload.ver ≠ user.tokenVersion then .error credentialsError
    else .ok user

/-- `get_current_user` (app/api/deps.py:24-50). -/
def getCurrentUser (users : Users) (now : Time) (creds : Option AccessToken) :
    Except HttpError User :=
  match creds.bind (decodeAccessToken · now) with
  | none => .error credentialsError
  | some payload => selectUser users payload

/-! ## Login -/

/-- `VerifyIn` (app/api/schemas.py), the fields `verify` reads. -/
structure VerifyIn where
  phoneNumber : String
  otpCode : String
  militaryId : String
  deviceFingerprint : String
  deriving DecidableEq

/-- `generic_error` (app/api/routes/auth.py:103-106). -/
def genericError : HttpError := ⟨401, "Verification failed. Check your code and credentials."⟩

/-- `verify` up to the OTP check (app/api/routes/auth.py:108-114). -/
def verifyRead (users : Users) (now : Time) (body : VerifyIn) : Except HttpError User :=
  match users.byPhone body.phoneNumber with
  | none => .error genericError
  | some user =>
    if user.status ≠ .ACTIVE then .error genericError
    else if user.expired now then .error genericError
    else .ok user

/-- The columns a login writes to the row (app/api/routes/auth.py:142-146);
    `read` is the row `verify` has read, `row` the one the `UPDATE` meets. -/
def loginColumns (read : User) (body : VerifyIn) (now : Time) (row : User) : User :=
  { row with
    deviceFingerprint :=
      if read.deviceFingerprint = some body.deviceFingerprint then row.deviceFingerprint
      else some body.deviceFingerprint
    tokenVersion := read.tokenVersion + 1
    lastSeenAt := some now }

/-- `create_access_token(user.id, user.token_version, user.role)` in `verify`
    (app/api/routes/auth.py:148). -/
def loginToken (read : User) (now : Time) : AccessToken :=
  createAccessToken read.id (read.tokenVersion + 1) read.role now

/-! ## Suspension and activation -/

/-- `SetStatusIn.action`, which matches `^(suspend|activate)$`. -/
inductive StatusAction
  | suspend
  | activate
  deriving DecidableEq

/-- The check of `require_superadmin` (app/api/routes/admin.py:28-30). -/
def superadminCheck (user : User) : Except HttpError User :=
  if user.role = .ADMIN ∨ user.role = .SUPERADMIN then .ok user
  else .error ⟨403, "superadmin role required"⟩

/-- `require_superadmin` (app/api/routes/admin.py:24-30). -/
def requireSuperadmin (users : Users) (now : Time) (creds : Option AccessToken) :
    Except HttpError User :=
  match getCurrentUser users now creds with
  | .error e => .error e
  | .ok user => superadminCheck user

/-- The account that `set_user_status` reads for `admin` (app/api/routes/admin.py:110-114). -/
def statusTarget (users : Users) (admin : User) (userId : UUID) : Except HttpError User :=
  match users.byId userId with
  | none => .error ⟨404, "user not found"⟩
  | some target =>
    if target.role = .SUPERADMIN ∧ admin.role ≠ .SUPERADMIN then
      .error ⟨403, "cannot modify a superadmin"⟩
    else .ok target

theorem statusTarget_ok {users : Users} {admin target : User} {userId : UUID}
    (h : statusTarget users admin userId = .ok target) :
    users.byId userId = some target ∧ (target.role = .SUPERADMIN → admin.role = .SUPERADMIN) := by
  unfold statusTarget at h
  split at h
  · cases h
  · rename_i found hfound
    split_ifs at h with hrole
    obtain rfl := Except.ok.inj h
    exact ⟨hfound, fun hsuper => not_not.mp fun hnot => hrole ⟨hsuper, hnot⟩⟩

/-- `set_user_status` up to the changes (app/api/routes/admin.py:107-114). -/
def statusRead (users : Users) (now : Time) (creds : Option AccessToken) (userId : UUID) :
    Except HttpError User :=
  match requireSuperadmin users now creds with
  | .error e => .error e
  | .ok admin => statusTarget users admin userId

/-- The columns `set_user_status` writes (app/api/routes/admin.py:116-124). A
    status equal to the one read is no change, so it is not written. -/
def statusColumns (read : User) : StatusAction → User → User
  | .suspend, row =>
    { row with
      status := if read.status = .SUSPENDED then row.status else .SUSPENDED
      tokenVersion := read.tokenVersion + 1 }
  | .activate, row => { row with status := if read.status = .ACTIVE then row.status else .ACTIVE }

/-! ## Two accounts for the examples -/

/-- An active account on its first version. -/
def sampleUser : User :=
  { id := 7, phoneNumber := "+201000000007", fullName := "Soldier Seven", fcmToken := none
    hashedMilitaryId := "hash", deviceFingerprint := none, tokenVersion := 1, status := .ACTIVE
    role := .SOLDIER, expiryDate := none, lastSeenAt := none }

def sampleAdmin : User :=
  { sampleUser with id := 1, phoneNumber := "+201000000001", role := .ADMIN }

/-! ## What a lookup and an acceptance say -/

theorem Users.byId_id {users : Users} {id : UUID} {row : User} (h : users.byId id = some row) :
    row.id = id := Table.find_key h

@[simp] theorem loginColumns_id (read : User) (body : VerifyIn) (now : Time) (row : User) :
    (loginColumns read body now row).id = row.id := rfl

@[simp] theorem statusColumns_id (read : User) (action : StatusAction) (row : User) :
    (statusColumns read action row).id = row.id := by
  cases action <;> rfl

/-- What it takes to be accepted by `get_current_user`. -/
theorem selectUser_ok {users : Users} {token : AccessToken} {row : User} {u : UUID}
    (hsub : token.sub = u.str) (h : selectUser users token = .ok row) :
    users.byId u = some row ∧ row.status = .ACTIVE ∧ token.ver = row.tokenVersion := by
  unfold selectUser at h
  simp only [hsub, UUID.ofStr_str, Option.bind_some] at h
  split at h
  · cases h
  · rename_i user huser
    split_ifs at h with hstatus hver
    obtain rfl := Except.ok.inj h
    exact ⟨huser, not_not.mp hstatus, not_not.mp hver⟩

theorem getCurrentUser_ok {users : Users} {now : Time} {token : AccessToken} {row : User} {u : UUID}
    (hsub : token.sub = u.str) (h : getCurrentUser users now (some token) = .ok row) :
    users.byId u = some row ∧ row.status = .ACTIVE ∧ token.ver = row.tokenVersion ∧
      ¬ token.exp < now / seconds 1 := by
  unfold getCurrentUser decodeAccessToken at h
  rw [Option.bind_some] at h
  by_cases hexp : token.exp < now / seconds 1
  · rw [if_pos hexp] at h
    cases h
  · rw [if_neg hexp] at h
    obtain ⟨hrow, hactive, hver⟩ := selectUser_ok hsub h
    exact ⟨hrow, hactive, hver, hexp⟩

end IronLink.Auth
