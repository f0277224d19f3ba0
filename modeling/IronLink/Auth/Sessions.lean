import IronLink.Auth.Login
import IronLink.Auth.TokenVersion
import IronLink.Lib.Calls
import Mathlib.Data.List.Sort

/-!
# Sessions

`list_sessions` and `revoke_session` (app/api/routes/auth.py:219-275) beside the login
endpoints and `set_user_status`. A login and a change of status are one transaction each; a
revocation is read, committed and published in three steps, with anything in between.

Results:
* `listSessions_iff`: the sessions a user is shown are those their logins have opened within
  the last seven days, without the ones they have revoked themselves.
* `revocations_published`: each commit of a revocation adds one audit row and, unless Redis
  refuses it, leads to one frame, on the channel of the user whose session it is.
* `one_live_device`: of all the sessions of a user only the newest holds a token that is
  accepted.
* `device_trail`: the audit rows of a user's logins tell each change of device.
-/

namespace IronLink.Auth

open Lib

/-! ## Model -/

/-- `AuditLog` as `revoke_session` adds it (app/api/routes/auth.py:262-269). -/
structure RevocationAudit where
  actorId : UUID
  actorRole : UserRole
  action : String := "auth.session.revoked"
  resourceType : String := "user_session"
  resourceId : String
  success : Bool := true
  deriving DecidableEq

/-- What a call of `revoke_session` does next. -/
inductive RevokePc
  /-- `session.revoked_at = …`, the audit row and `commit` -/
  | commit
  /-- `publish(user.id, …)` -/
  | publish
  deriving DecidableEq

/-- A call of `revoke_session` that has found its session. -/
structure Revocation where
  user : User
  sessionId : UUID
  pc : RevokePc
  deriving DecidableEq

/-- A login, no data of the program: the row it added, the token it handed out, and the
    fingerprint it came with. -/
structure Opening where
  session : UserSession
  token : AccessToken
  fingerprint : String
  time : Time

/-- The server. `opened`, oldest first, `revoked`, the commits of revocations with the user who
    asked, and `unsent`, those of which `publish` has raised, record the history. -/
structure Sessions where
  login : LoginServer
  /-- the column `created_at`, by the id of the row -/
  createdAt : UUID → Time
  /-- the column `revoked_at`, by the id of the row -/
  revokedAt : UUID → Option Time
  revocationAudit : List RevocationAudit
  calls : List Revocation
  published : List (UUID × Frame)
  opened : List Opening
  revoked : List (UUID × UUID)
  unsent : List (UUID × UUID)

/-- Nobody has logged in. -/
def Sessions.init (now : Time) (users : Users) : Sessions :=
  ⟨⟨now, users, [], [], .empty, .empty⟩, fun _ => now, fun _ => none, [], [], [], [], [], []⟩

/-- `SessionOut` (app/api/schemas.py:65-75); no route writes the columns that are NULL. -/
structure SessionOut where
  id : UUID
  deviceType : String
  deviceName : Option String := none
  ipAddress : String
  geoCity : Option String := none
  createdAt : Time
  lastActiveAt : Option Time := none
  isCurrent : Bool := false
  deriving DecidableEq

/-- `list_sessions` (app/api/routes/auth.py:219-234). -/
def listSessions (s : Sessions) (user : User) : List SessionOut :=
  ((s.login.sessions.filter fun row =>
      row.userId = user.id && (s.revokedAt row.id).isNone && s.login.now < row.expiresAt
    ).mergeSort fun row row' => s.createdAt row'.id ≤ s.createdAt row.id).map fun row =>
      { id := row.id, deviceType := row.deviceType, ipAddress := row.ipAddress
        createdAt := s.createdAt row.id }

/-- The session that `revoke_session` reads (app/api/routes/auth.py:251-259). -/
def revocable (s : Sessions) (user : User) (sessionId : UUID) : Except HttpError UserSession :=
  match s.login.sessions.find? fun row =>
      row.id = sessionId && row.userId = user.id && (s.revokedAt row.id).isNone with
  | none => .error ⟨404, "session not found"⟩
  | some row => .ok row

/-- The frame of a revocation (app/api/routes/auth.py:272-275). -/
def revokedFrame (sessionId : UUID) : Frame :=
  [("type", .str "session_revoked"), ("session_id", .str sessionId.str)]

inductive SessionsAction
  | login (call : LoginCall)
  /-- `POST /admin/users/{user_id}/status`, as one transaction -/
  | setUserStatus (creds : Option AccessToken) (userId : UUID) (action : StatusAction)
  /-- `DELETE /auth/sessions/{session_id}` up to its read -/
  | revoke (creds : Option AccessToken) (sessionId : UUID)
  /-- the next step of the call `i`; `ok`: the commit, or `publish`, does not raise -/
  | next (i : ℕ) (ok : Bool)
  | tick (d : ℕ)

section Step

variable (crypto : LoginCrypto) (settings : OtpSettings)

def LoginCall.wait : LoginCall → ℕ
  | .requestOtp wait .. => wait
  | .verify wait .. => wait

/-- A call of a login endpoint; a new row is created when its transaction is. -/
def Sessions.loggedIn (s : Sessions) (call : LoginCall) : Sessions :=
  let r := loginStep crypto settings s.login call
  { s with
    login := r.1
    createdAt :=
      match r.2 with
      | .loggedIn out => Function.update s.createdAt out.sessionId r.1.now
      | _ => s.createdAt
    opened := s.opened ++
      match call, r.2 with
      | .verify _ body _ _ _ _, .loggedIn out =>
        (r.1.sessions.drop s.login.sessions.length).map fun row =>
          ⟨row, out.accessToken, body.deviceFingerprint, r.1.now⟩
      | _, _ => [] }

/-- `set_user_status` on the row it has read; PostgreSQL refuses a version that does not fit. -/
def Sessions.setStatus (s : Sessions) (target : User) (action : StatusAction) : Sessions :=
  if (statusColumns target action target).tokenVersion > int4Max then s
  else
    { s with
      login := { s.login with
        users := Table.modify User.id s.login.users target.id (statusColumns target action) } }

/-- The end of `revoke_session` (app/api/routes/auth.py:261-275). -/
def Revocation.next (s : Sessions) (i : ℕ) (ok : Bool) (c : Revocation) : Sessions :=
  match c.pc with
  | .commit =>
    if ok then
      { s with
        revokedAt := Function.update s.revokedAt c.sessionId (some s.login.now)
        revocationAudit := s.revocationAudit ++
          [{ actorId := c.user.id, actorRole := c.user.role, resourceId := c.sessionId.str }]
        calls := s.calls.set i { c with pc := .publish }
        revoked := s.revoked ++ [(c.user.id, c.sessionId)] }
    else { s with calls := s.calls.eraseIdx i }
  | .publish =>
    if ok then
      { s with
        calls := s.calls.eraseIdx i
        published := s.published ++ [(c.user.id, revokedFrame c.sessionId)] }
    else
      { s with
        calls := s.calls.eraseIdx i
        unsent := s.unsent ++ [(c.user.id, c.sessionId)] }

def sessionsStep (s : Sessions) : SessionsAction → Option Sessions
  | .login call => some (s.loggedIn crypto settings call)
  | .setUserStatus creds userId action =>
    match statusRead s.login.users s.login.now creds userId with
    | .error _ => some s
    | .ok target => some (s.setStatus target action)
  | .revoke creds sessionId =>
    match getCurrentUser s.login.users s.login.now creds with
    | .error _ => some s
    | .ok user =>
      match revocable s user sessionId with
      | .error _ => some s
      | .ok row => some { s with calls := s.calls ++ [⟨user, row.id, .commit⟩] }
  | .next i ok => (s.calls[i]?).map (Revocation.next s i ok)
  | .tick d => some { s with login := s.login.wait d }

end Step

/-! ## What a login does -/

/-- What a call of a login endpoint does to the clock and the database. -/
inductive LoginEffect (crypto : LoginCrypto) (server : LoginServer) :
    LoginCall → LoginServer × LoginResponse → Prop
  /-- nobody is logged in; a failed login may be recorded -/
  | refused (call : LoginCall) (server' : LoginServer) (response : LoginResponse)
      (rows : List LoginAudit) (hnow : server'.now = server.now + call.wait)
      (husers : server'.users = server.users) (hsessions : server'.sessions = server.sessions)
      (haudit : server'.audit = server.audit ++ rows) (hfailed : ∀ row ∈ rows, row.success = false)
      (hresponse : ∀ out, response ≠ .loggedIn out) :
      LoginEffect crypto server call (server', response)
  /-- the user is logged in -/
  | accepted (wait : ℕ) (body : VerifyIn) (client : Option String)
      (header userAgent refreshToken : String) (sessionId : UUID) (server' : LoginServer)
      (user : User) (out : VerifyOut) (hnow : server'.now = server.now + wait)
      (hread : verifyRead server.users server'.now body = .ok user)
      (husers : server'.users =
        Table.modify User.id server.users user.id (loginColumns user body server'.now))
      (hsessions : server'.sessions = server.sessions ++
        [loginSession crypto (server.wait wait) user (clientHost client) userAgent refreshToken
          sessionId])
      (haudit : server'.audit = server.audit ++ loginAudit user body (clientHost client) userAgent)
      (hfresh : ∀ row ∈ server.sessions, row.id ≠ sessionId)
      (htoken : out.accessToken = loginToken user server'.now) (hout : out.sessionId = sessionId) :
      LoginEffect crypto server (.verify wait body client header refreshToken sessionId)
        (server', .loggedIn out)

section Effects

variable {crypto : LoginCrypto} {settings : OtpSettings}

theorem requestOtp_effect (server : LoginServer) (phone : String) (client : Option String)
    (code : String) (sent : Except HttpError Unit) (wait : ℕ) :
    LoginEffect crypto server (.requestOtp wait phone client code sent)
      (requestOtp settings (server.wait wait) phone client code sent) := by
  have hno : ∀ {server' : LoginServer} {response : LoginResponse},
      server'.now = server.now + wait → server'.users = server.users →
      server'.sessions = server.sessions → server'.audit = server.audit →
      (∀ out, response ≠ .loggedIn out) →
      LoginEffect crypto server (.requestOtp wait phone client code sent) (server', response) :=
    fun hnow husers hsessions haudit hresponse =>
      .refused _ _ _ [] hnow husers hsessions (by rw [haudit, List.append_nil])
        (fun _ hrow => absurd hrow List.not_mem_nil) hresponse
  unfold requestOtp
  dsimp only
  split
  · exact hno rfl rfl rfl rfl fun out => LoginResponse.noConfusion
  · split
    · exact hno rfl rfl rfl rfl fun out => LoginResponse.noConfusion
    · split
      · exact hno rfl rfl rfl rfl fun out => LoginResponse.noConfusion
      · exact hno rfl rfl rfl rfl fun out => LoginResponse.noConfusion

theorem verifyLogin_effect (server : LoginServer) (wait : ℕ) (body : VerifyIn)
    (client : Option String) (header refreshToken : String) (sessionId : UUID) :
    LoginEffect crypto server (.verify wait body client header refreshToken sessionId)
      (verifyLogin crypto settings (server.wait wait) body client header refreshToken
        sessionId) := by
  have hno : ∀ {server' : LoginServer} {error : HttpError} {rows : List LoginAudit},
      server'.now = server.now + wait → server'.users = server.users →
      server'.sessions = server.sessions → server'.audit = server.audit ++ rows →
      (∀ row ∈ rows, row.success = false) →
      LoginEffect crypto server (.verify wait body client header refreshToken sessionId)
        (server', .refused error) :=
    fun hnow husers hsessions haudit hfailed =>
      .refused _ _ _ _ hnow husers hsessions haudit hfailed fun out => LoginResponse.noConfusion
  have hnone : ∀ row ∈ ([] : List LoginAudit), row.success = false :=
    fun _ hrow => absurd hrow List.not_mem_nil
  unfold verifyLogin
  dsimp only
  split
  · exact hno rfl rfl rfl (List.append_nil _).symm hnone
  next user hread =>
  split_ifs with hbad hinsert hcommit
  · refine hno rfl rfl rfl rfl fun row hrow => ?_
    obtain rfl := List.mem_singleton.mp hrow
    rfl
  · exact hno rfl rfl rfl (List.append_nil _).symm hnone
  · refine .accepted wait body client header _ refreshToken sessionId _ user _ rfl hread rfl rfl
      rfl ?_ rfl rfl
    intro row hrow
    unfold loginCommits at hcommit
    simp only [Bool.and_eq_true] at hcommit
    have := List.all_eq_true.mp hcommit.2 row hrow
    exact of_decide_eq_true (Bool.and_eq_true_iff.mp this).1
  · exact hno rfl rfl rfl (List.append_nil _).symm hnone

theorem loginStep_effect (crypto : LoginCrypto) (settings : OtpSettings) (server : LoginServer)
    (call : LoginCall) :
    LoginEffect crypto server call (loginStep crypto settings server call) := by
  cases call with
  | requestOtp wait phone client code sent => exact requestOtp_effect ..
  | verify wait body client header refreshToken sessionId => exact verifyLogin_effect ..

end Effects

/-! ## Properties -/

/-- A commit of a revocation that is still to be published. -/
def Revocation.unpublished (c : Revocation) : Option (UUID × UUID) :=
  match c.pc with
  | .commit => none
  | .publish => some (c.user.id, c.sessionId)

/-- What a user is shown: what their logins have opened within the last seven days, without
    what they have revoked. -/
def ListsLive (s : Sessions) : Prop :=
  ∀ (user : User) (id : UUID), (∃ out ∈ listSessions s user, out.id = id) ↔
    ∃ o ∈ s.opened, o.session.id = id ∧ o.session.userId = user.id ∧
      s.login.now < o.time + seconds (REFRESH_TOKEN_EXPIRE_DAYS * 86400) ∧
      (user.id, id) ∉ s.revoked

/-- Every commit of a revocation ends a session of the user who asked, is in the audit log
    once, and has been published once, or is about to be, unless `publish` has raised. -/
structure RevocationsTold (s : Sessions) : Prop where
  own : ∀ r ∈ s.revoked, (s.revokedAt r.2).isSome ∧
    ∃ o ∈ s.opened, o.session.id = r.2 ∧ o.session.userId = r.1
  audit : s.revocationAudit.map (fun row => (row.actorId, row.resourceId)) =
    s.revoked.map fun r => (r.1, r.2.str)
  frames : ∃ sent : List (UUID × UUID),
    s.published = sent.map (fun r => (r.1, revokedFrame r.2)) ∧
      (sent ++ (s.unsent ++ s.calls.filterMap Revocation.unpublished)).Perm s.revoked

/-- The logins of a user, oldest first. -/
def Sessions.of (s : Sessions) (userId : UUID) : List Opening :=
  s.opened.filter fun o => o.session.userId = userId

/-- A token that a login has handed out is accepted only if it is the user's last login. -/
def OneLiveDevice (s : Sessions) : Prop :=
  ∀ o ∈ s.opened, ∀ row, getCurrentUser s.login.users s.login.now (some o.token) = .ok row →
    (s.of o.session.userId).getLast? = some o

/-- What the audit log says of a login: that it succeeded, and whether the device was another
    one than `before`. -/
def deviceEntry (before : Option String) (fingerprint : String) : List (String × Option Bool) :=
  let moved := before.any (· ≠ fingerprint)
  ("auth.login.success", some moved) ::
    if moved then [("user.device_fingerprint.changed", none)] else []

/-- What it says of logins with these fingerprints, one after the other. -/
def deviceTrail : Option String → List String → List (String × Option Bool)
  | _, [] => []
  | before, fingerprint :: rest =>
    deviceEntry before fingerprint ++ deviceTrail (some fingerprint) rest

/-- The successes that the log of the logins holds of a user are one for each of their logins,
    with the change of device where there was one, and the row has the fingerprint of the last. -/
def TrailTold (users : Users) (s : Sessions) : Prop :=
  ∀ row ∈ users,
    ((s.login.audit.filter fun entry => entry.actorId = row.id && entry.success).map
        fun entry => (entry.action, entry.fingerprintChanged)) =
      deviceTrail row.deviceFingerprint ((s.of row.id).map Opening.fingerprint) ∧
    ∃ row' ∈ s.login.users.byId row.id, row'.deviceFingerprint =
      ((s.of row.id).getLast?.map Opening.fingerprint).or row.deviceFingerprint

theorem deviceTrail_concat (before : Option String) (fingerprints : List String)
    (fingerprint : String) :
    deviceTrail before (fingerprints ++ [fingerprint]) =
      deviceTrail before fingerprints ++
        deviceEntry (fingerprints.getLast?.or before) fingerprint := by
  induction fingerprints generalizing before with
  | nil => simp [deviceTrail]
  | cons first rest ih =>
    have hlast : rest.getLast?.or (some first) = (first :: rest).getLast?.or before := by
      rw [List.getLast?_cons]
      cases rest.getLast? <;> rfl
    rw [List.cons_append, deviceTrail, deviceTrail, ih, List.append_assoc, hlast]

/-! ## The invariants -/

variable {crypto : LoginCrypto} {settings : OtpSettings} {s s' : Sessions}

/-- What holds of the tables and the calls in every run. -/
structure TablesInv (s : Sessions) : Prop where
  rows : s.login.sessions = s.opened.map Opening.session
  ids : (s.login.sessions.map UserSession.id).Nodup
  times : ∀ o ∈ s.opened,
    o.session.expiresAt = o.time + seconds (REFRESH_TOKEN_EXPIRE_DAYS * 86400) ∧
      s.createdAt o.session.id = o.time
  calls : ∀ c ∈ s.calls, ∃ o ∈ s.opened, o.session.id = c.sessionId ∧
    o.session.userId = c.user.id
  column : ∀ id, (s.revokedAt id).isSome = true ↔ ∃ userId, (userId, id) ∈ s.revoked
  told : RevocationsTold s

/-- What holds of the accounts in every run. -/
structure AccountsInv (users : Users) (s : Sessions) : Prop where
  ids : (s.login.users.map User.id).Nodup
  tokens : ∀ o ∈ s.opened, o.token.sub = o.session.userId.str ∧
    ∃ row ∈ s.login.users.byId o.session.userId, o.token.ver ≤ row.tokenVersion
  order : s.opened.Pairwise fun o o' =>
    o.session.userId = o'.session.userId → o.token.ver < o'.token.ver
  trail : TrailTold users s

theorem tablesInv_init (now : Time) (users : Users) : TablesInv (Sessions.init now users) where
  rows := rfl
  ids := List.nodup_nil
  times := fun _ h => absurd h List.not_mem_nil
  calls := fun _ h => absurd h List.not_mem_nil
  column := fun _ => iff_of_false Bool.false_ne_true fun ⟨_, h⟩ => absurd h List.not_mem_nil
  told :=
    { own := fun _ h => absurd h List.not_mem_nil
      audit := rfl
      frames := ⟨[], rfl, .nil⟩ }

theorem accountsInv_init (now : Time) {users : Users} (hids : (users.map User.id).Nodup) :
    AccountsInv users (Sessions.init now users) where
  ids := hids
  tokens := fun _ h => absurd h List.not_mem_nil
  order := .nil
  trail := fun row hrow => ⟨rfl, row, Table.find_of_mem hids hrow, rfl⟩

/-- With distinct primary keys, a session of the table belongs to one user. -/
theorem TablesInv.owner_eq (h : TablesInv s) {o o' : Opening} (ho : o ∈ s.opened)
    (ho' : o' ∈ s.opened) (hid : o.session.id = o'.session.id) : o.session = o'.session := by
  have hmem : ∀ {o : Opening}, o ∈ s.opened → o.session ∈ s.login.sessions := fun ho => by
    rw [h.rows]
    exact List.mem_map_of_mem ho
  exact List.inj_on_of_nodup_map h.ids (hmem ho) (hmem ho') hid

theorem TablesInv.listsLive (h : TablesInv s) : ListsLive s := by
  intro user id
  have hshown : (∃ out ∈ listSessions s user, out.id = id) ↔
      ∃ row ∈ s.login.sessions, row.id = id ∧ row.userId = user.id ∧
        (s.revokedAt row.id).isNone = true ∧ s.login.now < row.expiresAt := by
    unfold listSessions
    simp only [List.mem_map, List.mem_mergeSort, List.mem_filter, Bool.and_eq_true,
      decide_eq_true_eq]
    constructor
    · rintro ⟨_, ⟨row, ⟨hrow, ⟨huser, hnone⟩, hlive⟩, rfl⟩, rfl⟩
      exact ⟨row, hrow, rfl, huser, hnone, hlive⟩
    · rintro ⟨row, hrow, rfl, huser, hnone, hlive⟩
      exact ⟨_, ⟨row, ⟨hrow, ⟨huser, hnone⟩, hlive⟩, rfl⟩, rfl⟩
  rw [hshown]
  constructor
  · rintro ⟨row, hrow, rfl, huser, hnone, hlive⟩
    rw [h.rows] at hrow
    obtain ⟨o, ho, rfl⟩ := List.mem_map.mp hrow
    refine ⟨o, ho, rfl, huser, (h.times o ho).1 ▸ hlive, fun hrevoked => ?_⟩
    have hsome := (h.column o.session.id).mpr ⟨_, hrevoked⟩
    rw [Option.isNone_iff_eq_none.mp hnone] at hsome
    cases hsome
  · rintro ⟨o, ho, rfl, huser, hlive, hrevoked⟩
    refine ⟨o.session, ?_, rfl, huser, ?_, (h.times o ho).1 ▸ hlive⟩
    · rw [h.rows]
      exact List.mem_map_of_mem ho
    · -- whoever had revoked it would own it, and so be the user
      rw [Option.isNone_iff_eq_none, ← Option.not_isSome_iff_eq_none, h.column]
      rintro ⟨userId, hmem⟩
      obtain ⟨-, o', ho', hid, howner⟩ := h.told.own _ hmem
      rw [← h.owner_eq ho ho' hid.symm, huser] at howner
      exact hrevoked (howner ▸ hmem)

/-- Of logins with growing versions, the one whose token is accepted is the last. -/
theorem AccountsInv.oneLiveDevice {users : Users} (h : AccountsInv users s) :
    OneLiveDevice s := by
  intro o ho row hok
  obtain ⟨hsub, row', hrow', -⟩ := h.tokens o ho
  obtain ⟨hrow, -, hver, -⟩ := getCurrentUser_ok hsub hok
  obtain ⟨before, after, hsplit⟩ := List.append_of_mem ho
  have hnone : after.filter (fun x => x.session.userId = o.session.userId) = [] := by
    refine List.filter_eq_nil_iff.mpr fun x hx hsame => ?_
    have hsame : x.session.userId = o.session.userId := of_decide_eq_true hsame
    have horder := h.order
    rw [hsplit] at horder
    have hlt := (List.pairwise_cons.mp (List.pairwise_append.mp horder).2.1).1 x hx hsame.symm
    have hmem : x ∈ s.opened := hsplit ▸ List.mem_append_right _ (List.mem_cons_of_mem _ hx)
    obtain ⟨-, row'', hrow'', hle⟩ := h.tokens x hmem
    rw [hsame, hrow] at hrow''
    obtain rfl := Option.some.inj hrow''
    omega
  have hself : (o :: after).filter (fun x => x.session.userId = o.session.userId) = [o] := by
    rw [List.filter_cons, hnone, if_pos (decide_eq_true rfl)]
  unfold Sessions.of
  rw [hsplit, List.filter_append, hself, List.getLast?_append, List.getLast?_singleton,
    Option.some_or]

/-! ## Each step keeps the invariants -/

/-- Only the sessions, the clock and the history matter. -/
theorem TablesInv.congr (h : TablesInv s) (hsessions : s'.login.sessions = s.login.sessions)
    (hopened : s'.opened = s.opened) (hcreated : s'.createdAt = s.createdAt)
    (hcolumn : s'.revokedAt = s.revokedAt) (hcalls : s'.calls = s.calls)
    (haudit : s'.revocationAudit = s.revocationAudit) (hrevoked : s'.revoked = s.revoked)
    (hpublished : s'.published = s.published) (hunsent : s'.unsent = s.unsent) :
    TablesInv s' := by
  constructor
  · rw [hsessions, hopened]
    exact h.rows
  · rw [hsessions]
    exact h.ids
  · rw [hopened, hcreated]
    exact h.times
  · rw [hcalls, hopened]
    exact h.calls
  · rw [hcolumn, hrevoked]
    exact h.column
  · constructor
    · rw [hrevoked, hcolumn, hopened]
      exact h.told.own
    · rw [haudit, hrevoked]
      exact h.told.audit
    · rw [hpublished, hcalls, hrevoked, hunsent]
      exact h.told.frames

/-- A login adds a row with a new key. -/
theorem TablesInv.open (h : TablesInv s) {server : LoginServer} {o : Opening}
    (hsessions : server.sessions = s.login.sessions ++ [o.session])
    (hfresh : ∀ row ∈ s.login.sessions, row.id ≠ o.session.id)
    (hexpires : o.session.expiresAt = o.time + seconds (REFRESH_TOKEN_EXPIRE_DAYS * 86400)) :
    TablesInv { s with
      login := server
      createdAt := Function.update s.createdAt o.session.id o.time
      opened := s.opened ++ [o] } := by
  have hold : ∀ {P : Opening → Prop}, (∃ o ∈ s.opened, P o) → ∃ o' ∈ s.opened ++ [o], P o' :=
    fun ⟨o', ho', hP⟩ => ⟨o', List.mem_append_left _ ho', hP⟩
  constructor
  · rw [hsessions, h.rows, List.map_append, List.map_singleton]
  · rw [hsessions]
    exact Table.nodup_append h.ids (Table.find_eq_none.mpr hfresh)
  · intro o' ho'
    obtain hmem | hnew := List.mem_append.mp ho'
    · have hne : o'.session.id ≠ o.session.id := by
        refine hfresh o'.session ?_
        rw [h.rows]
        exact List.mem_map_of_mem hmem
      exact ⟨(h.times o' hmem).1, (Function.update_of_ne hne ..).trans (h.times o' hmem).2⟩
    · obtain rfl := List.mem_singleton.mp hnew
      exact ⟨hexpires, Function.update_self ..⟩
  · exact fun c hc => hold (h.calls c hc)
  · exact h.column
  · exact
      { own := fun r hr => ⟨(h.told.own r hr).1, hold (h.told.own r hr).2⟩
        audit := h.told.audit
        frames := h.told.frames }

theorem tablesInv_login (h : TablesInv s) (call : LoginCall) :
    TablesInv (s.loggedIn crypto settings call) := by
  unfold Sessions.loggedIn
  have heffect := loginStep_effect crypto settings s.login call
  generalize loginStep crypto settings s.login call = r at heffect
  cases heffect with
  | refused _ server' response rows hnow husers hsessions haudit hfailed hresponse =>
    cases response with
    | loggedIn out => exact absurd rfl (hresponse out)
    | otpRequested out =>
      refine h.congr hsessions ?_ rfl rfl rfl rfl rfl rfl rfl
      cases call <;> exact List.append_nil _
    | refused error =>
      refine h.congr hsessions ?_ rfl rfl rfl rfl rfl rfl rfl
      cases call <;> exact List.append_nil _
  | accepted wait body client header userAgent refreshToken sessionId server' user out hnow hread
      husers hsessions haudit hfresh htoken hout =>
    dsimp only
    rw [hsessions, List.drop_left, List.map_singleton, hout]
    refine h.open (o := ⟨_, _, _, server'.now⟩) hsessions hfresh ?_
    rw [hnow]
    rfl

theorem TablesInv.calls_eraseIdx (h : TablesInv s) (i : ℕ) : ∀ x ∈ s.calls.eraseIdx i,
    ∃ o ∈ s.opened, o.session.id = x.sessionId ∧ o.session.userId = x.user.id :=
  fun x hx => h.calls x (List.mem_of_mem_eraseIdx hx)

/-- A commit that is lost changes nothing. -/
theorem tablesInv_lost (h : TablesInv s) {i : ℕ} {c : Revocation} (hc : s.calls[i]? = some c)
    (hpc : c.pc = .commit) : TablesInv (c.next s i false) := by
  obtain ⟨sent, hpublished, hperm⟩ := h.told.frames
  have hrest := filterMap_eraseIdx_perm Revocation.unpublished hc
  rw [show c.unpublished = none by unfold Revocation.unpublished; rw [hpc]] at hrest
  unfold Revocation.next
  rw [hpc]
  exact
    { h with
      calls := h.calls_eraseIdx i
      told :=
        { h.told with
          frames := ⟨sent, hpublished,
            ((hrest.append_left s.unsent).append_left sent).trans hperm⟩ } }

/-- The commit of a revocation, whose frame is still to come. -/
theorem told_revoked (h : TablesInv s) {i : ℕ} {c : Revocation} (hc : s.calls[i]? = some c)
    (hpc : c.pc = .commit) : RevocationsTold (c.next s i true) := by
  obtain ⟨sent, hpublished, hperm⟩ := h.told.frames
  have hset := filterMap_set_perm Revocation.unpublished hc { c with pc := .publish }
  rw [show c.unpublished = none by unfold Revocation.unpublished; rw [hpc]] at hset
  unfold Revocation.next
  rw [hpc]
  dsimp only
  rw [if_pos rfl]
  constructor
  · intro r hr
    dsimp only
    obtain hold | hnew := List.mem_append.mp hr
    · refine ⟨?_, (h.told.own r hold).2⟩
      by_cases hid : r.2 = c.sessionId
      · rw [hid, Function.update_self]
        rfl
      · rw [Function.update_of_ne hid]
        exact (h.told.own r hold).1
    · obtain rfl := List.mem_singleton.mp hnew
      refine ⟨?_, h.calls c (List.mem_of_getElem? hc)⟩
      rw [Function.update_self]
      rfl
  · rw [List.map_append, List.map_append, h.told.audit]
    rfl
  · refine ⟨sent, hpublished, ?_⟩
    have := (hset.append_left (sent ++ s.unsent)).trans (List.perm_append_comm_assoc _ _ _)
    rw [List.append_assoc, List.append_assoc] at this
    exact this.trans ((hperm.append_left _).trans List.perm_append_comm)

theorem tablesInv_revoked (h : TablesInv s) {i : ℕ} {c : Revocation} (hc : s.calls[i]? = some c)
    (hpc : c.pc = .commit) : TablesInv (c.next s i true) := by
  have htold := told_revoked h hc hpc
  unfold Revocation.next at htold ⊢
  rw [hpc] at htold ⊢
  dsimp only at htold ⊢
  rw [if_pos rfl] at htold ⊢
  refine
    { h with
      calls := forall_set h.calls (h.calls c (List.mem_of_getElem? hc))
      column := fun id => ?_
      told := htold }
  dsimp only
  by_cases hid : id = c.sessionId
  · subst hid
    rw [Function.update_self]
    exact iff_of_true rfl ⟨c.user.id, List.mem_append_right _ (List.mem_singleton.mpr rfl)⟩
  · rw [Function.update_of_ne hid, h.column]
    simp [hid]

/-- A frame that Redis does not take is a revocation that nobody is told of. -/
theorem tablesInv_unsent (h : TablesInv s) {i : ℕ} {c : Revocation} (hc : s.calls[i]? = some c)
    (hpc : c.pc = .publish) : TablesInv (c.next s i false) := by
  obtain ⟨sent, hpublished, hperm⟩ := h.told.frames
  have hrest := filterMap_eraseIdx_perm Revocation.unpublished hc
  rw [show c.unpublished = some (c.user.id, c.sessionId) by
    unfold Revocation.unpublished; rw [hpc]] at hrest
  unfold Revocation.next
  rw [hpc]
  dsimp only
  rw [if_neg Bool.false_ne_true]
  refine
    { h with
      calls := h.calls_eraseIdx i
      told := { h.told with frames := ⟨sent, hpublished, ?_⟩ } }
  dsimp only
  rw [List.append_assoc]
  exact ((hrest.append_left s.unsent).append_left sent).trans hperm

theorem tablesInv_published (h : TablesInv s) {i : ℕ} {c : Revocation}
    (hc : s.calls[i]? = some c) (hpc : c.pc = .publish) : TablesInv (c.next s i true) := by
  obtain ⟨sent, hpublished, hperm⟩ := h.told.frames
  have hrest := filterMap_eraseIdx_perm Revocation.unpublished hc
  rw [show c.unpublished = some (c.user.id, c.sessionId) by
    unfold Revocation.unpublished; rw [hpc]] at hrest
  unfold Revocation.next
  rw [hpc]
  dsimp only
  rw [if_pos rfl]
  refine
    { h with
      calls := h.calls_eraseIdx i
      told := { h.told with frames := ⟨sent ++ [(c.user.id, c.sessionId)], ?_, ?_⟩ } }
  · rw [hpublished, List.map_append]
    rfl
  · rw [List.append_assoc]
    refine List.Perm.trans ?_ hperm
    refine List.Perm.append_left sent ?_
    exact (List.perm_append_comm_assoc _ _ _).trans (hrest.append_left s.unsent)

theorem tablesInv_next (h : TablesInv s) {i : ℕ} {ok : Bool} {c : Revocation}
    (hc : s.calls[i]? = some c) : TablesInv (c.next s i ok) := by
  cases hpc : c.pc with
  | commit =>
    cases ok with
    | false => exact tablesInv_lost h hc hpc
    | true => exact tablesInv_revoked h hc hpc
  | publish =>
    cases ok with
    | false => exact tablesInv_unsent h hc hpc
    | true => exact tablesInv_published h hc hpc

theorem tablesInv_step (s : Sessions) (a : SessionsAction) (s' : Sessions) (h : TablesInv s)
    (hs : sessionsStep crypto settings s a = some s') : TablesInv s' := by
  cases a with
  | login call =>
    obtain rfl := Option.some.inj hs
    exact tablesInv_login h call
  | setUserStatus creds userId action =>
    simp only [sessionsStep] at hs
    split at hs <;> obtain rfl := Option.some.inj hs
    · exact h
    · unfold Sessions.setStatus
      split_ifs
      · exact h
      · exact h.congr rfl rfl rfl rfl rfl rfl rfl rfl rfl
  | revoke creds sessionId =>
    simp only [sessionsStep] at hs
    split at hs
    · obtain rfl := Option.some.inj hs
      exact h
    next user huser =>
    split at hs <;> obtain rfl := Option.some.inj hs
    · exact h
    next row hrow =>
    -- the session was found, so it is the caller's
    unfold revocable at hrow
    split at hrow
    · cases hrow
    next found hfound =>
    obtain rfl := Except.ok.inj hrow
    have hsat := List.find?_some hfound
    simp only [Bool.and_eq_true, decide_eq_true_eq] at hsat
    have hmem := List.mem_of_find?_eq_some hfound
    rw [h.rows] at hmem
    obtain ⟨o, ho, rfl⟩ := List.mem_map.mp hmem
    refine { h with calls := fun c hc => ?_, told := { h.told with frames := ?_ } }
    · obtain hold | hnew := List.mem_append.mp hc
      · exact h.calls c hold
      · obtain rfl := List.mem_singleton.mp hnew
        exact ⟨o, ho, rfl, hsat.1.2⟩
    · obtain ⟨sent, hpublished, hperm⟩ := h.told.frames
      refine ⟨sent, hpublished, ?_⟩
      rw [List.filterMap_append, List.filterMap_cons_none rfl, List.filterMap_nil, List.append_nil]
      exact hperm
  | next i ok =>
    obtain ⟨c, hc, rfl⟩ := Option.map_eq_some_iff.mp hs
    exact tablesInv_next h hc
  | tick d =>
    obtain rfl := Option.some.inj hs
    exact h.congr rfl rfl rfl rfl rfl rfl rfl rfl rfl

variable {users : Users}

/-- Only the rows of `users`, the audit log and the history matter. -/
theorem AccountsInv.congr (h : AccountsInv users s) (husers : s'.login.users = s.login.users)
    (haudit : s'.login.audit = s.login.audit) (hopened : s'.opened = s.opened) :
    AccountsInv users s' := by
  have hof : ∀ userId, s'.of userId = s.of userId := fun userId => by
    unfold Sessions.of
    rw [hopened]
  constructor
  · rw [husers]
    exact h.ids
  · rw [hopened, husers]
    exact h.tokens
  · rw [hopened]
    exact h.order
  · intro row hrow
    rw [hof, haudit, husers]
    exact h.trail row hrow

/-- Failed logins are no successes. -/
theorem AccountsInv.fail (h : AccountsInv users s) {rows : List LoginAudit}
    (husers : s'.login.users = s.login.users) (haudit : s'.login.audit = s.login.audit ++ rows)
    (hfailed : ∀ row ∈ rows, row.success = false) (hopened : s'.opened = s.opened) :
    AccountsInv users s' := by
  have hnone : ∀ userId : UUID,
      rows.filter (fun entry => entry.actorId = userId && entry.success) = [] := fun userId => by
    refine List.filter_eq_nil_iff.mpr fun entry hentry hboth => ?_
    rw [hfailed entry hentry, Bool.and_false] at hboth
    cases hboth
  have hof : ∀ userId, s'.of userId = s.of userId := fun userId => by
    unfold Sessions.of
    rw [hopened]
  constructor
  · rw [husers]
    exact h.ids
  · rw [hopened, husers]
    exact h.tokens
  · rw [hopened]
    exact h.order
  · intro row hrow
    rw [hof, haudit, husers, List.filter_append, hnone, List.append_nil]
    exact h.trail row hrow

/-- A change of one row that lowers no version and keeps the fingerprint. -/
theorem AccountsInv.modify (h : AccountsInv users s) {id : UUID} {f : User → User}
    (hid : ∀ row, (f row).id = row.id)
    (hf : ∀ row ∈ s.login.users.byId id, row.tokenVersion ≤ (f row).tokenVersion ∧
      (f row).deviceFingerprint = row.deviceFingerprint) :
    AccountsInv users { s with
      login := { s.login with users := Table.modify User.id s.login.users id f } } := by
  have hrow : ∀ {u : UUID} {row : User}, s.login.users.byId u = some row →
      ∃ row', Users.byId (Table.modify User.id s.login.users id f) u = some row' ∧
        row.tokenVersion ≤ row'.tokenVersion ∧
        row'.deviceFingerprint = row.deviceFingerprint := by
    intro u row hrow
    by_cases hu : u = id
    · subst hu
      refine ⟨f row, ?_, hf row hrow⟩
      unfold Users.byId at *
      rw [Table.find_modify_self hid, hrow]
      rfl
    · refine ⟨row, ?_, le_rfl, rfl⟩
      unfold Users.byId at *
      rw [Table.find_modify_of_ne hid _ hu, hrow]
  constructor
  · rw [Table.map_key_modify hid]
    exact h.ids
  · intro o ho
    obtain ⟨hsub, row, hmem, hle⟩ := h.tokens o ho
    obtain ⟨row', hrow', hver, -⟩ := hrow hmem
    exact ⟨hsub, row', hrow', hle.trans hver⟩
  · exact h.order
  · intro row₀ hrow₀
    obtain ⟨htrail, row, hmem, hfinger⟩ := h.trail row₀ hrow₀
    obtain ⟨row', hrow', -, hsame⟩ := hrow hmem
    exact ⟨htrail, row', hrow', hsame.trans hfinger⟩

/-- What the audit log shows of a login. -/
theorem loginAudit_successes (user : User) (body : VerifyIn) (ip userAgent : String)
    (userId : UUID) :
    (((loginAudit user body ip userAgent).filter
        fun entry => entry.actorId = userId && entry.success).map
      fun entry => (entry.action, entry.fingerprintChanged)) =
      if user.id = userId then deviceEntry user.deviceFingerprint body.deviceFingerprint
      else [] := by
  unfold loginAudit deviceEntry fingerprintChanged
  by_cases hid : user.id = userId
  · cases user.deviceFingerprint.any (· ≠ body.deviceFingerprint) <;> simp [hid]
  · cases user.deviceFingerprint.any (· ≠ body.deviceFingerprint) <;> simp [hid]

theorem verifyRead_ok {rows : Users} {now : Time} {body : VerifyIn} {user : User}
    (h : verifyRead rows now body = .ok user) : user ∈ rows := by
  unfold verifyRead at h
  split at h
  · cases h
  next found hfound =>
  split_ifs at h
  obtain rfl := Except.ok.inj h
  exact List.mem_of_find?_eq_some hfound

/-- A login raises the version of its user, and hands out a token of the new one. -/
theorem AccountsInv.open (h : AccountsInv users s) {server : LoginServer} {user : User}
    {body : VerifyIn} {ip userAgent : String} {o : Opening} {createdAt : UUID → Time}
    (hmem : user ∈ s.login.users)
    (husers : server.users =
      Table.modify User.id s.login.users user.id (loginColumns user body server.now))
    (haudit : server.audit = s.login.audit ++ loginAudit user body ip userAgent)
    (huser : o.session.userId = user.id) (htoken : o.token = loginToken user server.now)
    (hfinger : o.fingerprint = body.deviceFingerprint) :
    AccountsInv users { s with
      login := server, createdAt := createdAt, opened := s.opened ++ [o] } := by
  have hrow : s.login.users.byId user.id = some user := Table.find_of_mem h.ids hmem
  have hself : server.users.byId user.id = some (loginColumns user body server.now user) := by
    unfold Users.byId at *
    rw [husers, Table.find_modify_self (loginColumns_id user body _), hrow]
    rfl
  have hother : ∀ {u : UUID}, u ≠ user.id → server.users.byId u = s.login.users.byId u := by
    intro u hu
    unfold Users.byId
    rw [husers, Table.find_modify_of_ne (loginColumns_id user body _) _ hu]
  constructor
  · show (server.users.map User.id).Nodup
    rw [husers, Table.map_key_modify (loginColumns_id user body _)]
    exact h.ids
  · intro o' ho'
    obtain hold | hnew := List.mem_append.mp ho'
    · obtain ⟨hsub, row, hfound, hle⟩ := h.tokens o' hold
      refine ⟨hsub, ?_⟩
      by_cases hu : o'.session.userId = user.id
      · rw [hu] at hfound ⊢
        obtain rfl := Option.some.inj (hrow.symm.trans hfound)
        refine ⟨_, hself, ?_⟩
        show o'.token.ver ≤ user.tokenVersion + 1
        omega
      · exact ⟨row, (hother hu).trans hfound, hle⟩
    · obtain rfl := List.mem_singleton.mp hnew
      rw [huser, htoken]
      exact ⟨rfl, _, hself, le_rfl⟩
  · refine List.pairwise_append.mpr ⟨h.order, List.pairwise_singleton .., ?_⟩
    intro o' ho' x hx hsame
    obtain rfl := List.mem_singleton.mp hx
    obtain ⟨-, row, hfound, hle⟩ := h.tokens o' ho'
    rw [hsame, huser, hrow] at hfound
    obtain rfl := Option.some.inj hfound
    rw [htoken]
    show o'.token.ver < user.tokenVersion + 1
    omega
  · intro row₀ hrow₀
    obtain ⟨htrail, row, hfound, hlast⟩ := h.trail row₀ hrow₀
    unfold Sessions.of at *
    dsimp only
    rw [haudit, List.filter_append, List.filter_append, List.map_append, List.map_append, htrail,
      loginAudit_successes]
    by_cases hid : user.id = row₀.id
    · rw [← hid, hrow] at hfound
      obtain rfl := Option.some.inj hfound
      have hown : [o].filter (fun x => x.session.userId = row₀.id) = [o] := by
        simp [huser, hid]
      rw [if_pos hid, hown, List.map_singleton, deviceTrail_concat, hfinger, hlast,
        List.getLast?_map, ← hid]
      refine ⟨rfl, _, hself, ?_⟩
      rw [List.getLast?_append, List.getLast?_singleton, Option.some_or, Option.map_some,
        Option.some_or, hfinger]
      unfold loginColumns
      dsimp only
      split_ifs with hsame
      · exact hsame
      · rfl
    · have hnone : [o].filter (fun x => x.session.userId = row₀.id) = [] := by
        simp [huser, hid]
      rw [if_neg hid, hnone, List.map_nil, List.append_nil, List.append_nil, List.append_nil]
      exact ⟨rfl, row, (hother (Ne.symm hid)).trans hfound, hlast⟩

theorem accountsInv_login (h : AccountsInv users s) (call : LoginCall) :
    AccountsInv users (s.loggedIn crypto settings call) := by
  unfold Sessions.loggedIn
  have heffect := loginStep_effect crypto settings s.login call
  generalize loginStep crypto settings s.login call = r at heffect
  cases heffect with
  | refused _ server' response rows hnow husers hsessions haudit hfailed hresponse =>
    refine h.fail husers haudit hfailed ?_
    cases response with
    | loggedIn out => exact absurd rfl (hresponse out)
    | otpRequested out => cases call <;> exact List.append_nil _
    | refused error => cases call <;> exact List.append_nil _
  | accepted wait body client header userAgent refreshToken sessionId server' user out hnow hread
      husers hsessions haudit hfresh htoken hout =>
    dsimp only
    rw [hsessions, List.drop_left, List.map_singleton]
    exact h.open (verifyRead_ok hread) husers haudit rfl htoken rfl

theorem statusRead_ok {rows : Users} {now : Time} {creds : Option AccessToken} {userId : UUID}
    {target : User} (h : statusRead rows now creds userId = .ok target) :
    rows.byId userId = some target := by
  unfold statusRead at h
  split at h
  · cases h
  · exact (statusTarget_ok h).1

theorem accountsInv_step (s : Sessions) (a : SessionsAction) (s' : Sessions)
    (h : AccountsInv users s) (hs : sessionsStep crypto settings s a = some s') :
    AccountsInv users s' := by
  cases a with
  | login call =>
    obtain rfl := Option.some.inj hs
    exact accountsInv_login h call
  | setUserStatus creds userId action =>
    simp only [sessionsStep] at hs
    split at hs <;> obtain rfl := Option.some.inj hs
    · exact h
    next target htarget =>
    have hrow := statusRead_ok htarget
    unfold Sessions.setStatus
    split_ifs
    · exact h
    · refine h.modify (statusColumns_id target action) fun row hfound => ?_
      rw [Users.byId_id hrow, hrow] at hfound
      obtain rfl := Option.some.inj hfound
      cases action with
      | suspend => exact ⟨by simp [statusColumns], rfl⟩
      | activate => exact ⟨le_rfl, rfl⟩
  | revoke creds sessionId =>
    simp only [sessionsStep] at hs
    split at hs
    · obtain rfl := Option.some.inj hs
      exact h
    · split at hs <;> obtain rfl := Option.some.inj hs
      · exact h
      · exact h.congr rfl rfl rfl
  | next i ok =>
    obtain ⟨c, -, rfl⟩ := Option.map_eq_some_iff.mp hs
    unfold Revocation.next
    split <;> split_ifs <;> exact h.congr rfl rfl rfl
  | tick d =>
    obtain rfl := Option.some.inj hs
    exact h.congr rfl rfl rfl

/-! ## Runs -/

/-- A login with a phone, one with a tablet, and the revocation of the first from the second. -/
def sampleSessions : List SessionsAction :=
  let creds := some (loginToken { sampleUser with tokenVersion := 2 } 70000000)
  [.login (.requestOtp 0 "+201000000007" (some "10.0.0.1") "483920" (.ok ())),
    .login (.verify 0 ⟨"+201000000007", "483920", "hash", "phone"⟩ (some "10.0.0.1") "okhttp"
      "r" 1),
    .tick 70000000,
    .login (.requestOtp 0 "+201000000007" (some "10.0.0.1") "152638" (.ok ())),
    .login (.verify 0 ⟨"+201000000007", "152638", "hash", "tablet"⟩ (some "10.0.0.1") "okhttp"
      "s" 2),
    .revoke creds 1, .next 0 true, .next 0 true]

theorem run_sampleSessions : ∃ s',
    run (sessionsStep plainCrypto ⟨300, 3⟩) (Sessions.init 0 [sampleUser, sampleAdmin])
      sampleSessions = some s' ∧
    (s'.opened.length, s'.revoked.length, s'.published.length) = (2, 1, 1) := by
  have hrun : (run (sessionsStep plainCrypto ⟨300, 3⟩) (Sessions.init 0 [sampleUser, sampleAdmin])
      sampleSessions).map (fun s' => (s'.opened.length, s'.revoked.length, s'.published.length)) =
      some (2, 1, 1) := by decide +kernel
  exact Option.map_eq_some_iff.mp hrun

section Runs

variable (crypto : LoginCrypto) (settings : OtpSettings) (now : Time) (users : Users)
  (as : List SessionsAction) (s' : Sessions)

/-- **Sessions.** In every run `list_sessions` shows a user the sessions of their own logins
    of the last seven days, without those they have revoked. -/
theorem listSessions_iff
    (hr : run (sessionsStep crypto settings) (Sessions.init now users) as = some s') :
    ListsLive s' :=
  (run_invariant tablesInv_step (tablesInv_init now users) hr).listsLive

theorem listSessions_iff_twoDevices : ∃ s',
    run (sessionsStep plainCrypto ⟨300, 3⟩) (Sessions.init 0 [sampleUser, sampleAdmin])
      sampleSessions = some s' ∧ s'.opened.length = 2 ∧ ListsLive s' := by
  obtain ⟨s', hr, hsizes⟩ := run_sampleSessions
  exact ⟨s', hr, congrArg Prod.fst hsizes, listSessions_iff _ _ _ _ _ s' hr⟩

/-- **Revocations.** In every run each commit of a revocation ends a session of its caller,
    is recorded once, and is published once or about to be, unless `publish` has raised. -/
theorem revocations_published
    (hr : run (sessionsStep crypto settings) (Sessions.init now users) as = some s') :
    RevocationsTold s' :=
  (run_invariant tablesInv_step (tablesInv_init now users) hr).told

theorem revocations_published_twoDevices : ∃ s',
    run (sessionsStep plainCrypto ⟨300, 3⟩) (Sessions.init 0 [sampleUser, sampleAdmin])
      sampleSessions = some s' ∧ s'.published.length = 1 ∧ RevocationsTold s' := by
  obtain ⟨s', hr, hsizes⟩ := run_sampleSessions
  exact ⟨s', hr, congrArg (·.2.2) hsizes, revocations_published _ _ _ _ _ s' hr⟩

/-- **One device.** Whatever sessions a user has open, the only one whose access token is
    still accepted is that of the last login. -/
theorem one_live_device (hids : (users.map User.id).Nodup)
    (hr : run (sessionsStep crypto settings) (Sessions.init now users) as = some s') :
    OneLiveDevice s' :=
  (run_invariant accountsInv_step (accountsInv_init now hids) hr).oneLiveDevice

theorem one_live_device_twoDevices : ∃ s',
    run (sessionsStep plainCrypto ⟨300, 3⟩) (Sessions.init 0 [sampleUser, sampleAdmin])
      sampleSessions = some s' ∧ s'.opened.length = 2 ∧ OneLiveDevice s' := by
  obtain ⟨s', hr, hsizes⟩ := run_sampleSessions
  exact ⟨s', hr, congrArg Prod.fst hsizes, one_live_device _ _ _ _ _ s' (by decide) hr⟩

/-- **The trail of devices.** The rows that logins have added to the audit log for a user tell
    these logins in order, each with whether the device was another one than before. -/
theorem device_trail (hids : (users.map User.id).Nodup)
    (hr : run (sessionsStep crypto settings) (Sessions.init now users) as = some s') :
    TrailTold users s' :=
  (run_invariant accountsInv_step (accountsInv_init now hids) hr).trail

theorem device_trail_twoDevices : ∃ s',
    run (sessionsStep plainCrypto ⟨300, 3⟩) (Sessions.init 0 [sampleUser, sampleAdmin])
      sampleSessions = some s' ∧ s'.opened.length = 2 ∧
      TrailTold [sampleUser, sampleAdmin] s' := by
  obtain ⟨s', hr, hsizes⟩ := run_sampleSessions
  exact ⟨s', hr, congrArg Prod.fst hsizes, device_trail _ _ _ _ _ s' (by decide) hr⟩

end Runs

end IronLink.Auth
