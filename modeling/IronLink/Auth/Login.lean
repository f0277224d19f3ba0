import IronLink.Auth.OtpLifecycle
import IronLink.Auth.RateLimit
import IronLink.Lib.Lockstep

/-!
# The login endpoints

`request_otp` and `verify` (app/api/routes/auth.py) over the limiter, `OtpService`
and the database. What the code generator, the SMS gateway and the token generator
answer is part of a call. An exception that no handler turns into a response is a
500.

Results:
* `responses_eq_iff`: two servers whose databases differ answer the same calls alike,
  as long as nobody logs in, exactly when no exception comes out of `send_otp`, and no
  audit row is refused, in one of them only.
* `gateway_tells`: outside development the gateway raises, and tells who is registered.
-/

namespace IronLink.Auth

open Lib

/-! ## Model -/

/-- `Settings.ENV` (app/config.py:27). -/
inductive Env
  | development
  | staging
  | production
  deriving DecidableEq

/-- `SmsGateway.send_otp` (app/services/sms_gateway.py:21-27): it raises outside
    development. -/
def sendOtp (env : Env) (_phone _code : String) : Except HttpError Unit :=
  if env = .development then .ok () else .error internalServerError

/-- The row `verify` adds to `audit_logs` (app/models/audit_log.py). -/
structure LoginAudit where
  actorId : UUID
  actorRole : UserRole
  action : String
  ipAddress : String
  userAgent : Option String
  success : Bool
  errorCode : Option String
  fingerprintChanged : Option Bool
  deriving DecidableEq

/-- The `INSERT` is accepted; the other columns hold texts of the program. -/
def LoginAudit.insertable (row : LoginAudit) : Bool :=
  columnTakes 45 row.ipAddress && row.userAgent.all (columnTakes 512)

/-- The row of `user_sessions` that a login creates (app/models/user_session.py). -/
structure UserSession where
  id : UUID
  userId : UUID
  refreshTokenHash : String
  ipAddress : String
  userAgent : String
  deviceType : String
  expiresAt : Time
  deriving DecidableEq

/-- `k in ua` -/
def containsText (text k : String) : Bool := k.toList <:+: text.toList

/-- `_classify_device` (app/api/routes/auth.py:278-286). -/
def classifyDevice (userAgent : String) : String :=
  let ua := userAgent.toLower
  if containsText ua "android" || containsText ua "iphone" || containsText ua "mobile" then "mobile"
  else if containsText ua "ipad" || containsText ua "tablet" then "tablet"
  else if containsText ua "windows" || containsText ua "macintosh" || containsText ua "linux" then
    "desktop"
  else "unknown"

/-- `RequestOtpOut` (app/api/schemas.py:24-28). -/
structure RequestOtpOut where
  detail : String := "If this number is registered, a code has been sent."
  retryAfterSeconds : ℕ
  deriving DecidableEq

/-- `VerifyOut` (app/api/schemas.py:56-62), with the columns of the user it shows. -/
structure VerifyOut where
  accessToken : AccessToken
  refreshToken : String
  tokenType : String := "bearer"
  expiresIn : ℤ
  sessionId : UUID
  userId : UUID
  fullName : String
  role : UserRole
  deriving DecidableEq

/-- A response: its status and its body. -/
inductive LoginResponse
  | otpRequested (body : RequestOtpOut)
  | loggedIn (body : VerifyOut)
  | refused (error : HttpError)
  deriving DecidableEq

/-- The server: the clock, the database and the Redis of the login endpoints. -/
structure LoginServer where
  now : Time
  users : Users
  sessions : List UserSession
  audit : List LoginAudit
  limits : LimitKeys
  otp : OtpStore

/-- What the login endpoints use of bcrypt and of SHA-256. -/
structure LoginCrypto where
  /-- `verify_military_id` (app/core/security.py:50-51) -/
  verifyMilitaryId : String → String → Bool
  /-- `hash_refresh_token` (app/core/security.py:60-63) -/
  hashRefreshToken : String → String

/-- `REFRESH_TOKEN_EXPIRE_DAYS` (app/config.py:35). -/
def REFRESH_TOKEN_EXPIRE_DAYS : ℤ := 7

/-- `request.client.host if request.client else "unknown"`. -/
def clientHost (client : Option String) : String := client.getD "unknown"

/-- The user whom `request_otp` sends a code (app/api/routes/auth.py:86-90). -/
def otpRecipient (users : Users) (phone : String) : Option User :=
  (users.byPhone phone).filter fun user => user.status = .ACTIVE

section Endpoints

variable (crypto : LoginCrypto) (settings : OtpSettings)

/-- `request_otp` (app/api/routes/auth.py:77-93). `code` is what `generate_otp()`
    returns, `sent` what `send_otp` does, when they are called. -/
def requestOtp (server : LoginServer) (phone : String) (client : Option String) (code : String)
    (sent : Except HttpError Unit) : LoginServer × LoginResponse :=
  let limited := rateLimitOtp server.limits server.now phone (clientHost client)
  let server := { server with limits := limited.1 }
  match limited.2 with
  | .error e => (server, .refused e)
  | .ok retryAfter =>
    match otpRecipient server.users phone with
    | none => (server, .otpRequested { retryAfterSeconds := retryAfter })
    | some user =>
      let server := { server with
        otp := OtpService.issue settings server.otp server.now user.id code }
      match sent with
      | .error e => (server, .refused e)
      | .ok () => (server, .otpRequested { retryAfterSeconds := retryAfter })

/-- The rows a login adds (app/api/routes/auth.py:151-179). -/
def loginSession (server : LoginServer) (user : User) (ip userAgent refreshToken : String)
    (sessionId : UUID) : UserSession :=
  { id := sessionId
    userId := user.id
    refreshTokenHash := crypto.hashRefreshToken refreshToken
    ipAddress := ip
    userAgent := userAgent
    deviceType := classifyDevice userAgent
    expiresAt := server.now + seconds (REFRESH_TOKEN_EXPIRE_DAYS * 86400) }

/-- `user.device_fingerprint is not None and … != body.device_fingerprint`. -/
def fingerprintChanged (user : User) (body : VerifyIn) : Bool :=
  user.deviceFingerprint.any (· ≠ body.deviceFingerprint)

/-- The audit rows of a login: the success, and the change of the fingerprint. -/
def loginAudit (user : User) (body : VerifyIn) (ip userAgent : String) : List LoginAudit :=
  { actorId := user.id, actorRole := user.role, action := "auth.login.success", ipAddress := ip
    userAgent := some userAgent, success := true, errorCode := none
    fingerprintChanged := some (fingerprintChanged user body) } ::
  if fingerprintChanged user body then
    [{ actorId := user.id, actorRole := user.role
       action := "user.device_fingerprint.changed", ipAddress := ip, userAgent := none
       success := true, errorCode := none, fingerprintChanged := none }]
  else []

/-- The audit row of a failed login (app/api/routes/auth.py:124-132). -/
def loginFailed (user : User) (ip userAgent : String) : LoginAudit :=
  { actorId := user.id, actorRole := user.role, action := "auth.login.failed", ipAddress := ip
    userAgent := some userAgent, success := false, errorCode := some "otp_or_mid_mismatch"
    fingerprintChanged := none }

/-- The rows a login writes are accepted. -/
def loginCommits (server : LoginServer) (user : User) (body : VerifyIn) (session : UserSession)
    (rows : List LoginAudit) : Bool :=
  !body.deviceFingerprint.toList.contains '\x00' && user.tokenVersion + 1 ≤ 2147483647 &&
    columnTakes 45 session.ipAddress && columnTakes 512 session.userAgent &&
    rows.all LoginAudit.insertable &&
    server.sessions.all fun s =>
      s.id ≠ session.id && s.refreshTokenHash ≠ session.refreshTokenHash

/-- `verify` (app/api/routes/auth.py:96-189). `refreshToken` and `sessionId` are what
    the generators draw. -/
def verifyLogin (server : LoginServer) (body : VerifyIn) (client : Option String)
    (userAgentHeader refreshToken : String) (sessionId : UUID) : LoginServer × LoginResponse :=
  let ip := clientHost client
  let userAgent := String.ofList (userAgentHeader.toList.take 512)
  match verifyRead server.users server.now body with
  | .error e => (server, .refused e)
  | .ok user =>
    let checked := OtpService.verify settings server.otp server.now user.id body.otpCode
    let server := { server with otp := checked.1 }
    if !(checked.2 && crypto.verifyMilitaryId body.militaryId user.hashedMilitaryId) then
      let row := loginFailed user ip userAgent
      if row.insertable then
        ({ server with audit := server.audit ++ [row] }, .refused genericError)
      else (server, .refused internalServerError)
    else
      let session := loginSession crypto server user ip userAgent refreshToken sessionId
      let rows := loginAudit user body ip userAgent
      if loginCommits server user body session rows then
        ({ server with
            users := Table.modify User.id server.users user.id (loginColumns user body server.now)
            sessions := server.sessions ++ [session]
            audit := server.audit ++ rows },
          .loggedIn
            { accessToken := loginToken user server.now
              refreshToken := refreshToken
              expiresIn := ACCESS_TOKEN_EXPIRE_MINUTES * 60
              sessionId := sessionId
              userId := user.id
              fullName := user.fullName
              role := user.role })
      else (server, .refused internalServerError)

/-- A call that comes `wait` after the one before, and what is drawn and sent in it. -/
inductive LoginCall
  | requestOtp (wait : ℕ) (phone : String) (client : Option String) (code : String)
      (sent : Except HttpError Unit)
  | verify (wait : ℕ) (body : VerifyIn) (client : Option String) (userAgent : String)
      (refreshToken : String) (sessionId : UUID)

def LoginServer.wait (server : LoginServer) (d : ℕ) : LoginServer :=
  { server with now := server.now + d }

def loginStep (server : LoginServer) : LoginCall → LoginServer × LoginResponse
  | .requestOtp wait phone client code sent =>
    requestOtp settings (server.wait wait) phone client code sent
  | .verify wait body client userAgent refreshToken sessionId =>
    verifyLogin crypto settings (server.wait wait) body client userAgent refreshToken sessionId

end Endpoints

/-! ## What a call shows -/

section Responses

variable (crypto : LoginCrypto) (settings : OtpSettings)

/-- A `verify` call that carries both a correct code and a correct military id. -/
def carriesBoth (server : LoginServer) : LoginCall → Bool
  | .requestOtp .. => false
  | .verify wait body _ _ _ _ =>
    match verifyRead server.users (server.wait wait).now body with
    | .error _ => false
    | .ok user =>
      (OtpService.verify settings server.otp (server.wait wait).now user.id body.otpCode).2 &&
        crypto.verifyMilitaryId body.militaryId user.hashedMilitaryId

/-- Neither of two corresponding calls carries both. -/
def NobodyLogsIn (server server' : LoginServer) (call call' : LoginCall) : Prop :=
  carriesBoth crypto settings server call = false ∧
    carriesBoth crypto settings server' call' = false

end Responses

/-- What becomes of `send_otp` in a call that passes the limits: it is only called for
    a recipient. -/
def sendOutcome (users : Users) (phone : String) (sent : Except HttpError Unit) :
    Except HttpError Unit :=
  if (otpRecipient users phone).isSome then sent else .ok ()

/-- The audit row that a failed login writes, if it writes one, is accepted. -/
def auditTaken (users : Users) (now : Time) (body : VerifyIn) (client : Option String)
    (userAgentHeader : String) : Bool :=
  match verifyRead users now body with
  | .error _ => true
  | .ok user =>
    (loginFailed user (clientHost client)
      (String.ofList (userAgentHeader.toList.take 512))).insertable

/-- No exception comes out of `send_otp`, and no audit row is refused, in one of the
    two calls only. -/
def SameFate (server server' : LoginServer) : LoginCall → LoginCall → Prop
  | .requestOtp wait phone client _ sent, .requestOtp _ _ _ _ sent' =>
    (∃ retryAfter, (rateLimitOtp server.limits (server.wait wait).now phone
        (clientHost client)).2 = .ok retryAfter) →
      sendOutcome server.users phone sent = sendOutcome server'.users phone sent'
  | .verify wait body client userAgent _ _, .verify .. =>
    auditTaken server.users (server.wait wait).now body client userAgent =
      auditTaken server'.users (server.wait wait).now body client userAgent
  | _, _ => False

/-- The same call; what is drawn and sent in it may differ. -/
inductive SameCall : LoginCall → LoginCall → Prop
  | requestOtp (wait : ℕ) (phone : String) (client : Option String) (code code' : String)
      (sent sent' : Except HttpError Unit) :
      SameCall (.requestOtp wait phone client code sent) (.requestOtp wait phone client code' sent')
  | verify (wait : ℕ) (body : VerifyIn) (client : Option String)
      (userAgent refreshToken refreshToken' : String) (sessionId sessionId' : UUID) :
      SameCall (.verify wait body client userAgent refreshToken sessionId)
        (.verify wait body client userAgent refreshToken' sessionId')

/-- The same clock and the same limiter. The databases, and the codes in Redis, may
    differ. -/
structure SameLimits (server server' : LoginServer) : Prop where
  now : server'.now = server.now
  limits : server'.limits = server.limits

/-- The response, by what the limiter and `send_otp` have done. -/
def otpResponse : Except HttpError ℕ → Except HttpError Unit → LoginResponse
  | .error e, _ => .refused e
  | .ok _, .error e => .refused e
  | .ok retryAfter, .ok () => .otpRequested { retryAfterSeconds := retryAfter }

section Proofs

variable {crypto : LoginCrypto} {settings : OtpSettings} {server server' : LoginServer}
  {call call' : LoginCall}

/-! ## One call -/

theorem otpResponse_eq_iff (limited : Except HttpError ℕ) (sent sent' : Except HttpError Unit) :
    otpResponse limited sent = otpResponse limited sent' ↔
      ((∃ retryAfter, limited = .ok retryAfter) → sent = sent') := by
  cases limited with
  | error e => exact iff_of_true rfl fun ⟨_, h⟩ => (by cases h)
  | ok retryAfter =>
    have hok : (∃ r, (Except.ok retryAfter : Except HttpError ℕ) = .ok r) := ⟨_, rfl⟩
    cases sent <;> cases sent' <;> simp [otpResponse]

/-- A recipient shows only in what `send_otp` does. -/
theorem requestOtp_snd (server : LoginServer) (phone : String) (client : Option String)
    (code : String) (sent : Except HttpError Unit) :
    (requestOtp settings server phone client code sent).2 =
      otpResponse (rateLimitOtp server.limits server.now phone (clientHost client)).2
        (sendOutcome server.users phone sent) := by
  unfold requestOtp sendOutcome
  dsimp only
  cases (rateLimitOtp server.limits server.now phone (clientHost client)).2 with
  | error e => rfl
  | ok retryAfter =>
    cases otpRecipient server.users phone with
    | none => rfl
    | some user => cases sent <;> rfl

theorem requestOtp_fst (settings : OtpSettings) (server : LoginServer) (phone : String)
    (client : Option String) (code : String) (sent : Except HttpError Unit) :
    (requestOtp settings server phone client code sent).1.now = server.now ∧
      (requestOtp settings server phone client code sent).1.limits =
        (rateLimitOtp server.limits server.now phone (clientHost client)).1 := by
  unfold requestOtp
  dsimp only
  cases (rateLimitOtp server.limits server.now phone (clientHost client)).2 with
  | error e => exact ⟨rfl, rfl⟩
  | ok retryAfter =>
    cases otpRecipient server.users phone with
    | none => exact ⟨rfl, rfl⟩
    | some user => cases sent <;> exact ⟨rfl, rfl⟩

/-- `verify` leaves the limiter alone. -/
theorem verifyLogin_fst (crypto : LoginCrypto) (settings : OtpSettings) (server : LoginServer)
    (body : VerifyIn) (client : Option String) (userAgent refreshToken : String)
    (sessionId : UUID) :
    (verifyLogin crypto settings server body client userAgent refreshToken sessionId).1.now =
        server.now ∧
      (verifyLogin crypto settings server body client userAgent refreshToken sessionId).1.limits =
        server.limits := by
  unfold verifyLogin
  dsimp only
  cases verifyRead server.users server.now body with
  | error e => exact ⟨rfl, rfl⟩
  | ok user =>
    dsimp only
    split_ifs <;> exact ⟨rfl, rfl⟩

theorem verifyRead_error {users : Users} {now : Time} {body : VerifyIn} {e : HttpError}
    (h : verifyRead users now body = .error e) : e = genericError := by
  unfold verifyRead at h
  cases hrow : users.byPhone body.phoneNumber with
  | none =>
    rw [hrow] at h
    cases h
    rfl
  | some user =>
    rw [hrow] at h
    dsimp only at h
    split_ifs at h <;> cases h <;> rfl

/-- A call that does not log in is refused in one way, unless its audit row is. -/
theorem verifyLogin_snd {wait : ℕ} {body : VerifyIn} {client : Option String}
    {userAgent refreshToken : String} {sessionId : UUID}
    (h : carriesBoth crypto settings server
      (.verify wait body client userAgent refreshToken sessionId) = false) :
    (verifyLogin crypto settings (server.wait wait) body client userAgent refreshToken
        sessionId).2 =
      .refused (if auditTaken server.users (server.wait wait).now body client userAgent then
        genericError else internalServerError) := by
  have hwait : (server.wait wait).users = server.users ∧ (server.wait wait).otp = server.otp :=
    ⟨rfl, rfl⟩
  unfold carriesBoth at h
  unfold verifyLogin auditTaken
  rw [hwait.1, hwait.2]
  dsimp only at h ⊢
  cases hread : verifyRead server.users (server.wait wait).now body with
  | error e =>
    dsimp only
    rw [if_pos rfl, verifyRead_error hread]
  | ok user =>
    rw [hread] at h
    dsimp only at h ⊢
    rw [h, Bool.not_false, if_pos rfl]
    split_ifs <;> rfl

/-- Related servers stay so, and what the two calls show is the same when they have the
    same fate. -/
theorem loginStep_sameCall (hcall : SameCall call call') (hlimits : SameLimits server server')
    (hnone : NobodyLogsIn crypto settings server server' call call') :
    SameLimits (loginStep crypto settings server call).1
        (loginStep crypto settings server' call').1 ∧
      ((loginStep crypto settings server call).2 = (loginStep crypto settings server' call').2 ↔
        SameFate server server' call call') := by
  have hnow : ∀ wait, (server'.wait wait).now = (server.wait wait).now := fun wait =>
    congrArg (· + (wait : Time)) hlimits.now
  cases hcall with
  | requestOtp wait phone client code code' sent sent' =>
    have hfst := requestOtp_fst settings (server.wait wait) phone client code sent
    have hfst' := requestOtp_fst settings (server'.wait wait) phone client code' sent'
    have hkeys : (server'.wait wait).limits = (server.wait wait).limits := hlimits.limits
    rw [hkeys, hnow] at hfst'
    refine ⟨⟨hfst'.1.trans hfst.1.symm, hfst'.2.trans hfst.2.symm⟩, ?_⟩
    show (requestOtp settings (server.wait wait) phone client code sent).2 =
      (requestOtp settings (server'.wait wait) phone client code' sent').2 ↔ _
    rw [requestOtp_snd, requestOtp_snd, hkeys, hnow]
    exact otpResponse_eq_iff ..
  | verify wait body client userAgent refreshToken refreshToken' sessionId sessionId' =>
    have hfst := verifyLogin_fst crypto settings (server.wait wait) body
      client userAgent refreshToken sessionId
    have hfst' := verifyLogin_fst crypto settings (server'.wait wait)
      body client userAgent refreshToken' sessionId'
    refine ⟨⟨hfst'.1.trans ((hnow wait).trans hfst.1.symm),
      hfst'.2.trans (hlimits.limits.trans hfst.2.symm)⟩, ?_⟩
    show (verifyLogin crypto settings (server.wait wait) body client userAgent refreshToken
        sessionId).2 =
      (verifyLogin crypto settings (server'.wait wait) body client userAgent refreshToken'
        sessionId').2 ↔ _
    rw [verifyLogin_snd hnone.1, verifyLogin_snd hnone.2, hnow]
    show _ ↔ auditTaken _ _ _ _ _ = auditTaken _ _ _ _ _
    cases auditTaken server.users (server.wait wait).now body client userAgent <;>
      cases auditTaken server'.users (server.wait wait).now body client userAgent <;>
      decide

/-- **Two databases.** Two servers that may differ in their users, and in the codes sent
    to them, answer the same calls alike, as long as nobody logs in, if and only if in
    every call the exceptions of `send_otp`, and the refusal of an audit row, come in both
    servers or in neither. -/
theorem responses_eq_iff (crypto : LoginCrypto) (settings : OtpSettings)
    (server : LoginServer) (users : Users) (otp : OtpStore) (calls calls' : List LoginCall)
    (hcalls : List.Forall₂ SameCall calls calls')
    (hnone : Lockstep (loginStep crypto settings) (NobodyLogsIn crypto settings) server
      { server with users := users, otp := otp } calls calls') :
    answers (loginStep crypto settings) server calls =
        answers (loginStep crypto settings) { server with users := users, otp := otp } calls' ↔
      Lockstep (loginStep crypto settings) SameFate server
        { server with users := users, otp := otp } calls calls' :=
  answers_eq_iff (A := SameCall) (R := SameLimits) (H := NobodyLogsIn crypto settings)
    (fun _ _ _ _ hR hA hH => (loginStep_sameCall hA hR hH).1)
    (fun _ _ _ _ hR hA hH => (loginStep_sameCall hA hR hH).2) ⟨rfl, rfl⟩ hcalls hnone

end Proofs

/-! ## A gateway that is not configured -/

/-- A server with empty tables and an empty Redis, but for its users. -/
def freshLogin (users : Users) : LoginServer := ⟨0, users, [], [], .empty, .empty⟩

/-- The hash is the military id itself. -/
def plainCrypto : LoginCrypto := ⟨fun plain hashed => plain == hashed, id⟩

/-- A request for a code, in an environment, and a login with the wrong military id. -/
def sampleCalls (env : Env) : List LoginCall :=
  [.requestOtp 0 "+201000000007" (some "10.0.0.1") "123456" (sendOtp env "+201000000007" "123456"),
    .verify 1000000 ⟨"+201000000007", "123456", "29801010100012", "0123456789abcdef"⟩
      (some "10.0.0.1") "okhttp/4.12" "refresh" 1]

/-- In development a registered number and an unknown one are answered alike. -/
theorem responses_development :
    answers (loginStep plainCrypto ⟨300, 3⟩) (freshLogin [sampleUser])
        (sampleCalls .development) =
      answers (loginStep plainCrypto ⟨300, 3⟩) (freshLogin []) (sampleCalls .development) := by
  have hcalls : List.Forall₂ SameCall (sampleCalls .development) (sampleCalls .development) :=
    .cons (.requestOtp ..) (.cons (.verify ..) .nil)
  refine (responses_eq_iff plainCrypto ⟨300, 3⟩ (freshLogin [sampleUser]) [] .empty
    (sampleCalls .development) (sampleCalls .development) hcalls ?_).mpr ?_
  · exact ⟨⟨rfl, rfl⟩, ⟨by decide +kernel, rfl⟩, trivial⟩
  · have haudit : auditTaken [sampleUser] 1000000 ⟨"+201000000007", "123456", "29801010100012",
        "0123456789abcdef"⟩ (some "10.0.0.1") "okhttp/4.12" = true := by decide +kernel
    exact ⟨fun _ => rfl, haudit, trivial⟩

/-- The gateway of the environment has been called. -/
def SentIn (env : Env) : LoginCall → Prop
  | .requestOtp _ phone _ code sent => sent = sendOtp env phone code
  | .verify .. => True

/-- In production the gateway raises, and a registered number is answered with a 500. -/
theorem gateway_tells :
    ¬ ∀ (env : Env) (crypto : LoginCrypto) (settings : OtpSettings) (server : LoginServer)
      (users : Users) (calls : List LoginCall), (∀ call ∈ calls, SentIn env call) →
      Lockstep (loginStep crypto settings) (NobodyLogsIn crypto settings) server
        { server with users := users } calls calls →
      answers (loginStep crypto settings) server calls =
        answers (loginStep crypto settings) { server with users := users } calls := by
  intro h
  have hsame := h .production plainCrypto ⟨300, 3⟩ (freshLogin [sampleUser])
    [{ sampleUser with status := .SUSPENDED }]
    [.requestOtp 0 "+201000000007" (some "10.0.0.1") "123456"
      (sendOtp .production "+201000000007" "123456")]
    (List.forall_mem_singleton.mpr rfl) ⟨⟨rfl, rfl⟩, trivial⟩
  exact absurd hsame (by decide +kernel)

end IronLink.Auth
