import IronLink.Auth.Login
import IronLink.Lib.Calls

/-!
# The login of the app

`AuthBloc` (frontend/lib/features/auth/bloc/auth_bloc.dart) with the login endpoints: an app, its
requests on their way, the timer of its resend button, and a server that others use as well.
Handlers are cut at their awaits; what a handler adds to the bloc is handled before the next tap,
answer or timer callback.

Results:
* `resend_meets_no_known_code`: a resend that the app offers meets the cool-down of a code that
  someone else has asked for, or of one that the app had not been told of when it offered it.
-/

namespace IronLink.Client

open Lib Auth

/-! ## The state of the screen -/

inductive AuthStep
  | phone
  | otp
  | militaryId
  deriving DecidableEq

inductive AuthStatus
  | idle
  | loading
  | error
  | success
  deriving DecidableEq

/-- `AuthUser` (auth_repository.dart:5-27), with what the server's answer shows of it. -/
structure AuthUser where
  id : UUID
  fullName : String
  role : UserRole
  deriving DecidableEq

/-- `AuthState` (auth_bloc.dart:55-96). -/
structure AuthState where
  step : AuthStep := .phone
  status : AuthStatus := .idle
  phoneNumber : String := ""
  otpCode : String := ""
  resendCountdown : ℤ := 0
  errorMessage : Option String := none
  user : Option AuthUser := none
  deriving DecidableEq

def AuthState.canResend (state : AuthState) : Bool := state.resendCountdown = 0

/-- `AuthRepository.errorMessage` of an exception without a text of the server. -/
def unexpectedError : String := "حدث خطأ غير متوقع"

/-- `AuthRepository.errorMessage` of a response (auth_repository.dart:65-78): an unhandled exception
    of the server is answered in plain text. -/
def errorMessage (e : HttpError) : String :=
  if e = internalServerError then unexpectedError else e.detail

/- What the handlers emit. `copyWith` drops the error message that it is not given. -/
namespace AuthState

def loading (state : AuthState) : AuthState :=
  { state with status := .loading, errorMessage := none }

/-- The code has been sent (auth_bloc.dart:121-126). -/
def promised (state : AuthState) (phone : String) (retryAfter : ℤ) : AuthState :=
  { state with
    step := .otp
    status := .idle
    phoneNumber := phone
    resendCountdown := retryAfter
    errorMessage := none }

/-- `_onPhoneSubmitted` has caught an exception (auth_bloc.dart:129-132). -/
def failed (state : AuthState) (message : String) : AuthState :=
  { state with status := .error, errorMessage := some message }

/-- `_onOtpChanged` (auth_bloc.dart:140-145). -/
def otpChanged (state : AuthState) (code : String) : AuthState :=
  let state := { state with otpCode := code, status := .idle, errorMessage := none }
  if code.length = 6 then { state with step := .militaryId } else state

/-- The server has taken the code and the military id (auth_bloc.dart:157). -/
def loggedIn (state : AuthState) (user : AuthUser) : AuthState :=
  { state with status := .success, user := some user, errorMessage := none }

/-- `_onMilitaryIdSubmitted` has caught an exception (auth_bloc.dart:161-166). -/
def rejected (state : AuthState) (message : String) : AuthState :=
  { state with step := .otp, status := .error, otpCode := "", errorMessage := some message }

/-- `_CountdownTicked` (auth_bloc.dart:107-108). -/
def ticked (state : AuthState) (secondsLeft : ℤ) : AuthState :=
  { state with resendCountdown := secondsLeft, errorMessage := none }

end AuthState

/-! ## Requests -/

inductive AuthRequest
  | requestOtp (phone : String)
  | verify (body : VerifyIn)
  deriving DecidableEq

inductive AuthAnswer
  | response (r : LoginResponse)
  /-- refused before the route runs: a 422, or an answer of the proxy -/
  | turnedAway
  deriving DecidableEq

/-- A request of the app. `resend`, `offeredAt` and `toldThen` say how it came about: whether it
    was offered as a resend, when, and which requests the app had been told the success of. -/
structure AuthCall where
  request : AuthRequest
  answer : Option AuthAnswer
  /-- the handler has gone on -/
  heard : Bool
  resend : Bool
  offeredAt : Time
  toldThen : List ℕ

/-- `_countdown` (auth_bloc.dart:176-187): the periodic timer and its `left`. -/
structure Countdown where
  start : Time
  ticks : ℕ
  left : ℤ

/-- Who the last code was for: a request of the app, or one of somebody else. -/
structure Grant where
  time : Time
  call : Option ℕ

/-- The app and the server. `lastGrant` and `told` record the history. -/
structure AuthRun where
  server : LoginServer
  client : AuthState
  countdown : Option Countdown
  calls : List AuthCall
  lastGrant : String → Option Grant
  told : List ℕ

def AuthRun.start (server : LoginServer) : AuthRun := ⟨server, {}, none, [], fun _ => none, []⟩

/-- What the server draws and does while it serves a request. -/
structure Draws where
  client : Option String
  code : String
  sent : Except HttpError Unit
  userAgent : String
  refreshToken : String
  sessionId : UUID

inductive AuthAction
  | phoneSubmitted (phone : String)
  | otpChanged (code : String)
  | militaryIdSubmitted (militaryId : String)
  | resendOtpRequested
  /-- a callback of the timer -/
  | countdown
  | serve (i : ℕ) (draws : Draws)
  | turnAway (i : ℕ)
  /-- the answer arrives -/
  | answer (i : ℕ)
  /-- the request, or the answer, is given up -/
  | fail (i : ℕ) (message : String)
  /-- somebody else calls a login endpoint -/
  | other (call : LoginCall)
  /-- the rest of the server changes what is no part of the limits -/
  | database (users : Users) (sessions : List UserSession) (audit : List LoginAudit)
  | tick (d : ℕ)

def AuthRequest.call (draws : Draws) : AuthRequest → LoginCall
  | .requestOtp phone => .requestOtp 0 phone draws.client draws.code draws.sent
  | .verify body => .verify 0 body draws.client draws.userAgent draws.refreshToken draws.sessionId

/-- The number that the call passes the limits for, and when. -/
def grantOf (server : LoginServer) : LoginCall → Option (String × Time)
  | .requestOtp wait phone client _ _ =>
    match (rateLimitOtp server.limits (server.wait wait).now phone (clientHost client)).2 with
    | .ok _ => some (phone, (server.wait wait).now)
    | .error _ => none
  | .verify .. => none

/-- The handler sends a request. -/
def AuthRun.send (s : AuthRun) (request : AuthRequest) (resend : Bool) : AuthRun :=
  { s with
    client := s.client.loading
    calls := s.calls ++ [⟨request, none, false, resend, s.server.now, s.told⟩] }

/-- The handler of the call `i` goes on with an exception. -/
def AuthRun.raise (s : AuthRun) (i : ℕ) (c : AuthCall) (message : String) : AuthRun :=
  { s with
    calls := s.calls.set i { c with heard := true }
    client :=
      match c.request with
      | .requestOtp _ => s.client.failed message
      | .verify _ => s.client.rejected message }

/-- The handler of the call `i` goes on with an answer. No route answers for the other. -/
def AuthRun.hear (s : AuthRun) (i : ℕ) (c : AuthCall) : AuthAnswer → AuthRun
  | .turnedAway => s.raise i c unexpectedError
  | .response (.refused e) => s.raise i c (errorMessage e)
  | .response (.otpRequested body) =>
    match c.request with
    | .requestOtp phone =>
      { s with
        calls := s.calls.set i { c with heard := true }
        client := s.client.promised phone body.retryAfterSeconds
        -- `_startCountdown` (auth_bloc.dart:174-187)
        countdown := some ⟨s.server.now, 0, body.retryAfterSeconds⟩
        told := i :: s.told }
    | .verify _ => s.raise i c unexpectedError
  | .response (.loggedIn body) =>
    match c.request with
    | .verify _ =>
      { s with
        calls := s.calls.set i { c with heard := true }
        client := s.client.loggedIn ⟨body.userId, body.fullName, body.role⟩ }
    | .requestOtp _ => s.raise i c unexpectedError

/-- A callback of the timer, which comes no earlier than its second is over. -/
def AuthRun.fire (s : AuthRun) (c : Countdown) : Option AuthRun :=
  if c.start + seconds (c.ticks + 1) ≤ s.server.now then
    some
      (if c.left - 1 ≤ 0 then { s with countdown := none, client := s.client.ticked 0 }
      else
        { s with
          countdown := some ⟨c.start, c.ticks + 1, c.left - 1⟩
          client := s.client.ticked (c.left - 1) })
  else none

section Step

variable (crypto : LoginCrypto) (settings : OtpSettings) (deviceFingerprint : String)

/-- A login endpoint is called, by the app's call `i` or by somebody else. -/
def AuthRun.onServer (s : AuthRun) (call : LoginCall) (i : Option ℕ) : AuthRun :=
  { s with
    server := (loginStep crypto settings s.server call).1
    lastGrant :=
      match grantOf s.server call with
      | none => s.lastGrant
      | some (phone, time) => Function.update s.lastGrant phone (some ⟨time, i⟩) }

def AuthRun.serve (s : AuthRun) (i : ℕ) (c : AuthCall) (draws : Draws) : AuthRun :=
  let call := c.request.call draws
  let s' := s.onServer crypto settings call (some i)
  { s' with
    calls := s.calls.set i
      { c with answer := some (.response (loginStep crypto settings s.server call).2) } }

def authStep (s : AuthRun) : AuthAction → Option AuthRun
  | .phoneSubmitted phone => some (s.send (.requestOtp phone) false)
  | .otpChanged code =>
    -- there is no field for the code in the first step
    if s.client.step = .phone then none else some { s with client := s.client.otpChanged code }
  | .militaryIdSubmitted militaryId =>
    if s.client.step = .phone then none
    else some (s.send
      (.verify ⟨s.client.phoneNumber, s.client.otpCode, militaryId, deviceFingerprint⟩) false)
  | .resendOtpRequested =>
    some (if s.client.canResend then s.send (.requestOtp s.client.phoneNumber) true else s)
  | .countdown => s.countdown.bind s.fire
  | .serve i draws =>
    s.calls[i]?.bind fun c =>
      if c.answer = none then some (s.serve crypto settings i c draws) else none
  | .turnAway i =>
    s.calls[i]?.bind fun c =>
      if c.answer = none then
        some { s with calls := s.calls.set i { c with answer := some .turnedAway } }
      else none
  | .answer i =>
    s.calls[i]?.bind fun c => if c.heard then none else c.answer.map (s.hear i c)
  | .fail i message =>
    s.calls[i]?.bind fun c => if c.heard then none else some (s.raise i c message)
  | .other call => some (s.onServer crypto settings call none)
  | .database users sessions audit =>
    some { s with server := { s.server with users := users, sessions := sessions, audit := audit } }
  | .tick d => some { s with server := s.server.wait d }

end Step

/-! ## The limits on the server -/

theorem rateLimitOtp_cooldown (keys : LimitKeys) (now : Time) (phone ip : String) :
    (rateLimitOtp keys now phone ip).1.cooldown =
      match (rateLimitOtp keys now phone ip).2 with
      | .ok _ => keys.cooldown.set phone () (some (now + seconds OTP_COOLDOWN_SECONDS))
      | .error _ => keys.cooldown := by
  unfold rateLimitOtp
  split_ifs <;> rfl

theorem rateLimitOtp_ok {keys : LimitKeys} {now : Time} {phone ip : String} {retryAfter : ℕ}
    (h : (rateLimitOtp keys now phone ip).2 = .ok retryAfter) :
    retryAfter = OTP_COOLDOWN_SECONDS := by
  unfold rateLimitOtp at h
  split_ifs at h
  exact (Except.ok.inj h).symm

/-- What a call leaves of the clock and of the flags. -/
theorem loginStep_cooldown (crypto : LoginCrypto) (settings : OtpSettings) (server : LoginServer)
    (call : LoginCall) :
    server.now ≤ (loginStep crypto settings server call).1.now ∧
      match grantOf server call with
      | none => (loginStep crypto settings server call).1.limits.cooldown = server.limits.cooldown
      | some (phone, time) => time = (loginStep crypto settings server call).1.now ∧
          (loginStep crypto settings server call).1.limits.cooldown =
            server.limits.cooldown.set phone () (some (time + seconds OTP_COOLDOWN_SECONDS)) := by
  cases call with
  | verify wait body client userAgent refreshToken sessionId =>
    obtain ⟨hnow, hlimits⟩ := verifyLogin_fst crypto settings (server.wait wait) body client
      userAgent refreshToken sessionId
    refine ⟨?_, congrArg LimitKeys.cooldown hlimits⟩
    show server.now ≤ (verifyLogin crypto settings (server.wait wait) body client userAgent
      refreshToken sessionId).1.now
    rw [hnow]
    exact le_add_of_nonneg_right (Nat.cast_nonneg wait)
  | requestOtp wait phone client code sent =>
    obtain ⟨hnow, hlimits⟩ := requestOtp_fst settings (server.wait wait) phone client code sent
    have hcooldown := rateLimitOtp_cooldown server.limits (server.wait wait).now phone
      (clientHost client)
    refine ⟨?_, ?_⟩
    · show server.now ≤ (requestOtp settings (server.wait wait) phone client code sent).1.now
      rw [hnow]
      exact le_add_of_nonneg_right (Nat.cast_nonneg wait)
    · unfold grantOf loginStep
      dsimp only
      rw [hnow, hlimits]
      show match (match (rateLimitOtp server.limits (server.wait wait).now phone
        (clientHost client)).2 with
          | .ok _ => some (phone, (server.wait wait).now)
          | .error _ => none) with
        | none => _
        | some (phone, time) => _
      cases hresult : (rateLimitOtp server.limits (server.wait wait).now phone
          (clientHost client)).2 with
      | error e =>
        rw [hresult] at hcooldown
        exact hcooldown
      | ok retryAfter =>
        rw [hresult] at hcooldown
        exact ⟨rfl, hcooldown⟩

/-- What `request_otp` answers. -/
theorem requestOtp_answers (settings : OtpSettings) (server : LoginServer) (phone : String)
    (client : Option String) (code : String) (sent : Except HttpError Unit) :
    (∃ e, (requestOtp settings server phone client code sent).2 = .refused e) ∨
      (requestOtp settings server phone client code sent).2 =
        .otpRequested { retryAfterSeconds := OTP_COOLDOWN_SECONDS } := by
  rw [requestOtp_snd]
  cases hresult : (rateLimitOtp server.limits server.now phone (clientHost client)).2 with
  | error e => exact .inl ⟨e, rfl⟩
  | ok retryAfter =>
    rw [rateLimitOtp_ok hresult]
    cases sendOutcome server.users phone sent with
    | error e => exact .inl ⟨e, rfl⟩
    | ok _ => exact .inr rfl

/-- A promise of the server is one of sixty seconds. -/
theorem loginStep_promise {crypto : LoginCrypto} {settings : OtpSettings} {server : LoginServer}
    {call : LoginCall} {out : RequestOtpOut}
    (h : (loginStep crypto settings server call).2 = .otpRequested out) :
    out.retryAfterSeconds = OTP_COOLDOWN_SECONDS := by
  cases call with
  | verify wait body client userAgent refreshToken sessionId =>
    have hne : (verifyLogin crypto settings (server.wait wait) body client userAgent refreshToken
        sessionId).2 ≠ .otpRequested out := by
      unfold verifyLogin
      dsimp only
      cases verifyRead (server.wait wait).users (server.wait wait).now body with
      | error e => exact LoginResponse.noConfusion
      | ok user =>
        dsimp only
        split_ifs <;> exact LoginResponse.noConfusion
    exact absurd h hne
  | requestOtp wait phone client code sent =>
    obtain ⟨e, he⟩ | hout := requestOtp_answers settings (server.wait wait) phone client code sent
    · cases he.symm.trans h
    · rw [← LoginResponse.otpRequested.inj (hout.symm.trans h)]

/-! ## The countdown and the cool-down -/

/-- When the button is there again, if the timer is on time. -/
def AuthRun.resendAt (s : AuthRun) : Time :=
  match s.countdown with
  | none => s.server.now
  | some c => c.start + seconds (c.ticks + c.left)

/-- The timer is behind the clock. -/
def AuthRun.OnTime (s : AuthRun) : Prop :=
  match s.countdown with
  | none => s.client.resendCountdown = 0
  | some c => s.client.resendCountdown = c.left ∧ 0 < c.left ∧
      c.start + seconds c.ticks ≤ s.server.now

/-- The codes for requests among `known` are a cool-down old at `time`. -/
def AuthRun.Waited (s : AuthRun) (known : List ℕ) (time : Time) : Prop :=
  ∀ phone g j, s.lastGrant phone = some g → g.call = some j → j ∈ known →
    g.time + seconds OTP_COOLDOWN_SECONDS ≤ time

/-- The app's countdown and the server's cool-down keep pace. -/
structure Paced (s : AuthRun) : Prop where
  flags : ∀ phone e, s.server.limits.cooldown phone = some e →
    ∃ g, s.lastGrant phone = some g ∧ e.deadline = some (g.time + seconds OTP_COOLDOWN_SECONDS)
  past : ∀ phone g, s.lastGrant phone = some g → g.time ≤ s.server.now
  onTime : s.OnTime
  answered : ∀ j ∈ s.told, ∃ c, s.calls[j]? = some c ∧ c.answer ≠ none
  waited : s.Waited s.told s.resendAt
  offered : ∀ c ∈ s.calls, c.toldThen ⊆ s.told ∧ (c.resend = true → s.Waited c.toldThen c.offeredAt)
  sixty : ∀ c ∈ s.calls, ∀ out, c.answer = some (.response (.otpRequested out)) →
    out.retryAfterSeconds = OTP_COOLDOWN_SECONDS

variable {s s' : AuthRun} {i : ℕ} {c c' : AuthCall}

theorem paced_start {server : LoginServer} (h : server.limits = .empty) :
    Paced (.start server) where
  flags phone e he := by
    rw [show (AuthRun.start server).server.limits = .empty from h] at he
    cases he
  past phone g hg := by cases hg
  onTime := rfl
  answered j hj := absurd hj List.not_mem_nil
  waited phone g j hg := by cases hg
  offered c hc := absurd hc List.not_mem_nil
  sixty c hc := absurd hc List.not_mem_nil

theorem Waited.mono {known known' : List ℕ} {time time' : Time} (h : s.Waited known time)
    (hknown : known' ⊆ known) (htime : time ≤ time') : s.Waited known' time' :=
  fun phone g j hg hj hmem => (h phone g j hg hj (hknown hmem)).trans htime

/-- What the app shows beside the countdown does not matter. -/
theorem Paced.client (h : Paced s) (client : AuthState)
    (hclient : client.resendCountdown = s.client.resendCountdown) :
    Paced { s with client := client } where
  flags := h.flags
  past := h.past
  onTime := by
    have htime := h.onTime
    unfold AuthRun.OnTime at htime ⊢
    dsimp only
    rw [hclient]
    exact htime
  answered := h.answered
  waited := h.waited
  offered := h.offered
  sixty := h.sixty

/-- A call comes further. -/
theorem Paced.set (h : Paced s) (hc : s.calls[i]? = some c) (hresend : c'.resend = c.resend)
    (hoffered : c'.offeredAt = c.offeredAt) (htold : c'.toldThen = c.toldThen)
    (hanswer : c.answer ≠ none → c'.answer ≠ none)
    (hsixty : ∀ out, c'.answer = some (.response (.otpRequested out)) →
      out.retryAfterSeconds = OTP_COOLDOWN_SECONDS) :
    Paced { s with calls := s.calls.set i c' } where
  flags := h.flags
  past := h.past
  onTime := h.onTime
  answered j hj := by
    obtain ⟨d, hd, hans⟩ := h.answered j hj
    by_cases hij : i = j
    · subst hij
      rw [hc] at hd
      obtain rfl := Option.some.inj hd
      exact ⟨c', getElem?_set_here hc c', hanswer hans⟩
    · exact ⟨d, (List.getElem?_set_ne hij).trans hd, hans⟩
  waited := h.waited
  offered := by
    refine forall_set h.offered ?_
    rw [hresend, hoffered, htold]
    exact h.offered c (List.mem_of_getElem? hc)
  sixty := forall_set h.sixty hsixty

theorem Paced.send (h : Paced s) (request : AuthRequest) {resend : Bool}
    (hresend : resend = true → s.Waited s.told s.server.now) : Paced (s.send request resend) where
  flags := h.flags
  past := h.past
  onTime := h.onTime
  answered j hj := by
    obtain ⟨d, hd, hans⟩ := h.answered j hj
    exact ⟨d, getElem?_append_here hd _, hans⟩
  waited := h.waited
  offered := by
    refine List.forall_mem_append.mpr ⟨h.offered, List.forall_mem_singleton.mpr ⟨?_, hresend⟩⟩
    exact List.Subset.refl _
  sixty := by
    refine List.forall_mem_append.mpr ⟨h.sixty, List.forall_mem_singleton.mpr fun out hout => ?_⟩
    cases hout

/-- The button is there when the codes that the app knows of are a cool-down old. -/
theorem Paced.resend (h : Paced s) (hresend : s.client.canResend = true) :
    s.Waited s.told s.server.now := by
  have hzero : s.client.resendCountdown = 0 := of_decide_eq_true hresend
  have htime := h.onTime
  have hwaited := h.waited
  unfold AuthRun.OnTime at htime
  unfold AuthRun.resendAt at hwaited
  cases hcountdown : s.countdown with
  | none =>
    rw [hcountdown] at hwaited
    exact hwaited
  | some c =>
    rw [hcountdown] at htime
    obtain ⟨hleft, hpos, -⟩ := htime
    omega

/-- The clock goes on. -/
theorem Paced.later (h : Paced s) {server : LoginServer} (hnow : s.server.now ≤ server.now)
    (hflags : server.limits.cooldown = s.server.limits.cooldown) :
    Paced { s with server := server } where
  flags phone e he := by
    rw [show ({ s with server := server } : AuthRun).server.limits.cooldown =
      s.server.limits.cooldown from hflags] at he
    exact h.flags phone e he
  past phone g hg := (h.past phone g hg).trans hnow
  onTime := by
    have htime := h.onTime
    unfold AuthRun.OnTime at htime ⊢
    dsimp only
    cases hcountdown : s.countdown with
    | none =>
      rw [hcountdown] at htime
      exact htime
    | some c =>
      rw [hcountdown] at htime
      exact ⟨htime.1, htime.2.1, htime.2.2.trans hnow⟩
  answered := h.answered
  waited := by
    refine Waited.mono (s := { s with server := server }) h.waited (List.Subset.refl _) ?_
    unfold AuthRun.resendAt
    dsimp only
    cases s.countdown with
    | none => exact hnow
    | some c => exact le_rfl
  offered := h.offered
  sixty := h.sixty

/-- A code for a request that the app has not been told of. -/
theorem Waited.grant {known : List ℕ} {time : Time} (h : s.Waited known time) {phone : String}
    {g : Grant} (hnew : ∀ j, g.call = some j → j ∉ known) :
    AuthRun.Waited { s with lastGrant := Function.update s.lastGrant phone (some g) } known
      time := by
  intro phone' g' j hg hj hmem
  dsimp only at hg
  by_cases hp : phone' = phone
  · subst hp
    rw [Function.update_self] at hg
    obtain rfl := Option.some.inj hg
    exact absurd hmem (hnew j hj)
  · rw [Function.update_of_ne hp] at hg
    exact h phone' g' j hg hj hmem

variable {crypto : LoginCrypto} {settings : OtpSettings} {deviceFingerprint : String}

theorem Paced.onServer (h : Paced s) (call : LoginCall) {by' : Option ℕ}
    (hnew : ∀ j, by' = some j → j ∉ s.told) : Paced (s.onServer crypto settings call by') := by
  obtain ⟨hnow, hcooldown⟩ := loginStep_cooldown crypto settings s.server call
  unfold AuthRun.onServer
  cases hgrant : grantOf s.server call with
  | none =>
    rw [hgrant] at hcooldown
    exact h.later hnow hcooldown
  | some grant =>
    obtain ⟨phone, time⟩ := grant
    rw [hgrant] at hcooldown
    obtain ⟨rfl, hcooldown⟩ := hcooldown
    dsimp only
    generalize loginStep crypto settings s.server call = r at hnow hcooldown ⊢
    have hnew' : ∀ known ⊆ s.told, ∀ j, (⟨r.1.now, by'⟩ : Grant).call = some j → j ∉ known :=
      fun known hsub j hj hmem => hnew j hj (hsub hmem)
    refine ⟨fun phone' e he => ?_, fun phone' g hg => ?_, ?_, h.answered, ?_, fun c hc => ?_,
      h.sixty⟩
    · dsimp only at he ⊢
      rw [hcooldown] at he
      by_cases hp : phone' = phone
      · subst hp
        rw [TtlMap.set_self] at he
        obtain rfl := Option.some.inj he
        exact ⟨_, Function.update_self .., rfl⟩
      · rw [TtlMap.set_of_ne hp] at he
        rw [Function.update_of_ne hp]
        exact h.flags phone' e he
    · dsimp only at hg ⊢
      by_cases hp : phone' = phone
      · subst hp
        rw [Function.update_self] at hg
        obtain rfl := Option.some.inj hg
        exact le_rfl
      · rw [Function.update_of_ne hp] at hg
        exact (h.past phone' g hg).trans hnow
    · have htime := h.onTime
      unfold AuthRun.OnTime at htime ⊢
      dsimp only
      cases hcountdown : s.countdown with
      | none =>
        rw [hcountdown] at htime
        exact htime
      | some c =>
        rw [hcountdown] at htime
        exact ⟨htime.1, htime.2.1, htime.2.2.trans hnow⟩
    · refine Waited.grant (s := { s with server := r.1 })
        (Waited.mono (s := { s with server := r.1 }) h.waited (List.Subset.refl _) ?_)
        (hnew' _ (List.Subset.refl _))
      unfold AuthRun.resendAt
      dsimp only
      cases s.countdown with
      | none => exact hnow
      | some c => exact le_rfl
    · obtain ⟨hsub, hwaited⟩ := h.offered c hc
      exact ⟨hsub, fun hresend => Waited.grant (s := { s with server := r.1 }) (hwaited hresend)
        (hnew' _ hsub)⟩

theorem Paced.serve (h : Paced s) (hc : s.calls[i]? = some c) (hnone : c.answer = none)
    (draws : Draws) : Paced (s.serve crypto settings i c draws) := by
  have hnew : ∀ j, some i = some j → j ∉ s.told := by
    rintro j hij hmem
    obtain rfl := Option.some.inj hij
    obtain ⟨d, hd, hans⟩ := h.answered i hmem
    rw [hc] at hd
    obtain rfl := Option.some.inj hd
    exact hans hnone
  have hserved : Paced (s.onServer crypto settings (c.request.call draws) (some i)) :=
    h.onServer _ hnew
  refine hserved.set hc rfl rfl rfl (fun hans => absurd hnone hans) fun out hout => ?_
  exact loginStep_promise (AuthAnswer.response.inj (Option.some.inj hout))

theorem Paced.raise (h : Paced s) (hc : s.calls[i]? = some c) (message : String) :
    Paced (s.raise i c message) := by
  have hheard : Paced { s with calls := s.calls.set i { c with heard := true } } :=
    h.set hc rfl rfl rfl id (h.sixty c (List.mem_of_getElem? hc))
  refine hheard.client _ ?_
  cases c.request <;> rfl

/-- The call `i` is heard. -/
theorem Paced.heard (h : Paced s) (hc : s.calls[i]? = some c) :
    Paced { s with calls := s.calls.set i { c with heard := true } } :=
  h.set hc rfl rfl rfl id (h.sixty c (List.mem_of_getElem? hc))

/-- A code has been promised: the timer starts anew. -/
theorem Paced.promised (h : Paced s) (hc : s.calls[i]? = some c) {body : RequestOtpOut}
    (ha : c.answer = some (.response (.otpRequested body))) (phone : String) :
    Paced { s with
      calls := s.calls.set i { c with heard := true }
      client := s.client.promised phone body.retryAfterSeconds
      countdown := some ⟨s.server.now, 0, body.retryAfterSeconds⟩
      told := i :: s.told } := by
  have hheard := h.heard hc
  have hsixty : body.retryAfterSeconds = OTP_COOLDOWN_SECONDS :=
    h.sixty c (List.mem_of_getElem? hc) body ha
  refine ⟨h.flags, h.past, ⟨rfl, ?_, ?_⟩, fun j hj => ?_, fun phone' g j hg hj hmem => ?_,
    fun d hd => ?_, hheard.sixty⟩
  · show (0 : ℤ) < (body.retryAfterSeconds : ℕ)
    rw [hsixty]
    unfold OTP_COOLDOWN_SECONDS
    omega
  · show s.server.now + seconds 0 ≤ s.server.now
    exact le_of_eq (add_zero _)
  · obtain rfl | hj := List.mem_cons.mp hj
    · refine ⟨_, getElem?_set_here hc _, ?_⟩
      rw [show ({ c with heard := true } : AuthCall).answer = c.answer from rfl, ha]
      exact Option.some_ne_none _
    · exact hheard.answered j hj
  · have hpast := h.past phone' g hg
    show g.time + _ ≤ s.server.now + seconds ((0 : ℕ) + body.retryAfterSeconds)
    rw [hsixty, Nat.cast_zero, zero_add]
    exact Int.add_le_add_right hpast _
  · obtain ⟨hsub, hwaited⟩ := hheard.offered d hd
    exact ⟨List.subset_cons_of_subset _ hsub, hwaited⟩

theorem Paced.hear (h : Paced s) (hc : s.calls[i]? = some c) {a : AuthAnswer}
    (ha : c.answer = some a) : Paced (s.hear i c a) := by
  have hraise := fun message => h.raise hc message
  cases a with
  | turnedAway => exact hraise _
  | response r =>
    obtain ⟨request, answer, heard, resend, offeredAt, toldThen⟩ := c
    cases r with
    | refused e => exact hraise _
    | loggedIn body =>
      cases request with
      | requestOtp phone => exact hraise _
      | verify sent => exact (h.heard hc).client (s.client.loggedIn _) rfl
    | otpRequested body =>
      cases request with
      | requestOtp phone => exact h.promised hc ha phone
      | verify sent => exact hraise _

/-- The button comes back no earlier than the timer is to end. -/
theorem Paced.fire (h : Paced s) {t : Countdown} (ht : s.countdown = some t)
    (hs : s.fire t = some s') : Paced s' := by
  have htime := h.onTime
  have hwaited := h.waited
  unfold AuthRun.OnTime at htime
  unfold AuthRun.resendAt at hwaited
  rw [ht] at htime hwaited
  dsimp only at htime hwaited
  unfold AuthRun.fire at hs
  split_ifs at hs with hdue hlast
  · obtain rfl := Option.some.inj hs
    refine ⟨h.flags, h.past, rfl, h.answered, ?_, h.offered, h.sixty⟩
    refine Waited.mono (s := s) hwaited (List.Subset.refl _) ?_
    show _ ≤ s.server.now
    have hone : t.left = 1 := by omega
    rw [hone]
    exact hdue
  · obtain rfl := Option.some.inj hs
    refine ⟨h.flags, h.past, ⟨rfl, ?_, ?_⟩, h.answered, ?_, h.offered, h.sixty⟩
    · dsimp only
      omega
    · dsimp only
      push_cast
      exact hdue
    · refine Waited.mono (s := s) hwaited (List.Subset.refl _) (le_of_eq ?_)
      show _ = t.start + seconds ((t.ticks + 1 : ℕ) + (t.left - 1))
      push_cast
      congr 2
      omega

theorem paced_step (s : AuthRun) (a : AuthAction) (s' : AuthRun) (h : Paced s)
    (hs : authStep crypto settings deviceFingerprint s a = some s') : Paced s' := by
  cases a with
  | phoneSubmitted phone =>
    obtain rfl := Option.some.inj hs
    exact h.send _ Bool.noConfusion
  | otpChanged code =>
    unfold authStep at hs
    dsimp only at hs
    split_ifs at hs
    obtain rfl := Option.some.inj hs
    refine h.client _ ?_
    unfold AuthState.otpChanged
    dsimp only
    split_ifs <;> rfl
  | militaryIdSubmitted militaryId =>
    unfold authStep at hs
    dsimp only at hs
    split_ifs at hs
    obtain rfl := Option.some.inj hs
    exact h.send _ Bool.noConfusion
  | resendOtpRequested =>
    obtain rfl := Option.some.inj hs
    split_ifs with hresend
    · exact h.send _ fun _ => h.resend hresend
    · exact h
  | countdown =>
    obtain ⟨t, ht, hs⟩ := Option.bind_eq_some_iff.mp hs
    exact h.fire ht hs
  | serve i draws =>
    obtain ⟨c, hc, hs⟩ := Option.bind_eq_some_iff.mp hs
    split_ifs at hs with hnone
    obtain rfl := Option.some.inj hs
    exact h.serve hc hnone draws
  | turnAway i =>
    obtain ⟨c, hc, hs⟩ := Option.bind_eq_some_iff.mp hs
    split_ifs at hs with hnone
    obtain rfl := Option.some.inj hs
    refine h.set hc rfl rfl rfl (fun hans => absurd hnone hans) fun out hout => ?_
    cases hout
  | answer i =>
    obtain ⟨c, hc, hs⟩ := Option.bind_eq_some_iff.mp hs
    split_ifs at hs
    obtain ⟨a, ha, rfl⟩ := Option.map_eq_some_iff.mp hs
    exact h.hear hc ha
  | fail i message =>
    obtain ⟨c, hc, hs⟩ := Option.bind_eq_some_iff.mp hs
    split_ifs at hs
    obtain rfl := Option.some.inj hs
    exact h.raise hc message
  | other call =>
    obtain rfl := Option.some.inj hs
    exact h.onServer call fun j hj => (by cases hj)
  | database users sessions audit =>
    obtain rfl := Option.some.inj hs
    exact h.later le_rfl rfl
  | tick d =>
    obtain rfl := Option.some.inj hs
    exact h.later (le_add_of_nonneg_right (Nat.cast_nonneg d)) rfl

/-- **Resending.** A cool-down that lasts beyond the time at which a resend was offered comes from
    a code that somebody else has asked for, or from one for a request whose success the app had
    not been told when it offered the resend. -/
theorem resend_meets_no_known_code (crypto : LoginCrypto) (settings : OtpSettings)
    (deviceFingerprint : String) (server : LoginServer) (hserver : server.limits = .empty)
    (as : List AuthAction) (s' : AuthRun)
    (hr : run (authStep crypto settings deviceFingerprint) (.start server) as = some s')
    (c : AuthCall) (hc : c ∈ s'.calls) (hresend : c.resend = true) (phone : String)
    (hflag : (s'.server.limits.cooldown.lookup c.offeredAt phone).isSome = true) :
    ∃ g, s'.lastGrant phone = some g ∧ ∀ j, g.call = some j → j ∉ c.toldThen := by
  have h : Paced s' := run_invariant paced_step (paced_start hserver) hr
  obtain ⟨e, he⟩ := Option.isSome_iff_exists.mp hflag
  obtain ⟨hkey, hlive⟩ := TtlMap.lookup_eq_some.mp he
  obtain ⟨g, hg, hdeadline⟩ := h.flags phone e hkey
  refine ⟨g, hg, fun j hj hmem => ?_⟩
  have hwaited := (h.offered c hc).2 hresend phone g j hg hj hmem
  have hlater := (Entry.live_of_deadline hdeadline).mp hlive
  exact absurd hwaited (not_le_of_gt hlater)

/-- What the server draws while it serves the sample requests. -/
def sampleDraws : Draws := ⟨some "10.0.0.1", "483920", .ok (), "okhttp", "r", 1⟩

/-- A code is asked for and a minute goes by; somebody else asks for one before the resend. -/
def sampleResend : List AuthAction :=
  [.phoneSubmitted "+201000000007", .serve 0 sampleDraws, .answer 0, .tick 60000000] ++
    List.replicate 60 .countdown ++
    [.other (.requestOtp 0 "+201000000007" (some "10.0.0.2") "152638" (.ok ())),
      .resendOtpRequested]

theorem resend_meets_no_known_code_twoPhones : ∃ s' c,
    run (authStep plainCrypto ⟨300, 3⟩ "phone") (.start (freshLogin [sampleUser])) sampleResend =
      some s' ∧ c ∈ s'.calls ∧ c.toldThen = [0] ∧
    ∃ g, s'.lastGrant "+201000000007" = some g ∧ ∀ j, g.call = some j → j ∉ c.toldThen := by
  have hrun : (run (authStep plainCrypto ⟨300, 3⟩ "phone") (.start (freshLogin [sampleUser]))
      sampleResend).map (fun s' => s'.calls[1]?.map fun c => (c.resend, c.toldThen,
        (s'.server.limits.cooldown.lookup c.offeredAt "+201000000007").isSome)) =
      some (some (true, [0], true)) := by decide +kernel
  obtain ⟨s', hr, hcalls⟩ := Option.map_eq_some_iff.mp hrun
  obtain ⟨c, hc, hcall⟩ := Option.map_eq_some_iff.mp hcalls
  simp only [Prod.mk.injEq] at hcall
  obtain ⟨hresend, htold, hflag⟩ := hcall
  have hmem := List.mem_of_getElem? hc
  exact ⟨s', c, hr, hmem, htold, resend_meets_no_known_code plainCrypto ⟨300, 3⟩ "phone"
    (freshLogin [sampleUser]) rfl sampleResend s' hr c hmem hresend _ hflag⟩

end IronLink.Client
