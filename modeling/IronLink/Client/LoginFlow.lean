import IronLink.Client.AuthBloc

/-!
# What the app shows of a login

The screen of `AuthBloc` against the answers of the server, in the runs of `authStep`.

Results:
* `loginStep_loggedIn`: what the server has checked when it logs somebody in.
* `app_follows_server`: the app is logged in as a user that the server has logged in on its
  request, with a number for which the app had been granted a code.
-/

namespace IronLink.Client

open Lib Auth

/-! ## Statements -/

/-- The app's request for a code for the number has been granted. -/
def AuthRun.Promised (s : AuthRun) (phone : String) : Prop :=
  ∃ c ∈ s.calls, c.request = .requestOtp phone ∧
    ∃ out, c.answer = some (.response (.otpRequested out))

section Follows

variable (crypto : LoginCrypto) (settings : OtpSettings) (deviceFingerprint : String)

/-- The server takes the app's call `i` for a login of the active user with the number, the code
    and the military id in it, and answers so. -/
def AuthRun.LogsIn (s : AuthRun) (i : ℕ) (draws : Draws) (user : AuthUser) : Prop :=
  ∃ c body row out, s.calls[i]? = some c ∧ c.request = .verify body ∧ s.Promised body.phoneNumber ∧
    verifyRead s.server.users s.server.now body = .ok row ∧
    carriesBoth crypto settings s.server (c.request.call draws) = true ∧
    (loginStep crypto settings s.server (c.request.call draws)).2 = .loggedIn out ∧
    user = ⟨out.userId, out.fullName, out.role⟩ ∧ user = ⟨row.id, row.fullName, row.role⟩

/-- The server has done so in the run along `as`. -/
def LoggedIn (server : LoginServer) (as : List AuthAction) (user : AuthUser) : Prop :=
  ∃ m i draws m', Takes (authStep crypto settings deviceFingerprint) (.start server) as m
    (.serve i draws) m' ∧ m.LogsIn crypto settings i draws user

/-- The app after the run along `as` shows what the server has answered. -/
structure Follows (server : LoginServer) (as : List AuthAction) (s : AuthRun) : Prop where
  promised : s.client.step ≠ .phone → s.Promised s.client.phoneNumber
  sends : ∀ c ∈ s.calls, ∀ body, c.request = .verify body →
    s.client.step ≠ .phone ∧ s.Promised body.phoneNumber
  answers : ∀ c ∈ s.calls, ∀ out, c.answer = some (.response (.loggedIn out)) →
    LoggedIn crypto settings deviceFingerprint server as ⟨out.userId, out.fullName, out.role⟩
  success : s.client.status = .success → s.client.user.isSome = true
  user : ∀ user, s.client.user = some user →
    LoggedIn crypto settings deviceFingerprint server as user

end Follows

/-! ## Steps -/

variable {s s' : AuthRun} {i : ℕ} {c c' : AuthCall} {crypto : LoginCrypto}
  {settings : OtpSettings} {deviceFingerprint : String}

theorem loginStep_loggedIn {server : LoginServer} {call : LoginCall} {out : VerifyOut}
    (h : (loginStep crypto settings server call).2 = .loggedIn out) :
    ∃ wait body client userAgent refreshToken sessionId row,
      call = .verify wait body client userAgent refreshToken sessionId ∧
      verifyRead server.users (server.wait wait).now body = .ok row ∧
      carriesBoth crypto settings server call = true ∧
      (out.userId, out.fullName, out.role) = (row.id, row.fullName, row.role) := by
  cases call with
  | requestOtp wait phone client code sent =>
    obtain ⟨e, he⟩ | hout := requestOtp_answers settings (server.wait wait) phone client code sent
    · cases he.symm.trans h
    · cases hout.symm.trans h
  | verify wait body client userAgent refreshToken sessionId =>
    have hboth : carriesBoth crypto settings server
        (.verify wait body client userAgent refreshToken sessionId) = true := by
      by_contra hnone
      have hrefused := verifyLogin_snd (Bool.eq_false_iff.mpr hnone)
      have hanswer : (verifyLogin crypto settings (server.wait wait) body client userAgent
        refreshToken sessionId).2 = .loggedIn out := h
      rw [hrefused] at hanswer
      cases hanswer
    have hanswer : (verifyLogin crypto settings (server.wait wait) body client userAgent
      refreshToken sessionId).2 = .loggedIn out := h
    unfold verifyLogin at hanswer
    dsimp only at hanswer
    cases hread : verifyRead (server.wait wait).users (server.wait wait).now body with
    | error e =>
      rw [hread] at hanswer
      cases hanswer
    | ok row =>
      rw [hread] at hanswer
      dsimp only at hanswer
      split_ifs at hanswer
      obtain rfl := LoginResponse.loggedIn.inj hanswer
      exact ⟨wait, body, client, userAgent, refreshToken, sessionId, row, rfl, hread, hboth, rfl⟩

section Runs

variable {server : LoginServer} {as : List AuthAction} {a : AuthAction}

theorem Promised.append {phone : String} (h : s.Promised phone) (x : AuthCall) :
    AuthRun.Promised { s with calls := s.calls ++ [x] } phone := by
  obtain ⟨c, hc, hcode⟩ := h
  exact ⟨c, List.mem_append_left _ hc, hcode⟩

/-- An answer that has come stays. -/
theorem Promised.set {phone : String} (h : s.Promised phone) (hc : s.calls[i]? = some c)
    (hrequest : c'.request = c.request) (hanswer : c.answer ≠ none → c'.answer = c.answer) :
    AuthRun.Promised { s with calls := s.calls.set i c' } phone := by
  obtain ⟨d, hd, hcode, out, hout⟩ := h
  by_cases hdc : d = c
  · subst hdc
    have hkept := hanswer (by rw [hout]; exact Option.some_ne_none _)
    exact ⟨c', List.mem_of_getElem? (getElem?_set_here hc c'), hrequest.trans hcode, out,
      hkept.trans hout⟩
  · exact ⟨d, mem_set_of_ne hd hc hdc c', hcode, out, hout⟩

theorem LoggedIn.later {user : AuthUser}
    (h : LoggedIn crypto settings deviceFingerprint server as user) :
    LoggedIn crypto settings deviceFingerprint server (as ++ [a]) user := by
  obtain ⟨m, i, draws, m', htakes, hlogs⟩ := h
  exact ⟨m, i, draws, m', htakes.append [a], hlogs⟩

theorem follows_start : Follows crypto settings deviceFingerprint server [] (.start server) where
  promised hstep := absurd rfl hstep
  sends c hc := absurd hc List.not_mem_nil
  answers c hc := absurd hc List.not_mem_nil
  success hstatus := by cases hstatus
  user user huser := by cases huser

namespace Follows

theorem later (h : Follows crypto settings deviceFingerprint server as s) :
    Follows crypto settings deviceFingerprint server (as ++ [a]) s where
  promised := h.promised
  sends := h.sends
  answers c hc out hout := (h.answers c hc out hout).later
  success := h.success
  user user huser := (h.user user huser).later

/-- Only the screen and the calls matter. -/
theorem congr (h : Follows crypto settings deviceFingerprint server as s)
    (hclient : s'.client = s.client) (hcalls : s'.calls = s.calls) :
    Follows crypto settings deviceFingerprint server as s' := by
  obtain ⟨hpromised, hsends, hanswers, hsuccess, huser⟩ := h
  unfold AuthRun.Promised at hpromised hsends
  rw [← hclient, ← hcalls] at hpromised
  rw [← hclient, ← hcalls] at hsends
  rw [← hcalls] at hanswers
  rw [← hclient] at hsuccess huser
  exact ⟨hpromised, hsends, hanswers, hsuccess, huser⟩

/-- The screen goes on, but not back to the first step. -/
theorem screen (h : Follows crypto settings deviceFingerprint server as s) (client : AuthState)
    (hpromised : client.step ≠ .phone → s.Promised client.phoneNumber)
    (hstep : s.client.step ≠ .phone → client.step ≠ .phone)
    (hsuccess : client.status = .success → client.user.isSome = true)
    (huser : ∀ user, client.user = some user →
      LoggedIn crypto settings deviceFingerprint server as user) :
    Follows crypto settings deviceFingerprint server as { s with client := client } where
  promised := hpromised
  sends c hc body hbody := ⟨hstep (h.sends c hc body hbody).1, (h.sends c hc body hbody).2⟩
  answers := h.answers
  success := hsuccess
  user := huser

theorem send (h : Follows crypto settings deviceFingerprint server as s) {request : AuthRequest}
    {resend : Bool} (hrequest : ∀ body, request = .verify body →
      s.client.step ≠ .phone ∧ s.Promised body.phoneNumber) :
    Follows crypto settings deviceFingerprint server as (s.send request resend) where
  promised hstep := Promised.append (h.promised hstep) _
  sends c hc body hbody := by
    obtain hc | hc := List.mem_append.mp hc
    · exact ⟨(h.sends c hc body hbody).1, Promised.append (h.sends c hc body hbody).2 _⟩
    · obtain rfl := List.mem_singleton.mp hc
      exact ⟨(hrequest body hbody).1, Promised.append (hrequest body hbody).2 _⟩
  answers c hc out hout := by
    obtain hc | hc := List.mem_append.mp hc
    · exact h.answers c hc out hout
    · obtain rfl := List.mem_singleton.mp hc
      cases hout
  success hstatus := by cases hstatus
  user := h.user

/-- A call comes further. -/
theorem set (h : Follows crypto settings deviceFingerprint server as s)
    (hc : s.calls[i]? = some c) (hrequest : c'.request = c.request)
    (hanswer : c.answer ≠ none → c'.answer = c.answer)
    (hlogin : ∀ out, c'.answer = some (.response (.loggedIn out)) →
      LoggedIn crypto settings deviceFingerprint server as ⟨out.userId, out.fullName, out.role⟩) :
    Follows crypto settings deviceFingerprint server as
      { s with calls := s.calls.set i c' } where
  promised hstep := Promised.set (h.promised hstep) hc hrequest hanswer
  sends := by
    have hkept : ∀ d ∈ s.calls, ∀ body, d.request = .verify body → s.client.step ≠ .phone ∧
        AuthRun.Promised { s with calls := s.calls.set i c' } body.phoneNumber :=
      fun d hd body hbody => ⟨(h.sends d hd body hbody).1,
        Promised.set (h.sends d hd body hbody).2 hc hrequest hanswer⟩
    refine forall_set hkept fun body hbody => ?_
    exact hkept c (List.mem_of_getElem? hc) body (hrequest.symm.trans hbody)
  answers := forall_set h.answers hlogin
  success := h.success
  user := h.user

/-- The call `i` is heard. -/
theorem heard (h : Follows crypto settings deviceFingerprint server as s)
    (hc : s.calls[i]? = some c) : Follows crypto settings deviceFingerprint server as
      { s with calls := s.calls.set i { c with heard := true } } :=
  h.set hc rfl (fun _ => rfl) (h.answers c (List.mem_of_getElem? hc))

theorem raise (h : Follows crypto settings deviceFingerprint server as s)
    (hc : s.calls[i]? = some c) (message : String) :
    Follows crypto settings deviceFingerprint server as (s.raise i c message) := by
  have hmem := List.mem_of_getElem? hc
  have hheard := h.heard hc
  obtain ⟨request, answer, heard, resend, offeredAt, toldThen⟩ := c
  cases request with
  | requestOtp phone =>
    refine hheard.screen (s.client.failed message) hheard.promised id ?_ h.user
    intro hstatus
    cases hstatus
  | verify body =>
    obtain ⟨hstep, -⟩ := h.sends _ hmem body rfl
    refine hheard.screen (s.client.rejected message) (fun _ => hheard.promised hstep) ?_ ?_ h.user
    · intro _ hphone
      cases hphone
    · intro hstatus
      cases hstatus

theorem hear (h : Follows crypto settings deviceFingerprint server as s)
    (hc : s.calls[i]? = some c) {answer : AuthAnswer} (ha : c.answer = some answer) :
    Follows crypto settings deviceFingerprint server as (s.hear i c answer) := by
  have hraise := fun message => h.raise hc message
  have hmem := List.mem_of_getElem? hc
  have hheard := h.heard hc
  cases answer with
  | turnedAway => exact hraise _
  | response r =>
    obtain ⟨request, given, heard, resend, offeredAt, toldThen⟩ := c
    cases r with
    | refused e => exact hraise _
    | otpRequested body =>
      cases request with
      | verify sent => exact hraise _
      | requestOtp phone =>
        refine congr (s := { s with
          calls := s.calls.set i ⟨.requestOtp phone, given, true, resend, offeredAt, toldThen⟩
          client := s.client.promised phone body.retryAfterSeconds }) ?_ rfl rfl
        refine hheard.screen _ (fun _ => ?_) (fun _ hphone => ?_) (fun hstatus => ?_) h.user
        · exact ⟨_, List.mem_of_getElem? (getElem?_set_here hc _), rfl, body, ha⟩
        · cases hphone
        · cases hstatus
    | loggedIn body =>
      cases request with
      | requestOtp phone => exact hraise _
      | verify sent =>
        refine hheard.screen _ hheard.promised id (fun _ => rfl) fun user huser => ?_
        obtain rfl := Option.some.inj huser
        exact h.answers _ hmem body ha

/-- The answer to the app's call `i` tells of a login that the server has just taken. -/
theorem serve (h : Follows crypto settings deviceFingerprint server as s)
    (hr : run (authStep crypto settings deviceFingerprint) (.start server) as = some s)
    (hc : s.calls[i]? = some c) (hnone : c.answer = none) (draws : Draws)
    (hs : authStep crypto settings deviceFingerprint s (.serve i draws) = some s') :
    Follows crypto settings deviceFingerprint server (as ++ [.serve i draws])
      (s.serve crypto settings i c draws) := by
  have hserved : Follows crypto settings deviceFingerprint server (as ++ [.serve i draws])
      (s.onServer crypto settings (c.request.call draws) (some i)) := h.later.congr rfl rfl
  refine hserved.set hc rfl (fun hans => absurd hnone hans) fun out hout => ?_
  refine ⟨s, i, draws, s', takes_last hr hs, ?_⟩
  have hanswer := AuthAnswer.response.inj (Option.some.inj hout)
  obtain ⟨wait, body, client, userAgent, refreshToken, sessionId, row, hcall, hread, hboth, hout⟩ :=
    loginStep_loggedIn hanswer
  have hmem := List.mem_of_getElem? hc
  cases hrequest : c.request with
  | requestOtp phone =>
    rw [hrequest] at hcall
    cases hcall
  | verify sent =>
    rw [hrequest] at hcall
    cases hcall
    rw [show s.server.wait 0 = s.server from
      congrArg (fun now => { s.server with now := now }) (add_zero _)] at hread
    refine ⟨c, body, row, out, hc, hrequest, (h.sends c hmem body hrequest).2, hread, hboth,
      hanswer, rfl, ?_⟩
    simp only [Prod.mk.injEq] at hout
    rw [hout.1, hout.2.1, hout.2.2]

end Follows

theorem follows_step
    (hr : run (authStep crypto settings deviceFingerprint) (.start server) as = some s)
    (h : Follows crypto settings deviceFingerprint server as s)
    (hs : authStep crypto settings deviceFingerprint s a = some s') :
    Follows crypto settings deviceFingerprint server (as ++ [a]) s' := by
  have hlater : Follows crypto settings deviceFingerprint server (as ++ [a]) s := h.later
  cases a with
  | phoneSubmitted phone =>
    obtain rfl := Option.some.inj hs
    exact hlater.send fun body hbody => (by cases hbody)
  | otpChanged code =>
    unfold authStep at hs
    dsimp only at hs
    split_ifs at hs with hphone
    obtain rfl := Option.some.inj hs
    refine hlater.screen _ (fun _ => ?_) (fun _ => ?_) (fun hstatus => ?_) (fun user huser => ?_)
    · rw [show (s.client.otpChanged code).phoneNumber = s.client.phoneNumber by
        unfold AuthState.otpChanged; dsimp only; split_ifs <;> rfl]
      exact h.promised hphone
    · unfold AuthState.otpChanged
      dsimp only
      split_ifs
      · exact fun hstep => (by cases hstep)
      · exact hphone
    · unfold AuthState.otpChanged at hstatus
      dsimp only at hstatus
      split_ifs at hstatus
    · refine hlater.user user (Eq.trans ?_ huser)
      unfold AuthState.otpChanged
      dsimp only
      split_ifs <;> rfl
  | militaryIdSubmitted militaryId =>
    unfold authStep at hs
    dsimp only at hs
    split_ifs at hs with hphone
    obtain rfl := Option.some.inj hs
    refine hlater.send fun body hbody => ?_
    obtain rfl := AuthRequest.verify.inj hbody
    exact ⟨hphone, h.promised hphone⟩
  | resendOtpRequested =>
    obtain rfl := Option.some.inj hs
    split_ifs with hresend
    · exact hlater.send fun body hbody => (by cases hbody)
    · exact hlater
  | countdown =>
    obtain ⟨t, ht, hs⟩ := Option.bind_eq_some_iff.mp hs
    unfold AuthRun.fire at hs
    split_ifs at hs
    · obtain rfl := Option.some.inj hs
      exact (hlater.screen (s.client.ticked 0) h.promised id h.success hlater.user).congr rfl rfl
    · obtain rfl := Option.some.inj hs
      exact (hlater.screen (s.client.ticked (t.left - 1)) h.promised id h.success
        hlater.user).congr rfl rfl
  | serve i draws =>
    have hs' := hs
    obtain ⟨c, hc, hs⟩ := Option.bind_eq_some_iff.mp hs
    split_ifs at hs with hnone
    obtain rfl := Option.some.inj hs
    exact h.serve hr hc hnone draws hs'
  | turnAway i =>
    obtain ⟨c, hc, hs⟩ := Option.bind_eq_some_iff.mp hs
    split_ifs at hs with hnone
    obtain rfl := Option.some.inj hs
    refine hlater.set hc rfl (fun hans => absurd hnone hans) fun out hout => ?_
    cases hout
  | answer i =>
    obtain ⟨c, hc, hs⟩ := Option.bind_eq_some_iff.mp hs
    split_ifs at hs
    obtain ⟨answer, ha, rfl⟩ := Option.map_eq_some_iff.mp hs
    exact hlater.hear hc ha
  | fail i message =>
    obtain ⟨c, hc, hs⟩ := Option.bind_eq_some_iff.mp hs
    split_ifs at hs
    obtain rfl := Option.some.inj hs
    exact hlater.raise hc message
  | other call =>
    obtain rfl := Option.some.inj hs
    exact hlater.congr rfl rfl
  | database users sessions audit =>
    obtain rfl := Option.some.inj hs
    exact hlater.congr rfl rfl
  | tick d =>
    obtain rfl := Option.some.inj hs
    exact hlater.congr rfl rfl

/-- **The login.** In every run the app that shows a success has a user, and the user that it has
    is one whom the server has logged in: on a request of the app, for the active account of the
    number in it, with the right code and military id, and after the app had been granted a code
    for that number. -/
theorem app_follows_server (crypto : LoginCrypto) (settings : OtpSettings)
    (deviceFingerprint : String) (server : LoginServer) (as : List AuthAction) (s' : AuthRun)
    (hr : run (authStep crypto settings deviceFingerprint) (.start server) as = some s') :
    (s'.client.status = .success → s'.client.user.isSome = true) ∧
      ∀ user, s'.client.user = some user →
        LoggedIn crypto settings deviceFingerprint server as user := by
  have h : Follows crypto settings deviceFingerprint server as s' :=
    run_history follows_start (fun as m a m' hr h hs => follows_step hr h hs) hr
  exact ⟨h.success, h.user⟩

/-- A code is asked for, typed in, and taken with the military id. -/
def sampleAppLogin : List AuthAction :=
  [.phoneSubmitted "+201000000007", .serve 0 sampleDraws, .answer 0, .otpChanged "483920",
    .militaryIdSubmitted "hash", .serve 1 sampleDraws, .answer 1]

theorem app_follows_server_onePhone : ∃ s' user,
    run (authStep plainCrypto ⟨300, 3⟩ "phone") (.start (freshLogin [sampleUser]))
      sampleAppLogin = some s' ∧ s'.client.status = .success ∧ s'.client.user = some user ∧
    LoggedIn plainCrypto ⟨300, 3⟩ "phone" (freshLogin [sampleUser]) sampleAppLogin user := by
  have hrun : (run (authStep plainCrypto ⟨300, 3⟩ "phone") (.start (freshLogin [sampleUser]))
      sampleAppLogin).map (fun s' => s'.client.status) = some .success := by decide +kernel
  obtain ⟨s', hr, hstatus⟩ := Option.map_eq_some_iff.mp hrun
  obtain ⟨hsuccess, huser⟩ := app_follows_server plainCrypto ⟨300, 3⟩ "phone"
    (freshLogin [sampleUser]) sampleAppLogin s' hr
  obtain ⟨user, hshown⟩ := Option.isSome_iff_exists.mp (hsuccess hstatus)
  exact ⟨s', user, hr, hstatus, hshown, huser user hshown⟩

end Runs

end IronLink.Client
