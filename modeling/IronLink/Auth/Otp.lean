import IronLink.Common.Json
import IronLink.Lib.Calls
import IronLink.Lib.Run
import IronLink.Lib.Ttl

/-!
# One-time passwords under concurrency

`OtpService` (app/services/otp_service.py) keeps a code and an attempt counter
per user in Redis. `issue` is one pipeline; `verify` is a sequence of separate
commands (`INCR`, `EXPIRE`, `GET`, `DEL`), so other calls run in between.

Results:
* `otp_double_accept`: two overlapping `verify` calls accept one code twice.
* `otp_safe_of_noRace`: as long as no `GET` finds a code that was written after
  the call's own `INCR`, nor one that another call has matched and not yet
  deleted, every code is accepted at most once and compared at most
  `OTP_MAX_ATTEMPTS` times.
-/

namespace IronLink.Auth

open Lib

/-! ## Model -/

/-- The two OTP fields of `Settings` (app/config.py:84-85). -/
structure OtpSettings where
  OTP_TTL_SECONDS : ℕ := 300
  OTP_MAX_ATTEMPTS : ℕ := 5

/-- The value of `otp:{user_id}`. `serial` numbers the `issue` calls of the
    user and is no data of the program: it tells which call wrote the code. -/
structure Otp where
  serial : ℕ
  code : String
  deriving DecidableEq

/-- The next Redis command of a `verify` call (app/services/otp_service.py:42-64). -/
inductive VerifyPc
  /-- `attempts = await redis.incr(attempts_key)` -/
  | incr
  /-- `await redis.expire(attempts_key, OTP_TTL_SECONDS)`, taken when `attempts == 1` -/
  | expire (attempts : ℕ)
  /-- `await redis.delete(code_key)` after too many attempts -/
  | burn
  /-- `stored = await redis.get(code_key)` -/
  | get
  /-- `await redis.delete(code_key, attempts_key)` after the stored code matched -/
  | consume (stored : Otp)
  | done (result : Bool)
  deriving DecidableEq

/-- A call `verify(user_id, submitted)`. `seen` is no data of the program: the
    number of codes issued to the user when the call's `INCR` ran. -/
structure VerifyCall where
  user : UUID
  submitted : String
  seen : ℕ
  pc : VerifyPc
  deriving DecidableEq

/-- What happened to the code that the `serial`-th `issue` of `user` wrote. -/
inductive OtpEvent
  | compared (user : UUID) (serial : ℕ)
  | accepted (user : UUID) (serial : ℕ)
  deriving DecidableEq

/-- Redis and the calls in flight. `issued` and `log` record the history. -/
structure OtpState where
  now : Time
  /-- `otp:{user_id}` -/
  code : TtlMap Time UUID Otp
  /-- `otp:attempts:{user_id}` -/
  attempts : TtlMap Time UUID ℕ
  calls : List VerifyCall
  issued : UUID → ℕ
  log : List OtpEvent

/-- An empty Redis at time `now`. -/
def OtpState.init (now : Time) : OtpState := ⟨now, fun _ => none, fun _ => none, [], fun _ => 0, []⟩

/-- The branch after the `EXPIRE`: `if attempts > OTP_MAX_ATTEMPTS`. -/
def afterAttempts (settings : OtpSettings) (attempts : ℕ) : VerifyPc :=
  if attempts > settings.OTP_MAX_ATTEMPTS then .burn else .get

/-- The deadline of a key written now with `ex=OTP_TTL_SECONDS`. -/
def OtpState.deadline (settings : OtpSettings) (s : OtpState) : Time :=
  s.now + seconds settings.OTP_TTL_SECONDS

/-- `issue(user_id)` (app/services/otp_service.py:33-40): one pipeline of `SET`
    and `DEL`. `code` is what `generate_otp()` returned. -/
def issue (settings : OtpSettings) (s : OtpState) (user : UUID) (code : String) : OtpState :=
  { s with
    code := s.code.set user ⟨s.issued user, code⟩ (some (s.deadline settings))
    attempts := s.attempts.del user
    issued := Function.update s.issued user (s.issued user + 1) }

/-- The call at its next command. -/
def VerifyCall.goto (c : VerifyCall) (pc : VerifyPc) : VerifyCall := { c with pc := pc }

/-- The call after its `INCR` returned `attempts`. -/
def VerifyCall.afterIncr (settings : OtpSettings) (c : VerifyCall) (seen attempts : ℕ) :
    VerifyCall :=
  { c with
    seen := seen
    pc := if attempts = 1 then .expire attempts else afterAttempts settings attempts }

def commandIncr (settings : OtpSettings) (s : OtpState) (i : ℕ) (c : VerifyCall) : OtpState :=
  { s with
    attempts := s.attempts.incr s.now c.user
    calls := s.calls.set i
      (c.afterIncr settings (s.issued c.user) (s.attempts.incrValue s.now c.user)) }

def commandExpire (settings : OtpSettings) (s : OtpState) (i : ℕ) (c : VerifyCall)
    (attempts : ℕ) : OtpState :=
  { s with
    attempts := s.attempts.expire s.now c.user (s.deadline settings)
    calls := s.calls.set i (c.goto (afterAttempts settings attempts)) }

def commandBurn (s : OtpState) (i : ℕ) (c : VerifyCall) : OtpState :=
  { s with code := s.code.del c.user, calls := s.calls.set i (c.goto (.done false)) }

/-- `GET` and the comparison: nothing is awaited between them. -/
def commandGet (s : OtpState) (i : ℕ) (c : VerifyCall) : OtpState :=
  match s.code.get s.now c.user with
  | none => { s with calls := s.calls.set i (c.goto (.done false)) }
  | some stored =>
    { s with
      calls := s.calls.set i
        (c.goto (if stored.code = c.submitted then .consume stored else .done false))
      log := .compared c.user stored.serial :: s.log }

def commandConsume (s : OtpState) (i : ℕ) (c : VerifyCall) (stored : Otp) : OtpState :=
  { s with
    code := s.code.del c.user
    attempts := s.attempts.del c.user
    calls := s.calls.set i (c.goto (.done true))
    log := .accepted c.user stored.serial :: s.log }

/-- The next command of the `i`-th call, `c`. -/
def verifyCommand (settings : OtpSettings) (s : OtpState) (i : ℕ) (c : VerifyCall) :
    Option OtpState :=
  match c.pc with
  | .incr => some (commandIncr settings s i c)
  | .expire attempts => some (commandExpire settings s i c attempts)
  | .burn => some (commandBurn s i c)
  | .get => some (commandGet s i c)
  | .consume stored => some (commandConsume s i c stored)
  | .done _ => none

/-- One step of Redis, the callers or the clock. -/
inductive OtpAction
  | issue (user : UUID) (code : String)
  | verify (user : UUID) (submitted : String)
  | command (i : ℕ)
  | tick (d : ℕ)

def otpStep (settings : OtpSettings) (s : OtpState) : OtpAction → Option OtpState
  | .issue user code => some (issue settings s user code)
  | .verify user submitted => some { s with calls := s.calls ++ [⟨user, submitted, 0, .incr⟩] }
  | .command i => s.calls[i]?.bind (verifyCommand settings s i)
  | .tick d => some { s with now := s.now + d }

/-! ## What the log and the calls in flight say about one code -/

/-- How often the `g`-th code of `u` was accepted. -/
def OtpState.accepted (s : OtpState) (u : UUID) (g : ℕ) : ℕ := s.log.count (.accepted u g)

/-- How often the `g`-th code of `u` was compared with a submitted code. -/
def OtpState.compared (s : OtpState) (u : UUID) (g : ℕ) : ℕ := s.log.count (.compared u g)

/-- The call has matched the `g`-th code of `u` and not deleted it yet. -/
def VerifyCall.isMatched (u : UUID) (g : ℕ) (c : VerifyCall) : Bool :=
  c.user = u &&
    match c.pc with
    | .consume stored => stored.serial = g
    | _ => false

/-- The call has counted its attempt against the `g`-th code of `u`, was let
    through, and has not read the code yet. -/
def VerifyCall.isPending (settings : OtpSettings) (u : UUID) (g : ℕ) (c : VerifyCall) : Bool :=
  c.user = u && g < c.seen &&
    match c.pc with
    | .expire attempts => attempts ≤ settings.OTP_MAX_ATTEMPTS
    | .get => true
    | _ => false

def OtpState.matched (s : OtpState) (u : UUID) (g : ℕ) : ℕ :=
  s.calls.countP (VerifyCall.isMatched u g)

def OtpState.pending (settings : OtpSettings) (s : OtpState) (u : UUID) (g : ℕ) : ℕ :=
  s.calls.countP (VerifyCall.isPending settings u g)

/-- The counter of `u`, expired or not. -/
def OtpState.attemptsValue (s : OtpState) (u : UUID) : ℕ := ((s.attempts u).map Entry.val).getD 0

/-! ## The two guarantees and the races that break them -/

/-- Every code is accepted by at most one call. -/
def OneTime (s : OtpState) : Prop := ∀ u g, s.accepted u g ≤ 1

/-- Every code is compared at most `OTP_MAX_ATTEMPTS` times. -/
def AttemptLimited (settings : OtpSettings) (s : OtpState) : Prop :=
  ∀ u g, s.compared u g ≤ settings.OTP_MAX_ATTEMPTS

/-- A `GET` finds only a code that was there when the call counted its attempt,
    and, if it matches, one that no other call has matched and not yet deleted. -/
def NoRace (s : OtpState) : OtpAction → Prop
  | .command i => ∀ c ∈ s.calls[i]?, c.pc = .get →
      ∀ stored ∈ s.code.get s.now c.user,
        stored.serial < c.seen ∧
          (stored.code = c.submitted → s.matched c.user stored.serial = 0)
  | _ => True

instance (s : OtpState) : (a : OtpAction) → Decidable (NoRace s a)
  | .command _ => by unfold NoRace; infer_instance
  | .issue _ _ => isTrue trivial
  | .verify _ _ => isTrue trivial
  | .tick _ => isTrue trivial

/-- Two calls with the right code: both `GET` it before either deletes it. -/
theorem otp_double_accept :
    ¬ ∀ settings now as s', run (otpStep settings) (OtpState.init now) as = some s' →
      OneTime s' ∧ AttemptLimited settings s' := by
  intro h
  have hrun : (run (otpStep {}) (OtpState.init 0)
      [.issue 7 "483920", .verify 7 "483920", .verify 7 "483920", .command 0, .command 1,
        .command 0, .command 0, .command 1, .command 0, .command 1]).map (·.log) =
      some [.accepted 7 0, .accepted 7 0, .compared 7 0, .compared 7 0] := by decide
  obtain ⟨s', hs', hlog⟩ := Option.map_eq_some_iff.mp hrun
  have htwo : s'.accepted 7 0 = 2 := by
    unfold OtpState.accepted
    rw [hlog]
    decide
  have hone := (h _ _ _ s' hs').1 7 0
  omega

/-! ## The invariant, for one user -/

variable {settings : OtpSettings} {s s' : OtpState} {u : UUID} {i n : ℕ}
  {c : VerifyCall}

/-- What holds of the codes of `u` in every race-free run. -/
structure UserInv (settings : OtpSettings) (s : OtpState) (u : UUID) : Prop where
  /-- Nothing happened yet to a code still to be issued. -/
  fresh : ∀ g, s.issued u ≤ g → s.accepted u g = 0 ∧ s.compared u g = 0 ∧
    s.matched u g = 0 ∧ s.pending settings u g = 0
  stored : ∀ e, s.code u = some e → e.val.serial < s.issued u ∧ s.accepted u e.val.serial = 0
  deadline : ∀ e, s.code u = some e → ∃ d, e.deadline = some d ∧ d ≤ s.deadline settings
  /-- The counter does not expire before the code it guards. -/
  outlives : ∀ e, s.code u = some e → ∀ a, s.attempts u = some a → ∀ t, e.Live t → a.Live t
  once : ∀ g, s.accepted u g + s.matched u g ≤ 1
  limited : ∀ g, s.compared u g ≤ settings.OTP_MAX_ATTEMPTS
  /-- Comparisons done and still to come are covered by the counter. -/
  counted : ∀ e, s.code u = some e → e.Live s.now →
    s.compared u e.val.serial + s.pending settings u e.val.serial ≤
      min settings.OTP_MAX_ATTEMPTS (s.attemptsValue u)

theorem userInv_init (settings : OtpSettings) (now : Time) (u : UUID) :
    UserInv settings (OtpState.init now) u := by
  constructor
  · intro g _
    exact ⟨rfl, rfl, rfl, rfl⟩
  · intro e he
    cases he
  · intro e he
    cases he
  · intro e he
    cases he
  · intro g
    exact Nat.zero_le 1
  · intro g
    exact Nat.zero_le _
  · intro e he
    cases he

/-- A step that leaves the keys and the history of `u` alone, and starts no
    pending call of `u`, keeps the invariant of `u`. -/
theorem UserInv.frame (h : UserInv settings s u) (hnow : s.now ≤ s'.now)
    (hcode : s'.code u = s.code u) (hatt : s'.attempts u = s.attempts u)
    (hiss : s'.issued u = s.issued u) (hacc : ∀ g, s'.accepted u g = s.accepted u g)
    (hcmp : ∀ g, s'.compared u g = s.compared u g) (hmat : ∀ g, s'.matched u g = s.matched u g)
    (hpen : ∀ g, s'.pending settings u g ≤ s.pending settings u g) : UserInv settings s' u := by
  constructor
  · intro g hg
    obtain ⟨h1, h2, h3, h4⟩ := h.fresh g (hiss ▸ hg)
    have := hpen g
    rw [hacc, hcmp, hmat]
    exact ⟨h1, h2, h3, by omega⟩
  · intro e he
    rw [hiss, hacc]
    exact h.stored e (hcode ▸ he)
  · intro e he
    obtain ⟨d, hd, hle⟩ := h.deadline e (hcode ▸ he)
    refine ⟨d, hd, hle.trans ?_⟩
    unfold OtpState.deadline
    gcongr
  · intro e he a ha
    exact h.outlives e (hcode ▸ he) a (hatt ▸ ha)
  · intro g
    rw [hacc, hmat]
    exact h.once g
  · intro g
    rw [hcmp]
    exact h.limited g
  · intro e he hl
    have hc := h.counted e (hcode ▸ he) (hl.mono hnow)
    have hp := hpen e.val.serial
    have hv : s'.attemptsValue u = s.attemptsValue u := by
      unfold OtpState.attemptsValue
      rw [hatt]
    rw [hcmp, hv]
    omega

/-! ## What replacing one call does to the tallies -/

theorem matched_set_of_ne {c' : VerifyCall} (hc : s.calls[i]? = some c) (hu : c.user ≠ u)
    (hu' : c'.user = c.user) (g : ℕ) :
    (s.calls.set i c').countP (VerifyCall.isMatched u g) = s.matched u g := by
  refine countP_set_same hc ?_
  unfold VerifyCall.isMatched
  rw [hu']
  simp [hu]

theorem pending_set_of_ne {c' : VerifyCall} (hc : s.calls[i]? = some c) (hu : c.user ≠ u)
    (hu' : c'.user = c.user) (g : ℕ) :
    (s.calls.set i c').countP (VerifyCall.isPending settings u g) = s.pending settings u g := by
  refine countP_set_same hc ?_
  unfold VerifyCall.isPending
  rw [hu']
  simp [hu]

/-- A call that is not at the final `DEL`, before or after, is never matched. -/
theorem matched_set_of_not_consume {c' : VerifyCall} (hc : s.calls[i]? = some c)
    (hpc : ∀ o, c.pc ≠ .consume o) (hpc' : ∀ o, c'.pc ≠ .consume o) (u : UUID) (g : ℕ) :
    (s.calls.set i c').countP (VerifyCall.isMatched u g) = s.matched u g := by
  have hno : ∀ x : VerifyCall, (∀ o, x.pc ≠ .consume o) → x.isMatched u g = false := by
    intro x hx
    unfold VerifyCall.isMatched
    split
    · rename_i o ho
      exact absurd ho (hx o)
    · simp
  refine countP_set_same hc ?_
  rw [hno c hpc, hno c' hpc']

/-- A call that ends, or goes on to the final `DEL`, is not pending any more. -/
theorem pending_set_le {c' : VerifyCall} (hc : s.calls[i]? = some c)
    (hpc' : c'.isPending settings u g = false) :
    (s.calls.set i c').countP (VerifyCall.isPending settings u g) ≤ s.pending settings u g := by
  have := countP_set_add (VerifyCall.isPending settings u g) hc c'
  rw [hpc'] at this
  unfold OtpState.pending
  simp at this
  omega

/-! ## One lemma per command of `verify`, for the call's own user -/

theorem attemptsValue_eq_get {e : Entry Time Otp} (h : UserInv settings s u)
    (he : s.code u = some e) (hl : e.Live s.now) :
    s.attemptsValue u = (s.attempts.get s.now u).getD 0 := by
  unfold OtpState.attemptsValue TtlMap.get
  cases ha : s.attempts u with
  | none => rw [TtlMap.lookup_of_none ha]
  | some a => rw [TtlMap.lookup_of_live ha (h.outlives e he a ha _ hl)]

theorem afterAttempts_ne_consume (settings : OtpSettings) (attempts : ℕ) (o : Otp) :
    afterAttempts settings attempts ≠ .consume o := by
  unfold afterAttempts
  split_ifs <;> simp

theorem afterIncr_ne_consume (settings : OtpSettings) (c : VerifyCall) (seen attempts : ℕ)
    (o : Otp) : (c.afterIncr settings seen attempts).pc ≠ .consume o := by
  unfold VerifyCall.afterIncr
  split_ifs
  · simp
  · exact afterAttempts_ne_consume settings attempts o

/-- After `INCR` a call is pending exactly when it was let through. -/
theorem isPending_afterIncr (settings : OtpSettings) (c : VerifyCall) (seen attempts g : ℕ) :
    VerifyCall.isPending settings c.user g (c.afterIncr settings seen attempts) =
      decide (g < seen ∧ attempts ≤ settings.OTP_MAX_ATTEMPTS) := by
  unfold VerifyCall.isPending VerifyCall.afterIncr afterAttempts
  split_ifs with h1 hmax
  · simp
  · have : ¬ attempts ≤ settings.OTP_MAX_ATTEMPTS := by omega
    simp [this]
  · have : attempts ≤ settings.OTP_MAX_ATTEMPTS := by omega
    simp [this]

theorem isPending_afterExpire (settings : OtpSettings) (hpc : c.pc = .expire n) (g : ℕ) :
    VerifyCall.isPending settings c.user g (c.goto (afterAttempts settings n)) =
      VerifyCall.isPending settings c.user g c := by
  unfold VerifyCall.isPending VerifyCall.goto afterAttempts
  rw [hpc]
  split_ifs with hmax
  · have : ¬ n ≤ settings.OTP_MAX_ATTEMPTS := by omega
    simp [this]
  · have : n ≤ settings.OTP_MAX_ATTEMPTS := by omega
    simp [this]

/-- The `INCR` adds a pending call for every code written before, if it lets
    the call through. -/
theorem pending_incr (hc : s.calls[i]? = some c) (hpc : c.pc = .incr) (g : ℕ) :
    (commandIncr settings s i c).pending settings c.user g = s.pending settings c.user g +
      if g < s.issued c.user ∧
        s.attempts.incrValue s.now c.user ≤ settings.OTP_MAX_ATTEMPTS then 1 else 0 := by
  have hold : VerifyCall.isPending settings c.user g c = false := by
    unfold VerifyCall.isPending
    rw [hpc]
    simp
  have hset := countP_set_add (VerifyCall.isPending settings c.user g) hc
    (c.afterIncr settings (s.issued c.user) (s.attempts.incrValue s.now c.user))
  rw [isPending_afterIncr, hold] at hset
  simp only [decide_eq_true_eq, Bool.false_eq_true, if_false, add_zero] at hset
  exact hset

theorem attemptsValue_incr :
    (commandIncr settings s i c).attemptsValue c.user = s.attempts.incrValue s.now c.user := by
  show ((s.attempts.incr s.now c.user c.user).map Entry.val).getD 0 = _
  rw [TtlMap.incr_self]
  rfl

theorem userInv_incr (h : UserInv settings s c.user) (hc : s.calls[i]? = some c)
    (hpc : c.pc = .incr) : UserInv settings (commandIncr settings s i c) c.user := by
  have hmat : ∀ g, (commandIncr settings s i c).matched c.user g = s.matched c.user g :=
    matched_set_of_not_consume hc (by simp [hpc]) (afterIncr_ne_consume settings c _ _) c.user
  refine ⟨?_, h.stored, h.deadline, ?_, ?_, h.limited, ?_⟩
  · intro g hg
    have hg' : ¬ g < s.issued c.user := by
      change s.issued c.user ≤ g at hg
      omega
    rw [hmat, pending_incr hc hpc, if_neg fun hm => hg' hm.1]
    exact h.fresh g hg
  · intro e he a ha t ht
    -- the counter keeps its deadline, or is new and has none
    change s.attempts.incr s.now c.user c.user = some a at ha
    rw [TtlMap.incr_self] at ha
    obtain rfl := Option.some.inj ha
    cases hl : s.attempts.lookup s.now c.user with
    | none => exact Entry.live_of_no_deadline rfl
    | some a₀ =>
      have := h.outlives e he a₀ (TtlMap.lookup_eq_some.mp hl).1 t ht
      exact (Entry.live_congr rfl).mpr this
  · intro g
    rw [hmat]
    exact h.once g
  · intro e he hl
    have hcnt := h.counted e he hl
    have hval : s.attempts.incrValue s.now c.user = s.attemptsValue c.user + 1 := by
      rw [attemptsValue_eq_get h he hl]
      rfl
    rw [attemptsValue_incr, pending_incr hc hpc, hval]
    change s.compared c.user e.val.serial + _ ≤ _
    split_ifs with hmax
    · omega
    · omega

theorem userInv_expire (h : UserInv settings s c.user) (hc : s.calls[i]? = some c)
    (hpc : c.pc = .expire n) : UserInv settings (commandExpire settings s i c n) c.user := by
  have hmat : ∀ g, (commandExpire settings s i c n).matched c.user g = s.matched c.user g :=
    matched_set_of_not_consume hc (by simp [hpc]) (afterAttempts_ne_consume settings n) c.user
  have hpen : ∀ g, (commandExpire settings s i c n).pending settings c.user g =
      s.pending settings c.user g :=
    fun g => countP_set_same hc (isPending_afterExpire settings hpc g)
  have hexp := TtlMap.expire_self s.attempts s.now c.user (s.deadline settings)
  refine ⟨?_, h.stored, h.deadline, ?_, ?_, h.limited, ?_⟩
  · intro g hg
    rw [hmat, hpen]
    exact h.fresh g hg
  · intro e he a ha t ht
    change s.attempts.expire s.now c.user (s.deadline settings) c.user = some a at ha
    rw [hexp] at ha
    cases hl : s.attempts.lookup s.now c.user with
    | none =>
      rw [hl] at ha
      exact h.outlives e he a ha t ht
    | some a₀ =>
      -- the new deadline is no earlier than that of any stored code
      rw [hl] at ha
      obtain rfl := Option.some.inj ha
      obtain ⟨d, hd, hle⟩ := h.deadline e he
      have := (Entry.live_of_deadline hd).mp ht
      exact (Entry.live_of_deadline rfl).mpr (lt_of_lt_of_le this hle)
  · intro g
    rw [hmat]
    exact h.once g
  · intro e he hl
    have hval : (commandExpire settings s i c n).attemptsValue c.user =
        s.attemptsValue c.user := by
      show ((s.attempts.expire s.now c.user (s.deadline settings) c.user).map _).getD 0 = _
      unfold OtpState.attemptsValue
      rw [hexp]
      cases hl : s.attempts.lookup s.now c.user with
      | none => rfl
      | some a₀ => rw [(TtlMap.lookup_eq_some.mp hl).1]; rfl
    rw [hpen, hval]
    exact h.counted e he hl

theorem isPending_of_ended {c : VerifyCall} {pc : VerifyPc}
    (hpc : (∃ o, pc = .consume o) ∨ ∃ b, pc = .done b) (g : ℕ) :
    VerifyCall.isPending settings u g (c.goto pc) = false := by
  unfold VerifyCall.isPending VerifyCall.goto
  rcases hpc with ⟨o, rfl⟩ | ⟨b, rfl⟩ <;> simp

/-- With no code stored, only the history of `u` matters. -/
theorem UserInv.of_no_code (hnone : s.code u = none)
    (hfresh : ∀ g, s.issued u ≤ g → s.accepted u g = 0 ∧ s.compared u g = 0 ∧
      s.matched u g = 0 ∧ s.pending settings u g = 0)
    (honce : ∀ g, s.accepted u g + s.matched u g ≤ 1)
    (hlim : ∀ g, s.compared u g ≤ settings.OTP_MAX_ATTEMPTS) : UserInv settings s u := by
  have hno : ∀ e, s.code u ≠ some e := by
    intro e he
    rw [hnone] at he
    cases he
  exact ⟨hfresh, fun e he => absurd he (hno e), fun e he => absurd he (hno e),
    fun e he => absurd he (hno e), honce, hlim, fun e he => absurd he (hno e)⟩

theorem userInv_burn (h : UserInv settings s c.user) (hc : s.calls[i]? = some c)
    (hpc : c.pc = .burn) : UserInv settings (commandBurn s i c) c.user := by
  have hmat : ∀ g, (commandBurn s i c).matched c.user g = s.matched c.user g :=
    matched_set_of_not_consume hc (by simp [hpc]) (by simp [VerifyCall.goto]) c.user
  refine UserInv.of_no_code (TtlMap.del_self ..) ?_ ?_ h.limited
  · intro g hg
    obtain ⟨h1, h2, h3, h4⟩ := h.fresh g hg
    have hpen : (commandBurn s i c).pending settings c.user g ≤ s.pending settings c.user g :=
      pending_set_le hc (isPending_of_ended (.inr ⟨_, rfl⟩) g)
    rw [hmat]
    exact ⟨h1, h2, h3, by omega⟩
  · intro g
    rw [hmat]
    exact h.once g

theorem userInv_get_none (h : UserInv settings s c.user) (hc : s.calls[i]? = some c)
    (hpc : c.pc = .get) (hget : s.code.get s.now c.user = none) :
    UserInv settings (commandGet s i c) c.user := by
  unfold commandGet
  rw [hget]
  refine h.frame le_rfl rfl rfl rfl (fun _ => rfl) (fun _ => rfl) ?_ ?_
  · exact matched_set_of_not_consume hc (by simp [hpc]) (by simp [VerifyCall.goto]) c.user
  · intro g
    exact pending_set_le hc (isPending_of_ended (.inr ⟨_, rfl⟩) g)

/-- The comparison the `GET` makes was already counted as pending. -/
theorem pending_get_stored {stored : Otp} (hc : s.calls[i]? = some c) (hpc : c.pc = .get)
    (hget : s.code.get s.now c.user = some stored) (hseen : stored.serial < c.seen) :
    (commandGet s i c).pending settings c.user stored.serial + 1 =
      s.pending settings c.user stored.serial := by
  have hold : VerifyCall.isPending settings c.user stored.serial c = true := by
    unfold VerifyCall.isPending
    rw [hpc]
    simpa using hseen
  have hnew : VerifyCall.isPending settings c.user stored.serial
      (c.goto (if stored.code = c.submitted then .consume stored else .done false)) = false := by
    split_ifs
    · exact isPending_of_ended (.inl ⟨_, rfl⟩) _
    · exact isPending_of_ended (.inr ⟨_, rfl⟩) _
  unfold commandGet
  rw [hget]
  exact countP_set_leave hc hold hnew

/-- The `GET` makes at most one call matched, with the stored code. -/
theorem matched_get {stored : Otp} (hc : s.calls[i]? = some c) (hpc : c.pc = .get)
    (hget : s.code.get s.now c.user = some stored) (g : ℕ) :
    (commandGet s i c).matched c.user g = s.matched c.user g +
      if stored.serial = g ∧ stored.code = c.submitted then 1 else 0 := by
  have hold : VerifyCall.isMatched c.user g c = false := by
    unfold VerifyCall.isMatched
    rw [hpc]
    simp
  have hset := countP_set_add (VerifyCall.isMatched c.user g) hc
    (c.goto (if stored.code = c.submitted then .consume stored else .done false))
  have hnew : VerifyCall.isMatched c.user g
      (c.goto (if stored.code = c.submitted then .consume stored else .done false)) =
        decide (stored.serial = g ∧ stored.code = c.submitted) := by
    unfold VerifyCall.isMatched VerifyCall.goto
    split_ifs with h <;> simp [h]
  rw [hold, hnew] at hset
  simp only [decide_eq_true_eq, Bool.false_eq_true, if_false, add_zero] at hset
  unfold commandGet
  rw [hget]
  exact hset

theorem compared_get {stored : Otp} (hget : s.code.get s.now c.user = some stored) (g : ℕ) :
    (commandGet s i c).compared c.user g = s.compared c.user g +
      if stored.serial = g then 1 else 0 := by
  unfold commandGet OtpState.compared
  rw [hget, List.count_cons]
  simp

theorem pending_get_le (hc : s.calls[i]? = some c) (g : ℕ) :
    (commandGet s i c).pending settings c.user g ≤ s.pending settings c.user g := by
  unfold commandGet
  split
  · exact pending_set_le hc (isPending_of_ended (.inr ⟨_, rfl⟩) g)
  · refine pending_set_le hc ?_
    split_ifs
    · exact isPending_of_ended (.inl ⟨_, rfl⟩) g
    · exact isPending_of_ended (.inr ⟨_, rfl⟩) g

theorem userInv_get_some {stored : Otp} (h : UserInv settings s c.user)
    (hc : s.calls[i]? = some c) (hpc : c.pc = .get)
    (hget : s.code.get s.now c.user = some stored) (hseen : stored.serial < c.seen)
    (hfree : stored.code = c.submitted → s.matched c.user stored.serial = 0) :
    UserInv settings (commandGet s i c) c.user := by
  obtain ⟨e, he, hlive, rfl⟩ := TtlMap.get_eq_some.mp hget
  obtain ⟨hser, hunacc⟩ := h.stored e he
  have hcnt := h.counted e he hlive
  have hpen : (commandGet s i c).pending settings c.user e.val.serial + 1 =
      s.pending settings c.user e.val.serial := pending_get_stored hc hpc hget hseen
  have hacc : ∀ g, (commandGet s i c).accepted c.user g = s.accepted c.user g := by
    intro g
    unfold commandGet OtpState.accepted
    rw [hget, List.count_cons_of_ne (by simp)]
  have hrest : (commandGet s i c).code = s.code ∧ (commandGet s i c).attempts = s.attempts ∧
      (commandGet s i c).issued = s.issued ∧ (commandGet s i c).now = s.now := by
    unfold commandGet
    rw [hget]
    exact ⟨rfl, rfl, rfl, rfl⟩
  obtain ⟨hcode, hatt, hiss, hnow⟩ := hrest
  refine ⟨?_, ?_, ?_, ?_, ?_, ?_, ?_⟩
  · intro g hg
    rw [hiss] at hg
    have hne : e.val.serial ≠ g := by omega
    obtain ⟨h1, h2, h3, h4⟩ := h.fresh g hg
    have hle : (commandGet s i c).pending settings c.user g ≤ s.pending settings c.user g :=
      pending_get_le hc g
    rw [hacc, compared_get hget, matched_get hc hpc hget, if_neg hne,
      if_neg fun hm => hne hm.1]
    exact ⟨h1, h2, h3, by omega⟩
  · intro e' he'
    rw [hcode] at he'
    rw [hiss, hacc]
    exact h.stored e' he'
  · intro e' he'
    unfold OtpState.deadline
    rw [hcode] at he'
    rw [hnow]
    exact h.deadline e' he'
  · intro e' he' a ha
    rw [hcode] at he'
    rw [hatt] at ha
    exact h.outlives e' he' a ha
  · intro g
    have := h.once g
    rw [hacc, matched_get hc hpc hget]
    split_ifs with hm
    · obtain ⟨rfl, hcodes⟩ := hm
      have := hfree hcodes
      omega
    · omega
  · intro g
    rw [compared_get hget]
    split_ifs with hg
    · subst hg
      omega
    · exact h.limited g
  · intro e' he' _
    rw [hcode, he] at he'
    obtain rfl := Option.some.inj he'
    have hval : (commandGet s i c).attemptsValue c.user = s.attemptsValue c.user := by
      unfold OtpState.attemptsValue
      rw [hatt]
    rw [compared_get hget, if_pos rfl, hval]
    omega

theorem userInv_consume {stored : Otp} (h : UserInv settings s c.user)
    (hc : s.calls[i]? = some c) (hpc : c.pc = .consume stored) :
    UserInv settings (commandConsume s i c stored) c.user := by
  have hself : ∀ g, VerifyCall.isMatched c.user g c = decide (stored.serial = g) := by
    intro g
    unfold VerifyCall.isMatched
    rw [hpc]
    simp
  have hmat : ∀ g, (commandConsume s i c stored).matched c.user g +
      (if stored.serial = g then 1 else 0) = s.matched c.user g := by
    intro g
    have hset := countP_set_add (VerifyCall.isMatched c.user g) hc (c.goto (.done true))
    rw [hself] at hset
    have hnew : VerifyCall.isMatched c.user g (c.goto (.done true)) = false := by
      simp [VerifyCall.isMatched, VerifyCall.goto]
    rw [hnew] at hset
    simp only [decide_eq_true_eq, Bool.false_eq_true, if_false, add_zero] at hset
    exact hset
  have hacc : ∀ g, (commandConsume s i c stored).accepted c.user g =
      s.accepted c.user g + if stored.serial = g then 1 else 0 := by
    intro g
    unfold commandConsume OtpState.accepted
    rw [List.count_cons]
    simp
  have hcmp : ∀ g, (commandConsume s i c stored).compared c.user g = s.compared c.user g := by
    intro g
    unfold commandConsume OtpState.compared
    rw [List.count_cons_of_ne (by simp)]
  refine UserInv.of_no_code (TtlMap.del_self ..) ?_ ?_ ?_
  · intro g hg
    obtain ⟨h1, h2, h3, h4⟩ := h.fresh g hg
    have := hmat g
    have hpen : (commandConsume s i c stored).pending settings c.user g ≤
        s.pending settings c.user g :=
      pending_set_le hc (isPending_of_ended (.inr ⟨_, rfl⟩) g)
    rw [hacc, hcmp]
    split_ifs at this with hs
    · omega
    · rw [if_neg hs]
      omega
  · intro g
    have := h.once g
    have := hmat g
    rw [hacc]
    omega
  · intro g
    rw [hcmp]
    exact h.limited g

/-! ## The other users -/

/-- A command of a call of another user is no event of `u`. -/
theorem userInv_command_other (h : UserInv settings s u) (hu : u ≠ c.user)
    (hc : s.calls[i]? = some c) (hs : verifyCommand settings s i c = some s') :
    UserInv settings s' u := by
  have hmat : ∀ c' : VerifyCall, c'.user = c.user → ∀ g,
      (s.calls.set i c').countP (VerifyCall.isMatched u g) = s.matched u g :=
    fun c' hc' g => matched_set_of_ne hc hu.symm hc' g
  have hpen : ∀ c' : VerifyCall, c'.user = c.user → ∀ g,
      (s.calls.set i c').countP (VerifyCall.isPending settings u g) ≤ s.pending settings u g :=
    fun c' hc' g => (pending_set_of_ne hc hu.symm hc' g).le
  have hacc : ∀ g g', OtpEvent.accepted c.user g ≠ .accepted u g' := fun g g' he =>
    hu (OtpEvent.accepted.inj he).1.symm
  have hcmp : ∀ g g', OtpEvent.compared c.user g ≠ .compared u g' := fun g g' he =>
    hu (OtpEvent.compared.inj he).1.symm
  unfold verifyCommand at hs
  split at hs
  · obtain rfl := Option.some.inj hs
    exact h.frame le_rfl rfl (TtlMap.incr_of_ne hu _) rfl (fun _ => rfl) (fun _ => rfl)
      (hmat _ rfl) (hpen _ rfl)
  · obtain rfl := Option.some.inj hs
    exact h.frame le_rfl rfl (TtlMap.expire_of_ne hu _ _) rfl (fun _ => rfl) (fun _ => rfl)
      (hmat _ rfl) (hpen _ rfl)
  · obtain rfl := Option.some.inj hs
    exact h.frame le_rfl (TtlMap.del_of_ne hu) rfl rfl (fun _ => rfl) (fun _ => rfl)
      (hmat _ rfl) (hpen _ rfl)
  · obtain rfl := Option.some.inj hs
    unfold commandGet
    split
    · exact h.frame le_rfl rfl rfl rfl (fun _ => rfl) (fun _ => rfl) (hmat _ rfl) (hpen _ rfl)
    · exact h.frame le_rfl rfl rfl rfl (fun g => List.count_cons_of_ne (by simp))
        (fun g => List.count_cons_of_ne (hcmp _ g)) (hmat _ rfl) (hpen _ rfl)
  · obtain rfl := Option.some.inj hs
    exact h.frame le_rfl (TtlMap.del_of_ne hu) (TtlMap.del_of_ne hu) rfl
      (fun g => List.count_cons_of_ne (hacc _ g)) (fun g => List.count_cons_of_ne (by simp))
      (hmat _ rfl) (hpen _ rfl)
  · cases hs

/-! ## Every step, every run -/

theorem userInv_issue (h : UserInv settings s u) (code : String) :
    UserInv settings (issue settings s u code) u := by
  obtain ⟨hacc, hcmp, hmat, hpen⟩ := h.fresh (s.issued u) le_rfl
  have hiss : (issue settings s u code).issued u = s.issued u + 1 := Function.update_self ..
  have hcode : ∀ e, (issue settings s u code).code u = some e →
      e = ⟨⟨s.issued u, code⟩, some (s.deadline settings)⟩ := by
    intro e he
    change s.code.set u ⟨s.issued u, code⟩ (some (s.deadline settings)) u = some e at he
    rw [TtlMap.set_self] at he
    exact (Option.some.inj he).symm
  have hatt : (issue settings s u code).attempts u = none := TtlMap.del_self ..
  refine ⟨?_, ?_, ?_, ?_, h.once, h.limited, ?_⟩
  · intro g hg
    rw [hiss] at hg
    exact h.fresh g (by omega)
  · intro e he
    rw [hcode e he, hiss]
    exact ⟨Nat.lt_succ_self _, hacc⟩
  · intro e he
    rw [hcode e he]
    exact ⟨_, rfl, le_rfl⟩
  · intro e _ a ha
    rw [hatt] at ha
    cases ha
  · intro e he _
    rw [hcode e he]
    change s.compared u (s.issued u) + s.pending settings u (s.issued u) ≤ _
    omega

theorem userInv_command (h : ∀ u, UserInv settings s u) (hg : NoRace s (.command i))
    (hc : s.calls[i]? = some c) (hs : verifyCommand settings s i c = some s') (u : UUID) :
    UserInv settings s' u := by
  by_cases hu : u = c.user
  · subst hu
    unfold verifyCommand at hs
    split at hs
    · rename_i hpc
      obtain rfl := Option.some.inj hs
      exact userInv_incr (h _) hc hpc
    · rename_i n hpc
      obtain rfl := Option.some.inj hs
      exact userInv_expire (h _) hc hpc
    · rename_i hpc
      obtain rfl := Option.some.inj hs
      exact userInv_burn (h _) hc hpc
    · rename_i hpc
      obtain rfl := Option.some.inj hs
      cases hget : s.code.get s.now c.user with
      | none => exact userInv_get_none (h _) hc hpc hget
      | some stored =>
        obtain ⟨hseen, hfree⟩ := hg c hc hpc stored hget
        exact userInv_get_some (h _) hc hpc hget hseen hfree
    · rename_i stored hpc
      obtain rfl := Option.some.inj hs
      exact userInv_consume (h _) hc hpc
    · cases hs
  · exact userInv_command_other (h u) hu hc hs

theorem userInv_step (settings : OtpSettings) (s : OtpState) (a : OtpAction) (s' : OtpState)
    (h : ∀ u, UserInv settings s u) (hg : NoRace s a) (hs : otpStep settings s a = some s') :
    ∀ u, UserInv settings s' u := by
  intro u
  cases a with
  | issue v code =>
    obtain rfl := Option.some.inj hs
    by_cases hu : u = v
    · subst hu
      exact userInv_issue (h u) code
    · exact (h u).frame le_rfl (TtlMap.set_of_ne hu ..) (TtlMap.del_of_ne hu)
        (Function.update_of_ne hu ..) (fun _ => rfl) (fun _ => rfl) (fun _ => rfl) (fun _ => le_rfl)
  | verify v submitted =>
    obtain rfl := Option.some.inj hs
    have hno : ∀ g, VerifyCall.isMatched u g ⟨v, submitted, 0, .incr⟩ = false ∧
        VerifyCall.isPending settings u g ⟨v, submitted, 0, .incr⟩ = false := by
      simp [VerifyCall.isMatched, VerifyCall.isPending]
    refine (h u).frame le_rfl rfl rfl rfl (fun _ => rfl) (fun _ => rfl) ?_ ?_
    · intro g
      show (s.calls ++ [_]).countP _ = s.calls.countP _
      simp [List.countP_append, hno]
    · intro g
      show (s.calls ++ [_]).countP _ ≤ s.calls.countP _
      simp [List.countP_append, hno]
  | command i =>
    obtain ⟨c, hc, hs⟩ := Option.bind_eq_some_iff.mp hs
    exact userInv_command h hg hc hs u
  | tick d =>
    obtain rfl := Option.some.inj hs
    exact (h u).frame (by simp) rfl rfl rfl (fun _ => rfl) (fun _ => rfl) (fun _ => rfl)
      (fun _ => le_rfl)

/-- **One-time and attempt-limited.** In a run whose steps are all race-free,
    every code is accepted by at most one call and compared at most
    `OTP_MAX_ATTEMPTS` times. -/
theorem otp_safe_of_noRace (settings : OtpSettings) (now : Time) (as : List OtpAction)
    (s' : OtpState) (hg : Guarded (otpStep settings) NoRace (OtpState.init now) as)
    (hr : run (otpStep settings) (OtpState.init now) as = some s') :
    OneTime s' ∧ AttemptLimited settings s' := by
  have hinv : ∀ u, UserInv settings s' u :=
    hg.invariant (userInv_step settings) (userInv_init settings now) hr
  refine ⟨?_, ?_⟩
  · intro u g
    have := (hinv u).once g
    omega
  · intro u g
    exact (hinv u).limited g

/-- Two overlapping calls, one of them right: the condition is met, and the
    code is accepted once. -/
theorem otp_safe_overlapping :
    ∃ s', run (otpStep {}) (OtpState.init 0)
        [.issue 7 "483920", .verify 7 "000000", .verify 7 "483920", .command 0, .command 1,
          .command 0, .command 1, .command 0, .command 1] = some s' ∧
      s'.accepted 7 0 = 1 ∧ OneTime s' ∧ AttemptLimited {} s' := by
  have hrun : (run (otpStep {}) (OtpState.init 0)
      [.issue 7 "483920", .verify 7 "000000", .verify 7 "483920", .command 0, .command 1,
        .command 0, .command 1, .command 0, .command 1]).map (·.accepted 7 0) = some 1 := by
    decide
  obtain ⟨s', hs', hone⟩ := Option.map_eq_some_iff.mp hrun
  exact ⟨s', hs', hone, otp_safe_of_noRace {} 0 _ s' (by decide) hs'⟩

end IronLink.Auth
