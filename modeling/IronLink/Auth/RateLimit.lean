import IronLink.Auth.Account
import IronLink.Lib.Calls
import IronLink.Lib.Run
import IronLink.Lib.Windows

/-!
# The limits on OTP requests

`_rate_limit_otp` (app/api/routes/auth.py:44-74) at the granularity of Redis
commands. The cool-down flag of a phone number is looked up first and set last;
in between come two counters, one per phone number and one per client address.

Results:
* `limit_counts`: in every run, a window of a counter lets at most
  `_OTP_MAX_PER_HOUR` calls per phone number and four times as many per address pass.
* `limits_of_noOverlap`: as long as no call looks for the flag, and finds none, while
  another call for the phone number is on its way to set it, the cool-down holds too.
* `cooldown_overlap`: two calls at once pass together.
-/

namespace IronLink.Auth

open Lib

/-! ## Model -/

/-- `_OTP_COOLDOWN_SECONDS` (app/api/routes/auth.py:40). -/
def OTP_COOLDOWN_SECONDS : ℕ := 60

/-- `_OTP_MAX_PER_HOUR` (app/api/routes/auth.py:41). -/
def OTP_MAX_PER_HOUR : ℕ := 5

/-- The life of the two counters, in seconds. -/
def OTP_COUNTER_SECONDS : ℕ := 3600

/-- The keys of the limiter in Redis. -/
structure LimitKeys where
  /-- `otp:cooldown:{phone}` -/
  cooldown : TtlMap Time String Unit
  /-- `otp:hourly:{phone}` -/
  hourly : TtlMap Time String ℕ
  /-- `otp:ip:{ip}` -/
  ip : TtlMap Time String ℕ

def LimitKeys.empty : LimitKeys := ⟨fun _ => none, fun _ => none, fun _ => none⟩

/-- `TTL key`: the seconds that are left, rounded; -1 without an expiry, -2 without
    the key. -/
def ttlSeconds (m : TtlMap Time String Unit) (now : Time) (key : String) : ℤ :=
  match m.lookup now key with
  | none => -2
  | some e =>
    match e.deadline with
    | none => -1
    | some d => (d - now + 500000) / 1000000

def pleaseWait (ttl : ℤ) : HttpError :=
  ⟨429, "Please wait " ++ toString ttl ++ "s before requesting another code"⟩

def tooManyAttempts : HttpError := ⟨429, "Too many attempts. Try again later."⟩

/-- The next Redis command of a `_rate_limit_otp` call. -/
inductive LimitPc
  /-- `await redis_otp.exists(cooldown_key)` -/
  | exists
  /-- `ttl = await redis_otp.ttl(cooldown_key)`, when the flag was there -/
  | ttl
  /-- `hourly = await redis_otp.incr(hourly_key)` -/
  | incrHourly
  /-- `await redis_otp.expire(hourly_key, 3600)`, taken when `hourly == 1` -/
  | expireHourly (hourly : ℕ)
  /-- `ip_count = await redis_otp.incr(ip_key)` -/
  | incrIp (hourly : ℕ)
  /-- `await redis_otp.expire(ip_key, 3600)`, taken when `ip_count == 1` -/
  | expireIp (hourly ipCount : ℕ)
  /-- `await redis_otp.set(cooldown_key, "1", ex=_OTP_COOLDOWN_SECONDS)` -/
  | setCooldown
  | done (result : Except HttpError ℕ)
  deriving DecidableEq

/-- A call `_rate_limit_otp(phone, ip)`. The two windows are no data of the program:
    they number the lives of the counters the call has counted in. -/
structure LimitCall where
  phone : String
  ip : String
  phoneWindow : ℕ
  ipWindow : ℕ
  pc : LimitPc

/-- A call that has passed, at `time`. -/
structure Pass where
  time : Time
  phone : String
  ip : String
  phoneWindow : ℕ
  ipWindow : ℕ
  deriving DecidableEq

/-- Redis, the clock and the calls in flight. The windows and `passes`, newest first,
    record the history. -/
structure LimitState where
  now : Time
  keys : LimitKeys
  hourlyWindow : String → ℕ
  ipWindow : String → ℕ
  calls : List LimitCall
  passes : List Pass

/-- An empty Redis at time `now`. -/
def LimitState.init (now : Time) : LimitState := ⟨now, .empty, fun _ => 0, fun _ => 0, [], []⟩

def LimitCall.goto (c : LimitCall) (pc : LimitPc) : LimitCall := { c with pc := pc }

/-- `if hourly > _OTP_MAX_PER_HOUR or ip_count > _OTP_MAX_PER_HOUR * 4`. -/
def afterCounts (hourly ipCount : ℕ) : LimitPc :=
  if hourly > OTP_MAX_PER_HOUR ∨ ipCount > OTP_MAX_PER_HOUR * 4 then .done (.error tooManyAttempts)
  else .setCooldown

/-- The deadline of a key that is to live `n` seconds. -/
def LimitState.deadline (s : LimitState) (n : ℕ) : Time := s.now + seconds n

def limitExists (s : LimitState) (i : ℕ) (c : LimitCall) : LimitState :=
  { s with
    calls := s.calls.set i
      (c.goto (if (s.keys.cooldown.lookup s.now c.phone).isSome then .ttl else .incrHourly)) }

def limitTtl (s : LimitState) (i : ℕ) (c : LimitCall) : LimitState :=
  { s with
    calls := s.calls.set i
      (c.goto (.done (.error (pleaseWait (ttlSeconds s.keys.cooldown s.now c.phone))))) }

def limitIncrHourly (s : LimitState) (i : ℕ) (c : LimitCall) : LimitState :=
  let hourly := s.keys.hourly.incrValue s.now c.phone
  let window := s.keys.hourly.window s.now c.phone (s.hourlyWindow c.phone)
  { s with
    keys := { s.keys with hourly := s.keys.hourly.incr s.now c.phone }
    hourlyWindow := Function.update s.hourlyWindow c.phone window
    calls := s.calls.set i
      { c with
        phoneWindow := window
        pc := if hourly = 1 then .expireHourly hourly else .incrIp hourly } }

def limitExpireHourly (s : LimitState) (i : ℕ) (c : LimitCall) (hourly : ℕ) : LimitState :=
  { s with
    keys := { s.keys with
      hourly := s.keys.hourly.expire s.now c.phone (s.deadline OTP_COUNTER_SECONDS) }
    calls := s.calls.set i (c.goto (.incrIp hourly)) }

def limitIncrIp (s : LimitState) (i : ℕ) (c : LimitCall) (hourly : ℕ) : LimitState :=
  let ipCount := s.keys.ip.incrValue s.now c.ip
  let window := s.keys.ip.window s.now c.ip (s.ipWindow c.ip)
  { s with
    keys := { s.keys with ip := s.keys.ip.incr s.now c.ip }
    ipWindow := Function.update s.ipWindow c.ip window
    calls := s.calls.set i
      { c with
        ipWindow := window
        pc := if ipCount = 1 then .expireIp hourly ipCount else afterCounts hourly ipCount } }

def limitExpireIp (s : LimitState) (i : ℕ) (c : LimitCall) (hourly ipCount : ℕ) : LimitState :=
  { s with
    keys := { s.keys with ip := s.keys.ip.expire s.now c.ip (s.deadline OTP_COUNTER_SECONDS) }
    calls := s.calls.set i (c.goto (afterCounts hourly ipCount)) }

def limitSet (s : LimitState) (i : ℕ) (c : LimitCall) : LimitState :=
  { s with
    keys := { s.keys with
      cooldown := s.keys.cooldown.set c.phone () (some (s.deadline OTP_COOLDOWN_SECONDS)) }
    calls := s.calls.set i (c.goto (.done (.ok OTP_COOLDOWN_SECONDS)))
    passes := ⟨s.now, c.phone, c.ip, c.phoneWindow, c.ipWindow⟩ :: s.passes }

/-- The next command of the `i`-th call, `c`. -/
def limitCommand (s : LimitState) (i : ℕ) (c : LimitCall) : Option LimitState :=
  match c.pc with
  | .exists => some (limitExists s i c)
  | .ttl => some (limitTtl s i c)
  | .incrHourly => some (limitIncrHourly s i c)
  | .expireHourly hourly => some (limitExpireHourly s i c hourly)
  | .incrIp hourly => some (limitIncrIp s i c hourly)
  | .expireIp hourly ipCount => some (limitExpireIp s i c hourly ipCount)
  | .setCooldown => some (limitSet s i c)
  | .done _ => none

/-- One step of Redis, the callers or the clock. -/
inductive LimitAction
  | request (phone ip : String)
  | command (i : ℕ)
  | tick (d : ℕ)

def limitStep (s : LimitState) : LimitAction → Option LimitState
  | .request phone ip => some { s with calls := s.calls ++ [⟨phone, ip, 0, 0, .exists⟩] }
  | .command i => s.calls[i]?.bind (limitCommand s i)
  | .tick d => some { s with now := s.now + d }

/-- `INCR key` and, when it starts the counter, `EXPIRE key 3600`. -/
def countRequest (m : TtlMap Time String ℕ) (now : Time) (key : String) :
    TtlMap Time String ℕ :=
  let counted := m.incr now key
  if m.incrValue now key = 1 then counted.expire now key (now + seconds OTP_COUNTER_SECONDS)
  else counted

/-- `_rate_limit_otp(phone, ip)` (app/api/routes/auth.py:44-74) when no other command
    runs in between. -/
def rateLimitOtp (keys : LimitKeys) (now : Time) (phone ip : String) :
    LimitKeys × Except HttpError ℕ :=
  if (keys.cooldown.lookup now phone).isSome then
    (keys, .error (pleaseWait (ttlSeconds keys.cooldown now phone)))
  else
    let counted : LimitKeys :=
      ⟨keys.cooldown, countRequest keys.hourly now phone, countRequest keys.ip now ip⟩
    if keys.hourly.incrValue now phone > OTP_MAX_PER_HOUR ∨
        keys.ip.incrValue now ip > OTP_MAX_PER_HOUR * 4 then
      (counted, .error tooManyAttempts)
    else
      ({ counted with
          cooldown := keys.cooldown.set phone () (some (now + seconds OTP_COOLDOWN_SECONDS)) },
        .ok OTP_COOLDOWN_SECONDS)

/-! ## The limits -/

/-- The calls for `phone` that pass within the `_OTP_COOLDOWN_SECONDS` from `t` on. -/
def LimitState.passesWithin (s : LimitState) (phone : String) (t : Time) : ℕ :=
  s.passes.countP fun p =>
    p.phone = phone ∧ t ≤ p.time ∧ p.time < t + seconds OTP_COOLDOWN_SECONDS

/-- The calls for `phone` that pass, counted in the window `w`. -/
def LimitState.phonePasses (s : LimitState) (phone : String) (w : ℕ) : ℕ :=
  s.passes.countP fun p => p.phone = phone ∧ p.phoneWindow = w

/-- The calls from `ip` that pass, counted in the window `w`. -/
def LimitState.ipPasses (s : LimitState) (ip : String) (w : ℕ) : ℕ :=
  s.passes.countP fun p => p.ip = ip ∧ p.ipWindow = w

/-- Within a window of the counters no more calls pass than the limits say. -/
def CountsLimited (s : LimitState) : Prop :=
  (∀ phone w, s.phonePasses phone w ≤ OTP_MAX_PER_HOUR) ∧
    ∀ ip w, s.ipPasses ip w ≤ OTP_MAX_PER_HOUR * 4

/-- Within any `_OTP_COOLDOWN_SECONDS` at most one call per phone number passes. -/
def CooldownHolds (s : LimitState) : Prop := ∀ phone t, s.passesWithin phone t ≤ 1

/-- The call has found no flag, and may still pass: no counter has stopped it. -/
def LimitPc.mayPass : LimitPc → Bool
  | .incrHourly => true
  | .expireHourly hourly => hourly ≤ OTP_MAX_PER_HOUR
  | .incrIp hourly => hourly ≤ OTP_MAX_PER_HOUR
  | .expireIp hourly ipCount => hourly ≤ OTP_MAX_PER_HOUR && ipCount ≤ OTP_MAX_PER_HOUR * 4
  | .setCooldown => true
  | _ => false

def LimitCall.mayPass (phone : String) (c : LimitCall) : Bool := c.phone = phone && c.pc.mayPass

def LimitState.mayPass (s : LimitState) (phone : String) : ℕ :=
  s.calls.countP (LimitCall.mayPass phone)

/-- An `EXISTS` that finds no flag finds no other call for the phone number that has
    found none either and may still pass. -/
def NoOverlap (s : LimitState) : LimitAction → Prop
  | .command i => ∀ c ∈ s.calls[i]?, c.pc = .exists →
      (s.keys.cooldown.lookup s.now c.phone).isNone → s.mayPass c.phone = 0
  | _ => True

instance (s : LimitState) : (a : LimitAction) → Decidable (NoOverlap s a)
  | .command _ => by unfold NoOverlap; infer_instance
  | .request _ _ => isTrue trivial
  | .tick _ => isTrue trivial

/-- Two calls for one phone number: both look for the flag before either sets it. -/
theorem cooldown_overlap :
    ¬ ∀ now as s', run limitStep (LimitState.init now) as = some s' →
      CooldownHolds s' ∧ CountsLimited s' := by
  intro h
  have hrun : (run limitStep (LimitState.init 0)
      [.request "+201000000007" "10.0.0.1", .request "+201000000007" "10.0.0.2", .command 0,
        .command 1, .command 0, .command 0, .command 0, .command 0, .command 0, .command 1,
        .command 1, .command 1, .command 1]).map
      (fun s => s.passesWithin "+201000000007" 0) = some 2 := by
    decide +kernel
  obtain ⟨s', hs', htwo⟩ := Option.map_eq_some_iff.mp hrun
  have hone := (h _ _ s' hs').1 "+201000000007" 0
  omega

variable {s s' : LimitState} {i : ℕ} {c : LimitCall}

/-! ## The counters -/

/-- The counter of the phone number has let the call go on. -/
def LimitPc.phoneOk : LimitPc → Bool
  | .expireHourly hourly => hourly ≤ OTP_MAX_PER_HOUR
  | .incrIp hourly => hourly ≤ OTP_MAX_PER_HOUR
  | .expireIp hourly _ => hourly ≤ OTP_MAX_PER_HOUR
  | .setCooldown => true
  | _ => false

/-- The counter of the address has let the call go on. -/
def LimitPc.ipOk : LimitPc → Bool
  | .expireIp _ ipCount => ipCount ≤ OTP_MAX_PER_HOUR * 4
  | .setCooldown => true
  | _ => false

def LimitCall.countedPhone (phone : String) (w : ℕ) (c : LimitCall) : Bool :=
  c.phone = phone && c.phoneWindow = w && c.pc.phoneOk

def LimitCall.countedIp (ip : String) (w : ℕ) (c : LimitCall) : Bool :=
  c.ip = ip && c.ipWindow = w && c.pc.ipOk

/-- The calls a window of the counter of `phone` has let go on. -/
def LimitState.phoneTally (s : LimitState) (phone : String) (w : ℕ) : ℕ :=
  s.phonePasses phone w + s.calls.countP (LimitCall.countedPhone phone w)

def LimitState.ipTally (s : LimitState) (ip : String) (w : ℕ) : ℕ :=
  s.ipPasses ip w + s.calls.countP (LimitCall.countedIp ip w)

/-- What holds of the counters in every run. -/
structure CountsInv (s : LimitState) : Prop where
  phone : ∀ phone, Limited OTP_MAX_PER_HOUR s.keys.hourly s.now phone (s.hourlyWindow phone)
    (s.phoneTally phone)
  ip : ∀ ip, Limited (OTP_MAX_PER_HOUR * 4) s.keys.ip s.now ip (s.ipWindow ip) (s.ipTally ip)

theorem countsInv_init (now : Time) : CountsInv (LimitState.init now) :=
  ⟨fun _ => limited_of_none _ _ _ rfl fun _ => rfl, fun _ => limited_of_none _ _ _ rfl fun _ => rfl⟩

/-- Time passes, and no counter lets another call go on. -/
theorem CountsInv.frame (h : CountsInv s) (hnow : s.now ≤ s'.now)
    (hhourly : s'.keys.hourly = s.keys.hourly) (hip : s'.keys.ip = s.keys.ip)
    (hphoneWindow : s'.hourlyWindow = s.hourlyWindow) (hipWindow : s'.ipWindow = s.ipWindow)
    (hphone : ∀ phone w, s'.phoneTally phone w ≤ s.phoneTally phone w)
    (hips : ∀ ip w, s'.ipTally ip w ≤ s.ipTally ip w) : CountsInv s' := by
  constructor
  · intro phone
    rw [hphoneWindow]
    exact (h.phone phone).frame (by rw [hhourly]) hnow (hphone phone)
  · intro ip
    rw [hipWindow]
    exact (h.ip ip).frame (by rw [hip]) hnow (hips ip)

/-- The call has the same phone number and was counted in the same window. -/
theorem countedPhone_imp {c' : LimitCall} (hphone : c'.phone = c.phone)
    (hwindow : c'.phoneWindow = c.phoneWindow) (hle : c'.pc.phoneOk = true → c.pc.phoneOk = true)
    (phone : String) (w : ℕ) :
    c'.countedPhone phone w = true → c.countedPhone phone w = true := by
  unfold LimitCall.countedPhone
  rw [hphone, hwindow]
  simp only [Bool.and_eq_true]
  exact And.imp_right hle

theorem countedIp_imp {c' : LimitCall} (hip : c'.ip = c.ip) (hwindow : c'.ipWindow = c.ipWindow)
    (hle : c'.pc.ipOk = true → c.pc.ipOk = true) (ip : String) (w : ℕ) :
    c'.countedIp ip w = true → c.countedIp ip w = true := by
  unfold LimitCall.countedIp
  rw [hip, hwindow]
  simp only [Bool.and_eq_true]
  exact And.imp_right hle

/-- A call that goes on was let go on before. -/
theorem phoneTally_le (s' : LimitState) {c' : LimitCall} (hc : s.calls[i]? = some c)
    (hcalls : s'.calls = s.calls.set i c') (hpasses : s'.passes = s.passes)
    (hphone : c'.phone = c.phone) (hwindow : c'.phoneWindow = c.phoneWindow)
    (hle : c'.pc.phoneOk = true → c.pc.phoneOk = true) (phone : String) (w : ℕ) :
    s'.phoneTally phone w ≤ s.phoneTally phone w := by
  unfold LimitState.phoneTally LimitState.phonePasses
  rw [hcalls, hpasses]
  exact Nat.add_le_add_left (countP_set_le hc (countedPhone_imp hphone hwindow hle phone w)) _

theorem ipTally_le (s' : LimitState) {c' : LimitCall} (hc : s.calls[i]? = some c)
    (hcalls : s'.calls = s.calls.set i c') (hpasses : s'.passes = s.passes)
    (hip : c'.ip = c.ip) (hwindow : c'.ipWindow = c.ipWindow)
    (hle : c'.pc.ipOk = true → c.pc.ipOk = true) (ip : String) (w : ℕ) :
    s'.ipTally ip w ≤ s.ipTally ip w := by
  unfold LimitState.ipTally LimitState.ipPasses
  rw [hcalls, hpasses]
  exact Nat.add_le_add_left (countP_set_le hc (countedIp_imp hip hwindow hle ip w)) _

/-- What the two counters say of a call that was not stopped. -/
theorem afterCounts_cases (hourly ipCount : ℕ) :
    afterCounts hourly ipCount = .done (.error tooManyAttempts) ∨
      afterCounts hourly ipCount = .setCooldown ∧ hourly ≤ OTP_MAX_PER_HOUR ∧
        ipCount ≤ OTP_MAX_PER_HOUR * 4 := by
  unfold afterCounts
  split_ifs with h
  · exact .inl rfl
  · obtain ⟨hhourly, hip⟩ := not_or.mp h
    exact .inr ⟨rfl, not_lt.mp hhourly, not_lt.mp hip⟩

/-- A command that touches no counter, of a call that no counter has let go on. -/
theorem CountsInv.goto (h : CountsInv s) (hc : s.calls[i]? = some c) {pc : LimitPc}
    (hphone : pc.phoneOk = false) (hip : pc.ipOk = false) :
    CountsInv { s with calls := s.calls.set i (c.goto pc) } := by
  have hno : ∀ {b : Bool} {P : Prop}, b = false → b = true → P := fun hf ht => by
    cases hf.symm.trans ht
  exact h.frame le_rfl rfl rfl rfl rfl (phoneTally_le _ hc rfl rfl rfl rfl (hno hphone))
    (ipTally_le _ hc rfl rfl rfl rfl (hno hip))

/-- An `INCR` of `k₀` by the call `c`: it is let go on only by the counter of `k₀`, in the
    window that runs. -/
theorem limited_incr_call {max : ℕ} {m : TtlMap Time String ℕ} {now : Time}
    {current : String → ℕ} {passed : String → ℕ → ℕ} {counted : String → ℕ → LimitCall → Bool}
    {calls : List LimitCall} {k₀ : String} {c' : LimitCall}
    (h : ∀ k, Limited max m now k (current k) fun w => passed k w + calls.countP (counted k w))
    (hc : calls[i]? = some c)
    (hcounted : ∀ k w, counted k w c' = true →
      k = k₀ ∧ w = m.window now k₀ (current k₀) ∧ m.incrValue now k₀ ≤ max) (k : String) :
    Limited max (m.incr now k₀) now k
      (Function.update current k₀ (m.window now k₀ (current k₀)) k)
      fun w => passed k w + (calls.set i c').countP (counted k w) := by
  by_cases hk : k = k₀
  · subst hk
    rw [Function.update_self]
    refine (h k).incr fun w => ?_
    rw [Nat.add_assoc]
    exact Nat.add_le_add_left (countP_set_le_add hc fun hok => (hcounted k w hok).2) _
  · rw [Function.update_of_ne hk]
    refine (h k).frame (TtlMap.incr_of_ne hk _) le_rfl fun w => ?_
    refine Nat.add_le_add_left (countP_set_le hc fun hok => ?_) _
    exact absurd (hcounted k w hok).1 hk

theorem countsInv_incrHourly (h : CountsInv s) (hc : s.calls[i]? = some c) :
    CountsInv (limitIncrHourly s i c) := by
  have hpc : ∀ {hourly : ℕ}, (if hourly = 1 then LimitPc.expireHourly hourly
      else .incrIp hourly).phoneOk = decide (hourly ≤ OTP_MAX_PER_HOUR) := by
    intro hourly
    split_ifs <;> rfl
  constructor
  · refine limited_incr_call h.phone hc fun phone w hok => ?_
    unfold LimitCall.countedPhone at hok
    rw [hpc, Bool.and_eq_true, Bool.and_eq_true] at hok
    exact ⟨(of_decide_eq_true hok.1.1).symm, (of_decide_eq_true hok.1.2).symm,
      of_decide_eq_true hok.2⟩
  · intro ip
    refine (h.ip ip).frame rfl le_rfl fun w => ?_
    refine ipTally_le (limitIncrHourly s i c) hc rfl rfl rfl rfl (fun hok => ?_) ip w
    dsimp only at hok
    split_ifs at hok
    · cases hok
    · cases hok

theorem countsInv_expireHourly (h : CountsInv s) (hc : s.calls[i]? = some c) {hourly : ℕ}
    (hpc : c.pc = .expireHourly hourly) : CountsInv (limitExpireHourly s i c hourly) := by
  constructor
  · intro phone
    refine (h.phone phone).expire _ _ fun w => ?_
    refine phoneTally_le (limitExpireHourly s i c hourly) hc rfl rfl rfl rfl ?_ phone w
    rw [hpc]
    exact id
  · intro ip
    refine (h.ip ip).frame rfl le_rfl fun w => ?_
    refine ipTally_le (limitExpireHourly s i c hourly) hc rfl rfl rfl rfl (fun hok => ?_) ip w
    cases (show LimitPc.ipOk (.incrIp hourly) = true from hok)

/-- What the counters say of a call that goes on after the second one. -/
theorem afterIncrIp_ok {hourly ipCount : ℕ} :
    ((if ipCount = 1 then LimitPc.expireIp hourly ipCount
        else afterCounts hourly ipCount).phoneOk = true → hourly ≤ OTP_MAX_PER_HOUR) ∧
      ((if ipCount = 1 then LimitPc.expireIp hourly ipCount
        else afterCounts hourly ipCount).ipOk = true → ipCount ≤ OTP_MAX_PER_HOUR * 4) := by
  split_ifs
  · exact ⟨of_decide_eq_true, of_decide_eq_true⟩
  · obtain hstop | ⟨-, hhourly, hip⟩ := afterCounts_cases hourly ipCount
    · rw [hstop]
      exact ⟨fun hok => (by cases hok), fun hok => (by cases hok)⟩
    · exact ⟨fun _ => hhourly, fun _ => hip⟩

theorem countsInv_incrIp (h : CountsInv s) (hc : s.calls[i]? = some c) {hourly : ℕ}
    (hpc : c.pc = .incrIp hourly) : CountsInv (limitIncrIp s i c hourly) := by
  constructor
  · intro phone
    refine (h.phone phone).frame rfl le_rfl fun w => ?_
    refine phoneTally_le (limitIncrIp s i c hourly) hc rfl rfl rfl rfl (fun hok => ?_) phone w
    rw [hpc]
    exact decide_eq_true (afterIncrIp_ok.1 hok)
  · refine limited_incr_call h.ip hc fun ip w hok => ?_
    unfold LimitCall.countedIp at hok
    rw [Bool.and_eq_true, Bool.and_eq_true] at hok
    exact ⟨(of_decide_eq_true hok.1.1).symm, (of_decide_eq_true hok.1.2).symm,
      afterIncrIp_ok.2 hok.2⟩

theorem countsInv_expireIp (h : CountsInv s) (hc : s.calls[i]? = some c) {hourly ipCount : ℕ}
    (hpc : c.pc = .expireIp hourly ipCount) :
    CountsInv (limitExpireIp s i c hourly ipCount) := by
  have hafter : (afterCounts hourly ipCount).phoneOk = true ∨
      (afterCounts hourly ipCount).ipOk = true →
        hourly ≤ OTP_MAX_PER_HOUR ∧ ipCount ≤ OTP_MAX_PER_HOUR * 4 := by
    obtain hstop | ⟨-, hle⟩ := afterCounts_cases hourly ipCount
    · rw [hstop]
      rintro (hok | hok) <;> cases hok
    · exact fun _ => hle
  constructor
  · intro phone
    refine (h.phone phone).frame rfl le_rfl fun w => ?_
    refine phoneTally_le (limitExpireIp s i c hourly ipCount) hc rfl rfl rfl rfl
      (fun hok => ?_) phone w
    rw [hpc]
    exact decide_eq_true (hafter (.inl hok)).1
  · intro ip
    refine (h.ip ip).expire _ _ fun w => ?_
    refine ipTally_le (limitExpireIp s i c hourly ipCount) hc rfl rfl rfl rfl (fun hok => ?_) ip w
    rw [hpc]
    exact decide_eq_true (hafter (.inr hok)).2

/-- A call that was counted moves on to the passes. -/
theorem countP_pass_le {calls : List LimitCall} {passes : List Pass} {p : Pass → Bool}
    {q : LimitCall → Bool} {c' : LimitCall} {pass : Pass} (hc : calls[i]? = some c)
    (hsame : p pass = q c) (hdone : q c' = false) :
    (pass :: passes).countP p + (calls.set i c').countP q ≤
      passes.countP p + calls.countP q := by
  have hset := countP_set_add q hc c'
  rw [hdone] at hset
  rw [List.countP_cons, hsame]
  simp only [Bool.false_eq_true, if_false] at hset
  omega

theorem countsInv_set (h : CountsInv s) (hc : s.calls[i]? = some c) (hpc : c.pc = .setCooldown) :
    CountsInv (limitSet s i c) := by
  refine h.frame le_rfl rfl rfl rfl rfl (fun phone w => ?_) fun ip w => ?_
  · refine countP_pass_le hc ?_ (Bool.and_false _)
    simp [LimitCall.countedPhone, hpc, LimitPc.phoneOk]
  · refine countP_pass_le hc ?_ (Bool.and_false _)
    simp [LimitCall.countedIp, hpc, LimitPc.ipOk]

theorem countsInv_command (h : CountsInv s) (hc : s.calls[i]? = some c)
    (hs : limitCommand s i c = some s') : CountsInv s' := by
  unfold limitCommand at hs
  split at hs
  · obtain rfl := Option.some.inj hs
    refine h.goto hc ?_ ?_
    · split_ifs <;> rfl
    · split_ifs <;> rfl
  · obtain rfl := Option.some.inj hs
    exact h.goto hc rfl rfl
  · obtain rfl := Option.some.inj hs
    exact countsInv_incrHourly h hc
  · next hpc =>
    obtain rfl := Option.some.inj hs
    exact countsInv_expireHourly h hc hpc
  · next hpc =>
    obtain rfl := Option.some.inj hs
    exact countsInv_incrIp h hc hpc
  · next hpc =>
    obtain rfl := Option.some.inj hs
    exact countsInv_expireIp h hc hpc
  · next hpc =>
    obtain rfl := Option.some.inj hs
    exact countsInv_set h hc hpc
  · cases hs

theorem countsInv_step (s : LimitState) (a : LimitAction) (s' : LimitState) (h : CountsInv s)
    (hs : limitStep s a = some s') : CountsInv s' := by
  cases a with
  | request phone ip =>
    obtain rfl := Option.some.inj hs
    refine h.frame le_rfl rfl rfl rfl rfl (fun phone' w => ?_) fun ip' w => ?_
    · unfold LimitState.phoneTally
      rw [List.countP_append]
      simp [LimitCall.countedPhone, LimitPc.phoneOk, LimitState.phonePasses]
    · unfold LimitState.ipTally
      rw [List.countP_append]
      simp [LimitCall.countedIp, LimitPc.ipOk, LimitState.ipPasses]
  | command i =>
    obtain ⟨c, hc, hs⟩ := Option.bind_eq_some_iff.mp hs
    exact countsInv_command h hc hs
  | tick d =>
    obtain rfl := Option.some.inj hs
    exact h.frame (by simp) rfl rfl rfl rfl (fun _ _ => le_rfl) fun _ _ => le_rfl

/-- The counters hold their limits in every run. -/
theorem limit_counts (now : Time) (as : List LimitAction) (s' : LimitState)
    (hr : run limitStep (LimitState.init now) as = some s') : CountsLimited s' := by
  have hinv : CountsInv s' := run_invariant countsInv_step (countsInv_init now) hr
  exact ⟨fun phone w => (Nat.le_add_right _ _).trans ((hinv.phone phone).admitted w),
    fun ip w => (Nat.le_add_right _ _).trans ((hinv.ip ip).admitted w)⟩

/-! ## The cool-down -/

/-- What holds of the flags in every run without overlap. -/
structure CooldownInv (s : LimitState) : Prop where
  /-- One call per phone number at most is on its way to set the flag. -/
  once : ∀ phone, s.mayPass phone ≤ 1
  /-- The flag lives as long as the cool-down of a call that has passed. -/
  flag : ∀ p ∈ s.passes, ∀ t, s.now ≤ t → t < p.time + seconds OTP_COOLDOWN_SECONDS →
    (s.keys.cooldown.lookup t p.phone).isSome
  /-- While a call is on its way, no cool-down of its phone number is running. -/
  clear : ∀ phone, 0 < s.mayPass phone → ∀ p ∈ s.passes, p.phone = phone →
    p.time + seconds OTP_COOLDOWN_SECONDS ≤ s.now
  spaced : s.passes.Pairwise fun new old => new.phone = old.phone →
    old.time + seconds OTP_COOLDOWN_SECONDS ≤ new.time

theorem cooldownInv_init (now : Time) : CooldownInv (LimitState.init now) :=
  ⟨fun _ => Nat.zero_le 1, fun _ hp => absurd hp List.not_mem_nil,
    fun _ _ _ hp => absurd hp List.not_mem_nil, .nil⟩

/-- No other call sets out to set a flag. -/
theorem CooldownInv.frame (h : CooldownInv s) (hnow : s.now ≤ s'.now)
    (hcooldown : s'.keys.cooldown = s.keys.cooldown) (hpasses : s'.passes = s.passes)
    (hmay : ∀ phone, s'.mayPass phone ≤ s.mayPass phone) : CooldownInv s' := by
  constructor
  · exact fun phone => (hmay phone).trans (h.once phone)
  · intro p hp t ht
    rw [hcooldown]
    exact h.flag p (hpasses ▸ hp) t (hnow.trans ht)
  · intro phone hpos p hp hphone
    have hbefore := h.clear phone (lt_of_lt_of_le hpos (hmay phone)) p (hpasses ▸ hp) hphone
    exact hbefore.trans hnow
  · rw [hpasses]
    exact h.spaced

/-- A call that may pass after its command could pass before it. -/
theorem mayPass_le (s' : LimitState) {c' : LimitCall} (hc : s.calls[i]? = some c)
    (hcalls : s'.calls = s.calls.set i c') (hphone : c'.phone = c.phone)
    (hle : c'.pc.mayPass = true → c.pc.mayPass = true) (phone : String) :
    s'.mayPass phone ≤ s.mayPass phone := by
  unfold LimitState.mayPass
  rw [hcalls]
  refine countP_set_le hc fun hmay => ?_
  unfold LimitCall.mayPass at hmay ⊢
  rw [hphone, Bool.and_eq_true] at hmay
  rw [Bool.and_eq_true]
  exact ⟨hmay.1, hle hmay.2⟩

theorem mayPass_done (c : LimitCall) (phone : String) (result : Except HttpError ℕ) :
    (c.goto (.done result)).mayPass phone = false := Bool.and_false _

theorem cooldownInv_exists (h : CooldownInv s) (hg : NoOverlap s (.command i))
    (hc : s.calls[i]? = some c) (hpc : c.pc = .exists) : CooldownInv (limitExists s i c) := by
  cases hl : s.keys.cooldown.lookup s.now c.phone with
  | some e =>
    refine h.frame le_rfl rfl rfl (mayPass_le _ hc rfl rfl fun hmay => ?_)
    rw [hl] at hmay
    cases hmay
  | none =>
    have hzero : s.mayPass c.phone = 0 := hg c hc hpc (by rw [hl]; rfl)
    have hmay : ∀ phone, (limitExists s i c).mayPass phone ≤
        s.mayPass phone + if phone = c.phone then 1 else 0 := by
      intro phone
      refine countP_set_le_add hc fun hnew => ?_
      exact (of_decide_eq_true (Bool.and_eq_true_iff.mp hnew).1).symm
    constructor
    · intro phone
      have hle := hmay phone
      split_ifs at hle with hphone
      · rw [hphone, hzero] at hle
        rw [hphone]
        exact hle
      · exact hle.trans (h.once phone)
    · exact h.flag
    · intro phone hpos p hp hphone
      by_cases hsame : phone = c.phone
      · -- the flag of a running cool-down would have been found
        by_contra hrunning
        have hsome := h.flag p hp s.now le_rfl (not_le.mp hrunning)
        rw [hphone, hsame, hl] at hsome
        cases hsome
      · have hle := hmay phone
        rw [if_neg hsame] at hle
        exact h.clear phone (lt_of_lt_of_le hpos hle) p hp hphone
    · exact h.spaced

theorem cooldownInv_set (h : CooldownInv s) (hc : s.calls[i]? = some c)
    (hpc : c.pc = .setCooldown) : CooldownInv (limitSet s i c) := by
  have hmay : ∀ phone, (limitSet s i c).mayPass phone ≤ s.mayPass phone :=
    mayPass_le _ hc rfl rfl fun hnew => by cases hnew
  have hself : c.mayPass c.phone = true := by
    unfold LimitCall.mayPass
    rw [hpc]
    exact Bool.and_eq_true_iff.mpr ⟨decide_eq_true rfl, rfl⟩
  have hpos : 0 < s.mayPass c.phone :=
    List.countP_pos_iff.mpr ⟨c, List.mem_of_getElem? hc, hself⟩
  have hclear := h.clear c.phone hpos
  have hset : ∀ phone, phone ≠ c.phone →
      (limitSet s i c).keys.cooldown phone = s.keys.cooldown phone := fun phone hne =>
    TtlMap.set_of_ne hne ..
  constructor
  · exact fun phone => (hmay phone).trans (h.once phone)
  · intro p hp t ht hlt
    by_cases hphone : p.phone = c.phone
    · -- every pass of the phone number is over, but for the one at this moment
      have htime : p.time ≤ s.now := by
        obtain rfl | hp := List.mem_cons.mp hp
        · exact le_rfl
        · have := hclear p hp hphone
          unfold seconds OTP_COOLDOWN_SECONDS at this
          have hcast : ((60 : ℕ) : ℤ) = 60 := rfl
          rw [hcast] at this
          exact le_trans (by linarith) this
      have hnew : (limitSet s i c).keys.cooldown p.phone =
          some ⟨(), some (s.deadline OTP_COOLDOWN_SECONDS)⟩ := by
        rw [hphone]
        exact TtlMap.set_self ..
      have hlive : (⟨(), some (s.deadline OTP_COOLDOWN_SECONDS)⟩ : Entry Time Unit).Live t :=
        (Entry.live_of_deadline rfl).mpr (lt_of_lt_of_le hlt (by
          unfold LimitState.deadline
          gcongr))
      rw [TtlMap.lookup_of_live hnew hlive]
      rfl
    · have hp : p ∈ s.passes := by
        obtain rfl | hp := List.mem_cons.mp hp
        · exact absurd rfl hphone
        · exact hp
      have hold := h.flag p hp t ht hlt
      unfold TtlMap.lookup at hold ⊢
      rw [hset p.phone hphone]
      exact hold
  · intro phone hpos' p hp hphone
    have hset' := countP_set_add (LimitCall.mayPass phone) hc
      (c.goto (.done (.ok OTP_COOLDOWN_SECONDS)))
    rw [mayPass_done] at hset'
    have hne : phone ≠ c.phone := by
      rintro rfl
      have honce := h.once c.phone
      change 0 < (s.calls.set i _).countP _ at hpos'
      rw [hself] at hset'
      simp only [if_true, Bool.false_eq_true, if_false] at hset'
      unfold LimitState.mayPass at honce
      omega
    obtain rfl | hp := List.mem_cons.mp hp
    · exact absurd hphone.symm hne
    · exact h.clear phone (lt_of_lt_of_le hpos' (hmay phone)) p hp hphone
  · refine List.pairwise_cons.mpr ⟨fun old hold hphone => ?_, h.spaced⟩
    exact hclear old hold hphone.symm

/-- A call that goes on after the second counter was not stopped by the first. -/
theorem mayPass_afterIncrIp {hourly ipCount : ℕ} :
    (if ipCount = 1 then LimitPc.expireIp hourly ipCount
      else afterCounts hourly ipCount).mayPass = true → hourly ≤ OTP_MAX_PER_HOUR := by
  split_ifs
  · exact fun hok => of_decide_eq_true (Bool.and_eq_true_iff.mp hok).1
  · obtain hstop | ⟨-, hhourly, -⟩ := afterCounts_cases hourly ipCount
    · rw [hstop]
      exact fun hok => (by cases hok)
    · exact fun _ => hhourly

theorem cooldownInv_command (h : CooldownInv s) (hg : NoOverlap s (.command i))
    (hc : s.calls[i]? = some c) (hs : limitCommand s i c = some s') : CooldownInv s' := by
  unfold limitCommand at hs
  split at hs
  · next hpc =>
    obtain rfl := Option.some.inj hs
    exact cooldownInv_exists h hg hc hpc
  · obtain rfl := Option.some.inj hs
    exact h.frame le_rfl rfl rfl (mayPass_le (limitTtl s i c) hc rfl rfl fun hok => by cases hok)
  · next hpc =>
    obtain rfl := Option.some.inj hs
    refine h.frame le_rfl rfl rfl (mayPass_le (limitIncrHourly s i c) hc rfl rfl fun _ => ?_)
    rw [hpc]
    rfl
  · next hpc =>
    obtain rfl := Option.some.inj hs
    refine h.frame le_rfl rfl rfl (mayPass_le (limitExpireHourly s i c _) hc rfl rfl ?_)
    rw [hpc]
    exact id
  · next hpc =>
    obtain rfl := Option.some.inj hs
    refine h.frame le_rfl rfl rfl (mayPass_le (limitIncrIp s i c _) hc rfl rfl fun hok => ?_)
    rw [hpc]
    exact decide_eq_true (mayPass_afterIncrIp hok)
  · next hourly ipCount hpc =>
    obtain rfl := Option.some.inj hs
    refine h.frame le_rfl rfl rfl
      (mayPass_le (limitExpireIp s i c hourly ipCount) hc rfl rfl fun hok => ?_)
    change (afterCounts hourly ipCount).mayPass = true at hok
    obtain hstop | ⟨-, hhourly, hip⟩ := afterCounts_cases hourly ipCount
    · rw [hstop] at hok
      cases hok
    · rw [hpc]
      exact Bool.and_eq_true_iff.mpr ⟨decide_eq_true hhourly, decide_eq_true hip⟩
  · next hpc =>
    obtain rfl := Option.some.inj hs
    exact cooldownInv_set h hc hpc
  · cases hs

theorem cooldownInv_step (s : LimitState) (a : LimitAction) (s' : LimitState)
    (h : CooldownInv s) (hg : NoOverlap s a) (hs : limitStep s a = some s') :
    CooldownInv s' := by
  cases a with
  | request phone ip =>
    obtain rfl := Option.some.inj hs
    refine h.frame le_rfl rfl rfl fun phone' => ?_
    unfold LimitState.mayPass
    rw [List.countP_append]
    simp [LimitCall.mayPass, LimitPc.mayPass]
  | command i =>
    obtain ⟨c, hc, hs⟩ := Option.bind_eq_some_iff.mp hs
    exact cooldownInv_command h hg hc hs
  | tick d =>
    obtain rfl := Option.some.inj hs
    exact h.frame (by simp) rfl rfl fun _ => le_rfl

/-- Passes that are a cool-down apart are not in one cool-down. -/
theorem CooldownInv.holds (h : CooldownInv s) : CooldownHolds s := by
  intro phone t
  refine countP_le_one_of_pairwise h.spaced fun new old hfar hnew => ?_
  obtain ⟨rfl, -, hnew⟩ := of_decide_eq_true hnew
  refine decide_eq_false fun hold => ?_
  obtain ⟨hphone, hold, -⟩ := hold
  have := hfar hphone.symm
  exact absurd (lt_of_lt_of_le hnew ((add_le_add_left hold _).trans this)) (lt_irrefl _)

/-- **The limits.** In a run in which no `EXISTS` finds the flag missing while another
    call for the phone number may still pass, at most one call per phone number passes
    within any `_OTP_COOLDOWN_SECONDS`, and within a window of the counters no more than
    `_OTP_MAX_PER_HOUR` calls per phone number and four times that per address. -/
theorem limits_of_noOverlap (now : Time) (as : List LimitAction) (s' : LimitState)
    (hg : Guarded limitStep NoOverlap (LimitState.init now) as)
    (hr : run limitStep (LimitState.init now) as = some s') :
    CooldownHolds s' ∧ CountsLimited s' :=
  ⟨(hg.invariant cooldownInv_step (cooldownInv_init now) hr).holds, limit_counts now as s' hr⟩

/-- Two phone numbers at once, and the second one again after its cool-down. -/
theorem limits_twoPhones :
    ∃ s', run limitStep (LimitState.init 0)
        [.request "+201000000007" "10.0.0.1", .request "+201000000009" "10.0.0.1", .command 0,
          .command 1, .command 0, .command 0, .command 1, .command 1, .command 0, .command 0,
          .command 1, .command 0, .command 1, .tick 60000000,
          .request "+201000000009" "10.0.0.1", .command 2, .command 2, .command 2,
          .command 2] = some s' ∧
      s'.passes.length = 3 ∧ CooldownHolds s' ∧ CountsLimited s' := by
  have hrun : (run limitStep (LimitState.init 0)
      [.request "+201000000007" "10.0.0.1", .request "+201000000009" "10.0.0.1", .command 0,
        .command 1, .command 0, .command 0, .command 1, .command 1, .command 0, .command 0,
        .command 1, .command 0, .command 1, .tick 60000000,
        .request "+201000000009" "10.0.0.1", .command 2, .command 2, .command 2,
        .command 2]).map (·.passes.length) = some 3 := by
    decide +kernel
  obtain ⟨s', hs', hthree⟩ := Option.map_eq_some_iff.mp hrun
  exact ⟨s', hs', hthree, limits_of_noOverlap 0 _ s' (by decide +kernel) hs'⟩

/-! ## A call alone among the calls -/

section Alone

variable {n : ℕ}

theorem limitStep_command (hc : s.calls[n]? = some c) :
    limitStep s (.command n) = limitCommand s n c := by
  show s.calls[n]?.bind _ = _
  rw [hc, Option.bind_some]

/-- The `INCR` of the phone number, and the `EXPIRE` of the first request. -/
theorem drives_countHourly (hc : s.calls[n]? = some c) (hpc : c.pc = .incrHourly) :
    ∃ m c', Drives limitStep (.command n) s m ∧ m.calls[n]? = some c' ∧ c'.phone = c.phone ∧
      c'.ip = c.ip ∧ c'.pc = .incrIp (s.keys.hourly.incrValue s.now c.phone) ∧ m.now = s.now ∧
      m.keys = { s.keys with hourly := countRequest s.keys.hourly s.now c.phone } := by
  have hincr : limitStep s (.command n) = some (limitIncrHourly s n c) := by
    rw [limitStep_command hc]
    unfold limitCommand
    rw [hpc]
  have hnext : ∃ c', (limitIncrHourly s n c).calls[n]? = some c' ∧ c'.phone = c.phone ∧
      c'.ip = c.ip ∧ c'.pc = if s.keys.hourly.incrValue s.now c.phone = 1 then
        .expireHourly (s.keys.hourly.incrValue s.now c.phone)
        else .incrIp (s.keys.hourly.incrValue s.now c.phone) :=
    ⟨_, getElem?_set_here hc _, rfl, rfl, rfl⟩
  obtain ⟨c', hc', hphone, hip, hpc'⟩ := hnext
  unfold countRequest
  by_cases hone : s.keys.hourly.incrValue s.now c.phone = 1
  · rw [if_pos hone] at hpc'
    have hexpire : limitStep (limitIncrHourly s n c) (.command n) =
        some (limitExpireHourly (limitIncrHourly s n c) n c'
          (s.keys.hourly.incrValue s.now c.phone)) := by
      rw [limitStep_command hc']
      unfold limitCommand
      rw [hpc']
    refine ⟨_, _, .head hincr (.head hexpire (.refl _ _ _)), getElem?_set_here hc' _, hphone, hip,
      rfl, rfl, ?_⟩
    dsimp only
    rw [if_pos hone]
    unfold limitExpireHourly
    rw [hphone]
    rfl
  · rw [if_neg hone] at hpc'
    refine ⟨_, c', .head hincr (.refl _ _ _), hc', hphone, hip, hpc', rfl, ?_⟩
    dsimp only
    rw [if_neg hone]
    rfl

/-- The `INCR` of the address, and the `EXPIRE` of its first request. -/
theorem drives_countIp (hc : s.calls[n]? = some c) {hourly : ℕ} (hpc : c.pc = .incrIp hourly) :
    ∃ m c', Drives limitStep (.command n) s m ∧ m.calls[n]? = some c' ∧ c'.phone = c.phone ∧
      c'.pc = afterCounts hourly (s.keys.ip.incrValue s.now c.ip) ∧ m.now = s.now ∧
      m.keys = { s.keys with ip := countRequest s.keys.ip s.now c.ip } := by
  have hincr : limitStep s (.command n) = some (limitIncrIp s n c hourly) := by
    rw [limitStep_command hc]
    unfold limitCommand
    rw [hpc]
  have hnext : ∃ c', (limitIncrIp s n c hourly).calls[n]? = some c' ∧ c'.phone = c.phone ∧
      c'.ip = c.ip ∧ c'.pc = if s.keys.ip.incrValue s.now c.ip = 1 then
        .expireIp hourly (s.keys.ip.incrValue s.now c.ip)
        else afterCounts hourly (s.keys.ip.incrValue s.now c.ip) :=
    ⟨_, getElem?_set_here hc _, rfl, rfl, rfl⟩
  obtain ⟨c', hc', hphone, hip, hpc'⟩ := hnext
  unfold countRequest
  by_cases hone : s.keys.ip.incrValue s.now c.ip = 1
  · rw [if_pos hone] at hpc'
    have hexpire : limitStep (limitIncrIp s n c hourly) (.command n) =
        some (limitExpireIp (limitIncrIp s n c hourly) n c' hourly
          (s.keys.ip.incrValue s.now c.ip)) := by
      rw [limitStep_command hc']
      unfold limitCommand
      rw [hpc']
    refine ⟨_, _, .head hincr (.head hexpire (.refl _ _ _)), getElem?_set_here hc' _, hphone, rfl,
      rfl, ?_⟩
    dsimp only
    rw [if_pos hone]
    unfold limitExpireIp
    rw [hip]
    rfl
  · rw [if_neg hone] at hpc'
    refine ⟨_, c', .head hincr (.refl _ _ _), hc', hphone, hpc', rfl, ?_⟩
    dsimp only
    rw [if_neg hone]
    rfl

/-- A call whose commands run without any other step in between returns what
    `rateLimitOtp` computes, and leaves the keys as it does. -/
theorem rateLimitOtp_alone (s : LimitState) (phone ip : String) :
    ∃ m s' c, limitStep s (.request phone ip) = some m ∧
      Drives limitStep (.command s.calls.length) m s' ∧ s'.calls[s.calls.length]? = some c ∧
      s'.keys = (rateLimitOtp s.keys s.now phone ip).1 ∧
      c.pc = .done (rateLimitOtp s.keys s.now phone ip).2 := by
  let m : LimitState := { s with calls := s.calls ++ [⟨phone, ip, 0, 0, .exists⟩] }
  have hcall : m.calls[s.calls.length]? = some ⟨phone, ip, 0, 0, .exists⟩ :=
    List.getElem?_concat_length
  have hexists : limitStep m (.command s.calls.length) =
      some (limitExists m s.calls.length ⟨phone, ip, 0, 0, .exists⟩) := limitStep_command hcall
  unfold rateLimitOtp
  by_cases hflag : (s.keys.cooldown.lookup s.now phone).isSome = true
  · rw [if_pos hflag]
    have hnext : (limitExists m s.calls.length ⟨phone, ip, 0, 0, .exists⟩).calls[s.calls.length]? =
        some ⟨phone, ip, 0, 0, .ttl⟩ :=
      (getElem?_set_here hcall _).trans (congrArg some
        (congrArg (LimitCall.goto _) (if_pos hflag)))
    refine ⟨m, _, _, rfl, .head hexists (.head (limitStep_command hnext) (.refl _ _ _)),
      getElem?_set_here hnext _, rfl, rfl⟩
  · rw [if_neg hflag]
    have hnext : (limitExists m s.calls.length ⟨phone, ip, 0, 0, .exists⟩).calls[s.calls.length]? =
        some ⟨phone, ip, 0, 0, .incrHourly⟩ :=
      (getElem?_set_here hcall _).trans (congrArg some
        (congrArg (LimitCall.goto _) (if_neg hflag)))
    obtain ⟨m₁, c₁, hdrives₁, hc₁, hphone₁, hip₁, hpc₁, hnow₁, hkeys₁⟩ :=
      drives_countHourly hnext rfl
    obtain ⟨m₂, c₂, hdrives₂, hc₂, hphone₂, hpc₂, hnow₂, hkeys₂⟩ := drives_countIp hc₁ hpc₁
    have hdrives : Drives limitStep (.command s.calls.length) m m₂ :=
      .head hexists (hdrives₁.trans hdrives₂)
    change m₁.now = s.now at hnow₁
    change m₁.keys = { s.keys with hourly := countRequest s.keys.hourly s.now phone } at hkeys₁
    change c₁.ip = ip at hip₁
    rw [hnow₁, hkeys₁, hip₁] at hpc₂ hkeys₂
    dsimp only
    by_cases hstop : s.keys.hourly.incrValue s.now phone > OTP_MAX_PER_HOUR ∨
        s.keys.ip.incrValue s.now ip > OTP_MAX_PER_HOUR * 4
    · rw [if_pos hstop]
      refine ⟨m, m₂, c₂, rfl, hdrives, hc₂, hkeys₂, ?_⟩
      rw [hpc₂]
      exact if_pos hstop
    · rw [if_neg hstop]
      have hpass : c₂.pc = .setCooldown := hpc₂.trans (if_neg hstop)
      have hset : limitStep m₂ (.command s.calls.length) =
          some (limitSet m₂ s.calls.length c₂) := by
        rw [limitStep_command hc₂]
        unfold limitCommand
        rw [hpass]
      refine ⟨m, _, _, rfl, hdrives.trans (.head hset (.refl _ _ _)), getElem?_set_here hc₂ _, ?_,
        rfl⟩
      unfold limitSet LimitState.deadline
      rw [hkeys₂, hnow₂, hnow₁, hphone₂, hphone₁]

end Alone

end IronLink.Auth
