import Mathlib
import IronLink.Auth.Otp

/-!
# The life of a one-time password

`OtpService` (app/services/otp_service.py) when no two calls overlap: `issue` and
`verify` as functions on Redis, and what a code is good for as a statement about
the history of the calls. Redis keeps two keys per user, whose expiries start at
different moments; the history knows nothing of them.

Results:
* `verify_alone`, `after_alone`: calls whose commands (`verifyCommand`) run
  without another command in between do to Redis what `OtpService` computes.
* `verify_true_iff`: in every run, `verify` answers `True` exactly when the
  history says that the submitted code is good.
-/

namespace IronLink.Auth

open Lib

/-! ## Model -/

/-- `constant_time_compare` (app/core/security.py:114-115). -/
def constantTimeCompare (a b : String) : Bool := a.toUTF8 = b.toUTF8

/-- The keys of `OtpService` in Redis. -/
structure OtpStore where
  /-- `otp:{user_id}` -/
  code : TtlMap Time UUID String
  /-- `otp:attempts:{user_id}` -/
  attempts : TtlMap Time UUID ℕ

def OtpStore.empty : OtpStore := ⟨fun _ => none, fun _ => none⟩

/-- The keys, without the number of the `issue` call that the concurrent model keeps. -/
def OtpState.keys (s : OtpState) : OtpStore :=
  ⟨fun u => (s.code u).map fun e => ⟨e.val.code, e.deadline⟩, s.attempts⟩

namespace OtpService

/-- `issue(user_id)` (app/services/otp_service.py:33-40); `code` is what
    `generate_otp()` returned. -/
def issue (settings : OtpSettings) (store : OtpStore) (now : Time) (user : UUID) (code : String) :
    OtpStore :=
  { code := store.code.set user code (some (now + seconds settings.OTP_TTL_SECONDS))
    attempts := store.attempts.del user }

/-- The counter after the `INCR` and, on the first attempt, the `EXPIRE`. -/
def countAttempt (settings : OtpSettings) (store : OtpStore) (now : Time) (user : UUID) :
    TtlMap Time UUID ℕ :=
  let attempts := store.attempts.incr now user
  if store.attempts.incrValue now user = 1 then
    attempts.expire now user (now + seconds settings.OTP_TTL_SECONDS)
  else attempts

/-- `verify(user_id, submitted)` (app/services/otp_service.py:42-64). -/
def verify (settings : OtpSettings) (store : OtpStore) (now : Time) (user : UUID)
    (submitted : String) : OtpStore × Bool :=
  let attempts := countAttempt settings store now user
  if store.attempts.incrValue now user > settings.OTP_MAX_ATTEMPTS then
    (⟨store.code.del user, attempts⟩, false)
  else
    match store.code.get now user with
    | none => (⟨store.code, attempts⟩, false)
    | some stored =>
      if constantTimeCompare stored submitted then
        (⟨store.code.del user, attempts.del user⟩, true)
      else (⟨store.code, attempts⟩, false)

end OtpService

/-- What a call did, and when. -/
inductive OtpRecord
  | issued (time : Time) (user : UUID) (code : String)
  | verified (time : Time) (user : UUID) (submitted : String) (result : Bool)
  deriving DecidableEq

/-- Redis, the clock, and the calls so far, the latest first. -/
structure OtpRun where
  store : OtpStore
  now : Time
  history : List OtpRecord

/-- A call that comes `wait` after the one before. -/
inductive OtpCall
  | issue (wait : ℕ) (user : UUID) (code : String)
  | verify (wait : ℕ) (user : UUID) (submitted : String)

def OtpRun.serve (settings : OtpSettings) (r : OtpRun) : OtpCall → OtpRun
  | .issue wait user code =>
    { store := OtpService.issue settings r.store (r.now + wait) user code
      now := r.now + wait
      history := .issued (r.now + wait) user code :: r.history }
  | .verify wait user submitted =>
    let answer := OtpService.verify settings r.store (r.now + wait) user submitted
    { store := answer.1
      now := r.now + wait
      history := .verified (r.now + wait) user submitted answer.2 :: r.history }

/-- The calls in turn, from an empty Redis at time `now`. -/
def OtpRun.after (settings : OtpSettings) (now : Time) (calls : List OtpCall) : OtpRun :=
  calls.foldl (OtpRun.serve settings) ⟨.empty, now, []⟩

/-! ## What a code is good for -/

/-- The time and the code of an `issue` for `u`. -/
def OtpRecord.issueOf (u : UUID) : OtpRecord → Option (Time × String)
  | .issued time user code => if user = u then some (time, code) else none
  | .verified .. => none

/-- It is a `verify` for `u`. -/
def OtpRecord.isVerify (u : UUID) : OtpRecord → Bool
  | .issued .. => false
  | .verified _ user _ _ => user = u

/-- It is a `verify` for `u` that returned `True`. -/
def OtpRecord.isAccept (u : UUID) : OtpRecord → Bool
  | .issued .. => false
  | .verified _ user _ result => user = u && result

/-- The latest `issue` for `u`. -/
def latestIssue (u : UUID) (history : List OtpRecord) : Option (Time × String) :=
  history.findSome? (OtpRecord.issueOf u)

/-- The calls since the latest `issue` for `u`. -/
def sinceIssue (u : UUID) (history : List OtpRecord) : List OtpRecord :=
  history.takeWhile fun r => (r.issueOf u).isNone

/-- The code that `u` submits at `t` is the latest one issued, not expired and not
    used up. -/
structure GoodCode (settings : OtpSettings) (history : List OtpRecord) (t : Time) (u : UUID)
    (submitted : String) (issuedAt : Time) : Prop where
  latest : latestIssue u history = some (issuedAt, submitted)
  begun : issuedAt ≤ t
  unexpired : t < issuedAt + seconds settings.OTP_TTL_SECONDS
  unused : ∀ r ∈ sinceIssue u history, r.isAccept u = false
  attempts : (sinceIssue u history).countP (OtpRecord.isVerify u) < settings.OTP_MAX_ATTEMPTS

variable {settings : OtpSettings} {store : OtpStore} {now t t₀ : Time} {u user : UUID}
  {history : List OtpRecord} {r : OtpRecord} {submitted code : String}

/-! ## The history, one call longer -/

theorem latestIssue_cons_of_none (h : r.issueOf u = none) :
    latestIssue u (r :: history) = latestIssue u history := by
  unfold latestIssue
  rw [List.findSome?_cons, h]

theorem latestIssue_issued (time : Time) (code : String) :
    latestIssue u (.issued time u code :: history) = some (time, code) := by
  unfold latestIssue
  rw [List.findSome?_cons]
  simp [OtpRecord.issueOf]

theorem sinceIssue_cons_of_none (h : r.issueOf u = none) :
    sinceIssue u (r :: history) = r :: sinceIssue u history := by
  unfold sinceIssue
  rw [List.takeWhile_cons]
  simp [h]

theorem sinceIssue_issued (time : Time) (code : String) :
    sinceIssue u (.issued time u code :: history) = [] := by
  unfold sinceIssue
  rw [List.takeWhile_cons]
  simp [OtpRecord.issueOf]

/-! ## The keys and the history, for one user -/

/-- The attempts for `u` since the latest `issue`. -/
def attemptsSince (u : UUID) (history : List OtpRecord) : ℕ :=
  (sinceIssue u history).countP (OtpRecord.isVerify u)

/-- No attempt for `u` since the latest `issue` was accepted. -/
def Unused (u : UUID) (history : List OtpRecord) : Prop :=
  ∀ r ∈ sinceIssue u history, r.isAccept u = false

/-- The counter has the value `n`, and lives at least until `d`. -/
def Counts (attempts : TtlMap Time UUID ℕ) (u : UUID) (n : ℕ) (d : Time) : Prop :=
  n = 0 ∧ attempts u = none ∨ ∃ d', d ≤ d' ∧ attempts u = some ⟨n, some d'⟩

/-- What the history says about the keys of `u` after an `issue` at `t₀`. -/
structure IssuedInv (settings : OtpSettings) (store : OtpStore) (now : Time) (u : UUID)
    (history : List OtpRecord) (t₀ : Time) (code : String) : Prop where
  begun : t₀ ≤ now
  stored : ∀ e, store.code u = some e → e = ⟨code, some (t₀ + seconds settings.OTP_TTL_SECONDS)⟩
  gone : ¬ Unused u history → store.code u = none
  kept : now < t₀ + seconds settings.OTP_TTL_SECONDS → Unused u history →
    attemptsSince u history ≤ settings.OTP_MAX_ATTEMPTS →
      store.code u = some ⟨code, some (t₀ + seconds settings.OTP_TTL_SECONDS)⟩
  counted : now < t₀ + seconds settings.OTP_TTL_SECONDS → Unused u history →
    Counts store.attempts u (attemptsSince u history) (t₀ + seconds settings.OTP_TTL_SECONDS)

/-- What the history says about the keys of `u`. -/
structure KeysInv (settings : OtpSettings) (store : OtpStore) (now : Time) (u : UUID)
    (history : List OtpRecord) : Prop where
  never : latestIssue u history = none → store.code u = none
  issued : ∀ t₀ code, latestIssue u history = some (t₀, code) →
    IssuedInv settings store now u history t₀ code

theorem KeysInv.wait (h : KeysInv settings store now u history) (hle : now ≤ t) :
    KeysInv settings store t u history := by
  refine ⟨h.never, fun t₀ code hlatest => ?_⟩
  have hi := h.issued t₀ code hlatest
  exact ⟨hi.begun.trans hle, hi.stored, hi.gone, fun ht => hi.kept (lt_of_le_of_lt hle ht),
    fun ht => hi.counted (lt_of_le_of_lt hle ht)⟩

/-- The keys of `u` and the calls for `u` are the same. -/
theorem KeysInv.frame (h : KeysInv settings store now u history) {store' : OtpStore}
    (hcode : store'.code u = store.code u) (hattempts : store'.attempts u = store.attempts u)
    (hissue : r.issueOf u = none) (hverify : r.isVerify u = false)
    (haccept : r.isAccept u = false) :
    KeysInv settings store' now u (r :: history) := by
  have hunused : Unused u (r :: history) ↔ Unused u history := by
    unfold Unused
    rw [sinceIssue_cons_of_none hissue, List.forall_mem_cons]
    exact and_iff_right haccept
  have hcount : attemptsSince u (r :: history) = attemptsSince u history := by
    unfold attemptsSince
    rw [sinceIssue_cons_of_none hissue, List.countP_cons_of_neg (by rw [hverify]; decide)]
  refine ⟨fun hnone => ?_, fun t₀ code hlatest => ?_⟩
  · rw [hcode]
    exact h.never ((latestIssue_cons_of_none hissue).symm.trans hnone)
  · have hi := h.issued t₀ code ((latestIssue_cons_of_none hissue).symm.trans hlatest)
    constructor
    · exact hi.begun
    · rw [hcode]
      exact hi.stored
    · rw [hunused, hcode]
      exact hi.gone
    · rw [hunused, hcount, hcode]
      exact hi.kept
    · intro ht hu
      have hold := hi.counted ht (hunused.mp hu)
      unfold Counts at hold ⊢
      rw [hattempts, hcount]
      exact hold

/-! ## `issue` -/

theorem keysInv_issue (settings : OtpSettings) (store : OtpStore) (now : Time) (u : UUID)
    (code : String) (history : List OtpRecord) :
    KeysInv settings (OtpService.issue settings store now u code) now u
      (.issued now u code :: history) := by
  have hcode : (OtpService.issue settings store now u code).code u =
      some ⟨code, some (now + seconds settings.OTP_TTL_SECONDS)⟩ := TtlMap.set_self ..
  have hattempts : (OtpService.issue settings store now u code).attempts u = none :=
    TtlMap.del_self ..
  have hunused : Unused u (.issued now u code :: history) := by
    unfold Unused
    rw [sinceIssue_issued]
    exact fun r hr => absurd hr List.not_mem_nil
  have hcount : attemptsSince u (.issued now u code :: history) = 0 := by
    unfold attemptsSince
    rw [sinceIssue_issued]
    rfl
  refine ⟨fun hnone => ?_, fun t₀ code' hlatest => ?_⟩
  · rw [latestIssue_issued] at hnone
    cases hnone
  · rw [latestIssue_issued] at hlatest
    obtain ⟨rfl, rfl⟩ := Prod.mk.inj (Option.some.inj hlatest)
    refine ⟨le_rfl, fun e he => ?_, fun hn => absurd hunused hn, fun _ _ _ => hcode,
      fun _ _ => .inl ⟨hcount, hattempts⟩⟩
    rw [hcode] at he
    exact (Option.some.inj he).symm

/-! ## `verify` -/

theorem constantTimeCompare_iff {a b : String} : constantTimeCompare a b = true ↔ a = b := by
  unfold constantTimeCompare
  rw [decide_eq_true_eq, String.toUTF8_eq_toByteArray, String.toUTF8_eq_toByteArray,
    String.toByteArray_inj]

theorem countAttempt_of_ne (h : u ≠ user) :
    OtpService.countAttempt settings store now user u = store.attempts u := by
  unfold OtpService.countAttempt
  split_ifs
  · exact (TtlMap.expire_of_ne h ..).trans (TtlMap.incr_of_ne h _)
  · exact TtlMap.incr_of_ne h _

/-- The counter that lives returns its successor. -/
theorem Counts.incrValue {attempts : TtlMap Time UUID ℕ} {n : ℕ} {d : Time}
    (h : Counts attempts u n d) (hd : now < d) : attempts.incrValue now u = n + 1 := by
  unfold TtlMap.incrValue TtlMap.get
  obtain ⟨rfl, hnone⟩ | ⟨d', hle, hsome⟩ := h
  · rw [TtlMap.lookup_of_none hnone]
    rfl
  · have hlive : (⟨n, some d'⟩ : Entry Time ℕ).Live now :=
      (Entry.live_of_deadline rfl).mpr (lt_of_lt_of_le hd hle)
    rw [TtlMap.lookup_of_live hsome hlive]
    rfl

/-- An attempt raises the counter by one; the first one starts its expiry, which ends
    after that of the code. -/
theorem Counts.countAttempt {n : ℕ} (h : Counts store.attempts u n t) (ht : now < t)
    (hle : t ≤ now + seconds settings.OTP_TTL_SECONDS) :
    Counts (OtpService.countAttempt settings store now u) u (n + 1) t := by
  have hvalue := h.incrValue ht
  have hself := TtlMap.incr_self store.attempts now u
  unfold OtpService.countAttempt
  rw [hvalue] at hself ⊢
  obtain ⟨rfl, hnone⟩ | ⟨d, hd, hsome⟩ := h
  · rw [TtlMap.lookup_of_none hnone] at hself
    have hlive : (⟨0 + 1, none⟩ : Entry Time ℕ).Live now := Entry.live_of_no_deadline rfl
    refine .inr ⟨_, hle, ?_⟩
    rw [if_pos rfl, TtlMap.expire_self, TtlMap.lookup_of_live hself hlive]
  · have hlive : (⟨n, some d⟩ : Entry Time ℕ).Live now :=
      (Entry.live_of_deadline rfl).mpr (lt_of_lt_of_le ht hd)
    rw [TtlMap.lookup_of_live hsome hlive] at hself
    split_ifs
    · have hlive' : (⟨n + 1, some d⟩ : Entry Time ℕ).Live now :=
        (Entry.live_of_deadline rfl).mpr (lt_of_lt_of_le ht hd)
      refine .inr ⟨_, hle, ?_⟩
      rw [TtlMap.expire_self, TtlMap.lookup_of_live hself hlive']
    · exact .inr ⟨d, hd, hself⟩

/-- `verify` accepts what the keys say is good. -/
theorem verify_eq_true :
    (OtpService.verify settings store now u submitted).2 = true ↔
      store.attempts.incrValue now u ≤ settings.OTP_MAX_ATTEMPTS ∧
        store.code.get now u = some submitted := by
  unfold OtpService.verify
  dsimp only
  by_cases hmax : store.attempts.incrValue now u > settings.OTP_MAX_ATTEMPTS
  · rw [if_pos hmax]
    exact iff_of_false Bool.false_ne_true fun h => absurd hmax (not_lt.mpr h.1)
  · rw [if_neg hmax, and_iff_right (not_lt.mp hmax)]
    cases hget : store.code.get now u with
    | none => exact iff_of_false Bool.false_ne_true fun h => (by cases h)
    | some stored =>
      by_cases hsame : stored = submitted
      · simp [constantTimeCompare_iff, hsame]
      · simp [constantTimeCompare_iff, hsame]

/-- The three ways a `verify` ends: the code is burned, compared in vain, or accepted. -/
inductive Verified (settings : OtpSettings) (store : OtpStore) (now : Time) (u : UUID) :
    OtpStore × Bool → Prop
  | burned (h : settings.OTP_MAX_ATTEMPTS < store.attempts.incrValue now u) :
      Verified settings store now u
        (⟨store.code.del u, OtpService.countAttempt settings store now u⟩, false)
  | refused :
      Verified settings store now u
        (⟨store.code, OtpService.countAttempt settings store now u⟩, false)
  | accepted :
      Verified settings store now u
        (⟨store.code.del u, (OtpService.countAttempt settings store now u).del u⟩, true)

theorem verified_verify (settings : OtpSettings) (store : OtpStore) (now : Time) (u : UUID)
    (submitted : String) :
    Verified settings store now u (OtpService.verify settings store now u submitted) := by
  unfold OtpService.verify
  simp only
  split_ifs with hmax
  · exact .burned hmax
  · cases store.code.get now u with
    | none => exact .refused
    | some stored =>
      dsimp only
      split_ifs
      · exact .accepted
      · exact .refused

/-- A `verify` touches the keys of its own user only. -/
theorem Verified.of_ne {answer : OtpStore × Bool} (hv : Verified settings store now user answer)
    (h : u ≠ user) :
    answer.1.code u = store.code u ∧ answer.1.attempts u = store.attempts u := by
  have hcount : OtpService.countAttempt settings store now user u = store.attempts u :=
    countAttempt_of_ne h
  cases hv with
  | burned => exact ⟨TtlMap.del_of_ne h, hcount⟩
  | refused => exact ⟨rfl, hcount⟩
  | accepted => exact ⟨TtlMap.del_of_ne h, (TtlMap.del_of_ne h).trans hcount⟩

theorem attemptsSince_verified (result : Bool) :
    attemptsSince u (.verified t u submitted result :: history) = attemptsSince u history + 1 := by
  unfold attemptsSince
  rw [sinceIssue_cons_of_none rfl, List.countP_cons_of_pos (by simp [OtpRecord.isVerify])]

theorem unused_verified (result : Bool) :
    Unused u (.verified t u submitted result :: history) ↔ result = false ∧ Unused u history := by
  unfold Unused
  rw [sinceIssue_cons_of_none rfl, List.forall_mem_cons]
  simp [OtpRecord.isAccept]

theorem Verified.keysInv {answer : OtpStore × Bool} (hv : Verified settings store now u answer)
    (h : KeysInv settings store now u history) :
    KeysInv settings answer.1 now u (.verified now u submitted answer.2 :: history) := by
  have hlatest : ∀ result, latestIssue u (.verified now u submitted result :: history) =
      latestIssue u history := fun _ => latestIssue_cons_of_none rfl
  have hnone : store.code.del u u = none := TtlMap.del_self ..
  have hno : ∀ e, store.code.del u u ≠ some e := fun e he => (by cases hnone.symm.trans he)
  have hcount : ∀ {t₀ code}, IssuedInv settings store now u history t₀ code →
      now < t₀ + seconds settings.OTP_TTL_SECONDS → Unused u history →
        Counts (OtpService.countAttempt settings store now u) u (attemptsSince u history + 1)
          (t₀ + seconds settings.OTP_TTL_SECONDS) := fun hi ht hu =>
    (hi.counted ht hu).countAttempt ht (add_le_add_left hi.begun _)
  cases hv with
  | burned hmax =>
    refine ⟨fun _ => hnone, fun t₀ code hissue => ?_⟩
    have hi := h.issued t₀ code ((hlatest false).symm.trans hissue)
    refine ⟨hi.begun, fun e he => absurd he (hno e), fun _ => hnone, fun ht hu hle => ?_,
      fun ht hu => ?_⟩
    · -- the counter has counted the attempts since the code was issued
      rw [unused_verified] at hu
      rw [(hi.counted ht hu.2).incrValue ht] at hmax
      rw [attemptsSince_verified] at hle
      omega
    · rw [attemptsSince_verified]
      exact hcount hi ht ((unused_verified _).mp hu).2
  | refused =>
    refine ⟨fun hno => h.never ((hlatest false).symm.trans hno), fun t₀ code hissue => ?_⟩
    have hi := h.issued t₀ code ((hlatest false).symm.trans hissue)
    refine ⟨hi.begun, hi.stored, fun hu => hi.gone fun hold => ?_, fun ht hu hle => ?_,
      fun ht hu => ?_⟩
    · exact hu ((unused_verified _).mpr ⟨rfl, hold⟩)
    · rw [attemptsSince_verified] at hle
      exact hi.kept ht ((unused_verified _).mp hu).2 (by omega)
    · rw [attemptsSince_verified]
      exact hcount hi ht ((unused_verified _).mp hu).2
  | accepted =>
    have hused : ¬ Unused u (.verified now u submitted true :: history) := fun hu => by
      cases ((unused_verified _).mp hu).1
    refine ⟨fun _ => hnone, fun t₀ code hissue => ?_⟩
    have hi := h.issued t₀ code ((hlatest true).symm.trans hissue)
    exact ⟨hi.begun, fun e he => absurd he (hno e), fun _ => hnone, fun _ hu => absurd hu hused,
      fun _ hu => absurd hu hused⟩

/-! ## Every run -/

theorem keysInv_serve {r : OtpRun} (h : ∀ u, KeysInv settings r.store r.now u r.history)
    (call : OtpCall) (u : UUID) :
    KeysInv settings (r.serve settings call).store (r.serve settings call).now u
      (r.serve settings call).history := by
  cases call with
  | issue wait user code =>
    by_cases hu : u = user
    · subst hu
      exact keysInv_issue ..
    · have hwait : KeysInv settings r.store (r.now + wait) u r.history := (h u).wait (by simp)
      refine hwait.frame (TtlMap.set_of_ne hu ..) (TtlMap.del_of_ne hu) ?_ rfl rfl
      exact if_neg (Ne.symm hu)
  | verify wait user submitted =>
    have hwait : KeysInv settings r.store (r.now + wait) u r.history := (h u).wait (by simp)
    by_cases hu : u = user
    · subst hu
      exact (verified_verify ..).keysInv hwait
    · obtain ⟨hcode, hattempts⟩ :=
        (verified_verify settings r.store (r.now + wait) user submitted).of_ne hu
      refine hwait.frame hcode hattempts rfl ?_ ?_
      · exact decide_eq_false (Ne.symm hu)
      · exact Bool.and_eq_false_imp.mpr fun h => absurd (of_decide_eq_true h) (Ne.symm hu)

theorem keysInv_after (settings : OtpSettings) (start : Time) (calls : List OtpCall) (u : UUID) :
    KeysInv settings (OtpRun.after settings start calls).store
      (OtpRun.after settings start calls).now u (OtpRun.after settings start calls).history := by
  have hinit : ∀ u, KeysInv settings OtpStore.empty start u [] := fun u =>
    ⟨fun _ => rfl, fun t₀ code h => (by cases h)⟩
  have hrun : ∀ (calls : List OtpCall) (r : OtpRun),
      (∀ u, KeysInv settings r.store r.now u r.history) →
        ∀ u, KeysInv settings (calls.foldl (OtpRun.serve settings) r).store
          (calls.foldl (OtpRun.serve settings) r).now u
          (calls.foldl (OtpRun.serve settings) r).history := by
    intro calls
    induction calls with
    | nil => exact fun r h => h
    | cons call calls ih => exact fun r h => ih _ (keysInv_serve h call)
  exact hrun calls _ hinit u

/-- What the keys accept is what the history says is good. -/
theorem KeysInv.verify_iff (h : KeysInv settings store now u history) :
    (OtpService.verify settings store now u submitted).2 = true ↔
      ∃ t₀, GoodCode settings history now u submitted t₀ := by
  rw [verify_eq_true]
  constructor
  · rintro ⟨hmax, hget⟩
    obtain ⟨e, he, hlive, hval⟩ := TtlMap.get_eq_some.mp hget
    obtain ⟨⟨t₀, code⟩, hlatest⟩ : ∃ issue, latestIssue u history = some issue := by
      refine Option.ne_none_iff_exists'.mp fun hnone => ?_
      rw [h.never hnone] at he
      cases he
    have hi := h.issued t₀ code hlatest
    obtain rfl := hi.stored e he
    obtain rfl : code = submitted := hval
    have ht := (Entry.live_of_deadline rfl).mp hlive
    have hunused : Unused u history := by
      by_contra hn
      rw [hi.gone hn] at he
      cases he
    rw [(hi.counted ht hunused).incrValue ht] at hmax
    exact ⟨t₀, hlatest, hi.begun, ht, hunused, hmax⟩
  · rintro ⟨t₀, hgood⟩
    have hi := h.issued t₀ submitted hgood.latest
    refine ⟨?_, ?_⟩
    · rw [(hi.counted hgood.unexpired hgood.unused).incrValue hgood.unexpired]
      exact hgood.attempts
    · have hkept := hi.kept hgood.unexpired hgood.unused hgood.attempts.le
      exact TtlMap.get_eq_some.mpr
        ⟨_, hkept, (Entry.live_of_deadline rfl).mpr hgood.unexpired, rfl⟩

/-- **Refinement.** After any calls, `verify` at any later moment returns `True` if and
    only if the latest `issue` for the user wrote the submitted code, less than
    `OTP_TTL_SECONDS` ago, and since then no `verify` for the user returned `True` and
    fewer than `OTP_MAX_ATTEMPTS` were made. -/
theorem verify_true_iff (settings : OtpSettings) (start : Time) (calls : List OtpCall)
    (wait : ℕ) (u : UUID) (submitted : String) :
    let r := OtpRun.after settings start calls
    (OtpService.verify settings r.store (r.now + wait) u submitted).2 = true ↔
      ∃ t₀, GoodCode settings r.history (r.now + wait) u submitted t₀ :=
  ((keysInv_after settings start calls u).wait (by simp)).verify_iff

/-! ## A call alone among the calls -/

section Alone

variable {n : ℕ} {s s' m : OtpState} {c : VerifyCall}

theorem otpStep_command (hc : s.calls[n]? = some c) :
    otpStep settings s (.command n) = verifyCommand settings s n c := by
  show s.calls[n]?.bind _ = _
  rw [hc, Option.bind_some]

theorem keys_get (s : OtpState) (now : Time) (u : UUID) :
    s.keys.code.get now u = (s.code.get now u).map Otp.code := by
  have hkey : s.keys.code u = (s.code u).map fun e => ⟨e.val.code, e.deadline⟩ := rfl
  unfold TtlMap.get TtlMap.lookup
  rw [hkey]
  cases s.code u with
  | none => rfl
  | some e =>
    have hlive : (⟨e.val.code, e.deadline⟩ : Entry Time String).Live now ↔ e.Live now :=
      Entry.live_congr rfl
    by_cases h : e.Live now
    · simp [Option.filter, h, hlive.mpr h]
    · simp [Option.filter, h, mt hlive.mp h]

theorem keys_del (s : OtpState) (u : UUID) :
    (fun v => (s.code.del u v).map fun e => (⟨e.val.code, e.deadline⟩ : Entry Time String)) =
      s.keys.code.del u := by
  funext v
  by_cases hv : v = u
  · subst hv
    rw [TtlMap.del_self, TtlMap.del_self]
    rfl
  · rw [TtlMap.del_of_ne hv, TtlMap.del_of_ne hv]
    rfl

/-- `issue` is one pipeline in both models. -/
theorem keys_issue (settings : OtpSettings) (s : OtpState) (u : UUID) (code : String) :
    (issue settings s u code).keys = OtpService.issue settings s.keys s.now u code := by
  have hcode : (issue settings s u code).keys.code =
      (OtpService.issue settings s.keys s.now u code).code := by
    funext v
    by_cases hv : v = u
    · subst hv
      show ((s.code.set v _ _ v).map _) = s.keys.code.set v code _ v
      rw [TtlMap.set_self, TtlMap.set_self]
      rfl
    · show ((s.code.set u _ _ v).map _) = s.keys.code.set u code _ v
      rw [TtlMap.set_of_ne hv, TtlMap.set_of_ne hv]
      rfl
  exact congrArg (OtpStore.mk · (s.attempts.del u)) hcode

/-- The `INCR`, and the `EXPIRE` of the first attempt. -/
theorem drives_count (settings : OtpSettings) (hc : s.calls[n]? = some c) (hpc : c.pc = .incr) :
    ∃ m c', Drives (otpStep settings) (.command n) s m ∧ m.calls[n]? = some c' ∧
      c'.user = c.user ∧ c'.submitted = c.submitted ∧
      c'.pc = afterAttempts settings (s.attempts.incrValue s.now c.user) ∧ m.now = s.now ∧
      m.code = s.code ∧
      m.attempts = OtpService.countAttempt settings s.keys s.now c.user := by
  have hincr : otpStep settings s (.command n) = some (commandIncr settings s n c) := by
    rw [otpStep_command hc]
    unfold verifyCommand
    rw [hpc]
  have hc' : (commandIncr settings s n c).calls[n]? = some (c.afterIncr settings
      (s.issued c.user) (s.attempts.incrValue s.now c.user)) := getElem?_set_here hc _
  by_cases hone : s.attempts.incrValue s.now c.user = 1
  · have hexpire : otpStep settings (commandIncr settings s n c) (.command n) =
        some (commandExpire settings (commandIncr settings s n c) n (c.afterIncr settings
          (s.issued c.user) (s.attempts.incrValue s.now c.user)) 1) := by
      rw [otpStep_command hc']
      unfold verifyCommand VerifyCall.afterIncr
      rw [if_pos hone, hone]
    refine ⟨_, _, .head hincr (.head hexpire (.refl _ _ _)), getElem?_set_here hc' _, rfl, rfl, ?_,
      rfl, rfl, ?_⟩
    · rw [hone]
      rfl
    · unfold OtpService.countAttempt
      exact (if_pos hone).symm
  · refine ⟨_, _, .head hincr (.refl _ _ _), hc', rfl, rfl, if_neg hone, rfl, rfl, ?_⟩
    unfold OtpService.countAttempt
    exact (if_neg hone).symm

/-- The `GET`, and the `DEL` of a code that matched. -/
theorem drives_get (settings : OtpSettings) (hc : s.calls[n]? = some c) (hpc : c.pc = .get) :
    ∃ s' c' result, Drives (otpStep settings) (.command n) s s' ∧ s'.calls[n]? = some c' ∧
      c'.pc = .done result ∧ s'.now = s.now ∧
      (s'.keys, result) =
        match s.keys.code.get s.now c.user with
        | none => (⟨s.keys.code, s.attempts⟩, false)
        | some stored =>
          if constantTimeCompare stored c.submitted then
            (⟨s.keys.code.del c.user, s.attempts.del c.user⟩, true)
          else (⟨s.keys.code, s.attempts⟩, false) := by
  have hget : otpStep settings s (.command n) = some (commandGet s n c) := by
    rw [otpStep_command hc]
    unfold verifyCommand
    rw [hpc]
  rw [keys_get]
  cases hcode : s.code.get s.now c.user with
  | none =>
    have hnext : commandGet s n c = { s with calls := s.calls.set n (c.goto (.done false)) } := by
      unfold commandGet
      rw [hcode]
    rw [hnext] at hget
    exact ⟨_, _, false, .head hget (.refl _ _ _), getElem?_set_here hc _, rfl, rfl, rfl⟩
  | some stored =>
    rw [Option.map_some]
    dsimp only
    by_cases hsame : stored.code = c.submitted
    · have hnext : commandGet s n c = { s with
          calls := s.calls.set n (c.goto (.consume stored))
          log := .compared c.user stored.serial :: s.log } := by
        unfold commandGet
        rw [hcode]
        dsimp only
        rw [if_pos hsame]
      rw [hnext] at hget
      have hdel : otpStep settings _ (.command n) = some _ :=
        otpStep_command (s := { s with
          calls := s.calls.set n (c.goto (.consume stored))
          log := .compared c.user stored.serial :: s.log }) (getElem?_set_here hc _)
      rw [if_pos (constantTimeCompare_iff.mpr hsame)]
      refine ⟨_, _, true, .head hget (.head hdel (.refl _ _ _)),
        getElem?_set_here (getElem?_set_here hc _) _, rfl, rfl, ?_⟩
      exact congrArg (fun code => ((⟨code, s.attempts.del c.user⟩ : OtpStore), true))
        (keys_del s c.user)
    · have hnext : commandGet s n c = { s with
          calls := s.calls.set n (c.goto (.done false))
          log := .compared c.user stored.serial :: s.log } := by
        unfold commandGet
        rw [hcode]
        dsimp only
        rw [if_neg hsame]
      rw [hnext] at hget
      rw [if_neg fun h => hsame (constantTimeCompare_iff.mp h)]
      exact ⟨_, _, false, .head hget (.refl _ _ _), getElem?_set_here hc _, rfl, rfl, rfl⟩

/-- A call whose commands run without any other step in between returns what
    `OtpService.verify` computes, and leaves the keys as it does. -/
theorem verify_alone (settings : OtpSettings) (s : OtpState) (u : UUID) (submitted : String) :
    ∃ m s' c, otpStep settings s (.verify u submitted) = some m ∧
      Drives (otpStep settings) (.command s.calls.length) m s' ∧
      s'.calls[s.calls.length]? = some c ∧
      s'.keys = (OtpService.verify settings s.keys s.now u submitted).1 ∧ s'.now = s.now ∧
      c.pc = .done (OtpService.verify settings s.keys s.now u submitted).2 := by
  let m : OtpState := { s with calls := s.calls ++ [⟨u, submitted, 0, .incr⟩] }
  have hcall : m.calls[s.calls.length]? = some ⟨u, submitted, 0, .incr⟩ :=
    List.getElem?_concat_length
  obtain ⟨m', c, hdrives, hc, huser, hsubmitted, hpc, hnow, hcode, hattempts⟩ :=
    drives_count settings hcall rfl
  have hkeys : m'.keys = ⟨s.keys.code, OtpService.countAttempt settings s.keys s.now u⟩ := by
    unfold OtpState.keys
    rw [hcode, hattempts]
    rfl
  unfold OtpService.verify
  dsimp only
  by_cases hmax : s.attempts.incrValue s.now u > settings.OTP_MAX_ATTEMPTS
  · have hburn : otpStep settings m' (.command s.calls.length) =
        some (commandBurn m' s.calls.length c) := by
      rw [otpStep_command hc]
      unfold verifyCommand
      rw [hpc]
      unfold afterAttempts
      rw [if_pos hmax]
    rw [show s.keys.attempts = s.attempts from rfl, if_pos hmax]
    refine ⟨m, _, _, rfl, hdrives.trans (.head hburn (.refl _ _ _)), getElem?_set_here hc _, ?_,
      hnow, rfl⟩
    have hdel := keys_del m' c.user
    rw [huser] at hdel
    show (⟨_, m'.attempts⟩ : OtpStore) = _
    unfold commandBurn
    rw [huser, hdel, hkeys, hattempts]
    rfl
  · have hget : c.pc = .get := by
      rw [hpc]
      exact if_neg hmax
    obtain ⟨s', c', result, hrest, hc', hdone, hnow', heq⟩ :=
      drives_get settings hc hget
    rw [show s.keys.attempts = s.attempts from rfl, if_neg hmax]
    rw [hnow, huser, hsubmitted, hkeys, hattempts] at heq
    refine ⟨m, s', c', rfl, hdrives.trans hrest, hc', ?_, hnow'.trans hnow, ?_⟩
    · exact congrArg Prod.fst heq
    · rw [hdone]
      exact congrArg (VerifyPc.done ∘ Prod.snd) heq

/-- A call, after its wait, is a run of commands. -/
theorem serve_alone (settings : OtpSettings) (s : OtpState) (history : List OtpRecord)
    (call : OtpCall) :
    ∃ as s', run (otpStep settings) s as = some s' ∧
      s'.keys = (OtpRun.serve settings ⟨s.keys, s.now, history⟩ call).store ∧
      s'.now = (OtpRun.serve settings ⟨s.keys, s.now, history⟩ call).now := by
  cases call with
  | issue wait user code =>
    exact ⟨[.tick wait, .issue user code], _, rfl,
      keys_issue settings { s with now := s.now + wait } user code, rfl⟩
  | verify wait user submitted =>
    obtain ⟨m, s', c, hcall, ⟨k, hk⟩, -, hkeys, hnow, -⟩ :=
      verify_alone settings { s with now := s.now + wait } user submitted
    refine ⟨.tick wait :: .verify user submitted :: List.replicate k (.command s.calls.length), s',
      ?_, hkeys, hnow⟩
    have htick : otpStep settings s (.tick wait) = some { s with now := s.now + wait } := rfl
    rw [run_cons, htick, Option.bind_some, run_cons, hcall]
    exact hk

/-- Calls that do not overlap lead to what `OtpService` computes. -/
theorem after_alone (settings : OtpSettings) (start : Time) (calls : List OtpCall) :
    ∃ as s, run (otpStep settings) (.init start) as = some s ∧
      s.keys = (OtpRun.after settings start calls).store ∧
      s.now = (OtpRun.after settings start calls).now := by
  induction calls using List.reverseRecOn with
  | nil => exact ⟨[], _, rfl, rfl, rfl⟩
  | append_singleton calls call ih =>
    obtain ⟨as, m, hrun, hkeys, hnow⟩ := ih
    obtain ⟨bs, s, hcall, hkeys', hnow'⟩ :=
      serve_alone settings m (OtpRun.after settings start calls).history call
    rw [hkeys, hnow] at hkeys' hnow'
    refine ⟨as ++ bs, s, ?_, ?_, ?_⟩
    · rw [run_append, hrun]
      exact hcall
    · unfold OtpRun.after
      rw [List.foldl_append]
      exact hkeys'
    · unfold OtpRun.after
      rw [List.foldl_append]
      exact hnow'

end Alone

end IronLink.Auth
