import IronLink.Backend.OcrSnippet
import IronLink.Lib.CappedLog
import IronLink.Lib.Calls
import IronLink.Lib.Run

/-!
# The history of alerts

`add_ocr_alert` (backend/app/api/routes/media.py:47-58) is three commands: `LPUSH`, `LTRIM` and
`EXPIRE`. Workers share Redis, so commands of other calls come in between; a worker may die, and
the key may run out, after any of them.

Results:
* `history_newest`: the history of a user is the newest alerts since the key last ran out, fifty of
  them if there are as many, and one more at most for each push that no `LTRIM` has followed; it
  stays for longer than a day only if an `EXPIRE` is due or was never sent.
* `add_alone`: a call that is not disturbed is `addOcrAlert`.
-/

namespace IronLink.Backend

open Lib

/-! ## Model -/

/-- The next command of a call. -/
inductive AlertPc
  | push
  | trim
  | expire
  deriving DecidableEq

/-- A call of `add_ocr_alert`. -/
structure AlertCall where
  userId : ℤ
  alert : OcrAlert
  pc : AlertPc

/-- Redis and the calls. `pushed`, newest first, is what has been pushed since the key last ran
    out; `untrimmed` counts the pushes since the last `LTRIM`, and `lostExpires` the calls that have
    died since the last `EXPIRE`, and before their own. -/
structure AlertRun where
  /-- in seconds -/
  now : ℕ
  /-- `user:{user_id}:ocr_alerts` -/
  alerts : TtlMap ℕ ℤ (List OcrAlert)
  calls : List AlertCall
  pushed : ℤ → List OcrAlert
  untrimmed : ℤ → ℕ
  lostExpires : ℤ → ℕ

def AlertRun.init : AlertRun := ⟨0, fun _ => none, [], fun _ => [], fun _ => 0, fun _ => 0⟩

inductive AlertAction
  | add (userId : ℤ) (alert : OcrAlert)
  /-- the next command of the call `i` -/
  | next (i : ℕ)
  /-- the worker of the call `i` dies -/
  | die (i : ℕ)
  | tick (d : ℕ)

/-- One command of a call. -/
def AlertCall.next (s : AlertRun) (i : ℕ) (c : AlertCall) : AlertRun :=
  match c.pc with
  | .push =>
    { s with
      alerts := s.alerts.lpush s.now c.userId c.alert
      calls := s.calls.set i { c with pc := .trim }
      pushed := Function.update s.pushed c.userId
        (if (s.alerts.lookup s.now c.userId).isSome then c.alert :: s.pushed c.userId
        else [c.alert])
      untrimmed := Function.update s.untrimmed c.userId (s.untrimmed c.userId + 1) }
  | .trim =>
    { s with
      alerts := s.alerts.ltrim s.now c.userId ocrAlertHistoryLimit
      calls := s.calls.set i { c with pc := .expire }
      untrimmed := Function.update s.untrimmed c.userId 0 }
  | .expire =>
    { s with
      alerts := s.alerts.expire s.now c.userId (s.now + ocrAlertHistoryTtl)
      calls := s.calls.eraseIdx i
      lostExpires := Function.update s.lostExpires c.userId 0 }

/-- The call is not heard of any more. -/
def AlertCall.die (s : AlertRun) (i : ℕ) (c : AlertCall) : AlertRun :=
  { s with
    calls := s.calls.eraseIdx i
    lostExpires := if c.pc = .push then s.lostExpires
      else Function.update s.lostExpires c.userId (s.lostExpires c.userId + 1) }

def alertStep (s : AlertRun) : AlertAction → Option AlertRun
  | .add userId alert => some { s with calls := s.calls ++ [⟨userId, alert, .push⟩] }
  | .next i => (s.calls[i]?).map (AlertCall.next s i)
  | .die i => (s.calls[i]?).map (AlertCall.die s i)
  | .tick d => some { s with now := s.now + d }

/-! ## Properties -/

/-- The `EXPIRE` is still to come, after a push. -/
def AlertCall.expires (u : ℤ) (c : AlertCall) : Bool := c.userId = u && c.pc ≠ .push

def AlertRun.unexpired (s : AlertRun) (u : ℤ) : ℕ :=
  s.calls.countP (·.expires u) + s.lostExpires u

/-- What the history of a user is, as long as there is one. -/
structure HistoryOf (s : AlertRun) (u : ℤ) (e : Entry ℕ (List OcrAlert)) : Prop where
  newest : HoldsNewest ocrAlertHistoryLimit (s.untrimmed u) (s.pushed u) e.val
  /-- a history that never runs out is one whose `EXPIRE` has not been sent -/
  forGood : e.deadline = none → 0 < s.unexpired u
  day : ∀ d ∈ e.deadline, d ≤ s.now + ocrAlertHistoryTtl

def HistoryNewest (s : AlertRun) : Prop :=
  ∀ u e, s.alerts.lookup s.now u = some e → HistoryOf s u e

/-! ## Each command keeps the histories -/

variable {s : AlertRun} {i : ℕ} {c : AlertCall} {u : ℤ} {e : Entry ℕ (List OcrAlert)}

/-- Only the numbers that are due matter. -/
theorem HistoryOf.congr {s' : AlertRun} (h : HistoryOf s u e)
    (htrims : s.untrimmed u ≤ s'.untrimmed u) (hexpires : s.unexpired u ≤ s'.unexpired u)
    (hpushed : s'.pushed u = s.pushed u) (hnow : s.now ≤ s'.now) : HistoryOf s' u e where
  newest := by
    rw [hpushed]
    exact h.newest.mono htrims
  forGood := fun hnone => (h.forGood hnone).trans_le hexpires
  day := fun d hd => (h.day d hd).trans (Nat.add_le_add_right hnow _)

theorem countP_erase {p : AlertCall → Bool} (hc : s.calls[i]? = some c) (hold : p c = false) :
    (s.calls.eraseIdx i).countP p = s.calls.countP p := by
  have := countP_eraseIdx_add p hc
  rw [hold, if_neg Bool.false_ne_true] at this
  exact this

/-- Commands on the history of another user. -/
theorem other_user {v : ℤ} (h : c.userId ≠ v) : c.expires v = false := by
  unfold AlertCall.expires
  rw [decide_eq_false h, Bool.false_and]

theorem countP_other (hc : s.calls[i]? = some c) (hu : c.userId ≠ u) (pc : AlertPc) :
    (s.calls.set i { c with pc := pc }).countP (·.expires u) = s.calls.countP (·.expires u) :=
  countP_set_same hc ((other_user (c := { c with pc := pc }) hu).trans (other_user hu).symm)

theorem historyNewest_push (h : HistoryNewest s) (hc : s.calls[i]? = some c) (hpc : c.pc = .push) :
    HistoryNewest (c.next s i) := by
  unfold AlertCall.next
  rw [hpc]
  dsimp only
  intro u e he
  by_cases hu : c.userId = u
  · subst hu
    dsimp only at he
    rw [TtlMap.lookup_lpush] at he
    obtain rfl := Option.some.inj he
    have hexpires : (s.calls.set i { c with pc := .trim }).countP (·.expires c.userId) =
        s.calls.countP (·.expires c.userId) + 1 :=
      countP_set_enter hc (by simp [AlertCall.expires, hpc]) (by simp [AlertCall.expires])
    refine ⟨?_, fun _ => ?_, ?_⟩
    · dsimp only
      rw [Function.update_self, Function.update_self]
      cases hlookup : s.alerts.lookup s.now c.userId with
      | none => exact holdsNewest_singleton _ _ _
      | some old => exact (h _ old hlookup).newest.push c.alert
    · unfold AlertRun.unexpired
      dsimp only
      rw [hexpires]
      omega
    · cases hlookup : s.alerts.lookup s.now c.userId with
      | none => exact fun d hd => by cases hd
      | some old => exact (h _ old hlookup).day
  · have hlookup : (s.alerts.lpush s.now c.userId c.alert).lookup s.now u =
        s.alerts.lookup s.now u :=
      TtlMap.lookup_congr (TtlMap.lpush_of_ne (Ne.symm hu) _)
    refine (h u e (hlookup.symm.trans he)).congr
      (Function.update_of_ne (Ne.symm hu) ..).ge ?_ (Function.update_of_ne (Ne.symm hu) ..) le_rfl
    unfold AlertRun.unexpired
    dsimp only
    rw [countP_other hc hu]

theorem historyNewest_trim (h : HistoryNewest s) (hc : s.calls[i]? = some c) (hpc : c.pc = .trim) :
    HistoryNewest (c.next s i) := by
  unfold AlertCall.next
  rw [hpc]
  dsimp only
  intro u e he
  have hexpires : (s.calls.set i { c with pc := .expire }).countP (·.expires u) =
      s.calls.countP (·.expires u) :=
    countP_set_same hc (by simp [AlertCall.expires, hpc])
  by_cases hu : c.userId = u
  · subst hu
    dsimp only at he
    rw [TtlMap.lookup_ltrim] at he
    obtain ⟨old, hold, rfl⟩ := Option.map_eq_some_iff.mp he
    have hof := h _ old hold
    refine ⟨?_, fun hnone => ?_, hof.day⟩
    · dsimp only
      rw [Function.update_self]
      exact hof.newest.trim
    · have := hof.forGood hnone
      unfold AlertRun.unexpired at *
      dsimp only
      rw [hexpires]
      exact this
  · have hlookup : (s.alerts.ltrim s.now c.userId ocrAlertHistoryLimit).lookup s.now u =
        s.alerts.lookup s.now u :=
      TtlMap.lookup_congr (TtlMap.ltrim_of_ne (Ne.symm hu) _)
    refine (h u e (hlookup.symm.trans he)).congr (Function.update_of_ne (Ne.symm hu) ..).ge ?_ rfl
      le_rfl
    unfold AlertRun.unexpired
    dsimp only
    rw [hexpires]

theorem historyNewest_expire (h : HistoryNewest s) (hc : s.calls[i]? = some c)
    (hpc : c.pc = .expire) : HistoryNewest (c.next s i) := by
  unfold AlertCall.next
  rw [hpc]
  dsimp only
  intro u e he
  by_cases hu : c.userId = u
  · subst hu
    dsimp only at he
    have hlater : s.now < s.now + ocrAlertHistoryTtl := by
      unfold ocrAlertHistoryTtl
      omega
    rw [TtlMap.lookup_expire hlater] at he
    obtain ⟨old, hold, rfl⟩ := Option.map_eq_some_iff.mp he
    refine ⟨(h _ old hold).newest, fun hnone => ?_, fun d hd => ?_⟩
    · cases hnone
    · obtain rfl := Option.some.inj hd
      exact le_rfl
  · have hlookup : (s.alerts.expire s.now c.userId (s.now + ocrAlertHistoryTtl)).lookup s.now u =
        s.alerts.lookup s.now u :=
      TtlMap.lookup_congr (TtlMap.expire_of_ne (Ne.symm hu) _ _)
    refine (h u e (hlookup.symm.trans he)).congr le_rfl ?_ rfl le_rfl
    unfold AlertRun.unexpired
    dsimp only
    rw [countP_erase hc (other_user hu), Function.update_of_ne (Ne.symm hu)]

/-- A call that dies leaves what it had to send undone. -/
theorem historyNewest_die (h : HistoryNewest s) (hc : s.calls[i]? = some c) :
    HistoryNewest (c.die s i) := by
  intro u e he
  refine (h u e he).congr le_rfl ?_ rfl le_rfl
  have hcount := countP_eraseIdx_add (·.expires u) hc
  unfold AlertRun.unexpired AlertCall.die
  dsimp only
  by_cases hu : c.userId = u
  · subst hu
    by_cases hpc : c.pc = .push
    · rw [if_pos hpc]
      have hthis : c.expires c.userId = false := by simp [AlertCall.expires, hpc]
      rw [hthis, if_neg Bool.false_ne_true] at hcount
      omega
    · rw [if_neg hpc, Function.update_self]
      have hthis : c.expires c.userId = true := by simp [AlertCall.expires, hpc]
      rw [hthis, if_pos rfl] at hcount
      omega
  · rw [other_user hu, if_neg Bool.false_ne_true] at hcount
    split_ifs
    · omega
    · rw [Function.update_of_ne (Ne.symm hu)]
      omega

theorem historyNewest_step (s : AlertRun) (a : AlertAction) (s' : AlertRun) (h : HistoryNewest s)
    (hs : alertStep s a = some s') : HistoryNewest s' := by
  cases a with
  | add userId alert =>
    obtain rfl := Option.some.inj hs
    intro u e he
    refine (h u e he).congr le_rfl ?_ rfl le_rfl
    unfold AlertRun.unexpired
    dsimp only
    rw [List.countP_append]
    omega
  | next i =>
    obtain ⟨c, hc, rfl⟩ := Option.map_eq_some_iff.mp hs
    cases hpc : c.pc with
    | push => exact historyNewest_push h hc hpc
    | trim => exact historyNewest_trim h hc hpc
    | expire => exact historyNewest_expire h hc hpc
  | die i =>
    obtain ⟨c, hc, rfl⟩ := Option.map_eq_some_iff.mp hs
    exact historyNewest_die h hc
  | tick d =>
    obtain rfl := Option.some.inj hs
    intro u e he
    obtain ⟨hkey, hlive⟩ := TtlMap.lookup_eq_some.mp he
    have hnow : s.now ≤ s.now + d := Nat.le_add_right _ _
    exact (h u e (TtlMap.lookup_of_live hkey (hlive.mono hnow))).congr le_rfl le_rfl rfl hnow

/-! ## Runs -/

/-- The three commands are what `addOcrAlert` does to the history. -/
theorem commands_eq {m : TtlMap ℕ ℤ (List OcrAlert)} {os : OcrState} (hm : m = os.alerts)
    (userId : ℤ) (alert : OcrAlert) :
    (((m.lpush os.now userId alert).ltrim os.now userId ocrAlertHistoryLimit).expire os.now userId
      (os.now + ocrAlertHistoryTtl)) = (addOcrAlert os userId alert).alerts := by
  subst hm
  unfold addOcrAlert TtlMap.get
  dsimp only
  funext u
  by_cases hu : u = userId
  · subst hu
    rw [TtlMap.expire_self, TtlMap.lookup_ltrim, TtlMap.lookup_lpush, TtlMap.set_self]
    cases os.alerts.lookup os.now u with
    | none => rfl
    | some e => rfl
  · rw [TtlMap.expire_of_ne hu, TtlMap.ltrim_of_ne hu, TtlMap.lpush_of_ne hu, TtlMap.set_of_ne hu]

/-- A call with nothing in between. -/
theorem add_alone (s : AlertRun) (os : OcrState) (hnow : s.now = os.now)
    (halerts : s.alerts = os.alerts) (userId : ℤ) (alert : OcrAlert) :
    (run alertStep s [.add userId alert, .next s.calls.length, .next s.calls.length,
        .next s.calls.length]).map (fun s' => (s'.calls, s'.alerts)) =
      some (s.calls, (addOcrAlert os userId alert).alerts) := by
  have hat : ∀ pc, (s.calls ++ [(⟨userId, alert, pc⟩ : AlertCall)])[s.calls.length]? =
      some ⟨userId, alert, pc⟩ := fun pc => by simp
  have hset : ∀ pc pc', (s.calls ++ [(⟨userId, alert, pc⟩ : AlertCall)]).set s.calls.length
      ⟨userId, alert, pc'⟩ = s.calls ++ [⟨userId, alert, pc'⟩] := fun pc pc' => by simp
  simp only [run_cons, alertStep, Option.bind_some, hat, Option.map_some, AlertCall.next, hset,
    run_nil, eraseIdx_concat_length, hnow, commands_eq halerts]

/-- **History.** However the commands of workers interleave, and wherever they die, the history of
    a user is the newest alerts since it last ran out: as many as there are up to fifty, and no
    more than fifty beyond the pushes that no `LTRIM` has followed. It runs out within a day of now,
    or some `EXPIRE` is still to be sent or never will be. -/
theorem history_newest (as : List AlertAction) (s' : AlertRun)
    (hr : run alertStep .init as = some s') : HistoryNewest s' := by
  refine run_invariant historyNewest_step (fun u e he => ?_) hr
  cases he

def urgentAlert : OcrAlert := ⟨"ocr_alert", "f", "scan.png", "urgent", none, some 3, "urgent", 7, 0⟩

/-- Two workers, the first of which dies before its `LTRIM`. -/
def twoWorkers : List AlertAction :=
  [.add 7 urgentAlert, .next 0, .die 0, .add 7 urgentAlert, .next 0]

theorem history_newest_twoWorkers : ∃ s', run alertStep .init twoWorkers = some s' ∧
    (s'.alerts.lookup s'.now 7).map (·.val.length) = some 2 ∧ s'.untrimmed 7 = 2 ∧
      HistoryNewest s' :=
  ⟨_, rfl, by decide +kernel, by decide +kernel, history_newest twoWorkers _ rfl⟩

end IronLink.Backend
