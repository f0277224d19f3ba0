import IronLink.Client.OcrSettings
import IronLink.Lib.Observed

/-!
# Saving keywords

`set_user_keywords` (app/redis.py:37-53), which deletes the set and then adds to it, and
the two routes that call it (app/api/routes/ocr.py:23-39). Each command may raise, before
Redis has performed it or after; others may call `get_user_keywords` (app/redis.py:22-35)
at any time.

Results:
* `setOcrKeywords_run`: without errors the set and the response are as in the model of the
  whole route.
* `savesAtomically_iff`: saving is atomic, and reported as it went, exactly when the set was
  empty or becomes empty and the command that matters is performed, or `DEL` is refused and
  nothing had to change.
* `clearsAtomically_iff`: clearing is, unless `DEL` is refused and there are keywords.
* `add_lost_after_delete`: the old keywords are gone, the new ones are not there, and the
  response lists them.
-/

namespace IronLink.Ocr

open Lib

/-! ## Model -/

/-- The two commands of `set_user_keywords`, on the key of the user. -/
inductive KeywordsCmd
  | delete
  | sadd (keywords : Finset String)

inductive RedisReply
  | ok
  | raised
  deriving DecidableEq

/-- How a command ends. -/
inductive CmdOutcome
  | done
  /-- it raises, and Redis has not performed it -/
  | refused
  /-- Redis has performed it, and the reply is lost: it raises -/
  | lost
  deriving DecidableEq

/-- How the two commands end. -/
structure RedisFaults where
  delete : CmdOutcome
  sadd : CmdOutcome

def CmdOutcome.apply (outcome : CmdOutcome) (before after : Finset String) :
    Finset String × RedisReply :=
  match outcome with
  | .done => (after, .ok)
  | .refused => (before, .raised)
  | .lost => (after, .raised)

/-- Redis, on the key of the user. -/
def redis (faults : RedisFaults) (stored : Finset String) :
    KeywordsCmd → Finset String × RedisReply
  | .delete => faults.delete.apply stored ∅
  | .sadd keywords => faults.sadd.apply stored (stored ∪ keywords)

abbrev KeywordsProg (α : Type) := Prog KeywordsCmd (fun _ => RedisReply) Empty α

/-- `set_user_keywords`. -/
def setUserKeywords (keywords : Finset String) : KeywordsProg Bool := do
  match ← Prog.perform .delete with
  | .raised => return false
  | .ok =>
    if keywords ≠ ∅ then
      match ← Prog.perform (.sadd keywords) with
      | .raised => return false
      | .ok => return true
    else return true

/-- `set_ocr_keywords` (app/api/routes/ocr.py:23-32); the value is the response. -/
def setOcrKeywords (finalSigma : List Char → List Char → Bool) (payload : List String) :
    KeywordsProg (List String) := do
  let normalized := Client.normalized finalSigma payload
  let _ ← setUserKeywords normalized.toFinset
  return normalized

/-- `delete_ocr_keywords` (app/api/routes/ocr.py:35-39). -/
def deleteOcrKeywords : KeywordsProg Unit := do
  let _ ← setUserKeywords ∅
  return ()

/-! ## Property -/

/-- In every interleaving with readers: they see the old set or the new one; at the end the
    new one is stored and the response reports it as saved, or the old one is stored and
    the response is no success. -/
def Atomic {α : Type} (faults : RedisFaults) (old new : Finset String)
    (reports : α → Finset String → Prop) (prog : KeywordsProg α) : Prop :=
  ∀ turns s, run (Observed.step (redis faults)) (.start old prog) turns = some s →
    (∀ set ∈ s.seen, set = old ∨ set = new) ∧
    ∀ r, s.prog.result = some r →
      (s.backend = new ∧ ∃ response, r = .ok response ∧ reports response new) ∨
        (s.backend = old ∧ ∀ response, r ≠ .ok response)

/-- `DEL` and, if there is anything to add, `SADD` have the right effect: the set was empty
    or becomes empty in between. Or nothing happens, and nothing had to. -/
def SavedAtOnce (faults : RedisFaults) (old new : Finset String) : Prop :=
  match faults.delete with
  | .done => new = ∅ ∨ (old = ∅ ∧ faults.sadd ≠ .refused)
  | .refused => old = new
  | .lost => new = ∅

/-! ## The routes alone -/

variable {faults : RedisFaults} {old new : Finset String} {α : Type} {response : α}
  {reports : α → Finset String → Prop}

/-- What both routes do: they answer the same whatever `set_user_keywords` returns. -/
def saveAndAnswer (keywords : Finset String) (response : α) : KeywordsProg α := do
  let _ ← setUserKeywords keywords
  return response

theorem saveAndAnswer_eq (keywords : Finset String) (response : α) :
    saveAndAnswer keywords response = .call .delete fun reply =>
      if reply = .ok ∧ keywords ≠ ∅ then .call (.sadd keywords) fun _ => .ret response
      else .ret response := by
  unfold saveAndAnswer setUserKeywords
  refine congrArg (Prog.call KeywordsCmd.delete) (funext fun reply => ?_)
  cases reply with
  | raised => rfl
  | ok =>
    by_cases hempty : keywords = ∅
    · simp only [hempty, ne_eq, not_true_eq_false, and_false, if_false]
      rfl
    · simp only [hempty, ne_eq, not_false_eq_true, and_self, if_true]
      refine congrArg (Prog.call (KeywordsCmd.sadd keywords)) (funext fun reply => ?_)
      cases reply <;> rfl

/-- What is stored at the end; the answer is always `response`. -/
def finalSet (faults : RedisFaults) (old new : Finset String) : Finset String :=
  if (redis faults old .delete).2 = .ok ∧ new ≠ ∅ then
    (redis faults (redis faults old .delete).1 (.sadd new)).1
  else (redis faults old .delete).1

theorem outcome_saveAndAnswer (faults : RedisFaults) (old new : Finset String) (response : α) :
    (saveAndAnswer new response).outcome (redis faults) old =
      (finalSet faults old new, .ok response) := by
  rw [saveAndAnswer_eq, Prog.outcome, finalSet]
  by_cases hadd : (redis faults old .delete).2 = .ok ∧ new ≠ ∅
  · rw [if_pos hadd, if_pos hadd]
    rfl
  · rw [if_neg hadd, if_neg hadd]
    rfl

/-- What readers may see: the set before, between and after the commands. -/
theorem mem_trail_saveAndAnswer {set : Finset String} :
    set ∈ (saveAndAnswer new response).trail (redis faults) old ↔
      set = old ∨ set = (redis faults old .delete).1 ∨ set = finalSet faults old new := by
  rw [saveAndAnswer_eq, Prog.trail, finalSet]
  by_cases hadd : (redis faults old .delete).2 = .ok ∧ new ≠ ∅
  · rw [if_pos hadd, if_pos hadd]
    simp [Prog.trail]
  · rw [if_neg hadd, if_neg hadd]
    simp [Prog.trail]

/-- The sets that readers may see, and the one that is stored, decide. -/
theorem atomic_saveAndAnswer_iff (faults : RedisFaults) (old new : Finset String)
    (response : α) (hreports : reports response new) : Atomic faults old new reports
      (saveAndAnswer new response) ↔
      ((redis faults old .delete).1 = old ∨ (redis faults old .delete).1 = new) ∧
        finalSet faults old new = new := by
  unfold Atomic
  rw [Observed.observed_iff (P := fun set => set = old ∨ set = new)
    (Q := fun set r => (set = new ∧ ∃ answer, r = .ok answer ∧ reports answer new) ∨
      (set = old ∧ ∀ answer, r ≠ .ok answer))]
  rw [outcome_saveAndAnswer]
  simp only [mem_trail_saveAndAnswer]
  constructor
  · rintro ⟨htrail, hend⟩
    refine ⟨htrail _ (.inr (.inl rfl)), ?_⟩
    obtain ⟨hfinal, -⟩ | ⟨-, hnever⟩ := hend
    · exact hfinal
    · exact absurd rfl (hnever response)
  · rintro ⟨hmiddle, hfinal⟩
    refine ⟨?_, .inl ⟨hfinal, response, rfl, hreports⟩⟩
    rintro set (rfl | rfl | rfl)
    · exact .inl rfl
    · exact hmiddle
    · exact .inr hfinal

theorem savedAtOnce_iff : SavedAtOnce faults old new ↔
    ((redis faults old .delete).1 = old ∨ (redis faults old .delete).1 = new) ∧
      finalSet faults old new = new := by
  rcases faults with ⟨delete, sadd⟩
  cases delete with
  | refused => simp [SavedAtOnce, finalSet, redis, CmdOutcome.apply]
  | lost =>
    simp only [SavedAtOnce, finalSet, redis, CmdOutcome.apply, reduceCtorEq, false_and, if_false]
    exact ⟨fun h => ⟨.inr h.symm, h.symm⟩, fun h => h.2.symm⟩
  | done =>
    by_cases hempty : new = ∅
    · simp [SavedAtOnce, finalSet, redis, CmdOutcome.apply, hempty]
    · cases sadd <;> simp [SavedAtOnce, finalSet, redis, CmdOutcome.apply, hempty, eq_comm]

/-! ## The routes among readers -/

/-- The response of `set_ocr_keywords` lists what is stored. -/
def ListsStored (response : List String) (stored : Finset String) : Prop :=
  response.toFinset = stored

/-- Without errors the route does what it does in one piece. -/
theorem setOcrKeywords_run (finalSigma : List Char → List Char → Bool) (payload : List String) :
    (setOcrKeywords finalSigma payload).outcome (redis ⟨.done, .done⟩) old =
      ((Client.setOcrKeywords finalSigma payload).1,
        .ok (Client.setOcrKeywords finalSigma payload).2) := by
  have hstored : (Client.setOcrKeywords finalSigma payload).1 =
      (Client.normalized finalSigma payload).toFinset := Client.setUserKeywords_eq _
  have hfinal : ∀ new, finalSet ⟨.done, .done⟩ old new = new := by
    intro new
    by_cases hempty : new = ∅ <;> simp [finalSet, redis, CmdOutcome.apply, hempty]
  rw [hstored]
  exact (outcome_saveAndAnswer _ old _ _).trans (by rw [hfinal]; rfl)

/-- **Saving.** -/
theorem savesAtomically_iff (finalSigma : List Char → List Char → Bool) (faults : RedisFaults)
    (old : Finset String) (payload : List String) :
    Atomic faults old (Client.normalized finalSigma payload).toFinset ListsStored
        (setOcrKeywords finalSigma payload) ↔
      SavedAtOnce faults old (Client.normalized finalSigma payload).toFinset := by
  rw [savedAtOnce_iff]
  exact atomic_saveAndAnswer_iff faults old _ _ rfl

/-- **Clearing.** -/
theorem clearsAtomically_iff (faults : RedisFaults) (old : Finset String) :
    Atomic faults old ∅ (fun _ _ => True) deleteOcrKeywords ↔
      (faults.delete = .refused → old = ∅) := by
  have hroute : Atomic faults old ∅ (fun _ _ => True) deleteOcrKeywords ↔
      SavedAtOnce faults old ∅ := by
    rw [savedAtOnce_iff]
    exact atomic_saveAndAnswer_iff faults old ∅ () trivial
  rw [hroute]
  unfold SavedAtOnce
  cases faults.delete <;> simp

/-- `SADD` is refused after `DEL` was performed. A reader in between sees no keywords, at
    the end there are none, and the response is a success. -/
theorem add_lost_after_delete :
    (∃ s ∈ run (Observed.step (redis ⟨.done, .refused⟩))
        (.start {"invoice"} (setOcrKeywords (fun _ _ => false) ["contract"])) [.next, .look, .next],
      s.seen = [∅] ∧ s.backend = ∅ ∧ s.prog.result = some (.ok ["contract"])) ∧
    ¬ Atomic ⟨.done, .refused⟩ {"invoice"}
      (Client.normalized (fun _ _ => false) ["contract"]).toFinset ListsStored
      (setOcrKeywords (fun _ _ => false) ["contract"]) := by
  refine ⟨by decide +kernel, fun h => ?_⟩
  have hfinal := (atomic_saveAndAnswer_iff _ _ _ ["contract"] rfl).mp h
  revert hfinal
  decide +kernel

end IronLink.Ocr
