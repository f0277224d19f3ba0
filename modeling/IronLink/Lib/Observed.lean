import IronLink.Lib.Program

/-!
# A program under observation

One program changes a backend. Between its commands others look at the backend, any
number of times.

Results:
* `onTrail_run`: whatever is seen is on the trail of the program, and the program ends as it
  does alone.
* `exists_run`: everything on the trail can be seen, and the end can be reached.
* `observed_iff`: what all observations and the end satisfy is what the trail and the
  outcome satisfy.
-/

namespace Lib

variable {σ Cmd : Type} {Reply : Cmd → Type} {ε α : Type}

/-- The backend, what is left of the program, and what the others have seen. -/
structure Observed (σ Cmd : Type) (Reply : Cmd → Type) (ε α : Type) where
  backend : σ
  prog : Prog Cmd Reply ε α
  seen : List σ

/-- The program performs its next command, or someone looks. -/
inductive Turn
  | next
  | look
  deriving DecidableEq

namespace Prog

/-- The states that the program brings the backend to, the first included. -/
def trail (exec : σ → (command : Cmd) → σ × Reply command) :
    σ → Prog Cmd Reply ε α → List σ
  | s, .ret _ => [s]
  | s, .raise _ => [s]
  | s, .call command next =>
    s :: trail exec (exec s command).1 (next (exec s command).2)

/-- How the program ends. -/
def outcome (exec : σ → (command : Cmd) → σ × Reply command) :
    σ → Prog Cmd Reply ε α → σ × Except ε α
  | s, .ret value => (s, .ok value)
  | s, .raise error => (s, .error error)
  | s, .call command next => outcome exec (exec s command).1 (next (exec s command).2)

end Prog

namespace Observed

def start (s : σ) (prog : Prog Cmd Reply ε α) : Observed σ Cmd Reply ε α := ⟨s, prog, []⟩

def step (exec : σ → (command : Cmd) → σ × Reply command) (s : Observed σ Cmd Reply ε α) :
    Turn → Option (Observed σ Cmd Reply ε α)
  | .next =>
    match s.prog with
    | .call command next =>
      let (backend, reply) := exec s.backend command
      some { s with backend := backend, prog := next reply }
    | _ => none
  | .look => some { s with seen := s.seen ++ [s.backend] }

variable {exec : σ → (command : Cmd) → σ × Reply command} {s s' : Observed σ Cmd Reply ε α}
  {turn : Turn} {turns : List Turn} {b : σ} {prog : Prog Cmd Reply ε α}

theorem step_cases (h : s.step exec turn = some s') :
    (∃ command next, s.prog = .call command next ∧ s' = { s with
      backend := (exec s.backend command).1, prog := next (exec s.backend command).2 }) ∨
    s' = { s with seen := s.seen ++ [s.backend] } := by
  cases turn with
  | look => exact .inr (Option.some.inj h).symm
  | next =>
    unfold step at h
    dsimp only at h
    cases hprog : s.prog with
    | ret value =>
      rw [hprog] at h
      cases h
    | raise error =>
      rw [hprog] at h
      cases h
    | call command next =>
      rw [hprog] at h
      exact .inl ⟨command, next, rfl, (Option.some.inj h).symm⟩

theorem backend_mem_trail (b : σ) (prog : Prog Cmd Reply ε α) : b ∈ prog.trail exec b := by
  cases prog <;> exact List.mem_cons_self

/-- What is left of the program leads along the rest of the trail and to the same end. -/
structure OnTrail (exec : σ → (command : Cmd) → σ × Reply command) (b : σ)
    (prog : Prog Cmd Reply ε α) (s : Observed σ Cmd Reply ε α) : Prop where
  rest : ∀ x ∈ s.prog.trail exec s.backend, x ∈ prog.trail exec b
  outcome : s.prog.outcome exec s.backend = prog.outcome exec b
  seen : ∀ x ∈ s.seen, x ∈ prog.trail exec b

theorem onTrail_step (s : Observed σ Cmd Reply ε α) (turn : Turn) (s' : Observed σ Cmd Reply ε α)
    (hs : s.OnTrail exec b prog) (h : s.step exec turn = some s') : s'.OnTrail exec b prog := by
  obtain ⟨command, next, hprog, rfl⟩ | rfl := step_cases h
  · refine ⟨fun x hx => hs.rest x ?_, ?_, hs.seen⟩
    · rw [hprog]
      exact List.mem_cons_of_mem _ hx
    · rw [← hs.outcome, hprog]
      rfl
  · refine ⟨hs.rest, hs.outcome, fun x hx => ?_⟩
    rcases List.mem_append.mp hx with hx | hx
    · exact hs.seen x hx
    · rw [List.mem_singleton.mp hx]
      exact hs.rest _ (backend_mem_trail _ _)

theorem onTrail_run (h : run (step exec) (start b prog) turns = some s) :
    s.OnTrail exec b prog :=
  run_invariant onTrail_step ⟨fun _ hx => hx, rfl, fun x hx => (by cases hx)⟩ h

/-- Everything on the trail can be seen, and the end can be reached. -/
theorem exists_run (exec : σ → (command : Cmd) → σ × Reply command) (s : Observed σ Cmd Reply ε α) :
    (∀ x ∈ s.prog.trail exec s.backend, ∃ turns s', run (step exec) s turns = some s' ∧
      x ∈ s'.seen) ∧
    ∃ turns s', run (step exec) s turns = some s' ∧
      s'.backend = (s.prog.outcome exec s.backend).1 ∧
      s'.prog.result = some (s.prog.outcome exec s.backend).2 := by
  have hlook : ∃ turns s', run (step exec) s turns = some s' ∧ s.backend ∈ s'.seen :=
    ⟨[.look], _, rfl, List.mem_append_right _ List.mem_cons_self⟩
  obtain ⟨backend, prog, seen⟩ := s
  induction prog generalizing backend with
  | ret value =>
    refine ⟨fun x hx => ?_, [], _, rfl, rfl, rfl⟩
    rw [List.mem_singleton.mp hx]
    exact hlook
  | raise error =>
    refine ⟨fun x hx => ?_, [], _, rfl, rfl, rfl⟩
    rw [List.mem_singleton.mp hx]
    exact hlook
  | call command next ih =>
    obtain ⟨hseen, turns, s', hrun, hend⟩ := ih (exec backend command).2 (exec backend command).1
      ⟨[.look], _, rfl, List.mem_append_right _ List.mem_cons_self⟩
    refine ⟨fun x hx => ?_, .next :: turns, s', hrun, hend⟩
    rcases List.mem_cons.mp hx with rfl | hx
    · exact hlook
    · obtain ⟨turns, s', hrun, hx⟩ := hseen x hx
      exact ⟨.next :: turns, s', hrun, hx⟩

/-- Over all interleavings: what everyone sees and the end. -/
theorem observed_iff {P : σ → Prop} {Q : σ → Except ε α → Prop} (b : σ)
    (prog : Prog Cmd Reply ε α) :
    (∀ turns s, run (step exec) (start b prog) turns = some s →
        (∀ x ∈ s.seen, P x) ∧ ∀ r, s.prog.result = some r → Q s.backend r) ↔
      (∀ x ∈ prog.trail exec b, P x) ∧
        Q (prog.outcome exec b).1 (prog.outcome exec b).2 := by
  constructor
  · intro h
    obtain ⟨hseen, turns, s, hrun, hbackend, hresult⟩ := exists_run exec (start b prog)
    refine ⟨fun x hx => ?_, ?_⟩
    · obtain ⟨turns, s, hrun, hx⟩ := hseen x hx
      exact (h turns s hrun).1 x hx
    · have hend := (h turns s hrun).2 _ hresult
      rw [hbackend] at hend
      exact hend
  · rintro ⟨htrail, hend⟩ turns s hrun
    have hs := onTrail_run hrun
    refine ⟨fun x hx => htrail x (hs.seen x hx), fun r hr => ?_⟩
    have houtcome := hs.outcome
    cases hprog : s.prog with
    | ret value =>
      rw [hprog] at hr houtcome
      rw [← houtcome] at hend
      obtain rfl := Option.some.inj hr
      exact hend
    | raise error =>
      rw [hprog] at hr houtcome
      rw [← houtcome] at hend
      obtain rfl := Option.some.inj hr
      exact hend
    | call command next =>
      rw [hprog] at hr
      cases hr

end Observed

end Lib
