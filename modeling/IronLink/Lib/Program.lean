import IronLink.Lib.Calls
import IronLink.Lib.Run
import Mathlib.Logic.Function.Basic

/-!
# Programs over a shared backend

A program performs one command after the other on a backend that it shares with other
programs, and goes on with the reply; it ends by returning a value or by raising an
error. A service runs the programs of many users, one command at a time and in any order.

A contract says which commands a program may perform, given what it may reckon with in
the replies.

Results:
* `Prog.Keeps.bind`: a contract is kept by a program if its parts keep it.
* `Service.keeps_step`: a service whose handlers keep their contracts keeps them in every
  step.
-/

namespace Lib

/-- `Reply c` is the type of the replies to the command `c`. -/
inductive Prog (Cmd : Type) (Reply : Cmd → Type) (ε α : Type)
  | ret (value : α)
  | raise (error : ε)
  | call (command : Cmd) (next : Reply command → Prog Cmd Reply ε α)

section

variable {Cmd : Type} {Reply : Cmd → Type} {ε α β : Type}

namespace Prog

def bind : Prog Cmd Reply ε α → (α → Prog Cmd Reply ε β) → Prog Cmd Reply ε β
  | .ret value, f => f value
  | .raise error, _ => .raise error
  | .call command next, f => .call command fun reply => (next reply).bind f

instance : Monad (Prog Cmd Reply ε) where
  pure := .ret
  bind := .bind

/-- The program that performs one command. -/
def perform (command : Cmd) : Prog Cmd Reply ε (Reply command) := .call command .ret

/-- How the program has ended; `none`: it has not. -/
def result : Prog Cmd Reply ε α → Option (Except ε α)
  | .ret value => some (.ok value)
  | .raise error => some (.error error)
  | .call _ _ => none

end Prog

/-! ## Contracts -/

/-- What a program may do, and what it reckons with: `refuses c r = some e` says that the
    reply `r` to `c` makes it raise `e`. -/
structure Contract (Cmd : Type) (Reply : Cmd → Type) (ε : Type) where
  may : Cmd → Prop
  expects : (command : Cmd) → Reply command → Prop
  refuses : (command : Cmd) → Reply command → Option ε

/-- The program keeps the contract, and returns only values that satisfy `post`. -/
def Prog.Keeps (contract : Contract Cmd Reply ε) (post : α → Prop) : Prog Cmd Reply ε α → Prop
  | .ret value => post value
  | .raise _ => True
  | .call command next => contract.may command ∧ ∀ reply, contract.expects command reply →
      (∀ error, contract.refuses command reply = some error → next reply = .raise error) ∧
        (next reply).Keeps contract post

variable {contract : Contract Cmd Reply ε} {post : α → Prop} {post' : β → Prop}

/-- **Composition.** -/
theorem Prog.Keeps.bind {x : Prog Cmd Reply ε α} {f : α → Prog Cmd Reply ε β}
    (hx : x.Keeps contract post) (hf : ∀ value, post value → (f value).Keeps contract post') :
    (x >>= f).Keeps contract post' := by
  show (x.bind f).Keeps contract post'
  induction x with
  | ret value => exact hf value hx
  | raise error => trivial
  | call command next ih =>
    refine ⟨hx.1, fun reply hreply => ⟨fun error herror => ?_, ih reply (hx.2 reply hreply).2⟩⟩
    show (next reply).bind f = _
    rw [(hx.2 reply hreply).1 error herror]
    rfl

/-- A command whose replies refuse nothing, and what follows. -/
theorem Prog.keeps_perform_bind {command : Cmd} {f : Reply command → Prog Cmd Reply ε β}
    (hmay : contract.may command) (hrefuses : ∀ reply, contract.refuses command reply = none)
    (hf : ∀ reply, contract.expects command reply → (f reply).Keeps contract post') :
    (Prog.perform command >>= f).Keeps contract post' := by
  refine ⟨hmay, fun reply hreply => ⟨fun error herror => ?_, hf reply hreply⟩⟩
  rw [hrefuses] at herror
  cases herror

end

/-! ## A service -/

/-- What happens at a service: a request comes in, or the `i`-th call of the user performs
    its next command. -/
inductive Event (ι : Type)
  | request (request : ι)
  | resume (i : ℕ)
  deriving DecidableEq

structure Arrival (T U ι : Type) where
  time : T
  user : U
  event : Event ι
  deriving DecidableEq

/-- The backend, and every user's calls, in the order of the requests. -/
structure Service (σ U Cmd : Type) (Reply : Cmd → Type) (ε α : Type) where
  backend : σ
  calls : U → List (Prog Cmd Reply ε α)

section

variable {T U ι σ Cmd : Type} {Reply : Cmd → Type} {ε α : Type} [DecidableEq U]
  (handler : U → ι → Prog Cmd Reply ε α)
  (exec : T → σ → (command : Cmd) → σ × Reply command)

namespace Service

/-- One event; a call that has ended performs no more commands. -/
def step (s : Service σ U Cmd Reply ε α) (a : Arrival T U ι) :
    Option (Service σ U Cmd Reply ε α) :=
  match a.event with
  | .request request => some { s with
      calls := Function.update s.calls a.user (s.calls a.user ++ [handler a.user request]) }
  | .resume i =>
    match (s.calls a.user)[i]? with
    | some (.call command next) => some
        { backend := (exec a.time s.backend command).1
          calls := Function.update s.calls a.user
            ((s.calls a.user).set i (next (exec a.time s.backend command).2)) }
    | _ => none

/-- What the user has been answered, request by request. -/
def responses (s : Service σ U Cmd Reply ε α) (u : U) : List (Option (Except ε α)) :=
  (s.calls u).map Prog.result

/-- The command that the event performs. -/
def command (s : Service σ U Cmd Reply ε α) (a : Arrival T U ι) : Option Cmd :=
  match a.event with
  | .request _ => none
  | .resume i =>
    match (s.calls a.user)[i]? with
    | some (.call command _) => some command
    | _ => none

end Service

variable {handler exec} {s s' : Service σ U Cmd Reply ε α} {a : Arrival T U ι}

/-- What an event does: a request starts its handler, or a call performs its command. -/
theorem Service.step_cases (h : s.step handler exec a = some s') :
    (∃ request, a.event = .request request ∧ s' = { s with
      calls := Function.update s.calls a.user (s.calls a.user ++ [handler a.user request]) }) ∨
    ∃ i command next, a.event = .resume i ∧ (s.calls a.user)[i]? = some (.call command next) ∧
      s' =
        { backend := (exec a.time s.backend command).1
          calls := Function.update s.calls a.user
            ((s.calls a.user).set i (next (exec a.time s.backend command).2)) } := by
  unfold step at h
  cases hevent : a.event with
  | request request =>
    rw [hevent] at h
    exact .inl ⟨request, rfl, (Option.some.inj h).symm⟩
  | resume i =>
    rw [hevent] at h
    dsimp only at h
    cases hcall : (s.calls a.user)[i]? with
    | none =>
      rw [hcall] at h
      cases h
    | some prog =>
      rw [hcall] at h
      cases prog with
      | ret value => cases h
      | raise error => cases h
      | call command next =>
        exact .inr ⟨i, command, next, rfl, hcall, (Option.some.inj h).symm⟩

/-- The calls of the other users are as they were. -/
theorem Service.calls_of_ne (h : s.step handler exec a = some s') {u : U} (hne : u ≠ a.user) :
    s'.calls u = s.calls u := by
  obtain ⟨request, -, rfl⟩ | ⟨i, command, next, -, -, rfl⟩ := step_cases h
  · exact Function.update_of_ne hne ..
  · exact Function.update_of_ne hne ..

/-- A call that has ended stays ended. -/
theorem Service.result_stays (h : s.step handler exec a = some s') {u : U} {i : ℕ}
    {prog : Prog Cmd Reply ε α} (hcall : (s.calls u)[i]? = some prog)
    {outcome : Except ε α} (hended : prog.result = some outcome) :
    (s'.calls u)[i]? = some prog := by
  by_cases hu : u = a.user
  · subst hu
    obtain ⟨request, -, rfl⟩ | ⟨j, command, next, -, hj, rfl⟩ := step_cases h
    · dsimp only
      rw [Function.update_self]
      exact getElem?_append_here hcall _
    · have hij : j ≠ i := by
        rintro rfl
        obtain rfl := Option.some.inj (hj.symm.trans hcall)
        cases hended
      dsimp only
      rw [Function.update_self, List.getElem?_set_ne hij]
      exact hcall
  · rw [calls_of_ne h hu]
    exact hcall

/-- Every call of every user keeps that user's contract. -/
def Service.Keeps (contract : U → Contract Cmd Reply ε) (s : Service σ U Cmd Reply ε α) : Prop :=
  ∀ u, ∀ prog ∈ s.calls u, prog.Keeps (contract u) fun _ => True

/-- The handlers that requests start keep the contracts, and so do the calls, whose
    replies are as expected. -/
theorem Service.keeps_step {contract : U → Contract Cmd Reply ε} (hs : s.Keeps contract)
    (hhandler : ∀ request, a.event = .request request →
      (handler a.user request).Keeps (contract a.user) fun _ => True)
    (hreply : ∀ command, (contract a.user).may command →
      (contract a.user).expects command (exec a.time s.backend command).2)
    (h : s.step handler exec a = some s') : s'.Keeps contract := by
  intro u
  by_cases hu : u = a.user
  · subst hu
    obtain ⟨request, hevent, rfl⟩ | ⟨i, command, next, -, hcall, rfl⟩ := step_cases h
    · dsimp only
      rw [Function.update_self]
      intro prog hprog
      obtain hold | hnew := List.mem_append.mp hprog
      · exact hs _ prog hold
      · rw [List.mem_singleton.mp hnew]
        exact hhandler request hevent
    · dsimp only
      rw [Function.update_self]
      obtain ⟨hmay, hnext⟩ := hs _ _ (List.mem_of_getElem? hcall)
      exact forall_set (hs _) (hnext _ (hreply command hmay)).2
  · rw [calls_of_ne h hu]
    exact hs u

end

end Lib
