import IronLink.Lib.Calls
import IronLink.Lib.Run
import IronLink.Ws.Manager

/-!
# Presence under concurrency

Calls of `register`, `heartbeat` and `unregister` on any number of replicas that
share one Redis (app/services/ws_manager.py:37-75), one Redis command after the
other. `register` and `heartbeat` are one command each. `unregister` is three: it
drops the connection, counts those that are left, and, when none is, takes the user
out of `ws:online`. A replica may stop in between.

Results:
* `RegistryInv.step`: a user in `ws:online` has a connection, or a call of theirs is
  on its way to find out that they have none.
* `presence_exact`: presence is exact whenever no call is running, unless a user
  registers between the count of an `unregister` and the removal it leads to.
* `silent_offline`: a silent user is offline after 90 seconds, unless one of their
  connections stays without a completed `unregister`.
-/

namespace IronLink.Ws

open Lib

/-! ## Model -/

/-- What an `unregister` call does next. -/
inductive UnregisterPc
  /-- the pipeline that drops the connection -/
  | leaving
  /-- `scard` -/
  | counting
  /-- `srem`, after a count of zero -/
  | goingOffline
  deriving DecidableEq

/-- A call of `unregister` that has not returned; `stopped` when its replica has. -/
structure Unregister where
  userId : UUID
  connectionId : String
  pc : UnregisterPc
  stopped : Bool
  deriving DecidableEq

/-- Redis, the clock and the calls. The last two fields are no data of the program:
    the connections that are registered and not unregistered, and when a connection
    of a user was last registered or heart-beaten. -/
structure Registry where
  presence : Presence
  now : Time
  calls : List Unregister
  live : Finset (UUID × String)
  heard : UUID → Option Time

/-- Nobody is connected. -/
def Registry.init (now : Time) : Registry := ⟨Presence.empty, now, [], ∅, fun _ => none⟩

inductive RegistryAction
  /-- `register`, which draws `connectionId` -/
  | register (userId : UUID) (connectionId : String)
  | heartbeat (userId : UUID) (connectionId : String)
  /-- a call of `unregister` begins -/
  | unregister (userId : UUID) (connectionId : String)
  /-- the next command of the call `i` -/
  | next (i : ℕ)
  /-- the replica that runs the call `i` stops -/
  | stop (i : ℕ)
  | tick (d : ℕ)

/-- The next command of a call; `none` when the call returns after it. -/
def Unregister.next (s : Registry) (i : ℕ) (c : Unregister) : Registry :=
  match c.pc with
  | .leaving =>
    { s with
      presence := leave s.presence c.userId c.connectionId
      live := s.live.erase (c.userId, c.connectionId)
      calls := s.calls.set i { c with pc := .counting } }
  | .counting =>
    if remaining s.presence c.userId = 0 then
      { s with calls := s.calls.set i { c with pc := .goingOffline } }
    else { s with calls := s.calls.eraseIdx i }
  | .goingOffline =>
    { s with presence := goOffline s.presence c.userId, calls := s.calls.eraseIdx i }

def registryStep (s : Registry) : RegistryAction → Option Registry
  | .register userId connectionId =>
    some { s with
      presence := register s.presence s.now userId connectionId
      live := insert (userId, connectionId) s.live
      heard := Function.update s.heard userId (some s.now) }
  | .heartbeat userId connectionId =>
    if (userId, connectionId) ∈ s.live then
      some { s with
        presence := heartbeat s.presence s.now connectionId
        heard := Function.update s.heard userId (some s.now) }
    else none
  | .unregister userId connectionId =>
    some { s with calls := s.calls ++ [⟨userId, connectionId, .leaving, false⟩] }
  | .next i =>
    match s.calls[i]? with
    | none => none
    | some c => if c.stopped then none else some (c.next s i)
  | .stop i =>
    (s.calls[i]?).map fun c => { s with calls := s.calls.set i { c with stopped := true } }
  | .tick d => some { s with now := s.now + d }

/-! ## Property and condition -/

/-- When no call is running, the users in `ws:online` are those with a connection
    that is registered and not unregistered. -/
def PresenceExact (s : Registry) : Prop :=
  s.calls = [] → ∀ u, isOnline s.presence u = true ↔ ∃ connectionId, (u, connectionId) ∈ s.live

/-- A running call has counted zero connections of `u` and is yet to remove the user. -/
def Removing (calls : List Unregister) (u : UUID) : Prop :=
  ∃ c ∈ calls, c.userId = u ∧ c.pc = .goingOffline ∧ c.stopped = false

instance (calls : List Unregister) (u : UUID) : Decidable (Removing calls u) := by
  unfold Removing
  infer_instance

/-- No user registers between the count of zero of an `unregister` call and the
    removal. -/
def CountHolds (s : Registry) : RegistryAction → Prop
  | .register userId _ => ¬ Removing s.calls userId
  | _ => True

instance decidableCountHolds (s : Registry) : (a : RegistryAction) → Decidable (CountHolds s a)
  | .register _ _ => inferInstanceAs (Decidable (¬ _))
  | .heartbeat _ _ => isTrue trivial
  | .unregister _ _ => isTrue trivial
  | .next _ => isTrue trivial
  | .stop _ => isTrue trivial
  | .tick _ => isTrue trivial

/-- A connection of `u` was registered or heart-beaten less than `CONN_TTL_SECONDS`
    before `t`. -/
def HeardBefore (s : Registry) (u : UUID) (t : Time) : Prop :=
  ∃ r ∈ s.heard u, t - r < seconds CONN_TTL_SECONDS

instance (s : Registry) (u : UUID) (t : Time) : Decidable (HeardBefore s u t) :=
  inferInstanceAs (Decidable (∃ _ ∈ _, _))

/-- Whoever is online has been heard of. -/
def OnlineHeard (s : Registry) : Prop :=
  ∀ u, isOnline s.presence u = true → HeardBefore s u s.now

/-- By the time it gets, every user has been heard of who has a connection that is not
    unregistered, or a call of `unregister` that has not returned. -/
def CleansUp (s : Registry) : RegistryAction → Prop
  | .tick d =>
    (∀ p ∈ s.live, HeardBefore s p.1 (s.now + d)) ∧
      ∀ c ∈ s.calls, HeardBefore s c.userId (s.now + d)
  | _ => True

instance decidableCleansUp (s : Registry) : (a : RegistryAction) → Decidable (CleansUp s a)
  | .register _ _ => isTrue trivial
  | .heartbeat _ _ => isTrue trivial
  | .unregister _ _ => isTrue trivial
  | .next _ => isTrue trivial
  | .stop _ => isTrue trivial
  | .tick _ => inferInstanceAs (Decidable ((∀ _ ∈ _, _) ∧ ∀ _ ∈ _, _))

/-! ## Invariants -/

variable {s s' : Registry} {a : RegistryAction} {u : UUID}

/-- The user has a registered connection. -/
def HasConnection (s : Registry) (u : UUID) : Prop := ∃ connectionId, (u, connectionId) ∈ s.live

/-- A call of the user has dropped its connection and not returned. -/
def Departing (calls : List Unregister) (u : UUID) : Prop :=
  ∃ c ∈ calls, c.userId = u ∧ c.pc ≠ .leaving

structure RegistryInv (s : Registry) : Prop where
  conns : ∀ u connectionId, connectionId ∈ s.presence.userConns u ↔ (u, connectionId) ∈ s.live
  online : ∀ u, u ∈ s.presence.online → HasConnection s u ∨ Departing s.calls u

theorem registryInv_init (now : Time) : RegistryInv (Registry.init now) := by
  refine ⟨?_, ?_⟩
  · intro u connectionId
    show connectionId ∈ (∅ : Finset String) ↔ (u, connectionId) ∈ (∅ : Finset (UUID × String))
    simp
  · intro u hu
    cases hu

section

variable {calls : List Unregister} {i : ℕ} {c c' : Unregister}

/-- A call that is counting or going offline keeps a user departing. -/
theorem departing_set (h : Departing calls u) (hc : calls[i]? = some c)
    (huser : c'.userId = c.userId) (hpc : c.pc ≠ .leaving → c'.pc ≠ .leaving) :
    Departing (calls.set i c') u := by
  obtain ⟨x, hx, hu, hleft⟩ := h
  by_cases heq : x = c
  · subst heq
    refine ⟨c', ?_, huser.trans hu, hpc hleft⟩
    obtain ⟨hi, -⟩ := List.getElem?_eq_some_iff.mp hc
    exact List.mem_set hi c'
  · exact ⟨x, mem_set_of_ne hx hc heq c', hu, hleft⟩

/-- Another user's call returns. -/
theorem departing_eraseIdx (h : Departing calls u) (hc : calls[i]? = some c)
    (hother : c.userId ≠ u) : Departing (calls.eraseIdx i) u := by
  obtain ⟨x, hx, hu, hleft⟩ := h
  refine ⟨x, mem_eraseIdx_of_ne hx hc ?_, hu, hleft⟩
  rintro rfl
  exact hother hu

end

theorem mem_userConns_register {p : Presence} {now : Time} {userId : UUID}
    {connectionId connectionId' : String} :
    connectionId' ∈ (register p now userId connectionId).userConns u ↔
      (u, connectionId') = (userId, connectionId) ∨ connectionId' ∈ p.userConns u := by
  unfold register
  by_cases hu : u = userId
  · subst hu
    simp
  · simp [hu]

theorem mem_userConns_leave {p : Presence} {userId : UUID} {connectionId connectionId' : String} :
    connectionId' ∈ (leave p userId connectionId).userConns u ↔
      (u, connectionId') ≠ (userId, connectionId) ∧ connectionId' ∈ p.userConns u := by
  unfold leave
  by_cases hu : u = userId
  · subst hu
    simp
  · simp [hu]

theorem remaining_eq_zero (h : RegistryInv s) :
    remaining s.presence u = 0 ↔ ¬ HasConnection s u := by
  unfold remaining HasConnection
  rw [Finset.card_eq_zero, Finset.eq_empty_iff_forall_notMem]
  simp [h.conns]

/-- The next command of a call keeps the invariant. -/
theorem RegistryInv.next (h : RegistryInv s) {i : ℕ} {c : Unregister} (hc : s.calls[i]? = some c) :
    RegistryInv (c.next s i) := by
  have hcounts : c ∈ s.calls := List.mem_of_getElem? hc
  unfold Unregister.next
  cases hpc : c.pc with
  | leaving =>
    refine ⟨?_, fun u hu => ?_⟩
    · intro u connectionId
      show connectionId ∈ (leave s.presence c.userId c.connectionId).userConns u ↔ _
      rw [mem_userConns_leave, h.conns, Finset.mem_erase]
    · by_cases huser : u = c.userId
      · -- the call that has dropped the connection now counts
        refine .inr ⟨{ c with pc := .counting }, ?_, huser.symm, by simp⟩
        obtain ⟨hi, -⟩ := List.getElem?_eq_some_iff.mp hc
        exact List.mem_set hi _
      · rcases h.online u hu with ⟨connectionId, hlive⟩ | hdeparting
        · refine .inl ⟨connectionId, Finset.mem_erase.mpr ⟨?_, hlive⟩⟩
          intro heq
          exact huser (Prod.mk.inj heq).1
        · exact .inr (departing_set hdeparting hc rfl fun hne => absurd hpc hne)
  | counting =>
    dsimp only
    split_ifs with hzero
    · refine ⟨h.conns, fun u hu => (h.online u hu).imp_right fun hdeparting => ?_⟩
      exact departing_set hdeparting hc rfl fun _ => by simp
    · refine ⟨h.conns, fun u hu => ?_⟩
      by_cases huser : c.userId = u
      · -- the count found a connection
        rw [remaining_eq_zero h, not_not, huser] at hzero
        exact .inl hzero
      · exact (h.online u hu).imp_right fun hdeparting =>
          departing_eraseIdx hdeparting hc huser
  | goingOffline =>
    refine ⟨h.conns, fun u hu => ?_⟩
    obtain ⟨hne, hu⟩ := online_goOffline.mp hu
    exact (h.online u hu).imp_right fun hdeparting =>
      departing_eraseIdx hdeparting hc hne.symm

/-- A call whose replica runs takes its next command. -/
theorem registryStep_next {i : ℕ} (hs : registryStep s (.next i) = some s') :
    ∃ c, s.calls[i]? = some c ∧ c.stopped = false ∧ s' = c.next s i := by
  simp only [registryStep] at hs
  cases hc : s.calls[i]? with
  | none =>
    rw [hc] at hs
    cases hs
  | some c =>
    simp only [hc] at hs
    split_ifs at hs with hstopped
    exact ⟨c, rfl, Bool.eq_false_iff.mpr hstopped, (Option.some.inj hs).symm⟩

/-- **Step.** Nobody is online without a connection, but for a call that is about to
    notice. -/
theorem RegistryInv.step (s : Registry) (a : RegistryAction) (s' : Registry) (h : RegistryInv s)
    (hs : registryStep s a = some s') : RegistryInv s' := by
  cases a with
  | register userId connectionId =>
    obtain rfl := Option.some.inj hs
    refine ⟨?_, fun u hu => ?_⟩
    · intro u connectionId'
      show connectionId' ∈ (register s.presence s.now userId connectionId).userConns u ↔ _
      rw [mem_userConns_register, h.conns, Finset.mem_insert]
    · rcases online_register.mp hu with rfl | hu
      · exact .inl ⟨connectionId, Finset.mem_insert_self _ _⟩
      · exact (h.online u hu).imp_left fun ⟨c, hc⟩ => ⟨c, Finset.mem_insert_of_mem hc⟩
  | heartbeat userId connectionId =>
    simp only [registryStep] at hs
    split_ifs at hs
    obtain rfl := Option.some.inj hs
    exact ⟨h.conns, h.online⟩
  | unregister userId connectionId =>
    obtain rfl := Option.some.inj hs
    refine ⟨h.conns, fun u hu => (h.online u hu).imp_right ?_⟩
    rintro ⟨c, hc, huser, hleft⟩
    exact ⟨c, List.mem_append_left _ hc, huser, hleft⟩
  | next i =>
    obtain ⟨c, hc, -, rfl⟩ := registryStep_next hs
    exact h.next hc
  | stop i =>
    obtain ⟨c, hc, rfl⟩ := Option.map_eq_some_iff.mp hs
    exact ⟨h.conns, fun u hu => (h.online u hu).imp_right fun hdeparting =>
      departing_set hdeparting hc rfl id⟩
  | tick d =>
    obtain rfl := Option.some.inj hs
    exact ⟨h.conns, h.online⟩

/-! ## Presence -/

/-- What holds in every run in which the counts hold. -/
structure ShownInv (s : Registry) : Prop where
  /-- whoever has a connection is in `ws:online` -/
  shown : ∀ p ∈ s.live, p.1 ∈ s.presence.online
  /-- whoever is about to be removed has none -/
  removing : ∀ p ∈ s.live, ¬ Removing s.calls p.1

theorem shownInv_init (now : Time) : ShownInv (Registry.init now) := by
  constructor
  · intro p hp
    cases hp
  · intro p hp
    cases hp

section

variable {calls : List Unregister} {i : ℕ} {c c' : Unregister}

theorem not_removing_set (h : ¬ Removing calls u)
    (hc' : c'.userId = u → c'.pc = .goingOffline → c'.stopped = true) :
    ¬ Removing (calls.set i c') u := by
  rintro ⟨x, hx, huser, hpc, hrunning⟩
  rcases List.mem_or_eq_of_mem_set hx with hx | rfl
  · exact h ⟨x, hx, huser, hpc, hrunning⟩
  · rw [hc' huser hpc] at hrunning
    cases hrunning

theorem not_removing_eraseIdx (h : ¬ Removing calls u) : ¬ Removing (calls.eraseIdx i) u := by
  rintro ⟨x, hx, hrest⟩
  exact h ⟨x, List.mem_of_mem_eraseIdx hx, hrest⟩

end

/-- The next command of a call: a count of zero is that of a user without a connection,
    and still is when the user is removed. -/
theorem ShownInv.next (hinv : RegistryInv s) (h : ShownInv s) {i : ℕ} {c : Unregister}
    (hc : s.calls[i]? = some c) (hrunning : c.stopped = false) : ShownInv (c.next s i) := by
  unfold Unregister.next
  cases hpc : c.pc with
  | leaving =>
    refine ⟨fun p hp => h.shown p (Finset.mem_of_mem_erase hp), fun p hp => ?_⟩
    refine not_removing_set (h.removing p (Finset.mem_of_mem_erase hp)) ?_
    intro _ hgoing
    cases hgoing
  | counting =>
    dsimp only
    split_ifs with hzero
    · refine ⟨h.shown, fun p hp => ?_⟩
      refine not_removing_set (h.removing p hp) fun huser _ => ?_
      rw [remaining_eq_zero hinv] at hzero
      exact absurd ⟨p.2, by rw [show c.userId = p.1 from huser]; exact hp⟩ hzero
    · exact ⟨h.shown, fun p hp => not_removing_eraseIdx (h.removing p hp)⟩
  | goingOffline =>
    refine ⟨fun p hp => online_goOffline.mpr ⟨?_, h.shown p hp⟩,
      fun p hp => not_removing_eraseIdx (h.removing p hp)⟩
    intro huser
    exact h.removing p hp ⟨c, List.mem_of_getElem? hc, huser.symm, hpc, hrunning⟩

theorem shownInv_step (hinv : RegistryInv s) (h : ShownInv s) (hg : CountHolds s a)
    (hs : registryStep s a = some s') : ShownInv s' := by
  cases a with
  | register userId connectionId =>
    obtain rfl := Option.some.inj hs
    constructor
    · intro p hp
      rw [online_register]
      rcases Finset.mem_insert.mp hp with rfl | hp
      · exact .inl rfl
      · exact .inr (h.shown p hp)
    · intro p hp
      rcases Finset.mem_insert.mp hp with rfl | hp
      · exact hg
      · exact h.removing p hp
  | heartbeat userId connectionId =>
    simp only [registryStep] at hs
    split_ifs at hs
    obtain rfl := Option.some.inj hs
    exact ⟨h.shown, h.removing⟩
  | unregister userId connectionId =>
    obtain rfl := Option.some.inj hs
    refine ⟨h.shown, fun p hp => ?_⟩
    rintro ⟨c, hc, huser, hpc, hrunning⟩
    rcases List.mem_append.mp hc with hc | hc
    · exact h.removing p hp ⟨c, hc, huser, hpc, hrunning⟩
    · obtain rfl := List.mem_singleton.mp hc
      cases hpc
  | next i =>
    obtain ⟨c, hc, hrunning, rfl⟩ := registryStep_next hs
    exact ShownInv.next hinv h hc hrunning
  | stop i =>
    obtain ⟨c, hc, rfl⟩ := Option.map_eq_some_iff.mp hs
    exact ⟨h.shown, fun p hp => not_removing_set (h.removing p hp) fun _ _ => rfl⟩
  | tick d =>
    obtain rfl := Option.some.inj hs
    exact ⟨h.shown, h.removing⟩

/-- **Presence is exact** in every state of a run in which no user registers between
    the count of zero of an `unregister` call and the removal. -/
theorem presence_exact (now : Time) (as : List RegistryAction)
    (hg : Guarded registryStep CountHolds (Registry.init now) as) :
    Throughout registryStep PresenceExact (Registry.init now) as := by
  rintro pre post rfl s hs
  obtain ⟨hpre, -⟩ := guarded_append.mp hg
  have hinv : RegistryInv s ∧ ShownInv s := by
    refine hpre.invariant (I := fun s => RegistryInv s ∧ ShownInv s) ?_
      ⟨registryInv_init now, shownInv_init now⟩ hs
    intro s a s' h hg hs
    exact ⟨h.1.step s a s' hs, shownInv_step h.1 h.2 hg hs⟩
  intro hquiet u
  rw [isOnline_iff]
  constructor
  · intro hu
    refine (hinv.1.online u hu).resolve_right ?_
    rintro ⟨c, hc, -⟩
    rw [hquiet] at hc
    cases hc
  · rintro ⟨connectionId, hlive⟩
    exact hinv.2.shown _ hlive

/-- Two devices connect one after the other and disconnect, and a third one connects
    once the user has been removed. -/
def twoDevices : List RegistryAction :=
  [.register 7 "c1", .register 7 "c2", .unregister 7 "c1", .next 0, .next 0,
    .unregister 7 "c2", .next 0, .next 0, .next 0, .register 7 "c3"]

theorem presence_exact_twoDevices :
    ∃ s ∈ run registryStep (Registry.init 0) twoDevices, isOnline s.presence 7 = true := by
  have hrun : Guarded registryStep CountHolds (Registry.init 0) twoDevices ∧
      ∃ s ∈ run registryStep (Registry.init 0) twoDevices, s.calls = [] ∧ (7, "c3") ∈ s.live := by
    decide +kernel
  obtain ⟨hg, s, hs, hquiet, hlive⟩ := hrun
  have hexact := presence_exact 0 twoDevices hg twoDevices [] (by simp) s hs
  exact ⟨s, hs, (hexact hquiet 7).mpr ⟨"c3", hlive⟩⟩

/-- The second device connects between the count and the removal. -/
def reconnectInBetween : List RegistryAction :=
  [.register 7 "c1", .unregister 7 "c1", .next 0, .next 0, .register 7 "c2", .next 0]

/-- No call is running, the second device is connected, and the user is offline. -/
theorem reconnect_hidden :
    ∃ s ∈ run registryStep (Registry.init 0) reconnectInBetween,
      s.calls = [] ∧ (7, "c2") ∈ s.live ∧ isOnline s.presence 7 = false := by
  decide +kernel

/-! ## Silence -/

theorem HeardBefore.mono {t : Time} (h : HeardBefore s u t) (hs : s'.heard u = s.heard u) :
    HeardBefore s' u t := by
  unfold HeardBefore
  rw [hs]
  exact h

/-- Whoever has just been heard of, and whoever had been heard of before. -/
theorem heardBefore_update {userId : UUID} {t : Time} (h : u = userId ∨ HeardBefore s u t)
    (hs : s'.heard = Function.update s.heard userId (some t)) : HeardBefore s' u t := by
  unfold HeardBefore
  rw [hs]
  by_cases hu : u = userId
  · subst hu
    refine ⟨t, by simp, ?_⟩
    rw [sub_self]
    decide
  · rw [Function.update_of_ne hu]
    exact h.resolve_left hu

theorem onlineHeard_step (hinv : RegistryInv s) (h : OnlineHeard s) (hg : CleansUp s a)
    (hs : registryStep s a = some s') : OnlineHeard s' := by
  have hsame : ∀ u, u ∈ s.presence.online → HeardBefore s u s.now :=
    fun u hu => h u (isOnline_iff.mpr hu)
  intro u hu
  rw [isOnline_iff] at hu
  cases a with
  | register userId connectionId =>
    obtain rfl := Option.some.inj hs
    exact heardBefore_update ((online_register.mp hu).imp_right (hsame u)) rfl
  | heartbeat userId connectionId =>
    simp only [registryStep] at hs
    split_ifs at hs
    obtain rfl := Option.some.inj hs
    exact heardBefore_update (.inr (hsame u hu)) rfl
  | unregister userId connectionId =>
    obtain rfl := Option.some.inj hs
    exact (hsame u hu).mono rfl
  | next i =>
    obtain ⟨c, hc, -, rfl⟩ := registryStep_next hs
    unfold Unregister.next at hu ⊢
    cases hpc : c.pc with
    | leaving =>
      rw [hpc] at hu
      exact (hsame u hu).mono rfl
    | counting =>
      rw [hpc] at hu
      dsimp only at hu ⊢
      split_ifs at hu ⊢ <;> exact (hsame u hu).mono rfl
    | goingOffline =>
      rw [hpc] at hu
      exact (hsame u (online_goOffline.mp hu).2).mono rfl
  | stop i =>
    obtain ⟨c, hc, rfl⟩ := Option.map_eq_some_iff.mp hs
    exact (hsame u hu).mono rfl
  | tick d =>
    obtain rfl := Option.some.inj hs
    -- who is online has a connection, or a call that has not returned
    obtain ⟨hlive, hcalls⟩ := hg
    rcases hinv.online u hu with ⟨connectionId, hconn⟩ | ⟨c, hc, rfl, -⟩
    · exact (hlive _ hconn).mono rfl
    · exact (hcalls c hc).mono rfl

/-- **Dead sockets** keep nobody online, in every run in which each user is heard of
    every 90 seconds until `unregister` has returned for all their connections. -/
theorem silent_offline (now : Time) (as : List RegistryAction)
    (hg : Guarded registryStep CleansUp (Registry.init now) as) :
    Throughout registryStep OnlineHeard (Registry.init now) as := by
  rintro pre post rfl s hs
  obtain ⟨hpre, -⟩ := guarded_append.mp hg
  refine (hpre.invariant (I := fun s => RegistryInv s ∧ OnlineHeard s) ?_
    ⟨registryInv_init now, ?_⟩ hs).2
  · intro s a s' h hg hs
    exact ⟨h.1.step s a s' hs, onlineHeard_step h.1 h.2 hg hs⟩
  · intro u hu
    rw [isOnline_iff] at hu
    cases hu

/-- A device connects, is heard of after a minute and disconnects cleanly; two minutes
    go by. -/
def cleanDisconnect : List RegistryAction :=
  [.register 7 "c1", .tick 60000000, .heartbeat 7 "c1", .tick 60000000, .unregister 7 "c1",
    .next 0, .next 0, .next 0, .tick 120000000]

theorem silent_offline_cleanDisconnect :
    Throughout registryStep OnlineHeard (Registry.init 0) cleanDisconnect :=
  silent_offline 0 cleanDisconnect (by decide +kernel)

/-- The replica of a socket stops, without an `unregister` or in the middle of it. -/
def deadSocket : List RegistryAction := [.register 7 "c1", .tick 90000000]

def deadCall : List RegistryAction :=
  [.register 7 "c1", .unregister 7 "c1", .next 0, .stop 0, .tick 90000000]

/-- The user stays online, for good. -/
theorem dead_stays_online :
    (∃ s ∈ run registryStep (Registry.init 0) deadSocket, ∀ d : ℕ,
      ∃ s' ∈ registryStep s (.tick d), isOnline s'.presence 7 = true ∧ ¬ OnlineHeard s') ∧
    ∃ s ∈ run registryStep (Registry.init 0) deadCall, ∀ d : ℕ,
      ∃ s' ∈ registryStep s (.tick d), isOnline s'.presence 7 = true ∧ ¬ OnlineHeard s' := by
  have hlate : ∀ s : Registry, isOnline s.presence 7 = true → s.heard 7 = some 0 →
      s.now = 90000000 → ∀ d : ℕ,
        ∃ s' ∈ registryStep s (.tick d), isOnline s'.presence 7 = true ∧ ¬ OnlineHeard s' := by
    intro s honline hheard hnow d
    refine ⟨_, rfl, honline, fun h => ?_⟩
    obtain ⟨r, hr, hlt⟩ := h 7 honline
    obtain rfl := Option.some.inj (hheard.symm.trans hr)
    change s.now + d - 0 < seconds CONN_TTL_SECONDS at hlt
    rw [hnow] at hlt
    have hlt : (90000000 : ℤ) + d - 0 < 90000000 := hlt
    omega
  have hsocket : ∃ s ∈ run registryStep (Registry.init 0) deadSocket,
      isOnline s.presence 7 = true ∧ s.heard 7 = some 0 ∧ s.now = 90000000 := by decide +kernel
  have hcall : ∃ s ∈ run registryStep (Registry.init 0) deadCall,
      isOnline s.presence 7 = true ∧ s.heard 7 = some 0 ∧ s.now = 90000000 := by decide +kernel
  obtain ⟨s, hs, honline, hheard, hnow⟩ := hsocket
  obtain ⟨t, ht, honline', hheard', hnow'⟩ := hcall
  exact ⟨⟨s, hs, hlate s honline hheard hnow⟩, t, ht, hlate t honline' hheard' hnow'⟩

end IronLink.Ws
