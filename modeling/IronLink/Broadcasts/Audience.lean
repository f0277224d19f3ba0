import IronLink.Broadcasts.Banner

/-!
# Who gets a broadcast

The target of a broadcast is worked out three times: by `send_broadcast` for the
count and the pushes, by the devices for the frame that goes to all of them, and by
`unacked_broadcasts` for the banners of the next launch.

Results:
* `sent_counts`: what is counted and pushed are the targets.
* `sameAudience_iff`: the three agree exactly when the broadcast has no department;
  or has one that is not empty, which every connected user shares; or has the empty
  one, and so has every user.
* `frame_reaches_others`: the frame of a broadcast for one department becomes a banner
  everywhere.
-/

namespace IronLink.Broadcasts

open Lib Auth

/-! ## Model -/

/-- A connected device and the banners of its host. -/
structure Device where
  user : UUID
  pending : List BroadcastItem
  deriving DecidableEq

/-- The server and the connected devices. -/
structure BroadcastSystem where
  now : Time
  tables : Tables
  devices : List Device

/-- No broadcast so far, and nobody connected. -/
def BroadcastSystem.init (now : Time) (users : List Member) : BroadcastSystem :=
  ⟨now, ⟨users, [], [], []⟩, []⟩

/-- `publish_broadcast` and `_relay_loop` (app/api/routes/websocket.py:34-61): every
    connection listens on `chan:broadcast`. -/
def relay (devices : List Device) (f : Frame) : List Device :=
  devices.map fun d => { d with pending := onFrame d.pending f }

inductive SystemAction
  | connect (user : UUID)
  | disconnect (i : ℕ)
  | send (creds : Option AccessToken) (body : BroadcastIn) (id : UUID)
      (push : List String → Except HttpError ℕ)
  /-- the user acknowledges on the `i`-th device -/
  | ack (i : ℕ) (id : UUID)
  | tick (d : ℕ)

/-- The system after `send_broadcast`. -/
def BroadcastSystem.send (s : BroadcastSystem) (creds : Option AccessToken) (body : BroadcastIn)
    (id : UUID) (push : List String → Except HttpError ℕ) : BroadcastSystem :=
  let sent := sendBroadcast s.tables s.now creds body id push
  { s with
    tables := sent.tables
    devices := sent.published.elim s.devices (relay s.devices) }

def systemStep (s : BroadcastSystem) : SystemAction → Option BroadcastSystem
  | .connect user => some { s with devices := s.devices ++ [⟨user, []⟩] }
  | .disconnect i => some { s with devices := s.devices.eraseIdx i }
  | .send creds body id push => some (s.send creds body id push)
  | .ack i id => s.devices[i]?.map fun d => { s with
      tables := (ackBroadcast s.tables d.user id).1
      devices := s.devices.set i { d with pending := onAck d.pending id.str } }
  | .tick d => some { s with now := s.now + d }

/-! ## The three audiences -/

def BroadcastSystem.connected (s : BroadcastSystem) (user : UUID) : Prop :=
  ∃ d ∈ s.devices, d.user = user

/-- The broadcast is a banner on every device of the user, and the user has one. -/
def BroadcastSystem.banner (s : BroadcastSystem) (user id : UUID) : Prop :=
  s.connected user ∧ ∀ d ∈ s.devices, d.user = user → id.str ∈ shownIds d.pending

/-- After the broadcast `id` with the fields `body` was sent in `s`, which led to `s'`:
    the targets among the connected users are those who get a banner; and at any later
    time, the targets among those who have not acknowledged it are those who find it in
    `/broadcasts/unacked`. -/
structure SameAudience (s s' : BroadcastSystem) (body : BroadcastIn) (id : UUID) : Prop where
  frame : ∀ member ∈ s.tables.users, member.status = .ACTIVE → s.connected member.id →
    (member ∈ targets s.tables.users body.department ↔ s'.banner member.id id)
  unacked : ∀ as later, run systemStep s' as = some later →
    ∀ member ∈ s.tables.users, member.status = .ACTIVE →
      later.tables.acked member.id id = false →
      (member ∈ targets s.tables.users body.department ↔ Lists later.tables member id)

/-- No ACTIVE user, or connected one, is left out by a comparison of departments. -/
def OneDepartment (s : BroadcastSystem) (department : Option String) : Prop :=
  ∀ member ∈ s.tables.users, member.status = .ACTIVE →
    (department = some "" → member.department = some "") ∧
      (truthy department = true → s.connected member.id → member.department = department)

variable {s s' : BroadcastSystem} {tables : Tables} {now : Time} {creds : Option AccessToken}
  {body : BroadcastIn} {id : UUID} {push : List String → Except HttpError ℕ}
  {users : List Member} {member : Member}

/-! ## Sending -/

/-- The count and the pushes are those of the targets. -/
theorem sent_counts {out : BroadcastOut}
    (h : (sendBroadcast tables now creds body id push).response = .ok out) :
    out.targetUsers = (targets tables.users body.department).length ∧
      (sendBroadcast tables now creds body id push).pushed =
        ((targets tables.users body.department).filterMap fun m => m.fcmToken).filter (· ≠ "") := by
  obtain ⟨e, heq⟩ | ⟨admin, -, heq⟩ := sendBroadcast_cases tables now creds body id push
  · rw [heq] at h
    cases h
  · rw [heq] at h ⊢
    refine ⟨?_, rfl⟩
    unfold recordBroadcast at h
    dsimp only at h
    cases hpush : push (((targets tables.users body.department).filterMap
        fun m => m.fcmToken).filter (· ≠ "")) with
    | error e =>
      rw [hpush] at h
      cases h
    | ok delivered =>
      rw [hpush] at h
      cases h
      rfl

theorem itemOfFrame_broadcastFrame (id : UUID) (body : BroadcastIn) :
    itemOfFrame (broadcastFrame id body) = some ⟨id.str, body.title, body.body⟩ := rfl

/-- A broadcast that was sent has its row, and its banner on every device. -/
theorem send_recorded (hsent : (sendBroadcast s.tables s.now creds body id push).published ≠ none) :
    (∀ b ∈ s.tables.broadcasts, b.id ≠ id) ∧
      (∃ b, b.id = id ∧ b.department = body.department ∧
        (s.send creds body id push).tables.broadcasts = s.tables.broadcasts ++ [b]) ∧
      (s.send creds body id push).tables.acks = s.tables.acks ∧
      (s.send creds body id push).devices = relay s.devices (broadcastFrame id body) := by
  unfold BroadcastSystem.send
  obtain ⟨e, heq⟩ | ⟨admin, hnew, heq⟩ := sendBroadcast_cases s.tables s.now creds body id push
  · rw [heq] at hsent
    exact absurd rfl hsent
  · rw [heq]
    exact ⟨hnew, ⟨_, rfl, rfl, rfl⟩, rfl, rfl⟩

theorem banner_send (hsent : (sendBroadcast s.tables s.now creds body id push).published ≠ none)
    {user : UUID} : (s.send creds body id push).banner user id ↔ s.connected user := by
  unfold BroadcastSystem.banner BroadcastSystem.connected
  rw [(send_recorded hsent).2.2.2]
  have hshown : ∀ d ∈ s.devices,
      id.str ∈ shownIds (onFrame d.pending (broadcastFrame id body)) := by
    intro d _
    rw [shownIds_onFrame, itemOfFrame_broadcastFrame]
    exact List.mem_cons_self
  unfold relay
  simp only [List.mem_map, exists_exists_and_eq_and, forall_exists_index, and_imp,
    forall_apply_eq_imp_iff₂]
  exact and_iff_left fun d hd _ => hshown d hd

/-! ## Every run -/

theorem system_step (s : BroadcastSystem) (a : SystemAction) (s' : BroadcastSystem)
    (h : TablesInv s.tables) (hs : systemStep s a = some s') :
    TablesInv s'.tables ∧ Grows s.tables s'.tables := by
  cases a with
  | connect user =>
    cases hs
    exact ⟨h, .refl _⟩
  | disconnect i =>
    cases hs
    exact ⟨h, .refl _⟩
  | send creds body id push =>
    cases hs
    exact tablesInv_send h ..
  | ack i id =>
    obtain ⟨d, -, rfl⟩ := Option.map_eq_some_iff.mp hs
    exact tablesInv_ack h ..
  | tick d =>
    cases hs
    exact ⟨h, .refl _⟩

theorem system_run {as : List SystemAction} (h : TablesInv s.tables)
    (hrun : run systemStep s as = some s') : TablesInv s'.tables ∧ Grows s.tables s'.tables :=
  ⟨run_invariant (I := fun s => TablesInv s.tables) (fun s a s' h hs => (system_step s a s' h hs).1)
      h hrun,
    run_relates (I := fun s => TablesInv s.tables) (R := fun s s' => Grows s.tables s'.tables)
      (fun _ => .refl _) (fun _ _ _ => Grows.trans) system_step h hrun⟩

/-- While the user has not acknowledged a broadcast, its department decides whether it
    is listed. -/
theorem lists_recorded (h : TablesInv tables) {b : Broadcast} (hb : b ∈ tables.broadcasts)
    (hacked : tables.acked member.id b.id = false) :
    Lists tables member b.id ↔ b.department = none ∨ b.department = member.department := by
  rw [lists_iff]
  constructor
  · rintro ⟨-, b', hb', hid, hdept⟩
    have hsame : b' = b := List.inj_on_of_nodup_map h.nodup hb' hb hid
    rwa [hsame] at hdept
  · exact fun hdept => ⟨hacked, b, hb, rfl, hdept⟩

/-- For an ACTIVE user the SQL of `send_broadcast` and the SQL of `unacked_broadcasts`
    differ in one case. -/
theorem targets_iff_department (hmember : member ∈ users) (hactive : member.status = .ACTIVE)
    (department : Option String) :
    (member ∈ targets users department ↔ department = none ∨ department = member.department) ↔
      (department = some "" → member.department = some "") := by
  rw [mem_targets]
  by_cases hempty : department = some ""
  · subst hempty
    simp [truthy, hmember, hactive, eq_comm]
  · cases department with
    | none => simp [truthy, hmember, hactive]
    | some d =>
      have hd : d ≠ "" := fun h => hempty (congrArg some h)
      simp [truthy, hmember, hactive, hd, eq_comm]

/-- **Audience.** In every run, a broadcast that is sent reaches the same users by the
    count and the pushes, by the frame and by `/broadcasts/unacked` if and only if its
    department leaves nobody out. -/
theorem sameAudience_iff (now : Time) (users : List Member) (as : List SystemAction)
    (s : BroadcastSystem) (hrun : run systemStep (BroadcastSystem.init now users) as = some s)
    (creds : Option AccessToken) (body : BroadcastIn) (id : UUID)
    (push : List String → Except HttpError ℕ)
    (hsent : (sendBroadcast s.tables s.now creds body id push).published ≠ none) :
    SameAudience s (s.send creds body id push) body id ↔ OneDepartment s body.department := by
  have hinit : TablesInv (BroadcastSystem.init now users).tables :=
    ⟨List.nodup_nil, fun ack hack => (by cases hack)⟩
  have hinv := (system_run hinit hrun).1
  have hinv' : TablesInv (s.send creds body id push).tables := (tablesInv_send hinv ..).1
  obtain ⟨hnew, ⟨b, hid, hdept, hrows⟩, hacks, -⟩ := send_recorded hsent
  have hb : b ∈ (s.send creds body id push).tables.broadcasts := by
    rw [hrows]
    exact List.mem_concat_self
  subst hid
  constructor
  · intro hsame member hmember hactive
    constructor
    · have hacked : (s.send creds body b.id push).tables.acked member.id b.id = false := by
        have hold := acked_of_new hinv hnew member.id
        unfold Tables.acked at hold ⊢
        rwa [hacks]
      have hlisted := hsame.unacked [] _ rfl member hmember hactive hacked
      rw [lists_recorded hinv' hb hacked, hdept] at hlisted
      exact (targets_iff_department hmember hactive _).mp hlisted
    · intro htruthy hconnected
      have htarget := (hsame.frame member hmember hactive hconnected).mpr
        ((banner_send hsent).mpr hconnected)
      exact (mem_targets.mp htarget).2.2 htruthy
  · intro hone
    constructor
    · intro member hmember hactive hconnected
      refine iff_of_true ?_ ((banner_send hsent).mpr hconnected)
      exact mem_targets.mpr
        ⟨hmember, hactive, fun h => (hone member hmember hactive).2 h hconnected⟩
    · intro as later hlater member hmember hactive hacked
      obtain ⟨hlast, hgrows⟩ := system_run hinv' hlater
      rw [lists_recorded hlast (hgrows.broadcasts hb) hacked, hdept]
      exact (targets_iff_department hmember hactive _).mpr (hone member hmember hactive).1

/-! ## Two users -/

/-- A broadcast of the administrator to a department. -/
def sampleTo (department : Option String) : BroadcastIn := ⟨"Alert", "Report to base", department⟩

def sampleCreds : Option AccessToken := some (createAccessToken 1 1 .ADMIN 0)

/-- The soldier of the department `S1` is connected, the administrator, who has none, is
    not. -/
def sampleOnline : BroadcastSystem := ⟨0, sampleTables, [⟨7, []⟩]⟩

theorem sameAudience_sample :
    SameAudience sampleOnline
      (sampleOnline.send sampleCreds (sampleTo (some "S1")) 40 fun _ => .ok 0)
      (sampleTo (some "S1")) 40 := by
  refine (sameAudience_iff 0 sampleTables.users [.connect 7] sampleOnline rfl sampleCreds
    (sampleTo (some "S1")) 40 (fun _ => .ok 0) (by decide +kernel)).mpr ?_
  intro member hmember _
  obtain rfl | hmember := List.mem_cons.mp hmember
  · exact ⟨fun h => absurd h (by decide), fun _ _ => rfl⟩
  · obtain rfl := List.mem_singleton.mp hmember
    refine ⟨fun h => absurd h (by decide), fun _ hconnected => ?_⟩
    obtain ⟨d, hd, huser⟩ := hconnected
    obtain rfl := List.mem_singleton.mp hd
    exact absurd huser (by decide)

/-- A broadcast for the department `S2`: the soldier of `S1` is no target of it, and gets
    the banner. -/
theorem frame_reaches_others :
    ¬ ∀ now users as s, run systemStep (BroadcastSystem.init now users) as = some s →
      ∀ creds body id push, (sendBroadcast s.tables s.now creds body id push).published ≠ none →
        SameAudience s (s.send creds body id push) body id := by
  intro h
  have hsame := h 0 sampleTables.users [.connect 7] sampleOnline rfl sampleCreds
    (sampleTo (some "S2")) 40 (fun _ => .ok 0) (by decide +kernel)
  have hbanner : (sampleOnline.send sampleCreds (sampleTo (some "S2")) 40 fun _ => .ok 0).banner
      7 40 :=
    ⟨⟨⟨7, [⟨UUID.str 40, "Alert", "Report to base"⟩]⟩, by decide +kernel, rfl⟩, by decide +kernel⟩
  have htarget := (hsame.frame ⟨sampleUser, some "S1"⟩ List.mem_cons_self rfl
    ⟨⟨7, []⟩, List.mem_cons_self, rfl⟩).mpr hbanner
  exact absurd htarget (by decide +kernel)

end IronLink.Broadcasts
