import IronLink.Auth.Account

/-!
# Urgent broadcasts, on the server

`send_broadcast` (app/api/routes/admin.py), `unacked_broadcasts` and
`ack_broadcast` (app/api/routes/broadcasts.py) over the tables they read and write.

Results:
* `tablesInv_send`, `tablesInv_ack`: ids are unique, and an acknowledgement names
  a broadcast that exists.
* `lists_iff`: what `/broadcasts/unacked` lists for a user.
-/

namespace IronLink.Broadcasts

open Lib Auth

/-! ## Model -/

/-- A row of `users`, with the department (app/models/user.py:53). -/
structure Member extends User where
  department : Option String
  deriving DecidableEq

/-- A row of `broadcasts` (app/models/broadcast.py:13-35). -/
structure Broadcast where
  id : UUID
  title : String
  body : String
  department : Option String
  priority : String := "urgent"
  createdById : Option UUID
  createdAt : Time
  deriving DecidableEq

/-- A row of `broadcast_acks` (app/models/broadcast.py:38-48). -/
structure BroadcastAck where
  broadcastId : UUID
  userId : UUID
  deriving DecidableEq

/-- The row `send_broadcast` adds to `audit_logs`. -/
structure BroadcastAudit where
  actorId : UUID
  actorRole : UserRole
  action : String := "admin.broadcast.sent"
  resourceType : String := "broadcast"
  resourceId : String
  department : Option String
  targets : ℕ
  success : Bool := true
  deriving DecidableEq

structure Tables where
  users : List Member
  broadcasts : List Broadcast
  acks : List BroadcastAck
  audit : List BroadcastAudit

/-- `BroadcastIn` (app/api/routes/admin.py:63-67). -/
structure BroadcastIn where
  title : String
  body : String
  department : Option String
  deriving DecidableEq

/-- The bounds of its fields. -/
def BroadcastIn.valid (body : BroadcastIn) : Bool :=
  2 ≤ body.title.toList.length && body.title.toList.length ≤ 120 &&
    2 ≤ body.body.toList.length && body.body.toList.length ≤ 2000 &&
    body.department.all fun d => d.toList.length ≤ 80

/-- The database takes its texts. -/
def BroadcastIn.stored (body : BroadcastIn) : Bool :=
  columnTakes 120 body.title && columnTakes 2000 body.body &&
    body.department.all (columnTakes 80)

/-- `BroadcastOut` (app/api/routes/admin.py:70-74). -/
structure BroadcastOut where
  id : UUID
  title : String
  targetUsers : ℕ
  pushDelivered : ℕ
  deriving DecidableEq

/-- `BroadcastItemOut` (app/api/routes/broadcasts.py:19-26). -/
structure BroadcastItemOut where
  id : UUID
  title : String
  body : String
  priority : String
  createdAt : Time
  deriving DecidableEq

def unprocessable : HttpError := ⟨422, "Unprocessable Entity"⟩

/-- `if body.department:` -/
def truthy (department : Option String) : Bool := department.any (· ≠ "")

/-- `target_q` (app/api/routes/admin.py:196-199). -/
def targets (users : List Member) (department : Option String) : List Member :=
  users.filter fun user =>
    user.status = .ACTIVE && (!truthy department || user.department = department)

/-- The frame for the connected devices (app/api/routes/admin.py:213-219). -/
def broadcastFrame (id : UUID) (body : BroadcastIn) : Frame :=
  [("type", .str "broadcast"), ("broadcast_id", .str id.str), ("title", .str body.title),
    ("body", .str body.body), ("department", .ofOptStr body.department)]

/-- What `send_broadcast` does: the tables, the frame on the broadcast channel, the
    tokens it pushes to, and the response. -/
structure Sent where
  tables : Tables
  published : Option Frame
  pushed : List String
  response : Except HttpError BroadcastOut

/-- The rows of a broadcast, its frame and its pushes (app/api/routes/admin.py:187-234). -/
def recordBroadcast (tables : Tables) (now : Time) (admin : User) (body : BroadcastIn) (id : UUID)
    (push : List String → Except HttpError ℕ) : Sent :=
  let targets := targets tables.users body.department
  let tokens := (targets.filterMap fun user => user.fcmToken).filter (· ≠ "")
  { tables :=
      { tables with
        broadcasts := tables.broadcasts ++ [
          { id := id
            title := body.title
            body := body.body
            department := body.department
            createdById := some admin.id
            createdAt := now }]
        audit := tables.audit ++ [
          { actorId := admin.id
            actorRole := admin.role
            resourceId := id.str
            department := body.department
            targets := targets.length }] }
    published := some (broadcastFrame id body)
    pushed := tokens
    response := (push tokens).map fun delivered =>
      ⟨id, body.title, targets.length, delivered⟩ }

/-- `send_broadcast` (app/api/routes/admin.py:181-234). `id` is the `uuid4` of the row,
    `push` what `send_broadcast_push` returns or raises. -/
def sendBroadcast (tables : Tables) (now : Time) (creds : Option AccessToken)
    (body : BroadcastIn) (id : UUID) (push : List String → Except HttpError ℕ) : Sent :=
  match requireSuperadmin (tables.users.map Member.toUser) now creds with
  | .error e => ⟨tables, none, [], .error e⟩
  | .ok admin =>
    if !body.valid then ⟨tables, none, [], .error unprocessable⟩
    else if !body.stored || tables.broadcasts.any (fun b => b.id = id) then
      ⟨tables, none, [], .error internalServerError⟩
    else recordBroadcast tables now admin body id push

/-- `BroadcastItemOut.model_validate(b)`. -/
def Broadcast.item (b : Broadcast) : BroadcastItemOut :=
  ⟨b.id, b.title, b.body, b.priority, b.createdAt⟩

/-- The user has acknowledged the broadcast. -/
def Tables.acked (tables : Tables) (user id : UUID) : Bool :=
  tables.acks.any fun ack => ack.broadcastId = id && ack.userId = user

/-- `unacked_broadcasts` (app/api/routes/broadcasts.py:32-51). `==` with the department
    `None` is `IS NULL`. -/
def unackedBroadcasts (tables : Tables) (user : Member) : List BroadcastItemOut :=
  ((tables.broadcasts.filter fun b =>
      !tables.acked user.id b.id && (b.department = none || b.department = user.department)
    ).mergeSort fun b b' => b'.createdAt ≤ b.createdAt).map Broadcast.item

/-- `ack_broadcast` (app/api/routes/broadcasts.py:54-72). -/
def ackBroadcast (tables : Tables) (user id : UUID) : Tables × Except HttpError Unit :=
  if tables.broadcasts.any fun b => b.id = id then
    if tables.acked user id then (tables, .ok ())
    else ({ tables with acks := tables.acks ++ [⟨id, user⟩] }, .ok ())
  else (tables, .error ⟨404, "broadcast not found"⟩)

variable {tables tables' : Tables} {now : Time} {creds : Option AccessToken} {body : BroadcastIn}
  {id user : UUID} {push : List String → Except HttpError ℕ} {member : Member}

/-! ## One request -/

/-- A request is refused and changes nothing, or records a broadcast with a new id. -/
theorem sendBroadcast_cases (tables : Tables) (now : Time) (creds : Option AccessToken)
    (body : BroadcastIn) (id : UUID) (push : List String → Except HttpError ℕ) :
    (∃ e, sendBroadcast tables now creds body id push = ⟨tables, none, [], .error e⟩) ∨
      ∃ admin, (∀ b ∈ tables.broadcasts, b.id ≠ id) ∧
        sendBroadcast tables now creds body id push =
          recordBroadcast tables now admin body id push := by
  unfold sendBroadcast
  cases requireSuperadmin (tables.users.map Member.toUser) now creds with
  | error e => exact .inl ⟨e, rfl⟩
  | ok admin =>
    dsimp only
    split_ifs with hvalid hstored
    · exact .inl ⟨_, rfl⟩
    · exact .inl ⟨_, rfl⟩
    · refine .inr ⟨admin, fun b hb hid => hstored ?_, rfl⟩
      exact Bool.or_eq_true_iff.mpr (.inr (List.any_eq_true.mpr ⟨b, hb, decide_eq_true hid⟩))

/-- An acknowledgement changes nothing, or adds the first row of its user for a
    broadcast that exists. -/
theorem ackBroadcast_cases (tables : Tables) (user id : UUID) :
    (ackBroadcast tables user id).1 = tables ∨
      (∃ b ∈ tables.broadcasts, b.id = id) ∧
        (ackBroadcast tables user id).1 = { tables with acks := tables.acks ++ [⟨id, user⟩] } := by
  unfold ackBroadcast
  split_ifs with hexists hacked
  · exact .inl rfl
  · obtain ⟨b, hb, hid⟩ := List.any_eq_true.mp hexists
    exact .inr ⟨⟨b, hb, of_decide_eq_true hid⟩, rfl⟩
  · exact .inl rfl

/-! ## The tables over time -/

/-- Ids are unique, and an acknowledgement names a broadcast that exists. -/
structure TablesInv (tables : Tables) : Prop where
  nodup : (tables.broadcasts.map Broadcast.id).Nodup
  acks : ∀ ack ∈ tables.acks, ∃ b ∈ tables.broadcasts, b.id = ack.broadcastId

/-- The same users, and no broadcast is lost. -/
structure Grows (tables tables' : Tables) : Prop where
  users : tables'.users = tables.users
  broadcasts : tables.broadcasts ⊆ tables'.broadcasts

theorem Grows.refl (tables : Tables) : Grows tables tables := ⟨rfl, List.Subset.refl _⟩

theorem Grows.trans {t₁ t₂ t₃ : Tables} (h : Grows t₁ t₂) (h' : Grows t₂ t₃) : Grows t₁ t₃ :=
  ⟨h'.users.trans h.users, List.Subset.trans h.broadcasts h'.broadcasts⟩

theorem tablesInv_send (h : TablesInv tables) (now : Time) (creds : Option AccessToken)
    (body : BroadcastIn) (id : UUID) (push : List String → Except HttpError ℕ) :
    TablesInv (sendBroadcast tables now creds body id push).tables ∧
      Grows tables (sendBroadcast tables now creds body id push).tables := by
  obtain ⟨e, heq⟩ | ⟨admin, hnew, heq⟩ := sendBroadcast_cases tables now creds body id push
  · rw [heq]
    exact ⟨h, .refl tables⟩
  · rw [heq]
    refine ⟨⟨?_, fun ack hack => ?_⟩, rfl, List.subset_append_left ..⟩
    · exact Table.nodup_append h.nodup (Table.find_eq_none.mpr hnew)
    · obtain ⟨b, hb, hid⟩ := h.acks ack hack
      exact ⟨b, List.mem_append_left _ hb, hid⟩

theorem tablesInv_ack (h : TablesInv tables) (user id : UUID) :
    TablesInv (ackBroadcast tables user id).1 ∧ Grows tables (ackBroadcast tables user id).1 := by
  obtain heq | ⟨hexists, heq⟩ := ackBroadcast_cases tables user id
  · rw [heq]
    exact ⟨h, .refl tables⟩
  · rw [heq]
    refine ⟨⟨h.nodup, fun ack hack => ?_⟩, rfl, List.Subset.refl _⟩
    obtain hold | hnew := List.mem_append.mp hack
    · exact h.acks ack hold
    · obtain rfl := List.mem_singleton.mp hnew
      exact hexists

/-! ## What a user is shown -/

/-- `/broadcasts/unacked` lists the broadcast for the user. -/
def Lists (tables : Tables) (member : Member) (id : UUID) : Prop :=
  ∃ item ∈ unackedBroadcasts tables member, item.id = id

theorem mem_unackedBroadcasts {item : BroadcastItemOut} :
    item ∈ unackedBroadcasts tables member ↔
      ∃ b ∈ tables.broadcasts, tables.acked member.id b.id = false ∧
        (b.department = none ∨ b.department = member.department) ∧ b.item = item := by
  unfold unackedBroadcasts
  rw [List.mem_map]
  simp only [List.mem_mergeSort, List.mem_filter, Bool.and_eq_true, Bool.not_eq_true',
    Bool.or_eq_true, decide_eq_true_eq, and_assoc]

theorem lists_iff :
    Lists tables member id ↔
      tables.acked member.id id = false ∧
        ∃ b ∈ tables.broadcasts, b.id = id ∧
          (b.department = none ∨ b.department = member.department) := by
  unfold Lists
  constructor
  · rintro ⟨item, hitem, rfl⟩
    obtain ⟨b, hb, hacked, hdept, rfl⟩ := mem_unackedBroadcasts.mp hitem
    exact ⟨hacked, b, hb, rfl, hdept⟩
  · rintro ⟨hacked, b, hb, rfl, hdept⟩
    exact ⟨b.item, mem_unackedBroadcasts.mpr ⟨b, hb, hacked, hdept, rfl⟩, rfl⟩

/-- A broadcast that was just recorded has no acknowledgement. -/
theorem acked_of_new (h : TablesInv tables) (hnew : ∀ b ∈ tables.broadcasts, b.id ≠ id)
    (user : UUID) : tables.acked user id = false := by
  refine List.any_eq_false.mpr fun ack hack hboth => ?_
  obtain ⟨b, hb, hid⟩ := h.acks ack hack
  exact hnew b hb (hid.trans (of_decide_eq_true (Bool.and_eq_true_iff.mp hboth).1))

theorem mem_targets {users : List Member} {department : Option String} :
    member ∈ targets users department ↔
      member ∈ users ∧ member.status = .ACTIVE ∧
        (truthy department = true → member.department = department) := by
  unfold targets
  rw [List.mem_filter]
  cases truthy department <;> simp

end IronLink.Broadcasts
