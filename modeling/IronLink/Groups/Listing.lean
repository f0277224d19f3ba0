import IronLink.Common.Orm
import IronLink.Groups.Membership
import IronLink.Groups.Size

/-!
# What the group routes show

`my_groups`, `group_members` and `pending_requests` (app/api/routes/groups.py:97-118,
160-183, 229-242) read the tables that `create_group`, `request_join` and `decide_request`
write. Three routes show the memberships, to different users.

Results:
* `listings_agree`: in every run, they show the same memberships to everyone who may see them,
  and nothing to anyone else.
* `listed_can_be_decided`: in every run, an admin can approve and reject each request it is shown,
  and is shown the rest afterwards.
-/

namespace IronLink.Groups

open Lib Auth Orm

/-! ## The routes -/

/-- `MemberOut` (app/api/routes/groups.py:41-45). -/
structure MemberOut where
  userId : UUID
  fullName : String
  role : GroupRole
  isMuted : Bool
  deriving DecidableEq

/-- `select(Group, GroupMember.role).join(..).where(..)` (app/api/routes/groups.py:102-105). -/
def Db.joined (db : Db) (userId : UUID) : List (Group × GroupRole) :=
  (db.groups.filter fun group => !group.isArchived).flatMap fun group =>
    (db.members.filter fun member => member.groupId = group.id ∧ member.userId = userId).map
      fun member => (group, member.role)

/-- The rows of a group (app/api/routes/groups.py:170-173). -/
def Db.membersOf (db : Db) (groupId : UUID) : List GroupMember :=
  db.members.filter fun member => member.groupId = groupId

/-- `GroupOut` of a row of `my_groups` (app/api/routes/groups.py:109-117). -/
def GroupOut.ofRow (db : Db) (row : Group × GroupRole) : GroupOut :=
  ⟨row.1.id, row.1.name, row.1.description, row.1.groupType, row.1.isAnnouncementGroup,
    row.1.joinApprovalRequired, size db row.1.id, some row.2⟩

section Routes

/- PostgreSQL orders what no `ORDER BY` orders as it likes. `createdAt` is the column of `groups`,
   `fullName` the one of `users`: foreign keys see to it that every member is in the table. -/
variable (scan : Scan) (createdAt : UUID → Time) (fullName : UUID → String)

/-- `my_groups` (app/api/routes/groups.py:97-118). -/
def myGroups (db : Db) (userId : UUID) : List GroupOut :=
  ((scan.order (db.joined userId)).mergeSort fun a b =>
    decide (createdAt b.1.id ≤ createdAt a.1.id)).map (GroupOut.ofRow db)

/-- `MemberOut` of a row; no route sets `is_muted`, which is false by default. -/
def MemberOut.ofRow (member : GroupMember) : MemberOut :=
  ⟨member.userId, fullName member.userId, member.role, false⟩

/-- `group_members` (app/api/routes/groups.py:160-183). -/
def groupMembers (db : Db) (userId groupId : UUID) : Except HttpError (List MemberOut) :=
  match membership db groupId userId with
  | none => .error ⟨403, "not a member of this group"⟩
  | some _ => .ok (((scan.order (db.membersOf groupId)).mergeSort fun a b =>
      decide (a.joinedAt ≤ b.joinedAt)).map (MemberOut.ofRow fullName))

/-- `pending_requests` (app/api/routes/groups.py:229-242). -/
def pendingRequests (db : Db) (userId groupId : UUID) :
    Except HttpError (List JoinRequestOut) := do
  let _ ← requireAdminMember db groupId userId
  return (scan.order (db.requests.filter fun request =>
    request.groupId = groupId ∧ request.status = .PENDING)).map .modelValidate

end Routes

/-! ## What is listed -/

variable {scan : Scan} {createdAt : UUID → Time} {fullName : UUID → String} {db : Db}
  {u groupId : UUID}

theorem key_eq_iff {member : GroupMember} :
    member.key = (groupId, u) ↔ member.groupId = groupId ∧ member.userId = u := Prod.ext_iff

/-- With the unique index, the join finds one row at most for each group. -/
theorem nodup_joined (hkeys : Keys db) (u : UUID) :
    ((db.joined u).map fun row => row.1.id).Nodup := by
  have hone : ∀ group : Group, ((db.members.filter fun member =>
      member.groupId = group.id ∧ member.userId = u).map fun member => (group, member.role)) =
        ((membership db group.id u).map fun member => (group, member.role)).toList := by
    intro group
    unfold membership
    rw [Option.toList_map, ← Table.filter_key hkeys.members]
    refine congrArg _ (List.filter_congr fun member _ => ?_)
    exact decide_eq_decide.mpr key_eq_iff.symm
  unfold Db.joined
  simp only [hone]
  rw [← List.filterMap_eq_flatMap_toList, List.map_filterMap, List.nodup_iff_pairwise_ne,
    List.pairwise_filterMap]
  refine (List.Pairwise.filter _ (List.pairwise_map.mp hkeys.groups)).imp ?_
  intro group group' hne id hid id' hid'
  simp only [Option.map_map, Option.map_eq_some_iff] at hid hid'
  obtain ⟨_, _, rfl⟩ := hid
  obtain ⟨_, _, rfl⟩ := hid'
  exact hne

theorem mem_myGroups {out : GroupOut} : out ∈ myGroups scan createdAt db u ↔
    ∃ group ∈ db.groups, group.isArchived = false ∧ ∃ member ∈ db.members,
      member.key = (group.id, u) ∧ out = .ofRow db (group, member.role) := by
  unfold myGroups
  rw [List.mem_map]
  simp only [List.mem_mergeSort, (scan.perm _).mem_iff]
  unfold Db.joined
  simp only [List.mem_flatMap, List.mem_map, List.mem_filter, Bool.not_eq_true',
    decide_eq_true_eq]
  constructor
  · rintro ⟨_, ⟨group, ⟨hgroup, hlive⟩, member, ⟨hmember, hof, huser⟩, rfl⟩, rfl⟩
    exact ⟨group, hgroup, hlive, member, hmember, key_eq_iff.mpr ⟨hof, huser⟩, rfl⟩
  · rintro ⟨group, hgroup, hlive, member, hmember, hkey, rfl⟩
    exact ⟨_, ⟨group, ⟨hgroup, hlive⟩, member, ⟨hmember, key_eq_iff.mp hkey⟩, rfl⟩, rfl⟩

theorem groupMembers_ok {listed : List MemberOut} :
    groupMembers scan fullName db u groupId = .ok listed ↔
      (∃ member ∈ db.members, member.key = (groupId, u)) ∧
        listed = ((scan.order (db.membersOf groupId)).mergeSort fun a b =>
          decide (a.joinedAt ≤ b.joinedAt)).map (.ofRow fullName) := by
  unfold groupMembers
  cases hmember : membership db groupId u with
  | none =>
    refine iff_of_false (fun h => by cases h) fun ⟨⟨member, hmem, hkey⟩, _⟩ => ?_
    exact not_member_of hmember hmem hkey
  | some member =>
    constructor
    · intro h
      exact ⟨⟨member, Table.find_mem hmember, Table.find_key hmember⟩, (Except.ok.inj h).symm⟩
    · rintro ⟨-, rfl⟩
      rfl

theorem mem_listed {listed : List MemberOut}
    (h : groupMembers scan fullName db u groupId = .ok listed) {row : MemberOut} :
    row ∈ listed ↔
      ∃ member ∈ db.members, member.groupId = groupId ∧ row = .ofRow fullName member := by
  obtain ⟨-, rfl⟩ := groupMembers_ok.mp h
  simp only [List.mem_map, List.mem_mergeSort, (scan.perm _).mem_iff]
  unfold Db.membersOf
  simp only [List.mem_filter, decide_eq_true_eq, and_assoc, @eq_comm MemberOut]

theorem length_listed {listed : List MemberOut}
    (h : groupMembers scan fullName db u groupId = .ok listed) :
    listed.length = size db groupId := by
  obtain ⟨-, rfl⟩ := groupMembers_ok.mp h
  rw [List.length_map, List.length_mergeSort, (scan.perm _).length_eq]
  unfold Db.membersOf size
  rw [List.countP_eq_length_filter]

theorem nodup_listed (hkeys : Keys db) {listed : List MemberOut}
    (h : groupMembers scan fullName db u groupId = .ok listed) :
    (listed.map MemberOut.userId).Nodup := by
  obtain ⟨-, rfl⟩ := groupMembers_ok.mp h
  rw [List.map_map]
  have hperm := (List.mergeSort_perm (scan.order (db.membersOf groupId)) fun a b =>
    decide (a.joinedAt ≤ b.joinedAt)).trans (scan.perm _)
  refine (hperm.map _).nodup_iff.mpr ?_
  have hrows := hkeys.members
  rw [List.nodup_iff_pairwise_ne, List.pairwise_map] at hrows ⊢
  refine (hrows.filter _).imp_of_mem fun {a b} ha hb hne heq => hne ?_
  have hof := (List.mem_filter.mp ha).2
  have hof' := (List.mem_filter.mp hb).2
  exact Prod.ext ((of_decide_eq_true hof).trans (of_decide_eq_true hof').symm) heq

theorem pendingRequests_ok {requests : List JoinRequestOut} :
    pendingRequests scan db u groupId = .ok requests ↔ AdminOf db groupId u ∧
      requests = (scan.order (db.requests.filter fun request =>
        request.groupId = groupId ∧ request.status = .PENDING)).map .modelValidate := by
  unfold pendingRequests
  constructor
  · intro h
    obtain ⟨_, hadmin, h⟩ := bind_eq_ok h
    exact ⟨requireAdminMember_ok hadmin, (Except.ok.inj h).symm⟩
  · rintro ⟨⟨member, hmember, hrole⟩, rfl⟩
    have hadmin : requireAdminMember db groupId u = .ok member := by
      unfold requireAdminMember
      rw [hmember]
      exact if_pos ((canManageMembers_iff member).mpr hrole)
    rw [hadmin]
    rfl

/-! ## The routes agree -/

/-- The routes show the same memberships, in whatever order the rows come. -/
structure ListingsAgree (createdAt : UUID → Time) (fullName : UUID → String) (db : Db) : Prop where
  once : ∀ scan u, ((myGroups scan createdAt db u).map GroupOut.id).Nodup
  newestFirst : ∀ scan u, (myGroups scan createdAt db u).Pairwise fun out out' =>
    createdAt out'.id ≤ createdAt out.id
  /-- A user is shown the groups whose members it may see, the archived ones left out. -/
  shown : ∀ scan scan' u groupId, (∃ out ∈ myGroups scan createdAt db u, out.id = groupId) ↔
    (∃ group, db.group groupId = some group ∧ group.isArchived = false) ∧
      ∃ listed, groupMembers scan' fullName db u groupId = .ok listed
  /-- Every member is listed once, the owner alone as owner. -/
  listed : ∀ scan u groupId listed, groupMembers scan fullName db u groupId = .ok listed →
    (listed.map MemberOut.userId).Nodup ∧ ∃! row, row ∈ listed ∧ row.role = .OWNER
  /-- Everyone listed may see the same list. -/
  shared : ∀ scan scan' u groupId listed, groupMembers scan fullName db u groupId = .ok listed →
    ∀ row ∈ listed, ∃ listed', groupMembers scan' fullName db row.userId groupId = .ok listed' ∧
      listed'.Perm listed
  /-- The count and the role that `my_groups` shows are those of the list. -/
  counted : ∀ scan scan' u out listed, out ∈ myGroups scan createdAt db u →
    groupMembers scan' fullName db u out.id = .ok listed →
      out.memberCount = listed.length ∧ ∃ row ∈ listed, row.userId = u ∧ out.myRole = some row.role
  /-- The requests are shown to those who are listed as admin or owner. -/
  admins : ∀ scan scan' u groupId, (∃ requests, pendingRequests scan db u groupId = .ok requests) ↔
    ∃ listed, groupMembers scan' fullName db u groupId = .ok listed ∧
      ∃ row ∈ listed, row.userId = u ∧ (row.role = .ADMIN ∨ row.role = .OWNER)

variable {cs : List Call}

/-- A member may see the list. -/
theorem groupMembers_of_mem (scan : Scan) (fullName : UUID → String) {member : GroupMember}
    (h : member ∈ db.members) :
    ∃ listed, groupMembers scan fullName db member.userId member.groupId = .ok listed :=
  ⟨_, groupMembers_ok.mpr ⟨⟨member, h, rfl⟩, rfl⟩⟩

theorem listed_perm {scan' : Scan} {v : UUID} {listed listed' : List MemberOut}
    (h : groupMembers scan fullName db u groupId = .ok listed)
    (h' : groupMembers scan' fullName db v groupId = .ok listed') : listed'.Perm listed := by
  obtain ⟨-, rfl⟩ := groupMembers_ok.mp h
  obtain ⟨-, rfl⟩ := groupMembers_ok.mp h'
  refine List.Perm.map _ ?_
  exact ((List.mergeSort_perm _ _).trans (scan'.perm _)).trans
    ((List.mergeSort_perm _ _).trans (scan.perm _)).symm

theorem Inv.one_owner (h : Inv cs db) {listed : List MemberOut}
    (hlisted : groupMembers scan fullName db u groupId = .ok listed) :
    ∃! row, row ∈ listed ∧ row.role = .OWNER := by
  obtain ⟨⟨member, hmember, hkey⟩, -⟩ := groupMembers_ok.mp hlisted
  obtain ⟨group, hgroup, hid⟩ := h.memberGroup member hmember
  obtain ⟨owner, ⟨howner, hof, hrole, hsole⟩, -⟩ := h.owner group hgroup
  have hof' : group.id = groupId := hid.trans (key_eq_iff.mp hkey).1
  rw [hof'] at hof hsole
  refine ⟨.ofRow fullName owner, ⟨(mem_listed hlisted).mpr ⟨owner, howner, hof, rfl⟩, hrole⟩, ?_⟩
  rintro row ⟨hrow, hown⟩
  obtain ⟨other, hother, hog, rfl⟩ := (mem_listed hlisted).mp hrow
  rw [hsole other hother hog hown]

theorem Inv.listingsAgree (h : Inv cs db) (createdAt : UUID → Time) (fullName : UUID → String) :
    ListingsAgree createdAt fullName db where
  once scan u := by
    unfold myGroups
    rw [List.map_map]
    have hperm := (List.mergeSort_perm (scan.order (db.joined u)) fun a b =>
      decide (createdAt b.1.id ≤ createdAt a.1.id)).trans (scan.perm _)
    exact (hperm.map _).nodup_iff.mpr (nodup_joined h.keys u)
  newestFirst scan u := by
    unfold myGroups
    rw [List.pairwise_map]
    refine (List.pairwise_mergeSort ?_ ?_ _).imp of_decide_eq_true
    · intro a b c hab hbc
      exact decide_eq_true ((of_decide_eq_true hbc).trans (of_decide_eq_true hab))
    · intro a b
      rw [Bool.or_eq_true, decide_eq_true_eq, decide_eq_true_eq]
      exact le_total _ _
  shown scan scan' u groupId := by
    constructor
    · rintro ⟨out, hout, rfl⟩
      obtain ⟨group, hgroup, hlive, member, hmember, hkey, rfl⟩ := mem_myGroups.mp hout
      obtain ⟨hof, rfl⟩ := key_eq_iff.mp hkey
      refine ⟨⟨group, group_of_mem h.keys hgroup, hlive⟩, ?_⟩
      rw [show (GroupOut.ofRow db (group, member.role)).id = member.groupId from hof.symm]
      exact groupMembers_of_mem scan' fullName hmember
    · rintro ⟨⟨group, hgroup, hlive⟩, listed, hlisted⟩
      obtain ⟨⟨member, hmember, hkey⟩, -⟩ := groupMembers_ok.mp hlisted
      have hid := group_id hgroup
      refine ⟨.ofRow db (group, member.role), mem_myGroups.mpr ⟨group, Table.find_mem hgroup, hlive,
        member, hmember, ?_, rfl⟩, hid⟩
      rw [hid]
      exact hkey
  listed scan u groupId listed hlisted := ⟨nodup_listed h.keys hlisted, h.one_owner hlisted⟩
  shared scan scan' u groupId listed hlisted row hrow := by
    obtain ⟨member, hmember, rfl, rfl⟩ := (mem_listed hlisted).mp hrow
    obtain ⟨listed', hlisted'⟩ := groupMembers_of_mem scan' fullName hmember
    exact ⟨listed', hlisted', listed_perm hlisted hlisted'⟩
  counted scan scan' u out listed hout hlisted := by
    obtain ⟨group, hgroup, -, member, hmember, hkey, rfl⟩ := mem_myGroups.mp hout
    obtain ⟨hof, huser⟩ := key_eq_iff.mp hkey
    exact ⟨(length_listed hlisted).symm, .ofRow fullName member,
      (mem_listed hlisted).mpr ⟨member, hmember, hof, rfl⟩, huser, rfl⟩
  admins scan scan' u groupId := by
    constructor
    · rintro ⟨requests, hrequests⟩
      obtain ⟨⟨member, hmember, hrole⟩, -⟩ := pendingRequests_ok.mp hrequests
      have hmem := Table.find_mem hmember
      obtain ⟨rfl, rfl⟩ := key_eq_iff.mp (Table.find_key hmember)
      obtain ⟨listed, hlisted⟩ := groupMembers_of_mem scan' fullName hmem
      exact ⟨listed, hlisted, .ofRow fullName member,
        (mem_listed hlisted).mpr ⟨member, hmem, rfl, rfl⟩, rfl, hrole⟩
    · rintro ⟨listed, hlisted, row, hrow, rfl, hrole⟩
      obtain ⟨member, hmember, rfl, rfl⟩ := (mem_listed hlisted).mp hrow
      exact ⟨_, pendingRequests_ok.mpr ⟨⟨member, Table.find_of_mem h.keys.members hmember, hrole⟩,
        rfl⟩⟩

/-- **Listings.** In every run of the routes, what they show agrees. -/
theorem listings_agree (createdAt : UUID → Time) (fullName : UUID → String) (cs : List Call) :
    ∃ db, run step .empty cs = some db ∧ ListingsAgree createdAt fullName db := by
  obtain ⟨db, hrun⟩ := run_total cs .empty
  exact ⟨db, hrun, (inv_run hrun).listingsAgree createdAt fullName⟩

/-! ## What is shown can be decided -/

/-- Nobody waits for a group they are in. -/
def Apart (db : Db) : Prop := ∀ request ∈ db.requests, request.status = .PENDING →
  membership db request.groupId request.userId = none

variable {db' : Db}

/-- New members are not those who wait. -/
theorem Apart.append (h : Apart db) {members : List GroupMember} {old : Option GroupJoinRequest}
    {row : GroupJoinRequest} (hmembers : db'.members = db.members ++ members)
    (hrow : Replaces db.requests db'.requests old row)
    (hnew : row.status = .PENDING → membership db' row.groupId row.userId = none)
    (hothers : ∀ request ∈ db.requests, old ≠ some request → ∀ member ∈ members,
      member.key ≠ request.key) : Apart db' := by
  intro request hrequest hpending
  obtain rfl | ⟨hold, hne⟩ := (hrow request).mp hrequest
  · exact hnew hpending
  · have hnone := h request hold hpending
    refine Table.find_eq_none.mpr fun member hmember => ?_
    rw [hmembers] at hmember
    obtain hmember | hmember := List.mem_append.mp hmember
    · exact not_member_of hnone hmember
    · exact hothers request hold hne member hmember

theorem apart_step (hinv : Inv cs db) (h : Apart db) (c : Call) : Apart (c.run db) := by
  have heffect := effect_run hinv.keys c
  generalize c.run db = db' at heffect ⊢
  generalize c.answer db = answer at heffect
  cases heffect with
  | refused => exact h
  | @created userId role now groupId body fresh notMember =>
    intro request hrequest hpending
    refine Table.find_eq_none.mpr fun member hmember => ?_
    obtain hmember | hmember := List.mem_append.mp hmember
    · exact not_member_of (h request hrequest hpending) hmember
    · -- no request is for a group that was not there
      obtain rfl := List.mem_singleton.mp hmember
      intro hkey
      obtain ⟨group, hgroup, hid⟩ := hinv.requestGroup request hrequest
      exact Table.find_eq_none.mp fresh group hgroup (hid.trans (congrArg Prod.fst hkey).symm)
  | @joined userId now requestId body requests group old taken replaces =>
    have hrow : (joinRow userId now requestId body.message group old).key = (group.id, userId) :=
      joinRow_key taken.existing
    refine h.append rfl replaces (fun hpending => ?_) fun request hrequest hne member hmember => ?_
    · have happroval : group.joinApprovalRequired = true := by
        by_contra hopen
        rw [joinRow_status, joinStatus, if_neg hopen] at hpending
        cases hpending
      unfold membership
      dsimp only
      rw [if_pos happroval, List.append_nil]
      show Table.find _ _ (joinRow userId now requestId body.message group old).key = none
      rw [hrow]
      exact taken.notMember
    · split_ifs at hmember with hopen
      · cases hmember
      · obtain rfl := List.mem_singleton.mp hmember
        intro hkey
        have hfind := Table.find_of_mem hinv.keys.requestKeys hrequest
        rw [← hkey] at hfind
        exact hne (taken.existing.symm.trans hfind)
  | @decided userId role now approve requests request taken replaces =>
    refine h.append rfl replaces (fun hpending => ?_) fun other hother hne member hmember => ?_
    · unfold decidedRow decidedStatus at hpending
      dsimp only at hpending
      split_ifs at hpending
    · split_ifs at hmember
      · obtain rfl := List.mem_singleton.mp hmember
        intro hkey
        have hfind := Table.find_of_mem hinv.keys.requestKeys hother
        have hrequest := Table.find_of_mem hinv.keys.requestKeys (Table.find_mem taken.found)
        rw [← hkey] at hfind
        exact hne (hrequest.symm.trans hfind)
      · cases hmember

theorem apart_run (hrun : run step .empty cs = some db) : Apart db := by
  have hboth : Inv cs db ∧ Apart db := by
    refine run_history (P := fun cs db => Inv cs db ∧ Apart db) ⟨inv_empty, fun _ h => ?_⟩
      (fun cs db c db' hrun hinv hstep => ?_) hrun
    · cases h
    · rw [← Option.some.inj hstep]
      exact ⟨inv_step hinv.1 hrun c, apart_step hinv.1 hinv.2 c⟩
  exact hboth.2

/-- What an admin is shown and the decision on it. -/
structure Decides (scan : Scan) (fullName : UUID → String) (db : Db) (u groupId : UUID)
    (requests : List JoinRequestOut) (request : JoinRequestOut) (role : UserRole) (now : Time)
    (approve : Bool) : Prop where
  answered : (decideRequest db u role now groupId request.id approve).1 =
    .ok { request with status := decidedStatus approve }
  /-- The rest is still there to be decided. -/
  rest : ∃ requests', pendingRequests scan (decideRequest db u role now groupId request.id
    approve).2 u groupId = .ok requests' ∧ ∀ r, r ∈ requests' ↔ r ∈ requests ∧ r ≠ request
  /-- Who has asked sees the members if and only if the request is approved. -/
  admitted : (∃ listed, groupMembers scan fullName (decideRequest db u role now groupId request.id
    approve).2 request.userId groupId = .ok listed) ↔ approve = true

theorem mem_pending {requests : List JoinRequestOut}
    (h : pendingRequests scan db u groupId = .ok requests) {r : JoinRequestOut} :
    r ∈ requests ↔ ∃ row ∈ db.requests, row.groupId = groupId ∧ row.status = .PENDING ∧
      r = .modelValidate row := by
  obtain ⟨-, rfl⟩ := pendingRequests_ok.mp h
  simp only [List.mem_map, (scan.perm _).mem_iff, List.mem_filter, decide_eq_true_eq, and_assoc,
    @eq_comm JoinRequestOut]

theorem AdminOf.append (h : AdminOf db groupId u) {members : List GroupMember}
    (hmembers : db'.members = db.members ++ members) : AdminOf db' groupId u := by
  obtain ⟨member, hmember, hrole⟩ := h
  refine ⟨member, ?_, hrole⟩
  unfold membership Table.find at hmember ⊢
  rw [hmembers, List.find?_append, hmember]
  rfl

theorem Inv.decides (h : Inv cs db) (hapart : Apart db) (fullName : UUID → String)
    {requests : List JoinRequestOut} (hlisted : pendingRequests scan db u groupId = .ok requests)
    {request : JoinRequestOut} (hrequest : request ∈ requests) (scan' : Scan) (role : UserRole)
    (now : Time) (approve : Bool) :
    Decides scan' fullName db u groupId requests request role now approve := by
  obtain ⟨row, hrow, rfl, hpending, rfl⟩ := (mem_pending hlisted).mp hrequest
  have hadmin := (pendingRequests_ok.mp hlisted).1
  have hnot := hapart row hrow hpending
  have htaken : DecisionTaken db u approve row :=
    ⟨hadmin, Table.find_of_mem h.keys.requestIds hrow, hpending, fun _ => hnot⟩
  obtain ⟨db', hdecide, hreplaces, hdb'⟩ := decideRequest_taken h.keys role now htaken
  have hmembers : db'.members = db.members ++
      if approve then [⟨row.groupId, row.userId, .MEMBER, now⟩] else [] := by
    rw [hdb']
  have hdecided : decideRequest db u role now row.groupId (JoinRequestOut.modelValidate row).id
      approve = (.ok (.modelValidate (decidedRow u now approve row)), db') := hdecide
  refine ⟨?_, ?_, ?_⟩
  · rw [hdecided]
    rfl
  · rw [hdecided]
    refine ⟨_, pendingRequests_ok.mpr ⟨hadmin.append hmembers, rfl⟩, fun r => ?_⟩
    rw [mem_pending (pendingRequests_ok.mpr ⟨hadmin.append hmembers, rfl⟩), mem_pending hlisted]
    constructor
    · rintro ⟨other, hother, hof, hwaits, rfl⟩
      obtain rfl | ⟨hold, hne⟩ := (hreplaces other).mp hother
      · unfold decidedRow decidedStatus at hwaits
        dsimp only at hwaits
        split_ifs at hwaits
      · refine ⟨⟨other, hold, hof, hwaits, rfl⟩, fun heq => hne ?_⟩
        have hid : other.id = row.id := congrArg JoinRequestOut.id heq
        rw [List.inj_on_of_nodup_map h.keys.requestIds hold hrow hid]
    · rintro ⟨⟨other, hold, hof, hwaits, rfl⟩, hne⟩
      refine ⟨other, (hreplaces other).mpr (.inr ⟨hold, fun heq => hne ?_⟩), hof, hwaits, rfl⟩
      rw [Option.some.inj heq]
  · rw [hdecided]
    simp only [groupMembers_ok, exists_and_left, exists_eq, and_true]
    rw [hmembers]
    constructor
    · rintro ⟨member, hmember, hkey⟩
      obtain hold | hnew := List.mem_append.mp hmember
      · exact absurd hkey (not_member_of hnot hold)
      · by_contra hreject
        rw [if_neg hreject] at hnew
        cases hnew
    · rintro rfl
      exact ⟨_, List.mem_append_right _ (List.mem_singleton.mpr rfl), rfl⟩

/-- **Decisions.** In every run, an admin can approve and can reject each request it is shown. -/
theorem listed_can_be_decided (fullName : UUID → String) (cs : List Call) :
    ∃ db, run step .empty cs = some db ∧ ∀ scan u groupId requests,
      pendingRequests scan db u groupId = .ok requests → ∀ request ∈ requests,
        ∀ scan' role now approve,
          Decides scan' fullName db u groupId requests request role now approve := by
  obtain ⟨db, hrun⟩ := run_total cs .empty
  exact ⟨db, hrun, fun scan u groupId requests hlisted request hrequest scan' role now approve =>
    (inv_run hrun).decides (apart_run hrun) fullName hlisted hrequest scan' role now approve⟩

end IronLink.Groups
