import IronLink.Groups.Routes

/-!
# Membership requires authorisation

Runs of `create_group`, `request_join` and `decide_request` from empty tables. The
memberships of a group go back to calls of the run: its creator's is the only one with the
role `OWNER`, and behind every other one in a group with `join_approval_required` there is
an approval by an admin.

Results:
* `inv_step`: what a call keeps.
* `membership_authorised`: memberships in every run.
-/

namespace IronLink.Groups

open Lib Auth

/-! ## Statements about a run -/

/-- The group was created by a `create_group` call of the user. -/
def CreatedBy (cs : List Call) (groupId userId : UUID) : Prop :=
  ∃ db role now body db', Takes step .empty cs db (.create userId role now groupId body) db' ∧
    db.group groupId = none ∧ db'.group groupId = some (newGroup groupId body)

/-- The request was approved by an admin of the group, and says by whom and when. -/
def ApprovedIn (cs : List Call) (request : GroupJoinRequest) : Prop :=
  ∃ db userId role now db',
    Takes step .empty cs db (.decide userId role now request.groupId request.id true) db' ∧
      AdminOf db request.groupId userId ∧ request ∈ db'.requests ∧
      request.status = .APPROVED ∧ request.decidedById = some userId ∧
      request.decidedAt = some now

/-- The member is the only one of the group with the role `OWNER`. -/
def SoleOwner (db : Db) (groupId : UUID) (owner : GroupMember) : Prop :=
  owner ∈ db.members ∧ owner.groupId = groupId ∧ owner.role = .OWNER ∧
    ∀ other ∈ db.members, other.groupId = groupId → other.role = .OWNER → other = owner

/-- Why the call may make the membership: it creates the group for its caller, an admin of
    the group makes it, or the caller joins an open group. -/
inductive Entitled (db : Db) : Call → GroupMember → Prop
  | creator {userId role now groupId body} (member : GroupMember)
      (group : member.groupId = groupId) (user : member.userId = userId)
      (owner : member.role = .OWNER) :
      Entitled db (.create userId role now groupId body) member
  | admin {call} (member : GroupMember) (admin : AdminOf db member.groupId call.userId) :
      Entitled db call member
  | opened {userId now requestId groupId body} (member : GroupMember) (group : Group)
      (found : db.group groupId = some group) (isOpen : group.joinApprovalRequired = false)
      (ofGroup : member.groupId = groupId) (user : member.userId = userId) :
      Entitled db (.join userId now requestId groupId body) member

/-- What the memberships after a run go back to. -/
structure Authorised (cs : List Call) (db : Db) : Prop where
  /-- Every group has exactly one owner, its creator. -/
  owner : ∀ group ∈ db.groups, ∃ owner, SoleOwner db group.id owner ∧
    CreatedBy cs group.id owner.userId
  /-- A user has at most one membership in a group. -/
  unique : (db.members.map GroupMember.key).Nodup
  /-- With `join_approval_required`, an admin has let every other member in. -/
  approved : ∀ group ∈ db.groups, group.joinApprovalRequired = true → ∀ member ∈ db.members,
    member.groupId = group.id → member.role ≠ .OWNER →
      ∃ request ∈ db.requests, request.key = member.key ∧ ApprovedIn cs request
  /-- Every call of the run makes only memberships that it may make. -/
  entitled : ∀ m c m', Takes step .empty cs m c m' → ∀ member ∈ m'.members,
    member ∉ m.members → Entitled m c member

/-! ## The invariant -/

structure Inv (cs : List Call) (db : Db) : Prop where
  keys : Keys db
  /-- Members and requests are those of groups there are. -/
  memberGroup : ∀ member ∈ db.members, ∃ group ∈ db.groups, group.id = member.groupId
  requestGroup : ∀ request ∈ db.requests, ∃ group ∈ db.groups, group.id = request.groupId
  owner : ∀ group ∈ db.groups, ∃ owner, SoleOwner db group.id owner ∧
    CreatedBy cs group.id owner.userId
  approved : ∀ group ∈ db.groups, group.joinApprovalRequired = true → ∀ member ∈ db.members,
    member.groupId = group.id → member.role ≠ .OWNER →
      ∃ request ∈ db.requests, request.key = member.key ∧ ApprovedIn cs request

theorem inv_empty : Inv [] .empty where
  keys := keys_empty
  memberGroup := fun _ h => absurd h List.not_mem_nil
  requestGroup := fun _ h => absurd h List.not_mem_nil
  owner := fun _ h => absurd h List.not_mem_nil
  approved := fun _ h => absurd h List.not_mem_nil

variable {cs : List Call} {db db' : Db} {c : Call}

theorem CreatedBy.append {groupId userId : UUID} (h : CreatedBy cs groupId userId)
    (cs' : List Call) : CreatedBy (cs ++ cs') groupId userId := by
  obtain ⟨db, role, now, body, db', htakes, hgroup⟩ := h
  exact ⟨db, role, now, body, db', htakes.append cs', hgroup⟩

theorem ApprovedIn.append {request : GroupJoinRequest} (h : ApprovedIn cs request)
    (cs' : List Call) : ApprovedIn (cs ++ cs') request := by
  obtain ⟨db, userId, role, now, db', htakes, hrest⟩ := h
  exact ⟨db, userId, role, now, db', htakes.append cs', hrest⟩

theorem not_member_of {groupId userId : UUID} (h : membership db groupId userId = none)
    {member : GroupMember} (hmember : member ∈ db.members) : member.key ≠ (groupId, userId) :=
  Table.find_eq_none.mp h member hmember

theorem group_of_mem (hkeys : Keys db) {group : Group} (h : group ∈ db.groups) :
    db.group group.id = some group := Table.find_of_mem hkeys.groups h

/-- A new member that is no owner leaves the owner of every group. -/
theorem SoleOwner.append {groupId : UUID} {owner : GroupMember} (h : SoleOwner db groupId owner)
    {members : List GroupMember} (hnew : ∀ member ∈ members, member.role ≠ .OWNER)
    (hdb' : db'.members = db.members ++ members) : SoleOwner db' groupId owner := by
  obtain ⟨hmem, hgroup, hrole, hsole⟩ := h
  refine ⟨?_, hgroup, hrole, fun other hother hog hor => ?_⟩
  · rw [hdb']
    exact List.mem_append_left _ hmem
  · rw [hdb'] at hother
    obtain hold | hin := List.mem_append.mp hother
    · exact hsole other hold hog hor
    · exact absurd hor (hnew other hin)

/-! ### One call -/

theorem Inv.append (h : Inv cs db) (cs' : List Call) : Inv (cs ++ cs') db where
  keys := h.keys
  memberGroup := h.memberGroup
  requestGroup := h.requestGroup
  owner group hgroup := by
    obtain ⟨owner, hsole, hcreated⟩ := h.owner group hgroup
    exact ⟨owner, hsole, hcreated.append cs'⟩
  approved group hgroup happroval member hmember hof hrole := by
    obtain ⟨request, hrequest, hkey, hin⟩ :=
      h.approved group hgroup happroval member hmember hof hrole
    exact ⟨request, hrequest, hkey, hin.append cs'⟩

/-- Rows of other groups stay where the groups they are of do. -/
theorem group_append {groupId : UUID} {groups : List Group}
    (h : ∃ group ∈ db.groups, group.id = groupId) :
    ∃ group ∈ db.groups ++ groups, group.id = groupId := by
  obtain ⟨group, hgroup, hid⟩ := h
  exact ⟨group, List.mem_append_left _ hgroup, hid⟩

theorem Inv.created {userId : UUID} {role : UserRole} {now : Time} {groupId : UUID}
    {body : CreateGroupIn} (h : Inv cs db) (fresh : db.group groupId = none)
    (hkeys : Keys db') (hgroups : db'.groups = db.groups ++ [newGroup groupId body])
    (hmembers : db'.members = db.members ++ [⟨groupId, userId, .OWNER, now⟩])
    (hrequests : db'.requests = db.requests)
    (htakes : Takes step .empty (cs ++ [.create userId role now groupId body]) db
      (.create userId role now groupId body) db') :
    Inv (cs ++ [.create userId role now groupId body]) db' := by
  have hnone : ∀ group ∈ db.groups, group.id ≠ groupId := Table.find_eq_none.mp fresh
  have hnoMember : ∀ member ∈ db.members, member.groupId ≠ groupId := by
    intro member hmember heq
    obtain ⟨group, hgroup, hid⟩ := h.memberGroup member hmember
    exact hnone group hgroup (hid.trans heq)
  have hmem : newGroup groupId body ∈ db'.groups := by
    rw [hgroups]
    exact List.mem_append_right _ (List.mem_singleton.mpr rfl)
  have hnew : db'.group groupId = some (newGroup groupId body) := group_of_mem hkeys hmem
  refine ⟨hkeys, fun member hmember => ?_, fun request hrequest => ?_, fun group hgroup => ?_,
    fun group hgroup happroval member hmember hof hrole => ?_⟩
  · rw [hmembers] at hmember
    rw [hgroups]
    obtain hold | hin := List.mem_append.mp hmember
    · exact group_append (h.memberGroup member hold)
    · rw [List.mem_singleton.mp hin]
      exact ⟨_, List.mem_append_right _ (List.mem_singleton.mpr rfl), rfl⟩
  · rw [hrequests] at hrequest
    rw [hgroups]
    exact group_append (h.requestGroup request hrequest)
  · rw [hgroups] at hgroup
    obtain hold | hin := List.mem_append.mp hgroup
    · obtain ⟨owner, ⟨hmem, hog, hor, hsole⟩, hcreated⟩ := h.owner group hold
      refine ⟨owner, ⟨?_, hog, hor, fun other hother hofg horole => ?_⟩, hcreated.append _⟩
      · rw [hmembers]
        exact List.mem_append_left _ hmem
      · rw [hmembers] at hother
        obtain hother | hother := List.mem_append.mp hother
        · exact hsole other hother hofg horole
        · rw [List.mem_singleton.mp hother] at hofg
          exact absurd hofg.symm (hnone group hold)
    · obtain rfl := List.mem_singleton.mp hin
      refine ⟨⟨groupId, userId, .OWNER, now⟩, ⟨?_, rfl, rfl, fun other hother hofg _ => ?_⟩,
        db, role, now, body, db', htakes, fresh, hnew⟩
      · rw [hmembers]
        exact List.mem_append_right _ (List.mem_singleton.mpr rfl)
      · rw [hmembers] at hother
        obtain hother | hother := List.mem_append.mp hother
        · exact absurd hofg (hnoMember other hother)
        · exact List.mem_singleton.mp hother
  · rw [hmembers] at hmember
    rw [hgroups] at hgroup
    rw [hrequests]
    obtain hold | hin := List.mem_append.mp hmember
    · obtain hgroup | hgroup := List.mem_append.mp hgroup
      · exact (h.append _).approved group hgroup happroval member hold hof hrole
      · rw [List.mem_singleton.mp hgroup] at hof
        exact absurd hof (hnoMember member hold)
    · rw [List.mem_singleton.mp hin] at hrole
      exact absurd rfl hrole

/-- A call that keeps the groups and gives at most one user the role `MEMBER`. -/
theorem Inv.member (h : Inv cs db) (hkeys : Keys db') (hgroups : db'.groups = db.groups)
    {members : List GroupMember} (hmembers : db'.members = db.members ++ members)
    (hrole : ∀ member ∈ members, member.role = .MEMBER)
    (hof : ∀ member ∈ members, ∃ group ∈ db.groups, group.id = member.groupId)
    {old : Option GroupJoinRequest} {row : GroupJoinRequest}
    (hreplaces : Replaces db.requests db'.requests old row)
    (hrow : ∃ group ∈ db.groups, group.id = row.groupId)
    (hold : ∀ request ∈ old, ∀ member ∈ db.members, request.key = member.key →
      request.status ≠ .APPROVED)
    (happroved : ∀ group ∈ db.groups, group.joinApprovalRequired = true →
      ∀ member ∈ members, member.groupId = group.id →
        row.key = member.key ∧ ApprovedIn cs row) : Inv cs db' := by
  refine ⟨hkeys, fun member hmember => ?_, fun request hrequest => ?_, fun group hgroup => ?_,
    fun group hgroup happroval member hmember hofg hnot => ?_⟩
  · rw [hgroups]
    rw [hmembers] at hmember
    obtain hin | hin := List.mem_append.mp hmember
    · exact h.memberGroup member hin
    · exact hof member hin
  · rw [hgroups]
    obtain rfl | ⟨hin, -⟩ := (hreplaces request).mp hrequest
    · exact hrow
    · exact h.requestGroup request hin
  · rw [hgroups] at hgroup
    obtain ⟨owner, hsole, hcreated⟩ := h.owner group hgroup
    refine ⟨owner, hsole.append (fun member hin hor => ?_) hmembers, hcreated⟩
    rw [hrole member hin] at hor
    cases hor
  · rw [hgroups] at hgroup
    rw [hmembers] at hmember
    obtain hin | hin := List.mem_append.mp hmember
    · obtain ⟨request, hrequest, hkey, happr⟩ :=
        h.approved group hgroup happroval member hin hofg hnot
      refine ⟨request, (hreplaces request).mpr (.inr ⟨hrequest, ?_⟩), hkey, happr⟩
      intro heq
      obtain ⟨_, _, _, _, _, _, _, _, hstatus, _⟩ := happr
      exact hold request heq member hin hkey hstatus
    · obtain ⟨hkey, happr⟩ := happroved group hgroup happroval member hin hofg
      exact ⟨row, (hreplaces row).mpr (.inl rfl), hkey, happr⟩

/-- What a call keeps. -/
theorem inv_step (h : Inv cs db) (hrun : run step .empty cs = some db) (c : Call) :
    Inv (cs ++ [c]) (c.run db) := by
  have hkeys := keys_run h.keys c
  have htakes : Takes step .empty (cs ++ [c]) db c (c.run db) := takes_last hrun rfl
  have heffect := effect_run h.keys c
  generalize c.run db = db' at hkeys htakes heffect ⊢
  generalize c.answer db = answer at heffect
  cases heffect with
  | refused => exact h.append _
  | created fresh notMember => exact h.created fresh hkeys rfl rfl rfl htakes
  | joined group old taken replaces =>
    have hmem : group ∈ db.groups := Table.find_mem taken.found
    refine (h.append _).member hkeys rfl rfl (fun member hin => ?_) (fun member hin => ?_)
      replaces ⟨group, hmem, (congrArg Prod.fst (joinRow_key taken.existing)).symm⟩
      (fun request hold member hin hkey => ?_) (fun other hother happroval member hin hofg => ?_)
    · split_ifs at hin with hopen
      · cases hin
      · rw [List.mem_singleton.mp hin]
    · split_ifs at hin with hopen
      · cases hin
      · rw [List.mem_singleton.mp hin]
        exact ⟨group, hmem, rfl⟩
    · have hfind := taken.existing
      rw [hold] at hfind
      exact absurd (hkey.symm.trans (Table.find_key hfind)) (not_member_of taken.notMember hin)
    · -- the group is open, so it is not one that requires approval
      split_ifs at hin with hopen
      · cases hin
      · rw [List.mem_singleton.mp hin] at hofg
        have hsame := (group_of_mem h.keys hother).symm.trans
          ((congrArg db.group hofg.symm).trans taken.found)
        rw [Option.some.inj hsame] at happroval
        exact absurd happroval hopen
  | @decided userId role now approve requests request taken replaces =>
    have hgroup := h.requestGroup request (Table.find_mem taken.found)
    refine (h.append _).member hkeys rfl rfl (fun member hin => ?_) (fun member hin => ?_)
      replaces hgroup (fun r hold member hin hkey hstatus => ?_)
      (fun other hother happroval member hin hofg => ?_)
    · split_ifs at hin
      · rw [List.mem_singleton.mp hin]
      · cases hin
    · split_ifs at hin
      · rw [List.mem_singleton.mp hin]
        exact hgroup
      · cases hin
    · rw [← Option.some.inj hold, taken.pending] at hstatus
      cases hstatus
    · split_ifs at hin with happrove
      · subst happrove
        rw [List.mem_singleton.mp hin]
        exact ⟨rfl, db, userId, role, now, _, htakes, taken.admin, (replaces _).mpr (.inl rfl), rfl,
          rfl, rfl⟩
      · cases hin

theorem inv_run (hrun : run step .empty cs = some db) : Inv cs db := by
  refine run_history inv_empty (fun cs db c db' hrun hinv hstep => ?_) hrun
  rw [← Option.some.inj hstep]
  exact inv_step hinv hrun c

/-- A membership that a call makes is one that it may make. -/
theorem entitled_step (hkeys : Keys db) (c : Call) {member : GroupMember}
    (hnew : member ∈ (c.run db).members) (hold : member ∉ db.members) : Entitled db c member := by
  have heffect := effect_run hkeys c
  generalize c.run db = db' at hnew heffect
  generalize c.answer db = answer at heffect
  cases heffect with
  | refused => exact absurd hnew hold
  | created fresh notMember =>
    obtain hin | hin := List.mem_append.mp hnew
    · exact absurd hin hold
    · obtain rfl := List.mem_singleton.mp hin
      exact .creator _ rfl rfl rfl
  | joined group old taken replaces =>
    obtain hin | hin := List.mem_append.mp hnew
    · exact absurd hin hold
    · split_ifs at hin with hopen
      · cases hin
      · obtain rfl := List.mem_singleton.mp hin
        exact .opened _ group taken.found (Bool.eq_false_iff.mpr hopen) rfl rfl
  | decided request taken replaces =>
    obtain hin | hin := List.mem_append.mp hnew
    · exact absurd hin hold
    · split_ifs at hin
      · obtain rfl := List.mem_singleton.mp hin
        exact .admin _ taken.admin
      · cases hin

/-- **Membership requires authorisation**, in every run of the routes. -/
theorem membership_authorised (cs : List Call) :
    ∃ db, run step .empty cs = some db ∧ Authorised cs db := by
  obtain ⟨db, hrun⟩ := run_total cs .empty
  have hinv := inv_run hrun
  refine ⟨db, hrun, hinv.owner, hinv.keys.members, hinv.approved, ?_⟩
  rintro m c m' ⟨pre, post, -, hpre, hstep⟩ member hnew hold
  rw [← Option.some.inj hstep] at hnew
  exact entitled_step (inv_run hpre).keys c hnew hold

end IronLink.Groups
