import IronLink.Communities.Routes

/-!
# The number of members

`create_community` and `add_community_member` (backend/app/api/routes/communities.py:12-54,
123-162), called any number of times by any users, each as one transaction.

Results:
* `countsMembers_iff`: `member_count` is exact in exactly the runs without a community.
* `short_run`: it is one less than the number of members, and nobody is a member twice.
-/

namespace IronLink.Communities

open Lib Auth Orm

/-! ## Runs -/

inductive Action
  | create (userId : ℤ) (now : Time) (body : CommunityCreate)
  | add (userId : ℤ) (now : Time) (communityId : ℤ) (body : CommunityMemberCreate)

def Action.call : Action → Call
  | .create userId now body => ⟨userId, now, .create body⟩
  | .add userId now communityId body => ⟨userId, now, .addMember communityId body⟩

/-- The requests, each one transaction. -/
def memberStep (scan : Scan) (db : Db) (a : Action) : Option Db :=
  step scan db a.call

/-- The request creates a community, since PostgreSQL takes its texts. -/
def Action.creates : Action → Bool
  | .create _ _ body => body.storable
  | .add .. => false

variable {scan : Scan} {db db' : Db} {c userId : ℤ} {now : Time} {body : CommunityMemberCreate}
  {users : List ℤ} {member : CommunityMember}

/-- A request to add a member does what it says, or leaves the rows alone. -/
theorem addCommunityMember_cases (scan : Scan) (db : Db) (userId : ℤ) (now : Time) (c : ℤ)
    (body : CommunityMemberCreate) :
    (db.communities.find c).isSome ∧ db.membership scan c body.userId = none ∧
        addCommunityMember scan db userId now c body =
          (.ok (newMember c body.userId body.role now db.members.next),
            db.addMember now c body) ∨
      ∃ err members, addCommunityMember scan db userId now c body =
        (.error err, { db with members := members }) ∧ members.rows = db.members.rows := by
  unfold addCommunityMember
  cases hcommunity : db.community c with
  | error err => exact .inr ⟨err, db.members, rfl, rfl⟩
  | ok community =>
    dsimp only
    cases hmanager : db.manager scan c userId "Not enough permissions to invite members" with
    | error err => exact .inr ⟨err, db.members, rfl, rfl⟩
    | ok granter =>
      dsimp only
      cases hnone : db.notMember scan c body.userId with
      | error err => exact .inr ⟨err, db.members, rfl, rfl⟩
      | ok u =>
        dsimp only
        split_ifs with huser
        · have hsome : (db.communities.find c).isSome := by
            rw [(community_ok hcommunity).1]
            rfl
          exact .inl ⟨hsome, notMember_ok hnone, rfl⟩
        · exact .inr ⟨_, db.members.skip, rfl, rfl⟩

/-! ## Rows -/

theorem mem_communities_addMember {community : Community} :
    community ∈ (db.addMember now c body).communities.rows ↔
      ∃ old ∈ db.communities.rows,
        community = if old.id = c then old.countMember now else old := by
  unfold Db.addMember
  rw [Serial.rows_update]
  unfold Table.modify
  rw [List.mem_map]
  exact exists_congr fun old => and_congr_right fun _ => eq_comm

/-- Every member is a member of a community that exists. -/
def Housed (db : Db) : Prop :=
  ∀ member ∈ db.members.rows, (db.communities.find member.communityId).isSome

theorem housed_create (h : Housed db) (body : CommunityCreate) :
    Housed (db.createCommunity userId now body) := by
  intro member hmember
  unfold Db.createCommunity
  dsimp only
  rw [Serial.find_insert]
  split_ifs with hnew
  · rfl
  · obtain hold | hold := List.mem_append.mp hmember
    · exact h member hold
    · rw [List.mem_singleton.mp hold] at hnew
      exact absurd rfl hnew

theorem housed_add (h : Housed db) (hsome : (db.communities.find c).isSome) :
    Housed (db.addMember now c body) := by
  intro member hmember
  unfold Db.addMember
  dsimp only
  rw [Serial.find_update, Option.isSome_map]
  obtain hold | hnew := List.mem_append.mp hmember
  · exact h member hold
  · rw [List.mem_singleton.mp hnew]
    exact hsome

/-- Nobody is a member of a community that is about to be created. -/
theorem Housed.communityId_ne (h : Housed db) (hmember : member ∈ db.members.rows) :
    member.communityId ≠ db.communities.next := by
  intro heq
  have hsome := h member hmember
  rw [heq, Serial.find_next] at hsome
  cases hsome

theorem Housed.filter_next (h : Housed db) {p : CommunityMember → Bool}
    (hp : ∀ member, p member = true → member.communityId = db.communities.next) :
    db.members.rows.filter p = [] := by
  refine List.filter_eq_nil_iff.mpr fun member hmember hof => ?_
  exact h.communityId_ne hmember (hp member hof)

/-! ## The number of members -/

def CommunityMember.key (member : CommunityMember) : ℤ × ℤ := (member.communityId, member.userId)

def Db.membersOf (db : Db) (communityId : ℤ) : List CommunityMember :=
  db.members.rows.filter fun member => member.communityId = communityId

/-- `member_count` is the number of members, and nobody is a member twice. -/
structure CountsMembers (db : Db) : Prop where
  count : ∀ community ∈ db.communities.rows,
    community.memberCount = (db.membersOf community.id).length
  once : (db.members.rows.map CommunityMember.key).Nodup

/-- `member_count` leaves out one member, and nobody is a member twice. -/
structure Short (db : Db) : Prop where
  count : ∀ community ∈ db.communities.rows,
    community.memberCount + 1 = (db.membersOf community.id).length
  once : (db.members.rows.map CommunityMember.key).Nodup
  housed : Housed db

theorem membersOf_insert (members : Serial CommunityMember.id) {new : ℤ → CommunityMember}
    (hnew : ∀ k, (new k).id = k) (c : ℤ) :
    (members.insert new hnew).rows.filter (fun member => member.communityId = c) =
      members.rows.filter (fun member => member.communityId = c) ++
        if (new members.next).communityId = c then [new members.next] else [] := by
  rw [Serial.filter_insert]
  exact congrArg (_ ++ ·) (if_congr decide_eq_true_iff rfl rfl)

/-- A membership under a new key. -/
theorem once_append (h : (db.members.rows.map CommunityMember.key).Nodup)
    (hnew : ∀ old ∈ db.members.rows, old.key ≠ member.key) :
    ((db.members.rows ++ [member]).map CommunityMember.key).Nodup :=
  Table.nodup_append h (Table.find_eq_none.mpr hnew)

theorem membership_eq_none (h : db.membership scan c userId = none) :
    ∀ member ∈ db.members.rows, member.key ≠ (c, userId) := by
  intro member hmember hkey
  obtain ⟨hcommunity, huser⟩ := Prod.mk.inj hkey
  have hof := Scan.first_eq_none.mp h member hmember
  unfold CommunityMember.of at hof
  rw [hcommunity, huser] at hof
  simp at hof

theorem short_empty (users : List ℤ) : Short (.empty users) where
  count := fun _ h => (by cases h)
  once := List.nodup_nil
  housed := fun _ h => (by cases h)

/-- A new community counts nobody and has its owner. -/
theorem short_create (h : Short db) (body : CommunityCreate) :
    Short (db.createCommunity userId now body) where
  count := by
    intro community hcommunity
    have hmembers : (db.createCommunity userId now body).membersOf community.id =
        db.membersOf community.id ++
          if db.communities.next = community.id
            then [newMember db.communities.next userId .OWNER now db.members.next] else [] :=
      membersOf_insert _ (newMember_id _ _ _ _) _
    rw [hmembers]
    obtain hold | hnew := List.mem_append.mp hcommunity
    · rw [if_neg (Serial.next_ne hold), List.append_nil]
      exact h.count community hold
    · rw [List.mem_singleton.mp hnew]
      have hnone : db.membersOf db.communities.next = [] :=
        h.housed.filter_next fun member hof => of_decide_eq_true hof
      show (0 : ℤ) + 1 = (db.membersOf db.communities.next ++
        if db.communities.next = db.communities.next then _ else []).length
      rw [hnone, if_pos rfl]
      rfl
  once := by
    refine once_append h.once fun old hold hkey => ?_
    exact h.housed.communityId_ne hold (Prod.mk.inj hkey).1
  housed := housed_create h.housed body

/-- Each addition counts itself. -/
theorem short_add (h : Short db) (hsome : (db.communities.find c).isSome)
    (hnone : db.membership scan c body.userId = none) : Short (db.addMember now c body) where
  count := by
    intro community hcommunity
    obtain ⟨old, hold, rfl⟩ := mem_communities_addMember.mp hcommunity
    have hcount := h.count old hold
    have hmembers : (db.addMember now c body).membersOf old.id = db.membersOf old.id ++
        if c = old.id then [newMember c body.userId body.role now db.members.next] else [] :=
      membersOf_insert _ (newMember_id _ _ _ _) _
    by_cases hid : old.id = c
    · rw [if_pos hid, Community.countMember_id, hmembers, if_pos hid.symm, List.length_append,
        List.length_singleton]
      show old.memberCount + 1 + 1 = _
      omega
    · rw [if_neg hid, hmembers, if_neg fun hn => hid hn.symm, List.append_nil]
      exact hcount
  once := once_append h.once (membership_eq_none hnone)
  housed := housed_add h.housed hsome

theorem Short.congr (h : Short db) {members : Serial CommunityMember.id}
    (hrows : members.rows = db.members.rows) : Short { db with members := members } where
  count := by
    intro community hcommunity
    unfold Db.membersOf
    rw [hrows]
    exact h.count community hcommunity
  once := by
    dsimp only
    rw [hrows]
    exact h.once
  housed := fun member hmember => h.housed member (hrows ▸ hmember)

theorem short_step (h : Short db) {a : Action} (hstep : memberStep scan db a = some db') :
    Short db' := by
  obtain rfl := Option.some.inj hstep
  cases a with
  | create userId now body =>
    show Short (createCommunity db userId now body).2
    unfold createCommunity
    split_ifs
    · exact short_create h body
    · exact h
  | add userId now c body =>
    show Short (addCommunityMember scan db userId now c body).2
    obtain ⟨hsome, hnone, heq⟩ | ⟨err, members, heq, hrows⟩ :=
      addCommunityMember_cases scan db userId now c body
    · rw [heq]
      exact short_add h hsome hnone
    · rw [heq]
      exact h.congr hrows

/-- In every reachable state `member_count` is one less than the number of members. -/
theorem short_run {actions : List Action}
    (hrun : run (memberStep scan) (.empty users) actions = some db) : Short db :=
  run_invariant (fun _ _ _ h hstep => short_step h hstep) (short_empty users) hrun

/-- The request creates no community. -/
def NoCommunity (_ : Db) (a : Action) : Prop := a.creates = false

theorem step_communities {a : Action} (hstep : memberStep scan db a = some db') :
    db'.communities.rows.length =
      db.communities.rows.length + if a.creates then 1 else 0 := by
  obtain rfl := Option.some.inj hstep
  cases a with
  | create userId now body =>
    show (createCommunity db userId now body).2.communities.rows.length =
      _ + if body.storable = true then 1 else 0
    unfold createCommunity
    split_ifs
    · exact List.length_append
    · rfl
  | add userId now c body =>
    show (addCommunityMember scan db userId now c body).2.communities.rows.length = _
    obtain ⟨-, -, heq⟩ | ⟨err, members, heq, -⟩ :=
      addCommunityMember_cases scan db userId now c body
    · rw [heq]
      exact List.length_map _
    · rw [heq]
      rfl

/-- In every reachable state `member_count` is exact and nobody is a member twice if and only if
    no community has been created. -/
theorem countsMembers_iff {actions : List Action}
    (hrun : run (memberStep scan) (.empty users) actions = some db) :
    CountsMembers db ↔ Guarded (memberStep scan) NoCommunity (.empty users) actions := by
  have hshort := short_run hrun
  constructor
  · intro h
    obtain hguarded | hsome := guarded_or_lasting (G := NoCommunity)
      (I := fun _ => True) (B := fun db => 0 < db.communities.rows.length)
      (fun _ _ _ _ _ _ => trivial)
      (fun db a db' _ hcreates hstep => by
        have hlength := step_communities hstep
        rw [if_pos (Bool.eq_true_of_not_eq_false hcreates)] at hlength
        omega)
      (fun db a db' hsome hstep => by
        have hlength := step_communities hstep
        omega) trivial hrun
    · exact hguarded
    · obtain ⟨community, hin⟩ := List.exists_mem_of_length_pos hsome
      have hcount := h.count community hin
      have hless := hshort.count community hin
      omega
  · intro hguarded
    have hnone : db.communities.rows.length = 0 :=
      hguarded.invariant (I := fun db => db.communities.rows.length = 0)
        (fun db a db' hzero hcreates hstep => by
          have hlength := step_communities hstep
          rw [show a.creates = false from hcreates, hzero] at hlength
          exact hlength) rfl hrun
    refine ⟨fun community hin => ?_, hshort.once⟩
    rw [List.length_eq_zero_iff.mp hnone] at hin
    cases hin

/-- User `1` creates a community and makes user `2` an admin, who adds user `3` as an owner. -/
def usurp : List Action :=
  [.create 1 0
    { name := "Garden"
      description := none
      category := none
      name_le := by decide
      category_le := noCategory_le },
    .add 1 1 1 ⟨2, .ADMIN⟩, .add 2 2 1 ⟨3, .OWNER⟩]

/-- A community with its owner, who is not counted. -/
theorem owner_uncounted : ∃ db, run (memberStep .inserted) (.empty [1, 2, 3]) usurp = some db ∧
    db.communities.rows.map Community.memberCount = [2] ∧ (db.membersOf 1).length = 3 ∧
      ¬ CountsMembers db := by
  have hends : (run (memberStep .inserted) (.empty [1, 2, 3]) usurp).map (fun db =>
      (db.communities.rows.map (fun row => (row.id, row.memberCount)), (db.membersOf 1).length)) =
      some ([(1, 2)], 3) := by
    decide +kernel
  obtain ⟨db, hrun, hdb⟩ := Option.map_eq_some_iff.mp hends
  obtain ⟨hcommunities, hmembers⟩ := Prod.mk.inj hdb
  refine ⟨db, hrun, ?_, hmembers, fun h => ?_⟩
  · have hcounts := congrArg (List.map Prod.snd) hcommunities
    rwa [List.map_map] at hcounts
  · have hmem : ((1 : ℤ), (2 : ℤ)) ∈
        db.communities.rows.map (fun row => (row.id, row.memberCount)) := by
      rw [hcommunities]
      decide
    obtain ⟨community, hin, hrow⟩ := List.mem_map.mp hmem
    obtain ⟨hid, hcount⟩ := Prod.mk.inj hrow
    have hexact := h.count community hin
    rw [hid, hcount, hmembers] at hexact
    cases hexact

theorem countsMembers_usurp : ∃ db, run (memberStep .inserted) (.empty [1, 2, 3]) usurp = some db ∧
    (CountsMembers db ↔ Guarded (memberStep .inserted) NoCommunity (.empty [1, 2, 3]) usurp) := by
  obtain ⟨db, hrun⟩ : ∃ db, run (memberStep .inserted) (.empty [1, 2, 3]) usurp = some db :=
    ⟨_, rfl⟩
  exact ⟨db, hrun, countsMembers_iff hrun⟩

end IronLink.Communities
