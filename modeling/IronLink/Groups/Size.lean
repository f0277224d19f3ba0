import IronLink.Groups.Routes

/-!
# Groups and their size limit

`max_members` is to be enforced in the application layer (app/models/group.py:73-76), but no
route reads it. A group goes over its limit when somebody joins it while it is open, or is
approved, with as many members in it as it may have.

Results:
* `withinLimits_iff`: the runs in which no group ever exceeds its limit.
* `full_group_grows`: a run in which a group does.
-/

namespace IronLink.Groups

open Lib Auth

/-- The number of memberships of a group. -/
def size (db : Db) (groupId : UUID) : ℕ :=
  db.members.countP fun member => decide (member.groupId = groupId)

/-- No group has more members than its `max_members`. -/
def WithinLimits (db : Db) : Prop :=
  ∀ group ∈ db.groups, (size db group.id : ℤ) ≤ group.maxMembers

/-- The group, if there is such a group, takes another member. -/
def HasRoom (db : Db) (groupId : UUID) : Prop :=
  ∀ group, db.group groupId = some group → (size db groupId : ℤ) < group.maxMembers

/-- The group that the call adds a member to has room for one. -/
def Admits (db : Db) (c : Call) : Prop :=
  (∀ group, JoinsOpen db c group → HasRoom db group.id) ∧
    ∀ request, Approves db c request → HasRoom db request.groupId

/-- Tables in which every membership is of a group, and no group exceeds its limit. -/
structure Sized (db : Db) : Prop where
  keys : Keys db
  ofGroup : ∀ member ∈ db.members, ∃ group ∈ db.groups, group.id = member.groupId
  within : WithinLimits db

theorem sized_empty : Sized .empty where
  keys := keys_empty
  ofGroup := fun _ h => absurd h List.not_mem_nil
  within := fun _ h => absurd h List.not_mem_nil

/-! ## Counting -/

variable {db db' : Db} {member : GroupMember}

theorem size_append (h : db'.members = db.members ++ [member]) (groupId : UUID) :
    size db' groupId = size db groupId + if member.groupId = groupId then 1 else 0 := by
  unfold size
  rw [h, List.countP_append, List.countP_singleton]
  by_cases hof : member.groupId = groupId
  · simp [hof]
  · simp [hof]

theorem size_eq_zero {groupId : UUID} (h : ∀ m ∈ db.members, m.groupId ≠ groupId) :
    size db groupId = 0 := by
  unfold size
  rw [List.countP_eq_zero]
  intro m hm
  simp [h m hm]

theorem withinLimits_congr (h : WithinLimits db) (hgroups : db'.groups = db.groups)
    (hmembers : db'.members = db.members) : WithinLimits db' := by
  intro group hgroup
  rw [hgroups] at hgroup
  unfold size
  rw [hmembers]
  exact h group hgroup

/-- A new member of a group that has room for it. -/
theorem withinLimits_append (hkeys : Keys db) (h : WithinLimits db)
    (hgroups : db'.groups = db.groups) (hmembers : db'.members = db.members ++ [member])
    (hroom : HasRoom db member.groupId) : WithinLimits db' := by
  intro group hgroup
  rw [hgroups] at hgroup
  have hwithin := h group hgroup
  rw [size_append hmembers]
  split_ifs with hof
  · have := hroom group (hof ▸ Table.find_of_mem hkeys.groups hgroup)
    rw [hof] at this
    push_cast
    omega
  · exact hwithin

/-- A new member of a group that has none. -/
theorem not_withinLimits_append (hgroups : db'.groups = db.groups)
    (hmembers : db'.members = db.members ++ [member]) (hroom : ¬ HasRoom db member.groupId) :
    ¬ WithinLimits db' := by
  intro h
  refine hroom fun group hgroup => ?_
  have hid : group.id = member.groupId := Table.find_key hgroup
  have hle := h group (hgroups ▸ Table.find_mem hgroup)
  rw [size_append hmembers, if_pos hid.symm, hid] at hle
  push_cast at hle
  omega

/-! ## One call -/

theorem Sized.created (h : Sized db) {userId : UUID} {now : Time} {groupId : UUID}
    {body : CreateGroupIn} (fresh : db.group groupId = none) (hkeys : Keys db')
    (hgroups : db'.groups = db.groups ++ [newGroup groupId body])
    (hmembers : db'.members = db.members ++ [⟨groupId, userId, .OWNER, now⟩]) : Sized db' := by
  have hnone : ∀ group ∈ db.groups, group.id ≠ groupId := Table.find_eq_none.mp fresh
  refine ⟨hkeys, fun m hm => ?_, fun group hgroup => ?_⟩
  · rw [hmembers] at hm
    rw [hgroups]
    obtain hin | hin := List.mem_append.mp hm
    · obtain ⟨group, hgroup, hid⟩ := h.ofGroup m hin
      exact ⟨group, List.mem_append_left _ hgroup, hid⟩
    · rw [List.mem_singleton.mp hin]
      exact ⟨_, List.mem_append_right _ (List.mem_singleton.mpr rfl), rfl⟩
  · rw [hgroups] at hgroup
    rw [size_append hmembers]
    obtain hin | hin := List.mem_append.mp hgroup
    · rw [if_neg (hnone group hin).symm]
      exact h.within group hin
    · have hzero : size db groupId = 0 := by
        refine size_eq_zero fun m hm heq => ?_
        obtain ⟨other, hother, hid⟩ := h.ofGroup m hm
        exact hnone other hother (hid.trans heq)
      rw [List.mem_singleton.mp hin]
      show ((size db groupId + if groupId = groupId then 1 else 0 : ℕ) : ℤ) ≤ 200
      rw [hzero, if_pos rfl]
      decide

theorem Sized.admitted (h : Sized db) (hkeys : Keys db') (hgroups : db'.groups = db.groups)
    (hmembers : db'.members = db.members ++ [member])
    (hof : ∃ group ∈ db.groups, group.id = member.groupId) (hroom : HasRoom db member.groupId) :
    Sized db' := by
  refine ⟨hkeys, fun m hm => ?_, withinLimits_append h.keys h.within hgroups hmembers hroom⟩
  rw [hmembers] at hm
  rw [hgroups]
  obtain hin | hin := List.mem_append.mp hm
  · exact h.ofGroup m hin
  · rw [List.mem_singleton.mp hin]
    exact hof

theorem sized_step (h : Sized db) (c : Call) (hadmits : Admits db c) : Sized (c.run db) := by
  have hkeys := keys_run h.keys c
  have heffect := effect_run h.keys c
  generalize c.run db = db' at hkeys heffect ⊢
  generalize c.answer db = answer at heffect
  cases heffect with
  | refused => exact h
  | created fresh notMember => exact h.created fresh hkeys rfl rfl
  | joined group old taken replaces =>
    have hmem : group ∈ db.groups := Table.find_mem taken.found
    split_ifs at hkeys ⊢ with happroval
    · rw [List.append_nil] at hkeys ⊢
      exact ⟨hkeys, h.ofGroup, withinLimits_congr h.within rfl rfl⟩
    · exact h.admitted hkeys rfl rfl ⟨group, hmem, rfl⟩
        (hadmits.1 group ⟨rfl, Bool.eq_false_iff.mpr happroval, old, taken⟩)
  | @decided userId role now approve requests request taken replaces =>
    cases approve with
    | false =>
      rw [if_neg Bool.false_ne_true, List.append_nil] at hkeys ⊢
      exact ⟨hkeys, h.ofGroup, withinLimits_congr h.within rfl rfl⟩
    | true =>
      obtain ⟨manager, hmanager, -⟩ := taken.admin
      obtain ⟨group, hgroup, hid⟩ := h.ofGroup manager (Table.find_mem hmanager)
      have hof : manager.groupId = request.groupId := congrArg Prod.fst (Table.find_key hmanager)
      exact h.admitted hkeys rfl rfl ⟨group, hgroup, hid.trans hof⟩
        (hadmits.2 request ⟨rfl, rfl, rfl, taken⟩)

theorem not_withinLimits_step (h : Sized db) (c : Call) (hadmits : ¬ Admits db c) :
    ¬ WithinLimits (c.run db) := by
  obtain hopen | happroves := not_and_or.mp hadmits
  · obtain ⟨group, hopen⟩ := not_forall.mp hopen
    obtain ⟨hjoins, hroom⟩ := Classical.not_imp.mp hopen
    cases c with
    | create userId role now groupId body => exact absurd hjoins id
    | decide userId role now groupId requestId approve => exact absurd hjoins id
    | join userId now requestId groupId body =>
      obtain ⟨rfl, happroval, old, taken⟩ := hjoins
      obtain ⟨db', hresult, -, hdb⟩ := requestJoin_taken h.keys now body taken
      have hmembers : db'.members = db.members ++ [⟨group.id, userId, .MEMBER, now⟩] := by
        rw [hdb, happroval]
        rfl
      have hgroups : db'.groups = db.groups := by rw [hdb]
      show ¬ WithinLimits (requestJoin db userId now requestId group.id body).2
      rw [hresult]
      exact not_withinLimits_append hgroups hmembers hroom
  · obtain ⟨request, happroves⟩ := not_forall.mp happroves
    obtain ⟨happroves, hroom⟩ := Classical.not_imp.mp happroves
    cases c with
    | create userId role now groupId body => exact absurd happroves id
    | join userId now requestId groupId body => exact absurd happroves id
    | decide userId role now groupId requestId approve =>
      obtain ⟨rfl, rfl, rfl, taken⟩ := happroves
      obtain ⟨db', hresult, -, hdb⟩ := decideRequest_taken h.keys role now taken
      have hmembers : db'.members =
          db.members ++ [⟨request.groupId, request.userId, .MEMBER, now⟩] := by
        rw [hdb]
        rfl
      have hgroups : db'.groups = db.groups := by rw [hdb]
      show ¬ WithinLimits (decideRequest db userId role now request.groupId request.id true).2
      rw [hresult]
      exact not_withinLimits_append hgroups hmembers hroom

/-- No group exceeds its limit in any state of a run exactly when the run adds members only to
    groups that have room for them. -/
theorem withinLimits_iff (cs : List Call) :
    Throughout step WithinLimits .empty cs ↔ Guarded step Admits .empty cs := by
  refine throughout_iff_guarded (fun _ h => h.within) (fun db c db' h hadmits hstep => ?_)
    (fun db c h hadmits => ⟨c.run db, rfl, not_withinLimits_step h c hadmits⟩) sized_empty
  rw [← Option.some.inj hstep]
  exact sized_step h c hadmits

/-! ## A group that grows too large -/

/-- User `k + 1` joins group `0`. -/
def crowdJoin (k : ℕ) : Call :=
  .join (BitVec.ofNat 128 (k + 1)) 0 (BitVec.ofNat 128 k) 0 plainRequest

/-- User `0` creates group `0`, and `n` others join it. -/
def crowd (n : ℕ) : List Call :=
  .create 0 .SOLDIER 0 0 (plainGroup false) :: (List.range n).map crowdJoin

/-- Group `0` after `n` joins. -/
structure Crowded (n : ℕ) (db : Db) : Prop where
  keys : Keys db
  group : db.group 0 = some (newGroup 0 (plainGroup false))
  size : size db 0 = n + 1
  members : ∀ member ∈ db.members, member.userId.toNat ≤ n
  requests : ∀ request ∈ db.requests, request.id.toNat < n ∧ request.userId.toNat ≤ n

theorem crowded_zero : Crowded 0 ((Call.create 0 .SOLDIER 0 0 (plainGroup false)).run .empty) where
  keys := keys_run keys_empty _
  group := by decide +kernel
  size := by decide +kernel
  members := by decide +kernel
  requests := by decide +kernel

theorem crowded_succ {n : ℕ} (hn : n < 200) (h : Crowded n db) :
    Crowded (n + 1) ((crowdJoin n).run db) := by
  have huser : (BitVec.ofNat 128 (n + 1)).toNat = n + 1 := by
    rw [BitVec.toNat_ofNat]
    omega
  have hid : (BitVec.ofNat 128 n).toNat = n := by
    rw [BitVec.toNat_ofNat]
    omega
  have taken : JoinTaken db (BitVec.ofNat 128 (n + 1)) (BitVec.ofNat 128 n) none
      (newGroup 0 (plainGroup false)) none := by
    refine ⟨h.group, rfl, ?_, ?_, fun _ hr => (by cases hr), fun _ => ?_, rfl⟩
    · refine Table.find_eq_none.mpr fun m hm hkey => ?_
      have heq : m.userId = BitVec.ofNat 128 (n + 1) := congrArg Prod.snd hkey
      have := h.members m hm
      rw [heq, huser] at this
      omega
    · refine Table.find_eq_none.mpr fun r hr hkey => ?_
      have heq : r.userId = BitVec.ofNat 128 (n + 1) := congrArg Prod.snd hkey
      have := (h.requests r hr).2
      rw [heq, huser] at this
      omega
    · refine Table.find_eq_none.mpr fun r hr hkey => ?_
      have := (h.requests r hr).1
      rw [hkey, hid] at this
      omega
  obtain ⟨db', hresult, hreplaces, hdb⟩ :=
    requestJoin_taken h.keys 0 plainRequest taken
  have hrun : (crowdJoin n).run db = db' := congrArg Prod.snd hresult
  have hmembers : db'.members =
      db.members ++ [⟨0, BitVec.ofNat 128 (n + 1), .MEMBER, 0⟩] := by
    rw [hdb]
    rfl
  have hgroups : db'.groups = db.groups := by rw [hdb]
  refine ⟨keys_run h.keys _, ?_, ?_, fun m hm => ?_, fun r hr => ?_⟩
  · rw [hrun]
    unfold Db.group
    rw [hgroups]
    exact h.group
  · rw [hrun, size_append hmembers, h.size]
    rfl
  · rw [hrun, hmembers] at hm
    obtain hin | hin := List.mem_append.mp hm
    · exact (h.members m hin).trans (Nat.le_succ n)
    · rw [List.mem_singleton.mp hin]
      exact huser.le
  · rw [hrun] at hr
    obtain rfl | ⟨hin, -⟩ := (hreplaces r).mp hr
    · exact ⟨hid.trans_lt (Nat.lt_succ_self n), huser.le⟩
    · have := h.requests r hin
      omega

theorem crowded_run {n : ℕ} (hn : n ≤ 200) :
    ∃ db, run step .empty (crowd n) = some db ∧ Crowded n db := by
  induction n with
  | zero => exact ⟨_, rfl, crowded_zero⟩
  | succ n ih =>
    obtain ⟨db, hrun, hcrowded⟩ := ih (Nat.le_of_succ_le hn)
    refine ⟨(crowdJoin n).run db, ?_, crowded_succ hn hcrowded⟩
    have hsplit : crowd (n + 1) = crowd n ++ [crowdJoin n] := by
      unfold crowd
      rw [List.range_succ, List.map_append, List.cons_append]
      rfl
    rw [hsplit, run_append, hrun]
    rfl

/-- With `max_members` 200, the 200th user who joins is the 201st member. -/
theorem full_group_grows : ∃ db, run step .empty (crowd 200) = some db ∧ ¬ WithinLimits db := by
  obtain ⟨db, hrun, hcrowded⟩ := crowded_run le_rfl
  refine ⟨db, hrun, fun hwithin => ?_⟩
  have hle := hwithin _ (Table.find_mem hcrowded.group)
  have hsize : size db 0 = 201 := hcrowded.size
  have hle : (size db 0 : ℤ) ≤ 200 := hle
  omega

end IronLink.Groups
