import IronLink.Groups.Routes

/-!
# Memberships and the audit log

`create_group` and `decide_request` log the members they add; `request_join` logs nothing
when it lets a user into an open group (app/api/routes/groups.py:208-213).

Results:
* `reconstructs_iff`: the runs in which the log tells the memberships.
* `open_join_unlogged`: a run in which it does not.
-/

namespace IronLink.Groups

open Lib Auth

/-! ## The replay -/

/-- The group and the user that a row of the log adds, as the row has them. -/
def AuditLog.adds (row : AuditLog) : Option (String × String) :=
  if row.action = "group.created" then some (row.resourceId, row.actorId.str)
  else if row.action = "group.member.added" then row.newMember.map (row.resourceId, ·)
  else none

/-- The memberships after the rows of the log, read in order. -/
def replay (log : List AuditLog) : List (String × String) := log.filterMap AuditLog.adds

/-- A membership in the texts of the log. -/
def GroupMember.texts (member : GroupMember) : String × String :=
  (member.groupId.str, member.userId.str)

/-- The log yields exactly the memberships there are. -/
def Reconstructs (db : Db) : Prop := ∀ pair, pair ∈ replay db.audit ↔ ∃ member ∈ db.members,
  member.texts = pair

/-- The log has the members in the order in which they were added. -/
structure Logged (db : Db) : Prop where
  keys : Keys db
  replay : replay db.audit = db.members.map GroupMember.texts

theorem texts_eq_iff {member other : GroupMember} :
    member.texts = other.texts ↔ member.key = other.key := by
  constructor
  · intro h
    unfold GroupMember.texts at h
    obtain ⟨hgroup, huser⟩ := Prod.mk.inj h
    exact Prod.ext (UUID.str_injective hgroup) (UUID.str_injective huser)
  · intro h
    have hgroup : member.groupId = other.groupId := congrArg Prod.fst h
    have huser : member.userId = other.userId := congrArg Prod.snd h
    unfold GroupMember.texts
    rw [hgroup, huser]

variable {db db' : Db} {member : GroupMember}

theorem Logged.reconstructs (h : Logged db) : Reconstructs db := by
  intro pair
  rw [h.replay, List.mem_map]

/-- A row of the log for every new member. -/
theorem Logged.append (h : Logged db) (hkeys : Keys db') {row : AuditLog}
    (hrow : row.adds = some member.texts) (hmembers : db'.members = db.members ++ [member])
    (haudit : db'.audit = db.audit ++ [row]) : Logged db' := by
  refine ⟨hkeys, ?_⟩
  have hreplay : Groups.replay [row] = [member.texts] := by
    unfold Groups.replay
    rw [List.filterMap_cons_some hrow, List.filterMap_nil]
  rw [haudit, hmembers, List.map_append, List.map_singleton, ← h.replay, ← hreplay]
  exact List.filterMap_append

theorem Logged.step (h : Logged db) (c : Call) (hopen : ∀ group, ¬ JoinsOpen db c group) :
    Logged (c.run db) := by
  have hkeys := keys_run h.keys c
  have heffect := effect_run h.keys c
  generalize c.run db = db' at hkeys heffect ⊢
  generalize c.answer db = answer at heffect
  cases heffect with
  | refused => exact h
  | created fresh notMember => exact h.append hkeys rfl rfl rfl
  | joined group old taken replaces =>
    split_ifs at hkeys ⊢ with happroval
    · rw [List.append_nil] at hkeys ⊢
      exact ⟨hkeys, h.replay⟩
    · exact absurd ⟨rfl, Bool.eq_false_iff.mpr happroval, old, taken⟩ (hopen group)
  | @decided userId role now approve requests request taken replaces =>
    cases approve with
    | false =>
      rw [if_neg Bool.false_ne_true, if_neg Bool.false_ne_true, List.append_nil,
        List.append_nil] at hkeys ⊢
      exact ⟨hkeys, h.replay⟩
    | true => exact h.append hkeys rfl rfl rfl

/-- The log does not have a user who joins an open group. -/
theorem not_reconstructs (h : Logged db) (c : Call) {group : Group}
    (hopen : JoinsOpen db c group) : ¬ Reconstructs (c.run db) := by
  cases c with
  | create userId role now groupId body => exact absurd hopen id
  | decide userId role now groupId requestId approve => exact absurd hopen id
  | join userId now requestId groupId body =>
    obtain ⟨rfl, happroval, old, taken⟩ := hopen
    obtain ⟨db', hresult, -, hdb⟩ := requestJoin_taken h.keys now body taken
    have hmembers : db'.members = db.members ++ [⟨group.id, userId, .MEMBER, now⟩] := by
      rw [hdb, happroval]
      rfl
    have haudit : db'.audit = db.audit := by rw [hdb]
    show ¬ Reconstructs (requestJoin db userId now requestId group.id body).2
    rw [hresult]
    intro hrec
    have hnew := (hrec (GroupMember.texts ⟨group.id, userId, .MEMBER, now⟩)).mpr
      ⟨_, by rw [hmembers]; exact List.mem_append_right _ (List.mem_singleton.mpr rfl), rfl⟩
    dsimp only at hnew
    rw [haudit, h.replay] at hnew
    obtain ⟨member, hmember, htexts⟩ := List.mem_map.mp hnew
    exact Table.find_eq_none.mp taken.notMember member hmember (texts_eq_iff.mp htexts)

/-- The log tells the memberships in every state of a run exactly when in the run nobody joins
    an open group. -/
theorem reconstructs_iff (cs : List Call) : Throughout step Reconstructs .empty cs ↔
    Guarded step (fun db c => ∀ group, ¬ JoinsOpen db c group) .empty cs := by
  refine throughout_iff_guarded (fun _ h => h.reconstructs) (fun db c db' h hopen hstep => ?_)
    (fun db c h hopen => ?_) (I := Logged) ⟨keys_empty, rfl⟩
  · rw [← Option.some.inj hstep]
    exact h.step c hopen
  · obtain ⟨group, hopen⟩ := not_forall.mp hopen
    exact ⟨c.run db, rfl, not_reconstructs h c (not_not.mp hopen)⟩

/-- User `1` joins an open group, and the log has its creator only. -/
theorem open_join_unlogged : ∃ db, run step .empty
    [.create 0 .SOLDIER 0 0 (plainGroup false), .join 1 1 0 0 plainRequest] = some db ∧
      ¬ Reconstructs db := by
  have htexts : ((run step .empty [.create 0 .SOLDIER 0 0 (plainGroup false),
      .join 1 1 0 0 plainRequest]).map fun db => (db.members.map GroupMember.key,
        replay db.audit == [(UUID.str 0, UUID.str 0)])) = some ([(0, 0), (0, 1)], true) := by
    decide +kernel
  obtain ⟨db, hrun, hdb⟩ := Option.map_eq_some_iff.mp htexts
  obtain ⟨hmembers, hreplay⟩ := Prod.mk.inj hdb
  refine ⟨db, hrun, fun hrec => ?_⟩
  have hjoined : (0, 1) ∈ db.members.map GroupMember.key := by
    rw [hmembers]
    decide
  obtain ⟨member, hmember, hkey⟩ := List.mem_map.mp hjoined
  have hin := (hrec member.texts).mpr ⟨member, hmember, rfl⟩
  rw [eq_of_beq hreplay, List.mem_singleton] at hin
  have hsame : member.key = GroupMember.key ⟨0, 0, .OWNER, 0⟩ := texts_eq_iff.mp hin
  rw [hkey] at hsame
  exact absurd hsame (by decide)

end IronLink.Groups
