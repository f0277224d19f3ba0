import IronLink.Groups.Listing
import IronLink.Lib.Isolation

/-!
# Users outside a group

Two runs of the group routes contain the same calls, except for what other users do in a group:
asking to join it, deciding on those who ask, looking at it. A user who neither creates the group
nor asks to join it is answered alike in both runs.

Results:
* `answer_outside`: what the user is answered does not depend on the members and requests of the
  group.
* `outsiders_see_nothing`: two runs.
-/

namespace IronLink.Groups

open Lib Auth Orm

/-! ## Requests and answers -/

/-- A request to the routes. -/
inductive Action
  | call (c : Call)
  | myGroups (userId : UUID)
  | groupMembers (userId groupId : UUID)
  | pendingRequests (userId groupId : UUID)

def Action.userId : Action → UUID
  | .call c => c.userId
  | .myGroups userId => userId
  | .groupMembers userId _ => userId
  | .pendingRequests userId _ => userId

inductive Answer
  | group (response : Except HttpError GroupOut)
  | request (response : Except HttpError JoinRequestOut)
  | groups (response : List GroupOut)
  | members (response : Except HttpError (List MemberOut))
  | requests (response : Except HttpError (List JoinRequestOut))

def Action.run (db : Db) : Action → Db
  | .call c => c.run db
  | _ => db

def act (db : Db) (a : Action) : Option Db := some (a.run db)

section

variable (scan : Scan) (createdAt : UUID → Time) (fullName : UUID → String)

def Action.answer (db : Db) : Action → Answer
  | .call (.create userId role now groupId body) =>
    .group (createGroup db userId role now groupId body).1
  | .call (.join userId now requestId groupId body) =>
    .request (requestJoin db userId now requestId groupId body).1
  | .call (.decide userId role now groupId requestId approve) =>
    .request (decideRequest db userId role now groupId requestId approve).1
  | .myGroups userId => .groups (Groups.myGroups scan createdAt db userId)
  | .groupMembers userId groupId => .members (Groups.groupMembers scan fullName db userId groupId)
  | .pendingRequests userId groupId =>
    .requests (Groups.pendingRequests scan db userId groupId)

end

/-- What another user than `w` does in the group. -/
def Action.inside (g w : UUID) : Action → Bool
  | .call (.create ..) => false
  | .call (.join userId _ _ groupId _) => userId ≠ w ∧ groupId = g
  | .call (.decide userId _ _ groupId _ _) => userId ≠ w ∧ groupId = g
  | .myGroups _ => false
  | .groupMembers userId groupId => userId ≠ w ∧ groupId = g
  | .pendingRequests userId groupId => userId ≠ w ∧ groupId = g

/-- The user `w` neither creates the group nor asks to join it. `ids` are the keys drawn for
    the requests of the group: no other request draws one of them. -/
def Action.Proper (g w : UUID) (ids : UUID → Prop) : Action → Prop
  | .call (.create userId _ _ groupId _) => groupId = g → userId ≠ w
  | .call (.join userId _ requestId groupId _) =>
    (groupId = g → userId ≠ w) ∧ (groupId = g ↔ ids requestId)
  | _ => True

/-! ## The tables without the group's rows -/

/-- The tables as far as they are not about the members and requests of the group. -/
def Db.outside (g : UUID) (db : Db) : Db where
  groups := db.groups
  members := db.members.filter fun member => member.groupId ≠ g
  requests := db.requests.filter fun request => request.groupId ≠ g
  audit := []

variable {db db' : Db} {g w h u : UUID}

@[simp] theorem outside_outside : (db.outside g).outside g = db.outside g := by
  unfold Db.outside
  simp only [List.filter_filter, Bool.and_self]

@[simp] theorem group_outside : (db.outside g).group h = db.group h := rfl

theorem keys_outside (hkeys : Keys db) : Keys (db.outside g) where
  groups := hkeys.groups
  members := hkeys.members.sublist (List.filter_sublist.map _)
  requestIds := hkeys.requestIds.sublist (List.filter_sublist.map _)
  requestKeys := hkeys.requestKeys.sublist (List.filter_sublist.map _)

/-! ### Rows of other groups -/

section

variable {K R : Type} [DecidableEq K] {key : R → K} {rows : List R} {p : R → Bool} {k : K}

/-- A selection that takes all rows with the key. -/
theorem find_filter (hp : ∀ r ∈ rows, key r = k → p r = true) :
    Table.find key (rows.filter p) k = Table.find key rows k := by
  unfold Table.find
  rw [List.find?_filter]
  induction rows with
  | nil => rfl
  | cons r rows ih =>
    have hrest := ih fun r' hr' => hp r' (List.mem_cons_of_mem _ hr')
    by_cases hk : key r = k
    · simp [hk, hp r List.mem_cons_self hk]
    · simpa [hk] using hrest

/-- A selection that takes none of them. -/
theorem find_filter_none (hp : ∀ r ∈ rows, key r = k → p r = false) :
    Table.find key (rows.filter p) k = none := by
  refine Table.find_eq_none.mpr fun r hr hk => ?_
  obtain ⟨hmem, hpr⟩ := List.mem_filter.mp hr
  rw [hp r hmem hk] at hpr
  cases hpr

theorem filter_modify {f : R → R} (hf : ∀ r, p (f r) = p r) :
    (Table.modify key rows k f).filter p = Table.modify key (rows.filter p) k f := by
  unfold Table.modify
  rw [List.filter_map]
  refine congrArg _ (List.filter_congr fun r _ => ?_)
  show p (if key r = k then f r else r) = p r
  split_ifs
  · exact hf r
  · rfl

theorem modify_eq_self {f : R → R} (h : ∀ r ∈ rows, key r ≠ k) :
    Table.modify key rows k f = rows := by
  unfold Table.modify
  conv_rhs => rw [← List.map_id rows]
  exact List.map_congr_left fun r hr => if_neg (h r hr)

end

theorem membership_outside (hne : h ≠ g) :
    membership (db.outside g) h u = membership db h u := by
  refine find_filter fun member _ hkey => decide_eq_true ?_
  rw [(key_eq_iff.mp hkey).1]
  exact hne

theorem findRequest_outside (hne : h ≠ g) :
    Table.find GroupJoinRequest.key (db.outside g).requests (h, u) =
      Table.find GroupJoinRequest.key db.requests (h, u) := by
  refine find_filter fun request _ hkey => decide_eq_true ?_
  rw [show request.groupId = h from congrArg Prod.fst hkey]
  exact hne

theorem existingRequest_outside (hne : h ≠ g) :
    existingRequest (db.outside g) h u = existingRequest db h u := by
  unfold existingRequest
  rw [findRequest_outside hne]

theorem requireAdminMember_outside (hne : h ≠ g) :
    requireAdminMember (db.outside g) h u = requireAdminMember db h u := by
  unfold requireAdminMember
  rw [membership_outside hne]

/-- A request of the group is none of another group's. -/
theorem pendingRequest_outside (hkeys : Keys db) (hne : h ≠ g) (requestId : UUID) :
    pendingRequest (db.outside g) h requestId = pendingRequest db h requestId := by
  unfold pendingRequest
  cases hfind : Table.find GroupJoinRequest.id db.requests requestId with
  | none =>
    have hnone : Table.find GroupJoinRequest.id (db.outside g).requests requestId = none :=
      find_filter_none fun request hrequest hid =>
        absurd hid (Table.find_eq_none.mp hfind request hrequest)
    rw [hnone]
  | some found =>
    have honly : ∀ request ∈ db.requests, request.id = requestId → request = found := by
      intro request hrequest hid
      exact List.inj_on_of_nodup_map hkeys.requestIds hrequest (Table.find_mem hfind)
        (hid.trans (Table.find_key hfind).symm)
    by_cases hof : found.groupId = g
    · have hnone : Table.find GroupJoinRequest.id (db.outside g).requests requestId = none := by
        refine find_filter_none fun request hrequest hid => decide_eq_false ?_
        rw [honly request hrequest hid]
        exact not_not_intro hof
      rw [hnone]
      dsimp only
      rw [if_neg fun hboth => hne (hboth.1.symm.trans hof)]
    · have hsame : Table.find GroupJoinRequest.id (db.outside g).requests requestId =
          Table.find GroupJoinRequest.id db.requests requestId := by
        refine find_filter fun request hrequest hid => decide_eq_true ?_
        rw [honly request hrequest hid]
        exact hof
      rw [hsame, hfind]

theorem readJoin_outside (hne : h ≠ g) (now : Time) (requestId : UUID) (message : Option String) :
    readJoin (db.outside g) u now requestId h message = readJoin db u now requestId h message := by
  unfold readJoin notMember
  rw [membership_outside hne, existingRequest_outside hne]
  rfl

theorem readDecision_outside (hkeys : Keys db) (hne : h ≠ g) (role : UserRole) (now : Time)
    (requestId : UUID) (approve : Bool) :
    readDecision (db.outside g) u role now h requestId approve =
      readDecision db u role now h requestId approve := by
  unfold readDecision
  rw [requireAdminMember_outside hne, pendingRequest_outside hkeys hne]

/-! ### Commits -/

/-- The commit writes rows of the group `h` only. -/
structure Writes.Of (writes : Writes) (h : UUID) (db : Db) : Prop where
  group : writes.group = none
  member : ∀ member ∈ writes.member, member.groupId = h
  insert : ∀ request, writes.request = .insert request → request.groupId = h
  update : ∀ id columns, writes.request = .update id columns →
    ∀ request ∈ db.requests, request.id = id → request.groupId = h

theorem filter_toList_nil {α : Type} {p : α → Bool} {x : Option α} (h : ∀ a ∈ x, p a = false) :
    x.toList.filter p = [] := by
  refine List.filter_eq_nil_iff.mpr fun a ha hpa => ?_
  rw [h a (Option.mem_toList.mp ha)] at hpa
  cases hpa

@[simp] theorem RequestColumns.apply_groupId (columns : RequestColumns)
    (request : GroupJoinRequest) : (columns.apply request).groupId = request.groupId := rfl

theorem filter_update (requests : List GroupJoinRequest) (id : UUID) (columns : RequestColumns) :
    (Table.modify GroupJoinRequest.id requests id columns.apply).filter
        (fun request => request.groupId ≠ g) =
      Table.modify GroupJoinRequest.id (requests.filter fun request => request.groupId ≠ g) id
        columns.apply :=
  filter_modify fun _ => by rw [columns.apply_groupId]

/-- A commit of rows of the group leaves the others. -/
theorem outside_commit_of (hof : Writes.Of writes g db) (hcommit : db.commit writes = some db') :
    db'.outside g = db.outside g := by
  obtain ⟨-, -, rfl⟩ := commit_eq_some hcommit
  have hmembers : (writes.member.toList.filter fun member => member.groupId ≠ g) = [] :=
    filter_toList_nil fun member hmember =>
      decide_eq_false (not_not_intro (hof.member member hmember))
  have hrequests : ((writes.request.run db.requests).filter fun request => request.groupId ≠ g) =
      db.requests.filter fun request => request.groupId ≠ g := by
    cases hrequest : writes.request with
    | nothing => rfl
    | insert request =>
      have hnone : [request].filter (fun request => request.groupId ≠ g) = [] :=
        List.filter_cons_of_neg (by simpa using hof.insert request hrequest)
      show (db.requests ++ [request]).filter _ = _
      rw [List.filter_append, hnone, List.append_nil]
    | update id columns =>
      show (Table.modify GroupJoinRequest.id db.requests id columns.apply).filter _ = _
      rw [filter_update]
      refine modify_eq_self fun request hrequest' hid => ?_
      obtain ⟨hmem, hne⟩ := List.mem_filter.mp hrequest'
      exact of_decide_eq_true hne (hof.update id columns hrequest request hmem hid)
  unfold Db.outside
  dsimp only
  rw [hof.group, Option.toList_none, List.append_nil, List.filter_append, hmembers, List.append_nil,
    hrequests]

/-- A commit of rows of another group, with a key that no request of the group has. -/
theorem commit_outside (hof : Writes.Of writes h db) (hne : h ≠ g)
    (hfresh : ∀ request, writes.request = .insert request →
      ∀ r ∈ db.requests, r.id = request.id → r.groupId ≠ g) :
    ((db.outside g).commit writes).map (Db.outside g) = (db.commit writes).map (Db.outside g) := by
  have haccepts : (db.outside g).accepts writes = db.accepts writes := by
    have hmember : (writes.member.all fun member =>
        (membership (db.outside g) member.groupId member.userId).isNone) =
          writes.member.all fun member => (membership db member.groupId member.userId).isNone := by
      cases hmember : writes.member with
      | none => rfl
      | some member =>
        rw [Option.all_some, Option.all_some, hof.member member hmember, membership_outside hne]
    unfold Db.accepts
    rw [hmember]
    cases hrequest : writes.request with
    | nothing => rfl
    | update id columns => rfl
    | insert request =>
      have hid : Table.find GroupJoinRequest.id (db.outside g).requests request.id =
          Table.find GroupJoinRequest.id db.requests request.id :=
        find_filter fun r hr hrid => decide_eq_true (hfresh request hrequest r hr hrid)
      have hkey : Table.find GroupJoinRequest.key (db.outside g).requests request.key =
          Table.find GroupJoinRequest.key db.requests request.key :=
        findRequest_outside ((hof.insert request hrequest).trans_ne hne)
      dsimp only
      rw [hid, hkey]
      rfl
  unfold Db.commit
  rw [haccepts]
  split_ifs
  · have hsame : (db.outside g).outside g = db.outside g := outside_outside
    have hrequests : ((writes.request.run (db.outside g).requests).filter
        fun request => request.groupId ≠ g) =
          (writes.request.run db.requests).filter fun request => request.groupId ≠ g := by
      cases writes.request with
      | nothing => exact congrArg Db.requests hsame
      | insert request =>
        show ((db.outside g).requests ++ [request]).filter _ = (db.requests ++ [request]).filter _
        rw [List.filter_append, List.filter_append]
        exact congrArg (· ++ _) (congrArg Db.requests hsame)
      | update id columns =>
        show (Table.modify GroupJoinRequest.id (db.outside g).requests id columns.apply).filter _ =
          (Table.modify GroupJoinRequest.id db.requests id columns.apply).filter _
        rw [filter_update, filter_update]
        exact congrArg (Table.modify GroupJoinRequest.id · id columns.apply)
          (congrArg Db.requests hsame)
    have hmembers : (((db.outside g).members ++ writes.member.toList).filter
        fun member => member.groupId ≠ g) =
          (db.members ++ writes.member.toList).filter fun member => member.groupId ≠ g := by
      rw [List.filter_append, List.filter_append]
      exact congrArg (· ++ _) (congrArg Db.members hsame)
    rw [Option.map_some, Option.map_some]
    unfold Db.outside at hrequests hmembers ⊢
    dsimp only at hrequests hmembers ⊢
    rw [hrequests, hmembers]
  · rfl

/-! ### Calls -/

theorem joinWrites_of (hkeys : Keys db) {now : Time} {requestId : UUID} {message : Option String}
    {group : Group} {old : Option GroupJoinRequest}
    (hold : Table.find GroupJoinRequest.key db.requests (group.id, u) = old) :
    Writes.Of (joinWrites u now requestId message group old) group.id db where
  group := rfl
  member := by
    intro member hmember
    unfold joinWrites at hmember
    dsimp only at hmember
    split_ifs at hmember
    · cases hmember
    · rw [← Option.some.inj hmember]
  insert := by
    intro request hrequest
    cases old with
    | none => rw [← RequestWrite.insert.inj hrequest]
    | some old => cases hrequest
  update := by
    intro id columns hrequest request hmem hid
    cases old with
    | none => cases hrequest
    | some old =>
      obtain ⟨rfl, -⟩ := RequestWrite.update.inj hrequest
      rw [List.inj_on_of_nodup_map hkeys.requestIds hmem (Table.find_mem hold) hid]
      exact congrArg Prod.fst (Table.find_key hold)

theorem decideWrites_of (hkeys : Keys db) {role : UserRole} {now : Time} {approve : Bool}
    {request : GroupJoinRequest} (hrequest : request ∈ db.requests) :
    Writes.Of (decideWrites u role now approve request) request.groupId db where
  group := rfl
  member := by
    intro member hmember
    unfold decideWrites at hmember
    dsimp only at hmember
    split_ifs at hmember
    · rw [← Option.some.inj hmember]
    · cases hmember
  insert := by
    intro inserted hinsert
    cases hinsert
  update := by
    intro id columns hupdate other hmem hid
    obtain ⟨rfl, -⟩ := RequestWrite.update.inj hupdate
    rw [List.inj_on_of_nodup_map hkeys.requestIds hmem hrequest hid]

/-- What the reads of `request_join` lead to. -/
theorem readJoin_ok {now : Time} {requestId : UUID} {message : Option String} {w : Writes}
    (hread : readJoin db u now requestId h message = .ok w) :
    ∃ group old, db.group h = some group ∧ group.id = h ∧
      Table.find GroupJoinRequest.key db.requests (group.id, u) = old ∧
        w = joinWrites u now requestId message group old := by
  obtain ⟨group, hgroup, hread⟩ := bind_eq_ok hread
  obtain ⟨_, -, hread⟩ := bind_eq_ok hread
  obtain ⟨old, hold, hread⟩ := bind_eq_ok hread
  obtain rfl := Except.ok.inj hread
  obtain ⟨hgroup, -⟩ := joinedGroup_ok hgroup
  obtain rfl := group_id hgroup
  exact ⟨group, old, hgroup, rfl, (existingRequest_ok hold).1, rfl⟩

theorem readDecision_ok {role : UserRole} {now : Time} {requestId : UUID} {approve : Bool}
    {w : Writes} (hread : readDecision db u role now h requestId approve = .ok w) :
    AdminOf db h u ∧ ∃ request,
      Table.find GroupJoinRequest.id db.requests request.id = some request ∧
        request.groupId = h ∧ w = decideWrites u role now approve request := by
  obtain ⟨admin, hadmin, hread⟩ := bind_eq_ok hread
  obtain ⟨request, hrequest, hread⟩ := bind_eq_ok hread
  obtain rfl := Except.ok.inj hread
  obtain ⟨hfind, hgroup, -⟩ := pendingRequest_ok hrequest
  obtain rfl : request.id = requestId := Table.find_key hfind
  exact ⟨requireAdminMember_ok hadmin, request, hfind, hgroup, rfl⟩

/-- A call that is about the group leaves what is outside. -/
theorem outside_finish {writes : Except HttpError Writes}
    (hof : ∀ w, writes = .ok w → Writes.Of w g db) :
    (finishRequest db writes).2.outside g = db.outside g := by
  obtain ⟨err, hresult⟩ | ⟨w, db', rfl, hcommit⟩ := finishRequest_cases db writes
  · rw [hresult]
  · unfold finishRequest
    dsimp only
    rw [hcommit]
    exact outside_commit_of (hof w rfl) hcommit

theorem outside_join (hkeys : Keys db) (now : Time) (requestId : UUID) (body : JoinRequestIn) :
    (requestJoin db u now requestId g body).2.outside g = db.outside g := by
  refine outside_finish fun w hread => ?_
  obtain ⟨group, old, -, rfl, hold, rfl⟩ := readJoin_ok hread
  exact joinWrites_of hkeys hold

theorem outside_decide (hkeys : Keys db) (role : UserRole) (now : Time) (requestId : UUID)
    (approve : Bool) :
    (decideRequest db u role now g requestId approve).2.outside g = db.outside g := by
  refine outside_finish fun w hread => ?_
  obtain ⟨-, request, hfind, rfl, rfl⟩ := readDecision_ok hread
  exact decideWrites_of hkeys (Table.find_mem hfind)

/-- Two calls are answered alike and leave the same outside. -/
def SameOutside {α : Type} (g : UUID) (r r' : Except HttpError α × Db) : Prop :=
  r.1 = r'.1 ∧ r.2.outside g = r'.2.outside g

/-- A call about another group does not depend on the rows of this one; `row` is the request it
    answers with. -/
theorem finish_outside {writes : Except HttpError Writes} (hne : h ≠ g)
    (hwrites : ∀ w, writes = .ok w → Writes.Of w h db ∧
      (∀ request, w.request = .insert request →
        ∀ r ∈ db.requests, r.id = request.id → r.groupId ≠ g) ∧
      ∃ row : GroupJoinRequest, ∀ d ∈ [db, db.outside g], ∀ d', d.commit w = some d' →
        finishRequest d (.ok w) = (.ok (.modelValidate row), d')) :
    SameOutside g (finishRequest (db.outside g) writes) (finishRequest db writes) := by
  cases writes with
  | error err => exact ⟨rfl, outside_outside⟩
  | ok w =>
    obtain ⟨hof, hfresh, row, hanswer⟩ := hwrites w rfl
    have hcommit := commit_outside hof hne hfresh
    cases hdb : db.commit w with
    | none =>
      rw [hdb, Option.map_none, Option.map_eq_none_iff] at hcommit
      unfold finishRequest
      dsimp only
      rw [hdb, hcommit]
      exact ⟨rfl, outside_outside⟩
    | some db' =>
      rw [hdb, Option.map_some, Option.map_eq_some_iff] at hcommit
      obtain ⟨db'', hdb'', hsame⟩ := hcommit
      rw [hanswer db (by simp) db' hdb, hanswer (db.outside g) (by simp) db'' hdb'']
      exact ⟨rfl, hsame⟩

theorem join_outside (hkeys : Keys db) (hne : h ≠ g) (now : Time) {requestId : UUID}
    (hfresh : ∀ r ∈ db.requests, r.id = requestId → r.groupId ≠ g) (body : JoinRequestIn) :
    SameOutside g (requestJoin (db.outside g) u now requestId h body)
      (requestJoin db u now requestId h body) := by
  unfold requestJoin
  rw [readJoin_outside hne]
  refine finish_outside hne fun w hread => ?_
  obtain ⟨group, old, -, rfl, hold, rfl⟩ := readJoin_ok hread
  have hold' : Table.find GroupJoinRequest.key (db.outside g).requests (group.id, u) = old := by
    rw [findRequest_outside hne, hold]
  refine ⟨joinWrites_of hkeys hold, fun request hinsert => ?_,
    joinRow u now requestId body.message group old, fun d hd d' hcommit => ?_⟩
  · cases old with
    | none =>
      rw [← RequestWrite.insert.inj hinsert]
      exact hfresh
    | some old => cases hinsert
  · simp only [List.mem_cons, List.not_mem_nil, or_false] at hd
    obtain rfl | rfl := hd
    · exact (commit_join hkeys hold hcommit).2.2
    · exact (commit_join (keys_outside hkeys) hold' hcommit).2.2

theorem decide_outside (hkeys : Keys db) (hne : h ≠ g) (role : UserRole) (now : Time)
    (requestId : UUID) (approve : Bool) :
    SameOutside g (decideRequest (db.outside g) u role now h requestId approve)
      (decideRequest db u role now h requestId approve) := by
  unfold decideRequest
  rw [readDecision_outside hkeys hne]
  refine finish_outside hne fun w hread => ?_
  obtain ⟨-, request, hfind, rfl, rfl⟩ := readDecision_ok hread
  have hfind' : Table.find GroupJoinRequest.id (db.outside g).requests request.id = some request :=
    Table.find_of_mem (keys_outside hkeys).requestIds
      (List.mem_filter.mpr ⟨Table.find_mem hfind, decide_eq_true hne⟩)
  refine ⟨decideWrites_of hkeys (Table.find_mem hfind), fun inserted hinsert => ?_,
    decidedRow u now approve request, fun d hd d' hcommit => ?_⟩
  · cases hinsert
  · simp only [List.mem_cons, List.not_mem_nil, or_false] at hd
    obtain rfl | rfl := hd
    · exact (commit_decide hkeys hfind hcommit).2.2
    · exact (commit_decide (keys_outside hkeys) hfind' hcommit).2.2

theorem create_outside (hgroups : ∀ member ∈ db.members, ∃ group ∈ db.groups,
    group.id = member.groupId) (role : UserRole) (now : Time) (groupId : UUID)
    (body : CreateGroupIn) :
    SameOutside g (createGroup (db.outside g) u role now groupId body)
      (createGroup db u role now groupId body) := by
  have hsame : (db.outside g).outside g = db.outside g := outside_outside
  have haccepts : (db.outside g).accepts (createWrites u role now groupId body) =
      db.accepts (createWrites u role now groupId body) := by
    show ((db.group groupId).isNone && (membership (db.outside g) groupId u).isNone && true) =
      ((db.group groupId).isNone && (membership db groupId u).isNone && true)
    cases hgroup : db.group groupId with
    | some group => rfl
    | none =>
      -- a group that is not there has no members
      have hnone : ∀ member ∈ db.members, member.key ≠ (groupId, u) := by
        intro member hmember hkey
        obtain ⟨group, hmem, hid⟩ := hgroups member hmember
        exact Table.find_eq_none.mp hgroup group hmem (hid.trans (key_eq_iff.mp hkey).1)
      rw [show membership db groupId u = none from Table.find_eq_none.mpr hnone,
        show membership (db.outside g) groupId u = none from Table.find_eq_none.mpr
          fun member hmember => hnone member (List.mem_of_mem_filter hmember)]
  unfold createGroup Db.commit
  rw [haccepts]
  split_ifs
  · refine ⟨rfl, ?_⟩
    have hmembers : ((db.outside g).members ++ [(⟨groupId, u, .OWNER, now⟩ : GroupMember)]).filter
        (fun member => member.groupId ≠ g) =
          (db.members ++ [(⟨groupId, u, .OWNER, now⟩ : GroupMember)]).filter
            fun member => member.groupId ≠ g := by
      rw [List.filter_append, List.filter_append]
      exact congrArg (· ++ _) (congrArg Db.members hsame)
    have hrequests : (db.outside g).requests.filter (fun request => request.groupId ≠ g) =
        db.requests.filter fun request => request.groupId ≠ g := congrArg Db.requests hsame
    unfold Db.outside at hmembers hrequests ⊢
    dsimp only [createWrites, Option.toList_some, RequestWrite.run] at hmembers hrequests ⊢
    rw [hmembers, hrequests]
  · exact ⟨rfl, hsame⟩

/-! ### What the user is shown -/

section Shown

variable (hout : ∀ member ∈ db.members, member.groupId = g → member.userId ≠ w)
include hout

theorem membership_outsider : membership (db.outside g) h w = membership db h w := by
  by_cases hne : h = g
  · subst hne
    have hnone : ∀ member ∈ db.members, member.key ≠ (h, w) := by
      intro member hmember hkey
      obtain ⟨hof, huser⟩ := key_eq_iff.mp hkey
      exact hout member hmember hof huser
    rw [show membership db h w = none from Table.find_eq_none.mpr hnone]
    exact Table.find_eq_none.mpr fun member hmember => hnone member (List.mem_of_mem_filter hmember)
  · exact membership_outside hne

theorem not_in_group : membership db g w = none := by
  refine Table.find_eq_none.mpr fun member hmember hkey => ?_
  obtain ⟨hof, huser⟩ := key_eq_iff.mp hkey
  exact hout member hmember hof huser

theorem requireAdminMember_outsider :
    requireAdminMember (db.outside g) h w = requireAdminMember db h w := by
  unfold requireAdminMember
  rw [membership_outsider hout]

theorem requireAdminMember_refused :
    requireAdminMember db g w = .error ⟨403, "group admin role required"⟩ := by
  unfold requireAdminMember
  rw [not_in_group hout]

theorem joined_outsider : (db.outside g).joined w = db.joined w := by
  unfold Db.joined
  refine congrArg (List.flatMap · _) (funext fun group => congrArg (List.map _) ?_)
  show (db.members.filter _).filter _ = _
  rw [List.filter_filter]
  refine List.filter_congr fun member hmember => ?_
  by_cases hof : member.groupId = g
  · have huser := hout member hmember hof
    simp [huser]
  · simp [hof]

/-- The user is shown no row of the group. -/
theorem joined_ne {row : Group × GroupRole} (hrow : row ∈ db.joined w) : row.1.id ≠ g := by
  unfold Db.joined at hrow
  obtain ⟨group, -, hrow⟩ := List.mem_flatMap.mp hrow
  obtain ⟨member, hmember, rfl⟩ := List.mem_map.mp hrow
  obtain ⟨hmem, hboth⟩ := List.mem_filter.mp hmember
  obtain ⟨hof, huser⟩ := of_decide_eq_true hboth
  exact fun hg => hout member hmem (hof.trans hg) huser

theorem myGroups_outsider (scan : Scan) (createdAt : UUID → Time) :
    myGroups scan createdAt (db.outside g) w = myGroups scan createdAt db w := by
  unfold myGroups
  rw [joined_outsider hout]
  refine List.map_congr_left fun row hrow => ?_
  rw [List.mem_mergeSort, (scan.perm _).mem_iff] at hrow
  have hsize : size (db.outside g) row.1.id = size db row.1.id := by
    have hne := joined_ne hout hrow
    show (db.members.filter _).countP _ = db.members.countP _
    rw [List.countP_filter]
    refine List.countP_congr fun member _ => ?_
    simp only [Bool.and_eq_true, decide_eq_true_eq]
    exact ⟨And.left, fun hof => ⟨hof, hof.trans_ne hne⟩⟩
  unfold GroupOut.ofRow
  rw [hsize]

theorem groupMembers_outsider (scan : Scan) (fullName : UUID → String) :
    groupMembers scan fullName (db.outside g) w h = groupMembers scan fullName db w h := by
  unfold groupMembers
  rw [membership_outsider hout]
  by_cases hne : h = g
  · rw [hne, not_in_group hout]
  · have hrows : (db.outside g).membersOf h = db.membersOf h := by
      show (db.members.filter _).filter _ = db.members.filter _
      rw [List.filter_filter]
      refine List.filter_congr fun member _ => Bool.eq_iff_iff.mpr ?_
      simp only [Bool.and_eq_true, decide_eq_true_eq]
      exact ⟨And.left, fun hof => ⟨hof, hof.trans_ne hne⟩⟩
    rw [hrows]

theorem pendingRequests_outsider (scan : Scan) :
    pendingRequests scan (db.outside g) w h = pendingRequests scan db w h := by
  unfold pendingRequests
  rw [requireAdminMember_outsider hout]
  by_cases hne : h = g
  · rw [hne, requireAdminMember_refused hout]
    rfl
  · have hrows : ((db.outside g).requests.filter fun request =>
        request.groupId = h ∧ request.status = .PENDING) =
          db.requests.filter fun request => request.groupId = h ∧ request.status = .PENDING := by
      show (db.requests.filter _).filter _ = db.requests.filter _
      rw [List.filter_filter]
      refine List.filter_congr fun request _ => Bool.eq_iff_iff.mpr ?_
      simp only [Bool.and_eq_true, decide_eq_true_eq]
      exact ⟨And.left, fun hof => ⟨hof, hof.1.trans_ne hne⟩⟩
    rw [hrows]

/-- The decisions of the user in the group are refused. -/
theorem decide_refused (role : UserRole) (now : Time) (requestId : UUID) (approve : Bool) :
    decideRequest db w role now g requestId approve =
      (.error ⟨403, "group admin role required"⟩, db) := by
  unfold decideRequest readDecision
  rw [requireAdminMember_refused hout]
  rfl

end Shown

/-! ## Runs -/

/-- What the runs keep: the user is no member of the group, has not asked to join it, and the keys
    of its requests are those drawn for it. -/
structure Secluded (g w : UUID) (ids : UUID → Prop) (db : Db) : Prop where
  reached : ∃ cs, run step .empty cs = some db
  members : ∀ member ∈ db.members, member.groupId = g → member.userId ≠ w
  requests : ∀ request ∈ db.requests, request.groupId = g → request.userId ≠ w ∧ ids request.id

variable {ids : UUID → Prop}

theorem secluded_empty : Secluded g w ids .empty where
  reached := ⟨[], rfl⟩
  members := fun _ h => absurd h List.not_mem_nil
  requests := fun _ h => absurd h List.not_mem_nil

theorem Secluded.inv (hdb : Secluded g w ids db) : ∃ cs, Inv cs db := by
  obtain ⟨cs, hrun⟩ := hdb.reached
  exact ⟨cs, inv_run hrun⟩

theorem Secluded.keys (hdb : Secluded g w ids db) : Keys db := by
  obtain ⟨cs, hinv⟩ := hdb.inv
  exact hinv.keys

theorem secluded_step (hdb : Secluded g w ids db) {a : Action} (hproper : a.Proper g w ids) :
    Secluded g w ids (a.run db) := by
  cases a with
  | call c =>
    obtain ⟨cs, hrun⟩ := hdb.reached
    have hreached : run step .empty (cs ++ [c]) = some (c.run db) := by
      rw [run_append, hrun]
      rfl
    have heffect := effect_run hdb.keys c
    show Secluded g w ids (c.run db)
    generalize c.run db = db' at heffect hreached ⊢
    generalize c.answer db = answer at heffect
    refine ⟨⟨_, hreached⟩, ?_, ?_⟩
    · cases heffect with
      | refused => exact hdb.members
      | created fresh notMember =>
        intro member hmember hof
        obtain hmember | hmember := List.mem_append.mp hmember
        · exact hdb.members member hmember hof
        · obtain rfl := List.mem_singleton.mp hmember
          exact hproper hof
      | joined group old taken replaces =>
        intro member hmember hof
        obtain hmember | hmember := List.mem_append.mp hmember
        · exact hdb.members member hmember hof
        · split_ifs at hmember
          · cases hmember
          · obtain rfl := List.mem_singleton.mp hmember
            exact hproper.1 hof
      | decided request taken replaces =>
        intro member hmember hof
        obtain hmember | hmember := List.mem_append.mp hmember
        · exact hdb.members member hmember hof
        · split_ifs at hmember
          · obtain rfl := List.mem_singleton.mp hmember
            exact (hdb.requests request (Table.find_mem taken.found) hof).1
          · cases hmember
    · cases heffect with
      | refused => exact hdb.requests
      | created fresh notMember => exact hdb.requests
      | @joined userId now requestId body requests group old taken replaces =>
        intro request hrequest hof
        obtain rfl | ⟨hold, -⟩ := (replaces request).mp hrequest
        · cases old with
          | none => exact ⟨hproper.1 hof, hproper.2.mp hof⟩
          | some old =>
            exact hdb.requests old (Table.find_mem taken.existing) hof
        · exact hdb.requests request hold hof
      | decided request taken replaces =>
        intro other hother hof
        obtain rfl | ⟨hold, -⟩ := (replaces other).mp hother
        · exact hdb.requests request (Table.find_mem taken.found) hof
        · exact hdb.requests other hold hof
  | myGroups userId => exact hdb
  | groupMembers userId groupId => exact hdb
  | pendingRequests userId groupId => exact hdb

theorem Secluded.fresh (hdb : Secluded g w ids db) {requestId : UUID} (hfresh : ¬ ids requestId) :
    ∀ request ∈ db.requests, request.id = requestId → request.groupId ≠ g := by
  rintro request hrequest rfl hof
  exact hfresh (hdb.requests request hrequest hof).2

/-- What others do in the group leaves what is outside. -/
theorem outside_inside (hkeys : Keys db) {a : Action} (ha : a.inside g w = true) :
    (a.run db).outside g = db.outside g := by
  cases a with
  | call c =>
    cases c with
    | create userId role now groupId body => cases ha
    | join userId now requestId groupId body =>
      obtain ⟨-, rfl⟩ := of_decide_eq_true ha
      exact outside_join hkeys now requestId body
    | decide userId role now groupId requestId approve =>
      obtain ⟨-, rfl⟩ := of_decide_eq_true ha
      exact outside_decide hkeys role now requestId approve
  | myGroups userId => rfl
  | groupMembers userId groupId => rfl
  | pendingRequests userId groupId => rfl

/-- Everything else depends on what is outside only. -/
theorem outside_kept (hdb : Secluded g w ids db) {a : Action} (hproper : a.Proper g w ids)
    (ha : a.inside g w = false) : (a.run (db.outside g)).outside g = (a.run db).outside g := by
  cases a with
  | call c =>
    cases c with
    | create userId role now groupId body =>
      obtain ⟨cs, hinv⟩ := hdb.inv
      exact (create_outside hinv.memberGroup role now groupId body).2
    | join userId now requestId groupId body =>
      by_cases hg : groupId = g
      · have hin := decide_eq_true (p := userId ≠ w ∧ groupId = g) ⟨hproper.1 hg, hg⟩
        exact absurd (ha.symm.trans hin) Bool.false_ne_true
      · exact (join_outside hdb.keys hg now (hdb.fresh fun hid => hg (hproper.2.mpr hid)) body).2
    | decide userId role now groupId requestId approve =>
      by_cases hg : groupId = g
      · subst hg
        show (decideRequest _ _ _ _ _ _ _).2.outside groupId =
          (decideRequest _ _ _ _ _ _ _).2.outside groupId
        rw [outside_decide hdb.keys, outside_decide (keys_outside hdb.keys), outside_outside]
      · exact (decide_outside hdb.keys hg role now requestId approve).2
  | myGroups userId => exact outside_outside
  | groupMembers userId groupId => exact outside_outside
  | pendingRequests userId groupId => exact outside_outside

/-- What the user is answered depends on what is outside only. -/
theorem answer_outside (hdb : Secluded g w ids db) {a : Action} (hproper : a.Proper g w ids)
    (hw : a.userId = w) (scan : Scan) (createdAt : UUID → Time) (fullName : UUID → String) :
    a.answer scan createdAt fullName (db.outside g) = a.answer scan createdAt fullName db := by
  have hout := hdb.members
  have hout' : ∀ member ∈ (db.outside g).members, member.groupId = g → member.userId ≠ w :=
    fun member hmember => hout member (List.mem_of_mem_filter hmember)
  cases a with
  | call c =>
    cases c with
    | create userId role now groupId body =>
      obtain ⟨cs, hinv⟩ := hdb.inv
      exact congrArg Answer.group (create_outside hinv.memberGroup role now groupId body).1
    | join userId now requestId groupId body =>
      by_cases hg : groupId = g
      · exact absurd hw (hproper.1 hg)
      · exact congrArg Answer.request
          (join_outside hdb.keys hg now (hdb.fresh fun hid => hg (hproper.2.mpr hid)) body).1
    | decide userId role now groupId requestId approve =>
      by_cases hg : groupId = g
      · subst hg
        obtain rfl : userId = w := hw
        refine congrArg Answer.request ?_
        rw [decide_refused hout, decide_refused hout']
      · exact congrArg Answer.request (decide_outside hdb.keys hg role now requestId approve).1
  | myGroups userId =>
    obtain rfl : userId = w := hw
    exact congrArg Answer.groups (myGroups_outsider hout scan createdAt)
  | groupMembers userId groupId =>
    obtain rfl : userId = w := hw
    exact congrArg Answer.members (groupMembers_outsider hout scan fullName)
  | pendingRequests userId groupId =>
    obtain rfl : userId = w := hw
    exact congrArg Answer.requests (pendingRequests_outsider hout scan)

/-- What the user is answered, in whatever order rows come. -/
def seen (createdAt : UUID → Time) (fullName : UUID → String) (w : UUID) (db : Db) (a : Action) :
    Option (Scan → Answer) :=
  if a.userId = w then some fun scan => a.answer scan createdAt fullName db else none

/-- The same tables outside the group, in both of which the user is out of it. -/
def AlikeOutside (g w : UUID) (ids : UUID → Prop) (s t : Db) : Prop :=
  Secluded g w ids s ∧ Secluded g w ids t ∧ s.outside g = t.outside g

theorem alike_looks {s t : Db} (hst : AlikeOutside g w ids s t) {a : Action}
    (hproper : a.Proper g w ids) (createdAt : UUID → Time) (fullName : UUID → String) :
    seen createdAt fullName w s a = seen createdAt fullName w t a := by
  obtain ⟨hs, ht, hsame⟩ := hst
  unfold seen
  split_ifs with hw
  · refine congrArg some (funext fun scan => ?_)
    rw [← answer_outside hs hproper hw, ← answer_outside ht hproper hw, hsame]
  · rfl

theorem twoRuns (createdAt : UUID → Time) (fullName : UUID → String) (g w : UUID)
    (ids : UUID → Prop) :
    TwoRuns act (fun a => !a.inside g w) (seen createdAt fullName w) (AlikeOutside g w ids)
      (fun _ _ => False) (Action.Proper g w ids) where
  left := by
    rintro s t a s' ⟨hs, ht, hsame⟩ hproper ha hstep
    rw [← Option.some.inj hstep]
    rw [Bool.not_eq_false'] at ha
    exact ⟨secluded_step hs hproper, ht, (outside_inside hs.keys ha).trans hsame⟩
  right := by
    rintro s t a t' ⟨hs, ht, hsame⟩ hproper ha hstep
    rw [← Option.some.inj hstep]
    rw [Bool.not_eq_false'] at ha
    exact ⟨hs, secluded_step ht hproper, hsame.trans (outside_inside ht.keys ha).symm⟩
  both := by
    rintro s t a s' t' ⟨hs, ht, hsame⟩ hproper ha hstep hstep' -
    rw [← Option.some.inj hstep, ← Option.some.inj hstep']
    rw [Bool.not_eq_true'] at ha
    refine ⟨secluded_step hs hproper, secluded_step ht hproper, ?_⟩
    rw [← outside_kept hs hproper ha, ← outside_kept ht hproper ha, hsame]
  part := by
    intro s t a s' t' hst hproper _ _ _ hne
    exact hne (alike_looks hst hproper createdAt fullName)
  apartLeft := fun h _ => h
  apartRight := fun h _ => h

theorem act_total (as : List Action) (db : Db) : ∃ db', run act db as = some db' := by
  induction as generalizing db with
  | nil => exact ⟨db, rfl⟩
  | cons a as ih => exact ih (a.run db)

/-- **Outsiders.** Two runs with the same requests, except for what other users do in the group:
    a user who neither creates it nor asks to join it is answered alike in both. -/
theorem outsiders_see_nothing (createdAt : UUID → Time) (fullName : UUID → String) (g w : UUID)
    (ids : UUID → Prop) (as bs : List Action)
    (hsame : as.filter (fun a => !a.inside g w) = bs.filter fun a => !a.inside g w)
    (has : ∀ a ∈ as, a.Proper g w ids) (hbs : ∀ b ∈ bs, b.Proper g w ids) :
    glances act (fun a => !a.inside g w) (seen createdAt fullName w) .empty as =
      glances act (fun a => !a.inside g w) (seen createdAt fullName w) .empty bs := by
  obtain ⟨s, hs⟩ := act_total as .empty
  obtain ⟨t, ht⟩ := act_total bs .empty
  have halike : AlikeOutside g w ids .empty .empty := ⟨secluded_empty, secluded_empty, rfl⟩
  obtain ⟨heq, -⟩ | ⟨-, hfalse⟩ :=
    (twoRuns createdAt fullName g w ids).ends hsame has hbs halike hs ht
  · exact heq
  · exact hfalse.elim

/-- User `1` creates the group `1`, user `3` the group `2`. -/
def bothCreate : List Action :=
  [.call (.create 1 .SOLDIER 0 1 (plainGroup true)),
    .call (.create 3 .SOLDIER 0 2 (plainGroup true))]

/-- User `2` joins the group `1`. -/
def comesIn : List Action :=
  [.call (.join 2 1 7 1 plainRequest), .call (.decide 1 .SOLDIER 2 1 7 true), .groupMembers 2 1]

/-- User `2` asks to join the group `2`, and user `3` looks around. -/
def looksAround : List Action :=
  [.call (.join 2 3 8 2 plainRequest), .myGroups 3, .groupMembers 3 1, .pendingRequests 3 2]

theorem outsiders_see_nothing_comesIn :
    glances act (fun a => !a.inside 1 3) (seen (fun _ => 0) (fun _ => "") 3) .empty
        (bothCreate ++ comesIn ++ looksAround) =
      glances act (fun a => !a.inside 1 3) (seen (fun _ => 0) (fun _ => "") 3) .empty
        (bothCreate ++ looksAround) :=
  outsiders_see_nothing _ _ 1 3 (fun id => id = 7) _ _ rfl
    (by simp [bothCreate, comesIn, looksAround, Action.Proper])
    (by simp [bothCreate, looksAround, Action.Proper])

end IronLink.Groups
