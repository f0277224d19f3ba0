import IronLink.Groups.Routes

/-!
# Which decision a join request carries

A user has one row in `group_join_requests` for each group, and `request_join` uses it again
after a rejection. It sets `status` and `message` and leaves `decided_by_id` and `decided_at`
as they are (app/api/routes/groups.py:215-221).

Beside the calls, a group may be archived, opened or closed at any time.

Results:
* `carriesDecision_iff`: the runs in which every request carries its own decision and no other.
* `reopened_keeps_decision`: a run in which a pending request carries one.
-/

namespace IronLink.Groups

open Lib Auth

/-! ## Runs with a record of the decisions -/

/-- Who has decided, and when. -/
structure Decision where
  userId : UUID
  now : Time

/-- The tables, and for every request the decision that its status comes from; `none`:
    `request_join` has set it. -/
structure Decided where
  db : Db
  decision : UUID → Option Decision

/-- The decision that a call makes. -/
def Call.decision : Call → Option Decision
  | .decide userId _ now .. => some ⟨userId, now⟩
  | _ => none

inductive Event
  | call (c : Call)
  | configure (groupId : UUID) (isArchived joinApprovalRequired : Bool)

/-- New settings for a group. -/
def Db.configure (db : Db) (groupId : UUID) (isArchived joinApprovalRequired : Bool) : Db :=
  { db with
    groups := Table.modify Group.id db.groups groupId fun group =>
      { group with isArchived := isArchived, joinApprovalRequired := joinApprovalRequired } }

/-- One event. A call that answers with a request has set the request's status. -/
def Decided.step (s : Decided) : Event → Option Decided
  | .call c =>
    some
      { db := c.run s.db
        decision :=
          (c.answer s.db).elim s.decision fun out => Function.update s.decision out.id c.decision }
  | .configure groupId isArchived joinApprovalRequired =>
    some { s with db := s.db.configure groupId isArchived joinApprovalRequired }

def Decided.empty : Decided := ⟨.empty, fun _ => none⟩

/-- A pending request carries no decision; one whose status was decided carries exactly that
    decision. -/
def CarriesDecision (s : Decided) : Prop := ∀ request ∈ s.db.requests,
  (request.status = .PENDING → request.decidedById = none ∧ request.decidedAt = none) ∧
    ∀ decision, s.decision request.id = some decision →
      request.decidedById = some decision.userId ∧ request.decidedAt = some decision.now

/-- A user with a decided request asks again, and has to wait for an approval. -/
def AsksAgain (db : Db) : Event → Prop
  | .call (.join userId _ requestId groupId body) => ∃ group request, group.id = groupId ∧
      group.joinApprovalRequired = true ∧
        JoinTaken db userId requestId body.message group (some request)
  | _ => False

/-! ## The invariant -/

structure DecisionInv (s : Decided) : Prop where
  keys : Keys s.db
  carries : CarriesDecision s
  /-- Who is no member although the request was decided was rejected by somebody. -/
  rejected : ∀ request ∈ s.db.requests, request.status ≠ .PENDING →
    (∃ member ∈ s.db.members, member.key = request.key) ∨ request.decidedById ≠ none

theorem decisionInv_empty : DecisionInv .empty where
  keys := keys_empty
  carries := fun _ h => absurd h List.not_mem_nil
  rejected := fun _ h => absurd h List.not_mem_nil

variable {s : Decided} {db' : Db}

/-- One row is new, and what is recorded for it is the decision it carries. -/
theorem DecisionInv.replace (h : DecisionInv s) (hkeys : Keys db') {old : Option GroupJoinRequest}
    {row : GroupJoinRequest} {decision : Option Decision} {members : List GroupMember}
    (hreplaces : Replaces s.db.requests db'.requests old row)
    (hmembers : db'.members = s.db.members ++ members)
    (hpending : row.status = .PENDING → row.decidedById = none ∧ row.decidedAt = none)
    (hdecision : ∀ d, decision = some d →
      row.decidedById = some d.userId ∧ row.decidedAt = some d.now)
    (hrejected : row.status ≠ .PENDING →
      (∃ member ∈ members, member.key = row.key) ∨ row.decidedById ≠ none) :
    DecisionInv ⟨db', Function.update s.decision row.id decision⟩ := by
  have hrow : row ∈ db'.requests := (hreplaces row).mpr (.inl rfl)
  refine ⟨hkeys, fun request hrequest => ⟨fun hstatus => ?_, fun d hd => ?_⟩,
    fun request hrequest hstatus => ?_⟩
  · obtain rfl | ⟨hin, -⟩ := (hreplaces request).mp hrequest
    · exact hpending hstatus
    · exact (h.carries request hin).1 hstatus
  · have hd : Function.update s.decision row.id decision request.id = some d := hd
    by_cases hid : request.id = row.id
    · obtain rfl := List.inj_on_of_nodup_map hkeys.requestIds hrequest hrow hid
      rw [Function.update_self] at hd
      exact hdecision d hd
    · rw [Function.update_of_ne hid] at hd
      obtain rfl | ⟨hin, -⟩ := (hreplaces request).mp hrequest
      · exact absurd rfl hid
      · exact (h.carries request hin).2 d hd
  · rw [hmembers]
    obtain rfl | ⟨hin, -⟩ := (hreplaces request).mp hrequest
    · refine (hrejected hstatus).imp_left ?_
      rintro ⟨member, hmember, hkey⟩
      exact ⟨member, List.mem_append_right _ hmember, hkey⟩
    · refine (h.rejected request hin hstatus).imp_left ?_
      rintro ⟨member, hmember, hkey⟩
      exact ⟨member, List.mem_append_left _ hmember, hkey⟩

theorem DecisionInv.call (h : DecisionInv s) (c : Call) (hguard : ¬ AsksAgain s.db (.call c)) :
    DecisionInv ⟨c.run s.db,
      (c.answer s.db).elim s.decision fun out =>
        Function.update s.decision out.id c.decision⟩ := by
  have hkeys := keys_run h.keys c
  have heffect := effect_run h.keys c
  generalize c.run s.db = db' at hkeys heffect ⊢
  generalize c.answer s.db = answer at heffect ⊢
  cases heffect with
  | refused => exact h
  | created fresh notMember =>
    refine ⟨hkeys, h.carries, fun request hrequest hstatus => ?_⟩
    refine (h.rejected request hrequest hstatus).imp_left ?_
    rintro ⟨member, hmember, hkey⟩
    exact ⟨member, List.mem_append_left _ hmember, hkey⟩
  | @joined userId now requestId body requests group old taken replaces =>
    refine h.replace hkeys replaces rfl (fun hstatus => ?_) (fun d hd => (by cases hd))
      fun hstatus => .inl ?_
    · cases old with
      | none => exact ⟨rfl, rfl⟩
      | some request =>
        -- a decided request is not made pending
        have happroval : group.joinApprovalRequired = true := by
          by_contra hopen
          have hstatus : joinStatus group = .PENDING := hstatus
          unfold joinStatus at hstatus
          rw [if_neg hopen] at hstatus
          cases hstatus
        exact absurd ⟨group, request, rfl, happroval, taken⟩ hguard
    · rw [joinRow_key taken.existing]
      cases happroval : group.joinApprovalRequired with
      | true =>
        refine absurd ?_ hstatus
        rw [joinRow_status]
        exact if_pos happroval
      | false => exact ⟨_, List.mem_singleton.mpr rfl, rfl⟩
  | @decided userId role now approve requests request taken replaces =>
    refine h.replace hkeys replaces rfl (fun hstatus => ?_) (fun d hd => ?_) fun _ => .inr ?_
    · cases approve <;> cases hstatus
    · rw [← Option.some.inj hd]
      exact ⟨rfl, rfl⟩
    · exact Option.some_ne_none userId

theorem DecisionInv.configure (h : DecisionInv s) (groupId : UUID)
    (isArchived joinApprovalRequired : Bool) :
    DecisionInv { s with db := s.db.configure groupId isArchived joinApprovalRequired } := by
  have hgroups : ((s.db.configure groupId isArchived joinApprovalRequired).groups.map
      Group.id).Nodup := by
    unfold Db.configure
    rw [Table.map_key_modify]
    · exact h.keys.groups
    · exact fun _ => rfl
  exact ⟨⟨hgroups, h.keys.members, h.keys.requestIds, h.keys.requestKeys⟩, h.carries, h.rejected⟩

/-- The decision stays in the row when its user asks again. -/
theorem not_carriesDecision (h : DecisionInv s) {event : Event} (hasks : AsksAgain s.db event) :
    ∃ s', s.step event = some s' ∧ ¬ CarriesDecision s' := by
  cases event with
  | configure groupId isArchived joinApprovalRequired => exact absurd hasks id
  | call c =>
    cases c with
    | create userId role now groupId body => exact absurd hasks id
    | decide userId role now groupId requestId approve => exact absurd hasks id
    | join userId now requestId groupId body =>
      obtain ⟨group, request, rfl, happroval, taken⟩ := hasks
      obtain ⟨db', hresult, hreplaces, -⟩ := requestJoin_taken h.keys now body taken
      refine ⟨_, rfl, fun hcarries => ?_⟩
      have hmem : joinRow userId now requestId body.message group (some request) ∈
          (requestJoin s.db userId now requestId group.id body).2.requests := by
        rw [hresult]
        exact (hreplaces _).mpr (.inl rfl)
      have hpending :
          (joinRow userId now requestId body.message group (some request)).status = .PENDING := by
        rw [joinRow_status]
        exact if_pos happroval
      obtain ⟨hnone, -⟩ := (hcarries _ hmem).1 hpending
      obtain ⟨member, hmember, hkey⟩ | hdecided :=
        h.rejected request (Table.find_mem taken.existing) (taken.notPending request rfl)
      · exact Table.find_eq_none.mp taken.notMember member hmember
          (hkey.trans (Table.find_key taken.existing))
      · exact hdecided hnone

/-- Requests carry their own decisions in every state of a run exactly when nobody whose
    request was decided asks again and has to wait. -/
theorem carriesDecision_iff (events : List Event) :
    Throughout Decided.step CarriesDecision .empty events ↔
      Guarded Decided.step (fun s event => ¬ AsksAgain s.db event) .empty events := by
  refine throughout_iff_guarded (fun _ h => h.carries) (fun s event s' h hguard hstep => ?_)
    (fun s event h hguard => ?_) decisionInv_empty
  · cases event with
    | call c =>
      rw [← Option.some.inj hstep]
      exact h.call c hguard
    | configure groupId isArchived joinApprovalRequired =>
      rw [← Option.some.inj hstep]
      exact h.configure groupId isArchived joinApprovalRequired
  · obtain ⟨s', hs', hnot⟩ := not_carriesDecision h (not_not.mp hguard)
    exact ⟨s', hs', hnot⟩

/-- User `1` is rejected and asks again: the new request names who has decided the old one. -/
theorem reopened_keeps_decision : ∃ s, run Decided.step .empty
    [.call (.create 0 .SOLDIER 0 0 (plainGroup true)), .call (.join 1 1 0 0 plainRequest),
      .call (.decide 0 .SOLDIER 2 0 0 false), .call (.join 1 3 1 0 plainRequest)] = some s ∧
      ¬ CarriesDecision s := by
  have hrows : ((run Decided.step .empty
      [.call (.create 0 .SOLDIER 0 0 (plainGroup true)), .call (.join 1 1 0 0 plainRequest),
        .call (.decide 0 .SOLDIER 2 0 0 false), .call (.join 1 3 1 0 plainRequest)]).map
      fun s => s.db.requests) = some [⟨0, 0, 1, .PENDING, none, some 0, some 2, 1⟩] := by
    decide +kernel
  obtain ⟨s, hrun, hrequests⟩ := Option.map_eq_some_iff.mp hrows
  refine ⟨s, hrun, fun hcarries => ?_⟩
  obtain ⟨hnone, -⟩ := (hcarries _ (hrequests ▸ List.mem_singleton.mpr rfl)).1 rfl
  cases hnone

end IronLink.Groups
