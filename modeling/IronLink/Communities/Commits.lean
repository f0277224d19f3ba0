import IronLink.Communities.Routes

/-!
# The commits of the communities router

The handlers of backend/app/api/routes/communities.py run in a thread pool: between what one of
them reads and what it commits, others commit. A request reads at once here and commits later;
`create_community` commits the community first, then its owner and its permissions.

Results:
* `serve_alone`: a request with nothing in between does what `serve` does.
-/

namespace IronLink.Communities

open Lib Auth Orm

/-! ## Model -/

/-- What a call is about to commit. -/
inductive Write
  | create (userId : ℤ) (now : Time) (body : CommunityCreate)
  /-- the second commit of `create_community` -/
  | seed (userId : ℤ) (now : Time) (communityId : ℤ)
  | update (read new : Community) (now : Time)
  | delete (communityId : ℤ)
  | addMember (read : Community) (userId : ℤ) (role : CommunityRole) (now : Time)
  | event (userId : ℤ) (now : Time) (communityId : ℤ) (body : CommunityEventCreate)
  | rsvp (userId : ℤ) (now : Time) (eventId : ℤ) (response : String)
  | resource (userId : ℤ) (now : Time) (communityId : ℤ) (body : CommunityResourceCreate)

/-- A handler up to its first commit; `none`: it refuses or only reads. -/
def plan (scan : Scan) (db : Db) (call : Call) : Option Write :=
  match call.request with
  | .create body => if body.storable then some (.create call.userId call.now body) else none
  | .update communityId body =>
    match db.ownCommunity communityId call.userId with
    | .error _ => none
    | .ok read => (body.apply read).bind fun new =>
        if body.storable then some (.update read new call.now) else none
  | .delete communityId =>
    match db.ownCommunity communityId call.userId with
    | .error _ => none
    | .ok _ => some (.delete communityId)
  | .addMember communityId body =>
    match db.community communityId,
      db.manager scan communityId call.userId "Not enough permissions to invite members",
      db.notMember scan communityId body.userId with
    | .ok read, .ok _, .ok _ => some (.addMember read body.userId body.role call.now)
    | _, _, _ => none
  | .createEvent communityId body =>
    match db.community communityId,
      db.manager scan communityId call.userId "Not enough permissions to create events" with
    | .ok _, .ok _ =>
      if body.storable then some (.event call.userId call.now communityId body) else none
    | _, _ => none
  | .rsvp communityId eventId body =>
    match db.community communityId, db.event communityId eventId,
      db.mayRSVP scan communityId eventId call.userId with
    | .ok _, .ok _, .ok _ =>
      if textTakes body.response then some (.rsvp call.userId call.now eventId body.response)
      else none
    | _, _, _ => none
  | .addResource communityId body =>
    match db.community communityId,
      db.manager scan communityId call.userId "Not enough permissions to add resources" with
    | .ok _, .ok _ =>
      if body.storable then some (.resource call.userId call.now communityId body) else none
    | _, _ => none
  | .list .. => none
  | .read .. => none
  | .members .. => none
  | .events .. => none
  | .resources .. => none

/-- The columns that `update_community` has changed, written to the row as it is now. -/
def Community.merge (read new : Community) (now : Time) (row : Community) : Community :=
  if new = read then row
  else
    { row with
      name := if new.name = read.name then row.name else new.name
      description :=
        if new.description = read.description then row.description else new.description
      category := if new.category = read.category then row.category else new.category
      isVerified := if new.isVerified = read.isVerified then row.isVerified else new.isVerified
      updatedAt := some now }

@[simp] theorem Community.merge_id (read new : Community) (now : Time) (row : Community) :
    (read.merge new now row).id = row.id := by
  unfold Community.merge
  split_ifs <;> rfl

@[simp] theorem Community.merge_ownerId (read new : Community) (now : Time) (row : Community) :
    (read.merge new now row).ownerId = row.ownerId := by
  unfold Community.merge
  split_ifs <;> rfl

/-- `community.member_count += 1` writes the number that was read, plus one. -/
def Community.recount (read : Community) (now : Time) (row : Community) : Community :=
  { row with memberCount := read.memberCount + 1, updatedAt := some now }

@[simp] theorem Community.recount_id (read : Community) (now : Time) (row : Community) :
    (read.recount now row).id = row.id := rfl

@[simp] theorem Community.recount_ownerId (read : Community) (now : Time) (row : Community) :
    (read.recount now row).ownerId = row.ownerId := rfl

/-- The tables after a commit, and what is left to commit. A row whose foreign key is gone is
    refused, and its key is lost. -/
def Write.apply (db : Db) : Write → Db × Option Write
  | .create userId now body =>
    ({ db with
        communities := db.communities.insert (newCommunity userId now body)
          (newCommunity_id userId now body) },
      some (.seed userId now db.communities.next))
  | .seed userId now communityId =>
    (if (db.communities.find communityId).isSome then
        { db with
          members := db.members.insert (newMember communityId userId .OWNER now)
            (newMember_id communityId userId .OWNER now)
          permissions := addPermissions communityId db.permissions CommunityRole.all }
      else { db with members := db.members.skip },
      none)
  | .update read new now =>
    ({ db with
        communities := db.communities.update read.id (read.merge new now)
          (read.merge_id new now) },
      none)
  | .delete communityId => ((db.deleteCommunity communityId).getD db, none)
  | .addMember read userId role now =>
    (if (db.communities.find read.id).isSome && userId ∈ db.users then
        { db with
          members := db.members.insert (newMember read.id userId role now)
            (newMember_id read.id userId role now)
          communities := db.communities.update read.id (read.recount now) (read.recount_id now) }
      else { db with members := db.members.skip },
      none)
  | .event userId now communityId body =>
    (if (db.communities.find communityId).isSome then
        { db with
          events := db.events.insert (newEvent userId now communityId body)
            (newEvent_id userId now communityId body) }
      else { db with events := db.events.skip },
      none)
  | .rsvp userId now eventId response =>
    (if (db.events.find eventId).isSome then
        { db with
          rsvps := db.rsvps.insert (newRSVP userId now eventId response)
            (newRSVP_id userId now eventId response) }
      else { db with rsvps := db.rsvps.skip },
      none)
  | .resource userId now communityId body =>
    (if (db.communities.find communityId).isSome then
        { db with
          resources := db.resources.insert (newResource userId now communityId body)
            (newResource_id userId now communityId body) }
      else { db with resources := db.resources.skip },
      none)

/-- The tables and the calls that have something to commit. -/
structure Overlap where
  db : Db
  inFlight : List Write

inductive Move
  | request (call : Call)
  /-- the next commit of the call `i`; `ok`: the connection holds -/
  | commit (i : ℕ) (ok : Bool)

/-- The call `i` commits. -/
def Overlap.commit (s : Overlap) (i : ℕ) (ok : Bool) (w : Write) : Overlap :=
  if ok then ⟨(w.apply s.db).1, s.inFlight.eraseIdx i ++ (w.apply s.db).2.toList⟩
  else { s with inFlight := s.inFlight.eraseIdx i }

def moveStep (scan : Scan) (s : Overlap) : Move → Option Overlap
  | .request call => some { s with inFlight := s.inFlight ++ (plan scan s.db call).toList }
  | .commit i ok => (s.inFlight[i]?).map (s.commit i ok)

def Overlap.start (users : List ℤ) : Overlap := ⟨.empty users, []⟩

/-! ## A call on its own -/

section Alone

variable {scan : Scan} {db : Db} {userId c : ℤ} {now : Time} {community read new : Community}

theorem ownCommunity_ok (h : db.ownCommunity c userId = .ok community) :
    db.communities.find c = some community ∧ community.id = c ∧ community.ownerId = userId := by
  unfold Db.ownCommunity at h
  cases hcommunity : db.community c with
  | error err =>
    rw [hcommunity] at h
    cases h
  | ok found =>
    rw [hcommunity] at h
    dsimp only at h
    split_ifs at h with howner
    obtain rfl := Except.ok.inj h
    obtain ⟨hfind, hid⟩ := community_ok hcommunity
    exact ⟨hfind, hid, howner⟩

/-- Two changes of the row that is found are the same update. -/
theorem update_congr {f g : Community → Community} (hf : ∀ row, (f row).id = row.id)
    (hg : ∀ row, (g row).id = row.id) (hfind : db.communities.find c = some community)
    (heq : f community = g community) :
    db.communities.update c f hf = db.communities.update c g hg := by
  have hrows : Table.modify Community.id db.communities.rows c f =
      Table.modify Community.id db.communities.rows c g := by
    refine List.map_congr_left fun row hrow => ?_
    by_cases hid : row.id = c
    · have hself := Serial.find_of_mem hrow
      rw [hid, hfind] at hself
      rw [← Option.some.inj hself, heq]
    · rw [if_neg hid, if_neg hid]
  unfold Serial.update
  congr 1

/-- What is merged into the row that was read is what `update_community` commits. -/
theorem merge_self {body : CommunityUpdate} (happly : body.apply read = some new) :
    read.merge new now read = read.commit new now := by
  obtain ⟨name, -, rfl⟩ := Option.map_eq_some_iff.mp happly
  unfold Community.merge Community.commit
  by_cases hsame : { read with
      name := name
      description := body.description.getD read.description
      category := body.category.getD read.category
      isVerified := body.isVerified.getD read.isVerified } = read
  · rw [if_pos hsame, if_pos hsame]
  · rw [if_neg hsame, if_neg hsame]
    dsimp only
    split_ifs <;> simp_all

/-- The request and its commits, with nothing in between, lead to the tables. -/
def Alone (scan : Scan) (db : Db) (call : Call) (db' : Db) : Prop :=
  ∃ n, run (moveStep scan) ⟨db, []⟩ (.request call :: List.replicate n (.commit 0 true)) =
    some ⟨db', []⟩

variable {call : Call} {db' : Db}

theorem alone_none (hplan : plan scan db call = none) : Alone scan db call db := by
  refine ⟨0, ?_⟩
  simp only [List.replicate_zero, run_cons, moveStep, hplan, Option.toList_none, List.append_nil,
    Option.bind_some, run_nil]

theorem alone_one {w : Write} (hplan : plan scan db call = some w)
    (happly : w.apply db = (db', none)) : Alone scan db call db' := by
  refine ⟨1, ?_⟩
  simp only [List.replicate_succ, List.replicate_zero, run_cons, moveStep, hplan,
    Option.toList_some, List.nil_append, Option.bind_some, List.getElem?_cons_zero,
    Option.map_some, Overlap.commit, if_true, happly, List.eraseIdx_cons_zero,
    Option.toList_none, List.append_nil, run_nil]

/-- The two commits of `create_community`. -/
theorem alone_create (body : CommunityCreate) :
    Alone scan db ⟨userId, now, .create body⟩ (createCommunity db userId now body).2 := by
  unfold createCommunity
  by_cases hstorable : body.storable = true
  · rw [if_pos hstorable]
    refine ⟨2, ?_⟩
    have hplan : plan scan db ⟨userId, now, .create body⟩ = some (.create userId now body) :=
      if_pos hstorable
    have hfind : ((db.communities.insert (newCommunity userId now body)
        (newCommunity_id userId now body)).find db.communities.next).isSome = true := by
      rw [Serial.find_insert, if_pos rfl]
      rfl
    simp only [List.replicate_succ, List.replicate_zero, run_cons, moveStep, hplan,
      Option.toList_some, List.nil_append, Option.bind_some, List.getElem?_cons_zero,
      Option.map_some, Overlap.commit, if_true, Write.apply, List.eraseIdx_cons_zero, hfind,
      Option.toList_none, List.append_nil, run_nil, Db.createCommunity]
  · rw [if_neg hstorable]
    exact alone_none (if_neg hstorable)

theorem alone_update (communityId : ℤ) (body : CommunityUpdate) :
    Alone scan db ⟨userId, now, .update communityId body⟩
      (updateCommunity db userId now communityId body).2 := by
  unfold updateCommunity
  cases hown : db.ownCommunity communityId userId with
  | error err => exact alone_none (by simp only [plan, hown])
  | ok read =>
    obtain ⟨hfind, hid, -⟩ := ownCommunity_ok hown
    dsimp only
    cases happly : body.apply read with
    | none => exact alone_none (by simp only [plan, hown, happly, Option.bind_none])
    | some new =>
      dsimp only
      split_ifs with hstorable
      · refine alone_one (w := .update read new now)
          (by simp only [plan, hown, happly, Option.bind_some, hstorable, if_true]) ?_
        subst hid
        unfold Write.apply
        dsimp only
        rw [update_congr (f := read.merge new now) (g := (·.commit new now))
          (read.merge_id new now) (fun row => row.commit_id new now) hfind (merge_self happly)]
      · exact alone_none (by simp only [plan, hown, happly, Option.bind_some, hstorable]; rfl)

theorem alone_delete (communityId : ℤ) :
    Alone scan db ⟨userId, now, .delete communityId⟩
      (deleteCommunity db userId communityId).2 := by
  unfold deleteCommunity
  cases hown : db.ownCommunity communityId userId with
  | error err => exact alone_none (by simp only [plan, hown])
  | ok read =>
    refine alone_one (w := .delete communityId) (by simp only [plan, hown]) ?_
    show ((db.deleteCommunity communityId).getD db, none) = _
    dsimp only
    cases db.deleteCommunity communityId with
    | none => rfl
    | some db' => rfl

theorem alone_addMember (communityId : ℤ) (body : CommunityMemberCreate) :
    Alone scan db ⟨userId, now, .addMember communityId body⟩
      (addCommunityMember scan db userId now communityId body).2 := by
  unfold addCommunityMember
  cases hcommunity : db.community communityId with
  | error err => exact alone_none (by simp only [plan, hcommunity])
  | ok read =>
    obtain ⟨hfind, hid⟩ := community_ok hcommunity
    dsimp only
    cases hmanager : db.manager scan communityId userId
        "Not enough permissions to invite members" with
    | error err => exact alone_none (by simp only [plan, hcommunity, hmanager])
    | ok member =>
      dsimp only
      cases hnone : db.notMember scan communityId body.userId with
      | error err => exact alone_none (by simp only [plan, hcommunity, hmanager, hnone])
      | ok u =>
        refine alone_one (w := .addMember read body.userId body.role now)
          (by simp only [plan, hcommunity, hmanager, hnone]) ?_
        subst hid
        unfold Write.apply
        dsimp only
        rw [hfind, Option.isSome_some, Bool.true_and]
        by_cases huser : body.userId ∈ db.users
        · rw [if_pos huser, if_pos (decide_eq_true huser)]
          unfold Db.addMember
          rw [update_congr (f := read.recount now) (g := Community.countMember now)
            (read.recount_id now) (Community.countMember_id now) hfind rfl]
        · rw [if_neg huser, if_neg (by simpa using huser)]

theorem alone_createEvent (communityId : ℤ) (body : CommunityEventCreate) :
    Alone scan db ⟨userId, now, .createEvent communityId body⟩
      (createCommunityEvent scan db userId now communityId body).2 := by
  unfold createCommunityEvent
  cases hcommunity : db.community communityId with
  | error err => exact alone_none (by simp only [plan, hcommunity])
  | ok read =>
    dsimp only
    cases hmanager : db.manager scan communityId userId
        "Not enough permissions to create events" with
    | error err => exact alone_none (by simp only [plan, hcommunity, hmanager])
    | ok member =>
      dsimp only
      split_ifs with hstorable
      · refine alone_one (w := .event userId now communityId body)
          (by simp only [plan, hcommunity, hmanager, hstorable, if_true]) ?_
        unfold Write.apply
        dsimp only
        rw [(community_ok hcommunity).1, Option.isSome_some, if_pos rfl]
      · exact alone_none (by simp only [plan, hcommunity, hmanager, hstorable]; rfl)

theorem event_ok {communityId eventId : ℤ} {event : CommunityEvent}
    (h : db.event communityId eventId = .ok event) :
    db.events.find eventId = some event ∧ event.communityId = communityId := by
  unfold Db.event at h
  cases hfind : db.events.find eventId with
  | none =>
    rw [hfind] at h
    cases h
  | some found =>
    rw [hfind] at h
    dsimp only at h
    split_ifs at h with hof
    obtain rfl := Except.ok.inj h
    exact ⟨rfl, hof⟩

theorem alone_rsvp (communityId eventId : ℤ) (body : CommunityEventRSVPCreate) :
    Alone scan db ⟨userId, now, .rsvp communityId eventId body⟩
      (rsvpToCommunityEvent scan db userId now communityId eventId body).2 := by
  unfold rsvpToCommunityEvent
  cases hcommunity : db.community communityId with
  | error err => exact alone_none (by simp only [plan, hcommunity])
  | ok read =>
    dsimp only
    cases hevent : db.event communityId eventId with
    | error err => exact alone_none (by simp only [plan, hcommunity, hevent])
    | ok event =>
      dsimp only
      cases hmay : db.mayRSVP scan communityId eventId userId with
      | error err => exact alone_none (by simp only [plan, hcommunity, hevent, hmay])
      | ok u =>
        dsimp only
        split_ifs with htakes
        · refine alone_one (w := .rsvp userId now eventId body.response)
            (by simp only [plan, hcommunity, hevent, hmay, htakes, if_true]) ?_
          unfold Write.apply
          dsimp only
          rw [(event_ok hevent).1, Option.isSome_some, if_pos rfl]
        · exact alone_none (by simp only [plan, hcommunity, hevent, hmay, htakes]; rfl)

theorem alone_addResource (communityId : ℤ) (body : CommunityResourceCreate) :
    Alone scan db ⟨userId, now, .addResource communityId body⟩
      (addCommunityResource scan db userId now communityId body).2 := by
  unfold addCommunityResource
  cases hcommunity : db.community communityId with
  | error err => exact alone_none (by simp only [plan, hcommunity])
  | ok read =>
    dsimp only
    cases hmanager : db.manager scan communityId userId
        "Not enough permissions to add resources" with
    | error err => exact alone_none (by simp only [plan, hcommunity, hmanager])
    | ok member =>
      dsimp only
      split_ifs with hstorable
      · refine alone_one (w := .resource userId now communityId body)
          (by simp only [plan, hcommunity, hmanager, hstorable, if_true]) ?_
        unfold Write.apply
        dsimp only
        rw [(community_ok hcommunity).1, Option.isSome_some, if_pos rfl]
      · exact alone_none (by simp only [plan, hcommunity, hmanager, hstorable]; rfl)

/-- A request whose commits are not disturbed does what `serve` does. -/
theorem serve_alone (scan : Scan) (db : Db) (call : Call) :
    Alone scan db call (serve scan db call).2 := by
  obtain ⟨userId, now, request⟩ := call
  cases request with
  | create body => exact alone_create body
  | list skip limit => exact alone_none rfl
  | read communityId => exact alone_none rfl
  | update communityId body => exact alone_update communityId body
  | delete communityId => exact alone_delete communityId
  | addMember communityId body => exact alone_addMember communityId body
  | members communityId skip limit => exact alone_none rfl
  | createEvent communityId body => exact alone_createEvent communityId body
  | events communityId skip limit => exact alone_none rfl
  | rsvp communityId eventId body => exact alone_rsvp communityId eventId body
  | addResource communityId body => exact alone_addResource communityId body
  | resources communityId skip limit => exact alone_none rfl

end Alone

end IronLink.Communities
