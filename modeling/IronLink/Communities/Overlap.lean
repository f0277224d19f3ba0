import IronLink.Communities.Commits
import IronLink.Lib.Calls

/-!
# Overlapping calls on communities

What holds however the calls of backend/app/api/routes/communities.py overlap.

Results:
* `communities_sound`: however calls overlap, each event and resource was added by an owner or
  admin of its community, each answer is a member's, and whoever is in a community is in one that
  has its owner and the permissions of every role.
* `communities_kept`: a community that has been set up is never deleted, and nothing in it is.
* `answers_once`: a user answers an event once, as long as no two of their answers to it overlap.
-/

namespace IronLink.Communities

open Lib Auth Orm

/-! ## Properties -/

/-- The user has a row in the community. -/
def MemberOf (db : Db) (c userId : ℤ) : Prop :=
  ∃ member ∈ db.members.rows, member.communityId = c ∧ member.userId = userId

/-- The user has a row of an owner or admin in the community. -/
def ManagerOf (db : Db) (c userId : ℤ) : Prop :=
  ∃ member ∈ db.members.rows, member.communityId = c ∧ member.userId = userId ∧
    member.role.manages = true

def Db.permissionsOf (db : Db) (c : ℤ) : List CommunityPermission :=
  db.permissions.rows.filter fun permission => permission.communityId = c

/-- The community is there with its owner, the row of the owner, and a row of permissions for each
    role. -/
structure SetUp (db : Db) (c ownerId : ℤ) : Prop where
  community : ∃ row ∈ db.communities.rows, row.id = c ∧ row.ownerId = ownerId
  owner : ∃ member ∈ db.members.rows, member.communityId = c ∧ member.userId = ownerId ∧
    member.role = .OWNER
  permissions : (db.permissionsOf c).map CommunityPermission.role = CommunityRole.all

/-- Who has added what. -/
structure Sound (db : Db) : Prop where
  members : ∀ member ∈ db.members.rows, ∃ ownerId, SetUp db member.communityId ownerId
  permissions : ∀ permission ∈ db.permissions.rows,
    permission = newPermission permission.communityId permission.role permission.id ∧
      ∃ ownerId, SetUp db permission.communityId ownerId
  events : ∀ event ∈ db.events.rows, ManagerOf db event.communityId event.createdBy
  resources : ∀ resource ∈ db.resources.rows,
    ManagerOf db resource.communityId resource.createdBy
  answers : ∀ rsvp ∈ db.rsvps.rows, ∃ event ∈ db.events.rows, event.id = rsvp.eventId ∧
    MemberOf db event.communityId rsvp.userId

/-- What has been set up stays, and so does what is in it. -/
structure Keeps (db db' : Db) : Prop where
  setUp : ∀ c ownerId, SetUp db c ownerId → SetUp db' c ownerId
  members : db.members.rows ⊆ db'.members.rows
  permissions : db.permissions.rows ⊆ db'.permissions.rows
  events : db.events.rows ⊆ db'.events.rows
  resources : db.resources.rows ⊆ db'.resources.rows
  rsvps : db.rsvps.rows ⊆ db'.rsvps.rows

theorem Keeps.refl (db : Db) : Keeps db db :=
  ⟨fun _ _ h => h, List.Subset.refl _, List.Subset.refl _, List.Subset.refl _, List.Subset.refl _,
    List.Subset.refl _⟩

theorem Keeps.trans {db₁ db₂ db₃ : Db} (h : Keeps db₁ db₂) (h' : Keeps db₂ db₃) :
    Keeps db₁ db₃ :=
  ⟨fun c ownerId hc => h'.setUp c ownerId (h.setUp c ownerId hc),
    List.Subset.trans h.members h'.members, List.Subset.trans h.permissions h'.permissions,
    List.Subset.trans h.events h'.events, List.Subset.trans h.resources h'.resources,
    List.Subset.trans h.rsvps h'.rsvps⟩

/-! ## The invariant -/

section Invariant

variable {db db' : Db} {c userId ownerId : ℤ} {w : Write} {s s' : Overlap}

theorem MemberOf.keeps (h : MemberOf db c userId) (hk : Keeps db db') : MemberOf db' c userId := by
  obtain ⟨member, hmember, hof⟩ := h
  exact ⟨member, hk.members hmember, hof⟩

theorem ManagerOf.keeps (h : ManagerOf db c userId) (hk : Keeps db db') :
    ManagerOf db' c userId := by
  obtain ⟨member, hmember, hof⟩ := h
  exact ⟨member, hk.members hmember, hof⟩

/-- A manager of a community is in one that has been set up. -/
theorem Sound.setUp_of_manager (h : Sound db) (hm : ManagerOf db c userId) :
    ∃ ownerId, SetUp db c ownerId := by
  obtain ⟨member, hmember, rfl, -⟩ := hm
  exact h.members member hmember

/-- The first commit of `create_community` is done, and the second one is not. -/
structure Unseeded (db : Db) (c ownerId : ℤ) : Prop where
  given : c < db.communities.next
  none : db.permissionsOf c = []
  owner : ∀ row ∈ db.communities.rows, row.id = c → row.ownerId = ownerId

/-- What a call has read still holds when it commits. -/
def Write.Backed (db : Db) : Write → Prop
  | .create .. => True
  | .seed userId _ c => Unseeded db c userId
  | .update .. => True
  | .delete _ => True
  | .addMember read .. => ∃ ownerId, SetUp db read.id ownerId
  | .event userId _ c _ => ManagerOf db c userId
  | .rsvp userId _ eventId _ =>
    ∃ event ∈ db.events.rows, event.id = eventId ∧ MemberOf db event.communityId userId
  | .resource userId _ c _ => ManagerOf db c userId

/-- The community that a call is going to set up. -/
def Write.seeds : Write → Option ℤ
  | .seed _ _ c => some c
  | _ => none

structure OverlapInv (s : Overlap) : Prop where
  sound : Sound s.db
  backed : ∀ w ∈ s.inFlight, w.Backed s.db
  /-- Each community is set up once. -/
  once : (s.inFlight.filterMap Write.seeds).Nodup

theorem sound_empty (users : List ℤ) : Sound (.empty users) where
  members := fun _ h => (by cases h)
  permissions := fun _ h => (by cases h)
  events := fun _ h => (by cases h)
  resources := fun _ h => (by cases h)
  answers := fun _ h => (by cases h)

theorem overlapInv_start (users : List ℤ) : OverlapInv (.start users) where
  sound := sound_empty users
  backed := fun _ h => (by cases h)
  once := List.nodup_nil

/-- A community without permissions has nothing else either. -/
theorem Sound.bare (h : Sound db) (hnone : db.permissionsOf c = []) :
    (∀ member ∈ db.members.rows, member.communityId ≠ c) ∧
      (∀ event ∈ db.events.rows, event.communityId ≠ c) ∧
      ∀ resource ∈ db.resources.rows, resource.communityId ≠ c := by
  have hnot : ∀ ownerId, ¬ SetUp db c ownerId := by
    intro ownerId hsetUp
    have := hsetUp.permissions
    rw [hnone] at this
    cases this
  refine ⟨?_, ?_, ?_⟩
  · rintro member hmember rfl
    obtain ⟨ownerId, hsetUp⟩ := h.members member hmember
    exact hnot ownerId hsetUp
  · rintro event hevent rfl
    obtain ⟨ownerId, hsetUp⟩ := h.setUp_of_manager (h.events event hevent)
    exact hnot ownerId hsetUp
  · rintro resource hresource rfl
    obtain ⟨ownerId, hsetUp⟩ := h.setUp_of_manager (h.resources resource hresource)
    exact hnot ownerId hsetUp

/-! ## What a commit leaves alone -/

/-- A community that is set up stays so while its row keeps its owner, no member is lost, and its
    permissions are the same. -/
theorem SetUp.congr (h : SetUp db c ownerId)
    (hrow : ∀ row ∈ db.communities.rows, row.id = c →
      ∃ row' ∈ db'.communities.rows, row'.id = row.id ∧ row'.ownerId = row.ownerId)
    (hmembers : db.members.rows ⊆ db'.members.rows)
    (hpermissions : (db'.permissionsOf c).map CommunityPermission.role =
      (db.permissionsOf c).map CommunityPermission.role) : SetUp db' c ownerId := by
  obtain ⟨row, hmem, hid, howner⟩ := h.community
  obtain ⟨row', hmem', hid', howner'⟩ := hrow row hmem hid
  refine ⟨⟨row', hmem', hid'.trans hid, howner'.trans howner⟩, ?_, ?_⟩
  · obtain ⟨member, hmember, hof⟩ := h.owner
    exact ⟨member, hmembers hmember, hof⟩
  · rw [hpermissions]
    exact h.permissions

/-- A commit that removes nothing and leaves permissions alone. -/
theorem keeps_of_subset
    (hrow : ∀ row ∈ db.communities.rows,
      ∃ row' ∈ db'.communities.rows, row'.id = row.id ∧ row'.ownerId = row.ownerId)
    (hmembers : db.members.rows ⊆ db'.members.rows)
    (hpermissions : db'.permissions.rows = db.permissions.rows)
    (hevents : db.events.rows ⊆ db'.events.rows)
    (hresources : db.resources.rows ⊆ db'.resources.rows)
    (hrsvps : db.rsvps.rows ⊆ db'.rsvps.rows) : Keeps db db' where
  setUp := fun c ownerId h => by
    refine h.congr (fun row hmem _ => hrow row hmem) hmembers ?_
    unfold Db.permissionsOf
    rw [hpermissions]
  members := hmembers
  permissions := by rw [hpermissions]; exact List.Subset.refl _
  events := hevents
  resources := hresources
  rsvps := hrsvps

/-- Soundness of what was there, and of what is new. -/
theorem Sound.keeps (h : Sound db) (hk : Keeps db db')
    (hmembers : ∀ member ∈ db'.members.rows, member ∈ db.members.rows ∨
      ∃ ownerId, SetUp db' member.communityId ownerId)
    (hpermissions : ∀ permission ∈ db'.permissions.rows, permission ∈ db.permissions.rows ∨
      permission = newPermission permission.communityId permission.role permission.id ∧
        ∃ ownerId, SetUp db' permission.communityId ownerId)
    (hevents : ∀ event ∈ db'.events.rows, event ∈ db.events.rows ∨
      ManagerOf db' event.communityId event.createdBy)
    (hresources : ∀ resource ∈ db'.resources.rows, resource ∈ db.resources.rows ∨
      ManagerOf db' resource.communityId resource.createdBy)
    (hrsvps : ∀ rsvp ∈ db'.rsvps.rows, rsvp ∈ db.rsvps.rows ∨
      ∃ event ∈ db'.events.rows, event.id = rsvp.eventId ∧
        MemberOf db' event.communityId rsvp.userId) : Sound db' := by
  refine ⟨?_, ?_, ?_, ?_, ?_⟩
  · intro member hmember
    obtain hold | hnew := hmembers member hmember
    · obtain ⟨ownerId, hsetUp⟩ := h.members member hold
      exact ⟨ownerId, hk.setUp _ _ hsetUp⟩
    · exact hnew
  · intro permission hpermission
    obtain hold | hnew := hpermissions permission hpermission
    · obtain ⟨hdefault, ownerId, hsetUp⟩ := h.permissions permission hold
      exact ⟨hdefault, ownerId, hk.setUp _ _ hsetUp⟩
    · exact hnew
  · intro event hevent
    obtain hold | hnew := hevents event hevent
    · exact (h.events event hold).keeps hk
    · exact hnew
  · intro resource hresource
    obtain hold | hnew := hresources resource hresource
    · exact (h.resources resource hold).keeps hk
    · exact hnew
  · intro rsvp hrsvp
    obtain hold | hnew := hrsvps rsvp hrsvp
    · obtain ⟨event, hevent, hid, hmember⟩ := h.answers rsvp hold
      exact ⟨event, hk.events hevent, hid, hmember.keeps hk⟩
    · exact hnew

/-- No row is lost, and every new row satisfies `P`. -/
structure Extends {R : Type} {key : R → ℤ} (t t' : Serial key) (P : R → Prop) : Prop where
  kept : t.rows ⊆ t'.rows
  new : ∀ row ∈ t'.rows, row ∈ t.rows ∨ P row

section Extends

variable {R : Type} {key : R → ℤ} {t : Serial key} {P : R → Prop}

theorem Extends.refl : Extends t t P := ⟨List.Subset.refl _, fun _ h => .inl h⟩

theorem Extends.skip : Extends t t.skip P := ⟨List.Subset.refl _, fun _ h => .inl h⟩

theorem Extends.insert {make : ℤ → R} {hmake : ∀ k, key (make k) = k} (h : P (make t.next)) :
    Extends t (t.insert make hmake) P where
  kept := List.subset_append_left _ _
  new := fun row hrow => by
    obtain hold | hnew := List.mem_append.mp hrow
    · exact .inl hold
    · rw [List.mem_singleton.mp hnew]
      exact .inr h

end Extends

/-- An update that keeps owners. -/
theorem update_keeps_owner {communities : Serial Community.id} {k : ℤ}
    {f : Community → Community} (hf : ∀ row, (f row).id = row.id)
    (howner : ∀ row, (f row).ownerId = row.ownerId) {row : Community}
    (hrow : row ∈ communities.rows) :
    ∃ row' ∈ (communities.update k f hf).rows, row'.id = row.id ∧ row'.ownerId = row.ownerId := by
  refine ⟨_, List.mem_map_of_mem hrow, ?_⟩
  split_ifs
  · exact ⟨hf row, howner row⟩
  · exact ⟨rfl, rfl⟩

/-- The permissions that the loop of `create_community` adds, by community. -/
theorem addPermissions_rows (c : ℤ) (roles : List CommunityRole)
    (permissions : Serial CommunityPermission.id) :
    permissions.rows ⊆ (addPermissions c permissions roles).rows ∧
      (∀ row ∈ (addPermissions c permissions roles).rows, row ∈ permissions.rows ∨
        row.communityId = c ∧ row = newPermission row.communityId row.role row.id) ∧
      ∀ d, ((addPermissions c permissions roles).rows.filter fun row => row.communityId = d).map
          CommunityPermission.role =
        (permissions.rows.filter fun row => row.communityId = d).map CommunityPermission.role ++
          if c = d then roles else [] := by
  unfold addPermissions
  induction roles generalizing permissions with
  | nil =>
    refine ⟨List.Subset.refl _, fun row hrow => .inl hrow, fun d => ?_⟩
    split_ifs <;> exact (List.append_nil _).symm
  | cons role roles ih =>
    obtain ⟨hsub, hrows, hroles⟩ := ih
      (permissions.insert (newPermission c role) (newPermission_id c role))
    rw [List.foldl_cons]
    refine ⟨List.Subset.trans (List.subset_append_left _ _) hsub, fun row hrow => ?_, fun d => ?_⟩
    · obtain hold | hnew := hrows row hrow
      · have hinsert : Extends permissions
            (permissions.insert (newPermission c role) (newPermission_id c role)) fun row =>
            row.communityId = c ∧ row = newPermission row.communityId row.role row.id :=
          .insert ⟨rfl, rfl⟩
        exact hinsert.new row hold
      · exact .inr hnew
    · rw [hroles d, Serial.filter_insert, List.map_append, List.append_assoc]
      show _ ++ ((if decide (c = d) = true then [newPermission c role permissions.next]
        else []).map CommunityPermission.role ++ _) = _
      by_cases hd : c = d
      · rw [if_pos (decide_eq_true hd), if_pos hd, if_pos hd]
        rfl
      · rw [if_neg (by simpa using hd), if_neg hd, if_neg hd]
        rfl

/-! ## Each commit keeps the invariant -/

/-- What a commit of `w` leads to. -/
structure Committed (db : Db) (w : Write) (db' : Db) : Prop where
  keeps : Keeps db db'
  sound : Sound db'
  unseeded : ∀ d userId, w.seeds ≠ some d → Unseeded db d userId → Unseeded db' d userId

theorem Unseeded.congr (h : Unseeded db c userId)
    (hnext : db.communities.next ≤ db'.communities.next)
    (hpermissions : (db'.permissionsOf c).map CommunityPermission.role =
      (db.permissionsOf c).map CommunityPermission.role)
    (hrow : ∀ row' ∈ db'.communities.rows, row'.id = c →
      ∃ row ∈ db.communities.rows, row.id = c ∧ row'.ownerId = row.ownerId) :
    Unseeded db' c userId where
  given := lt_of_lt_of_le h.given hnext
  none := by
    rw [h.none] at hpermissions
    exact List.map_eq_nil_iff.mp hpermissions
  owner := fun row' hmem' hid' => by
    obtain ⟨row, hmem, hid, howner⟩ := hrow row' hmem' hid'
    exact howner.trans (h.owner row hmem hid)

/-- The rows that an update leaves, with the owners they had. -/
theorem mem_update_owner {communities : Serial Community.id} {k : ℤ}
    {f : Community → Community} (hf : ∀ row, (f row).id = row.id)
    (howner : ∀ row, (f row).ownerId = row.ownerId) {row' : Community}
    (hrow' : row' ∈ (communities.update k f hf).rows) (hid : row'.id = c) :
    ∃ row ∈ communities.rows, row.id = c ∧ row'.ownerId = row.ownerId := by
  obtain ⟨row, hrow, rfl⟩ := List.mem_map.mp hrow'
  refine ⟨row, hrow, ?_, ?_⟩
  · split_ifs at hid
    · exact (hf row).symm.trans hid
    · exact hid
  · split_ifs
    · exact howner row
    · rfl

/-- A commit that inserts into the tables other than those of communities and permissions. -/
theorem committed_of_insert (h : Sound db) {members : Serial CommunityMember.id}
    {events : Serial CommunityEvent.id} {resources : Serial CommunityResource.id}
    {rsvps : Serial CommunityEventRSVP.id}
    (hmembers : Extends db.members members fun member =>
      ∃ ownerId, SetUp db member.communityId ownerId)
    (hevents : Extends db.events events fun event =>
      ManagerOf db event.communityId event.createdBy)
    (hresources : Extends db.resources resources fun resource =>
      ManagerOf db resource.communityId resource.createdBy)
    (hrsvps : Extends db.rsvps rsvps fun rsvp => ∃ event ∈ db.events.rows,
      event.id = rsvp.eventId ∧ MemberOf db event.communityId rsvp.userId) (w : Write) :
    Committed db w { db with
      members := members, events := events, resources := resources, rsvps := rsvps } := by
  have hk : Keeps db { db with
      members := members, events := events, resources := resources, rsvps := rsvps } :=
    keeps_of_subset (fun row hrow => ⟨row, hrow, rfl, rfl⟩) hmembers.kept rfl hevents.kept
      hresources.kept hrsvps.kept
  refine ⟨hk, ?_, fun d userId _ hu => hu.congr le_rfl rfl fun row hrow hid =>
    ⟨row, hrow, hid, rfl⟩⟩
  refine h.keeps hk ?_ (fun _ hp => .inl hp) ?_ ?_ ?_
  · exact fun member hmem => (hmembers.new member hmem).imp_right
      fun ⟨ownerId, hsetUp⟩ => ⟨ownerId, hk.setUp _ _ hsetUp⟩
  · exact fun event hmem => (hevents.new event hmem).imp_right fun hm => hm.keeps hk
  · exact fun resource hmem => (hresources.new resource hmem).imp_right fun hm => hm.keeps hk
  · exact fun rsvp hmem => (hrsvps.new rsvp hmem).imp_right
      fun ⟨event, hevent, hid, hm⟩ => ⟨event, hk.events hevent, hid, hm.keeps hk⟩

/-- A change of one row of `communities` that keeps its owner, and new members. -/
theorem committed_of_update (h : Sound db) {k : ℤ} {f : Community → Community}
    {hf : ∀ row, (f row).id = row.id} {members : Serial CommunityMember.id}
    (howner : ∀ row, (f row).ownerId = row.ownerId)
    (hmembers : Extends db.members members fun member =>
      ∃ ownerId, SetUp db member.communityId ownerId) (w : Write) :
    Committed db w { db with
      communities := db.communities.update k f hf, members := members } := by
  have hk : Keeps db { db with
      communities := db.communities.update k f hf, members := members } :=
    keeps_of_subset (fun row hrow => update_keeps_owner hf howner hrow) hmembers.kept rfl
      (List.Subset.refl _) (List.Subset.refl _) (List.Subset.refl _)
  refine ⟨hk, ?_, fun d userId _ hu => hu.congr le_rfl rfl fun row hrow hid =>
    mem_update_owner hf howner hrow hid⟩
  exact h.keeps hk
    (fun member hmem => (hmembers.new member hmem).imp_right
      fun ⟨ownerId, hsetUp⟩ => ⟨ownerId, hk.setUp _ _ hsetUp⟩)
    (fun _ hp => .inl hp) (fun _ he => .inl he) (fun _ hr => .inl hr) (fun _ hr => .inl hr)

/-- The first commit of `create_community`. -/
theorem committed_create (h : Sound db) (userId : ℤ) (now : Time) (body : CommunityCreate) :
    Committed db (.create userId now body) ((Write.create userId now body).apply db).1 ∧
      Unseeded ((Write.create userId now body).apply db).1 db.communities.next userId := by
  have hnone : db.permissionsOf db.communities.next = [] := by
    refine List.filter_eq_nil_iff.mpr fun permission hmem hof => ?_
    obtain ⟨-, ownerId, hsetUp⟩ := h.permissions permission hmem
    obtain ⟨row, hrow, hid, -⟩ := hsetUp.community
    exact Serial.next_ne hrow ((of_decide_eq_true hof).symm.trans hid.symm)
  have hinsert : Extends db.communities (db.communities.insert (newCommunity userId now body)
      (newCommunity_id userId now body)) fun row =>
      row.id = db.communities.next ∧ row.ownerId = userId := .insert ⟨rfl, rfl⟩
  have hk : Keeps db ((Write.create userId now body).apply db).1 := keeps_of_subset
    (fun row hrow => ⟨row, hinsert.kept hrow, rfl, rfl⟩) (List.Subset.refl _) rfl
    (List.Subset.refl _) (List.Subset.refl _) (List.Subset.refl _)
  refine ⟨⟨hk, ?_, fun d ownerId _ hu => ?_⟩, Int.lt_succ _, hnone, fun row hrow hid => ?_⟩
  · exact h.keeps hk (fun _ hm => .inl hm) (fun _ hp => .inl hp) (fun _ he => .inl he)
      (fun _ hr => .inl hr) (fun _ hr => .inl hr)
  · refine hu.congr (Int.le_of_lt (Int.lt_succ _)) rfl fun row hrow hid => ?_
    obtain hold | ⟨hnext, -⟩ := hinsert.new row hrow
    · exact ⟨row, hold, hid, rfl⟩
    · exact absurd (hnext.symm.trans hid) (Int.ne_of_gt hu.given)
  · obtain hold | ⟨-, howner⟩ := hinsert.new row hrow
    · exact absurd hid.symm (Serial.next_ne hold)
    · exact howner

/-- The second one. -/
theorem committed_seed (h : Sound db) (hseed : Unseeded db c userId) (now : Time) :
    Committed db (.seed userId now c) ((Write.seed userId now c).apply db).1 := by
  unfold Write.apply
  dsimp only
  split_ifs with hsome
  · obtain ⟨hsub, hrows, hroles⟩ := addPermissions_rows c CommunityRole.all db.permissions
    have hother : ∀ d, c ≠ d →
        ((addPermissions c db.permissions CommunityRole.all).rows.filter fun row =>
          row.communityId = d).map CommunityPermission.role =
        (db.permissionsOf d).map CommunityPermission.role := by
      intro d hne
      have := hroles d
      rwa [if_neg hne, List.append_nil] at this
    have hk : Keeps db { db with
        members := db.members.insert (newMember c userId .OWNER now)
          (newMember_id c userId .OWNER now)
        permissions := addPermissions c db.permissions CommunityRole.all } := by
      refine ⟨fun d ownerId hd => ?_, List.subset_append_left _ _, hsub, List.Subset.refl _,
        List.Subset.refl _, List.Subset.refl _⟩
      refine hd.congr (fun row hrow _ => ⟨row, hrow, rfl, rfl⟩) (List.subset_append_left _ _)
        (hother d ?_)
      rintro rfl
      have := hd.permissions
      rw [hseed.none] at this
      cases this
    have hnew : SetUp { db with
        members := db.members.insert (newMember c userId .OWNER now)
          (newMember_id c userId .OWNER now)
        permissions := addPermissions c db.permissions CommunityRole.all } c userId := by
      obtain ⟨row, hfind⟩ := Option.isSome_iff_exists.mp hsome
      refine ⟨⟨row, Serial.find_mem hfind, Serial.find_key hfind,
        hseed.owner row (Serial.find_mem hfind) (Serial.find_key hfind)⟩,
        ⟨_, List.mem_append_right _ (List.mem_singleton.mpr rfl), rfl, rfl, rfl⟩, ?_⟩
      have hnone : db.permissions.rows.filter (fun row => row.communityId = c) = [] := hseed.none
      have := hroles c
      rw [if_pos rfl, hnone] at this
      exact this
    refine ⟨hk, ?_, fun d ownerId hd hu => ?_⟩
    · refine h.keeps hk (fun member hmem => ?_) (fun permission hmem => ?_)
        (fun _ he => .inl he) (fun _ hr => .inl hr) (fun _ hr => .inl hr)
      · obtain hold | hlast := List.mem_append.mp hmem
        · exact .inl hold
        · rw [List.mem_singleton.mp hlast]
          exact .inr ⟨userId, hnew⟩
      · obtain hold | ⟨hof, hdefault⟩ := hrows permission hmem
        · exact .inl hold
        · exact .inr ⟨hdefault, userId, hof ▸ hnew⟩
    · exact hu.congr le_rfl (hother d fun heq => hd (congrArg some heq))
        fun row hrow hid => ⟨row, hrow, hid, rfl⟩
  · exact committed_of_insert h .skip .refl .refl .refl _

/-- A community that can be deleted has nothing in it. -/
theorem committed_delete (h : Sound db) (c : ℤ) :
    Committed db (.delete c) ((Write.delete c).apply db).1 := by
  show Committed db (.delete c) ((db.deleteCommunity c).getD db)
  cases hdelete : db.deleteCommunity c with
  | none => exact committed_of_insert h .refl .refl .refl .refl _
  | some db' =>
    obtain ⟨hpermissions, rfl⟩ := deleteCommunity_eq_some.mp hdelete
    have hnone : db.permissionsOf c = [] := List.filter_eq_nil_iff.mpr fun permission hmem hof =>
      hpermissions permission hmem (of_decide_eq_true hof)
    obtain ⟨hmembers, hevents, hresources⟩ := h.bare hnone
    -- so the deletions that cascade delete nothing
    have hkept : ∀ {R : Type} {rows : List R} {p : R → Bool}, (∀ row ∈ rows, p row = false) →
        rows ⊆ rows.filter fun row => !p row := by
      intro R rows p hp row hrow
      refine List.mem_filter.mpr ⟨hrow, ?_⟩
      rw [hp row hrow]
      rfl
    have hmem : ∀ {R : Type} {rows : List R} {p : R → Bool} {row : R},
        row ∈ rows.filter (fun row => !p row) → row ∈ rows := fun hrow =>
      (List.mem_filter.mp hrow).1
    have hk : Keeps db { db with
        communities := db.communities.delete fun community => community.id = c
        members := db.members.delete fun member => member.communityId = c
        events := db.events.delete fun event => event.communityId = c
        rsvps := db.rsvps.delete fun rsvp =>
          db.events.rows.any fun event => event.communityId = c && event.id = rsvp.eventId
        resources := db.resources.delete fun resource => resource.communityId = c } := by
      have hkeptMembers := hkept fun member hmem => decide_eq_false (hmembers member hmem)
      refine ⟨fun d ownerId hd => ?_, hkeptMembers, List.Subset.refl _,
        hkept fun event hmem => decide_eq_false (hevents event hmem),
        hkept fun resource hmem => decide_eq_false (hresources resource hmem), hkept ?_⟩
      · refine hd.congr (fun row hrow hid => ⟨row, List.mem_filter.mpr ⟨hrow, ?_⟩, rfl, rfl⟩)
          hkeptMembers rfl
        have hne : row.id ≠ c := by
          rintro rfl
          have := hd.permissions
          rw [← hid, hnone] at this
          cases this
        simpa using hne
      · intro rsvp _
        refine List.any_eq_false.mpr fun event hevent hboth => ?_
        exact hevents event hevent (of_decide_eq_true (Bool.and_eq_true_iff.mp hboth).1)
    refine ⟨hk, ?_, fun d ownerId _ hu => ?_⟩
    · exact h.keeps hk (fun _ hm => .inl (hmem hm)) (fun _ hp => .inl hp)
        (fun _ he => .inl (hmem he)) (fun _ hr => .inl (hmem hr)) (fun _ hr => .inl (hmem hr))
    · exact hu.congr le_rfl rfl fun row hrow hid => ⟨row, hmem hrow, hid, rfl⟩

/-- **A commit.** What a call has read when it commits still holds, so the commit removes nothing
    of what has been set up and adds only what its caller may add. -/
theorem committed_apply (h : Sound db) (hb : w.Backed db) : Committed db w (w.apply db).1 := by
  cases w with
  | create userId now body => exact (committed_create h userId now body).1
  | seed userId now c => exact committed_seed h hb now
  | update read new now => exact committed_of_update h (read.merge_ownerId new now) .refl _
  | delete c => exact committed_delete h c
  | addMember read userId role now =>
    unfold Write.apply
    dsimp only
    split_ifs
    · refine committed_of_update h (read.recount_ownerId now) ?_ _
      exact .insert hb
    · exact committed_of_insert h .skip .refl .refl .refl _
  | event userId now c body =>
    unfold Write.apply
    dsimp only
    split_ifs
    · refine committed_of_insert h .refl ?_ .refl .refl _
      exact .insert hb
    · exact committed_of_insert h .refl .skip .refl .refl _
  | rsvp userId now eventId response =>
    unfold Write.apply
    dsimp only
    split_ifs
    · refine committed_of_insert h .refl .refl .refl ?_ _
      exact .insert hb
    · exact committed_of_insert h .refl .refl .refl .skip _
  | resource userId now c body =>
    unfold Write.apply
    dsimp only
    split_ifs
    · refine committed_of_insert h .refl .refl ?_ .refl _
      exact .insert hb
    · exact committed_of_insert h .refl .refl .skip .refl _

/-- What a call has read outlives a commit of another one. -/
theorem Write.Backed.committed {w' : Write} (hb : w.Backed db) (hc : Committed db w' db')
    (hseeds : ∀ c, w.seeds = some c → w'.seeds ≠ some c) : w.Backed db' := by
  cases w with
  | create userId now body => trivial
  | seed userId now c => exact hc.unseeded c userId (hseeds c rfl) hb
  | update read new now => trivial
  | delete c => trivial
  | addMember read userId role now =>
    obtain ⟨ownerId, hsetUp⟩ := hb
    exact ⟨ownerId, hc.keeps.setUp _ _ hsetUp⟩
  | event userId now c body => exact hb.keeps hc.keeps
  | rsvp userId now eventId response =>
    obtain ⟨event, hevent, hid, hmember⟩ := hb
    exact ⟨event, hc.keeps.events hevent, hid, hmember.keeps hc.keeps⟩
  | resource userId now c body => exact hb.keeps hc.keeps

/-- Whoever gets past the check of the role is a manager. -/
theorem managerOf_ok {scan : Scan} {detail : String} {member : CommunityMember}
    (h : db.manager scan c userId detail = .ok member) : ManagerOf db c userId := by
  obtain ⟨hmember, hmanages⟩ := manager_ok h
  obtain ⟨hmem, hof⟩ := Scan.first_some hmember
  unfold CommunityMember.of at hof
  simp only [Bool.and_eq_true, decide_eq_true_eq] at hof
  exact ⟨member, hmem, hof.1, hof.2, hmanages⟩

theorem mayRSVP_ok {scan : Scan} {eventId : ℤ} {u : Unit}
    (h : db.mayRSVP scan c eventId userId = .ok u) : MemberOf db c userId ∧
      ∀ rsvp ∈ db.rsvps.rows, ¬ (rsvp.eventId = eventId ∧ rsvp.userId = userId) := by
  unfold Db.mayRSVP at h
  split_ifs at h with hnone hanswered
  have hsome : (db.membership scan c userId).isSome = true := by
    rw [Option.isSome_iff_ne_none]
    simpa using hnone
  obtain ⟨member, hmember⟩ := Option.isSome_iff_exists.mp hsome
  obtain ⟨hmem, hof⟩ := Scan.first_some hmember
  unfold CommunityMember.of at hof
  simp only [Bool.and_eq_true, decide_eq_true_eq] at hof
  refine ⟨⟨member, hmem, hof⟩, fun rsvp hrsvp hsame => ?_⟩
  have := Scan.first_eq_none.mp (Option.not_isSome_iff_eq_none.mp hanswered) rsvp hrsvp
  rw [decide_eq_true hsame.1, decide_eq_true hsame.2] at this
  cases this

/-- What a request plans holds when it is planned, and it does not begin with a second commit. -/
theorem backed_plan (h : Sound db) {scan : Scan} {call : Call}
    (hplan : plan scan db call = some w) :
    w.Backed db ∧ w.seeds = none := by
  obtain ⟨userId, now, request⟩ := call
  unfold plan at hplan
  cases request with
  | create body =>
    dsimp only at hplan
    split_ifs at hplan
    obtain rfl := Option.some.inj hplan
    exact ⟨trivial, rfl⟩
  | update communityId body =>
    dsimp only at hplan
    split at hplan
    · cases hplan
    · obtain ⟨new, -, hnew⟩ := Option.bind_eq_some_iff.mp hplan
      split_ifs at hnew
      obtain rfl := Option.some.inj hnew
      exact ⟨trivial, rfl⟩
  | delete communityId =>
    dsimp only at hplan
    split at hplan
    · cases hplan
    · obtain rfl := Option.some.inj hplan
      exact ⟨trivial, rfl⟩
  | addMember communityId body =>
    dsimp only at hplan
    split at hplan
    next read member u hcommunity hmanager hnone =>
      obtain rfl := Option.some.inj hplan
      refine ⟨?_, rfl⟩
      obtain ⟨-, rfl⟩ := community_ok hcommunity
      exact h.setUp_of_manager (managerOf_ok hmanager)
    · cases hplan
  | createEvent communityId body =>
    dsimp only at hplan
    split at hplan
    next read member hcommunity hmanager =>
      split_ifs at hplan
      obtain rfl := Option.some.inj hplan
      exact ⟨managerOf_ok hmanager, rfl⟩
    · cases hplan
  | rsvp communityId eventId body =>
    dsimp only at hplan
    split at hplan
    next read event u hcommunity hevent hmay =>
      split_ifs at hplan
      obtain rfl := Option.some.inj hplan
      obtain ⟨hfind, hof⟩ := event_ok hevent
      exact ⟨⟨event, Serial.find_mem hfind, Serial.find_key hfind, hof ▸ (mayRSVP_ok hmay).1⟩, rfl⟩
    · cases hplan
  | addResource communityId body =>
    dsimp only at hplan
    split at hplan
    next read member hcommunity hmanager =>
      split_ifs at hplan
      obtain rfl := Option.some.inj hplan
      exact ⟨managerOf_ok hmanager, rfl⟩
    · cases hplan
  | list skip limit => cases hplan
  | read communityId => cases hplan
  | members communityId skip limit => cases hplan
  | events communityId skip limit => cases hplan
  | resources communityId skip limit => cases hplan

/-- Only `create_community` has a second commit. -/
theorem apply_snd (db : Db) :
    (w.apply db).2 = none ∨ ∃ userId now body, w = .create userId now body := by
  cases w with
  | create userId now body => exact .inr ⟨userId, now, body, rfl⟩
  | seed userId now c => exact .inl rfl
  | update read new now => exact .inl rfl
  | delete c => exact .inl rfl
  | addMember read userId role now => exact .inl rfl
  | event userId now c body => exact .inl rfl
  | rsvp userId now eventId response => exact .inl rfl
  | resource userId now c body => exact .inl rfl

theorem overlapInv_commit (h : OverlapInv s) {i : ℕ} (hw : s.inFlight[i]? = some w) (ok : Bool) :
    OverlapInv (s.commit i ok w) ∧ Keeps s.db (s.commit i ok w).db := by
  have hmem : w ∈ s.inFlight := List.mem_of_getElem? hw
  have hsub : (s.inFlight.eraseIdx i).Sublist s.inFlight := List.eraseIdx_sublist ..
  have hrest : ((s.inFlight.eraseIdx i).filterMap Write.seeds).Nodup :=
    h.once.sublist (hsub.filterMap _)
  unfold Overlap.commit
  split_ifs
  · have hc := committed_apply h.sound (h.backed w hmem)
    -- no other call is about to set up the same community
    have hother : ∀ x ∈ s.inFlight.eraseIdx i, x.Backed (w.apply s.db).1 := by
      intro x hx
      refine (h.backed x (hsub.subset hx)).committed hc fun c hxc hwc => ?_
      have hnodup := (filterMap_eraseIdx_perm Write.seeds hw).nodup_iff.mpr h.once
      rw [hwc] at hnodup
      exact (List.nodup_cons.mp hnodup).1 (List.mem_filterMap.mpr ⟨x, hx, hxc⟩)
    obtain hnone | ⟨userId, now, body, rfl⟩ := apply_snd (w := w) s.db
    · rw [hnone, Option.toList_none, List.append_nil]
      exact ⟨⟨hc.sound, hother, hrest⟩, hc.keeps⟩
    · obtain ⟨-, hunseeded⟩ := committed_create h.sound userId now body
      refine ⟨⟨hc.sound, fun x hx => ?_, ?_⟩, hc.keeps⟩
      · obtain hold | hnew := List.mem_append.mp hx
        · exact hother x hold
        · obtain rfl := List.mem_singleton.mp hnew
          exact hunseeded
      · show ((s.inFlight.eraseIdx i ++ [Write.seed userId now s.db.communities.next]).filterMap
          Write.seeds).Nodup
        rw [List.filterMap_append]
        refine List.nodup_append.mpr ⟨hrest, List.nodup_singleton _, fun c hold d hnew hcd => ?_⟩
        obtain rfl := List.mem_singleton.mp hnew
        obtain ⟨x, hx, hxc⟩ := List.mem_filterMap.mp hold
        have hbacked := h.backed x (hsub.subset hx)
        cases x with
        | seed owner later c' =>
          obtain rfl := Option.some.inj hxc
          exact absurd hcd (Int.ne_of_lt hbacked.given)
        | create userId now body => cases hxc
        | update read new now => cases hxc
        | delete c' => cases hxc
        | addMember read userId role now => cases hxc
        | event userId now c' body => cases hxc
        | rsvp userId now eventId response => cases hxc
        | resource userId now c' body => cases hxc
  · exact ⟨⟨h.sound, fun x hx => h.backed x (hsub.subset hx), hrest⟩, .refl _⟩

theorem overlapInv_step (scan : Scan) (s : Overlap) (a : Move) (s' : Overlap) (h : OverlapInv s)
    (hs : moveStep scan s a = some s') : OverlapInv s' ∧ Keeps s.db s'.db := by
  cases a with
  | request call =>
    obtain rfl := Option.some.inj hs
    refine ⟨?_, .refl _⟩
    cases hplan : plan scan s.db call with
    | none =>
      simp only [Option.toList_none, List.append_nil]
      exact h
    | some w =>
      obtain ⟨hbacked, hseeds⟩ := backed_plan h.sound hplan
      refine ⟨h.sound, fun x hx => ?_, ?_⟩
      · obtain hold | hnew := List.mem_append.mp hx
        · exact h.backed x hold
        · obtain rfl := List.mem_singleton.mp hnew
          exact hbacked
      · show ((s.inFlight ++ [w]).filterMap Write.seeds).Nodup
        rw [List.filterMap_append, List.filterMap_cons_none hseeds, List.filterMap_nil,
          List.append_nil]
        exact h.once
  | commit i ok =>
    obtain ⟨w, hw, rfl⟩ := Option.map_eq_some_iff.mp hs
    exact overlapInv_commit h hw ok

/-! ### Permissions and communities -/

/-- A commit adds no permissions but those of the community that it sets up. -/
theorem permissionsOf_apply (hw : w.seeds ≠ some c) (hnone : db.permissionsOf c = []) :
    (w.apply db).1.permissionsOf c = [] := by
  cases w with
  | seed userId now d =>
    unfold Write.apply
    dsimp only
    split_ifs
    · obtain ⟨-, -, hroles⟩ := addPermissions_rows d CommunityRole.all db.permissions
      have hsame := hroles c
      rw [if_neg fun hd => hw (congrArg some hd), List.append_nil] at hsame
      have hempty : db.permissions.rows.filter (fun row => row.communityId = c) = [] := hnone
      rw [hempty] at hsame
      exact List.map_eq_nil_iff.mp hsame
    · exact hnone
  | delete d =>
    show ((db.deleteCommunity d).getD db).permissionsOf c = []
    cases hdelete : db.deleteCommunity d with
    | none => exact hnone
    | some db' =>
      obtain ⟨-, rfl⟩ := deleteCommunity_eq_some.mp hdelete
      exact hnone
  | addMember read userId role now =>
    unfold Write.apply
    dsimp only
    split_ifs <;> exact hnone
  | event userId now d body =>
    unfold Write.apply
    dsimp only
    split_ifs <;> exact hnone
  | rsvp userId now eventId response =>
    unfold Write.apply
    dsimp only
    split_ifs <;> exact hnone
  | resource userId now d body =>
    unfold Write.apply
    dsimp only
    split_ifs <;> exact hnone
  | create userId now body => exact hnone
  | update read new now => exact hnone

/-- The community has been deleted. -/
def Gone (db : Db) (c : ℤ) : Prop := c < db.communities.next ∧ db.communities.find c = none

/-- A community that is gone does not come back. -/
theorem Gone.apply (h : Gone db c) (w : Write) : Gone (w.apply db).1 c := by
  obtain ⟨hlt, hnone⟩ := h
  cases w with
  | create userId now body =>
    refine ⟨lt_trans hlt (Int.lt_succ _), ?_⟩
    unfold Write.apply
    dsimp only
    rw [Serial.find_insert, if_neg (Int.ne_of_lt hlt)]
    exact hnone
  | seed userId now d =>
    unfold Write.apply
    dsimp only
    split_ifs <;> exact ⟨hlt, hnone⟩
  | update read new now =>
    refine ⟨hlt, ?_⟩
    unfold Write.apply
    dsimp only
    rw [Serial.find_update, hnone]
    rfl
  | delete d =>
    show Gone ((db.deleteCommunity d).getD db) c
    cases hdelete : db.deleteCommunity d with
    | none => exact ⟨hlt, hnone⟩
    | some db' =>
      obtain ⟨-, rfl⟩ := deleteCommunity_eq_some.mp hdelete
      refine ⟨hlt, ?_⟩
      show (db.communities.delete _).find c = none
      rw [Serial.find_delete, hnone]
      rfl
  | addMember read userId role now =>
    unfold Write.apply
    dsimp only
    split_ifs
    · refine ⟨hlt, ?_⟩
      show (db.communities.update read.id (read.recount now) (read.recount_id now)).find c = none
      rw [Serial.find_update, hnone]
      rfl
    · exact ⟨hlt, hnone⟩
  | event userId now d body =>
    unfold Write.apply
    dsimp only
    split_ifs <;> exact ⟨hlt, hnone⟩
  | rsvp userId now eventId response =>
    unfold Write.apply
    dsimp only
    split_ifs <;> exact ⟨hlt, hnone⟩
  | resource userId now d body =>
    unfold Write.apply
    dsimp only
    split_ifs <;> exact ⟨hlt, hnone⟩

/-- The second commit of `create_community` sets the community up, unless it is gone. -/
theorem setUp_apply (h : Sound db) (hb : w.Backed db) (hseeds : w.seeds = some c) :
    (∃ ownerId, SetUp (w.apply db).1 c ownerId) ∨ Gone (w.apply db).1 c := by
  have hsound := (committed_apply h hb).sound
  cases w with
  | seed userId now d =>
    obtain rfl := Option.some.inj hseeds
    unfold Write.apply at hsound ⊢
    dsimp only at hsound ⊢
    split_ifs at hsound ⊢ with hsome
    · exact .inl (hsound.members _ (List.mem_append_right _ (List.mem_singleton.mpr rfl)))
    · exact .inr ⟨hb.given, Option.not_isSome_iff_eq_none.mp hsome⟩
  | create userId now body => cases hseeds
  | update read new now => cases hseeds
  | delete d => cases hseeds
  | addMember read userId role now => cases hseeds
  | event userId now d body => cases hseeds
  | rsvp userId now eventId response => cases hseeds
  | resource userId now d body => cases hseeds

end Invariant

/-! ## Answers -/

/-- The event and the user of an answer. -/
def CommunityEventRSVP.key (rsvp : CommunityEventRSVP) : ℤ × ℤ := (rsvp.eventId, rsvp.userId)

/-- The answer that a call is about to add. -/
def Write.answer : Write → Option (ℤ × ℤ)
  | .rsvp userId _ eventId _ => some (eventId, userId)
  | _ => none

/-- No call of the user is about to answer the same event. -/
def NoOverlap (s : Overlap) : Move → Prop
  | .request ⟨userId, _, .rsvp _ eventId _⟩ =>
    (eventId, userId) ∉ s.inFlight.filterMap Write.answer
  | _ => True

/-- The answers that are there, and those to come. -/
def Overlap.answers (s : Overlap) : List (ℤ × ℤ) :=
  s.db.rsvps.rows.map CommunityEventRSVP.key ++ s.inFlight.filterMap Write.answer

section Answers

variable {db : Db} {w : Write} {scan : Scan} {call : Call} {s : Overlap}

/-- A commit adds no answer but its own. -/
theorem answers_apply (db : Db) (w : Write) :
    ((w.apply db).1.rsvps.rows.map CommunityEventRSVP.key).Sublist
        (db.rsvps.rows.map CommunityEventRSVP.key ++ w.answer.toList) ∧
      (w.apply db).2.bind Write.answer = none := by
  have hold : ∀ {rsvps : Serial CommunityEventRSVP.id}, rsvps.rows.Sublist db.rsvps.rows →
      (rsvps.rows.map CommunityEventRSVP.key).Sublist
        (db.rsvps.rows.map CommunityEventRSVP.key ++ w.answer.toList) := fun hsub =>
    (hsub.map _).trans (List.sublist_append_left _ _)
  cases w with
  | create userId now body => exact ⟨hold (.refl _), rfl⟩
  | seed userId now c =>
    refine ⟨?_, rfl⟩
    unfold Write.apply
    dsimp only
    split_ifs <;> exact hold (.refl _)
  | update read new now => exact ⟨hold (.refl _), rfl⟩
  | delete c =>
    refine ⟨?_, rfl⟩
    show (((db.deleteCommunity c).getD db).rsvps.rows.map CommunityEventRSVP.key).Sublist _
    cases hdelete : db.deleteCommunity c with
    | none => exact hold (.refl _)
    | some db' =>
      obtain ⟨-, rfl⟩ := deleteCommunity_eq_some.mp hdelete
      exact hold List.filter_sublist
  | addMember read userId role now =>
    refine ⟨?_, rfl⟩
    unfold Write.apply
    dsimp only
    split_ifs <;> exact hold (.refl _)
  | event userId now c body =>
    refine ⟨?_, rfl⟩
    unfold Write.apply
    dsimp only
    split_ifs <;> exact hold (.refl _)
  | rsvp userId now eventId response =>
    refine ⟨?_, rfl⟩
    unfold Write.apply
    dsimp only
    split_ifs
    · show ((db.rsvps.rows ++ [newRSVP userId now eventId response db.rsvps.next]).map
        CommunityEventRSVP.key).Sublist _
      rw [List.map_append]
      exact .refl _
    · exact hold (.refl _)
  | resource userId now c body =>
    refine ⟨?_, rfl⟩
    unfold Write.apply
    dsimp only
    split_ifs <;> exact hold (.refl _)

/-- A request that plans an answer has found none of its user. -/
theorem answer_plan (hplan : plan scan db call = some w) {key : ℤ × ℤ}
    (hkey : w.answer = some key) :
    (∃ c body, call.request = .rsvp c key.1 body ∧ call.userId = key.2) ∧
      key ∉ db.rsvps.rows.map CommunityEventRSVP.key := by
  obtain ⟨userId, now, request⟩ := call
  unfold plan at hplan
  cases request with
  | rsvp communityId eventId body =>
    dsimp only at hplan
    split at hplan
    next read event u hcommunity hevent hmay =>
      split_ifs at hplan
      obtain rfl := Option.some.inj hplan
      obtain rfl := Option.some.inj hkey
      refine ⟨⟨communityId, body, rfl, rfl⟩, fun hmem => ?_⟩
      obtain ⟨rsvp, hrsvp, heq⟩ := List.mem_map.mp hmem
      exact (mayRSVP_ok hmay).2 rsvp hrsvp (Prod.mk.inj heq)
    · cases hplan
  | create body =>
    dsimp only at hplan
    split_ifs at hplan
    obtain rfl := Option.some.inj hplan
    cases hkey
  | update communityId body =>
    dsimp only at hplan
    split at hplan
    · cases hplan
    · obtain ⟨new, -, hnew⟩ := Option.bind_eq_some_iff.mp hplan
      split_ifs at hnew
      obtain rfl := Option.some.inj hnew
      cases hkey
  | delete communityId =>
    dsimp only at hplan
    split at hplan
    · cases hplan
    · obtain rfl := Option.some.inj hplan
      cases hkey
  | addMember communityId body =>
    dsimp only at hplan
    split at hplan
    · obtain rfl := Option.some.inj hplan
      cases hkey
    · cases hplan
  | createEvent communityId body =>
    dsimp only at hplan
    split at hplan
    · split_ifs at hplan
      obtain rfl := Option.some.inj hplan
      cases hkey
    · cases hplan
  | addResource communityId body =>
    dsimp only at hplan
    split at hplan
    · split_ifs at hplan
      obtain rfl := Option.some.inj hplan
      cases hkey
    · cases hplan
  | list skip limit => cases hplan
  | read communityId => cases hplan
  | members communityId skip limit => cases hplan
  | events communityId skip limit => cases hplan
  | resources communityId skip limit => cases hplan

theorem answersNodup_step (scan : Scan) (s : Overlap) (a : Move) (s' : Overlap)
    (h : s.answers.Nodup) (hg : NoOverlap s a) (hs : moveStep scan s a = some s') :
    s'.answers.Nodup := by
  cases a with
  | request call =>
    obtain rfl := Option.some.inj hs
    unfold Overlap.answers at *
    dsimp only
    cases hplan : plan scan s.db call with
    | none =>
      simp only [Option.toList_none, List.append_nil]
      exact h
    | some w =>
      rw [Option.toList_some, List.filterMap_append, ← List.append_assoc]
      cases hkey : w.answer with
      | none =>
        rw [List.filterMap_cons_none hkey, List.filterMap_nil, List.append_nil]
        exact h
      | some key =>
        rw [List.filterMap_cons_some hkey, List.filterMap_nil, ← List.concat_eq_append]
        refine h.concat fun hmem => ?_
        obtain ⟨⟨c, body, hrequest, huser⟩, hnew⟩ := answer_plan hplan hkey
        obtain hrow | hflight := List.mem_append.mp hmem
        · exact hnew hrow
        · obtain ⟨userId, now, request⟩ := call
          dsimp only at hrequest huser
          subst hrequest huser
          exact hg hflight
  | commit i ok =>
    obtain ⟨w, hw, rfl⟩ := Option.map_eq_some_iff.mp hs
    have hperm := filterMap_eraseIdx_perm Write.answer hw
    have hall : (s.db.rsvps.rows.map CommunityEventRSVP.key ++ (w.answer.toList ++
        (s.inFlight.eraseIdx i).filterMap Write.answer)).Nodup :=
      (hperm.append_left _).nodup_iff.mpr h
    unfold Overlap.commit Overlap.answers
    split_ifs
    · obtain ⟨hsub, hsecond⟩ := answers_apply s.db w
      have hnone : ((w.apply s.db).2.toList).filterMap Write.answer = [] := by
        cases hsnd : (w.apply s.db).2 with
        | none => rfl
        | some w' =>
          rw [hsnd] at hsecond
          exact List.filterMap_cons_none hsecond
      dsimp only
      rw [List.filterMap_append, hnone, List.append_nil]
      rw [← List.append_assoc] at hall
      exact hall.sublist (hsub.append_right _)
    · refine hall.sublist (List.Sublist.append_left ?_ _)
      exact List.sublist_append_right _ _

end Answers

/-! ## Runs -/

def sampleEvent : CommunityEventCreate where
  title := "Harvest"
  description := none
  startTime := 10
  endTime := none
  location := none
  title_le := by decide
  location_le := fun _ h => (by cases h)

def sampleAnswer : CommunityEventRSVPCreate := ⟨"going", by decide⟩

theorem garden_le : "Garden".length ≤ 100 := by decide

/-- User `1` creates a community, adds user `2` and announces an event. -/
def sampleSetUp : List Move :=
  [.request ⟨1, 0, .create ⟨"Garden", none, none, garden_le, noCategory_le⟩⟩, .commit 0 true,
    .commit 0 true, .request ⟨1, 1, .addMember 1 ⟨2, .MEMBER⟩⟩,
    .request ⟨1, 1, .createEvent 1 sampleEvent⟩, .commit 1 true, .commit 0 true]

/-- Both answer at once, and the owner tries to delete the community. -/
def sampleMoves : List Move :=
  [.request ⟨2, 2, .rsvp 1 1 sampleAnswer⟩, .request ⟨1, 2, .rsvp 1 1 sampleAnswer⟩,
    .request ⟨1, 2, .delete 1⟩, .commit 2 true, .commit 1 true, .commit 0 true]

/-- **Who adds what.** However calls overlap, everything in a community is in one that has its
    owner and the permissions of each role, its events and resources are those of owners and
    admins, and each answer to an event is a member's. -/
theorem communities_sound (scan : Scan) (users : List ℤ) (as : List Move) (s' : Overlap)
    (hr : run (moveStep scan) (.start users) as = some s') : Sound s'.db :=
  (run_invariant (fun s a s' h hs => (overlapInv_step scan s a s' h hs).1)
    (overlapInv_start users) hr).sound

theorem communities_sound_garden : ∃ s',
    run (moveStep .inserted) (.start [1, 2]) (sampleSetUp ++ sampleMoves) = some s' ∧
      s'.db.rsvps.rows.map CommunityEventRSVP.key = [(1, 1), (1, 2)] ∧ Sound s'.db := by
  have hrun : (run (moveStep .inserted) (.start [1, 2]) (sampleSetUp ++ sampleMoves)).map
      (fun s => s.db.rsvps.rows.map CommunityEventRSVP.key) = some [(1, 1), (1, 2)] := by
    decide +kernel
  obtain ⟨s', hs', hanswers⟩ := Option.map_eq_some_iff.mp hrun
  exact ⟨s', hs', hanswers, communities_sound _ _ _ s' hs'⟩

/-- **Nothing is lost.** A community that has been set up is still there with its owner after any
    further calls, however they overlap, and so is all that was in it. -/
theorem communities_kept (scan : Scan) (users : List ℤ) (as bs : List Move) (s s' : Overlap)
    (hr : run (moveStep scan) (.start users) as = some s)
    (hr' : run (moveStep scan) s bs = some s') : Keeps s.db s'.db := by
  have hinv := run_invariant (fun s a s' h hs => (overlapInv_step scan s a s' h hs).1)
    (overlapInv_start users) hr
  have htrans : ∀ s₁ s₂ s₃ : Overlap, Keeps s₁.db s₂.db → Keeps s₂.db s₃.db →
      Keeps s₁.db s₃.db := fun _ _ _ => Keeps.trans
  exact run_relates (fun s => .refl s.db) htrans (overlapInv_step scan) hinv hr'

theorem communities_kept_garden : ∃ s s',
    run (moveStep .inserted) (.start [1, 2]) sampleSetUp = some s ∧
      run (moveStep .inserted) s sampleMoves = some s' ∧
      s.db.events.rows.map CommunityEvent.title = ["Harvest"] ∧ Keeps s.db s'.db := by
  have hrun : (run (moveStep .inserted) (.start [1, 2]) sampleSetUp).bind (fun s =>
      (run (moveStep .inserted) s sampleMoves).map fun _ =>
        s.db.events.rows.map CommunityEvent.title) = some ["Harvest"] := by decide +kernel
  obtain ⟨s, hs, hrest⟩ := Option.bind_eq_some_iff.mp hrun
  obtain ⟨s', hs', htitles⟩ := Option.map_eq_some_iff.mp hrest
  exact ⟨s, s', hs, hs', htitles, communities_kept _ _ _ _ s s' hs hs'⟩

instance (s : Overlap) : (a : Move) → Decidable (NoOverlap s a)
  | .request ⟨_, _, .rsvp _ _ _⟩ => inferInstanceAs (Decidable (¬ _))
  | .request ⟨_, _, .create _⟩ => isTrue trivial
  | .request ⟨_, _, .list _ _⟩ => isTrue trivial
  | .request ⟨_, _, .read _⟩ => isTrue trivial
  | .request ⟨_, _, .update _ _⟩ => isTrue trivial
  | .request ⟨_, _, .delete _⟩ => isTrue trivial
  | .request ⟨_, _, .addMember _ _⟩ => isTrue trivial
  | .request ⟨_, _, .members _ _ _⟩ => isTrue trivial
  | .request ⟨_, _, .createEvent _ _⟩ => isTrue trivial
  | .request ⟨_, _, .events _ _ _⟩ => isTrue trivial
  | .request ⟨_, _, .addResource _ _⟩ => isTrue trivial
  | .request ⟨_, _, .resources _ _ _⟩ => isTrue trivial
  | .commit _ _ => isTrue trivial

/-- **One answer.** As long as no two answers of a user to an event overlap, each user has one
    answer to an event at most. -/
theorem answers_once (scan : Scan) (users : List ℤ) (as : List Move) (s' : Overlap)
    (hg : Guarded (moveStep scan) NoOverlap (.start users) as)
    (hr : run (moveStep scan) (.start users) as = some s') :
    (s'.db.rsvps.rows.map CommunityEventRSVP.key).Nodup :=
  (List.nodup_append.mp
    (hg.invariant (answersNodup_step scan) (I := fun s => s.answers.Nodup) .nil hr)).1

theorem answers_once_garden : ∃ s',
    run (moveStep .inserted) (.start [1, 2]) (sampleSetUp ++ sampleMoves) = some s' ∧
      s'.db.rsvps.rows.length = 2 ∧ (s'.db.rsvps.rows.map CommunityEventRSVP.key).Nodup := by
  have hrun : (run (moveStep .inserted) (.start [1, 2]) (sampleSetUp ++ sampleMoves)).map
      (·.db.rsvps.rows.length) = some 2 := by decide +kernel
  obtain ⟨s', hs', hlength⟩ := Option.map_eq_some_iff.mp hrun
  exact ⟨s', hs', hlength, answers_once _ _ _ s' (by decide +kernel) hs'⟩

/-- Two answers of a user that overlap are both kept: no index refuses the second. -/
theorem answered_twice : ¬ ∀ scan users as s',
    run (moveStep scan) (.start users) as = some s' →
      (s'.db.rsvps.rows.map CommunityEventRSVP.key).Nodup := by
  intro h
  have hrun : (run (moveStep .inserted) (.start [1, 2]) (sampleSetUp ++
      [.request ⟨2, 2, .rsvp 1 1 sampleAnswer⟩, .request ⟨2, 2, .rsvp 1 1 sampleAnswer⟩,
        .commit 0 true, .commit 0 true])).map
      (fun s => s.db.rsvps.rows.map CommunityEventRSVP.key) = some [(1, 2), (1, 2)] := by
    decide +kernel
  obtain ⟨s', hs', htwice⟩ := Option.map_eq_some_iff.mp hrun
  have := h _ _ _ s' hs'
  rw [htwice] at this
  exact absurd this (by decide)

end IronLink.Communities
