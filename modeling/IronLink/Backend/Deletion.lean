import IronLink.Channels.Routes
import IronLink.Communities.Overlap

/-!
# Deleting channels and communities

`delete_channel` (backend/app/api/routes/channels.py:81-97) and `delete_community`
(backend/app/api/routes/communities.py:104-120), called by the owner, in any state that the two
routers lead to. Of the tables that refer to a channel or a community, the ORM deletes the rows
of those with a delete-orphan cascade. It has none for channel_analytics, and does not know of
community_permissions, whose rows the second commit of `create_community` adds.

Results:
* `deletesChannel_iff`, `deletesCommunity_iff`: when an owner's deletion succeeds and leaves
  nothing.
* `ownersDelete_iff`: in reachable states that is so for the channels without analytics, and for
  the communities without that second commit.
* `undeletable`: a channel whose analytics were looked at once, and a new community.
-/

namespace IronLink.Backend

open Lib Auth Orm

/-! ## Both routers -/

structure Tables where
  channels : Channels.Db
  communities : Communities.Overlap

def Tables.empty (users plans : List ℤ) : Tables := ⟨.empty plans, .start users⟩

inductive Action
  | channels (call : Channels.Call)
  | communities (move : Communities.Move)

/-- Calls of both routers. What is left to commit of a call on communities may come later, or
    get lost. -/
def Tables.step (scan : Scan) (s : Tables) : Action → Option Tables
  | .channels call => some { s with channels := (Channels.serve scan s.channels call).2 }
  | .communities move =>
    (Communities.moveStep scan s.communities move).map fun communities =>
      { s with communities := communities }

/-! ## Channels -/

/-- Neither the channel nor a row that refers to it. -/
structure NoneOfChannel (db : Channels.Db) (c : ℤ) : Prop where
  channel : db.channels.find c = none
  posts : ∀ post ∈ db.posts.rows, post.channelId ≠ c
  subscriptions : ∀ row ∈ db.subscriptions.rows, row.channelId ≠ c
  analytics : ∀ row ∈ db.analytics.rows, row.channelId ≠ c

/-- The user's `delete_channel` succeeds and leaves nothing. -/
def DeletesChannel (db : Channels.Db) (userId c : ℤ) : Prop :=
  (∃ response, (Channels.deleteChannel db userId c).1 = .ok response) ∧
    NoneOfChannel (Channels.deleteChannel db userId c).2 c

variable {scan : Scan} {c : ℤ}

theorem ne_of_mem_delete {R : Type} {key ref : R → ℤ} {table : Serial key} {row : R}
    (h : row ∈ (table.delete fun row => ref row = c).rows) : ref row ≠ c := by
  have hkept := (List.mem_filter.mp h).2
  simpa using hkept

theorem find_delete_self {R : Type} {key : R → ℤ} (table : Serial key) :
    (table.delete fun row => key row = c).find c = none := by
  refine Table.find_eq_none.mpr fun row hrow => ?_
  exact ne_of_mem_delete hrow

theorem ownChannel_of_mem {db : Channels.Db} {channel : Channels.Channel}
    (h : channel ∈ db.channels.rows) :
    db.ownChannel channel.id channel.ownerId = .ok channel := by
  unfold Channels.Db.ownChannel Channels.Db.channel
  rw [Serial.find_of_mem h]
  exact if_pos rfl

theorem respond_ok_iff {channel : Channels.Channel} :
    (∃ response, channel.respond = .ok response) ↔ channel.isVerified.isSome := by
  unfold Channels.Channel.respond
  cases channel.isVerified with
  | none => exact iff_of_false (fun ⟨_, h⟩ => (by cases h)) Bool.false_ne_true
  | some isVerified => exact iff_of_true ⟨_, rfl⟩ rfl

/-- The owner's deletion succeeds and leaves nothing exactly when nobody has looked at the
    channel's analytics and the response can say whether the channel is verified. -/
theorem deletesChannel_iff {db : Channels.Db} {channel : Channels.Channel}
    (h : channel ∈ db.channels.rows) :
    DeletesChannel db channel.ownerId channel.id ↔
      channel.isVerified.isSome ∧ ∀ row ∈ db.analytics.rows, row.channelId ≠ channel.id := by
  unfold DeletesChannel Channels.deleteChannel
  rw [ownChannel_of_mem h]
  dsimp only
  cases hdelete : db.deleteChannel channel.id with
  | none =>
    refine iff_of_false (fun hn => ?_) fun hn => ?_
    · obtain ⟨response, hresponse⟩ := hn.1
      cases hresponse
    · rw [Channels.deleteChannel_eq_some.mpr ⟨hn.2, rfl⟩] at hdelete
      cases hdelete
  | some db' =>
    obtain ⟨hnone, rfl⟩ := Channels.deleteChannel_eq_some.mp hdelete
    rw [respond_ok_iff]
    refine and_congr_right fun _ => iff_of_true ?_ hnone
    exact ⟨find_delete_self _, fun _ => ne_of_mem_delete, fun _ => ne_of_mem_delete, hnone⟩

/-! ## Communities -/

/-- Neither the community nor a row that refers to it, or to one of the events it had. -/
structure NoneOfCommunity (before after : Communities.Db) (c : ℤ) : Prop where
  community : after.communities.find c = none
  members : ∀ member ∈ after.members.rows, member.communityId ≠ c
  permissions : ∀ permission ∈ after.permissions.rows, permission.communityId ≠ c
  events : ∀ event ∈ after.events.rows, event.communityId ≠ c
  rsvps : ∀ rsvp ∈ after.rsvps.rows, ∀ event ∈ before.events.rows,
    event.communityId = c → rsvp.eventId ≠ event.id
  resources : ∀ resource ∈ after.resources.rows, resource.communityId ≠ c

/-- The user's `delete_community` succeeds and leaves nothing. -/
def DeletesCommunity (db : Communities.Db) (userId c : ℤ) : Prop :=
  (∃ response, (Communities.deleteCommunity db userId c).1 = .ok response) ∧
    NoneOfCommunity db (Communities.deleteCommunity db userId c).2 c

theorem ownCommunity_of_mem {db : Communities.Db} {community : Communities.Community}
    (h : community ∈ db.communities.rows) :
    db.ownCommunity community.id community.ownerId = .ok community := by
  unfold Communities.Db.ownCommunity Communities.Db.community
  rw [Serial.find_of_mem h]
  exact if_pos rfl

theorem community_respond_ok_iff {community : Communities.Community} :
    (∃ response, community.respond = .ok response) ↔ community.isVerified.isSome := by
  unfold Communities.Community.respond
  cases community.isVerified with
  | none => exact iff_of_false (fun ⟨_, h⟩ => (by cases h)) Bool.false_ne_true
  | some isVerified => exact iff_of_true ⟨_, rfl⟩ rfl

/-- The owner's deletion succeeds and leaves nothing exactly when the community has no row of
    permissions and the response can say whether it is verified. -/
theorem deletesCommunity_iff {db : Communities.Db} {community : Communities.Community}
    (h : community ∈ db.communities.rows) :
    DeletesCommunity db community.ownerId community.id ↔
      community.isVerified.isSome ∧
        ∀ row ∈ db.permissions.rows, row.communityId ≠ community.id := by
  unfold DeletesCommunity Communities.deleteCommunity
  rw [ownCommunity_of_mem h]
  dsimp only
  cases hdelete : db.deleteCommunity community.id with
  | none =>
    refine iff_of_false (fun hn => ?_) fun hn => ?_
    · obtain ⟨response, hresponse⟩ := hn.1
      cases hresponse
    · rw [Communities.deleteCommunity_eq_some.mpr ⟨hn.2, rfl⟩] at hdelete
      cases hdelete
  | some db' =>
    obtain ⟨hnone, rfl⟩ := Communities.deleteCommunity_eq_some.mp hdelete
    rw [community_respond_ok_iff]
    refine and_congr_right fun _ => iff_of_true ?_ hnone
    refine ⟨find_delete_self _, fun _ => ne_of_mem_delete, hnone, fun _ => ne_of_mem_delete, ?_,
      fun _ => ne_of_mem_delete⟩
    intro rsvp hrsvp event hevent hof heq
    have hkept := (List.mem_filter.mp hrsvp).2
    have hany : (db.events.rows.any fun event =>
        event.communityId = community.id && event.id = rsvp.eventId) = true :=
      List.any_eq_true.mpr ⟨event, hevent, by simp [hof, heq]⟩
    dsimp only at hkept
    rw [hany] at hkept
    cases hkept

/-! ## Permissions -/

section Permissions

variable {s s' : Tables} {a : Action}

/-- The action is not the second commit of `create_community` for `c`. -/
def DoesNotSeed (c : ℤ) (s : Tables) : Action → Prop
  | .communities (.commit i true) => ∀ w ∈ s.communities.inFlight[i]?, w.seeds ≠ some c
  | _ => True

theorem overlapInv_step (h : Communities.OverlapInv s.communities)
    (hs : s.step scan a = some s') : Communities.OverlapInv s'.communities := by
  cases a with
  | channels call =>
    obtain rfl := Option.some.inj hs
    exact h
  | communities move =>
    obtain ⟨communities, hmove, rfl⟩ := Option.map_eq_some_iff.mp hs
    exact (Communities.overlapInv_step scan _ _ _ h hmove).1

/-- Without that commit the community has no permissions. -/
theorem permissionsOf_step (h : s.communities.db.permissionsOf c = [])
    (hg : DoesNotSeed c s a) (hs : s.step scan a = some s') :
    s'.communities.db.permissionsOf c = [] := by
  cases a with
  | channels call =>
    obtain rfl := Option.some.inj hs
    exact h
  | communities move =>
    obtain ⟨communities, hmove, rfl⟩ := Option.map_eq_some_iff.mp hs
    cases move with
    | request call =>
      obtain rfl := Option.some.inj hmove
      exact h
    | commit i ok =>
      obtain ⟨w, hw, rfl⟩ := Option.map_eq_some_iff.mp hmove
      cases ok with
      | false => exact h
      | true => exact Communities.permissionsOf_apply (hg w hw) h

/-- The community has been set up, or deleted. -/
structure Settled (c : ℤ) (s : Tables) : Prop where
  inv : Communities.OverlapInv s.communities
  settled : (∃ ownerId, Communities.SetUp s.communities.db c ownerId) ∨
    Communities.Gone s.communities.db c

theorem settled_of_seed (h : Communities.OverlapInv s.communities) (hg : ¬ DoesNotSeed c s a)
    (hs : s.step scan a = some s') : Settled c s' := by
  refine ⟨overlapInv_step h hs, ?_⟩
  unfold DoesNotSeed at hg
  split at hg
  next i =>
    push Not at hg
    obtain ⟨w, hw, hseeds⟩ := hg
    obtain ⟨communities, hmove, rfl⟩ := Option.map_eq_some_iff.mp hs
    obtain ⟨w', hw', rfl⟩ := Option.map_eq_some_iff.mp hmove
    obtain rfl := Option.some.inj (hw'.symm.trans hw)
    exact Communities.setUp_apply h.sound (h.backed w' (List.mem_of_getElem? hw')) hseeds
  next => exact absurd trivial hg

theorem settled_step (h : Settled c s) (hs : s.step scan a = some s') : Settled c s' := by
  refine ⟨overlapInv_step h.inv hs, ?_⟩
  cases a with
  | channels call =>
    obtain rfl := Option.some.inj hs
    exact h.settled
  | communities move =>
    obtain ⟨communities, hmove, rfl⟩ := Option.map_eq_some_iff.mp hs
    obtain ⟨ownerId, hsetUp⟩ | hgone := h.settled
    · exact .inl ⟨ownerId,
        (Communities.overlapInv_step scan _ _ _ h.inv hmove).2.setUp c ownerId hsetUp⟩
    · cases move with
      | request call =>
        obtain rfl := Option.some.inj hmove
        exact .inr hgone
      | commit i ok =>
        obtain ⟨w, hw, rfl⟩ := Option.map_eq_some_iff.mp hmove
        cases ok with
        | false => exact .inr hgone
        | true => exact .inr (hgone.apply w)

/-- A community that is there has permissions exactly when its second commit is done. -/
theorem permissionsOf_iff {users plans : List ℤ} {actions : List Action}
    (hrun : run (Tables.step scan) (.empty users plans) actions = some s)
    {community : Communities.Community} (h : community ∈ s.communities.db.communities.rows) :
    s.communities.db.permissionsOf community.id = [] ↔
      Guarded (Tables.step scan) (DoesNotSeed community.id) (.empty users plans) actions := by
  constructor
  · intro hnone
    obtain hguarded | ⟨-, ⟨ownerId, hsetUp⟩ | ⟨-, hgone⟩⟩ := guarded_or_lasting
      (G := DoesNotSeed community.id) (I := fun s => Communities.OverlapInv s.communities)
      (B := Settled community.id) (fun _ _ _ h _ hs => overlapInv_step h hs)
      (fun _ _ _ h hg hs => settled_of_seed h hg hs) (fun _ _ _ h hs => settled_step h hs)
      (Communities.overlapInv_start users) hrun
    · exact hguarded
    · have hroles := hsetUp.permissions
      rw [hnone] at hroles
      cases hroles
    · rw [Serial.find_of_mem h] at hgone
      cases hgone
  · intro hguarded
    exact hguarded.invariant
      (I := fun s => s.communities.db.permissionsOf community.id = [])
      (fun _ _ _ h hg hs => permissionsOf_step h hg hs) rfl hrun

end Permissions

/-! ## Owners -/

/-- In every reachable state the owner of a channel deletes it completely if and only if there
    is no row of analytics for it and `is_verified` is not NULL; the owner of a community does if
    and only if the second commit of its `create_community` has not been done and `is_verified`
    is not NULL. -/
theorem ownersDelete_iff {users plans : List ℤ} {actions : List Action} {s : Tables}
    (hrun : run (Tables.step scan) (.empty users plans) actions = some s) :
    (∀ channel ∈ s.channels.channels.rows,
      (DeletesChannel s.channels channel.ownerId channel.id ↔ channel.isVerified.isSome ∧
        ∀ row ∈ s.channels.analytics.rows, row.channelId ≠ channel.id)) ∧
      ∀ community ∈ s.communities.db.communities.rows,
        (DeletesCommunity s.communities.db community.ownerId community.id ↔
          community.isVerified.isSome ∧ Guarded (Tables.step scan) (DoesNotSeed community.id)
            (.empty users plans) actions) := by
  refine ⟨fun channel h => deletesChannel_iff h, fun community h => ?_⟩
  rw [deletesCommunity_iff h, ← permissionsOf_iff hrun h]
  refine and_congr_right fun _ => ?_
  unfold Communities.Db.permissionsOf
  rw [List.filter_eq_nil_iff]
  simp only [decide_eq_true_eq]

/-- User `1` creates a channel and a community and looks at the channel's analytics. -/
def created : List Action :=
  [.channels ⟨1, 0, .create
      { name := "Radio"
        description := none
        type := .PUBLIC
        category := none
        name_le := by decide
        category_le := noCategory_le }⟩,
    .channels ⟨1, 1, .analytics 1⟩,
    .communities (.request ⟨1, 2, .create
      { name := "Orchard"
        description := none
        category := none
        name_le := by decide
        category_le := noCategory_le }⟩),
    .communities (.commit 0 true), .communities (.commit 0 true)]

/-- The channel and the community are there and are user `1`'s, who can delete neither. -/
theorem undeletable : ∃ s, run (Tables.step .inserted) (.empty [1] []) created = some s ∧
    s.channels.channels.rows.map (fun row => (row.id, row.ownerId)) = [(1, 1)] ∧
      s.communities.db.communities.rows.map (fun row => (row.id, row.ownerId)) = [(1, 1)] ∧
      s.communities.inFlight.length = 0 ∧
      (Channels.deleteChannel s.channels 1 1).1 = .error internalServerError ∧
      (Communities.deleteCommunity s.communities.db 1 1).1 = .error internalServerError := by
  refine ⟨_, rfl, ?_, ?_, ?_, ?_, ?_⟩ <;> decide +kernel

theorem ownersDelete_created : ∃ s, run (Tables.step .inserted) (.empty [1] []) created = some s ∧
    (∀ channel ∈ s.channels.channels.rows,
      (DeletesChannel s.channels channel.ownerId channel.id ↔ channel.isVerified.isSome ∧
        ∀ row ∈ s.channels.analytics.rows, row.channelId ≠ channel.id)) ∧
      ∀ community ∈ s.communities.db.communities.rows,
        (DeletesCommunity s.communities.db community.ownerId community.id ↔
          community.isVerified.isSome ∧ Guarded (Tables.step .inserted)
            (DoesNotSeed community.id) (.empty [1] []) created) := by
  obtain ⟨s, hrun⟩ : ∃ s, run (Tables.step .inserted) (.empty [1] []) created = some s :=
    ⟨_, rfl⟩
  exact ⟨s, hrun, ownersDelete_iff hrun⟩

end IronLink.Backend
