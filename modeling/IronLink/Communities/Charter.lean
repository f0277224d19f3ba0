import IronLink.Communities.Members
import IronLink.Communities.Overlap

/-!
# Owners of communities, and who has made them

`create_community` and `add_community_member` (backend/app/api/routes/communities.py:12-54,
123-162), called any number of times by any users, with their commits in any order. The first
makes its caller the owner, in its second commit; the second lets an owner or admin add a user in
the role that the request names.

Results:
* `chartered_iff`: in a reachable state each community has its one owner, and nobody has granted
  more than they held, if and only if every new community has had its second commit and nobody
  has been added as an owner.
* `usurped`: an admin makes another owner.
-/

namespace IronLink.Communities

open Lib Auth Orm

/-! ## Model -/

/-- Where a membership comes from; the role is the one that the granter had. -/
inductive Origin
  | created
  | granted (held : Option CommunityRole)
  deriving DecidableEq

/-- The roles of the enumeration, from the lowest. -/
def CommunityRole.rank : CommunityRole → ℕ
  | .MEMBER => 0
  | .MODERATOR => 1
  | .ADMIN => 2
  | .OWNER => 3

/-- `create_community` made the membership, or a member who ranked as high. -/
def Origin.allows (role : CommunityRole) : Origin → Prop
  | .created => True
  | .granted held => ∃ granter ∈ held, role.rank ≤ granter.rank

/-- The role of the caller is the one that the request reads. -/
def Action.origin (scan : Scan) (db : Db) : Action → Origin
  | .create .. => .created
  | .add userId _ communityId _ =>
    .granted ((db.membership scan communityId userId).map CommunityMember.role)

/-- The tables, the calls that have something to commit, each with the origin of the membership
    that it is going to add, and the origin of each membership that there has been. -/
structure Charter where
  db : Db
  inFlight : List (Write × Origin)
  origins : List (ℤ × Origin)

inductive Turn
  | request (a : Action)
  /-- the next commit of the call `i`; `ok`: the connection holds -/
  | commit (i : ℕ) (ok : Bool)

/-- The origins of the memberships that a commit adds. -/
def addedOrigins (db db' : Db) (origin : Origin) : List (ℤ × Origin) :=
  (db'.members.rows.drop db.members.rows.length).map fun member => (member.id, origin)

def Charter.commit (s : Charter) (i : ℕ) (ok : Bool) (call : Write × Origin) : Charter :=
  if ok then
    { db := (call.1.apply s.db).1
      inFlight :=
        s.inFlight.eraseIdx i ++ (call.1.apply s.db).2.toList.map fun w => (w, call.2)
      origins := s.origins ++ addedOrigins s.db (call.1.apply s.db).1 call.2 }
  else { s with inFlight := s.inFlight.eraseIdx i }

def Charter.step (scan : Scan) (s : Charter) : Turn → Option Charter
  | .request a =>
    some { s with inFlight :=
      s.inFlight ++ (plan scan s.db a.call).toList.map fun w => (w, a.origin scan s.db) }
  | .commit i ok => (s.inFlight[i]?).map (s.commit i ok)

def Charter.start (users : List ℤ) : Charter := ⟨.empty users, [], []⟩

/-! ## Properties -/

def Db.owners (db : Db) (communityId : ℤ) : List CommunityMember :=
  db.members.rows.filter fun member => member.communityId = communityId && member.role = .OWNER

/-- The user is the one owner of the community. -/
def Db.HasOwner (db : Db) (communityId ownerId : ℤ) : Prop :=
  ∃ member, db.owners communityId = [member] ∧ member.userId = ownerId

/-- Each community has one owner, the one it names, and every owner or admin was made by
    `create_community` or by a member who ranked as high. -/
structure Chartered (s : Charter) : Prop where
  owner : ∀ community ∈ s.db.communities.rows, s.db.HasOwner community.id community.ownerId
  granted : ∀ member ∈ s.db.members.rows, member.role.manages = true →
    ∃ origin, (member.id, origin) ∈ s.origins ∧ origin.allows member.role

/-- No `create_community` is between its two commits. -/
def Charter.Settled (s : Charter) : Prop := ∀ call ∈ s.inFlight, call.1.seeds = none

/-- The commit is not a second commit of `create_community` that gets lost, nor one that adds an
    owner. -/
def Write.Regular (db : Db) (ok : Bool) : Write → Prop
  | .seed .. => ok = true
  | .addMember read userId role _ =>
    ok = true → role = .OWNER → ¬ ((db.communities.find read.id).isSome ∧ userId ∈ db.users)
  | _ => True

def Regular (s : Charter) : Turn → Prop
  | .request _ => True
  | .commit i ok => ∀ call ∈ s.inFlight[i]?, call.1.Regular s.db ok

/-! ## The calls underneath -/

section Underneath

variable {scan : Scan} {s s' : Charter} {t : Turn}

/-- Without the origins. -/
def Charter.overlap (s : Charter) : Overlap := ⟨s.db, s.inFlight.map Prod.fst⟩

def Turn.move : Turn → Move
  | .request a => .request a.call
  | .commit i ok => .commit i ok

/-- The turn is a move of the router. -/
theorem step_overlap (scan : Scan) (s : Charter) (t : Turn) :
    (s.step scan t).map Charter.overlap = moveStep scan s.overlap t.move := by
  cases t with
  | request a =>
    show some (Charter.overlap { s with inFlight := s.inFlight ++
      (plan scan s.db a.call).toList.map fun w => (w, a.origin scan s.db) }) =
      some { s.overlap with inFlight := s.overlap.inFlight ++ (plan scan s.db a.call).toList }
    unfold Charter.overlap
    simp only [List.map_append, List.map_map, Function.comp_def, List.map_id']
  | commit i ok =>
    show ((s.inFlight[i]?).map (s.commit i ok)).map Charter.overlap =
      ((s.inFlight.map Prod.fst)[i]?).map (s.overlap.commit i ok)
    rw [List.getElem?_map, Option.map_map, Option.map_map]
    refine congrArg (fun f => (s.inFlight[i]?).map f) (funext fun call => ?_)
    unfold Function.comp Charter.commit Overlap.commit Charter.overlap
    cases ok with
    | false => simp only [Bool.false_eq_true, if_false, List.eraseIdx_map]
    | true =>
      simp only [if_true, List.map_append, List.eraseIdx_map, List.map_map, Function.comp_def,
        List.map_id']

end Underneath

/-! ## The invariant -/

section Invariant

variable {scan : Scan} {db db' : Db} {s s' : Charter} {t : Turn} {w : Write} {origin : Origin}
  {call : Write × Origin} {c ownerId : ℤ}

/-- What one of the two requests is going to commit. A second commit finds its community, and
    whoever adds a member is an owner or admin. -/
def Founded (db : Db) : Write × Origin → Prop
  | (.create .., origin) => origin = .created
  | (.seed _ _ c, origin) => origin = .created ∧ (db.communities.find c).isSome
  | (.addMember .., origin) => ∃ held, origin = .granted (some held) ∧ held.manages = true
  | _ => False

structure CharterInv (s : Charter) : Prop where
  overlap : OverlapInv s.overlap
  founded : ∀ call ∈ s.inFlight, Founded s.db call

theorem charterInv_start (users : List ℤ) : CharterInv (.start users) where
  overlap := overlapInv_start users
  founded := fun _ h => (by cases h)

theorem founded_plan {a : Action} (hplan : plan scan db a.call = some w) :
    Founded db (w, a.origin scan db) := by
  cases a with
  | create userId now body =>
    dsimp only [Action.call, plan] at hplan
    split_ifs at hplan
    obtain rfl := Option.some.inj hplan
    rfl
  | add userId now communityId body =>
    dsimp only [Action.call, plan] at hplan
    split at hplan
    next read member u hcommunity hmanager hnone =>
      obtain rfl := Option.some.inj hplan
      obtain ⟨hmember, hmanages⟩ := manager_ok hmanager
      refine ⟨member.role, ?_, hmanages⟩
      show Origin.granted ((db.membership scan communityId userId).map CommunityMember.role) = _
      rw [Option.mem_def.mp hmember]
      rfl
    · cases hplan

/-- Communities stay. -/
def Grows (db db' : Db) : Prop :=
  ∀ c, (db.communities.find c).isSome → (db'.communities.find c).isSome

theorem Founded.grows (h : Founded db call) (hgrows : Grows db db') : Founded db' call := by
  obtain ⟨w, origin⟩ := call
  cases w with
  | create userId now body => exact h
  | seed userId now c => exact ⟨h.1, hgrows c h.2⟩
  | addMember read userId role now => exact h
  | update read new now => exact h
  | delete c => exact h
  | event userId now c body => exact h
  | rsvp userId now eventId response => exact h
  | resource userId now c body => exact h

theorem Founded.apply (h : Founded db call) : Grows db (call.1.apply db).1 ∧
    ∀ w ∈ (call.1.apply db).2, Founded (call.1.apply db).1 (w, call.2) := by
  obtain ⟨w, origin⟩ := call
  cases w with
  | create userId now body =>
    refine ⟨fun d hsome => ?_, fun w hw => ?_⟩
    · unfold Write.apply
      dsimp only
      rw [Serial.find_insert]
      split_ifs
      · rfl
      · exact hsome
    · obtain rfl := Option.some.inj hw
      refine ⟨h, ?_⟩
      unfold Write.apply
      dsimp only
      rw [Serial.find_insert, if_pos rfl]
      rfl
  | seed userId now c =>
    refine ⟨fun d hsome => ?_, fun w hw => (by cases hw)⟩
    unfold Write.apply
    dsimp only
    split_ifs <;> exact hsome
  | addMember read userId role now =>
    refine ⟨fun d hsome => ?_, fun w hw => (by cases hw)⟩
    unfold Write.apply
    dsimp only
    split_ifs
    · dsimp only
      rw [Serial.find_update, Option.isSome_map]
      exact hsome
    · exact hsome
  | update read new now => exact h.elim
  | delete c => exact h.elim
  | event userId now c body => exact h.elim
  | rsvp userId now eventId response => exact h.elim
  | resource userId now c body => exact h.elim

theorem charterInv_step (h : CharterInv s) (hs : s.step scan t = some s') :
    CharterInv s' ∧ Keeps s.db s'.db := by
  have hmove : moveStep scan s.overlap t.move = some s'.overlap := by
    rw [← step_overlap, hs]
    rfl
  obtain ⟨hoverlap, hkeeps⟩ := overlapInv_step scan _ _ _ h.overlap hmove
  refine ⟨⟨hoverlap, ?_⟩, hkeeps⟩
  cases t with
  | request a =>
    obtain rfl := Option.some.inj hs
    intro call hcall
    obtain hold | hnew := List.mem_append.mp hcall
    · exact h.founded call hold
    · obtain ⟨w, hw, rfl⟩ := List.mem_map.mp hnew
      exact founded_plan (Option.mem_toList.mp hw)
  | commit i ok =>
    obtain ⟨call, hget, rfl⟩ := Option.map_eq_some_iff.mp hs
    obtain ⟨hgrows, hsecond⟩ := (h.founded call (List.mem_of_getElem? hget)).apply
    have hsub : ∀ other ∈ s.inFlight.eraseIdx i, other ∈ s.inFlight := fun other hother =>
      (List.eraseIdx_sublist ..).subset hother
    unfold Charter.commit
    split_ifs
    · intro other hother
      obtain hold | hnew := List.mem_append.mp hother
      · exact (h.founded other (hsub other hold)).grows hgrows
      · obtain ⟨w, hw, rfl⟩ := List.mem_map.mp hnew
        exact hsecond w (Option.mem_toList.mp hw)
    · exact fun other hother => h.founded other (hsub other hother)

/-- Nobody is a member yet of a community that is going to be set up. -/
theorem Sound.no_members (h : Sound db) (hu : Unseeded db c ownerId) :
    ∀ member ∈ db.members.rows, member.communityId ≠ c := (h.bare hu.none).1

theorem Sound.owners_unseeded (h : Sound db) (hu : Unseeded db c ownerId) : db.owners c = [] := by
  refine List.filter_eq_nil_iff.mpr fun member hmember hof => ?_
  exact h.no_members hu member hmember (of_decide_eq_true (Bool.and_eq_true_iff.mp hof).1)

/-- The call that seeds a community is about to do so for the first time. -/
theorem CharterInv.unseeded (h : CharterInv s) (hcall : call ∈ s.inFlight)
    (hseeds : call.1.seeds = some c) :
    ∃ ownerId, Unseeded s.db c ownerId ∧ (s.db.communities.find c).isSome := by
  have hbacked := h.overlap.backed call.1 (List.mem_map_of_mem hcall)
  have hfounded := h.founded call hcall
  obtain ⟨w, origin⟩ := call
  cases w with
  | seed userId now c' =>
    obtain rfl := Option.some.inj hseeds
    exact ⟨userId, hbacked, hfounded.2⟩
  | create userId now body => cases hseeds
  | addMember read userId role now => cases hseeds
  | update read new now => cases hseeds
  | delete c => cases hseeds
  | event userId now c body => cases hseeds
  | rsvp userId now eventId response => cases hseeds
  | resource userId now c body => cases hseeds

/-! ## Commits that keep to the charter -/

theorem owners_insert (members : Serial CommunityMember.id) {new : ℤ → CommunityMember}
    (hnew : ∀ k, (new k).id = k) (c : ℤ) :
    (members.insert new hnew).rows.filter
        (fun member => member.communityId = c && member.role = .OWNER) =
      members.rows.filter (fun member => member.communityId = c && member.role = .OWNER) ++
        if (new members.next).communityId = c ∧ (new members.next).role = .OWNER
          then [new members.next] else [] := by
  rw [Serial.filter_insert]
  exact congrArg (_ ++ ·) (if_congr (by simp) rfl rfl)

/-- The second commit of `create_community`, when the community is there. -/
theorem apply_seed (hsome : (db.communities.find c).isSome) (userId : ℤ) (now : Time) :
    (Write.seed userId now c).apply db =
      ({ db with
          members := db.members.insert (newMember c userId .OWNER now)
            (newMember_id c userId .OWNER now)
          permissions := addPermissions c db.permissions CommunityRole.all }, none) := by
  unfold Write.apply
  dsimp only
  rw [if_pos hsome]

/-- A community after a commit is new, has just got its owner, or has the owners it had. -/
theorem owner_apply (h : Sound db) (hbacked : w.Backed db) (hfounded : Founded db (w, origin))
    (hregular : w.Regular db true) {community : Community}
    (hmem : community ∈ (w.apply db).1.communities.rows) :
    (∃ w' ∈ (w.apply db).2, w'.seeds = some community.id) ∨
      (w.apply db).1.HasOwner community.id community.ownerId ∨
      w.seeds ≠ some community.id ∧ ∃ old ∈ db.communities.rows, old.id = community.id ∧
        old.ownerId = community.ownerId ∧ (w.apply db).1.owners old.id = db.owners old.id := by
  cases w with
  | create userId now body =>
    obtain hold | hnew := List.mem_append.mp hmem
    · exact .inr (.inr ⟨nofun, community, hold, rfl, rfl, rfl⟩)
    · rw [List.mem_singleton.mp hnew]
      exact .inl ⟨_, rfl, rfl⟩
  | seed userId now c =>
    rw [apply_seed hfounded.2] at hmem ⊢
    have howners : ∀ d, Db.owners { db with
        members := db.members.insert (newMember c userId .OWNER now)
          (newMember_id c userId .OWNER now)
        permissions := addPermissions c db.permissions CommunityRole.all } d =
        db.owners d ++ if c = d ∧ CommunityRole.OWNER = .OWNER
          then [newMember c userId .OWNER now db.members.next] else [] :=
      fun d => owners_insert _ (newMember_id c userId .OWNER now) d
    by_cases hid : c = community.id
    · refine .inr (.inl ⟨newMember c userId .OWNER now db.members.next, ?_, ?_⟩)
      · rw [howners, if_pos ⟨hid, rfl⟩, ← hid, h.owners_unseeded hbacked, List.nil_append]
      · exact (hbacked.owner community hmem hid.symm).symm
    · refine .inr (.inr ⟨fun hseeds => hid (Option.some.inj hseeds), community, hmem, rfl, rfl, ?_⟩)
      rw [howners, if_neg fun hn => hid hn.1, List.append_nil]
  | addMember read userId role now =>
    refine .inr (.inr ⟨nofun, ?_⟩)
    unfold Write.apply at hmem ⊢
    dsimp only at hmem ⊢
    split_ifs at hmem ⊢ with hadded
    · obtain ⟨old, hold, hid, howner⟩ :=
        mem_update_owner (read.recount_id now) (read.recount_ownerId now) hmem rfl
      refine ⟨old, hold, hid, howner.symm, ?_⟩
      have hrole : role ≠ .OWNER := by
        rw [Bool.and_eq_true, decide_eq_true_eq] at hadded
        exact fun hrole => hregular rfl hrole hadded
      refine (owners_insert _ (newMember_id read.id userId role now) old.id).trans ?_
      rw [if_neg fun hn => hrole hn.2, List.append_nil]
      rfl
    · exact ⟨community, hmem, rfl, rfl, rfl⟩
  | update read new now => exact hfounded.elim
  | delete c => exact hfounded.elim
  | event userId now c body => exact hfounded.elim
  | rsvp userId now eventId response => exact hfounded.elim
  | resource userId now c body => exact hfounded.elim

theorem mem_addedOrigins {member : CommunityMember}
    (hrows : db'.members.rows = db.members.rows ++ [member]) (origin : Origin) :
    (member.id, origin) ∈ addedOrigins db db' origin := by
  unfold addedOrigins
  rw [hrows, List.drop_left]
  exact List.mem_singleton.mpr rfl

/-- A commit that makes an owner or admin is a second commit of `create_community`, or one of a
    member who ranks as high. -/
theorem granted_apply (hfounded : Founded db call) (hregular : call.1.Regular db true)
    {member : CommunityMember} (hmem : member ∈ (call.1.apply db).1.members.rows)
    (hmanages : member.role.manages = true) : member ∈ db.members.rows ∨
      (member.id, call.2) ∈ addedOrigins db (call.1.apply db).1 call.2 ∧
        call.2.allows member.role := by
  obtain ⟨w, origin⟩ := call
  cases w with
  | create userId now body => exact .inl hmem
  | seed userId now c =>
    obtain ⟨rfl, hsome⟩ := hfounded
    dsimp only at hmem ⊢
    rw [apply_seed hsome] at hmem ⊢
    refine (List.mem_append.mp hmem).imp_right fun hnew => ?_
    obtain rfl := List.mem_singleton.mp hnew
    exact ⟨mem_addedOrigins rfl _, trivial⟩
  | addMember read userId role now =>
    obtain ⟨held, rfl, hheld⟩ := hfounded
    unfold Write.apply at hmem ⊢
    dsimp only at hmem ⊢
    split_ifs at hmem ⊢ with hadded
    · refine (List.mem_append.mp hmem).imp_right fun hnew => ?_
      obtain rfl := List.mem_singleton.mp hnew
      refine ⟨mem_addedOrigins rfl _, held, rfl, ?_⟩
      have hrole : role ≠ .OWNER := by
        rw [Bool.and_eq_true, decide_eq_true_eq] at hadded
        exact fun hrole => hregular rfl hrole hadded
      have hadmin : role.manages = true := hmanages
      show role.rank ≤ held.rank
      revert hrole hadmin hheld
      cases role <;> cases held <;> decide
    · exact .inl hmem
  | update read new now => exact hfounded.elim
  | delete c => exact hfounded.elim
  | event userId now c body => exact hfounded.elim
  | rsvp userId now eventId response => exact hfounded.elim
  | resource userId now c body => exact hfounded.elim

/-- Each community has its owner or is about to get it, and nobody has granted more than they
    held. -/
structure Orderly (s : Charter) : Prop where
  inv : CharterInv s
  owner : ∀ community ∈ s.db.communities.rows,
    (∃ call ∈ s.inFlight, call.1.seeds = some community.id) ∨
      s.db.HasOwner community.id community.ownerId
  granted : ∀ member ∈ s.db.members.rows, member.role.manages = true →
    ∃ origin, (member.id, origin) ∈ s.origins ∧ origin.allows member.role

theorem orderly_start (users : List ℤ) : Orderly (.start users) where
  inv := charterInv_start users
  owner := fun _ h => (by cases h)
  granted := fun _ h => (by cases h)

/-- A commit that is lost, other than the second one of `create_community`. -/
theorem orderly_lost (h : Orderly s) {i : ℕ} (hget : s.inFlight[i]? = some call)
    (hseeds : call.1.seeds = none)
    (hinv : CharterInv { s with inFlight := s.inFlight.eraseIdx i }) :
    Orderly { s with inFlight := s.inFlight.eraseIdx i } where
  inv := hinv
  owner := by
    intro community hmem
    refine (h.owner community hmem).imp_left fun ⟨other, hother, hof⟩ => ?_
    refine ⟨other, mem_eraseIdx_of_ne hother hget ?_, hof⟩
    rintro rfl
    rw [hseeds] at hof
    cases hof
  granted := h.granted

theorem orderly_commit (h : Orderly s) {i : ℕ} (hget : s.inFlight[i]? = some call)
    (hregular : call.1.Regular s.db true) (hinv : CharterInv (s.commit i true call)) :
    Orderly (s.commit i true call) where
  inv := hinv
  owner := by
    intro community hmem
    have hcall := List.mem_of_getElem? hget
    have hbacked := h.inv.overlap.backed call.1 (List.mem_map_of_mem hcall)
    obtain ⟨w, hw, hseeds⟩ | howner | ⟨hne, old, hold, hid, howner, howners⟩ :=
      owner_apply h.inv.overlap.sound hbacked (h.inv.founded call hcall) hregular hmem
    · refine .inl ⟨(w, call.2), List.mem_append_right _ ?_, hseeds⟩
      exact List.mem_map_of_mem (Option.mem_toList.mpr hw)
    · exact .inr howner
    · rw [← hid] at hne ⊢
      obtain ⟨other, hother, hof⟩ | ⟨member, hone, huser⟩ := h.owner old hold
      · refine .inl ⟨other, List.mem_append_left _ (mem_eraseIdx_of_ne hother hget ?_), hof⟩
        rintro rfl
        exact hne hof
      · exact .inr ⟨member, howners.trans hone, huser.trans howner⟩
  granted := by
    intro member hmem hmanages
    obtain hold | ⟨hin, hallows⟩ :=
      granted_apply (h.inv.founded call (List.mem_of_getElem? hget)) hregular hmem hmanages
    · obtain ⟨origin, hin, hallows⟩ := h.granted member hold hmanages
      exact ⟨origin, List.mem_append_left _ hin, hallows⟩
    · exact ⟨call.2, List.mem_append_right _ hin, hallows⟩

theorem orderly_step (h : Orderly s) (hg : Regular s t) (hs : s.step scan t = some s') :
    Orderly s' := by
  have hinv := (charterInv_step h.inv hs).1
  cases t with
  | request a =>
    obtain rfl := Option.some.inj hs
    refine ⟨hinv, fun community hmem => ?_, h.granted⟩
    refine (h.owner community hmem).imp_left fun ⟨call, hcall, hseeds⟩ => ?_
    exact ⟨call, List.mem_append_left _ hcall, hseeds⟩
  | commit i ok =>
    obtain ⟨call, hget, rfl⟩ := Option.map_eq_some_iff.mp hs
    have hregular := hg call hget
    cases ok with
    | true => exact orderly_commit h hget hregular hinv
    | false =>
      refine orderly_lost h hget ?_ hinv
      obtain ⟨w, origin⟩ := call
      cases w with
      | seed userId now c => cases hregular
      | create userId now body => rfl
      | addMember read userId role now => rfl
      | update read new now => rfl
      | delete c => rfl
      | event userId now c body => rfl
      | rsvp userId now eventId response => rfl
      | resource userId now c body => rfl

/-! ## Errors that last -/

/-- A community with two owners. -/
def TwoOwners (db : Db) : Prop :=
  ∃ first ∈ db.members.rows, ∃ second ∈ db.members.rows, first.id ≠ second.id ∧
    first.communityId = second.communityId ∧ first.role = .OWNER ∧ second.role = .OWNER

/-- A community without an owner that nobody is about to set up. -/
def Stranded (s : Charter) : Prop :=
  ∃ c ownerId, Unseeded s.db c ownerId ∧ (s.db.communities.find c).isSome ∧
    ∀ call ∈ s.inFlight, call.1.seeds ≠ some c

def Spoilt (s : Charter) : Prop := CharterInv s ∧ (TwoOwners s.db ∨ Stranded s)

theorem mem_owners {member : CommunityMember} (hmem : member ∈ db.members.rows)
    (hc : member.communityId = c) (hrole : member.role = .OWNER) : member ∈ db.owners c := by
  refine List.mem_filter.mpr ⟨hmem, ?_⟩
  rw [decide_eq_true hc, decide_eq_true hrole]
  rfl

/-- A community that is going to be set up has no owner. -/
theorem not_chartered_of_unseeded (h : CharterInv s) (hu : Unseeded s.db c ownerId)
    (hsome : (s.db.communities.find c).isSome) : ¬ Chartered s := by
  intro hchartered
  obtain ⟨community, hfind⟩ := Option.isSome_iff_exists.mp hsome
  obtain ⟨member, howners, -⟩ := hchartered.owner community (Serial.find_mem hfind)
  have hnone : s.db.owners c = [] := h.overlap.sound.owners_unseeded hu
  rw [Serial.find_key hfind, hnone] at howners
  cases howners

theorem Spoilt.not_chartered (h : Spoilt s) : ¬ Chartered s := by
  obtain ⟨hinv, ⟨first, hfirst, second, hsecond, hne, hsame, hrole, hrole'⟩ |
    ⟨c, ownerId, hu, hsome, -⟩⟩ := h
  · intro hchartered
    obtain ⟨ownerId, hsetUp⟩ := hinv.overlap.sound.members first hfirst
    obtain ⟨community, hmem, hid, -⟩ := hsetUp.community
    obtain ⟨member, howners, -⟩ := hchartered.owner community hmem
    have hone := mem_owners hfirst hid.symm hrole
    have hother := mem_owners hsecond (hsame.symm.trans hid.symm) hrole'
    rw [howners] at hone hother
    rw [List.mem_singleton.mp hone, List.mem_singleton.mp hother] at hne
    exact hne rfl
  · exact not_chartered_of_unseeded hinv hu hsome

theorem stranded_commit (h : CharterInv s) {i : ℕ} (hget : s.inFlight[i]? = some call) (ok : Bool)
    (hstranded : Stranded s) : Stranded (s.commit i ok call) := by
  obtain ⟨c, ownerId, hu, hsome, hnone⟩ := hstranded
  have hcall := List.mem_of_getElem? hget
  have hrest : ∀ other ∈ s.inFlight.eraseIdx i, other.1.seeds ≠ some c := fun other hother =>
    hnone other ((List.eraseIdx_sublist ..).subset hother)
  unfold Charter.commit
  split_ifs
  · have hcommitted := committed_apply h.overlap.sound
      (h.overlap.backed call.1 (List.mem_map_of_mem hcall))
    refine ⟨c, ownerId, hcommitted.unseeded c ownerId (hnone call hcall) hu,
      (h.founded call hcall).apply.1 c hsome, fun other hother => ?_⟩
    obtain hold | hnew := List.mem_append.mp hother
    · exact hrest other hold
    · obtain ⟨w, hw, rfl⟩ := List.mem_map.mp hnew
      obtain hlast | ⟨userId, now, body, hcreate⟩ := apply_snd (w := call.1) s.db
      · rw [hlast] at hw
        cases hw
      · rw [hcreate] at hw
        obtain rfl := List.mem_singleton.mp hw
        exact fun hseeds => Int.ne_of_gt hu.given (Option.some.inj hseeds)
  · exact ⟨c, ownerId, hu, hsome, hrest⟩

theorem spoilt_step (h : Spoilt s) (hs : s.step scan t = some s') : Spoilt s' := by
  obtain ⟨hinv, htwo | hstranded⟩ := h
  · obtain ⟨hinv', hkeeps⟩ := charterInv_step hinv hs
    obtain ⟨first, hfirst, second, hsecond, hof⟩ := htwo
    exact ⟨hinv', .inl ⟨first, hkeeps.members hfirst, second, hkeeps.members hsecond, hof⟩⟩
  · refine ⟨(charterInv_step hinv hs).1, .inr ?_⟩
    cases t with
    | request a =>
      obtain rfl := Option.some.inj hs
      obtain ⟨c, ownerId, hu, hsome, hnone⟩ := hstranded
      refine ⟨c, ownerId, hu, hsome, fun call hcall => ?_⟩
      obtain hold | hnew := List.mem_append.mp hcall
      · exact hnone call hold
      · obtain ⟨w, hw, rfl⟩ := List.mem_map.mp hnew
        have hfirst := (backed_plan hinv.overlap.sound (Option.mem_toList.mp hw)).2
        exact fun hseeds => nomatch hfirst.symm.trans hseeds
    | commit i ok =>
      obtain ⟨call, hget, rfl⟩ := Option.map_eq_some_iff.mp hs
      exact stranded_commit hinv hget ok hstranded

/-- A second commit that is lost leaves the community without an owner. -/
theorem stranded_of_lost (h : CharterInv s) {i : ℕ} (hget : s.inFlight[i]? = some call)
    (hseeds : call.1.seeds = some c) :
    Stranded { s with inFlight := s.inFlight.eraseIdx i } := by
  obtain ⟨ownerId, hu, hsome⟩ := h.unseeded (List.mem_of_getElem? hget) hseeds
  refine ⟨c, ownerId, hu, hsome, fun other hother hsame => ?_⟩
  have hfirst : (s.inFlight.map Prod.fst)[i]? = some call.1 := by
    rw [List.getElem?_map, hget]
    rfl
  have hnodup := (filterMap_eraseIdx_perm Write.seeds hfirst).nodup_iff.mpr h.overlap.once
  rw [hseeds, List.eraseIdx_map] at hnodup
  refine (List.nodup_cons.mp hnodup).1 (List.mem_filterMap.mpr ⟨other.1, ?_, hsame⟩)
  exact List.mem_map_of_mem hother

/-- Another owner. -/
theorem twoOwners_apply {read : Community} {userId : ℤ} {now : Time}
    (hsetUp : SetUp db read.id ownerId) (hsome : (db.communities.find read.id).isSome)
    (huser : userId ∈ db.users) :
    TwoOwners ((Write.addMember read userId .OWNER now).apply db).1 := by
  unfold Write.apply
  dsimp only
  rw [if_pos (by rw [hsome, decide_eq_true huser]; rfl)]
  obtain ⟨first, hfirst, hof, -, hrole⟩ := hsetUp.owner
  refine ⟨first, List.mem_append_left _ hfirst, newMember read.id userId .OWNER now db.members.next,
    List.mem_append_right _ (List.mem_singleton.mpr rfl), ?_, hof, hrole, rfl⟩
  exact (Serial.next_ne hfirst).symm

theorem spoilt_of_not_regular (h : CharterInv s) (hg : ¬ Regular s t)
    (hs : s.step scan t = some s') : Spoilt s' := by
  refine ⟨(charterInv_step h hs).1, ?_⟩
  cases t with
  | request a => exact absurd trivial hg
  | commit i ok =>
    obtain ⟨call, hget, rfl⟩ := Option.map_eq_some_iff.mp hs
    have hcall := List.mem_of_getElem? hget
    have hbacked := h.overlap.backed call.1 (List.mem_map_of_mem hcall)
    have hnot : ¬ call.1.Regular s.db ok := by
      intro hregular
      refine hg fun other hother => ?_
      obtain rfl := Option.some.inj (hget.symm.trans hother)
      exact hregular
    obtain ⟨w, origin⟩ := call
    cases w with
    | seed userId now c =>
      obtain rfl := Bool.eq_false_of_not_eq_true hnot
      exact .inr (stranded_of_lost h hget rfl)
    | addMember read userId role now =>
      unfold Write.Regular at hnot
      dsimp only at hnot
      push Not at hnot
      obtain ⟨rfl, rfl, hsome, huser⟩ := hnot
      obtain ⟨ownerId, hsetUp⟩ := hbacked
      exact .inl (twoOwners_apply hsetUp hsome huser)
    | create userId now body => exact absurd trivial hnot
    | update read new now => exact absurd trivial hnot
    | delete c => exact absurd trivial hnot
    | event userId now c body => exact absurd trivial hnot
    | rsvp userId now eventId response => exact absurd trivial hnot
    | resource userId now c body => exact absurd trivial hnot

end Invariant

/-- In every reachable state each community has its one owner, and nobody has granted more than
    they held, if and only if no `create_community` is between its two commits, none has lost
    its second one, and nobody has been added as an owner. -/
theorem chartered_iff {scan : Scan} {users : List ℤ} {turns : List Turn} {s : Charter}
    (hrun : run (Charter.step scan) (.start users) turns = some s) :
    Chartered s ↔ s.Settled ∧ Guarded (Charter.step scan) Regular (.start users) turns := by
  constructor
  · intro h
    refine ⟨fun call hcall => ?_, ?_⟩
    · have hinv := run_invariant (fun _ _ _ h hs => (charterInv_step h hs).1)
        (charterInv_start users) hrun
      by_contra hne
      obtain ⟨c, hseeds⟩ := Option.ne_none_iff_exists'.mp hne
      obtain ⟨ownerId, hu, hsome⟩ := hinv.unseeded hcall hseeds
      exact not_chartered_of_unseeded hinv hu hsome h
    · obtain hguarded | hspoilt := guarded_or_lasting (G := Regular) (I := CharterInv)
        (B := Spoilt) (fun _ _ _ h _ hs => (charterInv_step h hs).1)
        (fun _ _ _ h hg hs => spoilt_of_not_regular h hg hs) (fun _ _ _ h hs => spoilt_step h hs)
        (charterInv_start users) hrun
      · exact hguarded
      · exact absurd h hspoilt.not_chartered
  · rintro ⟨hsettled, hguarded⟩
    have h : Orderly s :=
      hguarded.invariant (fun _ _ _ h hg hs => orderly_step h hg hs) (orderly_start users) hrun
    refine ⟨fun community hmem => ?_, h.granted⟩
    obtain ⟨call, hcall, hseeds⟩ | howner := h.owner community hmem
    · rw [hsettled call hcall] at hseeds
      cases hseeds
    · exact howner

instance (db : Db) (ok : Bool) : (w : Write) → Decidable (w.Regular db ok)
  | .seed .. => inferInstanceAs (Decidable (ok = true))
  | .addMember read userId role _ => inferInstanceAs (Decidable (ok = true → role = .OWNER →
      ¬ ((db.communities.find read.id).isSome ∧ userId ∈ db.users)))
  | .create .. => isTrue trivial
  | .update .. => isTrue trivial
  | .delete _ => isTrue trivial
  | .event .. => isTrue trivial
  | .rsvp .. => isTrue trivial
  | .resource .. => isTrue trivial

instance (s : Charter) : (t : Turn) → Decidable (Regular s t)
  | .request _ => isTrue trivial
  | .commit i ok => inferInstanceAs (Decidable (∀ call ∈ s.inFlight[i]?, call.1.Regular s.db ok))

/-- User `1` creates a community and makes user `2` an admin. -/
def garden : List Turn :=
  [.request (.create 1 0 ⟨"Garden", none, none, garden_le, noCategory_le⟩), .commit 0 true,
    .commit 0 true, .request (.add 1 1 1 ⟨2, .ADMIN⟩), .commit 0 true]

theorem chartered_garden :
    ∃ s, run (Charter.step .inserted) (.start [1, 2, 3]) garden = some s ∧ Chartered s := by
  have hruns : (run (Charter.step .inserted) (.start [1, 2, 3]) garden).map
      (fun s => s.inFlight.length) = some 0 := by decide +kernel
  obtain ⟨s, hrun, hlength⟩ := Option.map_eq_some_iff.mp hruns
  refine ⟨s, hrun, (chartered_iff hrun).mpr ⟨fun call hcall => ?_, by decide +kernel⟩⟩
  rw [List.length_eq_zero_iff.mp hlength] at hcall
  cases hcall

/-- The admin adds user `3` as an owner: the community has two, one of whom an admin has made. -/
theorem usurped : ∃ s, run (Charter.step .inserted) (.start [1, 2, 3])
      (garden ++ [.request (.add 2 2 1 ⟨3, .OWNER⟩), .commit 0 true]) = some s ∧ s.Settled ∧
    (s.db.owners 1).map CommunityMember.userId = [1, 3] ∧
      (3, .granted (some .ADMIN)) ∈ s.origins ∧ ¬ Chartered s := by
  have hends : (run (Charter.step .inserted) (.start [1, 2, 3])
      (garden ++ [.request (.add 2 2 1 ⟨3, .OWNER⟩), .commit 0 true])).map (fun s =>
      (s.inFlight.length, s.db.communities.rows.map Community.id,
        (s.db.owners 1).map CommunityMember.userId, s.origins)) =
      some (0, [1], [1, 3], [(1, .created), (2, .granted (some .OWNER)),
        (3, .granted (some .ADMIN))]) := by
    decide +kernel
  obtain ⟨s, hrun, hs⟩ := Option.map_eq_some_iff.mp hends
  obtain ⟨hlength, hrest⟩ := Prod.mk.inj hs
  obtain ⟨hcommunities, hrest⟩ := Prod.mk.inj hrest
  obtain ⟨howners, horigins⟩ := Prod.mk.inj hrest
  refine ⟨s, hrun, fun call hcall => ?_, howners, ?_, fun h => ?_⟩
  · rw [List.length_eq_zero_iff.mp hlength] at hcall
    cases hcall
  · rw [horigins]
    decide
  · have hmem : (1 : ℤ) ∈ s.db.communities.rows.map Community.id := by
      rw [hcommunities]
      decide
    obtain ⟨community, hin, hid⟩ := List.mem_map.mp hmem
    obtain ⟨member, hone, -⟩ := h.owner community hin
    rw [hid] at hone
    rw [hone] at howners
    have hlength := congrArg List.length howners
    simp at hlength

end IronLink.Communities
