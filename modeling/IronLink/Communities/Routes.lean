import IronLink.Common.Orm
import IronLink.Lib.Run
import IronLink.Lib.Serial

/-!
# Communities

The router of backend/app/api/routes/communities.py on the tables of
backend/app/models/community.py. A request is one transaction here, `create_community` included,
which commits twice: the commits by themselves are in `IronLink.Communities.Commits`.
-/

namespace IronLink.Communities

open Lib Auth Orm

/-! ## Tables -/

/-- `CommunityRole` (backend/app/models/community.py:7-11). -/
inductive CommunityRole
  | OWNER
  | ADMIN
  | MODERATOR
  | MEMBER
  deriving DecidableEq

/-- The roles in the order in which `create_community` goes through them. -/
def CommunityRole.all : List CommunityRole := [.OWNER, .ADMIN, .MODERATOR, .MEMBER]

/-- `role in [CommunityRole.OWNER, CommunityRole.ADMIN]`. -/
def CommunityRole.manages (role : CommunityRole) : Bool := role = .OWNER || role = .ADMIN

/-- `role in [CommunityRole.OWNER, CommunityRole.ADMIN, CommunityRole.MODERATOR]`. -/
def CommunityRole.moderates (role : CommunityRole) : Bool := role.manages || role = .MODERATOR

/-- `Community` (backend/app/models/community.py:13-28). -/
structure Community where
  id : ℤ
  name : String
  description : Option String
  ownerId : ℤ
  createdAt : Time
  updatedAt : Option Time
  isVerified : Option Bool
  category : Option String
  memberCount : ℤ
  deriving DecidableEq

/-- `CommunityMember` (backend/app/models/community.py:30-40). -/
structure CommunityMember where
  id : ℤ
  communityId : ℤ
  userId : ℤ
  role : CommunityRole
  joinedAt : Time
  deriving DecidableEq

/-- The row is that of the user in the community. -/
def CommunityMember.of (communityId userId : ℤ) (member : CommunityMember) : Bool :=
  member.communityId = communityId && member.userId = userId

/-- `CommunityPermission` (backend/app/models/community.py:42-57). -/
structure CommunityPermission where
  id : ℤ
  communityId : ℤ
  role : CommunityRole
  canPost : Bool
  canComment : Bool
  canDeleteOwnPosts : Bool
  canDeleteAnyPosts : Bool
  canMuteMembers : Bool
  canBanMembers : Bool
  canInviteMembers : Bool
  canChangeSettings : Bool
  deriving DecidableEq

/-- `CommunityEvent` (backend/app/models/community.py:59-75). -/
structure CommunityEvent where
  id : ℤ
  communityId : ℤ
  title : String
  description : Option String
  startTime : Time
  endTime : Option Time
  location : Option String
  createdBy : ℤ
  createdAt : Time
  updatedAt : Option Time
  deriving DecidableEq

/-- `CommunityEventRSVP` (backend/app/models/community.py:77-87). -/
structure CommunityEventRSVP where
  id : ℤ
  eventId : ℤ
  userId : ℤ
  response : String
  respondedAt : Time
  deriving DecidableEq

/-- `CommunityResource` (backend/app/models/community.py:89-101). -/
structure CommunityResource where
  id : ℤ
  communityId : ℤ
  title : String
  url : Option String
  resourceType : Option String
  createdBy : ℤ
  createdAt : Time
  deriving DecidableEq

/-- The tables of the router; `users` are the ids of `users`, which it does not write. -/
structure Db where
  users : List ℤ
  communities : Serial Community.id
  members : Serial CommunityMember.id
  permissions : Serial CommunityPermission.id
  events : Serial CommunityEvent.id
  rsvps : Serial CommunityEventRSVP.id
  resources : Serial CommunityResource.id

def Db.empty (users : List ℤ) : Db :=
  ⟨users, .empty _, .empty _, .empty _, .empty _, .empty _, .empty _⟩

/-! ## Queries -/

/-- The community of a request (e.g. backend/app/api/routes/communities.py:78-80). -/
def Db.community (db : Db) (communityId : ℤ) : Except HttpError Community :=
  match db.communities.find communityId with
  | none => .error ⟨404, "Community not found"⟩
  | some community => .ok community

/-- The community of a request that only its owner may make
    (backend/app/api/routes/communities.py:93-97, 113-117). -/
def Db.ownCommunity (db : Db) (communityId userId : ℤ) : Except HttpError Community :=
  match db.community communityId with
  | .error err => .error err
  | .ok community =>
    if community.ownerId = userId then .ok community else .error ⟨403, "Not enough permissions"⟩

/-- The user's row in the community (e.g. backend/app/api/routes/communities.py:139-142). -/
def Db.membership (scan : Scan) (db : Db) (communityId userId : ℤ) : Option CommunityMember :=
  scan.first (CommunityMember.of communityId userId) db.members.rows

/-- The row of a user who must be owner or admin, and the error for others
    (backend/app/api/routes/communities.py:139-144, 196-201, 292-297). -/
def Db.manager (scan : Scan) (db : Db) (communityId userId : ℤ) (detail : String) :
    Except HttpError CommunityMember :=
  match db.membership scan communityId userId with
  | none => .error ⟨403, detail⟩
  | some member => if member.role.manages then .ok member else .error ⟨403, detail⟩

/-! ## Responses -/

/-- `CommunityResponse` (backend/app/schemas/community.py:21-30). -/
structure CommunityResponse where
  id : ℤ
  name : String
  description : Option String
  category : Option String
  ownerId : ℤ
  createdAt : Time
  updatedAt : Option Time
  isVerified : Bool
  memberCount : ℤ
  deriving DecidableEq

/-- FastAPI answers 500 when a row is not what the response model says: `is_verified` may be
    NULL in the table and not in the response. -/
def Community.respond (community : Community) : Except HttpError CommunityResponse :=
  match community.isVerified with
  | none => .error internalServerError
  | some isVerified =>
    .ok
      { id := community.id
        name := community.name
        description := community.description
        category := community.category
        ownerId := community.ownerId
        createdAt := community.createdAt
        updatedAt := community.updatedAt
        isVerified := isVerified
        memberCount := community.memberCount }

/-! ## Communities -/

/-- `CommunityCreate` (backend/app/schemas/community.py:7-13). Other bodies are refused with 422
    before the handler runs, here and below. -/
structure CommunityCreate where
  name : String
  description : Option String
  category : Option String
  name_le : name.length ≤ 100
  category_le : ∀ text ∈ category, text.length ≤ 50

def CommunityCreate.storable (body : CommunityCreate) : Bool :=
  textTakes body.name && body.description.all textTakes && body.category.all textTakes

/-- The row that `create_community` adds; `member_count` gets its default. -/
def newCommunity (userId : ℤ) (now : Time) (body : CommunityCreate) (id : ℤ) : Community :=
  { id := id
    name := body.name
    description := body.description
    ownerId := userId
    createdAt := now
    updatedAt := none
    isVerified := some false
    category := body.category
    memberCount := 0 }

@[simp] theorem newCommunity_id (userId : ℤ) (now : Time) (body : CommunityCreate) (id : ℤ) :
    (newCommunity userId now body id).id = id := rfl

/-- A row that `create_community` or `add_community_member` adds. -/
def newMember (communityId userId : ℤ) (role : CommunityRole) (now : Time) (id : ℤ) :
    CommunityMember :=
  ⟨id, communityId, userId, role, now⟩

@[simp] theorem newMember_id (communityId userId : ℤ) (role : CommunityRole) (now : Time)
    (id : ℤ) : (newMember communityId userId role now id).id = id := rfl

/-- The default permissions of a role (backend/app/api/routes/communities.py:40-51). -/
def newPermission (communityId : ℤ) (role : CommunityRole) (id : ℤ) : CommunityPermission :=
  { id := id
    communityId := communityId
    role := role
    canPost := role ∈ CommunityRole.all
    canComment := role ∈ CommunityRole.all
    canDeleteOwnPosts := role ∈ CommunityRole.all
    canDeleteAnyPosts := role.manages
    canMuteMembers := role.moderates
    canBanMembers := role.manages
    canInviteMembers := role.moderates
    canChangeSettings := role.manages }

@[simp] theorem newPermission_id (communityId : ℤ) (role : CommunityRole) (id : ℤ) :
    (newPermission communityId role id).id = id := rfl

/-- The loop over the roles (backend/app/api/routes/communities.py:39-52). -/
def addPermissions (communityId : ℤ) (permissions : Serial CommunityPermission.id)
    (roles : List CommunityRole) : Serial CommunityPermission.id :=
  roles.foldl
    (fun table role =>
      table.insert (newPermission communityId role) (newPermission_id communityId role))
    permissions

/-- The tables after both commits of `create_community`. -/
def Db.createCommunity (db : Db) (userId : ℤ) (now : Time) (body : CommunityCreate) : Db :=
  { db with
    communities := db.communities.insert (newCommunity userId now body)
      (newCommunity_id userId now body)
    members := db.members.insert (newMember db.communities.next userId .OWNER now)
      (newMember_id db.communities.next userId .OWNER now)
    permissions := addPermissions db.communities.next db.permissions CommunityRole.all }

/-- `create_community` (backend/app/api/routes/communities.py:12-54). -/
def createCommunity (db : Db) (userId : ℤ) (now : Time) (body : CommunityCreate) :
    Except HttpError CommunityResponse × Db :=
  if body.storable then
    ((newCommunity userId now body db.communities.next).respond,
      db.createCommunity userId now body)
  else (.error internalServerError, db)

/-- `read_communities` (backend/app/api/routes/communities.py:56-67). -/
def readCommunities (scan : Scan) (db : Db) (skip limit : ℤ) :
    Except HttpError (List CommunityResponse) :=
  match scan.page skip limit db.communities.rows with
  | .error err => .error err
  | .ok communities => communities.mapM Community.respond

/-- `read_community` (backend/app/api/routes/communities.py:69-81). -/
def readCommunity (db : Db) (communityId : ℤ) : Except HttpError CommunityResponse :=
  match db.community communityId with
  | .error err => .error err
  | .ok community => community.respond

/-- `CommunityUpdate` (backend/app/schemas/community.py:15-19): `none` is a field that is left out,
    `some none` one that is null. -/
structure CommunityUpdate where
  name : Option (Option String)
  description : Option (Option String)
  category : Option (Option String)
  isVerified : Option (Option Bool)
  name_le : ∀ text ∈ name.join, text.length ≤ 100
  category_le : ∀ text ∈ category.join, text.length ≤ 50

def CommunityUpdate.storable (body : CommunityUpdate) : Bool :=
  body.name.join.all textTakes && body.description.join.all textTakes &&
    body.category.join.all textTakes

/-- The row with the fields that are set; `none`: one that must not be NULL would be. -/
def CommunityUpdate.apply (body : CommunityUpdate) (community : Community) : Option Community :=
  (body.name.getD (some community.name)).map fun name =>
    { community with
      name := name
      description := body.description.getD community.description
      category := body.category.getD community.category
      isVerified := body.isVerified.getD community.isVerified }

/-- The row after the commit: an `UPDATE` is sent only when something has changed, and sets
    `updated_at`. -/
def Community.commit (community new : Community) (now : Time) : Community :=
  if new = community then community else { new with id := community.id, updatedAt := some now }

@[simp] theorem Community.commit_id (community new : Community) (now : Time) :
    (community.commit new now).id = community.id := by
  unfold Community.commit
  split_ifs <;> rfl

/-- `update_community` (backend/app/api/routes/communities.py:83-102). -/
def updateCommunity (db : Db) (userId : ℤ) (now : Time) (communityId : ℤ)
    (body : CommunityUpdate) : Except HttpError CommunityResponse × Db :=
  match db.ownCommunity communityId userId with
  | .error err => (.error err, db)
  | .ok community =>
    match body.apply community with
    | none => (.error internalServerError, db)
    | some new =>
      if body.storable then
        ((community.commit new now).respond,
          { db with
            communities := db.communities.update communityId (·.commit new now)
              fun row => row.commit_id new now })
      else (.error internalServerError, db)

/-- Members, events with their answers, and resources are deleted with their community. The
    ORM knows no way from a community to its permissions: they stay, and keep the community
    from being deleted. -/
def Db.deleteCommunity (db : Db) (communityId : ℤ) : Option Db :=
  if db.permissions.rows.any fun permission => permission.communityId = communityId then none
  else some
    { db with
      communities := db.communities.delete fun community => community.id = communityId
      members := db.members.delete fun member => member.communityId = communityId
      events := db.events.delete fun event => event.communityId = communityId
      rsvps := db.rsvps.delete fun rsvp =>
        db.events.rows.any fun event => event.communityId = communityId && event.id = rsvp.eventId
      resources := db.resources.delete fun resource => resource.communityId = communityId }

/-- `delete_community` (backend/app/api/routes/communities.py:104-120). -/
def deleteCommunity (db : Db) (userId communityId : ℤ) :
    Except HttpError CommunityResponse × Db :=
  match db.ownCommunity communityId userId with
  | .error err => (.error err, db)
  | .ok community =>
    match db.deleteCommunity communityId with
    | none => (.error internalServerError, db)
    | some db' => (community.respond, db')

/-! ## Members -/

/-- `CommunityMemberCreate` (backend/app/schemas/community.py:32-36). -/
structure CommunityMemberCreate where
  userId : ℤ
  role : CommunityRole

/-- Whether the user may be added (backend/app/api/routes/communities.py:146-151). -/
def Db.notMember (scan : Scan) (db : Db) (communityId userId : ℤ) : Except HttpError Unit :=
  if (db.membership scan communityId userId).isSome then
    .error ⟨400, "User is already a member of this community"⟩
  else .ok ()

/-- The row after `community.member_count += 1` and the commit. -/
def Community.countMember (now : Time) (community : Community) : Community :=
  { community with memberCount := community.memberCount + 1, updatedAt := some now }

@[simp] theorem Community.countMember_id (now : Time) (community : Community) :
    (community.countMember now).id = community.id := rfl

/-- The tables after the commit of `add_community_member`. -/
def Db.addMember (db : Db) (now : Time) (communityId : ℤ) (body : CommunityMemberCreate) : Db :=
  { db with
    members := db.members.insert (newMember communityId body.userId body.role now)
      (newMember_id communityId body.userId body.role now)
    communities := db.communities.update communityId (Community.countMember now)
      (Community.countMember_id now) }

/-- `add_community_member` (backend/app/api/routes/communities.py:123-162). -/
def addCommunityMember (scan : Scan) (db : Db) (userId : ℤ) (now : Time) (communityId : ℤ)
    (body : CommunityMemberCreate) : Except HttpError CommunityMember × Db :=
  match db.community communityId with
  | .error err => (.error err, db)
  | .ok _ =>
    match db.manager scan communityId userId "Not enough permissions to invite members" with
    | .error err => (.error err, db)
    | .ok _ =>
      match db.notMember scan communityId body.userId with
      | .error err => (.error err, db)
      | .ok _ =>
        if body.userId ∈ db.users then
          (.ok (newMember communityId body.userId body.role now db.members.next),
            db.addMember now communityId body)
        else (.error internalServerError, { db with members := db.members.skip })

/-- `read_community_members` (backend/app/api/routes/communities.py:164-179). -/
def readCommunityMembers (scan : Scan) (db : Db) (communityId skip limit : ℤ) :
    Except HttpError (List CommunityMember) :=
  match db.community communityId with
  | .error err => .error err
  | .ok _ =>
    scan.page skip limit (db.members.rows.filter fun member => member.communityId = communityId)

/-! ## Events -/

/-- `CommunityEventCreate` (backend/app/schemas/community.py:63-71). -/
structure CommunityEventCreate where
  title : String
  description : Option String
  startTime : Time
  endTime : Option Time
  location : Option String
  title_le : title.length ≤ 200
  location_le : ∀ text ∈ location, text.length ≤ 255

def CommunityEventCreate.storable (body : CommunityEventCreate) : Bool :=
  textTakes body.title && body.description.all textTakes && body.location.all textTakes

def newEvent (userId : ℤ) (now : Time) (communityId : ℤ) (body : CommunityEventCreate) (id : ℤ) :
    CommunityEvent :=
  { id := id
    communityId := communityId
    title := body.title
    description := body.description
    startTime := body.startTime
    endTime := body.endTime
    location := body.location
    createdBy := userId
    createdAt := now
    updatedAt := none }

@[simp] theorem newEvent_id (userId : ℤ) (now : Time) (communityId : ℤ)
    (body : CommunityEventCreate) (id : ℤ) : (newEvent userId now communityId body id).id = id :=
  rfl

/-- `create_community_event` (backend/app/api/routes/communities.py:182-214). -/
def createCommunityEvent (scan : Scan) (db : Db) (userId : ℤ) (now : Time) (communityId : ℤ)
    (body : CommunityEventCreate) : Except HttpError CommunityEvent × Db :=
  match db.community communityId with
  | .error err => (.error err, db)
  | .ok _ =>
    match db.manager scan communityId userId "Not enough permissions to create events" with
    | .error err => (.error err, db)
    | .ok _ =>
      if body.storable then
        (.ok (newEvent userId now communityId body db.events.next),
          { db with
            events := db.events.insert (newEvent userId now communityId body)
              (newEvent_id userId now communityId body) })
      else (.error internalServerError, db)

/-- `read_community_events` (backend/app/api/routes/communities.py:216-231). -/
def readCommunityEvents (scan : Scan) (db : Db) (communityId skip limit : ℤ) :
    Except HttpError (List CommunityEvent) :=
  match db.community communityId with
  | .error err => .error err
  | .ok _ =>
    scan.page skip limit (db.events.rows.filter fun event => event.communityId = communityId)

/-- `CommunityEventRSVPCreate` (backend/app/schemas/community.py:83-87). -/
structure CommunityEventRSVPCreate where
  response : String
  response_le : response.length ≤ 20

def newRSVP (userId : ℤ) (now : Time) (eventId : ℤ) (response : String) (id : ℤ) :
    CommunityEventRSVP :=
  ⟨id, eventId, userId, response, now⟩

@[simp] theorem newRSVP_id (userId : ℤ) (now : Time) (eventId : ℤ) (response : String) (id : ℤ) :
    (newRSVP userId now eventId response id).id = id := rfl

/-- The event of the community (backend/app/api/routes/communities.py:247-252). -/
def Db.event (db : Db) (communityId eventId : ℤ) : Except HttpError CommunityEvent :=
  match db.events.find eventId with
  | none => .error ⟨404, "Event not found"⟩
  | some event =>
    if event.communityId = communityId then .ok event else .error ⟨404, "Event not found"⟩

/-- Whether the user may answer (backend/app/api/routes/communities.py:253-266). -/
def Db.mayRSVP (scan : Scan) (db : Db) (communityId eventId userId : ℤ) : Except HttpError Unit :=
  if (db.membership scan communityId userId).isNone then
    .error ⟨403, "You must be a member of the community to RSVP"⟩
  else if (scan.first (fun rsvp => rsvp.eventId = eventId && rsvp.userId = userId)
      db.rsvps.rows).isSome then
    .error ⟨400, "You have already RSVP'd to this event"⟩
  else .ok ()

/-- `rsvp_to_community_event` (backend/app/api/routes/communities.py:233-275). -/
def rsvpToCommunityEvent (scan : Scan) (db : Db) (userId : ℤ) (now : Time)
    (communityId eventId : ℤ) (body : CommunityEventRSVPCreate) :
    Except HttpError CommunityEventRSVP × Db :=
  match db.community communityId with
  | .error err => (.error err, db)
  | .ok _ =>
    match db.event communityId eventId with
    | .error err => (.error err, db)
    | .ok _ =>
      match db.mayRSVP scan communityId eventId userId with
      | .error err => (.error err, db)
      | .ok _ =>
        if textTakes body.response then
          (.ok (newRSVP userId now eventId body.response db.rsvps.next),
            { db with
              rsvps := db.rsvps.insert (newRSVP userId now eventId body.response)
                (newRSVP_id userId now eventId body.response) })
        else (.error internalServerError, db)

/-! ## Resources -/

/-- `CommunityResourceCreate` (backend/app/schemas/community.py:98-104). -/
structure CommunityResourceCreate where
  title : String
  url : Option String
  resourceType : Option String
  title_le : title.length ≤ 200
  url_le : ∀ text ∈ url, text.length ≤ 500
  resourceType_le : ∀ text ∈ resourceType, text.length ≤ 50

def CommunityResourceCreate.storable (body : CommunityResourceCreate) : Bool :=
  textTakes body.title && body.url.all textTakes && body.resourceType.all textTakes

def newResource (userId : ℤ) (now : Time) (communityId : ℤ) (body : CommunityResourceCreate)
    (id : ℤ) : CommunityResource :=
  ⟨id, communityId, body.title, body.url, body.resourceType, userId, now⟩

@[simp] theorem newResource_id (userId : ℤ) (now : Time) (communityId : ℤ)
    (body : CommunityResourceCreate) (id : ℤ) :
    (newResource userId now communityId body id).id = id := rfl

/-- `add_community_resource` (backend/app/api/routes/communities.py:278-308). -/
def addCommunityResource (scan : Scan) (db : Db) (userId : ℤ) (now : Time) (communityId : ℤ)
    (body : CommunityResourceCreate) : Except HttpError CommunityResource × Db :=
  match db.community communityId with
  | .error err => (.error err, db)
  | .ok _ =>
    match db.manager scan communityId userId "Not enough permissions to add resources" with
    | .error err => (.error err, db)
    | .ok _ =>
      if body.storable then
        (.ok (newResource userId now communityId body db.resources.next),
          { db with
            resources := db.resources.insert (newResource userId now communityId body)
              (newResource_id userId now communityId body) })
      else (.error internalServerError, db)

/-- `read_community_resources` (backend/app/api/routes/communities.py:310-325). -/
def readCommunityResources (scan : Scan) (db : Db) (communityId skip limit : ℤ) :
    Except HttpError (List CommunityResource) :=
  match db.community communityId with
  | .error err => .error err
  | .ok _ =>
    scan.page skip limit
      (db.resources.rows.filter fun resource => resource.communityId = communityId)

/-! ## Calls -/

inductive Request
  | create (body : CommunityCreate)
  | list (skip limit : ℤ)
  | read (communityId : ℤ)
  | update (communityId : ℤ) (body : CommunityUpdate)
  | delete (communityId : ℤ)
  | addMember (communityId : ℤ) (body : CommunityMemberCreate)
  | members (communityId skip limit : ℤ)
  | createEvent (communityId : ℤ) (body : CommunityEventCreate)
  | events (communityId skip limit : ℤ)
  | rsvp (communityId eventId : ℤ) (body : CommunityEventRSVPCreate)
  | addResource (communityId : ℤ) (body : CommunityResourceCreate)
  | resources (communityId skip limit : ℤ)

/-- A request, who makes it and when. -/
structure Call where
  userId : ℤ
  now : Time
  request : Request

inductive Body
  | community (response : CommunityResponse)
  | communities (responses : List CommunityResponse)
  | member (member : CommunityMember)
  | members (members : List CommunityMember)
  | event (event : CommunityEvent)
  | events (events : List CommunityEvent)
  | rsvp (rsvp : CommunityEventRSVP)
  | resource (resource : CommunityResource)
  | resources (resources : List CommunityResource)
  deriving DecidableEq

/-- The response and the tables after a call. -/
def serve (scan : Scan) (db : Db) (call : Call) : Except HttpError Body × Db :=
  match call.request with
  | .create body => (createCommunity db call.userId call.now body).map (·.map .community) id
  | .list skip limit => ((readCommunities scan db skip limit).map .communities, db)
  | .read communityId => ((readCommunity db communityId).map .community, db)
  | .update communityId body =>
    (updateCommunity db call.userId call.now communityId body).map (·.map .community) id
  | .delete communityId =>
    (deleteCommunity db call.userId communityId).map (·.map .community) id
  | .addMember communityId body =>
    (addCommunityMember scan db call.userId call.now communityId body).map (·.map .member) id
  | .members communityId skip limit =>
    ((readCommunityMembers scan db communityId skip limit).map .members, db)
  | .createEvent communityId body =>
    (createCommunityEvent scan db call.userId call.now communityId body).map (·.map .event) id
  | .events communityId skip limit =>
    ((readCommunityEvents scan db communityId skip limit).map .events, db)
  | .rsvp communityId eventId body =>
    (rsvpToCommunityEvent scan db call.userId call.now communityId eventId body).map
      (·.map .rsvp) id
  | .addResource communityId body =>
    (addCommunityResource scan db call.userId call.now communityId body).map (·.map .resource) id
  | .resources communityId skip limit =>
    ((readCommunityResources scan db communityId skip limit).map .resources, db)

/-- Calls, one after another. -/
def step (scan : Scan) (db : Db) (call : Call) : Option Db := some (serve scan db call).2

/-! ## What the checks let pass -/

variable {scan : Scan} {db db' : Db} {c userId : ℤ} {community : Community}
  {member : CommunityMember} {detail : String}

theorem community_ok (h : db.community c = .ok community) :
    db.communities.find c = some community ∧ community.id = c := by
  unfold Db.community at h
  cases hfind : db.communities.find c with
  | none =>
    rw [hfind] at h
    cases h
  | some found =>
    rw [hfind] at h
    cases h
    exact ⟨rfl, Serial.find_key hfind⟩

theorem manager_ok (h : db.manager scan c userId detail = .ok member) :
    db.membership scan c userId = some member ∧ member.role.manages = true := by
  unfold Db.manager at h
  cases hmember : db.membership scan c userId with
  | none =>
    rw [hmember] at h
    cases h
  | some found =>
    rw [hmember] at h
    dsimp only at h
    split_ifs at h with hmanages
    cases h
    exact ⟨rfl, hmanages⟩

theorem notMember_ok (h : db.notMember scan c userId = .ok ()) :
    db.membership scan c userId = none := by
  unfold Db.notMember at h
  split_ifs at h with hsome
  exact Option.not_isSome_iff_eq_none.mp hsome

/-- A community with a row of permissions is not deleted, and with the others go their members,
    events, answers and resources. -/
theorem deleteCommunity_eq_some :
    db.deleteCommunity c = some db' ↔
      (∀ row ∈ db.permissions.rows, row.communityId ≠ c) ∧ db' =
        { db with
          communities := db.communities.delete fun community => community.id = c
          members := db.members.delete fun member => member.communityId = c
          events := db.events.delete fun event => event.communityId = c
          rsvps := db.rsvps.delete fun rsvp =>
            db.events.rows.any fun event => event.communityId = c && event.id = rsvp.eventId
          resources := db.resources.delete fun resource => resource.communityId = c } := by
  unfold Db.deleteCommunity
  rw [unless_any_eq_some]
  simp only [decide_eq_false_iff_not]

end IronLink.Communities
