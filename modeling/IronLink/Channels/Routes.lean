import IronLink.Common.Orm
import IronLink.Lib.Run
import IronLink.Lib.Serial

/-!
# Channels

The router of backend/app/api/routes/channels.py on the tables of backend/app/models/channel.py.
A request is one transaction here; `Channels.Subscribers` takes subscribing apart.

Result: `serve_effect`, what a call does to the tables, in a case for each route.
-/

namespace IronLink.Channels

open Lib Auth Orm

/-! ## Tables -/

/-- `ChannelType` (backend/app/models/channel.py:7-9). -/
inductive ChannelType
  | PUBLIC
  | PRIVATE
  deriving DecidableEq

/-- `Channel` (backend/app/models/channel.py:11-27). -/
structure Channel where
  id : ℤ
  name : String
  description : Option String
  type : ChannelType
  ownerId : ℤ
  createdAt : Time
  updatedAt : Option Time
  isVerified : Option Bool
  category : Option String
  subscriberCount : ℤ
  deriving DecidableEq

/-- `ChannelPost` (backend/app/models/channel.py:29-45). -/
structure ChannelPost where
  id : ℤ
  channelId : ℤ
  authorId : ℤ
  content : String
  mediaKey : Option String
  mimeType : Option String
  createdAt : Time
  updatedAt : Option Time
  scheduledAt : Option Time
  isScheduled : Bool
  viewCount : ℤ
  deriving DecidableEq

/-- `ChannelSubscription` (backend/app/models/channel.py:47-60). -/
structure ChannelSubscription where
  id : ℤ
  channelId : ℤ
  userId : ℤ
  subscribedAt : Time
  isActive : Bool
  subscriptionPlanId : Option ℤ
  deriving DecidableEq

/-- The row is that of the user on the channel. -/
def ChannelSubscription.of (channelId userId : ℤ) (subscription : ChannelSubscription) : Bool :=
  subscription.channelId = channelId && subscription.userId = userId

/-- `ChannelAnalytics` (backend/app/models/channel.py:62-73). -/
structure ChannelAnalytics where
  id : ℤ
  channelId : ℤ
  date : Time
  newSubscribers : ℤ
  totalViews : ℤ
  totalPosts : ℤ
  engagementRate : ℚ
  deriving DecidableEq

/-- The tables of the router; `plans` are the ids of `subscription_plans`, which it does not
    write. -/
structure Db where
  plans : List ℤ
  channels : Serial Channel.id
  posts : Serial ChannelPost.id
  subscriptions : Serial ChannelSubscription.id
  analytics : Serial ChannelAnalytics.id

def Db.empty (plans : List ℤ) : Db := ⟨plans, .empty _, .empty _, .empty _, .empty _⟩

/-! ## Queries -/

/-- The channel of a request (e.g. backend/app/api/routes/channels.py:55-57). -/
def Db.channel (db : Db) (channelId : ℤ) : Except HttpError Channel :=
  match db.channels.find channelId with
  | none => .error ⟨404, "Channel not found"⟩
  | some channel => .ok channel

/-- The channel of a request that only its owner may make
    (backend/app/api/routes/channels.py:70-74, 90-94). -/
def Db.ownChannel (db : Db) (channelId userId : ℤ) : Except HttpError Channel :=
  match db.channel channelId with
  | .error err => .error err
  | .ok channel =>
    if channel.ownerId = userId then .ok channel else .error ⟨403, "Not enough permissions"⟩

def Db.postsOf (db : Db) (channelId : ℤ) : List ChannelPost :=
  db.posts.rows.filter fun post => post.channelId = channelId

/-! ## Responses -/

/-- `ChannelResponse` (backend/app/schemas/channel.py:22-31). -/
structure ChannelResponse where
  id : ℤ
  name : String
  description : Option String
  type : ChannelType
  category : Option String
  ownerId : ℤ
  createdAt : Time
  updatedAt : Option Time
  isVerified : Bool
  subscriberCount : ℤ
  deriving DecidableEq

/-- FastAPI answers 500 when a row is not what the response model says: `is_verified` may be
    NULL in the table and not in the response. -/
def Channel.respond (channel : Channel) : Except HttpError ChannelResponse :=
  match channel.isVerified with
  | none => .error internalServerError
  | some isVerified =>
    .ok
      { id := channel.id
        name := channel.name
        description := channel.description
        type := channel.type
        category := channel.category
        ownerId := channel.ownerId
        createdAt := channel.createdAt
        updatedAt := channel.updatedAt
        isVerified := isVerified
        subscriberCount := channel.subscriberCount }

/-! ## Channels -/

/-- `ChannelCreate` (backend/app/schemas/channel.py:6-13). Other bodies are refused with 422 before
    the handler runs, here and below. -/
structure ChannelCreate where
  name : String
  description : Option String
  type : ChannelType
  category : Option String
  name_le : name.length ≤ 100
  category_le : ∀ text ∈ category, text.length ≤ 50

def ChannelCreate.storable (body : ChannelCreate) : Bool :=
  textTakes body.name && body.description.all textTakes && body.category.all textTakes

/-- The row that `create_channel` adds. -/
def newChannel (userId : ℤ) (now : Time) (body : ChannelCreate) (id : ℤ) : Channel :=
  { id := id
    name := body.name
    description := body.description
    type := body.type
    ownerId := userId
    createdAt := now
    updatedAt := none
    isVerified := some false
    category := body.category
    subscriberCount := 0 }

@[simp] theorem newChannel_id (userId : ℤ) (now : Time) (body : ChannelCreate) (id : ℤ) :
    (newChannel userId now body id).id = id := rfl

/-- `create_channel` (backend/app/api/routes/channels.py:12-31). -/
def createChannel (db : Db) (userId : ℤ) (now : Time) (body : ChannelCreate) :
    Except HttpError ChannelResponse × Db :=
  if body.storable then
    ((newChannel userId now body db.channels.next).respond,
      { db with
        channels := db.channels.insert (newChannel userId now body)
          (newChannel_id userId now body) })
  else (.error internalServerError, db)

/-- `read_channels` (backend/app/api/routes/channels.py:33-44). -/
def readChannels (scan : Scan) (db : Db) (skip limit : ℤ) :
    Except HttpError (List ChannelResponse) :=
  match scan.page skip limit db.channels.rows with
  | .error err => .error err
  | .ok channels => channels.mapM Channel.respond

/-- `read_channel` (backend/app/api/routes/channels.py:46-58). -/
def readChannel (db : Db) (channelId : ℤ) : Except HttpError ChannelResponse :=
  match db.channel channelId with
  | .error err => .error err
  | .ok channel => channel.respond

/-- `ChannelUpdate` (backend/app/schemas/channel.py:15-20): `none` is a field that is left out,
    `some none` one that is null. -/
structure ChannelUpdate where
  name : Option (Option String)
  description : Option (Option String)
  type : Option (Option ChannelType)
  category : Option (Option String)
  isVerified : Option (Option Bool)
  name_le : ∀ text ∈ name.join, text.length ≤ 100
  category_le : ∀ text ∈ category.join, text.length ≤ 50

def ChannelUpdate.storable (body : ChannelUpdate) : Bool :=
  body.name.join.all textTakes && body.description.join.all textTakes &&
    body.category.join.all textTakes

/-- The row with the fields that are set; `none`: one that must not be NULL would be. -/
def ChannelUpdate.apply (body : ChannelUpdate) (channel : Channel) : Option Channel :=
  (body.name.getD (some channel.name)).bind fun name =>
    (body.type.getD (some channel.type)).map fun type =>
      { channel with
        name := name
        type := type
        description := body.description.getD channel.description
        category := body.category.getD channel.category
        isVerified := body.isVerified.getD channel.isVerified }

/-- The row after the commit: an `UPDATE` is sent only when something has changed, and sets
    `updated_at`. -/
def Channel.commit (channel new : Channel) (now : Time) : Channel :=
  if new = channel then channel else { new with id := channel.id, updatedAt := some now }

@[simp] theorem Channel.commit_id (channel new : Channel) (now : Time) :
    (channel.commit new now).id = channel.id := by
  unfold Channel.commit
  split_ifs <;> rfl

/-- `update_channel` (backend/app/api/routes/channels.py:60-79). -/
def updateChannel (db : Db) (userId : ℤ) (now : Time) (channelId : ℤ) (body : ChannelUpdate) :
    Except HttpError ChannelResponse × Db :=
  match db.ownChannel channelId userId with
  | .error err => (.error err, db)
  | .ok channel =>
    match body.apply channel with
    | none => (.error internalServerError, db)
    | some new =>
      if body.storable then
        ((channel.commit new now).respond,
          { db with
            channels := db.channels.update channelId (·.commit new now)
              fun row => row.commit_id new now })
      else (.error internalServerError, db)

/-- Posts and subscriptions are deleted with their channel; nothing is done about analytics
    but to set their `channel_id` to NULL, which it must not be. -/
def Db.deleteChannel (db : Db) (channelId : ℤ) : Option Db :=
  if db.analytics.rows.any fun analytics => analytics.channelId = channelId then none
  else some
    { db with
      channels := db.channels.delete fun channel => channel.id = channelId
      posts := db.posts.delete fun post => post.channelId = channelId
      subscriptions := db.subscriptions.delete fun row => row.channelId = channelId }

/-- `delete_channel` (backend/app/api/routes/channels.py:81-97). -/
def deleteChannel (db : Db) (userId channelId : ℤ) : Except HttpError ChannelResponse × Db :=
  match db.ownChannel channelId userId with
  | .error err => (.error err, db)
  | .ok channel =>
    match db.deleteChannel channelId with
    | none => (.error internalServerError, db)
    | some db' => (channel.respond, db')

/-! ## Posts -/

/-- `ChannelPostCreate` (backend/app/schemas/channel.py:33-41). -/
structure ChannelPostCreate where
  content : String
  mediaKey : Option String
  mimeType : Option String
  scheduledAt : Option Time
  isScheduled : Bool

def ChannelPostCreate.storable (body : ChannelPostCreate) : Bool :=
  textTakes body.content && body.mediaKey.all (fun key => columnTakes 255 (columnText 255 key)) &&
    body.mimeType.all fun mime => columnTakes 100 (columnText 100 mime)

/-- The row that `create_channel_post` adds, as it is in the table. -/
def newPost (userId : ℤ) (now : Time) (channelId : ℤ) (body : ChannelPostCreate) (id : ℤ) :
    ChannelPost :=
  { id := id
    channelId := channelId
    authorId := userId
    content := body.content
    mediaKey := body.mediaKey.map (columnText 255)
    mimeType := body.mimeType.map (columnText 100)
    createdAt := now
    updatedAt := none
    scheduledAt := body.scheduledAt
    isScheduled := if body.scheduledAt.isSome then body.isScheduled else false
    viewCount := 0 }

@[simp] theorem newPost_id (userId : ℤ) (now : Time) (channelId : ℤ) (body : ChannelPostCreate)
    (id : ℤ) : (newPost userId now channelId body id).id = id := rfl

/-- `create_channel_post` (backend/app/api/routes/channels.py:100-128): any user may post, whatever
    the type of the channel. -/
def createChannelPost (db : Db) (userId : ℤ) (now : Time) (channelId : ℤ)
    (body : ChannelPostCreate) : Except HttpError ChannelPost × Db :=
  match db.channel channelId with
  | .error err => (.error err, db)
  | .ok _ =>
    if body.storable then
      (.ok (newPost userId now channelId body db.posts.next),
        { db with
          posts := db.posts.insert (newPost userId now channelId body)
            (newPost_id userId now channelId body) })
    else (.error internalServerError, db)

/-- `read_channel_posts` (backend/app/api/routes/channels.py:130-145). -/
def readChannelPosts (scan : Scan) (db : Db) (channelId skip limit : ℤ) :
    Except HttpError (List ChannelPost) :=
  match db.channel channelId with
  | .error err => .error err
  | .ok _ => scan.page skip limit (db.postsOf channelId)

/-! ## Subscriptions -/

/-- The row that `subscribe_to_channel` adds. -/
def newSubscription (userId : ℤ) (now : Time) (channelId : ℤ) (plan : Option ℤ) (id : ℤ) :
    ChannelSubscription :=
  ⟨id, channelId, userId, now, true, plan⟩

@[simp] theorem newSubscription_id (userId : ℤ) (now : Time) (channelId : ℤ) (plan : Option ℤ)
    (id : ℤ) : (newSubscription userId now channelId plan id).id = id := rfl

/-- `existing`, and `subscription` (backend/app/api/routes/channels.py:162-165, 192-195). -/
def Db.subscription (scan : Scan) (db : Db) (channelId userId : ℤ) :
    Option ChannelSubscription :=
  scan.first (ChannelSubscription.of channelId userId) db.subscriptions.rows

/-- The row after `UPDATE channels SET subscriber_count = count`. -/
def Channel.withCount (count : ℤ) (now : Time) (channel : Channel) : Channel :=
  { channel with subscriberCount := count, updatedAt := some now }

@[simp] theorem Channel.withCount_id (count : ℤ) (now : Time) (channel : Channel) :
    (channel.withCount count now).id = channel.id := rfl

/-- The ORM sends the count as a literal, computed from the one that it has read. -/
def Db.writeCount (db : Db) (channelId count : ℤ) (now : Time) : Serial Channel.id :=
  db.channels.update channelId (Channel.withCount count now) (Channel.withCount_id count now)

/-- The commit of `subscribe_to_channel`, which has read `channel`: the tables, and the key of
    the new row unless the channel is gone or there is no such plan. -/
def Db.commitSubscribe (db : Db) (userId : ℤ) (now : Time) (channel : Channel)
    (plan : Option ℤ) : Option ℤ × Db :=
  if (db.channels.find channel.id).isSome && plan.all db.plans.contains then
    (some db.subscriptions.next,
      { db with
        subscriptions := db.subscriptions.insert
          (newSubscription userId now channel.id plan)
          (newSubscription_id userId now channel.id plan)
        channels := db.writeCount channel.id (channel.subscriberCount + 1) now })
  else (none, { db with subscriptions := db.subscriptions.skip })

/-- PostgreSQL accepts the commit. -/
def Db.takesSubscribe (db : Db) (channelId : ℤ) (plan : Option ℤ) : Prop :=
  (db.channels.find channelId).isSome ∧ plan.all db.plans.contains = true

/-- The commit of `unsubscribe_from_channel`, which has read `channel` and `subscription`. The
    `DELETE` of a row that is gone is no error. `none`: the channel is gone. -/
def Db.commitUnsubscribe (db : Db) (now : Time) (channel : Channel)
    (subscription : ChannelSubscription) : Option Db :=
  if (db.channels.find channel.id).isSome then some
    { db with
      subscriptions := db.subscriptions.delete fun row => row.id = subscription.id
      channels := db.writeCount channel.id (channel.subscriberCount - 1) now }
  else none

/-- `db.refresh(subscription)` (backend/app/api/routes/channels.py:177). -/
def Db.refreshSubscription (db : Db) (id : ℤ) : Except HttpError ChannelSubscription :=
  match db.subscriptions.find id with
  | none => .error internalServerError
  | some subscription => .ok subscription

/-- Whether the user may subscribe (backend/app/api/routes/channels.py:162-167). -/
def Db.notSubscribed (scan : Scan) (db : Db) (channelId userId : ℤ) : Except HttpError Unit :=
  if (db.subscription scan channelId userId).isSome then
    .error ⟨400, "Already subscribed to this channel"⟩
  else .ok ()

/-- The row that is to go (backend/app/api/routes/channels.py:192-197). -/
def Db.subscribed (scan : Scan) (db : Db) (channelId userId : ℤ) :
    Except HttpError ChannelSubscription :=
  match db.subscription scan channelId userId with
  | none => .error ⟨400, "Not subscribed to this channel"⟩
  | some subscription => .ok subscription

/-- The end of `subscribe_to_channel`. -/
def Db.endSubscribe (db : Db) (id : Option ℤ) : Except HttpError ChannelSubscription :=
  match id with
  | none => .error internalServerError
  | some id => db.refreshSubscription id

/-- `subscribe_to_channel` (backend/app/api/routes/channels.py:148-178); `plan` is all that the body
    has. -/
def subscribeToChannel (scan : Scan) (db : Db) (userId : ℤ) (now : Time) (channelId : ℤ)
    (plan : Option ℤ) : Except HttpError ChannelSubscription × Db :=
  match db.channel channelId with
  | .error err => (.error err, db)
  | .ok channel =>
    match db.notSubscribed scan channelId userId with
    | .error err => (.error err, db)
    | .ok _ =>
      let committed := db.commitSubscribe userId now channel plan
      (committed.2.endSubscribe committed.1, committed.2)

/-- `unsubscribe_from_channel` (backend/app/api/routes/channels.py:180-201), with the message it
    answers. -/
def unsubscribeFromChannel (scan : Scan) (db : Db) (userId : ℤ) (now : Time) (channelId : ℤ) :
    Except HttpError String × Db :=
  match db.channel channelId with
  | .error err => (.error err, db)
  | .ok channel =>
    match db.subscribed scan channelId userId with
    | .error err => (.error err, db)
    | .ok subscription =>
      match db.commitUnsubscribe now channel subscription with
      | none => (.error internalServerError, db)
      | some db' => (.ok "Unsubscribed successfully", db')

/-! ## Analytics -/

/-- The row that `read_channel_analytics` adds. -/
def newAnalytics (now : Time) (channelId id : ℤ) : ChannelAnalytics :=
  ⟨id, channelId, now, 0, 0, 0, 0⟩

@[simp] theorem newAnalytics_id (now : Time) (channelId id : ℤ) :
    (newAnalytics now channelId id).id = id := rfl

/-- `.order_by(ChannelAnalytics.date.desc()).first()` (backend/app/api/routes/channels.py:217). -/
def Db.latestAnalytics (scan : Scan) (db : Db) (channelId : ℤ) : Option ChannelAnalytics :=
  (scan.order (db.analytics.rows.filter fun row => row.channelId = channelId)).maxOn?
    ChannelAnalytics.date

/-- `read_channel_analytics` (backend/app/api/routes/channels.py:204-224). -/
def readChannelAnalytics (scan : Scan) (db : Db) (now : Time) (channelId : ℤ) :
    Except HttpError ChannelAnalytics × Db :=
  match db.channel channelId with
  | .error err => (.error err, db)
  | .ok _ =>
    match db.latestAnalytics scan channelId with
    | some analytics => (.ok analytics, db)
    | none =>
      (.ok (newAnalytics now channelId db.analytics.next),
        { db with
          analytics := db.analytics.insert (newAnalytics now channelId)
            (newAnalytics_id now channelId) })

/-! ## Calls -/

inductive Request
  | create (body : ChannelCreate)
  | list (skip limit : ℤ)
  | read (channelId : ℤ)
  | update (channelId : ℤ) (body : ChannelUpdate)
  | delete (channelId : ℤ)
  | post (channelId : ℤ) (body : ChannelPostCreate)
  | posts (channelId skip limit : ℤ)
  | subscribe (channelId : ℤ) (plan : Option ℤ)
  | unsubscribe (channelId : ℤ)
  | analytics (channelId : ℤ)

/-- A request, who makes it and when. -/
structure Call where
  userId : ℤ
  now : Time
  request : Request

inductive Body
  | channel (response : ChannelResponse)
  | channels (responses : List ChannelResponse)
  | post (post : ChannelPost)
  | posts (posts : List ChannelPost)
  | subscription (subscription : ChannelSubscription)
  | message (message : String)
  | analytics (analytics : ChannelAnalytics)
  deriving DecidableEq

/-- The response and the tables after a call. -/
def serve (scan : Scan) (db : Db) (call : Call) : Except HttpError Body × Db :=
  match call.request with
  | .create body => (createChannel db call.userId call.now body).map (·.map .channel) id
  | .list skip limit => ((readChannels scan db skip limit).map .channels, db)
  | .read channelId => ((readChannel db channelId).map .channel, db)
  | .update channelId body =>
    (updateChannel db call.userId call.now channelId body).map (·.map .channel) id
  | .delete channelId => (deleteChannel db call.userId channelId).map (·.map .channel) id
  | .post channelId body =>
    (createChannelPost db call.userId call.now channelId body).map (·.map .post) id
  | .posts channelId skip limit => ((readChannelPosts scan db channelId skip limit).map .posts, db)
  | .subscribe channelId plan =>
    (subscribeToChannel scan db call.userId call.now channelId plan).map (·.map .subscription) id
  | .unsubscribe channelId =>
    (unsubscribeFromChannel scan db call.userId call.now channelId).map (·.map .message) id
  | .analytics channelId =>
    (readChannelAnalytics scan db call.now channelId).map (·.map .analytics) id

/-- What a call can do to the tables. -/
inductive Effect (scan : Scan) (db : Db) (call : Call) : Db → Prop
  | nothing : Effect scan db call db
  | create (body : ChannelCreate) (hrequest : call.request = .create body) :
      Effect scan db call
        { db with
          channels := db.channels.insert (newChannel call.userId call.now body)
            (newChannel_id call.userId call.now body) }
  | update (channelId : ℤ) (body : ChannelUpdate) (channel new : Channel)
      (hrequest : call.request = .update channelId body)
      (hown : db.ownChannel channelId call.userId = .ok channel)
      (happly : body.apply channel = some new) :
      Effect scan db call
        { db with
          channels := db.channels.update channelId (·.commit new call.now)
            fun row => row.commit_id new call.now }
  | delete (channelId : ℤ) (channel : Channel) (db' : Db)
      (hrequest : call.request = .delete channelId)
      (hown : db.ownChannel channelId call.userId = .ok channel)
      (hdelete : db.deleteChannel channelId = some db') : Effect scan db call db'
  | post (channelId : ℤ) (body : ChannelPostCreate) (channel : Channel)
      (hrequest : call.request = .post channelId body)
      (hchannel : db.channel channelId = .ok channel) :
      Effect scan db call
        { db with
          posts := db.posts.insert (newPost call.userId call.now channelId body)
            (newPost_id call.userId call.now channelId body) }
  | subscribe (channelId : ℤ) (plan : Option ℤ) (channel : Channel)
      (hrequest : call.request = .subscribe channelId plan)
      (hchannel : db.channel channelId = .ok channel)
      (hnone : db.subscription scan channelId call.userId = none) :
      Effect scan db call (db.commitSubscribe call.userId call.now channel plan).2
  | unsubscribe (channelId : ℤ) (channel : Channel) (subscription : ChannelSubscription) (db' : Db)
      (hrequest : call.request = .unsubscribe channelId)
      (hchannel : db.channel channelId = .ok channel)
      (hrow : db.subscription scan channelId call.userId = some subscription)
      (hcommit : db.commitUnsubscribe call.now channel subscription = some db') :
      Effect scan db call db'
  | analytics (channelId : ℤ) (channel : Channel)
      (hrequest : call.request = .analytics channelId)
      (hchannel : db.channel channelId = .ok channel)
      (hnone : db.latestAnalytics scan channelId = none) :
      Effect scan db call
        { db with
          analytics := db.analytics.insert (newAnalytics call.now channelId)
            (newAnalytics_id call.now channelId) }

/-- Calls, one after another. -/
def step (scan : Scan) (db : Db) (call : Call) : Option Db := some (serve scan db call).2

/-! ## What a call does -/

variable {scan : Scan} {db db' : Db} {c userId : ℤ} {now : Time} {channel : Channel}
  {plan : Option ℤ} {subscription : ChannelSubscription}

theorem channel_ok (h : db.channel c = .ok channel) :
    db.channels.find c = some channel ∧ channel.id = c := by
  unfold Db.channel at h
  cases hfind : db.channels.find c with
  | none =>
    rw [hfind] at h
    cases h
  | some found =>
    rw [hfind] at h
    cases h
    exact ⟨rfl, Serial.find_key hfind⟩

theorem ownChannel_ok (h : db.ownChannel c userId = .ok channel) :
    db.channel c = .ok channel ∧ channel.ownerId = userId := by
  unfold Db.ownChannel at h
  cases hchannel : db.channel c with
  | error err =>
    rw [hchannel] at h
    cases h
  | ok found =>
    rw [hchannel] at h
    dsimp only at h
    split_ifs at h with howner
    cases h
    exact ⟨rfl, howner⟩

theorem notSubscribed_ok (h : db.notSubscribed scan c userId = .ok ()) :
    db.subscription scan c userId = none := by
  unfold Db.notSubscribed at h
  split_ifs at h with hsome
  exact Option.not_isSome_iff_eq_none.mp hsome

theorem subscribed_ok (h : db.subscribed scan c userId = .ok subscription) :
    db.subscription scan c userId = some subscription := by
  unfold Db.subscribed at h
  cases hrow : db.subscription scan c userId with
  | none =>
    rw [hrow] at h
    cases h
  | some row =>
    rw [hrow] at h
    cases h
    rfl

theorem commitSubscribe_accepted (h : db.takesSubscribe channel.id plan) :
    db.commitSubscribe userId now channel plan = (some db.subscriptions.next,
      { db with
        subscriptions := db.subscriptions.insert
          (newSubscription userId now channel.id plan)
          (newSubscription_id userId now channel.id plan)
        channels := db.writeCount channel.id (channel.subscriberCount + 1) now }) := by
  unfold Db.commitSubscribe
  rw [if_pos (by rw [h.1, h.2]; rfl)]

theorem commitSubscribe_refused (h : ¬ db.takesSubscribe channel.id plan) :
    db.commitSubscribe userId now channel plan =
      (none, { db with subscriptions := db.subscriptions.skip }) := by
  unfold Db.commitSubscribe
  rw [if_neg]
  intro hall
  exact h (by simpa [Db.takesSubscribe] using hall)

theorem commitUnsubscribe_eq_some :
    db.commitUnsubscribe now channel subscription = some db' ↔
      (db.channels.find channel.id).isSome ∧ db' =
        { db with
          subscriptions := db.subscriptions.delete fun row => row.id = subscription.id
          channels := db.writeCount channel.id (channel.subscriberCount - 1) now } := by
  unfold Db.commitUnsubscribe
  split_ifs with hchannel
  · rw [Option.some_inj]
    exact ⟨fun h => ⟨hchannel, h.symm⟩, fun h => h.2.symm⟩
  · exact iff_of_false (fun h => (by cases h)) fun h => hchannel h.1

/-- A channel with a row of analytics is not deleted, and with the others go their posts and
    subscriptions. -/
theorem deleteChannel_eq_some :
    db.deleteChannel c = some db' ↔
      (∀ row ∈ db.analytics.rows, row.channelId ≠ c) ∧ db' =
        { db with
          channels := db.channels.delete fun channel => channel.id = c
          posts := db.posts.delete fun post => post.channelId = c
          subscriptions := db.subscriptions.delete fun row => row.channelId = c } := by
  unfold Db.deleteChannel
  rw [unless_any_eq_some]
  simp only [decide_eq_false_iff_not]

theorem createChannel_effect (body : ChannelCreate) :
    Effect scan db ⟨userId, now, .create body⟩ (createChannel db userId now body).2 := by
  unfold createChannel
  split_ifs
  · exact .create body rfl
  · exact .nothing

theorem updateChannel_effect (channelId : ℤ) (body : ChannelUpdate) :
    Effect scan db ⟨userId, now, .update channelId body⟩
      (updateChannel db userId now channelId body).2 := by
  unfold updateChannel
  cases hown : db.ownChannel channelId userId with
  | error err => exact .nothing
  | ok channel =>
    dsimp only
    cases happly : body.apply channel with
    | none => exact .nothing
    | some new =>
      dsimp only
      split_ifs
      · exact .update channelId body channel new rfl hown happly
      · exact .nothing

theorem deleteChannel_effect (channelId : ℤ) :
    Effect scan db ⟨userId, now, .delete channelId⟩ (deleteChannel db userId channelId).2 := by
  unfold deleteChannel
  cases hown : db.ownChannel channelId userId with
  | error err => exact .nothing
  | ok channel =>
    dsimp only
    cases hdelete : db.deleteChannel channelId with
    | none => exact .nothing
    | some db' => exact .delete channelId channel db' rfl hown hdelete

theorem createChannelPost_effect (channelId : ℤ) (body : ChannelPostCreate) :
    Effect scan db ⟨userId, now, .post channelId body⟩
      (createChannelPost db userId now channelId body).2 := by
  unfold createChannelPost
  cases hchannel : db.channel channelId with
  | error err => exact .nothing
  | ok channel =>
    dsimp only
    split_ifs
    · exact .post channelId body channel rfl hchannel
    · exact .nothing

theorem subscribeToChannel_effect (channelId : ℤ) (plan : Option ℤ) :
    Effect scan db ⟨userId, now, .subscribe channelId plan⟩
      (subscribeToChannel scan db userId now channelId plan).2 := by
  unfold subscribeToChannel
  cases hchannel : db.channel channelId with
  | error err => exact .nothing
  | ok channel =>
    dsimp only
    cases hnone : db.notSubscribed scan channelId userId with
    | error err => exact .nothing
    | ok u => exact .subscribe channelId plan channel rfl hchannel (notSubscribed_ok hnone)

theorem unsubscribeFromChannel_effect (channelId : ℤ) :
    Effect scan db ⟨userId, now, .unsubscribe channelId⟩
      (unsubscribeFromChannel scan db userId now channelId).2 := by
  unfold unsubscribeFromChannel
  cases hchannel : db.channel channelId with
  | error err => exact .nothing
  | ok channel =>
    dsimp only
    cases hrow : db.subscribed scan channelId userId with
    | error err => exact .nothing
    | ok subscription =>
      dsimp only
      cases hcommit : db.commitUnsubscribe now channel subscription with
      | none => exact .nothing
      | some db' =>
        exact .unsubscribe channelId channel subscription db' rfl hchannel (subscribed_ok hrow)
          hcommit

/-- A GET that inserts a row. -/
theorem readChannelAnalytics_effect (channelId : ℤ) :
    Effect scan db ⟨userId, now, .analytics channelId⟩
      (readChannelAnalytics scan db now channelId).2 := by
  unfold readChannelAnalytics
  cases hchannel : db.channel channelId with
  | error err => exact .nothing
  | ok channel =>
    dsimp only
    cases hnone : db.latestAnalytics scan channelId with
    | none => exact .analytics channelId channel rfl hchannel hnone
    | some analytics => exact .nothing

theorem serve_effect (scan : Scan) (db : Db) (call : Call) :
    Effect scan db call (serve scan db call).2 := by
  obtain ⟨userId, now, request⟩ := call
  cases request with
  | create body => exact createChannel_effect body
  | list skip limit => exact .nothing
  | read channelId => exact .nothing
  | update channelId body => exact updateChannel_effect channelId body
  | delete channelId => exact deleteChannel_effect channelId
  | post channelId body => exact createChannelPost_effect channelId body
  | posts channelId skip limit => exact .nothing
  | subscribe channelId plan => exact subscribeToChannel_effect channelId plan
  | unsubscribe channelId => exact unsubscribeFromChannel_effect channelId
  | analytics channelId => exact readChannelAnalytics_effect channelId

end IronLink.Channels
