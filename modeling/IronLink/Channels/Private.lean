import IronLink.Channels.Routes
import IronLink.Lib.Isolation

/-!
# Private channels

Two databases that differ in the posts of one channel only, and the same calls on both. Of the
ten endpoints, `read_channel_posts` (backend/app/api/routes/channels.py:130-145) alone reads
posts, and it looks neither at the type of the channel nor at who subscribes to it.

Results:
* `serve_sameBut`: databases that differ in the posts of a channel go on to differ in these.
* `privateAnswers_iff`: a user is answered alike exactly when the pages of the channel's posts that
  the user asks for are the same.
* `outsider_reads`: the posts of a private channel, read by anyone.
-/

namespace IronLink.Channels

open Lib Auth Orm

/-! ## Tables with other posts -/

def Db.withPosts (db : Db) (posts : Serial ChannelPost.id) : Db := { db with posts := posts }

def otherPosts (c : ℤ) (posts : Serial ChannelPost.id) : List ChannelPost :=
  posts.rows.filter fun post => !decide (post.channelId = c)

/-- The tables differ in the posts of the channel only. -/
structure SameBut (c : ℤ) (s t : Db) : Prop where
  rest : t = s.withPosts t.posts
  next : t.posts.next = s.posts.next
  others : otherPosts c t.posts = otherPosts c s.posts

variable {scan : Scan} {db s t : Db} {c d userId : ℤ} {now : Time} {posts : Serial ChannelPost.id}

theorem SameBut.postsOf (h : SameBut c s t) (hd : d ≠ c) : t.postsOf d = s.postsOf d := by
  have hfilter : ∀ table : Serial ChannelPost.id,
      (otherPosts c table).filter (fun post => post.channelId = d) =
        table.rows.filter fun post => post.channelId = d := by
    intro table
    unfold otherPosts
    rw [List.filter_filter]
    refine List.filter_congr fun post _ => ?_
    by_cases hpost : post.channelId = d <;> simp [hpost, hd]
  unfold Db.postsOf
  rw [← hfilter t.posts, h.others, hfilter s.posts]

@[simp] theorem channel_withPosts : (db.withPosts posts).channel d = db.channel d := rfl

@[simp] theorem ownChannel_withPosts :
    (db.withPosts posts).ownChannel d userId = db.ownChannel d userId := rfl

/-- Two calls are answered alike, and leave tables that differ in the posts of the channel
    only. -/
def SameAnswer {α : Type} (c : ℤ) (r r' : Except HttpError α × Db) : Prop :=
  r.1 = r'.1 ∧ SameBut c r.2 r'.2

theorem SameAnswer.map {α : Type} {r r' : Except HttpError α × Db} (h : SameAnswer c r r')
    (f : Except HttpError α → Except HttpError Body) :
    SameAnswer c (r.map f id) (r'.map f id) :=
  ⟨congrArg f h.1, h.2⟩

/-! ### Routes that leave posts alone -/

section

variable (h : SameBut c db (db.withPosts posts))
include h

theorem createChannel_same (body : ChannelCreate) :
    SameAnswer c (createChannel db userId now body)
      (createChannel (db.withPosts posts) userId now body) := by
  unfold createChannel
  split_ifs
  · exact ⟨rfl, rfl, h.next, h.others⟩
  · exact ⟨rfl, h⟩

theorem updateChannel_same (body : ChannelUpdate) :
    SameAnswer c (updateChannel db userId now d body)
      (updateChannel (db.withPosts posts) userId now d body) := by
  unfold updateChannel
  rw [ownChannel_withPosts]
  cases db.ownChannel d userId with
  | error err => exact ⟨rfl, h⟩
  | ok channel =>
    dsimp only
    cases body.apply channel with
    | none => exact ⟨rfl, h⟩
    | some new =>
      dsimp only
      split_ifs
      · exact ⟨rfl, rfl, h.next, h.others⟩
      · exact ⟨rfl, h⟩

theorem subscribeToChannel_same (plan : Option ℤ) :
    SameAnswer c (subscribeToChannel scan db userId now d plan)
      (subscribeToChannel scan (db.withPosts posts) userId now d plan) := by
  have hnone : (db.withPosts posts).notSubscribed scan d userId =
      db.notSubscribed scan d userId := rfl
  unfold subscribeToChannel
  rw [channel_withPosts]
  cases db.channel d with
  | error err => exact ⟨rfl, h⟩
  | ok channel =>
    dsimp only
    rw [hnone]
    cases db.notSubscribed scan d userId with
    | error err => exact ⟨rfl, h⟩
    | ok u =>
      dsimp only
      by_cases htakes : db.takesSubscribe channel.id plan
      · have htakes' : (db.withPosts posts).takesSubscribe channel.id plan := htakes
        rw [commitSubscribe_accepted htakes, commitSubscribe_accepted htakes']
        exact ⟨rfl, rfl, h.next, h.others⟩
      · have htakes' : ¬ (db.withPosts posts).takesSubscribe channel.id plan := htakes
        rw [commitSubscribe_refused htakes, commitSubscribe_refused htakes']
        exact ⟨rfl, rfl, h.next, h.others⟩

theorem unsubscribeFromChannel_same :
    SameAnswer c (unsubscribeFromChannel scan db userId now d)
      (unsubscribeFromChannel scan (db.withPosts posts) userId now d) := by
  have hrow : (db.withPosts posts).subscribed scan d userId = db.subscribed scan d userId := rfl
  unfold unsubscribeFromChannel
  rw [channel_withPosts]
  cases db.channel d with
  | error err => exact ⟨rfl, h⟩
  | ok channel =>
    dsimp only
    rw [hrow]
    cases db.subscribed scan d userId with
    | error err => exact ⟨rfl, h⟩
    | ok subscription =>
      dsimp only
      by_cases hsome : (db.channels.find channel.id).isSome
      · have hsome' : ((db.withPosts posts).channels.find channel.id).isSome := hsome
        rw [commitUnsubscribe_eq_some.mpr ⟨hsome, rfl⟩, commitUnsubscribe_eq_some.mpr ⟨hsome', rfl⟩]
        exact ⟨rfl, rfl, h.next, h.others⟩
      · have hgone : db.commitUnsubscribe now channel subscription = none := if_neg hsome
        have hgone' : (db.withPosts posts).commitUnsubscribe now channel subscription = none :=
          if_neg hsome
        rw [hgone, hgone']
        exact ⟨rfl, h⟩

theorem readChannelAnalytics_same :
    SameAnswer c (readChannelAnalytics scan db now d)
      (readChannelAnalytics scan (db.withPosts posts) now d) := by
  have hlatest : (db.withPosts posts).latestAnalytics scan d = db.latestAnalytics scan d := rfl
  unfold readChannelAnalytics
  rw [channel_withPosts]
  cases db.channel d with
  | error err => exact ⟨rfl, h⟩
  | ok channel =>
    dsimp only
    rw [hlatest]
    cases db.latestAnalytics scan d with
    | some analytics => exact ⟨rfl, h⟩
    | none => exact ⟨rfl, rfl, h.next, h.others⟩

/-! ### Routes that write posts -/

/-- `delete_channel` deletes posts by their channel. -/
theorem deleteChannel_same :
    SameAnswer c (deleteChannel db userId d) (deleteChannel (db.withPosts posts) userId d) := by
  unfold deleteChannel
  rw [ownChannel_withPosts]
  cases db.ownChannel d userId with
  | error err => exact ⟨rfl, h⟩
  | ok channel =>
    dsimp only
    by_cases hnone : ∀ row ∈ db.analytics.rows, row.channelId ≠ d
    · have hnone' : ∀ row ∈ (db.withPosts posts).analytics.rows, row.channelId ≠ d := hnone
      rw [deleteChannel_eq_some.mpr ⟨hnone, rfl⟩, deleteChannel_eq_some.mpr ⟨hnone', rfl⟩]
      refine ⟨rfl, rfl, h.next, ?_⟩
      have hdelete : ∀ table : Serial ChannelPost.id,
          otherPosts c (table.delete fun post => post.channelId = d) =
            (otherPosts c table).filter fun post => !decide (post.channelId = d) :=
        fun _ => Serial.filter_delete _
      refine (hdelete posts).trans (Eq.trans ?_ (hdelete db.posts).symm)
      exact congrArg _ h.others
    · have hkept : ∀ t : Db, t.analytics = db.analytics → t.deleteChannel d = none := by
        intro t ht
        refine Option.eq_none_iff_forall_ne_some.mpr fun db' hdelete => ?_
        exact hnone (ht ▸ (deleteChannel_eq_some.mp hdelete).1)
      rw [hkept db rfl, hkept (db.withPosts posts) rfl]
      exact ⟨rfl, h⟩

/-- `create_channel_post` adds a post under the next key. -/
theorem createChannelPost_same (body : ChannelPostCreate) :
    SameAnswer c (createChannelPost db userId now d body)
      (createChannelPost (db.withPosts posts) userId now d body) := by
  have hnext : posts.next = db.posts.next := h.next
  unfold createChannelPost
  rw [channel_withPosts]
  cases db.channel d with
  | error err => exact ⟨rfl, h⟩
  | ok channel =>
    dsimp only
    split_ifs
    · refine ⟨?_, rfl, congrArg (· + 1) hnext, ?_⟩
      · exact congrArg (fun id => Except.ok (newPost userId now d body id)) hnext.symm
      · unfold otherPosts
        show List.filter _ (posts.rows ++ [newPost userId now d body posts.next]) =
          List.filter _ (db.posts.rows ++ [newPost userId now d body db.posts.next])
        rw [hnext, List.filter_append, List.filter_append]
        exact congrArg (· ++ _) h.others
    · exact ⟨rfl, h⟩

end

/-! ## One call -/

/-- The page of the channel's posts that the call asks for, if it asks for one, is the same. -/
def SamePage (scan : Scan) (c : ℤ) (s t : Db) (call : Call) : Prop :=
  ∀ skip limit, call.request = .posts c skip limit → (s.channels.find c).isSome →
    scan.page skip limit (s.postsOf c) = scan.page skip limit (t.postsOf c)

theorem readChannelPosts_eq_iff (h : SameBut c s t) (skip limit : ℤ) :
    readChannelPosts scan s d skip limit = readChannelPosts scan t d skip limit ↔
      (d = c → (s.channels.find c).isSome →
        scan.page skip limit (s.postsOf c) = scan.page skip limit (t.postsOf c)) := by
  have hchannel : t.channel d = s.channel d := by
    rw [h.rest, channel_withPosts]
  unfold readChannelPosts
  rw [hchannel]
  cases hd : s.channel d with
  | error err =>
    refine iff_of_true rfl fun hdc hsome => ?_
    subst hdc
    obtain ⟨channel, hfind⟩ := Option.isSome_iff_exists.mp hsome
    unfold Db.channel at hd
    rw [hfind] at hd
    cases hd
  | ok channel =>
    dsimp only
    by_cases hdc : d = c
    · subst hdc
      have hsome : (s.channels.find d).isSome := by
        rw [(channel_ok hd).1]
        rfl
      exact ⟨fun heq _ _ => heq, fun heq => heq rfl hsome⟩
    · rw [h.postsOf hdc]
      exact iff_of_true rfl fun hn => absurd hn hdc

theorem map_posts_inj {x y : Except HttpError (List ChannelPost)} :
    x.map Body.posts = y.map Body.posts ↔ x = y := by
  cases x <;> cases y <;> simp [Except.map]

/-- A call that asks for no posts. -/
theorem sameAnswer_serve (h : SameBut c db (db.withPosts posts)) (call : Call)
    (hposts : ∀ channelId skip limit, call.request ≠ .posts channelId skip limit) :
    SameAnswer c (serve scan db call) (serve scan (db.withPosts posts) call) := by
  obtain ⟨userId, now, request⟩ := call
  cases request with
  | create body => exact (createChannel_same h body).map _
  | list skip limit => exact ⟨rfl, h⟩
  | read channelId => exact ⟨rfl, h⟩
  | update channelId body => exact (updateChannel_same h body).map _
  | delete channelId => exact (deleteChannel_same h).map _
  | post channelId body => exact (createChannelPost_same h body).map _
  | posts channelId skip limit => exact absurd rfl (hposts channelId skip limit)
  | subscribe channelId plan => exact (subscribeToChannel_same h plan).map _
  | unsubscribe channelId => exact (unsubscribeFromChannel_same h).map _
  | analytics channelId => exact (readChannelAnalytics_same h).map _

/-- Databases that differ in the posts of the channel differ in nothing else after a call, and
    the call is answered alike if and only if the page that it asks for is the same. -/
theorem serve_sameBut (h : SameBut c s t) (call : Call) :
    SameBut c (serve scan s call).2 (serve scan t call).2 ∧
      ((serve scan s call).1 = (serve scan t call).1 ↔ SamePage scan c s t call) := by
  by_cases hposts : ∃ channelId skip limit, call.request = .posts channelId skip limit
  · obtain ⟨d, skip, limit, hrequest⟩ := hposts
    unfold serve SamePage
    rw [hrequest]
    refine ⟨h, map_posts_inj.trans ((readChannelPosts_eq_iff h skip limit).trans ?_)⟩
    constructor
    · intro hpage skip' limit' heq
      cases heq
      exact hpage rfl
    · rintro hpage rfl
      exact hpage skip limit rfl
  · have hrest : t = s.withPosts t.posts := h.rest
    have hsame : SameAnswer c (serve scan s call) (serve scan t call) := by
      rw [hrest] at h ⊢
      refine sameAnswer_serve h call fun channelId skip limit hrequest => ?_
      exact hposts ⟨channelId, skip, limit, hrequest⟩
    refine ⟨hsame.2, iff_of_true hsame.1 fun skip limit hrequest => ?_⟩
    exact absurd ⟨c, skip, limit, hrequest⟩ hposts

/-! ## Runs -/

/-- What the user is answered in the run of the calls, in order. -/
def answers (scan : Scan) (w : ℤ) (db : Db) (calls : List Call) :
    List (Except HttpError Body) :=
  glances (step scan) (fun call => call.userId = w) (fun db call => (serve scan db call).1) db calls

/-- At each call of the user, the page of the channel's posts that it asks for is the same in
    the two runs. -/
def SamePages (scan : Scan) (w c : ℤ) (s t : Db) (calls : List Call) : Prop :=
  Alike (step scan) (fun call => call.userId = w) (SamePage scan c) s t calls

/-- On two databases that differ in the posts of a channel only, whatever the channel's type and
    whoever owns it or subscribes to it, a run of calls answers the user alike if and only if
    the pages of these posts that the user asks for are the same. -/
theorem privateAnswers_iff (w : ℤ) (h : SameBut c s t) (calls : List Call) :
    answers scan w s calls = answers scan w t calls ↔ SamePages scan w c s t calls := by
  refine glances_eq_iff (R := SameBut c) ?_ ?_ h calls
  · intro s t h call
    exact .some (serve_sameBut h call).1
  · intro s t call h _
    exact (serve_sameBut h call).2

/-! ## A private channel -/

/-- The private channel of user `1`, with one post. -/
def diary (content : String) : Db :=
  (serve .inserted
    (serve .inserted (.empty [])
      ⟨1, 0, .create
        { name := "Diary"
          description := none
          type := .PRIVATE
          category := none
          name_le := by decide
          category_le := noCategory_le }⟩).2
    ⟨1, 1, .post 1 ⟨content, none, none, none, false⟩⟩).2

theorem sameBut_diary : SameBut 1 (diary "dawn") (diary "noon") := ⟨rfl, rfl, rfl⟩

/-- User `2` reads the posts of the channel. -/
def readDiary : List Call := [⟨2, 2, .posts 1 0 100⟩]

/-- Two databases that differ in the post of a private channel, which a user sees who neither
    owns the channel nor subscribes to it. -/
theorem outsider_reads :
    SameBut 1 (diary "dawn") (diary "noon") ∧
      (diary "dawn").channels.rows.map (fun row => (row.id, row.type, row.ownerId)) =
        [(1, .PRIVATE, 1)] ∧
      (diary "dawn").subscriptions.rows = [] ∧
      answers .inserted 2 (diary "dawn") readDiary ≠ answers .inserted 2 (diary "noon") readDiary :=
  ⟨sameBut_diary, by decide, rfl, by decide +kernel⟩

theorem answers_diary :
    SameBut 1 (diary "dawn") (diary "noon") ∧
      (answers .inserted 2 (diary "dawn") readDiary = answers .inserted 2 (diary "noon") readDiary ↔
        SamePages .inserted 2 1 (diary "dawn") (diary "noon") readDiary) :=
  ⟨sameBut_diary, privateAnswers_iff 2 sameBut_diary readDiary⟩

end IronLink.Channels
