import IronLink.Channels.Routes

/-!
# Counting subscribers

`subscriber_count` (backend/app/models/channel.py:24) against the rows of `channel_subscriptions`.
`subscribe_to_channel` and `unsubscribe_from_channel` write the count as a literal, computed
from the count that they have read.

Results:
* `exact_commitSubscribe`, `exact_commitUnsubscribe`: the commits that keep a channel exact.
* `counted_run`: requests that come one after another keep every channel exact.
-/

namespace IronLink.Channels

open Lib Auth Orm

/-! ## Counts -/

def Db.subscribers (db : Db) (channelId : ℤ) : List ChannelSubscription :=
  db.subscriptions.rows.filter fun row => row.channelId = channelId

/-- The `subscriber_count` of a channel that is there. -/
def Db.count (db : Db) (channelId : ℤ) : Option ℤ :=
  (db.channels.find channelId).map Channel.subscriberCount

/-- The count of the channel is that of its subscription rows, it is not negative, and each
    user has at most one row. -/
structure Exact (db : Db) (channelId : ℤ) : Prop where
  count : ∀ n ∈ db.count channelId, n = (db.subscribers channelId).length
  nonneg : ∀ n ∈ db.count channelId, 0 ≤ n
  once : ((db.subscribers channelId).map ChannelSubscription.userId).Nodup

variable {scan : Scan} {db db' : Db} {c k n userId : ℤ} {now : Time} {channel : Channel}
  {plan : Option ℤ} {subscription : ChannelSubscription}

theorem exact_of_count (hcount : ∀ n ∈ db.count c, n = (db.subscribers c).length)
    (honce : ((db.subscribers c).map ChannelSubscription.userId).Nodup) : Exact db c where
  count := hcount
  nonneg := by
    intro n hn
    rw [hcount n hn]
    omega
  once := honce

/-- Where the count and the rows of a channel are the same, so is their being exact. -/
theorem exact_congr (hcount : db'.count c = db.count c)
    (hrows : db'.subscribers c = db.subscribers c) : Exact db' c ↔ Exact db c := by
  constructor
  · rintro ⟨h, -, honce⟩
    rw [hcount, hrows] at h
    rw [hrows] at honce
    exact exact_of_count h honce
  · rintro ⟨h, -, honce⟩
    refine exact_of_count ?_ ?_
    · rw [hcount, hrows]
      exact h
    · rw [hrows]
      exact honce

theorem mem_subscribers {row : ChannelSubscription} :
    row ∈ db.subscribers c ↔ row ∈ db.subscriptions.rows ∧ row.channelId = c := by
  unfold Db.subscribers
  rw [List.mem_filter, decide_eq_true_iff]

theorem isSome_count : (db.count c).isSome = (db.channels.find c).isSome := Option.isSome_map

theorem find_writeCount (c' : ℤ) :
    (db.writeCount c n now).find c' = (db.channels.find c').map fun channel =>
      if channel.id = c then channel.withCount n now else channel :=
  Serial.find_update c'

theorem isSome_writeCount (c' : ℤ) :
    ((db.writeCount c n now).find c').isSome = (db.channels.find c').isSome := by
  rw [find_writeCount, Option.isSome_map]

/-- What a commit writes is what is counted. -/
theorem count_writeCount (hchannel : (db.channels.find c).isSome) :
    ((db.writeCount c n now).find c).map Channel.subscriberCount = some n := by
  obtain ⟨current, hcurrent⟩ := Option.isSome_iff_exists.mp hchannel
  rw [find_writeCount, hcurrent, Option.map_some, Option.map_some,
    if_pos (Serial.find_key hcurrent)]
  rfl

theorem count_writeCount_of_ne {c' : ℤ} (hne : c' ≠ c) :
    ((db.writeCount c n now).find c').map Channel.subscriberCount = db.count c' := by
  unfold Db.count
  rw [find_writeCount, Option.map_map]
  cases hchannel : db.channels.find c' with
  | none => rfl
  | some channel =>
    have hid : channel.id ≠ c := by
      rw [Serial.find_key hchannel]
      exact hne
    show some (Channel.subscriberCount (if channel.id = c then _ else channel)) = _
    rw [if_neg hid]
    rfl

/-! ### Commits of subscriptions -/

theorem subscribers_insert (db : Db) (channels : Serial Channel.id) (userId : ℤ) (now : Time)
    (channelId : ℤ) (plan : Option ℤ) (c' : ℤ) :
    Db.subscribers { db with
        subscriptions := db.subscriptions.insert
          (newSubscription userId now channelId plan)
          (newSubscription_id userId now channelId plan)
        channels := channels } c' =
      db.subscribers c' ++
        if channelId = c' then [newSubscription userId now channelId plan db.subscriptions.next]
        else [] := by
  unfold Db.subscribers
  rw [Serial.filter_insert]
  exact congrArg (_ ++ ·) (if_congr decide_eq_true_iff rfl rfl)

/-- Exactly the commits that find the count as they have read it, and no row of the user, keep
    the channel exact. -/
theorem exact_commitSubscribe (h : Exact db channel.id)
    (htakes : db.takesSubscribe channel.id plan) :
    Exact (db.commitSubscribe userId now channel plan).2 channel.id ↔
      db.count channel.id = some channel.subscriberCount ∧
        ∀ row ∈ db.subscribers channel.id, row.userId ≠ userId := by
  rw [commitSubscribe_accepted htakes]
  obtain ⟨n, hn⟩ := Option.isSome_iff_exists.mp (isSome_count.trans htakes.1)
  have hlen : n = (db.subscribers channel.id).length := h.count n hn
  have hrows := subscribers_insert db
    (db.writeCount channel.id (channel.subscriberCount + 1) now) userId now channel.id plan
    channel.id
  rw [if_pos rfl] at hrows
  have hcount : ((db.writeCount channel.id (channel.subscriberCount + 1) now).find
      channel.id).map Channel.subscriberCount = some (channel.subscriberCount + 1) :=
    count_writeCount htakes.1
  constructor
  · rintro ⟨hcounted, -, honce⟩
    have heq := hcounted _ hcount
    rw [hrows, List.length_append, List.length_singleton] at heq
    rw [hrows, List.map_append, List.nodup_append] at honce
    refine ⟨?_, fun row hrow => ?_⟩
    · rw [hn]
      congr 1
      omega
    · exact honce.2.2 _ (List.mem_map_of_mem hrow) _ (List.mem_singleton.mpr rfl)
  · rintro ⟨hread, hnone⟩
    obtain rfl : n = channel.subscriberCount := Option.some.inj (hn.symm.trans hread)
    refine exact_of_count ?_ ?_
    · intro m hm
      obtain rfl := Option.some.inj (hcount.symm.trans hm)
      rw [hrows, List.length_append, List.length_singleton]
      omega
    · rw [hrows, List.map_append, List.nodup_append]
      refine ⟨h.once, List.nodup_singleton _, ?_⟩
      intro a ha b hb
      obtain ⟨row, hrow, rfl⟩ := List.mem_map.mp ha
      rw [List.mem_singleton.mp hb]
      exact hnone row hrow

/-- The other channels do not notice. -/
theorem exact_commitSubscribe_of_ne (hne : c ≠ channel.id) :
    Exact (db.commitSubscribe userId now channel plan).2 c ↔ Exact db c := by
  by_cases htakes : db.takesSubscribe channel.id plan
  · rw [commitSubscribe_accepted htakes]
    refine exact_congr (count_writeCount_of_ne hne) ?_
    refine (subscribers_insert ..).trans ?_
    rw [if_neg, List.append_nil]
    exact fun h => hne h.symm
  · rw [commitSubscribe_refused htakes]
    exact exact_congr rfl rfl

theorem exact_commitSubscribe_refused (htakes : ¬ db.takesSubscribe channel.id plan) :
    Exact (db.commitSubscribe userId now channel plan).2 c ↔ Exact db c := by
  rw [commitSubscribe_refused htakes]
  exact exact_congr rfl rfl

/-! ### Commits that take a subscription away -/

/-- Of rows with distinct ids, at most one goes. -/
theorem length_filter_id (rows : List ChannelSubscription) (hids : (rows.map (·.id)).Nodup)
    (hin : subscription ∈ rows) :
    (rows.filter fun row => !decide (row.id = subscription.id)).length + 1 = rows.length := by
  induction rows with
  | nil => cases hin
  | cons row rows ih =>
    obtain ⟨hnot, hids⟩ := List.nodup_cons.mp hids
    obtain rfl | hin := List.mem_cons.mp hin
    · have hkept : rows.filter (fun row => !decide (row.id = subscription.id)) = rows := by
        refine List.filter_eq_self.mpr fun other hother => ?_
        have hne : other.id ≠ subscription.id := fun heq =>
          hnot (List.mem_map.mpr ⟨other, hother, heq⟩)
        simp [hne]
      rw [List.filter_cons_of_neg (by simp), hkept, List.length_cons]
    · have hne : row.id ≠ subscription.id := fun heq =>
        hnot (List.mem_map.mpr ⟨subscription, hin, heq.symm⟩)
      rw [List.filter_cons_of_pos (by simp [hne]), List.length_cons, List.length_cons, ih hids hin]

/-- The row as it was read is there, or none has its key. -/
def Db.remembers (db : Db) (subscription : ChannelSubscription) : Prop :=
  subscription.id < db.subscriptions.next ∧
    ∀ row ∈ db.subscriptions.find subscription.id, row = subscription

/-- How many rows the commit deletes. -/
def Db.deletes (db : Db) (subscription : ChannelSubscription) : ℕ :=
  if (db.subscriptions.find subscription.id).isSome then 1 else 0

theorem length_subscribers_delete (channels : Serial Channel.id)
    (hremembers : db.remembers subscription) (hchannel : subscription.channelId = c) :
    (Db.subscribers { db with
        subscriptions := db.subscriptions.delete fun row => row.id = subscription.id
        channels := channels } c).length + db.deletes subscription =
      (db.subscribers c).length := by
  have hcomm : Db.subscribers { db with
        subscriptions := db.subscriptions.delete fun row => row.id = subscription.id
        channels := channels } c =
      (db.subscribers c).filter fun row => !decide (row.id = subscription.id) :=
    Serial.filter_delete _
  rw [hcomm]
  unfold Db.deletes
  cases hfind : db.subscriptions.find subscription.id with
  | none =>
    rw [List.filter_eq_self.mpr]
    · rfl
    · intro row hrow
      have hne : row.id ≠ subscription.id :=
        Table.find_eq_none.mp hfind row (mem_subscribers.mp hrow).1
      simp [hne]
  | some row =>
    obtain rfl := hremembers.2 row hfind
    refine length_filter_id _ ?_ (mem_subscribers.mpr ⟨Serial.find_mem hfind, hchannel⟩)
    exact db.subscriptions.keys.sublist (List.filter_sublist.map _)

/-- Exactly the commits that find the count as they have read it, and the row still there, or
    both already lower, keep the channel exact. -/
theorem exact_commitUnsubscribe (h : Exact db channel.id)
    (hremembers : db.remembers subscription) (hchannel : subscription.channelId = channel.id)
    (hcommit : db.commitUnsubscribe now channel subscription = some db') :
    Exact db' channel.id ↔
      db.count channel.id = some (channel.subscriberCount - 1 + db.deletes subscription) := by
  obtain ⟨hsome, rfl⟩ := commitUnsubscribe_eq_some.mp hcommit
  obtain ⟨n, hn⟩ := Option.isSome_iff_exists.mp (isSome_count.trans hsome)
  have hlen : n = (db.subscribers channel.id).length := h.count n hn
  have hrows := length_subscribers_delete
    (db.writeCount channel.id (channel.subscriberCount - 1) now) hremembers hchannel
  have hcount : ((db.writeCount channel.id (channel.subscriberCount - 1) now).find
      channel.id).map Channel.subscriberCount = some (channel.subscriberCount - 1) :=
    count_writeCount hsome
  constructor
  · rintro ⟨hcounted, -, -⟩
    have heq := hcounted _ hcount
    rw [hn]
    congr 1
    omega
  · intro hread
    have hnow : n = channel.subscriberCount - 1 + db.deletes subscription :=
      Option.some.inj (hn.symm.trans hread)
    refine exact_of_count ?_ ?_
    · intro m hm
      obtain rfl := Option.some.inj (hcount.symm.trans hm)
      omega
    · refine h.once.sublist (List.Sublist.map _ ?_)
      exact List.filter_sublist.filter _

theorem exact_commitUnsubscribe_of_ne (hne : c ≠ channel.id)
    (hremembers : db.remembers subscription) (hchannel : subscription.channelId = channel.id)
    (hcommit : db.commitUnsubscribe now channel subscription = some db') :
    Exact db' c ↔ Exact db c := by
  obtain ⟨-, rfl⟩ := commitUnsubscribe_eq_some.mp hcommit
  refine exact_congr (count_writeCount_of_ne hne) ?_
  refine Serial.filter_delete_of_not fun row hrow hof => decide_eq_false fun hid => hne ?_
  rw [← hchannel, ← hremembers.2 row (hid ▸ Serial.find_of_mem hrow)]
  exact (of_decide_eq_true hof).symm

/-! ## One request after another -/

/-- Every subscription is that of a channel, and every channel's count is exact. -/
structure Counted (db : Db) : Prop where
  refs : ∀ row ∈ db.subscriptions.rows, (db.count row.channelId).isSome
  exact : ∀ channelId, Exact db channelId

theorem counted_empty (plans : List ℤ) : Counted (.empty plans) where
  refs := fun _ h => (by cases h)
  exact := fun _ => exact_of_count (fun _ h => (by cases h)) List.nodup_nil

theorem Counted.congr (h : Counted db) (hcount : ∀ c, db'.count c = db.count c)
    (hrows : db'.subscriptions.rows = db.subscriptions.rows) : Counted db' where
  refs := by
    rw [hrows]
    intro row hrow
    rw [hcount]
    exact h.refs row hrow
  exact := by
    intro c
    refine (exact_congr (hcount c) ?_).mpr (h.exact c)
    unfold Db.subscribers
    rw [hrows]

theorem counted_create (h : Counted db) (body : ChannelCreate) :
    Counted { db with
      channels := db.channels.insert (newChannel userId now body)
        (newChannel_id userId now body) } := by
  have hcount : ∀ c', Db.count { db with
      channels := db.channels.insert (newChannel userId now body)
        (newChannel_id userId now body) } c' =
        if c' = db.channels.next then some 0 else db.count c' := by
    intro c'
    unfold Db.count
    dsimp only
    rw [Serial.find_insert]
    split_ifs <;> rfl
  have hnone : ∀ row ∈ db.subscriptions.rows, row.channelId ≠ db.channels.next := by
    intro row hrow heq
    have hsome := h.refs row hrow
    rw [isSome_count, heq, Serial.find_next] at hsome
    cases hsome
  refine ⟨fun row hrow => ?_, fun c' => ?_⟩
  · rw [hcount, if_neg (hnone row hrow)]
    exact h.refs row hrow
  · by_cases hc : c' = db.channels.next
    · have hempty : db.subscribers c' = [] := by
        refine List.filter_eq_nil_iff.mpr fun row hrow => ?_
        rw [decide_eq_true_iff, hc]
        exact hnone row hrow
      refine exact_of_count ?_ (h.exact c').once
      intro n hn
      rw [hcount, if_pos hc] at hn
      rw [← Option.some.inj hn]
      show (0 : ℤ) = (db.subscribers c').length
      rw [hempty]
      rfl
    · refine (exact_congr ?_ ?_).mpr (h.exact c')
      · rw [hcount, if_neg hc]
      · rfl

theorem apply_subscriberCount {body : ChannelUpdate} {new : Channel}
    (h : body.apply channel = some new) : new.subscriberCount = channel.subscriberCount := by
  obtain ⟨name, -, hname⟩ := Option.bind_eq_some_iff.mp h
  obtain ⟨type, -, rfl⟩ := Option.map_eq_some_iff.mp hname
  rfl

theorem commit_subscriberCount {new : Channel}
    (h : new.subscriberCount = channel.subscriberCount) :
    (channel.commit new now).subscriberCount = channel.subscriberCount := by
  unfold Channel.commit
  split_ifs
  · rfl
  · exact h

theorem counted_update (h : Counted db) {body : ChannelUpdate} {new : Channel}
    (hfind : db.channels.find c = some channel) (happly : body.apply channel = some new) :
    Counted { db with
      channels := db.channels.update c (·.commit new now) fun row => row.commit_id new now } := by
  refine h.congr (fun c' => ?_) rfl
  unfold Db.count
  dsimp only
  rw [Serial.find_update, Option.map_map]
  cases hrow : db.channels.find c' with
  | none => rfl
  | some row =>
    refine congrArg some ?_
    show Channel.subscriberCount (if row.id = c then _ else row) = _
    split_ifs with hid
    · rw [← hid, Serial.find_key hrow, hrow] at hfind
      obtain rfl := Option.some.inj hfind
      exact commit_subscriberCount (apply_subscriberCount happly)
    · rfl

theorem counted_delete (h : Counted db) (hdelete : db.deleteChannel c = some db') :
    Counted db' := by
  obtain ⟨-, rfl⟩ := deleteChannel_eq_some.mp hdelete
  have hcount : ∀ c', Db.count { db with
      channels := db.channels.delete fun channel => channel.id = c
      posts := db.posts.delete fun post => post.channelId = c
      subscriptions := db.subscriptions.delete fun row => row.channelId = c } c' =
        if c' = c then none else db.count c' := by
    intro c'
    unfold Db.count
    dsimp only
    rw [Serial.find_delete]
    cases hrow : db.channels.find c' with
    | none => simp
    | some row =>
      rw [Option.filter_some, Serial.find_key hrow]
      by_cases hc : c' = c <;> simp [hc]
  refine ⟨fun row hrow => ?_, fun c' => ?_⟩
  · obtain ⟨hin, hkept⟩ := List.mem_filter.mp hrow
    rw [hcount, if_neg (by simpa using hkept)]
    exact h.refs row hin
  · by_cases hc : c' = c
    · refine exact_of_count (fun n hn => ?_) ?_
      · rw [hcount, if_pos hc] at hn
        cases hn
      · refine (h.exact c').once.sublist (List.Sublist.map _ ?_)
        exact List.filter_sublist.filter _
    · refine (exact_congr ?_ ?_).mpr (h.exact c')
      · rw [hcount, if_neg hc]
      · refine Serial.filter_delete_of_not fun row _ hof => decide_eq_false fun hrow => hc ?_
        exact (of_decide_eq_true hof).symm.trans hrow

theorem mem_of_subscription (h : db.subscription scan c userId = some subscription) :
    db.subscriptions.find subscription.id = some subscription ∧ subscription.channelId = c ∧
      subscription.userId = userId := by
  obtain ⟨hin, hof⟩ := Scan.first_some h
  obtain ⟨hchannel, huser⟩ := Bool.and_eq_true_iff.mp hof
  exact ⟨Serial.find_of_mem hin, of_decide_eq_true hchannel, of_decide_eq_true huser⟩

theorem subscription_eq_none (h : db.subscription scan c userId = none) :
    ∀ row ∈ db.subscribers c, row.userId ≠ userId := by
  intro row hrow huser
  obtain ⟨hin, hchannel⟩ := mem_subscribers.mp hrow
  have hof := Scan.first_eq_none.mp h row hin
  unfold ChannelSubscription.of at hof
  rw [hchannel, huser] at hof
  simp at hof

theorem remembers_of_find (h : db.subscriptions.find subscription.id = some subscription) :
    db.remembers subscription := by
  refine ⟨db.subscriptions.given subscription (Serial.find_mem h), fun row hrow => ?_⟩
  exact Option.some.inj ((Option.mem_def.mp hrow).symm.trans h)

theorem count_of_find (h : db.channels.find c = some channel) :
    db.count c = some channel.subscriberCount := by
  unfold Db.count
  rw [h, Option.map_some]

/-- The commits of `subscribe_to_channel` keep the references. -/
theorem refs_commitSubscribe
    (h : ∀ row ∈ db.subscriptions.rows, (db.count row.channelId).isSome) :
    ∀ row ∈ (db.commitSubscribe userId now channel plan).2.subscriptions.rows,
      ((db.commitSubscribe userId now channel plan).2.count row.channelId).isSome := by
  by_cases htakes : db.takesSubscribe channel.id plan
  · rw [commitSubscribe_accepted htakes]
    intro row hrow
    rw [isSome_count]
    refine (isSome_writeCount row.channelId).trans ?_
    obtain hold | hnew := List.mem_append.mp hrow
    · exact isSome_count.symm.trans (h row hold)
    · rw [List.mem_singleton.mp hnew]
      exact htakes.1
  · rw [commitSubscribe_refused htakes]
    exact h

theorem refs_commitUnsubscribe
    (h : ∀ row ∈ db.subscriptions.rows, (db.count row.channelId).isSome)
    (hcommit : db.commitUnsubscribe now channel subscription = some db') :
    ∀ row ∈ db'.subscriptions.rows, (db'.count row.channelId).isSome := by
  obtain ⟨-, rfl⟩ := commitUnsubscribe_eq_some.mp hcommit
  intro row hrow
  rw [isSome_count]
  refine (isSome_writeCount row.channelId).trans (isSome_count.symm.trans ?_)
  exact h row (List.mem_filter.mp hrow).1

theorem counted_subscribe (h : Counted db) (hchannel : db.channel c = .ok channel)
    (hnone : db.subscription scan c userId = none) :
    Counted (db.commitSubscribe userId now channel plan).2 := by
  obtain ⟨hfind, rfl⟩ := channel_ok hchannel
  refine ⟨refs_commitSubscribe h.refs, fun c' => ?_⟩
  by_cases hc : c' = channel.id
  · subst hc
    by_cases htakes : db.takesSubscribe channel.id plan
    · exact (exact_commitSubscribe (h.exact _) htakes).mpr
        ⟨count_of_find hfind, subscription_eq_none hnone⟩
    · exact (exact_commitSubscribe_refused htakes).mpr (h.exact _)
  · exact (exact_commitSubscribe_of_ne hc).mpr (h.exact c')

theorem counted_unsubscribe (h : Counted db) (hchannel : db.channel c = .ok channel)
    (hrow : db.subscription scan c userId = some subscription)
    (hcommit : db.commitUnsubscribe now channel subscription = some db') : Counted db' := by
  obtain ⟨hfind, rfl⟩ := channel_ok hchannel
  obtain ⟨hsubscription, hof, -⟩ := mem_of_subscription hrow
  have hremembers := remembers_of_find hsubscription
  refine ⟨refs_commitUnsubscribe h.refs hcommit, fun c' => ?_⟩
  by_cases hc : c' = channel.id
  · subst hc
    refine (exact_commitUnsubscribe (h.exact _) hremembers hof hcommit).mpr ?_
    rw [count_of_find hfind]
    unfold Db.deletes
    rw [hsubscription]
    simp
  · exact (exact_commitUnsubscribe_of_ne hc hremembers hof hcommit).mpr (h.exact c')

theorem counted_effect {call : Call} (h : Counted db) (heffect : Effect scan db call db') :
    Counted db' := by
  cases heffect with
  | nothing => exact h
  | create body => exact counted_create h body
  | update channelId body channel new hrequest hown happly =>
    exact counted_update h (channel_ok (ownChannel_ok hown).1).1 happly
  | delete channelId channel db' hrequest hown hdelete => exact counted_delete h hdelete
  | post => exact h.congr (fun _ => rfl) rfl
  | subscribe channelId plan channel hrequest hchannel hnone =>
    exact counted_subscribe h hchannel hnone
  | unsubscribe channelId channel subscription db' hrequest hchannel hrow hcommit =>
    exact counted_unsubscribe h hchannel hrow hcommit
  | analytics => exact h.congr (fun _ => rfl) rfl

/-- Requests that come one after another keep every count exact. -/
theorem counted_run (plans : List ℤ) {calls : List Call}
    (hrun : run (step scan) (.empty plans) calls = some db) : Counted db := by
  refine run_invariant (fun db call db' h hstep => ?_) (counted_empty plans) hrun
  obtain rfl := Option.some.inj hstep
  exact counted_effect h (serve_effect scan db call)

end IronLink.Channels
