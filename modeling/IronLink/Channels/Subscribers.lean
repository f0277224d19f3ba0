import IronLink.Channels.Counts
import IronLink.Lib.Calls

/-!
# Subscribing at the same time

`subscribe_to_channel` and `unsubscribe_from_channel` as transactions: each `SELECT` sees what
is committed when it runs, and the commit writes what follows from it. No index keeps a user
from having two rows.

Results:
* `subscribe_alone`, `unsubscribe_alone`: a transaction on its own does what the route does.
* `exactThroughout_iff`: the interleavings in which a channel stays exact.
* `lost_subscriber`: two subscribers, and a count of one.
-/

namespace IronLink.Channels

open Lib Auth Orm

/-! ## Transactions -/

/-- A call of `subscribe_to_channel`. -/
structure Subscribe where
  userId : ℤ
  now : Time
  channelId : ℤ
  plan : Option ℤ

/-- A call of `unsubscribe_from_channel`. -/
structure Unsubscribe where
  userId : ℤ
  now : Time
  channelId : ℤ

/-- The next statement of a `subscribe_to_channel`. -/
inductive SubscribePc
  /-- the `SELECT` of the channel -/
  | channel
  | existing (channel : Channel)
  | commit (channel : Channel)
  /-- `db.refresh(subscription)`, or the exception of the commit -/
  | refresh (id : Option ℤ)
  | done (answer : Except HttpError ChannelSubscription)

/-- The next statement of an `unsubscribe_from_channel`. -/
inductive UnsubscribePc
  /-- the `SELECT` of the channel -/
  | channel
  | subscription (channel : Channel)
  | commit (channel : Channel) (subscription : ChannelSubscription)
  | done (answer : Except HttpError String)

inductive Tx
  | subscribe (r : Subscribe) (pc : SubscribePc)
  | unsubscribe (r : Unsubscribe) (pc : UnsubscribePc)

/-- An exception ends the request. -/
def Subscribe.orEnd {α : Type} (r : Subscribe) (read : Except HttpError α)
    (next : α → SubscribePc) : Tx :=
  match read with
  | .error err => .subscribe r (.done (.error err))
  | .ok a => .subscribe r (next a)

def Unsubscribe.orEnd {α : Type} (r : Unsubscribe) (read : Except HttpError α)
    (next : α → UnsubscribePc) : Tx :=
  match read with
  | .error err => .unsubscribe r (.done (.error err))
  | .ok a => .unsubscribe r (next a)

/-- The tables and the transaction after the commit of an `unsubscribe_from_channel`. -/
def Unsubscribe.commit (r : Unsubscribe) (db : Db) (channel : Channel)
    (subscription : ChannelSubscription) : Db × Tx :=
  match db.commitUnsubscribe r.now channel subscription with
  | none => (db, .unsubscribe r (.done (.error internalServerError)))
  | some db' => (db', .unsubscribe r (.done (.ok "Unsubscribed successfully")))

/-- The tables and the transaction after its next statement. -/
def Tx.next (scan : Scan) (db : Db) : Tx → Option (Db × Tx)
  | .subscribe r .channel => some (db, r.orEnd (db.channel r.channelId) .existing)
  | .subscribe r (.existing channel) =>
    some (db, r.orEnd (db.notSubscribed scan r.channelId r.userId) fun _ => .commit channel)
  | .subscribe r (.commit channel) =>
    let committed := db.commitSubscribe r.userId r.now channel r.plan
    some (committed.2, .subscribe r (.refresh committed.1))
  | .subscribe r (.refresh id) => some (db, .subscribe r (.done (db.endSubscribe id)))
  | .subscribe _ (.done _) => none
  | .unsubscribe r .channel => some (db, r.orEnd (db.channel r.channelId) .subscription)
  | .unsubscribe r (.subscription channel) =>
    some (db, r.orEnd (db.subscribed scan r.channelId r.userId) (.commit channel))
  | .unsubscribe r (.commit channel subscription) => some (r.commit db channel subscription)
  | .unsubscribe _ (.done _) => none

/-! ## Interleavings -/

/-- The committed tables and the transactions. -/
structure Race where
  db : Db
  txs : List Tx

inductive RaceAction
  | subscribe (r : Subscribe)
  | unsubscribe (r : Unsubscribe)
  | next (i : ℕ)

def Race.step (scan : Scan) (s : Race) : RaceAction → Option Race
  | .subscribe r => some { s with txs := s.txs ++ [.subscribe r .channel] }
  | .unsubscribe r => some { s with txs := s.txs ++ [.unsubscribe r .channel] }
  | .next i => s.txs[i]?.bind fun tx => (tx.next scan s.db).map fun p => ⟨p.1, s.txs.set i p.2⟩

/-- The tables, and no transaction yet. -/
def Race.start (db : Db) : Race := ⟨db, []⟩

/-! ## A transaction on its own -/

variable {scan : Scan} {db db' : Db} {tx tx' : Tx} {c : ℤ}

/-- The commit is refused, or it changes the tables. -/
theorem Unsubscribe.commit_cases (r : Unsubscribe) (db : Db) (channel : Channel)
    (subscription : ChannelSubscription) :
    db.commitUnsubscribe r.now channel subscription = none ∧
        r.commit db channel subscription =
          (db, .unsubscribe r (.done (.error internalServerError))) ∨
      ∃ db', db.commitUnsubscribe r.now channel subscription = some db' ∧
        r.commit db channel subscription =
          (db', .unsubscribe r (.done (.ok "Unsubscribed successfully"))) := by
  unfold Unsubscribe.commit
  cases db.commitUnsubscribe r.now channel subscription with
  | none => exact .inl ⟨rfl, rfl⟩
  | some db' => exact .inr ⟨db', rfl, rfl⟩

theorem next_alone (hnext : tx.next scan db = some (db', tx')) :
    Race.step scan ⟨db, [tx]⟩ (.next 0) = some ⟨db', [tx']⟩ := by
  show (tx.next scan db).map _ = _
  rw [hnext]
  rfl

/-- `subscribe_to_channel` with nothing in between. -/
theorem subscribe_alone (r : Subscribe) :
    Drives (Race.step scan) (.next 0) ⟨db, [.subscribe r .channel]⟩
      ⟨(subscribeToChannel scan db r.userId r.now r.channelId r.plan).2,
        [.subscribe r
          (.done (subscribeToChannel scan db r.userId r.now r.channelId r.plan).1)]⟩ := by
  unfold subscribeToChannel
  refine .head (next_alone rfl) ?_
  cases db.channel r.channelId with
  | error err => exact .refl _ _ _
  | ok channel =>
    refine .head (next_alone rfl) ?_
    dsimp only
    cases db.notSubscribed scan r.channelId r.userId with
    | error err => exact .refl _ _ _
    | ok u => exact .head (next_alone rfl) (.head (next_alone rfl) (.refl _ _ _))

/-- `unsubscribe_from_channel` with nothing in between. -/
theorem unsubscribe_alone (r : Unsubscribe) :
    Drives (Race.step scan) (.next 0) ⟨db, [.unsubscribe r .channel]⟩
      ⟨(unsubscribeFromChannel scan db r.userId r.now r.channelId).2,
        [.unsubscribe r
          (.done (unsubscribeFromChannel scan db r.userId r.now r.channelId).1)]⟩ := by
  unfold unsubscribeFromChannel
  refine .head (next_alone rfl) ?_
  cases db.channel r.channelId with
  | error err => exact .refl _ _ _
  | ok channel =>
    refine .head (next_alone rfl) ?_
    dsimp only
    cases db.subscribed scan r.channelId r.userId with
    | error err => exact .refl _ _ _
    | ok subscription =>
      refine .head (next_alone rfl) ?_
      dsimp only
      cases db.commitUnsubscribe r.now channel subscription with
      | none => exact .refl _ _ _
      | some db' => exact .refl _ _ _

/-! ## What a transaction has read -/

/-- What is left of what a transaction has read. -/
def Tx.Sound (db : Db) : Tx → Prop
  | .subscribe r (.existing channel) => channel.id = r.channelId
  | .subscribe r (.commit channel) => channel.id = r.channelId
  | .unsubscribe r (.subscription channel) => channel.id = r.channelId
  | .unsubscribe r (.commit channel subscription) =>
    channel.id = r.channelId ∧ subscription.channelId = r.channelId ∧ db.remembers subscription
  | _ => True

/-- Every row that has a key which had been given is the row that had it. -/
structure Kept (db db' : Db) : Prop where
  next : db.subscriptions.next ≤ db'.subscriptions.next
  rows : ∀ k < db.subscriptions.next, ∀ row ∈ db'.subscriptions.find k,
    db.subscriptions.find k = some row

theorem Kept.refl (db : Db) : Kept db db := ⟨le_refl _, fun _ _ _ h => h⟩

theorem kept_commitSubscribe (db : Db) (userId : ℤ) (now : Time) (channel : Channel)
    (plan : Option ℤ) : Kept db (db.commitSubscribe userId now channel plan).2 := by
  by_cases htakes : db.takesSubscribe channel.id plan
  · rw [commitSubscribe_accepted htakes]
    refine ⟨Int.le.intro 1 rfl, fun k hk row hrow => ?_⟩
    have hne : k ≠ db.subscriptions.next := by omega
    have hfind : (db.subscriptions.insert (newSubscription userId now channel.id plan)
        (newSubscription_id userId now channel.id plan)).find k = some row := hrow
    rw [Serial.find_insert, if_neg hne] at hfind
    exact hfind
  · rw [commitSubscribe_refused htakes]
    exact ⟨Int.le.intro 1 rfl, fun k hk row hrow => hrow⟩

theorem kept_commitUnsubscribe {now : Time} {channel : Channel}
    {subscription : ChannelSubscription}
    (h : db.commitUnsubscribe now channel subscription = some db') : Kept db db' := by
  obtain ⟨-, rfl⟩ := commitUnsubscribe_eq_some.mp h
  refine ⟨le_refl _, fun k hk row hrow => ?_⟩
  have hfilter := (Serial.find_delete k).symm.trans hrow
  exact (Option.filter_eq_some_iff.mp hfilter).1

theorem Kept.remembers {subscription : ChannelSubscription} (hkept : Kept db db')
    (h : db.remembers subscription) : db'.remembers subscription :=
  ⟨lt_of_lt_of_le h.1 hkept.next, fun row hrow => h.2 row (hkept.rows _ h.1 row hrow)⟩

theorem Tx.Sound.kept (h : tx.Sound db) (hkept : Kept db db') : tx.Sound db' := by
  cases tx with
  | subscribe r pc =>
    cases pc with
    | channel => trivial
    | existing channel => exact h
    | commit channel => exact h
    | refresh id => trivial
    | done answer => trivial
  | unsubscribe r pc =>
    cases pc with
    | channel => trivial
    | subscription channel => exact h
    | commit channel subscription => exact ⟨h.1, h.2.1, hkept.remembers h.2.2⟩
    | done answer => trivial

/-- A statement keeps the rows, and a transaction knows what it has read. -/
theorem sound_next (h : tx.Sound db) (hnext : tx.next scan db = some (db', tx')) :
    Kept db db' ∧ tx'.Sound db' := by
  cases tx with
  | subscribe r pc =>
    cases pc with
    | channel =>
      cases hnext
      refine ⟨.refl db, ?_⟩
      unfold Subscribe.orEnd
      cases hchannel : db.channel r.channelId with
      | error err => trivial
      | ok channel => exact (channel_ok hchannel).2
    | existing channel =>
      cases hnext
      refine ⟨.refl db, ?_⟩
      unfold Subscribe.orEnd
      cases db.notSubscribed scan r.channelId r.userId with
      | error err => trivial
      | ok u => exact h
    | commit channel =>
      cases hnext
      exact ⟨kept_commitSubscribe .., trivial⟩
    | refresh id =>
      cases hnext
      exact ⟨.refl db, trivial⟩
    | done answer => cases hnext
  | unsubscribe r pc =>
    cases pc with
    | channel =>
      cases hnext
      refine ⟨.refl db, ?_⟩
      unfold Unsubscribe.orEnd
      cases hchannel : db.channel r.channelId with
      | error err => trivial
      | ok channel => exact (channel_ok hchannel).2
    | subscription channel =>
      cases hnext
      refine ⟨.refl db, ?_⟩
      unfold Unsubscribe.orEnd
      cases hrow : db.subscribed scan r.channelId r.userId with
      | error err => trivial
      | ok subscription =>
        obtain ⟨hfind, hof, -⟩ := mem_of_subscription (subscribed_ok hrow)
        exact ⟨h, hof, remembers_of_find hfind⟩
    | commit channel subscription =>
      have hcommitted : r.commit db channel subscription = (db', tx') := Option.some.inj hnext
      obtain ⟨-, heq⟩ | ⟨db'', hcommit, heq⟩ := r.commit_cases db channel subscription
      · cases heq.symm.trans hcommitted
        exact ⟨.refl db, trivial⟩
      · cases heq.symm.trans hcommitted
        exact ⟨kept_commitUnsubscribe hcommit, trivial⟩
    | done answer => cases hnext

/-! ## Exact throughout -/

/-- If the transaction is about to commit on the channel, what it writes is still right: the
    count is as read and the user has no row, or the count is as read and the row is there, or
    both are one lower. -/
def Tx.fresh (db : Db) (c : ℤ) : Tx → Prop
  | .subscribe r (.commit channel) =>
    r.channelId = c → db.takesSubscribe c r.plan →
      db.count c = some channel.subscriberCount ∧ ∀ row ∈ db.subscribers c, row.userId ≠ r.userId
  | .unsubscribe r (.commit channel subscription) =>
    r.channelId = c → (db.channels.find c).isSome →
      db.count c = some (channel.subscriberCount - 1 + db.deletes subscription)
  | _ => True

def Fresh (c : ℤ) (s : Race) : RaceAction → Prop
  | .next i => ∀ tx ∈ s.txs[i]?, tx.fresh s.db c
  | _ => True

/-- The statements that leave a channel exact. -/
theorem exact_next (h : Exact db c) (hsound : tx.Sound db)
    (hnext : tx.next scan db = some (db', tx')) : Exact db' c ↔ tx.fresh db c := by
  cases tx with
  | subscribe r pc =>
    cases pc with
    | channel =>
      cases hnext
      exact iff_of_true h trivial
    | existing channel =>
      cases hnext
      exact iff_of_true h trivial
    | commit channel =>
      cases hnext
      have hid : channel.id = r.channelId := hsound
      by_cases hc : r.channelId = c
      · rw [← hid] at hc
        subst hc
        by_cases htakes : db.takesSubscribe channel.id r.plan
        · rw [exact_commitSubscribe h htakes]
          exact ⟨fun hfresh _ _ => hfresh, fun hfresh => hfresh hid.symm htakes⟩
        · rw [exact_commitSubscribe_refused htakes]
          exact iff_of_true h fun _ hn => absurd hn htakes
      · rw [exact_commitSubscribe_of_ne fun heq => hc (heq.trans hid).symm]
        exact iff_of_true h fun hn => absurd hn hc
    | refresh id =>
      cases hnext
      exact iff_of_true h trivial
    | done answer => cases hnext
  | unsubscribe r pc =>
    cases pc with
    | channel =>
      cases hnext
      exact iff_of_true h trivial
    | subscription channel =>
      cases hnext
      exact iff_of_true h trivial
    | commit channel subscription =>
      obtain ⟨hid, hof, hremembers⟩ := hsound
      rw [← hid] at hof
      have hcommitted : r.commit db channel subscription = (db', tx') := Option.some.inj hnext
      obtain ⟨hcommit, heq⟩ | ⟨db'', hcommit, heq⟩ := r.commit_cases db channel subscription
      · cases heq.symm.trans hcommitted
        refine iff_of_true h fun hc hsome => ?_
        rw [← hc, ← hid] at hsome
        rw [commitUnsubscribe_eq_some.mpr ⟨hsome, rfl⟩] at hcommit
        cases hcommit
      · cases heq.symm.trans hcommitted
        by_cases hc : r.channelId = c
        · rw [← hid] at hc
          subst hc
          rw [exact_commitUnsubscribe h hremembers hof hcommit]
          exact ⟨fun hfresh _ _ => hfresh,
            fun hfresh => hfresh hid.symm (commitUnsubscribe_eq_some.mp hcommit).1⟩
        · rw [exact_commitUnsubscribe_of_ne (fun heq => hc (heq.trans hid).symm) hremembers hof
            hcommit]
          exact iff_of_true h fun hn => absurd hn hc
    | done answer => cases hnext

/-- The channel is exact, and the transactions know what they have read. -/
structure RaceInv (c : ℤ) (s : Race) : Prop where
  exact : Exact s.db c
  sound : ∀ tx ∈ s.txs, tx.Sound s.db

variable {s s' : Race}

theorem sound_append (h : ∀ tx ∈ s.txs, tx.Sound s.db) (htx : tx.Sound s.db) :
    ∀ other ∈ s.txs ++ [tx], other.Sound s.db := by
  intro other hother
  obtain hin | hin := List.mem_append.mp hother
  · exact h other hin
  · rw [List.mem_singleton.mp hin]
    exact htx

theorem raceInv_step (h : RaceInv c s) {a : RaceAction} (hstep : s.step scan a = some s') :
    (∀ tx ∈ s'.txs, tx.Sound s'.db) ∧ (Exact s'.db c ↔ Fresh c s a) := by
  cases a with
  | subscribe r =>
    cases hstep
    exact ⟨sound_append h.sound trivial, iff_of_true h.exact trivial⟩
  | unsubscribe r =>
    cases hstep
    exact ⟨sound_append h.sound trivial, iff_of_true h.exact trivial⟩
  | next i =>
    obtain ⟨tx, htx, hmoves⟩ := Option.bind_eq_some_iff.mp hstep
    obtain ⟨⟨db', tx'⟩, hnext, rfl⟩ := Option.map_eq_some_iff.mp hmoves
    have hsound := h.sound tx (List.mem_of_getElem? htx)
    obtain ⟨hkept, hsound'⟩ := sound_next hsound hnext
    refine ⟨forall_set (fun other hother => (h.sound other hother).kept hkept) hsound', ?_⟩
    rw [exact_next h.exact hsound hnext]
    show tx.fresh s.db c ↔ ∀ other ∈ s.txs[i]?, other.fresh s.db c
    rw [htx]
    exact ⟨fun hfresh other hother => Option.some.inj hother ▸ hfresh, fun hfresh => hfresh tx rfl⟩

/-- A transaction that does nothing more has nothing to write. -/
theorem fresh_of_next_none (h : tx.next scan db = none) : tx.fresh db c := by
  cases tx with
  | subscribe r pc =>
    cases pc with
    | commit channel => cases h
    | channel => trivial
    | existing channel => trivial
    | refresh id => trivial
    | done answer => trivial
  | unsubscribe r pc =>
    cases pc with
    | commit channel subscription => cases h
    | channel => trivial
    | subscription channel => trivial
    | done answer => trivial

theorem fresh_of_step_none {a : RaceAction} (h : s.step scan a = none) : Fresh c s a := by
  cases a with
  | subscribe r => cases h
  | unsubscribe r => cases h
  | next i =>
    intro tx htx
    have hnone : (s.txs[i]?.bind fun tx =>
        (tx.next scan s.db).map fun p => (⟨p.1, s.txs.set i p.2⟩ : Race)) = none := h
    rw [Option.mem_def.mp htx, Option.bind_some, Option.map_eq_none_iff] at hnone
    exact fresh_of_next_none hnone

/-- In an interleaving of subscribe and unsubscribe requests a channel that is exact at first
    stays exact throughout if and only if each commit on it is still right. -/
theorem exactThroughout_iff (h : Exact db c) (actions : List RaceAction) :
    Throughout (Race.step scan) (fun s => Exact s.db c) (Race.start db) actions ↔
      Guarded (Race.step scan) (Fresh c) (Race.start db) actions := by
  refine throughout_iff_guarded (I := RaceInv c) (fun s hs => hs.exact) ?_ ?_
    ⟨h, fun tx htx => (by cases htx)⟩
  · intro s a s' hs hfresh hstep
    obtain ⟨hsound, hexact⟩ := raceInv_step hs hstep
    exact ⟨hexact.mpr hfresh, hsound⟩
  · intro s a hs hstale
    cases hstep : s.step scan a with
    | none => exact absurd (fresh_of_step_none hstep) hstale
    | some s' => exact ⟨s', rfl, fun hexact => hstale ((raceInv_step hs hstep).2.mp hexact)⟩

/-! ## Two subscribers -/

/-- A public channel of user `1`. -/
def newsDb : Db :=
  (createChannel (.empty []) 1 0
    { name := "News"
      description := none
      type := .PUBLIC
      category := none
      name_le := by decide
      category_le := noCategory_le }).2

theorem exact_newsDb : Exact newsDb 1 := by
  refine exact_of_count (fun n hn => ?_) List.nodup_nil
  have hcount : newsDb.count 1 = some 0 := by decide
  rw [Option.some.inj (hn.symm.trans hcount)]
  decide

/-- Users `2` and `3` subscribe, both before the commit of the other. -/
def twoSubscribe : List RaceAction :=
  [.subscribe ⟨2, 1, 1, none⟩, .subscribe ⟨3, 1, 1, none⟩, .next 0, .next 0, .next 1, .next 1,
    .next 0, .next 1]

/-- The channel has two subscribers, and counts one. -/
theorem lost_subscriber : Exact newsDb 1 ∧
    ¬ Throughout (Race.step .inserted) (fun s => Exact s.db 1) (Race.start newsDb)
      twoSubscribe := by
  refine ⟨exact_newsDb, fun h => ?_⟩
  have hends : (run (Race.step .inserted) (Race.start newsDb) twoSubscribe).map
      (fun s => (s.db.count 1, (s.db.subscribers 1).length)) = some (some 1, 2) := by
    decide +kernel
  obtain ⟨s, hrun, hs⟩ := Option.map_eq_some_iff.mp hends
  obtain ⟨hcount, hrows⟩ := Prod.mk.inj hs
  have hexact := (h twoSubscribe [] (List.append_nil _).symm s hrun).count 1 hcount
  rw [hrows] at hexact
  cases hexact

theorem exactThroughout_twoSubscribe : Exact newsDb 1 ∧
    (Throughout (Race.step .inserted) (fun s => Exact s.db 1) (Race.start newsDb) twoSubscribe ↔
      Guarded (Race.step .inserted) (Fresh 1) (Race.start newsDb) twoSubscribe) :=
  ⟨exact_newsDb, exactThroughout_iff exact_newsDb twoSubscribe⟩

end IronLink.Channels
