import IronLink.Broadcasts.Server
import IronLink.Lib.Run

/-!
# The urgent banner

`_BroadcastBannerHostState` (frontend/lib/features/broadcast/broadcast_banner.dart)
from the moment it is mounted: one request for the unacknowledged broadcasts, the
frames of the WebSocket, and the acknowledgements of the user. The request and the
acknowledgements are on their way while frames arrive.

Results:
* `shown_iff_guarded`: the banners are what was received and not acknowledged, each
  once, throughout exactly the runs in which no frame repeats a broadcast, and the
  response holds every banner on the screen and none that was acknowledged.
* `response_clears`: a frame that arrives after the server has evaluated the request
  is lost.
-/

namespace IronLink.Broadcasts

open Lib Auth

/-! ## Model -/

/-- `BroadcastItem` (frontend/lib/features/broadcast/broadcast_banner.dart:10-20). -/
structure BroadcastItem where
  id : String
  title : String
  body : String
  deriving DecidableEq

/-- `value as String`; `none` when the cast throws. -/
def asString : Json → Option String
  | .str s => some s
  | _ => none

/-- The banner of a frame (broadcast_banner.dart:48-58); a cast that throws adds nothing. -/
def itemOfFrame (f : Frame) : Option BroadcastItem :=
  if asString (Json.get f "type") = some "broadcast" then
    (asString (Json.get f "broadcast_id")).bind fun id =>
      (asString (Json.get f "title")).bind fun title =>
        (asString (Json.get f "body")).map fun body => ⟨id, title, body⟩
  else none

/-- The frame listener: `_pending.insert(0, …)` (broadcast_banner.dart:50). -/
def onFrame (pending : List BroadcastItem) (f : Frame) : List BroadcastItem :=
  (itemOfFrame f).toList ++ pending

/-- An item of the response (broadcast_banner.dart:81-85). -/
def BroadcastItemOut.banner (j : BroadcastItemOut) : BroadcastItem := ⟨j.id.str, j.title, j.body⟩

/-- `_pending..clear()..addAll(…)` (broadcast_banner.dart:77-87). -/
def onUnacked (items : List BroadcastItemOut) : List BroadcastItem :=
  items.map BroadcastItemOut.banner

/-- `_pending.removeWhere((b) => b.id == item.id)` (broadcast_banner.dart:94). -/
def onAck (pending : List BroadcastItem) (id : String) : List BroadcastItem :=
  pending.filter fun b => b.id ≠ id

/-- `GET /broadcasts/unacked`, sent when the host is mounted. -/
inductive UnackedRequest
  | sent
  | answered (items : List BroadcastItemOut)
  | done
  deriving DecidableEq

/-- The server, the mounted host of `user`'s device, and what is in flight between
    them. `received` and `acknowledged` are no data of the program: the ids of the
    broadcasts that came by frame or response, and of those the user acknowledged. -/
structure BannerRun where
  now : Time
  tables : Tables
  user : Member
  connected : Bool
  /-- published to the device, the oldest first -/
  frames : List Frame
  request : UnackedRequest
  /-- `POST /broadcasts/{id}/ack` in flight -/
  posts : List String
  pending : List BroadcastItem
  received : List String
  acknowledged : List String

/-- The host of `user` has just been mounted. -/
def BannerRun.init (now : Time) (tables : Tables) (user : Member) : BannerRun :=
  ⟨now, tables, user, false, [], .sent, [], [], [], []⟩

inductive BannerAction
  | connect
  | disconnect
  /-- `POST /admin/broadcast` -/
  | broadcast (creds : Option AccessToken) (body : BroadcastIn) (id : UUID)
      (push : List String → Except HttpError ℕ)
  /-- the server evaluates the request -/
  | evaluate
  /-- the response is handled -/
  | respond
  /-- the request fails -/
  | fail
  /-- the oldest frame in flight arrives -/
  | frame
  /-- the user acknowledges a banner that has been shown -/
  | ack (id : String)
  /-- the server handles the `i`-th acknowledgement in flight, or it is lost -/
  | post (i : ℕ) (lost : Bool)
  | tick (d : ℕ)

def bannerStep (s : BannerRun) : BannerAction → Option BannerRun
  | .connect => some { s with connected := true }
  | .disconnect => some { s with connected := false, frames := [] }
  | .broadcast creds body id push =>
    let sent := sendBroadcast s.tables s.now creds body id push
    some { s with
      tables := sent.tables
      frames := if s.connected then s.frames ++ sent.published.toList else s.frames }
  | .evaluate =>
    match s.request with
    | .sent => some { s with request := .answered (unackedBroadcasts s.tables s.user) }
    | _ => none
  | .respond =>
    match s.request with
    | .answered items => some { s with
        request := .done
        pending := onUnacked items
        received := (onUnacked items).map BroadcastItem.id ++ s.received }
    | _ => none
  | .fail =>
    match s.request with
    | .done => none
    | _ => some { s with request := .done }
  | .frame =>
    match s.frames with
    | [] => none
    | f :: frames => some { s with
        frames := frames
        pending := onFrame s.pending f
        received := ((itemOfFrame f).map BroadcastItem.id).toList ++ s.received }
  | .ack id =>
    if id ∈ s.received then
      some { s with
        pending := onAck s.pending id
        posts := s.posts ++ [id]
        acknowledged := id :: s.acknowledged }
    else none
  | .post i lost =>
    s.posts[i]?.map fun id => { s with
      tables :=
        if lost then s.tables
        else (UUID.ofStr id).elim s.tables fun id => (ackBroadcast s.tables s.user.id id).1
      posts := s.posts.eraseIdx i }
  | .tick d => some { s with now := s.now + d }

/-! ## What is shown -/

def shownIds (pending : List BroadcastItem) : List String := pending.map BroadcastItem.id

/-- The banners are the broadcasts received and not acknowledged, each once. -/
structure Shown (s : BannerRun) : Prop where
  once : (shownIds s.pending).Nodup
  exact : ∀ id, id ∈ shownIds s.pending ↔ id ∈ s.received ∧ id ∉ s.acknowledged

/-- The request and all frames have been handled. -/
def Handled (s : BannerRun) : Prop := s.frames = [] ∧ s.request = .done

instance (s : BannerRun) : Decidable (Handled s) := inferInstanceAs (Decidable (_ ∧ _))

/-- A frame brings a broadcast for the first time; the response holds every banner
    that is shown, and none that was acknowledged. -/
def InStep (s : BannerRun) : BannerAction → Prop
  | .frame => ∀ f ∈ s.frames.head?, ∀ item ∈ itemOfFrame f, item.id ∉ s.received
  | .respond =>
    match s.request with
    | .answered items =>
      (∀ b ∈ s.pending, b.id ∈ shownIds (onUnacked items)) ∧
        ∀ j ∈ items, j.id.str ∉ s.acknowledged
    | _ => True
  | _ => True

instance (s : BannerRun) : (a : BannerAction) → Decidable (InStep s a)
  | .frame => by unfold InStep; infer_instance
  | .respond => by
    unfold InStep
    cases s.request <;> infer_instance
  | .connect | .disconnect | .broadcast .. | .evaluate | .fail | .ack _ | .post .. | .tick _ =>
    isTrue trivial

variable {s s' : BannerRun} {f : Frame} {items : List BroadcastItemOut} {id : String}

/-! ## The three handlers -/

/-- `InStep` where something arrives. -/
theorem inStep_frame {frames : List Frame} (hframes : s.frames = f :: frames) :
    InStep s .frame ↔ ∀ item ∈ itemOfFrame f, item.id ∉ s.received := by
  unfold InStep
  rw [hframes]
  simp

theorem inStep_respond (hrequest : s.request = .answered items) :
    InStep s .respond ↔ (∀ b ∈ s.pending, b.id ∈ shownIds (onUnacked items)) ∧
      ∀ j ∈ items, j.id.str ∉ s.acknowledged := by
  unfold InStep
  rw [hrequest]

theorem shownIds_onFrame (pending : List BroadcastItem) (f : Frame) :
    shownIds (onFrame pending f) =
      ((itemOfFrame f).map BroadcastItem.id).toList ++ shownIds pending := by
  unfold shownIds onFrame
  cases itemOfFrame f <;> rfl

theorem shownIds_onAck (pending : List BroadcastItem) (id : String) :
    shownIds (onAck pending id) = (shownIds pending).filter (· ≠ id) := by
  unfold shownIds onAck
  rw [List.filter_map]
  rfl

theorem mem_shownIds_onUnacked :
    id ∈ shownIds (onUnacked items) ↔ ∃ j ∈ items, j.id.str = id := by
  unfold shownIds onUnacked
  rw [List.map_map, List.mem_map]
  rfl

/-- The ids of a response are as different as those of its broadcasts. -/
theorem nodup_onUnacked (h : (items.map BroadcastItemOut.id).Nodup) :
    (shownIds (onUnacked items)).Nodup := by
  have hids : shownIds (onUnacked items) = (items.map BroadcastItemOut.id).map UUID.str := by
    unfold shownIds onUnacked
    rw [List.map_map, List.map_map]
    rfl
  rw [hids]
  exact h.map fun _ _ => UUID.str_injective

theorem nodup_unackedBroadcasts {tables : Tables} (h : TablesInv tables) (member : Member) :
    ((unackedBroadcasts tables member).map BroadcastItemOut.id).Nodup := by
  unfold unackedBroadcasts
  rw [List.map_map]
  have hperm := (List.mergeSort_perm (tables.broadcasts.filter fun b =>
    !tables.acked member.id b.id && (b.department = none || b.department = member.department))
    fun b b' => decide (b'.createdAt ≤ b.createdAt)).map Broadcast.id
  exact hperm.nodup_iff.mpr (h.nodup.sublist (List.filter_sublist.map _))

/-! ## Every run -/

/-- What holds of the host in every guarded run. -/
structure BannerInv (s : BannerRun) : Prop where
  tables : TablesInv s.tables
  answered : ∀ items, s.request = .answered items → (items.map BroadcastItemOut.id).Nodup
  received : ∀ id ∈ s.acknowledged, id ∈ s.received
  shown : Shown s

/-- Nothing the user sees has changed. -/
theorem BannerInv.frame (h : BannerInv s) (htables : TablesInv s'.tables)
    (hrequest : ∀ items, s'.request = .answered items →
      (items.map BroadcastItemOut.id).Nodup) (hpending : s'.pending = s.pending)
    (hreceived : s'.received = s.received) (hacknowledged : s'.acknowledged = s.acknowledged) :
    BannerInv s' := by
  refine ⟨htables, hrequest, ?_, ?_, ?_⟩
  · rw [hacknowledged, hreceived]
    exact h.received
  · rw [hpending]
    exact h.shown.once
  · rw [hpending, hreceived, hacknowledged]
    exact h.shown.exact

/-- The response puts the right banners up exactly when it is in step. -/
theorem shown_respond (h : BannerInv s) (hrequest : s.request = .answered items)
    (hs : bannerStep s .respond = some s') : Shown s' ↔ InStep s .respond := by
  have hs' : s' = { s with
      request := .done
      pending := onUnacked items
      received := shownIds (onUnacked items) ++ s.received } := by
    unfold bannerStep at hs
    rw [hrequest] at hs
    exact (Option.some.inj hs).symm
  subst hs'
  rw [inStep_respond hrequest]
  constructor
  · intro hshown
    constructor
    · intro b hb
      obtain ⟨hreceived, hnot⟩ := (h.shown.exact b.id).mp (List.mem_map_of_mem hb)
      exact (hshown.exact b.id).mpr ⟨List.mem_append_right _ hreceived, hnot⟩
    · intro j hj
      exact ((hshown.exact j.id.str).mp (mem_shownIds_onUnacked.mpr ⟨j, hj, rfl⟩)).2
  · rintro ⟨hkept, hnew⟩
    refine ⟨nodup_onUnacked (h.answered items hrequest), fun id => ?_⟩
    show id ∈ shownIds (onUnacked items) ↔
      id ∈ shownIds (onUnacked items) ++ s.received ∧ id ∉ s.acknowledged
    constructor
    · intro hid
      obtain ⟨j, hj, rfl⟩ := mem_shownIds_onUnacked.mp hid
      exact ⟨List.mem_append_left _ hid, hnew j hj⟩
    · rintro ⟨hid, hnot⟩
      obtain hitems | hold := List.mem_append.mp hid
      · exact hitems
      · obtain ⟨b, hb, rfl⟩ := List.mem_map.mp ((h.shown.exact id).mpr ⟨hold, hnot⟩)
        exact hkept b hb

/-- A frame puts the right banner up exactly when it is in step. -/
theorem shown_frame (h : BannerInv s) {frames : List Frame} (hframes : s.frames = f :: frames)
    (hs : bannerStep s .frame = some s') : Shown s' ↔ InStep s .frame := by
  have hs' : s' = { s with
      frames := frames
      pending := onFrame s.pending f
      received := ((itemOfFrame f).map BroadcastItem.id).toList ++ s.received } := by
    unfold bannerStep at hs
    rw [hframes] at hs
    exact (Option.some.inj hs).symm
  subst hs'
  rw [inStep_frame hframes]
  have hids := shownIds_onFrame s.pending f
  cases hitem : itemOfFrame f with
  | none =>
    rw [hitem] at hids
    refine iff_of_true ⟨?_, fun id => ?_⟩ fun item hmem => (by cases hmem)
    · show (shownIds (onFrame s.pending f)).Nodup
      rw [hids]
      exact h.shown.once
    · show id ∈ shownIds (onFrame s.pending f) ↔ id ∈ s.received ∧ _
      rw [hids]
      exact h.shown.exact id
  | some item =>
    rw [hitem] at hids
    change shownIds (onFrame s.pending f) = item.id :: shownIds s.pending at hids
    constructor
    · rintro hshown _ hmem
      obtain rfl := Option.some.inj hmem
      intro hreceived
      have honce := hshown.once
      rw [show (shownIds _) = item.id :: shownIds s.pending from hids] at honce
      -- the frame shows the broadcast, so it has not been acknowledged and stood there before
      have hnot := ((hshown.exact item.id).mp (hids ▸ List.mem_cons_self)).2
      exact (List.nodup_cons.mp honce).1 ((h.shown.exact item.id).mpr ⟨hreceived, hnot⟩)
    · intro hnew
      have hfirst := hnew item rfl
      refine ⟨?_, fun id => ?_⟩
      · show (shownIds (onFrame s.pending f)).Nodup
        rw [hids]
        exact List.nodup_cons.mpr
          ⟨fun hmem => hfirst ((h.shown.exact item.id).mp hmem).1, h.shown.once⟩
      · show id ∈ shownIds (onFrame s.pending f) ↔ id ∈ item.id :: s.received ∧ _
        rw [hids, List.mem_cons, List.mem_cons, h.shown.exact id]
        constructor
        · rintro (rfl | ⟨hreceived, hnot⟩)
          · exact ⟨.inl rfl, fun hack => hfirst (h.received _ hack)⟩
          · exact ⟨.inr hreceived, hnot⟩
        · rintro ⟨rfl | hreceived, hnot⟩
          · exact .inl rfl
          · exact .inr ⟨hreceived, hnot⟩

/-- The user takes one broadcast down. -/
theorem shown_ack (h : Shown s) (id : String) :
    Shown { s with
      pending := onAck s.pending id
      posts := s.posts ++ [id]
      acknowledged := id :: s.acknowledged } := by
  refine ⟨?_, fun id' => ?_⟩
  · show (shownIds (onAck s.pending id)).Nodup
    rw [shownIds_onAck]
    exact h.once.filter _
  · show id' ∈ shownIds (onAck s.pending id) ↔ id' ∈ s.received ∧ id' ∉ id :: s.acknowledged
    rw [shownIds_onAck, List.mem_filter, h.exact id', List.mem_cons, not_or, decide_eq_true_iff]
    constructor
    · rintro ⟨⟨hreceived, hnot⟩, hne⟩
      exact ⟨hreceived, hne, hnot⟩
    · rintro ⟨hreceived, hne, hnot⟩
      exact ⟨⟨hreceived, hnot⟩, hne⟩

theorem bannerInv_step (s : BannerRun) (a : BannerAction) (s' : BannerRun) (h : BannerInv s)
    (hg : InStep s a) (hs : bannerStep s a = some s') : BannerInv s' := by
  cases a with
  | connect =>
    cases hs
    exact h.frame h.tables h.answered rfl rfl rfl
  | disconnect =>
    cases hs
    exact h.frame h.tables h.answered rfl rfl rfl
  | broadcast creds body id push =>
    cases hs
    exact h.frame (tablesInv_send h.tables ..).1 h.answered rfl rfl rfl
  | evaluate =>
    unfold bannerStep at hs
    cases hrequest : s.request with
    | sent =>
      rw [hrequest] at hs
      cases hs
      refine h.frame h.tables (fun items hitems => ?_) rfl rfl rfl
      obtain rfl := UnackedRequest.answered.inj hitems
      exact nodup_unackedBroadcasts h.tables s.user
    | answered _ => rw [hrequest] at hs; cases hs
    | done => rw [hrequest] at hs; cases hs
  | respond =>
    cases hrequest : s.request with
    | sent => unfold bannerStep at hs; rw [hrequest] at hs; cases hs
    | done => unfold bannerStep at hs; rw [hrequest] at hs; cases hs
    | answered items =>
      have hshown := (shown_respond h hrequest hs).mpr hg
      unfold bannerStep at hs
      rw [hrequest] at hs
      cases hs
      exact ⟨h.tables, fun items hitems => (by cases hitems),
        fun id hid => List.mem_append_right _ (h.received id hid), hshown⟩
  | fail =>
    unfold bannerStep at hs
    cases hrequest : s.request with
    | done => rw [hrequest] at hs; cases hs
    | sent | answered _ =>
      rw [hrequest] at hs
      cases hs
      exact h.frame h.tables (fun items hitems => (by cases hitems)) rfl rfl rfl
  | frame =>
    cases hframes : s.frames with
    | nil => unfold bannerStep at hs; rw [hframes] at hs; cases hs
    | cons f frames =>
      have hshown := (shown_frame h hframes hs).mpr hg
      unfold bannerStep at hs
      rw [hframes] at hs
      cases hs
      exact ⟨h.tables, h.answered, fun id hid => List.mem_append_right _ (h.received id hid),
        hshown⟩
  | ack id =>
    unfold bannerStep at hs
    dsimp only at hs
    split_ifs at hs with hid
    cases hs
    refine ⟨h.tables, h.answered, fun id' hid' => ?_, shown_ack h.shown id⟩
    obtain rfl | hold := List.mem_cons.mp hid'
    · exact hid
    · exact h.received id' hold
  | post i lost =>
    obtain ⟨id, -, rfl⟩ := Option.map_eq_some_iff.mp hs
    refine h.frame ?_ h.answered rfl rfl rfl
    show TablesInv (if lost then s.tables else _)
    split_ifs with hlost
    · exact h.tables
    · cases UUID.ofStr id with
      | none => exact h.tables
      | some id => exact (tablesInv_ack h.tables ..).1
  | tick d =>
    cases hs
    exact h.frame h.tables h.answered rfl rfl rfl

/-- A step against `InStep` is one that happens, and shows the wrong banners. -/
theorem not_shown_of_not_inStep (h : BannerInv s) {a : BannerAction} (hg : ¬ InStep s a) :
    ∃ s' ∈ bannerStep s a, ¬ Shown s' := by
  cases a with
  | frame =>
    cases hframes : s.frames with
    | nil =>
      refine absurd (fun f hf => ?_) hg
      rw [hframes] at hf
      cases hf
    | cons f frames =>
      obtain ⟨s', hs⟩ : ∃ s', bannerStep s .frame = some s' := by
        unfold bannerStep
        rw [hframes]
        exact ⟨_, rfl⟩
      exact ⟨_, hs, mt (shown_frame h hframes hs).mp hg⟩
  | respond =>
    cases hrequest : s.request with
    | answered items =>
      obtain ⟨s', hs⟩ : ∃ s', bannerStep s .respond = some s' := by
        unfold bannerStep
        rw [hrequest]
        exact ⟨_, rfl⟩
      exact ⟨_, hs, mt (shown_respond h hrequest hs).mp hg⟩
    | sent | done =>
      refine absurd ?_ hg
      unfold InStep
      rw [hrequest]
      trivial
  | _ => exact absurd trivial hg

/-- **Banners.** From the moment the host is mounted, the banners are the broadcasts
    received and not acknowledged, each once, in every state of the run if and only if
    every step of the run is in step. -/
theorem shown_iff_guarded (now : Time) (tables : Tables) (user : Member)
    (htables : TablesInv tables) (as : List BannerAction) :
    Throughout bannerStep Shown (BannerRun.init now tables user) as ↔
      Guarded bannerStep InStep (BannerRun.init now tables user) as := by
  refine throughout_iff_guarded (I := BannerInv) (fun _ h => h.shown) bannerInv_step
    (fun _ _ h hg => not_shown_of_not_inStep h hg) ⟨htables, ?_, ?_, ?_, ?_⟩
  · exact fun items hitems => (by cases hitems)
  · exact fun id hid => (by cases hid)
  · exact List.nodup_nil
  · exact fun id => iff_of_false List.not_mem_nil fun h => List.not_mem_nil h.1

/-! ## A soldier's device -/

/-- A soldier and an administrator, and no broadcast so far. -/
def sampleTables : Tables := ⟨[⟨sampleUser, some "S1"⟩, ⟨sampleAdmin, none⟩], [], [], []⟩

/-- A broadcast of the administrator to everybody. -/
def sampleBroadcast (id : UUID) : BannerAction :=
  .broadcast (some (createAccessToken 1 1 .ADMIN 0)) ⟨"Alert", "Report to base", none⟩ id
    fun _ => .ok 0

theorem tablesInv_sample : TablesInv sampleTables := by
  refine ⟨List.nodup_nil, fun ack hack => ?_⟩
  cases hack

/-- A frame before the request is evaluated, and one after the response, are shown once
    each; the first is acknowledged. -/
theorem shown_sample :
    Throughout bannerStep Shown (BannerRun.init 0 sampleTables ⟨sampleUser, some "S1"⟩)
      [sampleBroadcast 40, .connect, .evaluate, .respond, sampleBroadcast 41, .frame,
        .ack (UUID.str 40), .post 0 false] :=
  (shown_iff_guarded 0 sampleTables ⟨sampleUser, some "S1"⟩ tablesInv_sample _).mpr
    (by decide +kernel)

/-- The server evaluates the request, a broadcast is sent, its frame arrives, and then
    the response is handled: the banner is gone. -/
theorem response_clears :
    ¬ ∀ now tables user as s', TablesInv tables →
      run bannerStep (BannerRun.init now tables user) as = some s' → Handled s' → Shown s' := by
  intro h
  have hrun : (run bannerStep (BannerRun.init 0 sampleTables ⟨sampleUser, some "S1"⟩)
      [.connect, .evaluate, sampleBroadcast 40, .frame, .respond]).map
      (fun s => (decide (Handled s), shownIds s.pending, s.received, s.acknowledged)) =
        some (true, [], [UUID.str 40], []) := by
    decide +kernel
  obtain ⟨s', hs', heq⟩ := Option.map_eq_some_iff.mp hrun
  obtain ⟨hhandled, hpending, hreceived, hacknowledged⟩ :
      decide (Handled s') = true ∧ shownIds s'.pending = [] ∧ s'.received = [UUID.str 40] ∧
        s'.acknowledged = [] := by
    simpa only [Prod.mk.injEq] using heq
  have hshown := h _ _ _ _ s' tablesInv_sample hs' (of_decide_eq_true hhandled)
  have hthere := (hshown.exact (UUID.str 40)).mpr
    ⟨hreceived ▸ List.mem_singleton.mpr rfl, hacknowledged ▸ List.not_mem_nil⟩
  rw [hpending] at hthere
  cases hthere

end IronLink.Broadcasts
