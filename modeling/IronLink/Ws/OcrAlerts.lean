import IronLink.Ws.Presence
import IronLink.Ws.Receive

/-!
# OCR alerts

`listen_ocr_alerts` (app/services/ws_manager.py:84-108) runs on every replica. A replica
holds its own sockets in `_local`; the sets `ws:user:{user_id}` in Redis list the
connections of all replicas. A listener takes an alert, reads the set of the alert's user
and calls `send_local` for one connection after the other, while connections come and go.
One `except` stands around the whole alert.

Results:
* `ClusterInv.step`: a connection is held by one replica, and no listener sends it an
  alert twice or an alert for somebody else.
* `listener_finishes`: a listener comes to the end of the alerts it was given.
* `alertsReach_iff`: an alert reaches every registered connection whose send does not
  raise, unless a send that raises comes before one of them in the loop of its replica.
-/

namespace IronLink

/-- `bool(v)`. -/
def Json.truthy : Json → Bool
  | .null => false
  | .bool b => b
  | .int n => n ≠ 0
  | .float x => x ≠ some 0
  | .str s => s ≠ ""
  | .arr items => !items.isEmpty
  | .obj fields => !fields.isEmpty
  -- none of these is empty: they hold a surrogate, a date or a literal
  | .illStr | .illObj _ | .iso _ | .fmt _ _ => true

end IronLink

namespace IronLink.Ws

open Lib

/-! ## Model -/

/-- `file_id`, `user_id` and `keyword` of a message. -/
structure OcrAlert where
  fileId : Json
  userId : Json
  keyword : Json

/-- The message of `publish_ocr_alert` (app/redis.py:64-68), as it is loaded. -/
def publishOcrAlert (fileId userId keyword : String) : Loaded :=
  .value (.obj [("file_id", .str fileId), ("user_id", .str userId), ("keyword", .str keyword)])

/-- What the listener reads from a message (app/services/ws_manager.py:94-99); `none` when
    it goes on to the next one, an exception included. -/
def ocrAlert : Loaded → Option OcrAlert
  | .notJson => none
  | .raises => none
  | .value v =>
    match v.dict with
    -- `payload.get` of anything but a dict: `AttributeError`
    | none => none
    | some payload =>
      let fileId := Json.get payload "file_id"
      let userId := Json.get payload "user_id"
      let keyword := Json.get payload "keyword"
      if fileId.truthy && userId.truthy && keyword.truthy then some ⟨fileId, userId, keyword⟩
      else none

/-- `ws_payload` (app/services/ws_manager.py:100). -/
def OcrAlert.wsPayload (alert : OcrAlert) : Frame :=
  [("type", .str "ocr_alert"), ("file_id", alert.fileId), ("keyword", alert.keyword)]

/-- `smembers(f"ws:user:{user_id}")` (app/services/ws_manager.py:101). The key is a user's
    only when the value is the text of their id: a number, a list or a dict prints
    otherwise, and a surrogate has no encoding. -/
def userConnsOf (p : Presence) : Json → Finset String
  | .str s =>
    match UUID.ofStr s with
    | some u => if u.str = s then p.userConns u else ∅
    | none => ∅
  | _ => ∅

/-- The `for conn_id in conns` of an alert: the connections still to come. -/
structure Loop where
  alert : ℕ
  wsPayload : Frame
  conns : List String

/-- A replica. A socket of `_local` is known by the user whose ticket opened it; `inbox`
    holds the messages that its subscription has and its listener has not taken. -/
structure Replica where
  sockets : String → Option UUID
  inbox : List ℕ
  loop : Option Loop

/-- Where the handler of a connection is. -/
inductive Stage
  /-- in `register`, before the pipeline -/
  | registering
  | serving
  /-- in `unregister`, after `_local.pop` -/
  | unregistering (pc : UnregisterPc)
  | closed
  deriving DecidableEq

structure Connection (R : Type*) where
  replica : R
  user : UUID
  stage : Stage
  deriving DecidableEq

/-- A message on `ocr:alerts`. `conns` is no data of the program: the connections that
    were registered for the user of the alert when it was published. -/
structure Published where
  data : Loaded
  conns : Finset String

/-- A `ws.send_json` that returned, with the user of the socket. -/
structure Sent where
  alert : ℕ
  connectionId : String
  user : UUID
  wsPayload : Frame

/-- Redis, the replicas and the handlers of all connections. An alert is known by its
    place in `published`. -/
structure Cluster (R : Type*) where
  presence : Presence
  connections : String → Option (Connection R)
  replicas : R → Replica
  published : List Published
  sent : List Sent

/-- Nobody is connected, and no alert was published. -/
def Cluster.init (R : Type*) : Cluster R :=
  ⟨Presence.empty, fun _ => none, fun _ => ⟨fun _ => none, [], none⟩, [], []⟩

inductive ClusterAction (R : Type*)
  /-- the first two lines of `register`, which draw a new `connectionId` -/
  | accept (r : R) (user : UUID) (connectionId : String)
  /-- the pipeline of `register` -/
  | register (connectionId : String) (now : Time)
  /-- the first line of `unregister` -/
  | unregister (connectionId : String)
  /-- the next command of `unregister` -/
  | next (connectionId : String)
  | publish (data : Loaded)
  /-- the listener takes its next message; `conns` is the order of `smembers` -/
  | take (r : R) (conns : List String)
  /-- the next `send_local` of the listener -/
  | send (r : R)

variable {R : Type*}

def Cluster.setConnection (s : Cluster R) (connectionId : String) (c : Connection R) :
    Cluster R :=
  { s with connections := Function.update s.connections connectionId (some c) }

/-- A command of `unregister` (app/services/ws_manager.py:61-69). -/
def Cluster.next (s : Cluster R) (connectionId : String) (c : Connection R) :
    UnregisterPc → Cluster R
  | .leaving =>
    { s with presence := leave s.presence c.user connectionId }.setConnection connectionId
      { c with stage := .unregistering .counting }
  | .counting =>
    if remaining s.presence c.user = 0 then
      s.setConnection connectionId { c with stage := .unregistering .goingOffline }
    else s.setConnection connectionId { c with stage := .closed }
  | .goingOffline =>
    { s with presence := goOffline s.presence c.user }.setConnection connectionId
      { c with stage := .closed }

/-- Every listener is subscribed to `ocr:alerts`. -/
def Cluster.publish (s : Cluster R) (data : Loaded) : Cluster R :=
  { s with
    published := s.published ++
      [⟨data, (ocrAlert data).elim ∅ fun alert => userConnsOf s.presence alert.userId⟩]
    replicas := fun r => { s.replicas r with
      inbox := (s.replicas r).inbox ++ [s.published.length] } }

section Listeners

variable [DecidableEq R]

def Cluster.setReplica (s : Cluster R) (r : R) (replica : Replica) : Cluster R :=
  { s with replicas := Function.update s.replicas r replica }

/-- `_local[connection_id]` is set, or popped. -/
def Cluster.setSocket (s : Cluster R) (r : R) (connectionId : String) (socket : Option UUID) :
    Cluster R :=
  s.setReplica r { s.replicas r with
    sockets := Function.update (s.replicas r).sockets connectionId socket }

/-- `register` up to the pipeline (app/services/ws_manager.py:38-39). -/
def Cluster.accept (s : Cluster R) (r : R) (user : UUID) (connectionId : String) : Cluster R :=
  (s.setSocket r connectionId (some user)).setConnection connectionId ⟨r, user, .registering⟩

/-- The listener reads a message and, for an alert, the connections of its user. -/
def Cluster.take (s : Cluster R) (r : R) (n : ℕ) (inbox : List ℕ) (pub : Published)
    (conns : List String) : Option (Cluster R) :=
  match ocrAlert pub.data with
  | none => some (s.setReplica r { s.replicas r with inbox := inbox, loop := none })
  | some alert =>
    if conns.Nodup ∧ conns.toFinset = userConnsOf s.presence alert.userId then
      some (s.setReplica r { s.replicas r with
        inbox := inbox, loop := some ⟨n, alert.wsPayload, conns⟩ })
    else none

/-- `send_local` for the first of `c :: conns` (app/services/ws_manager.py:77-82). -/
def Cluster.send (s : Cluster R) (r : R) (raises : ℕ → String → Bool) (n : ℕ)
    (wsPayload : Frame) (c : String) (conns : List String) : Cluster R :=
  let continued := s.setReplica r { s.replicas r with loop := some ⟨n, wsPayload, conns⟩ }
  match (s.replicas r).sockets c with
  | none => continued
  | some user =>
    -- the `except` is outside the loop
    if raises n c then s.setReplica r { s.replicas r with loop := none }
    else { continued with sent := s.sent ++ [⟨n, c, user, wsPayload⟩] }

/-- `raises n c` says whether the send of the `n`-th alert over the connection `c` raises. -/
def clusterStep (raises : ℕ → String → Bool) (s : Cluster R) :
    ClusterAction R → Option (Cluster R)
  | .accept r user c => if s.connections c = none then some (s.accept r user c) else none
  | .register c now =>
    match s.connections c with
    | some ⟨r, user, .registering⟩ =>
      some ({ s with presence := register s.presence now user c }.setConnection c
        ⟨r, user, .serving⟩)
    | _ => none
  | .unregister c =>
    match s.connections c with
    | some ⟨r, user, .serving⟩ =>
      some ((s.setSocket r c none).setConnection c ⟨r, user, .unregistering .leaving⟩)
    | _ => none
  | .next c =>
    match s.connections c with
    | some ⟨r, user, .unregistering pc⟩ => some (s.next c ⟨r, user, .unregistering pc⟩ pc)
    | _ => none
  | .publish data => some (s.publish data)
  | .take r conns =>
    -- the loop over the alert before has ended
    if (s.replicas r).loop.all (·.conns.isEmpty) then
      match (s.replicas r).inbox with
      | [] => none
      | n :: inbox => s.published[n]?.bind fun pub => s.take r n inbox pub conns
    else none
  | .send r =>
    match (s.replicas r).loop with
    | some ⟨n, wsPayload, c :: conns⟩ => some (s.send r raises n wsPayload c conns)
    | _ => none

end Listeners

/-! ## Property and condition -/

/-- The listener of `r` is through with the `n`-th alert. -/
def Cluster.done (s : Cluster R) (r : R) (n : ℕ) : Prop :=
  n ∉ (s.replicas r).inbox ∧ ∀ loop ∈ (s.replicas r).loop, loop.alert = n → loop.conns = []

/-- What was sent of the `n`-th alert over a connection. -/
def Cluster.sentTo (s : Cluster R) (n : ℕ) (connectionId : String) : List Frame :=
  (s.sent.filter fun x => x.alert = n ∧ x.connectionId = connectionId).map (·.wsPayload)

/-- A connection that was registered for the user of an alert when it was published, and
    is still served when the listener of its replica is through, has been sent the alert
    exactly once, if its send does not raise. No connection is ever sent an alert twice or
    one for another user. -/
structure AlertsReach (raises : ℕ → String → Bool) (s : Cluster R) : Prop where
  received : ∀ n pub alert, s.published[n]? = some pub → ocrAlert pub.data = some alert →
    ∀ c ∈ pub.conns, ∀ r user, s.connections c = some ⟨r, user, .serving⟩ → s.done r n →
      raises n c = false → s.sentTo n c = [alert.wsPayload]
  once : ∀ n c, (s.sentTo n c).length ≤ 1
  own : ∀ x ∈ s.sent, ∃ pub alert, s.published[x.alert]? = some pub ∧
    ocrAlert pub.data = some alert ∧ alert.userId = .str x.user.str

/-- The replica serves a connection that was registered for the alert. -/
def Cluster.owes (s : Cluster R) (r : R) (n : ℕ) (connectionId : String) : Prop :=
  (∃ pub, s.published[n]? = some pub ∧ connectionId ∈ pub.conns) ∧
    ∃ user, s.connections connectionId = some ⟨r, user, .serving⟩

/-- When a send raises, the sends to all connections that come later in the loop, and that
    the same replica owes the alert, would raise too. -/
def FailsLast (raises : ℕ → String → Bool) (s : Cluster R) : ClusterAction R → Prop
  | .send r => ∀ loop ∈ (s.replicas r).loop, ∀ c conns, loop.conns = c :: conns →
      (s.replicas r).sockets c ≠ none → raises loop.alert c = true →
      ∀ c' ∈ conns, s.owes r loop.alert c' → raises loop.alert c' = true
  | _ => True

/-! ## Messages and keys -/

theorem mem_userConnsOf {p : Presence} {v : Json} {c : String} :
    c ∈ userConnsOf p v ↔ ∃ u, v = .str u.str ∧ c ∈ p.userConns u := by
  constructor
  · intro h
    unfold userConnsOf at h
    split at h
    · rename_i s
      cases hu : UUID.ofStr s with
      | none =>
        rw [hu] at h
        cases h
      | some u =>
        simp only [hu] at h
        split_ifs at h with hstr
        · exact ⟨u, by rw [hstr], h⟩
        · cases h
    · cases h
  · rintro ⟨u, rfl, hc⟩
    simpa [userConnsOf, UUID.ofStr_str] using hc

/-! ## Handlers -/

/-- The socket of the connection is in `_local`. -/
def Stage.hasSocket : Stage → Bool
  | .registering => true
  | .serving => true
  | _ => false

/-- The connection is in its `ws:user:{user_id}`. -/
def Stage.listed : Stage → Bool
  | .serving => true
  | .unregistering .leaving => true
  | _ => false

/-- Which sockets there are, and which connections are listed. -/
structure Placed (s : Cluster R) : Prop where
  sockets : ∀ r c u, (s.replicas r).sockets c = some u ↔
    ∃ conn ∈ s.connections c, conn.replica = r ∧ conn.user = u ∧ conn.stage.hasSocket = true
  conns : ∀ u c, c ∈ s.presence.userConns u ↔
    ∃ conn ∈ s.connections c, conn.user = u ∧ conn.stage.listed = true

/-- `register` has returned for a connection of `user` on the replica `r`. -/
def Cluster.registered (s : Cluster R) (r : R) (user : UUID) (connectionId : String) : Prop :=
  ∃ stage, s.connections connectionId = some ⟨r, user, stage⟩ ∧ stage ≠ .registering

/-- A step of the handler of `connectionId`, which leads to `conn'`. -/
structure Moves (s s' : Cluster R) (connectionId : String) (conn' : Connection R) : Prop where
  connections : s'.connections = Function.update s.connections connectionId (some conn')
  sockets : ∀ r c, c ≠ connectionId → (s'.replicas r).sockets c = (s.replicas r).sockets c
  socket : ∀ r u, (s'.replicas r).sockets connectionId = some u ↔
    conn'.replica = r ∧ conn'.user = u ∧ conn'.stage.hasSocket = true
  conns : ∀ u c, c ≠ connectionId →
    (c ∈ s'.presence.userConns u ↔ c ∈ s.presence.userConns u)
  listed : ∀ u, connectionId ∈ s'.presence.userConns u ↔
    conn'.user = u ∧ conn'.stage.listed = true
  forward : ∀ conn ∈ s.connections connectionId, conn.stage ≠ .registering →
    conn'.replica = conn.replica ∧ conn'.user = conn.user ∧ conn'.stage ≠ .registering ∧
      conn'.stage ≠ .serving
  inbox : ∀ r, (s'.replicas r).inbox = (s.replicas r).inbox
  loop : ∀ r, (s'.replicas r).loop = (s.replicas r).loop
  published : s'.published = s.published
  sent : s'.sent = s.sent

variable {raises : ℕ → String → Bool} {s s' : Cluster R} {a : ClusterAction R} {r : R}
  {user : UUID} {connectionId : String} {conn conn' : Connection R}

theorem Moves.connected (hm : Moves s s' connectionId conn') (h : Placed s) :
    Placed s' := by
  have hself : s'.connections connectionId = some conn' := by
    rw [hm.connections]
    exact Function.update_self ..
  have hother : ∀ c, c ≠ connectionId → s'.connections c = s.connections c := by
    intro c hc
    rw [hm.connections]
    exact Function.update_of_ne hc ..
  refine ⟨fun r c u => ?_, fun u c => ?_⟩
  · by_cases hc : c = connectionId
    · subst hc
      rw [hm.socket, hself]
      simp
    · rw [hm.sockets r c hc, hother c hc]
      exact h.sockets r c u
  · by_cases hc : c = connectionId
    · subst hc
      rw [hm.listed, hself]
      simp
    · rw [hm.conns u c hc, hother c hc]
      exact h.conns u c

/-- The socket of a connection is on its replica, or nowhere. -/
theorem Placed.socket (h : Placed s) (hconn : s.connections connectionId = some conn)
    {u : UUID} :
    (s.replicas r).sockets connectionId = some u ↔
      conn.replica = r ∧ conn.user = u ∧ conn.stage.hasSocket = true := by
  rw [h.sockets, hconn]
  simp

theorem Placed.listed (h : Placed s) (hconn : s.connections connectionId = some conn)
    {u : UUID} :
    connectionId ∈ s.presence.userConns u ↔ conn.user = u ∧ conn.stage.listed = true := by
  rw [h.conns, hconn]
  simp

/-- A command on the registry, with the sockets as they are. -/
theorem moves_presence (h : Placed s) (hconn : s.connections connectionId = some conn)
    {p : Presence} (hreplica : conn'.replica = conn.replica) (huser : conn'.user = conn.user)
    (hsocket : conn'.stage.hasSocket = conn.stage.hasSocket)
    (hconns : ∀ u c, c ≠ connectionId → (c ∈ p.userConns u ↔ c ∈ s.presence.userConns u))
    (hlisted : ∀ u, connectionId ∈ p.userConns u ↔ conn'.user = u ∧ conn'.stage.listed = true)
    (hforward : conn.stage ≠ .registering →
      conn'.stage ≠ .registering ∧ conn'.stage ≠ .serving) :
    Moves s ({ s with presence := p }.setConnection connectionId conn') connectionId conn' where
  connections := rfl
  sockets _ _ _ := rfl
  socket r u := by
    rw [hreplica, huser, hsocket]
    exact h.socket hconn
  conns := hconns
  listed := hlisted
  forward c hc hstage := by
    obtain rfl := Option.some.inj (hconn.symm.trans hc)
    exact ⟨hreplica, huser, hforward hstage⟩
  inbox _ := rfl
  loop _ := rfl
  published := rfl
  sent := rfl

theorem moves_register (h : Placed s) {now : Time}
    (hconn : s.connections connectionId = some ⟨r, user, .registering⟩) :
    Moves s ({ s with presence := register s.presence now user connectionId }.setConnection
      connectionId ⟨r, user, .serving⟩) connectionId ⟨r, user, .serving⟩ := by
  refine moves_presence h hconn rfl rfl rfl (fun u c hc => ?_) (fun u => ?_) fun hne => ?_
  · rw [mem_userConns_register]
    simp [hc]
  · rw [mem_userConns_register, h.listed hconn]
    simp [Stage.listed, eq_comm]
  · exact absurd rfl hne

theorem moves_next (h : Placed s) {pc : UnregisterPc}
    (hconn : s.connections connectionId = some ⟨r, user, .unregistering pc⟩) :
    ∃ conn', Moves s (s.next connectionId ⟨r, user, .unregistering pc⟩ pc) connectionId conn' := by
  cases pc with
  | leaving =>
    refine ⟨_, moves_presence h hconn rfl rfl rfl (fun u c hc => ?_) (fun u => ?_) fun _ => ?_⟩
    · rw [mem_userConns_leave]
      simp [hc]
    · rw [mem_userConns_leave, h.listed hconn]
      simp [Stage.listed, eq_comm]
    · simp
  | counting =>
    unfold Cluster.next
    dsimp only
    split_ifs
    · refine ⟨_, moves_presence h hconn rfl rfl rfl (fun _ _ _ => Iff.rfl) (fun u => ?_)
        fun _ => ?_⟩
      · exact h.listed hconn
      · simp
    · refine ⟨_, moves_presence h hconn rfl rfl rfl (fun _ _ _ => Iff.rfl) (fun u => ?_)
        fun _ => ?_⟩
      · exact h.listed hconn
      · simp
  | goingOffline =>
    refine ⟨_, moves_presence h hconn rfl rfl rfl (fun _ _ _ => Iff.rfl) (fun u => ?_)
      fun _ => ?_⟩
    · exact h.listed hconn
    · simp

/-! ## The invariant -/

/-- The `n`-th message is an alert for `user` with the payload `wsPayload`. -/
def Cluster.isAlert (s : Cluster R) (n : ℕ) (user : UUID) (wsPayload : Frame) : Prop :=
  ∃ pub alert, s.published[n]? = some pub ∧ ocrAlert pub.data = some alert ∧
    alert.userId = .str user.str ∧ alert.wsPayload = wsPayload

/-- The listener does not come to the connection with the `n`-th alert any more. -/
def Replica.past (replica : Replica) (n : ℕ) (connectionId : String) : Prop :=
  n ∉ replica.inbox ∧ ∀ loop ∈ replica.loop, loop.alert = n → connectionId ∉ loop.conns

/-- The messages a listener has yet to take, and the one it is at. -/
structure Cluster.Listens (s : Cluster R) (replica : Replica) : Prop where
  known : ∀ n ∈ replica.inbox, n < s.published.length
  nodup : replica.inbox.Nodup
  taken : ∀ loop ∈ replica.loop, loop.alert < s.published.length ∧ loop.alert ∉ replica.inbox
  conns : ∀ loop ∈ replica.loop, loop.conns.Nodup
  alert : ∀ loop ∈ replica.loop, ∀ c ∈ loop.conns,
    ∃ r user, s.registered r user c ∧ s.isAlert loop.alert user loop.wsPayload

structure ClusterInv (s : Cluster R) : Prop where
  connected : Placed s
  listens : ∀ r, s.Listens (s.replicas r)
  audience : ∀ n pub, s.published[n]? = some pub → ∀ c ∈ pub.conns,
    ∃ r user wsPayload, s.registered r user c ∧ s.isAlert n user wsPayload
  sent : ∀ x ∈ s.sent, s.isAlert x.alert x.user x.wsPayload ∧
    ∃ r, s.registered r x.user x.connectionId ∧ (s.replicas r).past x.alert x.connectionId
  once : (s.sent.map fun x => (x.alert, x.connectionId)).Nodup

theorem clusterInv_init : ClusterInv (Cluster.init R) where
  connected := by
    refine ⟨fun r c u => ?_, fun u c => ?_⟩
    · simp [Cluster.init]
    · simp [Cluster.init, Presence.empty]
  listens r := by
    refine ⟨?_, List.nodup_nil, ?_, ?_, ?_⟩ <;> simp [Cluster.init]
  audience n pub hpub := by simp [Cluster.init] at hpub
  sent x hx := by cases hx
  once := List.nodup_nil

/-- What a listener has before it stays good while messages and registrations are added. -/
theorem Cluster.Listens.mono {replica replica' : Replica} (h : s.Listens replica)
    (hinbox : replica'.inbox = replica.inbox) (hloop : replica'.loop = replica.loop)
    (hlength : s.published.length ≤ s'.published.length)
    (hregistered : ∀ r user c, s.registered r user c → s'.registered r user c)
    (halert : ∀ n user wsPayload, s.isAlert n user wsPayload → s'.isAlert n user wsPayload) :
    s'.Listens replica' := by
  refine ⟨?_, ?_, ?_, ?_, ?_⟩
  · rw [hinbox]
    exact fun n hn => (h.known n hn).trans_le hlength
  · rw [hinbox]
    exact h.nodup
  · rw [hinbox, hloop]
    exact fun loop hmem => (h.taken loop hmem).imp_left fun hlt => hlt.trans_le hlength
  · rw [hloop]
    exact h.conns
  · rw [hloop]
    intro loop hmem c hc
    obtain ⟨r, user, hr, hfor⟩ := h.alert loop hmem c hc
    exact ⟨r, user, hregistered r user c hr, halert _ user _ hfor⟩

/-- A handler does not take back that a connection was registered. -/
theorem Moves.registered (hm : Moves s s' connectionId conn') {c : String}
    (h : s.registered r user c) : s'.registered r user c := by
  obtain ⟨stage, hconn, hstage⟩ := h
  by_cases hc : c = connectionId
  · subst hc
    obtain ⟨hreplica, huser, hregistered, -⟩ := hm.forward _ hconn hstage
    refine ⟨conn'.stage, ?_, hregistered⟩
    rw [hm.connections, Function.update_self]
    dsimp only at hreplica huser
    rw [← hreplica, ← huser]
  · refine ⟨stage, ?_, hstage⟩
    rw [hm.connections, Function.update_of_ne hc]
    exact hconn

/-- A registered connection that is served was served before. -/
theorem Moves.serving (hm : Moves s s' connectionId conn') {c : String} {r' : R} {user' : UUID}
    (h : s.registered r' user' c) (hserving : s'.connections c = some ⟨r, user, .serving⟩) :
    s.connections c = some ⟨r, user, .serving⟩ := by
  rw [hm.connections] at hserving
  by_cases hc : c = connectionId
  · subst hc
    obtain ⟨stage, hconn, hstage⟩ := h
    rw [Function.update_self] at hserving
    obtain rfl := Option.some.inj hserving
    obtain ⟨-, -, -, hnot⟩ := hm.forward _ hconn hstage
    exact absurd rfl hnot
  · rwa [Function.update_of_ne hc] at hserving

theorem Moves.isAlert (hm : Moves s s' connectionId conn') {n : ℕ} {wsPayload : Frame} :
    s'.isAlert n user wsPayload ↔ s.isAlert n user wsPayload := by
  unfold Cluster.isAlert
  rw [hm.published]

theorem Moves.past (hm : Moves s s' connectionId conn') {n : ℕ} {c : String} :
    (s'.replicas r).past n c ↔ (s.replicas r).past n c := by
  unfold Replica.past
  rw [hm.inbox, hm.loop]

theorem ClusterInv.handler (h : ClusterInv s) (hm : Moves s s' connectionId conn') :
    ClusterInv s' where
  connected := hm.connected h.connected
  listens r := (h.listens r).mono (hm.inbox r) (hm.loop r) (le_of_eq (by rw [hm.published]))
    (fun _ _ _ => hm.registered) fun _ _ _ => hm.isAlert.mpr
  audience n pub hpub c hc := by
    rw [hm.published] at hpub
    obtain ⟨r, user, wsPayload, hregistered, halert⟩ := h.audience n pub hpub c hc
    exact ⟨r, user, wsPayload, hm.registered hregistered, hm.isAlert.mpr halert⟩
  sent x hx := by
    rw [hm.sent] at hx
    obtain ⟨halert, r, hregistered, hpast⟩ := h.sent x hx
    exact ⟨hm.isAlert.mpr halert, r, hm.registered hregistered, hm.past.mpr hpast⟩
  once := by
    rw [hm.sent]
    exact h.once

/-- A message is published: nobody has taken it. -/
theorem ClusterInv.publish (h : ClusterInv s) (data : Loaded) : ClusterInv (s.publish data) := by
  have hmono : ∀ (n : ℕ) pub, s.published[n]? = some pub →
      (s.publish data).published[n]? = some pub := by
    intro n pub hpub
    obtain ⟨hlt, -⟩ := List.getElem?_eq_some_iff.mp hpub
    exact (List.getElem?_append_left hlt).trans hpub
  have halert : ∀ n user wsPayload, s.isAlert n user wsPayload →
      (s.publish data).isAlert n user wsPayload := by
    rintro n user wsPayload ⟨pub, alert, hpub, hdata⟩
    exact ⟨pub, alert, hmono n pub hpub, hdata⟩
  have hlength : (s.publish data).published.length = s.published.length + 1 := by
    simp [Cluster.publish]
  refine ⟨⟨h.connected.sockets, h.connected.conns⟩, fun r => ?_, ?_, ?_, h.once⟩
  · have hr := h.listens r
    have hnew : s.published.length ∉ (s.replicas r).inbox := fun hmem =>
      absurd (hr.known _ hmem) (lt_irrefl _)
    refine ⟨fun n hn => ?_, ?_, fun loop hloop => ?_, hr.conns, fun loop hloop c hc => ?_⟩
    · rw [hlength]
      rcases List.mem_append.mp hn with hn | hn
      · have := hr.known n hn
        omega
      · obtain rfl := List.mem_singleton.mp hn
        omega
    · refine List.nodup_append.mpr ⟨hr.nodup, List.nodup_singleton _, fun n hn m hm => ?_⟩
      rintro rfl
      obtain rfl := List.mem_singleton.mp hm
      exact hnew hn
    · obtain ⟨hlt, hnot⟩ := hr.taken loop hloop
      refine ⟨by omega, fun hmem => ?_⟩
      rcases List.mem_append.mp hmem with hmem | hmem
      · exact hnot hmem
      · have := List.mem_singleton.mp hmem
        omega
    · obtain ⟨r', user, hregistered, hfor⟩ := hr.alert loop hloop c hc
      exact ⟨r', user, hregistered, halert _ _ _ hfor⟩
  · intro n pub hpub c hc
    by_cases hn : n < s.published.length
    · have hold : s.published[n]? = some pub := (List.getElem?_append_left hn).symm.trans hpub
      obtain ⟨r, user, wsPayload, hregistered, hfor⟩ := h.audience n pub hold c hc
      exact ⟨r, user, wsPayload, hregistered, halert _ _ _ hfor⟩
    · -- the message itself: the connections that are listed now
      have hlt := (List.getElem?_eq_some_iff.mp hpub).1
      obtain rfl : n = s.published.length := by omega
      have hpub' := hpub
      simp only [Cluster.publish, List.getElem?_concat_length, Option.some.injEq] at hpub'
      subst hpub'
      cases hdata : ocrAlert data with
      | none => simp [hdata] at hc
      | some alert =>
        simp only [hdata, Option.elim_some] at hc
        obtain ⟨user, huser, hlisted⟩ := mem_userConnsOf.mp hc
        obtain ⟨conn, hconn, rfl, hstage⟩ := (h.connected.conns user c).mp hlisted
        refine ⟨conn.replica, conn.user, alert.wsPayload, ⟨conn.stage, hconn, ?_⟩,
          _, alert, hpub, hdata, huser, rfl⟩
        rintro hregistering
        rw [hregistering] at hstage
        cases hstage
  · intro x hx
    obtain ⟨hfor, r, hregistered, hnot, hloop⟩ := h.sent x hx
    refine ⟨halert _ _ _ hfor, r, hregistered, fun hmem => ?_, hloop⟩
    rcases List.mem_append.mp hmem with hmem | hmem
    · exact hnot hmem
    · obtain ⟨pub, alert, hpub, -⟩ := hfor
      have := (List.getElem?_eq_some_iff.mp hpub).1
      have := List.mem_singleton.mp hmem
      omega

/-- The listener leaves out the rest of its loop, or a part of it. -/
theorem ClusterInv.listens_shorter (h : ClusterInv s) {n : ℕ} {wsPayload : Frame} {c : String}
    {conns : List String} (hloop : (s.replicas r).loop = some ⟨n, wsPayload, c :: conns⟩)
    (replica : Replica) (hinbox : replica.inbox = (s.replicas r).inbox)
    (hrest : ∀ loop ∈ replica.loop, loop = ⟨n, wsPayload, conns⟩) :
    s.Listens replica ∧ ∀ m d, (s.replicas r).past m d → replica.past m d := by
  have hr := h.listens r
  constructor
  · refine ⟨?_, ?_, fun loop hmem => ?_, fun loop hmem => ?_, fun loop hmem d hd => ?_⟩
    · rw [hinbox]
      exact hr.known
    · rw [hinbox]
      exact hr.nodup
    · rw [hrest loop hmem, hinbox]
      exact hr.taken ⟨n, wsPayload, c :: conns⟩ hloop
    · rw [hrest loop hmem]
      exact (List.nodup_cons.mp (hr.conns ⟨n, wsPayload, c :: conns⟩ hloop)).2
    · rw [hrest loop hmem] at hd ⊢
      exact hr.alert ⟨n, wsPayload, c :: conns⟩ hloop d (List.mem_cons_of_mem _ hd)
  · rintro m d ⟨hm, hloops⟩
    refine ⟨by rwa [hinbox], fun loop hmem halert hd => ?_⟩
    obtain rfl := hrest loop hmem
    exact hloops _ hloop halert (List.mem_cons_of_mem _ hd)

/-- The listener takes a message. -/
theorem ClusterInv.listens_take (h : ClusterInv s) {n : ℕ} {inbox : List ℕ}
    (hinbox : (s.replicas r).inbox = n :: inbox) (replica : Replica)
    (hreplica : replica.inbox = inbox)
    (hloop : ∀ loop ∈ replica.loop, loop.alert = n ∧ loop.conns.Nodup ∧
      ∀ c ∈ loop.conns, ∃ r user, s.registered r user c ∧ s.isAlert n user loop.wsPayload) :
    s.Listens replica ∧ ∀ m d, (s.replicas r).past m d → replica.past m d := by
  have hr := h.listens r
  have hnodup := hr.nodup
  rw [hinbox, List.nodup_cons] at hnodup
  have hknown := hr.known
  rw [hinbox] at hknown
  constructor
  · refine ⟨fun m hm => ?_, ?_, fun loop hmem => ?_, fun loop hmem => ?_, fun loop hmem => ?_⟩
    · rw [hreplica] at hm
      exact hknown m (List.mem_cons_of_mem _ hm)
    · rw [hreplica]
      exact hnodup.2
    · rw [(hloop loop hmem).1, hreplica]
      exact ⟨hknown n List.mem_cons_self, hnodup.1⟩
    · exact (hloop loop hmem).2.1
    · rw [(hloop loop hmem).1]
      exact (hloop loop hmem).2.2
  · rintro m d ⟨hm, -⟩
    rw [hinbox, List.mem_cons, not_or] at hm
    refine ⟨by rw [hreplica]; exact hm.2, fun loop hmem halert => ?_⟩
    exact absurd (halert.symm.trans (hloop loop hmem).1) hm.1

/-! ## Sent, and owed -/

theorem ClusterInv.sentTo_length (h : ClusterInv s) (n : ℕ) (c : String) :
    (s.sentTo n c).length ≤ 1 := by
  have hcount := List.nodup_iff_count_le_one.mp h.once (n, c)
  calc (s.sentTo n c).length
      = s.sent.countP fun x => x.alert = n ∧ x.connectionId = c := by
        rw [Cluster.sentTo, List.length_map, List.countP_eq_length_filter]
    _ = (s.sent.map fun x => (x.alert, x.connectionId)).count (n, c) := by
        rw [List.count, List.countP_map]
        refine List.countP_congr fun x _ => ?_
        simp
    _ ≤ 1 := hcount

theorem ClusterInv.sentTo_eq (h : ClusterInv s) {x : Sent} (hx : x ∈ s.sent) :
    s.sentTo x.alert x.connectionId = [x.wsPayload] := by
  have hmem : x.wsPayload ∈ s.sentTo x.alert x.connectionId := by
    refine List.mem_map_of_mem (List.mem_filter.mpr ⟨hx, ?_⟩)
    simp
  have hone : (s.sentTo x.alert x.connectionId).length = 1 :=
    le_antisymm (h.sentTo_length ..) (List.length_pos_of_mem hmem)
  obtain ⟨p, hp⟩ := List.length_eq_one_iff.mp hone
  rw [hp, List.mem_singleton] at hmem
  rw [hp, hmem]

/-- A connection that was registered for an alert, and that its listener has passed, has
    been sent the alert. -/
def Received (raises : ℕ → String → Bool) (s : Cluster R) : Prop :=
  ∀ n pub, s.published[n]? = some pub → ∀ c ∈ pub.conns, ∀ r user,
    s.connections c = some ⟨r, user, .serving⟩ → raises n c = false →
      (s.replicas r).past n c → ∃ x ∈ s.sent, x.alert = n ∧ x.connectionId = c

/-- A connection that is owed an alert is listed for its user. -/
theorem ClusterInv.listed (h : ClusterInv s) {n : ℕ} {c : String} (howes : s.owes r n c)
    {pub : Published} (hpub : s.published[n]? = some pub) :
    ∃ alert, ocrAlert pub.data = some alert ∧ c ∈ userConnsOf s.presence alert.userId := by
  obtain ⟨⟨pub', hpub', hc⟩, user, hserving⟩ := howes
  obtain ⟨r', user', wsPayload, ⟨stage, hconn, -⟩, pub₂, alert, hpub₂, hdata, huser, -⟩ :=
    h.audience n pub' hpub' c hc
  obtain rfl := Option.some.inj (hpub.symm.trans hpub₂)
  refine ⟨alert, hdata, mem_userConnsOf.mpr ⟨user', huser, ?_⟩⟩
  have hsame := Option.some.inj (hserving.symm.trans hconn)
  rw [h.connected.listed hserving]
  exact ⟨congrArg Connection.user hsame, rfl⟩

theorem received_publish (h : Received raises s) (data : Loaded) :
    Received raises (s.publish data) := by
  intro n pub hpub c hc r user hserving hraises ⟨hinbox, hloop⟩
  rw [show ((s.publish data).replicas r).inbox = (s.replicas r).inbox ++ [s.published.length]
    from rfl, List.mem_append, List.mem_singleton, not_or] at hinbox
  have hlt : n < s.published.length := by
    have := (List.getElem?_eq_some_iff.mp hpub).1
    rw [show (s.publish data).published.length = s.published.length + 1 by
      simp [Cluster.publish]] at this
    omega
  have hold : s.published[n]? = some pub := (List.getElem?_append_left hlt).symm.trans hpub
  exact h n pub hold c hc r user hserving hraises ⟨hinbox.1, hloop⟩

theorem alertsReach_of_received (h : ClusterInv s) (hreceived : Received raises s) :
    AlertsReach raises s := by
  refine ⟨?_, h.sentTo_length, fun x hx => ?_⟩
  · rintro n pub alert hpub hdata c hc r user hserving ⟨hinbox, hloop⟩ hraises
    obtain ⟨x, hx, rfl, rfl⟩ := hreceived n pub hpub c hc r user hserving hraises
      ⟨hinbox, fun loop hmem halert => by rw [hloop loop hmem halert]; exact List.not_mem_nil⟩
    obtain ⟨pub', alert', hpub', hdata', -, hpayload⟩ := (h.sent x hx).1
    obtain rfl := Option.some.inj (hpub.symm.trans hpub')
    obtain rfl := Option.some.inj (hdata.symm.trans hdata')
    rw [h.sentTo_eq hx, hpayload]
  · obtain ⟨pub, alert, hpub, hdata, huser, -⟩ := (h.sent x hx).1
    exact ⟨pub, alert, hpub, hdata, huser⟩

/-! ## What a step does -/

variable [DecidableEq R]

@[simp] theorem setReplica_self (s : Cluster R) (r : R) (replica : Replica) :
    (s.setReplica r replica).replicas r = replica := Function.update_self ..

theorem setReplica_of_ne {r' : R} (hr : r' ≠ r) (replica : Replica) :
    (s.setReplica r replica).replicas r' = s.replicas r' := Function.update_of_ne hr ..

theorem setSocket_sockets (s : Cluster R) (r r' : R) (connectionId c : String)
    (socket : Option UUID) : ((s.setSocket r connectionId socket).replicas r').sockets c =
      if r' = r ∧ c = connectionId then socket else (s.replicas r').sockets c := by
  unfold Cluster.setSocket
  by_cases hr : r' = r
  · subst hr
    by_cases hc : c = connectionId
    · simp [hc]
    · simp [hc]
  · simp [setReplica_of_ne hr, hr]

/-- A socket is no matter for the listener. -/
theorem setSocket_listener (s : Cluster R) (r r' : R) (connectionId : String)
    (socket : Option UUID) :
    ((s.setSocket r connectionId socket).replicas r').inbox = (s.replicas r').inbox ∧
      ((s.setSocket r connectionId socket).replicas r').loop = (s.replicas r').loop := by
  unfold Cluster.setSocket
  by_cases hr : r' = r
  · subst hr
    simp
  · simp [setReplica_of_ne hr]

/-- A new connection. -/
theorem moves_accept (h : Placed s) (hnew : s.connections connectionId = none) :
    Moves s (s.accept r user connectionId) connectionId ⟨r, user, .registering⟩ where
  connections := rfl
  sockets r' c hc := by
    refine (setSocket_sockets s r r' connectionId c (some user)).trans ?_
    rw [if_neg fun heq => hc heq.2]
  socket r' u := by
    have hnone : (s.replicas r').sockets connectionId ≠ some u := by
      rw [ne_eq, h.sockets, hnew]
      simp
    have := setSocket_sockets s r r' connectionId connectionId (some user)
    change ((s.setSocket r connectionId (some user)).replicas r').sockets connectionId = some u ↔ _
    rw [this]
    by_cases hr : r' = r
    · subst hr
      simp [Stage.hasSocket]
    · simp [hr, hnone, Ne.symm hr]
  conns _ _ _ := Iff.rfl
  listed u := by
    change connectionId ∈ s.presence.userConns u ↔ _
    rw [h.conns, hnew]
    simp [Stage.listed]
  forward conn hconn := by
    rw [hnew] at hconn
    cases hconn
  inbox r' := (setSocket_listener s r r' connectionId (some user)).1
  loop r' := (setSocket_listener s r r' connectionId (some user)).2
  published := rfl
  sent := rfl

theorem moves_unregister (h : Placed s)
    (hconn : s.connections connectionId = some ⟨r, user, .serving⟩) :
    Moves s ((s.setSocket r connectionId none).setConnection connectionId
      ⟨r, user, .unregistering .leaving⟩) connectionId ⟨r, user, .unregistering .leaving⟩ where
  connections := rfl
  sockets r' c hc := by
    refine (setSocket_sockets s r r' connectionId c none).trans ?_
    rw [if_neg fun heq => hc heq.2]
  socket r' u := by
    change ((s.setSocket r connectionId none).replicas r').sockets connectionId = some u ↔ _
    rw [setSocket_sockets]
    by_cases hr : r' = r
    · simp [hr, Stage.hasSocket]
    · rw [if_neg fun heq => hr heq.1, h.socket hconn]
      simp [Ne.symm hr, Stage.hasSocket]
  conns _ _ _ := Iff.rfl
  listed _ := h.listed hconn
  forward c hc _ := by
    obtain rfl := Option.some.inj (hconn.symm.trans hc)
    simp
  inbox r' := (setSocket_listener s r r' connectionId none).1
  loop r' := (setSocket_listener s r r' connectionId none).2
  published := rfl
  sent := rfl

/-- What a step can do. -/
inductive ClusterMove (raises : ℕ → String → Bool) (s : Cluster R) :
    ClusterAction R → Cluster R → Prop
  | handler {a : ClusterAction R} {s' : Cluster R} {connectionId : String}
      {conn' : Connection R} (hm : Moves s s' connectionId conn') : ClusterMove raises s a s'
  | publish (data : Loaded) : ClusterMove raises s (.publish data) (s.publish data)
  /-- the message is no alert -/
  | dropped {r : R} {conns : List String} {n : ℕ} {inbox : List ℕ} {pub : Published}
      (hidle : ∀ loop ∈ (s.replicas r).loop, loop.conns = [])
      (hinbox : (s.replicas r).inbox = n :: inbox) (hpub : s.published[n]? = some pub)
      (hdata : ocrAlert pub.data = none) :
      ClusterMove raises s (.take r conns)
        (s.setReplica r { s.replicas r with inbox := inbox, loop := none })
  | taken {r : R} {conns : List String} {n : ℕ} {inbox : List ℕ} {pub : Published}
      {alert : OcrAlert} (hidle : ∀ loop ∈ (s.replicas r).loop, loop.conns = [])
      (hinbox : (s.replicas r).inbox = n :: inbox) (hpub : s.published[n]? = some pub)
      (hdata : ocrAlert pub.data = some alert) (hnodup : conns.Nodup)
      (hconns : conns.toFinset = userConnsOf s.presence alert.userId) :
      ClusterMove raises s (.take r conns) (s.setReplica r { s.replicas r with
        inbox := inbox, loop := some ⟨n, alert.wsPayload, conns⟩ })
  /-- the replica does not hold the connection -/
  | skipped {r : R} {n : ℕ} {wsPayload : Frame} {c : String} {conns : List String}
      (hloop : (s.replicas r).loop = some ⟨n, wsPayload, c :: conns⟩)
      (hsocket : (s.replicas r).sockets c = none) :
      ClusterMove raises s (.send r)
        (s.setReplica r { s.replicas r with loop := some ⟨n, wsPayload, conns⟩ })
  | failed {r : R} {n : ℕ} {wsPayload : Frame} {c : String} {conns : List String} {user : UUID}
      (hloop : (s.replicas r).loop = some ⟨n, wsPayload, c :: conns⟩)
      (hsocket : (s.replicas r).sockets c = some user) (hraises : raises n c = true) :
      ClusterMove raises s (.send r) (s.setReplica r { s.replicas r with loop := none })
  | sent {r : R} {n : ℕ} {wsPayload : Frame} {c : String} {conns : List String} {user : UUID}
      (hloop : (s.replicas r).loop = some ⟨n, wsPayload, c :: conns⟩)
      (hsocket : (s.replicas r).sockets c = some user) (hraises : raises n c = false) :
      ClusterMove raises s (.send r)
        { s.setReplica r { s.replicas r with loop := some ⟨n, wsPayload, conns⟩ } with
          sent := s.sent ++ [⟨n, c, user, wsPayload⟩] }

theorem clusterMove_send {n : ℕ} {wsPayload : Frame} {c : String} {conns : List String}
    (hloop : (s.replicas r).loop = some ⟨n, wsPayload, c :: conns⟩) :
    ClusterMove raises s (.send r) (s.send r raises n wsPayload c conns) := by
  unfold Cluster.send
  cases hsocket : (s.replicas r).sockets c with
  | none => exact .skipped hloop hsocket
  | some user =>
    dsimp only
    split_ifs with hraises
    · exact .failed hloop hsocket hraises
    · exact .sent hloop hsocket (Bool.eq_false_iff.mpr hraises)

theorem clusterMove_of_step (h : Placed s) (hs : clusterStep raises s a = some s') :
    ClusterMove raises s a s' := by
  cases a with
  | accept r user c =>
    simp only [clusterStep] at hs
    split_ifs at hs with hnew
    obtain rfl := Option.some.inj hs
    exact .handler (moves_accept h hnew)
  | register c now =>
    simp only [clusterStep] at hs
    split at hs
    · rename_i r user hconn
      obtain rfl := Option.some.inj hs
      exact .handler (moves_register h hconn)
    · cases hs
  | unregister c =>
    simp only [clusterStep] at hs
    split at hs
    · rename_i r user hconn
      obtain rfl := Option.some.inj hs
      exact .handler (moves_unregister h hconn)
    · cases hs
  | next c =>
    simp only [clusterStep] at hs
    split at hs
    · rename_i r user pc hconn
      obtain rfl := Option.some.inj hs
      obtain ⟨conn', hm⟩ := moves_next h hconn
      exact .handler hm
    · cases hs
  | publish data =>
    obtain rfl := Option.some.inj hs
    exact .publish data
  | take r conns =>
    simp only [clusterStep] at hs
    split_ifs at hs with hidle
    replace hidle : ∀ loop ∈ (s.replicas r).loop, loop.conns = [] := by
      intro loop hloop
      simpa [Option.mem_def.mp hloop] using hidle
    cases hinbox : (s.replicas r).inbox with
    | nil =>
      rw [hinbox] at hs
      cases hs
    | cons n inbox =>
      rw [hinbox] at hs
      obtain ⟨pub, hpub, hs⟩ := Option.bind_eq_some_iff.mp hs
      unfold Cluster.take at hs
      cases hdata : ocrAlert pub.data with
      | none =>
        rw [hdata] at hs
        obtain rfl := Option.some.inj hs
        exact .dropped hidle hinbox hpub hdata
      | some alert =>
        simp only [hdata] at hs
        split_ifs at hs with hconns
        obtain rfl := Option.some.inj hs
        exact .taken hidle hinbox hpub hdata hconns.1 hconns.2
  | send r =>
    simp only [clusterStep] at hs
    split at hs
    · rename_i n wsPayload c conns hloop
      obtain rfl := Option.some.inj hs
      exact clusterMove_send hloop
    · cases hs

/-! ## Every step -/

/-- The listener of `r` goes on. -/
theorem ClusterInv.setReplica (h : ClusterInv s) (replica : Replica)
    (hsockets : replica.sockets = (s.replicas r).sockets) (hlistens : s.Listens replica)
    (hpast : ∀ n c, (s.replicas r).past n c → replica.past n c) :
    ClusterInv (s.setReplica r replica) := by
  refine ⟨⟨fun r' c u => ?_, h.connected.conns⟩, fun r' => ?_, h.audience, fun x hx => ?_, h.once⟩
  · by_cases hr : r' = r
    · subst hr
      rw [setReplica_self, hsockets]
      exact h.connected.sockets r' c u
    · rw [setReplica_of_ne hr]
      exact h.connected.sockets r' c u
  · by_cases hr : r' = r
    · subst hr
      rw [setReplica_self]
      exact hlistens.mono rfl rfl le_rfl (fun _ _ _ => id) fun _ _ _ => id
    · rw [setReplica_of_ne hr]
      exact (h.listens r').mono rfl rfl le_rfl (fun _ _ _ => id) fun _ _ _ => id
  · obtain ⟨hfor, r', hregistered, hx'⟩ := h.sent x hx
    refine ⟨hfor, r', hregistered, ?_⟩
    by_cases hr : r' = r
    · subst hr
      rw [setReplica_self]
      exact hpast _ _ hx'
    · rw [setReplica_of_ne hr]
      exact hx'

/-- A send that returns: the listener had not come to the connection before. -/
theorem ClusterInv.sends (h : ClusterInv s) {n : ℕ} {wsPayload : Frame} {c : String}
    {conns : List String} (hloop : (s.replicas r).loop = some ⟨n, wsPayload, c :: conns⟩)
    (hsocket : (s.replicas r).sockets c = some user) :
    ClusterInv { s.setReplica r { s.replicas r with loop := some ⟨n, wsPayload, conns⟩ } with
      sent := s.sent ++ [⟨n, c, user, wsPayload⟩] } := by
  obtain ⟨hlistens, hpast⟩ := h.listens_shorter hloop
    { s.replicas r with loop := some ⟨n, wsPayload, conns⟩ } rfl fun loop hmem =>
      (Option.some.inj hmem).symm
  have hset := h.setReplica (r := r)
    { s.replicas r with loop := some ⟨n, wsPayload, conns⟩ } rfl hlistens hpast
  have hr := h.listens r
  obtain ⟨r', user', hregistered, hfor⟩ := hr.alert _ hloop c List.mem_cons_self
  -- the connection is on this replica, since its socket is
  obtain ⟨stage, hconn, hstage⟩ := hregistered
  obtain ⟨hr', huser, -⟩ := (h.connected.socket hconn).mp hsocket
  dsimp only at hr' huser
  subst hr' huser
  refine ⟨⟨hset.connected.sockets, hset.connected.conns⟩, fun r' => ?_, hset.audience, ?_, ?_⟩
  · exact (hset.listens r').mono rfl rfl le_rfl (fun _ _ _ => id) fun _ _ _ => id
  · intro x hx
    rcases List.mem_append.mp hx with hx | hx
    · exact hset.sent x hx
    · obtain rfl := List.mem_singleton.mp hx
      refine ⟨hfor, r', ⟨stage, hconn, hstage⟩, ?_⟩
      change ((s.setReplica r' { s.replicas r' with
        loop := some ⟨n, wsPayload, conns⟩ }).replicas r').past n c
      rw [setReplica_self]
      refine ⟨(hr.taken _ hloop).2, fun loop hmem _ => ?_⟩
      obtain rfl := Option.some.inj hmem
      exact (List.nodup_cons.mp (hr.conns _ hloop)).1
  · change ((s.sent ++ [_]).map _).Nodup
    rw [List.map_append, List.nodup_append]
    refine ⟨h.once, List.nodup_singleton _, ?_⟩
    rintro key hkey _ hlast rfl
    obtain rfl := List.mem_singleton.mp hlast
    obtain ⟨x, hx, heq⟩ := List.mem_map.mp hkey
    obtain ⟨rfl, rfl⟩ := Prod.mk.inj heq
    obtain ⟨-, r₂, ⟨stage₂, hconn₂, -⟩, hpast₂⟩ := h.sent x hx
    have hsame := Option.some.inj (hconn.symm.trans hconn₂)
    obtain rfl : r' = r₂ := congrArg Connection.replica hsame
    exact hpast₂.2 _ hloop rfl List.mem_cons_self

theorem ClusterInv.move (h : ClusterInv s) (hm : ClusterMove raises s a s') : ClusterInv s' := by
  cases hm with
  | handler hm => exact h.handler hm
  | publish data => exact h.publish data
  | @dropped r conns n inbox pub hidle hinbox hpub hdata =>
    obtain ⟨hlistens, hpast⟩ := h.listens_take hinbox
      { s.replicas r with inbox := inbox, loop := none } rfl fun loop hmem => by cases hmem
    exact h.setReplica _ rfl hlistens hpast
  | @taken r conns n inbox pub alert hidle hinbox hpub hdata hnodup hconns =>
    have hfor : ∀ c ∈ conns,
        ∃ r user, s.registered r user c ∧ s.isAlert n user alert.wsPayload := by
      intro c hc
      rw [← List.mem_toFinset, hconns, mem_userConnsOf] at hc
      obtain ⟨user, huser, hlisted⟩ := hc
      obtain ⟨conn, hconn, rfl, hstage⟩ := (h.connected.conns user c).mp hlisted
      refine ⟨conn.replica, conn.user, ⟨conn.stage, hconn, ?_⟩, pub, alert, hpub, hdata, huser, rfl⟩
      intro hregistering
      rw [hregistering] at hstage
      cases hstage
    obtain ⟨hlistens, hpast⟩ := h.listens_take hinbox { s.replicas r with
        inbox := inbox, loop := some ⟨n, alert.wsPayload, conns⟩ } rfl fun loop hmem => by
      obtain rfl := Option.some.inj hmem
      exact ⟨rfl, hnodup, hfor⟩
    exact h.setReplica _ rfl hlistens hpast
  | @skipped r n wsPayload c conns hloop hsocket =>
    obtain ⟨hlistens, hpast⟩ := h.listens_shorter hloop
      { s.replicas r with loop := some ⟨n, wsPayload, conns⟩ } rfl fun loop hmem =>
        (Option.some.inj hmem).symm
    exact h.setReplica _ rfl hlistens hpast
  | @failed r n wsPayload c conns user hloop hsocket hraises =>
    obtain ⟨hlistens, hpast⟩ := h.listens_shorter hloop { s.replicas r with loop := none } rfl
      fun loop hmem => by cases hmem
    exact h.setReplica _ rfl hlistens hpast
  | sent hloop hsocket hraises => exact h.sends hloop hsocket

/-- **Step.** A step keeps every connection on its replica, and every listener from
    coming to a connection twice with one alert. -/
theorem ClusterInv.step (h : ClusterInv s) (hs : clusterStep raises s a = some s') :
    ClusterInv s' := h.move (clusterMove_of_step h.connected hs)

/-! ## The end of the loop -/

/-- A step of the listener of `r`. -/
def ClusterAction.listener (r : R) : ClusterAction R → Prop
  | .take r' _ => r' = r
  | .send r' => r' = r
  | _ => False

/-- The sends that are left of the loop. -/
def Replica.left (replica : Replica) : ℕ := (replica.loop.elim [] (·.conns)).length

omit [DecidableEq R] in
theorem idle_iff : (∀ loop ∈ (s.replicas r).loop, loop.conns = []) ↔ (s.replicas r).left = 0 := by
  unfold Replica.left
  cases (s.replicas r).loop with
  | none => simp
  | some loop => simp

omit [DecidableEq R] in
theorem exists_of_left_pos (h : 0 < (s.replicas r).left) :
    ∃ n wsPayload c conns, (s.replicas r).loop = some ⟨n, wsPayload, c :: conns⟩ ∧
      (s.replicas r).left = conns.length + 1 := by
  unfold Replica.left at *
  cases hloop : (s.replicas r).loop with
  | none =>
    rw [hloop] at h
    cases h
  | some loop =>
    rw [hloop] at h
    obtain ⟨n, wsPayload, conns⟩ := loop
    cases conns with
    | nil => cases h
    | cons c conns => exact ⟨n, wsPayload, c, conns, rfl, rfl⟩

/-- The listener of `r` can run `s` to `s'`. -/
def ListensTo (raises : ℕ → String → Bool) (r : R) (s s' : Cluster R) : Prop :=
  ∃ as, (∀ a ∈ as, ClusterAction.listener r a) ∧ run (clusterStep raises) s as = some s'

theorem ListensTo.refl (raises : ℕ → String → Bool) (r : R) (s : Cluster R) :
    ListensTo raises r s s := ⟨[], fun a ha => (by cases ha), rfl⟩

theorem ListensTo.head {m : Cluster R} (hs : clusterStep raises s a = some m)
    (ha : ClusterAction.listener r a) (h : ListensTo raises r m s') :
    ListensTo raises r s s' := by
  obtain ⟨as, has, hrun⟩ := h
  refine ⟨a :: as, List.forall_mem_cons.mpr ⟨ha, has⟩, ?_⟩
  rw [run_cons, hs]
  exact hrun

theorem ListensTo.trans {m : Cluster R} (h : ListensTo raises r s m)
    (h' : ListensTo raises r m s') : ListensTo raises r s s' := by
  obtain ⟨as, has, hrun⟩ := h
  obtain ⟨bs, hbs, hrun'⟩ := h'
  refine ⟨as ++ bs, List.forall_mem_append.mpr ⟨has, hbs⟩, ?_⟩
  rw [run_append, hrun]
  exact hrun'

/-- A send that raises leaves nothing, and any other the rest. -/
theorem send_left (s : Cluster R) (r : R) (raises : ℕ → String → Bool) (n : ℕ)
    (wsPayload : Frame) (c : String) (conns : List String) :
    ((s.send r raises n wsPayload c conns).replicas r).inbox = (s.replicas r).inbox ∧
      ((s.send r raises n wsPayload c conns).replicas r).left ≤ conns.length := by
  unfold Cluster.send
  cases (s.replicas r).sockets c with
  | none =>
    dsimp only
    rw [setReplica_self]
    exact ⟨rfl, le_rfl⟩
  | some user =>
    dsimp only
    split_ifs
    · rw [setReplica_self]
      exact ⟨rfl, Nat.zero_le _⟩
    · rw [setReplica_self]
      exact ⟨rfl, le_rfl⟩

/-- Every loop ends. -/
theorem loop_finishes (k : ℕ) (h : ClusterInv s) (hk : (s.replicas r).left ≤ k) :
    ∃ s', ListensTo raises r s s' ∧ ClusterInv s' ∧
      (s'.replicas r).inbox = (s.replicas r).inbox ∧ (s'.replicas r).left = 0 := by
  induction k generalizing s with
  | zero => exact ⟨s, .refl raises r s, h, rfl, Nat.le_zero.mp hk⟩
  | succ k ih =>
    by_cases hzero : (s.replicas r).left = 0
    · exact ⟨s, .refl raises r s, h, rfl, hzero⟩
    · obtain ⟨n, wsPayload, c, conns, hloop, hlength⟩ :=
        exists_of_left_pos (Nat.pos_of_ne_zero hzero)
      have hstep : clusterStep raises s (.send r) = some (s.send r raises n wsPayload c conns) := by
        simp only [clusterStep, hloop]
      obtain ⟨hinbox, hleft⟩ := send_left s r raises n wsPayload c conns
      obtain ⟨s', hs', hinv, hinbox', hleft'⟩ := ih (h.step hstep) (by omega)
      exact ⟨s', hs'.head hstep rfl, hinv, hinbox'.trans hinbox, hleft'⟩

/-- A listener without a loop takes its next message. -/
theorem take_enabled (h : ClusterInv s) (hidle : (s.replicas r).left = 0) {n : ℕ}
    {inbox : List ℕ} (hinbox : (s.replicas r).inbox = n :: inbox) :
    ∃ conns s', clusterStep raises s (.take r conns) = some s' ∧
      (s'.replicas r).inbox = inbox := by
  have hempty : (s.replicas r).loop.all (·.conns.isEmpty) = true := by
    rw [Option.all_eq_true]
    intro loop hloop
    rw [idle_iff.mpr hidle loop hloop]
    rfl
  have hlt : n < s.published.length :=
    (h.listens r).known n (by rw [hinbox]; exact List.mem_cons_self)
  have hpub : s.published[n]? = some s.published[n] := List.getElem?_eq_getElem hlt
  simp only [clusterStep, if_pos hempty, hinbox, hpub, Option.bind_some, Cluster.take]
  cases ocrAlert s.published[n].data with
  | none => exact ⟨[], _, rfl, by rw [setReplica_self]⟩
  | some alert =>
    refine ⟨(userConnsOf s.presence alert.userId).toList, _, if_pos ⟨?_, ?_⟩,
      by rw [setReplica_self]⟩
    · exact Finset.nodup_toList _
    · exact Finset.toList_toFinset _

/-- **Progress.** A listener comes to the end of its loop and of the alerts it was given. -/
theorem listener_finishes (raises : ℕ → String → Bool) (r : R) (h : ClusterInv s) :
    ∃ s', ListensTo raises r s s' ∧ ∀ n, s'.done r n := by
  induction hinbox : (s.replicas r).inbox generalizing s with
  | nil =>
    obtain ⟨s', hs', -, hinbox', hleft⟩ := loop_finishes _ h le_rfl
    refine ⟨s', hs', fun n => ⟨?_, fun loop hloop _ => idle_iff.mpr hleft loop hloop⟩⟩
    rw [hinbox', hinbox]
    exact List.not_mem_nil
  | cons n inbox ih =>
    obtain ⟨m, hm, hinv, hinbox', hleft⟩ := loop_finishes _ h le_rfl
    obtain ⟨conns, t, ht, hrest⟩ := take_enabled hinv hleft (hinbox'.trans hinbox)
    obtain ⟨s', hs', hdone⟩ := ih (hinv.step ht) hrest
    exact ⟨s', hm.trans (hs'.head ht rfl), hdone⟩

/-! ## Reaching every connection -/

/-- The listener of `r` passes no connection that is owed an alert. -/
theorem received_setReplica (h : Received raises s) (replica : Replica)
    (hpast : ∀ n c, s.owes r n c → raises n c = false → replica.past n c →
      (s.replicas r).past n c) : Received raises (s.setReplica r replica) := by
  intro n pub hpub c hc r' user hserving hraises hpassed
  refine h n pub hpub c hc r' user hserving hraises ?_
  by_cases hr : r' = r
  · subst hr
    refine hpast n c ⟨⟨pub, hpub, hc⟩, user, hserving⟩ hraises ?_
    rwa [setReplica_self] at hpassed
  · rwa [setReplica_of_ne hr] at hpassed

theorem received_move (h : ClusterInv s) (hreceived : Received raises s)
    (hg : FailsLast raises s a) (hm : ClusterMove raises s a s') : Received raises s' := by
  cases hm with
  | @handler a s' connectionId conn' hm =>
    intro n pub hpub c hc r user hserving hraises hpast
    rw [hm.published] at hpub
    rw [hm.sent]
    obtain ⟨r', user', -, hregistered, -⟩ := h.audience n pub hpub c hc
    exact hreceived n pub hpub c hc r user (hm.serving hregistered hserving) hraises
      (hm.past.mp hpast)
  | publish data => exact received_publish hreceived data
  | @dropped r conns n inbox pub hidle hinbox hpub hdata =>
    refine received_setReplica hreceived _ fun m c howes hraises hpast => ?_
    refine ⟨?_, fun loop hmem _ => by rw [hidle loop hmem]; exact List.not_mem_nil⟩
    rw [hinbox, List.mem_cons, not_or]
    refine ⟨?_, hpast.1⟩
    rintro rfl
    obtain ⟨alert, hsome, -⟩ := h.listed howes hpub
    rw [hdata] at hsome
    cases hsome
  | @taken r conns n inbox pub alert hidle hinbox hpub hdata hnodup hconns =>
    refine received_setReplica hreceived _ fun m c howes hraises hpast => ?_
    refine ⟨?_, fun loop hmem _ => by rw [hidle loop hmem]; exact List.not_mem_nil⟩
    rw [hinbox, List.mem_cons, not_or]
    refine ⟨?_, hpast.1⟩
    rintro rfl
    obtain ⟨alert', hsome, hlisted⟩ := h.listed howes hpub
    obtain rfl := Option.some.inj (hdata.symm.trans hsome)
    rw [← hconns, List.mem_toFinset] at hlisted
    exact hpast.2 _ rfl rfl hlisted
  | @skipped r n wsPayload c conns hloop hsocket =>
    refine received_setReplica hreceived _ fun m d howes hraises hpast => ⟨hpast.1, ?_⟩
    intro loop hmem halert
    obtain rfl := Option.some.inj (hloop.symm.trans hmem)
    refine List.not_mem_cons_of_ne_of_not_mem ?_ (hpast.2 _ rfl halert)
    -- a connection that is served has its socket
    rintro rfl
    obtain ⟨-, user, hserving⟩ := howes
    have := (h.connected.socket (r := r) (u := user) hserving).mpr ⟨rfl, rfl, rfl⟩
    rw [hsocket] at this
    cases this
  | @failed r n wsPayload c conns user hloop hsocket hfails =>
    refine received_setReplica hreceived _ fun m d howes hraises hpast => ⟨hpast.1, ?_⟩
    intro loop hmem halert hd
    obtain rfl := Option.some.inj (hloop.symm.trans hmem)
    subst halert
    rcases List.mem_cons.mp hd with rfl | hd
    · rw [hfails] at hraises
      cases hraises
    · rw [hg _ hloop c conns rfl (by rw [hsocket]; simp) hfails d hd howes] at hraises
      cases hraises
  | @sent r n wsPayload c conns user hloop hsocket hreturns =>
    intro m pub hpub d hd r' user' hserving hraises hpast
    by_cases hnew : m = n ∧ d = c
    · obtain ⟨rfl, rfl⟩ := hnew
      exact ⟨_, List.mem_append_right _ (List.mem_singleton_self _), rfl, rfl⟩
    · -- but for the connection that was sent to, the listener has passed nothing more
      have hother : Received (fun m d => raises m d || decide (m = n ∧ d = c)) s := by
        intro m pub hpub d hd r user hserving hraises
        exact hreceived m pub hpub d hd r user hserving (Bool.or_eq_false_iff.mp hraises).1
      have hset := received_setReplica (r := r) hother
        { s.replicas r with loop := some ⟨n, wsPayload, conns⟩ } fun m d _ hraises hpast =>
          ⟨hpast.1, fun loop hmem halert => by
            obtain rfl := Option.some.inj (hloop.symm.trans hmem)
            refine List.not_mem_cons_of_ne_of_not_mem ?_ (hpast.2 _ rfl halert)
            rintro rfl
            exact of_decide_eq_false (Bool.or_eq_false_iff.mp hraises).2 ⟨halert.symm, rfl⟩⟩
      obtain ⟨x, hx, hkey⟩ := hset m pub hpub d hd r' user' hserving
        (Bool.or_eq_false_iff.mpr ⟨hraises, decide_eq_false hnew⟩) hpast
      exact ⟨x, List.mem_append_left _ hx, hkey⟩

/-- A send that raises before one that is owed loses the alert. -/
theorem lost_of_fails (h : ClusterInv s) (hg : ¬ FailsLast raises s a) :
    ∃ s' ∈ clusterStep raises s a, ¬ AlertsReach raises s' := by
  cases a with
  | send r =>
    simp only [FailsLast, not_forall] at hg
    obtain ⟨⟨n, wsPayload, rest⟩, hloop, c, conns, hrest, hsocket, hfails, c', hc', howes,
      hraises⟩ := hg
    dsimp only at hrest hfails howes hraises
    subst hrest
    replace hloop := Option.mem_def.mp hloop
    obtain ⟨user, hsocket⟩ := Option.ne_none_iff_exists'.mp hsocket
    refine ⟨s.setReplica r { s.replicas r with loop := none }, ?_, fun hreach => ?_⟩
    · simp [clusterStep, hloop, Cluster.send, hsocket, hfails]
    · obtain ⟨⟨pub, hpub, hmem⟩, user', hserving⟩ := howes
      obtain ⟨alert, hdata, -⟩ := h.listed ⟨⟨pub, hpub, hmem⟩, user', hserving⟩ hpub
      have hdone : (s.setReplica r { s.replicas r with loop := none }).done r n := by
        unfold Cluster.done
        rw [setReplica_self]
        exact ⟨((h.listens r).taken _ hloop).2, fun loop hmem => by cases hmem⟩
      have hsent : s.sentTo n c' = [alert.wsPayload] :=
        hreach.received n pub alert hpub hdata c' hmem r user' hserving hdone
          (Bool.eq_false_iff.mpr hraises)
      obtain ⟨x, hx, -⟩ := List.mem_map.mp (hsent ▸ List.mem_singleton_self alert.wsPayload)
      obtain ⟨hxs, hkey⟩ := List.mem_filter.mp hx
      obtain ⟨rfl, rfl⟩ := of_decide_eq_true hkey
      -- what was sent is behind the listener
      obtain ⟨-, r₂, ⟨stage, hconn, -⟩, hpast⟩ := h.sent x hxs
      have hsame := Option.some.inj (hserving.symm.trans hconn)
      obtain rfl : r = r₂ := congrArg Connection.replica hsame
      exact hpast.2 _ hloop rfl (List.mem_cons_of_mem _ hc')
  | _ => exact absurd trivial hg

/-- **Alerts.** Over every run, an alert is sent exactly once to every registered connection
    of its user whose send does not raise, and to nobody else, if and only if in no loop a
    send that raises comes before one that the replica owes. -/
theorem alertsReach_iff (raises : ℕ → String → Bool) (as : List (ClusterAction R)) :
    Throughout (clusterStep raises) (AlertsReach raises) (Cluster.init R) as ↔
      Guarded (clusterStep raises) (FailsLast raises) (Cluster.init R) as := by
  refine throughout_iff_guarded (I := fun s => ClusterInv s ∧ Received raises s)
    (fun s h => alertsReach_of_received h.1 h.2) ?_ ?_ ⟨clusterInv_init, ?_⟩
  · intro s a s' ⟨h, hreceived⟩ hg hs
    exact ⟨h.step hs, received_move h hreceived hg (clusterMove_of_step h.connected hs)⟩
  · intro s a h hg
    exact lost_of_fails h.1 hg
  · intro n pub hpub
    simp [Cluster.init] at hpub

/-- Two devices of a user on one replica, and an alert; `smembers` lists the phone first. -/
def phoneFirst : List (ClusterAction Unit) :=
  [.accept () 7 "phone", .register "phone" 0, .accept () 7 "laptop", .register "laptop" 0,
    .publish (publishOcrAlert "scan" (UUID.str 7) "invoice"), .take () ["phone", "laptop"],
    .send ()]

/-- The send to the phone raises, and the laptop never gets the alert. -/
theorem broken_phone_silences_laptop :
    ∃ s ∈ run (clusterStep fun _ c => c = "phone") (Cluster.init Unit) phoneFirst,
      ¬ AlertsReach (fun _ c => decide (c = "phone")) s := by
  have hrun : ∃ s ∈ run (clusterStep fun _ c => c = "phone") (Cluster.init Unit) phoneFirst,
      s.connections "laptop" = some ⟨(), 7, .serving⟩ ∧ (s.replicas ()).inbox = [] ∧
        (s.replicas ()).loop.isNone = true ∧ s.sent.isEmpty = true ∧
        ∃ pub ∈ s.published[0]?, "laptop" ∈ pub.conns ∧ (ocrAlert pub.data).isSome = true := by
    decide +kernel
  obtain ⟨s, hs, hserving, hinbox, hloop, hsent, pub, hpub, hlaptop, halert⟩ := hrun
  refine ⟨s, hs, fun hreach => ?_⟩
  obtain ⟨alert, hdata⟩ := Option.isSome_iff_exists.mp halert
  have hdone : s.done () 0 := by
    refine ⟨by rw [hinbox]; exact List.not_mem_nil, fun loop hmem => ?_⟩
    rw [Option.isNone_iff_eq_none.mp hloop] at hmem
    cases hmem
  have hone :=
    hreach.received 0 pub alert hpub hdata "laptop" hlaptop () 7 hserving hdone (by decide)
  rw [Cluster.sentTo, List.isEmpty_iff.mp hsent] at hone
  cases hone

end IronLink.Ws
