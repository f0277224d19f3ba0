import IronLink.Lib.Lease
import IronLink.Lib.Run
import IronLink.Ws.Manager

/-!
# The heartbeat of a connection

`WsService` (frontend/lib/core/ws_service.dart:28-59, 105-109) opens a socket and pings it every
45 seconds, with a timer that any socket stops when it ends. The server registers the connection in
Redis for 90 seconds and renews that with each ping it reads (app/api/routes/websocket.py:64-113).

Results:
* `Pinged.live`: a connection whose pings are in time is registered.
* `registration_kept`: the registration of the connection that the app holds never lapses, whatever
  sockets it has opened before, if timer callbacks and pings together are less than 45 s late.
-/

namespace IronLink.Client

open Lib Ws

/-! ## Model -/

/-- `Duration(seconds: 45)` (core/ws_service.dart:53). -/
def PING_PERIOD : Time := seconds 45

/-- How far `chat_socket` is with a connection. -/
inductive SocketPhase
  | connecting
  | registered (connectionId : String)
  /-- it has ended, or has refused the ticket -/
  | closed
  deriving DecidableEq

/-- A socket that the app has opened. -/
structure AppSocket where
  phase : SocketPhase
  /-- when each ping was sent that the server has not read yet, oldest first -/
  pings : List Time
  /-- its stream is done -/
  ended : Bool

/-- A periodic timer; `due` is the time of its next callback. -/
structure PingTimer where
  due : Time
  active : Bool

/-- The app and Redis. Sockets and timers have the numbers they were created under; `channel` and
    `pingTimer` are the fields of `WsService`. -/
structure Heartbeats where
  presence : Presence
  now : Time
  sockets : List AppSocket
  timers : List PingTimer
  channel : Option ℕ
  pingTimer : Option ℕ

def Heartbeats.init (presence : Presence) (now : Time) : Heartbeats :=
  ⟨presence, now, [], [], none, none⟩

def AppSocket.connectionId (socket : AppSocket) : Option String :=
  match socket.phase with
  | .registered connectionId => some connectionId
  | _ => none

namespace Heartbeats

/-- The connection id of the socket `c`. -/
def idOf (s : Heartbeats) (c : ℕ) : Option String := (s.sockets[c]?).bind AppSocket.connectionId

/-- One of the app's sockets is registered under the id. -/
def Owns (s : Heartbeats) (connectionId : String) : Prop :=
  ∃ socket ∈ s.sockets, socket.connectionId = some connectionId

instance (s : Heartbeats) (connectionId : String) : Decidable (s.Owns connectionId) :=
  inferInstanceAs (Decidable (∃ _ ∈ _, _))

/-- The end of `connect` (core/ws_service.dart:33-56), with the ticket. The timer of an earlier
    call goes on. -/
def connect (s : Heartbeats) : Heartbeats :=
  { s with
    sockets := s.sockets ++ [⟨.connecting, [], false⟩]
    timers := s.timers ++ [⟨s.now + PING_PERIOD, true⟩]
    channel := some s.sockets.length
    pingTimer := some s.timers.length }

/-- `send({'type': 'ping'})` (core/ws_service.dart:54, 58-60). -/
def sendPing (s : Heartbeats) : Heartbeats :=
  match s.channel with
  | none => s
  | some c =>
    { s with sockets := s.sockets.modify c fun socket =>
        { socket with pings := socket.pings ++ [s.now] } }

/-- `_handleDisconnect` (core/ws_service.dart:105-109). -/
def handleDisconnect (s : Heartbeats) : Heartbeats :=
  { s with
    timers := match s.pingTimer with
      | none => s.timers
      | some t => s.timers.modify t fun timer => { timer with active := false }
    channel := none }

end Heartbeats

inductive HeartbeatAction
  /-- the app opens a socket -/
  | connect
  /-- the callback of the timer `t`; the next one is due at `due` -/
  | fire (t : ℕ) (due : Time)
  /-- the server accepts the socket `c` and draws `connectionId` -/
  | accept (c : ℕ) (connectionId : String)
  /-- the server reads a ping -/
  | read (c : ℕ)
  /-- the end of `chat_socket`, or a ticket that is refused -/
  | close (c : ℕ)
  /-- the stream of the socket `c` brings an error -/
  | failed (c : ℕ)
  /-- the stream of the socket `c` is done -/
  | done (c : ℕ)
  /-- calls for connections of other apps -/
  | otherRegister (userId : UUID) (connectionId : String)
  | otherHeartbeat (connectionId : String)
  | otherUnregister (userId : UUID) (connectionId : String)
  | tick (d : ℕ)

/-- One step, for an app of `userId`. A periodic timer calls back at most once in 45 seconds, and
    what `unregister` does after its pipeline changes no `ws:conn`. -/
def heartbeatStep (userId : UUID) (s : Heartbeats) : HeartbeatAction → Option Heartbeats
  | .connect => some s.connect
  | .fire t due =>
    (s.timers[t]?).bind fun timer =>
      if timer.active ∧ timer.due ≤ s.now ∧ s.now ≤ due ∧ due ≤ s.now + PING_PERIOD then
        some ({ s with timers := s.timers.set t { timer with due := due } } : Heartbeats).sendPing
      else none
  | .accept c connectionId =>
    (s.sockets[c]?).bind fun socket =>
      if socket.phase = .connecting ∧ ¬ s.Owns connectionId then
        some { s with
          presence := register s.presence s.now userId connectionId
          sockets := s.sockets.set c { socket with phase := .registered connectionId } }
      else none
  | .read c =>
    (s.sockets[c]?).bind fun socket =>
      match socket.phase, socket.pings with
      | .registered connectionId, _ :: pings =>
        some { s with
          presence := heartbeat s.presence s.now connectionId
          sockets := s.sockets.set c { socket with pings := pings } }
      | _, _ => none
  | .close c =>
    (s.sockets[c]?).bind fun socket =>
      match socket.phase with
      | .connecting => some { s with sockets := s.sockets.set c { socket with phase := .closed } }
      | .registered connectionId =>
        some { s with
          presence := unregister s.presence userId connectionId
          sockets := s.sockets.set c { socket with phase := .closed } }
      | .closed => none
  | .failed c =>
    (s.sockets[c]?).bind fun socket => if socket.ended then none else some s.handleDisconnect
  | .done c =>
    (s.sockets[c]?).bind fun socket =>
      if socket.ended then none
      else some ({ s with
        sockets := s.sockets.set c { socket with ended := true } } : Heartbeats).handleDisconnect
  | .otherRegister otherId connectionId =>
    if s.Owns connectionId then none
    else some { s with presence := register s.presence s.now otherId connectionId }
  | .otherHeartbeat connectionId =>
    if s.Owns connectionId then none
    else some { s with presence := heartbeat s.presence s.now connectionId }
  | .otherUnregister otherId connectionId =>
    if s.Owns connectionId then none
    else some { s with presence := unregister s.presence otherId connectionId }
  | .tick d => some { s with now := s.now + d }

/-- The timer of the app is at most `late` behind, and the server has each ping of the connection
    the app holds within `latency`. -/
def Punctual (late latency : Time) (s : Heartbeats) : HeartbeatAction → Prop
  | .tick d =>
    (∀ t ∈ s.pingTimer, ∀ timer ∈ s.timers[t]?, timer.active → s.now + d ≤ timer.due + late) ∧
      ∀ c ∈ s.channel, ∀ socket ∈ s.sockets[c]?, socket.phase ≠ .closed →
        ∀ p ∈ socket.pings, s.now + d ≤ p + latency
  | _ => True

instance (late latency : Time) (s : Heartbeats) :
    (a : HeartbeatAction) → Decidable (Punctual late latency s a)
  | .tick _ => inferInstanceAs (Decidable (_ ∧ _))
  | .connect | .fire .. | .accept .. | .read _ | .close _ | .failed _ | .done _ | .otherRegister ..
  | .otherHeartbeat _ | .otherUnregister .. => isTrue trivial

/-! ## A connection that is pinged -/

section Pings

variable {userId : UUID} {late latency now due base : Time} {presence presence' : Presence}
  {socket : AppSocket} {connectionId : String}

theorem conn_unregister (presence : Presence) (userId : UUID) (connectionId : String) :
    (unregister presence userId connectionId).conn = presence.conn.del connectionId := by
  unfold unregister
  dsimp only
  split_ifs <;> rfl

/-- The socket is pinged in time by a timer that calls back at `due`; the last ping that the server
    has read, or the socket's beginning, was at `base`. -/
structure Pinged (userId : UUID) (late latency : Time) (presence : Presence) (now due : Time)
    (socket : AppSocket) (base : Time) : Prop where
  renewed : Renewed (PING_PERIOD + late) PING_PERIOD base socket.pings due now
  punctual : ∀ p ∈ socket.pings, now ≤ p + latency
  kept : ∀ connectionId, socket.connectionId = some connectionId →
    ∃ connectedAt deadline, presence.conn connectionId =
      some ⟨⟨userId, connectedAt⟩, some deadline⟩ ∧ base + seconds CONN_TTL_SECONDS ≤ deadline

theorem Pinged.congr (h : Pinged userId late latency presence now due socket base)
    (hconn : ∀ connectionId, socket.connectionId = some connectionId →
      presence'.conn connectionId = presence.conn connectionId) :
    Pinged userId late latency presence' now due socket base := by
  refine ⟨h.renewed, h.punctual, fun connectionId hid => ?_⟩
  rw [hconn connectionId hid]
  exact h.kept connectionId hid

/-- A connection whose pings are in time is registered. -/
theorem Pinged.live (h : Pinged userId late latency presence now due socket base)
    (hlatency : 0 ≤ latency) (hsum : PING_PERIOD + late + latency < seconds CONN_TTL_SECONDS)
    (hnow : now ≤ due + late) (hid : socket.connectionId = some connectionId) :
    ∃ connectedAt deadline, presence.conn.lookup now connectionId =
      some ⟨⟨userId, connectedAt⟩, some deadline⟩ := by
  obtain ⟨connectedAt, deadline, hconn, hdeadline⟩ := h.kept connectionId hid
  have hage := h.renewed.now_le hlatency hnow h.punctual
  refine ⟨connectedAt, deadline, TtlMap.lookup_of_live hconn ?_⟩
  rw [Entry.live_of_deadline rfl]
  calc now ≤ base + (PING_PERIOD + late) + latency := hage
    _ = base + (PING_PERIOD + late + latency) := add_assoc _ _ _
    _ < base + seconds CONN_TTL_SECONDS := add_lt_add_right hsum base
    _ ≤ deadline := hdeadline

/-- The server registers the connection. -/
theorem Pinged.accept (h : Pinged userId late latency presence now due socket base) :
    Pinged userId late latency (register presence now userId connectionId) now due
      { socket with phase := .registered connectionId } base := by
  refine ⟨h.renewed, h.punctual, fun k hk => ?_⟩
  obtain rfl := Option.some.inj hk
  refine ⟨now, _, TtlMap.set_self _ _ _ _, ?_⟩
  exact add_le_add_left (h.renewed.past base List.mem_cons_self) _

/-- The server reads a ping of a connection that is registered. -/
theorem Pinged.read {p : Time} {pings : List Time}
    (h : Pinged userId late latency presence now due socket base)
    (hpings : socket.pings = p :: pings)
    (hlatency : 0 ≤ latency) (hsum : PING_PERIOD + late + latency < seconds CONN_TTL_SECONDS)
    (hnow : now ≤ due + late) (hid : socket.connectionId = some connectionId) :
    Pinged userId late latency (heartbeat presence now connectionId) now due
      { socket with pings := pings } p := by
  obtain ⟨connectedAt, deadline, hlookup⟩ := h.live hlatency hsum hnow hid
  obtain ⟨hrenewed, hpunctual, -⟩ := h
  rw [hpings] at hrenewed hpunctual
  refine ⟨hrenewed.arrive, (List.forall_mem_cons.mp hpunctual).2, fun k hk => ?_⟩
  obtain rfl := Option.some.inj (hid.symm.trans hk)
  refine ⟨connectedAt, now + seconds CONN_TTL_SECONDS, ?_, ?_⟩
  · show presence.conn.expire now connectionId (now + seconds CONN_TTL_SECONDS) connectionId = _
    rw [TtlMap.expire_self, hlookup]
  · exact add_le_add_left (hrenewed.past p (List.mem_cons_of_mem base List.mem_cons_self)) _

/-- A ping is sent. -/
theorem Pinged.send (h : Pinged userId late latency presence now due socket base)
    (hlatency : 0 ≤ latency) (hnow : now ≤ due + late) :
    Pinged userId late latency presence now due
      { socket with pings := socket.pings ++ [now] } base := by
  refine ⟨h.renewed.send hnow, fun p hp => ?_, h.kept⟩
  obtain hp | hp := List.mem_append.mp hp
  · exact h.punctual p hp
  · rw [List.mem_singleton.mp hp]
    exact le_add_of_nonneg_right hlatency

/-- The timer that has sent a ping is set. -/
theorem Pinged.reset {due' : Time} (h : Pinged userId late latency presence now due socket base)
    (hlast : socket.pings.getLast? = some now) (hdue : due' ≤ now + PING_PERIOD) :
    Pinged userId late latency presence now due' socket base :=
  ⟨h.renewed.reset hlast hdue, h.punctual, h.kept⟩

end Pings

/-! ## The invariant -/

/-- No two sockets share a connection id, and the one that the app holds is pinged in time. -/
structure HeartInv (userId : UUID) (late latency : Time) (s : Heartbeats) : Prop where
  apart : ∀ c c' connectionId, s.idOf c = some connectionId → s.idOf c' = some connectionId →
    c = c'
  held : ∀ c ∈ s.channel, ∃ t ∈ s.pingTimer, ∃ timer ∈ s.timers[t]?,
    timer.active = true ∧ s.now ≤ timer.due + late ∧ ∃ socket ∈ s.sockets[c]?,
      socket.phase ≠ .closed →
        ∃ base, Pinged userId late latency s.presence s.now timer.due socket base

section Steps

variable {userId : UUID} {late latency : Time} {s s' : Heartbeats} {c c' : ℕ}
  {socket socket' : AppSocket} {presence : Presence} {connectionId : String}

theorem heartInv_init (presence : Presence) (now : Time) :
    HeartInv userId late latency (.init presence now) := by
  constructor
  · intro c c' connectionId h
    cases h
  · intro c hc
    cases hc

theorem owns_of_idOf (h : s.idOf c = some connectionId) : s.Owns connectionId := by
  obtain ⟨socket, hsocket, hid⟩ := Option.bind_eq_some_iff.mp h
  exact ⟨socket, List.mem_of_getElem? hsocket, hid⟩

/-- What happens to one socket, and to the key of its connection. -/
theorem HeartInv.setSocket (h : HeartInv userId late latency s)
    (hsocket : s.sockets[c]? = some socket)
    (hid : ∀ k, socket'.connectionId = some k → socket.connectionId = some k ∨ ¬ s.Owns k)
    (hconn : ∀ k, socket.connectionId ≠ some k → socket'.connectionId ≠ some k →
      presence.conn k = s.presence.conn k)
    (hpinged : socket'.phase ≠ .closed → socket.phase ≠ .closed ∧ ∀ due base,
      s.now ≤ due + late → Pinged userId late latency s.presence s.now due socket base →
        ∃ base', Pinged userId late latency presence s.now due socket' base') :
    HeartInv userId late latency
      { s with presence := presence, sockets := s.sockets.set c socket' } := by
  have hlength : c < s.sockets.length := (List.getElem?_eq_some_iff.mp hsocket).1
  have hself : (s.sockets.set c socket')[c]? = some socket' := List.getElem?_set_self hlength
  have hother : ∀ c', c' ≠ c → (s.sockets.set c socket')[c']? = s.sockets[c']? := fun c' hne =>
    List.getElem?_set_ne hne.symm
  have hidOf : ∀ k, socket.connectionId = some k → s.idOf c = some k := by
    intro k hk
    unfold Heartbeats.idOf
    rw [hsocket]
    exact hk
  -- the id of another socket is not the one of this socket
  have hapart : ∀ c' k, c' ≠ c → s.idOf c' = some k →
      socket.connectionId ≠ some k ∧ socket'.connectionId ≠ some k := by
    intro c' k hne hk
    have hold : socket.connectionId ≠ some k := fun heq => hne (h.apart c' c k hk (hidOf k heq))
    refine ⟨hold, fun heq => ?_⟩
    obtain hold' | hfree := hid k heq
    · exact hold hold'
    · exact hfree (owns_of_idOf hk)
  constructor
  · intro c₁ c₂ k h₁ h₂
    unfold Heartbeats.idOf at h₁ h₂
    dsimp only at h₁ h₂
    by_cases hc₁ : c₁ = c
    · by_cases hc₂ : c₂ = c
      · rw [hc₁, hc₂]
      · rw [hc₁, hself] at h₁
        rw [hother c₂ hc₂] at h₂
        exact absurd h₁ (hapart c₂ k hc₂ h₂).2
    · rw [hother c₁ hc₁] at h₁
      by_cases hc₂ : c₂ = c
      · rw [hc₂, hself] at h₂
        exact absurd h₂ (hapart c₁ k hc₁ h₁).2
      · rw [hother c₂ hc₂] at h₂
        exact h.apart c₁ c₂ k h₁ h₂
  · intro c₁ hc₁
    obtain ⟨t, ht, timer, htimer, hactive, hnow, held, hheld, hbase⟩ := h.held c₁ hc₁
    refine ⟨t, ht, timer, htimer, hactive, hnow, ?_⟩
    by_cases heq : c₁ = c
    · subst heq
      obtain rfl := Option.some.inj (hsocket.symm.trans hheld)
      refine ⟨socket', hself, fun hopen => ?_⟩
      obtain ⟨hopen', hstep⟩ := hpinged hopen
      obtain ⟨base, hbase⟩ := hbase hopen'
      exact hstep timer.due base hnow hbase
    · refine ⟨held, (hother c₁ heq).trans hheld, fun hopen => ?_⟩
      obtain ⟨base, hbase⟩ := hbase hopen
      refine ⟨base, hbase.congr fun k hk => ?_⟩
      have hidOf' : s.idOf c₁ = some k := by
        unfold Heartbeats.idOf
        rw [Option.mem_def.mp hheld]
        exact hk
      obtain ⟨hold, hnew⟩ := hapart c₁ k heq hidOf'
      exact hconn k hold hnew

/-- Connections of others change no key of the app. -/
theorem HeartInv.others (h : HeartInv userId late latency s) (hfree : ¬ s.Owns connectionId)
    (hconn : ∀ k, k ≠ connectionId → presence.conn k = s.presence.conn k) :
    HeartInv userId late latency { s with presence := presence } := by
  refine ⟨h.apart, fun c hc => ?_⟩
  obtain ⟨t, ht, timer, htimer, hactive, hnow, socket, hsocket, hbase⟩ := h.held c hc
  refine ⟨t, ht, timer, htimer, hactive, hnow, socket, hsocket, fun hopen => ?_⟩
  obtain ⟨base, hbase⟩ := hbase hopen
  refine ⟨base, hbase.congr fun k hk => hconn k ?_⟩
  rintro rfl
  exact hfree ⟨socket, List.mem_of_getElem? hsocket, hk⟩

theorem HeartInv.disconnect (h : HeartInv userId late latency s) :
    HeartInv userId late latency s.handleDisconnect :=
  ⟨h.apart, fun _ hc => by cases hc⟩

/-- The timer that has sent a ping is set. -/
theorem HeartInv.reset {t : ℕ} {timer : PingTimer} {due : Time}
    (h : HeartInv userId late latency s) (hlate : 0 ≤ late) (htimer : s.timers[t]? = some timer)
    (hactive : timer.active = true) (hnow : s.now ≤ due) (hdue : due ≤ s.now + PING_PERIOD)
    (hlast : ∀ c ∈ s.channel, ∀ socket ∈ s.sockets[c]?, socket.pings.getLast? = some s.now) :
    HeartInv userId late latency
      { s with timers := s.timers.set t { timer with due := due } } := by
  refine ⟨h.apart, fun c hc => ?_⟩
  obtain ⟨t', ht', timer', htimer', hactive', hnow', socket, hsocket, hbase⟩ := h.held c hc
  by_cases heq : t' = t
  · subst heq
    have hlength : t' < s.timers.length := (List.getElem?_eq_some_iff.mp htimer).1
    refine ⟨t', ht', _, List.getElem?_set_self hlength, hactive, ?_, socket, hsocket,
      fun hopen => ?_⟩
    · exact hnow.trans (le_add_of_nonneg_right hlate)
    · obtain ⟨base, hbase⟩ := hbase hopen
      exact ⟨base, hbase.reset (hlast c hc socket hsocket) hdue⟩
  · have hsame : (s.timers.set t { timer with due := due })[t']? = some timer' :=
      (List.getElem?_set_ne (Ne.symm heq)).trans htimer'
    exact ⟨t', ht', timer', hsame, hactive', hnow', socket, hsocket, hbase⟩

theorem sendPing_of_none (h : s.channel = none) : s.sendPing = s := by
  unfold Heartbeats.sendPing
  rw [h]

theorem sendPing_of_some (h : s.channel = some c) (hsocket : s.sockets[c]? = some socket) :
    s.sendPing = { s with
      sockets := s.sockets.set c { socket with pings := socket.pings ++ [s.now] } } := by
  unfold Heartbeats.sendPing
  rw [h]
  dsimp only
  rw [List.modify_eq_set_getElem?, hsocket]
  rfl

/-- A callback of a timer. -/
theorem HeartInv.fire {t : ℕ} {timer : PingTimer} {due : Time}
    (h : HeartInv userId late latency s) (hlate : 0 ≤ late) (hlatency : 0 ≤ latency)
    (htimer : s.timers[t]? = some timer) (hactive : timer.active = true) (hnow : s.now ≤ due)
    (hdue : due ≤ s.now + PING_PERIOD) :
    HeartInv userId late latency
      ({ s with timers := s.timers.set t { timer with due := due } } : Heartbeats).sendPing := by
  obtain hchannel | ⟨c, hchannel⟩ := Option.eq_none_or_eq_some s.channel
  · rw [sendPing_of_none]
    · refine h.reset hlate htimer hactive hnow hdue fun c hc => ?_
      rw [hchannel] at hc
      cases hc
    · exact hchannel
  · obtain ⟨-, -, -, -, -, -, socket, hsocket, -⟩ := h.held c hchannel
    have hlength : c < s.sockets.length := (List.getElem?_eq_some_iff.mp hsocket).1
    have hsent : HeartInv userId late latency
        { s with sockets := s.sockets.set c { socket with pings := socket.pings ++ [s.now] } } := by
      refine h.setSocket hsocket (fun k hk => .inl hk) (fun k _ _ => rfl) fun hopen => ⟨hopen, ?_⟩
      exact fun due base hnow hbase => ⟨base, hbase.send hlatency hnow⟩
    rw [sendPing_of_some]
    · refine hsent.reset hlate htimer hactive hnow hdue fun c' hc' socket' hsocket' => ?_
      obtain rfl := Option.some.inj (hchannel.symm.trans hc')
      have hself := List.getElem?_set_self (a := { socket with pings := socket.pings ++ [s.now] })
        hlength
      obtain rfl := Option.some.inj (hself.symm.trans hsocket')
      exact List.getLast?_concat
    · exact hchannel
    · exact hsocket

/-- A new socket. -/
theorem HeartInv.connect (h : HeartInv userId late latency s) (hlate : 0 ≤ late) :
    HeartInv userId late latency s.connect := by
  have hidOf : ∀ c k, s.connect.idOf c = some k → s.idOf c = some k := by
    intro c k hk
    obtain ⟨socket, hsocket, hid⟩ := Option.bind_eq_some_iff.mp hk
    have hmem : (s.sockets ++ [⟨.connecting, [], false⟩])[c]? = some socket := hsocket
    rw [List.getElem?_append] at hmem
    split_ifs at hmem with hlt
    · exact Option.bind_eq_some_iff.mpr ⟨socket, hmem, hid⟩
    · rw [List.getElem?_singleton] at hmem
      split_ifs at hmem
      obtain rfl := Option.some.inj hmem
      cases hid
  constructor
  · intro c c' k hc hc'
    exact h.apart c c' k (hidOf c k hc) (hidOf c' k hc')
  · intro c hc
    obtain rfl := Option.some.inj hc
    refine ⟨s.timers.length, rfl, ⟨s.now + PING_PERIOD, true⟩, List.getElem?_concat_length, rfl, ?_,
      ⟨.connecting, [], false⟩, List.getElem?_concat_length, fun _ => ⟨s.now, ?_⟩⟩
    · rw [add_assoc]
      exact le_add_of_nonneg_right (add_nonneg (by decide) hlate)
    · refine ⟨renewed_start le_rfl, fun p hp => ?_, fun k hk => ?_⟩
      · cases hp
      · cases hk

/-- Time passes. -/
theorem HeartInv.tick {d : ℕ} (h : HeartInv userId late latency s)
    (hpunctual : Punctual late latency s (.tick d)) :
    HeartInv userId late latency { s with now := s.now + d } := by
  have hd : s.now ≤ s.now + d := le_add_of_nonneg_right (Int.natCast_nonneg d)
  refine ⟨h.apart, fun c hc => ?_⟩
  obtain ⟨t, ht, timer, htimer, hactive, hnow, socket, hsocket, hbase⟩ := h.held c hc
  refine ⟨t, ht, timer, htimer, hactive, hpunctual.1 t ht timer htimer hactive, socket, hsocket,
    fun hopen => ?_⟩
  obtain ⟨base, hbase⟩ := hbase hopen
  exact ⟨base, hbase.renewed.mono hd, hpunctual.2 c hc socket hsocket hopen, hbase.kept⟩

/-- The server reads a ping. -/
theorem HeartInv.read {p : Time} {pings : List Time} (h : HeartInv userId late latency s)
    (hlatency : 0 ≤ latency) (hsum : PING_PERIOD + late + latency < seconds CONN_TTL_SECONDS)
    (hsocket : s.sockets[c]? = some socket) (hid : socket.connectionId = some connectionId)
    (hpings : socket.pings = p :: pings) :
    HeartInv userId late latency
      { s with
        presence := heartbeat s.presence s.now connectionId
        sockets := s.sockets.set c { socket with pings := pings } } := by
  refine h.setSocket hsocket (fun k hk => .inl hk) (fun k hk _ => ?_) fun hopen => ⟨hopen, ?_⟩
  · refine TtlMap.expire_of_ne (fun heq => hk ?_) _ _
    rw [heq]
    exact hid
  · exact fun due base hnow hbase => ⟨p, hbase.read hpings hlatency hsum hnow hid⟩

/-- `chat_socket` ends. -/
theorem HeartInv.close (h : HeartInv userId late latency s)
    (hsocket : s.sockets[c]? = some socket)
    (hconn : ∀ k, socket.connectionId ≠ some k → presence.conn k = s.presence.conn k) :
    HeartInv userId late latency
      { s with
        presence := presence
        sockets := s.sockets.set c { socket with phase := .closed } } := by
  refine h.setSocket hsocket (fun k hk => ?_) (fun k hk _ => hconn k hk) fun hopen => ?_
  · cases hk
  · exact absurd rfl hopen

theorem HeartInv.step {a : HeartbeatAction} (h : HeartInv userId late latency s) (hlate : 0 ≤ late)
    (hlatency : 0 ≤ latency) (hsum : PING_PERIOD + late + latency < seconds CONN_TTL_SECONDS)
    (hpunctual : Punctual late latency s a) (hs : heartbeatStep userId s a = some s') :
    HeartInv userId late latency s' := by
  cases a with
  | connect =>
    obtain rfl := Option.some.inj hs
    exact h.connect hlate
  | fire t due =>
    obtain ⟨timer, htimer, hs⟩ := Option.bind_eq_some_iff.mp hs
    split_ifs at hs with hfires
    obtain rfl := Option.some.inj hs
    obtain ⟨hactive, -, hnow, hdue⟩ := hfires
    exact h.fire hlate hlatency htimer hactive hnow hdue
  | accept c connectionId =>
    obtain ⟨socket, hsocket, hs⟩ := Option.bind_eq_some_iff.mp hs
    split_ifs at hs with haccepts
    obtain rfl := Option.some.inj hs
    obtain ⟨hconnecting, hfree⟩ := haccepts
    refine h.setSocket hsocket (fun k hk => .inr ?_) (fun k _ hk => ?_) fun _ => ⟨?_, ?_⟩
    · rw [← Option.some.inj hk]
      exact hfree
    · exact TtlMap.set_of_ne (fun heq => hk (congrArg some heq.symm)) _ _
    · rw [hconnecting]
      exact SocketPhase.noConfusion
    · exact fun due base _ hbase => ⟨base, hbase.accept⟩
  | read c =>
    obtain ⟨socket, hsocket, hs⟩ := Option.bind_eq_some_iff.mp hs
    split at hs
    · next connectionId p pings hphase hpings =>
      obtain rfl := Option.some.inj hs
      have hid : socket.connectionId = some connectionId := by
        unfold AppSocket.connectionId
        rw [hphase]
      exact h.read hlatency hsum hsocket hid hpings
    · cases hs
  | close c =>
    obtain ⟨socket, hsocket, hs⟩ := Option.bind_eq_some_iff.mp hs
    split at hs
    · obtain rfl := Option.some.inj hs
      exact h.close hsocket fun _ _ => rfl
    · next connectionId hphase =>
      obtain rfl := Option.some.inj hs
      refine h.close hsocket fun k hk => ?_
      rw [conn_unregister]
      refine TtlMap.del_of_ne fun heq => hk ?_
      unfold AppSocket.connectionId
      rw [hphase, heq]
    · cases hs
  | failed c =>
    obtain ⟨socket, hsocket, hs⟩ := Option.bind_eq_some_iff.mp hs
    split_ifs at hs
    obtain rfl := Option.some.inj hs
    exact h.disconnect
  | done c =>
    obtain ⟨socket, hsocket, hs⟩ := Option.bind_eq_some_iff.mp hs
    split_ifs at hs
    obtain rfl := Option.some.inj hs
    have hended : HeartInv userId late latency
        { s with sockets := s.sockets.set c { socket with ended := true } } :=
      h.setSocket hsocket (fun k hk => .inl hk) (fun k _ _ => rfl) fun hopen =>
        ⟨hopen, fun due base _ hbase => ⟨base, hbase.renewed, hbase.punctual, hbase.kept⟩⟩
    exact hended.disconnect
  | otherRegister otherId connectionId =>
    simp only [heartbeatStep] at hs
    split_ifs at hs with howns
    obtain rfl := Option.some.inj hs
    exact h.others howns fun k hk => TtlMap.set_of_ne hk _ _
  | otherHeartbeat connectionId =>
    simp only [heartbeatStep] at hs
    split_ifs at hs with howns
    obtain rfl := Option.some.inj hs
    exact h.others howns fun k hk => TtlMap.expire_of_ne hk _ _
  | otherUnregister otherId connectionId =>
    simp only [heartbeatStep] at hs
    split_ifs at hs with howns
    obtain rfl := Option.some.inj hs
    refine h.others howns fun k hk => ?_
    rw [conn_unregister]
    exact TtlMap.del_of_ne hk
  | tick d =>
    obtain rfl := Option.some.inj hs
    exact h.tick hpunctual

end Steps

/-- **The heartbeat.** In every run in which timer callbacks are at most `late` behind and pings at
    most `latency` on their way, together less than the 45 seconds that the lifetime of a
    registration leaves, the connection that the app holds is registered for its user as long as the
    server serves it; whatever sockets the app has opened before, and whenever these end. -/
theorem registration_kept (userId : UUID) (late latency : Time) (hlate : 0 ≤ late)
    (hlatency : 0 ≤ latency) (hsum : PING_PERIOD + late + latency < seconds CONN_TTL_SECONDS)
    (presence : Presence) (now : Time) (as : List HeartbeatAction) (s : Heartbeats)
    (hpunctual : Guarded (heartbeatStep userId) (Punctual late latency) (.init presence now) as)
    (hr : run (heartbeatStep userId) (.init presence now) as = some s) (c : ℕ)
    (hchannel : s.channel = some c) (connectionId : String) (hid : s.idOf c = some connectionId) :
    ∃ connectedAt, s.presence.conn.get s.now connectionId = some ⟨userId, connectedAt⟩ := by
  have hinv : HeartInv userId late latency s :=
    hpunctual.invariant (fun _ _ _ h hp hs => h.step hlate hlatency hsum hp hs)
      (heartInv_init presence now) hr
  obtain ⟨t, -, timer, -, -, hnow, socket, hsocket, hbase⟩ := hinv.held c hchannel
  have hself : socket.connectionId = some connectionId := by
    unfold Heartbeats.idOf at hid
    rw [Option.mem_def.mp hsocket] at hid
    exact hid
  have hopen : socket.phase ≠ .closed := by
    intro hclosed
    unfold AppSocket.connectionId at hself
    rw [hclosed] at hself
    cases hself
  obtain ⟨base, hbase⟩ := hbase hopen
  obtain ⟨connectedAt, deadline, hlookup⟩ := hbase.live hlatency hsum hnow hself
  refine ⟨connectedAt, ?_⟩
  unfold TtlMap.get
  rw [hlookup]
  rfl

/-- The first socket ends at once; the app opens a second one, whose first ping goes out and is read
    a second late. -/
def reconnected : List HeartbeatAction :=
  [.connect, .accept 0 "a", .done 0, .close 0, .connect, .accept 1 "b", .tick 46000000,
    .fire 1 91000000, .tick 1000000, .read 1, .tick 44000000]

theorem registration_kept_reconnected :
    ∃ s ∈ run (heartbeatStep 7) (.init .empty 0) reconnected,
      s.channel = some 1 ∧ s.idOf 1 = some "b" ∧ s.now = seconds 91 ∧
        ∃ connectedAt, s.presence.conn.get s.now "b" = some ⟨7, connectedAt⟩ := by
  have hrun : ∃ s ∈ run (heartbeatStep 7) (.init .empty 0) reconnected,
      s.channel = some 1 ∧ s.idOf 1 = some "b" ∧ s.now = seconds 91 := by decide +kernel
  obtain ⟨s, hs, hchannel, hid, hnow⟩ := hrun
  have hpunctual : Guarded (heartbeatStep 7) (Punctual (seconds 1) (seconds 1)) (.init .empty 0)
      reconnected := by decide +kernel
  exact ⟨s, hs, hchannel, hid, hnow, registration_kept 7 (seconds 1) (seconds 1) (by decide)
    (by decide) (by decide) .empty 0 reconnected s hpunctual hs 1 hchannel "b" hid⟩

end IronLink.Client
