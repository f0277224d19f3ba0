import IronLink.Common.Json
import IronLink.Lib.Ttl
import Mathlib.Data.Finset.Card

/-!
# The connection registry

The Redis side of `ConnectionManager` (app/services/ws_manager.py:18-75): the
keys `ws:conn:{connection_id}`, the sets `ws:user:{user_id}` and the set
`ws:online`. A pipeline is one step; `unregister` is a pipeline followed by two
more commands.

Results:
* `online_register`, `online_leave`, `online_goOffline`: what each step does to
  `ws:online`.
-/

namespace IronLink.Ws

open Lib

/-! ## Model -/

/-- The value of `ws:conn:{connection_id}`. -/
structure ConnInfo where
  userId : UUID
  connectedAt : Time
  deriving DecidableEq

structure Presence where
  /-- `ws:conn:{connection_id}` -/
  conn : TtlMap Time String ConnInfo
  /-- `ws:user:{user_id}` -/
  userConns : UUID → Finset String
  /-- `ws:online` -/
  online : Finset UUID

/-- An empty registry. -/
def Presence.empty : Presence := ⟨fun _ => none, fun _ => ∅, ∅⟩

/-- `CONN_TTL_SECONDS` (app/services/ws_manager.py:31). -/
def CONN_TTL_SECONDS : ℤ := 90

/-- `register` (app/services/ws_manager.py:37-53): one pipeline. -/
def register (p : Presence) (now : Time) (userId : UUID) (connectionId : String) : Presence :=
  { conn := p.conn.set connectionId ⟨userId, now⟩ (some (now + seconds CONN_TTL_SECONDS))
    userConns := Function.update p.userConns userId (insert connectionId (p.userConns userId))
    online := insert userId p.online }

/-- `heartbeat` (app/services/ws_manager.py:55-56). -/
def heartbeat (p : Presence) (now : Time) (connectionId : String) : Presence :=
  { p with conn := p.conn.expire now connectionId (now + seconds CONN_TTL_SECONDS) }

/-- The pipeline of `unregister` (app/services/ws_manager.py:61-64). -/
def leave (p : Presence) (userId : UUID) (connectionId : String) : Presence :=
  { p with
    conn := p.conn.del connectionId
    userConns := Function.update p.userConns userId ((p.userConns userId).erase connectionId) }

/-- `scard("ws:user:{user_id}")` (app/services/ws_manager.py:67). -/
def remaining (p : Presence) (userId : UUID) : ℕ := (p.userConns userId).card

/-- `srem("ws:online", user_id)` (app/services/ws_manager.py:69). -/
def goOffline (p : Presence) (userId : UUID) : Presence :=
  { p with online := p.online.erase userId }

/-- `unregister` (app/services/ws_manager.py:58-69) with nothing in between. -/
def unregister (p : Presence) (userId : UUID) (connectionId : String) : Presence :=
  let p := leave p userId connectionId
  if remaining p userId = 0 then goOffline p userId else p

/-- `online_count` (app/services/ws_manager.py:71-72). -/
def onlineCount (p : Presence) : ℕ := p.online.card

/-- `is_online` (app/services/ws_manager.py:74-75). -/
def isOnline (p : Presence) (userId : UUID) : Bool := userId ∈ p.online

/-! ## The set `ws:online` -/

variable {p : Presence} {now : Time} {userId u : UUID} {connectionId : String}

theorem online_register : u ∈ (register p now userId connectionId).online ↔
    u = userId ∨ u ∈ p.online := Finset.mem_insert

theorem online_goOffline : u ∈ (goOffline p userId).online ↔ u ≠ userId ∧ u ∈ p.online :=
  Finset.mem_erase

theorem isOnline_iff : isOnline p u = true ↔ u ∈ p.online := by
  unfold isOnline
  exact decide_eq_true_iff

end IronLink.Ws
