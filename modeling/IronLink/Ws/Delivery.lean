import IronLink.Lib.Calls
import IronLink.Lib.Run
import IronLink.Ws.Receive

/-!
# Notifying the recipient

A content frame is handled in steps: commit the row, ask `is_online`, push if
the recipient is offline, acknowledge, publish on the recipient's channel. Any of
them may raise, the acknowledgement also because of what the frame holds. The
recipient's sockets connect and disconnect in between: `register` announces the
user before the relay task has subscribed, and the relay is cancelled before
`unregister` takes the announcement back.

Results:
* `handled_uninterrupted`: taken without interruption the steps are
  `handleContent`, up to the first effect that raises.
* `message_lost_before_subscribe`: a message sent between `register` and the
  subscription is neither pushed nor received.
* `notified_of_noGap`: as long as `is_online` answers yes only for users with a
  subscribed relay, the last relay of a user does not end under a message that
  relies on it, and no handler raises before its message is pushed or published,
  every message is pushed or received.
-/

namespace IronLink.Ws

open Lib Auth Messages

/-! ## Model -/

/-- The next step of a content frame (app/api/routes/websocket.py:152-188). -/
inductive SendPc
  /-- `manager.is_online(to)` -/
  | check
  /-- the push to an offline recipient -/
  | push
  /-- the `ack`; `online` is what `is_online` answered -/
  | ack (online : Bool)
  /-- the publication -/
  | publish (online : Bool)
  | done
  /-- an exception has left the handler -/
  | failed
  deriving DecidableEq

/-- The handler has returned or raised. -/
def SendPc.isOver : SendPc → Bool
  | .done => true
  | .failed => true
  | _ => false

/-- A content frame whose row is committed. `effects` is what it has sent so
    far, `receivers` the connections whose relay received the publication. -/
structure SendCall where
  userId : UUID
  toId : UUID
  messageType : MessageType
  frame : Frame
  msg : Message
  pc : SendPc
  effects : List Effect
  receivers : List String

/-- The life of a connection (app/api/routes/websocket.py:76-101). -/
inductive RelayPc
  | accepted
  | registered
  /-- the relay listens on the user's channel -/
  | subscribed
  /-- an exception has ended the relay; the socket is still registered -/
  | relayOver
  /-- `relay_task.cancel()`, next is the pipeline of `unregister` -/
  | cancelled
  /-- next is `scard` -/
  | left
  /-- `scard` answered -/
  | counted (remaining : ℕ)
  | closed
  deriving DecidableEq

structure Relay where
  user : UUID
  connectionId : String
  pc : RelayPc
  deriving DecidableEq

structure DeliveryState where
  world : World
  sends : List SendCall
  relays : List Relay

inductive DeliveryAction
  /-- a content frame, up to the commit of its row -/
  | send (userId : UUID) (fresh : NewRow) (messageType : MessageType) (frame : Frame)
  /-- the next step of the `i`-th message -/
  | advance (i : ℕ)
  /-- the next await of the `i`-th message raises -/
  | raise (i : ℕ)
  | accept (user : UUID) (connectionId : String)
  /-- the next step of the `j`-th connection, while it connects or closes -/
  | relay (j : ℕ)
  /-- the relay of the `j`-th connection raises (app/api/routes/websocket.py:57-58) -/
  | relayEnds (j : ℕ)
  /-- the `j`-th connection is lost -/
  | disconnect (j : ℕ)
  | tick (d : ℕ)

/-- The relays that listen on the channel of `u`. -/
def subscribers (relays : List Relay) (u : UUID) : List Relay :=
  relays.filter fun k => k.user = u && k.pc = .subscribed

/-- `send_json` raises on an acknowledgement that UTF-8 cannot encode. -/
def SendCall.next (w : World) (relays : List Relay) (c : SendCall) : Option SendCall :=
  match c.pc with
  | .check => some { c with pc := if isOnline w.presence c.toId then .ack true else .push }
  | .push =>
    some { c with
      effects := c.effects ++ offlinePush w c.userId c.toId c.messageType c.msg.contentCiphertext
      pc := .ack false }
  | .ack online =>
    if Json.encodableFields (ackFrame c.frame c.msg) then
      some { c with
        effects := c.effects ++ [.send (ackFrame c.frame c.msg)]
        pc := .publish online }
    else some { c with pc := .failed }
  | .publish _ =>
    some { c with
      effects := c.effects ++ [.publish c.toId (messageFrame c.frame c.userId c.msg)]
      receivers := (subscribers relays c.toId).map Relay.connectionId
      pc := .done }
  | .done => none
  | .failed => none

/-- The next step of a connection, and the registry after it. -/
def Relay.next (w : World) (k : Relay) : Option (Presence × Relay) :=
  match k.pc with
  | .accepted =>
    some (register w.presence w.now k.user k.connectionId, { k with pc := .registered })
  | .registered => some (w.presence, { k with pc := .subscribed })
  | .cancelled => some (leave w.presence k.user k.connectionId, { k with pc := .left })
  | .left => some (w.presence, { k with pc := .counted (remaining w.presence k.user) })
  | .counted n =>
    some (if n = 0 then goOffline w.presence k.user else w.presence, { k with pc := .closed })
  | .subscribed => none
  | .relayOver => none
  | .closed => none

def deliveryStep (s : DeliveryState) : DeliveryAction → Option DeliveryState
  | .send userId fresh messageType frame =>
    (uuidOrNone (Json.get frame "to")).bind fun toId =>
      (contentRow s.world.now fresh userId toId messageType frame).bind fun msg =>
        (saveMessage s.world.users s.world.groups s.world.messages msg).map fun rows =>
          { s with
            world := { s.world with messages := rows }
            sends := s.sends ++ [⟨userId, toId, messageType, frame, msg, .check, [], []⟩] }
  | .advance i =>
    s.sends[i]?.bind fun c =>
      (c.next s.world s.relays).map fun c' => { s with sends := s.sends.set i c' }
  | .raise i =>
    s.sends[i]?.bind fun c =>
      if c.pc.isOver then none else some { s with sends := s.sends.set i { c with pc := .failed } }
  | .accept user connectionId =>
    some { s with relays := s.relays ++ [⟨user, connectionId, .accepted⟩] }
  | .relay j =>
    s.relays[j]?.bind fun k =>
      (k.next s.world).map fun r =>
        { s with world := { s.world with presence := r.1 }, relays := s.relays.set j r.2 }
  | .relayEnds j =>
    s.relays[j]?.bind fun k =>
      if k.pc = .registered ∨ k.pc = .subscribed then
        some { s with relays := s.relays.set j { k with pc := .relayOver } }
      else none
  | .disconnect j =>
    s.relays[j]?.bind fun k =>
      if k.pc = .registered ∨ k.pc = .subscribed ∨ k.pc = .relayOver then
        some { s with relays := s.relays.set j { k with pc := .cancelled } }
      else none
  | .tick d => some { s with world := { s.world with now := s.world.now + d } }

/-! ## The steps are the handler -/

variable {s s' : DeliveryState} {relays : List Relay} {u : UUID} {c c' : SendCall} {w : World}

/-- An effect raises, given that every push is taken. -/
def Effect.unsendable : Effect → Bool := Effect.raises fun _ _ _ _ => false

/-- What a call is left with that was to have `effects`. -/
structure SendCall.Ends (c : SendCall) (effects : List Effect) : Prop where
  sent : c.effects = effects.takeWhile fun e => !e.unsendable
  ended : c.pc = if effects.any Effect.unsendable then .failed else .done

/-- One step of the message that was sent last. -/
theorem advance_last (sends : List SendCall) (hnext : c.next s.world s.relays = some c') :
    deliveryStep { s with sends := sends ++ [c] } (.advance sends.length) =
      some { s with sends := sends ++ [c'] } := by
  simp [deliveryStep, hnext]

theorem unsendable_offlinePush (userId toId : UUID) (messageType : MessageType)
    (content : Option String) :
    ∀ e ∈ offlinePush w userId toId messageType content, e.unsendable = false := by
  intro e he
  obtain ⟨fcmToken, title, body, peerId, rfl⟩ := push_of_mem_offlinePush he
  rfl

/-- The steps after the push. -/
theorem acknowledged {online : Bool} (hpc : c.pc = .ack online)
    (hpush : ∀ e ∈ c.effects, e.unsendable = false) :
    ∃ n c', run deliveryStep { s with sends := s.sends ++ [c] }
        (List.replicate n (.advance s.sends.length)) = some { s with sends := s.sends ++ [c'] } ∧
      c'.Ends (c.effects ++ [.send (ackFrame c.frame c.msg),
        .publish c.toId (messageFrame c.frame c.userId c.msg)]) := by
  have hany : c.effects.any Effect.unsendable = false := by simpa using hpush
  have hsend : Effect.unsendable (.send (ackFrame c.frame c.msg)) =
      !Json.encodableFields (ackFrame c.frame c.msg) := rfl
  by_cases hack : Json.encodableFields (ackFrame c.frame c.msg) = true
  · have hnext : c.next s.world s.relays = some { c with
        effects := c.effects ++ [.send (ackFrame c.frame c.msg)]
        pc := .publish online } := by
      simp only [SendCall.next, hpc, hack, if_true]
    refine ⟨2, { c with
      effects := c.effects ++ [.send (ackFrame c.frame c.msg)] ++
        [.publish c.toId (messageFrame c.frame c.userId c.msg)]
      receivers := (subscribers s.relays c.toId).map Relay.connectionId
      pc := .done }, ?_, ?_, ?_⟩
    · simp only [List.replicate, run_cons, run_nil, advance_last s.sends hnext, Option.bind_some]
      rw [advance_last s.sends rfl]
      rfl
    · rw [List.takeWhile_append_of_pos (by simpa using hpush)]
      simp [List.takeWhile, hack, Effect.unsendable, Effect.raises]
    · simp only [List.any_append, hany, List.any_cons, hsend, hack]
      rfl
  · have hnext : c.next s.world s.relays = some { c with pc := .failed } := by
      simp only [SendCall.next, hpc, hack, if_false, Bool.false_eq_true]
    refine ⟨1, { c with pc := .failed }, ?_, ?_, ?_⟩
    · simp only [List.replicate, run_cons, run_nil, advance_last s.sends hnext, Option.bind_some]
    · rw [List.takeWhile_append_of_pos (by simpa using hpush)]
      simp [List.takeWhile, hsend, hack]
    · simp only [List.any_append, hany, List.any_cons, hsend, hack]
      rfl

/-- A content frame handled without interruption does what `handleContent` does,
    up to the first effect that raises. -/
theorem handled_uninterrupted (s : DeliveryState) (userId : UUID) (fresh : NewRow) (toId : UUID)
    (messageType : MessageType) (frame : Frame) (msg : Message) (rows : MessageRows)
    (hto : uuidOrNone (Json.get frame "to") = some toId)
    (hmsg : contentRow s.world.now fresh userId toId messageType frame = some msg)
    (hrows : saveMessage s.world.users s.world.groups s.world.messages msg = some rows) :
    ∃ n s' c, run deliveryStep s (.send userId fresh messageType frame ::
        List.replicate n (.advance s.sends.length)) = some s' ∧
      s'.sends[s.sends.length]? = some c ∧
      s'.world = (handleContent s.world userId fresh messageType frame).world ∧
      c.Ends (handleContent s.world userId fresh messageType frame).effects := by
  let stored : World := { s.world with messages := rows }
  let sent : SendCall := ⟨userId, toId, messageType, frame, msg, .check, [], []⟩
  have hsend : deliveryStep s (.send userId fresh messageType frame) =
      some { s with world := stored, sends := s.sends ++ [sent] } := by
    simp only [deliveryStep, hto, hmsg, hrows, Option.bind_some, Option.map_some]
    rfl
  have hhandle : handleContent s.world userId fresh messageType frame =
      ⟨stored,
        (if isOnline s.world.presence toId then []
          else offlinePush stored userId toId messageType msg.contentCiphertext) ++
          [.send (ackFrame frame msg), .publish toId (messageFrame frame userId msg)], false⟩ := by
    unfold handleContent
    rw [hto]
    simp only [hmsg, hrows]
    rfl
  rw [hhandle]
  by_cases honline : isOnline s.world.presence toId = true
  · have hcheck : sent.next stored s.relays = some { sent with pc := .ack true } := by
      simp only [SendCall.next, sent, stored, honline, if_true]
    obtain ⟨n, c', hrun, hends⟩ := acknowledged (s := { s with world := stored })
      (c := { sent with pc := .ack true }) rfl fun e he => (by cases he)
    refine ⟨n + 1, { s with world := stored, sends := s.sends ++ [c'] }, c', ?_,
      List.getElem?_concat_length, rfl, ?_⟩
    · rw [run_cons, hsend, List.replicate_succ, Option.bind_some, run_cons]
      exact (congrArg (Option.bind · _)
        (advance_last (s := { s with world := stored }) s.sends hcheck)).trans hrun
    · rw [if_pos honline]
      exact hends
  · have hcheck : sent.next stored s.relays = some { sent with pc := .push } := by
      simp only [SendCall.next, sent, stored, honline, if_false, Bool.false_eq_true]
    obtain ⟨n, c', hrun, hends⟩ := acknowledged (s := { s with world := stored })
      (c := { sent with
        effects := offlinePush stored userId toId messageType msg.contentCiphertext
        pc := .ack false }) rfl (unsendable_offlinePush _ _ _ _)
    refine ⟨n + 2, { s with world := stored, sends := s.sends ++ [c'] }, c', ?_,
      List.getElem?_concat_length, rfl, ?_⟩
    rotate_left
    · rw [if_neg honline]
      exact hends
    · rw [run_cons, hsend, List.replicate_succ, List.replicate_succ, Option.bind_some, run_cons]
      refine (congrArg (Option.bind · _)
        (advance_last (s := { s with world := stored }) s.sends hcheck)).trans ?_
      rw [Option.bind_some, run_cons]
      exact (congrArg (Option.bind · _)
        (advance_last (s := { s with world := stored }) s.sends rfl)).trans hrun

/-! ## Lost notifications -/

/-- `u` has a row with an FCM token. -/
def HasToken (users : Users) (u : UUID) : Prop :=
  ∃ recipient ∈ users.byId u, truthyStr recipient.fcmToken = true

/-- The token a push goes to. -/
def Effect.fcmToken : Effect → Option String
  | .push fcmToken _ _ _ => some fcmToken
  | _ => none

/-- The recipient's token was pushed to. -/
def Pushed (users : Users) (c : SendCall) : Prop :=
  ∃ recipient ∈ users.byId c.toId, ∃ e ∈ c.effects,
    e.fcmToken = some (recipient.fcmToken.getD "")

/-- Pushed, or received by a relay of the recipient. -/
def Notified (users : Users) (c : SendCall) : Prop := Pushed users c ∨ c.receivers ≠ []

/-- A relay of `u` listens. -/
def Listening (relays : List Relay) (u : UUID) : Prop :=
  ∃ k ∈ relays, k.user = u ∧ k.pc = .subscribed

/-- The message was not pushed because `is_online` answered yes. -/
def SendPc.relies : SendPc → Bool
  | .ack online => online
  | .publish online => online
  | _ => false

/-- The recipient has not been told in any way yet. -/
def SendPc.untold : SendPc → Bool
  | .check => true
  | .push => true
  | .done => false
  | .failed => false
  | pc => pc.relies

/-- No message relies on the `j`-th relay alone. -/
def Spared (s : DeliveryState) (j : ℕ) : Prop :=
  ∀ k ∈ s.relays[j]?, k.pc = .subscribed → ∀ c ∈ s.sends, c.toId = k.user →
    c.pc.relies = true → HasToken s.world.users c.toId → Listening (s.relays.eraseIdx j) c.toId

/-- `is_online` does not answer yes for a user whose relays do not listen, the
    last relay of a user that listens does not end under a message that was not
    pushed, and no handler raises over such a message. -/
def NoGap (s : DeliveryState) : DeliveryAction → Prop
  | .advance i => ∀ c ∈ s.sends[i]?, HasToken s.world.users c.toId →
      (c.pc = .check → isOnline s.world.presence c.toId = true → Listening s.relays c.toId) ∧
        (c.pc = .ack true → (Json.get c.frame "client_ref").encodable = true)
  | .raise i => ∀ c ∈ s.sends[i]?, HasToken s.world.users c.toId → c.pc.untold = false
  | .relayEnds j => Spared s j
  | .disconnect j => Spared s j
  | _ => True

instance (users : Users) (u : UUID) : Decidable (HasToken users u) := by
  unfold HasToken
  infer_instance

instance (users : Users) (c : SendCall) : Decidable (Notified users c) := by
  unfold Notified Pushed
  infer_instance

instance (relays : List Relay) (u : UUID) : Decidable (Listening relays u) := by
  unfold Listening
  infer_instance

instance (s : DeliveryState) (j : ℕ) : Decidable (Spared s j) := by
  unfold Spared
  infer_instance

instance (s : DeliveryState) : (a : DeliveryAction) → Decidable (NoGap s a)
  | .advance _ => by unfold NoGap; infer_instance
  | .raise _ => by unfold NoGap; infer_instance
  | .relayEnds _ => by unfold NoGap; infer_instance
  | .disconnect _ => by unfold NoGap; infer_instance
  | .send _ _ _ _ => isTrue trivial
  | .accept _ _ => isTrue trivial
  | .relay _ => isTrue trivial
  | .tick _ => isTrue trivial

/-- No connection and no message yet. -/
def DeliveryState.init (w : World) : DeliveryState := ⟨w, [], []⟩

/-- The user of the examples has an FCM token. -/
def pushWorld : World :=
  { sampleWorld with users := [{ sampleUser with fcmToken := some "token-7" }, sampleAdmin] }

/-- The administrator writes to the user, whose socket is registered while its
    relay does not listen yet. -/
theorem message_lost_before_subscribe :
    ¬ ∀ (w : World) (as : List DeliveryAction) (s : DeliveryState), w.fcm = true →
      run deliveryStep (DeliveryState.init w) as = some s →
        ∀ c ∈ s.sends, c.pc.isOver = true → HasToken s.world.users c.toId →
          Notified s.world.users c := by
  intro h
  have hrun : ∃ s ∈ run deliveryStep (DeliveryState.init pushWorld)
      [.accept 7 "c7", .relay 0,
        .send 1 100 .TEXT (sampleFrame "text" 7 [("content", .str "hello")]),
        .advance 0, .advance 0, .advance 0],
      ∃ c ∈ s.sends, c.pc.isOver = true ∧ HasToken s.world.users c.toId ∧
        ¬ Notified s.world.users c := by
    decide +kernel
  obtain ⟨s, hs, c, hc, hdone, htoken, hlost⟩ := hrun
  exact hlost (h pushWorld _ s rfl hs c hc hdone htoken)

/-! ## Which relays listen -/

theorem Listening.append (h : Listening relays u) (k : Relay) : Listening (relays ++ [k]) u := by
  obtain ⟨k', hk', hu⟩ := h
  exact ⟨k', List.mem_append_left _ hk', hu⟩

/-- The other relays go on listening. -/
theorem Listening.set {j : ℕ} (h : Listening (relays.eraseIdx j) u) (k : Relay) :
    Listening (relays.set j k) u := by
  obtain ⟨k', hk', hu⟩ := h
  obtain ⟨i, hij, hi⟩ := List.mem_eraseIdx_iff_getElem?.mp hk'
  refine ⟨k', List.mem_of_getElem? (i := i) ?_, hu⟩
  rw [List.getElem?_set_ne (Ne.symm hij), hi]

/-- A relay that does not listen for `u` can be taken out. -/
theorem Listening.eraseIdx {j : ℕ} {k : Relay} (h : Listening relays u) (hk : relays[j]? = some k)
    (hoff : k.user = u → k.pc ≠ .subscribed) : Listening (relays.eraseIdx j) u := by
  obtain ⟨k', hk', hu, hpc⟩ := h
  obtain ⟨i, hi⟩ := List.mem_iff_getElem?.mp hk'
  have hij : i ≠ j := by
    rintro rfl
    obtain rfl := Option.some.inj (hk.symm.trans hi)
    exact hoff hu hpc
  exact ⟨k', List.mem_eraseIdx_iff_getElem?.mpr ⟨i, hij, hi⟩, hu, hpc⟩

theorem receivers_of_listening (h : Listening relays u) :
    (subscribers relays u).map Relay.connectionId ≠ [] := by
  obtain ⟨k, hk, hu, hpc⟩ := h
  have hmem : k ∈ subscribers relays u := by
    unfold subscribers
    rw [List.mem_filter]
    exact ⟨hk, by simp [hu, hpc]⟩
  intro hnil
  rw [List.map_eq_nil_iff] at hnil
  rw [hnil] at hmem
  cases hmem

/-! ## One message -/

/-- How a message with a reachable recipient is looked after at each step. -/
def Covered (users : Users) (relays : List Relay) (c : SendCall) : Prop :=
  match c.pc with
  | .check => True
  | .push => True
  | .ack true => Listening relays c.toId
  | .ack false => Pushed users c
  | .publish true => Listening relays c.toId
  | .publish false => Pushed users c
  | .done => Notified users c
  | .failed => Notified users c

/-- The sender is in the table, since its row is a foreign key, and a recipient
    with a token is looked after. -/
structure SendInv (users : Users) (relays : List Relay) (c : SendCall) : Prop where
  sender : ∃ row, users.byId c.userId = some row
  covered : HasToken users c.toId → Covered users relays c

/-- Relays may change as long as a message that relies on them keeps one. -/
theorem SendInv.mono {relays' : List Relay} (h : SendInv w.users relays c)
    (hkeep : c.pc.relies = true → HasToken w.users c.toId → Listening relays c.toId →
      Listening relays' c.toId) : SendInv w.users relays' c := by
  refine ⟨h.sender, fun htoken => ?_⟩
  have hcov := h.covered htoken
  unfold Covered at hcov ⊢
  split at hcov <;> rename_i hpc
  · trivial
  · trivial
  · exact hkeep (by rw [hpc]; rfl) htoken hcov
  · exact hcov
  · exact hkeep (by rw [hpc]; rfl) htoken hcov
  · exact hcov
  · exact hcov
  · exact hcov

theorem Pushed.mono {users : Users} (h : Pushed users c) (hto : c'.toId = c.toId)
    (heff : ∀ e ∈ c.effects, e ∈ c'.effects) : Pushed users c' := by
  obtain ⟨recipient, hrecipient, e, he, htok⟩ := h
  exact ⟨recipient, by rw [hto]; exact hrecipient, e, heff e he, htok⟩

/-- An offline recipient with a token is pushed to. -/
theorem pushed_of_offlinePush (hfcm : w.fcm = true)
    (hsender : ∃ row, w.users.byId c.userId = some row) (htoken : HasToken w.users c.toId)
    (content : Option String)
    (hmem : ∀ e ∈ offlinePush w c.userId c.toId c.messageType content, e ∈ c'.effects)
    (hto : c'.toId = c.toId) : Pushed w.users c' := by
  obtain ⟨sender, hsender⟩ := hsender
  obtain ⟨recipient, hrecipient, htok⟩ := htoken
  refine ⟨recipient, by rw [hto]; exact hrecipient, ?_⟩
  unfold offlinePush sendMessagePush at hmem
  rw [Option.mem_def.mp hrecipient, hsender] at hmem
  simp only [htok, hfcm, if_true, List.mem_singleton, forall_eq] at hmem
  exact ⟨_, hmem, rfl⟩

/-- One step of a message. -/
theorem sendInv_next (hfcm : w.fcm = true) (h : SendInv w.users relays c)
    (hgap : HasToken w.users c.toId →
      (c.pc = .check → isOnline w.presence c.toId = true → Listening relays c.toId) ∧
        (c.pc = .ack true → (Json.get c.frame "client_ref").encodable = true))
    (hnext : c.next w relays = some c') : SendInv w.users relays c' := by
  unfold SendCall.next at hnext
  split at hnext <;> rename_i hpc
  · obtain rfl := Option.some.inj hnext
    refine ⟨h.sender, fun htoken => ?_⟩
    by_cases honline : isOnline w.presence c.toId = true
    · simp only [Covered, honline, if_true]
      exact (hgap htoken).1 hpc honline
    · simp only [Covered, honline, if_false, Bool.false_eq_true]
  · obtain rfl := Option.some.inj hnext
    refine ⟨h.sender, fun htoken => ?_⟩
    exact pushed_of_offlinePush hfcm h.sender htoken c.msg.contentCiphertext
      (fun e he => List.mem_append_right _ he) rfl
  · rename_i online
    split_ifs at hnext with hack
    · obtain rfl := Option.some.inj hnext
      refine ⟨h.sender, fun htoken => ?_⟩
      have hcov := h.covered htoken
      rw [Covered, hpc] at hcov
      cases online with
      | true => exact hcov
      | false => exact hcov.mono rfl fun e he => List.mem_append_left _ he
    · obtain rfl := Option.some.inj hnext
      refine ⟨h.sender, fun htoken => ?_⟩
      have hcov := h.covered htoken
      rw [Covered, hpc] at hcov
      cases online with
      | true =>
        rw [encodable_ackFrame] at hack
        exact absurd ((hgap htoken).2 hpc) hack
      | false => exact .inl hcov
  · rename_i online
    obtain rfl := Option.some.inj hnext
    refine ⟨h.sender, fun htoken => ?_⟩
    have hcov := h.covered htoken
    rw [Covered, hpc] at hcov
    cases online with
    | true => exact .inr (receivers_of_listening hcov)
    | false => exact .inl (hcov.mono rfl fun e he => List.mem_append_left _ he)
  · cases hnext
  · cases hnext

/-- A handler that raises. -/
theorem SendInv.raise {users : Users} (h : SendInv users relays c) (hover : c.pc.isOver = false)
    (hgap : HasToken users c.toId → c.pc.untold = false) :
    SendInv users relays { c with pc := .failed } := by
  refine ⟨h.sender, fun htoken => ?_⟩
  have huntold := hgap htoken
  have hcov := h.covered htoken
  unfold Covered at hcov
  split at hcov <;> rename_i hpc <;> rw [hpc] at huntold hover
  · cases huntold
  · cases huntold
  · cases huntold
  · exact .inl hcov
  · cases huntold
  · exact .inl hcov
  · cases hover
  · cases hover

/-! ## Every message -/

/-- What holds in every run without a gap. -/
structure DeliveryInv (s : DeliveryState) : Prop where
  fcm : s.world.fcm = true
  sends : ∀ c ∈ s.sends, SendInv s.world.users s.relays c

/-- A step of a relay that listens or is cancelled leaves the other relays
    alone. -/
theorem deliveryInv_relay {j : ℕ} {k k' : Relay} (presence : Presence) (h : DeliveryInv s)
    (hk : s.relays[j]? = some k)
    (hkeep : k.pc = .subscribed → ∀ c ∈ s.sends, c.toId = k.user → c.pc.relies = true →
      HasToken s.world.users c.toId → Listening (s.relays.eraseIdx j) c.toId) :
    DeliveryInv { s with
      world := { s.world with presence := presence }
      relays := s.relays.set j k' } := by
  refine ⟨h.fcm, fun c hc => (h.sends c hc).mono fun hrelies htoken hlisten => ?_⟩
  by_cases hother : k.user = c.toId ∧ k.pc = .subscribed
  · exact (hkeep hother.2 c hc hother.1.symm hrelies htoken).set k'
  · exact (hlisten.eraseIdx hk fun hu hpc => hother ⟨hu, hpc⟩).set k'

theorem relay_next_pc {k : Relay} {r : Presence × Relay} (h : k.next w = some r) :
    k.pc ≠ .subscribed := by
  intro hpc
  unfold Relay.next at h
  rw [hpc] at h
  cases h

/-- A stored message has a sender. -/
theorem sender_of_saveMessage {users : Users} {groups : Groups} {rows rows' : MessageRows}
    {msg : Message} {senderId : UUID} (hid : msg.senderId = some senderId)
    (h : saveMessage users groups rows msg = some rows') :
    ∃ row, users.byId senderId = some row := by
  unfold saveMessage at h
  split_ifs at h with hok
  have href : refersTo (users.map User.id) (some senderId) = true := by
    rw [← hid]
    simp only [Message.insertable, Bool.and_eq_true] at hok
    exact hok.1.1.1.1.1.1.1
  cases hrow : users.byId senderId with
  | some row => exact ⟨row, rfl⟩
  | none =>
    have hmem : senderId ∈ users.map User.id := by simpa [refersTo] using href
    obtain ⟨row, hmem, hid⟩ := List.mem_map.mp hmem
    exact absurd hid (Table.find_eq_none.mp hrow row hmem)

theorem deliveryInv_step (s : DeliveryState) (a : DeliveryAction) (s' : DeliveryState)
    (h : DeliveryInv s) (hg : NoGap s a) (hs : deliveryStep s a = some s') : DeliveryInv s' := by
  cases a with
  | send userId fresh messageType frame =>
    obtain ⟨toId, hto, hs⟩ := Option.bind_eq_some_iff.mp hs
    obtain ⟨msg, hmsg, hs⟩ := Option.bind_eq_some_iff.mp hs
    obtain ⟨rows, hrows, rfl⟩ := Option.map_eq_some_iff.mp hs
    obtain ⟨content, mediaKey, mediaMime, destructAfter, -, -, -, -, hrow⟩ := contentRow_some hmsg
    refine ⟨h.fcm, fun c hc => ?_⟩
    rcases List.mem_append.mp hc with hc | hc
    · exact h.sends c hc
    · obtain rfl := List.mem_singleton.mp hc
      exact ⟨sender_of_saveMessage (by rw [hrow]; rfl) hrows, fun _ => trivial⟩
  | advance i =>
    obtain ⟨c, hc, hs⟩ := Option.bind_eq_some_iff.mp hs
    obtain ⟨c', hc', rfl⟩ := Option.map_eq_some_iff.mp hs
    refine ⟨h.fcm, forall_set h.sends ?_⟩
    exact sendInv_next h.fcm (h.sends c (List.mem_of_getElem? hc)) (hg c hc) hc'
  | raise i =>
    obtain ⟨c, hc, hs⟩ := Option.bind_eq_some_iff.mp hs
    split_ifs at hs with hover
    obtain rfl := Option.some.inj hs
    refine ⟨h.fcm, forall_set h.sends ?_⟩
    exact (h.sends c (List.mem_of_getElem? hc)).raise (Bool.eq_false_iff.mpr hover) (hg c hc)
  | accept user connectionId =>
    obtain rfl := Option.some.inj hs
    exact ⟨h.fcm, fun c hc => (h.sends c hc).mono fun _ _ hlisten => hlisten.append _⟩
  | relay j =>
    obtain ⟨k, hk, hs⟩ := Option.bind_eq_some_iff.mp hs
    obtain ⟨r, hr, rfl⟩ := Option.map_eq_some_iff.mp hs
    exact deliveryInv_relay r.1 h hk fun hpc => absurd hpc (relay_next_pc hr)
  | relayEnds j =>
    obtain ⟨k, hk, hs⟩ := Option.bind_eq_some_iff.mp hs
    split_ifs at hs
    obtain rfl := Option.some.inj hs
    exact deliveryInv_relay s.world.presence h hk (hg k hk)
  | disconnect j =>
    obtain ⟨k, hk, hs⟩ := Option.bind_eq_some_iff.mp hs
    split_ifs at hs
    obtain rfl := Option.some.inj hs
    exact deliveryInv_relay s.world.presence h hk (hg k hk)
  | tick d =>
    obtain rfl := Option.some.inj hs
    exact ⟨h.fcm, h.sends⟩

/-- **No notification is lost without a gap**: a message to a recipient with a
    token was pushed or received when its handler returns or raises. -/
theorem notified_of_noGap (w : World) (as : List DeliveryAction) (s : DeliveryState)
    (hfcm : w.fcm = true) (hg : Guarded deliveryStep NoGap (DeliveryState.init w) as)
    (hr : run deliveryStep (DeliveryState.init w) as = some s) :
    ∀ c ∈ s.sends, c.pc.isOver = true → HasToken s.world.users c.toId →
      Notified s.world.users c := by
  intro c hc hover htoken
  have hinit : DeliveryInv (DeliveryState.init w) := by
    constructor
    · exact hfcm
    · intro c hc
      cases hc
  have hcov := ((hg.invariant deliveryInv_step hinit hr).sends c hc).covered htoken
  unfold Covered at hcov
  split at hcov <;> rename_i hpc <;> rw [hpc] at hover
  case h_7 => exact hcov
  case h_8 => exact hcov
  all_goals cases hover

/-- One message arrives at a relay that listens, and one is pushed after the
    connection is closed. -/
def closeRun : List DeliveryAction :=
  [.accept 7 "c7", .relay 0, .relay 0,
    .send 1 100 .TEXT (sampleFrame "text" 7 [("content", .str "hello")]),
    .advance 0, .advance 0, .advance 0,
    .disconnect 0, .relay 0, .relay 0, .relay 0,
    .send 1 101 .TEXT (sampleFrame "text" 7 [("content", .str "again")]),
    .advance 1, .advance 1, .advance 1, .advance 1]

/-- Both messages of `closeRun` are notified. -/
theorem notified_connect_then_close :
    ∃ s ∈ run deliveryStep (DeliveryState.init pushWorld) closeRun,
      s.sends.length = 2 ∧ (∀ c ∈ s.sends, c.pc = .done ∧ HasToken s.world.users c.toId) ∧
        ∀ c ∈ s.sends, c.pc.isOver = true → HasToken s.world.users c.toId →
          Notified s.world.users c := by
  obtain ⟨s, hs, hlen, hdone⟩ : ∃ s ∈ run deliveryStep (DeliveryState.init pushWorld) closeRun,
      s.sends.length = 2 ∧ ∀ c ∈ s.sends, c.pc = .done ∧ HasToken s.world.users c.toId := by
    decide +kernel
  exact ⟨s, hs, hlen, hdone, notified_of_noGap pushWorld _ s rfl (by decide +kernel) hs⟩

end IronLink.Ws
