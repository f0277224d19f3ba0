import IronLink.Ws.Frame

/-!
# The receive loop

The body of the `while` loop of `chat_socket` (app/api/routes/websocket.py:88-101)
on any text. Only a `JSONDecodeError` is caught: any other exception, of
`json.loads`, of the handler or of one of its sends and pushes, leaves the loop
and unregisters the connection.

Results:
* `sends_handleFrame`: a frame that is handled without an exception is ignored or
  answered by one frame.
* `survives_iff`: the connection survives exactly the texts that are no JSON or an
  object whose fields the handler, the database and `send_json` take.
-/

namespace IronLink

/-! ## What `send_json` takes -/

/-- The text of `f"…{v}"` can be written in UTF-8. Containers print with their
    surrogates escaped. -/
def Json.printable : Json → Bool
  | .illStr => false
  | _ => true

mutual

/-- `json.dumps(v, ensure_ascii=False)` can be written in UTF-8. -/
def Json.encodable : Json → Bool
  | .illStr => false
  | .illObj _ => false
  | .fmt _ v => v.printable
  | .arr items => Json.encodableItems items
  | .obj fields => Json.encodableFields fields
  | _ => true

def Json.encodableItems : List Json → Bool
  | [] => true
  | v :: items => v.encodable && Json.encodableItems items

def Json.encodableFields : List (String × Json) → Bool
  | [] => true
  | (_, v) :: fields => v.encodable && Json.encodableFields fields

end

/-- The fields of a dict that code can look up; no key of the code has a surrogate. -/
def Json.dict : Json → Option Frame
  | .obj fields => some fields
  | .illObj fields => some fields
  | _ => none

end IronLink

namespace IronLink.Ws

open Lib Auth Messages

/-! ## Model -/

/-- What `json.loads` makes of a text. -/
inductive Loaded
  /-- it raises `JSONDecodeError` -/
  | notJson
  /-- it raises anything else: a `RecursionError`, or a `ValueError` for an integer
      with too many digits -/
  | raises
  | value (v : Json)

/-- Whether `messaging.send` refuses the push of a token, title, body and `peer_id`. -/
abbrev Refuses := String → String → String → String → Bool

/-- The functions of other packages that may raise under the loop. -/
structure Libraries where
  loads : String → Loaded
  refuses : Refuses

/-- The effect raises. `publish` escapes what is not ASCII. -/
def Effect.raises (refuses : Refuses) : Effect → Bool
  | .send f => !Json.encodableFields f
  | .publish _ _ => false
  | .push fcmToken title body peerId => refuses fcmToken title body peerId

/-- One turn of the loop: the world, what was sent, and whether the loop goes on. -/
structure Turn where
  world : World
  effects : List Effect
  connected : Bool

/-- The effects up to the first that raises. An exception ends the loop in the
    `finally` of `chat_socket` (app/api/routes/websocket.py:99-101). -/
def Handled.turn (refuses : Refuses) (userId : UUID) (connectionId : String) (h : Handled) :
    Turn :=
  if h.raised || h.effects.any (Effect.raises refuses) then
    ⟨{ h.world with presence := unregister h.world.presence userId connectionId },
      h.effects.takeWhile fun e => !e.raises refuses, false⟩
  else ⟨h.world, h.effects, true⟩

/-- One turn of the receive loop (app/api/routes/websocket.py:89-95). -/
def receiveText (lib : Libraries) (w : World) (userId : UUID) (connectionId : String)
    (fresh : NewRow) (raw : String) : Turn :=
  let handled : Handled :=
    match lib.loads raw with
    | .notJson => ⟨w, [.send (errorFrame (.str "invalid JSON frame"))], false⟩
    | .raises => ⟨w, [], true⟩
    | .value v =>
      match v.dict with
      -- `frame.get` of anything but a dict: `AttributeError`
      | none => ⟨w, [], true⟩
      | some frame => handleFrame w userId connectionId fresh frame
  handled.turn lib.refuses userId connectionId

/-! ## Property and condition -/

/-- A frame for the sender's own socket. -/
def Effect.isSend : Effect → Bool
  | .send _ => true
  | _ => false

/-- The keys of a connection that are there stay there. -/
structure Presence.Keeps (userId : UUID) (connectionId : String) (now : Time) (p p' : Presence) :
    Prop where
  conn : (p.conn.get now connectionId).isSome = true → (p'.conn.get now connectionId).isSome = true
  userConns : connectionId ∈ p.userConns userId → connectionId ∈ p'.userConns userId
  online : userId ∈ p.online → userId ∈ p'.online

/-- The socket stays connected and registered, and receives one frame at most. -/
structure Survives (w : World) (userId : UUID) (connectionId : String) (t : Turn) : Prop where
  connected : t.connected = true
  registered : Presence.Keeps userId connectionId w.now w.presence t.world.presence
  answers : (t.effects.filter Effect.isSend).length ≤ 1

/-- The fields of a content frame have types, lengths and ranges the columns take,
    and both users exist. -/
structure ColumnsTake (users : Users) (userId toId : UUID) (frame : Frame) : Prop where
  content : ∃ s, (Json.get frame "content").asOptStr = some s ∧ textFits none s = true
  mediaKey : ∃ s, (Json.get frame "media_key").asOptStr = some s ∧
    textFits (some 500) (s.map (columnText 500)) = true
  mediaMime : ∃ s, (Json.get frame "media_mime").asOptStr = some s ∧
    textFits (some 100) (s.map (columnText 100)) = true
  destructAfter : ∃ x, (Json.get frame "destruct_after").asOptNumber = some x ∧
    ∀ n ∈ x, -2147483648 ≤ n.trunc ∧ n.trunc ≤ 2147483647
  sender : userId ∈ users.map User.id
  recipient : toId ∈ users.map User.id

/-- The push that is due for the content frame is accepted. -/
def PushAccepted (refuses : Refuses) (w : World) (userId toId : UUID) (messageType : MessageType)
    (frame : Frame) : Prop :=
  isOnline w.presence toId = false →
    ∀ content, (Json.get frame "content").asOptStr = some content →
      ∀ e ∈ offlinePush w userId toId messageType content, e.raises refuses = false

/-- What the branch of the frame needs. -/
def BranchTakes (refuses : Refuses) (w : World) (userId : UUID) (fresh : NewRow) (frame : Frame) :
    Prop :=
  match branchOf (Json.get frame "type") with
  | .content messageType => ∀ toId, uuidOrNone (Json.get frame "to") = some toId →
      ColumnsTake w.users userId toId frame ∧ w.messages.byId fresh = none ∧
        PushAccepted refuses w userId toId messageType frame ∧
        (Json.get frame "client_ref").encodable = true
  | .unsupported => (Json.get frame "type").printable = true
  | _ => True

/-- The text is no JSON, or a frame that its branch takes. -/
def Receivable (lib : Libraries) (w : World) (userId : UUID) (fresh : NewRow) (raw : String) :
    Prop :=
  match lib.loads raw with
  | .notJson => True
  | .raises => False
  | .value v => ∃ frame, v.dict = some frame ∧ BranchTakes lib.refuses w userId fresh frame

/-! ## A frame is answered at most once -/

variable {refuses : Refuses} {w : World} {userId toId : UUID} {fresh : NewRow}
  {connectionId : String}
  {frame : Frame}

theorem isSend_offlinePush {messageType : MessageType} {content : Option String} {e : Effect}
    (h : e ∈ offlinePush w userId toId messageType content) : e.isSend = false := by
  obtain ⟨fcmToken, title, body, peerId, rfl⟩ := push_of_mem_offlinePush h
  rfl

theorem sends_handleContent (messageType : MessageType) :
    ((handleContent w userId fresh messageType frame).effects.filter Effect.isSend).length ≤
      1 := by
  cases hto : uuidOrNone (Json.get frame "to") with
  | none =>
    unfold handleContent
    rw [hto]
    exact le_rfl
  | some toId =>
    cases hrow : contentRow w.now fresh userId toId messageType frame with
    | none =>
      unfold handleContent
      rw [hto]
      dsimp only
      rw [hrow]
      exact Nat.zero_le 1
    | some msg =>
      rw [handleContent_of_row hto hrow]
      split_ifs
      · exact le_rfl
      · have hpush : (offlinePush w userId toId messageType msg.contentCiphertext).filter
            Effect.isSend = [] :=
          List.filter_eq_nil_iff.mpr fun e he => by simp [isSend_offlinePush he]
        rw [List.filter_append, hpush]
        exact le_rfl
      · exact Nat.zero_le 1

/-- A frame is ignored or answered by one frame. -/
theorem sends_handleFrame (w : World) (userId : UUID) (connectionId : String) (fresh : NewRow)
    (frame : Frame) :
    ((handleFrame w userId connectionId fresh frame).effects.filter Effect.isSend).length ≤
      1 := by
  unfold handleFrame
  split
  · exact le_rfl
  · exact le_rfl
  · split <;> exact Nat.zero_le 1
  · exact sends_handleContent _
  · unfold handleReceipt
    split
    · exact Nat.zero_le 1
    · dsimp only
      split <;> exact Nat.zero_le 1
  · unfold handleUnsend
    split
    · exact Nat.zero_le 1
    · split
      · exact le_rfl
      · next rows msg hok => cases hr : msg.recipientId <;> simp [Effect.isSend]
  · exact le_rfl

/-! ## The connection stays registered -/

theorem Presence.Keeps.refl (now : Time) (p : Presence) :
    Presence.Keeps userId connectionId now p p :=
  ⟨fun h => h, fun h => h, fun h => h⟩

/-- A frame leaves the registry as it is, or prolongs the entry of the connection. -/
theorem keeps_handleFrame (w : World) (userId : UUID) (connectionId : String) (fresh : NewRow)
    (frame : Frame) : Presence.Keeps userId connectionId w.now w.presence
      (handleFrame w userId connectionId fresh frame).world.presence := by
  unfold handleFrame
  split
  · refine ⟨fun h => ?_, fun h => h, fun h => h⟩
    have hlater : w.now < w.now + seconds CONN_TTL_SECONDS :=
      lt_add_of_pos_right w.now (show (0 : Time) < seconds CONN_TTL_SECONDS by decide)
    show (((w.presence.conn.expire w.now connectionId _).get w.now connectionId)).isSome = true
    rw [TtlMap.get_expire _ hlater]
    exact h
  · exact .refl _ _
  · split <;> exact .refl _ _
  · unfold handleContent
    split
    · exact .refl _ _
    · split
      · exact .refl _ _
      · split <;> exact .refl _ _
  · unfold handleReceipt
    split <;> exact .refl _ _
  · unfold handleUnsend
    split
    · exact .refl _ _
    · split <;> exact .refl _ _
  · exact .refl _ _

/-! ## What raises -/

/-- Nothing raises: neither the handler nor any of its effects. -/
def Handled.Quiet (refuses : Refuses) (h : Handled) : Prop :=
  h.raised = false ∧ ∀ e ∈ h.effects, e.raises refuses = false

theorem mem_turn_effects {h : Handled} {e : Effect}
    (he : e ∈ (h.turn refuses userId connectionId).effects) : e ∈ h.effects := by
  unfold Handled.turn at he
  split_ifs at he
  · exact (List.takeWhile_sublist _).subset he
  · exact he

theorem Handled.turn_of_quiet {h : Handled} (hq : h.Quiet refuses) :
    h.turn refuses userId connectionId = ⟨h.world, h.effects, true⟩ := by
  have hany : h.effects.any (Effect.raises refuses) = false :=
    List.any_eq_false.mpr fun e he => by simp [hq.2 e he]
  unfold Handled.turn
  simp [hq.1, hany]

theorem Handled.turn_connected {h : Handled} :
    (h.turn refuses userId connectionId).connected = true ↔ h.Quiet refuses := by
  refine ⟨fun hc => ?_, fun hq => by rw [turn_of_quiet hq]⟩
  unfold Handled.turn at hc
  split_ifs at hc with hraises
  rw [Bool.or_eq_true, not_or] at hraises
  obtain ⟨hraised, hany⟩ := hraises
  refine ⟨Bool.eq_false_iff.mpr hraised, fun e he => Bool.eq_false_iff.mpr fun hr => hany ?_⟩
  exact List.any_eq_true.mpr ⟨e, he, hr⟩

/-- A row can be made and inserted exactly when the columns take the fields. -/
theorem contentRow_insertable (now : Time) (fresh : NewRow) (userId toId : UUID)
    (messageType : MessageType) (frame : Frame) (users : Users) (groups : Groups) :
    (∃ msg, contentRow now fresh userId toId messageType frame = some msg ∧
      msg.insertable users groups = true) ↔ ColumnsTake users userId toId frame := by
  constructor
  · rintro ⟨msg, hmsg, hins⟩
    obtain ⟨content, mediaKey, mediaMime, destructAfter, hc, hk, hm, hd, rfl⟩ :=
      contentRow_some hmsg
    unfold Message.insertable at hins
    simp only [Bool.and_eq_true] at hins
    obtain ⟨⟨⟨⟨⟨⟨hsender, hrecipient⟩, -⟩, hcontent⟩, hkey⟩, hmime⟩, hafter⟩ := hins
    refine ⟨⟨content, hc, hcontent⟩, ⟨mediaKey, hk, hkey⟩, ⟨mediaMime, hm, hmime⟩,
      ⟨destructAfter, hd, ?_⟩, ?_, ?_⟩
    · rintro n hn
      obtain rfl : destructAfter = some n := hn
      simpa [newMessage] using hafter
    · simpa [newMessage, refersTo] using hsender
    · simpa [newMessage, refersTo] using hrecipient
  · rintro ⟨⟨content, hc, hcontent⟩, ⟨mediaKey, hk, hkey⟩, ⟨mediaMime, hm, hmime⟩,
      ⟨destructAfter, hd, hafter⟩, hsender, hrecipient⟩
    refine ⟨newMessage now fresh userId (some toId) none messageType content mediaKey mediaMime
      destructAfter, ?_, ?_⟩
    · unfold contentRow
      rw [hc, Option.bind_some, hk, Option.bind_some, hm, Option.bind_some, hd]
      rfl
    · have hsmall : (destructAfter.map Number.trunc).all fun s =>
          decide (-2147483648 ≤ s) && decide (s ≤ 2147483647) := by
        cases destructAfter with
        | none => rfl
        | some n => simpa using hafter n rfl
      simp only [List.mem_map] at hsender hrecipient
      simp [Message.insertable, newMessage, refersTo, hcontent, hkey, hmime, hsmall, hsender,
        hrecipient]

theorem contentRow_content {now : Time} {messageType : MessageType} {msg : Message}
    (h : contentRow now fresh userId toId messageType frame = some msg) :
    (Json.get frame "content").asOptStr = some msg.contentCiphertext := by
  obtain ⟨content, _, _, _, hc, -, -, -, rfl⟩ := contentRow_some h
  exact hc

theorem encodable_ackFrame (frame : Frame) (msg : Message) :
    Json.encodableFields (ackFrame frame msg) = (Json.get frame "client_ref").encodable := by
  simp [ackFrame, Json.encodableFields, Json.encodable]

theorem encodable_errorFrame (detail : Json) :
    Json.encodableFields (errorFrame detail) = detail.encodable := by
  simp [errorFrame, Json.encodableFields, Json.encodable]

theorem pushAccepted_iff {messageType : MessageType} {content : Option String}
    (hcontent : (Json.get frame "content").asOptStr = some content) :
    (∀ e ∈ (if isOnline w.presence toId then []
        else offlinePush w userId toId messageType content), e.raises refuses = false) ↔
      PushAccepted refuses w userId toId messageType frame := by
  unfold PushAccepted
  rw [hcontent]
  cases isOnline w.presence toId with
  | true => simp
  | false => simp

theorem quiet_handleContent (messageType : MessageType) :
    (handleContent w userId fresh messageType frame).Quiet refuses ↔
      ∀ toId, uuidOrNone (Json.get frame "to") = some toId →
        ColumnsTake w.users userId toId frame ∧ w.messages.byId fresh = none ∧
          PushAccepted refuses w userId toId messageType frame ∧
          (Json.get frame "client_ref").encodable = true := by
  cases hto : uuidOrNone (Json.get frame "to") with
  | none =>
    unfold handleContent
    rw [hto]
    refine iff_of_true ⟨rfl, List.forall_mem_singleton.mpr ?_⟩ fun toId h => (by cases h)
    simp [Effect.raises, encodable_errorFrame, Json.encodable]
  | some toId =>
    have hcolumns := contentRow_insertable w.now fresh userId toId messageType frame w.users
      w.groups
    suffices h : _ ↔ ColumnsTake w.users userId toId frame ∧ w.messages.byId fresh = none ∧
        PushAccepted refuses w userId toId messageType frame ∧
          (Json.get frame "client_ref").encodable = true by
      refine h.trans ⟨fun h toId' heq => ?_, fun h => h toId rfl⟩
      obtain rfl := Option.some.inj heq
      exact h
    cases hrow : contentRow w.now fresh userId toId messageType frame with
    | none =>
      unfold handleContent
      rw [hto]
      dsimp only
      rw [hrow]
      refine iff_of_false (fun h => by cases h.1) fun h => ?_
      obtain ⟨msg, hmsg, -⟩ := hcolumns.mpr h.1
      rw [hrow] at hmsg
      cases hmsg
    | some msg =>
      have hid : msg.id = fresh := by
        obtain ⟨_, _, _, _, -, -, -, -, rfl⟩ := contentRow_some hrow
        rfl
      have hins :
          msg.insertable w.users w.groups = true ↔ ColumnsTake w.users userId toId frame := by
        rw [← hcolumns, hrow]
        simp
      have hcontent := contentRow_content hrow
      rw [handleContent_of_row hto hrow, hid]
      by_cases hok : (msg.insertable w.users w.groups && (w.messages.byId fresh).isNone) = true
      · rw [if_pos hok]
        rw [Bool.and_eq_true, Option.isNone_iff_eq_none, hins] at hok
        refine ⟨fun h => ⟨hok.1, hok.2, ?_, ?_⟩, fun h => ⟨rfl, fun e he => ?_⟩⟩
        · exact (pushAccepted_iff hcontent).mp fun e he => h.2 e (List.mem_append_left _ he)
        · have hack := h.2 (.send (ackFrame frame msg))
            (List.mem_append_right _ List.mem_cons_self)
          simpa [Effect.raises, encodable_ackFrame] using hack
        · rcases List.mem_append.mp he with he | he
          · exact (pushAccepted_iff hcontent).mpr h.2.2.1 e he
          · rcases List.mem_cons.mp he with rfl | he
            · simp [Effect.raises, encodable_ackFrame, h.2.2.2]
            · rw [List.mem_singleton.mp he]
              rfl
      · rw [if_neg hok]
        rw [Bool.and_eq_true, Option.isNone_iff_eq_none, hins] at hok
        exact iff_of_false (fun h => by cases h.1) fun h => hok ⟨h.1, h.2.1⟩

/-- What each branch needs. -/
theorem quiet_handleFrame :
    (handleFrame w userId connectionId fresh frame).Quiet refuses ↔
      BranchTakes refuses w userId fresh frame := by
  unfold handleFrame BranchTakes
  cases branchOf (Json.get frame "type") with
  | ping => exact iff_of_true ⟨rfl, List.forall_mem_singleton.mpr rfl⟩ trivial
  | presence => exact iff_of_true ⟨rfl, List.forall_mem_singleton.mpr rfl⟩ trivial
  | typing frameType =>
    refine iff_of_true ?_ trivial
    dsimp only
    split
    · exact ⟨rfl, fun e he => (by cases he)⟩
    · exact ⟨rfl, List.forall_mem_singleton.mpr rfl⟩
  | content messageType => exact quiet_handleContent messageType
  | receipt isRead =>
    refine iff_of_true ?_ trivial
    dsimp only
    unfold handleReceipt
    split
    · exact ⟨rfl, fun e he => (by cases he)⟩
    · refine ⟨rfl, ?_⟩
      dsimp only
      split
      · exact List.forall_mem_singleton.mpr rfl
      · exact fun e he => (by cases he)
  | unsend =>
    refine iff_of_true ?_ trivial
    dsimp only
    unfold handleUnsend
    split
    · exact ⟨rfl, fun e he => (by cases he)⟩
    · split
      · exact ⟨rfl, List.forall_mem_singleton.mpr rfl⟩
      · next rows msg hok =>
        refine ⟨rfl, fun e he => ?_⟩
        rcases List.mem_append.mp he with he | he
        · obtain ⟨u, -, rfl⟩ := List.mem_map.mp he
          rfl
        · rw [List.mem_singleton.mp he]
          rfl
  | unsupported =>
    refine ⟨fun h => ?_, fun h => ⟨rfl, List.forall_mem_singleton.mpr ?_⟩⟩
    · have herror := h.2 _ List.mem_cons_self
      simpa [Effect.raises, encodable_errorFrame, Json.encodable] using herror
    · simpa [Effect.raises, encodable_errorFrame, Json.encodable] using h

/-! ## Exactly these texts -/

/-- The frames a quiet turn sends. -/
theorem Survives.of_quiet {h : Handled} (hq : h.Quiet refuses)
    (hkeeps : Presence.Keeps userId connectionId w.now w.presence h.world.presence)
    (hsends : (h.effects.filter Effect.isSend).length ≤ 1) :
    Survives w userId connectionId (h.turn refuses userId connectionId) := by
  rw [Handled.turn_of_quiet hq]
  exact ⟨rfl, hkeeps, hsends⟩

/-- **Received texts.** Exactly the receivable texts leave the socket connected and
    registered, with one frame in answer at most. -/
theorem survives_iff (lib : Libraries) (w : World) (userId : UUID) (connectionId : String)
    (fresh : NewRow) (raw : String) :
    Survives w userId connectionId (receiveText lib w userId connectionId fresh raw) ↔
      Receivable lib w userId fresh raw := by
  unfold receiveText Receivable
  cases lib.loads raw with
  | notJson =>
    refine iff_of_true (.of_quiet ⟨rfl, ?_⟩ (.refl _ _) le_rfl) trivial
    exact List.forall_mem_singleton.mpr rfl
  | raises => exact iff_of_false (fun h => by cases (Handled.turn_connected.mp h.connected).1) id
  | value v =>
    dsimp only
    cases hv : v.dict with
    | none =>
      refine iff_of_false (fun h => ?_) fun h => ?_
      · cases (Handled.turn_connected.mp h.connected).1
      · obtain ⟨frame, hframe, -⟩ := h
        cases hframe
    | some frame =>
      constructor
      · intro h
        exact ⟨frame, rfl, quiet_handleFrame.mp (Handled.turn_connected.mp h.connected)⟩
      · rintro ⟨frame', hframe, htakes⟩
        obtain rfl := Option.some.inj hframe
        exact .of_quiet (quiet_handleFrame.mpr htakes) (keeps_handleFrame ..)
          (sends_handleFrame ..)

/-- A text message to an id that no user has. -/
def strangerText : String :=
  "\x7b\"type\": \"text\", \"to\": \"00000000-0000-0000-0000-000000000063\"\x7d"

/-- A text message whose `destruct_after` is no number. -/
def soonText : String :=
  "\x7b\"type\": \"text\", \"to\": \"00000000-0000-0000-0000-000000000001\", " ++
    "\"destruct_after\": \"soon\"\x7d"

/-- `json.loads` on the texts of the example; every push is accepted. -/
def sampleLibraries : Libraries where
  loads raw :=
    if raw = "[]" then .value (.arr [])
    else if raw = strangerText then .value (.obj (sampleFrame "text" 99 []))
    else if raw = soonText then
      .value (.obj (sampleFrame "text" 1 [("destruct_after", .str "soon")]))
    else .notJson
  refuses _ _ _ _ := false

/-- The user 7 is connected. -/
def connectedWorld : World :=
  { sampleWorld with presence := register Presence.empty 0 7 "c7" }

/-- No text survives whose turn leaves the loop. -/
theorem not_survives_of_leaves {lib : Libraries} {w : World} {me : UUID} {fresh : NewRow}
    {conn raw : String} (hleaves : (receiveText lib w me conn fresh raw).connected = false) :
    ¬ Survives w me conn (receiveText lib w me conn fresh raw) := by
  intro h
  have hconnected := h.connected
  rw [hleaves] at hconnected
  cases hconnected

/-- A list, a recipient that does not exist and an ill-typed field each end the
    connection. -/
theorem texts_end_connection :
    ¬ Survives connectedWorld 7 "c7" (receiveText sampleLibraries connectedWorld 7 "c7" 100 "[]") ∧
    ¬ Survives connectedWorld 7 "c7"
      (receiveText sampleLibraries connectedWorld 7 "c7" 100 strangerText) ∧
    ¬ Survives connectedWorld 7 "c7"
      (receiveText sampleLibraries connectedWorld 7 "c7" 100 soonText) := by
  refine ⟨?_, ?_, ?_⟩
  · apply not_survives_of_leaves
    decide +kernel
  · apply not_survives_of_leaves
    decide +kernel
  · apply not_survives_of_leaves
    decide +kernel

end IronLink.Ws
