import IronLink.Lib.Unwinding
import IronLink.Ws.Chats

/-!
# Direct messages are confidential

Two runs of requests that differ only in the content of text messages between the
users `a` and `b`. The proof hides these contents: it blanks them in the table, and
shows that a step answers everyone else alike on the table and on the table with
the contents blanked.

Results:
* `handleFrame_hide`, `sweepOnce_hide`, `chatStep_hide`: no handler's effect on a
  third user depends on what is hidden.
* `chatStep_text`: nor does it on the content of the frame itself.
* `confidential`: a third user observes the same in both runs.
-/

namespace IronLink.Ws

open Lib Auth Messages

/-! ## Property -/

/-- `u` and `v` are the users `a` and `b`, in some order. -/
def ArePair (a b u v : UUID) : Prop := u = a ∧ v = b ∨ u = b ∧ v = a

/-- Two frames that differ in a content the database takes. -/
structure TextPair (f f' : Frame) (content content' : String) : Prop where
  left : Json.get f "content" = .str content
  right : Json.get f' "content" = .str content'
  rest : ∀ key, key ≠ "content" → Json.get f' key = Json.get f key
  fits : textFits none (some content) = true
  fits' : textFits none (some content') = true

/-- The requests are the same, or frames that send a text between `a` and `b` and
    differ in its content. -/
inductive Alike (a b : UUID) : Request → Request → Prop
  | same (r : Request) : Alike a b r r
  | text (userId toId : UUID) (connectionId : String) (fresh : NewRow) (f f' : Frame)
      (content content' : String) (pushRefused : Bool) (hpair : ArePair a b userId toId)
      (htype : Json.get f "type" = .str "text")
      (hto : uuidOrNone (Json.get f "to") = some toId) (hcontent : TextPair f f' content content') :
      Alike a b (.frame userId connectionId fresh f pushRefused)
        (.frame userId connectionId fresh f' pushRefused)

/-- What `u` observes of a run, event by event; `none` when the run is refused. -/
def observes (u : UUID) (s : Chats) (rs : List Request) : Option (List ChatEvent) :=
  (trace chatStep s rs).map fun r => r.2.filter (ChatEvent.seenBy u)

/-! ## Hiding -/

section Hiding

variable {a b : UUID}

/-- The message is between `a` and `b`. -/
def Between (a b : UUID) (msg : Message) : Prop :=
  msg.senderId = some a ∧ msg.recipientId = some b ∨
    msg.senderId = some b ∧ msg.recipientId = some a

instance (a b : UUID) (msg : Message) : Decidable (Between a b msg) := by
  unfold Between
  infer_instance

/-- The row without its content, if it is between `a` and `b`. -/
def conceal (a b : UUID) (msg : Message) : Message :=
  if Between a b msg then { msg with contentCiphertext := none } else msg

theorem conceal_of_between {msg : Message} (h : Between a b msg) :
    conceal a b msg = { msg with contentCiphertext := none } := if_pos h

theorem conceal_of_not_between {msg : Message} (h : ¬ Between a b msg) : conceal a b msg = msg :=
  if_neg h

/-- Nothing but the content changes. -/
theorem conceal_eq (a b : UUID) (msg : Message) :
    conceal a b msg = { msg with contentCiphertext := (conceal a b msg).contentCiphertext } := by
  unfold conceal
  split_ifs <;> rfl

@[simp] theorem conceal_id (msg : Message) : (conceal a b msg).id = msg.id := by rw [conceal_eq]

@[simp] theorem conceal_senderId (msg : Message) : (conceal a b msg).senderId = msg.senderId := by
  rw [conceal_eq]

@[simp] theorem conceal_recipientId (msg : Message) :
    (conceal a b msg).recipientId = msg.recipientId := by rw [conceal_eq]

@[simp] theorem conceal_groupId (msg : Message) : (conceal a b msg).groupId = msg.groupId := by
  rw [conceal_eq]

@[simp] theorem conceal_mediaObjectKey (msg : Message) :
    (conceal a b msg).mediaObjectKey = msg.mediaObjectKey := by rw [conceal_eq]

@[simp] theorem conceal_status (msg : Message) : (conceal a b msg).status = msg.status := by
  rw [conceal_eq]

@[simp] theorem conceal_destructAt (msg : Message) :
    (conceal a b msg).destructAt = msg.destructAt := by rw [conceal_eq]

@[simp] theorem conceal_isDestructed (msg : Message) :
    (conceal a b msg).isDestructed = msg.isDestructed := by rw [conceal_eq]

@[simp] theorem conceal_createdAt (msg : Message) :
    (conceal a b msg).createdAt = msg.createdAt := by rw [conceal_eq]

@[simp] theorem between_conceal {msg : Message} :
    Between a b (conceal a b msg) ↔ Between a b msg := by
  unfold Between
  simp

@[simp] theorem conceal_conceal (msg : Message) :
    conceal a b (conceal a b msg) = conceal a b msg := by
  by_cases h : Between a b msg
  · rw [conceal_of_between (between_conceal.mpr h), conceal_of_between h]
  · rw [conceal_of_not_between h, conceal_of_not_between h]

/-- The change `f` of a row does not look at its content. -/
def Blind (a b : UUID) (f : Message → Message) : Prop :=
  ∀ msg, conceal a b (f (conceal a b msg)) = conceal a b (f msg)

/-- A change that keeps the parties, and that writes the same whatever the content. -/
theorem blind_of {f : Message → Message}
    (hparties : ∀ msg, (f msg).senderId = msg.senderId ∧ (f msg).recipientId = msg.recipientId)
    (hcontent : ∀ msg, { f { msg with contentCiphertext := none } with contentCiphertext := none } =
      { f msg with contentCiphertext := none }) : Blind a b f := by
  intro msg
  by_cases h : Between a b msg
  · have hkeeps : ∀ msg', Between a b msg' → Between a b (f msg') := fun msg' h' => by
      unfold Between
      rw [(hparties msg').1, (hparties msg').2]
      exact h'
    rw [conceal_of_between (hkeeps msg h), conceal_of_between (hkeeps _ (between_conceal.mpr h)),
      conceal_of_between h, hcontent msg]
  · rw [conceal_of_not_between h]

theorem blind_deliver (now : Time) : Blind a b (deliver now) :=
  blind_of (fun _ => ⟨rfl, rfl⟩) fun _ => rfl

theorem blind_retract (now : Time) : Blind a b (retract now) :=
  blind_of (fun _ => ⟨rfl, rfl⟩) fun _ => rfl

theorem blind_destroy (now : Time) : Blind a b (destroy now) :=
  blind_of (fun _ => ⟨rfl, rfl⟩) fun _ => rfl

theorem blind_read (now : Time) : Blind a b (Messages.read now) := by
  refine blind_of (fun msg => ?_) fun msg => ?_
  · unfold Messages.read
    split_ifs <;> exact ⟨rfl, rfl⟩
  · unfold Messages.read
    split_ifs <;> rfl

/-- The table without the contents between `a` and `b`. -/
def hide (a b : UUID) (rows : MessageRows) : MessageRows := rows.map (conceal a b)

variable {rows : MessageRows}

theorem byId_hide (rows : MessageRows) (id : UUID) :
    (hide a b rows).byId id = (rows.byId id).map (conceal a b) :=
  Table.find_map conceal_id rows id

theorem hide_hide (rows : MessageRows) : hide a b (hide a b rows) = hide a b rows := by
  unfold hide
  rw [List.map_map]
  exact List.map_congr_left fun msg _ => conceal_conceal msg

theorem hide_append (rows : MessageRows) (msg : Message) :
    hide a b (rows ++ [msg]) = hide a b rows ++ [conceal a b msg] := List.map_append

theorem hide_modify {f : Message → Message} (hf : Blind a b f) (rows : MessageRows) (id : UUID) :
    hide a b (Table.modify Message.id (hide a b rows) id f) =
      hide a b (Table.modify Message.id rows id f) := by
  unfold hide Table.modify
  rw [List.map_map, List.map_map, List.map_map]
  refine List.map_congr_left fun msg _ => ?_
  show conceal a b (if (conceal a b msg).id = id then f (conceal a b msg) else conceal a b msg) =
    conceal a b (if msg.id = id then f msg else msg)
  rw [conceal_id]
  split_ifs
  · exact hf msg
  · exact conceal_conceal msg

/-- A query by columns other than the content selects the hidden rows of those it
    selects. -/
theorem filter_hide {p : Message → Bool} (hp : ∀ msg, p (conceal a b msg) = p msg)
    (rows : MessageRows) : (hide a b rows).filter p = hide a b (rows.filter p) := by
  unfold hide
  rw [List.filter_map]
  exact congrArg _ (List.filter_congr fun msg _ => hp msg)

theorem map_hide {β : Type} {g : Message → β} (hg : ∀ msg, g (conceal a b msg) = g msg)
    (rows : MessageRows) : (hide a b rows).map g = rows.map g := by
  unfold hide
  rw [List.map_map]
  exact List.map_congr_left fun msg _ => hg msg

/-! ## Handlers -/

def World.hide (a b : UUID) (w : World) : World := { w with messages := Ws.hide a b w.messages }

def Handled.hide (a b : UUID) (h : Handled) : Handled := { h with world := h.world.hide a b }

def Turn.hide (a b : UUID) (t : Turn) : Turn := { t with world := t.world.hide a b }

variable {w : World} {groups : Groups} {userId : UUID} {fresh : NewRow} {connectionId : String}
  {frame : Frame}

theorem isParticipant_conceal (groups : Groups) (msg : Message) (userId : UUID) :
    isParticipant groups (conceal a b msg) userId = isParticipant groups msg userId := by
  simp [isParticipant]

theorem isRecipient_conceal (groups : Groups) (msg : Message) (userId : UUID) :
    isRecipient groups (conceal a b msg) userId = isRecipient groups msg userId := by
  simp [isRecipient]

/-- A receipt on the hidden table makes the same change and returns the hidden row. -/
theorem receipt_hide {f : Message → Message} (hf : Blind a b f) (groups : Groups)
    (rows : MessageRows) (messageId userId : UUID) :
    let r := receipt groups rows f messageId userId
    let r' := receipt groups (hide a b rows) f messageId userId
    hide a b r'.1 = hide a b r.1 ∧ r'.2.map (conceal a b) = r.2.map (conceal a b) := by
  dsimp only
  unfold receipt
  rw [byId_hide]
  cases rows.byId messageId with
  | none => exact ⟨hide_hide rows, rfl⟩
  | some msg =>
    simp only [Option.map_some, isParticipant_conceal]
    split_ifs
    · exact ⟨hide_modify hf rows messageId, congrArg some (hf msg)⟩
    · exact ⟨hide_hide rows, rfl⟩

/-- What a caller reads off the row a receipt returns. -/
theorem senderId_of_conceal {r r' : Option Message}
    (h : r'.map (conceal a b) = r.map (conceal a b)) :
    r'.bind Message.senderId = r.bind Message.senderId := by
  have hsender := congrArg (fun r => r.bind Message.senderId) h
  simpa [Option.bind_map, Function.comp_def] using hsender

theorem handleReceipt_hide (w : World) (userId : UUID) (isRead : Bool) (frame : Frame) :
    (handleReceipt (w.hide a b) userId isRead frame).hide a b =
      (handleReceipt w userId isRead frame).hide a b := by
  unfold handleReceipt
  cases uuidOrNone (Json.get frame "message_id") with
  | none =>
    show Handled.mk ((w.hide a b).hide a b) [] false = Handled.mk (w.hide a b) [] false
    unfold World.hide
    rw [hide_hide]
  | some messageId =>
    have key : ∀ f, Blind a b f → ∀ r r', r = receipt w.groups w.messages f messageId userId →
        r' = receipt w.groups (hide a b w.messages) f messageId userId →
        hide a b r'.1 = hide a b r.1 ∧ r'.2.bind Message.senderId = r.2.bind Message.senderId := by
      rintro f hf _ _ rfl rfl
      obtain ⟨hrows, hmsg⟩ := receipt_hide hf w.groups w.messages messageId userId
      exact ⟨hrows, senderId_of_conceal hmsg⟩
    cases isRead with
    | true =>
      obtain ⟨hrows, hsender⟩ := key _ (blind_read w.now) _ _ rfl rfl
      simp only [Handled.hide, World.hide, if_true, markRead, hrows, hsender]
    | false =>
      obtain ⟨hrows, hsender⟩ := key _ (blind_deliver w.now) _ _ rfl rfl
      simp only [Handled.hide, World.hide, Bool.false_eq_true, if_false, markDelivered, hrows,
        hsender]

theorem hide_world (w : World) : (w.hide a b).hide a b = w.hide a b := by
  unfold World.hide
  rw [hide_hide]

/-- A retraction of a hidden row is the same retraction, or is denied alike. -/
theorem unsendMessage_hide (rows : MessageRows) (now : Time) (messageId userId : UUID) :
    (∃ denied, unsendMessage rows now messageId userId = .error denied ∧
      unsendMessage (hide a b rows) now messageId userId = .error denied) ∨
    ∃ rows₁ rows₂ msg₁ msg₂, unsendMessage rows now messageId userId = .ok (rows₁, msg₁) ∧
      unsendMessage (hide a b rows) now messageId userId = .ok (rows₂, msg₂) ∧
      hide a b rows₂ = hide a b rows₁ ∧ msg₂.recipientId = msg₁.recipientId := by
  unfold unsendMessage
  rw [byId_hide]
  cases rows.byId messageId with
  | none => exact .inl ⟨_, rfl, rfl⟩
  | some msg =>
    by_cases howner : msg.senderId = some userId
    · rw [Option.map_some, Option.filter_some, Option.filter_some, conceal_senderId,
        if_pos (decide_eq_true howner), if_pos (decide_eq_true howner)]
      simp only [conceal_createdAt]
      by_cases hlate : now - msg.createdAt > UNSEND_WINDOW
      · rw [if_pos hlate, if_pos hlate]
        exact .inl ⟨_, rfl, rfl⟩
      · rw [if_neg hlate, if_neg hlate]
        exact .inr ⟨_, _, _, _, rfl, rfl, hide_modify (blind_retract now) rows messageId,
          conceal_recipientId msg⟩
    · rw [Option.map_some, Option.filter_some, Option.filter_some, conceal_senderId,
        if_neg (by simpa using howner), if_neg (by simpa using howner)]
      exact .inl ⟨_, rfl, rfl⟩

theorem handleUnsend_hide (w : World) (userId : UUID) (frame : Frame) :
    (handleUnsend (w.hide a b) userId frame).hide a b = (handleUnsend w userId frame).hide a b := by
  unfold handleUnsend
  cases uuidOrNone (Json.get frame "message_id") with
  | none => exact congrArg (Handled.mk · [] false) (hide_world w)
  | some messageId =>
    rcases unsendMessage_hide (a := a) (b := b) w.messages w.now messageId userId with
      ⟨denied, h, h'⟩ | ⟨rows₁, rows₂, msg₁, msg₂, h, h', hrows, hrecipient⟩
    · have h'' : unsendMessage (w.hide a b).messages (w.hide a b).now messageId userId =
          .error denied := h'
      simp only [h, h'']
      exact congrArg (Handled.mk · _ false) (hide_world w)
    · have h'' : unsendMessage (w.hide a b).messages (w.hide a b).now messageId userId =
          .ok (rows₂, msg₂) := h'
      simp only [h, h'', hrecipient]
      exact congrArg (fun rows => Handled.mk { w with messages := rows } _ false) hrows

/-- A content frame does not read the table but for its free keys. -/
theorem handleContent_hide (w : World) (userId : UUID) (fresh : NewRow) (messageType : MessageType)
    (frame : Frame) :
    (handleContent (w.hide a b) userId fresh messageType frame).hide a b =
      (handleContent w userId fresh messageType frame).hide a b := by
  unfold handleContent
  cases uuidOrNone (Json.get frame "to") with
  | none => exact congrArg (Handled.mk · _ false) (hide_world w)
  | some toId =>
    dsimp only
    have hrow : contentRow (w.hide a b).now fresh userId toId messageType frame =
      contentRow w.now fresh userId toId messageType frame := rfl
    rw [hrow]
    cases contentRow w.now fresh userId toId messageType frame with
    | none => exact congrArg (Handled.mk · [] true) (hide_world w)
    | some msg =>
      have hsave : saveMessage (w.hide a b).users (w.hide a b).groups (w.hide a b).messages msg =
          if msg.insertable w.users w.groups && (w.messages.byId msg.id).isNone then
            some (hide a b w.messages ++ [msg]) else none := by
        show saveMessage w.users w.groups (hide a b w.messages) msg = _
        unfold saveMessage
        rw [byId_hide, Option.isNone_map]
      dsimp only
      rw [hsave]
      unfold saveMessage
      by_cases hok : (msg.insertable w.users w.groups && (w.messages.byId msg.id).isNone) = true
      · simp only [if_pos hok]
        have hrows : hide a b (hide a b w.messages ++ [msg]) = hide a b (w.messages ++ [msg]) := by
          rw [hide_append, hide_append, hide_hide]
        exact congrArg (fun rows => Handled.mk { w with messages := rows } _ false) hrows
      · simp only [if_neg hok]
        exact congrArg (Handled.mk · [] true) (hide_world w)

/-- What a frame does and sends does not depend on what is hidden. -/
theorem handleFrame_hide (w : World) (userId : UUID) (connectionId : String) (fresh : NewRow)
    (frame : Frame) :
    (handleFrame (w.hide a b) userId connectionId fresh frame).hide a b =
      (handleFrame w userId connectionId fresh frame).hide a b := by
  unfold handleFrame
  cases branchOf (Json.get frame "type") with
  | ping =>
    exact congrArg (fun w : World => Handled.mk
      { w with presence := heartbeat w.presence w.now connectionId } _ false) (hide_world w)
  | presence => exact congrArg (Handled.mk · _ false) (hide_world w)
  | typing frameType =>
    dsimp only
    split <;> exact congrArg (Handled.mk · _ false) (hide_world w)
  | content messageType => exact handleContent_hide w userId fresh messageType frame
  | receipt isRead => exact handleReceipt_hide w userId isRead frame
  | unsend => exact handleUnsend_hide w userId frame
  | unsupported => exact congrArg (Handled.mk · _ false) (hide_world w)

theorem turn_hide (refuses : Refuses) (userId : UUID) (connectionId : String) (h : Handled) :
    (h.hide a b).turn refuses userId connectionId =
      (h.turn refuses userId connectionId).hide a b := by
  unfold Handled.turn
  show (if h.raised || h.effects.any (Effect.raises refuses) then _ else _) = _
  split_ifs <;> rfl

/-! ## Receipt and typing routes -/

def hideRows (a b : UUID) (r : Except HttpError (MessageRows × List (UUID × Frame))) :
    Except HttpError (MessageRows × List (UUID × Frame)) := r.map fun p => (hide a b p.1, p.2)

variable {chatId messageId : UUID} {now : Time}

theorem answerOf_hide {r r' : MessageRows × Option Message}
    (hrows : hide a b r'.1 = hide a b r.1)
    (hmsg : r'.2.map (conceal a b) = r.2.map (conceal a b)) (err : HttpError)
    (sent : MessageRows → Message → List (UUID × Frame))
    (hsent : ∀ m m', conceal a b m' = conceal a b m → sent r'.1 m' = sent r.1 m) :
    hideRows a b (answerOf err sent r') = hideRows a b (answerOf err sent r) := by
  obtain ⟨rows, msg⟩ := r
  obtain ⟨rows', msg'⟩ := r'
  cases msg with
  | none =>
    obtain rfl : msg' = none := Option.map_eq_none_iff.mp hmsg
    rfl
  | some m =>
    obtain ⟨m', rfl, hm⟩ := Option.map_eq_some_iff.mp hmsg
    replace hrows : hide a b rows' = hide a b rows := hrows
    replace hsent : sent rows' m' = sent rows m := hsent m m' hm
    show Except.ok (hide a b rows', sent rows' m') = Except.ok (hide a b rows, sent rows m)
    rw [hrows, hsent]

theorem markMessageDelivered_hide (groups : Groups) (rows : MessageRows) (now : Time)
    (chatId messageId userId : UUID) :
    hideRows a b (markMessageDelivered groups (hide a b rows) now chatId messageId userId) =
      hideRows a b (markMessageDelivered groups rows now chatId messageId userId) := by
  obtain ⟨hrows, hmsg⟩ := receipt_hide (blind_deliver now) groups rows messageId userId
    (a := a) (b := b)
  unfold markMessageDelivered markDelivered
  rw [byId_hide]
  cases rows.byId messageId with
  | none => rfl
  | some msg =>
    rw [Option.map_some, Option.filter_some, Option.filter_some]
    simp only [conceal_recipientId, conceal_groupId]
    by_cases hselected : (decide (msg.recipientId = some userId ∧ msg.groupId = none) ||
        decide (msg.groupId = some chatId ∧ msg.recipientId = none)) = true
    · rw [if_pos hselected, if_pos hselected]
      simp only [isRecipient_conceal]
      by_cases hrecipient : isRecipient groups msg userId = true
      · rw [if_pos hrecipient, if_pos hrecipient]
        refine answerOf_hide hrows hmsg _
          (fun _ updated => updated.senderId.toList.map (·, deliveredFrame messageId))
          fun m m' hm => ?_
        have hsender : m'.senderId = m.senderId := by
          simpa using congrArg Message.senderId hm
        rw [hsender]
      · rw [if_neg hrecipient, if_neg hrecipient]
    · rw [if_neg hselected, if_neg hselected]

theorem readChannels_hide (groups : Groups) (rows : MessageRows) (chatId messageId userId : UUID) :
    readChannels groups (hide a b rows) chatId messageId userId =
      readChannels groups rows chatId messageId userId := by
  unfold readChannels
  rw [byId_hide]
  cases rows.byId messageId with
  | none => rfl
  | some msg => simp

theorem markMessageRead_hide (groups : Groups) (rows : MessageRows) (now : Time)
    (chatId messageId userId : UUID) :
    hideRows a b (markMessageRead groups (hide a b rows) now chatId messageId userId) =
      hideRows a b (markMessageRead groups rows now chatId messageId userId) := by
  obtain ⟨hrows, hmsg⟩ := receipt_hide (blind_read now) groups rows messageId userId
    (a := a) (b := b)
  unfold markMessageRead markRead
  rw [byId_hide]
  cases rows.byId messageId with
  | none => rfl
  | some msg =>
    simp only [Option.map_some, isRecipient_conceal]
    by_cases hrecipient : isRecipient groups msg userId = true
    · rw [if_pos hrecipient, if_pos hrecipient]
      refine answerOf_hide hrows hmsg _
        (fun rows _ =>
          (readChannels groups rows chatId messageId userId).map (·, readFrame messageId))
        fun _ _ _ => ?_
      rw [← readChannels_hide (a := a) (b := b) groups _, hrows, readChannels_hide]
    · rw [if_neg hrecipient, if_neg hrecipient]

theorem updateTyping_hide (groups : Groups) (rows : MessageRows) (chatId userId : UUID)
    (typing : Bool) :
    updateTyping groups (hide a b rows) chatId userId typing =
      updateTyping groups rows chatId userId typing := by
  unfold updateTyping hide
  simp only [List.any_map, Function.comp_def, conceal_senderId, conceal_recipientId,
    conceal_groupId]

/-! ## The sweep -/

def Sweep.hide (a b : UUID) (s : Sweep) : Sweep := { s with rows := Ws.hide a b s.rows }

theorem deleteOf_conceal (bucket : Bucket) (msg : Message) :
    bucket.deleteOf (conceal a b msg) = bucket.deleteOf msg := by
  simp only [Bucket.deleteOf, conceal_mediaObjectKey]

theorem wipes_conceal (fails : UUID → Bool) (msg : Message) :
    wipes fails (conceal a b msg) = wipes fails msg := by
  simp only [wipes, conceal_mediaObjectKey, conceal_id]

theorem sweepMessage_hide (now : Time) (fails : UUID → Bool) (s : Sweep) (id : UUID) :
    Sweep.hide a b (sweepMessage now fails (Sweep.hide a b s) id) =
      Sweep.hide a b (sweepMessage now fails s id) := by
  unfold sweepMessage
  have hrow : (Sweep.hide a b s).rows.byId id = (s.rows.byId id).map (conceal a b) :=
    byId_hide s.rows id
  rw [hrow]
  cases s.rows.byId id with
  | none => exact congrArg (fun rows => { s with rows := rows }) (hide_hide s.rows)
  | some msg =>
    simp only [Option.map_some, wipes_conceal]
    split_ifs
    · simp only [Sweep.hide, conceal_id, conceal_recipientId, conceal_senderId, deleteOf_conceal,
        hide_modify (blind_destroy now), Messages.destroy]
    · exact congrArg (fun rows => { s with rows := rows }) (hide_hide s.rows)

theorem foldl_sweepMessage_hide (now : Time) (fails : UUID → Bool) (batch : List UUID)
    (s s' : Sweep) (h : Sweep.hide a b s = Sweep.hide a b s') :
    Sweep.hide a b (batch.foldl (sweepMessage now fails) s) =
      Sweep.hide a b (batch.foldl (sweepMessage now fails) s') := by
  induction batch generalizing s s' with
  | nil => exact h
  | cons id batch ih =>
    refine ih _ _ ?_
    rw [← sweepMessage_hide, h, sweepMessage_hide]

theorem sweepOnce_hide (now : Time) (rows : MessageRows) (bucket : Bucket) (batch : List UUID)
    (fails : UUID → Bool) (commitOk : Bool) :
    Sweep.hide a b (sweepOnce now (hide a b rows) bucket batch fails commitOk) =
      Sweep.hide a b (sweepOnce now rows bucket batch fails commitOk) := by
  have hloop := foldl_sweepMessage_hide (a := a) (b := b) now fails batch
    ⟨hide a b rows, bucket, [], [], 0⟩ ⟨rows, bucket, [], [], 0⟩
    (congrArg (fun rows => Sweep.mk rows bucket [] [] 0) (hide_hide rows))
  unfold sweepOnce
  cases commitOk with
  | true => exact hloop
  | false =>
    have hfields := Sweep.mk.inj hloop
    simp only [Sweep.hide, Bool.false_eq_true, if_false, hide_hide]
    rw [hfields.2.1, hfields.2.2.2.1, hfields.2.2.2.2]

theorem isBatch_hide (rows : MessageRows) (now : Time) (batch : List UUID) :
    IsBatch (hide a b rows) now batch ↔ IsBatch rows now batch := by
  have hexpired : expired (hide a b rows) now = hide a b (expired rows now) :=
    filter_hide (fun msg => by simp) rows
  unfold IsBatch
  rw [hexpired, map_hide conceal_id, show (hide a b (expired rows now)).length =
    (expired rows now).length from List.length_map _]

/-! ## The chat routes -/

variable {u peerId : UUID}

theorem inHistory_conceal (userId peerId : UUID) (before : Option Time) (msg : Message) :
    inHistory userId peerId before (conceal a b msg) = inHistory userId peerId before msg := by
  simp [inHistory]

/-- A row keeps its place among rows of the table, as no other has its key. -/
theorem conceal_mem_hide (hkeys : (rows.map Message.id).Nodup) {messages : MessageRows}
    (hsub : ∀ msg ∈ messages, msg ∈ rows) {msg : Message} (hmsg : msg ∈ rows) :
    conceal a b msg ∈ hide a b messages ↔ msg ∈ messages := by
  refine ⟨fun h => ?_, fun h => List.mem_map_of_mem h⟩
  obtain ⟨msg', hmsg', heq⟩ := List.mem_map.mp h
  have hid : msg'.id = msg.id := by simpa using congrArg Message.id heq
  obtain rfl := List.inj_on_of_nodup_map hkeys (hsub msg' hmsg') hmsg hid
  exact hmsg'

theorem isHistory_hide (hkeys : (rows.map Message.id).Nodup) {messages : MessageRows}
    (hsub : ∀ msg ∈ messages, msg ∈ rows) (userId peerId : UUID) (before : Option Time)
    (limit : ℕ) :
    IsHistory (hide a b rows) userId peerId before limit (hide a b messages) ↔
      IsHistory rows userId peerId before limit messages := by
  have hselected : ∀ msg ∈ rows.filter (inHistory userId peerId before), msg ∈ rows :=
    fun msg h => (List.mem_filter.mp h).1
  unfold IsHistory
  rw [filter_hide (inHistory_conceal userId peerId before), map_hide conceal_id]
  refine and_congr_right fun _ => and_congr ?_ (and_congr ?_ (and_congr ?_ ?_))
  · -- every answer is selected
    unfold hide
    rw [List.forall_mem_map]
    exact forall₂_congr fun msg hmsg => conceal_mem_hide hkeys hselected (hsub msg hmsg)
  · unfold hide
    rw [List.length_map, List.length_map]
  · unfold hide
    rw [List.pairwise_map]
    simp only [conceal_createdAt]
  · -- whoever is left out is older
    have hmem : ∀ msg ∈ rows.filter (inHistory userId peerId before),
        conceal a b msg ∈ hide a b messages ↔ msg ∈ messages :=
      fun msg hmsg => conceal_mem_hide hkeys hsub (hselected msg hmsg)
    show (∀ msg ∈ (rows.filter _).map (conceal a b), msg ∉ hide a b messages →
      ∀ msg' ∈ messages.map (conceal a b), _) ↔ _
    simp only [List.forall_mem_map, conceal_createdAt]
    exact forall₂_congr fun msg hmsg => imp_congr (not_congr (hmem msg hmsg)) Iff.rfl

theorem filterMap_byId_hide (rows : MessageRows) (ids : List UUID) :
    ids.filterMap (hide a b rows).byId = hide a b (ids.filterMap rows.byId) := by
  unfold hide
  rw [List.map_filterMap]
  exact List.filterMap_congr fun id _ => byId_hide rows id

theorem lastAt_hide (rows : MessageRows) (userId peerId : UUID) :
    lastAt (hide a b rows) userId peerId = lastAt rows userId peerId := by
  unfold lastAt conversation
  rw [filter_hide (fun msg => by simp [inConversations, peerOf]), map_hide conceal_createdAt]

theorem unreadCount_hide (rows : MessageRows) (userId peerId : UUID) :
    unreadCount (hide a b rows) userId peerId = unreadCount rows userId peerId := by
  unfold unreadCount hide
  rw [List.countP_map]
  exact List.countP_congr fun msg _ => by simp

theorem isLastMessage_hide (hkeys : (rows.map Message.id).Nodup) (userId peerId : UUID)
    (last : Option UUID) :
    IsLastMessage (hide a b rows) userId peerId last ↔ IsLastMessage rows userId peerId last := by
  unfold IsLastMessage
  rw [filter_hide (inHistory_conceal userId peerId none)]
  cases last with
  | none => exact List.map_eq_nil_iff
  | some id =>
    dsimp only
    rw [byId_hide]
    cases hmsg : rows.byId id with
    | none => simp
    | some msg =>
      have hmem : conceal a b msg ∈ hide a b (rows.filter (inHistory userId peerId none)) ↔
          msg ∈ rows.filter (inHistory userId peerId none) :=
        conceal_mem_hide hkeys (fun msg h => (List.mem_filter.mp h).1) (Table.find_mem hmsg)
      have hnewest : (∀ msg' ∈ hide a b (rows.filter (inHistory userId peerId none)),
          msg'.createdAt ≤ (conceal a b msg).createdAt) ↔
          ∀ msg' ∈ rows.filter (inHistory userId peerId none), msg'.createdAt ≤ msg.createdAt := by
        unfold hide
        rw [List.forall_mem_map]
        simp only [conceal_createdAt]
      simp only [Option.map_some, Option.mem_some_iff, exists_eq_left', hmem, hnewest]

theorem isConversations_hide (hkeys : (rows.map Message.id).Nodup) (users : Users) (userId : UUID)
    (peers : Conversations) :
    IsConversations users (hide a b rows) userId peers ↔
      IsConversations users rows userId peers := by
  unfold IsConversations
  simp only [lastAt_hide, isLastMessage_hide hkeys]

/-- A message of a third user's conversation is not hidden. -/
theorem conceal_of_inHistory (ha : u ≠ a) (hb : u ≠ b) {before : Option Time} {msg : Message}
    (h : inHistory u peerId before msg = true) : conceal a b msg = msg := by
  refine conceal_of_not_between ?_
  simp only [inHistory, Bool.and_eq_true, Bool.or_eq_true, decide_eq_true_eq] at h
  rintro (⟨hs, hr⟩ | ⟨hs, hr⟩)
  · rcases h.1.1 with ⟨hs', -⟩ | ⟨-, hr'⟩
    · exact ha (Option.some.inj (hs'.symm.trans hs))
    · exact hb (Option.some.inj (hr'.symm.trans hr))
  · rcases h.1.1 with ⟨hs', -⟩ | ⟨-, hr'⟩
    · exact hb (Option.some.inj (hs'.symm.trans hs))
    · exact ha (Option.some.inj (hr'.symm.trans hr))

/-- The history a third user asks for is not hidden. -/
theorem hide_of_isHistory (ha : u ≠ a) (hb : u ≠ b) {before : Option Time} {limit : ℕ}
    {messages : MessageRows} (h : IsHistory rows u peerId before limit messages) :
    hide a b messages = messages := by
  refine (List.map_congr_left fun msg hmsg => ?_).trans (List.map_id' messages)
  exact conceal_of_inHistory ha hb (List.mem_filter.mp (h.2.1 msg hmsg)).2

/-- Nor is the list of conversations. -/
theorem listConversations_hide (ha : u ≠ a) (hb : u ≠ b) {users : Users} (online : UUID → Bool)
    {peers : Conversations} (h : IsConversations users rows u peers) :
    listConversations users (hide a b rows) online u peers =
      listConversations users rows online u peers := by
  unfold listConversations
  refine List.filterMap_congr fun p hp => ?_
  have hlast := h.2.2 p hp
  have hpreview : p.2.bind (hide a b rows).byId = p.2.bind rows.byId := by
    cases hid : p.2 with
    | none => rfl
    | some id =>
      rw [hid] at hlast
      obtain ⟨msg, hmsg, hselected, -⟩ := hlast
      rw [Option.bind_some, Option.bind_some, byId_hide, Option.mem_def.mp hmsg, Option.map_some,
        conceal_of_inHistory ha hb (List.mem_filter.mp hselected).2]
  rw [hpreview]
  simp only [lastAt_hide, unreadCount_hide]

/-! ## One request on the hidden table -/

def Chats.hide (a b : UUID) (s : Chats) : Chats := { s with world := s.world.hide a b }

/-- The states differ in what is hidden only. -/
def SameHidden (a b : UUID) (s s' : Chats) : Prop := s.hide a b = s'.hide a b

theorem answer_hide (s : Chats) (userId : UUID)
    {r r' : Except HttpError (MessageRows × List (UUID × Frame))}
    (h : hideRows a b r' = hideRows a b r) :
    ((s.hide a b).answer userId r').1.hide a b = (s.answer userId r).1.hide a b ∧
      ((s.hide a b).answer userId r').2 = (s.answer userId r).2 := by
  cases r with
  | error e =>
    cases r' with
    | error e' =>
      obtain rfl := Except.error.inj h
      exact ⟨congrArg (Chats.mk · s.bucket) (hide_world s.world), rfl⟩
    | ok p => cases h
  | ok p =>
    cases r' with
    | error e' => cases h
    | ok p' =>
      obtain ⟨hrows, hsent⟩ := Prod.mk.inj (Except.ok.inj h)
      refine ⟨congrArg (fun rows => Chats.mk { s.world with messages := rows } s.bucket) hrows, ?_⟩
      simp only [Chats.answer, hsent]

theorem SameHidden.symm (s s' : Chats) (h : SameHidden a b s s') : SameHidden a b s' s := Eq.symm h

theorem SameHidden.trans (s s' s'' : Chats) (h : SameHidden a b s s') (h' : SameHidden a b s' s'') :
    SameHidden a b s s'' := Eq.trans h h'

theorem sameHidden_hide (s : Chats) : SameHidden a b (s.hide a b) s :=
  congrArg (Chats.mk · s.bucket) (hide_world s.world)

/-- A response that only a third user has to find unchanged. -/
theorem seen_response {β : Type} (e : β → ChatEvent) (he : ∀ x, (e x).user = userId) {x y : β}
    (h : userId = u → x = y) :
    [e x].filter (ChatEvent.seenBy u) = [e y].filter (ChatEvent.seenBy u) := by
  by_cases hu : userId = u
  · rw [h hu]
  · have hnot : ∀ x, (e x).seenBy u = false := fun x => by
      unfold ChatEvent.seenBy
      rw [he x]
      exact decide_eq_false hu
    rw [List.filter_cons_of_neg (by simp [hnot]), List.filter_cons_of_neg (by simp [hnot])]

/-- **Step on the hidden table.** A request is answered alike, as far as a third user
    sees. -/
theorem chatStep_hide (ha : u ≠ a) (hb : u ≠ b) {s : Chats} (hkeys : s.Keys) (r : Request) :
    Indistinct (SameHidden a b) (ChatEvent.seenBy u) (chatStep (s.hide a b) r) (chatStep s r) := by
  cases r with
  | frame userId connectionId fresh f pushRefused =>
    have hturn : ((handleFrame (s.world.hide a b) userId connectionId fresh f).turn
          (fun _ _ _ _ => pushRefused) userId connectionId).hide a b =
        ((handleFrame s.world userId connectionId fresh f).turn
          (fun _ _ _ _ => pushRefused) userId connectionId).hide a b := by
      rw [← turn_hide, handleFrame_hide, turn_hide]
    obtain ⟨hworld, heffects, -⟩ := Turn.mk.inj hturn
    refine .of_some (congrArg (Chats.mk · s.bucket) hworld) ?_
    exact congrArg (fun effects : List Effect => (effects.filterMap (Effect.event userId
      (uuidOrNone (Json.get f "to")))).filter (ChatEvent.seenBy u)) heffects
  | listConversations userId peers =>
    refine .guard (isConversations_hide hkeys s.world.users userId peers) fun hok => ?_
    refine .of_some (sameHidden_hide s) (seen_response (.conversations userId) (fun _ => rfl) ?_)
    rintro rfl
    exact listConversations_hide ha hb _ hok
  | messageHistory userId peerId before limit ids =>
    have hsub : ∀ msg ∈ ids.filterMap s.world.messages.byId, msg ∈ s.world.messages := by
      intro msg hmsg
      obtain ⟨id, -, hid⟩ := List.mem_filterMap.mp hmsg
      exact Table.find_mem hid
    have hmessages : ids.filterMap (s.hide a b).world.messages.byId =
        hide a b (ids.filterMap s.world.messages.byId) := filterMap_byId_hide s.world.messages ids
    simp only [chatStep, hmessages]
    refine .guard (isHistory_hide hkeys hsub userId peerId before limit) fun hok => ?_
    refine .of_some (sameHidden_hide s) (seen_response (.history userId) (fun _ => rfl) ?_)
    rintro rfl
    rw [hide_of_isHistory ha hb hok]
    rfl
  | markMessageDelivered chatId messageId userId =>
    obtain ⟨hstate, hevents⟩ := answer_hide s userId (markMessageDelivered_hide (a := a) (b := b)
      s.world.groups s.world.messages s.world.now chatId messageId userId)
    exact .of_some hstate (congrArg (List.filter (ChatEvent.seenBy u)) hevents)
  | markMessageRead chatId messageId userId =>
    obtain ⟨hstate, hevents⟩ := answer_hide s userId (markMessageRead_hide (a := a) (b := b)
      s.world.groups s.world.messages s.world.now chatId messageId userId)
    exact .of_some hstate (congrArg (List.filter (ChatEvent.seenBy u)) hevents)
  | updateTyping chatId userId typing =>
    have hanswer : hideRows a b ((updateTyping s.world.groups (hide a b s.world.messages) chatId
          userId typing).map (hide a b s.world.messages, ·)) =
        hideRows a b ((updateTyping s.world.groups s.world.messages chatId userId typing).map
          (s.world.messages, ·)) := by
      rw [updateTyping_hide]
      cases updateTyping s.world.groups s.world.messages chatId userId typing with
      | error e => rfl
      | ok sent => exact congrArg (fun rows => Except.ok (rows, sent)) (hide_hide _)
    obtain ⟨hstate, hevents⟩ := answer_hide s userId hanswer
    exact .of_some hstate (congrArg (List.filter (ChatEvent.seenBy u)) hevents)
  | sweep batch fails commitOk =>
    refine .guard (isBatch_hide s.world.messages s.world.now batch) fun _ => ?_
    obtain ⟨hrows, hbucket, -, hpublished, -⟩ := Sweep.mk.inj (sweepOnce_hide (a := a) (b := b)
      s.world.now s.world.messages s.bucket batch fails commitOk)
    refine .of_some ?_ ?_
    · exact congrArg₂ (fun rows bucket => Chats.mk { s.world with messages := rows } bucket)
        hrows hbucket
    · exact congrArg (fun published : List (UUID × Frame) => (published.map fun p =>
        ChatEvent.published p.1 p.2).filter (ChatEvent.seenBy u)) hpublished
  | surroundings users groups presence fcm =>
    refine .of_some ?_ rfl
    exact congrArg (fun rows => Chats.mk { s.world with
      messages := rows, users := users, groups := groups, presence := presence, fcm := fcm }
      s.bucket) (hide_hide s.world.messages)
  | tick d =>
    refine .of_some ?_ rfl
    exact congrArg (fun rows => Chats.mk { s.world with messages := rows, now := s.world.now + d }
      s.bucket) (hide_hide s.world.messages)

/-! ## The content of a text -/

/-- The events of a content frame are for its sender and its recipient. -/
theorem user_of_handleContent {messageType : MessageType} {e : Effect}
    (he : e ∈ (handleContent w userId fresh messageType frame).effects) {event : ChatEvent}
    (hevent : e.event userId (uuidOrNone (Json.get frame "to")) = some event) :
    event.user = userId ∨ uuidOrNone (Json.get frame "to") = some event.user := by
  unfold handleContent at he
  cases hto : uuidOrNone (Json.get frame "to") with
  | none =>
    rw [hto] at he hevent
    obtain rfl := List.mem_singleton.mp he
    obtain rfl := Option.some.inj hevent
    exact .inl rfl
  | some toId =>
    rw [hto] at he hevent
    dsimp only at he
    split at he
    · cases he
    · split at he
      · cases he
      · rcases List.mem_append.mp he with he | he
        · split_ifs at he
          · cases he
          · obtain ⟨fcmToken, title, body, peerId, rfl⟩ := push_of_mem_offlinePush he
            obtain rfl := Option.some.inj hevent
            exact .inr rfl
        · rcases List.mem_cons.mp he with rfl | he
          · obtain rfl := Option.some.inj hevent
            exact .inl rfl
          · obtain rfl := List.mem_singleton.mp he
            obtain rfl := Option.some.inj hevent
            exact .inr rfl

/-- Whether a push is due, and refused, does not depend on its text. -/
theorem raises_offlinePush (w : World) (userId toId : UUID) (messageType : MessageType)
    (content content' : Option String) (pushRefused : Bool) :
    (offlinePush w userId toId messageType content).any (Effect.raises fun _ _ _ _ => pushRefused) =
      (offlinePush w userId toId messageType content').any
        (Effect.raises fun _ _ _ _ => pushRefused) := by
  unfold offlinePush
  split
  · next recipient sender _ _ =>
    by_cases htoken : truthyStr recipient.fcmToken = true
    · rw [if_pos htoken, if_pos htoken]
      cases hfcm : w.fcm with
      | true => rfl
      | false => rfl
    · rw [if_neg htoken, if_neg htoken]
  · rfl

/-- The row with another content. -/
def withContent (content : String) (msg : Message) : Message :=
  { msg with contentCiphertext := some content }

variable {f f' : Frame} {content content' : String} {toId : UUID}

/-- Their rows differ in the content, if there are any. -/
theorem TextPair.contentRow (h : TextPair f f' content content') (now : Time)
    (fresh : NewRow) (userId toId : UUID) (messageType : MessageType) :
    (contentRow now fresh userId toId messageType f = none ∧
      contentRow now fresh userId toId messageType f' = none) ∨
    ∃ msg, contentRow now fresh userId toId messageType f = some msg ∧
      contentRow now fresh userId toId messageType f' = some (withContent content' msg) ∧
      msg.contentCiphertext = some content ∧ msg.senderId = some userId ∧
        msg.recipientId = some toId := by
  have hstr : ∀ s, (Json.str s).asOptStr = some (some s) := fun _ => rfl
  unfold Ws.contentRow
  rw [h.left, h.right, h.rest "media_key" (by decide), h.rest "media_mime" (by decide),
    h.rest "destruct_after" (by decide), hstr, hstr, Option.bind_some, Option.bind_some]
  cases (Json.get f "media_key").asOptStr with
  | none => exact .inl ⟨rfl, rfl⟩
  | some mediaKey =>
    cases (Json.get f "media_mime").asOptStr with
    | none => exact .inl ⟨rfl, rfl⟩
    | some mediaMime =>
      cases (Json.get f "destruct_after").asOptNumber with
      | none => exact .inl ⟨rfl, rfl⟩
      | some destructAfter => exact .inr ⟨_, rfl, rfl, rfl, rfl, rfl⟩

/-- Handled, they leave the tables alike, and raise or not alike. -/
theorem TextPair.handleContent (h : TextPair f f' content content')
    (hpair : ArePair a b userId toId) (hto : uuidOrNone (Json.get f "to") = some toId)
    (w : World) (fresh : NewRow) (messageType : MessageType) (pushRefused : Bool) :
    let r := handleContent w userId fresh messageType f
    let r' := handleContent w userId fresh messageType f'
    r.world.hide a b = r'.world.hide a b ∧ r.raised = r'.raised ∧
      r.effects.any (Effect.raises fun _ _ _ _ => pushRefused) =
        r'.effects.any (Effect.raises fun _ _ _ _ => pushRefused) := by
  dsimp only
  have hto' : uuidOrNone (Json.get f' "to") = some toId := (h.rest "to" (by decide)).symm ▸ hto
  rcases h.contentRow w.now fresh userId toId messageType with
    ⟨hrow, hrow'⟩ | ⟨msg, hrow, hrow', hcontent, hsender, hrecipient⟩
  · unfold Ws.handleContent
    simp only [hto, hto', hrow, hrow', and_self]
  · have hinsertable : (withContent content' msg).insertable w.users w.groups =
        msg.insertable w.users w.groups := by
      unfold Message.insertable
      rw [hcontent, h.fits]
      simp only [withContent, h.fits']
    have hconceal : conceal a b (withContent content' msg) = conceal a b msg := by
      have hbetween : Between a b msg := by
        rcases hpair with ⟨rfl, rfl⟩ | ⟨rfl, rfl⟩
        · exact .inl ⟨hsender, hrecipient⟩
        · exact .inr ⟨hsender, hrecipient⟩
      have hbetween' : Between a b (withContent content' msg) := hbetween
      rw [conceal_of_between hbetween, conceal_of_between hbetween']
      rfl
    have hack : ackFrame f' (withContent content' msg) = ackFrame f msg := by
      unfold ackFrame
      rw [h.rest "client_ref" (by decide)]
      rfl
    rw [handleContent_of_row hto hrow, handleContent_of_row hto' hrow', hinsertable, hack,
      show (withContent content' msg).id = msg.id from rfl]
    by_cases hok : (msg.insertable w.users w.groups && (w.messages.byId msg.id).isNone) = true
    · rw [if_pos hok, if_pos hok]
      refine ⟨congrArg (fun rows => { w with messages := rows }) ?_, rfl, ?_⟩
      · show hide a b (w.messages ++ [msg]) = hide a b (w.messages ++ [withContent content' msg])
        rw [hide_append, hide_append, hconceal]
      · dsimp only
        rw [List.any_append, List.any_append]
        refine congrArg₂ (· || ·) ?_ rfl
        split
        · rfl
        · exact raises_offlinePush ..
    · rw [if_neg hok, if_neg hok]
      exact ⟨rfl, rfl, rfl⟩

/-- A third user sees nothing of a text between `a` and `b`. -/
theorem not_seen_handleContent (ha : u ≠ a) (hb : u ≠ b) (hpair : ArePair a b userId toId)
    (hto : uuidOrNone (Json.get frame "to") = some toId) {messageType : MessageType}
    {effects : List Effect}
    (hsub : ∀ e ∈ effects, e ∈ (handleContent w userId fresh messageType frame).effects) :
    (effects.filterMap (Effect.event userId (uuidOrNone (Json.get frame "to")))).filter
      (ChatEvent.seenBy u) = [] := by
  rw [List.filter_eq_nil_iff]
  intro event hevent
  obtain ⟨e, he, hsome⟩ := List.mem_filterMap.mp hevent
  have huser : event.user ≠ u := by
    rintro rfl
    rcases user_of_handleContent (hsub e he) hsome with h | h
    · rcases hpair with ⟨rfl, rfl⟩ | ⟨rfl, rfl⟩
      · exact ha h
      · exact hb h
    · have hsame := Option.some.inj (h.symm.trans hto)
      rcases hpair with ⟨rfl, rfl⟩ | ⟨rfl, rfl⟩
      · exact hb hsame
      · exact ha hsame
  simpa [ChatEvent.seenBy] using huser

/-- **Step on another text.** -/
theorem chatStep_text (ha : u ≠ a) (hb : u ≠ b) (s : Chats) (hpair : ArePair a b userId toId)
    (htype : Json.get f "type" = .str "text")
    (hto : uuidOrNone (Json.get f "to") = some toId) (h : TextPair f f' content content')
    (connectionId : String) (fresh : NewRow) (pushRefused : Bool) :
    Indistinct (SameHidden a b) (ChatEvent.seenBy u)
      (chatStep s (.frame userId connectionId fresh f pushRefused))
      (chatStep s (.frame userId connectionId fresh f' pushRefused)) := by
  have hframe : ∀ f : Frame, Json.get f "type" = .str "text" →
      handleFrame s.world userId connectionId fresh f =
        handleContent s.world userId fresh .TEXT f := by
    intro f htype
    unfold handleFrame
    rw [htype]
    rfl
  have htype' : Json.get f' "type" = .str "text" := (h.rest "type" (by decide)).trans htype
  have hto' : uuidOrNone (Json.get f' "to") = some toId := (h.rest "to" (by decide)).symm ▸ hto
  obtain ⟨hworld, hraised, hany⟩ := h.handleContent hpair hto s.world fresh .TEXT pushRefused
  simp only [chatStep, hframe f htype, hframe f' htype']
  -- either both turns go on, or both end
  refine .of_some ?_ ?_
  · refine congrArg (Chats.mk · s.bucket) ?_
    show World.hide a b (Handled.turn _ _ _ _).world = World.hide a b (Handled.turn _ _ _ _).world
    unfold Handled.turn
    rw [hraised, hany]
    split_ifs
    · exact congrArg (fun w : World =>
        { w with presence := unregister w.presence userId connectionId }) hworld
    · exact hworld
  · rw [not_seen_handleContent ha hb hpair hto fun e => mem_turn_effects,
      not_seen_handleContent ha hb hpair hto' fun e => mem_turn_effects]

/-- **Step.** Alike requests on tables that differ in what is hidden. -/
theorem chatStep_alike (ha : u ≠ a) (hb : u ≠ b) {s s' : Chats} (hs : SameHidden a b s s')
    (hkeys : s.Keys) (hkeys' : s'.Keys) {r r' : Request} (hr : Alike a b r r') :
    Indistinct (SameHidden a b) (ChatEvent.seenBy u) (chatStep s r) (chatStep s' r') := by
  have hsame : ∀ r, Indistinct (SameHidden a b) (ChatEvent.seenBy u) (chatStep s r)
      (chatStep s' r) := by
    intro r
    have hleft := chatStep_hide ha hb hkeys r
    have hright := chatStep_hide ha hb hkeys' r
    rw [show s.hide a b = s'.hide a b from hs] at hleft
    exact (hleft.symm SameHidden.symm).trans SameHidden.trans hright
  cases hr with
  | same => exact hsame r
  | text userId toId connectionId fresh f f' content content' pushRefused hpair htype hto
      hcontent =>
    exact (chatStep_text ha hb s hpair htype hto hcontent connectionId fresh pushRefused).trans
      SameHidden.trans (hsame _)

end Hiding

/-- **Confidentiality.** A third user observes the same in two runs that differ only
    in the contents of texts between `a` and `b`. -/
theorem confidential {a b u : UUID} (ha : u ≠ a) (hb : u ≠ b) (world : World) (bucket : Bucket)
    {rs rs' : List Request} (h : List.Forall₂ (Alike a b) rs rs') :
    observes u (Chats.init world bucket) rs = observes u (Chats.init world bucket) rs' := by
  have hrun : Indistinct (fun s s' => SameHidden a b s s' ∧ s.Keys ∧ s'.Keys) (ChatEvent.seenBy u)
      (trace chatStep (Chats.init world bucket) rs)
      (trace chatStep (Chats.init world bucket) rs') := by
    refine .trace (A := Alike a b) ?_ ⟨rfl, Chats.keys_init .., Chats.keys_init ..⟩ h
    rintro s s' r r' ⟨hs, hkeys, hkeys'⟩ hr
    rcases (chatStep_alike ha hb hs hkeys hkeys' hr).cases with ⟨hx, hx'⟩ |
      ⟨⟨t, events⟩, ⟨t', events'⟩, hx, hx', ht, hevents⟩
    · rw [hx, hx']
      exact .none
    · rw [hx, hx']
      exact .of_some ⟨ht, chatStep_keys hx hkeys, chatStep_keys hx' hkeys'⟩ hevents
  unfold observes
  rcases hrun.cases with ⟨hr, hr'⟩ | ⟨r, r', hr, hr', -, hevents⟩
  · rw [hr, hr']
  · rw [hr, hr', Option.map_some, Option.map_some, hevents]

/-- The user 7 writes `text` to the user 1 and then to the user 9, who reads it. -/
def writesBoth (text : String) : List Request :=
  [.frame 7 "c7" 100 (sampleFrame "text" 1 [("content", .str text)]) false,
    .frame 7 "c7" 101 (sampleFrame "text" 9 [("content", .str "hi")]) false,
    .listConversations 9 [(7, some 101)], .messageHistory 9 7 none 50 [101]]

/-- The users 7, 1 and 9. -/
def threeUsers : World :=
  { sampleWorld with users := [sampleUser, sampleAdmin, { sampleUser with id := 9 }] }

/-- The user 9 sees the same, whatever the user 1 is told. -/
theorem confidential_writesBoth :
    (observes 9 (Chats.init threeUsers .empty) (writesBoth "hello")).isSome = true ∧
      observes 9 (Chats.init threeUsers .empty) (writesBoth "hello") =
        observes 9 (Chats.init threeUsers .empty) (writesBoth "goodbye") := by
  refine ⟨by decide +kernel, ?_⟩
  have hto : ∀ text, uuidOrNone (Json.get (sampleFrame "text" 1 [("content", .str text)]) "to") =
      some 1 := fun _ => uuidOrNone_str 1
  refine confidential (a := 7) (b := 1) (by decide) (by decide) _ _ (.cons ?_
    (.cons (.same _) (.cons (.same _) (.cons (.same _) .nil))))
  refine .text 7 1 "c7" 100 _ _ "hello" "goodbye" false (.inl ⟨rfl, rfl⟩) rfl (hto "hello") ?_
  refine ⟨rfl, rfl, fun key hkey => ?_, by decide, by decide⟩
  have hother : (key == "content") = false := beq_false_of_ne hkey
  simp [sampleFrame, Json.get, List.lookup_cons, hother]

end IronLink.Ws
