import IronLink.Jobs.Journal
import IronLink.Ws.Outcome

/-!
# What a publication announces

`_handle_frame` publishes after its commit. `sweep_once` publishes in the loop
before its commit, and `set_user_status` before its own.

Results:
* `handleFrame_recorded`: whatever the handler publishes is recorded by then.
* `announces_iff_afterCommit`: a run announces committed facts only, if and only if
  every sweep and every status change publishes after a commit of what it publishes.
* `sweep_publishesFirst`, `suspension_publishesFirst`: what these two announce the
  database does not know yet, and never will when their commit fails.
-/

namespace IronLink.Jobs

open Lib Auth Messages Ws

/-! ## What the database has to record -/

/-- The row a frame is about. -/
def rowOf (rows : MessageRows) (payload : Frame) : Option Message :=
  (uuidOrNone (Json.get payload "message_id")).bind rows.byId

/-- The rows record what a frame on the channel of `userId` says about a message. -/
structure Recorded (rows : MessageRows) (userId : UUID) (payload : Frame) : Prop where
  message : Json.get payload "type" = .str "message" →
    ∃ msg ∈ rowOf rows payload, msg.recipientId = some userId ∧
      (∃ senderId ∈ msg.senderId, Json.get payload "from" = .str senderId.str) ∧
      Json.get payload "message_type" = .str msg.messageType.value ∧
      Json.get payload "created_at" = .iso msg.createdAt
  delivered : Json.get payload "type" = .str "receipt" →
    Json.get payload "status" = .str "delivered" →
      ∃ msg ∈ rowOf rows payload, msg.senderId = some userId ∧ msg.deliveredAt.isSome
  read : Json.get payload "type" = .str "receipt" → Json.get payload "status" = .str "read" →
    ∃ msg ∈ rowOf rows payload, msg.senderId = some userId ∧ msg.status = .READ
  unsend : Json.get payload "type" = .str "unsend" → ∃ msg ∈ rowOf rows payload, isGone msg = true

/-- The database records what a frame on the channel of `userId` announces. -/
structure Committed (world : World) (userId : UUID) (payload : Frame) : Prop where
  rows : Recorded world.messages userId payload
  account : Json.get payload "type" = .str "account_suspended" →
    isSuspended world.users userId = true

/-- What the step publishes is committed. -/
def Announces (server : Server) (action : JobAction) : Prop :=
  ∀ userId payload, published server action = some (userId, payload) →
    Committed server.world userId payload

/-- What the job publishes next has been committed before, by another job. -/
def Job.afterCommit (start : World) (journal : List Commit) : Job → Bool
  | .sweep ⟨_, _, _ :: _, wiped⟩ =>
    wiped.getLast?.all fun msg => droppedBefore start journal msg.id
  | .status target _ (_ :: _) => suspendedBefore start journal target.id
  | _ => true

/-- A sweep publishes about a message after a commit that has wiped or retracted it,
    and `set_user_status` after a commit that has suspended the account, with none
    since that has reactivated it. -/
def AfterCommit (start : World) (l : Journaled) : JobAction → Prop
  | .next k true => ∀ job ∈ l.server.jobs[k]?, job.afterCommit start l.journal = true
  | _ => True

instance (start : World) (l : Journaled) : ∀ action, Decidable (AfterCommit start l action)
  | .next k true => inferInstanceAs
      (Decidable (∀ job ∈ l.server.jobs[k]?, job.afterCommit start l.journal = true))
  | .next _ false | .frame .. | .setUserStatus .. | .sweep _ | .stop _ | .tick _ => isTrue trivial

/-! ## What a row keeps -/

/-- What was recorded of a message still is. -/
structure Keeps (msg msg' : Message) : Prop where
  sender : msg'.senderId = msg.senderId
  recipient : msg'.recipientId = msg.recipientId
  type : msg'.messageType = msg.messageType
  created : msg'.createdAt = msg.createdAt
  delivered : msg.deliveredAt.isSome → msg'.deliveredAt.isSome
  read : msg.status = .READ → msg'.status = .READ
  gone : isGone msg = true → isGone msg' = true

/-- Every row of `rows` is kept. -/
def Grows (rows rows' : MessageRows) : Prop :=
  ∀ id, ∀ msg ∈ rows.byId id, ∃ msg' ∈ rows'.byId id, Keeps msg msg'

theorem Keeps.refl (msg : Message) : Keeps msg msg := ⟨rfl, rfl, rfl, rfl, id, id, id⟩

theorem keeps_read (now : Time) (msg : Message) : Keeps msg (Messages.read now msg) := by
  unfold Messages.read
  by_cases hread : msg.status ≠ .READ
  · rw [if_pos hread]
    refine ⟨rfl, rfl, rfl, rfl, fun h => ?_, fun _ => rfl, id⟩
    show (msg.deliveredAt.or (some now)).isSome = true
    rw [Option.isSome_or, h, Bool.true_or]
  · rw [if_neg hread]
    exact .refl msg

theorem keeps_of_rowChange {now : Time} {msg msg' : Message} (h : RowChange now msg msg') :
    Keeps msg msg' := by
  cases h with
  | same => exact .refl msg
  | deliver =>
    refine ⟨rfl, rfl, rfl, rfl, fun h => ?_, id, id⟩
    show (msg.deliveredAt.or (some now)).isSome = true
    rw [Option.isSome_or, h, Bool.true_or]
  | read => exact keeps_read now msg
  | retract => exact ⟨rfl, rfl, rfl, rfl, id, id, fun _ => Bool.or_true _⟩

theorem grows_of_rowsStep {now : Time} {userId : UUID} {fresh : NewRow} {target : Option UUID}
    {rows rows' : MessageRows} (h : RowsStep now userId fresh target rows rows') :
    Grows rows rows' := by
  intro id msg hmsg
  obtain ⟨msg', hmsg', hchange⟩ := rowsStep_byId_of_some h hmsg
  exact ⟨msg', hmsg', keeps_of_rowChange hchange⟩

theorem keeps_destroy (now : Time) (msg : Message) : Keeps msg (destroy now msg) :=
  ⟨rfl, rfl, rfl, rfl, id, id, fun _ => rfl⟩

theorem grows_commitSweep (run : SweepRun) (rows : MessageRows) :
    Grows rows (commitSweep run rows) := by
  intro id msg hmsg
  refine ⟨if id ∈ run.wiped.map Message.id then destroy run.now msg else msg, ?_, ?_⟩
  · rw [Option.mem_def, commitSweep_byId, Option.mem_def.mp hmsg, Option.map_some]
  · split_ifs
    · exact keeps_destroy run.now msg
    · exact .refl msg

theorem Grows.rowOf {rows rows' : MessageRows} (h : Grows rows rows') {payload : Frame}
    {msg : Message} (hmsg : msg ∈ rowOf rows payload) :
    ∃ msg' ∈ Jobs.rowOf rows' payload, Keeps msg msg' := by
  obtain ⟨id, hid, hmsg⟩ := Option.bind_eq_some_iff.mp hmsg
  obtain ⟨msg', hmsg', hkeeps⟩ := h id msg hmsg
  exact ⟨msg', Option.bind_eq_some_iff.mpr ⟨id, hid, hmsg'⟩, hkeeps⟩

/-- What is recorded stays recorded. -/
theorem Recorded.mono {rows rows' : MessageRows} {userId : UUID} {payload : Frame}
    (h : Recorded rows userId payload) (hgrows : Grows rows rows') :
    Recorded rows' userId payload := by
  refine ⟨fun htype => ?_, fun htype hstatus => ?_, fun htype hstatus => ?_, fun htype => ?_⟩
  · obtain ⟨msg, hmsg, hrecipient, ⟨senderId, hsender, hfrom⟩, hmtype, hcreated⟩ := h.message htype
    obtain ⟨msg', hmsg', hkeeps⟩ := hgrows.rowOf hmsg
    refine ⟨msg', hmsg', hkeeps.recipient.trans hrecipient,
      ⟨senderId, hkeeps.sender.trans hsender, hfrom⟩, ?_, ?_⟩
    · rw [hkeeps.type]
      exact hmtype
    · rw [hkeeps.created]
      exact hcreated
  · obtain ⟨msg, hmsg, hsender, hdelivered⟩ := h.delivered htype hstatus
    obtain ⟨msg', hmsg', hkeeps⟩ := hgrows.rowOf hmsg
    exact ⟨msg', hmsg', hkeeps.sender.trans hsender, hkeeps.delivered hdelivered⟩
  · obtain ⟨msg, hmsg, hsender, hread⟩ := h.read htype hstatus
    obtain ⟨msg', hmsg', hkeeps⟩ := hgrows.rowOf hmsg
    exact ⟨msg', hmsg', hkeeps.sender.trans hsender, hkeeps.read hread⟩
  · obtain ⟨msg, hmsg, hgone⟩ := h.unsend htype
    obtain ⟨msg', hmsg', hkeeps⟩ := hgrows.rowOf hmsg
    exact ⟨msg', hmsg', hkeeps.gone hgone⟩

/-! ## The handler publishes what it has recorded -/

/-- No frame but `account_suspended` is about an account. -/
def NotSuspension (payload : Frame) : Prop :=
  Json.get payload "type" ≠ .str "account_suspended"

/-- What the effects left of a handler publish is recorded. -/
def EffectsRecorded (rows : MessageRows) (effects : List Effect) : Prop :=
  ∀ userId payload, .publish userId payload ∈ effects →
    Recorded rows userId payload ∧ NotSuspension payload

theorem rowOf_eq {rows : MessageRows} {payload : Frame} {id : UUID} {msg : Message}
    (hid : Json.get payload "message_id" = .str id.str) (hmsg : rows.byId id = some msg) :
    rowOf rows payload = some msg := by
  unfold rowOf
  rw [hid, uuidOrNone_str, Option.bind_some, hmsg]

theorem effectsRecorded_of_no_publish {rows : MessageRows} {effects : List Effect}
    (h : ∀ effect ∈ effects, ∀ userId payload, effect ≠ .publish userId payload) :
    EffectsRecorded rows effects :=
  fun userId payload hmem => absurd rfl (h _ hmem userId payload)

theorem offlinePush_no_publish {w : World} {userId toId : UUID} {messageType : MessageType}
    {content : Option String} :
    ∀ effect ∈ offlinePush w userId toId messageType content, ∀ userId payload,
      effect ≠ .publish userId payload := by
  intro effect heffect userId payload
  obtain ⟨fcmToken, title, body, peerId, rfl⟩ := push_of_mem_offlinePush heffect
  exact Effect.noConfusion

/-- A frame of type `t` has to be recorded as one of that type. -/
theorem type_ne {payload : Frame} {t t' : String} (h : Json.get payload "type" = .str t)
    (hne : t ≠ t') : Json.get payload "type" ≠ .str t' := by
  rw [h]
  exact fun heq => hne (Json.str.inj heq)

theorem recorded_messageFrame {rows : MessageRows} {frame : Frame} {userId toId : UUID}
    {msg : Message} (hmsg : rows.byId msg.id = some msg) (hsender : msg.senderId = some userId)
    (hrecipient : msg.recipientId = some toId) :
    Recorded rows toId (messageFrame frame userId msg) := by
  have htype : Json.get (messageFrame frame userId msg) "type" = .str "message" := rfl
  refine ⟨fun _ => ?_, fun h => absurd h (type_ne htype (by decide)),
    fun h => absurd h (type_ne htype (by decide)), fun h => absurd h (type_ne htype (by decide))⟩
  exact ⟨msg, rowOf_eq rfl hmsg, hrecipient, ⟨userId, hsender, rfl⟩, rfl, rfl⟩

/-- `text`, `image` and `file`. -/
theorem handleContent_recorded (w : World) (userId : UUID) (fresh : NewRow)
    (messageType : MessageType) (frame : Frame) :
    EffectsRecorded (handleContent w userId fresh messageType frame).world.messages
      (handleContent w userId fresh messageType frame).effects := by
  unfold handleContent
  split
  · exact effectsRecorded_of_no_publish (by simp)
  · next toId hto =>
    split
    · exact effectsRecorded_of_no_publish (by simp)
    · next msg hmsg =>
      split
      · exact effectsRecorded_of_no_publish (by simp)
      · next rows hrows =>
        obtain ⟨rfl, hfresh⟩ := saveMessage_rows hrows
        obtain ⟨_, _, _, _, -, -, -, -, hnew⟩ := contentRow_some hmsg
        have hbyId : MessageRows.byId (w.messages ++ [msg]) msg.id = some msg := by
          unfold MessageRows.byId at hfresh ⊢
          rw [Table.find_append, hfresh, Option.none_or, if_pos rfl]
        intro channel payload hmem
        obtain hpush | hmem := List.mem_append.mp hmem
        · split_ifs at hpush
          · cases hpush
          · exact absurd rfl (offlinePush_no_publish _ hpush channel payload)
        · obtain ⟨rfl, rfl⟩ : channel = toId ∧ payload = messageFrame frame userId msg := by
            simpa using hmem
          refine ⟨recorded_messageFrame hbyId ?_ ?_, type_ne rfl (by decide)⟩
          · rw [hnew]
            rfl
          · rw [hnew]
            rfl

/-- The message a receipt answers with is the row it leaves. -/
theorem receipt_result {groups : Groups} {rows : MessageRows} {f : Message → Message}
    (hf : ∀ msg, (f msg).id = msg.id) {messageId userId : UUID} {msg' : Message}
    (h : (receipt groups rows f messageId userId).2 = some msg') :
    MessageRows.byId (receipt groups rows f messageId userId).1 messageId = some msg' ∧
      ∃ msg, msg' = f msg := by
  unfold receipt at h ⊢
  split at h
  · cases h
  · next msg hmsg =>
    split_ifs at h with hpart
    obtain rfl := Option.some.inj h
    refine ⟨?_, msg, rfl⟩
    rw [if_pos hpart]
    unfold MessageRows.byId at hmsg ⊢
    rw [Table.find_modify_self hf, hmsg, Option.map_some]

/-- What a row that answers a receipt records. -/
def ReceiptRecorded (isRead : Bool) (msg : Message) : Prop :=
  if isRead then msg.status = .READ else msg.deliveredAt.isSome

theorem receiptRecorded_deliver (now : Time) (msg : Message) :
    ReceiptRecorded false (deliver now msg) := by
  show (msg.deliveredAt.or (some now)).isSome = true
  rw [Option.isSome_or, Option.isSome_some, Bool.or_true]

theorem receiptRecorded_read (now : Time) (msg : Message) :
    ReceiptRecorded true (Messages.read now msg) := by
  show (Messages.read now msg).status = .READ
  unfold Messages.read
  by_cases hread : msg.status ≠ .READ
  · rw [if_pos hread]
  · rw [if_neg hread]
    exact not_not.mp hread

theorem mark_result {groups : Groups} {rows : MessageRows} {now : Time} {messageId userId : UUID}
    {isRead : Bool} {msg' : Message}
    (h : (if isRead then markRead groups rows now messageId userId
      else markDelivered groups rows now messageId userId).2 = some msg') :
    MessageRows.byId (if isRead then markRead groups rows now messageId userId
      else markDelivered groups rows now messageId userId).1 messageId = some msg' ∧
      ReceiptRecorded isRead msg' := by
  cases isRead with
  | true =>
    obtain ⟨hrow, msg, rfl⟩ := receipt_result (read_id now) h
    exact ⟨hrow, receiptRecorded_read now msg⟩
  | false =>
    obtain ⟨hrow, msg, rfl⟩ := receipt_result (deliver_id now) h
    exact ⟨hrow, receiptRecorded_deliver now msg⟩

theorem recorded_receiptFrame {rows : MessageRows} {messageId senderId : UUID} {isRead : Bool}
    {msg : Message} (hmsg : rows.byId messageId = some msg) (hsender : msg.senderId = some senderId)
    (hrecorded : ReceiptRecorded isRead msg) :
    Recorded rows senderId (receiptFrame messageId isRead) := by
  have htype : Json.get (receiptFrame messageId isRead) "type" = .str "receipt" := rfl
  have hrow : rowOf rows (receiptFrame messageId isRead) = some msg := rowOf_eq rfl hmsg
  have hstatus : Json.get (receiptFrame messageId isRead) "status" =
      .str (if isRead then "read" else "delivered") := rfl
  refine ⟨fun h => absurd h (type_ne htype (by decide)), fun _ h => ⟨msg, hrow, hsender, ?_⟩,
    fun _ h => ⟨msg, hrow, hsender, ?_⟩, fun h => absurd h (type_ne htype (by decide))⟩
  · cases isRead with
    | true => exact absurd (Json.str.inj (hstatus.symm.trans h)) (by decide)
    | false => exact hrecorded
  · cases isRead with
    | true => exact hrecorded
    | false => exact absurd (Json.str.inj (hstatus.symm.trans h)) (by decide)

/-- `message_delivered` and `message_read`. -/
theorem handleReceipt_recorded (w : World) (userId : UUID) (isRead : Bool) (frame : Frame) :
    EffectsRecorded (handleReceipt w userId isRead frame).world.messages
      (handleReceipt w userId isRead frame).effects := by
  unfold handleReceipt
  split
  · exact effectsRecorded_of_no_publish (by simp)
  · next messageId hid =>
    intro channel payload hmem
    simp only at hmem ⊢
    split at hmem
    · next senderId hsender =>
      obtain ⟨rfl, rfl⟩ : channel = senderId ∧ payload = receiptFrame messageId isRead := by
        simpa using hmem
      obtain ⟨msg, hmsg, hsender⟩ := Option.bind_eq_some_iff.mp hsender
      obtain ⟨hrow, hrecorded⟩ := mark_result hmsg
      exact ⟨recorded_receiptFrame hrow hsender hrecorded, type_ne rfl (by decide)⟩
    · cases hmem

/-- The row of the message in an `unsend` event is gone. -/
theorem recorded_unsendEvent {rows : MessageRows} {userId messageId : UUID} {msg : Message}
    (hmsg : rows.byId messageId = some msg) (hgone : isGone msg = true) :
    Recorded rows userId (unsendEvent messageId) := by
  have htype : Json.get (unsendEvent messageId) "type" = .str "unsend" := rfl
  exact ⟨fun h => absurd h (type_ne htype (by decide)),
    fun h => absurd h (type_ne htype (by decide)), fun h => absurd h (type_ne htype (by decide)),
    fun _ => ⟨msg, rowOf_eq rfl hmsg, hgone⟩⟩

/-- `unsend`. -/
theorem handleUnsend_recorded (w : World) (userId : UUID) (frame : Frame) :
    EffectsRecorded (handleUnsend w userId frame).world.messages
      (handleUnsend w userId frame).effects := by
  unfold handleUnsend
  split
  · exact effectsRecorded_of_no_publish (by simp)
  · next messageId hid =>
    split
    · exact effectsRecorded_of_no_publish (by simp)
    · next rows msg hok =>
      obtain ⟨row, hrow, -, -, heq⟩ := unsendMessage_rows hok
      obtain ⟨rfl, rfl⟩ := Prod.mk.inj heq
      have hbyId : MessageRows.byId (Table.modify Message.id w.messages messageId (retract w.now))
          messageId = some (retract w.now row) := by
        unfold MessageRows.byId at hrow ⊢
        rw [Table.find_modify_self (retract_id w.now), hrow, Option.map_some]
      intro channel payload hmem
      have hpayload : payload = unsendEvent messageId := by
        obtain hmem | hmem := List.mem_append.mp hmem
        · obtain ⟨_, -, heq⟩ := List.mem_map.mp hmem
          exact (Effect.publish.inj heq).2.symm
        · exact (Effect.publish.inj (List.mem_singleton.mp hmem)).2
      rw [hpayload]
      exact ⟨recorded_unsendEvent hbyId (Bool.or_true _), type_ne rfl (by decide)⟩

/-- A typing indicator announces nothing. -/
theorem recorded_typing {rows : MessageRows} {channel userId : UUID} {frameType : String}
    (h : frameType = "typing_start" ∨ frameType = "typing_stop") :
    Recorded rows channel [("type", .str frameType), ("from", .str userId.str)] ∧
      NotSuspension [("type", .str frameType), ("from", .str userId.str)] := by
  have htype : ∀ t, t ≠ "typing_start" → t ≠ "typing_stop" →
      Json.get [("type", .str frameType), ("from", .str userId.str)] "type" ≠ .str t := by
    intro t hstart hstop
    refine type_ne rfl fun heq => ?_
    obtain rfl | rfl := h
    · exact hstart heq.symm
    · exact hstop heq.symm
  exact ⟨⟨fun h => absurd h (htype _ (by decide) (by decide)),
    fun h => absurd h (htype _ (by decide) (by decide)),
    fun h => absurd h (htype _ (by decide) (by decide)),
    fun h => absurd h (htype _ (by decide) (by decide))⟩, htype _ (by decide) (by decide)⟩

/-- Whatever the handler publishes is in the database by then. -/
theorem handleFrame_recorded (w : World) (userId : UUID) (connectionId : String)
    (fresh : NewRow) (frame : Frame) :
    EffectsRecorded (handleFrame w userId connectionId fresh frame).world.messages
      (handleFrame w userId connectionId fresh frame).effects := by
  unfold handleFrame
  split
  · exact effectsRecorded_of_no_publish (by simp)
  · exact effectsRecorded_of_no_publish (by simp)
  · next frameType htype =>
    split
    · exact effectsRecorded_of_no_publish (by simp)
    · next toId hto =>
      intro channel payload hmem
      obtain ⟨-, rfl⟩ := Effect.publish.inj (List.mem_singleton.mp hmem)
      exact recorded_typing (branchOf_typing htype)
  · exact handleContent_recorded w userId fresh _ frame
  · exact handleReceipt_recorded w userId _ frame
  · exact handleUnsend_recorded w userId frame
  · exact effectsRecorded_of_no_publish (by simp)

/-! ## What the jobs are about to publish -/

/-- What a job may publish before it changes the database again. -/
def JobSays (rows : MessageRows) : Job → Prop
  | .frame effects => EffectsRecorded rows effects
  | .sweep run =>
    ∀ event ∈ run.events, ∃ msg ∈ run.wiped.getLast?, event ∈ destructedEvents msg
  | .status target _ events => ∀ event ∈ events, event = (target.id, suspendedEvent)

/-- What `JobSays` says of every job. -/
def AllSay (server : Server) : Prop := ∀ job ∈ server.jobs, JobSays server.world.messages job

theorem JobSays.mono {rows rows' : MessageRows} {job : Job} (h : JobSays rows job)
    (hgrows : Grows rows rows') : JobSays rows' job := by
  cases job with
  | frame effects =>
    intro userId payload hmem
    obtain ⟨hrecorded, hother⟩ := h userId payload hmem
    exact ⟨hrecorded.mono hgrows, hother⟩
  | sweep run => exact h
  | status target action events => exact h

theorem JobSays.advance {rows : MessageRows} {job job' : Job} (h : JobSays rows job)
    (hadv : Advance job job') : JobSays rows job' := by
  cases hadv with
  | effect effect effects =>
    exact fun userId payload hmem => h userId payload (List.mem_cons_of_mem effect hmem)
  | publish now todo event events wiped =>
    exact fun e he => h e (List.mem_cons_of_mem event he)
  | wipe now msg todo wiped =>
    intro event hevent
    exact ⟨msg, List.getLast?_concat, hevent⟩
  | skip => exact fun event hevent => absurd hevent List.not_mem_nil
  | announce target action event events =>
    exact fun e he => h e (List.mem_cons_of_mem event he)

theorem AllSay.frame {server : Server} (h : AllSay server) (userId : UUID)
    (connectionId : String) (fresh : NewRow) (frame : Frame) (commitOk : Bool) :
    AllSay (frameJob server userId connectionId fresh frame commitOk) := by
  unfold frameJob
  simp only
  split_ifs with hcommit
  · have hrows := handleFrame_rows server.world userId connectionId fresh frame
    refine forall_jobs_append (fun job hjob => ?_)
      (handleFrame_recorded server.world userId connectionId fresh frame)
    exact (h job hjob).mono (grows_of_rowsStep hrows)
  · exact h

theorem AllSay.next {server server' : Server} (h : AllSay server) {k : ℕ} {ok : Bool}
    (hs : jobStep server (.next k ok) = some server') : AllSay server' := by
  obtain ⟨job, hjob, hnext⟩ := Option.bind_eq_some_iff.mp hs
  have hready := h job (List.mem_of_getElem? hjob)
  have hcases := jobNext_cases hnext
  cases hcases with
  | advance _ job job' bucket hadv => exact forall_set h (hready.advance hadv)
  | gone => exact forall_jobs_erase h
  | commitStatus => exact forall_jobs_erase h
  | commitSweep now wiped =>
    exact forall_jobs_erase fun job hjob => (h job hjob).mono (grows_commitSweep _ _)

/-- Every step keeps it. -/
theorem AllSay.step {server server' : Server} {action : JobAction} (h : AllSay server)
    (hs : jobStep server action = some server') : AllSay server' := by
  cases action with
  | frame userId connectionId fresh frame commitOk =>
    obtain rfl := Option.some.inj hs
    exact h.frame userId connectionId fresh frame commitOk
  | setUserStatus creds userId action =>
    simp only [jobStep] at hs
    split at hs
    · obtain rfl := Option.some.inj hs
      exact h
    · next target _ =>
      obtain rfl := Option.some.inj hs
      refine forall_jobs_append h fun event hevent => ?_
      cases action with
      | suspend => exact List.mem_singleton.mp hevent
      | activate => cases hevent
  | sweep batch =>
    simp only [jobStep] at hs
    split_ifs at hs with hbatch
    obtain rfl := Option.some.inj hs
    exact forall_jobs_append h fun event hevent => absurd hevent List.not_mem_nil
  | next k ok => exact h.next hs
  | stop k =>
    obtain rfl := Option.some.inj hs
    exact forall_jobs_erase h
  | tick d =>
    obtain rfl := Option.some.inj hs
    exact h

/-! ## Exactly the publications that announce a committed fact -/

theorem committed_unsendEvent_iff {world : World} (userId : UUID) {messageId : UUID} :
    Committed world userId (unsendEvent messageId) ↔
      (world.messages.byId messageId).any isGone = true := by
  have hrow : rowOf world.messages (unsendEvent messageId) = world.messages.byId messageId := by
    show (uuidOrNone (.str messageId.str)).bind world.messages.byId = _
    rw [uuidOrNone_str, Option.bind_some]
  constructor
  · intro h
    obtain ⟨msg, hmsg, hgone⟩ := h.rows.unsend rfl
    rw [hrow] at hmsg
    rw [Option.mem_def.mp hmsg]
    exact hgone
  · intro h
    obtain ⟨msg, hmsg, hgone⟩ := (Option.any_eq_true _ _).mp h
    exact ⟨recorded_unsendEvent hmsg hgone, fun htype => absurd htype (type_ne rfl (by decide))⟩

theorem committed_suspendedEvent_iff {world : World} {userId : UUID} :
    Committed world userId suspendedEvent ↔ isSuspended world.users userId = true := by
  have htype : Json.get suspendedEvent "type" = .str "account_suspended" := rfl
  constructor
  · exact fun h => h.account htype
  · intro h
    exact ⟨⟨fun h => absurd h (type_ne htype (by decide)),
      fun h => absurd h (type_ne htype (by decide)), fun h => absurd h (type_ne htype (by decide)),
      fun h => absurd h (type_ne htype (by decide))⟩, fun _ => h⟩

/-- The next publication of a job that says no more than it may, given that the
    journal is true. -/
theorem announces_next_iff {start : World} {l : Journaled} (hjournal : JournalInv start l) {k : ℕ}
    {job : Job} (hjob : l.server.jobs[k]? = some job)
    (hready : JobSays l.server.world.messages job) :
    Announces l.server (.next k true) ↔ job.afterCommit start l.journal = true := by
  unfold Announces
  simp only [published, hjob]
  cases job with
  | frame effects =>
    refine iff_of_true (fun userId payload hpublished => ?_) rfl
    split at hpublished
    · next heq =>
      obtain ⟨rfl, rfl⟩ := Prod.mk.inj (Option.some.inj hpublished)
      obtain rfl := Job.frame.inj (Option.some.inj heq)
      obtain ⟨hrows, hother⟩ := hready _ _ List.mem_cons_self
      exact ⟨hrows, fun htype => absurd htype hother⟩
    · next heq => cases heq
    · next heq => cases heq
    · cases hpublished
  | sweep run =>
    obtain ⟨now, todo, events, wiped⟩ := run
    cases events with
    | nil =>
      exact iff_of_true (fun userId payload hpublished => by cases hpublished) rfl
    | cons event events =>
      obtain ⟨msg, hlast, hevent⟩ := hready event List.mem_cons_self
      have hpayload : event.2 = unsendEvent msg.id := by
        obtain hevent | hevent := List.mem_append.mp hevent
        · obtain ⟨_, -, rfl⟩ := List.mem_map.mp hevent
          rfl
        · obtain ⟨_, -, rfl⟩ := List.mem_map.mp hevent
          rfl
      have hafter : Job.afterCommit start l.journal (.sweep ⟨now, todo, event :: events, wiped⟩) =
          goneAt l.server.world.messages msg.id := by
        unfold Job.afterCommit
        simp only [Option.mem_def.mp hlast, Option.all_some]
        exact (hjournal.gone msg.id).symm
      rw [hafter, goneAt, ← committed_unsendEvent_iff event.1, ← hpayload]
      exact ⟨fun h => h event.1 event.2 rfl, fun h userId payload heq => by
        obtain rfl := Option.some.inj heq
        exact h⟩
  | status target action events =>
    cases events with
    | nil =>
      exact iff_of_true (fun userId payload hpublished => by cases hpublished) rfl
    | cons event events =>
      obtain rfl := hready event List.mem_cons_self
      show _ ↔ suspendedBefore start l.journal target.id = true
      rw [← hjournal.suspended, ← committed_suspendedEvent_iff]
      exact ⟨fun h => h target.id suspendedEvent rfl, fun h userId payload heq => by
        obtain ⟨rfl, rfl⟩ := Prod.mk.inj (Option.some.inj heq)
        exact h⟩

/-- What holds of a server with its journal. -/
def AnnounceInv (start : World) (l : Journaled) : Prop := JournalInv start l ∧ AllSay l.server

theorem AnnounceInv.step {start : World} {l l' : Journaled} {action : JobAction}
    (h : AnnounceInv start l) (hs : journalStep l action = some l') : AnnounceInv start l' := by
  refine ⟨h.1.step hs, ?_⟩
  obtain ⟨server, hserver, rfl⟩ := Option.map_eq_some_iff.mp hs
  exact h.2.step hserver

theorem announceInv_idle {server : Server} (h : server.jobs = []) :
    AnnounceInv server.world ⟨server, []⟩ := by
  refine ⟨journalInv_idle h, fun job hjob => ?_⟩
  rw [h] at hjob
  cases hjob

theorem announces_iff {start : World} {l : Journaled} (h : AnnounceInv start l)
    (action : JobAction) : Announces l.server action ↔ AfterCommit start l action := by
  cases action with
  | next k ok =>
    cases ok with
    | false => exact iff_of_true (fun userId payload hpublished => by cases hpublished) trivial
    | true =>
      cases hjob : l.server.jobs[k]? with
      | none =>
        refine iff_of_true (fun userId payload hpublished => ?_) fun job hmem => ?_
        · simp only [published, hjob] at hpublished
          cases hpublished
        · rw [hjob] at hmem
          cases hmem
      | some job =>
        rw [announces_next_iff h.1 hjob (h.2 job (List.mem_of_getElem? hjob))]
        constructor
        · intro hafter job' hmem
          obtain rfl := Option.some.inj (hjob.symm.trans hmem)
          exact hafter
        · exact fun hafter => hafter job hjob
  | frame | setUserStatus | sweep | stop | tick =>
    exact iff_of_true (fun userId payload hpublished => by cases hpublished) trivial

/-- The same for a whole run. -/
theorem guarded_announces_iff {start : World} {l : Journaled} (h : AnnounceInv start l)
    (actions : List JobAction) :
    Guarded jobStep Announces l.server actions ↔
      Guarded journalStep (AfterCommit start) l actions := by
  rw [← guarded_ghost (t := l) journalStep_server]
  exact guarded_congr (I := AnnounceInv start) (fun _ _ _ h hs => h.step hs)
    (fun _ action h => announces_iff h action) h

/-- Whatever commits fail and wherever a process stops: a run announces committed
    facts only, if and only if no sweep and no `set_user_status` publishes before a
    commit of what it publishes. -/
theorem announces_iff_afterCommit (server : Server) (actions : List JobAction)
    (hidle : server.jobs = []) :
    Guarded jobStep Announces server actions ↔
      Guarded journalStep (AfterCommit server.world) ⟨server, []⟩ actions :=
  guarded_announces_iff (announceInv_idle hidle) actions

/-- A sweep selects the message of `sendExpiring`, its sender retracts it, and the
    sweep publishes after that. -/
def unsendFirst : List JobAction :=
  sendExpiring ++ [.sweep [100],
    .frame 7 "c7" 101 (sampleFrame "unsend" 1 [("message_id", .str (UUID.str 100))]) true,
    .next 1 true, .next 1 true, .next 0 true, .next 0 true, .next 0 true]

theorem announces_iff_afterCommit_unsendFirst :
    (run jobStep sampleServer unsendFirst).isSome = true ∧
      Guarded jobStep Announces sampleServer unsendFirst :=
  ⟨by decide +kernel,
    (announces_iff_afterCommit sampleServer unsendFirst rfl).mpr (by decide +kernel)⟩

/-- One publication that comes too early is enough. -/
theorem not_announces {actions : List JobAction} (h : ¬ Guarded journalStep
    (AfterCommit sampleServer.world) ⟨sampleServer, []⟩ actions) :
    ¬ Guarded jobStep Announces sampleServer actions :=
  fun hannounces => h ((guarded_announces_iff (announceInv_idle rfl) actions).mp hannounces)

/-- A sweep tells the recipient that the message is gone; its commit may still
    fail. -/
theorem sweep_publishesFirst :
    ¬ Guarded jobStep Announces sampleServer
      (sendExpiring ++ [.sweep [100], .next 0 true, .next 0 true]) :=
  not_announces (by decide +kernel)

/-- A user is told of a suspension; its commit may still fail. -/
theorem suspension_publishesFirst :
    ¬ Guarded jobStep Announces sampleServer
      [.setUserStatus (some (createAccessToken 1 1 .ADMIN 0)) 7 .suspend, .next 0 true] :=
  not_announces (by decide +kernel)

end IronLink.Jobs
