import IronLink.Lib.Calls
import IronLink.Lib.WriteBack
import IronLink.Messages.History
import IronLink.Messages.Transactions

/-!
# Overlapping calls on the same rows

The functions of app/services/message_service.py and the sweep, each split into
its load and its commit: other calls commit in between, and a call computes what
it writes from the rows it had loaded. The ORM writes only the columns a call
has changed.

Results:
* `overlap_alone`: a call that nothing overlaps is one transaction.
* `WipedRows.commit`: what a commit does, however stale the rows it was computed from.
* `wiped_forGood`: a row that was retracted or destroyed holds no content, stays
  so, and no response shows any.
-/

namespace IronLink.Messages

open Lib Auth

/-! ## Model -/

/-- A row as a call has loaded it, and what the call makes of it. -/
structure Edit where
  loaded : Message
  changed : Message

/-- The `UPDATE` of the ORM on the row as it is by then. -/
def Edit.apply (e : Edit) (current : Message) : Message :=
  { id := current.id
    senderId := writeBack e.loaded.senderId e.changed.senderId current.senderId
    recipientId := writeBack e.loaded.recipientId e.changed.recipientId current.recipientId
    groupId := writeBack e.loaded.groupId e.changed.groupId current.groupId
    messageType := writeBack e.loaded.messageType e.changed.messageType current.messageType
    contentCiphertext :=
      writeBack e.loaded.contentCiphertext e.changed.contentCiphertext current.contentCiphertext
    mediaObjectKey :=
      writeBack e.loaded.mediaObjectKey e.changed.mediaObjectKey current.mediaObjectKey
    mediaMimeType := writeBack e.loaded.mediaMimeType e.changed.mediaMimeType current.mediaMimeType
    status := writeBack e.loaded.status e.changed.status current.status
    deliveredAt := writeBack e.loaded.deliveredAt e.changed.deliveredAt current.deliveredAt
    readAt := writeBack e.loaded.readAt e.changed.readAt current.readAt
    isSelfDestruct :=
      writeBack e.loaded.isSelfDestruct e.changed.isSelfDestruct current.isSelfDestruct
    destructAfterSeconds := writeBack e.loaded.destructAfterSeconds e.changed.destructAfterSeconds
      current.destructAfterSeconds
    destructAt := writeBack e.loaded.destructAt e.changed.destructAt current.destructAt
    isDestructed := writeBack e.loaded.isDestructed e.changed.isDestructed current.isDestructed
    deletedAt := writeBack e.loaded.deletedAt e.changed.deletedAt current.deletedAt
    deletedForEveryone :=
      writeBack e.loaded.deletedForEveryone e.changed.deletedForEveryone current.deletedForEveryone
    createdAt := writeBack e.loaded.createdAt e.changed.createdAt current.createdAt }

/-- A call between its load and its commit. -/
inductive Pending
  | insert (msg : Message)
  | update (edits : List Edit)

/-- The tables, and the calls that have loaded and not committed. -/
structure Overlap where
  store : Store
  calls : List Pending

/-- The load of a receipt: `f` on the row, for a participant. -/
def receiptEdits (groups : Groups) (rows : MessageRows) (f : Message → Message)
    (messageId userId : UUID) : List Edit :=
  match rows.byId messageId with
  | none => []
  | some msg => if isParticipant groups msg userId then [⟨msg, f msg⟩] else []

/-- The load of `unsend_message`, and its two checks. -/
def unsendEdits (rows : MessageRows) (now : Time) (messageId senderId : UUID) : List Edit :=
  match (rows.byId messageId).filter fun msg => msg.senderId = some senderId with
  | none => []
  | some msg => if now - msg.createdAt > UNSEND_WINDOW then [] else [⟨msg, retract now msg⟩]

/-- What the loop of the sweep makes of the message `id`. -/
def sweepEdit (rows : MessageRows) (now : Time) (fails : UUID → Bool) (id : UUID) : Option Edit :=
  ((rows.byId id).filter (wipes fails)).map fun msg => ⟨msg, destroy now msg⟩

/-- A call up to its commit: what it has loaded, and what it is going to write.
    The sweep deletes objects on the way. -/
def begins (s : Store) : Transaction → Option (Store × Pending)
  | .saveMessage fresh senderId recipientId groupId messageType contentCiphertext mediaObjectKey
      mediaMimeType destructAfterSeconds =>
    some (s, .insert (newMessage s.now fresh senderId recipientId groupId messageType
      contentCiphertext mediaObjectKey mediaMimeType destructAfterSeconds))
  | .markDelivered messageId userId =>
    some (s, .update (receiptEdits s.groups s.rows (deliver s.now) messageId userId))
  | .markRead messageId userId =>
    some (s, .update (receiptEdits s.groups s.rows (read s.now) messageId userId))
  | .unsendMessage messageId senderId =>
    some (s, .update (unsendEdits s.rows s.now messageId senderId))
  | .sweepOnce batch fails commitOk =>
    if IsBatch s.rows s.now batch then
      some ({ s with bucket := (sweepOnce s.now s.rows s.bucket batch fails commitOk).bucket },
        .update (batch.filterMap (sweepEdit s.rows s.now fails)))
    else none

/-- The commit: the `INSERT`, or the `UPDATE`s one after the other. -/
def commit (s : Store) : Pending → Store
  | .insert msg => { s with rows := (saveMessage s.users s.groups s.rows msg).getD s.rows }
  | .update edits =>
    { s with
      rows := edits.foldl (fun rows e => Table.modify Message.id rows e.loaded.id e.apply) s.rows }

inductive OverlapAction
  /-- a call starts and loads -/
  | load (t : Transaction)
  /-- the call `i` commits -/
  | commit (i : ℕ)
  /-- the call `i` ends without its commit -/
  | rollback (i : ℕ)
  | directory (users : Users) (groups : Groups)
  | tick (d : ℕ)

def overlapStep (s : Overlap) : OverlapAction → Option Overlap
  | .load t => (begins s.store t).map fun r => ⟨r.1, s.calls ++ [r.2]⟩
  | .commit i => (s.calls[i]?).map fun p => ⟨commit s.store p, s.calls.eraseIdx i⟩
  | .rollback i => if i < s.calls.length then some ⟨s.store, s.calls.eraseIdx i⟩ else none
  | .directory users groups =>
    some ⟨{ s.store with users := users, groups := groups }, s.calls⟩
  | .tick d => some ⟨{ s.store with now := s.store.now + d }, s.calls⟩

/-- The call ends with its commit. -/
def Transaction.commits : Transaction → Bool
  | .sweepOnce _ _ commitOk => commitOk
  | _ => true

/-! ## A call alone -/

variable {s s' : Store} {t : Transaction}

theorem Edit.apply_loaded {e : Edit} (h : e.changed.id = e.loaded.id) :
    e.apply e.loaded = e.changed := by
  unfold Edit.apply
  simp only [writeBack_loaded, ← h]

theorem Edit.apply_id (e : Edit) (current : Message) : (e.apply current).id = current.id := rfl

/-- Updating a row as it was loaded. -/
theorem modify_apply {rows : MessageRows} (hnd : (rows.map Message.id).Nodup) {e : Edit}
    (hrow : rows.byId e.loaded.id = some e.loaded) {f : Message → Message}
    (hf : ∀ msg, (f msg).id = msg.id) (hchanged : e.changed = f e.loaded) :
    Table.modify Message.id rows e.loaded.id e.apply =
      Table.modify Message.id rows e.loaded.id f := by
  unfold Table.modify
  refine List.map_congr_left fun msg hmsg => ?_
  split_ifs with hid
  · have hfind := Table.find_of_mem hnd hmsg
    rw [hid, show Table.find Message.id rows e.loaded.id = some e.loaded from hrow] at hfind
    rw [← Option.some.inj hfind, ← hchanged]
    exact Edit.apply_loaded (by rw [hchanged, hf])
  · rfl

theorem commit_receiptEdits (hnd : (s.rows.map Message.id).Nodup) {f : Message → Message}
    (hf : ∀ msg, (f msg).id = msg.id) (messageId userId : UUID) :
    commit s (.update (receiptEdits s.groups s.rows f messageId userId)) =
      { s with rows := (receipt s.groups s.rows f messageId userId).1 } := by
  unfold receiptEdits receipt
  cases hrow : s.rows.byId messageId with
  | none => rfl
  | some msg =>
    dsimp only
    split_ifs with hpart
    · obtain rfl := MessageRows.byId_id hrow
      show { s with rows := Table.modify Message.id s.rows msg.id (Edit.apply ⟨msg, f msg⟩) } = _
      rw [modify_apply (e := ⟨msg, f msg⟩) hnd hrow hf rfl]
    · rfl

theorem commit_unsendEdits (hnd : (s.rows.map Message.id).Nodup) (messageId senderId : UUID) :
    transact s (.unsendMessage messageId senderId) =
      some (commit s (.update (unsendEdits s.rows s.now messageId senderId))) := by
  simp only [transact, unsendMessage, unsendEdits]
  cases hrow : (s.rows.byId messageId).filter fun msg => msg.senderId = some senderId with
  | none => rfl
  | some msg =>
    dsimp only
    split_ifs with hwindow
    · rfl
    · obtain ⟨hrow, -⟩ := Option.filter_eq_some_iff.mp hrow
      obtain rfl := MessageRows.byId_id hrow
      show _ = some { s with
        rows := Table.modify Message.id s.rows msg.id (Edit.apply ⟨msg, retract s.now msg⟩) }
      rw [modify_apply (e := ⟨msg, retract s.now msg⟩) hnd hrow (retract_id s.now) rfl]

/-- The rows after the `UPDATE`s of a sweep, each still loaded as it is. -/
theorem foldl_sweepEdit_byId {now : Time} {fails : UUID → Bool} {loaded : MessageRows}
    {batch : List UUID} (hbatch : batch.Nodup) {rows : MessageRows}
    (hsame : ∀ id ∈ batch, rows.byId id = loaded.byId id) (id : UUID) :
    MessageRows.byId ((batch.filterMap (sweepEdit loaded now fails)).foldl
        (fun rows e => Table.modify Message.id rows e.loaded.id e.apply) rows) id =
      (rows.byId id).map fun msg =>
        if id ∈ batch ∧ wipes fails msg = true then destroy now msg else msg := by
  induction batch generalizing rows with
  | nil => simp
  | cons b batch ih =>
    obtain ⟨hb, hbatch⟩ := List.nodup_cons.mp hbatch
    have hloaded : rows.byId b = loaded.byId b := hsame b List.mem_cons_self
    have htail : ∀ id ∈ batch, rows.byId id = loaded.byId id :=
      fun id hid => hsame id (List.mem_cons_of_mem b hid)
    cases hrow : (loaded.byId b).filter (wipes fails) with
    | none =>
      have hedit : sweepEdit loaded now fails b = none := by
        unfold sweepEdit
        rw [hrow, Option.map_none]
      rw [List.filterMap_cons_none hedit, ih hbatch htail]
      refine Option.map_congr fun msg hmsg => ?_
      by_cases hid : id = b
      · subst hid
        have hskipped : ¬ wipes fails msg = true :=
          Option.filter_eq_none_iff.mp hrow msg (hloaded ▸ hmsg)
        simp [hskipped]
      · simp [hid]
    | some msg =>
      obtain ⟨hmsg, hwipes⟩ := Option.filter_eq_some_iff.mp hrow
      have hid : msg.id = b := MessageRows.byId_id hmsg
      have hedit : sweepEdit loaded now fails b = some ⟨msg, destroy now msg⟩ := by
        unfold sweepEdit
        rw [hrow, Option.map_some]
      rw [List.filterMap_cons_some hedit, List.foldl_cons]
      have hother : ∀ id, id ≠ b → MessageRows.byId (Table.modify Message.id rows msg.id
          (Edit.apply ⟨msg, destroy now msg⟩)) id = rows.byId id := fun id hne =>
        Table.find_modify_of_ne (Edit.apply_id _) rows (hid ▸ hne)
      rw [ih hbatch fun id hin => (hother id fun heq => hb (heq ▸ hin)).trans (htail id hin)]
      by_cases heq : id = b
      · subst heq
        have hself : MessageRows.byId (Table.modify Message.id rows msg.id
            (Edit.apply ⟨msg, destroy now msg⟩)) id = some (destroy now msg) := by
          unfold MessageRows.byId at *
          rw [hid, Table.find_modify_self (Edit.apply_id _), hloaded, hmsg, Option.map_some,
            Edit.apply_loaded (e := ⟨msg, destroy now msg⟩) rfl]
        rw [hself, hloaded, hmsg]
        simp [hb, hwipes]
      · rw [hother id heq]
        simp [heq]

theorem foldl_apply_map_id (edits : List Edit) (rows : MessageRows) :
    (edits.foldl (fun rows e => Table.modify Message.id rows e.loaded.id e.apply) rows).map
      Message.id = rows.map Message.id := by
  induction edits generalizing rows with
  | nil => rfl
  | cons e edits ih => rw [List.foldl_cons, ih, Table.map_key_modify (Edit.apply_id e)]

/-- The last call of the list. -/
theorem run_load_commit {calls : List Pending} {p : Pending} {m : Store}
    (hload : begins s t = some (m, p)) :
    run overlapStep ⟨s, calls⟩ [.load t, .commit calls.length] = some ⟨commit m p, calls⟩ := by
  simp only [run_cons, run_nil, overlapStep, hload, Option.map_some, Option.bind_some]
  rw [List.getElem?_concat_length, Option.map_some, Option.bind_some, eraseIdx_concat_length]

/-- **A call alone.** What a call does when it loads and commits with nothing in
    between is what it does as one transaction. -/
theorem overlap_alone (hnd : (s.rows.map Message.id).Nodup) (h : transact s t = some s')
    (calls : List Pending) :
    run overlapStep ⟨s, calls⟩ [.load t,
      if t.commits then .commit calls.length else .rollback calls.length] =
        some ⟨s', calls⟩ := by
  cases t with
  | saveMessage =>
    obtain rfl := Option.some.inj h
    exact run_load_commit (m := s) (p := .insert _) rfl
  | markDelivered messageId userId =>
    obtain rfl := Option.some.inj h
    refine (run_load_commit rfl).trans ?_
    rw [commit_receiptEdits hnd (deliver_id s.now)]
    rfl
  | markRead messageId userId =>
    obtain rfl := Option.some.inj h
    refine (run_load_commit rfl).trans ?_
    rw [commit_receiptEdits hnd (read_id s.now)]
    rfl
  | unsendMessage messageId senderId =>
    refine (run_load_commit rfl).trans ?_
    rw [commit_unsendEdits hnd] at h
    rw [Option.some.inj h]
  | sweepOnce batch fails commitOk =>
    obtain ⟨hbatch, rfl⟩ := transact_sweep h
    have hload : begins s (.sweepOnce batch fails commitOk) = some
        ({ s with bucket := (sweepOnce s.now s.rows s.bucket batch fails commitOk).bucket },
          .update (batch.filterMap (sweepEdit s.rows s.now fails))) := if_pos hbatch
    cases commitOk with
    | true =>
      refine (run_load_commit hload).trans ?_
      have hrows : (batch.filterMap (sweepEdit s.rows s.now fails)).foldl
          (fun rows e => Table.modify Message.id rows e.loaded.id e.apply) s.rows =
            (sweepOnce s.now s.rows s.bucket batch fails true).rows := by
        have hkeys : ∀ edits : List Edit, (edits.foldl (fun rows e =>
            Table.modify Message.id rows e.loaded.id e.apply) s.rows).map Message.id =
              s.rows.map Message.id := fun edits => foldl_apply_map_id edits s.rows
        refine Table.ext_find ((hkeys _).trans sweepOnce_map_id.symm) ?_ fun id => ?_
        · rw [hkeys]
          exact hnd
        · refine (foldl_sweepEdit_byId hbatch.1 (fun _ _ => rfl) id).trans ?_
          refine Eq.trans ?_ (sweepOnce_byId hbatch.1 id).symm
          simp
      simp only [commit, hrows]
    | false =>
      show run overlapStep ⟨s, calls⟩ [_, .rollback calls.length] = _
      simp only [run_cons, run_nil, overlapStep, hload, Option.map_some, Option.bind_some]
      rw [eraseIdx_concat_length]
      simp [sweepOnce]

/-! ## Wiped rows -/

/-- Retracted or destroyed. -/
def Message.Gone (msg : Message) : Prop := msg.deletedForEveryone = true ∨ msg.isDestructed = true

/-- The row holds no content. -/
def Message.Wiped (msg : Message) : Prop :=
  msg.contentCiphertext = none ∧ msg.mediaObjectKey = none ∧ msg.mediaMimeType = none

/-- `msg'` is what is left of `msg`: content is kept or wiped, and the two flags
    are kept or set. -/
structure Message.Fades (msg msg' : Message) : Prop where
  content : FallsTo none msg.contentCiphertext msg'.contentCiphertext
  key : FallsTo none msg.mediaObjectKey msg'.mediaObjectKey
  mime : FallsTo none msg.mediaMimeType msg'.mediaMimeType
  destructed : FallsTo true msg.isDestructed msg'.isDestructed
  deleted : FallsTo true msg.deletedForEveryone msg'.deletedForEveryone

theorem Message.Fades.refl (msg : Message) : msg.Fades msg :=
  ⟨.refl _ _, .refl _ _, .refl _ _, .refl _ _, .refl _ _⟩

theorem Message.Fades.trans (msg msg' msg'' : Message) (h : msg.Fades msg')
    (h' : msg'.Fades msg'') : msg.Fades msg'' :=
  ⟨h.content.trans h'.content, h.key.trans h'.key, h.mime.trans h'.mime,
    h.destructed.trans h'.destructed, h.deleted.trans h'.deleted⟩

theorem Message.Fades.gone {msg msg' : Message} (h : msg.Fades msg') (hgone : msg.Gone) :
    msg'.Gone := hgone.imp h.deleted.eq_last h.destructed.eq_last

/-- A change a call makes to a row it has loaded. -/
structure FadingEdit (msg msg' : Message) : Prop where
  id : msg'.id = msg.id
  fades : msg.Fades msg'
  wiped : msg'.Gone → msg'.Wiped

variable {now : Time} {rows rows' : MessageRows}

theorem fadingEdit_deliver {msg : Message} (h : msg.Gone → msg.Wiped) :
    FadingEdit msg (deliver now msg) :=
  ⟨rfl, ⟨.refl _ _, .refl _ _, .refl _ _, .refl _ _, .refl _ _⟩, h⟩

theorem fadingEdit_read {msg : Message} (h : msg.Gone → msg.Wiped) :
    FadingEdit msg (read now msg) := by
  unfold read
  split_ifs
  · exact ⟨rfl, ⟨.refl _ _, .refl _ _, .refl _ _, .refl _ _, .refl _ _⟩, h⟩
  · exact ⟨rfl, ⟨.refl _ _, .refl _ _, .refl _ _, .refl _ _, .refl _ _⟩, h⟩
  · exact ⟨rfl, .refl msg, h⟩

theorem fadingEdit_retract (msg : Message) : FadingEdit msg (retract now msg) :=
  ⟨rfl, ⟨.last _ _, .last _ _, .last _ _, .refl _ _, .last _ _⟩, fun _ => ⟨rfl, rfl, rfl⟩⟩

theorem fadingEdit_destroy (msg : Message) : FadingEdit msg (destroy now msg) :=
  ⟨rfl, ⟨.last _ _, .last _ _, .last _ _, .last _ _, .refl _ _⟩, fun _ => ⟨rfl, rfl, rfl⟩⟩

/-- What is written back to a row that has faded since it was loaded is a fading
    edit of the row as it is by then. -/
theorem FadingEdit.apply {e : Edit} (h : FadingEdit e.loaded e.changed) {current : Message}
    (hstale : e.loaded.Fades current) (hcurrent : current.Gone → current.Wiped) :
    FadingEdit current (e.apply current) := by
  refine ⟨rfl, ⟨h.fades.content.writeBack, h.fades.key.writeBack, h.fades.mime.writeBack,
    h.fades.destructed.writeBack, h.fades.deleted.writeBack⟩, fun hgone => ?_⟩
  -- a flag that is set now was set by the call, or was there
  have hset : e.changed.Gone ∨ current.Gone := by
    rcases hgone with hdeleted | hdestructed
    · exact ((writeBack_eq_last hstale.deleted h.fades.deleted).mp hdeleted).imp .inl .inl
    · exact ((writeBack_eq_last hstale.destructed h.fades.destructed).mp hdestructed).imp .inr .inr
  have hwiped : e.changed.Wiped ∨ current.Wiped := hset.imp h.wiped hcurrent
  refine ⟨?_, ?_, ?_⟩
  · exact (writeBack_eq_last hstale.content h.fades.content).mpr (hwiped.imp (·.1) (·.1))
  · exact (writeBack_eq_last hstale.key h.fades.key).mpr (hwiped.imp (·.2.1) (·.2.1))
  · exact (writeBack_eq_last hstale.mime h.fades.mime).mpr (hwiped.imp (·.2.2) (·.2.2))

/-- Every row that is gone is wiped. -/
structure WipedRows (rows : MessageRows) : Prop where
  nodup : (rows.map Message.id).Nodup
  wiped : ∀ id msg, rows.byId id = some msg → msg.Gone → msg.Wiped

/-- The call has computed its edit from a row that may have faded since. -/
def Edit.Stale (rows : MessageRows) (e : Edit) : Prop :=
  FadingEdit e.loaded e.changed ∧ ∃ current, rows.byId e.loaded.id = some current ∧
    e.loaded.Fades current

def Pending.Stale (rows : MessageRows) : Pending → Prop
  | .insert msg => ¬ msg.Gone
  | .update edits => ∀ e ∈ edits, e.Stale rows

theorem Edit.Stale.mono {e : Edit} (h : e.Stale rows)
    (hevolves : Table.Evolves Message.id Message.Fades rows rows') : e.Stale rows' := by
  obtain ⟨hedit, current, hcurrent, hfades⟩ := h
  obtain ⟨current', hcurrent', hfades'⟩ := hevolves _ current hcurrent
  exact ⟨hedit, current', hcurrent', hfades.trans _ _ _ hfades'⟩

theorem Pending.Stale.mono {p : Pending} (h : p.Stale rows)
    (hevolves : Table.Evolves Message.id Message.Fades rows rows') : p.Stale rows' := by
  cases p with
  | insert msg => exact h
  | update edits => exact fun e he => (h e he).mono hevolves

/-- One `UPDATE`. -/
theorem WipedRows.modify (h : WipedRows rows) {e : Edit} (hstale : e.Stale rows) :
    WipedRows (Table.modify Message.id rows e.loaded.id e.apply) ∧
      Table.Evolves Message.id Message.Fades rows
        (Table.modify Message.id rows e.loaded.id e.apply) := by
  obtain ⟨hedit, current, hcurrent, hfades⟩ := hstale
  have happly : ∀ msg, rows.byId e.loaded.id = some msg → FadingEdit msg (e.apply msg) := by
    intro msg hmsg
    obtain rfl := Option.some.inj (hcurrent.symm.trans hmsg)
    exact hedit.apply hfades (h.wiped _ current hcurrent)
  refine ⟨⟨?_, ?_⟩, ?_⟩
  · rw [Table.map_key_modify e.apply_id]
    exact h.nodup
  · intro id msg' hmsg' hgone
    obtain ⟨msg, hmsg, rfl | rfl⟩ := byId_modify e.apply_id hmsg'
    · exact h.wiped id msg' hmsg hgone
    · by_cases hid : id = e.loaded.id
      · exact (happly msg (hid ▸ hmsg)).wiped hgone
      · unfold MessageRows.byId at hmsg' hmsg
        rw [Table.find_modify_of_ne e.apply_id rows hid, hmsg] at hmsg'
        rw [← Option.some.inj hmsg'] at hgone ⊢
        exact h.wiped id msg hmsg hgone
  · rw [Table.evolves_modify_iff Message.Fades.refl e.apply_id]
    exact fun msg hmsg => (happly msg hmsg).fades

/-- **Commit.** A stale call leaves every row faded, and every row that is gone
    wiped. -/
theorem WipedRows.commit (h : WipedRows s.rows) {p : Pending} (hstale : p.Stale s.rows) :
    WipedRows (commit s p).rows ∧
      Table.Evolves Message.id Message.Fades s.rows (commit s p).rows := by
  cases p with
  | insert msg =>
    show WipedRows ((saveMessage s.users s.groups s.rows msg).getD s.rows) ∧
      Table.Evolves _ _ _ ((saveMessage s.users s.groups s.rows msg).getD s.rows)
    cases hsave : saveMessage s.users s.groups s.rows msg with
    | none => exact ⟨h, .refl Message.Fades.refl s.rows⟩
    | some rows' =>
      obtain ⟨rfl, hfree⟩ := saveMessage_rows hsave
      refine ⟨⟨Table.nodup_append h.nodup hfree, ?_⟩, Table.evolves_append Message.Fades.refl _ _⟩
      intro id msg' hmsg' hgone
      rw [Option.getD_some] at hmsg'
      unfold MessageRows.byId at hmsg'
      rw [Table.find_append] at hmsg'
      rcases Option.or_eq_some_iff.mp hmsg' with hold | ⟨-, hnew⟩
      · exact h.wiped id msg' hold hgone
      · split_ifs at hnew
        rw [← Option.some.inj hnew] at hgone
        exact absurd hgone hstale
  | update edits =>
    show WipedRows (edits.foldl _ s.rows) ∧ Table.Evolves _ _ _ (edits.foldl _ s.rows)
    -- each `UPDATE` finds the later ones as stale as they were
    generalize s.rows = rows at h hstale
    induction edits generalizing rows with
    | nil => exact ⟨h, .refl Message.Fades.refl rows⟩
    | cons e edits ih =>
      obtain ⟨hwiped, hevolves⟩ := h.modify (hstale e List.mem_cons_self)
      obtain ⟨hwiped', hevolves'⟩ := ih _ hwiped fun e' he' =>
        (hstale e' (List.mem_cons_of_mem e he')).mono hevolves
      exact ⟨hwiped', hevolves.trans Message.Fades.trans hevolves'⟩

theorem stale_of_byId {msg msg' : Message} (h : rows.byId msg.id = some msg)
    (hedit : FadingEdit msg msg') : Edit.Stale rows ⟨msg, msg'⟩ := ⟨hedit, msg, h, .refl msg⟩

theorem stale_receiptEdits (h : WipedRows rows) {f : Message → Message}
    (hf : ∀ msg, (msg.Gone → msg.Wiped) → FadingEdit msg (f msg)) (groups : Groups)
    (messageId userId : UUID) :
    Pending.Stale rows (.update (receiptEdits groups rows f messageId userId)) := by
  intro e he
  unfold receiptEdits at he
  split at he
  · cases he
  · rename_i msg hmsg
    split_ifs at he
    · obtain rfl := List.mem_singleton.mp he
      exact stale_of_byId ((MessageRows.byId_id hmsg).symm ▸ hmsg)
        (hf msg (h.wiped messageId msg hmsg))
    · cases he

/-- **Load.** A call has loaded rows as they are. -/
theorem begins_stale (h : WipedRows s.rows) {m : Store} {p : Pending}
    (hload : begins s t = some (m, p)) : m.rows = s.rows ∧ p.Stale s.rows := by
  cases t with
  | saveMessage =>
    cases hload
    refine ⟨rfl, ?_⟩
    rintro (hdeleted | hdestructed)
    · cases hdeleted
    · cases hdestructed
  | markDelivered messageId userId =>
    cases hload
    exact ⟨rfl, stale_receiptEdits h (fun _ => fadingEdit_deliver) s.groups messageId userId⟩
  | markRead messageId userId =>
    cases hload
    exact ⟨rfl, stale_receiptEdits h (fun _ => fadingEdit_read) s.groups messageId userId⟩
  | unsendMessage messageId senderId =>
    cases hload
    refine ⟨rfl, fun e he => ?_⟩
    unfold unsendEdits at he
    split at he
    · cases he
    · rename_i msg hmsg
      split_ifs at he
      · cases he
      · obtain rfl := List.mem_singleton.mp he
        obtain ⟨hmsg, -⟩ := Option.filter_eq_some_iff.mp hmsg
        exact stale_of_byId ((MessageRows.byId_id hmsg).symm ▸ hmsg) (fadingEdit_retract msg)
  | sweepOnce batch fails commitOk =>
    simp only [begins] at hload
    split_ifs at hload
    cases hload
    refine ⟨rfl, fun e he => ?_⟩
    obtain ⟨id, -, hedit⟩ := List.mem_filterMap.mp he
    obtain ⟨msg, hmsg, rfl⟩ := Option.map_eq_some_iff.mp hedit
    obtain ⟨hmsg, -⟩ := Option.filter_eq_some_iff.mp hmsg
    exact stale_of_byId ((MessageRows.byId_id hmsg).symm ▸ hmsg) (fadingEdit_destroy msg)

/-! ## Runs -/

/-- Rows that are gone are wiped, and no call knows better. -/
def Overlap.Inv (s : Overlap) : Prop :=
  WipedRows s.store.rows ∧ ∀ p ∈ s.calls, p.Stale s.store.rows

/-- **Step.** -/
theorem Overlap.Inv.step (s : Overlap) (a : OverlapAction) (s' : Overlap) (h : s.Inv)
    (hs : overlapStep s a = some s') :
    s'.Inv ∧ Table.Evolves Message.id Message.Fades s.store.rows s'.store.rows := by
  obtain ⟨hwiped, hcalls⟩ := h
  have hsame : Table.Evolves Message.id Message.Fades s.store.rows s.store.rows :=
    .refl Message.Fades.refl s.store.rows
  cases a with
  | load t =>
    obtain ⟨⟨m, p⟩, hload, rfl⟩ := Option.map_eq_some_iff.mp hs
    obtain ⟨hrows, hstale⟩ := begins_stale hwiped hload
    unfold Overlap.Inv
    rw [hrows]
    refine ⟨⟨hwiped, fun q hq => ?_⟩, hsame⟩
    rcases List.mem_append.mp hq with hq | hq
    · exact hcalls q hq
    · rw [List.mem_singleton.mp hq]
      exact hstale
  | commit i =>
    obtain ⟨p, hp, rfl⟩ := Option.map_eq_some_iff.mp hs
    obtain ⟨hwiped', hevolves⟩ := hwiped.commit (hcalls p (List.mem_of_getElem? hp))
    exact ⟨⟨hwiped', fun q hq => (hcalls q (List.mem_of_mem_eraseIdx hq)).mono hevolves⟩, hevolves⟩
  | rollback i =>
    simp only [overlapStep] at hs
    split_ifs at hs
    obtain rfl := Option.some.inj hs
    exact ⟨⟨hwiped, fun q hq => hcalls q (List.mem_of_mem_eraseIdx hq)⟩, hsame⟩
  | directory users groups =>
    obtain rfl := Option.some.inj hs
    exact ⟨⟨hwiped, hcalls⟩, hsame⟩
  | tick d =>
    obtain rfl := Option.some.inj hs
    exact ⟨⟨hwiped, hcalls⟩, hsame⟩

/-- No messages, and no calls. -/
def Overlap.init (users : Users) (groups : Groups) (bucket : Bucket) (now : Time) : Overlap :=
  ⟨Store.init users groups bucket now, []⟩

theorem Overlap.inv_run {users : Users} {groups : Groups} {bucket : Bucket} {now : Time}
    {as : List OverlapAction} {s : Overlap}
    (hr : run overlapStep (Overlap.init users groups bucket now) as = some s) : s.Inv := by
  refine run_invariant (fun s a s' hi hs => (Overlap.Inv.step s a s' hi hs).1) ?_ hr
  refine ⟨⟨List.nodup_nil, ?_⟩, ?_⟩
  · intro id msg hmsg
    cases hmsg
  · intro p hp
    cases hp

theorem Overlap.evolves_run {s s' : Overlap} {as : List OverlapAction} (h : s.Inv)
    (hr : run overlapStep s as = some s') :
    Table.Evolves Message.id Message.Fades s.store.rows s'.store.rows :=
  run_relates (R := fun s s' : Overlap =>
      Table.Evolves Message.id Message.Fades s.store.rows s'.store.rows)
    (fun s => .refl Message.Fades.refl s.store.rows)
    (fun _ _ _ => Table.Evolves.trans Message.Fades.trans) Overlap.Inv.step h hr

/-- In a table where `id` is gone, a row that is not gone has another key. -/
theorem ne_of_not_gone (hnd : (rows.map Message.id).Nodup) {id : UUID} {msg row : Message}
    (hmsg : rows.byId id = some msg) (hgone : msg.Gone) (hrow : row ∈ rows) (hnot : ¬ row.Gone) :
    row.id ≠ id := by
  rintro rfl
  obtain rfl := Option.some.inj ((Table.find_of_mem hnd hrow).symm.trans hmsg)
  exact hnot hgone

/-- However the calls overlap, a row that is retracted or destroyed holds no
    content; the two flags stay set; and in every response from then on the
    content is that of other rows, which are not gone. -/
theorem wiped_forGood {users : Users} {groups : Groups} {bucket : Bucket} {now : Time}
    {as bs : List OverlapAction} {s s' : Overlap}
    (hs : run overlapStep (Overlap.init users groups bucket now) as = some s)
    (hs' : run overlapStep s bs = some s') {id : UUID} {msg : Message}
    (hmsg : s.store.rows.byId id = some msg) :
    (msg.Gone → msg.Wiped) ∧
      (∃ msg', s'.store.rows.byId id = some msg' ∧
        (msg.deletedForEveryone = true → msg'.deletedForEveryone = true) ∧
        (msg.isDestructed = true → msg'.isDestructed = true)) ∧
      (msg.Gone → ∀ userId peerId before limit messages outs,
        IsHistory s'.store.rows userId peerId before limit messages →
        messageHistory s'.store.users peerId messages = .ok outs →
        ∀ out ∈ outs, ∀ content, out.contentCiphertext = some content →
          ∃ row ∈ s'.store.rows, row.id ≠ id ∧ ¬ row.Gone ∧ out.id = row.id ∧
            row.contentCiphertext = some content) ∧
      (msg.Gone → ∀ userId online peers,
        IsConversations s'.store.users s'.store.rows userId peers →
        ∀ out ∈ listConversations s'.store.users s'.store.rows online userId peers,
          ∀ text, out.lastMessagePreview = some text →
            ∃ row ∈ s'.store.rows, row.id ≠ id ∧ ¬ row.Gone ∧ preview (some row) = some text) := by
  have hinv : s.Inv := Overlap.inv_run hs
  have hall : run overlapStep (Overlap.init users groups bucket now) (as ++ bs) = some s' := by
    rw [run_append, hs, Option.bind_some]
    exact hs'
  have hinv' : s'.Inv := Overlap.inv_run hall
  obtain ⟨msg', hmsg', hfades⟩ := Overlap.evolves_run hinv hs' id msg hmsg
  refine ⟨hinv.1.wiped id msg hmsg,
    ⟨msg', hmsg', hfades.deleted.eq_last, hfades.destructed.eq_last⟩, ?_, ?_⟩
  · intro hgone userId peerId before limit messages outs hhistory hok out hout content hcontent
    obtain ⟨row, hrow, rfl, -⟩ := messageHistory_content hhistory hok hout
    have hnot : ¬ row.Gone := by
      intro hrowGone
      have hnone := (hinv'.1.wiped row.id row (Table.find_of_mem hinv'.1.nodup hrow) hrowGone).1
      exact absurd (hnone.symm.trans hcontent) (by simp)
    exact ⟨row, hrow, ne_of_not_gone hinv'.1.nodup hmsg' (hfades.gone hgone) hrow hnot, hnot, rfl,
      hcontent⟩
  · intro hgone userId online peers hpeers out hout text htext
    obtain ⟨row, hrow, hpreview, hdestructed, hdeleted⟩ :=
      listConversations_preview hpeers hout htext
    have hnot : ¬ row.Gone := by
      simp [Message.Gone, hdestructed, hdeleted]
    exact ⟨row, hrow, ne_of_not_gone hinv'.1.nodup hmsg' (hfades.gone hgone) hrow hnot, hnot,
      hpreview⟩

/-- A text is saved; the receiver's read and the sender's retraction load it, and
    the retraction commits. -/
def readOverlapsUnsend : List OverlapAction :=
  [.load (.saveMessage 100 7 (some 1) none .TEXT (some "hello") none none none), .commit 0,
    .load (.markRead 100 1), .load (.unsendMessage 100 7), .commit 1]

/-- The read commits last, and the retraction stands. -/
theorem wiped_forGood_staleRead :
    ∃ s ∈ run overlapStep (Overlap.init [sampleUser, sampleAdmin] ⟨[], []⟩ .empty 0)
        readOverlapsUnsend,
      ∃ s' ∈ run overlapStep s [.commit 0],
        ∃ msg ∈ s'.store.rows.byId 100, msg.status = .READ ∧ msg.deletedForEveryone = true := by
  have hrun : ∃ s ∈ run overlapStep
      (Overlap.init [sampleUser, sampleAdmin] ⟨[], []⟩ .empty 0) readOverlapsUnsend,
      ∃ s' ∈ run overlapStep s [.commit 0],
        (∃ msg ∈ s.store.rows.byId 100, msg.deletedForEveryone = true) ∧
          ∃ msg ∈ s'.store.rows.byId 100, msg.status = .READ := by decide +kernel
  obtain ⟨s, hs, s', hs', ⟨msg, hmsg, hdeleted⟩, msg', hmsg', hread⟩ := hrun
  obtain ⟨-, ⟨msg'', hmsg'', hkept, -⟩, -, -⟩ := wiped_forGood hs hs' hmsg
  obtain rfl := Option.some.inj (hmsg'.symm.trans hmsg'')
  exact ⟨s, hs, s', hs', msg', hmsg', hread, hkept hdeleted⟩

end IronLink.Messages
