import IronLink.Client.Equality.Model

/-!
# The room through its references

Seen through its references the room over shared objects is the room of
`ChatBloc.lean`: every piece of a handler emits the state that is computed there on
values.

Results:
* `handle_refines`, `resume_refines`: the state a piece of a handler emits.
* `step_bloc`: a step that drops nothing leads to the bloc of `ChatBloc.lean`.
* `step_bloc_of_sameList`: nor does it matter what is dropped, as long as the list of
  references is the same.
-/

namespace IronLink.Client.Equality

open Lib Lib.Heap

variable {D : Type}

/-- The state the bloc holds if the emission is not dropped. -/
def Emission.held (e : Emission D) (state : ChatRoomState D) : ChatRoomState D := e.state.getD state

/-- In a room with `objects` and `state`, the emission `e` is one of the state `s`. -/
structure Emission.Refines (objects : List ChatMessage) (state : ChatRoomState D) (e : Emission D)
    (s : Client.ChatRoomState) : Prop where
  valid : Valid e.objects (e.held state).messages
  grows : objects.length ≤ e.objects.length
  seen : (e.held state).seen e.objects = s

/-! ## The ways to emit -/

section

variable {objects : List ChatMessage} {state s : ChatRoomState D}

theorem refines_quiet (h : Valid objects state.messages) :
    (quiet objects).Refines objects state (state.seen objects) := ⟨h, Nat.le_refl _, rfl⟩

/-- The messages are left as they are. -/
theorem refines_fields (h : Valid objects s.messages) :
    Emission.Refines objects state ⟨objects, some s⟩ (s.seen objects) := ⟨h, Nat.le_refl _, rfl⟩

theorem refines_appended (h : Valid objects s.messages) (m : ChatMessage) :
    (emitAppended objects s m).Refines objects state
      ⟨view objects s.messages ++ [m], s.peerTyping, s.loading, none⟩ where
  valid := valid_append_refs (h.append [m]) (valid_fresh [m])
  grows := by
    show objects.length ≤ (objects ++ [m]).length
    simp
  seen := by
    have hview : view (objects ++ [m]) (s.messages ++ fresh objects 1) =
        view objects s.messages ++ [m] := by
      rw [view_append_refs, view_append h]
      exact congrArg (view objects s.messages ++ ·) (view_fresh [m])
    show (⟨view (objects ++ [m]) (s.messages ++ fresh objects 1), _, _, _⟩ :
      Client.ChatRoomState) = _
    rw [hview]
    rfl

/-- A change of bubbles that keeps their ids and is made twice as it is made once. -/
structure IsMark (f : ChatMessage → ChatMessage) : Prop where
  id : ∀ m, (f m).id = m.id
  twice : ∀ m, f (f m) = f m

theorem IsMark.on {f : ChatMessage → ChatMessage} (hf : IsMark f) (id : String) :
    IsMark fun m => if m.id = id then f m else m where
  id m := by
    split_ifs
    · exact hf.id m
    · rfl
  twice m := by
    by_cases h : m.id = id
    · rw [if_pos h, if_pos ((hf.id m).trans h), hf.twice]
    · rw [if_neg h, if_neg h]

theorem refines_mutated {f : ChatMessage → ChatMessage} (hf : IsMark f) (id : String)
    (h : Valid objects state.messages) :
    (emitMutated objects state id f).Refines objects state
      ⟨(view objects state.messages).map fun m => if m.id = id then f m else m,
        state.peerTyping, state.loading, none⟩ where
  valid := h.mutate _
  grows := by
    show objects.length ≤ (mutate _ objects state.messages).length
    rw [length_mutate]
  seen := by
    show (⟨view (mutate _ objects state.messages) state.messages, _, _, _⟩ :
      Client.ChatRoomState) = _
    rw [view_mutate (hf.on id).twice]
    rfl

theorem isMark_unsent : IsMark unsent := ⟨fun _ => rfl, fun _ => rfl⟩

theorem isMark_withTick (tick : MessageTick → MessageTick) (h : ∀ t, tick (tick t) = tick t) :
    IsMark (withTick tick) where
  id _ := rfl
  twice m := by
    show ({ m with tick := tick (tick m.tick) } : ChatMessage) = _
    rw [h]
    rfl

theorem isMark_delivered :
    IsMark (withTick fun tick => if tick = .sent then .delivered else tick) :=
  isMark_withTick _ fun t => by cases t <;> rfl

theorem isMark_read :
    IsMark (withTick fun tick => if tick = .sent ∨ tick = .delivered then .read else tick) :=
  isMark_withTick _ fun t => by cases t <;> rfl

end

/-! ## The handlers -/

section Handlers

variable {S : Type} {lib : Libsignal S} {keys : KeyServer} {chat : Chat}
  {objects : List ChatMessage} {state : ChatRoomState D} {refCounter : ℕ} {storage : Storage}
  {now : Time} {answer : Answer}

theorem finish_refines (h : Valid objects state.messages) (ref : String)
    (ciphertext : Option String) (e : Content) :
    (finish chat objects state now ref ciphertext e).Refines objects state
      (e.finish chat ⟨state.seen objects, refCounter⟩ storage now ref ciphertext).bloc.state := by
  cases e with
  | textSent content => exact refines_appended h _
  | mediaSent kind mediaKey mimeType caption => exact refines_appended h _

theorem onContentSent_refines (h : Valid objects state.messages) (e : Content) :
    (onContentSent chat objects state refCounter now e).Refines objects state
      (Client.onContentSent chat ⟨state.seen objects, refCounter⟩ storage now e).bloc.state := by
  unfold onContentSent Client.onContentSent
  by_cases hsecret : chat.isSecret = true
  · simp only [if_pos hsecret]
    exact refines_quiet h
  · simp only [if_neg hsecret]
    exact finish_refines h _ none e

theorem resumeEncryption_refines (h : Valid objects state.messages) (ref : String) (e : Content) :
    (resumeEncryption lib chat objects state storage now ref e).Refines objects state
      (Client.resumeEncryption lib chat ⟨state.seen objects, refCounter⟩ storage now ref
        e).bloc.state := by
  unfold resumeEncryption Client.resumeEncryption
  rcases encryptMessage lib chat.myId storage e.plaintext chat.peerId with ⟨_ | ciphertext, _⟩
  · exact refines_quiet h
  · exact finish_refines h ref (some ciphertext) e

theorem resumeHistory_refines (h : Valid objects state.messages)
    (history : Except String (List ChatMessage)) :
    (resumeHistory objects state history).Refines objects state
      (Client.resumeHistory ⟨state.seen objects, refCounter⟩ storage history).bloc.state := by
  cases history with
  | error err => exact refines_fields h
  | ok history =>
    refine ⟨valid_fresh history, ?_, ?_⟩
    · show objects.length ≤ (objects ++ history).length
      simp
    · show (⟨view (objects ++ history) (fresh objects history.length), _, _, _⟩ :
        Client.ChatRoomState) = _
      rw [view_fresh]
      rfl

theorem onAck_refines (h : Valid objects state.messages) (f : Frame) :
    (onAck chat objects state f).Refines objects state
      (Client.onAck chat ⟨state.seen objects, refCounter⟩ f).state := by
  unfold onAck Client.onAck
  cases (Json.get f "client_ref").asOptStr with
  | none => exact refines_quiet h
  | some ref =>
    -- the bubble confirmed in the copy is the one confirmed on values
    have hupdate : ∀ m : ChatMessage,
        ((if some m.id = ref then (confirm chat f m).map some else some none).map
          fun b => b.getD m) = if some m.id = ref then confirm chat f m else some m := by
      intro m
      split_ifs with hm
      · cases confirm chat f m with
        | none => rfl
        | some m' => rfl
      · rfl
    have hview := view_rebuild
      (fun m : ChatMessage => if some m.id = ref then (confirm chat f m).map some else some none) h
    simp only [hupdate] at hview
    have hvalues : (state.seen objects).messages.mapM
        (fun m => if some m.id = ref then confirm chat f m else some m) = _ := hview.symm
    simp only [hvalues]
    cases hb : rebuild (fun m : ChatMessage =>
        if some m.id = ref then (confirm chat f m).map some else some none)
        objects state.messages with
    | none => exact refines_quiet h
    | some p =>
      obtain ⟨objects', messages⟩ := p
      obtain ⟨⟨new, rfl⟩, hvalid, -⟩ := rebuild_some h hb
      refine ⟨hvalid, ?_, rfl⟩
      show objects.length ≤ (objects ++ new).length
      simp

theorem onTick_refines {tick : MessageTick → MessageTick}
    (ht : IsMark (withTick tick)) (h : Valid objects state.messages) (f : Frame) :
    (onTick objects state tick f).Refines objects state
      (Client.onTick ⟨state.seen objects, refCounter⟩ tick f).state := by
  unfold onTick Client.onTick
  cases asStr (Json.get f "message_id") with
  | none => exact refines_quiet h
  | some id => exact refines_mutated ht id h

theorem onReceipt_refines (h : Valid objects state.messages) (f : Frame) :
    (onReceipt objects state f).Refines objects state
      (Client.onReceipt ⟨state.seen objects, refCounter⟩ f).state := by
  unfold onReceipt Client.onReceipt
  by_cases hstatus : asStr (Json.get f "status") = some "read"
  · rw [hstatus]
    exact onTick_refines (isMark_withTick (fun _ => .read) fun _ => rfl) h f
  · simp only
    exact onTick_refines isMark_delivered h f

theorem onTyping_refines (h : Valid objects state.messages) (typing : Bool) (f : Frame) :
    (onTyping chat objects state typing f).Refines objects state
      (Client.onTyping chat ⟨state.seen objects, refCounter⟩ typing f).state := by
  unfold onTyping Client.onTyping
  split_ifs
  · exact refines_fields h
  · exact refines_quiet h

theorem onUnsend_refines (h : Valid objects state.messages) (f : Frame) :
    (onUnsend objects state f).Refines objects state
      (Client.onUnsend ⟨state.seen objects, refCounter⟩ f).state := by
  unfold onUnsend Client.onUnsend
  cases asStr (Json.get f "message_id") with
  | none => exact refines_quiet h
  | some id => exact refines_mutated isMark_unsent id h

theorem showMessage_refines (h : Valid objects state.messages) (f : Frame)
    (content : Option String) :
    (showMessage objects state f content).Refines objects state
      (Client.showMessage ⟨state.seen objects, refCounter⟩ storage f content).bloc.state := by
  unfold showMessage Client.showMessage
  cases asStr (Json.get f "message_id") with
  | none => exact refines_quiet h
  | some id =>
    cases asStr (Json.get f "from") with
    | none => exact refines_quiet h
    | some senderId =>
      cases asDateTime (Json.get f "created_at") with
      | none => exact refines_quiet h
      | some createdAt =>
        have hshown : Valid objects { state with peerTyping := false }.messages := h
        exact refines_appended hshown _

theorem onMessage_refines (h : Valid objects state.messages) (f : Frame) :
    (onMessage chat objects state f).Refines objects state
      (Client.onMessage chat ⟨state.seen objects, refCounter⟩ storage f).bloc.state := by
  unfold onMessage Client.onMessage
  by_cases hfrom : asStr (Json.get f "from") = some chat.peerId
  · simp only [if_pos hfrom]
    cases (Json.get f "content").asOptStr with
    | none => exact refines_quiet h
    | some content =>
      by_cases hsecret : chat.isSecret = true
      · simp only [if_pos hsecret]
        exact refines_quiet h
      · simp only [if_neg hsecret]
        exact showMessage_refines h f content
  · simp only [if_neg hfrom]
    exact refines_quiet h

theorem resumeDecryption_refines (h : Valid objects state.messages) (f : Frame)
    (content : Option String) :
    (resumeDecryption lib chat objects state storage f content).Refines objects state
      (Client.resumeDecryption lib chat ⟨state.seen objects, refCounter⟩ storage f
        content).bloc.state := by
  unfold resumeDecryption Client.resumeDecryption
  rcases decryptMessage lib chat.myId storage content chat.peerId with ⟨_ | plaintext, _⟩
  · exact showMessage_refines h f content
  · exact showMessage_refines h f (some plaintext)

theorem onFrame_refines (h : Valid objects state.messages) (f : Frame) :
    (onFrame chat objects state f).Refines objects state
      (Client.onFrame chat ⟨state.seen objects, refCounter⟩ storage f).bloc.state := by
  unfold onFrame Client.onFrame
  by_cases hack : asStr (Json.get f "type") = some "ack"
  · rw [hack]
    exact onAck_refines h f
  by_cases hmessage : asStr (Json.get f "type") = some "message"
  · rw [hmessage]
    exact onMessage_refines h f
  by_cases hreceipt : asStr (Json.get f "type") = some "receipt"
  · rw [hreceipt]
    exact onReceipt_refines h f
  by_cases hdelivered : asStr (Json.get f "type") = some "delivered"
  · rw [hdelivered]
    exact onTick_refines isMark_delivered h f
  by_cases hread : asStr (Json.get f "type") = some "read"
  · rw [hread]
    exact onTick_refines isMark_read h f
  by_cases hstart : asStr (Json.get f "type") = some "typing_start"
  · rw [hstart]
    exact onTyping_refines h true f
  by_cases hstop : asStr (Json.get f "type") = some "typing_stop"
  · rw [hstop]
    exact onTyping_refines h false f
  by_cases hunsend : asStr (Json.get f "type") = some "unsend"
  · rw [hunsend]
    exact onUnsend_refines h f
  simp only
  exact refines_quiet h

/-- A handler emits, up to its first `await`, the state that is computed on values. -/
theorem handle_refines (h : Valid objects state.messages) (e : ChatEvent) :
    (handle chat objects state refCounter now e).Refines objects state
      (Client.handle chat ⟨state.seen objects, refCounter⟩ storage now e).bloc.state := by
  cases e with
  | chatOpened => exact refines_quiet h
  | contentSent e => exact onContentSent_refines h e
  | typingChanged typing => exact refines_quiet h
  | messageUnsent messageId => exact refines_mutated isMark_unsent messageId h
  | frameReceived f => exact onFrame_refines h f

/-- And so it does from one `await` to the next. -/
theorem resume_refines (h : Valid objects state.messages) (p : Pending) :
    (resume lib chat objects state storage answer p).Refines objects state
      (Client.resume lib keys chat ⟨state.seen objects, refCounter⟩ storage answer
        p).bloc.state := by
  cases p with
  | history => exact resumeHistory_refines h answer.history
  | session ref e => exact refines_quiet h
  | encryption ref e => exact resumeEncryption_refines h ref e
  | decryption f content => exact resumeDecryption_refines h f content

/-! ## The AI features -/

/-- The messages, and the objects, are left as they are. -/
structure Emission.Keeps (objects : List ChatMessage) (state : ChatRoomState D) (e : Emission D) :
    Prop where
  objects : e.objects = objects
  messages : (e.held state).messages = state.messages

theorem keeps_quiet : (quiet objects).Keeps objects state := ⟨rfl, rfl⟩

theorem handleAi_keeps (e : AiEvent D) : (handleAi objects state e).1.Keeps objects state := by
  cases e <;> exact ⟨rfl, rfl⟩

theorem resumeSummaryTexts_keeps (history : Except String (List ChatMessage)) :
    (resumeSummaryTexts objects state history).1.Keeps objects state := by
  cases history with
  | error err => exact ⟨rfl, rfl⟩
  | ok messages =>
    unfold resumeSummaryTexts
    simp only
    split_ifs
    · exact keeps_quiet
    · exact ⟨rfl, rfl⟩

theorem resumeSummary_keeps (summary : Except String (Option String)) :
    (resumeSummary objects state summary).Keeps objects state := by
  cases summary <;> exact ⟨rfl, rfl⟩

theorem resumeRepliesContext_keeps (history : Except String (List ChatMessage)) :
    (resumeRepliesContext objects state history).1.Keeps objects state := by
  cases history with
  | error err => exact ⟨rfl, rfl⟩
  | ok messages =>
    unfold resumeRepliesContext
    simp only
    split_ifs
    · exact ⟨rfl, rfl⟩
    · exact keeps_quiet

theorem resumeReplies_keeps (replies : Except String (List String)) :
    (resumeReplies objects state replies).Keeps objects state := by
  cases replies <;> exact ⟨rfl, rfl⟩

theorem resumeTranslation_keeps (messageId : String)
    (translation : Except String (Option String)) :
    (resumeTranslation objects state messageId translation).Keeps objects state := by
  cases translation <;> exact ⟨rfl, rfl⟩

theorem resumeModeration_keeps (messageId : String)
    (scores : Except String (String → Option D)) :
    (resumeModeration objects state messageId scores).Keeps objects state := by
  cases scores <;> exact ⟨rfl, rfl⟩

end Handlers

/-! ## Steps -/

section Steps

variable {S : Type} {lib : Libsignal S} {keys : KeyServer} {chat : Chat} {r r' : Room D}
  {a : Action D} {p : Piece D} {s : Segment}

/-- The references of the room are to allocated objects. -/
def Room.Sound (r : Room D) : Prop := Valid r.objects r.state.messages

/-- `flutter_bloc` drops the emission. -/
def Room.Drops (r : Room D) (e : Emission D) : Prop :=
  r.emitted = true ∧ ∃ s ∈ e.state, s.Equals e.objects r.state

/-- The segment of `ChatBloc.lean` an action runs, if it runs a handler of the
    chat. -/
def segment (lib : Libsignal S) (keys : KeyServer) (chat : Chat) (r : Room D) :
    Action D → Option Segment
  | .event e now => some (Client.handle chat r.bloc r.storage now e)
  | .resume i answer =>
    match r.waiting[i]? with
    | some (.chat p) => some (Client.resume lib keys chat r.bloc r.storage answer.toAnswer p)
    | _ => none
  | _ => none

theorem resumed_valid (h : r.Sound) (answer : AiAnswer D) (w : Waiting) :
    Valid (resumed lib keys chat r answer w).emission.objects
        ((resumed lib keys chat r answer w).emission.held r.state).messages ∧
      r.objects.length ≤ (resumed lib keys chat r answer w).emission.objects.length := by
  have hkeeps : ∀ e : Emission D, e.Keeps r.objects r.state →
      Valid e.objects (e.held r.state).messages ∧ r.objects.length ≤ e.objects.length := by
    rintro e ⟨hobjects, hmessages⟩
    rw [hobjects, hmessages]
    exact ⟨h, Nat.le_refl _⟩
  cases w with
  | chat q =>
    have hrefines : (resume lib chat r.objects r.state r.storage answer.toAnswer q).Refines
        r.objects r.state
        (Client.resume lib keys chat r.bloc r.storage answer.toAnswer q).bloc.state :=
      resume_refines h q
    exact ⟨hrefines.valid, hrefines.grows⟩
  | summaryTexts => exact hkeeps _ (resumeSummaryTexts_keeps answer.history)
  | summary => exact hkeeps _ (resumeSummary_keeps answer.summary)
  | repliesContext => exact hkeeps _ (resumeRepliesContext_keeps answer.history)
  | replies => exact hkeeps _ (resumeReplies_keeps answer.replies)
  | translation messageId => exact hkeeps _ (resumeTranslation_keeps messageId answer.translation)
  | moderation messageId => exact hkeeps _ (resumeModeration_keeps messageId answer.scores)

theorem piece_valid (h : r.Sound) (hp : piece lib keys chat r a = some p) :
    Valid p.emission.objects (p.emission.held r.state).messages ∧
      r.objects.length ≤ p.emission.objects.length := by
  cases a with
  | event e now =>
    obtain rfl := Option.some.inj hp
    have hrefines : (handle chat r.objects r.state r.refCounter now e).Refines r.objects r.state
        (Client.handle chat r.bloc r.storage now e).bloc.state := handle_refines h e
    exact ⟨hrefines.valid, hrefines.grows⟩
  | aiEvent e =>
    obtain rfl := Option.some.inj hp
    obtain ⟨hobjects, hmessages⟩ : (handleAi r.objects r.state e).1.Keeps r.objects r.state :=
      handleAi_keeps e
    show Valid (handleAi r.objects r.state e).1.objects
        ((handleAi r.objects r.state e).1.held r.state).messages ∧
      r.objects.length ≤ (handleAi r.objects r.state e).1.objects.length
    rw [hobjects, hmessages]
    exact ⟨h, Nat.le_refl _⟩
  | resume i answer =>
    obtain ⟨w, -, rfl⟩ := Option.map_eq_some_iff.mp hp
    exact resumed_valid h answer w
  | store storage =>
    obtain rfl := Option.some.inj hp
    exact ⟨h, Nat.le_refl _⟩

theorem emit_of_drops {e : Emission D} (h : r.Drops e) :
    r.emit e = { r with objects := e.objects } := by
  obtain ⟨hemitted, s, hs, heq⟩ := h
  unfold Room.emit
  rw [Option.mem_def.mp hs]
  exact if_pos ⟨hemitted, heq⟩

theorem emit_of_not_drops {e : Emission D} (h : ¬ r.Drops e) :
    (r.emit e).objects = e.objects ∧ (r.emit e).state = e.held r.state := by
  unfold Room.emit Emission.held
  cases hs : e.state with
  | none => exact ⟨rfl, rfl⟩
  | some s =>
    have hkept : ¬ (r.emitted = true ∧ s.Equals e.objects r.state) :=
      fun hd => h ⟨hd.1, s, hs, hd.2⟩
    simp [hkept]

theorem emit_sound {e : Emission D} (h : r.Sound)
    (hvalid : Valid e.objects (e.held r.state).messages)
    (hgrows : r.objects.length ≤ e.objects.length) : (r.emit e).Sound := by
  by_cases hd : r.Drops e
  · rw [emit_of_drops hd]
    exact fun i hi => Nat.lt_of_lt_of_le (h i hi) hgrows
  · obtain ⟨hobjects, hstate⟩ := emit_of_not_drops hd
    unfold Room.Sound
    rw [hobjects, hstate]
    exact hvalid

theorem init_sound (storage : Storage) : (Room.init storage : Room D).Sound :=
  fun _ hi => (by cases hi)

/-- A step leaves no reference dangling. -/
theorem step_sound (h : r.Sound) (hs : step lib keys chat r a = some r') : r'.Sound := by
  obtain ⟨p, hp, rfl⟩ := Option.map_eq_some_iff.mp hs
  obtain ⟨hvalid, hgrows⟩ := piece_valid h hp
  exact emit_sound h hvalid hgrows

/-- A piece of a handler of the chat is the segment of `ChatBloc.lean`. -/
theorem piece_refines (h : r.Sound) (hp : piece lib keys chat r a = some p)
    (hseg : segment lib keys chat r a = some s) :
    p.emission.Refines r.objects r.state s.bloc.state ∧ p.refCounter = s.bloc.refCounter ∧
      p.storage = s.storage ∧ p.next = s.next.map .chat := by
  cases a with
  | event e now =>
    obtain rfl := Option.some.inj hp
    obtain rfl := Option.some.inj hseg
    exact ⟨handle_refines h e, rfl, rfl, rfl⟩
  | resume i answer =>
    obtain ⟨w, hw, rfl⟩ := Option.map_eq_some_iff.mp hp
    simp only [segment, hw] at hseg
    cases w with
    | chat q =>
      obtain rfl := Option.some.inj hseg
      exact ⟨resume_refines h q, rfl, rfl, rfl⟩
    | _ => cases hseg
  | aiEvent e => cases hseg
  | store storage => cases hseg

/-- A step that drops nothing leads to the bloc of `ChatBloc.lean`. -/
theorem step_bloc (h : r.Sound) (hs : step lib keys chat r a = some r')
    (hp : piece lib keys chat r a = some p) (hseg : segment lib keys chat r a = some s)
    (hkept : ¬ r.Drops p.emission) : r'.bloc = s.bloc := by
  obtain ⟨hrefines, hcounter, -, -⟩ := piece_refines h hp hseg
  obtain ⟨q, hq, rfl⟩ := Option.map_eq_some_iff.mp hs
  obtain rfl := Option.some.inj (hp.symm.trans hq)
  obtain ⟨hobjects, hstate⟩ := emit_of_not_drops hkept
  show (⟨(r.emit p.emission).state.seen (r.emit p.emission).objects, p.refCounter⟩ : ChatBloc) = _
  rw [hobjects, hstate, hrefines.seen, hcounter]

/-- Nor does it matter what is dropped, as long as the list of references is the
    same: the objects are shared with the state the bloc holds. -/
theorem step_bloc_of_sameList (h : r.Sound) (hs : step lib keys chat r a = some r')
    (hp : piece lib keys chat r a = some p) (hseg : segment lib keys chat r a = some s)
    (hlist : (p.emission.held r.state).messages = r.state.messages) : r'.bloc = s.bloc := by
  by_cases hd : r.Drops p.emission
  · obtain ⟨hrefines, hcounter, -, -⟩ := piece_refines h hp hseg
    obtain ⟨q, hq, rfl⟩ := Option.map_eq_some_iff.mp hs
    obtain rfl := Option.some.inj (hp.symm.trans hq)
    have ⟨_, t, ht, heq⟩ := hd
    have hheld : p.emission.held r.state = t := by
      unfold Emission.held
      rw [Option.mem_def.mp ht]
      rfl
    have hseen : t.seen p.emission.objects = s.bloc.state := hheld ▸ hrefines.seen
    -- the state that is dropped shows the objects through the same references
    have hold : r.state.seen p.emission.objects = t.seen p.emission.objects := by
      have hpeer : t.peerTyping = r.state.peerTyping := congrArg Props.peerTyping heq
      have hloading : t.loading = r.state.loading := congrArg Props.loading heq
      have herror : t.error = r.state.error := congrArg Props.error heq
      rw [hheld] at hlist
      unfold ChatRoomState.seen
      rw [hlist, hpeer, hloading, herror]
    show (⟨(r.emit p.emission).state.seen (r.emit p.emission).objects, p.refCounter⟩ :
      ChatBloc) = _
    rw [emit_of_drops hd, hcounter]
    show (⟨r.state.seen p.emission.objects, _⟩ : ChatBloc) = _
    rw [hold, hseen]
  · exact step_bloc h hs hp hseg hd

end Steps

end IronLink.Client.Equality
