import IronLink.Client.Equality.View
import IronLink.Client.FrameProtocol

/-!
# Visible changes and the equality of states

`props` lists the number of bubbles, their `_rev`, `error` and other fields, but not
the maps of translations and moderation scores. A bubble that is changed in place is
changed in the state the bloc holds as well, so that the two sums agree.

Results:
* `emit_of_not_shown`: a change that is not shown is dropped.
* `read_swallowed`: a bubble that turns to read in a state equal to the one held.
* `changes_shown_iff`: the runs in which every visible change leads to a state that is
  different.
-/

namespace IronLink.Client.Equality

open Lib Lib.Heap

variable {D : Type}

/-! ## Property and condition -/

/-- What a bubble shows. -/
def facts (m : ChatMessage) : String × Option String × MessageTick × Bool × Bool :=
  (m.id, m.content, m.tick, m.deleted, m.pending)

/-- What the room shows. -/
structure Rendered (D : Type) where
  bubbles : List (String × Option String × MessageTick × Bool × Bool)
  translations : String → Option String
  translationLoading : String → Option Bool
  moderationScores : String → Option (String → Option D)
  moderationLoading : String → Option Bool

/-- What `s` shows while the objects are `objects`. -/
def ChatRoomState.rendered (objects : List ChatMessage) (s : ChatRoomState D) : Rendered D :=
  { bubbles := (view objects s.messages).map facts
    translations := s.translations
    translationLoading := s.translationLoading
    moderationScores := s.moderationScores
    moderationLoading := s.moderationLoading }

/-- If the piece of a handler changes what is shown, it emits a state that is
    different from `state`, which the bloc holds. -/
def Emission.Shown (objects : List ChatMessage) (state : ChatRoomState D) (e : Emission D) : Prop :=
  (e.held state).rendered e.objects ≠ state.rendered objects →
    ∃ s ∈ e.state, ¬ s.Equals e.objects state

/-- The handler an action runs has no visible change swallowed. -/
def Shows {S : Type} (lib : Libsignal S) (keys : KeyServer) (chat : Chat) (r : Room D)
    (a : Action D) : Prop :=
  ∀ p ∈ piece lib keys chat r a, p.emission.Shown r.objects r.state

/-- What a bubble adds to `_rev`. -/
def weight (m : ChatMessage) : ℕ :=
  m.tick.index + (if m.deleted then 100 else 0) + (if m.pending then 1000 else 0)

section Condition

variable (r : Room D)

/-- An error is cleared, or the bubbles that go by `id` are as `P` says. -/
def Room.Marks (id : Option String) (P : ChatMessage → Prop) : Prop :=
  r.state.error ≠ none ∨ ∀ m ∈ r.bubbles, some m.id = id → P m

/-- An error is cleared, or the ack replaces a bubble that has a weight, or every
    bubble it replaces has the id it gives. -/
def Room.Acks (f : Frame) : Prop :=
  r.state.error ≠ none ∨
    (∃ m ∈ r.bubbles, (Json.get f "client_ref").asOptStr = some (some m.id) ∧ weight m ≠ 0) ∨
    ∀ m ∈ r.bubbles, (Json.get f "client_ref").asOptStr = some (some m.id) →
      ∀ id ∈ asStr (Json.get f "message_id"),
        (asDateTime (Json.get f "created_at")).isSome = true → id = m.id

/-- The condition on a frame. -/
def Room.Hears (f : Frame) : Prop :=
  let id := asStr (Json.get f "message_id")
  match asStr (Json.get f "type") with
  | some "ack" => r.Acks f
  | some "receipt" =>
    match asStr (Json.get f "status") with
    | some "read" => r.Marks id fun m => m.tick = .read
    | _ => r.Marks id fun m => m.tick ≠ .sent
  | some "delivered" => r.Marks id fun m => m.tick ≠ .sent
  | some "read" => r.Marks id fun m => m.tick = .read
  | some "unsend" => r.Marks id fun m => m.deleted = true ∧ m.content = none
  | _ => True

/-- The condition on an answer to the history request: the response differs from the
    bubbles in number or in the sum of the weights, or shows the same. -/
def Room.Opens : Except String (List ChatMessage) → Prop
  | .error _ => True
  | .ok history =>
    r.state.loading = true ∨ r.state.error ≠ none ∨ history.length ≠ r.bubbles.length ∨
      rev history ≠ rev r.bubbles ∨ history.map facts = r.bubbles.map facts

/-- The condition on an AI event. -/
def Room.Notes : AiEvent D → Prop
  | .translateMessageStarted id =>
    r.state.error ≠ none ∨ r.state.translationLoading id = some true
  | .translateMessageSuccess id translation =>
    r.state.error ≠ none ∨ r.state.translations id = some translation
  | .translateMessageFailure id error =>
    r.state.error ≠ some error ∨ r.state.translationLoading id = some false
  | .moderateMessageStarted id =>
    r.state.error ≠ none ∨ r.state.moderationLoading id = some true
  | .moderateMessageSuccess id scores =>
    r.state.error ≠ none ∨ r.state.moderationScores id = some scores
  | .moderateMessageFailure id error =>
    r.state.error ≠ some error ∨ r.state.moderationLoading id = some false
  | _ => True

/-- The condition on an answer to a handler that waits. -/
def Room.Answers (answer : AiAnswer D) : Waiting → Prop
  | .chat .history => r.Opens answer.history
  | .translation id =>
    match answer.translation with
    | .error err => r.state.error ≠ some err ∨ r.state.translationLoading id = some false
    | .ok translation =>
      r.state.error ≠ none ∨ r.state.translations id = some (translation.getD "") ∧
        r.state.translationLoading id = some false
  | .moderation id =>
    match answer.scores with
    | .error err => r.state.error ≠ some err ∨ r.state.moderationLoading id = some false
    | .ok scores =>
      r.state.error ≠ none ∨ r.state.moderationScores id = some scores ∧
        r.state.moderationLoading id = some false
  | _ => True

/-- The emission also changes one of the `props`, or nothing that is shown. -/
def Apart : Action D → Prop
  | .event (.messageUnsent id) _ =>
    r.Marks (some id) fun m => m.deleted = true ∧ m.content = none
  | .event (.frameReceived f) _ => r.Hears f
  | .event _ _ => True
  | .aiEvent e => r.Notes e
  | .resume i answer => ∀ w ∈ r.waiting[i]?, r.Answers answer w
  | .store _ => True

end Condition

/-! ## The sum of the weights -/

theorem rev_cons (m : ChatMessage) (ms : List ChatMessage) :
    rev (m :: ms) = weight m + rev ms := by
  have hfold : ∀ (ms : List ChatMessage) (n : ℕ),
      ms.foldl (fun acc m => acc + m.tick.index + (if m.deleted then 100 else 0) +
        (if m.pending then 1000 else 0)) n = n + rev ms := by
    intro ms
    induction ms with
    | nil => intro n; rfl
    | cons m ms ih =>
      intro n
      unfold rev
      rw [List.foldl_cons, ih, List.foldl_cons, ih]
      omega
  show List.foldl _ _ ms = _
  rw [hfold]
  unfold weight
  beta_reduce
  omega

/-- When no weight grows, the sums agree if and only if the weights do. -/
theorem rev_map_eq_iff {g : ChatMessage → ChatMessage} {ms : List ChatMessage}
    (hle : ∀ m ∈ ms, weight (g m) ≤ weight m) :
    rev (ms.map g) ≤ rev ms ∧ (rev (ms.map g) = rev ms ↔ ∀ m ∈ ms, weight (g m) = weight m) := by
  induction ms with
  | nil => exact ⟨Nat.le_refl _, by simp [rev]⟩
  | cons m ms ih =>
    obtain ⟨ihle, iheq⟩ := ih fun m' hm' => hle m' (List.mem_cons_of_mem m hm')
    have hm := hle m List.mem_cons_self
    rw [List.map_cons, rev_cons, rev_cons]
    refine ⟨by omega, ?_⟩
    rw [List.forall_mem_cons, ← iheq]
    omega

/-! ## Emissions -/

section Emissions

variable {objects : List ChatMessage} {state s : ChatRoomState D} {e : Emission D}

theorem shown_of_rendered (h : (e.held state).rendered e.objects = state.rendered objects) :
    e.Shown objects state := fun hne => absurd h hne

theorem shown_iff (hs : e.state = some s) :
    e.Shown objects state ↔
      ¬ s.Equals e.objects state ∨ s.rendered e.objects = state.rendered objects := by
  unfold Emission.Shown Emission.held
  rw [hs]
  constructor
  · intro h
    by_cases hsame : s.rendered e.objects = state.rendered objects
    · exact .inr hsame
    · obtain ⟨t, ht, hne⟩ := h hsame
      obtain rfl := Option.some.inj ht
      exact .inl hne
  · rintro (hne | hsame) hchanged
    · exact ⟨s, rfl, hne⟩
    · exact absurd hsame hchanged

/-- What is not shown is lost once a state has been emitted: the bloc keeps the one it
    holds. -/
theorem emit_of_not_shown {r : Room D} (hemitted : r.emitted = true)
    (h : ¬ e.Shown r.objects r.state) : (r.emit e).state = r.state := by
  cases hs : e.state with
  | none =>
    unfold Room.emit
    rw [hs]
  | some s =>
    rw [shown_iff hs, not_or, not_not] at h
    rw [emit_of_drops ⟨hemitted, s, hs, h.1⟩]

theorem shown_quiet : (quiet objects).Shown objects state := shown_of_rendered rfl

/-- A bubble more is a change of the number. -/
theorem shown_appended (hlist : s.messages = state.messages) (m : ChatMessage) :
    (emitAppended objects s m).Shown objects state := by
  refine (shown_iff rfl).mpr (.inl fun heq => ?_)
  have hlength := congrArg Props.length heq
  simp only [ChatRoomState.props, hlist, List.length_append, length_fresh] at hlength
  omega

/-- Only the clearing of an error tells a change in place from none. -/
theorem shown_mutated {f : ChatMessage → ChatMessage} (hf : IsMark f) (id : String) :
    (emitMutated objects state id f).Shown objects state ↔
      state.error ≠ none ∨
        ∀ m ∈ view objects state.messages, m.id = id → facts (f m) = facts m := by
  rw [shown_iff rfl]
  refine or_congr (not_congr ?_) ?_
  · constructor
    · intro heq
      exact (congrArg Props.error heq).symm
    · intro herror
      unfold ChatRoomState.Equals ChatRoomState.props
      rw [herror]
  · have hview : view (mutate (fun m => if m.id = id then f m else m) objects state.messages)
        state.messages = (view objects state.messages).map fun m => if m.id = id then f m else m :=
      view_mutate (hf.on id).twice
    unfold ChatRoomState.rendered emitMutated
    simp only [hview, List.map_map, Rendered.mk.injEq, and_true]
    rw [List.map_inj_left]
    refine forall₂_congr fun m hm => ?_
    by_cases hid : m.id = id
    · simp [hid]
    · simp [hid]

/-- Of the fields of a translation or a moderation only the error is told. -/
theorem shown_maps (error : Option String) (translations : String → Option String)
    (translationLoading : String → Option Bool)
    (moderationScores : String → Option (String → Option D))
    (moderationLoading : String → Option Bool) :
    Emission.Shown objects state
        ⟨objects, some { state with
          error := error
          translations := translations
          translationLoading := translationLoading
          moderationScores := moderationScores
          moderationLoading := moderationLoading }⟩ ↔
      state.error ≠ error ∨ (translations = state.translations ∧
        translationLoading = state.translationLoading ∧
        moderationScores = state.moderationScores ∧
        moderationLoading = state.moderationLoading) := by
  rw [shown_iff rfl]
  refine or_congr (not_congr ?_) ?_
  · unfold ChatRoomState.Equals ChatRoomState.props
    simp only [Props.mk.injEq, true_and, and_true]
    exact eq_comm
  · unfold ChatRoomState.rendered
    simp only [Rendered.mk.injEq, true_and]

/-- Of a copy with new objects, which weigh no more, a smaller sum is told. -/
theorem shown_copied {g : ChatMessage → Option (Option ChatMessage)}
    {u : ChatMessage → ChatMessage} {objects' : List ChatMessage} {messages : List Ref}
    (h : Valid objects state.messages)
    (hb : rebuild g objects state.messages = some (objects', messages))
    (hview : view objects' messages = (view objects state.messages).map u)
    (hle : ∀ m, weight (u m) ≤ weight m) :
    Emission.Shown objects state
        ⟨objects', some { state with messages := messages, error := none }⟩ ↔
      state.error ≠ none ∨ (∃ m ∈ view objects state.messages, weight (u m) ≠ weight m) ∨
        ∀ m ∈ view objects state.messages, facts (u m) = facts m := by
  obtain ⟨⟨new, rfl⟩, -, hlength⟩ := rebuild_some h hb
  have hrev : rev ((view objects state.messages).map u) = rev (view objects state.messages) ↔
      ∀ m ∈ view objects state.messages, weight (u m) = weight m :=
    (rev_map_eq_iff fun m _ => hle m).2
  rw [shown_iff rfl, ← or_assoc]
  refine or_congr ?_ ?_
  · have hequals : ChatRoomState.Equals (objects ++ new)
        { state with messages := messages, error := none } state ↔
        rev ((view objects state.messages).map u) = rev (view objects state.messages) ∧
          state.error = none := by
      unfold ChatRoomState.Equals ChatRoomState.props
      simp only [hlength, hview, view_append h, Props.mk.injEq, true_and, and_true]
      exact and_congr_right fun _ => eq_comm
    rw [hequals, hrev, not_and_or, or_comm]
    simp only [not_forall, exists_prop]
  · unfold ChatRoomState.rendered
    simp only [hview, List.map_map, Rendered.mk.injEq, and_true]
    rw [List.map_inj_left]
    rfl

end Emissions

/-! ## The handlers of the chat -/

section Handlers

variable {S : Type} {lib : Libsignal S} {keys : KeyServer} {chat : Chat} {r : Room D}
  {now : Time} {answer : AiAnswer D}

theorem shown_unsent (id : String) :
    (emitMutated r.objects r.state id unsent).Shown r.objects r.state ↔
      r.Marks (some id) fun m => m.deleted = true ∧ m.content = none := by
  rw [shown_mutated isMark_unsent]
  unfold Room.Marks
  refine or_congr_right (forall₂_congr fun m _ => ?_)
  rw [Option.some.injEq]
  refine imp_congr_right fun _ => ?_
  unfold facts unsent
  simp only [Prod.mk.injEq, true_and, and_true]
  constructor
  · rintro ⟨hcontent, hdeleted⟩
    exact ⟨hdeleted.symm, hcontent.symm⟩
  · rintro ⟨hdeleted, hcontent⟩
    exact ⟨hcontent.symm, hdeleted.symm⟩

/-- A tick is shown when the mark leaves the ticks `P` as they are, and no others. -/
theorem shown_tick {tick : MessageTick → MessageTick} (ht : IsMark (withTick tick))
    {P : ChatMessage → Prop} (hP : ∀ m : ChatMessage, tick m.tick = m.tick ↔ P m) (f : Frame) :
    (onTick r.objects r.state tick f).Shown r.objects r.state ↔
      r.Marks (asStr (Json.get f "message_id")) P := by
  unfold onTick Room.Marks
  cases asStr (Json.get f "message_id") with
  | none => exact iff_of_true shown_quiet (.inr fun m _ hid => (by cases hid))
  | some id =>
    simp only
    rw [shown_mutated ht]
    refine or_congr_right (forall₂_congr fun m _ => ?_)
    rw [Option.some.injEq]
    refine imp_congr_right fun _ => ?_
    rw [← hP m]
    unfold facts withTick
    simp

theorem delivered_stays (m : ChatMessage) :
    (fun tick : MessageTick => if tick = .sent then .delivered else tick) m.tick = m.tick ↔
      m.tick ≠ .sent := by
  cases m.tick <;> simp

theorem read_stays (m : ChatMessage) :
    (fun tick : MessageTick => if tick = .sent ∨ tick = .delivered then .read else tick) m.tick =
      m.tick ↔ m.tick = .read := by
  cases m.tick <;> simp

/-- The bubble that takes the place of `m` when the ack `f` is well formed. -/
theorem confirm_cases (chat : Chat) (f : Frame) :
    (∀ m, confirm chat f m = none) ∨
      ∃ id createdAt, asStr (Json.get f "message_id") = some id ∧
        asDateTime (Json.get f "created_at") = some createdAt ∧
        ∀ m, confirm chat f m = some
          { id := id, senderId := chat.myId, content := m.content, createdAt := createdAt
            isMine := true } := by
  unfold confirm
  cases hid : asStr (Json.get f "message_id") with
  | none => exact .inl fun m => rfl
  | some id =>
    cases hcreated : asDateTime (Json.get f "created_at") with
    | none => exact .inl fun m => rfl
    | some createdAt => exact .inr ⟨id, createdAt, rfl, rfl, fun m => rfl⟩

theorem weight_eq_zero {m : ChatMessage} :
    weight m = 0 ↔ m.tick = .sent ∧ m.deleted = false ∧ m.pending = false := by
  unfold weight
  cases m.tick <;> cases m.deleted <;> cases m.pending <;> simp [MessageTick.index]

/-- An ack is shown when a weight is gone, or no id changes. -/
theorem shown_ack (h : r.Sound) (f : Frame) :
    (onAck chat r.objects r.state f).Shown r.objects r.state ↔ r.Acks f := by
  unfold onAck Room.Acks
  cases hclient : (Json.get f "client_ref").asOptStr with
  | none => exact iff_of_true shown_quiet (.inr (.inr fun m _ hm => (by cases hm)))
  | some ref =>
    simp only [Option.some.injEq]
    let update (m : ChatMessage) : Option (Option ChatMessage) :=
      if some m.id = ref then (confirm chat f m).map some else some none
    rcases confirm_cases chat f with hbad | ⟨id, createdAt, hid, hcreated, hconfirm⟩
    · -- nothing is replaced: no bubble goes by the ref, or the handler throws
      have hacks : ∀ m ∈ r.bubbles, ref = some m.id → ∀ id ∈ asStr (Json.get f "message_id"),
          (asDateTime (Json.get f "created_at")).isSome = true → id = m.id := by
        intro m _ _ id hid hcreated
        obtain ⟨createdAt, hcreated⟩ := Option.isSome_iff_exists.mp hcreated
        have := hbad m
        unfold confirm at this
        rw [Option.mem_def.mp hid, hcreated] at this
        cases this
      refine iff_of_true ?_ (.inr (.inr hacks))
      cases hb : rebuild update r.objects r.state.messages with
      | none => exact shown_quiet
      | some p =>
        have hview : view p.1 p.2 = (view r.objects r.state.messages).map fun m => m := by
          refine view_rebuild_some (fun m b hmem => ?_) h hb
          simp only [update, hbad] at hmem
          split_ifs at hmem
          · cases hmem
          · obtain rfl := Option.some.inj hmem
            rfl
        exact (shown_copied h hb hview fun _ => Nat.le_refl _).mpr (.inr (.inr fun _ _ => rfl))
    · -- the bubble that takes the place of another
      let u (m : ChatMessage) : ChatMessage :=
        if some m.id = ref then
          { id := id, senderId := chat.myId, content := m.content, createdAt := createdAt
            isMine := true }
        else m
      have hsome : (rebuild update r.objects r.state.messages).isSome = true := by
        refine rebuild_isSome fun m => ?_
        simp only [update, hconfirm]
        split_ifs <;> rfl
      obtain ⟨p, hb⟩ := Option.isSome_iff_exists.mp hsome
      have hview : view p.1 p.2 = (view r.objects r.state.messages).map u := by
        refine view_rebuild_some (fun m b hmem => ?_) h hb
        simp only [update, hconfirm] at hmem
        simp only [u]
        split_ifs at hmem ⊢
        · obtain rfl := Option.some.inj hmem
          rfl
        · obtain rfl := Option.some.inj hmem
          rfl
      have hweight : ∀ m, weight (u m) ≤ weight m := by
        intro m
        simp only [u]
        split_ifs
        · exact Nat.zero_le _
        · exact Nat.le_refl _
      simp only [update] at hb
      rw [hb]
      refine (shown_copied h hb hview hweight).trans (or_congr_right ?_)
      have hgone : ∀ m : ChatMessage, weight (u m) ≠ weight m ↔ ref = some m.id ∧ weight m ≠ 0 := by
        intro m
        simp only [u]
        by_cases hm : some m.id = ref
        · rw [if_pos hm]
          exact ⟨fun hne => ⟨hm.symm, fun hzero => hne hzero.symm⟩, fun hne => hne.2.symm⟩
        · rw [if_neg hm]
          exact ⟨fun hne => absurd rfl hne, fun hne => absurd hne.1.symm hm⟩
      simp only [hgone]
      by_cases hex : ∃ m ∈ r.bubbles, ref = some m.id ∧ weight m ≠ 0
      · exact iff_of_true (.inl hex) (.inl hex)
      · refine or_congr_right (forall₂_congr fun m hmem => ?_)
        rw [hid, hcreated]
        by_cases hm : ref = some m.id
        · have hzero : weight m = 0 := by
            by_contra hne
            exact hex ⟨m, hmem, hm, hne⟩
          obtain ⟨htick, hdeleted, hpending⟩ := weight_eq_zero.mp hzero
          simp [u, facts, hm, htick, hdeleted, hpending]
        · have hne : ¬ some m.id = ref := fun hm' => hm hm'.symm
          simp [u, hm, hne]

theorem shown_showMessage (f : Frame) (content : Option String) :
    (showMessage r.objects r.state f content).Shown r.objects r.state := by
  have hlist : { r.state with peerTyping := false }.messages = r.state.messages := rfl
  unfold showMessage
  split
  · exact shown_appended hlist _
  · exact shown_quiet

theorem shown_onMessage (f : Frame) :
    (onMessage chat r.objects r.state f).Shown r.objects r.state := by
  unfold onMessage
  split_ifs
  · split
    · exact shown_quiet
    · exact shown_quiet
  · split
    · exact shown_quiet
    · exact shown_showMessage f _
  · exact shown_quiet

theorem shown_onTyping (typing : Bool) (f : Frame) :
    (onTyping chat r.objects r.state typing f).Shown r.objects r.state := by
  unfold onTyping
  split_ifs
  · exact shown_of_rendered rfl
  · exact shown_quiet

theorem shown_onUnsend (f : Frame) :
    (onUnsend r.objects r.state f).Shown r.objects r.state ↔
      r.Marks (asStr (Json.get f "message_id")) fun m => m.deleted = true ∧ m.content = none := by
  unfold onUnsend
  cases asStr (Json.get f "message_id") with
  | none => exact iff_of_true shown_quiet (.inr fun m _ hid => (by cases hid))
  | some id => exact shown_unsent id

theorem shown_onReceipt (f : Frame) :
    (onReceipt r.objects r.state f).Shown r.objects r.state ↔
      match asStr (Json.get f "status") with
      | some "read" => r.Marks (asStr (Json.get f "message_id")) fun m => m.tick = .read
      | _ => r.Marks (asStr (Json.get f "message_id")) fun m => m.tick ≠ .sent := by
  unfold onReceipt
  by_cases hstatus : asStr (Json.get f "status") = some "read"
  · rw [hstatus]
    exact shown_tick (isMark_withTick (fun _ => .read) fun _ => rfl) (fun _ => eq_comm) f
  · simp only
    exact shown_tick isMark_delivered delivered_stays f

theorem shown_onFrame (h : r.Sound) (f : Frame) :
    (onFrame chat r.objects r.state f).Shown r.objects r.state ↔ r.Hears f := by
  unfold onFrame Room.Hears
  simp only
  by_cases hack : asStr (Json.get f "type") = some "ack"
  · rw [hack]
    exact shown_ack h f
  by_cases hmessage : asStr (Json.get f "type") = some "message"
  · rw [hmessage]
    exact iff_of_true (shown_onMessage f) trivial
  by_cases hreceipt : asStr (Json.get f "type") = some "receipt"
  · rw [hreceipt]
    exact shown_onReceipt f
  by_cases hdelivered : asStr (Json.get f "type") = some "delivered"
  · rw [hdelivered]
    exact shown_tick isMark_delivered delivered_stays f
  by_cases hread : asStr (Json.get f "type") = some "read"
  · rw [hread]
    exact shown_tick isMark_read read_stays f
  by_cases hstart : asStr (Json.get f "type") = some "typing_start"
  · rw [hstart]
    exact iff_of_true (shown_onTyping true f) trivial
  by_cases hstop : asStr (Json.get f "type") = some "typing_stop"
  · rw [hstop]
    exact iff_of_true (shown_onTyping false f) trivial
  by_cases hunsend : asStr (Json.get f "type") = some "unsend"
  · rw [hunsend]
    exact shown_onUnsend f
  simp only
  exact iff_of_true shown_quiet trivial

theorem shown_finish (ref : String) (ciphertext : Option String) (e : Content) :
    (finish chat r.objects r.state now ref ciphertext e).Shown r.objects r.state :=
  shown_appended rfl _

theorem shown_onContentSent (e : Content) :
    (onContentSent chat r.objects r.state r.refCounter now e).Shown r.objects r.state := by
  unfold onContentSent
  split_ifs
  · exact shown_quiet
  · exact shown_finish _ none e

theorem shown_resumeEncryption (ref : String) (e : Content) :
    (resumeEncryption lib chat r.objects r.state r.storage now ref e).Shown r.objects r.state := by
  unfold resumeEncryption
  split
  · exact shown_quiet
  · exact shown_finish ref _ e

theorem shown_resumeDecryption (f : Frame) (content : Option String) :
    (resumeDecryption lib chat r.objects r.state r.storage f content).Shown r.objects r.state := by
  unfold resumeDecryption
  split
  · exact shown_showMessage f content
  · exact shown_showMessage f _

theorem shown_resumeHistory (h : r.Sound) (history : Except String (List ChatMessage)) :
    (resumeHistory r.objects r.state history).Shown r.objects r.state ↔ r.Opens history := by
  cases history with
  | error err => exact iff_of_true (shown_of_rendered rfl) trivial
  | ok history =>
    have hview : view (r.objects ++ history) (fresh r.objects history.length) = history :=
      view_fresh history
    have hlength : r.bubbles.length = r.state.messages.length := length_view h
    have hequals : ChatRoomState.Equals (r.objects ++ history)
        { r.state with
          messages := fresh r.objects history.length
          loading := false
          error := none } r.state ↔
        r.state.loading = false ∧ r.state.error = none ∧ history.length = r.bubbles.length ∧
          rev history = rev r.bubbles := by
      unfold ChatRoomState.Equals ChatRoomState.props
      simp only [hview, view_append h, hlength, length_fresh, Props.mk.injEq, true_and, and_true]
      constructor
      · rintro ⟨hlen, hrev, hloading, herror⟩
        exact ⟨hloading.symm, herror.symm, hlen, hrev⟩
      · rintro ⟨hloading, herror, hlen, hrev⟩
        exact ⟨hlen, hrev, hloading.symm, herror.symm⟩
    unfold resumeHistory Room.Opens
    simp only
    rw [shown_iff rfl, hequals]
    unfold ChatRoomState.rendered
    simp only [hview, Rendered.mk.injEq, and_true, not_and_or, or_assoc, Bool.not_eq_false]
    rfl

/-! ## The handlers of the AI features -/

theorem update_some_eq {β : Type} {f : String → Option β} {k : String} {v : β} :
    Function.update f k (some v) = f ↔ f k = some v := by
  rw [Function.update_eq_self_iff]
  exact eq_comm

theorem shown_translationLoading (id : String) (loading : Bool) (error : Option String) :
    (emitTranslationLoading r.objects r.state id loading error).Shown r.objects r.state ↔
      r.state.error ≠ error ∨ r.state.translationLoading id = some loading := by
  refine (shown_maps _ _ _ _ _).trans (or_congr_right ?_)
  exact ⟨fun h => update_some_eq.mp h.2.1, fun h => ⟨rfl, update_some_eq.mpr h, rfl, rfl⟩⟩

theorem shown_moderationLoading (id : String) (loading : Bool) (error : Option String) :
    (emitModerationLoading r.objects r.state id loading error).Shown r.objects r.state ↔
      r.state.error ≠ error ∨ r.state.moderationLoading id = some loading := by
  refine (shown_maps _ _ _ _ _).trans (or_congr_right ?_)
  exact ⟨fun h => update_some_eq.mp h.2.2.2, fun h => ⟨rfl, rfl, rfl, update_some_eq.mpr h⟩⟩

theorem shown_handleAi (e : AiEvent D) :
    (handleAi r.objects r.state e).1.Shown r.objects r.state ↔ r.Notes e := by
  cases e with
  | translateMessageStarted id => exact shown_translationLoading id true none
  | translateMessageSuccess id translation =>
    refine (shown_maps _ _ _ _ _).trans (or_congr_right ?_)
    exact ⟨fun h => update_some_eq.mp h.1, fun h => ⟨update_some_eq.mpr h, rfl, rfl, rfl⟩⟩
  | translateMessageFailure id error => exact shown_translationLoading id false (some error)
  | moderateMessageStarted id => exact shown_moderationLoading id true none
  | moderateMessageSuccess id scores =>
    refine (shown_maps _ _ _ _ _).trans (or_congr_right ?_)
    exact ⟨fun h => update_some_eq.mp h.2.2.1, fun h => ⟨rfl, rfl, update_some_eq.mpr h, rfl⟩⟩
  | moderateMessageFailure id error => exact shown_moderationLoading id false (some error)
  | _ => exact iff_of_true (shown_of_rendered rfl) trivial

theorem shown_resumeSummaryTexts (history : Except String (List ChatMessage)) :
    (resumeSummaryTexts r.objects r.state history).1.Shown r.objects r.state := by
  cases history with
  | error err => exact shown_of_rendered rfl
  | ok messages =>
    unfold resumeSummaryTexts
    simp only
    split_ifs
    · exact shown_quiet
    · exact shown_of_rendered rfl

theorem shown_resumeRepliesContext (history : Except String (List ChatMessage)) :
    (resumeRepliesContext r.objects r.state history).1.Shown r.objects r.state := by
  cases history with
  | error err => exact shown_of_rendered rfl
  | ok messages =>
    unfold resumeRepliesContext
    simp only
    split_ifs
    · exact shown_of_rendered rfl
    · exact shown_quiet

theorem shown_resumeSummary (summary : Except String (Option String)) :
    (resumeSummary r.objects r.state summary).Shown r.objects r.state := by
  cases summary <;> exact shown_of_rendered rfl

theorem shown_resumeReplies (replies : Except String (List String)) :
    (resumeReplies r.objects r.state replies).Shown r.objects r.state := by
  cases replies <;> exact shown_of_rendered rfl

theorem shown_resumeTranslation (id : String) (translation : Except String (Option String)) :
    (resumeTranslation r.objects r.state id translation).Shown r.objects r.state ↔
      match translation with
      | .error err => r.state.error ≠ some err ∨ r.state.translationLoading id = some false
      | .ok translation =>
        r.state.error ≠ none ∨ r.state.translations id = some (translation.getD "") ∧
          r.state.translationLoading id = some false := by
  cases translation with
  | error err => exact shown_translationLoading id false (some err)
  | ok translation =>
    refine (shown_maps _ _ _ _ _).trans (or_congr_right ?_)
    constructor
    · rintro ⟨htranslation, hloading, -, -⟩
      exact ⟨update_some_eq.mp htranslation, update_some_eq.mp hloading⟩
    · rintro ⟨htranslation, hloading⟩
      exact ⟨update_some_eq.mpr htranslation, update_some_eq.mpr hloading, rfl, rfl⟩

theorem shown_resumeModeration (id : String) (scores : Except String (String → Option D)) :
    (resumeModeration r.objects r.state id scores).Shown r.objects r.state ↔
      match scores with
      | .error err => r.state.error ≠ some err ∨ r.state.moderationLoading id = some false
      | .ok scores =>
        r.state.error ≠ none ∨ r.state.moderationScores id = some scores ∧
          r.state.moderationLoading id = some false := by
  cases scores with
  | error err => exact shown_moderationLoading id false (some err)
  | ok scores =>
    refine (shown_maps _ _ _ _ _).trans (or_congr_right ?_)
    constructor
    · rintro ⟨-, -, hscores, hloading⟩
      exact ⟨update_some_eq.mp hscores, update_some_eq.mp hloading⟩
    · rintro ⟨hscores, hloading⟩
      exact ⟨rfl, rfl, update_some_eq.mpr hscores, update_some_eq.mpr hloading⟩

end Handlers

/-! ## Runs -/

section Runs

variable {S : Type} {lib : Libsignal S} {keys : KeyServer} {chat : Chat} {r : Room D}
  {a : Action D}

theorem shows_iff {p : Piece D} (hp : piece lib keys chat r a = some p) :
    Shows lib keys chat r a ↔ p.emission.Shown r.objects r.state := by
  constructor
  · exact fun h => h p hp
  · intro h q hq
    obtain rfl := Option.some.inj (hp.symm.trans hq)
    exact h

theorem shown_resumed (h : r.Sound) (answer : AiAnswer D) (w : Waiting) :
    (resumed lib keys chat r answer w).emission.Shown r.objects r.state ↔ r.Answers answer w := by
  cases w with
  | chat q =>
    cases q with
    | history => exact shown_resumeHistory h answer.history
    | session ref e => exact iff_of_true shown_quiet trivial
    | encryption ref e => exact iff_of_true (shown_resumeEncryption ref e) trivial
    | decryption f content => exact iff_of_true (shown_resumeDecryption f content) trivial
  | summaryTexts => exact iff_of_true (shown_resumeSummaryTexts answer.history) trivial
  | summary => exact iff_of_true (shown_resumeSummary answer.summary) trivial
  | repliesContext => exact iff_of_true (shown_resumeRepliesContext answer.history) trivial
  | replies => exact iff_of_true (shown_resumeReplies answer.replies) trivial
  | translation id => exact shown_resumeTranslation id answer.translation
  | moderation id => exact shown_resumeModeration id answer.scores

/-- A step shows its visible change if and only if it meets the condition. -/
theorem shows_iff_apart (h : r.Sound) : Shows lib keys chat r a ↔ Apart r a := by
  cases a with
  | event e now =>
    rw [shows_iff rfl]
    cases e with
    | chatOpened => exact iff_of_true shown_quiet trivial
    | contentSent e => exact iff_of_true (shown_onContentSent e) trivial
    | typingChanged typing => exact iff_of_true shown_quiet trivial
    | messageUnsent id => exact shown_unsent id
    | frameReceived f => exact shown_onFrame h f
  | aiEvent e =>
    rw [shows_iff rfl]
    exact shown_handleAi e
  | resume i answer =>
    cases hw : r.waiting[i]? with
    | none =>
      refine iff_of_true (fun p hp => ?_) (fun w hmem => ?_)
      · simp only [piece, hw] at hp
        cases hp
      · rw [hw] at hmem
        cases hmem
    | some w =>
      have hp : piece lib keys chat r (.resume i answer) =
          some (resumed lib keys chat r answer w) := by
        simp only [piece, hw]
        rfl
      rw [shows_iff hp, shown_resumed h]
      constructor
      · intro hanswers v hv
        obtain rfl := Option.some.inj (hw.symm.trans hv)
        exact hanswers
      · exact fun hall => hall w hw
  | store storage =>
    rw [shows_iff rfl]
    exact iff_of_true shown_quiet trivial

/-- The user opens the room, which shows a message of his. -/
def openRun : List (Action ℚ) :=
  [.event .chatOpened 0,
    .resume 0
      { history := .ok [⟨"m1", (7 : UUID).str, some "hi", 0, true, .sent, false, false⟩]
        fresh := ⟨"", ""⟩
        ephemeral := ⟨"", ""⟩
        now := 0
        summary := .error "offline"
        replies := .error "offline"
        translation := .error "offline"
        scores := .error "offline" }]

/-- The peer reads the message: the bubble turns to read in the state the bloc holds
    and in the one that is emitted, which are equal. -/
theorem read_swallowed :
    ¬ ∀ (lib : Libsignal String) (keys : KeyServer) (chat : Chat) (storage : Storage)
      (as : List (Action ℚ)) (m : Room ℚ) (a : Action ℚ) (m' : Room ℚ),
        Lib.Takes (step lib keys chat) (Room.init storage) as m a m' →
          Shows lib keys chat m a := by
  intro h
  let a : Action ℚ :=
    .event (.frameReceived [("type", .str "read"), ("message_id", .str "m1")]) 1
  have hshows := h sampleLib sampleKeys sampleChat (fun _ => none) (openRun ++ [a]) _ a _
    ⟨openRun, [], rfl, rfl, rfl⟩
  obtain ⟨s, hs, hne⟩ := hshows _ rfl fun hsame =>
    absurd (congrArg Rendered.bubbles hsame) (by decide +kernel)
  obtain rfl := Option.some.inj hs
  exact hne (by decide +kernel)

/-- **Visible changes.** In a run of a room every visible change leads to a state that
    is different if and only if every step meets the condition. -/
theorem changes_shown_iff {D S : Type} (lib : Libsignal S) (keys : KeyServer) (chat : Chat)
    (storage : Storage) (as : List (Action D)) (r : Room D)
    (hr : run (step lib keys chat) (Room.init storage) as = some r) :
    (∀ m a m', Lib.Takes (step lib keys chat) (Room.init storage) as m a m' →
        Shows lib keys chat m a) ↔
      Guarded (step lib keys chat) Apart (Room.init storage) as := by
  rw [← guarded_iff_takes hr]
  exact guarded_congr (fun m a m' h hs => step_sound h hs) (fun m a h => shows_iff_apart h)
    (init_sound storage)

/-- In the open room the user writes, and the server confirms. -/
def writeRun : List (Action ℚ) :=
  openRun ++ [.event (.contentSent (.textSent "hello")) 1,
    .event (.frameReceived [("type", .str "ack"), ("client_ref", .str "ref_1"),
      ("message_id", .str "m2"), ("created_at", .iso 1)]) 2]

/-- Nothing of `writeRun` is swallowed. -/
theorem writeRun_shows : ∃ r,
    run (step sampleLib sampleKeys sampleChat) (Room.init fun _ => none) writeRun = some r ∧
      r.bubbles.map facts =
        [("m1", some "hi", .sent, false, false), ("m2", some "hello", .sent, false, false)] ∧
      ∀ m a m', Lib.Takes (step sampleLib sampleKeys sampleChat) (Room.init fun _ => none)
        writeRun m a m' → Shows sampleLib sampleKeys sampleChat m a := by
  refine ⟨_, rfl, by decide +kernel, ?_⟩
  refine (changes_shown_iff sampleLib sampleKeys sampleChat _ writeRun _ rfl).mpr ?_
  refine ⟨trivial, fun s hs => ?_⟩
  obtain rfl := Option.some.inj hs
  refine ⟨fun w hw => ?_, fun s hs => ?_⟩
  · obtain rfl := Option.some.inj hw
    exact .inl rfl
  obtain rfl := Option.some.inj hs
  refine ⟨trivial, fun s hs => ?_⟩
  obtain rfl := Option.some.inj hs
  refine ⟨.inr (.inl ?_), fun s hs => trivial⟩
  exact ⟨optimistic sampleChat 1 "ref_1" "hello", by decide +kernel, by decide +kernel,
    by decide +kernel⟩

end Runs

end IronLink.Client.Equality
