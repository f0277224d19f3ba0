import IronLink.Client.Bubbles
import Mathlib.Data.List.Perm.Subperm

/-!
# The connection of a device

What is on its way between a device and the server. `chat_socket`
(app/api/routes/websocket.py:64-101) reads a frame once it has handled the one
before; `_relay_loop` (43-60) passes on what is published on the user's channel;
an exception ends both. The device has subscribed when it starts.

Results:
* `onWay_act`, `onWay_relay`, `onWay_takes`: what is on its way to the device is
  passed on, and never multiplied.
* `handled_frames`: the frames that the handling of a frame sends.
-/

namespace IronLink.Client

open Lib Messages Ws

/-! ## Model -/

/-- The connection of one device, which sends values of `κ`. -/
structure Line (κ : Type) where
  isOpen : Bool
  /-- sent, not yet read -/
  outbox : List κ
  /-- what the handler of the last frame has still to do -/
  running : List Effect
  /-- published on `chan:user:{user_id}`, not yet relayed -/
  channel : List Frame
  /-- on the socket to the device -/
  inbox : List Frame

variable {κ : Type}

/-- A connection on which nothing is on its way. -/
def Line.idle : Line κ := ⟨true, [], [], [], []⟩

/-- `_channel?.sink.add` (frontend/lib/core/ws_service.dart:57-59). -/
def Line.send (l : Line κ) (frames : List κ) : Line κ :=
  if l.isOpen then { l with outbox := l.outbox ++ frames } else l

/-- The end of `chat_socket`; what the socket still holds may arrive. -/
def Line.close (l : Line κ) : Line κ := ⟨false, [], [], [], l.inbox⟩

/-- The frame `chat_socket` reads next, and those behind it. -/
def Line.reads (l : Line κ) : Option (κ × List κ) :=
  match l.running, l.outbox with
  | [], call :: rest => some (call, rest)
  | _, _ => none

/-- The transaction of `_handle_frame` is over. -/
def Line.handled (l : Line κ) (rest : List κ) (r : Handled) : Line κ :=
  if r.raised then l.close else { l with outbox := rest, running := r.effects }

/-- `PUBLISH` on the user's channel. -/
def Line.publish (l : Line κ) (f : Frame) : Line κ :=
  if l.isOpen then { l with channel := l.channel ++ [f] } else l

/-- One turn of `_relay_loop`. -/
def Line.relay (l : Line κ) : Option (Line κ) :=
  match l.channel with
  | [] => none
  | f :: rest => some { l with channel := rest, inbox := l.inbox ++ [f] }

/-- The next thing the handler does. -/
def Line.performs (l : Line κ) : Option (Effect × Line κ) :=
  match l.running with
  | [] => none
  | effect :: rest => some (effect, { l with running := rest })

/-- An effect of the handler, as far as the device of `me` is concerned. -/
def Line.act (l : Line κ) (me : UUID) : Effect → Line κ
  | .send f => { l with inbox := l.inbox ++ [f] }
  | .publish userId f => if userId = me then l.publish f else l
  | .push _ _ _ _ => l

/-- The frame the device handles next. -/
def Line.takes (l : Line κ) : Option (Frame × Line κ) :=
  match l.inbox with
  | [] => none
  | f :: rest => some (f, { l with inbox := rest })

/-- Nothing is on its way. -/
def Line.Quiet (l : Line κ) : Prop :=
  l.outbox = [] ∧ l.running = [] ∧ l.channel = [] ∧ l.inbox = []

instance (l : Line κ) : Decidable l.Quiet :=
  inferInstanceAs (Decidable (l.outbox = [] ∧ l.running = [] ∧ l.channel = [] ∧ l.inbox = []))

/-! ## What is on its way to the device -/

/-- The frame an effect puts on a socket or a channel. -/
def effectFrame : Effect → Option Frame
  | .send f => some f
  | .publish _ f => some f
  | .push _ _ _ _ => none

/-- The frame an effect publishes on the channel of `me`. -/
def publishes (me : UUID) : Effect → Option Frame
  | .publish userId f => if userId = me then some f else none
  | _ => none

/-- The frame an effect of its own handler sends the device of `me`. -/
def reaches (me : UUID) : Effect → Option Frame
  | .send f => some f
  | effect => publishes me effect

/-- The frames on their way to the device of `me`. -/
def Line.onWay (l : Line κ) (me : UUID) : List Frame :=
  l.running.filterMap (reaches me) ++ (l.channel ++ l.inbox)

variable {l l' : Line κ} {me : UUID}

theorem onWay_send (frames : List κ) : (l.send frames).onWay me = l.onWay me := by
  unfold Line.send
  split_ifs <;> rfl

theorem onWay_close : (l.close.onWay me).Subperm (l.onWay me) := by
  show ([] ++ ([] ++ l.inbox)).Subperm (_ ++ (_ ++ l.inbox))
  rw [List.nil_append, List.nil_append, ← List.append_assoc]
  exact (List.sublist_append_right _ _).subperm

theorem onWay_publish (f : Frame) : ((l.publish f).onWay me).Subperm (f :: l.onWay me) := by
  unfold Line.publish
  split_ifs
  · show (_ ++ (l.channel ++ [f] ++ l.inbox)).Subperm _
    rw [List.append_assoc, ← List.append_assoc, List.singleton_append]
    refine List.perm_middle.subperm.trans ?_
    rw [List.append_assoc]
    exact .refl _
  · exact (List.sublist_cons_self f _).subperm

theorem onWay_relay (h : l.relay = some l') : (l'.onWay me).Perm (l.onWay me) := by
  unfold Line.relay at h
  split at h
  · cases h
  · next f rest hchannel =>
    obtain rfl := Option.some.inj h
    show (_ ++ (rest ++ (l.inbox ++ [f]))).Perm (_ ++ (l.channel ++ l.inbox))
    rw [hchannel, ← List.append_assoc rest]
    refine List.Perm.append_left _ ?_
    exact List.perm_append_comm.trans (List.Perm.refl _)

theorem onWay_takes {f : Frame} (h : l.takes = some (f, l')) :
    (l.onWay me).Perm (f :: l'.onWay me) := by
  unfold Line.takes at h
  split at h
  · cases h
  · next g rest hinbox =>
    obtain ⟨rfl, rfl⟩ := Prod.mk.inj (Option.some.inj h)
    show (_ ++ (l.channel ++ l.inbox)).Perm (_ :: (_ ++ (l.channel ++ rest)))
    rw [hinbox, ← List.append_assoc, ← List.append_assoc]
    exact List.perm_middle

theorem onWay_act {effect : Effect} (h : l.performs = some (effect, l')) :
    ((l'.act me effect).onWay me).Subperm (l.onWay me) := by
  unfold Line.performs at h
  split at h
  · cases h
  · next first rest hrunning =>
    obtain ⟨rfl, rfl⟩ := Prod.mk.inj (Option.some.inj h)
    have hway : l.onWay me = (reaches me first).toList ++
        ({ l with running := rest } : Line κ).onWay me := by
      unfold Line.onWay
      rw [hrunning]
      cases hreaches : reaches me first with
      | none => rw [List.filterMap_cons_none hreaches]; rfl
      | some f => rw [List.filterMap_cons_some hreaches]; rfl
    rw [hway]
    cases first with
    | send f =>
      show (_ ++ (l.channel ++ (l.inbox ++ [f]))).Subperm (f :: _)
      rw [← List.append_assoc l.channel, ← List.append_assoc]
      exact List.perm_append_comm.subperm
    | publish userId f =>
      simp only [Line.act, reaches, publishes]
      split_ifs with hme
      · exact onWay_publish f
      · exact .refl _
    | push fcmToken title body peerId => exact .refl _

theorem outbox_act {effect : Effect} (h : l.performs = some (effect, l')) :
    (l'.act me effect).outbox = l.outbox := by
  unfold Line.performs at h
  split at h
  · cases h
  · obtain ⟨rfl, rfl⟩ := Prod.mk.inj (Option.some.inj h)
    unfold Line.act Line.publish
    split <;> (try split_ifs) <;> rfl

theorem outbox_publish (f : Frame) : (l.publish f).outbox = l.outbox := by
  unfold Line.publish
  split_ifs <;> rfl

theorem outbox_relay (h : l.relay = some l') : l'.outbox = l.outbox := by
  unfold Line.relay at h
  split at h
  · cases h
  · obtain rfl := Option.some.inj h
    rfl

theorem outbox_takes {f : Frame} (h : l.takes = some (f, l')) : l'.outbox = l.outbox := by
  unfold Line.takes at h
  split at h
  · cases h
  · obtain ⟨-, rfl⟩ := Prod.mk.inj (Option.some.inj h)
    rfl

theorem outbox_reads {call : κ} {rest : List κ} (h : l.reads = some (call, rest)) :
    l.outbox = call :: rest := by
  unfold Line.reads at h
  split at h
  · next call' rest' hrunning houtbox =>
    obtain ⟨rfl, rfl⟩ := Prod.mk.inj (Option.some.inj h)
    exact houtbox
  · cases h

theorem outbox_handled (l : Line κ) (rest : List κ) (r : Handled) :
    (l.handled rest r).outbox.Sublist rest := by
  unfold Line.handled
  split_ifs
  · exact List.nil_sublist rest
  · exact List.Sublist.refl rest

theorem onWay_handled {call : κ} {rest : List κ} (h : l.reads = some (call, rest)) (r : Handled) :
    ((l.handled rest r).onWay me).Subperm (r.effects.filterMap (reaches me) ++ l.onWay me) := by
  unfold Line.reads at h
  split at h
  · next call' rest' hrunning houtbox =>
    unfold Line.handled
    split_ifs
    · exact onWay_close.trans (List.sublist_append_right _ _).subperm
    · show (_ ++ (l.channel ++ l.inbox)).Subperm _
      unfold Line.onWay
      rw [hrunning]
      exact .refl _
  · cases h

/-- What else is on its way stays on its way. -/
theorem others_onWay_handled {call : κ} {rest : List κ} (others : List Frame)
    (h : l.reads = some (call, rest)) (r : Handled) :
    (others ++ (l.handled rest r).onWay me).Subperm
      (r.effects.filterMap (reaches me) ++ (others ++ l.onWay me)) := by
  refine ((List.subperm_append_left others).mpr (onWay_handled h r)).trans ?_
  exact (List.perm_append_comm_assoc _ _ _).subperm

/-- A frame of another handler goes into the channel. -/
theorem others_onWay_publish {others : List Frame} {k : ℕ} {f : Frame}
    (h : others[k]? = some f) :
    (others.eraseIdx k ++ (l.publish f).onWay me).Subperm (others ++ l.onWay me) := by
  refine ((List.subperm_append_left _).mpr (onWay_publish f)).trans ?_
  obtain ⟨hk, rfl⟩ := List.getElem?_eq_some_iff.mp h
  refine List.perm_middle.subperm.trans ?_
  exact ((List.getElem_cons_eraseIdx_perm hk).append_right (l.onWay me)).subperm

theorem effectFrame_of_publishes {effect : Effect} {f : Frame} (h : f ∈ publishes me effect) :
    f ∈ effectFrame effect := by
  cases effect with
  | send g => cases h
  | publish userId g =>
    simp only [publishes] at h
    split_ifs at h
    · exact h
    · cases h
  | push fcmToken title body peerId => cases h

theorem effectFrame_of_reaches {effect : Effect} {f : Frame} (h : f ∈ reaches me effect) :
    f ∈ effectFrame effect := by
  cases effect with
  | send g => exact h
  | publish userId g => exact effectFrame_of_publishes h
  | push fcmToken title body peerId => cases h

/-- The frames of a content frame: those of the pushes, the `ack` and the message. -/
theorem frame_of_content {effects pushes : List Effect} {toId : UUID} {ack message : Frame}
    (heffects : effects = pushes ++ [.send ack, .publish toId message]) {effect : Effect}
    {f : Frame} (heffect : effect ∈ effects) (hf : f ∈ effectFrame effect) :
    (∃ push ∈ pushes, f ∈ effectFrame push) ∨ f = ack ∨ f = message := by
  rw [heffects] at heffect
  obtain heffect | heffect := List.mem_append.mp heffect
  · exact .inl ⟨effect, heffect, hf⟩
  right
  obtain rfl | heffect := List.mem_cons.mp heffect
  · exact .inl (Option.some.inj hf).symm
  · obtain rfl := List.mem_singleton.mp heffect
    exact .inr (Option.some.inj hf).symm

theorem frame_of_reaches {effects : List Effect} {f : Frame}
    (h : f ∈ effects.filterMap (reaches me)) : ∃ effect ∈ effects, f ∈ effectFrame effect := by
  obtain ⟨effect, heffect, hreaches⟩ := List.mem_filterMap.mp h
  exact ⟨effect, heffect, effectFrame_of_reaches hreaches⟩

/-! ## What a handled frame sends -/

/-- A frame of the server that confirms nothing, and brings no message of the peer. -/
structure Calm (chat : Chat) (f : Frame) : Prop where
  server : ServerFrame f
  heard : chat.heard f = none
  noAck : ∀ frame msg, f ≠ ackFrame frame msg

variable {chat : Chat} {w : World} {userId : UUID} {fresh : NewRow} {frame : Frame} {r : Handled}

theorem Calm.of_type {f : Frame} {t : String} (hserver : ServerFrame f)
    (htype : Json.get f "type" = .str t) (hmessage : t ≠ "message") (hack : t ≠ "ack") :
    Calm chat f := by
  refine ⟨hserver, if_neg fun h => ?_, fun frame msg heq => ?_⟩
  · rw [htype] at h
    exact hmessage (Option.some.inj h.1)
  · rw [heq] at htype
    exact hack (Json.str.inj htype).symm

theorem calm_notice {f : Frame} (h : IsNotice f) : Calm chat f := by
  obtain ⟨t, ht, htype⟩ := h
  have hother : ∀ t ∈ noticeTypes, t ≠ "message" ∧ t ≠ "ack" := by decide
  exact .of_type (.notice f ⟨t, ht, htype⟩) htype (hother t ht).1 (hother t ht).2

theorem calm_unsendEvent (messageId : UUID) : Calm chat (unsendEvent messageId) :=
  .of_type (.unsend messageId) rfl (by decide) (by decide)

theorem calm_of_isNotice {effect : Effect} (h : effect.IsNotice) :
    ∀ f ∈ effectFrame effect, Calm chat f := by
  intro f hf
  cases effect with
  | send g => exact Option.some.inj hf ▸ calm_notice h
  | publish userId g => exact Option.some.inj hf ▸ calm_notice h
  | push fcmToken title body peerId => cases hf

/-- A message of somebody else. -/
theorem calm_messageFrame {msg : Message} {content : Option String}
    (hcontent : (Json.get frame "content").asOptStr = some content)
    (hfrom : userId.str ≠ chat.peerId) : Calm chat (messageFrame frame userId msg) := by
  refine ⟨.message frame userId msg content hcontent, ?_, fun frame' msg' h => ?_⟩
  · rw [heard_messageFrame, if_neg hfrom]
  · have htype := congrArg (fun f => asStr (Json.get f "type")) h
    exact absurd (Option.some.inj htype) (by decide)

/-- A frame is a message that is acknowledged and published, or makes no `ack` and
    no `message`. -/
inductive Handling (w : World) (userId : UUID) (fresh : NewRow) (frame : Frame) (r : Handled) : Prop
  | content (messageType : MessageType) (toId : UUID) (msg : Message) (content : Option String)
      (pushes : List Effect)
      (htype : branchOf (Json.get frame "type") = .content messageType)
      (hto : uuidOrNone (Json.get frame "to") = some toId)
      (hcontent : (Json.get frame "content").asOptStr = some content)
      (hid : msg.id = fresh) (hsender : msg.senderId = some userId)
      (hfresh : w.messages.byId fresh = none)
      (hrows : r.world.messages = w.messages ++ [msg])
      (hpushes : ∀ chat, ∀ effect ∈ pushes, ∀ f ∈ effectFrame effect, Calm chat f)
      (heffects : r.effects =
        pushes ++ [.send (ackFrame frame msg), .publish toId (messageFrame frame userId msg)])
      (hraised : r.raised = false)
  | calm (hrows : ∀ id, w.messages.byId id = none → r.world.messages.byId id = none)
      (h : ∀ chat, ∀ effect ∈ r.effects, ∀ f ∈ effectFrame effect, Calm chat f)

theorem handling (w : World) (userId : UUID) (connectionId : String) (fresh : NewRow)
    (frame : Frame) :
    Handling w userId fresh frame (handleFrame w userId connectionId fresh frame) := by
  have hmodify : ∀ {f : Message → Message} (_ : ∀ msg, (f msg).id = msg.id) (k id : UUID),
      w.messages.byId id = none →
        MessageRows.byId (Table.modify Message.id w.messages k f) id = none := by
    intro f hf k id hnone
    unfold MessageRows.byId at hnone ⊢
    rw [Table.find_modify hf, hnone, Option.map_none]
  have houtcome := handleFrame_outcome w userId connectionId fresh frame
  generalize handleFrame w userId connectionId fresh frame = r at houtcome
  cases houtcome with
  | quiet presence effects raised hnotice =>
    exact .calm (fun _ h => h) fun chat effect heffect => calm_of_isNotice (hnotice effect heffect)
  | content messageType toId msg pushes htype hto hmsg hfresh hnotice =>
    obtain ⟨content, _, _, _, hcontent, -, -, -, rfl⟩ := contentRow_some hmsg
    exact .content messageType toId _ content pushes htype hto hcontent rfl rfl hfresh rfl
      (fun chat effect heffect => calm_of_isNotice (hnotice effect heffect)) rfl rfl
  | receipt messageId f effects hf hnotice =>
    refine .calm ?_ fun chat effect heffect => calm_of_isNotice (hnotice effect heffect)
    obtain rfl | rfl := hf
    · exact hmodify (deliver_id w.now) messageId
    · exact hmodify (read_id w.now) messageId
  | retract messageId msg htype hid hmsg howner hwindow =>
    refine .calm (hmodify (retract_id w.now) messageId) fun chat effect heffect f hf => ?_
    have heq : f = unsendEvent messageId := by
      obtain heffect | heffect := List.mem_append.mp heffect
      · obtain ⟨_, -, rfl⟩ := List.mem_map.mp heffect
        exact (Option.some.inj hf).symm
      · rw [List.mem_singleton.mp heffect] at hf
        exact (Option.some.inj hf).symm
    rw [heq]
    exact calm_unsendEvent messageId

end IronLink.Client
