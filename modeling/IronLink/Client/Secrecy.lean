import IronLink.Client.ChatBloc

/-!
# What a secret chat reveals

Two runs of the handler of a text or a media message in a secret chat, with
events that differ in what the user wrote. libsignal is opaque: the runs are
compared under the assumption that `encryptMessage` answers the same in both.

Results:
* `secret_frames`: a secret chat sends one frame when the encryption succeeds,
  and none when it throws.
* `caption_in_clear`: the frame of a media message carries the caption beside
  the ciphertext.
* `silent_without_session`: without a session nothing is sent, since the key
  agreement stores none.
* `secret_frames_eq_iff`: the frames of the two runs are equal if and only if
  the captions are, or the encryption throws.
-/

namespace IronLink.Client

open Ws

variable {S : Type} (lib : Libsignal S) (keys : KeyServer) (chat : Chat)

/-! ## Two runs of a handler -/

/-- What a handler finds when it starts or goes on; other handlers have run in
    between. -/
structure Moment where
  bloc : ChatBloc
  storage : Storage
  answer : Answer

/-- The frames of a handler that waits for `p` and finds `ms` at its awaits. -/
def framesOf : Option Pending → List Moment → List Frame
  | none, _ => []
  | some _, [] => []
  | some p, m :: ms =>
    let s := resume lib keys chat m.bloc m.storage m.answer p
    s.calls.map WsCall.frame ++ framesOf s.next ms

/-- The frames the handler of an event hands to `WsService`. -/
def handlerFrames (m : Moment) (ms : List Moment) (e : ChatEvent) : List Frame :=
  let s := handle chat m.bloc m.storage m.answer.now e
  s.calls.map WsCall.frame ++ framesOf lib keys chat s.next ms

/-- The events differ in content, caption and media key only. -/
def Content.SameBut : Content → Content → Prop
  | .textSent _, .textSent _ => True
  | .mediaSent kind _ mimeType _, .mediaSent kind' _ mimeType' _ =>
    kind = kind' ∧ mimeType = mimeType'
  | _, _ => False

/-- The caption of a media message. -/
def Content.caption : Content → Option String
  | .textSent _ => none
  | .mediaSent _ _ _ caption => caption

/-- What `encryptMessage` answers to the plaintext of `e`. -/
def answerOf (storage : Storage) (e : Content) : Except String String :=
  (encryptMessage lib chat.myId storage e.plaintext chat.peerId).1

/-- The room of user 7 with user 1, as a secret chat. -/
def secretChat : Chat := ⟨(7 : UUID).str, (1 : UUID).str, true⟩

/-- A session with the peer is stored. -/
def sampleMoment : Moment :=
  { bloc := ⟨ChatRoomState.init, 0⟩
    storage := Storage.write (fun _ => none) (sessionSlot (7 : UUID).str (1 : UUID).str) "s"
    answer := ⟨.ok [], ⟨"", ""⟩, ⟨"", ""⟩, 0⟩ }

/-- Two pictures with different captions and the same ciphertext. -/
theorem caption_in_clear :
    ¬ ∀ (lib : Libsignal String) (keys : KeyServer) (chat : Chat) (m m₁ m₂ : Moment)
      (e e' : Content),
      chat.isSecret = true → e.SameBut e' →
        answerOf lib chat m₂.storage e = answerOf lib chat m₂.storage e' →
          handlerFrames lib keys chat m [m₁, m₂] (.contentSent e) =
            handlerFrames lib keys chat m [m₁, m₂] (.contentSent e') := by
  intro h
  have hframes := h sampleLib sampleKeys secretChat sampleMoment sampleMoment sampleMoment
    (.mediaSent "image" "photo" "image/png" (some "meet at dawn"))
    (.mediaSent "image" "photo" "image/png" (some "hello")) rfl ⟨rfl, rfl⟩ (by decide +kernel)
  have hcaptions := congrArg (List.map fun f => asStr (Json.get f "content")) hframes
  revert hcaptions
  decide +kernel

/-! ## The frame of a secret chat -/

/-- The frame that carries a ciphertext. -/
def sealedFrame (ref ciphertext : String) : Content → Frame
  | .textSent _ => sendText chat.peerId ciphertext ref
  | .mediaSent kind _ mimeType caption => sendMedia chat.peerId kind "" mimeType caption ref

variable {lib keys chat} {m m₁ m₂ m₁' m₂' : Moment} {e e' : Content}

theorem finish_frames (bloc : ChatBloc) (storage : Storage) (now : Time) (ref ciphertext : String)
    (e : Content) :
    (e.finish chat bloc storage now ref (some ciphertext)).calls.map WsCall.frame =
      [sealedFrame chat ref ciphertext e] := by
  cases e with
  | textSent content => rfl
  | mediaSent kind mediaKey mimeType caption => rfl

theorem resumeEncryption_frames (bloc : ChatBloc) (storage : Storage) (now : Time) (ref : String)
    (e : Content) :
    (resumeEncryption lib chat bloc storage now ref e).calls.map WsCall.frame =
      match answerOf lib chat storage e with
      | .error _ => []
      | .ok ciphertext => [sealedFrame chat ref ciphertext e] := by
  unfold resumeEncryption answerOf
  split <;> rename_i henc
  · rw [henc]
    rfl
  · rw [henc]
    exact finish_frames ..

theorem framesOf_nil (p : Option Pending) : framesOf lib keys chat p [] = [] := by
  cases p with
  | none => rfl
  | some p => rfl

/-- A secret chat sends one frame when the encryption succeeds. -/
theorem secret_frames (hsecret : chat.isSecret = true) (m m₁ m₂ : Moment) (e : Content) :
    handlerFrames lib keys chat m [m₁, m₂] (.contentSent e) =
      match answerOf lib chat m₂.storage e with
      | .error _ => []
      | .ok ciphertext =>
        [sealedFrame chat ("ref_" ++ toString (m.bloc.refCounter + 1)) ciphertext e] := by
  rw [← resumeEncryption_frames m₂.bloc m₂.storage m₂.answer.now]
  simp only [handlerFrames, handle, onContentSent, hsecret, if_true, ChatBloc.leave, framesOf,
    resume, resumeSession, List.map_nil, List.nil_append]
  rw [framesOf_nil, List.append_nil]

theorem Content.SameBut.sealedFrame_iff (h : e.SameBut e') (ref ciphertext : String) :
    sealedFrame chat ref ciphertext e = sealedFrame chat ref ciphertext e' ↔
      e.caption = e'.caption := by
  cases e with
  | textSent content =>
    cases e' with
    | textSent content' => exact iff_of_true rfl rfl
    | mediaSent kind' mediaKey' mimeType' caption' => cases h
  | mediaSent kind mediaKey mimeType caption =>
    cases e' with
    | textSent content' => cases h
    | mediaSent kind' mediaKey' mimeType' caption' =>
      obtain ⟨rfl, rfl⟩ := h
      constructor
      · intro hframe
        have hcontent : (Json.ofOptStr caption).asOptStr = (Json.ofOptStr caption').asOptStr :=
          congrArg (fun f => (Json.get f "content").asOptStr) hframe
        rw [Json.asOptStr_ofOptStr, Json.asOptStr_ofOptStr] at hcontent
        exact Option.some.inj hcontent
      · intro hcaption
        show sendMedia _ _ _ _ caption _ = sendMedia _ _ _ _ caption' _
        rw [show caption = caption' from hcaption]

/-- Nothing is sent when there is no session or the encryption throws. -/
theorem silent_of_error (hsecret : chat.isSecret = true) (m m₁ m₂ : Moment) (e : Content)
    (h : loadSession lib chat.myId m₂.storage chat.peerId = none ∨
      ∃ err, answerOf lib chat m₂.storage e = .error err) :
    handlerFrames lib keys chat m [m₁, m₂] (.contentSent e) = [] := by
  have herror : ∃ err, answerOf lib chat m₂.storage e = .error err := by
    rcases h with hload | herr
    · exact ⟨noSession chat.peerId, encryptMessage_noSession hload⟩
    · exact herr
  obtain ⟨err, herr⟩ := herror
  rw [secret_frames hsecret, herr]

/-- Setting up a session stores what the key agreement stores. -/
theorem establishSession_storage (storage : Storage) (answer : Answer) :
    (establishSession lib keys chat storage answer).2 =
      (performX3DH lib keys chat.myId answer.fresh answer.ephemeral storage chat.peerId).2 := by
  unfold establishSession
  split <;> rename_i hx <;> rw [hx]

/-- Nothing is sent without a session when no other handler stores one: the key
    agreement leaves none behind. -/
theorem silent_without_session (hsecret : chat.isSecret = true) (m m₁ : Moment) (bloc : ChatBloc)
    (answer : Answer) (ref : String) (e : Content)
    (h : loadSession lib chat.myId m₁.storage chat.peerId = none) :
    handlerFrames lib keys chat m
      [m₁, ⟨bloc, (resumeSession lib keys chat m₁.bloc m₁.storage m₁.answer ref e).storage, answer⟩]
      (.contentSent e) = [] := by
  refine silent_of_error hsecret _ _ _ _ (.inl ?_)
  simp only [resumeSession, h, Option.isSome_none, Bool.false_eq_true, if_false, ChatBloc.leave]
  rw [establishSession_storage, performX3DH_session, h]

/-- **What a secret chat reveals.** When `encryptMessage` answers the same to
    two events that differ in content, caption and media key, the handlers send
    the same frames if and only if the captions are equal or the encryption
    throws. When it throws, or there is no session, they send nothing. -/
theorem secret_frames_eq_iff (lib : Libsignal S) (keys : KeyServer) (chat : Chat)
    (m m₁ m₂ m₁' m₂' : Moment) (e e' : Content) (hsecret : chat.isSecret = true)
    (hsame : e.SameBut e')
    (henc : answerOf lib chat m₂.storage e = answerOf lib chat m₂'.storage e') :
    (handlerFrames lib keys chat m [m₁, m₂] (.contentSent e) =
        handlerFrames lib keys chat m [m₁', m₂'] (.contentSent e') ↔
      (∃ err, answerOf lib chat m₂.storage e = .error err) ∨ e.caption = e'.caption) ∧
    ((loadSession lib chat.myId m₂.storage chat.peerId = none ∨
        ∃ err, answerOf lib chat m₂.storage e = .error err) →
      handlerFrames lib keys chat m [m₁, m₂] (.contentSent e) = []) := by
  refine ⟨?_, silent_of_error hsecret m m₁ m₂ e⟩
  rw [secret_frames hsecret, secret_frames hsecret, ← henc]
  cases answerOf lib chat m₂.storage e with
  | error err => simp
  | ok ciphertext =>
    simp only [List.cons.injEq, and_true, reduceCtorEq, exists_false, false_or]
    exact hsame.sealedFrame_iff _ _

/-- Two texts, and the session of `sampleMoment`. -/
theorem secret_texts_eq :
    secretChat.isSecret = true ∧
      handlerFrames sampleLib sampleKeys secretChat sampleMoment [sampleMoment, sampleMoment]
          (.contentSent (.textSent "meet at dawn")) =
        handlerFrames sampleLib sampleKeys secretChat sampleMoment [sampleMoment, sampleMoment]
          (.contentSent (.textSent "hello")) := by
  refine ⟨rfl, ?_⟩
  exact (secret_frames_eq_iff sampleLib sampleKeys secretChat sampleMoment sampleMoment sampleMoment
    sampleMoment sampleMoment (.textSent "meet at dawn") (.textSent "hello") rfl trivial
    (by decide +kernel)).1.mpr (.inr rfl)

end IronLink.Client
