import IronLink.Client.ChatBloc
import IronLink.Lib.Heap

/-!
# The chat room over shared objects

`ChatBloc` with what `ChatBloc.lean` leaves out: the `ChatMessage` objects that the
states share and the handlers change in place, the fields of the AI features, and
`emit`, which drops a state that equals the one the bloc holds.

`m.content.isNotEmpty` on a `String?` is read as false on null.
-/

namespace IronLink.Client.Equality

open Lib Lib.Heap

/-! ## States -/

/-- `ChatRoomState` (chat_bloc.dart:167-200); `D` stands for `double`. -/
structure ChatRoomState (D : Type) where
  messages : List Ref := []
  peerTyping : Bool := false
  loading : Bool := true
  error : Option String := none
  summary : String := ""
  summaryLoading : Bool := false
  smartReplies : List String := []
  smartRepliesLoading : Bool := false
  translations : String → Option String := fun _ => none
  translationLoading : String → Option Bool := fun _ => none
  moderationScores : String → Option (String → Option D) := fun _ => none
  moderationLoading : String → Option Bool := fun _ => none

/-- `ChatRoomState._rev` (chat_bloc.dart:237-238). -/
def rev (messages : List ChatMessage) : ℕ :=
  messages.foldl (fun acc m =>
    acc + m.tick.index + (if m.deleted then 100 else 0) + (if m.pending then 1000 else 0)) 0

variable {D : Type}

/-- The fields that `ChatRoomState.props` lists (chat_bloc.dart:231-233). -/
structure Props where
  length : ℕ
  rev : ℕ
  peerTyping : Bool
  loading : Bool
  error : Option String
  summary : String
  summaryLoading : Bool
  smartReplies : List String
  smartRepliesLoading : Bool
  deriving DecidableEq

/-- `ChatRoomState.props` while the objects are `objects`. -/
def ChatRoomState.props (objects : List ChatMessage) (s : ChatRoomState D) : Props :=
  { length := s.messages.length
    rev := rev (view objects s.messages)
    peerTyping := s.peerTyping
    loading := s.loading
    error := s.error
    summary := s.summary
    summaryLoading := s.summaryLoading
    smartReplies := s.smartReplies
    smartRepliesLoading := s.smartRepliesLoading }

/-- `==` of `Equatable` while the objects are `objects`. -/
def ChatRoomState.Equals (objects : List ChatMessage) (s t : ChatRoomState D) : Prop :=
  s.props objects = t.props objects

instance (objects : List ChatMessage) (s t : ChatRoomState D) : Decidable (s.Equals objects t) :=
  inferInstanceAs (Decidable (s.props objects = t.props objects))

/-- What a piece of a handler does to the objects, and the state it emits. -/
structure Emission (D : Type) where
  objects : List ChatMessage
  state : Option (ChatRoomState D)

/-- The AI events (chat_bloc.dart:70-166). -/
inductive AiEvent (D : Type)
  | fetchSummaryStarted
  | fetchSummarySuccess (summary : String)
  | fetchSummaryFailure (error : String)
  | generateSmartRepliesStarted
  | generateSmartRepliesSuccess (replies : List String)
  | generateSmartRepliesFailure (error : String)
  | translateMessageStarted (messageId : String)
  | translateMessageSuccess (messageId translation : String)
  | translateMessageFailure (messageId error : String)
  | moderateMessageStarted (messageId : String)
  | moderateMessageSuccess (messageId : String) (scores : String → Option D)
  | moderateMessageFailure (messageId error : String)

/-- What a handler waits for. -/
inductive Waiting
  | chat (p : Pending)
  /-- `_repo.history` of `_onFetchSummaryStarted` -/
  | summaryTexts
  /-- `http.post` of the four handlers -/
  | summary
  /-- `_repo.history` of `_onGenerateSmartRepliesStarted` -/
  | repliesContext
  | replies
  | translation (messageId : String)
  | moderation (messageId : String)

/-- What the awaited calls take from outside. An exception is its `toString()`, a
    `post` its decoded answer. -/
structure AiAnswer (D : Type) extends Answer where
  summary : Except String (Option String)
  replies : Except String (List String)
  translation : Except String (Option String)
  scores : Except String (String → Option D)

/-! ## The handlers of the chat -/

section Chat

variable {S : Type} (lib : Libsignal S) (chat : Chat) (objects : List ChatMessage)
  (state : ChatRoomState D) (storage : Storage)

/-- Nothing is emitted. -/
def quiet : Emission D := ⟨objects, none⟩

/-- `emit(state.copyWith(messages: [...state.messages, m]))`; `m` is a new object. -/
def emitAppended (m : ChatMessage) : Emission D :=
  ⟨objects ++ [m],
    some { state with messages := state.messages ++ fresh objects 1, error := none }⟩

/-- `for (final m in updated.where((m) => m.id == id)) …` on a copy of the list,
    which is emitted. -/
def emitMutated (id : String) (f : ChatMessage → ChatMessage) : Emission D :=
  ⟨mutate (fun m => if m.id = id then f m else m) objects state.messages,
    some { state with error := none }⟩

/-- `m.deleted = true; m.content = null`. -/
def unsent (m : ChatMessage) : ChatMessage := { m with deleted := true, content := none }

/-- The content of the optimistic bubble (chat_bloc.dart:317, 342, 361 and 385). -/
def shownContent (ciphertext : Option String) : Content → String
  | .textSent content => ciphertext.getD content
  | .mediaSent kind _ _ caption => ciphertext.getD (caption.getD ("[" ++ kind ++ "]"))

/-- The end of `_onTextSent` and of `_onMediaSent` (chat_bloc.dart:345-357 and 388-407). -/
def finish (now : Time) (ref : String) (ciphertext : Option String) (e : Content) : Emission D :=
  emitAppended objects state (optimistic chat now ref (shownContent ciphertext e))

/-- `_onTextSent` and `_onMediaSent` up to the first `await` (chat_bloc.dart:315-321
    and 359-366). -/
def onContentSent (refCounter : ℕ) (now : Time) (e : Content) : Emission D :=
  if chat.isSecret then quiet objects
  else finish chat objects state now ("ref_" ++ toString (refCounter + 1)) none e

/-- From `encryptMessage` to the end (chat_bloc.dart:341-357 and 384-407). -/
def resumeEncryption (now : Time) (ref : String) (e : Content) : Emission D :=
  match (encryptMessage lib chat.myId storage e.plaintext chat.peerId).1 with
  | .error _ => quiet objects
  | .ok ciphertext => finish chat objects state now ref (some ciphertext) e

/-- `_onOpened` once the history is there (chat_bloc.dart:299-313). -/
def resumeHistory (history : Except String (List ChatMessage)) : Emission D :=
  match history with
  | .error err => ⟨objects, some { state with loading := false, error := some err }⟩
  | .ok history =>
    ⟨objects ++ history,
      some { state with
        messages := fresh objects history.length
        loading := false
        error := none }⟩

/-- `_onUnsent` (chat_bloc.dart:421-430). -/
def onUnsent (messageId : String) : Emission D := emitMutated objects state messageId unsent

/-- `case 'ack'` (chat_bloc.dart:435-450): the bubble is a new object, the others
    are shared. -/
def onAck (f : Frame) : Emission D :=
  match (Json.get f "client_ref").asOptStr with
  | none => quiet objects
  | some ref =>
    let update (m : ChatMessage) :=
      if some m.id = ref then (confirm chat f m).map some else some none
    match rebuild update objects state.messages with
    | none => quiet objects
    | some (objects, messages) => ⟨objects, some { state with messages := messages, error := none }⟩

/-- `m.tick = …`. -/
def withTick (tick : MessageTick → MessageTick) (m : ChatMessage) : ChatMessage :=
  { m with tick := tick m.tick }

/-- A tick on the bubble named by the frame (chat_bloc.dart:485-518). -/
def onTick (tick : MessageTick → MessageTick) (f : Frame) : Emission D :=
  match asStr (Json.get f "message_id") with
  | none => quiet objects
  | some id => emitMutated objects state id (withTick tick)

/-- `case 'receipt'` (chat_bloc.dart:485-498). -/
def onReceipt (f : Frame) : Emission D :=
  match asStr (Json.get f "status") with
  | some "read" => onTick objects state (fun _ => .read) f
  | _ => onTick objects state (fun tick => if tick = .sent then .delivered else tick) f

/-- `case 'delivered'` (chat_bloc.dart:500-508). -/
def onDelivered (f : Frame) : Emission D :=
  onTick objects state (fun tick => if tick = .sent then .delivered else tick) f

/-- `case 'read'` (chat_bloc.dart:510-518). -/
def onRead (f : Frame) : Emission D :=
  onTick objects state (fun tick => if tick = .sent ∨ tick = .delivered then .read else tick) f

/-- `case 'typing_start'` and `case 'typing_stop'` (chat_bloc.dart:520-524). -/
def onTyping (typing : Bool) (f : Frame) : Emission D :=
  if asStr (Json.get f "from") = some chat.peerId then
    ⟨objects, some { state with peerTyping := typing, error := none }⟩
  else quiet objects

/-- `case 'unsend'` (chat_bloc.dart:526-533). -/
def onUnsend (f : Frame) : Emission D :=
  match asStr (Json.get f "message_id") with
  | none => quiet objects
  | some id => emitMutated objects state id unsent

/-- The end of `case 'message'` (chat_bloc.dart:470-483). -/
def showMessage (f : Frame) (content : Option String) : Emission D :=
  match asStr (Json.get f "message_id"), asStr (Json.get f "from"),
    asDateTime (Json.get f "created_at") with
  | some id, some senderId, some createdAt =>
    let msg : ChatMessage :=
      { id := id, senderId := senderId, content := content, createdAt := createdAt
        isMine := false }
    emitAppended objects { state with peerTyping := false } msg
  | _, _, _ => quiet objects

/-- `case 'message'` up to the first `await` (chat_bloc.dart:452-483). -/
def onMessage (f : Frame) : Emission D :=
  if asStr (Json.get f "from") = some chat.peerId then
    match (Json.get f "content").asOptStr with
    | none => quiet objects
    | some content => if chat.isSecret then quiet objects else showMessage objects state f content
  else quiet objects

/-- From `decryptMessage` to the end (chat_bloc.dart:456-483). -/
def resumeDecryption (f : Frame) (content : Option String) : Emission D :=
  match (decryptMessage lib chat.myId storage content chat.peerId).1 with
  | .error _ => showMessage objects state f content
  | .ok plaintext => showMessage objects state f (some plaintext)

/-- `_onFrame` (chat_bloc.dart:432-535). -/
def onFrame (f : Frame) : Emission D :=
  match asStr (Json.get f "type") with
  | some "ack" => onAck chat objects state f
  | some "message" => onMessage chat objects state f
  | some "receipt" => onReceipt objects state f
  | some "delivered" => onDelivered objects state f
  | some "read" => onRead objects state f
  | some "typing_start" => onTyping chat objects state true f
  | some "typing_stop" => onTyping chat objects state false f
  | some "unsend" => onUnsend objects state f
  | _ => quiet objects

/-- A handler of the chat from its start to its first `await`. -/
def handle (refCounter : ℕ) (now : Time) : ChatEvent → Emission D
  | .chatOpened => quiet objects
  | .contentSent e => onContentSent chat objects state refCounter now e
  | .typingChanged _ => quiet objects
  | .messageUnsent messageId => onUnsent objects state messageId
  | .frameReceived f => onFrame chat objects state f

/-- A handler of the chat from one `await` to the next. -/
def resume (answer : Answer) : Pending → Emission D
  | .history => resumeHistory objects state answer.history
  | .session _ _ => quiet objects
  | .encryption ref e => resumeEncryption lib chat objects state storage answer.now ref e
  | .decryption f content => resumeDecryption lib chat objects state storage f content

end Chat

/-! ## The handlers of the AI features -/

section Ai

variable (objects : List ChatMessage) (state : ChatRoomState D)

/-- `Map.from(state.translationLoading)..[messageId] = loading`, emitted. -/
def emitTranslationLoading (messageId : String) (loading : Bool) (error : Option String) :
    Emission D :=
  ⟨objects, some { state with
    translationLoading := Function.update state.translationLoading messageId (some loading)
    error := error }⟩

/-- `Map.from(state.moderationLoading)..[messageId] = loading`, emitted. -/
def emitModerationLoading (messageId : String) (loading : Bool) (error : Option String) :
    Emission D :=
  ⟨objects, some { state with
    moderationLoading := Function.update state.moderationLoading messageId (some loading)
    error := error }⟩

/-- The handlers of the AI events up to their first `await` (chat_bloc.dart:539-742). -/
def handleAi : AiEvent D → Emission D × Option Waiting
  | .fetchSummaryStarted =>
    (⟨objects, some { state with summaryLoading := true, error := none }⟩, some .summaryTexts)
  | .fetchSummarySuccess summary =>
    (⟨objects, some { state with summaryLoading := false, summary := summary, error := none }⟩,
      none)
  | .fetchSummaryFailure error =>
    (⟨objects, some { state with summaryLoading := false, error := some error }⟩, none)
  | .generateSmartRepliesStarted =>
    (⟨objects, some { state with smartRepliesLoading := true, error := none }⟩,
      some .repliesContext)
  | .generateSmartRepliesSuccess replies =>
    (⟨objects, some { state with
      smartRepliesLoading := false, smartReplies := replies, error := none }⟩, none)
  | .generateSmartRepliesFailure error =>
    (⟨objects, some { state with smartRepliesLoading := false, error := some error }⟩, none)
  | .translateMessageStarted messageId =>
    (emitTranslationLoading objects state messageId true none, some (.translation messageId))
  | .translateMessageSuccess messageId translation =>
    (⟨objects, some { state with
      translations := Function.update state.translations messageId (some translation)
      error := none }⟩, none)
  | .translateMessageFailure messageId error =>
    (emitTranslationLoading objects state messageId false (some error), none)
  | .moderateMessageStarted messageId =>
    (emitModerationLoading objects state messageId true none, some (.moderation messageId))
  | .moderateMessageSuccess messageId scores =>
    (⟨objects, some { state with
      moderationScores := Function.update state.moderationScores messageId (some scores)
      error := none }⟩, none)
  | .moderateMessageFailure messageId error =>
    (emitModerationLoading objects state messageId false (some error), none)

/-- `String.trim` takes these off. -/
def isBlank (c : Char) : Bool :=
  (9 ≤ c.toNat && c.toNat ≤ 13) || (0x2000 ≤ c.toNat && c.toNat ≤ 0x200A) ||
    [0x20, 0x85, 0xA0, 0x1680, 0x2028, 0x2029, 0x202F, 0x205F, 0x3000, 0xFEFF].contains c.toNat

/-- The `catch` of `_onFetchSummaryStarted` (chat_bloc.dart:568-570). -/
def summaryFailed (error : String) : Emission D :=
  ⟨objects, some { state with summaryLoading := false, summary := "", error := some error }⟩

/-- `_onFetchSummaryStarted` from the history to the `post` (chat_bloc.dart:542-551). -/
def resumeSummaryTexts (history : Except String (List ChatMessage)) :
    Emission D × Option Waiting :=
  match history with
  | .error err => (summaryFailed objects state err, none)
  | .ok messages =>
    if messages.any fun m => m.content.any (· ≠ "") then (quiet objects, some .summary)
    else
      (⟨objects, some { state with summaryLoading := false, summary := "", error := none }⟩, none)

/-- `_onFetchSummaryStarted` from the `post` to the end (chat_bloc.dart:561-570). -/
def resumeSummary (summary : Except String (Option String)) : Emission D :=
  match summary with
  | .error err => summaryFailed objects state err
  | .ok summary =>
    ⟨objects, some { state with
      summaryLoading := false, summary := summary.getD "", error := none }⟩

/-- The `catch` of `_onGenerateSmartRepliesStarted` (chat_bloc.dart:613-615). -/
def repliesFailed (error : String) : Emission D :=
  ⟨objects, some { state with
    smartRepliesLoading := false, smartReplies := [], error := some error }⟩

/-- `_onGenerateSmartRepliesStarted` from the history to the `post`
    (chat_bloc.dart:586-594); `join` writes a null as such. -/
def resumeRepliesContext (history : Except String (List ChatMessage)) :
    Emission D × Option Waiting :=
  match history with
  | .error err => (repliesFailed objects state err, none)
  | .ok messages =>
    let context := " ".intercalate (messages.map fun m => m.content.getD "null")
    if context.toList.all isBlank then
      (⟨objects, some { state with
        smartRepliesLoading := false, smartReplies := [], error := none }⟩, none)
    else (quiet objects, some .replies)

/-- `_onGenerateSmartRepliesStarted` from the `post` to the end
    (chat_bloc.dart:605-615). -/
def resumeReplies (replies : Except String (List String)) : Emission D :=
  match replies with
  | .error err => repliesFailed objects state err
  | .ok replies =>
    ⟨objects, some { state with
      smartRepliesLoading := false, smartReplies := replies, error := none }⟩

/-- `_onTranslateMessageStarted` from the `post` to the end (chat_bloc.dart:646-667). -/
def resumeTranslation (messageId : String) (translation : Except String (Option String)) :
    Emission D :=
  match translation with
  | .error err => emitTranslationLoading objects state messageId false (some err)
  | .ok translation =>
    ⟨objects, some { state with
      translations := Function.update state.translations messageId (some (translation.getD ""))
      translationLoading := Function.update state.translationLoading messageId (some false)
      error := none }⟩

/-- `_onModerateMessageStarted` from the `post` to the end (chat_bloc.dart:703-725). -/
def resumeModeration (messageId : String) (scores : Except String (String → Option D)) :
    Emission D :=
  match scores with
  | .error err => emitModerationLoading objects state messageId false (some err)
  | .ok scores =>
    ⟨objects, some { state with
      moderationScores := Function.update state.moderationScores messageId (some scores)
      moderationLoading := Function.update state.moderationLoading messageId (some false)
      error := none }⟩

end Ai

/-! ## The room -/

/-- An open room with the objects allocated so far; `emitted` is `_emitted` of
    `flutter_bloc`. -/
structure Room (D : Type) where
  objects : List ChatMessage
  state : ChatRoomState D
  emitted : Bool
  refCounter : ℕ
  storage : Storage
  waiting : List Waiting

/-- The room the user enters. -/
def Room.init (storage : Storage) : Room D := ⟨[], {}, false, 0, storage, []⟩

/-- The bubbles on the screen. -/
def Room.bubbles (r : Room D) : List ChatMessage := view r.objects r.state.messages

/-- The state as `ChatBloc.lean` has it, while the objects are `objects`. -/
def ChatRoomState.seen (objects : List ChatMessage) (s : ChatRoomState D) : Client.ChatRoomState :=
  ⟨view objects s.messages, s.peerTyping, s.loading, s.error⟩

/-- The bloc as `ChatBloc.lean` has it. -/
def Room.bloc (r : Room D) : ChatBloc := ⟨r.state.seen r.objects, r.refCounter⟩

inductive Action (D : Type)
  | event (e : ChatEvent) (now : Time)
  | aiEvent (e : AiEvent D)
  /-- the `i`-th waiting handler goes on -/
  | resume (i : ℕ) (answer : AiAnswer D)
  /-- the rest of the app writes the storage -/
  | store (storage : Storage)

/-- One piece of a handler. -/
structure Piece (D : Type) where
  emission : Emission D
  refCounter : ℕ
  storage : Storage
  next : Option Waiting

section Run

variable {S : Type} (lib : Libsignal S) (keys : KeyServer) (chat : Chat)

/-- A piece of a handler of the chat: the refs, the storage and the next `await` are
    those of the segment in `ChatBloc.lean`. -/
def Piece.ofSegment (e : Emission D) (s : Segment) : Piece D :=
  ⟨e, s.bloc.refCounter, s.storage, s.next.map .chat⟩

/-- A piece of a handler of the AI features. -/
def Room.aiPiece (r : Room D) (p : Emission D × Option Waiting) : Piece D :=
  ⟨p.1, r.refCounter, r.storage, p.2⟩

/-- A handler from one `await` to the next. -/
def resumed (r : Room D) (answer : AiAnswer D) : Waiting → Piece D
  | .chat p => .ofSegment (resume lib chat r.objects r.state r.storage answer.toAnswer p)
      (Client.resume lib keys chat r.bloc r.storage answer.toAnswer p)
  | .summaryTexts => r.aiPiece (resumeSummaryTexts r.objects r.state answer.history)
  | .summary => r.aiPiece (resumeSummary r.objects r.state answer.summary, none)
  | .repliesContext => r.aiPiece (resumeRepliesContext r.objects r.state answer.history)
  | .replies => r.aiPiece (resumeReplies r.objects r.state answer.replies, none)
  | .translation messageId =>
    r.aiPiece (resumeTranslation r.objects r.state messageId answer.translation, none)
  | .moderation messageId =>
    r.aiPiece (resumeModeration r.objects r.state messageId answer.scores, none)

/-- The piece of a handler an action runs. -/
def piece (r : Room D) : Action D → Option (Piece D)
  | .event e now => some (.ofSegment (handle chat r.objects r.state r.refCounter now e)
      (Client.handle chat r.bloc r.storage now e))
  | .aiEvent e => some (r.aiPiece (handleAi r.objects r.state e))
  | .resume i answer => (r.waiting[i]?).map (resumed lib keys chat r answer)
  | .store storage => some ⟨quiet r.objects, r.refCounter, storage, none⟩

/-- The handlers that wait after an action, not counting the one it ran. -/
def othersWaiting (r : Room D) : Action D → List Waiting
  | .resume i _ => r.waiting.eraseIdx i
  | _ => r.waiting

/-- `emit` of `flutter_bloc`: after the first emission a state that equals the one
    the bloc holds is dropped. -/
def Room.emit (r : Room D) (e : Emission D) : Room D :=
  match e.state with
  | none => { r with objects := e.objects }
  | some s =>
    if r.emitted = true ∧ s.Equals e.objects r.state then { r with objects := e.objects }
    else { r with objects := e.objects, state := s, emitted := true }

def step (r : Room D) (a : Action D) : Option (Room D) :=
  (piece lib keys chat r a).map fun p =>
    { r.emit p.emission with
      refCounter := p.refCounter
      storage := p.storage
      waiting := othersWaiting r a ++ p.next.toList }

end Run

end IronLink.Client.Equality
