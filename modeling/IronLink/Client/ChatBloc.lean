import IronLink.Client.Signal
import IronLink.Client.WsService
import IronLink.Lib.Run

/-!
# The chat room of the client

The handlers of `ChatBloc` (frontend/lib/features/chat/bloc/chat_bloc.dart) for
opening a room, sending, unsending and incoming frames. A handler runs up to its
next `await` in one piece; what it waits for is a `Pending`, and other handlers,
of this room or not, run in between. A handler that throws does nothing more.

`void _onFrame` awaits and binds a `String?` to a `String`; it is read as
`async`, with `content` a `String?`. `emit` stores the state it is given;
`Equality/View.lean` tells when `flutter_bloc` does.
-/

namespace IronLink.Client

open Lib Ws

/-! ## Data -/

/-- `MessageTick` (frontend/lib/features/chat/chat_repository.dart:5). -/
inductive MessageTick
  | sent
  | delivered
  | read
  deriving DecidableEq

/-- `MessageTick.index`. -/
def MessageTick.index : MessageTick → ℕ
  | .sent => 0
  | .delivered => 1
  | .read => 2

/-- `ChatMessage` (chat_repository.dart:7-26): a bubble. -/
structure ChatMessage where
  id : String
  senderId : String
  content : Option String
  createdAt : Time
  isMine : Bool
  tick : MessageTick := .sent
  deleted : Bool := false
  pending : Bool := false
  deriving DecidableEq

/-- The fields of `ChatRoomState` these handlers set (chat_bloc.dart:167-200). -/
structure ChatRoomState where
  messages : List ChatMessage
  peerTyping : Bool
  loading : Bool
  error : Option String
  deriving DecidableEq

/-- `const ChatRoomState()`. -/
def ChatRoomState.init : ChatRoomState := ⟨[], false, true, none⟩

/-- The final fields of a `ChatBloc`. -/
structure Chat where
  myId : String
  peerId : String
  isSecret : Bool

/-- The fields of a `ChatBloc` that change. -/
structure ChatBloc where
  state : ChatRoomState
  refCounter : ℕ
  deriving DecidableEq

/-- `TextSent` and `MediaSent` (chat_bloc.dart:27-52). -/
inductive Content
  | textSent (content : String)
  | mediaSent (kind mediaKey mimeType : String) (caption : Option String)
  deriving DecidableEq

inductive ChatEvent
  | chatOpened
  | contentSent (e : Content)
  | typingChanged (typing : Bool)
  | messageUnsent (messageId : String)
  | frameReceived (frame : Frame)

/-- What a handler waits for. -/
inductive Pending
  /-- `_repo.history` -/
  | history
  /-- `loadSession`, and the key agreement when it answers null -/
  | session (ref : String) (e : Content)
  /-- `encryptMessage` -/
  | encryption (ref : String) (e : Content)
  /-- `decryptMessage` -/
  | decryption (frame : Frame) (content : Option String)

/-- What the awaited calls take from outside: the answer to the history request,
    generated keys, the clock. -/
structure Answer where
  history : Except String (List ChatMessage)
  fresh : KeyPair
  ephemeral : KeyPair
  now : Time

/-- One piece of a handler: what it leaves, the frames it hands to `WsService`,
    the values it posts to `/chats/{peerId}/typing`, and what it waits for next. -/
structure Segment where
  bloc : ChatBloc
  storage : Storage
  calls : List WsCall
  typing : List Bool
  next : Option Pending

/-- Nothing sent, nothing to wait for. -/
def ChatBloc.leave (bloc : ChatBloc) (storage : Storage) : Segment := ⟨bloc, storage, [], [], none⟩

/-- `emit(state.copyWith(messages: …))`, which clears `error`. -/
def ChatBloc.emitMessages (bloc : ChatBloc) (messages : List ChatMessage) : ChatBloc :=
  { bloc with state := { bloc.state with messages := messages, error := none } }

/-- `value as String`. The symbolic strings are dates, read below. -/
def asStr : Json → Option String
  | .str s => some s
  | _ => none

/-- `DateTime.parse(value as String)`; the server writes `isoformat()`. -/
def asDateTime : Json → Option Time
  | .iso t => some t
  | _ => none

/-! ## Sending -/

section Sending

variable {S : Type} (lib : Libsignal S) (keys : KeyServer) (chat : Chat) (bloc : ChatBloc)
  (storage : Storage) (now : Time)

/-- The optimistic bubble (chat_bloc.dart:345-353 and 388-395). -/
def optimistic (ref content : String) : ChatMessage :=
  { id := ref, senderId := chat.myId, content := some content, createdAt := now, isMine := true
    pending := true }

/-- The end of `_onTextSent` (chat_bloc.dart:345-357). -/
def finishText (ref contentToSend : String) : Segment :=
  { bloc := bloc.emitMessages (bloc.state.messages ++ [optimistic chat now ref contentToSend])
    storage := storage
    calls := [.sendText chat.peerId contentToSend ref]
    typing := [false]
    next := none }

/-- The end of `_onMediaSent` (chat_bloc.dart:388-405). -/
def finishMedia (ref kind mimeType : String) (caption : Option String)
    (contentToSend mediaKeyToSend : String) : Segment :=
  { bloc := bloc.emitMessages (bloc.state.messages ++ [optimistic chat now ref contentToSend])
    storage := storage
    calls := [.sendMedia chat.peerId kind mediaKeyToSend mimeType caption ref]
    typing := [false]
    next := none }

/-- What a secret chat encrypts (chat_bloc.dart:341 and 382-383). -/
def Content.plaintext : Content → String
  | .textSent content => content
  | .mediaSent _ mediaKey _ caption => mediaKey ++ ":" ++ caption.getD ""

/-- The end of both handlers; `ciphertext` is null when nothing was encrypted. -/
def Content.finish (ref : String) (ciphertext : Option String) : Content → Segment
  | .textSent content => finishText chat bloc storage now ref (ciphertext.getD content)
  | .mediaSent kind mediaKey mimeType caption =>
    finishMedia chat bloc storage now ref kind mimeType caption
      (ciphertext.getD (caption.getD ("[" ++ kind ++ "]")))
      (if ciphertext.isSome then "" else mediaKey)

/-- `_onTextSent` and `_onMediaSent` (chat_bloc.dart:316-321 and 360-366), up to
    `loadSession` in a secret chat. -/
def onContentSent (e : Content) : Segment :=
  let ref := "ref_" ++ toString (bloc.refCounter + 1)
  let bloc := { bloc with refCounter := bloc.refCounter + 1 }
  if chat.isSecret then { bloc.leave storage with next := some (.session ref e) }
  else e.finish chat bloc storage now ref none

/-- The `try` of both handlers (chat_bloc.dart:323-337 and 368-377); its exception
    is printed. -/
def establishSession (answer : Answer) : Except String S × Storage :=
  match performX3DH lib keys chat.myId answer.fresh answer.ephemeral storage chat.peerId with
  | (.error err, storage) => (.error err, storage)
  | (.ok _, storage) => (initSessionAsSender chat.peerId none, storage)

/-- From `loadSession` to `encryptMessage` (chat_bloc.dart:321-341 and 366-383). -/
def resumeSession (answer : Answer) (ref : String) (e : Content) : Segment :=
  let storage :=
    if (loadSession lib chat.myId storage chat.peerId).isSome then storage
    else (establishSession lib keys chat storage answer).2
  { bloc.leave storage with next := some (.encryption ref e) }

/-- From `encryptMessage` to the end (chat_bloc.dart:341-357 and 384-405). -/
def resumeEncryption (ref : String) (e : Content) : Segment :=
  match encryptMessage lib chat.myId storage e.plaintext chat.peerId with
  | (.error _, storage) => bloc.leave storage
  | (.ok ciphertext, storage) => e.finish chat bloc storage now ref (some ciphertext)

end Sending

/-! ## The other handlers -/

section Handlers

variable {S : Type} (lib : Libsignal S) (chat : Chat) (bloc : ChatBloc) (storage : Storage)

/-- `_onOpened` once the history is there (chat_bloc.dart:299-313). -/
def resumeHistory (history : Except String (List ChatMessage)) : Segment :=
  match history with
  | .error err =>
    { bloc with state := { bloc.state with loading := false, error := some err } }.leave storage
  | .ok history =>
    let unread := history.filter fun m => !m.isMine && m.tick ≠ .read
    { bloc := { bloc with
        state := { bloc.state with messages := history, loading := false, error := none } }
      storage := storage
      calls := unread.map fun m => .sendRead m.id
      typing := []
      next := none }

/-- `m.deleted = true; m.content = null` on the bubble `id`. -/
def tombstone (id : String) (messages : List ChatMessage) : List ChatMessage :=
  messages.map fun m => if m.id = id then { m with deleted := true, content := none } else m

/-- `_onUnsent` (chat_bloc.dart:421-430). -/
def onUnsent (messageId : String) : Segment :=
  { bloc := bloc.emitMessages (tombstone messageId bloc.state.messages)
    storage := storage
    calls := [.unsend messageId]
    typing := []
    next := none }

/-- `_onTypingChanged` (chat_bloc.dart:411-419); the debounce timer posts as well. -/
def onTypingChanged (typing : Bool) : Segment := { bloc.leave storage with typing := [typing] }

/-- The bubble an `ack` confirms (chat_bloc.dart:438-447). -/
def confirm (f : Frame) (m : ChatMessage) : Option ChatMessage :=
  (asStr (Json.get f "message_id")).bind fun id =>
    (asDateTime (Json.get f "created_at")).map fun createdAt =>
      { id := id, senderId := chat.myId, content := m.content, createdAt := createdAt
        isMine := true }

/-- `case 'ack'` (chat_bloc.dart:435-450). -/
def onAck (f : Frame) : ChatBloc :=
  match (Json.get f "client_ref").asOptStr with
  | none => bloc
  | some ref =>
    let update (m : ChatMessage) := if some m.id = ref then confirm chat f m else some m
    match bloc.state.messages.mapM update with
    | none => bloc
    | some messages => bloc.emitMessages messages

/-- A tick on the bubble named by the frame (chat_bloc.dart:485-518). -/
def onTick (tick : MessageTick → MessageTick) (f : Frame) : ChatBloc :=
  match asStr (Json.get f "message_id") with
  | none => bloc
  | some id =>
    bloc.emitMessages
      (bloc.state.messages.map fun m => if m.id = id then { m with tick := tick m.tick } else m)

/-- `case 'receipt'` (chat_bloc.dart:485-498): a read never goes back. -/
def onReceipt (f : Frame) : ChatBloc :=
  match asStr (Json.get f "status") with
  | some "read" => onTick bloc (fun _ => .read) f
  | _ => onTick bloc (fun tick => if tick = .sent then .delivered else tick) f

/-- `case 'delivered'` (chat_bloc.dart:500-508). -/
def onDelivered (f : Frame) : ChatBloc :=
  onTick bloc (fun tick => if tick = .sent then .delivered else tick) f

/-- `case 'read'` (chat_bloc.dart:510-518). -/
def onRead (f : Frame) : ChatBloc :=
  onTick bloc (fun tick => if tick = .sent ∨ tick = .delivered then .read else tick) f

/-- `case 'typing_start'` and `case 'typing_stop'` (chat_bloc.dart:520-524). -/
def onTyping (typing : Bool) (f : Frame) : ChatBloc :=
  if asStr (Json.get f "from") = some chat.peerId then
    { bloc with state := { bloc.state with peerTyping := typing, error := none } }
  else bloc

/-- `case 'unsend'` (chat_bloc.dart:526-533). -/
def onUnsend (f : Frame) : ChatBloc :=
  match asStr (Json.get f "message_id") with
  | none => bloc
  | some id => bloc.emitMessages (tombstone id bloc.state.messages)

/-- The end of `case 'message'` (chat_bloc.dart:470-483). -/
def showMessage (f : Frame) (content : Option String) : Segment :=
  match asStr (Json.get f "message_id"), asStr (Json.get f "from"),
    asDateTime (Json.get f "created_at") with
  | some id, some senderId, some createdAt =>
    let msg : ChatMessage :=
      { id := id, senderId := senderId, content := content, createdAt := createdAt
        isMine := false }
    { bloc := { bloc with
        state := { bloc.state with
          messages := bloc.state.messages ++ [msg]
          peerTyping := false
          error := none } }
      storage := storage
      calls := [.sendDelivered id, .sendRead id]
      typing := []
      next := none }
  | _, _, _ => bloc.leave storage

/-- `case 'message'` (chat_bloc.dart:452-483), up to `decryptMessage` in a secret
    chat. -/
def onMessage (f : Frame) : Segment :=
  if asStr (Json.get f "from") = some chat.peerId then
    match (Json.get f "content").asOptStr with
    | none => bloc.leave storage
    | some content =>
      if chat.isSecret then { bloc.leave storage with next := some (.decryption f content) }
      else showMessage bloc storage f content
  else bloc.leave storage

/-- From `decryptMessage` to the end (chat_bloc.dart:456-483); a message that does
    not decrypt is shown as it came. -/
def resumeDecryption (f : Frame) (content : Option String) : Segment :=
  match decryptMessage lib chat.myId storage content chat.peerId with
  | (.error _, storage) => showMessage bloc storage f content
  | (.ok plaintext, storage) => showMessage bloc storage f (some plaintext)

/-- `_onFrame` (chat_bloc.dart:432-535). -/
def onFrame (f : Frame) : Segment :=
  match asStr (Json.get f "type") with
  | some "ack" => (onAck chat bloc f).leave storage
  | some "message" => onMessage chat bloc storage f
  | some "receipt" => (onReceipt bloc f).leave storage
  | some "delivered" => (onDelivered bloc f).leave storage
  | some "read" => (onRead bloc f).leave storage
  | some "typing_start" => (onTyping chat bloc true f).leave storage
  | some "typing_stop" => (onTyping chat bloc false f).leave storage
  | some "unsend" => (onUnsend bloc f).leave storage
  | _ => bloc.leave storage

end Handlers

/-! ## The room -/

section Room

variable {S : Type} (lib : Libsignal S) (keys : KeyServer) (chat : Chat)

/-- A handler from its start to its first `await`. -/
def handle (bloc : ChatBloc) (storage : Storage) (now : Time) : ChatEvent → Segment
  | .chatOpened => { bloc.leave storage with next := some .history }
  | .contentSent e => onContentSent chat bloc storage now e
  | .typingChanged typing => onTypingChanged bloc storage typing
  | .messageUnsent messageId => onUnsent bloc storage messageId
  | .frameReceived f => onFrame chat bloc storage f

/-- A handler from one `await` to the next. -/
def resume (bloc : ChatBloc) (storage : Storage) (answer : Answer) : Pending → Segment
  | .history => resumeHistory bloc storage answer.history
  | .session ref e => resumeSession lib keys chat bloc storage answer ref e
  | .encryption ref e => resumeEncryption lib chat bloc storage answer.now ref e
  | .decryption f content => resumeDecryption lib chat bloc storage f content

/-- An open room: the bloc, the device's storage and the handlers that wait. -/
structure Room where
  bloc : ChatBloc
  storage : Storage
  waiting : List Pending

inductive RoomAction
  | event (e : ChatEvent) (now : Time)
  /-- the `i`-th waiting handler goes on -/
  | resume (i : ℕ) (answer : Answer)
  /-- the rest of the app writes the storage -/
  | store (storage : Storage)

/-- The room the user enters. -/
def Room.init (storage : Storage) : Room := ⟨⟨ChatRoomState.init, 0⟩, storage, []⟩

/-- The piece of a handler an action runs. -/
def segment (r : Room) : RoomAction → Option Segment
  | .event e now => some (handle chat r.bloc r.storage now e)
  | .resume i answer =>
    (r.waiting[i]?).map fun p => resume lib keys chat r.bloc r.storage answer p
  | .store storage => some (r.bloc.leave storage)

/-- The handlers that wait after an action, not counting the one it ran. -/
def othersWaiting (r : Room) : RoomAction → List Pending
  | .resume i _ => r.waiting.eraseIdx i
  | _ => r.waiting

def roomStep (r : Room) (a : RoomAction) : Option Room :=
  (segment lib keys chat r a).map fun s =>
    ⟨s.bloc, s.storage, othersWaiting r a ++ s.next.toList⟩

/-- The frames an action hands to `WsService`. -/
def emitted (r : Room) (a : RoomAction) : List WsCall :=
  ((segment lib keys chat r a).map Segment.calls).getD []

end Room

end IronLink.Client
