import IronLink.Lib.Program
import IronLink.Media.Upload

/-!
# The upload routes, command by command

The upload routes (app/api/routes/media.py:67-228) as programs over one Redis key space
and one bucket, whose keys and object names are texts built from the upload id. Between
two commands of a request, requests of anyone may perform theirs.

A request is answered with a `Response` or with an error; an exception that nothing
catches is answered with 500. `handle` is the program of a request, `exec` what Redis and
the bucket do.
-/

namespace IronLink.Media.Routes

open Lib Auth

/-! ## Keys -/

/-- The alphabet of `secrets.token_urlsafe`; that of `uuid4().hex` is part of it. -/
def UrlSafe (text : String) : Prop :=
  ∀ c ∈ text.toList, c.isAlphanum = true ∨ c = '-' ∨ c = '_'

/-- A random text. -/
structure Drawn where
  text : String
  urlSafe : UrlSafe text

/-- `_state_key` (app/api/routes/media.py:67-68). -/
def stateKey (uploadId : String) : String := "upload:" ++ uploadId

/-- `_chunks_key` (app/api/routes/media.py:71-72). -/
def chunksKey (uploadId : String) : String := "upload:chunks:" ++ uploadId

/-- The name of a staged chunk (app/services/storage_service.py:87-94). -/
def stagingKey (uploadId : String) (index : ℕ) : String :=
  "staging/" ++ uploadId ++ "/" ++ toString index

/-! ## Redis and the bucket -/

/-- The value of a key. -/
inductive RedisValue
  | string (state : UploadState)
  | set (indices : Finset ℕ)

structure Backend where
  redis : TtlMap Time String RedisValue
  bucket : String → Option Object

def Backend.empty : Backend := ⟨fun _ => none, fun _ => none⟩

/-- `wrongType`: the key holds a value of another kind, and redis-py raises. -/
inductive RedisReply (α : Type)
  | ok (value : α)
  | wrongType

inductive Command
  | get (key : String)
  | set (key : String) (value : UploadState) (ex : Time)
  | sadd (key : String) (index : ℕ)
  | expire (key : String) (ttl : Time)
  | smembers (key : String)
  | del (keys : List String)
  | putObject (name : String) (object : Object)
  | getObject (name : String)
  | removeObject (name : String)

/-- What a command returns; `getObject` of a missing object raises. -/
abbrev Command.Reply : Command → Type
  | .get _ => RedisReply (Option UploadState)
  | .sadd _ _ => RedisReply Unit
  | .smembers _ => RedisReply (Finset ℕ)
  | .getObject _ => Option Object
  | _ => Unit

/-- `GET` of what a key holds. -/
def getReply : Option RedisValue → RedisReply (Option UploadState)
  | none => .ok none
  | some (.string state) => .ok (some state)
  | some (.set _) => .wrongType

/-- `SMEMBERS` of what a key holds. -/
def smembersReply : Option RedisValue → RedisReply (Finset ℕ)
  | none => .ok ∅
  | some (.set indices) => .ok indices
  | some (.string _) => .wrongType

/-- `SADD` to what a key holds: the new entry. -/
def saddEntry (index : ℕ) : Option (Entry Time RedisValue) → RedisReply (Entry Time RedisValue)
  | none => .ok ⟨.set {index}, none⟩
  | some ⟨.set indices, deadline⟩ => .ok ⟨.set (insert index indices), deadline⟩
  | some ⟨.string _, _⟩ => .wrongType

/-- Puts the new entry under the key. -/
def Backend.saddTo (b : Backend) (key : String) :
    RedisReply (Entry Time RedisValue) → Backend × RedisReply Unit
  | .ok entry => ({ b with redis := b.redis.set key entry.val entry.deadline }, .ok ())
  | .wrongType => (b, .wrongType)

def exec (now : Time) (b : Backend) : (command : Command) → Backend × command.Reply
  | .get key => (b, getReply (b.redis.get now key))
  | .set key value ex =>
    ({ b with redis := b.redis.set key (.string value) (some (now + ex)) }, ())
  | .sadd key index => b.saddTo key (saddEntry index (b.redis.lookup now key))
  | .expire key ttl => ({ b with redis := b.redis.expire now key (now + ttl) }, ())
  | .smembers key => (b, smembersReply (b.redis.get now key))
  | .del keys => ({ b with redis := keys.foldl TtlMap.del b.redis }, ())
  | .putObject name object => ({ b with bucket := Function.update b.bucket name (some object) }, ())
  | .getObject name => (b, b.bucket name)
  | .removeObject name => ({ b with bucket := Function.update b.bucket name none }, ())

/-! ## The routes -/

/-- A route, or a part of one. -/
abbrev Route := Prog Command Command.Reply HttpError

def perform (command : Command) : Route command.Reply := Prog.perform command

def orRaise {α : Type} : RedisReply α → Route α
  | .ok value => .ret value
  | .wrongType => .raise internalServerError

/-- `_load_state` (app/api/routes/media.py:75-83). -/
def loadState (uploadId userId : String) : Route UploadState := do
  match ← orRaise (← perform (.get (stateKey uploadId))) with
  | none => .raise notFound
  | some state => if state.userId ≠ userId then .raise notFound else return state

inductive Response
  | init (out : UploadInitOut)
  | noContent
  | status (out : UploadStatusOut)
  | complete (out : UploadCompleteOut)
  deriving DecidableEq

/-- `upload_init` (app/api/routes/media.py:88-122). -/
def uploadInit (userId : UUID) (uploadId : Drawn) (body : UploadInitIn) : Route Response :=
  if (ALLOWED_MIME_TYPES.lookup body.mimeType).isNone then
    .raise ⟨415, "MIME type not allowed: " ++ body.mimeType⟩
  else do
    let totalChunks := (body.totalSize + CHUNK_SIZE - 1) / CHUNK_SIZE
    let state : UploadState :=
      ⟨userId.str, body.filename, body.mimeType, body.totalSize, totalChunks⟩
    perform (.set (stateKey uploadId.text) state UPLOAD_STATE_TTL)
    return .init ⟨uploadId.text, CHUNK_SIZE, totalChunks, []⟩

/-- `upload_chunk` (app/api/routes/media.py:125-144). -/
def uploadChunk (userId : UUID) (uploadId : String) (chunkIndex : ℤ) (data : Bytes) :
    Route Response := do
  let state ← loadState uploadId userId.str
  if ¬ (0 ≤ chunkIndex ∧ chunkIndex < state.totalChunks) then
    .raise ⟨400, "chunk index out of range"⟩
  else if CHUNK_SIZE < data.length then .raise ⟨413, "chunk too large"⟩
  else if data = [] then .raise ⟨400, "empty chunk"⟩
  else do
    let index := chunkIndex.toNat
    perform (.putObject (stagingKey uploadId index) ⟨data, "application/octet-stream"⟩)
    orRaise (← perform (.sadd (chunksKey uploadId) index))
    perform (.expire (chunksKey uploadId) UPLOAD_STATE_TTL)
    return .noContent

/-- `upload_status` (app/api/routes/media.py:147-164). -/
def uploadStatus (userId : UUID) (uploadId : String) : Route Response := do
  let state ← loadState uploadId userId.str
  let received ← orRaise (← perform (.smembers (chunksKey uploadId)))
  let missing := missingChunks state received
  return .status ⟨uploadId, state.totalChunks, received.sort, missing, missing.isEmpty⟩

/-- The loop of `assemble_staging` (app/services/storage_service.py:96-107) over the
    indices that are left; a missing object is an exception nothing catches. -/
def readParts (uploadId : String) : List ℕ → Route (List Bytes)
  | [] => return []
  | i :: indices => do
    match ← perform (.getObject (stagingKey uploadId i)) with
    | none => .raise internalServerError
    | some object => return object.data :: (← readParts uploadId indices)

/-- `assemble_staging` (app/services/storage_service.py:96-107). -/
def assembleStaging (uploadId : String) (totalChunks : ℕ) : Route Bytes := do
  return (← readParts uploadId (List.range totalChunks)).flatten

/-- The loop of `delete_staging` (app/services/storage_service.py:109-113) over the
    indices that are left. -/
def deleteParts (uploadId : String) : List ℕ → Route Unit
  | [] => return ()
  | i :: indices => do
    perform (.removeObject (stagingKey uploadId i))
    deleteParts uploadId indices

/-- `delete_staging` (app/services/storage_service.py:109-113). -/
def deleteStaging (uploadId : String) (totalChunks : ℕ) : Route Unit :=
  deleteParts uploadId (List.range totalChunks)

section Complete

variable {Image : Type} (pillow : Option (Pillow Image))

/-- `upload_complete` after the size check (app/api/routes/media.py:189-228). -/
def finishUpload (uploadId : String) (state : UploadState) (assembled : Bytes)
    (thumbHex mediaHex : Drawn) : Route Response := do
  match processed pillow state.mimeType assembled with
  | none => .raise internalServerError
  | some (data, thumb) => do
    let mediaKey := mediaHex.text ++ extFor state.mimeType
    if let some thumb := thumb then
      perform (.putObject (thumbnailKey thumbHex.text) ⟨thumb, "image/jpeg"⟩)
    perform (.putObject mediaKey ⟨data, state.mimeType⟩)
    deleteStaging uploadId state.totalChunks
    perform (.del [stateKey uploadId, chunksKey uploadId])
    return .complete ⟨mediaKey, state.mimeType, data.length,
      thumb.map fun _ => thumbnailKey thumbHex.text⟩

/-- `upload_complete` (app/api/routes/media.py:167-228). -/
def uploadComplete (userId : UUID) (uploadId : String) (thumbHex mediaHex : Drawn) :
    Route Response := do
  let state ← loadState uploadId userId.str
  let received ← orRaise (← perform (.smembers (chunksKey uploadId)))
  let missing := missingChunks state received
  if missing ≠ [] then .raise (incomplete missing)
  else do
    let assembled ← assembleStaging uploadId state.totalChunks
    if assembled.length ≠ state.totalSize then do
      deleteStaging uploadId state.totalChunks
      .raise sizeMismatch
    else finishUpload pillow uploadId state assembled thumbHex mediaHex

/-- A request, with what is drawn for it. -/
inductive Request
  | init (uploadId : Drawn) (body : UploadInitIn)
  | chunk (uploadId : String) (chunkIndex : ℤ) (data : Bytes)
  | status (uploadId : String)
  | complete (uploadId : String) (thumbHex mediaHex : Drawn)

def handle (userId : UUID) : Request → Route Response
  | .init uploadId body => uploadInit userId uploadId body
  | .chunk uploadId chunkIndex data => uploadChunk userId uploadId chunkIndex data
  | .status uploadId => uploadStatus userId uploadId
  | .complete uploadId thumbHex mediaHex => uploadComplete pillow userId uploadId thumbHex mediaHex

end Complete

end IronLink.Media.Routes
