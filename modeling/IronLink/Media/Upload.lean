import IronLink.Auth.Account
import IronLink.Common.Json
import IronLink.Lib.Slices
import IronLink.Lib.Ttl
import Mathlib.Data.Finset.Sort

/-!
# Chunked uploads

The upload routes (app/api/routes/media.py:88-228) over the upload's record in
Redis, the set of received chunk indices beside it, and the staged chunks in the
attachments bucket (app/services/storage_service.py:72-121).

A request answers with a value or a `Failure` and leaves a new server state. The
image library is a parameter; any of its calls may raise. The OCR task that a
finished upload schedules changes none of this and is left out.

Results:
* `readParts_eq`, `assembleStaging_error`: the assembly loop in closed form.
* `deleteStaging_apply`: which objects `delete_staging` leaves.
* `loadState_eq_ok`: who finds an upload.
-/

namespace IronLink.Media

open Lib Auth

/-! ## Model -/

abbrev Bytes := List UInt8

/-- `ALLOWED_MIME_TYPES` (app/services/storage_service.py:13-21). -/
def ALLOWED_MIME_TYPES : List (String × String) :=
  [("image/jpeg", ".jpg"), ("image/png", ".png"), ("image/webp", ".webp"),
    ("video/mp4", ".mp4"), ("audio/ogg", ".ogg"), ("audio/mpeg", ".mp3"),
    ("application/pdf", ".pdf")]

def MAX_UPLOAD_BYTES : ℕ := 50 * 1024 * 1024

def CHUNK_SIZE : ℕ := 5 * 1024 * 1024

def UPLOAD_STATE_TTL : Time := seconds (24 * 3600)

/-- A key of the attachments bucket: `staging uploadId index` is
    `staging/{upload_id}/{index}`, `media` a key that `put_object` has made. -/
inductive ObjectKey
  | staging (uploadId : String) (index : ℕ)
  | media (key : String)
  deriving DecidableEq

structure Object where
  data : Bytes
  contentType : String

/-- The attachments bucket. -/
abbrev Store := ObjectKey → Option Object

/-- `put_object` (app/services/storage_service.py:72-81); the caller has made the key. -/
def Store.putObject (store : Store) (objectKey : String) (data : Bytes) (mimeType : String) :
    Store :=
  Function.update store (.media objectKey) (some ⟨data, mimeType⟩)

/-- `put_staging_chunk` (app/services/storage_service.py:87-94). -/
def Store.putStagingChunk (store : Store) (uploadId : String) (index : ℕ) (data : Bytes) : Store :=
  Function.update store (.staging uploadId index) (some ⟨data, "application/octet-stream"⟩)

/-- How a request fails: an `HTTPException`, or an exception nothing catches. -/
inductive Failure
  | http (error : HttpError)
  | s3 (code : String)
  | pillow
  deriving DecidableEq

/-- The loop of `assemble_staging` (app/services/storage_service.py:96-107) over
    the indices that are left. -/
def Store.readParts (store : Store) (uploadId : String) : List ℕ → Except Failure (List Bytes)
  | [] => .ok []
  | i :: indices =>
    match store (.staging uploadId i) with
    | none => .error (.s3 "NoSuchKey")
    | some object =>
      match store.readParts uploadId indices with
      | .error err => .error err
      | .ok parts => .ok (object.data :: parts)

/-- `assemble_staging` (app/services/storage_service.py:96-107). -/
def Store.assembleStaging (store : Store) (uploadId : String) (totalChunks : ℕ) :
    Except Failure Bytes :=
  (store.readParts uploadId (List.range totalChunks)).map List.flatten

/-- `delete_object` (app/services/storage_service.py:115-121); a missing key is no error. -/
def Store.deleteObject (store : Store) (key : ObjectKey) : Store :=
  Function.update store key none

/-- `delete_staging` (app/services/storage_service.py:109-113). -/
def Store.deleteStaging (store : Store) (uploadId : String) (totalChunks : ℕ) : Store :=
  (List.range totalChunks).foldl (fun store i => store.deleteObject (.staging uploadId i)) store

/-- The JSON document under `upload:{upload_id}`. -/
structure UploadState where
  userId : String
  filename : String
  mimeType : String
  totalSize : ℕ
  totalChunks : ℕ
  deriving DecidableEq

/-- `UploadInitIn` (app/api/routes/media.py:32-35). Other bodies are refused with 422
    before the handler runs. -/
structure UploadInitIn where
  filename : String
  mimeType : String
  totalSize : ℕ
  filename_le : filename.length ≤ 255
  totalSize_pos : 0 < totalSize
  totalSize_le : totalSize ≤ MAX_UPLOAD_BYTES

structure UploadInitOut where
  uploadId : String
  chunkSize : ℕ
  totalChunks : ℕ
  receivedChunks : List ℕ
  deriving DecidableEq

structure UploadStatusOut where
  uploadId : String
  totalChunks : ℕ
  receivedChunks : List ℕ
  missingChunks : List ℕ
  complete : Bool
  deriving DecidableEq

structure UploadCompleteOut where
  mediaKey : String
  mimeType : String
  sizeBytes : ℕ
  thumbnailKey : Option String
  deriving DecidableEq

/-- Redis under `upload:*` and `upload:chunks:*`, the bucket, and the upload ids
    that `secrets.token_urlsafe` has handed out. -/
structure MediaServer where
  now : Time
  states : TtlMap Time String UploadState
  chunks : TtlMap Time String (Finset ℕ)
  store : Store
  issued : List String

/-- No upload yet. -/
def MediaServer.empty (now : Time) : MediaServer :=
  { now := now, states := fun _ => none, chunks := fun _ => none, store := fun _ => none,
    issued := [] }

def notFound : HttpError := ⟨404, "upload not found or expired"⟩

/-- `str(xs)` of a list of integers. -/
def listStr (xs : List ℕ) : String := "[" ++ String.intercalate ", " (xs.map toString) ++ "]"

def incomplete (missing : List ℕ) : HttpError :=
  ⟨409, "upload incomplete — missing chunks: " ++ listStr (missing.take 20)⟩

def sizeMismatch : HttpError := ⟨400, "size mismatch — re-upload"⟩

/-- `_load_state` (app/api/routes/media.py:75-83). -/
def loadState (server : MediaServer) (uploadId : String) (userId : UUID) :
    Except Failure UploadState :=
  match server.states.get server.now uploadId with
  | none => .error (.http notFound)
  | some state => if state.userId ≠ userId.str then .error (.http notFound) else .ok state

/-- `upload_init` (app/api/routes/media.py:88-122); `uploadId` is the token it draws. -/
def uploadInit (server : MediaServer) (userId : UUID) (uploadId : String) (body : UploadInitIn) :
    Except Failure UploadInitOut × MediaServer :=
  if (ALLOWED_MIME_TYPES.lookup body.mimeType).isNone then
    (.error (.http ⟨415, "MIME type not allowed: " ++ body.mimeType⟩), server)
  else
    let totalChunks := (body.totalSize + CHUNK_SIZE - 1) / CHUNK_SIZE
    (.ok ⟨uploadId, CHUNK_SIZE, totalChunks, []⟩,
      { server with
        states := server.states.set uploadId
          ⟨userId.str, body.filename, body.mimeType, body.totalSize, totalChunks⟩
          (some (server.now + UPLOAD_STATE_TTL))
        issued := uploadId :: server.issued })

/-- What an accepted chunk changes (app/api/routes/media.py:142-144). -/
def MediaServer.recordChunk (server : MediaServer) (uploadId : String) (index : ℕ)
    (data : Bytes) : MediaServer :=
  { server with
    store := server.store.putStagingChunk uploadId index data
    chunks := (server.chunks.sadd server.now uploadId index).expire server.now uploadId
      (server.now + UPLOAD_STATE_TTL) }

/-- `upload_chunk` (app/api/routes/media.py:125-144). -/
def uploadChunk (server : MediaServer) (userId : UUID) (uploadId : String) (chunkIndex : ℤ)
    (data : Bytes) : Except Failure Unit × MediaServer :=
  match loadState server uploadId userId with
  | .error err => (.error err, server)
  | .ok state =>
    if ¬ (0 ≤ chunkIndex ∧ chunkIndex < state.totalChunks) then
      (.error (.http ⟨400, "chunk index out of range"⟩), server)
    else if CHUNK_SIZE < data.length then (.error (.http ⟨413, "chunk too large"⟩), server)
    else if data = [] then (.error (.http ⟨400, "empty chunk"⟩), server)
    else (.ok (), server.recordChunk uploadId chunkIndex.toNat data)

/-- `missing`, in `upload_status` and in `upload_complete`. -/
def missingChunks (state : UploadState) (received : Finset ℕ) : List ℕ :=
  (List.range state.totalChunks).filter fun i => i ∉ received

/-- `upload_status` (app/api/routes/media.py:147-164). -/
def uploadStatus (server : MediaServer) (userId : UUID) (uploadId : String) :
    Except Failure UploadStatusOut :=
  match loadState server uploadId userId with
  | .error err => .error err
  | .ok state =>
    let received := server.chunks.smembers server.now uploadId
    let missing := missingChunks state received
    .ok ⟨uploadId, state.totalChunks, received.sort, missing, missing.isEmpty⟩

/-- What `_process_image` uses of Pillow; `none`: the call raises. -/
structure Pillow (Image : Type) where
  /-- `Image.open`, then `load` -/
  load : Bytes → Option Image
  mode : Image → String
  /-- `convert("RGB")` -/
  convertRgb : Image → Option Image
  /-- `copy`, then `thumbnail((320, 320))` -/
  thumbnail : Image → Option Image
  /-- `save(…, format="JPEG", quality=q)` -/
  saveJpeg : Image → ℕ → Option Bytes

section Complete

variable {Image : Type} (pillow : Option (Pillow Image))

/-- `out` in `_process_image`. -/
def recompress (lib : Pillow Image) (data : Bytes) (img : Image) : Option Bytes :=
  if 512 * 1024 < data.length then do
    let rgb ← if lib.mode img ≠ "RGB" ∧ lib.mode img ≠ "L" then lib.convertRgb img else some img
    let buf ← lib.saveJpeg rgb 85
    return if buf.length < data.length then buf else data
  else some data

/-- `_process_image` (app/api/routes/media.py:245-274): the bytes to store and the
    thumbnail; `pillow = none`: the library is not installed. -/
def processImage (data : Bytes) : Option (Bytes × Option Bytes) :=
  match pillow with
  | none => some (data, none)
  | some lib =>
    match lib.load data with
    | none => some (data, none)
    | some img => do
      let out ← recompress lib data img
      let thumbImg ← lib.thumbnail img
      let rgb ← lib.convertRgb thumbImg
      let thumb ← lib.saveJpeg rgb 70
      return (out, some thumb)

/-- A server without Pillow. -/
def noPillow : Option (Pillow Unit) := none

/-- `_ext_for` (app/api/routes/media.py:277-278). -/
def extFor (mime : String) : String := (ALLOWED_MIME_TYPES.lookup mime).getD ""

/-- `mime.startswith("image/")`. -/
def isImage (mime : String) : Bool := "image/".toList.isPrefixOf mime.toList

/-- What `upload_complete` stores for the assembled bytes. -/
def processed (mime : String) (assembled : Bytes) : Option (Bytes × Option Bytes) :=
  if isImage mime then processImage pillow assembled else some (assembled, none)

def thumbnailKey (thumbHex : String) : String := thumbHex ++ "_thumb.jpg"

/-- `upload_complete` after the size check (app/api/routes/media.py:189-228); the
    two hexes are those of the `uuid4` keys. -/
def finishUpload (server : MediaServer) (uploadId : String) (state : UploadState)
    (assembled : Bytes) (thumbHex mediaHex : String) :
    Except Failure UploadCompleteOut × MediaServer :=
  match processed pillow state.mimeType assembled with
  | none => (.error .pillow, server)
  | some (data, thumb) =>
    let mediaKey := mediaHex ++ extFor state.mimeType
    let store := thumb.elim server.store fun thumb =>
      server.store.putObject (thumbnailKey thumbHex) thumb "image/jpeg"
    let store := store.putObject mediaKey data state.mimeType
    (.ok ⟨mediaKey, state.mimeType, data.length, thumb.map fun _ => thumbnailKey thumbHex⟩,
      { server with
        store := store.deleteStaging uploadId state.totalChunks
        states := server.states.del uploadId
        chunks := server.chunks.del uploadId })

/-- `upload_complete` (app/api/routes/media.py:167-228). -/
def uploadComplete (server : MediaServer) (userId : UUID) (uploadId thumbHex mediaHex : String) :
    Except Failure UploadCompleteOut × MediaServer :=
  match loadState server uploadId userId with
  | .error err => (.error err, server)
  | .ok state =>
    let missing := missingChunks state (server.chunks.smembers server.now uploadId)
    if missing ≠ [] then (.error (.http (incomplete missing)), server)
    else
      match server.store.assembleStaging uploadId state.totalChunks with
      | .error err => (.error err, server)
      | .ok assembled =>
        if assembled.length ≠ state.totalSize then
          (.error (.http sizeMismatch),
            { server with store := server.store.deleteStaging uploadId state.totalChunks })
        else finishUpload pillow server uploadId state assembled thumbHex mediaHex

end Complete

/-! ## The staged chunks -/

theorem Store.putStagingChunk_self (store : Store) (uploadId : String) (i : ℕ) (data : Bytes) :
    store.putStagingChunk uploadId i data (.staging uploadId i) =
      some ⟨data, "application/octet-stream"⟩ := Function.update_self ..

theorem Store.putStagingChunk_of_ne {store : Store} {uploadId : String} {i : ℕ} {key : ObjectKey}
    (h : key ≠ .staging uploadId i) (data : Bytes) :
    store.putStagingChunk uploadId i data key = store key := Function.update_of_ne h ..

theorem Store.putObject_staging (store : Store) (objectKey : String) (data : Bytes)
    (mimeType uploadId : String) (i : ℕ) :
    store.putObject objectKey data mimeType (.staging uploadId i) = store (.staging uploadId i) :=
  Function.update_of_ne (by simp) ..

/-- When every index has an object, the loop reads them all. -/
theorem Store.readParts_eq {store : Store} {uploadId : String} {f : ℕ → Bytes} {indices : List ℕ}
    (h : ∀ i ∈ indices, ∃ object, store (.staging uploadId i) = some object ∧ object.data = f i) :
    store.readParts uploadId indices = .ok (indices.map f) := by
  induction indices with
  | nil => rfl
  | cons i indices ih =>
    obtain ⟨object, hobject, hdata⟩ := h i (by simp)
    have hrest := ih fun j hj => h j (by simp [hj])
    simp [readParts, hobject, hrest, hdata]

/-- The loop fails for want of an object, and in no other way. -/
theorem Store.readParts_error {store : Store} {uploadId : String} {indices : List ℕ}
    {err : Failure} (h : store.readParts uploadId indices = .error err) :
    err = .s3 "NoSuchKey" ∧ ∃ i ∈ indices, store (.staging uploadId i) = none := by
  induction indices with
  | nil => cases h
  | cons i indices ih =>
    rw [readParts] at h
    cases hobject : store (.staging uploadId i) with
    | none =>
      rw [hobject] at h
      exact ⟨(Except.error.inj h).symm, i, by simp, hobject⟩
    | some object =>
      rw [hobject] at h
      cases hrest : store.readParts uploadId indices with
      | error err' =>
        simp only [hrest] at h
        obtain rfl := Except.error.inj h
        obtain ⟨herr, j, hj, hnone⟩ := ih hrest
        exact ⟨herr, j, by simp [hj], hnone⟩
      | ok parts => simp [hrest] at h

theorem Store.assembleStaging_eq {store : Store} {uploadId : String} {f : ℕ → Bytes} {total : ℕ}
    (h : ∀ i < total, ∃ object, store (.staging uploadId i) = some object ∧ object.data = f i) :
    store.assembleStaging uploadId total = .ok ((List.range total).map f).flatten := by
  unfold assembleStaging
  rw [readParts_eq fun i hi => h i (List.mem_range.mp hi)]
  rfl

theorem Store.assembleStaging_error {store : Store} {uploadId : String} {total : ℕ}
    {err : Failure} (h : store.assembleStaging uploadId total = .error err) :
    err = .s3 "NoSuchKey" ∧ ∃ i < total, store (.staging uploadId i) = none := by
  unfold assembleStaging at h
  cases hparts : store.readParts uploadId (List.range total) with
  | error err' =>
    rw [hparts] at h
    obtain rfl := Except.error.inj h
    obtain ⟨herr, i, hi, hnone⟩ := readParts_error hparts
    exact ⟨herr, i, List.mem_range.mp hi, hnone⟩
  | ok parts => simp [hparts, Except.map] at h

/-- `delete_staging` removes the chunks below its bound and nothing else. -/
theorem Store.deleteStaging_apply (store : Store) (uploadId : String) (total : ℕ)
    (key : ObjectKey) :
    store.deleteStaging uploadId total key =
      if ∃ i < total, key = .staging uploadId i then none else store key := by
  induction total with
  | zero => simp [deleteStaging]
  | succ total ih =>
    have hstep : store.deleteStaging uploadId (total + 1) =
        (store.deleteStaging uploadId total).deleteObject (.staging uploadId total) := by
      simp [deleteStaging, List.range_succ]
    rw [hstep]
    by_cases hkey : key = .staging uploadId total
    · subst hkey
      rw [if_pos ⟨total, by omega, rfl⟩]
      exact Function.update_self ..
    · have hiff : (∃ i < total + 1, key = .staging uploadId i) ↔
          ∃ i < total, key = .staging uploadId i := by
        constructor
        · rintro ⟨i, hi, rfl⟩
          have hne : i ≠ total := fun h => hkey (by rw [h])
          exact ⟨i, by omega, rfl⟩
        · rintro ⟨i, hi, rfl⟩
          exact ⟨i, by omega, rfl⟩
      rw [if_congr hiff rfl rfl, ← ih]
      exact Function.update_of_ne hkey ..

/-! ## Who finds an upload -/

theorem loadState_eq_ok {server : MediaServer} {uploadId : String} {userId : UUID}
    {state : UploadState} :
    loadState server uploadId userId = .ok state ↔
      server.states.get server.now uploadId = some state ∧ state.userId = userId.str := by
  unfold loadState
  cases server.states.get server.now uploadId with
  | none => simp
  | some found =>
    by_cases h : found.userId = userId.str
    · simp only [h, ne_eq, not_true_eq_false, if_false, Except.ok.injEq, Option.some.injEq]
      constructor
      · rintro rfl
        exact ⟨rfl, h⟩
      · exact fun h' => h'.1
    · simp only [h, ne_eq, not_false_eq_true, if_true, reduceCtorEq, Option.some.injEq, false_iff]
      rintro ⟨rfl, h'⟩
      exact h h'

theorem loadState_error {server : MediaServer} {uploadId : String} {userId : UUID}
    {err : Failure} (h : loadState server uploadId userId = .error err) : err = .http notFound := by
  unfold loadState at h
  split at h
  · exact (Except.error.inj h).symm
  · split_ifs at h
    exact (Except.error.inj h).symm

theorem mem_missingChunks {state : UploadState} {received : Finset ℕ} {i : ℕ} :
    i ∈ missingChunks state received ↔ i < state.totalChunks ∧ i ∉ received := by
  simp [missingChunks]

theorem missingChunks_eq_nil {state : UploadState} {received : Finset ℕ} :
    missingChunks state received = [] ↔ ∀ i < state.totalChunks, i ∈ received := by
  simp [missingChunks, List.filter_eq_nil_iff]

end IronLink.Media
