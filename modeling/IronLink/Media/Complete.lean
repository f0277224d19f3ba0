import IronLink.Lib.Calls
import IronLink.Lib.Run
import IronLink.Media.Fresh

/-!
# Concurrent completes

Any number of `upload_complete` and `upload_chunk` calls for one upload, each on
its own API replica, interleaved between any two Redis commands and storage
calls, and completes may be cut off there. A chunk that another complete deletes
while this one is past its check of the missing chunks leaves a mark on this one.

Results:
* `overlap_twoObjects`: two completes that both miss no chunk store two media
  objects for the upload.
* `finalisedOnce_of_oneAtATime`: as long as no complete begins while another one
  runs, and none is cut off after it has stored something, one media object and
  one thumbnail are stored at most, and a complete that succeeds returns the
  object made of the chunks it has read: the state it deletes at the end refuses
  all later ones.
-/

namespace IronLink.Media

open Lib Auth

/-! ## Model -/

/-- Where an `upload_complete` call stands: the Redis command or storage call it is
    about to make, and the local variables it still needs. `parts` are the chunks
    it has read, in order. -/
inductive CompletePc
  | load
  | members (state : UploadState)
  | read (state : UploadState) (parts : List Bytes)
  | discard (state : UploadState) (i : ℕ)
  | thumb (state : UploadState) (parts : List Bytes) (data thumb : Bytes)
  | media (state : UploadState) (parts : List Bytes) (data : Bytes) (thumbnailKey : Option String)
  | clear (state : UploadState) (parts : List Bytes) (i : ℕ) (out : UploadCompleteOut)
  | forget (parts : List Bytes) (out : UploadCompleteOut)
  | refused (err : Failure)
  /-- a storage or Redis call has raised, or the replica has stopped -/
  | cutOff
  | finished (parts : List Bytes) (out : UploadCompleteOut)

/-- An `upload_complete` call; `disturbed`: since it missed no chunk, another
    complete has deleted one. -/
structure CompleteCall where
  userId : UUID
  pc : CompletePc
  disturbed : Bool

/-- Where an `upload_chunk` call stands. -/
inductive ChunkPc
  | load
  | put (i : ℕ)
  | sadd (i : ℕ)
  | expire
  | done (result : Except Failure Unit)

structure ChunkCall where
  userId : UUID
  chunkIndex : ℤ
  data : Bytes
  pc : ChunkPc

/-- The server, the calls, and the keys of the media objects and thumbnails that
    completes have stored. -/
structure UploadSystem where
  server : MediaServer
  completes : List CompleteCall
  puts : List ChunkCall
  media : List String
  thumbs : List String

/-- What a step of a complete does: the new server, where the call goes on, the keys
    it has stored under, and whether it has deleted a staged chunk. -/
structure Turn where
  server : MediaServer
  pc : CompletePc
  media : List String
  thumbs : List String
  deleted : Bool

/-- A step that stores and deletes nothing. -/
def Turn.goto (server : MediaServer) (pc : CompletePc) : Turn := ⟨server, pc, [], [], false⟩

section

variable {Image : Type} (pillow : Option (Pillow Image)) (uploadId : String)

/-- The next call of the loop in `delete_staging`, on the way to the refusal. -/
def discardFrom (state : UploadState) (i : ℕ) : CompletePc :=
  if i < state.totalChunks then .discard state i else .refused (.http sizeMismatch)

/-- The next call of the loop in `delete_staging` after the media object is stored. -/
def clearFrom (state : UploadState) (parts : List Bytes) (i : ℕ) (out : UploadCompleteOut) :
    CompletePc :=
  if i < state.totalChunks then .clear state parts i out else .forget parts out

/-- From one `get_object` of `assemble_staging` to the next call. -/
def afterRead (state : UploadState) (parts : List Bytes) : CompletePc :=
  if parts.length < state.totalChunks then .read state parts
  else if parts.flatten.length ≠ state.totalSize then discardFrom state 0
  else
    match processed pillow state.mimeType parts.flatten with
    | none => .refused .pillow
    | some (data, none) => .media state parts data none
    | some (data, some thumb) => .thumb state parts data thumb

/-- One step of `upload_complete` (app/api/routes/media.py:167-228); `hex` is that of
    the `uuid4` key it draws, which is no key of the bucket yet. -/
def completeTurn (server : MediaServer) (userId : UUID) (hex : String) :
    CompletePc → Option Turn
  | .load =>
    match loadState server uploadId userId with
    | .error err => some (.goto server (.refused err))
    | .ok state => some (.goto server (.members state))
  | .members state =>
    let missing := missingChunks state (server.chunks.smembers server.now uploadId)
    if missing ≠ [] then some (.goto server (.refused (.http (incomplete missing))))
    else some (.goto server (afterRead pillow state []))
  | .read state parts =>
    match server.store (.staging uploadId parts.length) with
    | none => some (.goto server (.refused (.s3 "NoSuchKey")))
    | some object => some (.goto server (afterRead pillow state (parts ++ [object.data])))
  | .discard state i =>
    some ⟨{ server with store := server.store.deleteObject (.staging uploadId i) },
      discardFrom state (i + 1), [], [], (server.store (.staging uploadId i)).isSome⟩
  | .thumb state parts data thumb =>
    if (server.store (.media (thumbnailKey hex))).isSome then none
    else
      some ⟨{ server with
          store := server.store.putObject (thumbnailKey hex) thumb "image/jpeg" },
        .media state parts data (some (thumbnailKey hex)), [], [thumbnailKey hex], false⟩
  | .media state parts data thumbnailKey =>
    let mediaKey := hex ++ extFor state.mimeType
    if (server.store (.media mediaKey)).isSome then none
    else
      some ⟨{ server with store := server.store.putObject mediaKey data state.mimeType },
        clearFrom state parts 0 ⟨mediaKey, state.mimeType, data.length, thumbnailKey⟩,
        [mediaKey], [], false⟩
  | .clear state parts i out =>
    some ⟨{ server with store := server.store.deleteObject (.staging uploadId i) },
      clearFrom state parts (i + 1) out, [], [], (server.store (.staging uploadId i)).isSome⟩
  | .forget parts out =>
    some (.goto { server with
        states := server.states.del uploadId
        chunks := server.chunks.del uploadId } (.finished parts out))
  | .refused _ => none
  | .cutOff => none
  | .finished _ _ => none

/-- One step of `upload_chunk` (app/api/routes/media.py:125-144). -/
def chunkTurn (server : MediaServer) (call : ChunkCall) : Option (MediaServer × ChunkPc) :=
  match call.pc with
  | .load =>
    match loadState server uploadId call.userId with
    | .error err => some (server, .done (.error err))
    | .ok state =>
      if ¬ (0 ≤ call.chunkIndex ∧ call.chunkIndex < state.totalChunks) then
        some (server, .done (.error (.http ⟨400, "chunk index out of range"⟩)))
      else if CHUNK_SIZE < call.data.length then
        some (server, .done (.error (.http ⟨413, "chunk too large"⟩)))
      else if call.data = [] then some (server, .done (.error (.http ⟨400, "empty chunk"⟩)))
      else some (server, .put call.chunkIndex.toNat)
  | .put i =>
    some ({ server with store := server.store.putStagingChunk uploadId i call.data }, .sadd i)
  | .sadd i =>
    some ({ server with chunks := server.chunks.sadd server.now uploadId i }, .expire)
  | .expire =>
    some ({ server with
      chunks := server.chunks.expire server.now uploadId (server.now + UPLOAD_STATE_TTL) },
      .done (.ok ()))
  | .done _ => none

/-- A complete that has missed no chunk and has not been refused. -/
def CompletePc.passed : CompletePc → Bool
  | .load | .members _ | .refused _ | .cutOff => false
  | _ => true

/-- The call has loaded the state and not returned or raised. -/
def CompletePc.running : CompletePc → Bool
  | .load | .refused _ | .cutOff | .finished _ _ => false
  | _ => true

/-- What a step of the `k`-th complete leaves of another one. -/
def CompleteCall.seeing (turn : Turn) (k j : ℕ) (call : CompleteCall) : CompleteCall :=
  if turn.deleted && call.pc.passed && decide (j ≠ k) then { call with disturbed := true }
  else call

/-- The system after a step of the `k`-th complete. -/
def UploadSystem.take (sys : UploadSystem) (k : ℕ) (call : CompleteCall) (turn : Turn) :
    UploadSystem :=
  { sys with
    server := turn.server
    completes := (sys.completes.mapIdx (CompleteCall.seeing turn k)).set k
      { call with pc := turn.pc }
    media := sys.media ++ turn.media
    thumbs := sys.thumbs ++ turn.thumbs }

/-- The `k`-th complete or the `k`-th chunk moves, the `k`-th complete is cut off, or
    time passes. -/
inductive UploadAction
  | complete (k : ℕ) (hex : String)
  | cut (k : ℕ)
  | chunk (k : ℕ)
  | wait (d : ℕ)

def uploadStep (sys : UploadSystem) : UploadAction → Option UploadSystem
  | .complete k hex =>
    match sys.completes[k]? with
    | none => none
    | some call =>
      (completeTurn pillow uploadId sys.server call.userId hex call.pc).map (sys.take k call)
  | .cut k =>
    match sys.completes[k]? with
    | none => none
    | some call =>
      if call.pc.running then
        some { sys with completes := sys.completes.set k { call with pc := .cutOff } }
      else none
  | .chunk k =>
    match sys.puts[k]? with
    | none => none
    | some call =>
      (chunkTurn uploadId sys.server call).map fun turn =>
        { sys with server := turn.1, puts := sys.puts.set k { call with pc := turn.2 } }
  | .wait d => some { sys with server := { sys.server with now := sys.server.now + d } }

/-! ## The guarantee -/

/-- The upload was finalised once at most, and every complete that succeeded returned
    an object made of the chunks it has read, none of which another complete has
    deleted meanwhile. -/
structure FinalisedOnce (sys : UploadSystem) : Prop where
  media : sys.media.length ≤ 1
  thumbs : sys.thumbs.length ≤ 1
  assembled : ∀ call ∈ sys.completes, ∀ parts out, call.pc = .finished parts out →
    call.disturbed = false ∧ ∃ data thumb,
      processed pillow out.mimeType parts.flatten = some (data, thumb) ∧
        sys.server.store (.media out.mediaKey) = some ⟨data, out.mimeType⟩

end

/-- The call has stored its media object. -/
def CompletePc.storedMedia : CompletePc → Bool
  | .clear .. | .forget .. | .finished .. => true
  | _ => false

/-- The call has stored a thumbnail. -/
def CompletePc.storedThumb : CompletePc → Bool
  | .media _ _ _ thumbnailKey => thumbnailKey.isSome
  | .clear _ _ _ out | .forget _ out | .finished _ out => out.thumbnailKey.isSome
  | _ => false

/-- No complete begins while another one runs, and none is cut off after it has stored
    something. -/
def OneAtATime (sys : UploadSystem) : UploadAction → Prop
  | .complete k _ => ∀ call ∈ sys.completes[k]?, call.pc.running = false →
      ∀ other ∈ sys.completes, other.pc.running = false
  | .cut k => ∀ call ∈ sys.completes[k]?,
      call.pc.storedMedia = false ∧ call.pc.storedThumb = false
  | _ => True

instance (sys : UploadSystem) : ∀ action, Decidable (OneAtATime sys action)
  | .complete k _ => inferInstanceAs (Decidable (∀ call ∈ sys.completes[k]?,
      call.pc.running = false → ∀ other ∈ sys.completes, other.pc.running = false))
  | .cut k => inferInstanceAs (Decidable (∀ call ∈ sys.completes[k]?,
      call.pc.storedMedia = false ∧ call.pc.storedThumb = false))
  | .chunk _ | .wait _ => isTrue trivial

/-- No call has taken a step. -/
structure AtStart (sys : UploadSystem) : Prop where
  completes : ∀ call ∈ sys.completes, call.pc = .load ∧ call.disturbed = false
  puts : ∀ call ∈ sys.puts, call.pc = .load
  media : sys.media = []
  thumbs : sys.thumbs = []

/-! ## What a step of a complete does -/

/-- The call has returned a media object. -/
def CompletePc.isFinished : CompletePc → Bool
  | .finished .. => true
  | _ => false

/-- The call runs or has returned a media object. -/
def CompletePc.begun (pc : CompletePc) : Bool := pc.running || pc.isFinished

theorem CompletePc.begun_of_passed {pc : CompletePc} (h : pc.passed = true) :
    pc.begun = true := by
  cases pc <;> simp_all [passed, begun, running, isFinished]

theorem CompletePc.begun_of_storedMedia {pc : CompletePc} (h : pc.storedMedia = true) :
    pc.begun = true := by
  cases pc <;> simp_all [storedMedia, begun, running, isFinished]

theorem CompletePc.begun_of_storedThumb {pc : CompletePc} (h : pc.storedThumb = true) :
    pc.begun = true := by
  cases pc <;> simp_all [storedThumb, begun, running, isFinished]

section

variable {Image : Type} {pillow : Option (Pillow Image)} {uploadId : String}

/-- What the call holds is made of the chunks it has read, and what it has stored is
    in the bucket. -/
def CompletePc.Assembled (pillow : Option (Pillow Image)) (store : Store) : CompletePc → Prop
  | .thumb state parts data thumbnail =>
    processed pillow state.mimeType parts.flatten = some (data, some thumbnail)
  | .media state parts data _ =>
    ∃ thumbnail, processed pillow state.mimeType parts.flatten = some (data, thumbnail)
  | .clear _ parts _ out | .forget parts out | .finished parts out =>
    ∃ data thumbnail, processed pillow out.mimeType parts.flatten = some (data, thumbnail) ∧
      store (.media out.mediaKey) = some ⟨data, out.mimeType⟩
  | _ => True

/-- A bucket that keeps its media objects keeps what the calls rely on. -/
theorem CompletePc.Assembled.mono {store store' : Store} {pc : CompletePc}
    (h : pc.Assembled pillow store)
    (hkeep : ∀ key object, store (.media key) = some object → store' (.media key) = some object) :
    pc.Assembled pillow store' := by
  cases pc with
  | clear state parts i out =>
    obtain ⟨data, thumb, hdata, hstored⟩ := h
    exact ⟨data, thumb, hdata, hkeep _ _ hstored⟩
  | forget parts out =>
    obtain ⟨data, thumb, hdata, hstored⟩ := h
    exact ⟨data, thumb, hdata, hkeep _ _ hstored⟩
  | finished parts out =>
    obtain ⟨data, thumb, hdata, hstored⟩ := h
    exact ⟨data, thumb, hdata, hkeep _ _ hstored⟩
  | _ => exact h

theorem discardFrom_eq (state : UploadState) (i : ℕ) :
    (∃ j, discardFrom state i = .discard state j) ∨
      ∃ err, discardFrom state i = .refused err := by
  unfold discardFrom
  split_ifs
  · exact .inl ⟨i, rfl⟩
  · exact .inr ⟨_, rfl⟩

theorem clearFrom_eq (state : UploadState) (parts : List Bytes) (i : ℕ)
    (out : UploadCompleteOut) : (∃ j, clearFrom state parts i out = .clear state parts j out) ∨
      clearFrom state parts i out = .forget parts out := by
  unfold clearFrom
  split_ifs
  · exact .inl ⟨i, rfl⟩
  · exact .inr rfl

/-- Where a call goes on after reading: nothing is stored yet. -/
theorem afterRead_spec (pillow : Option (Pillow Image)) (state : UploadState)
    (parts : List Bytes) (store : Store) :
    (afterRead pillow state parts).storedMedia = false ∧
      (afterRead pillow state parts).storedThumb = false ∧
      (afterRead pillow state parts).Assembled pillow store := by
  unfold afterRead
  split_ifs
  · exact ⟨rfl, rfl, trivial⟩
  · obtain ⟨j, hj⟩ | ⟨err, herr⟩ := discardFrom_eq state 0
    · rw [hj]
      exact ⟨rfl, rfl, trivial⟩
    · rw [herr]
      exact ⟨rfl, rfl, trivial⟩
  · split
    · exact ⟨rfl, rfl, trivial⟩
    · next data hdata => exact ⟨rfl, rfl, none, hdata⟩
    · next data thumb hdata => exact ⟨rfl, rfl, hdata⟩

/-- What a step stores and deletes: only a call that has passed its check deletes; the
    keys it stores under are counted by where it stands; media objects stay. -/
structure TurnSpec (pillow : Option (Pillow Image)) (server : MediaServer) (pc : CompletePc)
    (turn : Turn) : Prop where
  deletes : turn.deleted = true → pc.passed = true
  media : turn.media.length + (if pc.storedMedia then 1 else 0) =
    if turn.pc.storedMedia then 1 else 0
  thumbs : turn.thumbs.length + (if pc.storedThumb then 1 else 0) ≤
    if turn.pc.storedThumb then 1 else 0
  keeps : ∀ key object, server.store (.media key) = some object →
    turn.server.store (.media key) = some object
  assembled : pc.Assembled pillow server.store → turn.pc.Assembled pillow turn.server.store

theorem deleteObject_media (store : Store) (uploadId : String) (i : ℕ) (key : String) :
    store.deleteObject (.staging uploadId i) (.media key) = store (.media key) :=
  Function.update_of_ne (by simp) ..

/-- A key that is not in use can be stored under without losing another object. -/
theorem putObject_keeps {store : Store} {objectKey key : String} {object : Object}
    (hfree : ¬ (store (.media objectKey)).isSome) (h : store (.media key) = some object)
    (data : Bytes) (mimeType : String) :
    store.putObject objectKey data mimeType (.media key) = some object := by
  rw [← h]
  apply Function.update_of_ne
  rintro hkey
  cases hkey
  rw [h] at hfree
  exact hfree rfl

/-- A refusal, from where nothing was stored. -/
theorem TurnSpec.refused {server : MediaServer} {pc : CompletePc} (hm : pc.storedMedia = false)
    (ht : pc.storedThumb = false) (err : Failure) :
    TurnSpec pillow server pc (.goto server (.refused err)) := by
  refine ⟨fun hd => (by cases hd), ?_, ?_, fun _ _ ho => ho, fun _ => trivial⟩
  · rw [hm]
    rfl
  · rw [ht]
    rfl

/-- The way on after the check or after a chunk. -/
theorem TurnSpec.read {server : MediaServer} {pc : CompletePc} {state : UploadState}
    {parts : List Bytes} (hm : pc.storedMedia = false) (ht : pc.storedThumb = false) :
    TurnSpec pillow server pc (.goto server (afterRead pillow state parts)) := by
  obtain ⟨hm', ht', ha⟩ := afterRead_spec pillow state parts server.store
  refine ⟨fun hd => (by cases hd), ?_, ?_, fun _ _ ho => ho, fun _ => ha⟩
  · show 0 + (if pc.storedMedia then 1 else 0) =
      if (Media.afterRead pillow state parts).storedMedia then 1 else 0
    rw [hm, hm']
    rfl
  · show 0 + (if pc.storedThumb then 1 else 0) ≤
      if (Media.afterRead pillow state parts).storedThumb then 1 else 0
    rw [ht, ht']
    exact le_refl _

theorem completeTurn_spec {server : MediaServer} {userId : UUID} {hex : String}
    {pc : CompletePc} {turn : Turn}
    (h : completeTurn pillow uploadId server userId hex pc = some turn) :
    TurnSpec pillow server pc turn := by
  cases pc with
  | load =>
    simp only [completeTurn] at h
    split at h
    · obtain rfl := Option.some.inj h
      exact .refused rfl rfl _
    · obtain rfl := Option.some.inj h
      exact ⟨fun hd => (by cases hd), rfl, le_refl _, fun _ _ ho => ho, fun _ => trivial⟩
  | members state =>
    simp only [completeTurn] at h
    split_ifs at h with hmissing
    · obtain rfl := Option.some.inj h
      exact .refused rfl rfl _
    · obtain rfl := Option.some.inj h
      exact .read rfl rfl
  | read state parts =>
    simp only [completeTurn] at h
    split at h
    · obtain rfl := Option.some.inj h
      exact .refused rfl rfl _
    · obtain rfl := Option.some.inj h
      exact .read rfl rfl
  | discard state i =>
    obtain rfl := Option.some.inj h
    have hkeeps : ∀ key object, server.store (.media key) = some object →
        server.store.deleteObject (.staging uploadId i) (.media key) = some object :=
      fun key object ho => (deleteObject_media ..).trans ho
    obtain ⟨j, hj⟩ | ⟨err, herr⟩ := discardFrom_eq state (i + 1)
    · rw [hj]
      exact ⟨fun _ => rfl, rfl, le_refl _, hkeeps, fun _ => trivial⟩
    · rw [herr]
      exact ⟨fun _ => rfl, rfl, le_refl _, hkeeps, fun _ => trivial⟩
  | thumb state parts data thumb =>
    simp only [completeTurn] at h
    split_ifs at h with hfree
    obtain rfl := Option.some.inj h
    exact ⟨fun _ => rfl, rfl, le_refl _,
      fun key object ho => putObject_keeps hfree ho thumb "image/jpeg",
      fun ha => ⟨some thumb, ha⟩⟩
  | media state parts data thumbnailKey =>
    simp only [completeTurn] at h
    split_ifs at h with hfree
    obtain rfl := Option.some.inj h
    have hkeeps : ∀ key object, server.store (.media key) = some object →
        server.store.putObject (hex ++ extFor state.mimeType) data state.mimeType (.media key) =
          some object := fun key object ho => putObject_keeps hfree ho data state.mimeType
    have hstored : server.store.putObject (hex ++ extFor state.mimeType) data state.mimeType
        (.media (hex ++ extFor state.mimeType)) = some ⟨data, state.mimeType⟩ :=
      Function.update_self ..
    obtain ⟨j, hj⟩ | hforget := clearFrom_eq state parts 0
      ⟨hex ++ extFor state.mimeType, state.mimeType, data.length, thumbnailKey⟩
    · rw [hj]
      exact ⟨fun _ => rfl, rfl, (Nat.zero_add _).le, hkeeps,
        fun ⟨thumb, hdata⟩ => ⟨data, thumb, hdata, hstored⟩⟩
    · rw [hforget]
      exact ⟨fun _ => rfl, rfl, (Nat.zero_add _).le, hkeeps,
        fun ⟨thumb, hdata⟩ => ⟨data, thumb, hdata, hstored⟩⟩
  | clear state parts i out =>
    obtain rfl := Option.some.inj h
    have hkeeps : ∀ key object, server.store (.media key) = some object →
        server.store.deleteObject (.staging uploadId i) (.media key) = some object :=
      fun key object ho => (deleteObject_media ..).trans ho
    obtain ⟨j, hj⟩ | hforget := clearFrom_eq state parts (i + 1) out
    · rw [hj]
      exact ⟨fun _ => rfl, rfl, (Nat.zero_add _).le, hkeeps,
        fun ⟨data, thumb, hdata, hstored⟩ => ⟨data, thumb, hdata, hkeeps _ _ hstored⟩⟩
    · rw [hforget]
      exact ⟨fun _ => rfl, rfl, (Nat.zero_add _).le, hkeeps,
        fun ⟨data, thumb, hdata, hstored⟩ => ⟨data, thumb, hdata, hkeeps _ _ hstored⟩⟩
  | forget parts out =>
    obtain rfl := Option.some.inj h
    exact ⟨fun _ => rfl, rfl, (Nat.zero_add _).le, fun _ _ ho => ho,
      fun ha => ha⟩
  | refused err => cases h
  | cutOff => cases h
  | finished parts out => cases h

theorem isFinished_discardFrom (state : UploadState) (i : ℕ) :
    (discardFrom state i).isFinished = false := by
  obtain ⟨j, hj⟩ | ⟨err, herr⟩ := discardFrom_eq state i
  · rw [hj]
    rfl
  · rw [herr]
    rfl

theorem isFinished_clearFrom (state : UploadState) (parts : List Bytes) (i : ℕ)
    (out : UploadCompleteOut) : (clearFrom state parts i out).isFinished = false := by
  obtain ⟨j, hj⟩ | hforget := clearFrom_eq state parts i out
  · rw [hj]
    rfl
  · rw [hforget]
    rfl

theorem isFinished_afterRead (state : UploadState) (parts : List Bytes) :
    (afterRead pillow state parts).isFinished = false := by
  unfold afterRead
  split_ifs
  · rfl
  · exact isFinished_discardFrom state 0
  · split <;> rfl

/-- Only a call that has not returned moves. -/
theorem completeTurn_unfinished {server : MediaServer} {userId : UUID} {hex : String}
    {pc : CompletePc} {turn : Turn}
    (h : completeTurn pillow uploadId server userId hex pc = some turn) :
    pc.isFinished = false := by
  cases pc with
  | finished parts out => cases h
  | _ => rfl

/-- A call begins where there is a state to load. -/
theorem completeTurn_begins {server : MediaServer} {userId : UUID} {hex : String}
    {pc : CompletePc} {turn : Turn}
    (h : completeTurn pillow uploadId server userId hex pc = some turn)
    (hidle : pc.running = false) (hbegun : turn.pc.begun = true) :
    server.states uploadId ≠ none := by
  cases pc with
  | load =>
    intro hnone
    have hget : server.states.get server.now uploadId = none := by
      unfold TtlMap.get TtlMap.lookup
      rw [hnone]
      rfl
    simp only [completeTurn, loadState, hget] at h
    obtain rfl := Option.some.inj h
    cases hbegun
  | refused err => cases h
  | cutOff => cases h
  | finished parts out => cases h
  | _ => cases hidle

/-- The state of the upload is only ever deleted, and it is by the time a call
    returns. -/
theorem completeTurn_states {server : MediaServer} {userId : UUID} {hex : String}
    {pc : CompletePc} {turn : Turn}
    (h : completeTurn pillow uploadId server userId hex pc = some turn) :
    turn.server.states uploadId = none ∨
      turn.server.states = server.states ∧ turn.pc.isFinished = false := by
  cases pc with
  | load =>
    simp only [completeTurn] at h
    split at h <;> obtain rfl := Option.some.inj h <;> exact .inr ⟨rfl, rfl⟩
  | members state =>
    simp only [completeTurn] at h
    split_ifs at h <;> obtain rfl := Option.some.inj h
    · exact .inr ⟨rfl, rfl⟩
    · exact .inr ⟨rfl, isFinished_afterRead state []⟩
  | read state parts =>
    simp only [completeTurn] at h
    split at h <;> obtain rfl := Option.some.inj h
    · exact .inr ⟨rfl, rfl⟩
    · exact .inr ⟨rfl, isFinished_afterRead state _⟩
  | discard state i =>
    obtain rfl := Option.some.inj h
    exact .inr ⟨rfl, isFinished_discardFrom state (i + 1)⟩
  | thumb state parts data thumb =>
    simp only [completeTurn] at h
    split_ifs at h
    obtain rfl := Option.some.inj h
    exact .inr ⟨rfl, rfl⟩
  | media state parts data thumbnailKey =>
    simp only [completeTurn] at h
    split_ifs at h
    obtain rfl := Option.some.inj h
    exact .inr ⟨rfl, isFinished_clearFrom state parts 0 _⟩
  | clear state parts i out =>
    obtain rfl := Option.some.inj h
    exact .inr ⟨rfl, isFinished_clearFrom state parts (i + 1) out⟩
  | forget parts out =>
    obtain rfl := Option.some.inj h
    exact .inl (TtlMap.del_self ..)
  | refused err => cases h
  | cutOff => cases h
  | finished parts out => cases h

/-- A chunk touches no media object. -/
theorem chunkTurn_media {server server' : MediaServer} {call : ChunkCall} {pc : ChunkPc}
    (h : chunkTurn uploadId server call = some (server', pc)) (key : String) :
    server'.store (.media key) = server.store (.media key) := by
  unfold chunkTurn at h
  split at h
  · split at h
    · cases h
      rfl
    · split_ifs at h <;> cases h <;> rfl
  · next i _ =>
    cases h
    have hne : ObjectKey.media key ≠ .staging uploadId i := by simp
    exact Store.putStagingChunk_of_ne hne call.data
  · cases h
    rfl
  · cases h
    rfl
  · cases h

/-- A chunk leaves the state of the upload alone. -/
theorem chunkTurn_states {server server' : MediaServer} {call : ChunkCall} {pc : ChunkPc}
    (h : chunkTurn uploadId server call = some (server', pc)) :
    server'.states = server.states := by
  unfold chunkTurn at h
  split at h
  · split at h
    · cases h
      rfl
    · split_ifs at h <;> cases h <;> rfl
  · cases h
    rfl
  · cases h
    rfl
  · cases h
    rfl
  · cases h

/-! ## The invariant -/

/-- One complete at most runs or has returned, and then the state is gone; what was
    stored for the upload was stored by it. -/
structure Alone (pillow : Option (Pillow Image)) (uploadId : String) (sys : UploadSystem) :
    Prop where
  begun : sys.completes.countP (·.pc.begun) ≤ 1
  forgotten : ∀ call ∈ sys.completes, call.pc.isFinished = true →
    sys.server.states uploadId = none
  media : sys.media.length = sys.completes.countP (·.pc.storedMedia)
  thumbs : sys.thumbs.length ≤ sys.completes.countP (·.pc.storedThumb)
  undisturbed : ∀ call ∈ sys.completes, call.disturbed = false
  assembled : ∀ call ∈ sys.completes, call.pc.Assembled pillow sys.server.store

theorem Alone.finalisedOnce {sys : UploadSystem} (h : Alone pillow uploadId sys) :
    FinalisedOnce pillow sys := by
  refine ⟨?_, ?_, fun call hcall parts out hpc => ⟨h.undisturbed call hcall, ?_⟩⟩
  · rw [h.media]
    exact le_trans (List.countP_mono_left fun call _ => CompletePc.begun_of_storedMedia) h.begun
  · exact le_trans h.thumbs
      (le_trans (List.countP_mono_left fun call _ => CompletePc.begun_of_storedThumb) h.begun)
  · have hassembled := h.assembled call hcall
    rw [hpc] at hassembled
    exact hassembled

/-- A complete that runs alone disturbs no other. -/
theorem Alone.seeing {sys : UploadSystem} (h : Alone pillow uploadId sys) {k : ℕ}
    {call : CompleteCall} (hk : sys.completes[k]? = some call) {turn : Turn}
    (hturn : TurnSpec pillow sys.server call.pc turn) :
    sys.completes.mapIdx (CompleteCall.seeing turn k) = sys.completes := by
  apply List.ext_getElem?
  intro j
  rw [List.getElem?_mapIdx]
  cases hj : sys.completes[j]? with
  | none => rfl
  | some other =>
    show some (CompleteCall.seeing turn k j other) = some other
    rw [CompleteCall.seeing, if_neg]
    intro hdisturb
    simp only [Bool.and_eq_true, decide_eq_true_eq] at hdisturb
    obtain ⟨⟨hdeleted, hpassed⟩, hne⟩ := hdisturb
    exact hne (eq_of_countP_le_one h.begun hj hk (CompletePc.begun_of_passed hpassed)
      (CompletePc.begun_of_passed (hturn.deletes hdeleted)))

/-- Before a complete that does not run begins, no other runs or has returned. -/
theorem Alone.countP_begun_eq_zero {sys : UploadSystem} (h : Alone pillow uploadId sys)
    (hstate : sys.server.states uploadId ≠ none)
    (hidle : ∀ other ∈ sys.completes, other.pc.running = false) :
    sys.completes.countP (·.pc.begun) = 0 := by
  rw [List.countP_eq_zero]
  intro other hother hbegun
  rcases Bool.or_eq_true_iff.mp hbegun with hrunning | hfinished
  · rw [hidle other hother] at hrunning
    cases hrunning
  · exact hstate (h.forgotten other hother hfinished)

theorem Alone.complete {sys sys' : UploadSystem} (h : Alone pillow uploadId sys) {k : ℕ}
    {hex : String} (hg : OneAtATime sys (.complete k hex))
    (hs : uploadStep pillow uploadId sys (.complete k hex) = some sys') :
    Alone pillow uploadId sys' := by
  simp only [uploadStep] at hs
  cases hk : sys.completes[k]? with
  | none => simp [hk] at hs
  | some call =>
    simp only [hk] at hs
    obtain ⟨turn, hturn, rfl⟩ := Option.map_eq_some_iff.mp hs
    have hspec := completeTurn_spec hturn
    have hmem := List.mem_of_getElem? hk
    have hcompletes : (sys.take k call turn).completes =
        sys.completes.set k { call with pc := turn.pc } := by
      show (sys.completes.mapIdx (CompleteCall.seeing turn k)).set k _ = _
      rw [h.seeing hk hspec]
    refine ⟨?_, ?_, ?_, ?_, ?_, ?_⟩
    · rw [hcompletes]
      have hcount := countP_set_add (fun c : CompleteCall => c.pc.begun) hk
        { call with pc := turn.pc }
      have hone := h.begun
      by_cases hrunning : call.pc.running = true
      · have hbegun : call.pc.begun = true := Bool.or_eq_true_iff.mpr (.inl hrunning)
        simp only [hbegun, if_true] at hcount
        split_ifs at hcount <;> omega
      · have hidle := Bool.eq_false_iff.mpr hrunning
        have hbegun : call.pc.begun = false :=
          Bool.or_eq_false_iff.mpr ⟨hidle, completeTurn_unfinished hturn⟩
        by_cases hnew : turn.pc.begun = true
        · -- the call loads the state now, so none has deleted it and none runs
          have hnone := h.countP_begun_eq_zero (completeTurn_begins hturn hidle hnew)
            (hg call hk hidle)
          simp only [hbegun, hnew, if_true, Bool.false_eq_true, if_false] at hcount
          omega
        · simp only [hbegun, hnew, Bool.false_eq_true, if_false] at hcount
          omega
    · rw [hcompletes]
      show ∀ other ∈ sys.completes.set k { call with pc := turn.pc },
        other.pc.isFinished = true → turn.server.states uploadId = none
      obtain hnone | ⟨hsame, hunfinished⟩ := completeTurn_states hturn
      · exact fun _ _ _ => hnone
      · rw [hsame]
        refine forall_set h.forgotten fun hfinished => ?_
        rw [show turn.pc.isFinished = true from hfinished] at hunfinished
        cases hunfinished
    · rw [hcompletes]
      show (sys.media ++ turn.media).length = _
      have hcount := countP_set_add (fun c : CompleteCall => c.pc.storedMedia) hk
        { call with pc := turn.pc }
      have hmedia := hspec.media
      simp only at hcount
      rw [List.length_append, h.media]
      omega
    · rw [hcompletes]
      show (sys.thumbs ++ turn.thumbs).length ≤ _
      have hcount := countP_set_add (fun c : CompleteCall => c.pc.storedThumb) hk
        { call with pc := turn.pc }
      have hthumbs := hspec.thumbs
      have hold := h.thumbs
      simp only at hcount
      rw [List.length_append]
      omega
    · rw [hcompletes]
      exact forall_set h.undisturbed (h.undisturbed call hmem)
    · rw [hcompletes]
      exact forall_set (fun other hother => (h.assembled other hother).mono hspec.keeps)
        (hspec.assembled (h.assembled call hmem))

/-- A complete that is cut off before it has stored anything. -/
theorem Alone.cut {sys : UploadSystem} (h : Alone pillow uploadId sys) {k : ℕ}
    {call : CompleteCall} (hk : sys.completes[k]? = some call)
    (hmedia : call.pc.storedMedia = false) (hthumb : call.pc.storedThumb = false) :
    Alone pillow uploadId
      { sys with completes := sys.completes.set k { call with pc := .cutOff } } := by
  have hmem := List.mem_of_getElem? hk
  refine ⟨?_, forall_set h.forgotten fun hfinished => (by cases hfinished), ?_, ?_,
    forall_set h.undisturbed (h.undisturbed call hmem), forall_set h.assembled trivial⟩
  · have hcount := countP_set_add (fun c : CompleteCall => c.pc.begun) hk
      { call with pc := .cutOff }
    have hone := h.begun
    have hcut : CompletePc.cutOff.begun = false := rfl
    simp only [hcut, Bool.false_eq_true, if_false] at hcount
    exact le_trans (Nat.le_of_add_right_le hcount.le) (by simpa using hone)
  · have hcount := countP_set_add (fun c : CompleteCall => c.pc.storedMedia) hk
      { call with pc := .cutOff }
    have hcut : CompletePc.cutOff.storedMedia = false := rfl
    simp only [hcut, hmedia, Bool.false_eq_true, if_false, add_zero] at hcount
    exact h.media.trans hcount.symm
  · have hcount := countP_set_add (fun c : CompleteCall => c.pc.storedThumb) hk
      { call with pc := .cutOff }
    have hcut : CompletePc.cutOff.storedThumb = false := rfl
    simp only [hcut, hthumb, Bool.false_eq_true, if_false, add_zero] at hcount
    exact h.thumbs.trans hcount.ge

/-- A guarded step keeps the invariant. -/
theorem Alone.step {sys sys' : UploadSystem} {action : UploadAction}
    (h : Alone pillow uploadId sys) (hg : OneAtATime sys action)
    (hs : uploadStep pillow uploadId sys action = some sys') : Alone pillow uploadId sys' := by
  cases action with
  | complete k hex => exact h.complete hg hs
  | cut k =>
    simp only [uploadStep] at hs
    cases hk : sys.completes[k]? with
    | none => simp [hk] at hs
    | some call =>
      simp only [hk] at hs
      split_ifs at hs
      obtain rfl := Option.some.inj hs
      obtain ⟨hmedia, hthumb⟩ := hg call hk
      exact h.cut hk hmedia hthumb
  | chunk k =>
    simp only [uploadStep] at hs
    cases hk : sys.puts[k]? with
    | none => simp [hk] at hs
    | some call =>
      simp only [hk] at hs
      obtain ⟨⟨server', pc⟩, hturn, rfl⟩ := Option.map_eq_some_iff.mp hs
      refine ⟨h.begun, fun other hother hfinished => ?_, h.media, h.thumbs, h.undisturbed,
        fun other hother => ?_⟩
      · show server'.states uploadId = none
        rw [chunkTurn_states hturn]
        exact h.forgotten other hother hfinished
      · exact (h.assembled other hother).mono fun key object ho =>
          (chunkTurn_media hturn key).trans ho
  | wait d =>
    obtain rfl := Option.some.inj hs
    exact ⟨h.begun, h.forgotten, h.media, h.thumbs, h.undisturbed, h.assembled⟩

theorem AtStart.alone {sys : UploadSystem} (h : AtStart sys) : Alone pillow uploadId sys := by
  have hnone : ∀ p : CompletePc → Bool, p .load = false →
      sys.completes.countP (fun call => p call.pc) = 0 := by
    intro p hp
    rw [List.countP_eq_zero]
    intro call hcall
    rw [(h.completes call hcall).1, hp]
    simp
  refine ⟨?_, fun call hcall hfinished => ?_, ?_, ?_, fun call hcall => (h.completes call hcall).2,
    fun call hcall => ?_⟩
  · rw [hnone CompletePc.begun rfl]
    exact Nat.zero_le 1
  · rw [(h.completes call hcall).1] at hfinished
    cases hfinished
  · rw [hnone CompletePc.storedMedia rfl, h.media]
    rfl
  · rw [h.thumbs]
    exact Nat.zero_le _
  · rw [(h.completes call hcall).1]
    trivial

end

/-- In a run in which no complete begins while another one runs, and none is cut off
    after it has stored something, the upload is finalised once at most. -/
theorem finalisedOnce_of_oneAtATime {Image : Type} (pillow : Option (Pillow Image))
    (uploadId : String) (sys : UploadSystem) (actions : List UploadAction) (hstart : AtStart sys)
    (hg : Guarded (uploadStep pillow uploadId) OneAtATime sys actions) :
    Throughout (uploadStep pillow uploadId) (FinalisedOnce pillow) sys actions := by
  rintro pre post rfl sys' hrun
  exact ((guarded_append.mp hg).1.invariant (fun _ _ _ h hg hs => Alone.step h hg hs)
    hstart.alone hrun).finalisedOnce

/-! ## Two overlapping completes -/

/-- A file of three bytes is uploaded, and two completes are called. -/
def sampleUpload : UploadSystem :=
  { server := (uploadChunk (begunServer (.empty 0) 7 "u" sampleBody) 7 "u" 0 [1, 2, 3]).2
    completes := [⟨7, .load, false⟩, ⟨7, .load, false⟩]
    puts := []
    media := []
    thumbs := [] }

/-- Both pass the check, read, and store before either deletes. -/
def overlap : List UploadAction :=
  [.complete 0 "", .complete 0 "", .complete 1 "", .complete 1 "", .complete 0 "",
    .complete 1 "", .complete 0 "a", .complete 1 "b"]

/-- Two completes that overlap store two media objects. -/
theorem overlap_twoObjects :
    ¬ Throughout (uploadStep noPillow "u") (FinalisedOnce noPillow) sampleUpload overlap := by
  have hrun : ∃ sys ∈ run (uploadStep noPillow "u") sampleUpload overlap,
      sys.media = ["a.pdf", "b.pdf"] := by
    decide +kernel
  obtain ⟨sys, hsys, hmedia⟩ := hrun
  intro honce
  have hle := (honce overlap [] (List.append_nil _).symm sys hsys).media
  rw [hmedia] at hle
  exact absurd hle (by decide)

theorem sampleUpload_atStart : AtStart sampleUpload :=
  ⟨by simp [sampleUpload], by simp [sampleUpload], rfl, rfl⟩

/-- The first complete returns before the second begins, which finds no state. -/
def inTurn : List UploadAction :=
  [.complete 0 "", .complete 0 "", .complete 0 "", .complete 0 "a", .complete 0 "",
    .complete 0 "", .complete 1 ""]

theorem finalisedOnce_of_oneAtATime_inTurn :
    Throughout (uploadStep noPillow "u") (FinalisedOnce noPillow) sampleUpload inTurn :=
  finalisedOnce_of_oneAtATime noPillow "u" sampleUpload inTurn sampleUpload_atStart
    (by decide +kernel)

end IronLink.Media
