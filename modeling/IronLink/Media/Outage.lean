import IronLink.Media.Fresh

/-!
# `upload_complete` while the storage fails

`upload_complete` (app/api/routes/media.py:167-228) reads the staged chunks, stores the
thumbnail and the media object, deletes the chunks and last the two Redis keys. An
exception of a storage call ends it where it stands.

Results:
* `uploadCompleteDuring_calm`: without an outage this is `upload_complete`.
* `allOrNothing_iff`: a call that ends in an error leaves everything as it was, and can be
  repeated, exactly when the image library does not fail and the first storage call that
  raises, if any, reads a chunk or is the first to store.
* `orphan_of_noRemoval`: a call that fails after it has stored the media object.
-/

namespace IronLink.Media

open Lib Auth

/-! ## Model -/

/-- A storage call of `upload_complete`. -/
inductive StorageCall
  | getChunk (i : ℕ)
  | putThumbnail
  | putMedia
  | removeChunk (i : ℕ)
  deriving DecidableEq

/-- What the storage calls raise; `none`: the call succeeds. A call that raises has no
    effect, and for `removeChunk` it is an exception that `delete_object` lets out. -/
abbrev Outage := StorageCall → Option Failure

section

variable (outage : Outage)

/-- The loop of `assemble_staging`. -/
def Store.readPartsDuring (store : Store) (uploadId : String) :
    List ℕ → Except Failure (List Bytes)
  | [] => .ok []
  | i :: indices =>
    match outage (.getChunk i) with
    | some err => .error err
    | none =>
      match store (.staging uploadId i) with
      | none => .error (.s3 "NoSuchKey")
      | some object =>
        match store.readPartsDuring uploadId indices with
        | .error err => .error err
        | .ok parts => .ok (object.data :: parts)

/-- `assemble_staging` (app/services/storage_service.py:96-107). -/
def Store.assembleStagingDuring (store : Store) (uploadId : String) (totalChunks : ℕ) :
    Except Failure Bytes :=
  (store.readPartsDuring outage uploadId (List.range totalChunks)).map List.flatten

/-- The loop of `delete_staging`: what it raises, and the bucket. -/
def Store.deletePartsDuring (uploadId : String) : Store → List ℕ → Option Failure × Store
  | store, [] => (none, store)
  | store, i :: indices =>
    match outage (.removeChunk i) with
    | some err => (some err, store)
    | none => deletePartsDuring uploadId (store.deleteObject (.staging uploadId i)) indices

/-- `delete_staging` (app/services/storage_service.py:109-113). -/
def Store.deleteStagingDuring (store : Store) (uploadId : String) (totalChunks : ℕ) :
    Option Failure × Store :=
  store.deletePartsDuring outage uploadId (List.range totalChunks)

variable {Image : Type} (pillow : Option (Pillow Image))

/-- From the media object on (app/api/routes/media.py:207-228); `store` has the thumbnail. -/
def storeMediaDuring (server : MediaServer) (store : Store) (uploadId : String)
    (state : UploadState) (data : Bytes) (thumbnail : Option String) (mediaHex : String) :
    Except Failure UploadCompleteOut × MediaServer :=
  match outage .putMedia with
  | some err => (.error err, { server with store := store })
  | none =>
    let mediaKey := mediaHex ++ extFor state.mimeType
    let deleted := (store.putObject mediaKey data state.mimeType).deleteStagingDuring outage
      uploadId state.totalChunks
    match deleted.1 with
    | some err => (.error err, { server with store := deleted.2 })
    | none =>
      (.ok ⟨mediaKey, state.mimeType, data.length, thumbnail⟩,
        { server with
          store := deleted.2
          states := server.states.del uploadId
          chunks := server.chunks.del uploadId })

/-- `upload_complete` after the size check (app/api/routes/media.py:189-228). -/
def finishUploadDuring (server : MediaServer) (uploadId : String) (state : UploadState)
    (assembled : Bytes) (thumbHex mediaHex : String) :
    Except Failure UploadCompleteOut × MediaServer :=
  match processed pillow state.mimeType assembled with
  | none => (.error .pillow, server)
  | some (data, none) =>
    storeMediaDuring outage server server.store uploadId state data none mediaHex
  | some (data, some thumb) =>
    match outage .putThumbnail with
    | some err => (.error err, server)
    | none =>
      storeMediaDuring outage server
        (server.store.putObject (thumbnailKey thumbHex) thumb "image/jpeg") uploadId state data
        (some (thumbnailKey thumbHex)) mediaHex

/-- `upload_complete` (app/api/routes/media.py:167-228). -/
def uploadCompleteDuring (server : MediaServer) (userId : UUID)
    (uploadId thumbHex mediaHex : String) : Except Failure UploadCompleteOut × MediaServer :=
  match loadState server uploadId userId with
  | .error err => (.error err, server)
  | .ok state =>
    let missing := missingChunks state (server.chunks.smembers server.now uploadId)
    if missing ≠ [] then (.error (.http (incomplete missing)), server)
    else
      match server.store.assembleStagingDuring outage uploadId state.totalChunks with
      | .error err => (.error err, server)
      | .ok assembled =>
        if assembled.length ≠ state.totalSize then
          let deleted := server.store.deleteStagingDuring outage uploadId state.totalChunks
          (.error (deleted.1.getD (.http sizeMismatch)), { server with store := deleted.2 })
        else
          finishUploadDuring outage pillow server uploadId state assembled thumbHex mediaHex

end

variable {outage : Outage} {Image : Type} {pillow : Option (Pillow Image)}
  {server server' : MediaServer} {userId : UUID} {uploadId thumbHex mediaHex : String}
  {state : UploadState} {assembled data : Bytes} {store : Store} {indices : List ℕ}

/-! ## The loops -/

theorem Store.readPartsDuring_calm (h : ∀ i ∈ indices, outage (.getChunk i) = none) :
    store.readPartsDuring outage uploadId indices = store.readParts uploadId indices := by
  induction indices with
  | nil => rfl
  | cons i indices ih =>
    have hrest := ih fun j hj => h j (List.mem_cons_of_mem i hj)
    unfold readPartsDuring readParts
    rw [h i List.mem_cons_self]
    cases store (.staging uploadId i) with
    | none => rfl
    | some object =>
      cases hparts : store.readParts uploadId indices with
      | error err => simp only [hrest.trans hparts]
      | ok parts => simp only [hrest.trans hparts]

theorem Store.readPartsDuring_raises (store : Store) (uploadId : String) {i : ℕ} (hi : i ∈ indices)
    (h : (outage (.getChunk i)).isSome = true) :
    ∃ err, store.readPartsDuring outage uploadId indices = .error err := by
  induction indices with
  | nil => cases hi
  | cons j indices ih =>
    unfold readPartsDuring
    cases hj : outage (.getChunk j) with
    | some err => exact ⟨err, rfl⟩
    | none =>
      have hne : i ≠ j := by
        rintro rfl
        rw [hj] at h
        cases h
      obtain ⟨err, herr⟩ := ih ((List.mem_cons.mp hi).resolve_left hne)
      cases store (.staging uploadId j) with
      | none => exact ⟨_, rfl⟩
      | some object =>
        rw [herr]
        exact ⟨err, rfl⟩

theorem Store.deletePartsDuring_calm (h : ∀ i ∈ indices, outage (.removeChunk i) = none) :
    store.deletePartsDuring outage uploadId indices = (none,
      indices.foldl (fun store i => store.deleteObject (.staging uploadId i)) store) := by
  induction indices generalizing store with
  | nil => rfl
  | cons i indices ih =>
    unfold deletePartsDuring
    rw [h i List.mem_cons_self]
    exact ih fun j hj => h j (List.mem_cons_of_mem i hj)

theorem Store.deletePartsDuring_raises (store : Store) (uploadId : String) {i : ℕ}
    (hi : i ∈ indices)
    (h : (outage (.removeChunk i)).isSome = true) :
    ∃ err, (store.deletePartsDuring outage uploadId indices).1 = some err := by
  induction indices generalizing store with
  | nil => cases hi
  | cons j indices ih =>
    unfold deletePartsDuring
    cases hj : outage (.removeChunk j) with
    | some err => exact ⟨err, rfl⟩
    | none =>
      have hne : i ≠ j := by
        rintro rfl
        rw [hj] at h
        cases h
      exact ih _ ((List.mem_cons.mp hi).resolve_left hne)

/-- The loop deletes staged chunks only. -/
theorem Store.deletePartsDuring_media (key : String) :
    (store.deletePartsDuring outage uploadId indices).2 (.media key) = store (.media key) := by
  induction indices generalizing store with
  | nil => rfl
  | cons i indices ih =>
    unfold deletePartsDuring
    cases outage (.removeChunk i) with
    | some err => rfl
    | none => exact ih.trans (Function.update_of_ne (by simp) ..)

/-- Without an outage this is `upload_complete`. -/
theorem uploadCompleteDuring_calm (h : ∀ call, outage call = none) :
    uploadCompleteDuring outage pillow server userId uploadId thumbHex mediaHex =
      uploadComplete pillow server userId uploadId thumbHex mediaHex := by
  have hread : ∀ total, server.store.assembleStagingDuring outage uploadId total =
      server.store.assembleStaging uploadId total := by
    intro total
    unfold Store.assembleStagingDuring Store.assembleStaging
    rw [Store.readPartsDuring_calm fun i _ => h _]
  have hdelete : ∀ (store : Store) total, store.deleteStagingDuring outage uploadId total =
      (none, store.deleteStaging uploadId total) :=
    fun store total => Store.deletePartsDuring_calm fun i _ => h _
  unfold uploadCompleteDuring uploadComplete
  simp only [hread, hdelete, finishUploadDuring, finishUpload, storeMediaDuring, h]
  cases loadState server uploadId userId with
  | error err => rfl
  | ok state =>
    dsimp only
    split_ifs
    · rfl
    · cases server.store.assembleStaging uploadId state.totalChunks with
      | error err => rfl
      | ok assembled =>
        dsimp only
        split_ifs
        · rfl
        · cases processed pillow state.mimeType assembled with
          | none => rfl
          | some out =>
            obtain ⟨data, thumb⟩ := out
            cases thumb <;> rfl

/-! ## All or nothing -/

/-- A live upload of the user: every chunk has been received and is staged, and together
    they are `assembled`, as long as announced. -/
structure LiveComplete (server : MediaServer) (userId : UUID) (uploadId : String)
    (state : UploadState) (assembled : Bytes) : Prop where
  found : loadState server uploadId userId = .ok state
  received : missingChunks state (server.chunks.smembers server.now uploadId) = []
  staged : server.store.assembleStaging uploadId state.totalChunks = .ok assembled
  size : assembled.length = state.totalSize

/-- After a call that has ended in an error on `server`: outside the staging area there is
    no new object, the staged chunks and the two Redis keys are as before, and without an
    outage `upload_complete` succeeds and stores what it would have stored. -/
structure AllOrNothing (pillow : Option (Pillow Image)) (server : MediaServer) (userId : UUID)
    (uploadId : String) (state : UploadState) (assembled : Bytes) (server' : MediaServer) :
    Prop where
  noOrphan : ∀ key, server.store (.media key) = none → server'.store (.media key) = none
  chunks : ∀ i, server'.store (.staging uploadId i) = server.store (.staging uploadId i)
  stateKey : server'.states uploadId = server.states uploadId
  chunksKey : server'.chunks uploadId = server.chunks uploadId
  retry : ∀ thumbHex mediaHex, ∃ out server'' data thumb,
    uploadComplete pillow server' userId uploadId thumbHex mediaHex = (.ok out, server'') ∧
      processed pillow state.mimeType assembled = some (data, thumb) ∧
        server''.store (.media out.mediaKey) = some ⟨data, state.mimeType⟩

/-- The first call that stores something. -/
def firstPut : Option Bytes → StorageCall
  | some _ => .putThumbnail
  | none => .putMedia

/-- The image library does not fail, and the first storage call that raises, if there is
    one, reads a chunk or is the first to store. -/
def FailsEarly (outage : Outage) (pillow : Option (Pillow Image)) (state : UploadState)
    (assembled : Bytes) : Prop :=
  ∃ data thumb, processed pillow state.mimeType assembled = some (data, thumb) ∧
    ((∃ i < state.totalChunks, (outage (.getChunk i)).isSome = true) ∨
      (outage (firstPut thumb)).isSome = true ∨
      outage .putMedia = none ∧ ∀ i < state.totalChunks, outage (.removeChunk i) = none)

/-- What has arrived slice by slice is a live upload when nothing is missing. -/
theorem Staged.liveComplete {deadline : Time} {S : Finset ℕ} {f : ℕ → Bytes}
    (h : Staged server uploadId state deadline S f) (howner : state.userId = userId.str)
    (hall : ∀ i < state.totalChunks, i ∈ S)
    (hsize : ((List.range state.totalChunks).map f).flatten.length = state.totalSize) :
    LiveComplete server userId uploadId state ((List.range state.totalChunks).map f).flatten where
  found := h.loadState howner
  received := by
    rw [h.received]
    exact missingChunks_eq_nil.mpr hall
  staged := h.assemble hall
  size := hsize

/-- A live upload is finished without an outage, when the image library does not fail. -/
theorem LiveComplete.uploadComplete (h : LiveComplete server userId uploadId state assembled)
    {thumb : Option Bytes} (hdata : processed pillow state.mimeType assembled = some (data, thumb))
    (thumbHex mediaHex : String) :
    ∃ out server', uploadComplete pillow server userId uploadId thumbHex mediaHex =
      (.ok out, server') ∧ server'.store (.media out.mediaKey) = some ⟨data, state.mimeType⟩ := by
  unfold Media.uploadComplete finishUpload
  rw [h.found]
  dsimp only
  rw [if_neg (not_not.mpr h.received), h.staged]
  dsimp only
  rw [if_neg (not_not.mpr h.size), hdata]
  refine ⟨_, _, rfl, ?_⟩
  dsimp only
  rw [Store.deleteStaging_apply, if_neg (by rintro ⟨i, -, hkey⟩; cases hkey)]
  exact Function.update_self ..

/-- An error that has changed nothing. -/
theorem LiveComplete.unchanged (h : LiveComplete server userId uploadId state assembled)
    {thumb : Option Bytes}
    (hdata : processed pillow state.mimeType assembled = some (data, thumb)) :
    AllOrNothing pillow server userId uploadId state assembled server where
  noOrphan _ hnone := hnone
  chunks _ := rfl
  stateKey := rfl
  chunksKey := rfl
  retry thumbHex mediaHex := by
    obtain ⟨out, server'', hdone, hstored⟩ := h.uploadComplete hdata thumbHex mediaHex
    exact ⟨out, server'', data, thumb, hdone, hdata, hstored⟩

/-- A read that raises ends the call. -/
theorem LiveComplete.during_read (h : LiveComplete server userId uploadId state assembled)
    (pillow : Option (Pillow Image)) (thumbHex mediaHex : String) {i : ℕ}
    (hi : i < state.totalChunks) (hraises : (outage (.getChunk i)).isSome = true) :
    ∃ err, uploadCompleteDuring outage pillow server userId uploadId thumbHex mediaHex =
      (.error err, server) := by
  obtain ⟨err, herr⟩ := Store.readPartsDuring_raises server.store uploadId
    (List.mem_range.mpr hi) hraises
  refine ⟨err, ?_⟩
  unfold uploadCompleteDuring Store.assembleStagingDuring
  rw [h.found]
  dsimp only
  rw [if_neg (not_not.mpr h.received), herr]
  rfl

/-- With every chunk read, the call goes on to store. -/
theorem LiveComplete.during_finish (h : LiveComplete server userId uploadId state assembled)
    (pillow : Option (Pillow Image)) (thumbHex mediaHex : String)
    (hcalm : ∀ i < state.totalChunks, outage (.getChunk i) = none) :
    uploadCompleteDuring outage pillow server userId uploadId thumbHex mediaHex =
      finishUploadDuring outage pillow server uploadId state assembled thumbHex mediaHex := by
  have hread : server.store.assembleStagingDuring outage uploadId state.totalChunks =
      .ok assembled := by
    rw [← h.staged]
    unfold Store.assembleStagingDuring Store.assembleStaging
    rw [Store.readPartsDuring_calm fun i hi => hcalm i (List.mem_range.mp hi)]
  unfold uploadCompleteDuring
  rw [h.found]
  dsimp only
  rw [if_neg (not_not.mpr h.received), hread]
  dsimp only
  rw [if_neg (not_not.mpr h.size)]

/-- The media object stays when a chunk cannot be deleted. -/
theorem storeMediaDuring_remove (server : MediaServer) (store : Store) (uploadId : String)
    (data : Bytes) (thumbnail : Option String) (mediaHex : String) {i : ℕ}
    (hi : i < state.totalChunks) (hraises : (outage (.removeChunk i)).isSome = true)
    (hput : outage .putMedia = none) :
    ∃ err, (storeMediaDuring outage server store uploadId state data thumbnail mediaHex).1 =
        .error err ∧
      (storeMediaDuring outage server store uploadId state data thumbnail mediaHex).2.store
        (.media (mediaHex ++ extFor state.mimeType)) = some ⟨data, state.mimeType⟩ := by
  obtain ⟨err, herr⟩ := Store.deletePartsDuring_raises
    (store.putObject (mediaHex ++ extFor state.mimeType) data state.mimeType) uploadId
    (List.mem_range.mpr hi) hraises
  refine ⟨err, ?_⟩
  unfold storeMediaDuring Store.deleteStagingDuring
  rw [hput]
  dsimp only
  rw [herr]
  refine ⟨rfl, ?_⟩
  dsimp only
  rw [Store.deletePartsDuring_media]
  exact Function.update_self ..

/-- Past the first put, no outage is left to end the call in an error. -/
theorem storeMediaDuring_calm {thumbnail : Option String} (hput : outage .putMedia = none)
    (hremove : ∀ i < state.totalChunks, outage (.removeChunk i) = none) :
    ∃ out, (storeMediaDuring outage server store uploadId state data thumbnail mediaHex).1 =
      .ok out := by
  unfold storeMediaDuring Store.deleteStagingDuring
  rw [hput]
  dsimp only
  rw [Store.deletePartsDuring_calm fun i hi => hremove i (List.mem_range.mp hi)]
  exact ⟨_, rfl⟩

theorem finishUploadDuring_none
    (hdata : processed pillow state.mimeType assembled = some (data, none)) :
    finishUploadDuring outage pillow server uploadId state assembled thumbHex mediaHex =
      storeMediaDuring outage server server.store uploadId state data none mediaHex := by
  unfold finishUploadDuring
  rw [hdata]

theorem finishUploadDuring_some {thumb : Bytes}
    (hdata : processed pillow state.mimeType assembled = some (data, some thumb))
    (hput : outage .putThumbnail = none) :
    finishUploadDuring outage pillow server uploadId state assembled thumbHex mediaHex =
      storeMediaDuring outage server
        (server.store.putObject (thumbnailKey thumbHex) thumb "image/jpeg") uploadId state data
        (some (thumbnailKey thumbHex)) mediaHex := by
  unfold finishUploadDuring
  rw [hdata]
  dsimp only
  rw [hput]

/-- The first put raises: nothing has been stored. -/
theorem finishUploadDuring_firstPut (server : MediaServer) (uploadId thumbHex mediaHex : String)
    {thumb : Option Bytes}
    (hdata : processed pillow state.mimeType assembled = some (data, thumb))
    (hraises : (outage (firstPut thumb)).isSome = true) :
    ∃ err, finishUploadDuring outage pillow server uploadId state assembled thumbHex mediaHex =
      (.error err, server) := by
  obtain ⟨err, herr⟩ := Option.isSome_iff_exists.mp hraises
  refine ⟨err, ?_⟩
  cases thumb with
  | none =>
    rw [finishUploadDuring_none hdata, storeMediaDuring, show outage .putMedia = some err from herr]
  | some thumb =>
    unfold finishUploadDuring
    rw [hdata]
    dsimp only
    rw [show outage .putThumbnail = some err from herr]

/-- When the first put does not raise: the call has stored something by the time a later
    one raises. -/
theorem finishUploadDuring_orphan (server : MediaServer) (uploadId thumbHex mediaHex : String)
    {thumb : Option Bytes}
    (hdata : processed pillow state.mimeType assembled = some (data, thumb))
    (hfirst : outage (firstPut thumb) = none)
    (hlater : outage .putMedia = none → ∃ i < state.totalChunks,
      (outage (.removeChunk i)).isSome = true) :
    ∃ err key, (key = thumbnailKey thumbHex ∨ key = mediaHex ++ extFor state.mimeType) ∧
      (finishUploadDuring outage pillow server uploadId state assembled thumbHex mediaHex).1 =
        .error err ∧
      (finishUploadDuring outage pillow server uploadId state assembled thumbHex
        mediaHex).2.store (.media key) ≠ none := by
  cases thumb with
  | none =>
    obtain ⟨i, hi, hraises⟩ := hlater hfirst
    obtain ⟨err, herr, hstored⟩ := storeMediaDuring_remove server server.store uploadId
      data none mediaHex hi hraises hfirst
    refine ⟨err, _, .inr rfl, ?_, ?_⟩
    · rw [finishUploadDuring_none hdata, herr]
    · rw [finishUploadDuring_none hdata, hstored]
      exact Option.some_ne_none _
  | some thumb =>
    rw [finishUploadDuring_some hdata hfirst]
    cases hput : outage .putMedia with
    | some err =>
      refine ⟨err, thumbnailKey thumbHex, .inl rfl, ?_, ?_⟩
      · rw [storeMediaDuring, hput]
      · rw [storeMediaDuring, hput]
        dsimp only
        rw [Store.putObject, Function.update_self]
        exact Option.some_ne_none _
    | none =>
      obtain ⟨i, hi, hraises⟩ := hlater hput
      obtain ⟨err, herr, hstored⟩ := storeMediaDuring_remove server
        (server.store.putObject (thumbnailKey thumbHex) thumb "image/jpeg") uploadId data
        (some (thumbnailKey thumbHex)) mediaHex hi hraises hput
      refine ⟨err, _, .inr rfl, herr, ?_⟩
      rw [hstored]
      exact Option.some_ne_none _

/-- Nothing raises any more. -/
theorem finishUploadDuring_calm (server : MediaServer) (uploadId thumbHex mediaHex : String)
    {thumb : Option Bytes}
    (hdata : processed pillow state.mimeType assembled = some (data, thumb))
    (hfirst : outage (firstPut thumb) = none) (hput : outage .putMedia = none)
    (hremove : ∀ i < state.totalChunks, outage (.removeChunk i) = none) :
    ∃ out, (finishUploadDuring outage pillow server uploadId state assembled thumbHex
      mediaHex).1 = .ok out := by
  cases thumb with
  | none =>
    rw [finishUploadDuring_none hdata]
    exact storeMediaDuring_calm hput hremove
  | some thumb =>
    rw [finishUploadDuring_some hdata hfirst]
    exact storeMediaDuring_calm hput hremove

/-- An upload that the image library fails on ends in an error. -/
theorem LiveComplete.during_pillow (h : LiveComplete server userId uploadId state assembled)
    (outage : Outage) (thumbHex mediaHex : String)
    (hdata : processed pillow state.mimeType assembled = none) :
    ∃ err, uploadCompleteDuring outage pillow server userId uploadId thumbHex mediaHex =
      (.error err, server) := by
  by_cases hread : ∃ i < state.totalChunks, (outage (.getChunk i)).isSome = true
  · obtain ⟨i, hi, hraises⟩ := hread
    exact h.during_read pillow thumbHex mediaHex hi hraises
  · push Not at hread
    refine ⟨.pillow, ?_⟩
    have hnone : ∀ i < state.totalChunks, outage (.getChunk i) = none := fun i hi =>
      Option.not_isSome_iff_eq_none.mp (hread i hi)
    rw [h.during_finish pillow thumbHex mediaHex hnone, finishUploadDuring, hdata]

/-- A call on a live upload, storing under fresh keys, is all or nothing whatever the
    outage does exactly when it fails early. -/
theorem allOrNothing_iff (outage : Outage) (pillow : Option (Pillow Image))
    (server : MediaServer) (userId : UUID) (uploadId thumbHex mediaHex : String)
    (state : UploadState) (assembled : Bytes)
    (hlive : LiveComplete server userId uploadId state assembled)
    (hthumb : server.store (.media (thumbnailKey thumbHex)) = none)
    (hmedia : server.store (.media (mediaHex ++ extFor state.mimeType)) = none) :
    (∀ err server', uploadCompleteDuring outage pillow server userId uploadId thumbHex mediaHex =
        (.error err, server') →
          AllOrNothing pillow server userId uploadId state assembled server') ↔
      FailsEarly outage pillow state assembled := by
  constructor
  · intro hall
    cases hdata : processed pillow state.mimeType assembled with
    | none =>
      obtain ⟨err, herr⟩ := hlive.during_pillow outage thumbHex mediaHex hdata
      obtain ⟨out, server'', data, thumb, -, hsome, -⟩ := (hall err server herr).retry "" ""
      rw [hdata] at hsome
      cases hsome
    | some stored =>
      obtain ⟨data, thumb⟩ := stored
      refine ⟨data, thumb, hdata, ?_⟩
      by_contra hnot
      push Not at hnot
      obtain ⟨hread, hfirst, hlater⟩ := hnot
      have hfinish := hlive.during_finish pillow thumbHex mediaHex fun i hi =>
        Option.not_isSome_iff_eq_none.mp (hread i hi)
      obtain ⟨err, key, hkey, herr, hstored⟩ := finishUploadDuring_orphan server uploadId thumbHex
        mediaHex hdata
        (Option.not_isSome_iff_eq_none.mp hfirst) fun hput => by
          obtain ⟨i, hi, hne⟩ := hlater hput
          exact ⟨i, hi, Option.isSome_iff_ne_none.mpr hne⟩
      have hnone : server.store (.media key) = none := by
        obtain rfl | rfl := hkey
        · exact hthumb
        · exact hmedia
      exact hstored ((hall err _ (hfinish.trans (Prod.ext herr rfl))).noOrphan key hnone)
  · rintro ⟨data, thumb, hdata, hearly⟩ err server' hend
    have hsame : ∀ err', uploadCompleteDuring outage pillow server userId uploadId thumbHex
        mediaHex = (.error err', server) →
          AllOrNothing pillow server userId uploadId state assembled server' := by
      intro err' herr'
      obtain ⟨-, rfl⟩ := Prod.mk.inj (herr'.symm.trans hend)
      exact hlive.unchanged hdata
    by_cases hread : ∃ i < state.totalChunks, (outage (.getChunk i)).isSome = true
    · obtain ⟨i, hi, hraises⟩ := hread
      obtain ⟨err', herr'⟩ := hlive.during_read pillow thumbHex mediaHex hi hraises
      exact hsame err' herr'
    · have hfinish := hlive.during_finish pillow thumbHex mediaHex fun i hi =>
          Option.not_isSome_iff_eq_none.mp fun hraises => hread ⟨i, hi, hraises⟩
      by_cases hfirst : (outage (firstPut thumb)).isSome = true
      · obtain ⟨err', herr'⟩ := finishUploadDuring_firstPut server uploadId thumbHex mediaHex
          hdata hfirst
        exact hsame err' (hfinish.trans herr')
      · obtain ⟨hput, hremove⟩ := (hearly.resolve_left hread).resolve_left hfirst
        obtain ⟨out, hout⟩ := finishUploadDuring_calm server uploadId thumbHex mediaHex hdata
          (Option.not_isSome_iff_eq_none.mp hfirst) hput hremove
        rw [hfinish] at hend
        rw [hend] at hout
        cases hout

/-- A server with one upload, whose one chunk has been accepted. -/
def uploaded (body : UploadInitIn) (data : Bytes) : MediaServer :=
  (begunServer (.empty 0) 7 "u" body).recordChunk "u" 0 data

theorem uploaded_live {body : UploadInitIn} {data : Bytes} (hsize : body.totalSize = data.length)
    (hle : data.length ≤ CHUNK_SIZE) :
    LiveComplete (uploaded body data) 7 "u" (begunState 7 body) data := by
  have hne : data ≠ [] := List.ne_nil_of_length_pos (hsize ▸ body.totalSize_pos)
  have htotal : (begunState 7 body).totalChunks = 1 := by
    have hpos := body.totalSize_pos
    show (body.totalSize + CHUNK_SIZE - 1) / CHUNK_SIZE = 1
    unfold CHUNK_SIZE at *
    omega
  have hzero : 0 < (begunState 7 body).totalChunks := by omega
  have howner : (begunState 7 body).userId = UUID.str 7 := rfl
  have hnow : (begunServer (.empty 0) 7 "u" body).now = 0 := rfl
  have hbegun : Staged (begunServer (.empty 0) 7 "u" body) "u" (begunState 7 body)
      (0 + UPLOAD_STATE_TTL) ∅ fun _ => [] := Staged.init 7 body rfl _
  have hput := (hbegun.put howner hzero hne hle (by rw [hnow])).2
  rw [hbegun.accepts howner hzero hne hle] at hput
  have hjoin : ((List.range (begunState 7 body).totalChunks).map
      (Function.update (fun _ => []) 0 data)).flatten = data := by
    rw [htotal]
    simp
  have hlive := hput.liveComplete howner (fun i hi => by simp; omega)
    (by rw [hjoin, ← hsize]; rfl)
  rw [hjoin] at hlive
  exact hlive

/-- A file of three bytes that has been uploaded. -/
def uploadedServer : MediaServer := uploaded sampleBody [1, 2, 3]

theorem uploadedServer_live :
    LiveComplete uploadedServer 7 "u" (begunState 7 sampleBody) [1, 2, 3] :=
  uploaded_live rfl (by decide)

/-- The staged chunk cannot be deleted. -/
def noRemoval : Outage
  | .removeChunk _ => some (.s3 "InternalError")
  | _ => none

/-- The call fails, and the media object stays under a key that nobody learns. -/
theorem orphan_of_noRemoval :
    LiveComplete uploadedServer 7 "u" (begunState 7 sampleBody) [1, 2, 3] ∧
      ∃ server', uploadCompleteDuring noRemoval noPillow uploadedServer 7 "u" "t" "m" =
          (.error (.s3 "InternalError"), server') ∧
        ¬ AllOrNothing noPillow uploadedServer 7 "u" (begunState 7 sampleBody) [1, 2, 3]
          server' := by
  have herr : (uploadCompleteDuring noRemoval noPillow uploadedServer 7 "u" "t" "m").1 =
      .error (.s3 "InternalError") := by
    decide +kernel
  have hstored : ((uploadCompleteDuring noRemoval noPillow uploadedServer 7 "u" "t"
      "m").2.store (.media "m.pdf")).isSome = true := by
    decide +kernel
  obtain ⟨server', hserver'⟩ :
      ∃ s, (uploadCompleteDuring noRemoval noPillow uploadedServer 7 "u" "t" "m").2 = s := ⟨_, rfl⟩
  rw [hserver'] at hstored
  refine ⟨uploadedServer_live, server', Prod.ext herr hserver', fun h => ?_⟩
  rw [h.noOrphan "m.pdf" rfl] at hstored
  cases hstored

/-- The bucket cannot be read. -/
def noReads : Outage
  | .getChunk _ => some (.s3 "InternalError")
  | _ => none

theorem failsEarly_noReads : FailsEarly noReads noPillow (begunState 7 sampleBody) [1, 2, 3] :=
  ⟨[1, 2, 3], none, rfl, .inl ⟨0, by decide, rfl⟩⟩

theorem allOrNothing_noReads :
    LiveComplete uploadedServer 7 "u" (begunState 7 sampleBody) [1, 2, 3] ∧ ∀ err server',
      uploadCompleteDuring noReads noPillow uploadedServer 7 "u" "t" "m" = (.error err, server') →
        AllOrNothing noPillow uploadedServer 7 "u" (begunState 7 sampleBody) [1, 2, 3] server' :=
  ⟨uploadedServer_live, (allOrNothing_iff noReads noPillow uploadedServer 7 "u" "t" "m"
    (begunState 7 sampleBody) [1, 2, 3] uploadedServer_live rfl rfl).mpr failsEarly_noReads⟩

end IronLink.Media
