import IronLink.Media.Upload

/-!
# Uploading a file in chunks

A client that has begun an upload cuts its file into the chunks that
`upload_init` has asked for and sends them, in any order and as often as it
likes, until the upload's record expires.

Results:
* `Staged.put`, `Staged.wait`: what a request leaves of an upload in progress.
* `Staged.status`, `Staged.assemble`: what the server knows of it.
* `fresh_upload_reproduces_file`: until the record expires every chunk is
  accepted, the missing chunks are those never sent, and when none is missing
  the file is assembled.
-/

namespace IronLink.Media

open Lib Auth

/-! ## The client's chunks -/

/-- `Uint8List.sublistView(bytes, start, stop)`; `none`: a `RangeError`. -/
def sublistView (bytes : Bytes) (start stop : ℕ) : Option Bytes :=
  if start ≤ stop ∧ stop ≤ bytes.length then some ((bytes.drop start).take (stop - start))
  else none

/-- Chunk `i` of the loop in `upload` (frontend/lib/core/media_service.dart:80-83). -/
def chunkOf (bytes : Bytes) (chunkSize i : ℕ) : Option Bytes :=
  let start := i * chunkSize
  let stop := min (start + chunkSize) bytes.length
  sublistView bytes start stop

theorem chunkOf_eq_slice {bytes : Bytes} {chunkSize i : ℕ} (h : i * chunkSize ≤ bytes.length) :
    chunkOf bytes chunkSize i = some (slice chunkSize bytes i) := by
  unfold chunkOf sublistView
  simp only
  rw [if_pos (by omega), take_drop_eq_slice]

/-! ## An upload in progress -/

/-- Until `deadline` the upload `uploadId` is on record as `state`, the chunks
    received are `S`, and `f i` is staged for each `i` of them. -/
structure Staged (server : MediaServer) (uploadId : String) (state : UploadState)
    (deadline : Time) (S : Finset ℕ) (f : ℕ → Bytes) : Prop where
  alive : server.now < deadline
  recorded : server.states uploadId = some ⟨state, some deadline⟩
  received : server.chunks.smembers server.now uploadId = S
  /-- the set of received chunks is not lost before the upload is -/
  lasting : ∀ e, server.chunks.lookup server.now uploadId = some e →
    ∃ d, e.deadline = some d ∧ deadline ≤ d
  staged : ∀ i ∈ S, ∃ object,
    server.store (.staging uploadId i) = some object ∧ object.data = f i

section

variable {Image : Type} {server : MediaServer} {uploadId : String} {state : UploadState}
  {deadline : Time} {S : Finset ℕ} {f : ℕ → Bytes} {userId : UUID}

namespace Staged

theorem loadState (h : Staged server uploadId state deadline S f)
    (howner : state.userId = userId.str) : loadState server uploadId userId = .ok state := by
  rw [loadState_eq_ok, TtlMap.get_eq_some]
  exact ⟨⟨_, h.recorded, (Entry.live_of_deadline rfl).mpr h.alive, rfl⟩, howner⟩

/-- A chunk in range, not empty and not too large is accepted. -/
theorem accepts (h : Staged server uploadId state deadline S f)
    (howner : state.userId = userId.str) {i : ℕ} {data : Bytes} (hi : i < state.totalChunks)
    (hne : data ≠ []) (hle : data.length ≤ CHUNK_SIZE) :
    uploadChunk server userId uploadId i data = (.ok (), server.recordChunk uploadId i data) := by
  unfold uploadChunk
  rw [h.loadState howner]
  simp only
  rw [if_neg (by omega), if_neg (by omega), if_neg hne, Int.toNat_natCast]

/-- An accepted chunk is recorded. -/
theorem put (h : Staged server uploadId state deadline S f) (howner : state.userId = userId.str)
    {i : ℕ} {data : Bytes} (hi : i < state.totalChunks) (hne : data ≠ [])
    (hle : data.length ≤ CHUNK_SIZE) (hdeadline : deadline ≤ server.now + UPLOAD_STATE_TTL) :
    (uploadChunk server userId uploadId i data).1 = .ok () ∧
      Staged (uploadChunk server userId uploadId i data).2 uploadId state deadline (insert i S)
        (Function.update f i data) := by
  rw [h.accepts howner hi hne hle]
  have hentry : (server.recordChunk uploadId i data).chunks uploadId =
      some ⟨insert i S, some (server.now + UPLOAD_STATE_TTL)⟩ := by
    rw [← h.received]
    exact TtlMap.sadd_expire_self ..
  refine ⟨rfl, ⟨h.alive, h.recorded, ?_, ?_, ?_⟩⟩
  · exact TtlMap.smembers_of_live hentry
      ((Entry.live_of_deadline rfl).mpr (lt_of_lt_of_le h.alive hdeadline))
  · intro e he
    obtain ⟨he, -⟩ := TtlMap.lookup_eq_some.mp he
    obtain rfl := Option.some.inj (hentry.symm.trans he)
    exact ⟨_, rfl, hdeadline⟩
  · intro j hj
    by_cases hji : j = i
    · subst hji
      exact ⟨_, Store.putStagingChunk_self .., by simp⟩
    · obtain ⟨object, hobject, hdata⟩ := h.staged j (by simpa [hji] using hj)
      refine ⟨object, ?_, by rw [Function.update_of_ne hji]; exact hdata⟩
      rw [← hobject]
      exact Store.putStagingChunk_of_ne (by simp [hji]) data

/-- Before its deadline nothing of an upload is lost by waiting. -/
theorem wait (h : Staged server uploadId state deadline S f) {t : Time} (hle : server.now ≤ t)
    (ht : t < deadline) :
    Staged { server with now := t } uploadId state deadline S f := by
  refine ⟨ht, h.recorded, ?_, ?_, h.staged⟩
  · show server.chunks.smembers t uploadId = S
    rw [← h.received]
    cases hl : server.chunks.lookup server.now uploadId with
    | none =>
      have hlater : server.chunks.lookup t uploadId = none := by
        rw [Option.eq_none_iff_forall_ne_some]
        intro e he
        obtain ⟨he, hlive⟩ := TtlMap.lookup_eq_some.mp he
        rw [TtlMap.lookup_of_live he (hlive.mono hle)] at hl
        cases hl
      rw [TtlMap.smembers_of_lookup_none hl, TtlMap.smembers_of_lookup_none hlater]
    | some e =>
      obtain ⟨d, hd, hlast⟩ := h.lasting e hl
      obtain ⟨he, hlive⟩ := TtlMap.lookup_eq_some.mp hl
      rw [TtlMap.smembers_of_live he hlive,
        TtlMap.smembers_of_live he ((Entry.live_of_deadline hd).mpr (lt_of_lt_of_le ht hlast))]
  · intro e he
    obtain ⟨he, hlive⟩ := TtlMap.lookup_eq_some.mp he
    exact h.lasting e (TtlMap.lookup_of_live he (hlive.mono hle))

/-- `upload_status` reports what was received. -/
theorem status (h : Staged server uploadId state deadline S f)
    (howner : state.userId = userId.str) :
    uploadStatus server userId uploadId =
      .ok ⟨uploadId, state.totalChunks, S.sort, missingChunks state S,
        (missingChunks state S).isEmpty⟩ := by
  unfold uploadStatus
  rw [h.loadState howner]
  simp only [h.received]

/-- When nothing is missing, the staged chunks are read one after the other. -/
theorem assemble (h : Staged server uploadId state deadline S f)
    (hall : ∀ i < state.totalChunks, i ∈ S) :
    server.store.assembleStaging uploadId state.totalChunks =
      .ok ((List.range state.totalChunks).map f).flatten :=
  Store.assembleStaging_eq fun i hi => h.staged i (hall i hi)

end Staged

/-! ## `upload_complete` on an upload in progress -/

variable {pillow : Option (Pillow Image)} {thumbHex mediaHex : String}

theorem Staged.complete_incomplete (h : Staged server uploadId state deadline S f)
    (howner : state.userId = userId.str) (hmissing : missingChunks state S ≠ []) :
    uploadComplete pillow server userId uploadId thumbHex mediaHex =
      (.error (.http (incomplete (missingChunks state S))), server) := by
  unfold uploadComplete
  rw [h.loadState howner]
  simp only [h.received]
  rw [if_pos hmissing]

/-- With nothing missing the outcome is decided by the length of what is staged. -/
theorem Staged.complete (h : Staged server uploadId state deadline S f)
    (howner : state.userId = userId.str) (hall : ∀ i < state.totalChunks, i ∈ S) :
    uploadComplete pillow server userId uploadId thumbHex mediaHex =
      if ((List.range state.totalChunks).map f).flatten.length ≠ state.totalSize then
        (.error (.http sizeMismatch),
          { server with store := server.store.deleteStaging uploadId state.totalChunks })
      else finishUpload pillow server uploadId state ((List.range state.totalChunks).map f).flatten
        thumbHex mediaHex := by
  unfold uploadComplete
  rw [h.loadState howner]
  simp only [h.received, h.assemble hall]
  rw [if_neg (by rw [missingChunks_eq_nil.mpr hall]; simp)]

/-- Slices of a file, all received, are put together to the file. -/
theorem Staged.complete_slices {bytes : Bytes}
    (h : Staged server uploadId state deadline S (slice CHUNK_SIZE bytes))
    (howner : state.userId = userId.str) (hsize : state.totalSize = bytes.length)
    (htotal : state.totalChunks = bytes.length ⌈/⌉ CHUNK_SIZE)
    (hall : ∀ i < state.totalChunks, i ∈ S) :
    server.store.assembleStaging uploadId state.totalChunks = .ok bytes ∧
      uploadComplete pillow server userId uploadId thumbHex mediaHex =
        finishUpload pillow server uploadId state bytes thumbHex mediaHex := by
  have hjoin : ((List.range state.totalChunks).map (slice CHUNK_SIZE bytes)).flatten = bytes := by
    rw [htotal]
    exact flatten_all_slices (by decide) bytes
  constructor
  · rw [h.assemble hall, hjoin]
  · rw [h.complete howner hall, hjoin, if_neg (by rw [hsize]; exact not_not.mpr rfl)]

/-- After the size check nothing but the image library can fail. -/
theorem finishUpload_error {assembled : Bytes} {err : Failure}
    (h : (finishUpload pillow server uploadId state assembled thumbHex mediaHex).1 = .error err) :
    err = .pillow := by
  unfold finishUpload at h
  split at h
  · exact (Except.error.inj h).symm
  · cases h

/-- The rest succeeds if and only if the image library does not fail on the bytes. -/
theorem finishUpload_ok_iff {assembled : Bytes} :
    (∃ out, (finishUpload pillow server uploadId state assembled thumbHex mediaHex).1 = .ok out) ↔
      (processed pillow state.mimeType assembled).isSome := by
  unfold finishUpload
  cases processed pillow state.mimeType assembled with
  | none => simp
  | some stored => simp

/-! ## A client at work -/

/-- What a client does between `upload_init` and `upload_complete`; time passes
    in microseconds. -/
inductive ClientStep
  | put (i : ℕ)
  | status
  | wait (d : ℕ)
  deriving DecidableEq

/-- The server after the client's step. -/
def clientStep (userId : UUID) (uploadId : String) (chunkSize : ℕ) (bytes : Bytes)
    (server : MediaServer) : ClientStep → MediaServer
  | .put i => (chunkOf bytes chunkSize i).elim server
      fun chunk => (uploadChunk server userId uploadId i chunk).2
  | .status => server
  | .wait d => { server with now := server.now + d }

theorem clientStep_put (userId : UUID) (uploadId : String) (chunkSize : ℕ) (bytes : Bytes)
    (server : MediaServer) (i : ℕ) :
    clientStep userId uploadId chunkSize bytes server (.put i) =
      (chunkOf bytes chunkSize i).elim server
        fun chunk => (uploadChunk server userId uploadId i chunk).2 := rfl

theorem uploadChunk_now (server : MediaServer) (userId : UUID) (uploadId : String) (i : ℤ)
    (data : Bytes) : (uploadChunk server userId uploadId i data).2.now = server.now := by
  unfold uploadChunk
  split
  · rfl
  · split_ifs <;> rfl

theorem uploadChunk_outOfRange {i : ℤ} {data : Bytes}
    (hload : loadState server uploadId userId = .ok state) (hi : (state.totalChunks : ℤ) ≤ i) :
    (uploadChunk server userId uploadId i data).2 = server := by
  unfold uploadChunk
  rw [hload]
  simp only
  rw [if_pos (by omega)]

/-- No time passes while a chunk is sent. -/
theorem clientStep_put_now (userId : UUID) (uploadId : String) (chunkSize : ℕ) (bytes : Bytes)
    (server : MediaServer) (i : ℕ) :
    (clientStep userId uploadId chunkSize bytes server (.put i)).now = server.now := by
  rw [clientStep_put]
  cases chunkOf bytes chunkSize i with
  | none => rfl
  | some chunk => exact uploadChunk_now ..

theorem le_clientStep_now (userId : UUID) (uploadId : String) (chunkSize : ℕ) (bytes : Bytes)
    (server : MediaServer) (step : ClientStep) :
    server.now ≤ (clientStep userId uploadId chunkSize bytes server step).now := by
  cases step with
  | put i => exact (clientStep_put_now ..).ge
  | status => exact le_refl _
  | wait d => exact Int.le_add_of_nonneg_right (Int.natCast_nonneg d)

/-- The indices among those of the upload that the client has sent. -/
def sent (total : ℕ) (steps : List ClientStep) : Finset ℕ :=
  (Finset.range total).filter fun i => .put i ∈ steps

theorem sent_append_put {total i : ℕ} (hi : i < total) (steps : List ClientStep) :
    sent total (steps ++ [.put i]) = insert i (sent total steps) := by
  ext j
  by_cases hj : j = i
  · simp [sent, hj, hi]
  · simp [sent, hj]

theorem sent_append_other {total : ℕ} {step : ClientStep} (h : ∀ i < total, step ≠ .put i)
    (steps : List ClientStep) : sent total (steps ++ [step]) = sent total steps := by
  ext j
  simp only [sent, Finset.mem_filter, Finset.mem_range, List.mem_append, List.mem_singleton]
  constructor
  · rintro ⟨hj, hmem | rfl⟩
    · exact ⟨hj, hmem⟩
    · exact absurd rfl (h j hj)
  · rintro ⟨hj, hmem⟩
    exact ⟨hj, .inl hmem⟩

/-- Everything the client's steps leave while the upload is on record. -/
theorem Staged.clientSteps {bytes : Bytes} (hpos : 0 < bytes.length)
    (htotal : state.totalChunks = bytes.length ⌈/⌉ CHUNK_SIZE)
    (howner : state.userId = userId.str) {begun : MediaServer}
    (hbegun : Staged begun uploadId state deadline ∅ (slice CHUNK_SIZE bytes))
    (hdeadline : deadline ≤ begun.now + UPLOAD_STATE_TTL) (steps : List ClientStep)
    (hlive : (steps.foldl (clientStep userId uploadId CHUNK_SIZE bytes) begun).now < deadline) :
    Staged (steps.foldl (clientStep userId uploadId CHUNK_SIZE bytes) begun) uploadId state
        deadline (sent state.totalChunks steps) (slice CHUNK_SIZE bytes) ∧
      begun.now ≤ (steps.foldl (clientStep userId uploadId CHUNK_SIZE bytes) begun).now := by
  induction steps using List.reverseRecOn with
  | nil =>
    have hnone : sent state.totalChunks [] = ∅ := by simp [sent]
    rw [hnone]
    exact ⟨hbegun, le_refl _⟩
  | append_singleton steps step ih =>
    rw [List.foldl_append, List.foldl_cons, List.foldl_nil] at hlive ⊢
    generalize hm : steps.foldl (clientStep userId uploadId CHUNK_SIZE bytes) begun = m at *
    have hnow := le_clientStep_now userId uploadId CHUNK_SIZE bytes m step
    obtain ⟨hstaged, hle⟩ := ih (lt_of_le_of_lt hnow hlive)
    refine ⟨?_, le_trans hle hnow⟩
    have hfull : 0 < CHUNK_SIZE := by decide
    cases step with
    | status =>
      rw [sent_append_other (by simp)]
      exact hstaged
    | wait d =>
      rw [sent_append_other (by simp)]
      exact hstaged.wait hnow hlive
    | put i =>
      by_cases hi : i < state.totalChunks
      · have hstart : i * CHUNK_SIZE < bytes.length :=
          mul_lt_of_lt_ceilDiv hfull hpos (by rw [← htotal]; exact hi)
        have hput := (hstaged.put howner hi (slice_ne_nil hfull hstart)
          (length_slice_le CHUNK_SIZE bytes i)
          (le_trans hdeadline (Int.add_le_add_right hle _))).2
        rw [Function.update_eq_self] at hput
        rw [sent_append_put hi, clientStep_put, chunkOf_eq_slice hstart.le]
        exact hput
      · rw [sent_append_other (by intro j hj h; cases h; exact hi hj)]
        rw [clientStep_put]
        cases chunkOf bytes CHUNK_SIZE i with
        | none => exact hstaged
        | some chunk =>
          have hrange : (state.totalChunks : ℤ) ≤ i := by omega
          show Staged (uploadChunk m userId uploadId i chunk).2 _ _ _ _ _
          rw [uploadChunk_outOfRange (hstaged.loadState howner) hrange]
          exact hstaged

/-! ## From `upload_init` on -/

/-- The record `upload_init` makes. -/
def begunState (userId : UUID) (body : UploadInitIn) : UploadState :=
  { userId := userId.str
    filename := body.filename
    mimeType := body.mimeType
    totalSize := body.totalSize
    totalChunks := (body.totalSize + CHUNK_SIZE - 1) / CHUNK_SIZE }

theorem begunState_totalChunks (userId : UUID) (body : UploadInitIn) :
    (begunState userId body).totalChunks = body.totalSize ⌈/⌉ CHUNK_SIZE :=
  (Nat.ceilDiv_eq_add_pred_div _ _).symm

/-- An upload that was begun is of an allowed type. -/
theorem uploadInit_mime {body : UploadInitIn} {out : UploadInitOut} {begun : MediaServer}
    (h : uploadInit server userId uploadId body = (.ok out, begun)) :
    (ALLOWED_MIME_TYPES.lookup body.mimeType).isSome := by
  unfold uploadInit at h
  split_ifs at h with hnone
  · cases h
  · simpa [Option.isSome_iff_ne_none] using hnone

/-- The server after `upload_init`. -/
def begunServer (server : MediaServer) (userId : UUID) (uploadId : String)
    (body : UploadInitIn) : MediaServer :=
  { server with
    states := server.states.set uploadId (begunState userId body)
      (some (server.now + UPLOAD_STATE_TTL))
    issued := uploadId :: server.issued }

theorem uploadInit_ok {body : UploadInitIn}
    (h : (ALLOWED_MIME_TYPES.lookup body.mimeType).isSome) :
    uploadInit server userId uploadId body =
      (.ok ⟨uploadId, CHUNK_SIZE, (begunState userId body).totalChunks, []⟩,
        begunServer server userId uploadId body) := by
  unfold uploadInit
  rw [if_neg (by simp [Option.isSome_iff_ne_none.mp h])]
  rfl

theorem Staged.init (userId : UUID) (body : UploadInitIn) (hfresh : server.chunks uploadId = none)
    (f : ℕ → Bytes) :
    Staged (begunServer server userId uploadId body) uploadId (begunState userId body)
      (server.now + UPLOAD_STATE_TTL) ∅ f := by
  have hlookup : server.chunks.lookup server.now uploadId = none := TtlMap.lookup_of_none hfresh
  refine ⟨?_, TtlMap.set_self .., TtlMap.smembers_of_lookup_none hlookup, ?_, by simp⟩
  · show server.now < server.now + UPLOAD_STATE_TTL
    exact lt_add_of_pos_right _ (by decide)
  · intro e he
    rw [show (begunServer server userId uploadId body).chunks.lookup
      (begunServer server userId uploadId body).now uploadId = none from hlookup] at he
    cases he

/-- A file of 1 to `MAX_UPLOAD_BYTES` bytes sent in the chunks `upload_init` asks
    for arrives unchanged: however the client orders and repeats its requests,
    as long as the record lives every chunk is accepted, the missing chunks are
    those not sent yet, and once all are sent the server assembles the file. -/
theorem fresh_upload_reproduces_file (pillow : Option (Pillow Image)) (server : MediaServer)
    (userId : UUID) (uploadId thumbHex mediaHex : String) (body : UploadInitIn) (bytes : Bytes)
    (hsize : body.totalSize = bytes.length)
    (hmime : (ALLOWED_MIME_TYPES.lookup body.mimeType).isSome)
    (hfresh : server.chunks uploadId = none) :
    ∃ out begun, uploadInit server userId uploadId body = (.ok out, begun) ∧
      ∀ steps : List ClientStep, ∀ s : MediaServer,
        s = steps.foldl (clientStep userId uploadId out.chunkSize bytes) begun →
        s.now < server.now + UPLOAD_STATE_TTL →
        (∀ i < out.totalChunks, ∃ chunk, chunkOf bytes out.chunkSize i = some chunk ∧
          (uploadChunk s userId uploadId i chunk).1 = .ok ()) ∧
        (∃ status, uploadStatus s userId uploadId = .ok status ∧
          ∀ i, i ∈ status.missingChunks ↔ i < out.totalChunks ∧ .put i ∉ steps) ∧
        ((∃ detail, (uploadComplete pillow s userId uploadId thumbHex mediaHex).1 =
            .error (.http ⟨409, detail⟩)) ↔ ∃ i < out.totalChunks, .put i ∉ steps) ∧
        ((∀ i < out.totalChunks, .put i ∈ steps) →
          s.store.assembleStaging uploadId out.totalChunks = .ok bytes ∧
          uploadComplete pillow s userId uploadId thumbHex mediaHex =
            finishUpload pillow s uploadId (begunState userId body) bytes thumbHex mediaHex) := by
  have hbegun := Staged.init userId body hfresh (slice CHUNK_SIZE bytes)
  refine ⟨_, _, uploadInit_ok hmime, ?_⟩
  rintro steps s rfl hlive
  have hfull : 0 < CHUNK_SIZE := by decide
  have hpos : 0 < bytes.length := hsize ▸ body.totalSize_pos
  have htotal : (begunState userId body).totalChunks = bytes.length ⌈/⌉ CHUNK_SIZE := by
    rw [begunState_totalChunks, hsize]
  obtain ⟨hstaged, hle⟩ :=
    Staged.clientSteps hpos htotal rfl hbegun (le_refl _) steps hlive
  simp only
  generalize steps.foldl (clientStep userId uploadId CHUNK_SIZE bytes)
    (begunServer server userId uploadId body) = s at *
  have hmem : ∀ i, i ∈ sent (begunState userId body).totalChunks steps ↔
      i < (begunState userId body).totalChunks ∧ .put i ∈ steps := by
    intro i
    simp [sent]
  refine ⟨?_, ?_, ?_, ?_⟩
  · intro i hi
    have hstart : i * CHUNK_SIZE < bytes.length :=
      mul_lt_of_lt_ceilDiv hfull hpos (by rw [← htotal]; exact hi)
    refine ⟨_, chunkOf_eq_slice hstart.le, ?_⟩
    exact (hstaged.put rfl hi (slice_ne_nil hfull hstart) (length_slice_le ..)
      (Int.add_le_add_right hle _)).1
  · refine ⟨_, hstaged.status rfl, fun i => ?_⟩
    simp only [mem_missingChunks, hmem]
    tauto
  · constructor
    · rintro ⟨detail, h⟩
      by_contra hnone
      have hall : ∀ i < (begunState userId body).totalChunks, .put i ∈ steps := by
        intro i hi
        by_contra hi'
        exact hnone ⟨i, hi, hi'⟩
      have hreceived := fun i hi => (hmem i).mpr ⟨hi, hall i hi⟩
      rw [(hstaged.complete_slices rfl hsize htotal hreceived).2] at h
      cases finishUpload_error h
    · rintro ⟨i, hi, hnot⟩
      have hmissing : missingChunks (begunState userId body)
          (sent (begunState userId body).totalChunks steps) ≠ [] := by
        intro h
        exact hnot ((hmem i).mp (missingChunks_eq_nil.mp h i hi)).2
      rw [hstaged.complete_incomplete rfl hmissing]
      exact ⟨_, rfl⟩
  · intro hall
    exact hstaged.complete_slices rfl hsize htotal fun i hi => (hmem i).mpr ⟨hi, hall i hi⟩

end

/-! ## A file of three bytes, and one of six MiB -/

def sampleBody : UploadInitIn :=
  ⟨"report.pdf", "application/pdf", 3, by decide, by decide, by decide⟩

def largeFile : Bytes := List.replicate (6 * 1024 * 1024) 0

def largeBody : UploadInitIn :=
  ⟨"scan.pdf", "application/pdf", 6 * 1024 * 1024, by decide, by decide, by decide⟩

theorem length_largeFile : largeFile.length = 6 * 1024 * 1024 := List.length_replicate ..

/-- The second chunk is sent first, and once more after the other one. -/
theorem fresh_upload_reproduces_file_sample :
    ∃ begun, uploadInit (.empty 0) 7 "u" largeBody = (.ok ⟨"u", CHUNK_SIZE, 2, []⟩, begun) ∧
      (∃ status, uploadStatus ([ClientStep.put 1].foldl
          (clientStep 7 "u" CHUNK_SIZE largeFile) begun) 7 "u" = .ok status ∧
        ∀ i, i ∈ status.missingChunks ↔ i < 2 ∧ ClientStep.put i ∉ [.put 1]) ∧
      ([ClientStep.put 1, .put 0, .put 1].foldl
          (clientStep 7 "u" CHUNK_SIZE largeFile) begun).store.assembleStaging "u" 2 =
        .ok largeFile := by
  have htwo : uploadInit (.empty 0) 7 "u" largeBody =
      (.ok ⟨"u", CHUNK_SIZE, 2, []⟩, begunServer (.empty 0) 7 "u" largeBody) :=
    uploadInit_ok (by decide)
  obtain ⟨out, begun, hinit, hsteps⟩ := fresh_upload_reproduces_file noPillow (.empty 0) 7 "u" "t"
    "m" largeBody largeFile length_largeFile.symm (by decide) rfl
  obtain ⟨hout, rfl⟩ := Prod.mk.inj (htwo.symm.trans hinit)
  obtain rfl := Except.ok.inj hout
  have hnow := fun server i => clientStep_put_now 7 "u" CHUNK_SIZE largeFile server i
  have hlive : (begunServer (.empty 0) 7 "u" largeBody).now < 0 + UPLOAD_STATE_TTL := by decide
  refine ⟨_, htwo, ?_, ?_⟩
  · exact (hsteps [.put 1] _ rfl (by
      rw [List.foldl_cons, List.foldl_nil, hnow]
      exact hlive)).2.1
  · have hall : ∀ i < 2, ClientStep.put i ∈ [ClientStep.put 1, .put 0, .put 1] := by decide
    exact ((hsteps [.put 1, .put 0, .put 1] _ rfl (by
      rw [List.foldl_cons, List.foldl_cons, List.foldl_cons, List.foldl_nil, hnow, hnow, hnow]
      exact hlive)).2.2.2 hall).1

end IronLink.Media
