import IronLink.Media.Fresh

/-!
# `MediaService.upload`

The upload client (frontend/lib/core/media_service.dart:38-108) over the upload
routes, for a fresh upload and for one that is resumed. No time passes while it
runs.

A resumed upload asks the server which chunks it has, and cuts the file into
slices of `(bytes.length / totalChunks).ceil()`. The server's chunk size is
`CHUNK_SIZE`.

Results:
* `sendChunks_spec`: the loop sends what is not there yet.
* `resume_chunkSize`: when the two chunk sizes are the same.
* `resume_succeeds_iff`: a resumed upload delivers the file if and only if the
  image library does not fail on it and no chunk was there, all were, or the two
  chunk sizes are the same.
-/

namespace IronLink.Client

open Lib Auth Media

/-! ## Model -/

/-- How `upload` throws. -/
inductive UploadError
  | response (err : Failure)
  /-- 422: the body of `init` is refused -/
  | unprocessable
  /-- `RangeError` -/
  | range
  deriving DecidableEq

/-- What `upload` knows before it sends chunks. -/
structure UploadPlan where
  uploadId : String
  chunkSize : ℕ
  totalChunks : ℕ
  alreadyUploaded : Finset ℕ

/-- `upload` up to its loop (core/media_service.dart:44-76); `freshId` is the token
    `init` draws. The quotient of the two integers is at least 1/10 away from an
    integer or is one, so that `ceil` of the `double` rounds as the integers do. -/
def planUpload (server : MediaServer) (userId : UUID) (bytes : Bytes)
    (filename mimeType freshId : String) (resumeUploadId : Option String) :
    Except UploadError UploadPlan × MediaServer :=
  match resumeUploadId with
  | some uploadId =>
    match uploadStatus server userId uploadId with
    | .error err => (.error (.response err), server)
    | .ok status =>
      (.ok ⟨uploadId, (bytes.length + status.totalChunks - 1) / status.totalChunks,
        status.totalChunks, status.receivedChunks.toFinset⟩, server)
  | none =>
    if h : filename.length ≤ 255 ∧ 0 < bytes.length ∧ bytes.length ≤ MAX_UPLOAD_BYTES then
      match uploadInit server userId freshId
          ⟨filename, mimeType, bytes.length, h.1, h.2.1, h.2.2⟩ with
      | (.error err, server) => (.error (.response err), server)
      | (.ok init, server) => (.ok ⟨init.uploadId, init.chunkSize, init.totalChunks, ∅⟩, server)
    else (.error .unprocessable, server)

/-- The loop of `upload` (core/media_service.dart:78-95) over the indices that are
    left, and the indices it has sent. -/
def sendChunks (userId : UUID) (bytes : Bytes) (plan : UploadPlan) (server : MediaServer) :
    List ℕ → Except UploadError Unit × MediaServer × List ℕ
  | [] => (.ok (), server, [])
  | i :: indices =>
    if i ∈ plan.alreadyUploaded then sendChunks userId bytes plan server indices
    else
      match chunkOf bytes plan.chunkSize i with
      | none => (.error .range, server, [])
      | some chunk =>
        match uploadChunk server userId plan.uploadId i chunk with
        | (.error err, server) => (.error (.response err), server, [i])
        | (.ok (), server) =>
          let rest := sendChunks userId bytes plan server indices
          (rest.1, rest.2.1, i :: rest.2.2)

/-- What a call of `upload` did: its result, the chunks it sent, the server when the
    loop ended and the server after the call. -/
structure UploadOutcome where
  result : Except UploadError UploadCompleteOut
  sentChunks : List ℕ
  filled : MediaServer
  server : MediaServer

/-- `upload` (core/media_service.dart:38-108). -/
def upload {Image : Type} (pillow : Option (Pillow Image)) (server : MediaServer) (userId : UUID)
    (bytes : Bytes) (filename mimeType freshId thumbHex mediaHex : String)
    (resumeUploadId : Option String) : UploadOutcome :=
  match planUpload server userId bytes filename mimeType freshId resumeUploadId with
  | (.error err, server) => ⟨.error err, [], server, server⟩
  | (.ok plan, server) =>
    match sendChunks userId bytes plan server (List.range plan.totalChunks) with
    | (.error err, server, sentChunks) => ⟨.error err, sentChunks, server, server⟩
    | (.ok (), server, sentChunks) =>
      let complete := uploadComplete pillow server userId plan.uploadId thumbHex mediaHex
      ⟨complete.1.mapError .response, sentChunks, server, complete.2⟩

/-! ## The loop -/

section

variable {Image : Type} {server : MediaServer} {uploadId : String} {state : UploadState}
  {deadline : Time} {S : Finset ℕ} {f : ℕ → Bytes} {userId : UUID} {bytes : Bytes}

/-- The loop is accepted throughout, and stages its own slices beside those that
    were there. -/
theorem sendChunks_spec (plan : UploadPlan) (hid : plan.uploadId = uploadId)
    (howner : state.userId = userId.str) (hsize : plan.chunkSize ≤ CHUNK_SIZE)
    (hpos : 0 < plan.chunkSize) {indices : List ℕ}
    (hindices : ∀ i ∈ indices, i < state.totalChunks ∧ i * plan.chunkSize < bytes.length)
    (hf : ∀ i ∉ plan.alreadyUploaded, f i = slice plan.chunkSize bytes i)
    (h : Staged server uploadId state deadline S f)
    (hdeadline : deadline ≤ server.now + UPLOAD_STATE_TTL) :
    ∃ filled, sendChunks userId bytes plan server indices =
        (.ok (), filled, indices.filter (· ∉ plan.alreadyUploaded)) ∧
      Staged filled uploadId state deadline
        (S ∪ (indices.filter (· ∉ plan.alreadyUploaded)).toFinset) f := by
  induction indices generalizing server S with
  | nil => exact ⟨server, rfl, by simpa using h⟩
  | cons i indices ih =>
    have hrest : ∀ j ∈ indices, j < state.totalChunks ∧ j * plan.chunkSize < bytes.length :=
      fun j hj => hindices j (by simp [hj])
    by_cases hi : i ∈ plan.alreadyUploaded
    · obtain ⟨filled, hrun, hstaged⟩ := ih hrest h hdeadline
      refine ⟨filled, ?_, by simpa [hi] using hstaged⟩
      rw [sendChunks, if_pos hi, hrun]
      simp [hi]
    · obtain ⟨htotal, hstart⟩ := hindices i (by simp)
      obtain ⟨hok, hput⟩ := h.put howner htotal (slice_ne_nil hpos hstart)
        (le_trans (length_slice_le ..) hsize) hdeadline
      rw [← hf i hi, Function.update_eq_self] at hput
      obtain ⟨filled, hrun, hstaged⟩ := ih hrest hput (by rw [uploadChunk_now]; exact hdeadline)
      refine ⟨filled, ?_, ?_⟩
      · rw [sendChunks, if_neg hi, chunkOf_eq_slice hstart.le, hid, ← hf i hi]
        have hpair : uploadChunk server userId uploadId i (f i) =
            (.ok (), (uploadChunk server userId uploadId i (f i)).2) := by
          rw [hf i hi]
          exact Prod.ext hok rfl
        simp only
        rw [hpair]
        simp only [hrun]
        simp [hi]
      · have hunion : S ∪ ((i :: indices).filter (· ∉ plan.alreadyUploaded)).toFinset =
            insert i S ∪ (indices.filter (· ∉ plan.alreadyUploaded)).toFinset := by
          ext j
          simp [hi]
        rw [hunion]
        exact hstaged

/-! ## The two chunk sizes -/

/-- There are at most ten chunks. -/
theorem ceilDiv_CHUNK_SIZE_le {n : ℕ} (hn : n ≤ MAX_UPLOAD_BYTES) : n ⌈/⌉ CHUNK_SIZE ≤ 10 := by
  rw [ceilDiv_le_iff_le_mul (by decide)]
  exact le_trans hn (by decide)

/-- The chunk size of a resumed upload is the server's when the file nearly fills
    its chunks. -/
theorem resume_chunkSize {n : ℕ} (hn : 0 < n) :
    n ⌈/⌉ (n ⌈/⌉ CHUNK_SIZE) = CHUNK_SIZE ↔ n ⌈/⌉ CHUNK_SIZE * (CHUNK_SIZE - 1) < n := by
  have hfull : 0 < CHUNK_SIZE := by decide
  have hle := ceilDiv_refine_le hfull hn
  have hiff := ceilDiv_le_iff_le_mul (c := CHUNK_SIZE - 1) (b := n) (ceilDiv_pos_of_pos hfull hn)
  omega

theorem lt_chunks_mul {n i : ℕ} (hn : 0 < n) (hmax : n ≤ MAX_UPLOAD_BYTES)
    (hi : i < n ⌈/⌉ CHUNK_SIZE) : i * (n ⌈/⌉ (n ⌈/⌉ CHUNK_SIZE)) < n := by
  apply mul_refine_lt _ hi
  have hlast := pred_ceilDiv_mul_lt (w := CHUNK_SIZE) (by decide) hn
  have hten := ceilDiv_CHUNK_SIZE_le hmax
  have hpos := ceilDiv_pos_of_pos (w := CHUNK_SIZE) (by decide) hn
  generalize n ⌈/⌉ CHUNK_SIZE = t at *
  by_contra h
  have hsmall : n ≤ t * (t - 1) := (ceilDiv_le_iff_le_mul hpos).mp (by omega)
  have hlarge : t * (t - 1) ≤ (t - 1) * CHUNK_SIZE := by
    rw [Nat.mul_comm]
    exact Nat.mul_le_mul_left _ (le_trans hten (by decide))
  omega

/-! ## A resumed upload -/

/-- The outcome of a resumed upload: only chunks the server lacked were sent, the
    upload was completed, and the staged chunks made up the file. -/
structure Resumed (outcome : UploadOutcome) (uploadId : String) (totalChunks : ℕ)
    (S : Finset ℕ) (bytes : Bytes) : Prop where
  onlyMissing : ∀ i ∈ outcome.sentChunks, i ∉ S
  succeeds : ∃ out, outcome.result = .ok out
  assembles : outcome.filled.store.assembleStaging uploadId totalChunks = .ok bytes

/-- The staged chunks are of `CHUNK_SIZE` where they were there before, of the
    client's own size where it has sent them. -/
theorem upload_resume (pillow : Option (Pillow Image))
    (filename mimeType freshId thumbHex mediaHex : String) (hpos : 0 < bytes.length)
    (hmax : bytes.length ≤ MAX_UPLOAD_BYTES) (howner : state.userId = userId.str)
    (htotal : state.totalChunks = bytes.length ⌈/⌉ CHUNK_SIZE)
    (h : Staged server uploadId state deadline S (slice CHUNK_SIZE bytes))
    (hdeadline : deadline ≤ server.now + UPLOAD_STATE_TTL) :
    ∃ filled T, upload pillow server userId bytes filename mimeType freshId thumbHex mediaHex
        (some uploadId) =
          ⟨(uploadComplete pillow filled userId uploadId thumbHex mediaHex).1.mapError .response,
            (List.range state.totalChunks).filter (· ∉ S), filled,
            (uploadComplete pillow filled userId uploadId thumbHex mediaHex).2⟩ ∧
      (∀ i < state.totalChunks, i ∈ T) ∧
      Staged filled uploadId state deadline T
        (mixedSlice CHUNK_SIZE (bytes.length ⌈/⌉ state.totalChunks) S bytes) := by
  have hfull : 0 < CHUNK_SIZE := by decide
  have hsize := ceilDiv_refine_le hfull hpos
  rw [← htotal] at hsize
  have hchunk : 0 < bytes.length ⌈/⌉ state.totalChunks := by
    rw [htotal]
    exact ceilDiv_pos_of_pos (ceilDiv_pos_of_pos hfull hpos) hpos
  have hmixed : Staged server uploadId state deadline S
      (mixedSlice CHUNK_SIZE (bytes.length ⌈/⌉ state.totalChunks) S bytes) := by
    refine ⟨h.alive, h.recorded, h.received, h.lasting, fun i hi => ?_⟩
    rw [mixedSlice, if_pos hi]
    exact h.staged i hi
  let plan : UploadPlan :=
    ⟨uploadId, bytes.length ⌈/⌉ state.totalChunks, state.totalChunks, S⟩
  have hplan : planUpload server userId bytes filename mimeType freshId (some uploadId) =
      (.ok plan, server) := by
    unfold planUpload
    simp only [h.status howner, Finset.sort_toFinset]
    rw [← Nat.ceilDiv_eq_add_pred_div]
  have hindices : ∀ i ∈ List.range state.totalChunks, i < state.totalChunks ∧
      i * plan.chunkSize < bytes.length := by
    intro i hi
    have hlt := List.mem_range.mp hi
    refine ⟨hlt, ?_⟩
    show i * (bytes.length ⌈/⌉ state.totalChunks) < _
    rw [htotal] at hlt ⊢
    exact lt_chunks_mul hpos hmax hlt
  obtain ⟨filled, hrun, hstaged⟩ := sendChunks_spec plan rfl howner hsize hchunk hindices
    (fun i hi => if_neg hi) hmixed hdeadline
  refine ⟨filled, _, ?_, ?_, hstaged⟩
  · unfold upload
    rw [hplan]
    simp only [hrun, plan]
  · intro i hi
    by_cases hiS : i ∈ S
    · simp [hiS]
    · simp [hiS, hi, plan]

/-- `upload_complete` on chunks of the two sizes. -/
theorem complete_mixed_iff {pillow : Option (Pillow Image)} (thumbHex mediaHex : String)
    {T : Finset ℕ} {chunkSize : ℕ} (hsize : state.totalSize = bytes.length)
    (howner : state.userId = userId.str)
    (hle : chunkSize ≤ CHUNK_SIZE) (hpos : 0 < state.totalChunks)
    (hlast : (state.totalChunks - 1) * CHUNK_SIZE ≤ bytes.length)
    (hcover : bytes.length ≤ state.totalChunks * chunkSize)
    (h : Staged server uploadId state deadline T (mixedSlice CHUNK_SIZE chunkSize S bytes))
    (hall : ∀ i < state.totalChunks, i ∈ T) :
    ((∃ out, (uploadComplete pillow server userId uploadId thumbHex mediaHex).1 = .ok out) ∧
        server.store.assembleStaging uploadId state.totalChunks = .ok bytes) ↔
      (processed pillow state.mimeType bytes).isSome ∧
        (chunkSize = CHUNK_SIZE ∨ (∀ i < state.totalChunks, i ∉ S) ∨
          ∀ i < state.totalChunks, i ∈ S) := by
  rw [h.complete howner hall, h.assemble hall, hsize]
  constructor
  · rintro ⟨hout, hjoin⟩
    have hbytes := Except.ok.inj hjoin
    rw [hbytes, if_neg (not_not.mpr rfl)] at hout
    refine ⟨finishUpload_ok_iff.mp hout, ?_⟩
    by_cases hsame : chunkSize = CHUNK_SIZE
    · exact .inl hsame
    · right
      rw [← length_mixed_slices S (lt_of_le_of_ne hle hsame) hpos hlast hcover, hbytes]
  · rintro ⟨hpillow, hcase⟩
    have hjoin := flatten_mixedSlices (le_trans hcover (Nat.mul_le_mul_left _ hle)) hcover hcase
    rw [hjoin, if_neg (not_not.mpr rfl)]
    exact ⟨finishUpload_ok_iff.mpr hpillow, rfl⟩

end

theorem ok_of_mapError {ε ε' α : Type} {wrap : ε → ε'} {x : Except ε α} {a : α}
    (h : x.mapError wrap = .ok a) : x = .ok a := by
  cases x with
  | error err => cases h
  | ok a' =>
    cases h
    rfl

/-- What was sent below `total`, and the sizes of the chunks. -/
theorem resume_cases {n total : ℕ} {S : Finset ℕ} (hn : 0 < n) (hS : S ⊆ Finset.range total)
    (htotal : total = n ⌈/⌉ CHUNK_SIZE) :
    (S = ∅ ∨ S = Finset.range total ∨ total * (CHUNK_SIZE - 1) < n) ↔
      n ⌈/⌉ total = CHUNK_SIZE ∨ (∀ i < total, i ∉ S) ∨ ∀ i < total, i ∈ S := by
  have hnone : S = ∅ ↔ ∀ i < total, i ∉ S := by
    constructor
    · rintro rfl i -
      exact Finset.notMem_empty i
    · intro h
      exact Finset.eq_empty_of_forall_notMem fun i hi => h i (Finset.mem_range.mp (hS hi)) hi
  have hall : S = Finset.range total ↔ ∀ i < total, i ∈ S := by
    constructor
    · rintro rfl i hi
      exact Finset.mem_range.mpr hi
    · intro h
      exact hS.antisymm fun i hi => h i (Finset.mem_range.mp hi)
  rw [hnone, hall, htotal, ← resume_chunkSize hn]
  tauto

section

variable {Image : Type} {server : MediaServer} {uploadId : String} {state : UploadState}
  {deadline : Time} {S : Finset ℕ} {userId : UUID} {bytes : Bytes}

theorem resumed_iff (pillow : Option (Pillow Image))
    (filename freshId thumbHex mediaHex : String) (hpos : 0 < bytes.length)
    (hmax : bytes.length ≤ MAX_UPLOAD_BYTES) (howner : state.userId = userId.str)
    (hsize : state.totalSize = bytes.length)
    (htotal : state.totalChunks = bytes.length ⌈/⌉ CHUNK_SIZE)
    (hS : S ⊆ Finset.range state.totalChunks)
    (h : Staged server uploadId state deadline S (slice CHUNK_SIZE bytes))
    (hdeadline : deadline ≤ server.now + UPLOAD_STATE_TTL) :
    Resumed (upload pillow server userId bytes filename state.mimeType freshId thumbHex mediaHex
        (some uploadId)) uploadId state.totalChunks S bytes ↔
      (processed pillow state.mimeType bytes).isSome ∧
        (S = ∅ ∨ S = Finset.range state.totalChunks ∨
          state.totalChunks * (CHUNK_SIZE - 1) < bytes.length) := by
  have hfull : 0 < CHUNK_SIZE := by decide
  obtain ⟨filled, T, hupload, hall, hfilled⟩ := upload_resume pillow filename state.mimeType
    freshId thumbHex mediaHex hpos hmax howner htotal h hdeadline
  have hlast : (state.totalChunks - 1) * CHUNK_SIZE ≤ bytes.length := by
    rw [htotal]
    exact (pred_ceilDiv_mul_lt hfull hpos).le
  have hchunks : 0 < state.totalChunks := by
    rw [htotal]
    exact ceilDiv_pos_of_pos hfull hpos
  have hrefine : bytes.length ⌈/⌉ state.totalChunks ≤ CHUNK_SIZE := by
    rw [htotal]
    exact ceilDiv_refine_le hfull hpos
  have hcover : bytes.length ≤ state.totalChunks * (bytes.length ⌈/⌉ state.totalChunks) :=
    (ceilDiv_le_iff_le_mul hchunks).mp le_rfl
  rw [resume_cases hpos hS htotal, ← complete_mixed_iff thumbHex mediaHex hsize howner
    hrefine hchunks hlast hcover hfilled hall, hupload]
  constructor
  · rintro ⟨-, ⟨out, hout⟩, hassembled⟩
    exact ⟨⟨out, ok_of_mapError hout⟩, hassembled⟩
  · rintro ⟨⟨out, hout⟩, hassembled⟩
    exact ⟨by simp, ⟨out, by simp only [hout]; rfl⟩, hassembled⟩

end

end IronLink.Client
