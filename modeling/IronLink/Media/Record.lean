import IronLink.Lib.Run
import IronLink.Media.Fresh

/-!
# The record of received chunks

Runs of upload requests, by any users and on any uploads, with time passing
between them. The chunk set of an upload in Redis stands for the objects staged
in the bucket.

Results:
* `uploadChunk_cases`, `uploadComplete_cases`: all a request can do to the server.
* `RecordKept.serve`: the correspondence is kept by every request but a
  `upload_complete` whose chunks do not add up.
* `recordTrue_iff`: the record is true throughout exactly the runs without one.
-/

namespace IronLink.Media

open Lib Auth

/-! ## Model -/

/-- A request to the upload routes, or time passing (in microseconds). -/
inductive Request
  | init (userId : UUID) (uploadId : String) (body : UploadInitIn)
  | chunk (userId : UUID) (uploadId : String) (chunkIndex : ℤ) (data : Bytes)
  | status (userId : UUID) (uploadId : String)
  | complete (userId : UUID) (uploadId thumbHex mediaHex : String)
  | wait (d : ℕ)

section

variable {Image : Type} (pillow : Option (Pillow Image))

/-- The server after a request. `secrets.token_urlsafe` draws no token twice. -/
def serve (server : MediaServer) : Request → Option MediaServer
  | .init userId uploadId body =>
    if uploadId ∈ server.issued then none
    else some (uploadInit server userId uploadId body).2
  | .chunk userId uploadId chunkIndex data =>
    some (uploadChunk server userId uploadId chunkIndex data).2
  | .status _ _ => some server
  | .complete userId uploadId thumbHex mediaHex =>
    some (uploadComplete pillow server userId uploadId thumbHex mediaHex).2
  | .wait d => some { server with now := server.now + d }

/-- The record of received chunks is true: for an upload on record each chunk it
    names is staged, what is reported missing is what is not staged, and when
    nothing is, `upload_complete` finds every chunk. -/
structure RecordTrue (server : MediaServer) : Prop where
  staged : ∀ uploadId state, server.states.get server.now uploadId = some state →
    ∀ i ∈ server.chunks.smembers server.now uploadId,
      (server.store (.staging uploadId i)).isSome
  missing : ∀ userId uploadId status, uploadStatus server userId uploadId = .ok status →
    ∀ i, i ∈ status.missingChunks ↔
      i < status.totalChunks ∧ server.store (.staging uploadId i) = none
  complete : ∀ userId uploadId status, uploadStatus server userId uploadId = .ok status →
    status.missingChunks = [] → ∀ thumbHex mediaHex,
      (uploadComplete pillow server userId uploadId thumbHex mediaHex).1 ≠
        .error (.s3 "NoSuchKey")

/-- When `upload_complete` misses no chunk, what is staged has the announced size. -/
def SizesAgree (server : MediaServer) : Request → Prop
  | .complete userId uploadId _ _ =>
    ∀ state, loadState server uploadId userId = .ok state →
      missingChunks state (server.chunks.smembers server.now uploadId) = [] →
      ∀ assembled, server.store.assembleStaging uploadId state.totalChunks = .ok assembled →
        assembled.length = state.totalSize
  | _ => True

end

section

variable {Image : Type} {pillow : Option (Pillow Image)} {server : MediaServer}
  {uploadId thumbHex mediaHex : String} {userId : UUID}

/-! ## What a request can do -/

theorem uploadChunk_cases (server : MediaServer) (userId : UUID) (uploadId : String)
    (chunkIndex : ℤ) (data : Bytes) :
    (uploadChunk server userId uploadId chunkIndex data).2 = server ∨
      ∃ state, loadState server uploadId userId = .ok state ∧
        chunkIndex.toNat < state.totalChunks ∧
        (uploadChunk server userId uploadId chunkIndex data).2 =
          server.recordChunk uploadId chunkIndex.toNat data := by
  unfold uploadChunk
  cases hload : loadState server uploadId userId with
  | error err => exact .inl rfl
  | ok state =>
    by_cases hrange : 0 ≤ chunkIndex ∧ chunkIndex < state.totalChunks
    · simp only [hrange, and_self, not_true_eq_false, if_false]
      split_ifs
      · exact .inl rfl
      · exact .inl rfl
      · exact .inr ⟨state, rfl, by omega, rfl⟩
    · simp only [hrange, not_false_eq_true, if_true]
      exact .inl trivial

theorem uploadComplete_cases (pillow : Option (Pillow Image)) (server : MediaServer)
    (userId : UUID) (uploadId thumbHex mediaHex : String) :
    (uploadComplete pillow server userId uploadId thumbHex mediaHex).2 = server ∨
      ∃ state, loadState server uploadId userId = .ok state ∧
        missingChunks state (server.chunks.smembers server.now uploadId) = [] ∧
        ∃ assembled, server.store.assembleStaging uploadId state.totalChunks = .ok assembled ∧
          (uploadComplete pillow server userId uploadId thumbHex mediaHex).2 =
            if assembled.length ≠ state.totalSize then
              { server with store := server.store.deleteStaging uploadId state.totalChunks }
            else (finishUpload pillow server uploadId state assembled thumbHex mediaHex).2 := by
  unfold uploadComplete
  cases hload : loadState server uploadId userId with
  | error err => exact .inl rfl
  | ok state =>
    simp only
    by_cases hmissing : missingChunks state (server.chunks.smembers server.now uploadId) = []
    · rw [if_neg (not_not.mpr hmissing)]
      cases hassembled : server.store.assembleStaging uploadId state.totalChunks with
      | error err => exact .inl rfl
      | ok assembled =>
        refine .inr ⟨state, rfl, hmissing, assembled, hassembled, ?_⟩
        simp only
        split_ifs <;> rfl
    · rw [if_pos hmissing]
      exact .inl rfl

/-- A finished upload is gone from Redis; no chunk of another one is touched. -/
theorem finishUpload_cases (pillow : Option (Pillow Image)) (server : MediaServer)
    (uploadId : String) (state : UploadState) (assembled : Bytes) (thumbHex mediaHex : String) :
    (finishUpload pillow server uploadId state assembled thumbHex mediaHex).2 = server ∨
      ∃ store, (finishUpload pillow server uploadId state assembled thumbHex mediaHex).2 =
          { server with
            store := store
            states := server.states.del uploadId
            chunks := server.chunks.del uploadId } ∧
        ∀ other i, other ≠ uploadId →
          store (.staging other i) = server.store (.staging other i) := by
  unfold finishUpload
  cases processed pillow state.mimeType assembled with
  | none => exact .inl rfl
  | some stored =>
    refine .inr ⟨_, rfl, fun other i hother => ?_⟩
    rw [Store.deleteStaging_apply, if_neg (by rintro ⟨j, -, hkey⟩; cases hkey; exact hother rfl),
      Store.putObject_staging]
    cases stored.2 with
    | none => rfl
    | some thumb => exact Store.putObject_staging ..

/-- With every chunk staged nothing is wanting to assemble them. -/
theorem uploadComplete_staged
    (h : ∀ state, loadState server uploadId userId = .ok state →
      missingChunks state (server.chunks.smembers server.now uploadId) = [] →
      ∀ i < state.totalChunks, (server.store (.staging uploadId i)).isSome) :
    (uploadComplete pillow server userId uploadId thumbHex mediaHex).1 ≠
      .error (.s3 "NoSuchKey") := by
  unfold uploadComplete
  cases hload : loadState server uploadId userId with
  | error err =>
    obtain rfl := loadState_error hload
    simp
  | ok state =>
    simp only
    split_ifs with hmissing
    · simp
    · cases hassembled : server.store.assembleStaging uploadId state.totalChunks with
      | error err =>
        obtain ⟨-, i, hi, hnone⟩ := Store.assembleStaging_error hassembled
        have hsome := h state hload (not_not.mp hmissing) i hi
        rw [hnone] at hsome
        cases hsome
      | ok assembled =>
        simp only
        split_ifs with hsize
        · simp
        · intro herr
          cases finishUpload_error herr

/-! ## The invariant -/

/-- What holds of the upload `uploadId`: an id not drawn yet has left nothing; each
    chunk named in its set is staged; and while it is on record each staged chunk
    is named there, for at least as long. -/
structure Kept (server : MediaServer) (uploadId : String) : Prop where
  fresh : uploadId ∉ server.issued → server.states uploadId = none ∧
    server.chunks uploadId = none ∧ ∀ i, server.store (.staging uploadId i) = none
  staged : ∀ e, server.chunks uploadId = some e →
    ∀ i ∈ e.val, (server.store (.staging uploadId i)).isSome
  recorded : ∀ e, server.states uploadId = some e → 0 < e.val.totalChunks ∧
    ∃ d, e.deadline = some d ∧ d ≤ server.now + UPLOAD_STATE_TTL ∧
      ∀ i, (server.store (.staging uploadId i)).isSome →
        ∃ r d', server.chunks uploadId = some r ∧ i ∈ r.val ∧ r.deadline = some d' ∧ d ≤ d'

/-- It depends on what Redis and the bucket hold for the upload alone. -/
theorem Kept.congr {server' : MediaServer} (h : Kept server uploadId)
    (hissued : uploadId ∈ server.issued → uploadId ∈ server'.issued)
    (hnow : server.now ≤ server'.now) (hstates : server'.states uploadId = server.states uploadId)
    (hchunks : server'.chunks uploadId = server.chunks uploadId)
    (hstore : ∀ i, server'.store (.staging uploadId i) = server.store (.staging uploadId i)) :
    Kept server' uploadId := by
  refine ⟨fun hnew => ?_, fun e he i hi => ?_, fun e he => ?_⟩
  · obtain ⟨hs, hc, ho⟩ := h.fresh fun hold => hnew (hissued hold)
    exact ⟨by rw [hstates, hs], by rw [hchunks, hc], fun i => by rw [hstore, ho]⟩
  · rw [hstore]
    exact h.staged e (by rw [← hchunks, he]) i hi
  · obtain ⟨hpos, d, hd, hle, hrec⟩ := h.recorded e (by rw [← hstates, he])
    refine ⟨hpos, d, hd, le_trans hle (Int.add_le_add_right hnow _), fun i hi => ?_⟩
    rw [hchunks]
    exact hrec i (by rw [← hstore]; exact hi)

theorem Kept.init (h : Kept server uploadId) (hnew : uploadId ∉ server.issued)
    (body : UploadInitIn) : Kept (begunServer server userId uploadId body) uploadId := by
  obtain ⟨-, hc, ho⟩ := h.fresh hnew
  refine ⟨fun hnot => absurd (by simp [begunServer]) hnot, fun e he => ?_, fun e he => ?_⟩
  · exact absurd (hc.symm.trans he) (by simp)
  · have hentry : (begunServer server userId uploadId body).states uploadId =
        some ⟨begunState userId body, some (server.now + UPLOAD_STATE_TTL)⟩ := TtlMap.set_self ..
    obtain rfl := Option.some.inj (hentry.symm.trans he)
    refine ⟨?_, _, rfl, le_refl _, fun i hi => ?_⟩
    · rw [begunState_totalChunks]
      exact ceilDiv_pos_of_pos (by decide) body.totalSize_pos
    · have hnone : (begunServer server userId uploadId body).store (.staging uploadId i) = none :=
        ho i
      rw [hnone] at hi
      cases hi

theorem Kept.recordChunk (h : Kept server uploadId) {state : UploadState}
    (hload : loadState server uploadId userId = .ok state) (i : ℕ) (data : Bytes) :
    Kept (server.recordChunk uploadId i data) uploadId := by
  obtain ⟨hget, -⟩ := loadState_eq_ok.mp hload
  obtain ⟨entry, hentry, hlive, -⟩ := TtlMap.get_eq_some.mp hget
  have hset : (server.recordChunk uploadId i data).chunks uploadId =
      some ⟨insert i (server.chunks.smembers server.now uploadId),
        some (server.now + UPLOAD_STATE_TTL)⟩ := TtlMap.sadd_expire_self ..
  have hstore : ∀ j, (server.recordChunk uploadId i data).store (.staging uploadId j) =
      if j = i then some ⟨data, "application/octet-stream"⟩
      else server.store (.staging uploadId j) := by
    intro j
    by_cases hj : j = i
    · rw [if_pos hj, hj]
      exact Store.putStagingChunk_self ..
    · rw [if_neg hj]
      exact Store.putStagingChunk_of_ne (by simp [hj]) data
  refine ⟨fun hnot => ?_, fun e he j hj => ?_, fun e he => ?_⟩
  · rw [(h.fresh hnot).1] at hentry
    cases hentry
  · obtain rfl := Option.some.inj (hset.symm.trans he)
    rw [hstore]
    split_ifs with hji
    · rfl
    · have hmem : j ∈ server.chunks.smembers server.now uploadId := by simpa [hji] using hj
      obtain ⟨r, hr, -, hjr⟩ := TtlMap.mem_smembers.mp hmem
      exact h.staged r hr j hjr
  · obtain ⟨hpos, d, hd, hle, hrec⟩ := h.recorded e he
    refine ⟨hpos, d, hd, hle, fun j hj => ⟨_, _, hset, ?_, rfl, hle⟩⟩
    rw [hstore] at hj
    split_ifs at hj with hji
    · simp [hji]
    · -- the upload is on record, so the set it had is not lost yet
      obtain ⟨r, d', hr, hjr, hd', hdd⟩ := hrec j hj
      obtain rfl := Option.some.inj (hentry.symm.trans he)
      have hnow := (Entry.live_of_deadline hd).mp hlive
      have hrlive := (Entry.live_of_deadline hd').mpr (lt_of_lt_of_le hnow hdd)
      exact Finset.mem_insert_of_mem (TtlMap.mem_smembers.mpr ⟨r, hr, hrlive, hjr⟩)

/-- A finished upload leaves nothing to keep. -/
theorem Kept.finished (store : Store) (hissued : uploadId ∈ server.issued) :
    Kept { server with
      store := store
      states := server.states.del uploadId
      chunks := server.chunks.del uploadId } uploadId := by
  refine ⟨fun hnot => absurd hissued hnot, fun e he => ?_, fun e he => ?_⟩
  · exact absurd (Eq.trans (TtlMap.del_self ..).symm he) (by simp)
  · exact absurd (Eq.trans (TtlMap.del_self ..).symm he) (by simp)

theorem Kept.issued (h : Kept server uploadId) {state : UploadState}
    (hload : loadState server uploadId userId = .ok state) : uploadId ∈ server.issued := by
  obtain ⟨hget, -⟩ := loadState_eq_ok.mp hload
  obtain ⟨entry, hentry, -⟩ := TtlMap.get_eq_some.mp hget
  by_contra hnot
  rw [(h.fresh hnot).1] at hentry
  cases hentry

/-- A request under the condition keeps what holds of every upload. -/
theorem Kept.serve {server' : MediaServer} {request : Request} (h : ∀ id, Kept server id)
    (hg : SizesAgree server request) (hs : serve pillow server request = some server') :
    ∀ id, Kept server' id := by
  intro id
  cases request with
  | init userId uploadId body =>
    simp only [Media.serve] at hs
    split_ifs at hs with hissued
    obtain rfl := Option.some.inj hs
    by_cases hmime : (ALLOWED_MIME_TYPES.lookup body.mimeType).isSome
    · rw [uploadInit_ok hmime]
      by_cases hid : id = uploadId
      · subst hid
        exact (h id).init hissued body
      · exact (h id).congr (fun hold => List.mem_cons_of_mem _ hold) (le_refl _)
          (TtlMap.set_of_ne hid ..) rfl fun i => rfl
    · have hrefuse : (uploadInit server userId uploadId body).2 = server := by
        unfold uploadInit
        rw [if_pos (Option.isNone_iff_eq_none.mpr (Option.not_isSome_iff_eq_none.mp hmime))]
      rw [hrefuse]
      exact h id
  | chunk userId uploadId chunkIndex data =>
    obtain rfl := Option.some.inj hs
    obtain hsame | ⟨state, hload, -, hrec⟩ :=
      uploadChunk_cases server userId uploadId chunkIndex data
    · rw [hsame]
      exact h id
    · rw [hrec]
      by_cases hid : id = uploadId
      · subst hid
        exact (h id).recordChunk hload _ data
      · refine (h id).congr (fun hold => hold) (le_refl _) rfl ?_ fun i => ?_
        · exact (TtlMap.expire_of_ne hid ..).trans (TtlMap.sadd_of_ne hid ..)
        · exact Store.putStagingChunk_of_ne (by simp [hid]) data
  | status userId uploadId =>
    obtain rfl := Option.some.inj hs
    exact h id
  | complete userId uploadId thumbHex mediaHex =>
    obtain rfl := Option.some.inj hs
    obtain hsame | ⟨state, hload, hmissing, assembled, hassembled, hdone⟩ :=
      uploadComplete_cases pillow server userId uploadId thumbHex mediaHex
    · rw [hsame]
      exact h id
    · rw [hdone, if_neg (not_not.mpr (hg state hload hmissing assembled hassembled))]
      obtain hsame | ⟨store, hfinish, hother⟩ :=
        finishUpload_cases pillow server uploadId state assembled thumbHex mediaHex
      · rw [hsame]
        exact h id
      · rw [hfinish]
        by_cases hid : id = uploadId
        · subst hid
          exact Kept.finished store ((h id).issued hload)
        · exact (h id).congr (fun hold => hold) (le_refl _) (TtlMap.del_of_ne hid)
            (TtlMap.del_of_ne hid) fun i => hother id i hid
  | wait d =>
    obtain rfl := Option.some.inj hs
    exact (h id).congr (fun hold => hold) (Int.le_add_of_nonneg_right (Int.natCast_nonneg d))
      rfl rfl fun i => rfl

/-! ## The record -/

/-- For an upload on record the set of received chunks is that of the staged ones. -/
theorem Kept.mem_received (h : Kept server uploadId) {state : UploadState}
    (hget : server.states.get server.now uploadId = some state) (i : ℕ) :
    i ∈ server.chunks.smembers server.now uploadId ↔
      (server.store (.staging uploadId i)).isSome := by
  obtain ⟨entry, hentry, hlive, -⟩ := TtlMap.get_eq_some.mp hget
  constructor
  · intro hi
    obtain ⟨r, hr, -, hir⟩ := TtlMap.mem_smembers.mp hi
    exact h.staged r hr i hir
  · intro hi
    obtain ⟨-, d, hd, -, hrec⟩ := h.recorded entry hentry
    obtain ⟨r, d', hr, hir, hd', hdd⟩ := hrec i hi
    have hnow := (Entry.live_of_deadline hd).mp hlive
    exact TtlMap.mem_smembers.mpr
      ⟨r, hr, (Entry.live_of_deadline hd').mpr (lt_of_lt_of_le hnow hdd), hir⟩

theorem uploadStatus_eq_ok {status : UploadStatusOut}
    (h : uploadStatus server userId uploadId = .ok status) :
    ∃ state, loadState server uploadId userId = .ok state ∧
      status.totalChunks = state.totalChunks ∧
      status.missingChunks =
        missingChunks state (server.chunks.smembers server.now uploadId) := by
  unfold uploadStatus at h
  cases hload : loadState server uploadId userId with
  | error err =>
    rw [hload] at h
    cases h
  | ok state =>
    simp only [hload] at h
    obtain rfl := Except.ok.inj h
    exact ⟨state, rfl, rfl, rfl⟩

theorem recordTrue_of_kept (h : ∀ id, Kept server id) : RecordTrue pillow server := by
  refine ⟨?_, ?_, ?_⟩
  · intro uploadId state hget i hi
    exact ((h uploadId).mem_received hget i).mp hi
  · intro userId uploadId status hstatus i
    obtain ⟨state, hload, htotal, hmissing⟩ := uploadStatus_eq_ok hstatus
    have hmem := (h uploadId).mem_received (loadState_eq_ok.mp hload).1 i
    rw [hmissing, mem_missingChunks, htotal, hmem]
    simp
  · intro userId uploadId status hstatus hnil thumbHex mediaHex
    apply uploadComplete_staged
    intro state hload hmissing i hi
    rw [← (h uploadId).mem_received (loadState_eq_ok.mp hload).1 i]
    exact missingChunks_eq_nil.mp hmissing i hi

/-- A complete that finds chunks of another total size deletes them and leaves the
    record as it was. -/
theorem recordTrue_fails {request : Request} (h : ∀ id, Kept server id)
    (hg : ¬ SizesAgree server request) :
    ∃ server' ∈ serve pillow server request, ¬ RecordTrue pillow server' := by
  cases request with
  | complete userId uploadId thumbHex mediaHex =>
    simp only [SizesAgree, not_forall] at hg
    obtain ⟨state, hload, hmissing, assembled, hassembled, hsize⟩ := hg
    have hrun : (uploadComplete pillow server userId uploadId thumbHex mediaHex).2 =
        { server with store := server.store.deleteStaging uploadId state.totalChunks } := by
      unfold uploadComplete
      simp only [hload, hmissing, hassembled]
      rw [if_neg (by simp), if_pos hsize]
    obtain ⟨hget, -⟩ := loadState_eq_ok.mp hload
    obtain ⟨entry, hentry, -, rfl⟩ := TtlMap.get_eq_some.mp hget
    have hpos := ((h uploadId).recorded entry hentry).1
    refine ⟨_, rfl, fun htrue => ?_⟩
    rw [hrun] at htrue
    have hstaged := htrue.staged uploadId entry.val hget 0
      (missingChunks_eq_nil.mp hmissing 0 hpos)
    simp only [Store.deleteStaging_apply] at hstaged
    rw [if_pos ⟨0, hpos, rfl⟩] at hstaged
    cases hstaged
  | init userId uploadId body => exact absurd trivial hg
  | chunk userId uploadId chunkIndex data => exact absurd trivial hg
  | status userId uploadId => exact absurd trivial hg
  | wait d => exact absurd trivial hg

theorem kept_empty (now : Time) (id : String) : Kept (.empty now) id := by
  refine ⟨fun _ => ⟨rfl, rfl, fun i => rfl⟩, fun e he => ?_, fun e he => ?_⟩
  · cases he
  · cases he

end

/-- The record of received chunks is true in every state of a run if and only if
    every `upload_complete` that misses no chunk finds chunks of the announced
    total size. -/
theorem recordTrue_iff {Image : Type} (pillow : Option (Pillow Image)) (now : Time)
    (requests : List Request) :
    Throughout (serve pillow) (RecordTrue pillow) (.empty now) requests ↔
      Guarded (serve pillow) SizesAgree (.empty now) requests :=
  throughout_iff_guarded (I := fun server => ∀ id, Kept server id)
    (fun _ h => recordTrue_of_kept h) (fun _ _ _ h hg hs => Kept.serve h hg hs)
    (fun _ _ h hg => recordTrue_fails h hg) (kept_empty now)

/-- The client announces three bytes and sends two. -/
def shortUpload : List Request :=
  [.init 7 "u" sampleBody, .chunk 7 "u" 0 [1, 2], .complete 7 "u" "t" "m"]

/-- After the refusal nothing is reported missing and nothing is staged. -/
theorem shortUpload_record :
    ¬ Throughout (serve noPillow) (RecordTrue noPillow) (.empty 0) shortUpload := by
  have hrun : ∃ server ∈ run (serve noPillow) (.empty 0) shortUpload,
      (uploadStatus server 7 "u").map UploadStatusOut.missingChunks = .ok [] ∧
        (uploadComplete noPillow server 7 "u" "t" "m").1 = .error (.s3 "NoSuchKey") := by
    decide +kernel
  obtain ⟨server, hserver, hstatus, hcomplete⟩ := hrun
  intro htrue
  have hrecord := htrue shortUpload [] (List.append_nil _).symm server hserver
  cases hs : uploadStatus server 7 "u" with
  | error err =>
    rw [hs] at hstatus
    cases hstatus
  | ok status =>
    rw [hs] at hstatus
    exact hrecord.complete 7 "u" status hs (Except.ok.inj hstatus) "t" "m" hcomplete

end IronLink.Media
