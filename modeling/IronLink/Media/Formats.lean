import IronLink.Media.Outage

/-!
# Image bytes and their type

`_process_image` (app/api/routes/media.py:245-274) encodes a picture of more than 512 KiB
as JPEG, whatever it was, when this makes it smaller. `upload_complete` stores the bytes
under the suffix and the content type of the upload.

Results:
* `processImage_data`: the bytes that are stored, with and without the second encoding.
* `bytesMatchType_iff`: they are in the format of their type exactly when the type is JPEG
  or they are the bytes that were uploaded.
* `png_stored_as_jpeg`: a PNG of more than 512 KiB.
-/

namespace IronLink.Media

open Lib Auth

/-! ## Formats -/

/-- The formats of the allowed image types, as Pillow names them. -/
inductive ImageFormat
  | JPEG
  | PNG
  | WEBP
  deriving DecidableEq

/-- The format that a MIME type names. -/
def mimeFormat (mime : String) : Option ImageFormat :=
  [("image/jpeg", .JPEG), ("image/png", .PNG), ("image/webp", .WEBP)].lookup mime

/-- The format that a file suffix names. -/
def suffixFormat (suffix : String) : Option ImageFormat :=
  [(".jpg", .JPEG), (".png", .PNG), (".webp", .WEBP)].lookup suffix

theorem mimeFormat_cases {mime : String} {f : ImageFormat} (h : mimeFormat mime = some f) :
    mime = "image/jpeg" ∧ f = .JPEG ∨ mime = "image/png" ∧ f = .PNG ∨
      mime = "image/webp" ∧ f = .WEBP := by
  obtain ⟨before, after, htable, -⟩ := List.lookup_eq_some_iff.mp h
  have hmem : (mime, f) ∈ [("image/jpeg", ImageFormat.JPEG), ("image/png", .PNG),
      ("image/webp", .WEBP)] := by
    rw [htable]
    simp
  simpa using hmem

/-- The image types are among `ALLOWED_MIME_TYPES`, and their suffixes name the same
    formats. -/
theorem mimeFormat_allowed {mime : String} {f : ImageFormat} (h : mimeFormat mime = some f) :
    isImage mime = true ∧ suffixFormat (extFor mime) = some f := by
  obtain ⟨rfl, rfl⟩ | ⟨rfl, rfl⟩ | ⟨rfl, rfl⟩ := mimeFormat_cases h
  · decide
  · decide
  · decide

/-- `save(…, format="JPEG")` yields a JPEG. -/
def EncodesJpeg {Image : Type} (lib : Pillow Image) (format : Bytes → Option ImageFormat) : Prop :=
  ∀ img quality buf, lib.saveJpeg img quality = some buf → format buf = some .JPEG

/-- The object that a completed upload reports is in the format that its content type, the
    reported MIME type and the suffix of its key name. -/
def BytesMatchType (format : Bytes → Option ImageFormat) (server : MediaServer)
    (out : UploadCompleteOut) : Prop :=
  ∃ object f, server.store (.media out.mediaKey) = some object ∧
    object.contentType = out.mimeType ∧ mimeFormat out.mimeType = some f ∧
      (∃ hex suffix, out.mediaKey = hex ++ suffix ∧ suffixFormat suffix = some f) ∧
        format object.data = some f

/-! ## The second encoding -/

section

variable {Image : Type} {lib : Pillow Image} {pillow : Option (Pillow Image)} {data out : Bytes}
  {thumb : Option Bytes}

/-- The JPEG that `_process_image` makes of the picture (app/api/routes/media.py:263-264). -/
def jpeg85 (lib : Pillow Image) (img : Image) : Option Bytes :=
  (if lib.mode img ≠ "RGB" ∧ lib.mode img ≠ "L" then lib.convertRgb img else some img).bind
    fun rgb => lib.saveJpeg rgb 85

/-- The bytes are not large, or are no picture that Pillow can make smaller. -/
def KeepsBytes (pillow : Option (Pillow Image)) (data : Bytes) : Prop :=
  data.length ≤ 512 * 1024 ∨ ∀ lib ∈ pillow, ∀ img ∈ lib.load data, ∀ buf ∈ jpeg85 lib img,
    data.length ≤ buf.length

theorem recompress_eq (lib : Pillow Image) (data : Bytes) (img : Image) :
    recompress lib data img =
      if 512 * 1024 < data.length then
        (jpeg85 lib img).map fun buf => if buf.length < data.length then buf else data
      else some data := by
  unfold recompress jpeg85
  split_ifs <;> simp [Option.map_eq_bind, Option.bind_assoc]

/-- The JPEG replaces the bytes when these are large and it is smaller. -/
theorem recompress_cases {img : Image} (h : recompress lib data img = some out) :
    out = data ∧ (512 * 1024 < data.length → ∀ buf ∈ jpeg85 lib img, data.length ≤ buf.length) ∨
      jpeg85 lib img = some out ∧ 512 * 1024 < data.length ∧ out.length < data.length := by
  rw [recompress_eq] at h
  split_ifs at h with hlarge
  · obtain ⟨buf, hbuf, hout⟩ := Option.map_eq_some_iff.mp h
    split_ifs at hout with hsmaller
    · subst hout
      exact .inr ⟨hbuf, hlarge, hsmaller⟩
    · refine .inl ⟨hout.symm, fun _ other hother => ?_⟩
      obtain rfl := Option.some.inj (hbuf.symm.trans hother)
      omega
  · exact .inl ⟨(Option.some.inj h).symm, fun hlt => absurd hlt hlarge⟩

/-- What is stored: the bytes as they came, or a JPEG. -/
theorem processImage_data (h : processImage pillow data = some (out, thumb)) :
    KeepsBytes pillow data ∧ out = data ∨ ¬ KeepsBytes pillow data ∧
      ∃ lib ∈ pillow, ∃ img, jpeg85 lib img = some out := by
  unfold processImage at h
  cases pillow with
  | none =>
    obtain ⟨rfl, -⟩ := Prod.mk.inj (Option.some.inj h)
    exact .inl ⟨.inr fun lib hlib => (by cases hlib), rfl⟩
  | some lib =>
    dsimp only at h
    cases hload : lib.load data with
    | none =>
      rw [hload] at h
      obtain ⟨rfl, -⟩ := Prod.mk.inj (Option.some.inj h)
      refine .inl ⟨.inr fun lib' hlib img himg => ?_, rfl⟩
      obtain rfl := Option.some.inj hlib
      rw [hload] at himg
      cases himg
    | some img =>
      rw [hload] at h
      obtain ⟨data', hout, h⟩ := Option.bind_eq_some_iff.mp h
      obtain ⟨thumbImg, -, h⟩ := Option.bind_eq_some_iff.mp h
      obtain ⟨rgb, -, h⟩ := Option.bind_eq_some_iff.mp h
      obtain ⟨buf, -, h⟩ := Option.bind_eq_some_iff.mp h
      obtain ⟨rfl, -⟩ := Prod.mk.inj (Option.some.inj h)
      obtain ⟨rfl, hkeeps⟩ | ⟨hjpeg, hlarge, hsmaller⟩ := recompress_cases hout
      · refine .inl ⟨?_, rfl⟩
        by_cases hlarge : 512 * 1024 < data'.length
        · refine .inr fun lib' hlib img' himg => ?_
          obtain rfl := Option.some.inj hlib
          obtain rfl := Option.some.inj (hload.symm.trans himg)
          exact hkeeps hlarge
        · exact .inl (by omega)
      · refine .inr ⟨?_, lib, rfl, img, hjpeg⟩
        rintro (hsmall | hnone)
        · omega
        · have hle := hnone lib rfl img hload data' hjpeg
          omega

theorem format_jpeg85 {format : Bytes → Option ImageFormat} (h : EncodesJpeg lib format)
    {img : Image} (hjpeg : jpeg85 lib img = some out) : format out = some .JPEG := by
  obtain ⟨rgb, -, hsave⟩ := Option.bind_eq_some_iff.mp hjpeg
  exact h rgb 85 out hsave

/-- The object that `upload_complete` stores. -/
theorem uploadComplete_stored {server server' : MediaServer} {userId : UUID}
    {uploadId thumbHex mediaHex : String} {state : UploadState} {assembled : Bytes}
    {res : UploadCompleteOut} (hstate : loadState server uploadId userId = .ok state)
    (hassembled : server.store.assembleStaging uploadId state.totalChunks = .ok assembled)
    (hdone : uploadComplete pillow server userId uploadId thumbHex mediaHex = (.ok res, server')) :
    ∃ data thumb, processed pillow state.mimeType assembled = some (data, thumb) ∧
      res.mediaKey = mediaHex ++ extFor state.mimeType ∧ res.mimeType = state.mimeType ∧
        server'.store (.media res.mediaKey) = some ⟨data, state.mimeType⟩ := by
  unfold uploadComplete at hdone
  rw [hstate] at hdone
  dsimp only at hdone
  split_ifs at hdone with hmissing
  · cases (Prod.mk.inj hdone).1
  · rw [hassembled] at hdone
    dsimp only at hdone
    split_ifs at hdone with hsize
    · cases (Prod.mk.inj hdone).1
    · unfold finishUpload at hdone
      cases hdata : processed pillow state.mimeType assembled with
      | none =>
        rw [hdata] at hdone
        cases (Prod.mk.inj hdone).1
      | some stored =>
        obtain ⟨data, thumb⟩ := stored
        rw [hdata] at hdone
        obtain ⟨hres, rfl⟩ := Prod.mk.inj hdone
        obtain rfl := Except.ok.inj hres
        refine ⟨data, thumb, rfl, rfl, rfl, ?_⟩
        dsimp only
        rw [Store.deleteStaging_apply, if_neg (by rintro ⟨i, -, hkey⟩; cases hkey)]
        exact Function.update_self ..

end

/-- For an image whose bytes are in the declared format, the object of a completed upload
    is in the format of its type exactly when that is JPEG or the bytes are kept. -/
theorem bytesMatchType_iff {Image : Type} (pillow : Option (Pillow Image))
    (format : Bytes → Option ImageFormat) (server server' : MediaServer) (userId : UUID)
    (uploadId thumbHex mediaHex : String) (state : UploadState) (assembled : Bytes)
    (f : ImageFormat) (out : UploadCompleteOut)
    (hencodes : ∀ lib ∈ pillow, EncodesJpeg lib format)
    (hstate : loadState server uploadId userId = .ok state)
    (hassembled : server.store.assembleStaging uploadId state.totalChunks = .ok assembled)
    (hmime : mimeFormat state.mimeType = some f) (hdeclared : format assembled = some f)
    (hdone : uploadComplete pillow server userId uploadId thumbHex mediaHex = (.ok out, server')) :
    BytesMatchType format server' out ↔
      state.mimeType = "image/jpeg" ∨ KeepsBytes pillow assembled := by
  obtain ⟨himage, hsuffix⟩ := mimeFormat_allowed hmime
  obtain ⟨data, thumb, hdata, hkey, htype, hstored⟩ :=
    uploadComplete_stored hstate hassembled hdone
  have hmatch : BytesMatchType format server' out ↔ format data = some f := by
    constructor
    · rintro ⟨object, g, hobject, -, hg, -, hformat⟩
      obtain rfl := Option.some.inj (hstored.symm.trans hobject)
      rw [htype, hmime] at hg
      rw [Option.some.inj hg]
      exact hformat
    · intro hformat
      exact ⟨_, f, hstored, htype.symm, by rw [htype, hmime], ⟨_, _, hkey, hsuffix⟩, hformat⟩
  rw [hmatch]
  unfold processed at hdata
  rw [if_pos himage] at hdata
  obtain ⟨hkeeps, rfl⟩ | ⟨hnot, lib, hlib, img, hjpeg⟩ := processImage_data hdata
  · exact iff_of_true hdeclared (.inr hkeeps)
  · rw [format_jpeg85 (hencodes lib hlib) hjpeg, or_iff_left hnot]
    obtain ⟨hname, rfl⟩ | ⟨hname, rfl⟩ | ⟨hname, rfl⟩ := mimeFormat_cases hmime
    · exact iff_of_true rfl hname
    · rw [hname]
      decide
    · rw [hname]
      decide

/-! ## A large PNG -/

/-- The format that the first bytes tell. -/
def sniffed (data : Bytes) : Option ImageFormat :=
  if [0xff, 0xd8, 0xff].isPrefixOf data then some .JPEG
  else if [0x89, 0x50, 0x4e, 0x47, 0x0d, 0x0a, 0x1a, 0x0a].isPrefixOf data then some .PNG
  else if [0x52, 0x49, 0x46, 0x46].isPrefixOf data &&
      [0x57, 0x45, 0x42, 0x50].isPrefixOf (data.drop 8) then some .WEBP
  else none

/-- A PNG of one red pixel. -/
def redPixel : Bytes :=
  [137, 80, 78, 71, 13, 10, 26, 10, 0, 0, 0, 13, 73, 72, 68, 82, 0, 0, 0, 1, 0, 0, 0, 1, 8, 2, 0,
    0, 0, 144, 119, 83, 222, 0, 0, 0, 12, 73, 68, 65, 84, 120, 156, 99, 248, 207, 192, 0, 0, 3, 1,
    1, 0, 201, 254, 146, 239, 0, 0, 0, 0, 73, 69, 78, 68, 174, 66, 96, 130]

/-- A JPEG of one pixel. -/
def pixelJpeg : Bytes :=
  [255, 216, 255, 219, 0, 67, 0, 3, 2, 2, 2, 2, 2, 3, 2, 2, 2, 3, 3, 3, 3, 4, 6, 4, 4, 4, 4, 4, 8,
    6, 6, 5, 6, 9, 8, 10, 10, 9, 8, 9, 9, 10, 12, 15, 12, 10, 11, 14, 11, 9, 9, 13, 17, 13, 14, 15,
    16, 16, 17, 16, 10, 12, 18, 19, 18, 16, 19, 15, 16, 16, 16, 255, 201, 0, 11, 8, 0, 1, 0, 1, 1,
    1, 17, 0, 255, 204, 0, 6, 0, 16, 16, 5, 255, 218, 0, 8, 1, 1, 0, 0, 63, 0, 210, 207, 32, 255,
    217]

/-- A library that has been given pictures of one pixel. -/
def pixelLib : Pillow Unit where
  load data := if (sniffed data).isSome then some () else none
  mode _ := "RGB"
  convertRgb img := some img
  thumbnail img := some img
  saveJpeg _ _ := some pixelJpeg

theorem pixelLib_encodes : EncodesJpeg pixelLib sniffed := by
  intro img quality buf hbuf
  rw [← Option.some.inj hbuf]
  decide

/-- The red pixel, and zeros after the end of the picture. -/
def largePng : Bytes := redPixel ++ List.replicate (512 * 1024) 0

theorem length_largePng : largePng.length = 524357 := by
  unfold largePng
  rw [List.length_append, List.length_replicate]
  rfl

def largePngBody : UploadInitIn :=
  ⟨"pixel.png", "image/png", 524357, by decide, by decide, by decide⟩

theorem largePng_live :
    LiveComplete (uploaded largePngBody largePng) 7 "u" (begunState 7 largePngBody) largePng :=
  uploaded_live length_largePng.symm (by rw [length_largePng]; decide)

theorem processed_largePng :
    processed (some pixelLib) "image/png" largePng = some (pixelJpeg, some pixelJpeg) := by
  have himage : isImage "image/png" = true := by decide
  have hload : pixelLib.load largePng = some () := rfl
  have hrecompress : recompress pixelLib largePng () = some pixelJpeg := by
    have hjpeg : jpeg85 pixelLib () = some pixelJpeg := rfl
    rw [recompress_eq, length_largePng, hjpeg]
    rfl
  unfold processed processImage
  rw [if_pos himage]
  dsimp only
  rw [hload]
  dsimp only
  rw [hrecompress]
  rfl

/-- A PNG of more than 512 KiB is stored as a JPEG under a key that ends in `.png`. -/
theorem png_stored_as_jpeg :
    EncodesJpeg pixelLib sniffed ∧ sniffed largePng = some .PNG ∧
      LiveComplete (uploaded largePngBody largePng) 7 "u" (begunState 7 largePngBody) largePng ∧
        ∃ out server', uploadComplete (some pixelLib) (uploaded largePngBody largePng) 7 "u" "t"
          "m" = (.ok out, server') ∧ ¬ BytesMatchType sniffed server' out := by
  obtain ⟨out, server', hdone, hstored⟩ := largePng_live.uploadComplete processed_largePng "t" "m"
  refine ⟨pixelLib_encodes, rfl, largePng_live, out, server', hdone, ?_⟩
  rintro ⟨object, f, hobject, htype, hmime, -, hformat⟩
  obtain rfl := Option.some.inj (hstored.symm.trans hobject)
  have hjpeg : sniffed pixelJpeg = some .JPEG := by decide
  have hpng : mimeFormat (begunState 7 largePngBody).mimeType = some .PNG := by decide
  dsimp only at htype hformat
  rw [← htype, hpng] at hmime
  rw [hjpeg, ← hmime] at hformat
  cases hformat

def redPixelBody : UploadInitIn :=
  ⟨"pixel.png", "image/png", 69, by decide, by decide, by decide⟩

theorem processed_redPixel :
    processed (some pixelLib) "image/png" redPixel = some (redPixel, some pixelJpeg) := rfl

/-- The pixel alone is stored as it came. -/
theorem redPixel_kept :
    ∃ out server', uploadComplete (some pixelLib) (uploaded redPixelBody redPixel) 7 "u" "t" "m" =
      (.ok out, server') ∧ BytesMatchType sniffed server' out := by
  have hlive : LiveComplete (uploaded redPixelBody redPixel) 7 "u" (begunState 7 redPixelBody)
      redPixel := uploaded_live rfl (by decide)
  obtain ⟨out, server', hdone, -⟩ := hlive.uploadComplete processed_redPixel "t" "m"
  have hencodes : ∀ lib ∈ some pixelLib, EncodesJpeg lib sniffed := by
    intro lib hlib
    rw [← Option.some.inj hlib]
    exact pixelLib_encodes
  exact ⟨out, server', hdone, (bytesMatchType_iff (some pixelLib) sniffed
    (uploaded redPixelBody redPixel) server' 7 "u" "t" "m" (begunState 7 redPixelBody) redPixel
    .PNG out hencodes hlive.found hlive.staged rfl rfl hdone).mpr (.inr (.inl (by decide)))⟩

end IronLink.Media
