import LocalRag.Core.Posix
import LocalRag.Library.Names
import LocalRag.Storage.Uploads

/-!
# Staging — what an accepted upload hands to the database

`DocumentService.stage`, `preflight` and `_metadata` of `services/documents.py`
up to the statement they send, against the checks `v4_admin_upload_preflight`
opens with and the constraints of `library_nodes` in `0001_v4_baseline`.

The staging step derives two texts from the client's filename: the last component
of the path, kept as it is, and the library name with its key, which went through
`normalize_library_name`. The name and the key always satisfy the database
(`stage_node_ok`). The kept component does not: nothing trims it and nothing
bounds it, and the preflight wants it trimmed of blanks and at most 512
characters long. `stage_accepted_iff` is exactly that gap.

Mirroring notes. The reads of the upload are the chunks `read` returned, the
empty one ends the file. A digest is a number (`HexText`); the temporary file and
the three derived identifiers are left out.
-/

namespace LocalRag.Storage

open LocalRag.Core Library

/-! ## `PurePath.name` -/

/-- `PurePosixPath` or `PureWindowsPath`, what `Path` is on the host. -/
inductive PathFlavour where
  | posix
  | windows
deriving Repr, DecidableEq

/-- `ntpath.splitroot`: the part after the drive and the root. `text` has its
slashes turned. -/
def windowsTail (text : List Char) : List Char :=
  if text.head? = some '\\' then
    if text[1]? = some '\\' then
      -- a share: the drive is `\\server\share`
      let start := if (String.ofList (text.take 8)).toUpper = "\\\\?\\UNC\\" then 8 else 2
      let server := (text.drop start).dropWhile (· ≠ '\\')
      ((server.drop 1).dropWhile (· ≠ '\\')).drop 1
    else text.drop 1
  else if text[1]? = some ':' then
    if text[2]? = some '\\' then text.drop 3 else text.drop 2
  else text

/-- `Path(text).name`: the last component; empty components and `.` are none. -/
def pathName (flavour : PathFlavour) (text : String) : String :=
  let components := match flavour with
    | .posix => splitSep '/' text.toList
    | .windows => splitSep '\\' (windowsTail (text.toList.map fun c => if c = '/' then '\\' else c))
  String.ofList ((components.filter fun part => part ≠ [] ∧ part ≠ ['.']).getLast?.getD [])

/-! ## The staging step -/

/-- The settings the step reads. -/
structure UploadSettings where
  acceptedMimeTypes : List String
  maximumUploadBytes : Nat
deriving Repr, DecidableEq

/-- The `UploadFile` of the request. -/
structure ClientUpload where
  contentType : Option String
  filename : Option String
  reads : List (List UInt8)
deriving Repr, DecidableEq

/-- What the step raises. -/
inductive StagingError where
  | validation (message : String)
  | tooLarge (message : String)
  | name (error : InvalidLibraryName)
deriving Repr, DecidableEq

/-- The variables of the read loop. -/
structure Received where
  firstBytes : List UInt8
  size : Nat
  content : List UInt8
deriving Repr, DecidableEq

/-- `while content := await upload.read(…)`. -/
def receive (settings : UploadSettings) : List (List UInt8) → Received →
    Except StagingError Received
  | [], received => .ok received
  | [] :: _, received => .ok received
  | chunk :: reads, received =>
    let firstBytes := if received.firstBytes = [] then chunk.take 5 else received.firstBytes
    let size := received.size + chunk.length
    if settings.maximumUploadBytes < size then
      .error (.tooLarge s!"upload exceeds {settings.maximumUploadBytes} bytes")
    else receive settings reads ⟨firstBytes, size, received.content ++ chunk⟩

/-- `b"%PDF-"`. -/
def pdfMagic : List UInt8 := [0x25, 0x50, 0x44, 0x46, 0x2d]

/-- `StagedUpload`, the fields that reach the database. -/
structure StagedUpload where
  sha256 : HexText
  objectKey : ObjectKey
  byteSize : Nat
  filename : String
  displayName : String
  nameKey : String
deriving Repr, DecidableEq

/-- `Path(upload.filename or "").name`. -/
def clientFilename (flavour : PathFlavour) (upload : ClientUpload) : String :=
  pathName flavour (upload.filename.getD "")

/-- `DocumentService.stage`. -/
def stage (u : Unicode) (sha256 : List UInt8 → Nat) (flavour : PathFlavour)
    (settings : UploadSettings) (upload : ClientUpload) : Except StagingError StagedUpload :=
  if ¬ (upload.contentType.any fun type => settings.acceptedMimeTypes.contains type) then
    .error (.validation "only application/pdf uploads are accepted")
  else
    let filename := clientFilename flavour upload
    if filename = "" then .error (.validation "upload filename is required")
    else do
      let (displayName, nameKey) ← (normalizeLibraryName u filename).mapError .name
      let received ← receive settings upload.reads ⟨[], 0, []⟩
      if received.firstBytes ≠ pdfMagic then
        .error (.validation "file content is not a PDF")
      else
        let checksum := HexText.digest (sha256 received.content)
        .ok
          { sha256 := checksum
            objectKey := canonicalObjectKey checksum
            byteSize := received.size
            filename := filename
            displayName := displayName
            nameKey := nameKey }

/-! ## The statement -/

/-- `ck_ingestion_version_profile`: the two rows the configuration can hold. -/
inductive IngestionProfile where
  | adaptive
  | legacy
deriving Repr, DecidableEq

def IngestionProfile.parserVersion : IngestionProfile → String
  | .adaptive => "pypdf+paddleocr-vl-v1.6-adaptive-v2"
  | .legacy => "pypdf+paddleocr-vl-v1.6"

def IngestionProfile.chunkingVersion : IngestionProfile → String
  | .adaptive => "fragment-paragraph-sentence-v2"
  | .legacy => "paragraph-sentence-v1"

/-- The version of every embedding generation. -/
def embeddingVersion : String := "qwen3-embedding-0.6b-1024"

/-- `_metadata`, with the folder and the teams of the request. -/
def uploadRequest (staged : StagedUpload) (profile : IngestionProfile)
    (parentId : Option NodeId) (selectedTeamIds : List TeamId) : UploadRequest where
  sha256 := staged.sha256
  objectKey := staged.objectKey
  metadata :=
    { filename := staged.filename
      displayName := staged.displayName
      nameKey := staged.nameKey
      mimeType := "application/pdf"
      byteSize := staged.byteSize
      parserVersion := profile.parserVersion
      chunkingVersion := profile.chunkingVersion
      embeddingVersion := embeddingVersion }
  parentId := parentId
  selectedTeamIds := selectedTeamIds

/-- `ck_library_nodes_name_length`, `…_name_key_bytes` and `…_name_key_nonempty`. -/
def nodeNameOk (name nameKey : String) : Bool :=
  1 ≤ name.length ∧ name.length ≤ 255 ∧ nameKey.utf8ByteSize ≤ 1024 ∧ 0 < nameKey.length

/-- PostgreSQL stores no null character in a text. -/
def storable (text : String) : Bool := ¬ text.toList.contains (Char.ofNat 0)

/-- The statement goes through the checks on its metadata, and the row it leads to
through the ones of its table. -/
def metadataAccepted (request : UploadRequest) : Prop :=
  isInvalidUpload request = false ∧
    nodeNameOk request.metadata.displayName request.metadata.nameKey = true ∧
    storable request.metadata.filename = true ∧
    storable request.metadata.displayName = true ∧
    storable request.metadata.nameKey = true

/-- What the preflight asks of the filename alone. -/
def filenameFits (filename : String) : Prop :=
  filename = btrim filename ∧ filename.length ≤ 512

/-! ## The name and its key -/

section Names

variable {u : Unicode} {value name nameKey : String}

/-- A character is at least one byte. -/
theorem length_le_bytes (chars : List Char) :
    chars.length ≤ (String.ofList chars).utf8ByteSize := by
  induction chars with
  | nil => simp
  | cons c chars ih =>
    have hsplit : String.ofList (c :: chars) = String.ofList [c] ++ String.ofList chars := by
      rw [← String.ofList_append, List.singleton_append]
    have hc : 0 < (String.ofList [c]).utf8ByteSize := by
      rw [Nat.pos_iff_ne_zero, ne_eq, String.utf8ByteSize_eq_zero_iff]
      simp
    rw [hsplit, String.utf8ByteSize_append, List.length_cons]
    omega

theorem string_length_le_bytes (s : String) : s.length ≤ s.utf8ByteSize := by
  have h := length_le_bytes s.toList
  rwa [String.ofList_toList, String.length_toList] at h

variable {s : String}

theorem length_pos_of_ne (h : s ≠ "") : 0 < s.length := by
  rw [Nat.pos_iff_ne_zero, ne_eq, ← String.length_toList, List.length_eq_zero_iff]
  exact fun hnil => h (String.toList_eq_nil_iff.1 hnil)

/-- Composing keeps a text that is not empty that way. -/
theorem nfc_ne (hu : u.Lawful) (h : s ≠ "") : u.nfc s ≠ "" := by
  intro hempty
  have hhead := hu.head_nfc s
  rw [hempty] at hhead
  have hnil : s.toList.head? = none := by simpa using hhead.symm
  exact h (String.toList_eq_nil_iff.1 (List.head?_eq_none_iff.1 hnil))

/-- A normalized name and its key satisfy the constraints of `library_nodes`. -/
theorem nodeNameOk_of_normalized (hu : u.Lawful) (h : Normalized u value name nameKey) :
    nodeNameOk name nameKey = true := by
  have hname : name ≠ "" := fun hempty => h.not_reserved (.inl hempty)
  have hkey : nameKey ≠ "" := by
    rw [h.key_eq]
    exact nfc_ne hu (hu.casefold_ne name hname)
  have hlength := length_pos_of_ne hname
  have hkeyLength := length_pos_of_ne hkey
  unfold nodeNameOk
  exact decide_eq_true ⟨by omega, h.length_le, h.key_bytes, hkeyLength⟩

/-- No null character comes through: it is a control, the white space is trimmed
without it, and neither composing nor folding makes one. -/
theorem storable_of_normalized (hu : u.Lawful) (h : Normalized u value name nameKey) :
    storable name = true ∧ storable nameKey = true := by
  have hname : Char.ofNat 0 ∉ name.toList := fun hnull =>
    (h.printable _ hnull).1 hu.null_control
  have hkey : Char.ofNat 0 ∉ nameKey.toList := by
    rw [h.key_eq, hu.null_nfc, hu.null_casefold]
    exact hname
  unfold storable
  simp [hname, hkey]

theorem mem_dropWhile_of_not {p : α → Bool} {a : α} {as : List α} (ha : a ∈ as)
    (hp : p a = false) : a ∈ as.dropWhile p := by
  induction as with
  | nil => cases ha
  | cons b as ih =>
    by_cases hb : p b = true
    · rw [List.dropWhile_cons_of_pos hb]
      rcases List.mem_cons.1 ha with rfl | ha
      · simp [hp] at hb
      · exact ih ha
    · rwa [List.dropWhile_cons_of_neg hb]

/-- Trimming keeps every character that is no white space. -/
theorem mem_strip {c : Char} (hc : c ∈ s.toList) (hspace : isSpace c = false) :
    c ∈ (strip s).toList := by
  have hfront : c ∈ s.toList.dropWhile isSpace := mem_dropWhile_of_not hc hspace
  have hback : c ∈ (s.toList.dropWhile isSpace).reverse.dropWhile isSpace :=
    mem_dropWhile_of_not (List.mem_reverse.2 hfront) hspace
  unfold strip
  rw [String.toList_ofList, List.mem_reverse]
  exact hback

/-- The text the name was made from holds no null character either. -/
theorem storable_source (hu : u.Lawful) (h : Normalized u value name nameKey) :
    storable value = true := by
  have hvalue : Char.ofNat 0 ∉ value.toList := by
    intro hnull
    have hstripped : Char.ofNat 0 ∈ (strip value).toList := mem_strip hnull (by decide)
    have hname : Char.ofNat 0 ∈ name.toList := by
      rw [h.name_eq, hu.null_nfc]
      exact hstripped
    exact (h.printable _ hname).1 hu.null_control
  unfold storable
  simp [hvalue]

end Names

/-! ## The content -/

/-- The loop counts what it read, and took its first bytes from it. -/
theorem receive_size {settings : UploadSettings} {reads : List (List UInt8)}
    {received received' : Received} (h : receive settings reads received = .ok received')
    (hsize : received.firstBytes.length ≤ received.size) :
    received'.firstBytes.length ≤ received'.size := by
  induction reads generalizing received with
  | nil =>
    cases h
    exact hsize
  | cons chunk reads ih =>
    cases chunk with
    | nil =>
      cases h
      exact hsize
    | cons b chunk =>
      unfold receive at h
      simp only at h
      split at h
      · cases h
      · refine ih h ?_
        split
        · simp only [List.length_take]
          omega
        · simp only
          omega

/-! ## The staging step -/

variable {u : Unicode} {sha256 : List UInt8 → Nat} {flavour : PathFlavour}
  {settings : UploadSettings} {upload : ClientUpload} {staged : StagedUpload}

/-- What an accepted upload is made of. -/
structure Staged (u : Unicode) (flavour : PathFlavour) (upload : ClientUpload)
    (staged : StagedUpload) : Prop where
  filename_eq : staged.filename = clientFilename flavour upload
  filename_ne : staged.filename ≠ ""
  normalized : Normalized u staged.filename staged.displayName staged.nameKey
  digest : staged.sha256.wellFormed = true
  key_eq : staged.objectKey = canonicalObjectKey staged.sha256
  size_pos : 0 < staged.byteSize

theorem stage_spec (h : stage u sha256 flavour settings upload = .ok staged) :
    Staged u flavour upload staged := by
  unfold stage at h
  simp only at h
  split at h
  · cases h
  split at h
  · cases h
  next hfilename =>
  obtain ⟨⟨displayName, nameKey⟩, hname, h⟩ := bind_eq_ok.1 h
  obtain ⟨received, hreceived, h⟩ := bind_eq_ok.1 h
  simp only at h
  split at h
  · cases h
  next hmagic =>
  cases h
  have hnormalized : normalizeLibraryName u (clientFilename flavour upload) =
      .ok (displayName, nameKey) := by
    cases hresult : normalizeLibraryName u (clientFilename flavour upload) with
    | error e => simp [hresult, Except.mapError] at hname
    | ok pair =>
      obtain rfl : pair = (displayName, nameKey) := by
        simpa [hresult, Except.mapError] using hname
      rfl
  have hsize := receive_size hreceived (by simp)
  have hfirst : received.firstBytes = pdfMagic := Decidable.not_not.1 hmagic
  rw [hfirst] at hsize
  exact
    { filename_eq := rfl
      filename_ne := hfilename
      normalized := normalizeLibraryName_ok_iff.1 hnormalized
      digest := rfl
      key_eq := rfl
      size_pos := Nat.lt_of_lt_of_le (by decide) hsize }

/-! ## What the database makes of it -/

theorem profile_lengths (profile : IngestionProfile) :
    profile.parserVersion.length ≠ 0 ∧ profile.parserVersion.length ≤ 64 ∧
      profile.chunkingVersion.length ≠ 0 ∧ profile.chunkingVersion.length ≤ 64 ∧
      embeddingVersion.length ≠ 0 ∧ embeddingVersion.length ≤ 128 := by
  cases profile <;> decide

/-- Of the metadata of an accepted upload, only the filename can be refused. -/
theorem isInvalidUpload_staged (hu : u.Lawful) (h : Staged u flavour upload staged)
    (profile : IngestionProfile) (parentId : Option NodeId) (selectedTeamIds : List TeamId) :
    isInvalidUpload (uploadRequest staged profile parentId selectedTeamIds) = false ↔
      filenameFits staged.filename := by
  have hversions := profile_lengths profile
  have hnode := of_decide_eq_true (nodeNameOk_of_normalized hu h.normalized)
  have hkeyLength := string_length_le_bytes staged.nameKey
  have hfilename := length_pos_of_ne h.filename_ne
  have hbytes := h.size_pos
  have hwf := h.digest
  have hobject := h.key_eq
  unfold isInvalidUpload filenameFits uploadRequest
  simp only [decide_eq_false_iff_not, not_or, Decidable.not_not, hwf, not_true_eq_false,
    not_false_eq_true, true_and, ne_eq, hobject]
  constructor
  · rintro ⟨_, htrimmed, _, hlength, _⟩
    exact ⟨htrimmed, by omega⟩
  · rintro ⟨htrimmed, hlength⟩
    refine ⟨by omega, htrimmed, by omega, by omega, by omega, by omega, by omega, by omega,
      hversions.1, by omega, hversions.2.2.1, by omega, hversions.2.2.2.2.1, by omega⟩

/-- The metadata an accepted upload passes always has a name and a key the library
can hold, and goes through the database exactly when the filename, the last
component of the client's path, has no blank at either end and at most 512
characters. -/
theorem stage_accepted_iff {u : Unicode} (hu : u.Lawful) {sha256 : List UInt8 → Nat}
    {flavour : PathFlavour} {settings : UploadSettings} {upload : ClientUpload}
    {staged : StagedUpload} (h : stage u sha256 flavour settings upload = .ok staged)
    (profile : IngestionProfile) (parentId : Option NodeId) (selectedTeamIds : List TeamId) :
    nodeNameOk staged.displayName staged.nameKey = true ∧
      (metadataAccepted (uploadRequest staged profile parentId selectedTeamIds) ↔
        filenameFits (clientFilename flavour upload)) := by
  have hstaged := stage_spec h
  have hnode := nodeNameOk_of_normalized hu hstaged.normalized
  have hnull := storable_of_normalized hu hstaged.normalized
  have hsource := storable_source hu hstaged.normalized
  have hpreflight := isInvalidUpload_staged hu hstaged profile parentId selectedTeamIds
  refine ⟨hnode, ?_⟩
  rw [← hstaged.filename_eq, ← hpreflight]
  unfold metadataAccepted
  exact ⟨fun haccepted => haccepted.1, fun hvalid =>
    ⟨hvalid, hnode, hsource, hnull.1, hnull.2⟩⟩

/-! ## Two uploads -/

/-- The settings as they are shipped. -/
def shippedSettings : UploadSettings := ⟨["application/pdf"], 100 * 1024 * 1024⟩

/-- A nine-byte document under the given name. -/
def sampleClientUpload (filename : String) : ClientUpload where
  contentType := some "application/pdf"
  filename := some filename
  reads := [pdfMagic ++ [0x31, 0x2e, 0x37, 0x0a]]

/-- What the document is staged as. -/
def sampleStaged (filename displayName nameKey : String) : StagedUpload where
  sha256 := .digest 7
  objectKey := .original 7
  byteSize := 9
  filename := filename
  displayName := displayName
  nameKey := nameKey

theorem stage_accepted_iff_report :
    metadataAccepted (uploadRequest (sampleStaged "Report.PDF" "Report.PDF" "report.pdf")
      .adaptive none []) :=
  have hstage : stage repertoire (fun _ => 7) .windows shippedSettings
      (sampleClientUpload "C:\\scans\\Report.PDF") =
      .ok (sampleStaged "Report.PDF" "Report.PDF" "report.pdf") := by decide +kernel
  (stage_accepted_iff repertoire_lawful hstage .adaptive none []).2.2 ⟨by decide, by decide⟩

/-- A blank in front of the name: staged, and refused by the preflight. -/
theorem leading_blank_refused :
    stage repertoire (fun _ => 7) .posix shippedSettings (sampleClientUpload " a.pdf") =
        .ok (sampleStaged " a.pdf" "a.pdf" "a.pdf") ∧
      isInvalidUpload (uploadRequest (sampleStaged " a.pdf" "a.pdf" "a.pdf") .adaptive none []) =
        true := by
  decide +kernel

end LocalRag.Storage
