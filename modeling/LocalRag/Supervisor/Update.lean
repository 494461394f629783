import LocalRag.Core.Json
import LocalRag.Core.Posix
import Mathlib.Algebra.GroupWithZero.Nat

/-!
# Update — verifying and unpacking a release

`verify_personal_update`, `_extract_archive` and `_read_json` of
`supervisor/personal_update.py`: the signed artifacts are checked, the archive is
unpacked into the candidate directory, and what was unpacked is checked again.

The directory is removed by hand. Two of the checks after the extraction do it,
and the extraction does it for the errors of the system and of a damaged archive.
Nothing else does, so what a failed call leaves behind is decided by the first
thing that went wrong (`firstTrouble`): `failed_update_traceless_iff` says which
ones end as those three do, in an `UpdateError` and without the directory, and which
leave a candidate that the next attempt is refused for. A call that succeeds has unpacked every file below the candidate, no
two members under one path up to case, and contract files of the signed digests.

Mirroring notes. What the system or the archive answers is data of the call
(`Release`): an operation that raises carries its error. The zip reader may raise
anything, an encrypted member a `RuntimeError`, a damaged one a `zlib.error`; both
are `other`. A path is the list of its components.
-/

namespace LocalRag.Supervisor

open LocalRag.Core

/-! ## The disk -/

abbrev Path := List String

/-- What is on the disk. -/
structure Disk where
  dirs : List Path
  files : List Path
deriving Repr, DecidableEq

/-- `path.exists()`. -/
def Disk.present (disk : Disk) (path : Path) : Prop := path ∈ disk.dirs ∨ path ∈ disk.files

instance (disk : Disk) (path : Path) : Decidable (disk.present path) :=
  inferInstanceAs (Decidable (_ ∨ _))

/-- `path.mkdir(parents=True, exist_ok=True)`: the path and every ancestor. -/
def Disk.makeDirs (disk : Disk) (path : Path) : Disk :=
  { disk with dirs := disk.dirs ++ path.inits }

/-- `path.open("xb")`. -/
def Disk.create (disk : Disk) (path : Path) : Disk :=
  { disk with files := disk.files ++ [path] }

/-- `shutil.rmtree(root, ignore_errors=True)`: all of it, but what cannot be removed
and the directories above that. -/
def Disk.rmtree (disk : Disk) (root : Path) (stuck : List Path) : Disk where
  dirs := disk.dirs.filter fun p => ¬ root <+: p ∨ ∃ s ∈ stuck, p <+: s
  files := disk.files.filter fun p => ¬ root <+: p ∨ p ∈ stuck

/-! ## Errors -/

/-- What a library or the system raises. -/
inductive Fault where
  | os
  | badZip
  | other (name : String)
deriving Repr, DecidableEq

/-- What the functions raise: `UpdateError`, or a fault they let through. -/
inductive Raised where
  | update (message : String)
  | fault (fault : Fault)
deriving Repr, DecidableEq

/-- `except (OSError, zipfile.BadZipFile)`. -/
def Fault.isCaught : Fault → Bool
  | .os => true
  | .badZip => true
  | .other _ => false

/-! ## The archive -/

/-- A `ZipInfo`, with what each step of unpacking it raises. -/
structure Member where
  filename : String
  externalAttr : Nat
  fileSize : Nat
  mkdirFault : Option Fault
  openFault : Option Fault
  createFault : Option Fault
  copyFault : Option Fault
deriving Repr, DecidableEq

/-- `member.is_dir()`. -/
def Member.isDir (m : Member) : Bool := m.filename.toList.getLast? = some '/'

/-- `name.as_posix().rstrip("/")`. -/
def Member.normalized (m : Member) : String :=
  String.ofList ((asPosix m.filename).toList.reverse.dropWhile (· = '/')).reverse

/-- `Personal release archive path is unsafe`. -/
def isUnsafe (casefold : String → String) (seen : List String) (m : Member) : Bool :=
  isAbsolute m.filename ∨ m.normalized = "" ∨ ".." ∈ posixParts m.filename ∨
    '\\' ∈ m.filename.toList ∨ ':' ∈ m.filename.toList ∨ casefold m.normalized ∈ seen

/-- `stat.S_ISLNK(member.external_attr >> 16)`. -/
def Member.isLink (m : Member) : Bool := (m.externalAttr >>> 16) &&& 0xf000 = 0xa000

def maxArchiveBytes : Nat := 24 * 1024 ^ 3
def maxExtractedBytes : Nat := 48 * 1024 ^ 3

/-- The first loop over the members. -/
def checkMembers (casefold : String → String) :
    List Member → List String → Nat → Except Raised Unit
  | [], _, _ => .ok ()
  | m :: members, seen, total =>
    if isUnsafe casefold seen m then .error (.update "Personal release archive path is unsafe")
    else if m.isLink then .error (.update "Personal release archive contains a link")
    else if maxExtractedBytes < total + m.fileSize then
      .error (.update "Personal release expands beyond the size limit")
    else checkMembers casefold members (casefold m.normalized :: seen) (total + m.fileSize)

/-- One member of the second loop. The destination itself is there, so a file
cannot be created in its place. -/
def writeMember (root : Path) (m : Member) (disk : Disk) : Option Fault × Disk :=
  let parts := posixParts m.filename
  let target := root ++ parts
  match m.mkdirFault with
  | some fault => (some fault, disk)
  | none =>
    if m.isDir then (none, disk.makeDirs target)
    else
      let disk := disk.makeDirs target.dropLast
      match m.openFault with
      | some fault => (some fault, disk)
      | none =>
        match (if parts = [] then some .os else m.createFault) with
        | some fault => (some fault, disk)
        | none => (m.copyFault, disk.create target)

/-- The second loop. -/
def writeMembers (root : Path) : List Member → Disk → Option Fault × Disk
  | [], disk => (none, disk)
  | m :: members, disk =>
    match writeMember root m disk with
    | (some fault, disk) => (some fault, disk)
    | (none, disk) => writeMembers root members disk

/-! ## The release -/

/-- `VerifiedUpdate`, the fields that are read. -/
structure VerifiedUpdate where
  version : String
  artifactNames : List String
  manifestSha256 : String
deriving Repr, DecidableEq

/-- `TrustMetadata`, the fields that are read. -/
structure Trust where
  releaseId : String
  releaseSequence : Int
  artifactsSha256 : List (String × String)
deriving Repr, DecidableEq

/-- What `verify_trust_metadata` raises. -/
inductive TrustFault where
  | metadata (message : String)
  | fault (fault : Fault)
deriving Repr, DecidableEq

/-- What `json.loads` raises: the two errors that are caught, or another. -/
inductive JsonFault where
  | decode
  | other (name : String)
deriving Repr, DecidableEq

/-- A release as the call meets it: what each of its files is read as, and what
each call into the system or a library answers. -/
structure Release where
  verified : Except Raised VerifiedUpdate
  checksums : Except Raised Unit
  sbom : Except Raised Unit
  trust : Except TrustFault Trust
  parentFault : Option Fault
  archiveSize : Except Fault Nat
  members : Except Fault (List Member)
  mkdirFault : Option Fault
  contractSha : String → Except Fault String
  document : Except Raised (Except JsonFault Json)
  trustSha : Except Fault String
  stuck : List Path

/-- `PERSONAL_ARTIFACTS`. -/
def personalArtifacts : List String :=
  ["Local-RAG-Personal.zip", "SBOM.cdx.json", "SHA256SUMS", "release-trust-metadata.json",
    "Verify-and-Install-Local-RAG.ps1", "Install-Local-RAG.cmd"]

/-- The part above the extraction: nothing of it touches the candidate. -/
def prepare (w : Release) : Except Raised (VerifiedUpdate × Trust) := do
  let verified ← w.verified
  if ¬ ((∀ name ∈ verified.artifactNames, name ∈ personalArtifacts) ∧
      ∀ name ∈ personalArtifacts, name ∈ verified.artifactNames) then
    .error (.update "Personal update artifact set is not exact")
  else
    w.checksums
    w.sbom
    match w.trust with
    | .error (.metadata message) => .error (.update message)
    | .error (.fault fault) => .error (.fault fault)
    | .ok trust => .ok (verified, trust)

/-- `_extract_archive`. -/
def extractArchive (casefold : String → String) (w : Release) (root : Path) (disk : Disk) :
    Except Raised Unit × Disk :=
  match w.archiveSize with
  | .error fault => (.error (.fault fault), disk)
  | .ok size =>
    if maxArchiveBytes < size then
      (.error (.update "Personal release archive is too large"), disk)
    else
      let raised (fault : Fault) (disk : Disk) : Except Raised Unit × Disk :=
        if fault.isCaught then
          (.error (.update "Personal release archive could not be extracted"),
            disk.rmtree root w.stuck)
        else (.error (.fault fault), disk)
      match w.members with
      | .error fault => raised fault disk
      | .ok members =>
        if members = [] then (.error (.update "Personal release archive is empty"), disk)
        else
          match checkMembers casefold members [] 0 with
          | .error e => (.error e, disk)
          | .ok () =>
            match w.mkdirFault with
            | some fault => raised fault disk
            | none =>
              match writeMembers root members { disk with dirs := disk.dirs ++ [root] } with
              | (some fault, disk) => raised fault disk
              | (none, disk) => (.ok (), disk)

/-- The loop over `trust.artifacts_sha256`. -/
def checkContracts (w : Release) (root : Path) (disk : Disk) :
    List (String × String) → Except Raised Unit × Disk
  | [] => (.ok (), disk)
  | (name, expected) :: artifacts =>
    match w.contractSha name with
    | .error fault => (.error (.fault fault), disk)
    | .ok digest =>
      if digest ≠ expected then
        (.error (.update s!"Personal release contract hash mismatch: {name}"),
          disk.rmtree root w.stuck)
      else checkContracts w root disk artifacts

/-- `_read_json`: the members of the document. -/
def readJson (name : String) (document : Except Raised (Except JsonFault Json)) :
    Except Raised (List (String × Json)) :=
  match document with
  | .error e => .error e
  | .ok (.error .decode) => .error (.update s!"Personal release JSON is invalid: {name}")
  | .ok (.error (.other fault)) => .error (.fault (.other fault))
  | .ok (.ok (.obj members)) => .ok members
  | .ok (.ok _) => .error (.update s!"Personal release JSON is invalid: {name}")

/-- `value == text`, of a JSON value. -/
def isText (value : Option Json) (text : String) : Bool :=
  match value with
  | some (.str s) => s = text
  | _ => false

/-- `re.fullmatch(r"[0-9]{4}_[a-z0-9_]+", text)`. -/
def isRevision (text : String) : Bool :=
  let isDigit (c : Char) : Bool := '0' ≤ c ∧ c ≤ '9'
  match text.toList with
  | a :: b :: c :: d :: '_' :: e :: rest =>
    [a, b, c, d].all isDigit ∧
      (e :: rest).all fun x => isDigit x ∨ ('a' ≤ x ∧ x ≤ 'z') ∨ x = '_'
  | _ => false

/-- The revision of a packaged personal release. -/
def packagedRevision (document : List (String × Json)) : Option String :=
  if isText (Json.get document "profile_id") "personal" ∧
      isText (Json.get document "payload_state") "packaged" then
    match Json.get document "expected_alembic_revision" with
    | some (.str revision) => if isRevision revision then some revision else none
    | _ => none
  else none

/-- `VerifiedPersonalUpdate`. -/
structure VerifiedPersonalUpdate where
  version : String
  releaseId : String
  releaseSequence : Int
  expectedAlembicRevision : String
  candidateRoot : Path
  manifestSha256 : String
  trustMetadataSha256 : String
deriving Repr, DecidableEq

/-- `verify_personal_update`. -/
def verifyPersonalUpdate (casefold : String → String) (w : Release) (root : Path) (disk : Disk) :
    Except Raised VerifiedPersonalUpdate × Disk :=
  match prepare w with
  | .error e => (.error e, disk)
  | .ok (verified, trust) =>
    if disk.present root then (.error (.update "Personal update candidate already exists"), disk)
    else
      match w.parentFault with
      | some fault => (.error (.fault fault), disk)
      | none =>
        match extractArchive casefold w root (disk.makeDirs root.dropLast) with
        | (.error e, disk) => (.error e, disk)
        | (.ok (), disk) =>
          match checkContracts w root disk trust.artifactsSha256 with
          | (.error e, disk) => (.error e, disk)
          | (.ok (), disk) =>
            match readJson "personal-release.json" w.document with
            | .error e => (.error e, disk)
            | .ok document =>
              match packagedRevision document with
              | none =>
                (.error (.update "Personal packaged release contract is invalid"),
                  disk.rmtree root w.stuck)
              | some revision =>
                match w.trustSha with
                | .error fault => (.error (.fault fault), disk)
                | .ok trustSha =>
                  (.ok
                    { version := verified.version
                      releaseId := trust.releaseId
                      releaseSequence := trust.releaseSequence
                      expectedAlembicRevision := revision
                      candidateRoot := root
                      manifestSha256 := verified.manifestSha256
                      trustMetadataSha256 := trustSha }, disk)

/-! ## What goes wrong first -/

/-- How the code meets what went wrong: it removes the candidate and raises
`UpdateError`, or it leaves the candidate where it is. -/
inductive Trouble where
  | removed
  | left
deriving Repr, DecidableEq

/-- What unpacking the member raises. -/
def Member.fault (m : Member) : Option Fault :=
  if m.isDir then m.mkdirFault
  else
    m.mkdirFault <|> m.openFault <|>
      (if posixParts m.filename = [] then some .os else m.createFault) <|> m.copyFault

/-- Of the second loop: what is caught is removed. -/
def extractionTrouble (members : List Member) : Option Trouble :=
  (members.findSome? Member.fault).map fun fault => if fault.isCaught then .removed else .left

/-- Of a contract file: a wrong digest is removed, a file that cannot be read stays. -/
def contractTrouble (w : Release) (artifact : String × String) : Option Trouble :=
  match w.contractSha artifact.1 with
  | .error _ => some .left
  | .ok digest => if digest = artifact.2 then none else some .removed

/-- Of the packaged document: wrong contents are removed, no document at all stays. -/
def documentTrouble (w : Release) : Option Trouble :=
  match readJson "personal-release.json" w.document with
  | .error _ => some .left
  | .ok document => if packagedRevision document = none then some .removed else none

/-- Of the trust metadata, read once more for its digest. -/
def trustTrouble (w : Release) : Option Trouble :=
  match w.trustSha with
  | .error _ => some .left
  | .ok _ => none

/-- The first thing to go wrong once the directory is there. -/
def firstTrouble (w : Release) (trust : Trust) (members : List Member) : Option Trouble :=
  (extractionTrouble members).or <| (trust.artifactsSha256.findSome? (contractTrouble w)).or <|
    (documentTrouble w).or (trustTrouble w)

/-- Everything below the candidate can be removed. -/
def Release.Removable (w : Release) (root : Path) : Prop := ∀ s ∈ w.stuck, ¬ root <+: s

/-- The call gets as far as making the candidate directory. -/
structure Created (casefold : String → String) (w : Release) (root : Path) (disk : Disk)
    (verified : VerifiedUpdate) (trust : Trust) (members : List Member) : Prop where
  prepared : prepare w = .ok (verified, trust)
  absent : ¬ disk.present root
  parent : w.parentFault = none
  size : ∃ n ≤ maxArchiveBytes, w.archiveSize = .ok n
  opened : w.members = .ok members
  nonempty : members ≠ []
  checked : checkMembers casefold members [] 0 = .ok ()
  made : w.mkdirFault = none

/-- The three ends of a stage that starts with the candidate on the disk. -/
inductive Ends (root : Path) (stuck : List Path) : Option Trouble → Except Raised α × Disk → Prop
  | ok (a : α) {disk : Disk} (h : root ∈ disk.dirs) : Ends root stuck none (.ok a, disk)
  | removed (message : String) {disk : Disk} (h : root ∈ disk.dirs) :
      Ends root stuck (some .removed) (.error (.update message), disk.rmtree root stuck)
  | left (e : Raised) {disk : Disk} (h : root ∈ disk.dirs) :
      Ends root stuck (some .left) (.error e, disk)

/-! ## The disk under the operations -/

theorem present_rmtree {disk : Disk} {root : Path} {stuck : List Path} (h : root ∈ disk.dirs) :
    (disk.rmtree root stuck).present root ↔ ∃ s ∈ stuck, root <+: s := by
  unfold Disk.present Disk.rmtree
  simp only [List.mem_filter, decide_eq_true_eq, List.prefix_rfl, not_true_eq_false, false_or]
  constructor
  · rintro (⟨_, hs⟩ | ⟨_, hs⟩)
    · exact hs
    · exact ⟨root, hs, List.prefix_rfl⟩
  · exact fun hs => .inl ⟨h, hs⟩

theorem makeDirs_dirs {disk : Disk} {p path : Path} (h : p ∈ disk.dirs) :
    p ∈ (disk.makeDirs path).dirs := List.mem_append_left _ h

/-! ## The extraction -/

section Extraction

variable {root : Path} {disk disk' : Disk} {m : Member} {members : List Member}

theorem writeMember_fault (root : Path) (m : Member) (disk : Disk) :
    (writeMember root m disk).1 = m.fault := by
  unfold writeMember Member.fault
  cases hmkdir : m.mkdirFault with
  | some fault => simp
  | none =>
    by_cases hdir : m.isDir = true
    · simp [hdir]
    · cases hopen : m.openFault with
      | some fault => simp [hdir]
      | none =>
        by_cases hparts : posixParts m.filename = []
        · simp [hdir, hparts]
        · cases hcreate : m.createFault <;> simp [hdir, hparts]

/-- The directories that are there stay there. -/
theorem writeMember_dirs (root : Path) (m : Member) {p : Path} (h : p ∈ disk.dirs) :
    p ∈ (writeMember root m disk).2.dirs := by
  unfold writeMember
  simp only
  split
  · exact h
  split
  · exact makeDirs_dirs h
  split
  · exact makeDirs_dirs h
  split
  · exact makeDirs_dirs h
  · exact makeDirs_dirs h

/-- A file that a member is unpacked to. -/
def Unpacked (root : Path) (m : Member) (p : Path) : Prop :=
  posixParts m.filename ≠ [] ∧ p = root ++ posixParts m.filename

/-- A member adds its own file at most. -/
theorem writeMember_files {p : Path} (h : p ∈ (writeMember root m disk).2.files) :
    p ∈ disk.files ∨ Unpacked root m p := by
  unfold writeMember at h
  simp only at h
  split at h
  · exact .inl h
  split at h
  · exact .inl h
  split at h
  · exact .inl h
  split at h
  · exact .inl h
  next hcreate =>
    have hparts : posixParts m.filename ≠ [] := by
      intro hnil
      rw [if_pos hnil] at hcreate
      cases hcreate
    rcases List.mem_append.1 h with h | h
    · exact .inl h
    · exact .inr ⟨hparts, List.mem_singleton.1 h⟩

theorem writeMembers_fault (root : Path) (members : List Member) (disk : Disk) :
    (writeMembers root members disk).1 = members.findSome? Member.fault := by
  induction members generalizing disk with
  | nil => rfl
  | cons m members ih =>
    have hfault := writeMember_fault root m disk
    unfold writeMembers
    rw [List.findSome?_cons]
    split
    next fault disk' hwrite =>
      rw [hwrite] at hfault
      rw [← hfault]
    next disk' hwrite =>
      rw [hwrite] at hfault
      rw [← hfault]
      exact ih disk'

theorem writeMembers_dirs {p : Path} (h : p ∈ disk.dirs) :
    p ∈ (writeMembers root members disk).2.dirs := by
  induction members generalizing disk with
  | nil => exact h
  | cons m members ih =>
    have hdirs := writeMember_dirs root m h
    unfold writeMembers
    split
    next fault disk' hwrite =>
      rw [hwrite] at hdirs
      exact hdirs
    next disk' hwrite =>
      rw [hwrite] at hdirs
      exact ih hdirs

theorem writeMembers_files {p : Path} (h : p ∈ (writeMembers root members disk).2.files) :
    p ∈ disk.files ∨ ∃ m ∈ members, Unpacked root m p := by
  induction members generalizing disk with
  | nil => exact .inl h
  | cons m members ih =>
    have hfiles := @writeMember_files root disk m p
    unfold writeMembers at h
    split at h
    next fault disk' hwrite =>
      rw [hwrite] at hfiles
      exact (hfiles h).imp_right fun hp => ⟨m, List.mem_cons_self, hp⟩
    next disk' hwrite =>
      rw [hwrite] at hfiles
      rcases ih h with h | ⟨m', hm', hp⟩
      · exact (hfiles h).imp_right fun hp => ⟨m, List.mem_cons_self, hp⟩
      · exact .inr ⟨m', List.mem_cons_of_mem m hm', hp⟩

/-- What the first loop let through: paths of their own, without the components and
characters that leave the directory. -/
theorem checkMembers_spec {casefold : String → String} {seen : List String} {total : Nat}
    (h : checkMembers casefold members seen total = .ok ()) :
    (∀ m ∈ members, ".." ∉ posixParts m.filename ∧ '\\' ∉ m.filename.toList ∧
        ':' ∉ m.filename.toList) ∧
      (members.map fun m => casefold m.normalized).Nodup ∧
      ∀ m ∈ members, casefold m.normalized ∉ seen := by
  induction members generalizing seen total with
  | nil => simp
  | cons m members ih =>
    unfold checkMembers at h
    split at h
    · cases h
    next hsafe =>
    split at h
    · cases h
    split at h
    · cases h
    obtain ⟨hpaths, hnodup, hseen⟩ := ih h
    obtain ⟨_, _, hup, hback, hcolon, hnew⟩ : ¬ isAbsolute m.filename = true ∧
        ¬ m.normalized = "" ∧ ".." ∉ posixParts m.filename ∧ '\\' ∉ m.filename.toList ∧
        ':' ∉ m.filename.toList ∧ casefold m.normalized ∉ seen := by
      simpa [isUnsafe, not_or] using hsafe
    refine ⟨List.forall_mem_cons.2 ⟨⟨hup, hback, hcolon⟩, hpaths⟩, ?_, ?_⟩
    · rw [List.map_cons, List.nodup_cons]
      refine ⟨?_, hnodup⟩
      intro hmem
      obtain ⟨m', hm', heq⟩ := List.mem_map.1 hmem
      apply hseen m' hm'
      rw [heq]
      exact List.mem_cons_self
    · exact List.forall_mem_cons.2
        ⟨hnew, fun m' hm' hin => hseen m' hm' (List.mem_cons_of_mem _ hin)⟩

end Extraction

/-! ## The stages -/

section Stages

variable {casefold : String → String} {w : Release} {root : Path} {disk : Disk}
  {verified : VerifiedUpdate} {trust : Trust} {members : List Member}

/-- The extraction of a call that gets to make the directory. -/
theorem extractArchive_created (h : Created casefold w root disk verified trust members)
    (disk : Disk) :
    extractArchive casefold w root disk =
      match writeMembers root members { disk with dirs := disk.dirs ++ [root] } with
      | (some fault, disk) =>
        if fault.isCaught then
          (.error (.update "Personal release archive could not be extracted"),
            disk.rmtree root w.stuck)
        else (.error (.fault fault), disk)
      | (none, disk) => (.ok (), disk) := by
  obtain ⟨size, hsize, harchive⟩ := h.size
  unfold extractArchive
  rw [harchive]
  simp only
  rw [if_neg (by omega), h.opened]
  simp only
  rw [if_neg h.nonempty, h.checked, h.made]

theorem extractArchive_ends (h : Created casefold w root disk verified trust members)
    (disk : Disk) :
    Ends root w.stuck (extractionTrouble members) (extractArchive casefold w root disk) := by
  have hfault := writeMembers_fault root members { disk with dirs := disk.dirs ++ [root] }
  have hdirs : root ∈ (writeMembers root members { disk with dirs := disk.dirs ++ [root] }).2.dirs :=
    writeMembers_dirs (by simp)
  rw [extractArchive_created h]
  unfold extractionTrouble
  rw [← hfault]
  split
  next fault disk' hwrite =>
    rw [hwrite] at hdirs ⊢
    simp only [Option.map_some]
    split
    · exact .removed _ hdirs
    · exact .left _ hdirs
  next disk' hwrite =>
    rw [hwrite] at hdirs ⊢
    exact .ok () hdirs

theorem checkContracts_ends (h : root ∈ disk.dirs) (artifacts : List (String × String)) :
    Ends root w.stuck (artifacts.findSome? (contractTrouble w))
      (checkContracts w root disk artifacts) := by
  induction artifacts with
  | nil => exact .ok () h
  | cons artifact artifacts ih =>
    obtain ⟨name, expected⟩ := artifact
    unfold checkContracts
    rw [List.findSome?_cons]
    unfold contractTrouble
    cases hsha : w.contractSha name with
    | error fault => exact .left _ h
    | ok digest =>
      simp only
      by_cases hd : digest = expected
      · rw [if_neg (not_not_intro hd), if_pos hd]
        exact ih
      · rw [if_pos hd, if_neg hd]
        exact .removed _ h

/-- Contract files that pass leave the disk alone and have the signed digests. -/
theorem checkContracts_ok {disk' : Disk} {artifacts : List (String × String)}
    (h : checkContracts w root disk artifacts = (.ok (), disk')) :
    disk' = disk ∧ ∀ artifact ∈ artifacts, w.contractSha artifact.1 = .ok artifact.2 := by
  induction artifacts with
  | nil =>
    cases h
    exact ⟨rfl, by simp⟩
  | cons artifact artifacts ih =>
    obtain ⟨name, expected⟩ := artifact
    unfold checkContracts at h
    split at h
    · cases h
    next digest hsha =>
    split at h
    · cases h
    next hdigest =>
    obtain ⟨hdisk, hrest⟩ := ih h
    have hd : digest = expected := Decidable.not_not.1 hdigest
    exact ⟨hdisk, List.forall_mem_cons.2 ⟨hd ▸ hsha, hrest⟩⟩

/-- The whole call ends the way the first trouble does. -/
theorem verify_ends (h : Created casefold w root disk verified trust members) :
    Ends root w.stuck (firstTrouble w trust members)
      (verifyPersonalUpdate casefold w root disk) := by
  have hextract := extractArchive_ends h (disk.makeDirs root.dropLast)
  unfold verifyPersonalUpdate firstTrouble
  rw [h.prepared]
  simp only
  rw [if_neg h.absent, h.parent]
  simp only
  generalize extractionTrouble members = trouble at hextract ⊢
  generalize extractArchive casefold w root (disk.makeDirs root.dropLast) = extracted
    at hextract ⊢
  cases hextract with
  | removed message hroot => exact .removed message hroot
  | left e hroot => exact .left e hroot
  | ok a hroot =>
    have hcontracts := @checkContracts_ends w root _ hroot trust.artifactsSha256
    simp only [Option.none_or]
    generalize trust.artifactsSha256.findSome? (contractTrouble w) = trouble at hcontracts ⊢
    generalize checkContracts w root _ trust.artifactsSha256 = contracts at hcontracts ⊢
    cases hcontracts with
    | removed message hroot => exact .removed message hroot
    | left e hroot => exact .left e hroot
    | ok a hroot =>
      simp only [Option.none_or]
      unfold documentTrouble trustTrouble
      cases hdocument : readJson "personal-release.json" w.document with
      | error e => exact .left e hroot
      | ok document =>
        cases hrevision : packagedRevision document with
        | none =>
          simp only [hrevision, if_pos]
          exact .removed _ hroot
        | some revision =>
          simp only [hrevision, reduceCtorEq, if_false, Option.none_or]
          cases w.trustSha with
          | error fault => exact .left _ hroot
          | ok trustSha => exact .ok _ hroot

end Stages

/-! ## The result -/

/-- A component that stays where it is put. -/
def Plain (part : String) : Prop :=
  part ≠ "" ∧ part ≠ "." ∧ part ≠ ".." ∧ ∀ c ∈ part.toList, c ≠ '/' ∧ c ≠ '\\' ∧ c ≠ ':'

/-- What a successful call has on the disk. -/
structure Sound (casefold : String → String) (w : Release) (root : Path) (trust : Trust)
    (members : List Member) (disk disk' : Disk) : Prop where
  /-- Every new file is strictly below the candidate. -/
  inside : ∀ p ∈ disk'.files, p ∈ disk.files ∨
    ∃ parts : Path, parts ≠ [] ∧ p = root ++ parts ∧ ∀ part ∈ parts, Plain part
  /-- No two members share a path up to case. -/
  distinct : (members.map fun m => casefold m.normalized).Nodup
  hashes : ∀ artifact ∈ trust.artifactsSha256, w.contractSha artifact.1 = .ok artifact.2

/-- No trace of a failed call: an `UpdateError`, and no candidate. -/
def Traceless (root : Path) (out : Except Raised α × Disk) : Prop :=
  ∀ e disk', out = (.error e, disk') → (∃ message, e = .update message) ∧ ¬ disk'.present root

section Result

variable {casefold : String → String} {w : Release} {root : Path} {disk : Disk}
  {verified : VerifiedUpdate} {trust : Trust} {members : List Member}

/-- The three ends, and what they leave. -/
theorem traceless_iff_of_ends {trouble : Option Trouble} {out : Except Raised α × Disk}
    (h : Ends root w.stuck trouble out) :
    Traceless root out ↔ ∀ t, trouble = some t → t = .removed ∧ w.Removable root := by
  cases h with
  | ok a hroot =>
    constructor
    · intro _ t ht
      cases ht
    · intro _ e disk' hout
      cases hout
  | removed message hroot =>
    have hpresent := @present_rmtree _ _ w.stuck hroot
    constructor
    · intro htraceless t ht
      cases ht
      have habsent := (htraceless _ _ rfl).2
      rw [hpresent] at habsent
      exact ⟨rfl, fun s hs hbelow => habsent ⟨s, hs, hbelow⟩⟩
    · intro hremovable e disk' hout
      cases hout
      refine ⟨⟨message, rfl⟩, ?_⟩
      rw [hpresent]
      rintro ⟨s, hs, hbelow⟩
      exact (hremovable _ rfl).2 s hs hbelow
  | left e hroot =>
    constructor
    · intro htraceless
      -- the candidate is still there
      exact absurd (.inl hroot) (htraceless _ _ rfl).2
    · intro hremovable
      exact absurd (hremovable _ rfl).1 (by simp)

/-- A member that passed the first loop is unpacked to plain components. -/
theorem plain_of_checked (h : checkMembers casefold members [] 0 = .ok ()) {m : Member}
    (hm : m ∈ members) : ∀ part ∈ posixParts m.filename, Plain part := by
  obtain ⟨hup, hback, hcolon⟩ := (checkMembers_spec h).1 m hm
  intro part hpart
  obtain ⟨hempty, hdot, hchars⟩ := mem_posixParts hpart
  refine ⟨hempty, hdot, fun he => hup (he ▸ hpart), fun c hc => ?_⟩
  obtain ⟨hslash, hin⟩ := hchars c hc
  exact ⟨hslash, fun he => hback (he ▸ hin), fun he => hcolon (he ▸ hin)⟩

/-- The stages of a successful call. -/
theorem verify_sound (h : Created casefold w root disk verified trust members)
    {result : VerifiedPersonalUpdate} {disk' : Disk}
    (hok : verifyPersonalUpdate casefold w root disk = (.ok result, disk')) :
    Sound casefold w root trust members disk disk' := by
  unfold verifyPersonalUpdate at hok
  rw [h.prepared] at hok
  simp only at hok
  rw [if_neg h.absent, h.parent] at hok
  simp only at hok
  split at hok
  · cases hok
  next extracted hextract =>
  split at hok
  · cases hok
  next checked hcontracts =>
  split at hok
  · cases hok
  split at hok
  · cases hok
  split at hok
  · cases hok
  cases hok
  obtain ⟨rfl, hhashes⟩ := checkContracts_ok hcontracts
  rw [extractArchive_created h] at hextract
  split at hextract
  · split at hextract
    · cases hextract
    · cases hextract
  next disk' hwrite =>
  cases hextract
  refine ⟨fun p hp => ?_, (checkMembers_spec h.checked).2.1, hhashes⟩
  have hfiles := @writeMembers_files root
    { disk.makeDirs root.dropLast with dirs := (disk.makeDirs root.dropLast).dirs ++ [root] }
    members p
  rw [hwrite] at hfiles
  refine (hfiles hp).imp_right ?_
  rintro ⟨m, hm, hparts, rfl⟩
  exact ⟨_, hparts, rfl, plain_of_checked h.checked hm⟩

end Result

/-- A call that gets to make the candidate directory: if it fails it leaves no trace
exactly when the first thing to go wrong is one the code removes the directory for
(an error of the system or of a damaged archive during the extraction, a wrong digest
of a contract file, a document that is no packaged release) and everything below the
directory can be removed; if it succeeds, what it unpacked is sound. -/
theorem failed_update_traceless_iff {casefold : String → String} {w : Release} {root : Path}
    {disk : Disk} {verified : VerifiedUpdate} {trust : Trust} {members : List Member}
    (h : Created casefold w root disk verified trust members) :
    (Traceless root (verifyPersonalUpdate casefold w root disk) ↔
      ∀ t, firstTrouble w trust members = some t → t = .removed ∧ w.Removable root) ∧
    ∀ {result : VerifiedPersonalUpdate} {disk' : Disk},
      verifyPersonalUpdate casefold w root disk = (.ok result, disk') →
      Sound casefold w root trust members disk disk' :=
  ⟨traceless_iff_of_ends (verify_ends h), verify_sound h⟩

/-! ## A release -/

/-- A file of the archive that unpacks. -/
def sampleMember (filename : String) : Member := ⟨filename, 0, 10, none, none, none, none⟩

def sampleVerified : VerifiedUpdate := ⟨"1.2.0", personalArtifacts, "manifest"⟩

def sampleTrust : Trust := ⟨"release-12", 12, [("host-contract.json", "digest")]⟩

def sampleMembers : List Member :=
  [sampleMember "ops/windows/v8a/personal-release.json",
    sampleMember "ops/windows/v8a/host-contract.json"]

/-- A release of two files, of which the contract file is read as given. -/
def sampleRelease (contract : Except Fault String) : Release where
  verified := .ok sampleVerified
  checksums := .ok ()
  sbom := .ok ()
  trust := .ok sampleTrust
  parentFault := none
  archiveSize := .ok 400
  members := .ok sampleMembers
  mkdirFault := none
  contractSha := fun _ => contract
  document := .ok (.ok (.obj [("profile_id", .str "personal"), ("payload_state", .str "packaged"),
    ("expected_alembic_revision", .str "0012_v12")]))
  trustSha := .ok "trust"
  stuck := []

def sampleRoot : Path := ["data", "candidate"]

/-- The root directory, and nothing in it. -/
def emptyDisk : Disk := ⟨[[], ["data"]], []⟩

theorem sampleRelease_created (contract : Except Fault String) :
    Created id (sampleRelease contract) sampleRoot emptyDisk sampleVerified sampleTrust
      sampleMembers where
  prepared := by rfl
  absent := by decide
  parent := rfl
  size := ⟨400, by decide, rfl⟩
  opened := rfl
  nonempty := by decide
  checked := by decide +kernel
  made := rfl

/-- A contract file of another digest: the candidate is gone afterwards. -/
theorem failed_update_traceless_iff_mismatch :
    Traceless sampleRoot
      (verifyPersonalUpdate id (sampleRelease (.ok "another")) sampleRoot emptyDisk) := by
  refine (failed_update_traceless_iff (sampleRelease_created (.ok "another"))).1.mpr ?_
  intro t ht
  have hfirst : firstTrouble (sampleRelease (.ok "another")) sampleTrust sampleMembers =
      some .removed := by rfl
  rw [hfirst] at ht
  cases ht
  exact ⟨rfl, fun s hs => absurd hs (by simp [sampleRelease])⟩

/-- A contract file that cannot be read: the error of the system comes through, and
the candidate stays. -/
theorem unreadable_contract_left :
    (verifyPersonalUpdate id (sampleRelease (.error .os)) sampleRoot emptyDisk).1 =
        .error (.fault .os) ∧
      (verifyPersonalUpdate id (sampleRelease (.error .os)) sampleRoot emptyDisk).2.present
        sampleRoot := by
  decide +kernel

end LocalRag.Supervisor
