import LocalRag.Runtime.Protocol

/-!
# The storage archive — written by `export`, read by `import_archive`

Mirrors `StorageTransferService` (`app/services/storage_transfer.py`) with what it uses of
`object_lifecycle.py` and `object_storage.py`. An export verifies every object of the
bucket, copies it and the database dump, and writes a manifest; an import reads the
manifest as a stranger's, field by field, and puts the objects into an empty bucket.

Mirroring notes.
* `Library` is what the code takes from its libraries and is no text of its own: SHA-256,
  `datetime.fromisoformat`, and whether a JSON number with a fraction equals 1.
* A manifest is the JSON value that is read back. `json.dump` and `json.loads` are taken to
  be inverse, and the order of the members of a `dict` is seen by nobody.
* The store is the bucket: `put` replaces, `head`, `download` and `list_prefix` say what is there.
  A path below the archive is what is found at it. The directory checks at either start
  are left out; so is `_safe_object_path`, which no canonical key fails.
* `document_id` is a `uuid` column, so its text is canonical.
-/

namespace LocalRag.Transfer

open LocalRag.Core
open LocalRag.Runtime (UuidHex utf8)

abbrev Bytes := List UInt8

inductive TransferError where
  /-- `StorageTransferError`. -/
  | transfer (message : String)
  /-- `ObjectIntegrityError`. -/
  | integrity (message : String)
  /-- `ObjectStoreError`. -/
  | store (code message : String)
  /-- `ValueError`. -/
  | value (message : String)
deriving Repr, DecidableEq

/-! ## Texts -/

def isLowerHex (c : Char) : Bool := ('0' ≤ c ∧ c ≤ '9') ∨ ('a' ≤ c ∧ c ≤ 'f')

/-- 64 lower-case hexadecimal digits. -/
def isHexDigest (text : String) : Bool := text.length = 64 ∧ text.toList.all isLowerHex

structure Library where
  /-- `hashlib.sha256(…).hexdigest()`. -/
  sha256 : Bytes → String
  sha256_hex : ∀ b, isHexDigest (sha256 b) = true
  fromisoformat : String → Bool
  fromisoformat_empty : fromisoformat "" = false
  floatIsOne : List Char → Bool

/-- A digit of `int(text, 16)`. -/
def isBase16Digit (c : Char) : Bool :=
  isDecimal c ∨ ('a' ≤ c ∧ c ≤ 'f') ∨ ('A' ≤ c ∧ c ≤ 'F')

/-- Digits, with single underscores between them. -/
def digitGroups : List Char → Bool
  | [] => false
  | [c] => isBase16Digit c
  | c :: d :: rest =>
    isBase16Digit c && if d = '_' then digitGroups rest else digitGroups (d :: rest)

/-- Without a sign. -/
def dropSign : List Char → List Char
  | c :: rest => if c = '+' ∨ c = '-' then rest else c :: rest
  | [] => []

/-- Without `0x`, and one underscore behind it. -/
def dropRadix : List Char → List Char
  | c :: d :: rest =>
    if c.toNat ∈ decimalZeros ∧ (d = 'x' ∨ d = 'X') then
      if rest.head? = some '_' then rest.tail else rest
    else c :: d :: rest
  | text => text

/-- White space to `int`: the four separators are none. -/
def isIntSpace (c : Char) : Bool := isSpace c ∧ ¬(0x1c ≤ c.toNat ∧ c.toNat ≤ 0x1f)

/-- `int(text, 16)` returns. -/
def parsesBase16 (text : List Char) : Bool :=
  digitGroups (dropRadix (dropSign (trim isIntSpace text)))

/-- `str.lower`, as far as a hexadecimal text sees it. -/
def lower (text : String) : String := String.ofList (text.toList.map Char.toLower)

def canonicalObjectKey (sha256 : String) : Except TransferError String :=
  let checksum := lower sha256
  if checksum.length ≠ 64 then
    .error (.value "SHA-256 must contain exactly 64 hexadecimal characters")
  else if ¬ parsesBase16 checksum.toList then
    .error (.value "SHA-256 must contain only hexadecimal characters")
  else
    .ok ("originals/" ++ String.ofList (checksum.toList.take 2) ++ "/" ++ checksum ++ ".pdf")

/-- `value.split("/")`. -/
def splitSlash : List Char → List (List Char)
  | [] => [[]]
  | c :: rest => if c = '/' then [] :: splitSlash rest else consLine c (splitSlash rest)

/-- `_is_canonical_object_key`. -/
def isCanonicalObjectKey (value : String) : Bool :=
  match splitSlash value.toList with
  | [first, second, third] =>
    if first ≠ "originals".toList ∨ ¬ ".pdf".toList <:+ third then false
    else
      let checksum := third.take (third.length - 4)
      if second ≠ checksum.take 2 then false
      else
        match canonicalObjectKey (String.ofList checksum) with
        | .ok key => key = value
        | .error _ => false
  | _ => false

/-- `text.replace(needle, "")`; `skip` counts the characters of a match still ahead. -/
def removeText (needle : List Char) : Nat → List Char → List Char
  | _, [] => []
  | skip + 1, _ :: rest => removeText needle skip rest
  | 0, c :: rest =>
    if needle <+: c :: rest then removeText needle (needle.length - 1) rest
    else c :: removeText needle 0 rest

/-- `uuid.UUID(text)` returns. -/
def uuidParses (text : String) : Bool :=
  let bare := removeText "uuid:".toList 0 (removeText "urn:".toList 0 text.toList)
  let hex := (trim (fun c => c = '\x7b' ∨ c = '\x7d') bare).filter (· ≠ '-')
  hex.length = 32 ∧ parsesBase16 hex

/-- `str` of a `uuid`. -/
def uuidText (id : UuidHex) : String :=
  String.ofList (id.digits.take 8 ++ '-' :: (id.digits.drop 8).take 4 ++ '-' ::
    (id.digits.drop 12).take 4 ++ '-' :: (id.digits.drop 16).take 4 ++ '-' :: id.digits.drop 20)

/-! ## The object store -/

/-- An object with the metadata it was put with. -/
structure StoredObject where
  key : String
  content : Bytes
  sha256 : Option String
  declaredSize : Option Int
deriving Repr, DecidableEq

/-- A bucket: a key names one object. -/
structure Bucket where
  objects : List StoredObject
  keyed : (objects.map (·.key)).Nodup

def Bucket.empty : Bucket := ⟨[], List.nodup_nil⟩

structure ObjectMetadata where
  key : String
  size : Int
  sha256 : Option String
  declaredSize : Option Int

def head (objects : List StoredObject) (key : String) : Except TransferError ObjectMetadata :=
  match objects.find? fun o => o.key = key with
  | none => .error (.store "404" "object storage head object failed (404)")
  | some o => .ok ⟨key, o.content.length, o.sha256, o.declaredSize⟩

def download (objects : List StoredObject) (key : String) : Except TransferError Bytes :=
  match objects.find? fun o => o.key = key with
  | none => .error (.store "NoSuchKey" "object storage get object failed (NoSuchKey)")
  | some o => .ok o.content

/-- `put`, from a file with this content. -/
def put (objects : List StoredObject) (key : String) (content : Bytes) (sha256 : String)
    (byteSize : Int) : Except TransferError (List StoredObject) :=
  if (content.length : Int) ≠ byteSize then
    .error (.store "source_size_mismatch"
      "object upload source size does not match the declared byte size")
  else
    .ok (objects.filter (fun o => o.key ≠ key) ++ [⟨key, content, some sha256, some byteSize⟩])

def validateRemoteMetadata (metadata : ObjectMetadata) (key sha256 : String) (byteSize : Int) :
    Except TransferError Unit := do
  let canonical ← canonicalObjectKey sha256
  if key ≠ canonical ∨ metadata.key ≠ key then
    .error (.integrity "object key does not match the document checksum")
  else if byteSize ≤ 0 then .error (.integrity "document byte size must be positive")
  else if metadata.size ≠ byteSize ∨ metadata.declaredSize ≠ some byteSize then
    .error (.integrity "object size metadata does not match the document")
  else if metadata.sha256 ≠ some (lower sha256) then
    .error (.integrity "object SHA-256 metadata does not match the document")
  else .ok ()

/-- `head`, where an object that is not there is a broken document. -/
def headDocument (objects : List StoredObject) (key : String) : Except TransferError ObjectMetadata :=
  match head objects key with
  | .error (.store code message) =>
    if code = "404" then .error (.integrity "document object is missing")
    else .error (.store code message)
  | result => result

/-- `ObjectMaterializer.materialize`, entered and left. -/
def materialize (lib : Library) (objects : List StoredObject) (key sha256 : String)
    (byteSize : Int) : Except TransferError Unit := do
  let metadata ← headDocument objects key
  validateRemoteMetadata metadata key sha256 byteSize
  let content ← download objects key
  if (content.length : Int) ≠ byteSize then
    .error (.integrity "downloaded object size does not match the document")
  else if lib.sha256 content ≠ lower sha256 then
    .error (.integrity "downloaded object bytes do not match the document checksum")
  else .ok ()

/-! ## The manifest -/

structure TransferObject where
  key : String
  byteSize : Int
  sha256 : String
deriving Repr, DecidableEq

structure DatabaseDocument where
  documentId : String
  objectKey : String
  sha256 : String
  byteSize : Int
deriving Repr, DecidableEq

structure Inventory where
  documents : List DatabaseDocument
  objectDeletions : List String
deriving Repr, DecidableEq

structure DatabaseDump where
  filename : String
  byteSize : Int
  sha256 : String
deriving Repr, DecidableEq

structure Manifest where
  capturedAt : String
  databaseIdentity : String
  alembicRevision : String
  inventory : Inventory
  fingerprint : String
  endpoint : String
  bucket : String
  rustfsImage : String
  dump : DatabaseDump
  objects : List TransferObject
deriving Repr, DecidableEq

def TransferObject.json (o : TransferObject) : Json :=
  .obj [("key", .str o.key), ("byte_size", .int o.byteSize), ("sha256", .str o.sha256)]

def DatabaseDocument.json (d : DatabaseDocument) : Json :=
  .obj [("document_id", .str d.documentId), ("object_key", .str d.objectKey),
    ("sha256", .str d.sha256), ("byte_size", .int d.byteSize)]

def Inventory.json (inventory : Inventory) : Json :=
  .obj [("documents", .arr (inventory.documents.map DatabaseDocument.json)),
    ("object_deletions", .arr (inventory.objectDeletions.map .str))]

def DatabaseDump.json (d : DatabaseDump) : Json :=
  .obj [("filename", .str d.filename), ("byte_size", .int d.byteSize), ("sha256", .str d.sha256)]

/-- The `manifest` of `export`. -/
def Manifest.members (m : Manifest) : List (String × Json) :=
  [("version", .int 1), ("captured_at", .str m.capturedAt),
    ("database_identity", .str m.databaseIdentity), ("alembic_revision", .str m.alembicRevision),
    ("database_inventory", m.inventory.json), ("database_fingerprint", .str m.fingerprint),
    ("endpoint", .str m.endpoint), ("bucket", .str m.bucket),
    ("rustfs_image", .str m.rustfsImage), ("database_dump", m.dump.json),
    ("objects", .arr (m.objects.map TransferObject.json))]

/-- One document in `json.dumps(inventory, sort_keys=True, separators=(",", ":"))`. -/
def DatabaseDocument.text (d : DatabaseDocument) : List Char :=
  "\x7b\"byte_size\":".toList ++ dumpsInt d.byteSize ++
    ",\"document_id\":".toList ++ dumpsString true d.documentId ++
    ",\"object_key\":".toList ++ dumpsString true d.objectKey ++
    ",\"sha256\":".toList ++ dumpsString true d.sha256 ++ "\x7d".toList

def Inventory.text (inventory : Inventory) : List Char :=
  "\x7b\"documents\":[".toList ++
    [','].intercalate (inventory.documents.map DatabaseDocument.text) ++
    "],\"object_deletions\":[".toList ++
    [','].intercalate (inventory.objectDeletions.map (dumpsString true)) ++ "]\x7d".toList

def fingerprintOf (lib : Library) (inventory : Inventory) : String :=
  lib.sha256 (utf8 inventory.text)

/-! ## The database -/

/-- A row of `documents`. -/
structure DocumentRow where
  id : UuidHex
  objectKey : String
  sha256 : String
  byteSize : Int

/-- What `v4_maintenance_storage_snapshot` returns; the schema's unique constraints hold of it. -/
structure SnapshotRow where
  databaseIdentity : String
  schemaRevision : String
  documents : List DocumentRow
  objectDeletions : List String
  databaseFingerprint : String
  ids_distinct : (documents.map fun d => uuidText d.id).Nodup
  keys_distinct : (documents.map (·.objectKey)).Nodup
  deletions_distinct : objectDeletions.Nodup

structure DatabaseSnapshot where
  identity : String
  revision : String
  inventory : Inventory
  fingerprint : String

/-- The body of the loop over the documents of the snapshot. -/
def snapshotDocument (d : DocumentRow) : Except TransferError DatabaseDocument :=
  match canonicalObjectKey d.sha256 with
  | .error _ => .error (.transfer "maintenance storage snapshot returned invalid document")
  | .ok expectedKey =>
    if d.objectKey ≠ expectedKey ∨ d.byteSize ≤ 0 then
      .error (.transfer ("document " ++ uuidText d.id ++ " has invalid object metadata"))
    else .ok ⟨uuidText d.id, d.objectKey, d.sha256, d.byteSize⟩

/-- `_database_snapshot`. -/
def databaseSnapshot (lib : Library) (row : SnapshotRow) :
    Except TransferError DatabaseSnapshot := do
  let documents ← row.documents.mapM snapshotDocument
  if ¬ row.objectDeletions.all isCanonicalObjectKey then
    .error (.transfer "database outbox contains invalid object metadata")
  else if ¬ isHexDigest row.databaseFingerprint then
    .error (.transfer "maintenance storage snapshot returned invalid fingerprint")
  else
    let inventory : Inventory := ⟨documents, row.objectDeletions⟩
    .ok ⟨row.databaseIdentity, row.schemaRevision, inventory, fingerprintOf lib inventory⟩

/-- `_validate_database_objects`. -/
def validateDatabaseObjects (inventory : Inventory) (objects : List TransferObject) :
    Except TransferError Unit :=
  if inventory.documents.all fun d =>
      (objects.reverse.find? fun entry => entry.key = d.objectKey).any fun entry =>
        entry.sha256 = d.sha256 ∧ entry.byteSize = d.byteSize then .ok ()
  else .error (.transfer "database-referenced object is missing or mismatched")

/-! ## The archive -/

/-- What is found at a path. -/
inductive PathEntry where
  | missing
  | symlink
  | file (content : Bytes)
deriving Repr, DecidableEq

inductive ManifestFile where
  | missing
  | invalid
  | value (json : Json)

/-- A directory: `manifest.json`, `database.dump` and the files below `objects`. -/
structure Archive where
  manifest : ManifestFile
  dump : PathEntry
  object : String → PathEntry

/-- `_hash_regular_file`. -/
def hashRegularFile (lib : Library) (path : String) :
    PathEntry → Except TransferError (String × Int)
  | .file content => .ok (lib.sha256 content, content.length)
  | .missing | .symlink => .error (.transfer ("expected a regular file: " ++ path))

/-! ## `export` -/

/-- The settings the manifest names. Their validators refuse an empty endpoint or bucket, and
look at no image reference. -/
structure Settings where
  endpoint : String
  bucket : String
  rustfsImage : String
  endpoint_ne : endpoint ≠ ""
  bucket_ne : bucket ≠ ""

/-- `datetime.now(UTC).isoformat()`. -/
structure Timestamp (lib : Library) where
  text : String
  parses : lib.fromisoformat text = true

/-- The body of the loop over the bucket: the entry, and the file that was downloaded. -/
def exportObject (lib : Library) (objects : List StoredObject) (item : StoredObject) :
    Except TransferError (TransferObject × Bytes) := do
  let metadata ← head objects item.key
  match metadata.sha256 with
  | none => .error (.transfer ("object " ++ item.key ++ " has no SHA-256 metadata"))
  | some sha256 =>
    let key ← canonicalObjectKey sha256
    if key ≠ item.key then .error (.transfer ("unsafe object key: " ++ item.key))
    else
      validateRemoteMetadata metadata key sha256 item.content.length
      let downloaded ← download objects key
      if downloaded.length ≠ item.content.length ∨ lib.sha256 downloaded ≠ sha256 then
        .error (.transfer ("export verification failed: " ++ key))
      else .ok (⟨key, downloaded.length, lib.sha256 downloaded⟩, downloaded)

/-- `sorted(objects, key=lambda x: x.key)`. -/
def sortedByKey (objects : List TransferObject) : List TransferObject :=
  objects.mergeSort fun a b => a.key ≤ b.key

/-- The files the loop left below `objects`. -/
def exportedFile (exported : List (TransferObject × Bytes)) (key : String) : PathEntry :=
  match exported.find? fun e => e.1.key = key with
  | some e => .file e.2
  | none => .missing

def exportArchive (lib : Library) (settings : Settings) (now : Timestamp lib) (bucket : Bucket)
    (row : SnapshotRow) (databaseDump : PathEntry) : Except TransferError Archive := do
  let (dumpChecksum, dumpSize) ← hashRegularFile lib "database_dump" databaseDump
  let exported ← bucket.objects.mapM (exportObject lib bucket.objects)
  let objects := exported.map (·.1)
  let snapshot ← databaseSnapshot lib row
  validateDatabaseObjects snapshot.inventory objects
  let manifest : Manifest := {
    capturedAt := now.text
    databaseIdentity := snapshot.identity
    alembicRevision := snapshot.revision
    inventory := snapshot.inventory
    fingerprint := snapshot.fingerprint
    endpoint := settings.endpoint
    bucket := settings.bucket
    rustfsImage := settings.rustfsImage
    dump := ⟨"database.dump", dumpSize, dumpChecksum⟩
    objects := sortedByKey objects }
  return {
    manifest := .value (.obj manifest.members)
    dump := databaseDump
    object := exportedFile exported }

/-! ## `import_archive` -/

/-- `set(value) == fields`. -/
def fieldsAre (members : List (String × Json)) (fields : List String) : Bool :=
  members.all (fun member => member.1 ∈ fields) ∧
    fields.all fun field => members.any fun member => member.1 = field

def manifestFields : List String :=
  ["version", "captured_at", "database_identity", "alembic_revision", "database_inventory",
    "database_fingerprint", "endpoint", "bucket", "rustfs_image", "database_dump", "objects"]

def objectFields : List String := ["key", "byte_size", "sha256"]

def databaseDumpFields : List String := ["filename", "byte_size", "sha256"]

def databaseInventoryFields : List String := ["documents", "object_deletions"]

def databaseDocumentFields : List String := ["document_id", "object_key", "sha256", "byte_size"]

/-- `value == 1`. -/
def equalsOne (lib : Library) : Option Json → Bool
  | some (.int n) => n = 1
  | some (.bool b) => b
  | some (.float literal) => lib.floatIsOne literal
  | _ => false

/-- A field that must be a text, and not an empty one. -/
def textField (members : List (String × Json)) (field : String) : Except TransferError String :=
  match Json.get members field with
  | some (.str text) =>
    if text = "" then .error (.transfer ("manifest " ++ field ++ " is invalid")) else .ok text
  | _ => .error (.transfer ("manifest " ++ field ++ " is invalid"))

/-- The body of the loop over the documents of an inventory, after the documents `seen`. -/
def readDocument (seen : List DatabaseDocument) : Json → Except TransferError DatabaseDocument
  | .obj members =>
    if ¬ fieldsAre members databaseDocumentFields then
      .error (.transfer "manifest database document fields are invalid")
    else
      match Json.get members "document_id", Json.get members "object_key",
          Json.get members "sha256", Json.get members "byte_size" with
      | some (.str documentId), some (.str key), some (.str sha256), some (.int byteSize) =>
        if byteSize ≤ 0 ∨ ¬ uuidParses documentId then
          .error (.transfer "manifest database document identity is invalid")
        else
          match canonicalObjectKey sha256 with
          | .error _ => .error (.transfer "manifest database document identity is invalid")
          | .ok canonicalKey =>
            if key ≠ canonicalKey ∨ documentId ∈ seen.map (·.documentId) ∨
                key ∈ seen.map (·.objectKey) then
              .error (.transfer "manifest database document locator is invalid")
            else .ok ⟨documentId, key, sha256, byteSize⟩
      | _, _, _, _ => .error (.transfer "manifest database document identity is invalid")
  | _ => .error (.transfer "manifest database document fields are invalid")

/-- `for raw in raws:`, where a value is read after the ones before it. -/
def readEach {α : Type} (read : List α → Json → Except TransferError α) (raws : List Json) :
    Except TransferError (List α) :=
  raws.foldlM (fun seen raw => do return seen ++ [← read seen raw]) []

/-- The keys of the outbox: canonical, and each once. -/
def readDeletions : List Json → Option (List String)
  | [] => some []
  | .str key :: rest =>
    if isCanonicalObjectKey key then (readDeletions rest).map (key :: ·) else none
  | _ :: _ => none

/-- `_validate_database_inventory`, with what it lets through as an inventory. -/
def readInventory (lib : Library) (value : Option Json) (fingerprint : String) :
    Except TransferError Inventory :=
  match value with
  | some (.obj members) =>
    if ¬ fieldsAre members databaseInventoryFields then
      .error (.transfer "manifest database inventory fields are invalid")
    else
      match Json.get members "documents", Json.get members "object_deletions" with
      | some (.arr documents), some (.arr deletions) => do
        let documents ← readEach readDocument documents
        match readDeletions deletions with
        | none => .error (.transfer "manifest database outbox inventory is invalid")
        | some keys =>
          if ¬ keys.Nodup then .error (.transfer "manifest database outbox inventory is invalid")
          else if fingerprint.length ≠ 64 then
            .error (.transfer "manifest database fingerprint is invalid")
          else if fingerprint ≠ fingerprintOf lib ⟨documents, keys⟩ then
            .error (.transfer "manifest database fingerprint does not match")
          else .ok ⟨documents, keys⟩
      | _, _ => .error (.transfer "manifest database inventory is invalid")
  | _ => .error (.transfer "manifest database inventory fields are invalid")

/-- The checks on `database_dump`. -/
def readDump (value : Option Json) : Except TransferError DatabaseDump :=
  match value with
  | some (.obj members) =>
    if ¬ fieldsAre members databaseDumpFields then
      .error (.transfer "manifest database dump fields are invalid")
    else
      match Json.get members "filename" with
      | some (.str filename) =>
        if filename ≠ "database.dump" then
          .error (.transfer "manifest database dump filename is invalid")
        else
          match Json.get members "byte_size", Json.get members "sha256" with
          | some (.int byteSize), some (.str sha256) =>
            if byteSize ≤ 0 ∨ sha256.length ≠ 64 then
              .error (.transfer "manifest database dump identity is invalid")
            else if ¬ parsesBase16 sha256.toList then
              .error (.transfer "manifest database dump checksum is invalid")
            else .ok ⟨filename, byteSize, sha256⟩
          | _, _ => .error (.transfer "manifest database dump identity is invalid")
      | _ => .error (.transfer "manifest database dump filename is invalid")
  | _ => .error (.transfer "manifest database dump fields are invalid")

/-- The body of the loop over `objects`, after the entries `seen`. -/
def readObject (archive : Archive) (seen : List TransferObject) :
    Json → Except TransferError TransferObject
  | .obj members =>
    if ¬ fieldsAre members objectFields then
      .error (.transfer "manifest object fields are invalid")
    else
      match Json.get members "key", Json.get members "sha256" with
      | some (.str key), some (.str sha256) =>
        match Json.get members "byte_size" with
        | some (.int byteSize) =>
          if byteSize ≤ 0 then .error (.transfer "manifest object size is invalid")
          else
            match canonicalObjectKey sha256 with
            | .error _ => .error (.transfer "manifest object checksum is invalid")
            | .ok canonicalKey =>
              if key ∈ seen.map (·.key) ∨ canonicalKey ≠ key then
                .error (.transfer "manifest contains a duplicate or invalid key")
              else if archive.object key = .symlink then
                .error (.transfer "manifest object cannot be a symlink")
              else .ok ⟨key, byteSize, sha256⟩
        | _ => .error (.transfer "manifest object size is invalid")
      | _, _ => .error (.transfer "manifest object identity is invalid")
  | _ => .error (.transfer "manifest object fields are invalid")

/-- The checks on `objects`. -/
def readManifestObjects (archive : Archive) :
    Option Json → Except TransferError (List TransferObject)
  | some (.arr objects) => readEach (readObject archive) objects
  | _ => .error (.transfer "manifest objects must be a list")

/-- `_validate_manifest`, with what it lets through as a manifest. -/
def validateManifest (lib : Library) (archive : Archive) (members : List (String × Json)) :
    Except TransferError Manifest := do
  if ¬ fieldsAre members manifestFields ∨ ¬ equalsOne lib (Json.get members "version") then
    throw (.transfer "manifest fields or version are invalid")
  let capturedAt ← textField members "captured_at"
  let databaseIdentity ← textField members "database_identity"
  let alembicRevision ← textField members "alembic_revision"
  let fingerprint ← textField members "database_fingerprint"
  let endpoint ← textField members "endpoint"
  let bucket ← textField members "bucket"
  let rustfsImage ← textField members "rustfs_image"
  if ¬ lib.fromisoformat capturedAt then
    throw (.transfer "manifest captured_at is invalid")
  let inventory ← readInventory lib (Json.get members "database_inventory") fingerprint
  let dump ← readDump (Json.get members "database_dump")
  let objects ← readManifestObjects archive (Json.get members "objects")
  return ⟨capturedAt, databaseIdentity, alembicRevision, inventory, fingerprint, endpoint, bucket,
    rustfsImage, dump, objects⟩

/-- `_load_manifest`. -/
def loadManifest : ManifestFile → Except TransferError (List (String × Json))
  | .missing => .error (.transfer "manifest.json must be a regular file")
  | .invalid => .error (.transfer "manifest.json is invalid")
  | .value (.obj members) => .ok members
  | .value _ => .error (.transfer "manifest root must be an object")

/-- The first loop over the entries: every file is what the manifest says. -/
def checkEntry (lib : Library) (archive : Archive) (entry : TransferObject) :
    Except TransferError Unit := do
  let (checksum, size) ← hashRegularFile lib entry.key (archive.object entry.key)
  if checksum ≠ entry.sha256 ∨ size ≠ entry.byteSize then
    .error (.transfer ("manifest object is tampered: " ++ entry.key))
  else .ok ()

/-- The bytes `put` reads. -/
def sourceContent : PathEntry → Except TransferError Bytes
  | .file content => .ok content
  -- the first loop found a file
  | .missing | .symlink => .error (.store "unexpected_error" "object storage put object failed")

/-- The second loop: put the object, and read it back. -/
def putEntry (lib : Library) (archive : Archive) (objects : List StoredObject)
    (entry : TransferObject) : Except TransferError (List StoredObject) := do
  let content ← sourceContent (archive.object entry.key)
  let objects ← put objects entry.key content entry.sha256 entry.byteSize
  let metadata ← head objects entry.key
  validateRemoteMetadata metadata entry.key entry.sha256 entry.byteSize
  materialize lib objects entry.key entry.sha256 entry.byteSize
  return objects

/-- `final == expected`, as dictionaries from keys to sizes. -/
def sameInventory (objects : List StoredObject) (entries : List TransferObject) : Bool :=
  (objects.all fun o => entries.any fun e => e.key = o.key ∧ e.byteSize = o.content.length) ∧
    entries.all fun e => objects.any fun o => o.key = e.key ∧ e.byteSize = o.content.length

/-- `import_archive`: the number of objects, and the bucket it leaves. -/
def importArchive (lib : Library) (archive : Archive) (row : SnapshotRow) (bucket : Bucket) :
    Except TransferError (Nat × List StoredObject) := do
  let members ← loadManifest archive.manifest
  let manifest ← validateManifest lib archive members
  validateDatabaseObjects manifest.inventory manifest.objects
  let (dumpChecksum, dumpSize) ← hashRegularFile lib manifest.dump.filename archive.dump
  if dumpChecksum ≠ manifest.dump.sha256 ∨ dumpSize ≠ manifest.dump.byteSize then
    throw (.transfer "paired PostgreSQL dump is tampered")
  let snapshot ← databaseSnapshot lib row
  if snapshot.revision ≠ manifest.alembicRevision then
    throw (.transfer "restored PostgreSQL revision does not match manifest")
  if snapshot.inventory ≠ manifest.inventory ∨ snapshot.fingerprint ≠ manifest.fingerprint then
    throw (.transfer "restored PostgreSQL document/outbox inventory does not match manifest")
  if bucket.objects ≠ [] then throw (.transfer "storage import requires an empty bucket")
  manifest.objects.forM (checkEntry lib archive)
  let objects ← manifest.objects.foldlM (putEntry lib archive) bucket.objects
  if ¬ sameInventory objects manifest.objects then
    throw (.transfer "import final inventory does not match manifest")
  return (manifest.objects.length, objects)

end LocalRag.Transfer
