import LocalRag.Storage.Archive

/-!
# An archive is imported as it was written

What `export` checked of the bucket and of the database is what `import_archive` asks
of the manifest again, but for four texts and a length: nobody looks at the size of the dump,
and the names of the database, the schema and the store's image go into the manifest as they are,
while the reader refuses an empty one. `importArchive_iff` is that, exactly, and says of any
manifest what an import that returns has put.

- `readInventory_json`, `readEach_objects`: the reader's loops on what the writer wrote.
- `validateManifest_members`: the reader takes the manifest as it was, or refuses one of the four.
- `putEntry_exported`: the put of an exported object is that object.
- `importArchive_ok`: what an import that returns went through.
-/

namespace LocalRag.Transfer

open LocalRag.Core
open LocalRag.Runtime (UuidHex)

variable {lib : Library}

/-! ## What the reader takes -/

/-- `members` are the document `d`, after the documents `seen`. -/
structure DocumentRead (seen : List DatabaseDocument) (members : List (String × Json))
    (d : DatabaseDocument) : Prop where
  fields : fieldsAre members databaseDocumentFields = true
  documentId : Json.get members "document_id" = some (.str d.documentId)
  objectKey : Json.get members "object_key" = some (.str d.objectKey)
  sha256 : Json.get members "sha256" = some (.str d.sha256)
  byteSize : Json.get members "byte_size" = some (.int d.byteSize)
  filled : 0 < d.byteSize
  uuid : uuidParses d.documentId = true
  canonical : canonicalObjectKey d.sha256 = .ok d.objectKey
  newId : d.documentId ∉ seen.map (·.documentId)
  newKey : d.objectKey ∉ seen.map (·.objectKey)

theorem readDocument_eq_ok {seen : List DatabaseDocument} {raw : Json} {d : DatabaseDocument} :
    readDocument seen raw = .ok d ↔ ∃ members, raw = .obj members ∧ DocumentRead seen members d := by
  constructor
  · intro h
    unfold readDocument at h
    split at h
    next members =>
      obtain ⟨hfields, h⟩ := ite_error_eq_ok.mp h
      split at h
      next documentId key sha256 byteSize hid hkey hsha hsize =>
        obtain ⟨hvalid, h⟩ := ite_error_eq_ok.mp h
        split at h
        · exact absurd h (by simp)
        next canonicalKey hcanonical =>
          obtain ⟨hlocator, h⟩ := ite_error_eq_ok.mp h
          obtain rfl := Except.ok.inj h
          simp only [ne_eq, not_or, not_not] at hfields hvalid hlocator
          obtain ⟨rfl, hnewId, hnewKey⟩ := hlocator
          exact ⟨members, rfl, hfields, hid, hkey, hsha, hsize, Int.not_le.mp hvalid.1, hvalid.2,
            hcanonical, hnewId, hnewKey⟩
      · exact absurd h (by simp)
    · exact absurd h (by simp)
  · intro h
    obtain ⟨members, rfl, h⟩ := h
    unfold readDocument
    simp only [h.fields, h.documentId, h.objectKey, h.sha256, h.byteSize, h.uuid, h.canonical]
    rw [if_neg (by simp), if_neg (by simp [h.filled]), if_neg (by simp [h.newId, h.newKey])]

/-- `value` is the inventory. -/
structure InventoryRead (lib : Library) (members : List (String × Json)) (fingerprint : String)
    (rawDocuments rawDeletions : List Json) (inventory : Inventory) : Prop where
  fields : fieldsAre members databaseInventoryFields = true
  documents : Json.get members "documents" = some (.arr rawDocuments)
  deletions : Json.get members "object_deletions" = some (.arr rawDeletions)
  each : readEach readDocument rawDocuments = .ok inventory.documents
  keys : readDeletions rawDeletions = some inventory.objectDeletions
  distinct : inventory.objectDeletions.Nodup
  length : fingerprint.length = 64
  fingerprint : fingerprint = fingerprintOf lib inventory

variable {inventory : Inventory}

theorem readInventory_eq_ok {value : Option Json} {fingerprint : String} :
    readInventory lib value fingerprint = .ok inventory ↔ 
      ∃ members rawDocuments rawDeletions, value = some (.obj members) ∧
        InventoryRead lib members fingerprint rawDocuments rawDeletions inventory := by
  constructor
  · intro h
    unfold readInventory at h
    split at h
    next members =>
      obtain ⟨hfields, h⟩ := ite_error_eq_ok.mp h
      split at h
      next rawDocuments rawDeletions hdocuments hdeletions =>
        obtain ⟨documents, heach, h⟩ := bind_eq_ok.mp h
        split at h
        · exact absurd h (by simp)
        next keys hkeys =>
          obtain ⟨hdistinct, h⟩ := ite_error_eq_ok.mp h
          obtain ⟨hlength, h⟩ := ite_error_eq_ok.mp h
          obtain ⟨hfingerprint, h⟩ := ite_error_eq_ok.mp h
          obtain rfl := Except.ok.inj h
          simp only [ne_eq, not_not] at hfields hdistinct hlength hfingerprint
          exact ⟨members, rawDocuments, rawDeletions, rfl, hfields, hdocuments, hdeletions, heach,
            hkeys, hdistinct, hlength, hfingerprint⟩
      · exact absurd h (by simp)
    · exact absurd h (by simp)
  · intro h
    obtain ⟨members, rawDocuments, rawDeletions, rfl, h⟩ := h
    unfold readInventory
    simp only [h.fields, h.documents, h.deletions, h.keys]
    rw [if_neg (by simp), bind_eq_ok]
    refine ⟨inventory.documents, h.each, ?_⟩
    rw [if_neg (not_not.mpr h.distinct), if_neg (not_not.mpr h.length),
      if_neg (not_not.mpr h.fingerprint)]

/-- `members` are the dump. -/
structure DumpRead (members : List (String × Json)) (dump : DatabaseDump) : Prop where
  fields : fieldsAre members databaseDumpFields = true
  filename : Json.get members "filename" = some (.str dump.filename)
  byteSize : Json.get members "byte_size" = some (.int dump.byteSize)
  sha256 : Json.get members "sha256" = some (.str dump.sha256)
  named : dump.filename = "database.dump"
  filled : 0 < dump.byteSize
  length : dump.sha256.length = 64
  digits : parsesBase16 dump.sha256.toList = true

theorem readDump_eq_ok {value : Option Json} {dump : DatabaseDump} :
    readDump value = .ok dump ↔ ∃ members, value = some (.obj members) ∧ DumpRead members dump := by
  constructor
  · intro h
    unfold readDump at h
    split at h
    next members =>
      obtain ⟨hfields, h⟩ := ite_error_eq_ok.mp h
      split at h
      next filename hfilename =>
        obtain ⟨hnamed, h⟩ := ite_error_eq_ok.mp h
        split at h
        next byteSize sha256 hsize hsha =>
          obtain ⟨hvalid, h⟩ := ite_error_eq_ok.mp h
          obtain ⟨hdigits, h⟩ := ite_error_eq_ok.mp h
          obtain rfl := Except.ok.inj h
          simp only [ne_eq, not_or, not_not] at hfields hnamed hvalid hdigits
          exact ⟨members, rfl, hfields, hfilename, hsize, hsha, hnamed, Int.not_le.mp hvalid.1,
            hvalid.2, hdigits⟩
        · exact absurd h (by simp)
      · exact absurd h (by simp)
    · exact absurd h (by simp)
  · intro h
    obtain ⟨members, rfl, h⟩ := h
    unfold readDump
    simp only [h.fields, h.filename, h.byteSize, h.sha256, h.digits]
    rw [if_neg (by simp), if_neg (by simp [h.named]), if_neg (by simp [h.filled, h.length]),
      if_neg (by simp)]

/-- `members` are the entry of an object, after the entries `seen`. -/
structure ObjectRead (archive : Archive) (seen : List TransferObject)
    (members : List (String × Json)) (entry : TransferObject) : Prop where
  fields : fieldsAre members objectFields = true
  key : Json.get members "key" = some (.str entry.key)
  sha256 : Json.get members "sha256" = some (.str entry.sha256)
  byteSize : Json.get members "byte_size" = some (.int entry.byteSize)
  filled : 0 < entry.byteSize
  canonical : canonicalObjectKey entry.sha256 = .ok entry.key
  newKey : entry.key ∉ seen.map (·.key)
  regular : archive.object entry.key ≠ .symlink

variable {archive : Archive}

variable {entry : TransferObject}

theorem readObject_eq_ok {seen : List TransferObject} {raw : Json} :
    readObject archive seen raw = .ok entry ↔
      ∃ members, raw = .obj members ∧ ObjectRead archive seen members entry := by
  constructor
  · intro h
    unfold readObject at h
    split at h
    next members =>
      obtain ⟨hfields, h⟩ := ite_error_eq_ok.mp h
      split at h
      next key sha256 hkey hsha =>
        split at h
        next byteSize hsize =>
          obtain ⟨hfilled, h⟩ := ite_error_eq_ok.mp h
          split at h
          · exact absurd h (by simp)
          next canonicalKey hcanonical =>
            obtain ⟨hlocator, h⟩ := ite_error_eq_ok.mp h
            obtain ⟨hregular, h⟩ := ite_error_eq_ok.mp h
            obtain rfl := Except.ok.inj h
            simp only [ne_eq, not_or, not_not] at hfields hlocator
            obtain ⟨hnew, rfl⟩ := hlocator
            exact ⟨members, rfl, hfields, hkey, hsha, hsize, Int.not_le.mp hfilled, hcanonical,
              hnew, hregular⟩
        · exact absurd h (by simp)
      · exact absurd h (by simp)
    · exact absurd h (by simp)
  · intro h
    obtain ⟨members, rfl, h⟩ := h
    unfold readObject
    simp only [h.fields, h.key, h.sha256, h.byteSize, h.canonical]
    rw [if_neg (by simp), if_neg (Int.not_le.mpr h.filled), if_neg (by simp [h.newKey]),
      if_neg h.regular]

variable {members : List (String × Json)}

theorem textField_eq_ok {field text : String} :
    textField members field = .ok text ↔ Json.get members field = some (.str text) ∧ text ≠ "" := by
  unfold textField
  split
  next value hvalue =>
    rw [ite_error_eq_ok, hvalue]
    constructor
    · intro h
      obtain rfl := Except.ok.inj h.2
      exact ⟨rfl, h.1⟩
    · intro h
      obtain rfl : value = text := Json.str.inj (Option.some.inj h.1)
      exact ⟨h.2, rfl⟩
  next hother =>
    constructor
    · intro h
      exact absurd h (by simp)
    · intro h
      exact absurd h.1 (hother text)

/-- A text that was accepted is not empty. -/
theorem textField_filled {field text result : String}
    (hget : Json.get members field = some (.str text)) (h : textField members field = .ok result) :
    text ≠ "" := by
  obtain ⟨hresult, hne⟩ := textField_eq_ok.mp h
  obtain rfl : text = result := Json.str.inj (Option.some.inj (hget.symm.trans hresult))
  exact hne

/-- `members` are the manifest. -/
structure ManifestRead (lib : Library) (archive : Archive) (members : List (String × Json))
    (rawObjects : List Json) (m : Manifest) : Prop where
  fields : fieldsAre members manifestFields = true
  version : equalsOne lib (Json.get members "version") = true
  capturedAt : textField members "captured_at" = .ok m.capturedAt
  databaseIdentity : textField members "database_identity" = .ok m.databaseIdentity
  alembicRevision : textField members "alembic_revision" = .ok m.alembicRevision
  fingerprint : textField members "database_fingerprint" = .ok m.fingerprint
  endpoint : textField members "endpoint" = .ok m.endpoint
  bucket : textField members "bucket" = .ok m.bucket
  rustfsImage : textField members "rustfs_image" = .ok m.rustfsImage
  dated : lib.fromisoformat m.capturedAt = true
  inventory : readInventory lib (Json.get members "database_inventory") m.fingerprint =
    .ok m.inventory
  dump : readDump (Json.get members "database_dump") = .ok m.dump
  raws : Json.get members "objects" = some (.arr rawObjects)
  objects : readEach (readObject archive) rawObjects = .ok m.objects

variable {m : Manifest}

theorem validateManifest_eq_ok :
    validateManifest lib archive members = .ok m ↔
      ∃ rawObjects, ManifestRead lib archive members rawObjects m := by
  unfold validateManifest
  rw [guard_eq_ok]
  constructor
  · intro h
    obtain ⟨hshape, h⟩ := h
    obtain ⟨capturedAt, hcaptured, h⟩ := bind_eq_ok.mp h
    obtain ⟨databaseIdentity, hidentity, h⟩ := bind_eq_ok.mp h
    obtain ⟨alembicRevision, hrevision, h⟩ := bind_eq_ok.mp h
    obtain ⟨fingerprint, hfingerprint, h⟩ := bind_eq_ok.mp h
    obtain ⟨endpoint, hendpoint, h⟩ := bind_eq_ok.mp h
    obtain ⟨bucket, hbucket, h⟩ := bind_eq_ok.mp h
    obtain ⟨rustfsImage, himage, h⟩ := bind_eq_ok.mp h
    obtain ⟨hdated, h⟩ := guard_eq_ok.mp h
    obtain ⟨inventory, hinventory, h⟩ := bind_eq_ok.mp h
    obtain ⟨dump, hdump, h⟩ := bind_eq_ok.mp h
    obtain ⟨objects, hobjects, h⟩ := bind_eq_ok.mp h
    obtain rfl := Except.ok.inj h
    simp only [not_or, not_not] at hshape hdated
    unfold readManifestObjects at hobjects
    split at hobjects
    next rawObjects hraws =>
      exact ⟨rawObjects, hshape.1, hshape.2, hcaptured, hidentity, hrevision, hfingerprint,
        hendpoint, hbucket, himage, hdated, hinventory, hdump, hraws, hobjects⟩
    · exact absurd hobjects (by simp)
  · intro h
    obtain ⟨rawObjects, h⟩ := h
    refine ⟨by simp [h.fields, h.version], ?_⟩
    simp only [h.capturedAt, h.databaseIdentity, h.alembicRevision, h.fingerprint, h.endpoint,
      h.bucket, h.rustfsImage, bind, Except.bind, h.dated]
    simp only [h.inventory, h.dump, h.raws, readManifestObjects, h.objects]
    rfl

theorem loadManifest_eq_ok {file : ManifestFile} :
    loadManifest file = .ok members ↔ file = .value (.obj members) := by
  unfold loadManifest
  split <;> simp_all

/-! ## What an import does -/

theorem hashRegularFile_eq_ok {path checksum : String} {file : PathEntry} {size : Int} :
    hashRegularFile lib path file = .ok (checksum, size) ↔
      ∃ content, file = .file content ∧ lib.sha256 content = checksum ∧
        (content.length : Int) = size := by
  cases file with
  | file content =>
    simp [hashRegularFile]
  | missing => simp [hashRegularFile]
  | symlink => simp [hashRegularFile]

/-- An entry is checked when its file is what it says. -/
theorem checkEntry_eq_ok :
    checkEntry lib archive entry = .ok () ↔ ∃ content, archive.object entry.key = .file content ∧
      lib.sha256 content = entry.sha256 ∧ (content.length : Int) = entry.byteSize := by
  unfold checkEntry
  rw [bind_eq_ok]
  constructor
  · intro h
    obtain ⟨⟨checksum, size⟩, hhashed, h⟩ := h
    obtain ⟨hsame, -⟩ := ite_error_eq_ok.mp h
    simp only [ne_eq, not_or, not_not] at hsame
    obtain ⟨rfl, rfl⟩ := hsame
    exact hashRegularFile_eq_ok.mp hhashed
  · intro h
    refine ⟨(entry.sha256, entry.byteSize), hashRegularFile_eq_ok.mpr h, ?_⟩
    simp

variable {objects : List StoredObject}

/-- What a put that returns leaves: the object, and no other under its key. -/
theorem putEntry_ok {result : List StoredObject}
    (h : putEntry lib archive objects entry = .ok result) :
    ∃ content, archive.object entry.key = .file content ∧
      result = objects.filter (fun o => o.key ≠ entry.key) ++
        [⟨entry.key, content, some entry.sha256, some entry.byteSize⟩] := by
  unfold putEntry at h
  obtain ⟨content, hcontent, h⟩ := bind_eq_ok.mp h
  obtain ⟨stored, hput, h⟩ := bind_eq_ok.mp h
  obtain ⟨_, _, h⟩ := bind_eq_ok.mp h
  obtain ⟨_, _, h⟩ := bind_eq_ok.mp h
  obtain ⟨_, _, h⟩ := bind_eq_ok.mp h
  obtain rfl : stored = result := Except.ok.inj h
  unfold put at hput
  obtain ⟨-, hput⟩ := ite_error_eq_ok.mp hput
  obtain rfl := Except.ok.inj hput
  unfold sourceContent at hcontent
  split at hcontent
  next bytes hfile =>
    obtain rfl : bytes = content := Except.ok.inj hcontent
    exact ⟨bytes, hfile, rfl⟩
  · exact absurd hcontent (by simp)
  · exact absurd hcontent (by simp)

variable {entries : List TransferObject}

/-- After the loop every entry's file is in the bucket, under the entry's key. -/
theorem putEntries_ok {result : List StoredObject}
    (h : entries.foldlM (putEntry lib archive) objects = .ok result) :
    ∀ e ∈ entries, ∃ o ∈ result, o.key = e.key ∧ archive.object e.key = .file o.content := by
  refine foldlM_inv (fun seen stored => ∀ e ∈ seen, ∃ o ∈ stored, o.key = e.key ∧
    archive.object e.key = .file o.content) ?_ (List.forall_mem_nil _) h
  intro seen entry _ before after hput hseen e he
  obtain ⟨content, hfile, rfl⟩ := putEntry_ok hput
  -- a second entry under a key puts the same file
  by_cases hkey : e.key = entry.key
  · exact ⟨_, List.mem_append_right _ (List.mem_singleton.mpr rfl), hkey.symm, hkey ▸ hfile⟩
  · rcases List.mem_append.mp he with hold | hnew
    · obtain ⟨o, ho, hokey, hofile⟩ := hseen e hold
      refine ⟨o, List.mem_append_left _ (List.mem_filter.mpr ⟨ho, ?_⟩), hokey, hofile⟩
      exact decide_eq_true (hokey ▸ hkey)
    · exact absurd (congrArg TransferObject.key (List.mem_singleton.mp hnew)) hkey

theorem validateDatabaseObjects_ok (h : validateDatabaseObjects inventory entries = .ok ()) :
    ∀ d ∈ inventory.documents, ∃ e ∈ entries, e.key = d.objectKey ∧ e.sha256 = d.sha256 ∧
      e.byteSize = d.byteSize := by
  unfold validateDatabaseObjects at h
  split at h
  next hall =>
    intro d hd
    have hany := List.all_eq_true.mp hall d hd
    obtain ⟨e, hfind, hsame⟩ := (Option.any_eq_true _ _).mp hany
    have hmem := List.mem_reverse.mp (List.mem_of_find?_eq_some hfind)
    have hkey := List.find?_some hfind
    exact ⟨e, hmem, by simpa using hkey, of_decide_eq_true hsame⟩
  · exact absurd h (by simp)

theorem validateDatabaseObjects_eq_ok (hkeyed : Keyed (·.key) entries) :
    validateDatabaseObjects inventory entries = .ok () ↔
      ∀ d ∈ inventory.documents, ∃ e ∈ entries, e.key = d.objectKey ∧ e.sha256 = d.sha256 ∧
        e.byteSize = d.byteSize := by
  refine ⟨validateDatabaseObjects_ok, fun h => ?_⟩
  unfold validateDatabaseObjects
  refine if_pos (List.all_eq_true.mpr fun d hd => ?_)
  obtain ⟨e, he, hkey, hsame⟩ := h d hd
  have hreversed : Keyed (·.key) entries.reverse := by
    unfold Keyed
    rw [List.map_reverse]
    exact List.nodup_reverse.mpr hkeyed
  have hfind := hreversed.find_eq (List.mem_reverse.mpr he)
  rw [hkey] at hfind
  rw [hfind]
  exact decide_eq_true hsame

/-- An import that went through: what it read, and what it put. -/
structure ImportRun (lib : Library) (archive : Archive) (row : SnapshotRow) (bucket : Bucket)
    (members : List (String × Json)) (m : Manifest) (objects : List StoredObject) : Prop where
  loaded : archive.manifest = .value (.obj members)
  manifest : validateManifest lib archive members = .ok m
  referenced : validateDatabaseObjects m.inventory m.objects = .ok ()
  dump : hashRegularFile lib m.dump.filename archive.dump = .ok (m.dump.sha256, m.dump.byteSize)
  snapshot : ∃ snapshot, databaseSnapshot lib row = .ok snapshot ∧
    snapshot.revision = m.alembicRevision ∧ snapshot.inventory = m.inventory ∧
    snapshot.fingerprint = m.fingerprint
  empty : bucket.objects = []
  checked : ∀ entry ∈ m.objects, checkEntry lib archive entry = .ok ()
  put : m.objects.foldlM (putEntry lib archive) bucket.objects = .ok objects
  same : sameInventory objects m.objects = true

variable {row : SnapshotRow}

variable {bucket : Bucket} {n : Nat}

theorem importArchive_eq_ok :
    importArchive lib archive row bucket = .ok (n, objects) ↔
      ∃ members m, ImportRun lib archive row bucket members m objects ∧ m.objects.length = n := by
  unfold importArchive
  constructor
  · intro h
    obtain ⟨members, hloaded, h⟩ := bind_eq_ok.mp h
    obtain ⟨m, hmanifest, h⟩ := bind_eq_ok.mp h
    obtain ⟨_, hreferenced, h⟩ := bind_eq_ok.mp h
    obtain ⟨⟨checksum, size⟩, hhashed, h⟩ := bind_eq_ok.mp h
    obtain ⟨hdump, h⟩ := guard_eq_ok.mp h
    obtain ⟨snapshot, hsnapshot, h⟩ := bind_eq_ok.mp h
    obtain ⟨hrevision, h⟩ := guard_eq_ok.mp h
    obtain ⟨hinventory, h⟩ := guard_eq_ok.mp h
    obtain ⟨hempty, h⟩ := guard_eq_ok.mp h
    obtain ⟨_, hchecked, h⟩ := bind_eq_ok.mp h
    obtain ⟨stored, hput, h⟩ := bind_eq_ok.mp h
    obtain ⟨hsame, h⟩ := guard_eq_ok.mp h
    obtain ⟨rfl, rfl⟩ := Prod.mk.inj (Except.ok.inj h)
    simp only [ne_eq, not_or, not_not] at hdump hrevision hinventory hempty hsame
    obtain ⟨rfl, rfl⟩ := hdump
    exact ⟨members, m, ⟨loadManifest_eq_ok.mp hloaded, hmanifest, hreferenced, hhashed,
      ⟨snapshot, hsnapshot, hrevision, hinventory.1, hinventory.2⟩, hempty,
      forM_eq_ok.mp hchecked, hput, hsame⟩, rfl⟩
  · intro h
    obtain ⟨members, m, h, rfl⟩ := h
    obtain ⟨snapshot, hsnapshot, hrevision, hinventory, hfingerprint⟩ := h.snapshot
    refine bind_eq_ok.mpr ⟨members, loadManifest_eq_ok.mpr h.loaded, ?_⟩
    refine bind_eq_ok.mpr ⟨m, h.manifest, bind_eq_ok.mpr ⟨(), h.referenced, ?_⟩⟩
    refine bind_eq_ok.mpr ⟨_, h.dump, guard_eq_ok.mpr ⟨by simp, ?_⟩⟩
    refine bind_eq_ok.mpr ⟨snapshot, hsnapshot, guard_eq_ok.mpr ⟨not_not.mpr hrevision, ?_⟩⟩
    refine guard_eq_ok.mpr ⟨by simp [hinventory, hfingerprint], ?_⟩
    refine guard_eq_ok.mpr ⟨not_not.mpr h.empty, ?_⟩
    refine bind_eq_ok.mpr ⟨(), forM_eq_ok.mpr h.checked, bind_eq_ok.mpr ⟨objects, h.put, ?_⟩⟩
    exact guard_eq_ok.mpr ⟨not_not.mpr h.same, rfl⟩

/-! ## Reading what was written -/

theorem documentRead_json {seen : List DatabaseDocument} {d : DocumentRow} (hd : Recorded d)
    (hid : uuidText d.id ∉ seen.map (·.documentId)) (hkey : d.objectKey ∉ seen.map (·.objectKey)) :
    readDocument seen (documentOf d).json = .ok (documentOf d) :=
  readDocument_eq_ok.mpr ⟨_, rfl, {
    fields := by simp [fieldsAre, databaseDocumentFields]
    documentId := by simp [Json.get]
    objectKey := by simp [Json.get]
    sha256 := by simp [Json.get]
    byteSize := by simp [Json.get]
    filled := hd.filled
    uuid := uuidParses_uuidText d.id
    canonical := hd.key
    newId := hid
    newKey := hkey }⟩

/-- The documents of a snapshot are read back. -/
theorem readEach_documents (h : ∀ d ∈ row.documents, Recorded d) :
    readEach readDocument (row.inventory.documents.map DatabaseDocument.json) =
      .ok row.inventory.documents := by
  have hids : Keyed (fun d : DocumentRow => uuidText d.id) row.documents := row.ids_distinct
  have hkeys : Keyed (·.objectKey) row.documents := row.keys_distinct
  unfold readEach SnapshotRow.inventory
  rw [List.map_map]
  refine foldlM_eq_append (b := []) (v := documentOf) fun front d back hsplit => ?_
  have hd : d ∈ row.documents := by simp [hsplit]
  refine bind_eq_ok.mpr ⟨documentOf d, documentRead_json (h d hd) ?_ ?_, rfl⟩
  · rw [List.nil_append, List.map_map]
    exact hids.not_mem_front hsplit
  · rw [List.nil_append, List.map_map]
    exact hkeys.not_mem_front hsplit

theorem readDeletions_map {keys : List String} (h : keys.all isCanonicalObjectKey = true) :
    readDeletions (keys.map .str) = some keys := by
  induction keys with
  | nil => rfl
  | cons key keys ih =>
    rw [List.all_cons, Bool.and_eq_true] at h
    rw [List.map_cons, readDeletions, if_pos h.1, ih h.2]
    rfl

/-- The inventory of a snapshot is read back, and its fingerprint accepted. -/
theorem readInventory_json (h : ∀ d ∈ row.documents, Recorded d)
    (hdeletions : row.objectDeletions.all isCanonicalObjectKey = true) :
    readInventory lib (some row.inventory.json) (fingerprintOf lib row.inventory) =
      .ok row.inventory :=
  readInventory_eq_ok.mpr ⟨_, _, _, rfl, {
    fields := by simp [fieldsAre, databaseInventoryFields]
    documents := by simp [Json.get]
    deletions := by simp [Json.get]
    each := readEach_documents h
    keys := readDeletions_map hdeletions
    distinct := row.deletions_distinct
    length := digest_length lib _
    fingerprint := rfl }⟩

/-- The entries of exported objects are read back. -/
theorem readEach_objects (hkeyed : Keyed (·.key) objects)
    (hexported : ∀ o ∈ objects, Exported lib o)
    (hfile : ∀ o ∈ objects, archive.object o.key = .file o.content) :
    readEach (readObject archive) ((objects.map (entryOf lib)).map TransferObject.json) =
      .ok (objects.map (entryOf lib)) := by
  unfold readEach
  rw [List.map_map]
  refine foldlM_eq_append (b := []) (v := entryOf lib) fun front o back hsplit => ?_
  have ho : o ∈ objects := by simp [hsplit]
  refine bind_eq_ok.mpr ⟨entryOf lib o, readObject_eq_ok.mpr ⟨_, rfl, ?_⟩, rfl⟩
  exact {
    fields := by simp [fieldsAre, objectFields]
    key := by simp [Json.get]
    sha256 := by simp [Json.get]
    byteSize := by simp [Json.get]
    filled := (hexported o ho).filled
    canonical := (hexported o ho).key
    newKey := by
      rw [List.nil_append, List.map_map]
      exact hkeyed.not_mem_front hsplit
    regular := by
      show archive.object o.key ≠ _
      rw [hfile o ho]
      simp }

/-- A sorted list of entries is the list of a bucket in another order. -/
theorem sortedByKey_map (objects : List StoredObject) :
    ∃ sorted : List StoredObject, sorted.Perm objects ∧
      sortedByKey (objects.map (entryOf lib)) = sorted.map (entryOf lib) := by
  have hperm : (sortedByKey (objects.map (entryOf lib))).Perm (objects.map (entryOf lib)) :=
    List.mergeSort_perm _ _
  obtain ⟨sorted, hsorted, hobjects⟩ := List.perm_comp_forall₂ hperm
    (List.forall₂_map_left_iff.mpr (List.forall₂_same.mpr fun o _ => rfl) :
      List.Forall₂ (fun e o => e = entryOf lib o) (objects.map (entryOf lib)) objects)
  refine ⟨sorted, hobjects, ?_⟩
  rw [← List.forall₂_eq_eq_eq, List.forall₂_map_right_iff]
  exact hsorted

variable {dump : Bytes}

/-- The manifest is taken as it is, unless one of four texts is empty or the dump is. -/
theorem validateManifest_members (hdated : lib.fromisoformat m.capturedAt = true)
    (hendpoint : m.endpoint ≠ "") (hbucket : m.bucket ≠ "")
    (hfingerprint : m.fingerprint.length = 64)
    (hdump : m.dump = ⟨"database.dump", dump.length, lib.sha256 dump⟩)
    (hinventory : readInventory lib (some m.inventory.json) m.fingerprint = .ok m.inventory)
    (hobjects : readEach (readObject archive) (m.objects.map TransferObject.json) = .ok m.objects)
    (hidentity : m.databaseIdentity ≠ "") (hrevision : m.alembicRevision ≠ "")
    (himage : m.rustfsImage ≠ "") (hfilled : dump ≠ []) :
    validateManifest lib archive m.members = .ok m := by
  have hcaptured : m.capturedAt ≠ "" := by
    intro hempty
    rw [hempty, lib.fromisoformat_empty] at hdated
    exact absurd hdated (by simp)
  have hne : m.fingerprint ≠ "" := by
    intro hempty
    rw [hempty] at hfingerprint
    exact absurd hfingerprint (by decide)
  have hread : readDump (some m.dump.json) = .ok m.dump := by
    rw [hdump]
    have hlength := List.length_pos_iff.mpr hfilled
    exact readDump_eq_ok.mpr ⟨_, rfl, {
      fields := by simp [fieldsAre, databaseDumpFields]
      filename := by simp [Json.get]
      byteSize := by simp [Json.get]
      sha256 := by simp [Json.get]
      named := rfl
      filled := Int.natCast_pos.mpr hlength
      length := digest_length lib dump
      digits := digest_parses lib dump }⟩
  refine validateManifest_eq_ok.mpr ⟨m.objects.map TransferObject.json, {
    fields := by simp [fieldsAre, manifestFields, Manifest.members]
    version := by simp [Json.get, Manifest.members, equalsOne]
    capturedAt := textField_eq_ok.mpr ⟨by simp [Json.get, Manifest.members], hcaptured⟩
    databaseIdentity := textField_eq_ok.mpr ⟨by simp [Json.get, Manifest.members], hidentity⟩
    alembicRevision := textField_eq_ok.mpr ⟨by simp [Json.get, Manifest.members], hrevision⟩
    fingerprint := textField_eq_ok.mpr ⟨by simp [Json.get, Manifest.members], hne⟩
    endpoint := textField_eq_ok.mpr ⟨by simp [Json.get, Manifest.members], hendpoint⟩
    bucket := textField_eq_ok.mpr ⟨by simp [Json.get, Manifest.members], hbucket⟩
    rustfsImage := textField_eq_ok.mpr ⟨by simp [Json.get, Manifest.members], himage⟩
    dated := hdated
    inventory := ?_
    dump := ?_
    raws := by simp [Json.get, Manifest.members]
    objects := hobjects }⟩
  · simpa [Json.get, Manifest.members] using hinventory
  · simpa [Json.get, Manifest.members] using hread

/-- The five that an accepted manifest cannot have. -/
theorem validateManifest_refuses {result : Manifest}
    (h : validateManifest lib archive m.members = .ok result) :
    m.databaseIdentity ≠ "" ∧ m.alembicRevision ≠ "" ∧ m.rustfsImage ≠ "" ∧
    0 < m.dump.byteSize := by
  obtain ⟨rawObjects, hread⟩ := validateManifest_eq_ok.mp h
  refine ⟨?_, ?_, ?_, ?_⟩
  · exact textField_filled (by simp [Json.get, Manifest.members]) hread.databaseIdentity
  · exact textField_filled (by simp [Json.get, Manifest.members]) hread.alembicRevision
  · exact textField_filled (by simp [Json.get, Manifest.members]) hread.rustfsImage
  · obtain ⟨members, hmembers, hdump⟩ := readDump_eq_ok.mp hread.dump
    have hget : Json.get m.members "database_dump" = some m.dump.json := by
      simp [Json.get, Manifest.members]
    obtain rfl := Json.obj.inj (Option.some.inj (hget.symm.trans hmembers))
    have hsize := hdump.byteSize
    have hwritten : Json.get [("filename", Json.str m.dump.filename),
        ("byte_size", .int m.dump.byteSize), ("sha256", .str m.dump.sha256)] "byte_size" =
        some (.int m.dump.byteSize) := by
      simp [Json.get]
    have hsame := Json.int.inj (Option.some.inj (hwritten.symm.trans hsize))
    have hfilled := hdump.filled
    omega

/-! ## Putting what was exported -/

variable {o : StoredObject}

/-- The put of an exported object, under a key that is free, is that object. -/
theorem put_exported {stored : List StoredObject} (h : Exported lib o)
    (hnew : o.key ∉ stored.map (·.key)) :
    put stored o.key o.content (lib.sha256 o.content) o.content.length = .ok (stored ++ [o]) := by
  have hkept : stored.filter (fun s => s.key ≠ o.key) = stored := by
    refine List.filter_eq_self.mpr fun s hs => decide_eq_true fun hkey => hnew ?_
    exact List.mem_map.mpr ⟨s, hs, hkey⟩
  have hobject : (⟨o.key, o.content, some (lib.sha256 o.content), some (o.content.length : Int)⟩ :
      StoredObject) = o := by
    rw [← h.sha256, ← h.declaredSize]
  unfold put
  rw [if_neg (not_not.mpr rfl), hkept, hobject]

theorem validateRemoteMetadata_exported (h : Exported lib o) :
    validateRemoteMetadata ⟨o.key, o.content.length, o.sha256, o.declaredSize⟩ o.key
      (lib.sha256 o.content) o.content.length = .ok () := by
  refine validateRemoteMetadata_eq_ok.mpr ⟨h.key, rfl, h.filled, rfl, h.declaredSize, ?_⟩
  rw [h.lowered]
  exact h.sha256

/-- What was put is read back. -/
theorem materialize_exported (hkeyed : Keyed (·.key) objects) (ho : o ∈ objects)
    (h : Exported lib o) :
    materialize lib objects o.key (lib.sha256 o.content) o.content.length = .ok () := by
  have hhead : headDocument objects o.key =
      .ok ⟨o.key, o.content.length, o.sha256, o.declaredSize⟩ := by
    unfold headDocument
    rw [head_eq hkeyed ho]
  unfold materialize
  refine bind_eq_ok.mpr ⟨_, hhead, bind_eq_ok.mpr ⟨(), validateRemoteMetadata_exported h, ?_⟩⟩
  refine bind_eq_ok.mpr ⟨o.content, download_eq hkeyed ho, ?_⟩
  rw [if_neg (not_not.mpr rfl), if_neg (by simp [h.lowered])]

theorem putEntry_exported {stored : List StoredObject} (h : Exported lib o)
    (hkeyed : Keyed (·.key) (stored ++ [o])) (hfile : archive.object o.key = .file o.content) :
    putEntry lib archive stored (entryOf lib o) = .ok (stored ++ [o]) := by
  have ho : o ∈ stored ++ [o] := List.mem_append_right _ (List.mem_singleton.mpr rfl)
  have hsource : sourceContent (archive.object o.key) = .ok o.content := by
    rw [hfile]
    rfl
  have hput := put_exported h (hkeyed.not_mem_front rfl)
  refine bind_eq_ok.mpr ⟨o.content, hsource, bind_eq_ok.mpr ⟨stored ++ [o], hput, ?_⟩⟩
  refine bind_eq_ok.mpr ⟨_, head_eq hkeyed ho, ?_⟩
  refine bind_eq_ok.mpr ⟨(), validateRemoteMetadata_exported h, ?_⟩
  exact bind_eq_ok.mpr ⟨(), materialize_exported hkeyed ho h, rfl⟩

/-- The loop puts a bucket back, in the order of the entries. -/
theorem putEntries_exported (hkeyed : Keyed (·.key) objects)
    (hexported : ∀ o ∈ objects, Exported lib o)
    (hfile : ∀ o ∈ objects, archive.object o.key = .file o.content) :
    (objects.map (entryOf lib)).foldlM (putEntry lib archive) [] = .ok objects := by
  have hloop : (objects.map (entryOf lib)).foldlM (putEntry lib archive) [] =
      .ok ([] ++ objects.map id) := by
    refine foldlM_eq_append (v := id) fun front o back hsplit => ?_
    have ho : o ∈ objects := by simp [hsplit]
    rw [List.nil_append, List.map_id]
    refine putEntry_exported (hexported o ho) ?_ (hfile o ho)
    subst hsplit
    refine List.Nodup.sublist (List.Sublist.map _ ?_) hkeyed
    exact List.Sublist.append_left (List.singleton_sublist.mpr List.mem_cons_self) _
  rw [hloop, List.nil_append, List.map_id]

theorem sameInventory_map (objects : List StoredObject) :
    sameInventory objects (objects.map (entryOf lib)) = true := by
  unfold sameInventory
  refine decide_eq_true ⟨List.all_eq_true.mpr fun o ho => ?_, List.all_eq_true.mpr fun e he => ?_⟩
  · exact List.any_eq_true.mpr ⟨entryOf lib o, List.mem_map_of_mem ho, decide_eq_true ⟨rfl, rfl⟩⟩
  · obtain ⟨o, ho, rfl⟩ := List.mem_map.mp he
    exact List.any_eq_true.mpr ⟨o, ho, decide_eq_true ⟨rfl, rfl⟩⟩

/-! ## The round trip -/

/-- What an export wrote is imported, when the dump and four texts are not empty. -/
theorem importArchive_written {settings : Settings} {now : Timestamp lib}
    (w : Written lib settings now bucket row dump archive) (hdump : dump ≠ [])
    (himage : settings.rustfsImage ≠ "") (hidentity : row.databaseIdentity ≠ "")
    (hrevision : row.schemaRevision ≠ "") :
    ∃ n objects, importArchive lib archive row Bucket.empty = .ok (n, objects) ∧
      objects.Perm bucket.objects := by
  obtain ⟨sorted, hperm, hsorted⟩ := @sortedByKey_map lib bucket.objects
  have hkeyed : Keyed (·.key) sorted := (hperm.map _).nodup_iff.mpr bucket.keyed
  have hexported : ∀ o ∈ sorted, Exported lib o := fun o ho => w.exported o (hperm.mem_iff.mp ho)
  have hfile : ∀ o ∈ sorted, archive.object o.key = .file o.content :=
    fun o ho => w.object o (hperm.mem_iff.mp ho)
  have hentries : Keyed (·.key) (sorted.map (entryOf lib)) := by
    unfold Keyed
    rw [List.map_map]
    exact hkeyed
  have hmanifest := w.manifest
  rw [hsorted] at hmanifest
  refine ⟨_, sorted, importArchive_eq_ok.mpr ⟨_, _, {
    loaded := hmanifest
    manifest := validateManifest_members now.parses settings.endpoint_ne settings.bucket_ne
      (digest_length lib _) rfl (readInventory_json w.recorded w.deletions)
      (readEach_objects hkeyed hexported hfile) hidentity hrevision himage hdump
    referenced := ?_
    dump := ?_
    snapshot := ⟨_, w.snapshot, rfl, rfl, rfl⟩
    empty := rfl
    checked := ?_
    put := putEntries_exported hkeyed hexported hfile
    same := sameInventory_map sorted }, rfl⟩, hperm⟩
  · refine (validateDatabaseObjects_eq_ok hentries).mpr fun d hd => ?_
    obtain ⟨e, he, hsame⟩ := validateDatabaseObjects_ok w.referenced d hd
    exact ⟨e, ((hperm.map _).mem_iff).mpr he, hsame⟩
  · rw [w.dump]
    rfl
  · intro entry hentry
    obtain ⟨o, ho, rfl⟩ := List.mem_map.mp hentry
    exact checkEntry_eq_ok.mpr ⟨o.content, hfile o ho, rfl, rfl⟩

/-- And no other is. -/
theorem importArchive_refused {settings : Settings} {now : Timestamp lib}
    (w : Written lib settings now bucket row dump archive)
    (h : importArchive lib archive row Bucket.empty = .ok (n, objects)) :
    dump ≠ [] ∧ settings.rustfsImage ≠ "" ∧ row.databaseIdentity ≠ "" ∧ row.schemaRevision ≠ "" := by
  obtain ⟨members, m, hrun, -⟩ := importArchive_eq_ok.mp h
  obtain rfl := Json.obj.inj (ManifestFile.value.inj (w.manifest.symm.trans hrun.loaded))
  obtain ⟨hidentity, hrevision, himage, hsize⟩ := validateManifest_refuses hrun.manifest
  refine ⟨?_, himage, hidentity, hrevision⟩
  rintro rfl
  exact absurd hsize (by simp)

/-- A document of a manifest, in the bucket with its checksum and its size. -/
def Stored (lib : Library) (objects : List StoredObject) (raw : Json) : Prop :=
  ∃ members key sha256 byteSize, raw = .obj members ∧
    Json.get members "object_key" = some (.str key) ∧
    Json.get members "sha256" = some (.str sha256) ∧
    Json.get members "byte_size" = some (.int byteSize) ∧
    ∃ o ∈ objects, o.key = key ∧ lib.sha256 o.content = sha256 ∧ (o.content.length : Int) = byteSize

/-- The documents an inventory was read from. -/
theorem readEach_source {raws : List Json} {documents : List DatabaseDocument}
    (h : readEach readDocument raws = .ok documents) :
    ∀ raw ∈ raws, ∃ d ∈ documents, ∃ seen members, raw = .obj members ∧
      DocumentRead seen members d := by
  refine foldlM_inv (fun done read => ∀ raw ∈ done, ∃ d ∈ read, ∃ seen members,
    raw = .obj members ∧ DocumentRead seen members d) ?_ (List.forall_mem_nil _) h
  intro done raw _ before after hread hdone old hold
  obtain ⟨d, hd, hafter⟩ := bind_eq_ok.mp hread
  obtain rfl : before ++ [d] = after := Except.ok.inj hafter
  rcases List.mem_append.mp hold with hfront | hlast
  · obtain ⟨e, he, hsource⟩ := hdone old hfront
    exact ⟨e, List.mem_append_left _ he, hsource⟩
  · obtain rfl := List.mem_singleton.mp hlast
    obtain ⟨members, rfl, hmembers⟩ := readDocument_eq_ok.mp hd
    exact ⟨d, List.mem_append_right _ (List.mem_singleton.mpr rfl), before, members, rfl, hmembers⟩

/-- Whatever was imported: every document of the manifest has its object. -/
theorem accepted_stored (h : importArchive lib archive row bucket = .ok (n, objects)) :
    ∃ members inventory documents, archive.manifest = .value (.obj members) ∧
      Json.get members "database_inventory" = some (.obj inventory) ∧
      Json.get inventory "documents" = some (.arr documents) ∧
      ∀ raw ∈ documents, Stored lib objects raw := by
  obtain ⟨members, m, hrun, -⟩ := importArchive_eq_ok.mp h
  obtain ⟨rawObjects, hread⟩ := validateManifest_eq_ok.mp hrun.manifest
  obtain ⟨inventory, documents, deletions, hinventory, hdocuments⟩ :=
    readInventory_eq_ok.mp hread.inventory
  refine ⟨members, inventory, documents, hrun.loaded, hinventory, hdocuments.documents, ?_⟩
  intro raw hraw
  obtain ⟨d, hd, seen, fields, rfl, hsource⟩ := readEach_source hdocuments.each raw hraw
  obtain ⟨e, he, hkey, hsha, hsize⟩ := validateDatabaseObjects_ok hrun.referenced d hd
  obtain ⟨content, hfile, hdigest, hlength⟩ := checkEntry_eq_ok.mp (hrun.checked e he)
  obtain ⟨o, ho, hokey, hofile⟩ := putEntries_ok hrun.put e he
  obtain rfl : content = o.content := PathEntry.file.inj (hfile.symm.trans hofile)
  exact ⟨fields, d.objectKey, d.sha256, d.byteSize, rfl, hsource.objectKey, hsource.sha256,
    hsource.byteSize, o, ho, hokey.trans hkey, hdigest.trans hsha, hlength.trans hsize⟩

/-- **Import undoes export** when the dump is not empty and the three texts nobody checked are not,
and only then; and an import that returns, of whatever manifest, has every document stored. -/
theorem importArchive_iff (lib : Library) :
    (∀ (settings : Settings) (now : Timestamp lib) (bucket : Bucket) (row : SnapshotRow)
      (databaseDump : PathEntry) (archive : Archive),
      exportArchive lib settings now bucket row databaseDump = .ok archive →
      ((∃ n objects, importArchive lib archive row Bucket.empty = .ok (n, objects) ∧
          objects.Perm bucket.objects) ↔
        databaseDump ≠ .file [] ∧ settings.rustfsImage ≠ "" ∧ row.databaseIdentity ≠ "" ∧
          row.schemaRevision ≠ "")) ∧
    ∀ (archive : Archive) (row : SnapshotRow) (bucket : Bucket) (n : Nat)
      (objects : List StoredObject), importArchive lib archive row bucket = .ok (n, objects) →
      ∃ members inventory documents, archive.manifest = .value (.obj members) ∧
        Json.get members "database_inventory" = some (.obj inventory) ∧
        Json.get inventory "documents" = some (.arr documents) ∧
        ∀ raw ∈ documents, Stored lib objects raw := by
  refine ⟨fun settings now bucket row databaseDump archive hexport => ?_,
    fun _ _ _ _ _ h => accepted_stored h⟩
  obtain ⟨dump, rfl, w⟩ := exportArchive_ok hexport
  constructor
  · intro h
    obtain ⟨n, objects, himport, -⟩ := h
    obtain ⟨hdump, hothers⟩ := importArchive_refused w himport
    exact ⟨fun hempty => hdump (PathEntry.file.inj hempty), hothers⟩
  · intro h
    obtain ⟨hdump, himage, hidentity, hrevision⟩ := h
    exact importArchive_written w (fun hempty => hdump (congrArg _ hempty)) himage hidentity
      hrevision

/-! ## One document -/

/-- The bytes `%PDF`. -/
def sampleContent : Bytes := [0x25, 0x50, 0x44, 0x46]

/-- The bytes `PGDMP`. -/
def sampleDump : Bytes := [0x50, 0x47, 0x44, 0x4d, 0x50]

def sampleDigest : String := "315d429b7714cedb6ad04ac31240145257692630457f3c88253c5beceac76027"

/-- SHA-256 of the two files, of no byte, and of the inventory below. -/
def sampleSha256 (b : Bytes) : String :=
  if b = sampleContent then sampleDigest
  else if b = sampleDump then "b5a26a21290c39819235a235b8ed66b3bd98ed90c8316c8949bfbb7419cac878"
  else if b = [] then "e3b0c44298fc1c149afbf4c8996fb92427ae41e4649b934ca495991b7852b855"
  else "59a9436c7b4321829fbdfe26348b28bf085a297bc08a3b61884f76efa09395cd"

def sampleLibrary : Library where
  sha256 := sampleSha256
  sha256_hex := by
    intro b
    unfold sampleSha256
    split
    · decide +kernel
    split
    · decide +kernel
    split
    · decide +kernel
    · decide +kernel
  fromisoformat := fun text => text = "2026-01-01T00:00:00+00:00"
  fromisoformat_empty := by decide
  floatIsOne := fun literal => literal = ['1', '.', '0']

def sampleNow : Timestamp sampleLibrary := ⟨"2026-01-01T00:00:00+00:00", by decide⟩

def sampleSettings : Settings :=
  ⟨"http://rustfs:9000", "documents", "rustfs/rustfs:1.0", by decide, by decide⟩

def sampleObject : StoredObject where
  key := "originals/31/" ++ sampleDigest ++ ".pdf"
  content := sampleContent
  sha256 := some sampleDigest
  declaredSize := some 4

def sampleBucket : Bucket := ⟨[sampleObject], List.nodup_singleton _⟩

def sampleRow : SnapshotRow where
  databaseIdentity := "rag"
  schemaRevision := "0011"
  documents := [⟨UuidHex.zero, sampleObject.key, sampleDigest, 4⟩]
  objectDeletions := []
  databaseFingerprint := sampleDigest
  ids_distinct := List.nodup_singleton _
  keys_distinct := List.nodup_singleton _
  deletions_distinct := List.nodup_nil

/-- The export of the document returns, and is imported. -/
theorem importArchive_sample : ∃ archive,
    exportArchive sampleLibrary sampleSettings sampleNow sampleBucket sampleRow
      (.file sampleDump) = .ok archive ∧
    ∃ n objects, importArchive sampleLibrary archive sampleRow Bucket.empty = .ok (n, objects) ∧
      objects.Perm [sampleObject] := by
  have hexport : ∃ archive, exportArchive sampleLibrary sampleSettings sampleNow sampleBucket
      sampleRow (.file sampleDump) = .ok archive := ⟨_, rfl⟩
  obtain ⟨archive, hexport⟩ := hexport
  refine ⟨archive, hexport, ((importArchive_iff sampleLibrary).1 _ _ _ _ _ _ hexport).mpr ?_⟩
  decide

/-- The same export with an empty dump returns too, and its archive is refused. -/
theorem empty_dump_refused : ∃ archive,
    exportArchive sampleLibrary sampleSettings sampleNow sampleBucket sampleRow (.file []) =
      .ok archive ∧
    importArchive sampleLibrary archive sampleRow Bucket.empty =
      .error (.transfer "manifest database dump identity is invalid") :=
  ⟨_, rfl, rfl⟩

end LocalRag.Transfer
