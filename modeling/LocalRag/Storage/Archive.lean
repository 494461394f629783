import LocalRag.Core.Table
import LocalRag.Storage.Transfer

/-!
# An archive is what was checked

`export` writes an entry for an object after it has looked at the object three times: at its
metadata, at the key its checksum gives, and at the bytes. So an entry is a function of the
object (`entryOf`), and what `exportArchive_ok` gives back of a run that returned is facts
about the bucket and the rows, no longer about the run.

The texts come first: a digest is a number in base 16, and the text of a `uuid` is read as one.
The reader of the archive parses both again.
-/

namespace LocalRag.Transfer

open LocalRag.Core
open LocalRag.Runtime (UuidHex utf8)

/-! ## Hexadecimal texts -/

section Texts

variable {c : Char}

theorem isLowerHex_iff : isLowerHex c = true ↔
    (48 ≤ c.toNat ∧ c.toNat ≤ 57) ∨ (97 ≤ c.toNat ∧ c.toNat ≤ 102) := by
  unfold isLowerHex
  rw [decide_eq_true_iff]
  exact Iff.rfl

theorem isBase16Digit_of_lowerHex (h : isLowerHex c = true) : isBase16Digit c = true := by
  unfold isBase16Digit
  refine decide_eq_true ?_
  rcases isLowerHex_iff.mp h with hdigit | hletter
  · refine Or.inl (List.any_eq_true.mpr ⟨0x30, by decide, ?_⟩)
    refine decide_eq_true ⟨by omega, by omega⟩
  · exact Or.inr (Or.inl ⟨hletter.1, hletter.2⟩)

variable {text : List Char}

theorem digitGroups_of_lowerHex (hne : text ≠ []) (h : ∀ c ∈ text, isLowerHex c = true) :
    digitGroups text = true := by
  induction text with
  | nil => exact absurd rfl hne
  | cons c rest ih =>
    have hc := isBase16Digit_of_lowerHex (h c List.mem_cons_self)
    cases rest with
    | nil => exact hc
    | cons d rest =>
      have hd : d ≠ '_' := by
        rintro rfl
        exact absurd (h '_' (by simp)) (by decide)
      have hrest := ih (by simp) fun e he => h e (List.mem_cons_of_mem _ he)
      unfold digitGroups
      rw [hc, if_neg hd, hrest]
      rfl

theorem trim_eq {space : Char → Bool} (h : ∀ c ∈ text, space c = false) :
    trim space text = text := by
  have hfront : text.dropWhile space = text := by
    cases text with
    | nil => rfl
    | cons c rest => exact List.dropWhile_cons_of_neg (by simp [h c])
  unfold trim
  rw [hfront, List.rdropWhile_eq_self_iff]
  intro hne
  simp [h _ (List.getLast_mem hne)]

/-- `int(text, 16)` finds nothing around lower-case hexadecimal digits. -/
theorem dropRadix_of_lowerHex (h : ∀ c ∈ text, isLowerHex c = true) :
    dropRadix (dropSign (trim isIntSpace text)) = text := by
  have hspace : ∀ c ∈ text, isIntSpace c = false := by
    intro c hc
    have hrange := isLowerHex_iff.mp (h c hc)
    refine decide_eq_false fun hblank => ?_
    have hmem := of_decide_eq_true hblank.1
    simp only [List.mem_cons, List.not_mem_nil, or_false] at hmem
    omega
  have hsign : dropSign text = text := by
    cases text with
    | nil => rfl
    | cons c rest =>
      unfold dropSign
      refine if_neg fun hc => ?_
      rcases hc with rfl | rfl
      · exact absurd (h '+' List.mem_cons_self) (by decide)
      · exact absurd (h '-' List.mem_cons_self) (by decide)
  have hradix : dropRadix text = text := by
    rcases text with _ | ⟨c, _ | ⟨d, rest⟩⟩
    · rfl
    · rfl
    · unfold dropRadix
      refine if_neg fun hd => ?_
      rcases hd.2 with rfl | rfl
      · exact absurd (h 'x' (by simp)) (by decide)
      · exact absurd (h 'X' (by simp)) (by decide)
  rw [trim_eq hspace, hsign, hradix]

/-- Lower-case hexadecimal digits are a number in base 16. -/
theorem parsesBase16_of_lowerHex (hne : text ≠ []) (h : ∀ c ∈ text, isLowerHex c = true) :
    parsesBase16 text = true := by
  unfold parsesBase16
  rw [dropRadix_of_lowerHex h]
  exact digitGroups_of_lowerHex hne h

theorem digest_length (lib : Library) (b : Bytes) : (lib.sha256 b).length = 64 :=
  (of_decide_eq_true (lib.sha256_hex b)).1

theorem digest_hex (lib : Library) (b : Bytes) : ∀ c ∈ (lib.sha256 b).toList, isLowerHex c = true :=
  List.all_eq_true.mp (of_decide_eq_true (lib.sha256_hex b)).2

theorem digest_parses (lib : Library) (b : Bytes) : parsesBase16 (lib.sha256 b).toList = true := by
  refine parsesBase16_of_lowerHex (fun hempty => ?_) (digest_hex lib b)
  have hlength := digest_length lib b
  rw [← String.length_toList, hempty] at hlength
  exact absurd hlength (by decide)

theorem removeText_absent {needle : List Char} (hc : c ∈ needle) (h : c ∉ text) :
    removeText needle 0 text = text := by
  induction text with
  | nil => rfl
  | cons d rest ih =>
    unfold removeText
    rw [if_neg, ih fun hin => h (List.mem_cons_of_mem _ hin)]
    intro hfront
    exact h (hfront.subset hc)

theorem uuid_digits (id : UuidHex) : ∀ c ∈ id.digits, isLowerHex c = true := by
  have hall : ∀ c ∈ "0123456789abcdef".toList, isLowerHex c = true := by
    have hlist : "0123456789abcdef".toList = ['0', '1', '2', '3', '4', '5', '6', '7', '8', '9',
        'a', 'b', 'c', 'd', 'e', 'f'] := String.toList_ofList
    rw [hlist]
    exact List.all_eq_true.mp (by decide)
  exact fun c hc => hall c (id.hex c hc)

theorem toList_uuidText (id : UuidHex) :
    (uuidText id).toList = id.digits.take 8 ++ '-' :: (id.digits.drop 8).take 4 ++
      '-' :: (id.digits.drop 12).take 4 ++ '-' :: (id.digits.drop 16).take 4 ++
      '-' :: id.digits.drop 20 := String.toList_ofList

/-- Nothing but digits and dashes. -/
theorem not_mem_uuidText {id : UuidHex} (hdash : c ≠ '-') (hhex : isLowerHex c = false) :
    c ∉ (uuidText id).toList := by
  intro hc
  have hdigit : c ∉ id.digits := by
    intro hin
    rw [uuid_digits id c hin] at hhex
    exact absurd hhex (by simp)
  rw [toList_uuidText] at hc
  simp only [List.mem_append, List.mem_cons] at hc
  rcases hc with (((hc | hc | hc) | hc | hc) | hc | hc) | hc | hc
  all_goals
    first
    | exact hdash hc
    | exact hdigit (List.mem_of_mem_take hc)
    | exact hdigit (List.mem_of_mem_drop (List.mem_of_mem_take hc))
    | exact hdigit (List.mem_of_mem_drop hc)

/-- Without the dashes the digits are left. -/
theorem filter_uuidText (id : UuidHex) :
    (uuidText id).toList.filter (· ≠ '-') = id.digits := by
  have hkeep : ∀ s : List Char, (∀ c ∈ s, c ∈ id.digits) → s.filter (· ≠ '-') = s := by
    intro s hs
    refine List.filter_eq_self.mpr fun c hc => decide_eq_true ?_
    rintro rfl
    exact absurd (uuid_digits id '-' (hs '-' hc)) (by decide)
  have hpart : ∀ k n, ((id.digits.drop k).take n).filter (· ≠ '-') = (id.digits.drop k).take n :=
    fun k n => hkeep _ fun c hc => List.mem_of_mem_drop (List.mem_of_mem_take hc)
  have hfirst := hkeep (id.digits.take 8) fun c hc => List.mem_of_mem_take hc
  have hlast := hkeep (id.digits.drop 20) fun c hc => List.mem_of_mem_drop hc
  have hstep : ∀ n, (id.digits.drop n).take 4 ++ id.digits.drop (n + 4) = id.digits.drop n := by
    intro n
    rw [← List.drop_drop]
    exact List.take_append_drop 4 _
  rw [toList_uuidText]
  simp only [List.filter_append, List.filter_cons, ne_eq, not_true_eq_false, decide_false,
    Bool.false_eq_true, if_false] at hpart hfirst hlast ⊢
  rw [hfirst, hpart, hpart, hpart, hlast, List.append_assoc, List.append_assoc, List.append_assoc,
    hstep 16, hstep 12, hstep 8, List.take_append_drop]

/-- `UUID` finds the digits in the text of a `uuid`. -/
theorem hex_uuidText (id : UuidHex) :
    (trim (fun c => c = '\x7b' ∨ c = '\x7d') (removeText "uuid:".toList 0
      (removeText "urn:".toList 0 (uuidText id).toList))).filter (· ≠ '-') = id.digits := by
  have hbare : removeText "uuid:".toList 0 (removeText "urn:".toList 0 (uuidText id).toList) =
      (uuidText id).toList := by
    have hcolon : ':' ∉ (uuidText id).toList := not_mem_uuidText (by decide) (by decide)
    have hurn : "urn:".toList = ['u', 'r', 'n', ':'] := String.toList_ofList
    have huuid : "uuid:".toList = ['u', 'u', 'i', 'd', ':'] := String.toList_ofList
    rw [hurn, huuid, removeText_absent (c := ':') (by decide) hcolon,
      removeText_absent (c := ':') (by decide) hcolon]
  have htrim : trim (fun c => c = '\x7b' ∨ c = '\x7d') (uuidText id).toList =
      (uuidText id).toList := by
    refine trim_eq fun c hc => decide_eq_false fun hbrace => ?_
    rcases hbrace with rfl | rfl
    · exact not_mem_uuidText (by decide) (by decide) hc
    · exact not_mem_uuidText (by decide) (by decide) hc
  rw [hbare, htrim, filter_uuidText]

/-- The text of a `uuid` is one. -/
theorem uuidParses_uuidText (id : UuidHex) : uuidParses (uuidText id) = true := by
  unfold uuidParses
  simp only [hex_uuidText]
  refine decide_eq_true ⟨id.length_eq, parsesBase16_of_lowerHex (fun hempty => ?_) (uuid_digits id)⟩
  have hlength := id.length_eq
  rw [hempty] at hlength
  exact absurd hlength (by decide)

end Texts

/-! ## What `export` checked -/

section Export

variable {lib : Library}

theorem validateRemoteMetadata_eq_ok {metadata : ObjectMetadata} {key sha256 : String}
    {byteSize : Int} : validateRemoteMetadata metadata key sha256 byteSize = .ok () ↔
      canonicalObjectKey sha256 = .ok key ∧ metadata.key = key ∧ 0 < byteSize ∧
      metadata.size = byteSize ∧ metadata.declaredSize = some byteSize ∧
      metadata.sha256 = some (lower sha256) := by
  unfold validateRemoteMetadata
  rw [bind_eq_ok]
  constructor
  · intro h
    obtain ⟨canonical, hcanonical, h⟩ := h
    obtain ⟨hkey, h⟩ := ite_error_eq_ok.mp h
    obtain ⟨hsize, h⟩ := ite_error_eq_ok.mp h
    obtain ⟨hsizes, h⟩ := ite_error_eq_ok.mp h
    obtain ⟨hsha, -⟩ := ite_error_eq_ok.mp h
    simp only [ne_eq, not_or, not_not] at hkey hsizes hsha
    obtain ⟨rfl, hkey⟩ := hkey
    exact ⟨hcanonical, hkey, Int.not_le.mp hsize, hsizes.1, hsizes.2, hsha⟩
  · intro h
    obtain ⟨hcanonical, hkey, hsize, hsizes, hdeclared, hsha⟩ := h
    refine ⟨key, hcanonical, ?_⟩
    rw [if_neg (by simp [hkey]), if_neg (Int.not_le.mpr hsize), if_neg (by simp [hsizes, hdeclared]),
      if_neg (by simp [hsha])]

/-- An object as `put` stores it, under the key of its content. -/
structure Exported (lib : Library) (o : StoredObject) : Prop where
  sha256 : o.sha256 = some (lib.sha256 o.content)
  declaredSize : o.declaredSize = some (o.content.length : Int)
  key : canonicalObjectKey (lib.sha256 o.content) = .ok o.key
  filled : (0 : Int) < o.content.length
  lowered : lower (lib.sha256 o.content) = lib.sha256 o.content

/-- Its entry in the manifest. -/
def entryOf (lib : Library) (o : StoredObject) : TransferObject :=
  ⟨o.key, o.content.length, lib.sha256 o.content⟩

variable {objects : List StoredObject} {o : StoredObject}

theorem head_eq (hkeyed : Keyed (·.key) objects) (ho : o ∈ objects) :
    head objects o.key = .ok ⟨o.key, o.content.length, o.sha256, o.declaredSize⟩ := by
  unfold head
  rw [hkeyed.find_eq ho]

theorem download_eq (hkeyed : Keyed (·.key) objects) (ho : o ∈ objects) :
    download objects o.key = .ok o.content := by
  unfold download
  rw [hkeyed.find_eq ho]

theorem exportObject_ok (hkeyed : Keyed (·.key) objects) (ho : o ∈ objects)
    {r : TransferObject × Bytes} (h : exportObject lib objects o = .ok r) :
    Exported lib o ∧ r = (entryOf lib o, o.content) := by
  unfold exportObject at h
  obtain ⟨metadata, hmetadata, h⟩ := bind_eq_ok.mp h
  rw [head_eq hkeyed ho] at hmetadata
  obtain rfl := Except.ok.inj hmetadata
  cases hsha : o.sha256 with
  | none =>
    simp only [hsha] at h
    exact absurd h (by simp)
  | some sha256 =>
    simp only [hsha] at h
    obtain ⟨key, hkey, h⟩ := bind_eq_ok.mp h
    obtain ⟨hsame, h⟩ := ite_error_eq_ok.mp h
    obtain rfl : key = o.key := not_not.mp hsame
    obtain ⟨_, hvalid, h⟩ := bind_eq_ok.mp h
    obtain ⟨content, hcontent, h⟩ := bind_eq_ok.mp h
    obtain rfl : o.content = content :=
      Except.ok.inj ((download_eq hkeyed ho).symm.trans hcontent)
    obtain ⟨hverified, hok⟩ := ite_error_eq_ok.mp h
    simp only [ne_eq, not_true_eq_false, false_or, not_not] at hverified
    subst hverified
    obtain ⟨-, -, hfilled, -, hdeclared, hlower⟩ := validateRemoteMetadata_eq_ok.mp hvalid
    have hlower : some (lib.sha256 o.content) = some (lower (lib.sha256 o.content)) := hlower
    exact ⟨⟨hsha, hdeclared, hkey, hfilled, (Option.some.inj hlower).symm⟩, (Except.ok.inj hok).symm⟩

/-- The documents of a snapshot that was taken. -/
structure Recorded (d : DocumentRow) : Prop where
  key : canonicalObjectKey d.sha256 = .ok d.objectKey
  filled : 0 < d.byteSize

def documentOf (d : DocumentRow) : DatabaseDocument :=
  ⟨uuidText d.id, d.objectKey, d.sha256, d.byteSize⟩

/-- The inventory of a snapshot. -/
def SnapshotRow.inventory (row : SnapshotRow) : Inventory :=
  ⟨row.documents.map documentOf, row.objectDeletions⟩

theorem snapshotDocument_ok {d : DocumentRow} {document : DatabaseDocument}
    (h : snapshotDocument d = .ok document) : Recorded d ∧ document = documentOf d := by
  unfold snapshotDocument at h
  split at h
  · exact absurd h (by simp)
  next expectedKey hkey =>
    obtain ⟨hvalid, hok⟩ := ite_error_eq_ok.mp h
    simp only [ne_eq, not_or, not_not] at hvalid
    obtain ⟨rfl, hfilled⟩ := hvalid
    exact ⟨⟨hkey, Int.not_le.mp hfilled⟩, (Except.ok.inj hok).symm⟩

theorem databaseSnapshot_ok {row : SnapshotRow} {snapshot : DatabaseSnapshot}
    (h : databaseSnapshot lib row = .ok snapshot) :
    (∀ d ∈ row.documents, Recorded d) ∧ row.objectDeletions.all isCanonicalObjectKey = true ∧
    snapshot = ⟨row.databaseIdentity, row.schemaRevision, row.inventory,
      fingerprintOf lib row.inventory⟩ := by
  unfold databaseSnapshot at h
  obtain ⟨documents, hdocuments, h⟩ := bind_eq_ok.mp h
  obtain ⟨hrecorded, rfl⟩ := mapM_eq_map (fun d _ _ hd => snapshotDocument_ok hd) hdocuments
  obtain ⟨hdeletions, h⟩ := ite_error_eq_ok.mp h
  obtain ⟨-, h⟩ := ite_error_eq_ok.mp h
  exact ⟨hrecorded, not_not.mp hdeletions, (Except.ok.inj h).symm⟩

/-- What an export that returns has written. -/
structure Written (lib : Library) (settings : Settings) (now : Timestamp lib) (bucket : Bucket)
    (row : SnapshotRow) (dump : Bytes) (archive : Archive) : Prop where
  exported : ∀ o ∈ bucket.objects, Exported lib o
  recorded : ∀ d ∈ row.documents, Recorded d
  deletions : row.objectDeletions.all isCanonicalObjectKey = true
  snapshot : databaseSnapshot lib row = .ok ⟨row.databaseIdentity, row.schemaRevision,
    row.inventory, fingerprintOf lib row.inventory⟩
  referenced : validateDatabaseObjects row.inventory (bucket.objects.map (entryOf lib)) = .ok ()
  manifest : archive.manifest = .value (.obj (Manifest.members {
    capturedAt := now.text
    databaseIdentity := row.databaseIdentity
    alembicRevision := row.schemaRevision
    inventory := row.inventory
    fingerprint := fingerprintOf lib row.inventory
    endpoint := settings.endpoint
    bucket := settings.bucket
    rustfsImage := settings.rustfsImage
    dump := ⟨"database.dump", dump.length, lib.sha256 dump⟩
    objects := sortedByKey (bucket.objects.map (entryOf lib)) }))
  dump : archive.dump = .file dump
  object : ∀ o ∈ bucket.objects, archive.object o.key = .file o.content

theorem exportArchive_ok {settings : Settings} {now : Timestamp lib} {bucket : Bucket}
    {row : SnapshotRow} {databaseDump : PathEntry} {archive : Archive}
    (h : exportArchive lib settings now bucket row databaseDump = .ok archive) :
    ∃ dump, databaseDump = .file dump ∧ Written lib settings now bucket row dump archive := by
  unfold exportArchive at h
  obtain ⟨hashed, hhashed, h⟩ := bind_eq_ok.mp h
  cases databaseDump with
  | missing => exact absurd hhashed (by simp [hashRegularFile])
  | symlink => exact absurd hhashed (by simp [hashRegularFile])
  | file dump =>
    obtain rfl : (lib.sha256 dump, (dump.length : Int)) = hashed := Except.ok.inj hhashed
    obtain ⟨exported, hexported, h⟩ := bind_eq_ok.mp h
    obtain ⟨hall, rfl⟩ := mapM_eq_map (fun o ho _ hr => exportObject_ok bucket.keyed ho hr) hexported
    obtain ⟨snapshot, hsnapshot, h⟩ := bind_eq_ok.mp h
    obtain ⟨hrecorded, hdeletions, rfl⟩ := databaseSnapshot_ok hsnapshot
    obtain ⟨_, hreferenced, h⟩ := bind_eq_ok.mp h
    rw [List.map_map] at hreferenced h
    obtain rfl := Except.ok.inj h
    refine ⟨dump, rfl, hall, hrecorded, hdeletions, hsnapshot, hreferenced, rfl, rfl, fun o ho => ?_⟩
    have hkeys : Keyed (fun e : TransferObject × Bytes => e.1.key)
        (bucket.objects.map fun o => (entryOf lib o, o.content)) := by
      unfold Keyed
      rw [List.map_map]
      exact bucket.keyed
    have hfind : (bucket.objects.map fun o => (entryOf lib o, o.content)).find?
        (fun e => e.1.key = o.key) = some (entryOf lib o, o.content) :=
      hkeys.find_eq (List.mem_map.mpr ⟨o, ho, rfl⟩)
    show exportedFile _ o.key = _
    unfold exportedFile
    rw [hfind]

end Export

end LocalRag.Transfer
