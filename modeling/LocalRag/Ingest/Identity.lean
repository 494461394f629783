import LocalRag.Core.Text
import LocalRag.Ingest.Versions

/-!
# Chunk identities — the ids two generations of one document share

`chunk_uuid` of `services/identity.py`, and what it means for the primary key of
`chunks`. The name it hashes joins the document, the ordinal, the page, the digest
of the text and the schema version; neither the generation nor its parser and
chunking versions are part of it.

`Identified` says of every stored row that its id is the one `chunk_uuid` gives to
its coordinates; every write keeps it (`ContentStep.identified`), so it holds of
every state workers reach. Two rows then have the same id exactly if they have the
same name, and a commit, which deletes the rows of its own generation only, meets
another generation's row exactly if a chunk kept ordinal, page and text
(`reingestion_ids`).

Mirroring notes. SHA-256 and UUIDv5 are the fields of `Hashing`, injective on what
they hash; so are the texts of a UUID and of a digest, which hold no colon.
-/

namespace LocalRag.Ingest

open LocalRag.Core Access Library Storage

variable {db : Db}

/-- `hashlib.sha256`, `uuid.uuid5` under `CHUNK_NAMESPACE`, and how their arguments
print. -/
structure Hashing where
  /-- `str(document_id)`. -/
  uuidText : DocumentId → List Char
  /-- `hexdigest()`. -/
  digestText : Nat → List Char
  sha256 : String → Nat
  uuid5 : List Char → ChunkId
  uuidText_injective : Function.Injective uuidText
  uuidText_plain : ∀ d, ':' ∉ uuidText d
  digestText_injective : Function.Injective digestText
  digestText_plain : ∀ n, ':' ∉ digestText n
  sha256_injective : Function.Injective sha256
  uuid5_injective : Function.Injective uuid5

/-- `sha256_text`. -/
def Hashing.sha256Text (h : Hashing) (text : String) : HexText := .digest (h.sha256 text)

/-- A digest as it enters a name. -/
def Hashing.hexText (h : Hashing) : HexText → List Char
  | .digest n => h.digestText n
  | .other text => text.toList

/-- The name `chunk_uuid` hashes. -/
def Hashing.identity (h : Hashing) (i : ChunkIdentity) : List Char :=
  joinWith ':' [h.uuidText i.documentId, Nat.toDigits 10 i.ordinal, Nat.toDigits 10 i.pageNumber,
    h.hexText i.textSha256, i.schemaVersion.toList]

/-- `chunk_uuid`. -/
def Hashing.chunkUuid (h : Hashing) (i : ChunkIdentity) : ChunkId := h.uuid5 (h.identity i)

/-- The identity of a chunk of this text at these coordinates. -/
def Hashing.identityOf (h : Hashing) (documentId : DocumentId) (ordinal pageNumber : Nat)
    (text schemaVersion : String) : ChunkIdentity :=
  ⟨documentId, ordinal, pageNumber, h.sha256Text text, schemaVersion⟩

theorem colon_not_mem_toDigits (n : Nat) : ':' ∉ Nat.toDigits 10 n := by
  intro hc
  have hdigit := Nat.isDigit_of_mem_toDigits (by decide) (by decide) hc
  exact absurd hdigit (by decide)

theorem toDigits_injective {m n : Nat} (h : Nat.toDigits 10 m = Nat.toDigits 10 n) : m = n := by
  have hread := congrArg (fun cs => Nat.ofDigitChars 10 cs 0) h
  simpa only [Nat.ofDigitChars_ten_toDigits] using hread

/-- No two chunks have the same name, unless they agree in all its parts. -/
theorem Hashing.chunkUuid_inj (h : Hashing) {d d' : DocumentId} {o o' p p' : Nat}
    {text text' version version' : String} :
    h.chunkUuid (h.identityOf d o p text version) =
        h.chunkUuid (h.identityOf d' o' p' text' version') ↔
      d = d' ∧ o = o' ∧ p = p' ∧ text = text' ∧ version = version' := by
  have hplain : ∀ (d : DocumentId) (o p : Nat) (text : String), ∀ part ∈ [h.uuidText d,
      Nat.toDigits 10 o, Nat.toDigits 10 p, h.hexText (h.sha256Text text)], ':' ∉ part := by
    intro d o p text part hpart
    simp only [List.mem_cons, List.not_mem_nil, or_false] at hpart
    rcases hpart with rfl | rfl | rfl | rfl
    · exact h.uuidText_plain d
    · exact colon_not_mem_toDigits o
    · exact colon_not_mem_toDigits p
    · exact h.digestText_plain _
  constructor
  · intro heq
    have hname : joinWith ':' ([h.uuidText d, Nat.toDigits 10 o, Nat.toDigits 10 p,
          h.hexText (h.sha256Text text)] ++ [version.toList]) =
        joinWith ':' ([h.uuidText d', Nat.toDigits 10 o', Nat.toDigits 10 p',
          h.hexText (h.sha256Text text')] ++ [version'.toList]) := h.uuid5_injective heq
    obtain ⟨hparts, hversion⟩ :=
      joinWith_inj (by rfl) (hplain d o p text) (hplain d' o' p' text') hname
    simp only [List.cons.injEq, and_true] at hparts
    obtain ⟨hdoc, hord, hpage, hdigest⟩ := hparts
    exact ⟨h.uuidText_injective hdoc, toDigits_injective hord, toDigits_injective hpage,
      h.sha256_injective (h.digestText_injective hdigest), String.toList_inj.mp hversion⟩
  · rintro ⟨rfl, rfl, rfl, rfl, rfl⟩
    rfl

/-! ## Stored rows -/

/-- The world hashes with these. -/
def HashesWith (h : Hashing) (w : World) : Prop :=
  w.sha256Text = h.sha256Text ∧ w.uuid5 = h.chunkUuid

/-- A commit's payload is what the worker's processor made of the job's document. -/
def ChunksItsDocument (h : Hashing) (db : Db) : IngestCall → Prop
  | .job (.commit request) => ∃ w settings claim s result s', HashesWith h w ∧
      process w settings claim s = (.ok result, s') ∧ request.pageCount = result.pageCount ∧
      request.chunks = result.chunks ∧
      ∀ job ∈ db.content.jobs, job.id = request.jobId → claim.documentId = job.documentId
  | _ => True

theorem ChunksItsDocument.fromWorker {h : Hashing} {call : IngestCall}
    (hc : ChunksItsDocument h db call) : FromWorker call := by
  unfold FromWorker
  split
  · obtain ⟨w, settings, claim, s, result, s', _, hprocess, hpages, hchunks, _⟩ := hc
    exact ⟨w, settings, claim, s, result, s', hprocess, hpages, hchunks⟩
  · trivial

/-- The row's id is the one its coordinates have. -/
def HasIdentity (h : Hashing) (c : Chunk) : Prop :=
  c.id = h.chunkUuid (h.identityOf c.documentId c.ordinal c.pageStart c.text c.schemaVersion)

/-- Every stored chunk has the id of its coordinates. -/
def Identified (h : Hashing) (content : Content) : Prop := ∀ c ∈ content.chunks, HasIdentity h c

/-- So has every chunk of a payload. -/
theorem payload_hasIdentity {h : Hashing} {request : IngestRequest} {job : IngestionJob}
    (generationId : GenerationId) (hc : ChunksItsDocument h db (.job (.commit request)))
    (hmem : job ∈ db.content.jobs) (hid : job.id = request.jobId) :
    ∀ x ∈ request.chunks, HasIdentity h (chunkRow job.documentId generationId x) := by
  obtain ⟨w, settings, claim, s, result, s', ⟨hsha, huuid⟩, hprocess, _, hchunks, hdoc⟩ := hc
  obtain ⟨pages, dimension, hresult⟩ := process_chunks hprocess
  intro x hx
  rw [hchunks, hresult, chunk, List.mem_mapIdx] at hx
  obtain ⟨i, hi, rfl⟩ := hx
  show w.uuid5 _ = _
  rw [huuid, hsha, hdoc job hmem hid]
  rfl

theorem ContentStep.identified {h : Hashing} {call : IngestCall} {content : Content}
    (hs : ContentStep db call content) (hc : ChunksItsDocument h db call)
    (hids : Identified h db.content) : Identified h content := by
  -- most calls leave the rows alone or take some away
  have hsome : ∀ {p : Chunk → Bool}, content.chunks = deleteWhere p db.content.chunks →
      Identified h content := by
    intro p hchunks c hmem
    rw [hchunks] at hmem
    exact hids c (mem_deleteWhere.mp hmem).1
  have hnone : content.chunks = db.content.chunks → Identified h content := by
    intro hchunks c hmem
    rw [hchunks] at hmem
    exact hids c hmem
  cases hs with
  | same => exact hids
  | create hins =>
    obtain ⟨rfl, _⟩ := insertDocument_ok hins
    exact hnone rfl
  | delete => exact hsome rfl
  | rows => exact hnone rfl
  | progress => exact hnone rfl
  | @commit request job target document operations hmem hheld hshare hdoc hid =>
    intro c hc'
    rcases List.mem_append.mp hc' with hold | hnew
    · exact hids c (mem_deleteWhere.mp hold).1
    · obtain ⟨x, hx, rfl⟩ := List.mem_map.mp hnew
      have hjob : job.id = request.jobId := by
        simp only [holdsJobLease, decide_eq_true_eq] at hheld
        exact hheld.1
      exact payload_hasIdentity _ hc hmem hjob x hx
  | poison => exact hnone rfl
  | requeue => exact hsome rfl
  | start => exact hnone rfl
  | cancel => exact hnone rfl
  | retry operation =>
    refine hnone ?_
    unfold retriedWork
    split
    · rfl
    · rfl
  | cleanup => exact hsome rfl

/-- In every state the workers reach, the stored ids are those of the coordinates. -/
theorem identified_run {h : Hashing} {calls : List IngestCall}
    (hcalls : Along ingestStep (ChunksItsDocument h) db calls) (hinv : IngestInv db)
    (hids : Identified h db.content) :
    IngestInv (run ingestStep db calls) ∧ Identified h (run ingestStep db calls).content := by
  refine run_inv (fun db : Db => IngestInv db ∧ Identified h db.content) ?_ hcalls ⟨hinv, hids⟩
  intro db call hcall ⟨hinv, hids⟩
  have hstep := ingestStep_content hinv.tree hinv.versions.jobs call
  exact ⟨ingestInv_step hcall.fromWorker hinv, hstep.identified hcall hids⟩

/-! ## The commit of another generation -/

/-- The stored chunks of the target's document in its other generations. -/
def otherChunks (db : Db) (target : IngestTarget) : List Chunk :=
  db.content.chunks.filter fun c =>
    c.documentId = target.generation.documentId ∧ c.documentGenerationId ≠ target.generation.id

/-- The new chunk has the ordinal, the page, the text and the schema version of the
stored one. -/
def IsUnchanged (c : Chunk) (x : IngestedChunk) : Prop :=
  c.ordinal = x.ordinal ∧ c.pageStart = x.pageStart ∧ c.text = x.text ∧
    c.schemaVersion = x.schemaVersion

instance (c : Chunk) (x : IngestedChunk) : Decidable (IsUnchanged c x) :=
  inferInstanceAs (Decidable (_ ∧ _))

/-- What a commit that fails on the primary key of `chunks` ran into. -/
theorem v4CommitIngestionJob_pkey {request : IngestRequest} {job : IngestionJob}
    {target : IngestTarget} (hlock : lockIngestionJob db request = some job)
    (hshare : shareEmbedding db request job = .ok target)
    (h : v4CommitIngestionJob db request = .error (uniqueViolation "chunks_pkey")) :
    ¬ (request.chunks.map (·.id)).Nodup ∨
      ∃ c ∈ db.content.chunks, c.documentGenerationId ≠ target.generation.id ∧
        ∃ x ∈ request.chunks, c.id = x.id := by
  have hcheck : ∀ constraint, checkViolation constraint ≠ uniqueViolation "chunks_pkey" := by
    simp [checkViolation, uniqueViolation]
  simp only [v4CommitIngestionJob, hlock, hshare] at h
  split at h
  next e hstore =>
    obtain rfl := Except.error.inj h
    unfold storeIngestion at hstore
    split at hstore
    next e' hinsert =>
      obtain rfl := Except.error.inj hstore
      unfold insertChunks at hinsert
      dsimp only at hinsert
      split at hinsert
      · exact absurd (Except.error.inj hinsert) (hcheck _)
      split at hinsert
      next hdup =>
        rcases hdup with hdup | hshared
        · left
          rwa [List.map_map] at hdup
        · right
          simp only [List.any_eq_true, decide_eq_true_eq, List.mem_map] at hshared
          obtain ⟨c, hc, _, ⟨x, hx, rfl⟩, heq⟩ := hshared
          obtain ⟨hmem, hgen⟩ := mem_deleteWhere.mp hc
          exact ⟨c, hmem, by simpa using hgen, x, hx, heq⟩
      split at hinsert
      · exact absurd (Except.error.inj hinsert) (by decide)
      split at hinsert
      · exact absurd (Except.error.inj hinsert) (by decide)
      · cases hinsert
    next =>
      split at hstore
      · exact absurd (Except.error.inj hstore) (by decide)
      split at hstore
      next e' hcount =>
        obtain rfl := Except.error.inj hstore
        unfold countOperation at hcount
        split at hcount
        · cases hcount
        split at hcount
        · exact absurd (Except.error.inj hcount) (hcheck _)
        · cases hcount
      · cases hstore
  · cases h

section
variable {h : Hashing} {request : IngestRequest} {job : IngestionJob} {target : IngestTarget}

/-- The ids of a payload are its own, since its ordinals are. -/
theorem payload_nodup (hc : ChunksItsDocument h db (.job (.commit request)))
    (hmem : job ∈ db.content.jobs) (hid : job.id = request.jobId) :
    (request.chunks.map (·.id)).Nodup := by
  have hords : (request.chunks.map (·.ordinal)).Nodup := by
    obtain ⟨w, settings, claim, s, result, s', hprocess, _, hchunks⟩ := hc.fromWorker
    rw [hchunks, process_ordinals hprocess]
    exact List.nodup_range
  have hident := payload_hasIdentity job.targetGenerationId hc hmem hid
  refine List.Nodup.map_on (fun x hx y hy heq => ?_) hords.of_map
  have huuid : h.chunkUuid _ = h.chunkUuid _ :=
    (hident x hx).symm.trans (heq.trans (hident y hy))
  obtain ⟨_, hord, _⟩ := h.chunkUuid_inj.mp huuid
  exact List.inj_on_of_nodup_map hords hx hy hord

/-- A stored chunk has the id of a new one exactly if it is a chunk of the same
document which the new one leaves unchanged. -/
theorem id_eq_iff (hids : Identified h db.content)
    (hc : ChunksItsDocument h db (.job (.commit request))) (hmem : job ∈ db.content.jobs)
    (hid : job.id = request.jobId) {c : Chunk} (hchunk : c ∈ db.content.chunks)
    {x : IngestedChunk} (hx : x ∈ request.chunks) :
    c.id = x.id ↔ c.documentId = job.documentId ∧ IsUnchanged c x := by
  have hnew : x.id = h.chunkUuid (h.identityOf job.documentId x.ordinal x.pageStart x.text
      x.schemaVersion) :=
    payload_hasIdentity job.targetGenerationId hc hmem hid x hx
  rw [hids c hchunk, hnew]
  exact h.chunkUuid_inj

/-- The commit's chunks have ids of their own, and no primary key stands in its way,
exactly if it leaves no chunk of another generation unchanged; otherwise it raises. -/
theorem commit_pkey_iff (hids : Identified h db.content)
    (hc : ChunksItsDocument h db (.job (.commit request)))
    (hlock : lockIngestionJob db request = some job)
    (hshare : shareEmbedding db request job = .ok target) :
    (((∀ c ∈ otherChunks db target, ∀ x ∈ request.chunks, c.id ≠ x.id) ∧
        v4CommitIngestionJob db request ≠ .error (uniqueViolation "chunks_pkey")) ↔
      ∀ c ∈ otherChunks db target, ∀ x ∈ request.chunks, ¬ IsUnchanged c x) ∧
    ((∃ c ∈ otherChunks db target, ∃ x ∈ request.chunks, IsUnchanged c x) →
      ∃ e, v4CommitIngestionJob db request = .error e) := by
  obtain ⟨hmem, hheld, _⟩ := lockIngestionJob_some hlock
  have hjob : job.id = request.jobId := by
    simp only [holdsJobLease, decide_eq_true_eq] at hheld
    exact hheld.1
  obtain ⟨_, _, hdoc, _, _⟩ := shareEmbedding_ok hshare
  have hother : ∀ {c : Chunk}, c ∈ otherChunks db target ↔ c ∈ db.content.chunks ∧
      c.documentId = job.documentId ∧ c.documentGenerationId ≠ target.generation.id := by
    intro c
    rw [otherChunks, List.mem_filter, decide_eq_true_eq, hdoc]
  refine ⟨⟨?_, ?_⟩, ?_⟩
  · rintro ⟨hdisjoint, -⟩ c hmemc x hx hsame
    obtain ⟨hchunk, hcdoc, _⟩ := hother.mp hmemc
    exact hdisjoint c hmemc x hx ((id_eq_iff hids hc hmem hjob hchunk hx).mpr ⟨hcdoc, hsame⟩)
  · intro hchanged
    refine ⟨?_, ?_⟩
    · intro c hmemc x hx heq
      obtain ⟨hchunk, _, _⟩ := hother.mp hmemc
      exact hchanged c hmemc x hx ((id_eq_iff hids hc hmem hjob hchunk hx).mp heq).2
    · intro hpkey
      rcases v4CommitIngestionJob_pkey hlock hshare hpkey with hdup | ⟨c, hchunk, hgen, x, hx, heq⟩
      · exact hdup (payload_nodup hc hmem hjob)
      · obtain ⟨hcdoc, hsame⟩ := (id_eq_iff hids hc hmem hjob hchunk hx).mp heq
        exact hchanged c (hother.mpr ⟨hchunk, hcdoc, hgen⟩) x hx hsame
  · rintro ⟨c, hmemc, x, hx, hsame⟩
    obtain ⟨hchunk, hcdoc, hgen⟩ := hother.mp hmemc
    have hshared : c.id = x.id := (id_eq_iff hids hc hmem hjob hchunk hx).mpr ⟨hcdoc, hsame⟩
    cases hres : v4CommitIngestionJob db request with
    | error e => exact ⟨e, rfl⟩
    | ok res =>
      exfalso
      rcases v4CommitIngestionJob_ok hres with
        ⟨_, hfalse⟩ | ⟨job', target', _, _, hlock', hshare', _, _, _, _, hnew, _⟩
      · simp only [v4CommitIngestionJob, hlock, hshare] at hres
        split at hres
        · cases hres
        · rw [← Except.ok.inj hres] at hfalse
          cases hfalse
      · obtain rfl := Option.some.inj (hlock.symm.trans hlock')
        obtain rfl := Except.ok.inj (hshare.symm.trans hshare')
        exact hnew c hchunk hgen x hx hshared

end

/-- In every state the workers reach, the chunks of a new generation have ids that no
other generation of the document has, and its commit meets no primary key of `chunks`,
exactly if no chunk of another generation is left unchanged; if one is, the commit by
the lease holder raises. -/
theorem reingestion_ids {h : Hashing} (hfresh : Fresh db) {calls : List IngestCall}
    (hcalls : Along ingestStep (ChunksItsDocument h) db calls) {request : IngestRequest}
    (hc : ChunksItsDocument h (run ingestStep db calls) (.job (.commit request)))
    {job : IngestionJob} {target : IngestTarget}
    (hlock : lockIngestionJob (run ingestStep db calls) request = some job)
    (hshare : shareEmbedding (run ingestStep db calls) request job = .ok target) :
    (((∀ c ∈ otherChunks (run ingestStep db calls) target, ∀ x ∈ request.chunks, c.id ≠ x.id) ∧
        v4CommitIngestionJob (run ingestStep db calls) request ≠
          .error (uniqueViolation "chunks_pkey")) ↔
      ∀ c ∈ otherChunks (run ingestStep db calls) target, ∀ x ∈ request.chunks,
        ¬ IsUnchanged c x) ∧
    ((∃ c ∈ otherChunks (run ingestStep db calls) target, ∃ x ∈ request.chunks, IsUnchanged c x) →
      ∃ e, v4CommitIngestionJob (run ingestStep db calls) request = .error e) := by
  have hids : Identified h db.content := by
    intro c hmem
    rw [hfresh.content] at hmem
    cases hmem
  obtain ⟨_, hids⟩ := identified_run hcalls (ingestInv_fresh hfresh) hids
  exact commit_pkey_iff hids hc hlock hshare

/-! ## A page that did not change -/

/-- A text as one number: its characters are the digits. -/
def textCode : List Char → Nat
  | [] => 0
  | c :: cs => c.toNat + 1 + 4294967297 * textCode cs

theorem textCode_injective : Function.Injective textCode := by
  intro s
  induction s with
  | nil =>
    intro t h
    cases t with
    | nil => rfl
    | cons d t => simp only [textCode] at h; omega
  | cons c s ih =>
    intro t h
    cases t with
    | nil => simp only [textCode] at h; omega
    | cons d t =>
      simp only [textCode] at h
      have hc : c.toNat < 4294967296 := c.val.toNat_lt
      have hd : d.toNat < 4294967296 := d.val.toNat_lt
      have hhead : c.toNat = d.toNat := by omega
      have htail : textCode s = textCode t := by omega
      rw [Char.toNat_inj.mp hhead, ih htail]

/-- Hash functions without a collision. -/
def sampleHashing : Hashing where
  uuidText := Nat.toDigits 10
  digestText := Nat.toDigits 10
  sha256 text := textCode text.toList
  uuid5 := textCode
  uuidText_injective _ _ := toDigits_injective
  uuidText_plain := colon_not_mem_toDigits
  digestText_injective _ _ := toDigits_injective
  digestText_plain := colon_not_mem_toDigits
  sha256_injective _ _ h := String.toList_inj.mp (textCode_injective h)
  uuid5_injective := textCode_injective

/-- The sample document with these texts on its pages. -/
def hashedWorld (texts : List String) : World :=
  { sampleWorld with
    reader := some (texts.map fun text => ⟨text, .direct⟩)
    sha256Text := sampleHashing.sha256Text
    uuid5 := sampleHashing.chunkUuid }

/-- The sample settings for the parser a reingestion targets. -/
def reingestSettings : ProcessorSettings :=
  { sampleSettings with
    parserVersion := "pypdf+paddleocr-vl-v1.6-adaptive-v2"
    chunkingVersion := "fragment-paragraph-sentence-v2" }

/-- The chunks a worker makes of these pages. -/
def pageChunks (texts : List String) (settings : ProcessorSettings) (claim : JobClaim) :
    List IngestedChunk :=
  chunk (hashedWorld texts) settings
    (texts.mapIdx fun i text => ⟨i + 1, text, .direct, .direct, []⟩)
    claim.documentId claim.sha256 fun _ => 8

/-- The lease of the reingestion's job. -/
def secondClaim : JobClaim :=
  { sampleClaim 1 with
    jobId := 45
    leaseToken := 102
    parserVersion := reingestSettings.parserVersion
    chunkingVersion := reingestSettings.chunkingVersion }

/-- What a worker commits under this claim when it finds these pages. -/
def pageCommit (texts : List String) (settings : ProcessorSettings) (claim : JobClaim) :
    IngestRequest :=
  ⟨claim.jobId, claim.leaseToken, claim.fencingToken, texts.length,
    pageChunks texts settings claim⟩

/-- A document of one page "a" is ingested, and a worker claims its reingestion. -/
def reclaimedCalls : List IngestCall :=
  [.library (.uploadPreflight (some (.digest 1)) 20 (sampleUpload 7 none "a.pdf")),
    .library (.commitUpload (some (.digest 1)) 20 ⟨30, 31, 32, 33, 34⟩
      (sampleUpload 7 none "a.pdf")),
    .job (.claim "a" 60 101 []),
    .job (.commit (pageCommit ["a"] sampleSettings (sampleClaim 1)))] ++ reingestCalls

/-- The commit is the one of a processor that read these pages. -/
theorem pageCommit_chunks {texts : List String} {settings : ProcessorSettings} {claim : JobClaim}
    (hprocess : (process (hashedWorld texts) settings claim Reports.start).1 =
      .ok ⟨texts.length, pageChunks texts settings claim⟩)
    (hjobs : ∀ job ∈ db.content.jobs, job.id = claim.jobId → claim.documentId = job.documentId) :
    ChunksItsDocument sampleHashing db (.job (.commit (pageCommit texts settings claim))) :=
  ⟨hashedWorld texts, settings, claim, Reports.start, _, _, ⟨rfl, rfl⟩, Prod.ext hprocess rfl, rfl,
    rfl, hjobs⟩

theorem along_reclaimedCalls :
    Along ingestStep (ChunksItsDocument sampleHashing) backedUpDb reclaimedCalls := by
  refine ⟨trivial, trivial, trivial, ?_, trivial, trivial, trivial, trivial, trivial⟩
  exact pageCommit_chunks (by rfl) (by decide +kernel)

/-- The reingestion finds page "a" as it was and a second page: its commit fails on the
primary key of `chunks`. -/
theorem unchanged_page_refused :
    Fresh backedUpDb ∧
    Along ingestStep (ChunksItsDocument sampleHashing) backedUpDb reclaimedCalls ∧
    ChunksItsDocument sampleHashing (run ingestStep backedUpDb reclaimedCalls)
      (.job (.commit (pageCommit ["a", "c"] reingestSettings secondClaim))) ∧
    (lockIngestionJob (run ingestStep backedUpDb reclaimedCalls)
      (pageCommit ["a", "c"] reingestSettings secondClaim)).isSome = true ∧
    v4CommitIngestionJob (run ingestStep backedUpDb reclaimedCalls)
      (pageCommit ["a", "c"] reingestSettings secondClaim) =
        .error (uniqueViolation "chunks_pkey") :=
  ⟨fresh_backedUpDb, along_reclaimedCalls, pageCommit_chunks (by rfl) (by decide +kernel),
    by decide +kernel, by decide +kernel⟩

/-- Where page "a" has moved behind a new first page, no chunk is left unchanged, and
the ids are new. -/
theorem reingestion_ids_moved :
    ∃ job target,
      lockIngestionJob (run ingestStep backedUpDb reclaimedCalls)
        (pageCommit ["c", "a"] reingestSettings secondClaim) = some job ∧
      shareEmbedding (run ingestStep backedUpDb reclaimedCalls)
        (pageCommit ["c", "a"] reingestSettings secondClaim) job = .ok target ∧
      otherChunks (run ingestStep backedUpDb reclaimedCalls) target ≠ [] ∧
      ∀ c ∈ otherChunks (run ingestStep backedUpDb reclaimedCalls) target,
        ∀ x ∈ (pageCommit ["c", "a"] reingestSettings secondClaim).chunks, c.id ≠ x.id := by
  have hc : ChunksItsDocument sampleHashing (run ingestStep backedUpDb reclaimedCalls)
      (.job (.commit (pageCommit ["c", "a"] reingestSettings secondClaim))) :=
    pageCommit_chunks (by rfl) (by decide +kernel)
  have hrows : ∃ job ∈ (run ingestStep backedUpDb reclaimedCalls).content.jobs,
      ∃ generation ∈ (run ingestStep backedUpDb reclaimedCalls).content.generations,
      ∃ embedding ∈ (run ingestStep backedUpDb reclaimedCalls).reprocessing.embeddingGenerations,
      lockIngestionJob (run ingestStep backedUpDb reclaimedCalls)
        (pageCommit ["c", "a"] reingestSettings secondClaim) = some job ∧
      shareEmbedding (run ingestStep backedUpDb reclaimedCalls)
        (pageCommit ["c", "a"] reingestSettings secondClaim) job = .ok ⟨generation, embedding⟩ ∧
      otherChunks (run ingestStep backedUpDb reclaimedCalls) ⟨generation, embedding⟩ ≠ [] ∧
      ∀ c ∈ otherChunks (run ingestStep backedUpDb reclaimedCalls) ⟨generation, embedding⟩,
        ∀ x ∈ (pageCommit ["c", "a"] reingestSettings secondClaim).chunks, ¬ IsUnchanged c x := by
    decide +kernel
  obtain ⟨job, _, generation, _, embedding, _, hlock, hshare, hsome, hchanged⟩ := hrows
  have hids := reingestion_ids fresh_backedUpDb along_reclaimedCalls hc hlock hshare
  exact ⟨job, _, hlock, hshare, hsome, (hids.1.mpr hchanged).1⟩

end LocalRag.Ingest
