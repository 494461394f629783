import LocalRag.Chat.Index
import LocalRag.Search.Lexical

/-!
# Nearest — what the vector query returns of what is served

`v10_retrieve_active_chunks` joins the vectors of the active embedding generation to the
chunks that are served. In a run whose rollbacks `Chat.covers` every served chunk has such a
vector, of the dimension the query compares with, so the query ranks all the session may
read: what it leaves out is left out for the limit, and is no nearer.
-/

namespace LocalRag.Search

open LocalRag.Core Access Library Ingest Chat

section Nearest

variable {δ : Type} [LinearOrder δ]

/-- `ORDER BY distance, chunk.id`. -/
def NoFarther (a b : ChunkId × δ) : Prop := a.2 < b.2 ∨ a.2 = b.2 ∧ a.1 ≤ b.1

instance : DecidableRel (NoFarther (δ := δ)) := fun a b =>
  inferInstanceAs (Decidable (a.2 < b.2 ∨ a.2 = b.2 ∧ a.1 ≤ b.1))

instance : Std.Total (NoFarther (δ := δ)) where
  total a b := by
    unfold NoFarther
    grind

instance : IsTrans (ChunkId × δ) NoFarther where
  trans a b c hab hbc := by
    unfold NoFarther at *
    grind

variable {db : Db} {token : Option HexText} {distance : ChunkEmbedding → δ} {limit : Int}
  {dimension : Nat} {documentIds : Option (List DocumentId)} {rows : List (ChunkId × δ)}

/-- A chunk of these documents, served to the session. -/
def Offered (db : Db) (token : Option HexText) (documentIds : Option (List DocumentId))
    (c : Chunk) : Prop :=
  c ∈ db.content.chunks ∧ isServed db token c = true ∧
    documentIds.all (fun ids => c.documentId ∈ ids) = true

/-- The chunk's vector in the active embedding generation. -/
def IsVector (db : Db) (c : Chunk) (e : ChunkEmbedding) : Prop :=
  e ∈ vectors db ∧ e.embeddingGenerationId = activeId db ∧
    e.chunkId = c.id

/-- The rows are the nearest of the chunks that are offered. -/
structure Nearest (db : Db) (token : Option HexText) (distance : ChunkEmbedding → δ) (limit : Int)
    (documentIds : Option (List DocumentId)) (rows : List (ChunkId × δ)) : Prop where
  distinct : (rows.map (·.1)).Nodup
  bounded : rows.length ≤ limit.toNat
  ordered : rows.Pairwise NoFarther
  /-- A row is an offered chunk, and how far its vector is. -/
  offered : ∀ row ∈ rows, ∃ c e, Offered db token documentIds c ∧ IsVector db c e ∧
    row = (c.id, distance e)
  /-- An offered chunk that is left out is no nearer than any row, and there is no room. -/
  complete : ∀ c, Offered db token documentIds c → (∃ row ∈ rows, row.1 = c.id) ∨
    rows.length = limit.toNat ∧ ∃ e, IsVector db c e ∧
      ∀ row ∈ rows, NoFarther row (c.id, distance e)

theorem mem_retrievalCandidates {p : ChunkEmbedding × Chunk} :
    p ∈ retrievalCandidates db token dimension documentIds ↔
      Offered db token documentIds p.2 ∧ IsVector db p.2 p.1 ∧ p.1.dimension = dimension := by
  simp only [retrievalCandidates, List.mem_flatMap, List.mem_filter, List.mem_map,
    decide_eq_true_eq]
  constructor
  · intro h
    obtain ⟨e, ⟨he, hgen, hdim⟩, c, ⟨hc, hid, hserved, hids⟩, rfl⟩ := h
    exact ⟨⟨hc, hserved, hids⟩, ⟨he, hgen, hid.symm⟩, hdim⟩
  · intro h
    obtain ⟨⟨hc, hserved, hids⟩, ⟨he, hgen, hid⟩, hdim⟩ := h
    exact ⟨p.1, ⟨he, hgen, hdim⟩, p.2, ⟨hc, hid.symm, hserved, hids⟩, rfl⟩

/-- The rows before `ORDER BY` and `LIMIT`. -/
def found (db : Db) (token : Option HexText) (distance : ChunkEmbedding → δ) (dimension : Nat)
    (documentIds : Option (List DocumentId)) : List (ChunkId × δ) :=
  (retrievalCandidates db token dimension documentIds).map fun p => (p.2.id, distance p.1)

theorem v10RetrieveActiveChunks_ok
    (h : v10RetrieveActiveChunks db token dimension distance limit documentIds = .ok rows) :
    ∃ active, activeEmbedding db = some active ∧ rows =
      ((found db token distance active.dimension documentIds).insertionSort NoFarther).take
        limit.toNat := by
  unfold v10RetrieveActiveChunks at h
  split at h
  · cases h
  split at h
  · cases h
  next active hactive =>
    split at h
    · cases h
    split at h
    · cases h
    · exact ⟨active, hactive, (Except.ok.inj h).symm⟩

omit [LinearOrder δ] in
/-- A chunk is found by one vector. -/
theorem nodup_found (h : Indexed db) :
    ((found db token distance dimension documentIds).map (·.1)).Nodup := by
  have hkeys : (vectors db).Pairwise fun a b => vectorKey a ≠ vectorKey b :=
    List.pairwise_map.mp h.keys
  rw [found, List.map_map, retrievalCandidates, List.map_flatMap, List.nodup_flatMap]
  refine ⟨fun e _ => ?_, (hkeys.filter _).imp_of_mem fun ha hb hne i hi hj => hne ?_⟩
  · rw [List.map_map]
    exact h.chunks.filter _
  · simp only [List.mem_filter, List.mem_map, decide_eq_true_eq] at ha hb hi hj
    grind [vectorKey]

/-- Where every served chunk has its vector, the query returns the nearest. -/
theorem nearest_of_inv (hinv : IndexInv db) (hfindable : Findable db)
    (h : v10RetrieveActiveChunks db token dimension distance limit documentIds = .ok rows) :
    Nearest db token distance limit documentIds rows := by
  obtain ⟨active, hactive, rfl⟩ := v10RetrieveActiveChunks_ok h
  have hnear := take_insertionSort NoFarther
    (found db token distance active.dimension documentIds) limit.toNat
  have hdistinct : (((found db token distance active.dimension documentIds).insertionSort
      NoFarther).map (·.1)).Nodup :=
    ((List.perm_insertionSort _ _).map _).nodup_iff.mpr (nodup_found hinv.indexed)
  refine ⟨hdistinct.sublist ((List.take_sublist _ _).map _), List.length_take_le _ _, hnear.1,
    fun row hrow => ?_, fun c hoffered => ?_⟩
  · obtain ⟨p, hp, rfl⟩ := List.mem_map.mp (hnear.2.1 hrow)
    obtain ⟨hoffered, hvector, -⟩ := mem_retrievalCandidates.mp hp
    exact ⟨p.2, p.1, hoffered, hvector, rfl⟩
  · obtain ⟨hmem, hserved, -⟩ := id hoffered
    obtain ⟨d, hd, hrow⟩ := List.any_eq_true.mp hserved
    obtain ⟨-, hgen, hready, -⟩ := of_decide_eq_true hrow
    obtain ⟨e, he, hof, hid⟩ := hfindable c (mem_servedChunks.mpr ⟨hmem, d, hd, hready, hgen⟩)
    -- the vector and the active generation are of one size
    obtain ⟨g, hg, hsize⟩ := List.mem_map.mp (hinv.sized e he)
    obtain ⟨hgid, hdim⟩ := Prod.mk.inj hsize
    have hact := List.find?_some hactive
    obtain rfl := (EmbeddingInv.generations hinv.embeddings).eq hg
      (List.mem_of_find?_eq_some hactive) (hgid.trans (hof.trans (of_decide_eq_true hact).symm))
    have hvector : IsVector db c e := ⟨he, hof, hid⟩
    have hcandidate := mem_retrievalCandidates (p := (e, c)).mpr ⟨hoffered, hvector, hdim.symm⟩
    exact (hnear.2.2 _ (List.mem_map_of_mem hcandidate)).imp (fun hrow => ⟨_, hrow, rfl⟩)
      fun hfar => ⟨hfar.1, e, hvector, hfar.2⟩

end Nearest

end LocalRag.Search
