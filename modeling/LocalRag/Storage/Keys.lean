import LocalRag.Storage.Steps

/-!
# Who holds an object key

Objects are content addressed: the same key is reserved, referenced by a
document, queued for deletion and uploaded again, by functions that only see
rows. `KeyInv` says that at any time at most one of them has it: a document
(and then every reservation of the key is spent), one open reservation, or an
outbox row (and then there is no document and no reservation still running).

The unique constraints give the rest: one document and one outbox row per key.
`keyInv_step` needs no condition on the calls.
-/

namespace LocalRag.Storage

open LocalRag.Core Access Library

structure KeyInv (db : Db) : Prop where
  placed : ∀ d ∈ db.content.documents, ∃ n ∈ db.library.nodes, n.documentId = some d.id
  documentKeys : Keyed (·.objectKey) db.content.documents
  addressed : ∀ d ∈ db.content.documents, d.objectKey = canonicalObjectKey d.sha256
  reservationIds : Keyed (·.id) db.storage.reservations
  oneOpen : ∀ a ∈ db.storage.reservations, ∀ b ∈ db.storage.reservations,
    a.objectKey = b.objectKey → a.consumedAt = none → b.consumedAt = none → a.id = b.id
  spent : ∀ d ∈ db.content.documents, ∀ r ∈ db.storage.reservations,
    r.objectKey = d.objectKey → r.consumedAt ≠ none
  deletionIds : Keyed (·.id) db.storage.deletions
  deletionKeys : Keyed (·.objectKey) db.storage.deletions
  noDocument : ∀ o ∈ db.storage.deletions, ∀ d ∈ db.content.documents,
    d.objectKey ≠ o.objectKey
  noReservation : ∀ o ∈ db.storage.deletions, ∀ r ∈ db.storage.reservations,
    r.objectKey = o.objectKey → r.consumedAt = none → r.expiresAt ≤ db.now

variable {db : Db}

theorem keyInv_installed (h : Installed db) : KeyInv db := by
  constructor <;> simp [h.documents, h.reservations, h.deletions, Keyed.nil]

theorem canonicalObjectKey_inj {a b : HexText} (ha : a.wellFormed = true)
    (h : canonicalObjectKey a = canonicalObjectKey b) : a = b := by
  cases a with
  | other text => exact absurd ha (by simp [HexText.wellFormed])
  | digest n =>
    cases b with
    | other text => exact absurd h (by simp [canonicalObjectKey])
    | digest m => rw [show n = m by simpa [canonicalObjectKey] using h]

theorem wellFormed_of_valid {request : UploadRequest} (h : isInvalidUpload request = false) :
    request.sha256.wellFormed = true ∧
      request.objectKey = canonicalObjectKey request.sha256 := by
  simp only [isInvalidUpload, decide_eq_false_iff_not, not_or, Decidable.not_not] at h
  exact ⟨by simpa using h.1, h.2.1⟩

/-- A document with the content would have been found. -/
theorem KeyInv.no_document_of_new (h : KeyInv db) {request : UploadRequest}
    (hvalid : isInvalidUpload request = false) (hnew : existingUpload db request.sha256 = none) :
    ∀ d ∈ db.content.documents, d.objectKey ≠ request.objectKey := by
  intro d hd hkey
  obtain ⟨hwf, hcanon⟩ := wellFormed_of_valid hvalid
  have hsha : request.sha256 = d.sha256 :=
    canonicalObjectKey_inj hwf (by rw [← hcanon, ← hkey, h.addressed d hd])
  obtain ⟨n, hn, hnd⟩ := h.placed d hd
  unfold existingUpload at hnew
  rw [List.findSome?_eq_none_iff] at hnew
  have hnone := hnew d hd
  rw [if_pos hsha.symm, Option.map_eq_none_iff, List.find?_eq_none] at hnone
  exact hnone n hn (by simpa using hnd)

/-! ## Reservations -/

/-- Reservations are only ever closed: same ids, keys and expiry, and an open one
was open before. -/
structure Closes (before after : List UploadReservation) : Prop where
  ids : after.map (·.id) = before.map (·.id)
  kept : ∀ r ∈ before, ∃ r' ∈ after, r'.id = r.id ∧ r'.objectKey = r.objectKey
  source : ∀ r ∈ after, ∃ r₀ ∈ before, r₀.id = r.id ∧ r₀.objectKey = r.objectKey ∧
    r₀.expiresAt = r.expiresAt ∧ (r.consumedAt = none → r₀.consumedAt = none)

theorem closes_updateWhere {p : UploadReservation → Bool}
    {f : UploadReservation → UploadReservation} (hid : ∀ r, (f r).id = r.id)
    (hkey : ∀ r, (f r).objectKey = r.objectKey) (hexp : ∀ r, (f r).expiresAt = r.expiresAt)
    (hclosed : ∀ r, (f r).consumedAt ≠ none) (t : List UploadReservation) :
    Closes t (updateWhere p f t) where
  ids := map_updateWhere hid t
  kept := by
    intro r hr
    refine ⟨_, mem_updateWhere.mpr ⟨r, hr, rfl⟩, ?_⟩
    split
    · exact ⟨hid r, hkey r⟩
    · exact ⟨rfl, rfl⟩
  source := by
    intro r hr
    obtain ⟨r₀, hr₀, rfl⟩ := mem_updateWhere.mp hr
    refine ⟨r₀, hr₀, ?_⟩
    split
    · exact ⟨(hid r₀).symm, (hkey r₀).symm, (hexp r₀).symm, fun hc => absurd hc (hclosed r₀)⟩
    · exact ⟨rfl, rfl, rfl, id⟩

theorem closes_expireReservationsOf (db : Db) (key : ObjectKey) :
    Closes db.storage.reservations (expireReservationsOf db key).storage.reservations :=
  closes_updateWhere (f := expiredReservation db.now) (fun _ => rfl) (fun _ => rfl) (fun _ => rfl)
    (fun _ => by simp [expiredReservation]) _

theorem closes_expireReservations (db : Db) :
    Closes db.storage.reservations (expireReservations db).storage.reservations :=
  closes_updateWhere (f := expiredReservation db.now) (fun _ => rfl) (fun _ => rfl) (fun _ => rfl)
    (fun _ => by simp [expiredReservation]) _

theorem closes_consumeReservation (db : Db) (reservationId : ReservationId)
    (outcome : ReservationOutcome) : Closes db.storage.reservations
      (consumeReservation db reservationId outcome).storage.reservations :=
  closes_updateWhere
    (f := fun r => { r with consumedAt := some db.now, outcome := some outcome })
    (fun _ => rfl) (fun _ => rfl) (fun _ => rfl) (fun _ => by simp) _

/-- Closing reservations takes no key from anybody. -/
theorem KeyInv.close (h : KeyInv db) {reservations : List UploadReservation}
    (hc : Closes db.storage.reservations reservations) :
    KeyInv { db with storage.reservations := reservations } where
  placed := h.placed
  documentKeys := h.documentKeys
  addressed := h.addressed
  reservationIds := by
    unfold Keyed
    rw [show (List.map (·.id) reservations) = _ from hc.ids]
    exact h.reservationIds
  oneOpen := by
    intro a ha b hb hkey hao hbo
    obtain ⟨a₀, ha₀, haid, hakey, _, ha'⟩ := hc.source a ha
    obtain ⟨b₀, hb₀, hbid, hbkey, _, hb'⟩ := hc.source b hb
    rw [← haid, ← hbid]
    exact h.oneOpen a₀ ha₀ b₀ hb₀ (by rw [hakey, hbkey, hkey]) (ha' hao) (hb' hbo)
  spent := by
    intro d hd r hr hkey hopen
    obtain ⟨r₀, hr₀, _, hrkey, _, hr'⟩ := hc.source r hr
    exact h.spent d hd r₀ hr₀ (hrkey.trans hkey) (hr' hopen)
  deletionIds := h.deletionIds
  deletionKeys := h.deletionKeys
  noDocument := h.noDocument
  noReservation := by
    intro o ho r hr hkey hopen
    obtain ⟨r₀, hr₀, _, hrkey, hexp, hr'⟩ := hc.source r hr
    rw [← hexp]
    exact h.noReservation o ho r₀ hr₀ (hrkey.trans hkey) (hr' hopen)

/-- A reservation of a key nobody holds. -/
theorem KeyInv.reserve {db : Db} (h : KeyInv db) {actor : UserId}
    {reservationId : ReservationId} {request : UploadRequest}
    (hfresh : ReservedFresh db reservationId request) :
    KeyInv { db with
      storage.reservations := db.storage.reservations ++
        [newReservation db actor reservationId request] } := by
  have hmem : ∀ r ∈ db.storage.reservations ++ [newReservation db actor reservationId request],
      r ∈ db.storage.reservations ∨ r = newReservation db actor reservationId request := by
    intro r hr
    simpa using hr
  have hnotPending : ∀ o ∈ db.storage.deletions, request.objectKey ≠ o.objectKey := by
    intro o ho he
    have := hfresh.notPending
    rw [isPendingDeletion, List.any_eq_false] at this
    exact this o ho (by simpa using he.symm)
  refine ⟨h.placed, h.documentKeys, h.addressed, h.reservationIds.append hfresh.freshId, ?_, ?_,
    h.deletionIds, h.deletionKeys, h.noDocument, ?_⟩
  · intro a ha b hb hkey hao hbo
    rcases hmem a ha with ha | rfl <;> rcases hmem b hb with hb | rfl
    · exact h.oneOpen a ha b hb hkey hao hbo
    · exact absurd hao (hfresh.noOpen a ha hkey)
    · exact absurd hbo (hfresh.noOpen b hb hkey.symm)
    · rfl
  · intro d hd r hr hkey
    rcases hmem r hr with hr | rfl
    · exact h.spent d hd r hr hkey
    · exact absurd hkey.symm (h.no_document_of_new hfresh.valid hfresh.noDocument d hd)
  · intro o ho r hr hkey hopen
    rcases hmem r hr with hr | rfl
    · exact h.noReservation o ho r hr hkey hopen
    · exact absurd hkey (hnotPending o ho)

/-! ## The outbox -/

/-- A change of outbox rows that keeps their keys. -/
theorem KeyInv.outbox (h : KeyInv db) {deletions : List ObjectDeletion}
    (hids : Keyed (·.id) deletions) (hkeys : Keyed (·.objectKey) deletions)
    (hsource : ∀ o ∈ deletions, ∃ o₀ ∈ db.storage.deletions, o₀.objectKey = o.objectKey) :
    KeyInv { db with storage.deletions := deletions } where
  placed := h.placed
  documentKeys := h.documentKeys
  addressed := h.addressed
  reservationIds := h.reservationIds
  oneOpen := h.oneOpen
  spent := h.spent
  deletionIds := hids
  deletionKeys := hkeys
  noDocument := by
    intro o ho d hd
    obtain ⟨o₀, ho₀, hkey⟩ := hsource o ho
    rw [← hkey]
    exact h.noDocument o₀ ho₀ d hd
  noReservation := by
    intro o ho r hr hrkey
    obtain ⟨o₀, ho₀, hkey⟩ := hsource o ho
    exact h.noReservation o₀ ho₀ r hr (hrkey.trans hkey.symm)

theorem KeyInv.outbox_update (h : KeyInv db) {p : ObjectDeletion → Bool}
    {f : ObjectDeletion → ObjectDeletion} (hid : ∀ o, (f o).id = o.id)
    (hkey : ∀ o, (f o).objectKey = o.objectKey) :
    KeyInv { db with storage.deletions := updateWhere p f db.storage.deletions } := by
  refine h.outbox (h.deletionIds.updateWhere hid) (h.deletionKeys.updateWhere hkey) ?_
  intro o ho
  obtain ⟨o₀, ho₀, rfl⟩ := mem_updateWhere.mp ho
  refine ⟨o₀, ho₀, ?_⟩
  split
  · exact (hkey o₀).symm
  · rfl

/-- New rows for keys that have no document, no row and no running reservation. -/
theorem KeyInv.queue (h : KeyInv db) {rows : List ObjectDeletion} (hids : Keyed (·.id) rows)
    (hkeys : Keyed (·.objectKey) rows)
    (hfreshIds : ∀ o ∈ db.storage.deletions, ∀ o' ∈ rows, o.id ≠ o'.id)
    (hfreshKeys : ∀ o ∈ db.storage.deletions, ∀ o' ∈ rows, o.objectKey ≠ o'.objectKey)
    (hdoc : ∀ o ∈ rows, ∀ d ∈ db.content.documents, d.objectKey ≠ o.objectKey)
    (hres : ∀ o ∈ rows, ∀ r ∈ db.storage.reservations, r.objectKey = o.objectKey →
      r.consumedAt = none → r.expiresAt ≤ db.now) :
    KeyInv { db with storage.deletions := db.storage.deletions ++ rows } where
  placed := h.placed
  documentKeys := h.documentKeys
  addressed := h.addressed
  reservationIds := h.reservationIds
  oneOpen := h.oneOpen
  spent := h.spent
  deletionIds := h.deletionIds.appendAll hids hfreshIds
  deletionKeys := h.deletionKeys.appendAll hkeys hfreshKeys
  noDocument := by
    intro o ho d hd
    rcases List.mem_append.mp ho with ho | ho
    · exact h.noDocument o ho d hd
    · exact hdoc o ho d hd
  noReservation := by
    intro o ho r hr
    rcases List.mem_append.mp ho with ho | ho
    · exact h.noReservation o ho r hr
    · exact hres o ho r hr

theorem orphanDeletions_keys (db : Db) (grace : Time) (deletionId : DeletionId) :
    (orphanDeletions db grace deletionId).map (·.objectKey) = orphanKeys db grace := by
  refine List.ext_getElem (by simp [orphanDeletions]) fun i h₁ h₂ => ?_
  simp [orphanDeletions, newDeletion]

theorem orphanDeletions_ids (db : Db) (grace : Time) (deletionId : DeletionId) :
    Keyed (·.id) (orphanDeletions db grace deletionId) := by
  unfold Keyed
  rw [List.nodup_iff_pairwise_ne, List.pairwise_iff_getElem]
  intro i j hi hj hij he
  simp only [orphanDeletions, newDeletion, List.getElem_map, List.getElem_mapIdx] at he
  exact absurd (Nat.add_left_cancel he) (Nat.ne_of_lt hij)

/-- An orphan has no document, no running reservation and no outbox row. -/
theorem mem_orphanDeletions {grace : Time} {deletionId : DeletionId} {o : ObjectDeletion}
    (h : o ∈ orphanDeletions db grace deletionId) :
    hasDocument db o.objectKey = false ∧ hasActiveReservation db o.objectKey = false ∧
      isPendingDeletion db o.objectKey = false := by
  have hkey : o.objectKey ∈ orphanKeys db grace := by
    rw [← orphanDeletions_keys db grace deletionId]
    exact List.mem_map_of_mem h
  have hcond := (List.mem_filter.mp hkey).2
  simpa using hcond

/-- The sweep queues keys that nobody holds. -/
theorem KeyInv.sweep (h : KeyInv db) {deletionId : DeletionId} {grace : Time}
    (hids : ∀ o ∈ db.storage.deletions,
      ∀ o' ∈ orphanDeletions (expireReservations db) grace deletionId, o.id ≠ o'.id) :
    KeyInv { expireReservations db with
      storage.deletions := db.storage.deletions ++
        orphanDeletions (expireReservations db) grace deletionId } := by
  have hexp := h.close (closes_expireReservations db)
  refine hexp.queue (orphanDeletions_ids _ _ _) ?_ hids ?_ ?_ ?_
  · unfold Keyed
    rw [orphanDeletions_keys]
    exact (List.nodup_dedup _).filter _
  · intro o ho o' ho' hkey
    have hpending := (mem_orphanDeletions ho').2.2
    rw [isPendingDeletion, List.any_eq_false] at hpending
    exact hpending o ho (by simpa using hkey)
  · intro o ho d hd hkey
    have hdoc := (mem_orphanDeletions ho).1
    rw [hasDocument, List.any_eq_false] at hdoc
    exact hdoc d hd (by simpa using hkey)
  · intro o ho r hr hkey hopen
    have hres := (mem_orphanDeletions ho).2.1
    rw [hasActiveReservation, List.any_eq_false] at hres
    have hnot := hres r hr
    simp only [isActiveReservation, hkey, hopen, true_and, decide_eq_true_eq] at hnot
    exact Nat.not_lt.mp hnot

/-! ## Documents -/

/-- A new document takes the key over from the reservation it was made under. -/
theorem KeyInv.create {db : Db} (h : KeyInv db) {actor : UserId}
    {reservationId : ReservationId} {ids : CommitIds} {request : UploadRequest}
    {reservation : UploadReservation} {content : Content} {nodes : List LibraryNode}
    (hunder : CommittedUnder db actor reservationId request reservation)
    (hdoc : insertDocument db ids request = .ok content)
    (hnode : insertNode db.library.nodes (fileNode actor ids request) = .ok nodes) :
    KeyInv (createdDb db actor reservationId ids request content nodes) := by
  obtain ⟨rfl, _⟩ := insertNode_ok hnode
  obtain ⟨rfl, _, hkey, _⟩ := insertDocument_ok hdoc
  have hlive := hunder.live
  simp only [reservationMatches, decide_eq_true_eq] at hlive
  have hclosed := h.close (closes_consumeReservation db reservationId .created)
  have hmem : ∀ d ∈ db.content.documents ++ [uploadedDocument ids request],
      d ∈ db.content.documents ∨ d = uploadedDocument ids request := by
    intro d hd
    simpa using hd
  refine ⟨?_, h.documentKeys.append hkey, ?_, hclosed.reservationIds, hclosed.oneOpen, ?_,
    h.deletionIds, h.deletionKeys, ?_, hclosed.noReservation⟩
  · intro d hd
    rcases hmem d hd with hd | rfl
    · obtain ⟨n, hn, hnd⟩ := h.placed d hd
      exact ⟨n, List.mem_append_left _ hn, hnd⟩
    · exact ⟨fileNode actor ids request, List.mem_append_right _ (by simp), rfl⟩
  · intro d hd
    rcases hmem d hd with hd | rfl
    · exact h.addressed d hd
    · exact (wellFormed_of_valid hunder.valid).2
  · intro d hd r hr hrkey
    rcases hmem d hd with hd | rfl
    · exact hclosed.spent d hd r hr hrkey
    · -- the only open reservation of the key is the one being spent
      obtain ⟨r₀, hr₀, rfl⟩ := mem_updateWhere.mp hr
      by_cases hid : r₀.id = reservationId
      · rw [if_pos (by simpa using hid)]
        simp
      · rw [if_neg (by simpa using hid)] at hrkey ⊢
        intro hopen
        have hsame := h.oneOpen r₀ hr₀ reservation hunder.mem
          (hrkey.trans hlive.2.2.2.2.1.symm) hopen hlive.2.1
        exact hid (hsame.trans hunder.id)
  · intro o ho d hd hdo
    rcases hmem d hd with hd | rfl
    · exact h.noDocument o ho d hd hdo
    · have hpending := hunder.notPending
      rw [isPendingDeletion, List.any_eq_false] at hpending
      exact hpending o ho (decide_eq_true hdo.symm)

/-- A deleted document leaves its key to the outbox. -/
theorem KeyInv.delete {db : Db} (h : KeyInv db) (htree : TreeInv db.library.nodes)
    {document : Document} {node : LibraryNode} {deletionId : DeletionId}
    (hmem : document ∈ db.content.documents) (hnode : node ∈ db.library.nodes)
    (hat : node.documentId = some document.id)
    (hfreshId : ∀ o ∈ db.storage.deletions, o.id ≠ deletionId)
    (hfree : isPendingDeletion db document.objectKey = false) :
    KeyInv (deletedDb db document node deletionId) := by
  have hrow : ∀ o ∈ db.storage.deletions ++ [newDeletion db.now deletionId document.objectKey],
      o ∈ db.storage.deletions ∨ o = newDeletion db.now deletionId document.objectKey := by
    intro o ho
    simpa using ho
  refine ⟨?_, h.documentKeys.deleteWhere _, ?_, h.reservationIds, h.oneOpen, ?_,
    h.deletionIds.append hfreshId, h.deletionKeys.append ?_, ?_, ?_⟩
  · intro d hd
    obtain ⟨hd, hne⟩ := mem_deleteWhere.mp hd
    obtain ⟨n, hn, hnd⟩ := h.placed d hd
    refine ⟨n, mem_deleteWhere.mpr ⟨hn, ?_⟩, hnd⟩
    have hid : n.id ≠ node.id := by
      intro he
      rw [htree.keyed.eq hn hnode he, hat, Option.some.injEq] at hnd
      exact absurd hnd.symm (by simpa using hne)
    simpa using hid
  · exact fun d hd => h.addressed d (mem_deleteWhere.mp hd).1
  · exact fun d hd => h.spent d (mem_deleteWhere.mp hd).1
  · intro o ho hkey
    rw [isPendingDeletion, List.any_eq_false] at hfree
    exact hfree o ho (decide_eq_true hkey)
  · intro o ho d hd hkey
    obtain ⟨hd, hne⟩ := mem_deleteWhere.mp hd
    rcases hrow o ho with ho | rfl
    · exact h.noDocument o ho d hd hkey
    · rw [h.documentKeys.eq hd hmem hkey] at hne
      exact absurd hne (by simp)
  · intro o ho r hr hkey hopen
    rcases hrow o ho with ho | rfl
    · exact h.noReservation o ho r hr hkey hopen
    · exact absurd hopen (h.spent document hmem r hr hkey)

/-! ## One step -/

/-- Calls on other tables, and the passing of time. -/
theorem KeyInv.other {db' : Db} (h : KeyInv db) (hstorage : db'.storage = db.storage)
    (hcontent : db'.content = db.content)
    (hplaces : KeepsPlaces db.library.nodes db'.library.nodes) (hnow : db.now ≤ db'.now) :
    KeyInv db' := by
  refine ⟨?_, ?_, ?_, ?_, ?_, ?_, ?_, ?_, ?_, ?_⟩
  · rw [hcontent]
    intro d hd
    obtain ⟨n, hn, hnd⟩ := h.placed d hd
    exact hplaces n hn d.id hnd
  · rw [hcontent]
    exact h.documentKeys
  · rw [hcontent]
    exact h.addressed
  · rw [hstorage]
    exact h.reservationIds
  · rw [hstorage]
    exact h.oneOpen
  · rw [hstorage, hcontent]
    exact h.spent
  · rw [hstorage]
    exact h.deletionIds
  · rw [hstorage]
    exact h.deletionKeys
  · rw [hstorage, hcontent]
    exact h.noDocument
  · rw [hstorage]
    intro o ho r hr hkey hopen
    exact Nat.le_trans (h.noReservation o ho r hr hkey hopen) hnow

theorem StorageStep.keyInv {db' : Db} {call : Call} (hs : StorageStep db call db')
    (htree : TreeInv db.library.nodes) (h : KeyInv db) : KeyInv db' := by
  cases hs with
  | other storage content places now => exact h.other storage content places now
  | expire request => exact h.close (closes_expireReservationsOf db request.objectKey)
  | reserve actor fresh => exact (h.close (closes_expireReservationsOf db _)).reserve fresh
  | duplicate under => exact h.close (closes_consumeReservation db _ _)
  | create under new document node => exact h.create under document node
  | delete mem nodeMem at_ freshId free => exact h.delete htree mem nodeMem at_ freshId free
  | sweep _ freshIds => exact h.sweep freshIds
  | claim owner leaseSeconds leaseToken mem claimable =>
    exact h.outbox_update (fun _ => rfl) fun _ => rfl
  | heartbeat => exact h.outbox_update (fun _ => rfl) fun _ => rfl
  | finish =>
    exact h.outbox (h.deletionIds.deleteWhere _) (h.deletionKeys.deleteWhere _)
      fun o ho => ⟨o, (mem_deleteWhere.mp ho).1, rfl⟩
  | release => exact h.outbox_update (fun _ => rfl) fun _ => rfl

/-- No call lets two parties hold one key. -/
theorem keyInv_step (call : Call) (htree : TreeInv db.library.nodes) (h : KeyInv db) :
    KeyInv (step db call) :=
  (step_storage htree call).keyInv htree h

theorem keyInv_run (h : Installed db) (calls : List Call) : KeyInv (run step db calls) := by
  have hinv : TreeInv (run step db calls).library.nodes ∧ KeyInv (run step db calls) := by
    refine run_inv_of_step (fun db : Db => TreeInv db.library.nodes ∧ KeyInv db) ?_ calls ?_
    · exact fun db call hdb =>
        ⟨(step_nodes db call).treeInv hdb.1, keyInv_step call hdb.1 hdb.2⟩
    · exact ⟨treeInv_run h [], keyInv_installed h⟩
  exact hinv.2

end LocalRag.Storage
