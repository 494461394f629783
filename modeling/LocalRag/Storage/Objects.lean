import LocalRag.Storage.Keys

/-!
# The object store beside the database

The upload of `app/routes/documents.py` (`preflight`, `put`, `commit`) and the
deletion worker of `app/services/object_deletions.py`, interleaved at the calls
they make. The database calls are transactions of `System`; the storage calls
are not part of any transaction. A `World` is the database, the keys the store
holds, the uploads on their way and the storage deletes the workers issued.

An upload puts its object with `put_if_absent` and reads its metadata back
(`head`); only then it commits. A worker issues the delete when its claim
returns and reports success when the delete has returned; `delete` runs in a
thread that cancellation does not stop, so a delete that was issued can take
effect at any later time, whatever became of the worker or its lease.

The outbox row fences the workers against each other, but not the delete
itself. `live_run` shows that this is the only hole: if every delete takes
effect while the outbox still has a row for its key, no document loses its
object. `live_object_lost` is the run in which it does.
-/

namespace LocalRag.Storage

open LocalRag.Core Access Library

/-- How far an upload got: reserved, object put, metadata checked, over. -/
inductive UploadPhase where
  | reserved
  | put
  | checked
  | ended
deriving Repr, DecidableEq

/-- An upload request after its preflight. -/
structure Upload where
  token : Option HexText
  reservationId : ReservationId
  request : UploadRequest
  phase : UploadPhase
deriving Repr, DecidableEq

/-- A worker's claim and whether its storage delete is still to take effect. -/
structure DeletionTask where
  lease : DeletionLease
  inFlight : Bool
deriving Repr, DecidableEq

structure World where
  db : Db
  objects : List ObjectKey
  uploads : List Upload
  tasks : List DeletionTask

/-- The database calls that need nothing of the store: all but the commit of an
upload and the worker's claim and finish. -/
def isDatabaseOnly : Call → Bool
  | .commitUpload .. | .claimDeletion .. | .finishDeletion .. => false
  | _ => true

inductive Action where
  | call (call : Call)
  | preflight (token : Option HexText) (reservationId : ReservationId) (request : UploadRequest)
  | put (upload : Nat)
  | head (upload : Nat)
  | commit (upload : Nat) (ids : CommitIds)
  | abandon (upload : Nat)
  | claim (owner : String) (leaseSeconds : Nat) (leaseToken : LeaseToken)
      (locked : List DeletionId)
  | deleteObject (task : Nat)
  | finish (task : Nat) (success : Bool) (error : Option String)
deriving Repr, DecidableEq

def World.setPhase (w : World) (i : Nat) (phase : UploadPhase) : World :=
  { w with uploads := w.uploads.modify i fun u => { u with phase := phase } }

/-- The upload a preflight starts, if it is asked to upload. -/
def startedUpload (token : Option HexText) (request : UploadRequest) :
    Except SqlError (Db × PreflightResult) → List Upload
  | .ok (_, .uploadRequired reservationId _) => [⟨token, reservationId, request, .reserved⟩]
  | _ => []

/-- The storage delete a worker issues, if its claim returned a row. -/
def issuedDelete : Except SqlError (Db × Option DeletionLease) → List DeletionTask
  | .ok (_, some lease) => [⟨lease, true⟩]
  | _ => []

/-- One database call, or one storage call taking effect. An action that its
upload or task has no part in (another phase, no such index) does nothing. -/
def World.step (w : World) : Action → World
  | .call call => if isDatabaseOnly call then { w with db := LocalRag.step w.db call } else w
  | .preflight token reservationId request =>
    { w with
      db := LocalRag.step w.db (.uploadPreflight token reservationId request)
      uploads := w.uploads ++
        startedUpload token request (v4AdminUploadPreflight w.db token reservationId request) }
  | .put i =>
    match w.uploads[i]? with
    | some u =>
      if u.phase = .reserved then
        { w.setPhase i .put with objects := u.request.objectKey :: w.objects }
      else w
    | none => w
  | .head i =>
    match w.uploads[i]? with
    | some u =>
      if u.phase = .put then
        w.setPhase i (if u.request.objectKey ∈ w.objects then .checked else .ended)
      else w
    | none => w
  | .commit i ids =>
    match w.uploads[i]? with
    | some u =>
      if u.phase = .checked then
        { w.setPhase i .ended with
          db := LocalRag.step w.db (.commitUpload u.token u.reservationId ids u.request) }
      else w
    | none => w
  | .abandon i => w.setPhase i .ended
  | .claim owner leaseSeconds leaseToken locked =>
    { w with
      db := LocalRag.step w.db (.claimDeletion owner leaseSeconds leaseToken locked)
      tasks := w.tasks ++
        issuedDelete (v4ClaimObjectDeletion w.db owner leaseSeconds leaseToken locked) }
  | .deleteObject j =>
    match w.tasks[j]? with
    | some t =>
      if t.inFlight then
        { w with
          objects := w.objects.filter fun key => key ≠ t.lease.objectKey
          tasks := w.tasks.modify j fun t => { t with inFlight := false } }
      else w
    | none => w
  | .finish j success error =>
    match w.tasks[j]? with
    | some t =>
      if success ∧ t.inFlight then w
      else
        { w with db := LocalRag.step w.db (.finishDeletion t.lease.deletionId t.lease.leaseToken
            t.lease.fencingToken success error) }
    | none => w

/-- Before the first upload: an installation, and nothing on its way. -/
structure World.Fresh (w : World) : Prop where
  db : Installed w.db
  uploads : w.uploads = []
  tasks : w.tasks = []

/-- Every document's object is in the store. -/
def Live (w : World) : Prop := ∀ d ∈ w.db.content.documents, d.objectKey ∈ w.objects

/-- A storage delete takes effect while the outbox has a row for its key. -/
def DeleteGuard (w : World) : Action → Prop
  | .deleteObject j => ∀ t ∈ w.tasks[j]?, t.inFlight = true →
    isPendingDeletion w.db t.lease.objectKey = true
  | _ => True

instance (w : World) (action : Action) : Decidable (DeleteGuard w action) := by
  unfold DeleteGuard
  split <;> infer_instance

/-! ## Reservations of uploads on their way -/

/-- The upload's reservation, unspent and unexpired: its commit would pass. -/
def HasLiveReservation (db : Db) (u : Upload) : Prop :=
  ∃ r ∈ db.storage.reservations, r.id = u.reservationId ∧
    r.objectKey = u.request.objectKey ∧ r.consumedAt = none ∧ db.now < r.expiresAt

/-- Reservations are never removed, reopened or extended, and a new one has a
new id. -/
structure ReservationsGrow (db db' : Db) : Prop where
  kept : ∀ r ∈ db.storage.reservations, ∃ r' ∈ db'.storage.reservations,
    r'.id = r.id ∧ r'.objectKey = r.objectKey
  source : ∀ r' ∈ db'.storage.reservations, (∀ r ∈ db.storage.reservations, r.id ≠ r'.id) ∨
    ∃ r ∈ db.storage.reservations, r.id = r'.id ∧ r.objectKey = r'.objectKey ∧
      r.expiresAt = r'.expiresAt ∧ (r'.consumedAt = none → r.consumedAt = none)
  now : db.now ≤ db'.now

variable {db db' : Db}

theorem Closes.grow {reservations : List UploadReservation}
    (h : Closes db.storage.reservations reservations)
    (hres : db'.storage.reservations = reservations) (hnow : db'.now = db.now) :
    ReservationsGrow db db' where
  kept := by
    rw [hres]
    exact h.kept
  source := by
    rw [hres]
    exact fun r hr => Or.inr (h.source r hr)
  now := Nat.le_of_eq hnow.symm

theorem ReservationsGrow.of_eq (h : db'.storage.reservations = db.storage.reservations)
    (hnow : db.now ≤ db'.now) :
    ReservationsGrow db db' where
  kept := by
    rw [h]
    exact fun r hr => ⟨r, hr, rfl, rfl⟩
  source := by
    rw [h]
    exact fun r hr => Or.inr ⟨r, hr, rfl, rfl, rfl, id⟩
  now := hnow

theorem StorageStep.grow {call : Call} (hs : StorageStep db call db') :
    ReservationsGrow db db' := by
  cases hs with
  | other storage _ _ now => exact .of_eq (by rw [storage]) now
  | expire request => exact (closes_expireReservationsOf db request.objectKey).grow rfl rfl
  | @reserve _ actor reservationId request fresh =>
    have hc := closes_expireReservationsOf db request.objectKey
    refine ⟨fun r hr => ?_, fun r hr => ?_, Nat.le_refl _⟩
    · obtain ⟨r', hr', hid, hkey⟩ := hc.kept r hr
      exact ⟨r', List.mem_append_left _ hr', hid, hkey⟩
    · rcases List.mem_append.mp hr with hr | hr
      · exact Or.inr (hc.source r hr)
      · -- the id is new, also before the expired reservations were marked
        refine Or.inl fun r₀ hr₀ he => ?_
        obtain ⟨r', hr', hid, _⟩ := hc.kept r₀ hr₀
        rw [List.mem_singleton.mp hr] at he
        exact fresh.freshId r' hr' (hid.trans he)
  | duplicate => exact (closes_consumeReservation db _ _).grow rfl rfl
  | create => exact (closes_consumeReservation db _ _).grow rfl rfl
  | delete => exact .of_eq rfl (Nat.le_refl _)
  | sweep => exact (closes_expireReservations db).grow rfl rfl
  | claim => exact .of_eq rfl (Nat.le_refl _)
  | heartbeat => exact .of_eq rfl (Nat.le_refl _)
  | finish => exact .of_eq rfl (Nat.le_refl _)
  | release => exact .of_eq rfl (Nat.le_refl _)

/-- The reservation of an upload exists. -/
def HasReservation (db : Db) (u : Upload) : Prop :=
  ∃ r ∈ db.storage.reservations, r.id = u.reservationId ∧ r.objectKey = u.request.objectKey

theorem ReservationsGrow.hasReservation (h : ReservationsGrow db db') {u : Upload}
    (hu : HasReservation db u) : HasReservation db' u := by
  obtain ⟨r, hr, hid, hkey⟩ := hu
  obtain ⟨r', hr', hid', hkey'⟩ := h.kept r hr
  exact ⟨r', hr', hid'.trans hid, hkey'.trans hkey⟩

/-- A reservation that is live now was live before. -/
theorem ReservationsGrow.live {db db' : Db} (h : ReservationsGrow db db') {u : Upload}
    (hu : HasReservation db u) (hlive : HasLiveReservation db' u) : HasLiveReservation db u := by
  obtain ⟨r', hr', hid, hkey, hopen, hexp⟩ := hlive
  rcases h.source r' hr' with hnew | ⟨r, hr, hrid, hrkey, hrexp, hropen⟩
  · obtain ⟨r, hr, hrid, _⟩ := hu
    exact absurd (hrid.trans hid.symm) (hnew r hr)
  · refine ⟨r, hr, hrid.trans hid, hrkey.trans hkey, hropen hopen, ?_⟩
    rw [hrexp]
    exact Nat.lt_of_le_of_lt h.now hexp

/-! ## Documents -/

/-- A new document comes from a commit under a live reservation of its key. -/
theorem StorageStep.documents {call : Call} (hs : StorageStep db call db') :
    ∀ d ∈ db'.content.documents, d ∈ db.content.documents ∨
      ∃ token reservationId ids request,
        call = .commitUpload token reservationId ids request ∧
        d.objectKey = request.objectKey ∧
        HasLiveReservation db ⟨token, reservationId, request, .checked⟩ := by
  cases hs with
  | other _ content _ _ =>
    rw [content]
    exact fun d hd => Or.inl hd
  | @create token actor reservationId ids request reservation content nodes under _ document _ =>
    obtain ⟨rfl, _⟩ := insertDocument_ok document
    intro d hd
    rcases List.mem_append.mp hd with hd | hd
    · exact Or.inl hd
    · rw [List.mem_singleton.mp hd]
      have hlive := under.live
      simp only [reservationMatches, decide_eq_true_eq] at hlive
      exact Or.inr ⟨token, reservationId, ids, request, rfl, rfl, reservation, under.mem, under.id,
        hlive.2.2.2.2.1, hlive.2.1, hlive.2.2.1⟩
  | delete => exact fun d hd => Or.inl (mem_deleteWhere.mp hd).1
  | expire => exact fun d hd => Or.inl hd
  | reserve => exact fun d hd => Or.inl hd
  | duplicate => exact fun d hd => Or.inl hd
  | sweep => exact fun d hd => Or.inl hd
  | claim => exact fun d hd => Or.inl hd
  | heartbeat => exact fun d hd => Or.inl hd
  | finish => exact fun d hd => Or.inl hd
  | release => exact fun d hd => Or.inl hd

/-- The reservation a preflight names exists afterwards. -/
theorem preflight_uploadRequired {token : Option HexText} {reservationId rid : ReservationId}
    {request : UploadRequest} {expiresAt : Time}
    (h : v4AdminUploadPreflight db token reservationId request =
      .ok (db', .uploadRequired rid expiresAt)) :
    ∃ r ∈ db'.storage.reservations, r.id = rid ∧ r.objectKey = request.objectKey := by
  unfold v4AdminUploadPreflight at h
  split at h
  · cases h
  simp only [ite_error_eq_ok] at h
  obtain ⟨_, _, _, h⟩ := h
  unfold reserveUpload at h
  split at h
  · cases h
  split at h
  · split at h <;> cases h
  split at h
  next active hactive =>
    have hkey := List.find?_some hactive
    simp only [isActiveReservation, decide_eq_true_eq] at hkey
    split at h
    · cases h
      exact ⟨active, List.mem_of_find?_eq_some hactive, rfl, hkey.1⟩
    · cases h
  · split at h
    · cases h
    · simp only [ite_error_eq_ok] at h
      obtain ⟨_, _, h⟩ := h
      cases h
      exact ⟨_, List.mem_append_right _ (List.mem_singleton_self _), rfl, rfl⟩

/-! ## The invariant -/

structure WorldInv (w : World) : Prop where
  tree : TreeInv w.db.library.nodes
  keys : KeyInv w.db
  live : Live w
  known : ∀ u ∈ w.uploads, HasReservation w.db u
  checked : ∀ u ∈ w.uploads, u.phase = .checked → HasLiveReservation w.db u →
    u.request.objectKey ∈ w.objects

variable {w : World}

/-- A database call keeps the invariant, if it commits no upload, or one whose
object is in the store. -/
theorem WorldInv.call (h : WorldInv w) (call : Call)
    (hcommit : ∀ token reservationId ids request,
      call = .commitUpload token reservationId ids request →
      HasLiveReservation w.db ⟨token, reservationId, request, .checked⟩ →
      request.objectKey ∈ w.objects) : WorldInv { w with db := LocalRag.step w.db call } := by
  have hs := step_storage h.tree call
  refine ⟨(step_nodes w.db call).treeInv h.tree, hs.keyInv h.tree h.keys, ?_, ?_, ?_⟩
  · intro d hd
    rcases hs.documents d hd with hd | ⟨token, reservationId, ids, request, hcall, hkey, hlive⟩
    · exact h.live d hd
    · rw [hkey]
      exact hcommit token reservationId ids request hcall hlive
  · exact fun u hu => hs.grow.hasReservation (h.known u hu)
  · exact fun u hu hphase hlive => h.checked u hu hphase (hs.grow.live (h.known u hu) hlive)

/-- A list entry changed at one index. -/
theorem mem_modify {α : Type} {l : List α} {i : Nat} {f : α → α} {a : α}
    (h : a ∈ l.modify i f) : a ∈ l ∨ ∃ b, l[i]? = some b ∧ a = f b := by
  obtain ⟨j, hj⟩ := List.mem_iff_getElem?.mp h
  rw [List.getElem?_modify] at hj
  by_cases he : i = j
  · subst he
    obtain ⟨b, hb, hab⟩ := Option.map_eq_some_iff.mp hj
    rw [if_pos rfl] at hab
    exact Or.inr ⟨b, hb, hab.symm⟩
  · obtain ⟨b, hb, hab⟩ := Option.map_eq_some_iff.mp hj
    rw [if_neg he] at hab
    exact Or.inl (hab ▸ List.mem_of_getElem? hb)

/-- An upload moves to a phase; if that is `checked`, its object is there. -/
theorem WorldInv.setPhase (h : WorldInv w) {i : Nat} {phase : UploadPhase}
    (hchecked : phase = .checked → ∀ u, w.uploads[i]? = some u → u.request.objectKey ∈ w.objects) :
    WorldInv (w.setPhase i phase) := by
  refine ⟨h.tree, h.keys, h.live, fun u hu => ?_, fun u hu hphase hlive => ?_⟩
  · rcases mem_modify hu with hu | ⟨u₀, hu₀, rfl⟩
    · exact h.known u hu
    · exact h.known u₀ (List.mem_of_getElem? hu₀)
  · rcases mem_modify hu with hu | ⟨u₀, hu₀, rfl⟩
    · exact h.checked u hu hphase hlive
    · exact hchecked hphase u₀ hu₀

/-- A delete under an outbox row hits no document and no upload that can still
commit. -/
theorem WorldInv.deleteObject (h : WorldInv w) {key : ObjectKey}
    (hpending : isPendingDeletion w.db key = true) (tasks : List DeletionTask) :
    WorldInv { w with objects := w.objects.filter fun k => k ≠ key, tasks := tasks } := by
  rw [isPendingDeletion, List.any_eq_true] at hpending
  obtain ⟨o, ho, hkey⟩ := hpending
  have hkey : o.objectKey = key := by simpa using hkey
  refine ⟨h.tree, h.keys, fun d hd => ?_, h.known, fun u hu hphase hlive => ?_⟩
  · have hne : d.objectKey ≠ key := hkey ▸ h.keys.noDocument o ho d hd
    exact List.mem_filter.mpr ⟨h.live d hd, by simpa using hne⟩
  · have hne : u.request.objectKey ≠ key := by
      intro he
      obtain ⟨r, hr, _, hrkey, hopen, hexp⟩ := hlive
      have hle := h.keys.noReservation o ho r hr (hrkey.trans (he.trans hkey.symm)) hopen
      exact absurd hexp (Nat.not_lt.mpr hle)
    exact List.mem_filter.mpr ⟨h.checked u hu hphase hlive, by simpa using hne⟩

theorem worldInv_step (w : World) (action : Action) (hguard : DeleteGuard w action)
    (h : WorldInv w) : WorldInv (w.step action) := by
  cases action with
  | call call =>
    simp only [World.step]
    split
    next hplain =>
      refine h.call call fun token reservationId ids request hcall => ?_
      rw [hcall] at hplain
      exact absurd hplain (by simp [isDatabaseOnly])
    next => exact h
  | preflight token reservationId request =>
    have hdb := h.call (.uploadPreflight token reservationId request) (by simp)
    refine ⟨hdb.tree, hdb.keys, hdb.live, fun u hu => ?_, fun u hu hphase hlive => ?_⟩
    · rcases List.mem_append.mp hu with hu | hu
      · exact hdb.known u hu
      · unfold startedUpload at hu
        split at hu
        next db' rid expiresAt hres =>
          rw [List.mem_singleton.mp hu]
          obtain ⟨r, hr, hid, hkey⟩ := preflight_uploadRequired hres
          refine ⟨r, ?_, hid, hkey⟩
          simp only [World.step, LocalRag.step, hres, commit_ok]
          exact hr
        next => exact absurd hu (by simp)
    · rcases List.mem_append.mp hu with hu | hu
      · exact hdb.checked u hu hphase hlive
      · unfold startedUpload at hu
        split at hu
        next => rw [List.mem_singleton.mp hu] at hphase; exact absurd hphase (by simp)
        next => exact absurd hu (by simp)
  | put i =>
    simp only [World.step]
    split
    next u hu =>
      split
      next =>
        have hp : WorldInv (w.setPhase i .put) := h.setPhase (by simp)
        refine ⟨hp.tree, hp.keys, ?_, hp.known, ?_⟩
        · exact fun d hd => List.mem_cons_of_mem _ (hp.live d hd)
        · exact fun u hu hphase hlive => List.mem_cons_of_mem _ (hp.checked u hu hphase hlive)
      next => exact h
    next => exact h
  | head i =>
    simp only [World.step]
    split
    next u hu =>
      split
      next =>
        refine h.setPhase fun hphase u' hu' => ?_
        obtain rfl : u = u' := Option.some.inj (hu.symm.trans hu')
        by_cases hmem : u.request.objectKey ∈ w.objects
        · exact hmem
        · rw [if_neg hmem] at hphase
          exact absurd hphase (by simp)
      next => exact h
    next => exact h
  | commit i ids =>
    simp only [World.step]
    split
    next u hu =>
      split
      next hphase =>
        have hend : WorldInv (w.setPhase i .ended) := h.setPhase (by simp)
        refine hend.call _ fun token reservationId ids' request hcall hlive => ?_
        obtain ⟨rfl, rfl, rfl, rfl⟩ : u.token = token ∧ u.reservationId = reservationId ∧
            ids = ids' ∧ u.request = request := by simpa using hcall
        exact h.checked u (List.mem_of_getElem? hu) hphase hlive
      next => exact h
    next => exact h
  | abandon i => exact h.setPhase (by simp)
  | claim owner leaseSeconds leaseToken locked =>
    have hdb := h.call (.claimDeletion owner leaseSeconds leaseToken locked) (by simp)
    exact ⟨hdb.tree, hdb.keys, hdb.live, hdb.known, hdb.checked⟩
  | deleteObject j =>
    simp only [World.step]
    split
    next t ht =>
      split
      next hflight => exact h.deleteObject (hguard t ht hflight) _
      next => exact h
    next => exact h
  | finish j success error =>
    simp only [World.step]
    split
    next t ht =>
      split
      next => exact h
      next => exact h.call _ (by simp)
    next => exact h

/-! ## Every interleaving -/

theorem worldInv_fresh (h : w.Fresh) : WorldInv w where
  tree := treeInv_run h.db []
  keys := keyInv_installed h.db
  live := by
    intro d hd
    rw [h.db.documents] at hd
    exact absurd hd (by simp)
  known := by simp [h.uploads]
  checked := by simp [h.uploads]

/-- In every interleaving in which each storage delete takes effect under an
outbox row of its key, every document's object is in the store. -/
theorem live_run {w : World} (h : w.Fresh) {actions : List Action}
    (hguard : Along World.step DeleteGuard w actions) : Live (run World.step w actions) := by
  have hinv : WorldInv (run World.step w actions) :=
    run_inv WorldInv worldInv_step hguard (worldInv_fresh h)
  exact hinv.live

/-- One upload of the content `7`, as the upload number `i` of the run. -/
def uploadActions (i : Nat) (reservationId : ReservationId) (ids : CommitIds) : List Action :=
  [.preflight (some (.digest 1)) reservationId (sampleUpload 7 none "a.pdf"), .put i, .head i,
    .commit i ids]

/-- Upload, delete, one worker's attempt, and the same content again. -/
def reuploadActions : List Action :=
  uploadActions 0 20 ⟨30, 31, 32, 33, 34⟩ ++
    [.call (.deleteDocument (some (.digest 1)) 30 50), .claim "a" 60 1 [], .deleteObject 0,
      .finish 0 true none] ++
    uploadActions 1 21 ⟨40, 41, 42, 43, 44⟩

theorem live_run_reupload :
    World.Fresh ⟨sampleDb, [], [], []⟩ ∧
    Along World.step DeleteGuard ⟨sampleDb, [], [], []⟩ reuploadActions ∧
    (run World.step ⟨sampleDb, [], [], []⟩ reuploadActions).db.content.documents.length = 1 ∧
    Live (run World.step ⟨sampleDb, [], [], []⟩ reuploadActions) :=
  ⟨⟨installed_sampleDb, rfl, rfl⟩, by decide +kernel, by decide +kernel,
    live_run ⟨installed_sampleDb, rfl, rfl⟩ (by decide +kernel)⟩

/-- The first worker's delete is held up until its lease has expired, a second
worker has finished the deletion and the content has been uploaded again. -/
def delayedDeleteActions : List Action :=
  uploadActions 0 20 ⟨30, 31, 32, 33, 34⟩ ++
    [.call (.deleteDocument (some (.digest 1)) 30 50), .claim "a" 60 1 [],
      .call (.tick (61 * second)), .claim "b" 60 2 [], .deleteObject 1, .finish 1 true none] ++
    uploadActions 1 21 ⟨40, 41, 42, 43, 44⟩ ++ [.deleteObject 0]

/-- The document is there, its put was checked, and its object is gone. -/
theorem live_object_lost :
    World.Fresh ⟨sampleDb, [], [], []⟩ ∧
    ¬ Live (run World.step ⟨sampleDb, [], [], []⟩ delayedDeleteActions) := by
  refine ⟨⟨installed_sampleDb, rfl, rfl⟩, fun hlive => ?_⟩
  have hdoc : ∃ d ∈ (run World.step ⟨sampleDb, [], [], []⟩
      delayedDeleteActions).db.content.documents, d.objectKey = .original 7 := by
    decide +kernel
  obtain ⟨d, hd, hkey⟩ := hdoc
  have hgone : ObjectKey.original 7 ∉
      (run World.step ⟨sampleDb, [], [], []⟩ delayedDeleteActions).objects := by
    decide +kernel
  exact hgone (hkey ▸ hlive d hd)

end LocalRag.Storage
