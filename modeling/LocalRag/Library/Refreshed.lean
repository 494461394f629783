import LocalRag.Library.Loading

/-!
# A refresh does not undo a selection, if it knows of it

A load writes back the selection it was started with, as its answers correct it. So the selection
that stands is kept by a load that was started with it, and lost to one that was not. Two events make
such a load: `selectPage` commits and lets the load go on that is waiting, and `refreshCurrent`
takes its selection from `stateRef`, which an address does not reach before the render behind its
load. `Calm` rules these two out, and nothing else; that only the load that was started last completes
needs neither.

What carries the proof is `Stands`: a selection is the one committed last, or an answer contradicts
that one. A correction keeps it (`Stands.corrected`), because the answer that makes it contradicts
what is corrected.
-/

namespace LocalRag.Loading

open LocalRag.Core

variable {τ β γ : Type}

/-! ## Answers against a selection -/

/-- The folder or the document is gone, the document is in another folder or has fewer pages. -/
def Told.Contradicts (selection : LibrarySelection) : Told → Prop
  | .folderGone folderId => selection.folderId = some folderId
  | .listed documents =>
    ∃ documentId, selection.documentId = some documentId ∧
      ((∀ document ∈ documents, document.documentId ≠ documentId) ∨
        ∃ document ∈ documents, document.documentId = documentId ∧
          (document.parentId ≠ selection.folderId ∨
            ∃ page count, selection.page = some page ∧ document.pageCount = some count ∧
              count.val < page.val))

def Outdated (committed : LibrarySelection) (told : List Told) : Prop :=
  ∃ answer ∈ told, answer.Contradicts committed

/-- What a load may write. -/
def Stands (committed : LibrarySelection) (told : List Told) (selection : LibrarySelection) : Prop :=
  selection = committed ∨ Outdated committed told

/-- A load that has completed was the last to be started, and wrote what stands. -/
def Kept (s : LibraryHook τ β γ) : Prop :=
  ∀ generation selection, s.record.completed = some (generation, selection) →
    generation = s.record.latest ∧ Stands s.record.committed s.record.told selection

section Stands

variable {committed selection selection' : LibrarySelection} {told told' : List Told}

theorem Stands.mono (hsub : told ⊆ told') (h : Stands committed told selection) :
    Stands committed told' selection := by
  rcases h with heq | ⟨answer, hin, hcontra⟩
  · exact Or.inl heq
  · exact Or.inr ⟨answer, hsub hin, hcontra⟩

/-- What contradicts a selection that stands lets any other stand. -/
theorem Stands.corrected (h : Stands committed told selection) {answer : Told} (hin : answer ∈ told)
    (hcontra : answer.Contradicts selection) : Stands committed told selection' := by
  rcases h with heq | hout
  · exact Or.inr ⟨answer, hin, heq ▸ hcontra⟩
  · exact Or.inr hout

theorem atLeastOne_page (page : Page) : atLeastOne (some page.val) = page := by
  have hsafe : -MAX_SAFE_INTEGER ≤ page.val ∧ page.val ≤ MAX_SAFE_INTEGER := by
    have hpos := page.2.1
    exact ⟨by unfold MAX_SAFE_INTEGER; omega, page.2.2⟩
  apply Subtype.ext
  simp only [atLeastOne, dif_pos hsafe]
  exact max_eq_right page.2.1

/-- A page of the document is left as it is. -/
theorem normalizeDocumentPage_page {page : Page} {count : Option Page}
    (h : ∀ n, count = some n → page.val ≤ n.val) :
    normalizeDocumentPage (some page.val) count = page := by
  cases count with
  | none => exact atLeastOne_page page
  | some n =>
    have hle := h n rfl
    apply Subtype.ext
    show min (atLeastOne (some page.val)).val (max 1 n.val) = page.val
    rw [atLeastOne_page]
    omega

/-- What a listing makes of a selection stands, if the selection did. -/
theorem Stands.located {documents : List DocumentSummary} {document : DocumentSummary}
    (h : Stands committed told selection) (hlisted : .listed documents ∈ told)
    (hin : document ∈ documents) (hid : selection.documentId = some document.documentId) :
    Stands committed told
      (.document document.parentId document.documentId
        (normalizeDocumentPage (selection.page.map (·.val)) document.pageCount)) := by
  obtain ⟨page, hpage⟩ : ∃ page, selection.page = some page := by
    have hpaged := selection.paged
    rw [hid] at hpaged
    exact Option.isSome_iff_exists.mp hpaged
  by_cases hparent : document.parentId = selection.folderId
  · by_cases hcount : ∀ n, document.pageCount = some n → page.val ≤ n.val
    · -- nothing to correct
      have hsame : LibrarySelection.document document.parentId document.documentId
          (normalizeDocumentPage (selection.page.map (·.val)) document.pageCount) = selection := by
        rw [hpage]
        ext1
        · exact hparent
        · exact hid.symm
        · show some (normalizeDocumentPage (some page.val) document.pageCount) = selection.page
          rw [normalizeDocumentPage_page hcount, hpage]
      rw [hsame]
      exact h
    · obtain ⟨n, hn, hlt⟩ : ∃ n, document.pageCount = some n ∧ n.val < page.val := by
        by_contra hall
        exact hcount fun n hn => by
          by_contra hlt
          exact hall ⟨n, hn, by omega⟩
      exact h.corrected hlisted
        ⟨_, hid, Or.inr ⟨document, hin, rfl, Or.inr ⟨page, n, hpage, hn, hlt⟩⟩⟩
  · exact h.corrected hlisted ⟨_, hid, Or.inr ⟨document, hin, rfl, Or.inl hparent⟩⟩

end Stands

/-! ## What a task has to be -/

/-- A task that waits for its first answers was told nothing, and the listing that one will look
into is one that it was told. -/
def LoadTask.Heard : LoadTask τ β → Prop
  | .settling load => load.told = []
  | .root load loaded =>
    ∀ documents, loaded.documents = .fulfilled documents → .listed documents ∈ load.told
  | .parent _ _ => True

structure TaskInv (s : LibraryHook τ β γ) (task : LoadTask τ β) : Prop where
  started : task.load.generation ≤ s.record.latest
  stands : isLive s task.load →
    Stands s.record.committed (task.load.told ++ s.record.told) task.load.requested
  heard : task.Heard

structure HookInv (s : LibraryHook τ β γ) : Prop where
  tasks : ∀ task ∈ s.tasks, TaskInv s task
  latest : s.record.latest ≤ s.requestGeneration
  written : ∀ selection ∈ s.record.written, Stands s.record.committed s.record.told selection

/-- The reducer's two states are not looked at. -/
theorem HookInv.of_eq {s s' : LibraryHook τ β γ} (h : HookInv s) (htasks : s'.tasks = s.tasks)
    (hgeneration : s'.requestGeneration = s.requestGeneration) (hrecord : s'.record = s.record) :
    HookInv s' := by
  obtain ⟨state, stateRef, generation, tasks, record⟩ := s'
  subst htasks hgeneration hrecord
  refine ⟨fun task hin => ?_, h.latest, h.written⟩
  have htask := h.tasks task hin
  exact ⟨htask.started, htask.stands, htask.heard⟩

theorem dispatch_inv {s : LibraryHook τ β γ} (h : HookInv s)
    (action : LibraryWorkspaceAction τ β γ) : HookInv (dispatch s action) :=
  h.of_eq rfl rfl rfl

/-- The selection in `stateRef` is known: it is the one committed last, or what a load made of it. -/
def RefKnown (s : LibraryHook τ β γ) : Prop :=
  s.stateRef.selection = s.record.committed ∨ s.stateRef.selection ∈ s.record.written

/-- No load is left waiting with another selection than the one that a page makes, and none is
started from a selection that is not known. -/
def Calm (s : LibraryHook τ β γ) : LibraryAct τ β γ → Prop
  | .selectPage page =>
    ∀ document, currentDocument s.stateRef = some document →
      ∀ task ∈ s.tasks, isLive s task.load →
        task.load.requested =
          s.stateRef.selection.withPage (normalizeDocumentPage page document.pageCount)
  | .refresh _ => RefKnown s
  | .removeFolder nodeId _ => s.stateRef.selection.folderId ≠ some nodeId → RefKnown s
  | .removeDocument documentId => s.stateRef.selection.documentId ≠ some documentId → RefKnown s
  | _ => True

/-! ## Loads -/

section Loads

variable {s : LibraryHook τ β γ}

@[simp] theorem load_abort (task : LoadTask τ β) : task.abort.load = task.load.abort := by
  cases task <;> rfl

theorem not_live_abort (load : Load) : ¬isLive s load.abort := by
  intro h
  cases h.1

/-- A load that starts with what stands, whatever the earlier ones wait with. -/
theorem load_inv {request : LoadRequest}
    (htasks : ∀ task ∈ s.tasks, task.load.generation ≤ s.record.latest ∧ task.Heard)
    (hlatest : s.record.latest ≤ s.requestGeneration)
    (hwritten : ∀ w ∈ s.record.written, Stands s.record.committed s.record.told w)
    (h : Stands s.record.committed s.record.told request.requested) :
    HookInv (load s request) := by
  refine ⟨fun task hin => ?_, Nat.le_refl _, hwritten⟩
  rcases List.mem_append.mp hin with hold | hnew
  · -- an earlier one is aborted
    obtain ⟨earlier, hearlier, rfl⟩ := List.mem_map.mp hold
    obtain ⟨hstarted, hheard⟩ := htasks earlier hearlier
    refine ⟨?_, fun hlive => ?_, ?_⟩
    · rw [load_abort]
      show earlier.load.generation ≤ s.requestGeneration + 1
      omega
    · rw [load_abort] at hlive
      exact absurd hlive (not_live_abort _)
    · cases earlier with
      | settling load => exact hheard
      | root load loaded => exact hheard
      | parent load loaded => trivial
  · rw [List.mem_singleton.mp hnew]
    exact ⟨Nat.le_refl _, fun _ => h, rfl⟩

theorem HookInv.bare (h : HookInv s) :
    ∀ task ∈ s.tasks, task.load.generation ≤ s.record.latest ∧ task.Heard :=
  fun task hin => ⟨(h.tasks task hin).started, (h.tasks task hin).heard⟩

/-- A selection is committed, and a load is started with it. -/
theorem load_commit_inv (h : HookInv s) {request : LoadRequest} (selection : LibrarySelection)
    (hrequest : request.requested = selection) :
    HookInv (load (commitSelection s selection) request) :=
  load_inv h.bare h.latest (by simp [commitSelection, dispatch, Record.commit]) (Or.inl hrequest)

theorem refreshCurrent_inv (h : HookInv s) (hknown : RefKnown s) (notice : Option String) :
    HookInv (refreshCurrent s notice) := by
  refine load_inv h.bare h.latest h.written ?_
  rcases hknown with hcommitted | hwritten
  · exact Or.inl hcommitted
  · exact h.written _ hwritten

/-- `selectPage` leaves the loads there are. -/
theorem commitSelection_inv (h : HookInv s) {selection : LibrarySelection}
    (hcalm : ∀ task ∈ s.tasks, isLive s task.load → task.load.requested = selection) :
    HookInv (commitSelection s selection) := by
  refine ⟨fun task hin => ?_, h.latest, by simp [commitSelection, dispatch, Record.commit]⟩
  have htask := h.tasks task hin
  exact ⟨htask.started, fun hlive => Or.inl (hcalm task hin hlive), htask.heard⟩

end Loads

/-! ## Answers -/

section Answers

variable {s : LibraryHook τ β γ} {load : Load} {loaded : Loaded τ β}

theorem kept_of_none (h : s.record.completed = none) : Kept s := by
  intro generation selection hcompleted
  rw [h] at hcompleted
  cases hcompleted

theorem await_inv (h : HookInv s) {task : LoadTask τ β} (htask : TaskInv s task) :
    HookInv (await s task) := by
  refine ⟨fun task' hin => ?_, h.latest, h.written⟩
  rcases List.mem_append.mp hin with hold | hnew
  · have htask' := h.tasks task' hold
    exact ⟨htask'.started, htask'.stands, htask'.heard⟩
  · rw [List.mem_singleton.mp hnew]
    exact ⟨htask.started, htask.stands, htask.heard⟩

theorem complete_inv (h : HookInv s) (hnone : s.record.completed = none)
    (hstarted : load.generation ≤ s.record.latest)
    (hstands : isLive s load →
      Stands s.record.committed (load.told ++ s.record.told) load.requested) :
    HookInv (complete s load loaded) ∧ Kept (complete s load loaded) := by
  unfold complete
  split
  · next hlive =>
    have hlatest := h.latest
    have hgeneration := hlive.2
    have hgrow : s.record.told ⊆ load.told ++ s.record.told := List.subset_append_right _ _
    refine ⟨⟨fun task hin => ?_, h.latest, fun w hw => ?_⟩, ?_⟩
    · have htask := h.tasks task hin
      refine ⟨htask.started, fun hlive' => (htask.stands hlive').mono ?_, htask.heard⟩
      exact List.append_subset.mpr
        ⟨List.subset_append_left _ _, List.subset_append_of_subset_right _ hgrow⟩
    · rcases List.mem_cons.mp hw with heq | hold
      · rw [heq]
        exact hstands hlive
      · exact (h.written w hold).mono hgrow
    · intro generation selection hcompleted
      cases hcompleted
      refine ⟨?_, hstands hlive⟩
      show load.generation = s.record.latest
      omega
  · exact ⟨h, kept_of_none hnone⟩

theorem locate_inv (h : HookInv s) (hnone : s.record.completed = none)
    (hstarted : load.generation ≤ s.record.latest)
    (hstands : isLive s load →
      Stands s.record.committed (load.told ++ s.record.told) load.requested)
    (hheard : ∀ documents, loaded.documents = .fulfilled documents → .listed documents ∈ load.told) :
    HookInv (locate s load loaded) ∧ Kept (locate s load loaded) := by
  unfold locate
  split
  · next documentId documents hid hdocuments =>
    have hlisted : .listed documents ∈ load.told ++ s.record.told :=
      List.mem_append_left _ (hheard documents hdocuments)
    split
    · next hmissing =>
      refine complete_inv h hnone hstarted fun hlive => ?_
      refine (hstands hlive).corrected hlisted ⟨documentId, hid, Or.inl fun d hd heq => ?_⟩
      have hnot := List.find?_eq_none.mp hmissing d hd
      exact hnot (by simp [heq])
    · next document hfound =>
      have hin := List.mem_of_find?_eq_some hfound
      have hsame : document.documentId = documentId := by
        simpa using List.find?_some hfound
      have hlocated : isLive s load → Stands s.record.committed (load.told ++ s.record.told)
          (.document document.parentId document.documentId
            (normalizeDocumentPage (load.requested.page.map (·.val)) document.pageCount)) :=
        fun hlive => (hstands hlive).located hlisted hin (by rw [hid, hsame])
      dsimp only
      split
      · exact ⟨await_inv h ⟨hstarted, hlocated, trivial⟩, kept_of_none hnone⟩
      · exact complete_inv h hnone hstarted hlocated
  · exact complete_inv h hnone hstarted hstands

theorem listed_mem_tell {documents : List DocumentSummary} (browse : Settled (LibraryBrowse β)) :
    .listed documents ∈ tell load (.fulfilled documents) browse :=
  List.mem_cons_self

theorem folderGone_mem_tell {documents : Settled (List DocumentSummary)} {folderId : NodeId}
    {message : String} (h : load.requested.folderId = some folderId) :
    .folderGone folderId ∈
      tell (β := β) load documents (.rejected (.failed (some 404) message)) := by
  unfold tell
  rw [h]
  cases documents with
  | fulfilled documents => exact List.mem_cons_of_mem _ List.mem_cons_self
  | rejected reason => exact List.mem_cons_self

theorem onSettled_inv (h : HookInv s) (hnone : s.record.completed = none)
    (htask : TaskInv s (.settling load)) (tree : Settled (List τ))
    (documents : Settled (List DocumentSummary)) (browse : Settled (LibraryBrowse β)) :
    HookInv (onSettled s load tree documents browse) ∧
      Kept (onSettled s load tree documents browse) := by
  unfold onSettled
  split
  · next hlive =>
    -- a 404 contradicts the folder, and is among what was told
    have hstands : ∀ told : List Told, Stands s.record.committed (told ++ s.record.told)
        load.requested := by
      intro told
      have hempty : load.told = [] := htask.heard
      have hbefore := htask.stands hlive
      rw [show (LoadTask.settling (τ := τ) (β := β) load).load = load from rfl, hempty] at hbefore
      exact hbefore.mono (List.subset_append_right _ _)
    have hlisted : ∀ listing, documents = .fulfilled listing →
        .listed listing ∈ tell load documents browse := by
      intro listing heq
      rw [heq]
      exact listed_mem_tell browse
    dsimp only
    split
    · next message folderId hfolder =>
      refine ⟨await_inv h ⟨htask.started, fun _ => ?_, hlisted⟩, kept_of_none hnone⟩
      refine (hstands _).corrected (List.mem_append_left _ (folderGone_mem_tell hfolder)) ?_
      exact hfolder
    · exact locate_inv h hnone htask.started (fun _ => hstands _) hlisted
  · exact ⟨h, kept_of_none hnone⟩

/-- Without one of the tasks. -/
theorem erase_inv (h : HookInv s) (index : Nat) :
    HookInv { s with tasks := s.tasks.eraseIdx index } := by
  refine ⟨fun task hin => ?_, h.latest, h.written⟩
  have htask := h.tasks task (List.mem_of_mem_eraseIdx hin)
  exact ⟨htask.started, htask.stands, htask.heard⟩

theorem browsed_documents (loaded : Loaded τ β) (browse : Settled (LibraryBrowse β)) :
    (loaded.browsed browse).documents = loaded.documents := by
  unfold Loaded.browsed
  split <;> rfl

theorem onSettle_inv (h : HookInv s) (hnone : s.record.completed = none) (index : Nat)
    (tree : Settled (List τ)) (documents : Settled (List DocumentSummary))
    (browse : Settled (LibraryBrowse β)) :
    HookInv (onSettle s index tree documents browse) ∧
      Kept (onSettle s index tree documents browse) := by
  unfold onSettle
  split
  · next load hload =>
    have htask := h.tasks _ (List.mem_of_getElem? hload)
    exact onSettled_inv (erase_inv h index) hnone ⟨htask.started, htask.stands, htask.heard⟩
      tree documents browse
  · exact ⟨h, kept_of_none hnone⟩

theorem onBrowsed_inv (h : HookInv s) (hnone : s.record.completed = none) (index : Nat)
    (browse : Settled (LibraryBrowse β)) :
    HookInv (onBrowsed s index browse) ∧ Kept (onBrowsed s index browse) := by
  unfold onBrowsed
  split
  · next load loaded hload =>
    have htask := h.tasks _ (List.mem_of_getElem? hload)
    have hheard : (LoadTask.root load loaded).Heard := htask.heard
    refine locate_inv (erase_inv h index) hnone htask.started htask.stands fun documents heq => ?_
    rw [browsed_documents] at heq
    exact hheard documents heq
  · next load loaded hload =>
    have htask := h.tasks _ (List.mem_of_getElem? hload)
    exact complete_inv (erase_inv h index) hnone htask.started htask.stands
  · exact ⟨h, kept_of_none hnone⟩

end Answers

/-! ## Runs -/

theorem cleanup_inv {s : LibraryHook τ β γ} (h : HookInv s) : HookInv (cleanup s) := by
  refine ⟨fun task hin => ?_, Nat.le_succ_of_le h.latest, h.written⟩
  obtain ⟨earlier, hearlier, rfl⟩ := List.mem_map.mp hin
  have hbefore := h.tasks earlier hearlier
  refine ⟨?_, fun hlive => ?_, ?_⟩
  · rw [load_abort]
    exact hbefore.started
  · rw [load_abort] at hlive
    exact absurd hlive (not_live_abort _)
  · have hheard := hbefore.heard
    cases earlier with
    | settling load => exact hheard
    | root load loaded => exact hheard
    | parent load loaded => trivial

theorem openRoute_inv {s : LibraryHook τ β γ} (h : HookInv s) (route : RouteState) :
    HookInv (openRoute s route) :=
  load_inv h.bare h.latest (by simp [Record.commit]) (Or.inl rfl)

theorem libraryStep_inv {hook : LibraryHook τ β γ} (h : HookInv hook) {act : LibraryAct τ β γ}
    (hcalm : Calm hook act) : HookInv (libraryStep hook act) ∧ Kept (libraryStep hook act) := by
  have hs : HookInv { hook with record := { hook.record with completed := none } } :=
    ⟨fun task hin => ⟨(h.tasks task hin).started, (h.tasks task hin).stands,
      (h.tasks task hin).heard⟩, h.latest, h.written⟩
  cases act with
  | cleanup => exact ⟨cleanup_inv hs, kept_of_none rfl⟩
  | openRoute route => exact ⟨openRoute_inv (cleanup_inv hs) route, kept_of_none rfl⟩
  | refresh notice => exact ⟨refreshCurrent_inv hs hcalm notice, kept_of_none rfl⟩
  | job documentId job => exact ⟨dispatch_inv hs _, kept_of_none rfl⟩
  | selectFolder folderId => exact ⟨load_commit_inv hs _ rfl, kept_of_none rfl⟩
  | selectDocument document => exact ⟨load_commit_inv hs _ rfl, kept_of_none rfl⟩
  | selectPage page =>
    show HookInv (selectPage _ page) ∧ Kept (selectPage _ page)
    unfold selectPage
    split
    · exact ⟨hs, kept_of_none rfl⟩
    · next document hdocument =>
      exact ⟨commitSelection_inv hs (hcalm document hdocument), kept_of_none rfl⟩
  | removeFolder nodeId parentId =>
    show HookInv (removeFolder _ nodeId parentId) ∧ Kept (removeFolder _ nodeId parentId)
    unfold removeFolder
    split
    · exact ⟨load_commit_inv hs _ rfl, kept_of_none rfl⟩
    · next hother => exact ⟨refreshCurrent_inv hs (hcalm hother) _, kept_of_none rfl⟩
  | removeDocument documentId =>
    show HookInv (removeDocument _ documentId) ∧ Kept (removeDocument _ documentId)
    unfold removeDocument
    split
    · exact ⟨load_commit_inv hs _ rfl, kept_of_none rfl⟩
    · next hother => exact ⟨refreshCurrent_inv hs (hcalm hother) _, kept_of_none rfl⟩
  | upload parentId documentId message =>
    exact ⟨load_commit_inv (dispatch_inv hs _) _ rfl, kept_of_none rfl⟩
  | reconcileMissingDocument => exact ⟨load_commit_inv hs _ rfl, kept_of_none rfl⟩
  | refreshRef => exact ⟨hs.of_eq rfl rfl rfl, kept_of_none rfl⟩
  | settle index tree documents browse => exact onSettle_inv hs rfl index tree documents browse
  | browsed index browse => exact onBrowsed_inv hs rfl index browse

theorem mountLibrary_inv (route : RouteState) :
    HookInv (mountLibrary route : LibraryHook τ β γ) := by
  refine openRoute_inv ⟨fun task hin => ?_, Nat.le_refl _, fun w hw => ?_⟩ route
  · cases hin
  · cases hw

theorem selection_kept (route : RouteState) {acts : List (LibraryAct τ β γ)}
    (h : Along libraryStep Calm (mountLibrary route) acts) :
    Always libraryStep Kept (mountLibrary route) acts :=
  always_of_along (fun s => HookInv s ∧ Kept s) (fun _ hs => hs.2)
    (fun _ _ hcalm hs => libraryStep_inv hs.1 hcalm) h
    ⟨mountLibrary_inv route, kept_of_none rfl⟩

/-! ## A page chosen too early -/

/-- A document of ten pages in the root. -/
def tenPages : DocumentSummary := ⟨7, none, some ⟨10, by decide⟩⟩

def homeRoute : RouteState := ⟨none, none, none, false, false, false⟩

/-- The three requests of the first task answer with it. -/
def answered : LibraryAct Unit Unit Unit :=
  .settle 0 (.fulfilled []) (.fulfilled [tenPages]) (.fulfilled ⟨none, ()⟩)

/-- The page is chosen when the load has completed, and a refresh follows. -/
def pagedLate : List (LibraryAct Unit Unit Unit) :=
  [answered, .refreshRef, .selectDocument tenPages, answered, .refreshRef, .selectPage (some 5),
    .refresh none, answered]

/-- The page is chosen while the load of the document is waiting. -/
def pagedEarly : List (LibraryAct Unit Unit Unit) :=
  [answered, .refreshRef, .selectDocument tenPages, .selectPage (some 5), answered]

theorem selection_kept_late :
    Along libraryStep Calm (mountLibrary homeRoute) pagedLate ∧
      Always libraryStep Kept (mountLibrary homeRoute) pagedLate := by
  have hcalm : Along libraryStep Calm (mountLibrary homeRoute) pagedLate := by
    refine ⟨trivial, trivial, trivial, trivial, trivial, ?_, Or.inl rfl, trivial, trivial⟩
    intro document hdocument task hin
    exact absurd hin List.not_mem_nil
  exact ⟨hcalm, selection_kept homeRoute hcalm⟩

/-- The load writes the first page over the fifth. -/
theorem selection_undone :
    ¬∀ (route : RouteState) (acts : List (LibraryAct Unit Unit Unit)),
      Always libraryStep Kept (mountLibrary route) acts := by
  intro h
  obtain ⟨-, -, -, -, -, hlast⟩ := h homeRoute pagedEarly
  have hstands : Stands (.document none 7 ⟨5, by decide⟩) [.listed [tenPages]]
      (.document none 7 firstPage) := (hlast 2 _ rfl).2
  rcases hstands with heq | ⟨answer, hin, hcontra⟩
  · have hpage := congrArg (fun selection => selection.page.map (·.val)) heq
    exact absurd hpage (by decide)
  · -- the document is listed, in the root and with ten pages
    rw [List.mem_singleton.mp hin] at hcontra
    obtain ⟨documentId, hid, hnone | ⟨document, hlisted, -, hwrong⟩⟩ := hcontra
    · exact hnone tenPages List.mem_cons_self (Option.some.inj hid)
    rcases hwrong with hparent | ⟨page, count, hpage, hcount, hlt⟩
    · rw [List.mem_singleton.mp hlisted] at hparent
      exact hparent rfl
    · rw [List.mem_singleton.mp hlisted] at hcount
      rw [← Option.some.inj hpage, ← Option.some.inj hcount] at hlt
      exact absurd hlt (by decide)

end LocalRag.Loading
