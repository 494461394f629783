import LocalRag.Core.Run
import LocalRag.Schema

/-!
# The library workspace hook — loads that carry a selection

Mirrors `useLibraryWorkspace` (`features/library/use-library-workspace.ts`) over the reducer of
`features/library/state.ts`. `load` is cut at its awaits: a `LoadTask` waits with the locals it
has captured, first for its three requests, then perhaps for the root in the place of a folder
that is gone, then perhaps for the folder its document lies in.

Mirroring notes.
* `dispatch` reduces at once. `stateRef` is behind, until the effect of a render copies the
  state (`refreshRef`); `commitSelection` alone writes it itself.
* The tasks that are not aborted are those of the current controller, so aborting it marks every
  task there is.
* A mutation goes on when its own request has been answered, and `refresh` may come at any time: it
  is what a button, a conflict, a mutation that changes no selection and a polled job that ended
  all do. The effect of the address may run at any time, too, with any address.
* A page is a positive safe integer (`positiveInteger`, `normalizeDocumentPage`, the schema of
  `page_count`), and a selection has one exactly if it has a document. A number asked for that is no
  integer is `none`.
* Left out: the calls of the router with `reconcileUrl`, `initial`, which the reducer does not read,
  and what `load` returns, which nobody reads.
* `Record` is no part of the source. It keeps what was committed last, by `commitSelection` or by an
  address, and what the loads since were told and wrote.
-/

namespace LocalRag.Loading

open LocalRag.Core

/-! ## Selections -/

/-- `Number.MAX_SAFE_INTEGER`. -/
def MAX_SAFE_INTEGER : Int := 9007199254740991

abbrev Page := {n : Int // 1 ≤ n ∧ n ≤ MAX_SAFE_INTEGER}

def firstPage : Page := ⟨1, by decide⟩

@[ext]
structure LibrarySelection where
  folderId : Option NodeId
  documentId : Option DocumentId
  page : Option Page
  paged : page.isSome = documentId.isSome

/-- `{ folderId, documentId: null, page: null }`. -/
def LibrarySelection.folder (folderId : Option NodeId) : LibrarySelection :=
  ⟨folderId, none, none, rfl⟩

def LibrarySelection.document (folderId : Option NodeId) (documentId : DocumentId) (page : Page) :
    LibrarySelection :=
  ⟨folderId, some documentId, some page, rfl⟩

/-- `{ ...selection, page }`, for a selection with a document. -/
def LibrarySelection.withPage (selection : LibrarySelection) (page : Page) : LibrarySelection :=
  ⟨selection.folderId, selection.documentId, selection.documentId.map fun _ => page, by simp⟩

structure DocumentSummary where
  documentId : DocumentId
  parentId : Option NodeId
  pageCount : Option Page

theorem safe_max {n : Int} (h : -MAX_SAFE_INTEGER ≤ n ∧ n ≤ MAX_SAFE_INTEGER) :
    1 ≤ max 1 n ∧ max 1 n ≤ MAX_SAFE_INTEGER := by
  unfold MAX_SAFE_INTEGER at *
  omega

/-- The requested page, if it is a safe integer, at least 1. -/
def atLeastOne (requestedPage : Option Int) : Page :=
  match requestedPage with
  | none => firstPage
  | some n =>
    -- `Number.isSafeInteger`
    if h : -MAX_SAFE_INTEGER ≤ n ∧ n ≤ MAX_SAFE_INTEGER then
      ⟨max 1 n, safe_max h⟩
    else firstPage

def normalizeDocumentPage (requestedPage : Option Int) (pageCount : Option Page) : Page :=
  let page := atLeastOne requestedPage
  match pageCount with
  | none => page
  | some count => ⟨min page.val (max 1 count.val), by omega⟩

/-! ## The reducer -/

/-- A page of a folder; `rest` is what this hook does not look at. -/
structure LibraryBrowse (β : Type) where
  parentId : Option NodeId
  rest : β

structure LibraryWorkspaceState (τ β γ : Type) where
  selection : LibrarySelection
  tree : List τ
  browse : Option (LibraryBrowse β)
  documents : List DocumentSummary
  jobs : DocumentId → Option γ
  loading : Bool
  refreshing : Bool
  treeError : Option String
  browseError : Option String
  documentsError : Option String
  notice : Option String
  uploadNotice : Option String

variable {τ β γ : Type}

def initialLibraryWorkspaceState (selection : LibrarySelection) : LibraryWorkspaceState τ β γ where
  selection := selection
  tree := []
  browse := none
  documents := []
  jobs := fun _ => none
  loading := true
  refreshing := false
  treeError := none
  browseError := none
  documentsError := none
  notice := none
  uploadNotice := none

inductive LibraryWorkspaceAction (τ β γ : Type) where
  | loadStart (folderId : Option NodeId)
  | loadComplete (selection : LibrarySelection) (tree : Option (List τ))
      (browse : Option (LibraryBrowse β)) (documents : Option (List DocumentSummary))
      (treeError browseError documentsError notice : Option String)
  | select (selection : LibrarySelection)
  | job (documentId : DocumentId) (job : γ)
  | uploadNotice (message : Option String)

/-- `browse?.parent_id === folderId ? browse : null`. -/
def keepBrowse (browse : Option (LibraryBrowse β)) (folderId : Option NodeId) :
    Option (LibraryBrowse β) :=
  browse.filter fun b => b.parentId = folderId

def libraryWorkspaceReducer (state : LibraryWorkspaceState τ β γ) :
    LibraryWorkspaceAction τ β γ → LibraryWorkspaceState τ β γ
  | .loadStart folderId =>
    { state with
      browse := keepBrowse state.browse folderId
      loading := (keepBrowse state.browse folderId).isNone
      refreshing := (keepBrowse state.browse folderId).isSome }
  | .loadComplete selection tree browse documents treeError browseError documentsError notice =>
    { state with
      selection := selection
      tree := tree.getD state.tree
      browse := browse <|> keepBrowse state.browse selection.folderId
      documents := documents.getD state.documents
      loading := false
      refreshing := false
      treeError := treeError
      browseError := browseError
      documentsError := documentsError
      notice := notice }
  | .select selection =>
    { state with
      selection := selection
      browse := keepBrowse state.browse selection.folderId }
  | .job documentId job =>
    { state with jobs := fun id => if id = documentId then some job else state.jobs id }
  | .uploadNotice message => { state with uploadNotice := message }

def currentDocument (state : LibraryWorkspaceState τ β γ) : Option DocumentSummary :=
  state.selection.documentId.bind fun id => state.documents.find? fun d => d.documentId = id

/-! ## The hook -/

/-- `KnowledgeBaseRouteState`. -/
structure RouteState where
  folderId : Option NodeId
  documentId : Option DocumentId
  page : Option Page
  invalidFolder : Bool
  invalidDocument : Bool
  invalidPage : Bool

def selectionFromRoute (route : RouteState) : LibrarySelection where
  folderId := route.folderId
  documentId := route.documentId
  page := route.documentId.map fun _ => route.page.getD firstPage
  paged := by simp

inductive Rejection where
  | abort
  /-- The message, and the status of an `ApiError`. -/
  | failed (status : Option Nat) (message : String)

/-- An entry of what `Promise.allSettled` gives. -/
inductive Settled (α : Type) where
  | fulfilled (value : α)
  | rejected (reason : Rejection)

def Settled.value? {α : Type} : Settled α → Option α
  | .fulfilled value => some value
  | .rejected _ => none

/-- The message, unless it is an abort. -/
def Settled.error? {α : Type} : Settled α → Option String
  | .rejected (.failed _ message) => some message
  | _ => none

/-- An answer that a selection may not agree with. -/
inductive Told where
  /-- A 404 for the folder. -/
  | folderGone (folderId : NodeId)
  | listed (documents : List DocumentSummary)

/-- The locals of a `load`; `told` is for the record. -/
structure Load where
  generation : Nat
  aborted : Bool
  requested : LibrarySelection
  notice : Option String
  told : List Told

/-- What a load has when it has heard of its three requests. -/
structure Loaded (τ β : Type) where
  tree : Settled (List τ)
  documents : Settled (List DocumentSummary)
  browse : Option (LibraryBrowse β)
  browseError : Option String

inductive LoadTask (τ β : Type) where
  /-- Waiting for `Promise.allSettled`. -/
  | settling (load : Load)
  /-- Waiting for the root, the folder being gone. -/
  | root (load : Load) (loaded : Loaded τ β)
  /-- Waiting for the folder of the document. -/
  | parent (load : Load) (loaded : Loaded τ β)

def LoadTask.load : LoadTask τ β → Load
  | .settling load => load
  | .root load _ => load
  | .parent load _ => load

def Load.abort (load : Load) : Load := { load with aborted := true }

def LoadTask.abort : LoadTask τ β → LoadTask τ β
  | .settling load => .settling load.abort
  | .root load loaded => .root load.abort loaded
  | .parent load loaded => .parent load.abort loaded

structure Record where
  /-- The selection committed last. -/
  committed : LibrarySelection
  /-- What the loads that completed since were told. -/
  told : List Told
  /-- The selections that they wrote. -/
  written : List LibrarySelection
  /-- The generation of the load that was started last. -/
  latest : Nat
  /-- The load that the last event completed, and what it wrote. -/
  completed : Option (Nat × LibrarySelection)

structure LibraryHook (τ β γ : Type) where
  state : LibraryWorkspaceState τ β γ
  stateRef : LibraryWorkspaceState τ β γ
  requestGeneration : Nat
  tasks : List (LoadTask τ β)
  record : Record

def dispatch (s : LibraryHook τ β γ) (action : LibraryWorkspaceAction τ β γ) :
    LibraryHook τ β γ :=
  { s with state := libraryWorkspaceReducer s.state action }

def await (s : LibraryHook τ β γ) (task : LoadTask τ β) : LibraryHook τ β γ :=
  { s with tasks := s.tasks ++ [task] }

def Record.commit (record : Record) (selection : LibrarySelection) : Record :=
  { record with committed := selection, told := [], written := [] }

/-- The argument of `load`. -/
structure LoadRequest where
  selection : LibrarySelection
  invalidFolder : Bool := false
  invalidDocument : Bool := false
  invalidPage : Bool := false
  notice : Option String := none

/-- `requested`, behind the three checks. -/
def LoadRequest.requested (request : LoadRequest) : LibrarySelection :=
  let folderId := if request.invalidFolder then none else request.selection.folderId
  if request.invalidDocument then .folder folderId
  else
    let requested := { request.selection with folderId := folderId }
    if request.invalidPage then requested.withPage firstPage else requested

/-- `notice`, behind the three checks. -/
def LoadRequest.startNotice (request : LoadRequest) : Option String :=
  if request.invalidPage ∧ request.requested.documentId.isSome then
    some "That page number is invalid. Showing page 1."
  else if request.invalidDocument then
    some "That document link is invalid. The current folder remains selected."
  else if request.invalidFolder then
    some "That folder link is invalid. Showing the knowledge-base root."
  else request.notice

def load (s : LibraryHook τ β γ) (request : LoadRequest) : LibraryHook τ β γ :=
  let generation := s.requestGeneration + 1
  await
    (dispatch
      { s with
        requestGeneration := generation
        tasks := s.tasks.map LoadTask.abort
        record := { s.record with latest := generation } }
      (.loadStart request.requested.folderId))
    (.settling ⟨generation, false, request.requested, request.startNotice, []⟩)

/-! ## The answers -/

/-- `controller.signal.aborted || generation !== requestGeneration.current`, the other way. -/
def isLive (s : LibraryHook τ β γ) (load : Load) : Prop :=
  load.aborted = false ∧ load.generation = s.requestGeneration

instance (s : LibraryHook τ β γ) (load : Load) : Decidable (isLive s load) :=
  inferInstanceAs (Decidable (_ ∧ _))

/-- From the last check on. -/
def complete (s : LibraryHook τ β γ) (load : Load) (loaded : Loaded τ β) : LibraryHook τ β γ :=
  if isLive s load then
    dispatch
      { s with
        record := { s.record with
          told := load.told ++ s.record.told
          written := load.requested :: s.record.written
          completed := some (load.generation, load.requested) } }
      (.loadComplete load.requested loaded.tree.value? loaded.browse loaded.documents.value?
        loaded.tree.error? loaded.browseError loaded.documents.error? load.notice)
  else s

def missingDocumentNotice : String :=
  "That document no longer exists. The current folder remains selected."

/-- From the look for the document on. -/
def locate (s : LibraryHook τ β γ) (load : Load) (loaded : Loaded τ β) : LibraryHook τ β γ :=
  match load.requested.documentId, loaded.documents with
  | some documentId, .fulfilled documents =>
    match documents.find? fun d => d.documentId = documentId with
    | none =>
      complete s
        { load with
          requested := .folder load.requested.folderId
          notice := some missingDocumentNotice }
        loaded
    | some document =>
      let located := { load with
        requested := .document document.parentId document.documentId
          (normalizeDocumentPage (load.requested.page.map (·.val)) document.pageCount) }
      if loaded.browse.map (·.parentId) ≠ some document.parentId then
        await s (.parent located loaded)
      else complete s located loaded
  | _, _ => complete s load loaded

/-- What the three answers say of a selection. -/
def tell (load : Load) (documents : Settled (List DocumentSummary))
    (browse : Settled (LibraryBrowse β)) : List Told :=
  let gone : List Told :=
    match browse, load.requested.folderId with
    | .rejected (.failed (some 404) _), some folderId => [.folderGone folderId]
    | _, _ => []
  match documents with
  | .fulfilled documents => .listed documents :: gone
  | .rejected _ => gone

def missingFolderNotice : String :=
  "That folder no longer exists. Showing the knowledge-base root."

/-- The three requests have settled. -/
def onSettled (s : LibraryHook τ β γ) (load : Load) (tree : Settled (List τ))
    (documents : Settled (List DocumentSummary)) (browse : Settled (LibraryBrowse β)) :
    LibraryHook τ β γ :=
  if isLive s load then
    let told := { load with told := tell load documents browse }
    let loaded : Loaded τ β := ⟨tree, documents, browse.value?, browse.error?⟩
    match browse, load.requested.folderId with
    | .rejected (.failed (some 404) _), some _ =>
      await s
        (.root
          { told with
            requested := { load.requested with folderId := none }
            notice := some missingFolderNotice }
          loaded)
    | _, _ => locate s told loaded
  else s

/-- What the answer of a further request changes: an abort leaves the earlier error. -/
def Loaded.browsed (loaded : Loaded τ β) : Settled (LibraryBrowse β) → Loaded τ β
  | .fulfilled browse => { loaded with browse := some browse, browseError := none }
  | .rejected .abort => loaded
  | .rejected (.failed _ message) => { loaded with browseError := some message }

/-! ## Callbacks -/

/-- `requestGeneration.current += 1; requestController.current?.abort()`. -/
def cleanup (s : LibraryHook τ β γ) : LibraryHook τ β γ :=
  { s with
    requestGeneration := s.requestGeneration + 1
    tasks := s.tasks.map LoadTask.abort }

def routeRequest (route : RouteState) : LoadRequest where
  selection := selectionFromRoute route
  invalidFolder := route.invalidFolder
  invalidDocument := route.invalidDocument
  invalidPage := route.invalidPage

/-- The effect of the address. -/
def openRoute (s : LibraryHook τ β γ) (route : RouteState) : LibraryHook τ β γ :=
  load { s with record := s.record.commit (routeRequest route).requested } (routeRequest route)

def refreshCurrent (s : LibraryHook τ β γ) (notice : Option String) : LibraryHook τ β γ :=
  load s { selection := s.stateRef.selection, notice := notice }

def commitSelection (s : LibraryHook τ β γ) (selection : LibrarySelection) : LibraryHook τ β γ :=
  dispatch
    { s with
      stateRef := { s.stateRef with
        selection := selection
        browse := keepBrowse s.stateRef.browse selection.folderId }
      record := s.record.commit selection }
    (.select selection)

def pushSelection (s : LibraryHook τ β γ) (selection : LibrarySelection) : LibraryHook τ β γ :=
  load (commitSelection s selection) { selection := selection }

def selectFolder (s : LibraryHook τ β γ) (folderId : Option NodeId) : LibraryHook τ β γ :=
  pushSelection s (.folder folderId)

def selectDocument (s : LibraryHook τ β γ) (document : DocumentSummary) : LibraryHook τ β γ :=
  pushSelection s (.document document.parentId document.documentId firstPage)

def selectPage (s : LibraryHook τ β γ) (page : Option Int) : LibraryHook τ β γ :=
  match currentDocument s.stateRef with
  | none => s
  | some document =>
    commitSelection s
      (s.stateRef.selection.withPage (normalizeDocumentPage page document.pageCount))

/-- `removeFolder`, once the folder is deleted. -/
def removeFolder (s : LibraryHook τ β γ) (nodeId : NodeId) (parentId : Option NodeId) :
    LibraryHook τ β γ :=
  if s.stateRef.selection.folderId = some nodeId then
    load (commitSelection s (.folder parentId))
      { selection := .folder parentId, notice := some "Folder deleted." }
  else refreshCurrent s (some "Folder deleted.")

/-- `removeDocument`, once the document is deleted. -/
def removeDocument (s : LibraryHook τ β γ) (documentId : DocumentId) : LibraryHook τ β γ :=
  if s.stateRef.selection.documentId = some documentId then
    let selection := .folder s.stateRef.selection.folderId
    load (commitSelection s selection)
      { selection := selection, notice := some "Document deleted." }
  else refreshCurrent s (some "Document deleted.")

/-- `upload`, once the file is there. -/
def upload (s : LibraryHook τ β γ) (parentId : Option NodeId) (documentId : DocumentId)
    (message : String) : LibraryHook τ β γ :=
  let selection := .document parentId documentId firstPage
  load (commitSelection (dispatch s (.uploadNotice (some message))) selection)
    { selection := selection }

def reconcileMissingDocument (s : LibraryHook τ β γ) : LibraryHook τ β γ :=
  let selection := .folder s.stateRef.selection.folderId
  load (commitSelection s selection)
    { selection := selection, notice := some "That document is no longer available." }

/-! ## Steps -/

inductive LibraryAct (τ β γ : Type) where
  | cleanup
  | openRoute (route : RouteState)
  | refresh (notice : Option String)
  | job (documentId : DocumentId) (job : γ)
  | selectFolder (folderId : Option NodeId)
  | selectDocument (document : DocumentSummary)
  | selectPage (page : Option Int)
  | removeFolder (nodeId : NodeId) (parentId : Option NodeId)
  | removeDocument (documentId : DocumentId)
  | upload (parentId : Option NodeId) (documentId : DocumentId) (message : String)
  | reconcileMissingDocument
  | refreshRef
  /-- The three requests of the task at this place have settled. -/
  | settle (index : Nat) (tree : Settled (List τ)) (documents : Settled (List DocumentSummary))
      (browse : Settled (LibraryBrowse β))
  /-- The further request of the task at this place has. -/
  | browsed (index : Nat) (browse : Settled (LibraryBrowse β))

def onSettle (s : LibraryHook τ β γ) (index : Nat) (tree : Settled (List τ))
    (documents : Settled (List DocumentSummary)) (browse : Settled (LibraryBrowse β)) :
    LibraryHook τ β γ :=
  match s.tasks[index]? with
  | some (.settling load) =>
    onSettled { s with tasks := s.tasks.eraseIdx index } load tree documents browse
  | _ => s

def onBrowsed (s : LibraryHook τ β γ) (index : Nat) (browse : Settled (LibraryBrowse β)) :
    LibraryHook τ β γ :=
  match s.tasks[index]? with
  | some (.root load loaded) =>
    locate { s with tasks := s.tasks.eraseIdx index } load (loaded.browsed browse)
  | some (.parent load loaded) =>
    complete { s with tasks := s.tasks.eraseIdx index } load (loaded.browsed browse)
  | _ => s

/-- An event begins with a record that has completed nothing. -/
def libraryStep (hook : LibraryHook τ β γ) (act : LibraryAct τ β γ) : LibraryHook τ β γ :=
  let s := { hook with record := { hook.record with completed := none } }
  match act with
  | .cleanup => cleanup s
  | .openRoute route => openRoute (cleanup s) route
  | .refresh notice => refreshCurrent s notice
  | .job documentId job => dispatch s (.job documentId job)
  | .selectFolder folderId => selectFolder s folderId
  | .selectDocument document => selectDocument s document
  | .selectPage page => selectPage s page
  | .removeFolder nodeId parentId => removeFolder s nodeId parentId
  | .removeDocument documentId => removeDocument s documentId
  | .upload parentId documentId message => upload s parentId documentId message
  | .reconcileMissingDocument => reconcileMissingDocument s
  | .refreshRef => { s with stateRef := s.state }
  | .settle index tree documents browse => onSettle s index tree documents browse
  | .browsed index browse => onBrowsed s index browse

/-- After the effects of the first render. -/
def mountLibrary (route : RouteState) : LibraryHook τ β γ :=
  openRoute
    { state := initialLibraryWorkspaceState (selectionFromRoute route)
      stateRef := initialLibraryWorkspaceState (selectionFromRoute route)
      requestGeneration := 0
      tasks := []
      record := ⟨selectionFromRoute route, [], [], 0, none⟩ }
    route

end LocalRag.Loading
