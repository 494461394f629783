import LocalRag.Access.Preview
import LocalRag.Core.Cycles

/-!
# The scope of a chat — selected nodes made canonical, and resolved to documents

Mirrors `ChatService._canonical_scope` and `ChatService._resolve_scope` of
`app/services/chats.py`. The first drops what lies below another selected folder and
looks above a node for selected folders only; the second looks at a file and above it for any
selected node, when the turn begins. Both climb by the parent links of the nodes the actor
can see and note where they have been.

In a forest what is dropped lies below a folder that is kept (`kept_above`), so the two walks
find the same documents for either selection (`canonicalScope_spec`). Whatever the links are,
both walks end; they raise for a cycle exactly if nothing on the way stops them
(`redundantLoop_cyclic_iff`, `inScopeLoop_cyclic_iff`).

Mirroring notes.
* `records` is keyed by the primary key. Identifiers sort as their texts do.
* The walks have fuel, one more than there are records; `unfinished` is not an answer and
  never one here.
-/

namespace LocalRag.Chat

open LocalRag.Core Access Library Relation

inductive ScopeError where
  /-- `ChatNotFound("scope node not found")`. -/
  | nodeNotFound
  /-- `LibraryCorruption("library scope ancestry is cyclic")`. -/
  | cyclicAncestry
  /-- `LibraryCorruption("library scope node has no parent")`. -/
  | noParent
  | unfinished
deriving Repr, DecidableEq

/-! ## `_canonical_scope` -/

section Canonical

variable (nodes : List LibraryNode) (selected : List NodeId)

/-- The inner loop: whether a selected folder lies above. -/
def redundantLoop : Nat → List NodeId → Option NodeId → Except ScopeError Bool
  | _, _, none => .ok false
  | 0, _, some _ => .error .unfinished
  | fuel + 1, seen, some parentId =>
    if parentId ∈ seen then .error .cyclicAncestry
    else
      match nodeById nodes parentId with
      | none => .error .noParent
      | some parent =>
        if parentId ∈ selected ∧ parent.kind = .folder then .ok true
        else redundantLoop fuel (seen ++ [parentId]) parent.parentId

/-- `records[node_id].parent_id`, of a node that is there. -/
def parentIdOf (nodeId : NodeId) : Option NodeId := (nodeById nodes nodeId).bind (·.parentId)

def canonicalLoop : List NodeId → List NodeId → Except ScopeError (List NodeId)
  | [], canonical => .ok canonical
  | nodeId :: rest, canonical =>
    match redundantLoop nodes selected (nodes.length + 1) [] (parentIdOf nodes nodeId) with
    | .error e => .error e
    | .ok true => canonicalLoop rest canonical
    | .ok false => canonicalLoop rest (canonical ++ [nodeId])

/-- `_canonical_scope`. -/
def canonicalScope : Except ScopeError (List NodeId) :=
  if selected.any fun nodeId => nodeById nodes nodeId = none then .error .nodeNotFound
  else canonicalLoop nodes selected (sortedIds selected) []

end Canonical

/-! ## `_resolve_scope` -/

inductive ScopeMode where
  | allReady
  | selected (nodeIds : List NodeId)
deriving Repr, DecidableEq

section Resolve

variable (nodes : List LibraryNode) (ready : List DocumentId) (selected : List NodeId)

/-- The inner loop: whether a node or one above it is selected. -/
def inScopeLoop : Nat → List NodeId → Option LibraryNode → Except ScopeError Bool
  | _, _, none => .ok false
  | 0, _, some _ => .error .unfinished
  | fuel + 1, seen, some current =>
    if current.id ∈ selected then .ok true
    else if current.id ∈ seen then .error .cyclicAncestry
    else inScopeLoop fuel (seen ++ [current.id]) (current.parentId.bind (nodeById nodes))

/-- The document of a file, if it is ready. -/
def readyDocument (node : LibraryNode) : Option DocumentId :=
  if node.kind = .file then node.documentId.filter (· ∈ ready) else none

def resolveLoop : List LibraryNode → List DocumentId → Except ScopeError (List DocumentId)
  | [], resolved => .ok resolved
  | node :: rest, resolved =>
    match readyDocument ready node with
    | none => resolveLoop rest resolved
    | some documentId =>
      match inScopeLoop nodes selected (nodes.length + 1) [] (some node) with
      | .error e => .error e
      | .ok true => resolveLoop rest (resolved ++ [documentId])
      | .ok false => resolveLoop rest resolved

/-- `_resolve_scope`. -/
def resolveScope : ScopeMode → Except ScopeError (List DocumentId)
  | .allReady => .ok ((nodes.filterMap (readyDocument ready)).insertionSort (· ≤ ·))
  | .selected nodeIds => (resolveLoop nodes ready nodeIds nodes []).map sortedIds

theorem resolveScope_selected :
    resolveScope nodes ready (.selected selected)
      = (resolveLoop nodes ready selected nodes []).map sortedIds := rfl

end Resolve

/-! ## The walks -/

/-- A parent link, also to a node that is not there. -/
def ParentLink (nodes : List LibraryNode) (a b : NodeId) : Prop :=
  ∃ n, nodeById nodes a = some n ∧ n.parentId = some b

variable {a : NodeId}

variable {b : NodeId}

theorem parentLink_unique {nodes : List LibraryNode} {c : NodeId} (hb : ParentLink nodes a b)
    (hc : ParentLink nodes a c) : b = c := by
  obtain ⟨n, hn, hb⟩ := hb
  obtain ⟨m, hm, hc⟩ := hc
  obtain rfl := Option.some.inj (hn.symm.trans hm)
  exact Option.some.inj (hb.symm.trans hc)

section Walks

variable {nodes : List LibraryNode} {selected : List NodeId}

/-- What the loop of `_canonical_scope` does at a node above. -/
def redundantVisit (nodes : List LibraryNode) (selected : List NodeId) (a : NodeId) :
    Visit NodeId (Except ScopeError Bool) :=
  match nodeById nodes a with
  | none => .stop (.error .noParent)
  | some n =>
    if a ∈ selected ∧ n.kind = .folder then .stop (.ok true)
    else
      match n.parentId with
      | none => .stop (.ok false)
      | some b => .go b

/-- What the loop of `_resolve_scope` does at a node. -/
def inScopeVisit (nodes : List LibraryNode) (selected : List NodeId) (a : NodeId) :
    Visit NodeId (Except ScopeError Bool) :=
  if a ∈ selected then .stop (.ok true)
  else
    match (parentIdOf nodes a).bind (nodeById nodes) with
    | none => .stop (.ok false)
    | some m => .go m.id

/-- What a loop makes of the end of its walk. -/
def answer : Walked (Except ScopeError Bool) → Except ScopeError Bool
  | .stopped result => result
  | .cyclic => .error .cyclicAncestry
  | .unfinished => .error .unfinished

theorem redundantLoop_eq (fuel : Nat) (seen : List NodeId) (a : NodeId) :
    redundantLoop nodes selected fuel seen (some a)
      = answer (walk (redundantVisit nodes selected) fuel seen a) := by
  induction fuel generalizing seen a with
  | zero => rfl
  | succ fuel ih =>
    unfold redundantLoop walk redundantVisit
    split
    · rfl
    · cases nodeById nodes a with
      | none => rfl
      | some n =>
        dsimp only
        split
        · rfl
        · cases n.parentId with
          | none =>
            unfold redundantLoop
            rfl
          | some b => exact ih (seen ++ [a]) b

theorem inScopeLoop_eq {fuel : Nat} {seen : List NodeId} {n : LibraryNode}
    (hn : nodeById nodes n.id = some n) (hseen : ∀ s ∈ seen, s ∉ selected) :
    inScopeLoop nodes selected fuel seen (some n)
      = answer (walk (inScopeVisit nodes selected) fuel seen n.id) := by
  induction fuel generalizing seen n with
  | zero => rfl
  | succ fuel ih =>
    unfold inScopeLoop walk inScopeVisit
    by_cases hselected : n.id ∈ selected
    · -- a selected node is not among those passed
      have hnew : n.id ∉ seen := fun hmem => hseen _ hmem hselected
      rw [if_pos hselected, if_neg hnew, if_pos hselected]
      rfl
    · rw [if_neg hselected]
      by_cases hmem : n.id ∈ seen
      · rw [if_pos hmem, if_pos hmem]
        rfl
      · have hparent : parentIdOf nodes n.id = n.parentId := by
          unfold parentIdOf
          rw [hn, Option.bind_some]
        rw [if_neg hmem, if_neg hmem, if_neg hselected, hparent]
        cases hm : n.parentId.bind (nodeById nodes) with
        | none =>
          unfold inScopeLoop
          rfl
        | some m =>
          obtain ⟨b, -, hb⟩ := Option.bind_eq_some_iff.mp hm
          refine ih ?_ ?_
          · rw [(nodeById_id hb).2]
            exact hb
          · intro s hs
            rw [List.mem_append, List.mem_singleton] at hs
            cases hs with
            | inl hs => exact hseen s hs
            | inr hs => rwa [hs]

theorem redundantVisit_go :
    redundantVisit nodes selected a = .go b ↔
      ∃ n, nodeById nodes a = some n ∧ n.parentId = some b ∧
        ¬ (a ∈ selected ∧ n.kind = .folder) := by
  unfold redundantVisit
  constructor
  · intro h
    split at h
    · exact absurd h (by simp)
    next n hn =>
      split at h
      · exact absurd h (by simp)
      next hfolder =>
        split at h
        · exact absurd h (by simp)
        next c hc =>
          obtain rfl := Visit.go.inj h
          exact ⟨n, hn, hc, hfolder⟩
  · intro h
    obtain ⟨n, hn, hb, hfolder⟩ := h
    simp only [hn, if_neg hfolder, hb]

theorem redundantVisit_true :
    redundantVisit nodes selected a = .stop (.ok true) ↔
      a ∈ selected ∧ ∃ n, nodeById nodes a = some n ∧ n.kind = .folder := by
  unfold redundantVisit
  constructor
  · intro h
    split at h
    · exact absurd h (by simp)
    next n hn =>
      split at h
      next hfolder => exact ⟨hfolder.1, n, hn, hfolder.2⟩
      · split at h
        · exact absurd h (by simp)
        · exact absurd h (by simp)
  · intro h
    obtain ⟨hselected, n, hn, hkind⟩ := h
    simp only [hn, if_pos (And.intro hselected hkind)]

theorem inScopeVisit_go :
    inScopeVisit nodes selected a = .go b ↔
      a ∉ selected ∧ ParentLink nodes a b ∧ ∃ m, nodeById nodes b = some m := by
  unfold inScopeVisit
  constructor
  · intro h
    split at h
    · exact absurd h (by simp)
    next hselected =>
      split at h
      · exact absurd h (by simp)
      next m hm =>
        obtain rfl := Visit.go.inj h
        obtain ⟨c, hc, hfound⟩ := Option.bind_eq_some_iff.mp hm
        obtain ⟨n, hn, hparent⟩ := Option.bind_eq_some_iff.mp hc
        have hid := (nodeById_id hfound).2
        rw [hid]
        exact ⟨hselected, ⟨n, hn, hparent⟩, m, hfound⟩
  · intro h
    obtain ⟨hselected, ⟨n, hn, hb⟩, m, hm⟩ := h
    have hparent : (parentIdOf nodes a).bind (nodeById nodes) = some m := by
      unfold parentIdOf
      rw [hn, Option.bind_some, hb, Option.bind_some, hm]
    simp only [if_neg hselected, hparent, (nodeById_id hm).2]

theorem inScopeVisit_true : inScopeVisit nodes selected a = .stop (.ok true) ↔ a ∈ selected := by
  unfold inScopeVisit
  constructor
  · intro h
    split at h
    next hselected => exact hselected
    · split at h
      · exact absurd h (by simp)
      · exact absurd h (by simp)
  · intro h
    rw [if_pos h]

/-- What either walk goes on from is a node that is there. -/
theorem redundantVisit_left (h : redundantVisit nodes selected a = .go b) :
    a ∈ nodes.map (·.id) := by
  obtain ⟨n, hn, -, -⟩ := redundantVisit_go.mp h
  obtain ⟨hmem, rfl⟩ := nodeById_id hn
  exact List.mem_map_of_mem hmem

theorem inScopeVisit_left (h : inScopeVisit nodes selected a = .go b) : a ∈ nodes.map (·.id) := by
  obtain ⟨-, ⟨n, hn, -⟩, -⟩ := inScopeVisit_go.mp h
  obtain ⟨hmem, rfl⟩ := nodeById_id hn
  exact List.mem_map_of_mem hmem

/-! ## Both walks end -/

/-- The walk of `_canonical_scope` above a node. -/
def isRedundant (nodes : List LibraryNode) (selected : List NodeId) (nodeId : NodeId) :
    Except ScopeError Bool :=
  redundantLoop nodes selected (nodes.length + 1) [] (parentIdOf nodes nodeId)

/-- The walk of `_resolve_scope` from a node. -/
def isInScope (nodes : List LibraryNode) (selected : List NodeId) (node : LibraryNode) :
    Except ScopeError Bool :=
  inScopeLoop nodes selected (nodes.length + 1) [] (some node)

theorem isRedundant_eq {nodeId parentId : NodeId} (h : parentIdOf nodes nodeId = some parentId) :
    isRedundant nodes selected nodeId
      = answer (walk (redundantVisit nodes selected) ((nodes.map (·.id)).length + 1) [] parentId) := by
  unfold isRedundant
  rw [h, redundantLoop_eq, List.length_map]

theorem isInScope_eq {n : LibraryNode} (hn : nodeById nodes n.id = some n) :
    isInScope nodes selected n
      = answer (walk (inScopeVisit nodes selected) ((nodes.map (·.id)).length + 1) [] n.id) := by
  unfold isInScope
  rw [inScopeLoop_eq hn (fun s hs => absurd hs List.not_mem_nil), List.length_map]

theorem stop_ne_unfinished {result : Except ScopeError Bool}
    (h : redundantVisit nodes selected a = .stop result ∨
      inScopeVisit nodes selected a = .stop result) :
    result ≠ .error .unfinished ∧ result ≠ .error .cyclicAncestry := by
  cases h with
  | inl h =>
    unfold redundantVisit at h
    split at h
    · rw [← Visit.stop.inj h]
      simp
    · split at h
      · rw [← Visit.stop.inj h]
        simp
      · split at h
        · rw [← Visit.stop.inj h]
          simp
        · exact absurd h (by simp)
  | inr h =>
    unfold inScopeVisit at h
    split at h
    · rw [← Visit.stop.inj h]
      simp
    · split at h
      · rw [← Visit.stop.inj h]
        simp
      · exact absurd h (by simp)

/-- A walk is over for any links, and raises for a cycle if nothing stops it. -/
theorem redundantLoop_cyclic_iff (nodeId : NodeId) :
    isRedundant nodes selected nodeId ≠ .error .unfinished ∧
      (isRedundant nodes selected nodeId = .error .cyclicAncestry ↔
        (∃ p, ParentLink nodes nodeId p) ∧ ∀ c, TransGen (ParentLink nodes) nodeId c →
          ∃ n p, nodeById nodes c = some n ∧ n.parentId = some p ∧
            ¬ (c ∈ selected ∧ n.kind = .folder)) := by
  cases hparent : parentIdOf nodes nodeId with
  | none =>
    have hrun : isRedundant nodes selected nodeId = .ok false := by
      unfold isRedundant redundantLoop
      rw [hparent]
    rw [hrun]
    refine ⟨by simp, iff_of_false (by simp) fun h => ?_⟩
    obtain ⟨⟨p, n, hn, hp⟩, -⟩ := h
    unfold parentIdOf at hparent
    rw [hn, Option.bind_some, hp] at hparent
    exact absurd hparent (by simp)
  | some parentId =>
    have hlink : ParentLink nodes nodeId parentId := by
      obtain ⟨n, hn, hp⟩ := Option.bind_eq_some_iff.mp hparent
      exact ⟨n, hn, hp⟩
    have hendless : Endless (redundantVisit nodes selected) parentId ↔
        ∀ c, TransGen (ParentLink nodes) nodeId c → ∃ n p, nodeById nodes c = some n ∧
          n.parentId = some p ∧ ¬ (c ∈ selected ∧ n.kind = .folder) := by
      rw [endless_iff (ParentLink nodes) (fun a b hgo => ?_) fun _ _ _ => parentLink_unique]
      · constructor
        · intro h c hc
          obtain ⟨q, hq, hrest⟩ := TransGen.head'_iff.mp hc
          rw [parentLink_unique hq hlink] at hrest
          obtain ⟨d, hd⟩ := h c hrest
          obtain ⟨n, hn, hp, hfolder⟩ := redundantVisit_go.mp hd
          exact ⟨n, d, hn, hp, hfolder⟩
        · intro h c hc
          obtain ⟨n, p, hn, hp, hfolder⟩ := h c (TransGen.head' hlink hc)
          exact ⟨p, redundantVisit_go.mpr ⟨n, hn, hp, hfolder⟩⟩
      · obtain ⟨n, hn, hp, -⟩ := redundantVisit_go.mp hgo
        exact ⟨n, hn, hp⟩
    rw [isRedundant_eq hparent]
    cases walk_cases (fun _ _ => redundantVisit_left) parentId with
    | inl hstopped =>
      obtain ⟨c, result, hwalk, hc, hstop⟩ := hstopped
      obtain ⟨hnot, hacyclic⟩ := stop_ne_unfinished (Or.inl hstop)
      rw [hwalk]
      refine ⟨hnot, iff_of_false hacyclic fun h => ?_⟩
      obtain ⟨d, hd⟩ := hendless.mpr h.2 c hc
      rw [hstop] at hd
      exact absurd hd (by simp)
    | inr hcyclic =>
      rw [hcyclic.1]
      exact ⟨by simp [answer], iff_of_true rfl ⟨⟨parentId, hlink⟩, hendless.mp hcyclic.2⟩⟩

theorem inScopeLoop_cyclic_iff {node : LibraryNode} (hnode : nodeById nodes node.id = some node) :
    isInScope nodes selected node ≠ .error .unfinished ∧
      (isInScope nodes selected node = .error .cyclicAncestry ↔
        ∀ c, ReflTransGen (ParentLink nodes) node.id c →
          c ∉ selected ∧ ∃ p m, ParentLink nodes c p ∧ nodeById nodes p = some m) := by
  have hendless : Endless (inScopeVisit nodes selected) node.id ↔
      ∀ c, ReflTransGen (ParentLink nodes) node.id c →
        c ∉ selected ∧ ∃ p m, ParentLink nodes c p ∧ nodeById nodes p = some m := by
    rw [endless_iff (ParentLink nodes)
      (fun a b hgo => (inScopeVisit_go.mp hgo).2.1) fun _ _ _ => parentLink_unique]
    refine forall₂_congr fun c _ => ?_
    constructor
    · intro h
      obtain ⟨d, hd⟩ := h
      obtain ⟨hout, hlink, m, hm⟩ := inScopeVisit_go.mp hd
      exact ⟨hout, d, m, hlink, hm⟩
    · intro h
      obtain ⟨hout, p, m, hlink, hm⟩ := h
      exact ⟨p, inScopeVisit_go.mpr ⟨hout, hlink, m, hm⟩⟩
  rw [isInScope_eq hnode]
  cases walk_cases (fun _ _ => inScopeVisit_left) node.id with
  | inl hstopped =>
    obtain ⟨c, result, hwalk, hc, hstop⟩ := hstopped
    obtain ⟨hnot, hacyclic⟩ := stop_ne_unfinished (Or.inr hstop)
    rw [hwalk]
    refine ⟨hnot, iff_of_false hacyclic fun h => ?_⟩
    obtain ⟨d, hd⟩ := hendless.mpr h c hc
    rw [hstop] at hd
    exact absurd hd (by simp)
  | inr hcyclic =>
    rw [hcyclic.1]
    exact ⟨by simp [answer], iff_of_true rfl (hendless.mp hcyclic.2)⟩

end Walks

/-! ## In a forest -/

/-- The nodes the actor sees: every parent is among them, and every node has a root above. -/
structure VisibleForest (nodes : List LibraryNode) : Prop where
  keyed : Keyed (·.id) nodes
  present : ∀ n ∈ nodes, ∀ p, n.parentId = some p → ∃ m ∈ nodes, m.id = p
  rooted : ∀ n ∈ nodes, ∃ r ∈ nodes, ReflTransGen (ParentLink nodes) n.id r.id ∧ r.parentId = none

namespace VisibleForest

variable {nodes : List LibraryNode} {selected : List NodeId}

theorem link_present (h : VisibleForest nodes) (hab : ParentLink nodes a b) :
    ∃ m, nodeById nodes b = some m := by
  obtain ⟨n, hn, hp⟩ := hab
  obtain ⟨m, hm, rfl⟩ := h.present n (nodeById_id hn).1 b hp
  exact ⟨m, nodeById_of_mem h.keyed hm⟩

theorem path_present (h : VisibleForest nodes) (ha : ∃ n, nodeById nodes a = some n)
    (hab : ReflTransGen (ParentLink nodes) a b) : ∃ m, nodeById nodes b = some m := by
  induction hab with
  | refl => exact ha
  | tail _ hbc _ => exact h.link_present hbc

/-- No walk along the links goes on for ever. -/
theorem not_endless (h : VisibleForest nodes)
    {visit : NodeId → Visit NodeId (Except ScopeError Bool)}
    (hgoes : ∀ a b, GoesTo visit a b → ParentLink nodes a b) (ha : ∃ n, nodeById nodes a = some n) :
    ¬ Endless visit a := by
  intro hendless
  obtain ⟨n, hn⟩ := ha
  obtain ⟨hmem, rfl⟩ := nodeById_id hn
  obtain ⟨r, hr, hpath, hroot⟩ := h.rooted n hmem
  obtain ⟨d, hd⟩ := (endless_iff (ParentLink nodes) hgoes fun _ _ _ => parentLink_unique).mp hendless r.id hpath
  obtain ⟨m, hm, hp⟩ := hgoes _ _ hd
  rw [nodeById_of_mem h.keyed hr] at hm
  obtain rfl := Option.some.inj hm
  rw [hroot] at hp
  exact absurd hp (by simp)

/-- A node is redundant if a selected folder lies above it. -/
theorem isRedundant_spec (h : VisibleForest nodes) (selected : List NodeId)
    (ha : ∃ n, nodeById nodes a = some n) :
    ∃ found, isRedundant nodes selected a = .ok found ∧
      (found = true ↔ ∃ c, TransGen (ParentLink nodes) a c ∧ c ∈ selected ∧
        isFolder nodes c = true) := by
  have hfolder : ∀ c, (∃ n, nodeById nodes c = some n ∧ n.kind = .folder) ↔
      isFolder nodes c = true := by
    intro c
    rw [isFolder_iff]
    constructor
    · intro hn
      obtain ⟨n, hn, hkind⟩ := hn
      exact ⟨n, (nodeById_id hn).1, (nodeById_id hn).2, hkind⟩
    · intro hn
      obtain ⟨n, hn, rfl, hkind⟩ := hn
      exact ⟨n, nodeById_of_mem h.keyed hn, hkind⟩
  obtain ⟨n, hn⟩ := ha
  have hparentOf : parentIdOf nodes a = n.parentId := by
    unfold parentIdOf
    rw [hn, Option.bind_some]
  cases hparent : n.parentId with
  | none =>
    refine ⟨false, ?_, iff_of_false (by simp) fun hc => ?_⟩
    · unfold isRedundant redundantLoop
      rw [hparentOf, hparent]
    · obtain ⟨c, hc, -⟩ := hc
      obtain ⟨p, ⟨m, hm, hp⟩, -⟩ := TransGen.head'_iff.mp hc
      obtain rfl := Option.some.inj (hn.symm.trans hm)
      rw [hparent] at hp
      exact absurd hp (by simp)
  | some p =>
    have hlink : ParentLink nodes a p := ⟨n, hn, hparent⟩
    have hgoes : ∀ a b, GoesTo (redundantVisit nodes selected) a b → ParentLink nodes a b := by
      intro a b hgo
      obtain ⟨m, hm, hb, -⟩ := redundantVisit_go.mp hgo
      exact ⟨m, hm, hb⟩
    have hp := h.link_present hlink
    rw [isRedundant_eq (hparentOf.trans hparent)]
    cases walk_cases (fun _ _ => redundantVisit_left) p with
    | inr hcyclic => exact absurd hcyclic.2 (h.not_endless hgoes hp)
    | inl hstopped =>
      obtain ⟨c, result, hwalk, hc, hstop⟩ := hstopped
      obtain ⟨m, hm⟩ := h.path_present hp (reaches_of_goes hgoes hc)
      have hresult : ∃ found, result = .ok found := by
        unfold redundantVisit at hstop
        rw [hm] at hstop
        dsimp only at hstop
        split at hstop
        · exact ⟨true, (Visit.stop.inj hstop).symm⟩
        · split at hstop
          · exact ⟨false, (Visit.stop.inj hstop).symm⟩
          · exact absurd hstop (by simp)
      obtain ⟨found, rfl⟩ := hresult
      rw [hwalk]
      refine ⟨found, rfl, ?_⟩
      constructor
      · intro hfound
        subst hfound
        obtain ⟨hselected, hkind⟩ := redundantVisit_true.mp hstop
        exact ⟨c, TransGen.head' hlink (reaches_of_goes hgoes hc), hselected, (hfolder c).mp hkind⟩
      · intro hab
        obtain ⟨d, hd, hselected, hkind⟩ := hab
        obtain ⟨q, hq, hrest⟩ := TransGen.head'_iff.mp hd
        rw [parentLink_unique hq hlink] at hrest
        have hlinks : ∀ x y, ParentLink nodes x y →
            GoesTo (redundantVisit nodes selected) x y ∨
              redundantVisit nodes selected x = .stop (.ok true) := by
          intro x y hxy
          obtain ⟨k, hk, hy⟩ := hxy
          by_cases hx : x ∈ selected ∧ k.kind = .folder
          · exact Or.inr (redundantVisit_true.mpr ⟨hx.1, k, hk, hx.2⟩)
          · exact Or.inl (redundantVisit_go.mpr ⟨k, hk, hy, hx⟩)
        obtain ⟨e, he, hstop'⟩ := reaches_stop hlinks hrest
          (redundantVisit_true.mpr ⟨hselected, (hfolder d).mpr hkind⟩)
        exact Except.ok.inj (stop_unique hc hstop he hstop')

/-- A node is in scope if it or a node above it is selected. -/
theorem isInScope_spec (h : VisibleForest nodes) (selected : List NodeId) {n : LibraryNode}
    (hn : n ∈ nodes) :
    ∃ found, isInScope nodes selected n = .ok found ∧
      (found = true ↔ ∃ c ∈ selected, ReflTransGen (ParentLink nodes) n.id c) := by
  have hgoes : ∀ a b, GoesTo (inScopeVisit nodes selected) a b → ParentLink nodes a b :=
    fun a b hgo => (inScopeVisit_go.mp hgo).2.1
  have hself := nodeById_of_mem h.keyed hn
  rw [isInScope_eq hself]
  cases walk_cases (fun _ _ => inScopeVisit_left) n.id with
  | inr hcyclic => exact absurd hcyclic.2 (h.not_endless hgoes ⟨n, hself⟩)
  | inl hstopped =>
    obtain ⟨c, result, hwalk, hc, hstop⟩ := hstopped
    have hresult : ∃ found, result = .ok found := by
      unfold inScopeVisit at hstop
      split at hstop
      · exact ⟨true, (Visit.stop.inj hstop).symm⟩
      · split at hstop
        · exact ⟨false, (Visit.stop.inj hstop).symm⟩
        · exact absurd hstop (by simp)
    obtain ⟨found, rfl⟩ := hresult
    rw [hwalk]
    refine ⟨found, rfl, ?_⟩
    constructor
    · intro hfound
      subst hfound
      exact ⟨c, inScopeVisit_true.mp hstop, reaches_of_goes hgoes hc⟩
    · intro hab
      obtain ⟨d, hselected, hd⟩ := hab
      have hlinks : ∀ x y, ParentLink nodes x y →
          GoesTo (inScopeVisit nodes selected) x y ∨
            inScopeVisit nodes selected x = .stop (.ok true) := by
        intro x y hxy
        by_cases hx : x ∈ selected
        · exact Or.inr (inScopeVisit_true.mpr hx)
        · exact Or.inl (inScopeVisit_go.mpr ⟨hx, hxy, h.link_present hxy⟩)
      obtain ⟨e, he, hstop'⟩ := reaches_stop hlinks hd (inScopeVisit_true.mpr hselected)
      exact Except.ok.inj (stop_unique hc hstop he hstop')

/-- What a walk up from a node meets of the selection lies below something that is kept of it. -/
theorem kept_above (h : VisibleForest nodes) {n : LibraryNode} (hn : n ∈ nodes) {s : NodeId}
    (hs : s ∈ selected) (hpath : ReflTransGen (ParentLink nodes) n.id s) :
    ∃ c ∈ selected, ReflTransGen (ParentLink nodes) n.id c ∧
      ¬ ∃ f, TransGen (ParentLink nodes) c f ∧ f ∈ selected ∧ isFolder nodes f = true := by
  obtain ⟨r, hr, htop, hroot⟩ := h.rooted n hn
  generalize n.id = start at hpath htop ⊢
  -- from the root down: the node itself is kept, or what lies above it is asked
  induction htop using ReflTransGen.head_induction_on generalizing s with
  | refl =>
    have hstays : ∀ c, ¬ TransGen (ParentLink nodes) r.id c := by
      intro c hc
      obtain ⟨p, ⟨m, hm, hp⟩, -⟩ := TransGen.head'_iff.mp hc
      rw [nodeById_of_mem h.keyed hr] at hm
      obtain rfl := Option.some.inj hm
      rw [hroot] at hp
      exact absurd hp (by simp)
    have hself : s = r.id := by
      cases ReflTransGen.cases_head hpath with
      | inl heq => exact heq.symm
      | inr hstep =>
        obtain ⟨p, hp, hrest⟩ := hstep
        exact absurd (TransGen.head' hp hrest) (hstays s)
    rw [hself] at hs
    refine ⟨r.id, hs, ReflTransGen.refl, fun hf => ?_⟩
    obtain ⟨f, hf, -⟩ := hf
    exact hstays f hf
  | @head a p hap _ ih =>
    by_cases hkept : ∃ f, TransGen (ParentLink nodes) s f ∧ f ∈ selected ∧ isFolder nodes f = true
    · obtain ⟨f, hsf, hf, -⟩ := hkept
      obtain ⟨q, hq, hrest⟩ := TransGen.head'_iff.mp (TransGen.trans_right hpath hsf)
      rw [parentLink_unique hq hap] at hrest
      obtain ⟨c, hc, hpc, hnone⟩ := ih hf hrest
      exact ⟨c, hc, ReflTransGen.head hap hpc, hnone⟩
    · exact ⟨s, hs, hpath, hkept⟩

end VisibleForest

/-! ## The two selections -/

section Scope

variable {nodes : List LibraryNode} {selected : List NodeId}

/-- Kept by the loop of `_canonical_scope`. -/
def isKept (nodes : List LibraryNode) (selected : List NodeId) (nodeId : NodeId) : Bool :=
  match isRedundant nodes selected nodeId with
  | .ok false => true
  | _ => false

theorem canonicalLoop_eq {nodeIds canonical : List NodeId}
    (h : ∀ i ∈ nodeIds, ∃ found, isRedundant nodes selected i = .ok found) :
    canonicalLoop nodes selected nodeIds canonical
      = .ok (canonical ++ nodeIds.filter (isKept nodes selected)) := by
  induction nodeIds generalizing canonical with
  | nil =>
    unfold canonicalLoop
    rw [List.filter_nil, List.append_nil]
  | cons i rest ih =>
    obtain ⟨found, hfound⟩ := h i List.mem_cons_self
    have hrest : ∀ acc, canonicalLoop nodes selected rest acc
        = .ok (acc ++ rest.filter (isKept nodes selected)) :=
      fun _ => ih fun j hj => h j (List.mem_cons_of_mem _ hj)
    have hrun := hfound
    unfold isRedundant at hrun
    unfold canonicalLoop
    rw [hrun]
    cases found with
    | true =>
      have hdrop : isKept nodes selected i = false := by
        unfold isKept
        rw [hfound]
      dsimp only
      rw [hrest, List.filter_cons_of_neg (by simp [hdrop])]
    | false =>
      have hkeep : isKept nodes selected i = true := by
        unfold isKept
        rw [hfound]
      dsimp only
      rw [hrest, List.filter_cons_of_pos hkeep, List.append_assoc]
      rfl

theorem canonicalLoop_ne_unfinished {nodeIds canonical : List NodeId} :
    canonicalLoop nodes selected nodeIds canonical ≠ .error .unfinished := by
  induction nodeIds generalizing canonical with
  | nil =>
    unfold canonicalLoop
    simp
  | cons i rest ih =>
    have hends := (@redundantLoop_cyclic_iff nodes selected i).1
    unfold isRedundant at hends
    unfold canonicalLoop
    split
    next e he =>
      rw [he] at hends
      simpa using hends
    · exact ih
    · exact ih

theorem resolveLoop_ne_unfinished (hkeyed : Keyed (·.id) nodes) (ready : List DocumentId)
    {rest : List LibraryNode} (hrest : ∀ n ∈ rest, n ∈ nodes) {resolved : List DocumentId} :
    resolveLoop nodes ready selected rest resolved ≠ .error .unfinished := by
  induction rest generalizing resolved with
  | nil =>
    unfold resolveLoop
    simp
  | cons n rest ih =>
    have hnext : ∀ acc, resolveLoop nodes ready selected rest acc ≠ .error .unfinished :=
      fun _ => ih fun m hm => hrest m (List.mem_cons_of_mem _ hm)
    have hself := nodeById_of_mem hkeyed (hrest n List.mem_cons_self)
    have hends : isInScope nodes selected n ≠ .error .unfinished := (inScopeLoop_cyclic_iff hself).1
    unfold isInScope at hends
    unfold resolveLoop
    split
    · exact hnext _
    · split
      next e he =>
        rw [he] at hends
        simpa using hends
      · exact hnext _
      · exact hnext _

/-- The loop collects the ready documents of the files in scope. -/
theorem resolveLoop_ok (h : VisibleForest nodes) (ready : List DocumentId)
    (selected : List NodeId) (rest : List LibraryNode) (hrest : ∀ n ∈ rest, n ∈ nodes)
    (resolved : List DocumentId) :
    ∃ docs, resolveLoop nodes ready selected rest resolved = .ok docs ∧
      ∀ d, d ∈ docs ↔ d ∈ resolved ∨ ∃ n ∈ rest, readyDocument ready n = some d ∧
        ∃ c ∈ selected, ReflTransGen (ParentLink nodes) n.id c := by
  induction rest generalizing resolved with
  | nil =>
    refine ⟨resolved, rfl, fun d => ?_⟩
    simp
  | cons n rest ih =>
    have hnext := ih fun m hm => hrest m (List.mem_cons_of_mem _ hm)
    obtain ⟨found, hfound, hiff⟩ := h.isInScope_spec selected (hrest n List.mem_cons_self)
    unfold isInScope at hfound
    unfold resolveLoop
    cases hready : readyDocument ready n with
    | none =>
      obtain ⟨docs, hdocs, hmem⟩ := hnext resolved
      refine ⟨docs, hdocs, fun d => ?_⟩
      rw [hmem, List.exists_mem_cons_iff, hready]
      simp
    | some documentId =>
      dsimp only
      rw [hfound]
      cases found with
      | true =>
        obtain ⟨docs, hdocs, hmem⟩ := hnext (resolved ++ [documentId])
        refine ⟨docs, hdocs, fun d => ?_⟩
        have habove := hiff.mp rfl
        rw [hmem, List.exists_mem_cons_iff, hready, List.mem_append, List.mem_singleton]
        have hhere : (some documentId = some d ∧ ∃ c ∈ selected, ReflTransGen (ParentLink nodes) n.id c)
            ↔ d = documentId := by
          rw [Option.some.injEq]
          exact ⟨fun hd => hd.1.symm, fun hd => ⟨hd.symm, habove⟩⟩
        rw [hhere, or_assoc]
      | false =>
        obtain ⟨docs, hdocs, hmem⟩ := hnext resolved
        refine ⟨docs, hdocs, fun d => ?_⟩
        have hout : ¬ ∃ c ∈ selected, ReflTransGen (ParentLink nodes) n.id c :=
          fun hc => absurd (hiff.mpr hc) (by simp)
        rw [hmem, List.exists_mem_cons_iff]
        simp [hout]

theorem mem_kept (h : VisibleForest nodes) {i : NodeId} (hi : ∃ n, nodeById nodes i = some n) :
    isKept nodes selected i = true ↔
      ¬ ∃ f, TransGen (ParentLink nodes) i f ∧ f ∈ selected ∧ isFolder nodes f = true := by
  obtain ⟨found, hfound, hiff⟩ := h.isRedundant_spec selected hi
  unfold isKept
  rw [hfound, ← hiff]
  cases found with
  | true => simp
  | false => simp

/-- A selection of nodes that are there, made canonical. -/
theorem canonicalScope_eq (h : VisibleForest nodes)
    (hselected : ∀ i ∈ selected, ∃ n, nodeById nodes i = some n) :
    canonicalScope nodes selected = .ok ((sortedIds selected).filter (isKept nodes selected)) := by
  have hnone : ¬ (selected.any fun nodeId => nodeById nodes nodeId = none) = true := by
    intro hany
    obtain ⟨i, hi, hmissing⟩ := List.any_eq_true.mp hany
    obtain ⟨n, hn⟩ := hselected i hi
    rw [of_decide_eq_true hmissing] at hn
    exact absurd hn (by simp)
  unfold canonicalScope
  rw [if_neg hnone, canonicalLoop_eq fun i hi => ?_, List.nil_append]
  obtain ⟨found, hfound, -⟩ := h.isRedundant_spec selected (hselected i (mem_sortedIds.mp hi))
  exact ⟨found, hfound⟩

theorem sortedIds_eq_self {ids : List Nat} (h : ids.Pairwise (· < ·)) : sortedIds ids = ids := by
  have hnodup : ids.Nodup := h.imp fun hlt => Nat.ne_of_lt hlt
  unfold sortedIds
  rw [hnodup.dedup]
  exact (h.imp fun hlt => Nat.le_of_lt hlt).insertionSort_eq

end Scope

/-- Both walks end for any parent links, and raise for a cycle exactly if nothing stops them. In
a forest a canonical selection is a part of the selection with nothing below another selected
folder, is its own canonical selection, and resolves to the same ready documents. -/
theorem canonicalScope_spec (nodes : List LibraryNode) (hkeyed : Keyed (·.id) nodes)
    (ready : List DocumentId) (selected : List NodeId) :
    (canonicalScope nodes selected ≠ .error .unfinished ∧
        ∀ mode, resolveScope nodes ready mode ≠ .error .unfinished) ∧
      (∀ nodeId, isRedundant nodes selected nodeId = .error .cyclicAncestry ↔
        (∃ p, ParentLink nodes nodeId p) ∧ ∀ c, TransGen (ParentLink nodes) nodeId c →
          ∃ n p, nodeById nodes c = some n ∧ n.parentId = some p ∧
            ¬ (c ∈ selected ∧ n.kind = .folder)) ∧
      (∀ node ∈ nodes, isInScope nodes selected node = .error .cyclicAncestry ↔
        ∀ c, ReflTransGen (ParentLink nodes) node.id c →
          c ∉ selected ∧ ∃ p m, ParentLink nodes c p ∧ nodeById nodes p = some m) ∧
      (VisibleForest nodes → (∀ i ∈ selected, ∃ n ∈ nodes, n.id = i) →
        ∃ canonical docs, canonicalScope nodes selected = .ok canonical ∧
          canonical ⊆ selected ∧
          (∀ i ∈ canonical, ∀ f ∈ selected, isFolder nodes f = true →
            ¬ TransGen (ParentLink nodes) i f) ∧
          canonicalScope nodes canonical = .ok canonical ∧
          resolveScope nodes ready (.selected selected) = .ok docs ∧
          resolveScope nodes ready (.selected canonical) = .ok docs) := by
  refine ⟨⟨?_, fun mode => ?_⟩, fun nodeId => (redundantLoop_cyclic_iff nodeId).2,
    fun node hnode => (inScopeLoop_cyclic_iff (nodeById_of_mem hkeyed hnode)).2,
    fun h hselected => ?_⟩
  · unfold canonicalScope
    split
    · simp
    · exact canonicalLoop_ne_unfinished
  · cases mode with
    | allReady =>
      unfold resolveScope
      simp
    | selected nodeIds =>
      intro herror
      have hends : resolveLoop nodes ready nodeIds nodes [] ≠ .error .unfinished :=
        resolveLoop_ne_unfinished hkeyed ready fun n hn => hn
      rw [resolveScope_selected] at herror
      cases hloop : resolveLoop nodes ready nodeIds nodes [] with
      | error e =>
        rw [hloop] at herror hends
        exact hends (congrArg Except.error (Except.error.inj herror))
      | ok docs =>
        rw [hloop] at herror
        exact absurd herror (by simp [Except.map])
  · have hthere : ∀ i ∈ selected, ∃ n, nodeById nodes i = some n := by
      intro i hi
      obtain ⟨n, hn, rfl⟩ := hselected i hi
      exact ⟨n, nodeById_of_mem h.keyed hn⟩
    have hsubset : (sortedIds selected).filter (isKept nodes selected) ⊆ selected :=
      fun i hi => mem_sortedIds.mp (List.mem_filter.mp hi).1
    have hkept : ∀ i, i ∈ (sortedIds selected).filter (isKept nodes selected) ↔ i ∈ selected ∧
        ¬ ∃ f, TransGen (ParentLink nodes) i f ∧ f ∈ selected ∧ isFolder nodes f = true := by
      intro i
      rw [List.mem_filter, mem_sortedIds]
      exact and_congr_right fun hi => mem_kept h (hthere i hi)
    obtain ⟨docs, hdocs, hmem⟩ := resolveLoop_ok h ready selected nodes (fun n hn => hn) []
    obtain ⟨docs', hdocs', hmem'⟩ := resolveLoop_ok h ready
      ((sortedIds selected).filter (isKept nodes selected)) nodes (fun n hn => hn) []
    have hsame : ∀ d, d ∈ docs' ↔ d ∈ docs := by
      intro d
      rw [hmem, hmem']
      refine or_congr_right (exists_congr fun n => and_congr_right fun hn => and_congr_right fun _ => ?_)
      constructor
      · intro hc
        obtain ⟨c, hc, hpath⟩ := hc
        exact ⟨c, hsubset hc, hpath⟩
      · intro hc
        obtain ⟨c, hc, hpath⟩ := hc
        obtain ⟨k, hk, hkpath, hnone⟩ := h.kept_above hn hc hpath
        exact ⟨k, (hkept k).mpr ⟨hk, hnone⟩, hkpath⟩
    refine ⟨_, sortedIds docs, canonicalScope_eq h hthere, hsubset, ?_, ?_, ?_, ?_⟩
    · intro i hi f hf hfolder hpath
      exact ((hkept i).mp hi).2 ⟨f, hpath, hf, hfolder⟩
    · -- what is kept of the selection is kept of itself
      rw [canonicalScope_eq h fun i hi => hthere i (hsubset hi),
        sortedIds_eq_self ((sortedIds_pairwise selected).filter _), List.filter_eq_self.mpr]
      intro i hi
      refine (mem_kept h (hthere i (hsubset hi))).mpr fun hf => ?_
      obtain ⟨f, hpath, hf, hfolder⟩ := hf
      exact ((hkept i).mp hi).2 ⟨f, hpath, hsubset hf, hfolder⟩
    · rw [resolveScope_selected, hdocs]
      rfl
    · rw [resolveScope_selected, hdocs']
      refine congrArg Except.ok ?_
      have hperm : (sortedIds docs').Perm (sortedIds docs) := by
        refine (List.perm_ext_iff_of_nodup ?_ ?_).mpr fun d => ?_
        · exact (sortedIds_pairwise docs').imp fun hlt => Nat.ne_of_lt hlt
        · exact (sortedIds_pairwise docs).imp fun hlt => Nat.ne_of_lt hlt
        · rw [mem_sortedIds, mem_sortedIds, hsame]
      exact hperm.eq_of_pairwise (fun a b _ _ hab hba => absurd hab (Nat.lt_asymm hba))
        (sortedIds_pairwise docs') (sortedIds_pairwise docs)

/-- A folder in a folder, with one file. -/
def nestedNodes : List LibraryNode :=
  [⟨1, none, .folder, "a", "a", none, none, false⟩, ⟨2, some 1, .folder, "b", "b", none, none, false⟩,
    ⟨3, some 2, .file, "c.pdf", "c.pdf", some 30, some 7, false⟩]

theorem visibleForest_nestedNodes : VisibleForest nestedNodes where
  keyed := by decide
  present := by decide
  rooted := by
    have h21 : ParentLink nestedNodes 2 1 := ⟨_, rfl, rfl⟩
    have h32 : ParentLink nestedNodes 3 2 := ⟨_, rfl, rfl⟩
    intro n hn
    refine ⟨⟨1, none, .folder, "a", "a", none, none, false⟩, by decide, ?_, rfl⟩
    obtain rfl | rfl | rfl : n = ⟨1, none, .folder, "a", "a", none, none, false⟩ ∨
        n = ⟨2, some 1, .folder, "b", "b", none, none, false⟩ ∨
        n = ⟨3, some 2, .file, "c.pdf", "c.pdf", some 30, some 7, false⟩ := by
      simpa [nestedNodes] using hn
    · exact ReflTransGen.refl
    · exact ReflTransGen.single h21
    · exact (ReflTransGen.single h32).tail h21

theorem canonicalScope_nested :
    ∃ canonical docs, canonicalScope nestedNodes [3, 2, 1] = .ok canonical ∧
      canonicalScope nestedNodes canonical = .ok canonical ∧
      resolveScope nestedNodes [30] (.selected [3, 2, 1]) = .ok docs ∧
      resolveScope nestedNodes [30] (.selected canonical) = .ok docs := by
  obtain ⟨canonical, docs, hrun, -, -, hagain, hdocs, hsame⟩ :=
    (canonicalScope_spec nestedNodes (by decide) [30] [3, 2, 1]).2.2.2
      visibleForest_nestedNodes (by decide)
  exact ⟨canonical, docs, hrun, hagain, hdocs, hsame⟩

end LocalRag.Chat
