import LocalRag.Core.Dict
import LocalRag.Core.Layers
import LocalRag.Core.Run

/-!
# The order of the services

`_validate_dependencies` of `apps/supervisor/manifest.py`, which the manifest loader asks,
and `Supervisor._ordered_services` of `apps/supervisor/runtime.py`, which every start and
every stop follows.

Both take the services apart layer by layer, and were written apart. The loader keeps for
each name the set of dependencies that are still pending and takes the names whose set is
empty; the supervisor keeps the services and takes those none of whose dependencies is
pending. `dependencyLayers_eq` and `orderLoop_eq` show that both are `layers` of the
relation `Needs`, so they fail on the same lists, and `layers_isSome_iff` says which: the
cyclic ones.

Mirroring notes. A `set` is the list of its elements. The dictionary of the supervisor is the
list of its values, whose keys are their names. The loader takes the ready names in
the order of the manifest; the source takes them in the order of a set, and the result is
the same. Of a service, what the two functions do not read is left out.
-/

namespace LocalRag.Supervisor

open LocalRag.Core Relation

structure Service where
  name : String
  dependencies : List String
deriving Repr, DecidableEq

/-- `sorted(set(names))`. -/
def sortedSet (names : List String) : List String :=
  names.dedup.mergeSort fun a b => decide (a ≤ b)

/-- `{service.name: … for service in services}`. -/
def byName {β : Type} (value : Service → β) (services : List Service) : List (String × β) :=
  services.foldl (fun pending s => setItem pending s.name (value s)) []

/-! ## The manifest loader -/

/-- The text of a `ManifestError`. -/
abbrev ManifestError := String

/-- The text of a `RuntimeError`. -/
abbrev RuntimeError := String

/-- The checks on one service. -/
def checkDependencies (names : List String) (s : Service) : Except ManifestError Unit :=
  let unknown := s.dependencies.filter (· ∉ names)
  if unknown ≠ [] then
    .error (s.name ++ " has unknown dependencies: " ++ ", ".intercalate (sortedSet unknown))
  else if s.name ∈ s.dependencies then .error (s.name ++ " cannot depend on itself")
  else if ¬ s.dependencies.Nodup then .error (s.name ++ " dependencies must be unique")
  else .ok ()

/-- The names whose set is empty. -/
def readyNames (pending : List (String × List String)) : List String :=
  (pending.filter fun item => item.2 = []).map (·.1)

/-- The items that are left when the ready names are gone. -/
def withoutReady (pending : List (String × List String)) : List (String × List String) :=
  (pending.filter fun item => item.1 ∉ readyNames pending).map fun item =>
    (item.1, item.2.filter (· ∉ readyNames pending))

theorem length_withoutReady_lt {pending : List (String × List String)}
    (h : readyNames pending ≠ []) : (withoutReady pending).length < pending.length := by
  obtain ⟨name, hname⟩ := List.exists_mem_of_ne_nil _ h
  obtain ⟨item, hitem, rfl⟩ := List.mem_map.mp hname
  unfold withoutReady
  rw [List.length_map]
  refine List.length_filter_lt_length_iff_exists.mpr ⟨item, (List.mem_filter.mp hitem).1, ?_⟩
  simpa using hname

/-- `while pending`. -/
def dependencyLayers (pending : List (String × List String)) : Except ManifestError Unit :=
  if pending = [] then .ok ()
  else if readyNames pending = [] then .error "service dependencies contain a cycle"
  else dependencyLayers (withoutReady pending)
termination_by pending.length
decreasing_by exact length_withoutReady_lt ‹_›

/-- `_validate_dependencies`. -/
def validateDependencies (services : List Service) : Except ManifestError Unit :=
  match services.forM (checkDependencies (services.map (·.name))) with
  | .error e => .error e
  | .ok () => dependencyLayers (byName (fun s => s.dependencies.dedup) services)

/-! ## The supervisor -/

/-- The services none of whose dependencies is pending. -/
def readyServices (pending : List Service) : List Service :=
  pending.filter fun s => s.dependencies.all (· ∉ pending.map (·.name))

/-- `pending.pop(service.name)` for each of them. -/
def popReady (pending : List Service) : List Service :=
  pending.filter fun s => s.name ∉ (readyServices pending).map (·.name)

theorem length_popReady_lt {pending : List Service} (h : readyServices pending ≠ []) :
    (popReady pending).length < pending.length := by
  obtain ⟨s, hs⟩ := List.exists_mem_of_ne_nil _ h
  unfold popReady
  refine List.length_filter_lt_length_iff_exists.mpr ⟨s, (List.mem_filter.mp hs).1, ?_⟩
  simpa using ⟨s, hs, rfl⟩

/-- `sorted(ready, key=lambda item: item.name)`. -/
def sortedByName (services : List Service) : List Service :=
  services.mergeSort fun a b => decide (a.name ≤ b.name)

/-- `while pending`. -/
def orderLoop (pending ordered : List Service) : Except RuntimeError (List Service) :=
  if pending = [] then .ok ordered
  else if readyServices pending = [] then .error "service dependencies contain a cycle"
  else orderLoop (popReady pending) (ordered ++ sortedByName (readyServices pending))
termination_by pending.length
decreasing_by exact length_popReady_lt ‹_›

/-- `_ordered_services`. -/
def orderedServices (services : List Service) : Except RuntimeError (List Service) :=
  orderLoop ((byName id services).map (·.2)) []

/-! ## Both loops are the layers of one relation -/

/-- `s` needs `t` to run. -/
def Needs (s t : Service) : Prop := t.name ∈ s.dependencies

instance : DecidableRel Needs := fun s t => inferInstanceAs (Decidable (t.name ∈ s.dependencies))

variable {services left : List Service}

/-- With distinct names every service has its own item. -/
theorem byName_eq {β : Type} {value : Service → β} (h : (services.map (·.name)).Nodup) :
    byName value services = services.map fun s => (s.name, value s) := by
  induction services using List.reverseRecOn with
  | nil => rfl
  | append_singleton services s ih =>
    rw [List.map_append, List.nodup_append] at h
    obtain ⟨hnodup, -, hnew⟩ := h
    unfold byName at ih ⊢
    rw [List.foldl_append, ih hnodup, List.map_append]
    have hkey : ((services.map fun s => (s.name, value s)).lookup s.name).isSome = false := by
      rw [Bool.eq_false_iff, Ne, lookup_isSome, List.map_map]
      intro hmem
      exact hnew _ hmem s.name (List.mem_singleton.mpr rfl) rfl
    show setItem _ s.name (value s) = _
    unfold setItem
    rw [if_neg (by rw [hkey]; exact Bool.false_ne_true)]
    rfl

theorem readyServices_eq (pending : List Service) :
    readyServices pending = ready Needs pending := by
  unfold readyServices ready
  refine List.filter_congr fun s _ => ?_
  rw [Bool.eq_iff_iff, List.all_eq_true, decide_eq_true_iff]
  constructor
  · intro h t ht hneeds
    exact of_decide_eq_true (h t.name hneeds) (List.mem_map_of_mem ht)
  · intro h d hd
    refine decide_eq_true fun hpending => ?_
    obtain ⟨t, ht, rfl⟩ := List.mem_map.mp hpending
    exact h t ht hd

variable {s : Service}

/-- With distinct names, a name that is not ready is the name of a service that is not. -/
theorem name_notMem_ready (hnames : (left.map (·.name)).Nodup) (hs : s ∈ left) :
    s.name ∉ (ready Needs left).map (·.name) ↔ ∃ t ∈ left, Needs s t := by
  rw [← not_iff_not, not_not]
  push Not
  constructor
  · intro h
    obtain ⟨t, ht, hname⟩ := List.mem_map.mp h
    rw [← List.inj_on_of_nodup_map hnames (mem_ready.mp ht).1 hs hname]
    exact (mem_ready.mp ht).2
  · exact fun h => List.mem_map_of_mem (mem_ready.mpr ⟨hs, h⟩)

theorem popReady_eq (hnames : (left.map (·.name)).Nodup) :
    popReady left = blocked Needs left := by
  unfold popReady blocked
  rw [readyServices_eq]
  exact List.filter_congr fun s hs => decide_eq_decide.mpr (name_notMem_ready hnames hs)

theorem nodup_names_blocked (hnames : (left.map (·.name)).Nodup) :
    ((blocked Needs left).map (·.name)).Nodup :=
  hnames.sublist (List.filter_sublist.map _)

theorem orderLoop_eq (hnames : (left.map (·.name)).Nodup) (ordered : List Service) :
    orderLoop left ordered = (layers Needs left).elim
      (.error "service dependencies contain a cycle")
      fun ls => .ok (ordered ++ ls.flatMap sortedByName) := by
  induction left using layers.induct Needs generalizing ordered with
  | case1 =>
    rw [orderLoop, if_pos rfl, layers_nil]
    simp
  | case2 left hleft hstuck =>
    rw [orderLoop, if_neg hleft, readyServices_eq, if_pos hstuck, layers_stuck hleft hstuck]
    rfl
  | case3 left hleft hready ih =>
    rw [orderLoop, if_neg hleft, readyServices_eq, if_neg hready, popReady_eq hnames,
      ih (nodup_names_blocked hnames), layers_next hready]
    cases layers Needs (blocked Needs left) with
    | none => rfl
    | some ls => simp

/-- The items of the loader while `left` is left: of each set of dependencies, those that are
left. -/
def leftItems (left : List Service) : List (String × List String) :=
  left.map fun s => (s.name, s.dependencies.dedup.filter (· ∈ left.map (·.name)))

theorem readyNames_leftItems (left : List Service) :
    readyNames (leftItems left) = (ready Needs left).map (·.name) := by
  unfold readyNames leftItems ready
  rw [List.filter_map, List.map_map]
  refine congrArg (List.map _) (List.filter_congr fun s _ => ?_)
  rw [Function.comp_apply, decide_eq_decide, List.filter_eq_nil_iff]
  constructor
  · intro h t ht hneeds
    exact h t.name (List.mem_dedup.mpr hneeds) (decide_eq_true (List.mem_map_of_mem ht))
  · intro h d hd hleft
    obtain ⟨t, ht, rfl⟩ := List.mem_map.mp (of_decide_eq_true hleft)
    exact h t ht (List.mem_dedup.mp hd)

theorem withoutReady_leftItems (hnames : (left.map (·.name)).Nodup) :
    withoutReady (leftItems left) = leftItems (blocked Needs left) := by
  unfold withoutReady
  rw [readyNames_leftItems]
  unfold leftItems
  rw [List.filter_map, List.map_map]
  have hblocked : left.filter ((fun item : String × List String =>
      decide (item.1 ∉ (ready Needs left).map (·.name))) ∘ fun s =>
        (s.name, s.dependencies.dedup.filter (· ∈ left.map (·.name)))) = blocked Needs left :=
    List.filter_congr fun s hs => decide_eq_decide.mpr (name_notMem_ready hnames hs)
  rw [hblocked]
  refine List.map_congr_left fun s _ => Prod.ext rfl ?_
  show (s.dependencies.dedup.filter _).filter _ = s.dependencies.dedup.filter _
  rw [List.filter_filter]
  refine List.filter_congr fun d _ => ?_
  rw [← Bool.decide_and, decide_eq_decide]
  constructor
  · rintro ⟨hready, hleft⟩
    obtain ⟨t, ht, rfl⟩ := List.mem_map.mp hleft
    exact List.mem_map_of_mem (mem_blocked.mpr ⟨ht, (name_notMem_ready hnames ht).mp hready⟩)
  · intro hmem
    obtain ⟨t, ht, rfl⟩ := List.mem_map.mp hmem
    obtain ⟨hleft, hneeds⟩ := mem_blocked.mp ht
    exact ⟨(name_notMem_ready hnames hleft).mpr hneeds, List.mem_map_of_mem hleft⟩

theorem dependencyLayers_eq (hnames : (left.map (·.name)).Nodup) :
    dependencyLayers (leftItems left) = (layers Needs left).elim
      (.error "service dependencies contain a cycle") fun _ => .ok () := by
  induction left using layers.induct Needs with
  | case1 =>
    rw [leftItems, List.map_nil, dependencyLayers, if_pos rfl, layers_nil]
    rfl
  | case2 left hleft hstuck =>
    have hitems : leftItems left ≠ [] := by simpa [leftItems] using hleft
    rw [dependencyLayers, if_neg hitems, readyNames_leftItems, if_pos (by rw [hstuck]; rfl),
      layers_stuck hleft hstuck]
    rfl
  | case3 left hleft hready ih =>
    have hitems : leftItems left ≠ [] := by simpa [leftItems] using hleft
    have hnames' : (ready Needs left).map (·.name) ≠ [] := by simpa using hready
    rw [dependencyLayers, if_neg hitems, readyNames_leftItems, if_neg hnames',
      withoutReady_leftItems hnames, ih (nodup_names_blocked hnames), layers_next hready]
    cases layers Needs (blocked Needs left) <;> rfl

/-! ## Which lists are accepted -/

/-- `s` depends on `t`, both of the list. -/
def DependsOn (services : List Service) (s t : Service) : Prop :=
  s ∈ services ∧ t ∈ services ∧ t.name ∈ s.dependencies

theorem checkDependencies_ok {names : List String} :
    checkDependencies names s = .ok () ↔
      (∀ d ∈ s.dependencies, d ∈ names) ∧ s.name ∉ s.dependencies ∧ s.dependencies.Nodup := by
  have hunknown : s.dependencies.filter (· ∉ names) = [] ↔ ∀ d ∈ s.dependencies, d ∈ names := by
    rw [List.filter_eq_nil_iff]
    refine forall₂_congr fun d _ => ?_
    rw [decide_eq_true_iff, not_not]
  unfold checkDependencies
  show (if s.dependencies.filter (· ∉ names) ≠ [] then _ else _) = _ ↔ _
  rw [ite_error_eq_ok, ite_error_eq_ok, ite_error_eq_ok, not_not, not_not, hunknown]
  simp

theorem validateDependencies_ok (hnames : (services.map (·.name)).Nodup) :
    validateDependencies services = .ok () ↔
      (∀ s ∈ services, checkDependencies (services.map (·.name)) s = .ok ()) ∧
        (layers Needs services).isSome = true := by
  unfold validateDependencies
  rw [← forM_eq_ok]
  cases hcheck : services.forM (checkDependencies (services.map (·.name))) with
  | error e => simp
  | ok =>
    have hknown := forM_eq_ok.mp hcheck
    have hitems : byName (fun s => s.dependencies.dedup) services = leftItems services := by
      rw [byName_eq hnames]
      refine List.map_congr_left fun s hs => Prod.ext rfl ?_
      refine (List.filter_eq_self.mpr fun d hd => ?_).symm
      exact decide_eq_true ((checkDependencies_ok.mp (hknown s hs)).1 d (List.mem_dedup.mp hd))
    show dependencyLayers _ = _ ↔ _
    rw [hitems, dependencyLayers_eq hnames]
    cases layers Needs services <;> simp

/-- A place in the joined layers is a place in one of them, and the layers before it lie in
front. -/
theorem layer_of_split {β γ : Type*} {f : β → List γ} {ls : List β} {front back : List γ} {x : γ}
    (h : ls.flatMap f = front ++ x :: back) :
    ∃ before layer after, ls = before ++ layer :: after ∧ x ∈ f layer ∧
      ∀ y ∈ before.flatMap f, y ∈ front := by
  induction ls generalizing front with
  | nil => exact absurd h (by simp)
  | cons l ls ih =>
    rw [List.flatMap_cons] at h
    obtain ⟨rest, hfront, htail⟩ | ⟨rest, hl, htail⟩ := List.append_eq_append_iff.mp h
    · -- the place lies after `l`
      obtain ⟨before, layer, after, rfl, hx, hbefore⟩ := ih htail
      refine ⟨l :: before, layer, after, rfl, hx, fun y hy => ?_⟩
      rw [hfront]
      rw [List.flatMap_cons, List.mem_append] at hy
      exact List.mem_append.mpr (hy.imp_right (hbefore y))
    · cases rest with
      | nil =>
        -- it is the first place after `l`
        obtain ⟨before, layer, after, rfl, hx, hbefore⟩ := @ih [] htail.symm
        refine ⟨l :: before, layer, after, rfl, hx, fun y hy => ?_⟩
        rw [List.flatMap_cons, List.mem_append, hl, List.append_nil] at hy
        exact hy.elim id fun hy => absurd (hbefore y hy) List.not_mem_nil
      | cons z rest =>
        obtain ⟨rfl, -⟩ := List.cons.inj htail
        refine ⟨[], l, ls, rfl, ?_, fun y hy => absurd hy List.not_mem_nil⟩
        rw [hl]
        exact List.mem_append_right _ List.mem_cons_self

theorem sortedByName_perm (services : List Service) : (sortedByName services).Perm services :=
  List.mergeSort_perm _ _

theorem orderedServices_eq (hnames : (services.map (·.name)).Nodup) :
    orderedServices services = (layers Needs services).elim
      (.error "service dependencies contain a cycle") fun ls => .ok (ls.flatMap sortedByName) := by
  have hvalues : (byName id services).map (·.2) = services := by
    rw [byName_eq hnames, List.map_map]
    exact List.map_id services
  unfold orderedServices
  rw [hvalues, orderLoop_eq hnames]
  rfl

/-- Each service comes after what it depends on. -/
theorem ordered_after {front back : List Service} {t : Service} {ls : List (List Service)}
    (h : layers Needs services = some ls) (hsplit : ls.flatMap sortedByName = front ++ s :: back)
    (ht : t ∈ services) (hneeds : Needs s t) : t ∈ front := by
  obtain ⟨before, layer, after, rfl, hs, hfront⟩ := layer_of_split hsplit
  have hlayer := layers_after h rfl ((sortedByName_perm layer).mem_iff.mp hs) ht hneeds
  obtain ⟨earlier, hearlier, hmem⟩ := List.mem_flatten.mp hlayer
  exact hfront t (List.mem_flatMap.mpr ⟨earlier, hearlier, (sortedByName_perm _).mem_iff.mpr hmem⟩)

/-- And in the reverse order before it. -/
theorem reversed_before {ordered front back : List Service} {t : Service} (hnodup : ordered.Nodup)
    (hafter : ∀ front s back, ordered = front ++ s :: back → Needs s t → t ∈ front)
    (hsplit : ordered.reverse = front ++ t :: back) (hs : s ∈ ordered) (hneeds : Needs s t) :
    s ∈ front := by
  have hsplit' : ordered = back.reverse ++ t :: front.reverse := by
    rw [← List.reverse_reverse ordered, hsplit]
    simp
  rw [hsplit', List.nodup_append, List.nodup_cons] at hnodup
  obtain ⟨-, ⟨hfront, -⟩, hback⟩ := hnodup
  have htback : t ∉ back.reverse := fun hmem => hback t hmem t List.mem_cons_self rfl
  rw [hsplit', List.mem_append, List.mem_cons] at hs
  obtain hs | rfl | hs := hs
  · -- then `t` would stand before `s`
    obtain ⟨before, after, hsplits⟩ := List.append_of_mem hs
    rw [hsplits, List.append_assoc] at hsplit'
    have hmem := hafter before s _ hsplit' hneeds
    exact absurd (by rw [hsplits]; exact List.mem_append_left _ hmem) htback
  · exact absurd (hafter _ _ _ hsplit' hneeds) htback
  · exact List.mem_reverse.mp hs

/-- The loader accepts exactly the lists whose dependencies are services of the list, each
named once, without a cycle. The supervisor puts each of these in an order that starts every
service after all it depends on; the reverse order stops it before. -/
theorem validateDependencies_ordered (hnames : (services.map (·.name)).Nodup) :
    (validateDependencies services = .ok () ↔
      (∀ s ∈ services, ∀ d ∈ s.dependencies, ∃ t ∈ services, t.name = d ∧ t ≠ s) ∧
      (∀ s ∈ services, s.dependencies.Nodup) ∧ ∀ s, ¬ TransGen (DependsOn services) s s) ∧
    (validateDependencies services = .ok () →
      ∃ ordered, orderedServices services = .ok ordered ∧ ordered.Perm services ∧
        (∀ front s back, ordered = front ++ s :: back →
          ∀ d ∈ s.dependencies, ∃ t ∈ front, t.name = d) ∧
        ∀ front t back, ordered.reverse = front ++ t :: back →
          ∀ s ∈ services, t.name ∈ s.dependencies → s ∈ front) := by
  rw [validateDependencies_ok hnames, layers_isSome_iff]
  have hself {s t : Service} (hs : s ∈ services) (ht : t ∈ services) (hname : t.name = s.name) :
      t = s := List.inj_on_of_nodup_map hnames ht hs hname
  refine ⟨⟨fun h => ?_, fun h => ?_⟩, fun h => ?_⟩
  · obtain ⟨hchecked, hacyclic⟩ := h
    refine ⟨fun s hs d hd => ?_, fun s hs => (checkDependencies_ok.mp (hchecked s hs)).2.2,
      hacyclic⟩
    obtain ⟨hknown, hother, -⟩ := checkDependencies_ok.mp (hchecked s hs)
    obtain ⟨t, ht, rfl⟩ := List.mem_map.mp (hknown d hd)
    refine ⟨t, ht, rfl, ?_⟩
    rintro rfl
    exact hother hd
  · obtain ⟨hknown, hunique, hacyclic⟩ := h
    refine ⟨fun s hs => checkDependencies_ok.mpr ⟨fun d hd => ?_, fun hd => ?_, hunique s hs⟩,
      hacyclic⟩
    · obtain ⟨t, ht, rfl, -⟩ := hknown s hs d hd
      exact List.mem_map_of_mem ht
    · obtain ⟨t, ht, hname, hne⟩ := hknown s hs _ hd
      exact hne (hself hs ht hname)
  · obtain ⟨hchecked, hacyclic⟩ := h
    obtain ⟨ls, hls⟩ := Option.isSome_iff_exists.mp (layers_isSome_iff.mpr hacyclic)
    have hordered : orderedServices services = .ok (ls.flatMap sortedByName) := by
      rw [orderedServices_eq hnames, hls]
      rfl
    have hperm : (ls.flatMap sortedByName).Perm services := by
      refine List.Perm.trans ?_ (layers_perm hls)
      rw [← List.flatMap_id]
      exact List.Perm.flatMap_left ls fun layer _ => sortedByName_perm layer
    refine ⟨_, hordered, hperm, fun front s back hsplit d hd => ?_,
      fun front t back hsplit s hs hneeds => ?_⟩
    · have hs : s ∈ services := hperm.mem_iff.mp (by rw [hsplit]; simp)
      obtain ⟨t, ht, rfl⟩ := List.mem_map.mp ((checkDependencies_ok.mp (hchecked s hs)).1 d hd)
      exact ⟨t, ordered_after hls hsplit ht hd, rfl⟩
    · have ht : t ∈ services := by
        refine hperm.mem_iff.mp (List.mem_reverse.mp ?_)
        rw [hsplit]
        simp
      refine reversed_before (hperm.nodup_iff.mpr hnames.of_map)
        (fun _ _ _ hsplits hneeds => ordered_after hls hsplits ht hneeds) hsplit
        (hperm.mem_iff.mpr hs) hneeds

/-- Two services, the first of which needs the second. -/
def apiOverDatabase : List Service := [⟨"api", ["database"]⟩, ⟨"database", []⟩]

theorem validateDependencies_ordered_api :
    validateDependencies apiOverDatabase = .ok () ∧
      ∃ ordered, orderedServices apiOverDatabase = .ok ordered ∧
        ordered.Perm apiOverDatabase := by
  obtain ⟨haccept, horder⟩ := @validateDependencies_ordered apiOverDatabase (by decide)
  have hstep : ∀ s ∈ apiOverDatabase, ∀ t ∈ apiOverDatabase, t.name ∈ s.dependencies →
      s.name = "api" ∧ t.name = "database" := by decide
  have hvalid : validateDependencies apiOverDatabase = .ok () := by
    refine haccept.mpr ⟨by decide, by decide, fun s hcycle => ?_⟩
    obtain ⟨t, ⟨hs, ht, hfirst⟩, -⟩ := TransGen.head'_iff.mp hcycle
    obtain ⟨r, -, ⟨hr, -, hlast⟩⟩ := TransGen.tail'_iff.mp hcycle
    have hname := (hstep s hs t ht hfirst).1
    rw [(hstep r hr s hs hlast).2] at hname
    exact absurd hname (by decide)
  obtain ⟨ordered, hordered, hperm, -⟩ := horder hvalid
  exact ⟨hvalid, ordered, hordered, hperm⟩

end LocalRag.Supervisor
