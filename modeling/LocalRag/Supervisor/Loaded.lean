import LocalRag.Supervisor.Manifest

/-!
# What the manifest loader raises, and what it lets through

`fromDict` on every object. The readers of a field raise `ManifestError` and nothing else
(the `_raises` lemmas), with three exceptions: a field that is looked up in a set is hashed
(`choice_raises`), `urlsplit` refuses some texts, and `port` some ports. `Clean` says of an
object that it does not come to one of these, stage by stage, and where a stage is reached.

What is let through keeps its `Contract`: one service is exposed, the tokens are among
the environment keys, and a readiness URL is that of the listener. The last one takes the
fourth clause of `Clean`: the check of the port writes `port or default`, and a
URL that names port zero is taken for one that names none (`portOr_eq_iff`).
-/

namespace LocalRag.Deployment

open LocalRag.Core
open Supervisor (RestartPolicy Url validateDependencies fieldOf sameSet)
open Transfer (fieldsAre)

variable {u : Unicode} {profile : Profile} {value item : Json} {members : Members}
  {services : List Service} {name label message : String}

/-! ## The readers of a field -/

@[simp] theorem not_isManifest_type : ¬ LoadFault.type.IsManifest := by
  intro h
  obtain ⟨message, h⟩ := h
  cases h

@[simp] theorem not_isManifest_value : ¬ LoadFault.value.IsManifest := by
  intro h
  obtain ⟨message, h⟩ := h
  cases h

@[simp] theorem refuse_raises {α : Type} :
    Only LoadFault.IsManifest (refuse message : Load α) := only_error.mpr ⟨message, rfl⟩

@[simp] theorem require_raises {ok : Bool} :
    Only LoadFault.IsManifest (require ok message) := by
  unfold require
  split
  · exact only_ok _
  · exact refuse_raises

theorem require_ok {ok : Bool} {r : Unit} : require ok message = .ok r ↔ ok = true := by
  unfold require
  by_cases hok : ok = true
  · simp [hok]
  · simp [hok, refuse]

@[simp] theorem boundedInt_raises {low high : Nat} :
    Only LoadFault.IsManifest (boundedInt low high message value) := by
  unfold boundedInt
  split
  · split
    · exact only_ok _
    · exact refuse_raises
  · exact refuse_raises

@[simp] theorem objectOf_raises : Only LoadFault.IsManifest (objectOf message value) := by
  unfold objectOf
  split
  · exact only_ok _
  · exact refuse_raises

variable {keys : List String}

@[simp] theorem requireExactKeys_raises :
    Only LoadFault.IsManifest (requireExactKeys members keys label) := require_raises

@[simp] theorem exactObject_raises : Only LoadFault.IsManifest (exactObject label keys value) := by
  unfold exactObject
  simp [only_bind]

@[simp] theorem requiredString_raises :
    Only LoadFault.IsManifest (requiredString label value) := by
  unfold requiredString
  split
  · split
    · exact refuse_raises
    · exact only_ok _
  · exact refuse_raises

@[simp] theorem optionalString_raises :
    Only LoadFault.IsManifest (optionalString label value) := by
  unfold optionalString
  split
  · exact only_ok _
  · exact only_map.mpr requiredString_raises

@[simp] theorem presentString_raises :
    Only LoadFault.IsManifest (presentString label value) := by
  unfold presentString
  refine only_bind.mpr ⟨optionalString_raises, fun s _ => ?_⟩
  cases s with
  | none => exact refuse_raises
  | some s => exact only_ok s

@[simp] theorem optionalDigest_raises {length : Nat} {kind : String} :
    Only LoadFault.IsManifest (optionalDigest u length kind label value) := by
  unfold optionalDigest
  split
  · exact only_ok _
  · simp [only_bind]

@[simp] theorem nonemptyString_raises :
    Only LoadFault.IsManifest (nonemptyString message value) := by
  unfold nonemptyString
  split
  · split
    · exact refuse_raises
    · exact only_ok _
  · exact refuse_raises

@[simp] theorem stringArray_raises : Only LoadFault.IsManifest (stringArray label value) := by
  unfold stringArray
  split
  · exact only_mapM.mpr fun _ _ _ _ _ => nonemptyString_raises
  · exact refuse_raises

/-- Of what is looked up in a set, exactly the values without a hash raise something else. -/
@[simp] theorem choice_raises {α : Type} {words : List (String × α)} :
    Only LoadFault.IsManifest (choice words message value) ↔ hashable value = true := by
  unfold choice
  split
  · simp [hashable]
  · simp [hashable]
  · split
    · exact iff_of_true (only_ok _) rfl
    · exact iff_of_true refuse_raises rfl
  next harr hobj _ =>
    refine iff_of_true refuse_raises ?_
    cases value with
    | arr items => exact absurd rfl (harr items)
    | obj members => exact absurd rfl (hobj members)
    | _ => rfl

/-! ## The URL of a service -/

/-- The URL of a service, where the checks in front of `urlsplit` pass: it is read, and
where its host is that of the listener its port is read too. -/
def CleanService (u : Unicode) (profile : Profile) (item : Json) : Prop :=
  ∀ draft, serviceDraft u profile item = .ok draft →
    ∀ text, draft.readiness.url = some text →
      ∃ url, Url.urlsplit u.nfkc text = some url ∧
        (isLoopbackHttp u url = true →
          ∀ listen, serviceListen draft.program.name draft.members = .ok (some listen) →
            url.hostname u.lower = some listen.host → url.port ≠ none)

@[simp] theorem serviceProgram_raises :
    Only LoadFault.IsManifest (serviceProgram u profile members) := by
  unfold serviceProgram
  simp only [only_bind, requiredString_raises, stringArray_raises, require_raises, only_ok,
    implies_true, and_self]

@[simp] theorem serviceEnvironment_raises :
    Only LoadFault.IsManifest (serviceEnvironment name members) := by
  unfold serviceEnvironment
  simp only [only_bind, stringArray_raises, presentString_raises, require_raises, only_ok,
    implies_true, and_self]

@[simp] theorem serviceReadiness_raises :
    Only LoadFault.IsManifest (serviceReadiness name keys members) := by
  unfold serviceReadiness
  simp only [only_bind, exactObject_raises, optionalString_raises, require_raises,
    boundedInt_raises, only_ok, implies_true, and_self]

@[simp] theorem serviceDraft_raises :
    Only LoadFault.IsManifest (serviceDraft u profile item) := by
  unfold serviceDraft
  simp only [only_bind, objectOf_raises, requireExactKeys_raises, serviceProgram_raises,
    serviceEnvironment_raises, serviceReadiness_raises, only_ok, implies_true, and_self]

@[simp] theorem serviceListen_raises : Only LoadFault.IsManifest (serviceListen name members) := by
  unfold serviceListen
  dsimp only
  split
  · exact refuse_raises
  · split
    · exact only_ok _
    · simp [only_bind]

variable {text : String}

theorem readinessParsed_raises :
    Only LoadFault.IsManifest (readinessParsed u name (some text)) ↔
      ∃ url, Url.urlsplit u.nfkc text = some url := by
  rw [readinessParsed]
  cases Url.urlsplit u.nfkc text with
  | none => simp
  | some url =>
    refine iff_of_true ?_ ⟨url, rfl⟩
    dsimp only
    split
    · exact only_ok _
    · exact refuse_raises

theorem readinessParsed_ok {parsed : Option Url} :
    readinessParsed u name (some text) = .ok parsed ↔
      ∃ url, parsed = some url ∧ Url.urlsplit u.nfkc text = some url ∧
        isLoopbackHttp u url = true := by
  rw [readinessParsed]
  cases Url.urlsplit u.nfkc text with
  | none => simp
  | some url =>
    dsimp only
    by_cases hurl : isLoopbackHttp u url = true
    · rw [if_pos hurl]
      constructor
      · intro h
        exact ⟨url, (Except.ok.inj h).symm, rfl, hurl⟩
      · intro h
        obtain ⟨url', rfl, hsplit, -⟩ := h
        rw [hsplit]
    · rw [if_neg hurl]
      refine iff_of_false (by simp [refuse]) fun h => ?_
      obtain ⟨url', -, hsplit, hloopback⟩ := h
      obtain rfl := Option.some.inj hsplit
      exact hurl hloopback

/-- The URL meets the listener, by the loader's reading of its port. -/
def Meets (u : Unicode) (url : Url) (listen : Listen) : Prop :=
  url.hostname u.lower = some listen.host ∧
    ∃ explicit, url.port = some explicit ∧ portOr explicit (defaultPort url) = listen.port.val

variable {url : Url}

theorem checkReadiness_raises {listen : Listen} :
    Only LoadFault.IsManifest (checkReadiness u name (some url) (some listen)) ↔
      (url.hostname u.lower = some listen.host → url.port ≠ none) := by
  rw [checkReadiness]
  by_cases hhost : url.hostname u.lower = some listen.host
  · rw [if_neg (not_not.mpr hhost)]
    cases url.port with
    | none => simp [hhost]
    | some explicit => simp
  · rw [if_pos hhost]
    exact iff_of_true refuse_raises fun h => absurd h hhost

theorem checkReadiness_ok {listen : Option Listen} :
    checkReadiness u name (some url) listen = .ok () ↔
      ∃ l, listen = some l ∧ Meets u url l := by
  unfold Meets
  cases listen with
  | none => simp [checkReadiness, refuse]
  | some listen =>
    rw [checkReadiness]
    by_cases hhost : url.hostname u.lower = some listen.host
    · cases hport : url.port with
      | none => simp [hhost]
      | some explicit => simp [hhost, require_ok]
    · simp [hhost, refuse]

/-- A service raises something else exactly where its URL is not clean. -/
theorem parseService_raises :
    Only LoadFault.IsManifest (parseService u profile item) ↔ CleanService u profile item := by
  unfold parseService CleanService
  simp only [only_bind, serviceDraft_raises, true_and, serviceListen_raises, only_ok,
    implies_true, and_true]
  refine forall_congr' fun draft => imp_congr_right fun _ => ?_
  cases hurl : draft.readiness.url with
  | none =>
    -- no URL: nothing is split, and no port is read
    refine iff_of_true ⟨only_ok _, ?_⟩ (fun text h => by cases h)
    intro url hparsed listen _
    obtain rfl := Except.ok.inj hparsed
    exact only_ok _
  | some text =>
    simp only [readinessParsed_raises, readinessParsed_ok, Option.some.injEq, forall_eq']
    constructor
    · intro h
      obtain ⟨⟨url, hsplit⟩, hcheck⟩ := h
      refine ⟨url, hsplit, fun hloopback listen hlisten => ?_⟩
      exact checkReadiness_raises.mp
        (hcheck _ ⟨url, rfl, hsplit, hloopback⟩ _ hlisten)
    · intro h
      obtain ⟨url, hsplit, hport⟩ := h
      refine ⟨⟨url, hsplit⟩, fun parsed hparsed listen hlisten => ?_⟩
      obtain ⟨url', rfl, hsplit', hloopback⟩ := hparsed
      obtain rfl := Option.some.inj (hsplit.symm.trans hsplit')
      cases listen with
      | none => exact refuse_raises
      | some listen => exact checkReadiness_raises.mpr (hport hloopback listen hlisten)

theorem serviceReadiness_token {r : Readiness} {token : String}
    (h : serviceReadiness name keys members = .ok r) (htoken : r.token = some token) :
    token ∈ keys := by
  unfold serviceReadiness at h
  simp only [bind_eq_ok, require_ok] at h
  obtain ⟨readiness, -, url, -, token', -, -, hkeys, timeout, -, hr⟩ := h
  obtain rfl := Except.ok.inj hr
  obtain rfl : token' = some token := htoken
  simpa using hkeys

theorem serviceDraft_token {draft : Draft} {token : String}
    (h : serviceDraft u profile item = .ok draft) (htoken : draft.readiness.token = some token) :
    token ∈ draft.environment.environmentKeys := by
  unfold serviceDraft at h
  simp only [bind_eq_ok] at h
  obtain ⟨members, -, -, -, program, -, environment, -, readiness, hreadiness, hdraft⟩ := h
  obtain rfl := Except.ok.inj hdraft
  exact serviceReadiness_token hreadiness htoken

variable {s : Service}

/-- The token of a service that is read is one of its environment keys, and its URL is one of
this machine that meets its listener. -/
theorem parseService_ok (h : parseService u profile item = .ok s) :
    (∀ token, s.readinessTokenEnvironment = some token → token ∈ s.environmentKeys) ∧
      ∀ text, s.readinessUrl = some text → ∃ url listen,
        Url.urlsplit u.nfkc text = some url ∧ isLoopbackHttp u url = true ∧
          s.listen = some listen ∧ Meets u url listen := by
  unfold parseService at h
  simp only [bind_eq_ok] at h
  obtain ⟨draft, hdraft, parsed, hparsed, listen, -, _, hcheck, hs⟩ := h
  obtain rfl := Except.ok.inj hs
  refine ⟨fun token htoken => serviceDraft_token hdraft htoken, fun text htext => ?_⟩
  rw [show draft.readiness.url = some text from htext, readinessParsed_ok] at hparsed
  obtain ⟨url, rfl, hsplit, hloopback⟩ := hparsed
  obtain ⟨listen', hlisten, hmeets⟩ := checkReadiness_ok.mp hcheck
  exact ⟨url, listen', hsplit, hloopback, hlisten, hmeets⟩

/-! ## The services -/

/-- Somebody else can reach the service, or it takes the port of Caddy. -/
def Service.isExposed (s : Service) : Bool :=
  s.listen.any fun listen =>
    ¬(listen.host ∈ loopbackHosts ∨ isLoopbackAddress listen.host) ∨ listen.port.val = 443

/-- Every service that is come to has a clean URL. -/
def CleanServices (u : Unicode) (profile : Profile) (value : Json) : Prop :=
  ∀ front item back, value = .arr (front ++ item :: back) →
    (∀ b ∈ front, Returns (parseService u profile b)) → CleanService u profile item

theorem parseServices_raises :
    Only LoadFault.IsManifest (parseServices u profile value) ↔
      CleanServices u profile value := by
  unfold parseServices CleanServices
  split
  next items =>
    simp only [only_mapM, parseService_raises, Json.arr.injEq]
  next harr => exact iff_of_true refuse_raises fun front item back h => absurd h (harr _)

@[simp] theorem checkListener_raises : Only LoadFault.IsManifest (checkListener s) := by
  unfold checkListener
  split
  · exact require_raises
  · split
    · exact only_ok _
    · exact only_bind.mpr ⟨require_raises, fun _ _ => require_raises⟩

@[simp] theorem validateListeners_raises :
    Only LoadFault.IsManifest (validateListeners services) :=
  only_forM fun _ _ => checkListener_raises

theorem readServices_raises :
    Only LoadFault.IsManifest (readServices u profile value) ↔ CleanServices u profile value := by
  have hdependencies : ∀ x : Except String Unit,
      Only LoadFault.IsManifest (x.mapError LoadFault.manifest) := by
    intro x
    cases x with
    | ok a => exact only_ok a
    | error message => exact refuse_raises
  unfold readServices
  simp only [only_bind, parseServices_raises, require_raises, validateListeners_raises,
    hdependencies, only_ok, implies_true, and_self, and_true]

theorem checkListener_exposed (h : checkListener s = .ok ()) :
    s.isExposed = true ↔ s.name = "caddy" := by
  unfold checkListener at h
  unfold Service.isExposed
  split at h
  next hcaddy =>
    rw [require_ok] at h
    refine iff_of_true ?_ hcaddy
    rw [Option.any_eq_true] at h ⊢
    obtain ⟨listen, hlisten, hport⟩ := h
    exact ⟨listen, hlisten, decide_eq_true (Or.inr (of_decide_eq_true hport).2)⟩
  next hcaddy =>
    refine iff_of_false ?_ hcaddy
    split at h
    next hnone => simp [hnone]
    next listen hlisten =>
      simp only [bind_eq_ok, require_ok, decide_eq_true_eq] at h
      obtain ⟨-, hloopback, hport⟩ := h
      rw [hlisten, Option.any_some, decide_eq_true_iff, not_or, not_not]
      exact ⟨hloopback, hport⟩

theorem readServices_ok (h : readServices u profile value = .ok services) :
    parseServices u profile value = .ok services ∧ (services.map (·.name)).Nodup ∧
      sameSet (services.map (·.name)) requiredServices = true ∧
      ∀ s ∈ services, checkListener s = .ok () := by
  unfold readServices at h
  simp only [bind_eq_ok, require_ok, decide_eq_true_eq] at h
  obtain ⟨services', hparse, -, hnodup, -, hnames, _, hlisteners, -, -, hs⟩ := h
  obtain rfl := Except.ok.inj hs
  exact ⟨hparse, hnodup, hnames, forM_eq_ok.mp hlisteners⟩

/-- Caddy is the one service that is exposed. -/
theorem readServices_exposed (h : readServices u profile value = .ok services) :
    (services.filter Service.isExposed).map (·.name) = ["caddy"] := by
  obtain ⟨-, hnodup, hnames, hlisteners⟩ := readServices_ok h
  have hfilter : services.filter Service.isExposed = services.filter fun s => s.name = "caddy" := by
    refine List.filter_congr fun s hs => ?_
    rw [Bool.eq_iff_iff, checkListener_exposed (hlisteners s hs), decide_eq_true_iff]
  have hcaddy : "caddy" ∈ services.map (·.name) := by
    have hall := (of_decide_eq_true hnames).2
    exact of_decide_eq_true (List.all_eq_true.mp hall "caddy" List.mem_cons_self)
  have hmap : (services.filter fun s => s.name = "caddy").map (·.name) =
      (services.map (·.name)).filter (· = "caddy") := by
    rw [List.filter_map]
    rfl
  rw [hfilter, hmap, List.filter_eq, List.count_eq_one_of_mem hnodup hcaddy]
  rfl

/-! ## The settings -/

/-- An object with the right keys has a `state` with a hash. -/
def CleanState (label : String) (keys : List String) (value : Json) : Prop :=
  ∀ members, exactObject label keys value = .ok members →
    hashable (fieldOf members "state") = true

/-- Every `state` that is come to has a hash. -/
structure CleanSettings (u : Unicode) (members : Members) : Prop where
  backup : Returns (readRestartPolicy members) →
    CleanState "backup" ["state", "destination"] (fieldOf members "backup")
  updates : Returns (readRestartPolicy members) → Returns (readBackup u members) →
    CleanState "updates" ["state", "public_key_sha256"] (fieldOf members "updates")
  readiness : Returns (readRestartPolicy members) → Returns (readBackup u members) →
    Returns (readUpdates u members) → Returns (readCaddy u members) →
    CleanState "deployment_readiness" ["state", "blockers", "prerequisite_checks"]
      (fieldOf members "deployment_readiness")

@[simp] theorem backoffSeconds_raises : Only LoadFault.IsManifest (backoffSeconds value) := by
  unfold backoffSeconds
  split
  · exact only_mapM.mpr fun _ _ _ _ _ => boundedInt_raises
  · exact refuse_raises

@[simp] theorem readRestartPolicy_raises :
    Only LoadFault.IsManifest (readRestartPolicy members) := by
  unfold readRestartPolicy
  simp only [only_bind, exactObject_raises, boundedInt_raises, backoffSeconds_raises, true_and]
  intro _ _ _ _ _ _ backoff _
  split
  · exact only_ok _
  · exact refuse_raises

@[simp] theorem configuredValue_raises {keyName : String} :
    Only LoadFault.IsManifest (configuredValue u keyName label value) := by
  unfold configuredValue
  split
  · exact only_ok _
  · split
    · exact optionalDigest_raises
    · exact only_map.mpr requiredString_raises

theorem stateConfig_raises {keyName : String} :
    Only LoadFault.IsManifest (stateConfig u label keyName value) ↔
      CleanState label ["state", keyName] value := by
  unfold stateConfig CleanState
  simp only [only_bind, exactObject_raises, choice_raises, configuredValue_raises,
    require_raises, only_ok, implies_true, and_self, and_true, true_and]

@[simp] theorem readCaddy_raises : Only LoadFault.IsManifest (readCaddy u members) := by
  unfold readCaddy optionalSha512 optionalSha256
  simp only [only_bind, exactObject_raises, optionalString_raises, optionalDigest_raises,
    require_raises, only_ok, implies_true, and_self]

theorem readReadiness_raises :
    Only LoadFault.IsManifest (readReadiness profile members) ↔
      CleanState "deployment_readiness" ["state", "blockers", "prerequisite_checks"]
        (fieldOf members "deployment_readiness") := by
  unfold readReadiness CleanState
  simp only [only_bind, exactObject_raises, choice_raises, stringArray_raises,
    require_raises, only_ok, implies_true, and_self, and_true, true_and]

theorem readBackup_raises :
    Only LoadFault.IsManifest (readBackup u members) ↔
      CleanState "backup" ["state", "destination"] (fieldOf members "backup") := by
  unfold readBackup
  simp only [only_bind, stateConfig_raises, require_raises, only_ok, implies_true, and_self,
    and_true]

theorem readSettings_raises :
    Only LoadFault.IsManifest (readSettings u profile members) ↔ CleanSettings u members := by
  unfold readSettings
  simp only [only_bind, readRestartPolicy_raises, readBackup_raises, readCaddy_raises,
    readReadiness_raises, only_ok, implies_true, and_true, true_and]
  constructor
  · intro h
    refine ⟨?_, ?_, ?_⟩
    · intro hpolicy
      obtain ⟨policy, hpolicy⟩ := hpolicy
      exact (h policy hpolicy).1
    · intro hpolicy hbackup
      obtain ⟨policy, hpolicy⟩ := hpolicy
      obtain ⟨backup, hbackup⟩ := hbackup
      exact stateConfig_raises.mp ((h policy hpolicy).2 backup hbackup).1
    · intro hpolicy hbackup hupdates hcaddy
      obtain ⟨policy, hpolicy⟩ := hpolicy
      obtain ⟨backup, hbackup⟩ := hbackup
      obtain ⟨updates, hupdates⟩ := hupdates
      obtain ⟨caddy, hcaddy⟩ := hcaddy
      exact ((h policy hpolicy).2 backup hbackup).2 updates hupdates caddy hcaddy
  · intro h policy hpolicy
    have hpolicy' : Returns (readRestartPolicy members) := ⟨policy, hpolicy⟩
    refine ⟨h.backup hpolicy', fun backup hbackup => ?_⟩
    have hbackup' : Returns (readBackup u members) := ⟨backup, hbackup⟩
    refine ⟨stateConfig_raises.mpr (h.updates hpolicy' hbackup'), ?_⟩
    intro updates hupdates caddy hcaddy
    exact h.readiness hpolicy' hbackup' ⟨updates, hupdates⟩ ⟨caddy, hcaddy⟩

/-! ## The manifest -/

/-- The port that a URL names: its own, or that of its scheme. -/
def portOf (url : Url) : Option Nat := url.port.map fun explicit => explicit.getD (defaultPort url)

/-- What is promised of a manifest. -/
structure DeploymentManifest.Contract (u : Unicode) (m : DeploymentManifest) : Prop where
  exposed : (m.services.filter Service.isExposed).map (·.name) = ["caddy"]
  url : ∀ s ∈ m.services, ∀ text, s.readinessUrl = some text → ∃ url host listen,
    Url.urlsplit u.nfkc text = some url ∧ url.hostname u.lower = some host ∧
      host ∈ loopbackHosts ∧ s.listen = some listen ∧ portOf url = some listen.port.val
  token : ∀ s ∈ m.services, ∀ token, s.readinessTokenEnvironment = some token →
    token ∈ s.environmentKeys

/-- The URL of a service names port zero. -/
def Service.NamesPortZero (u : Unicode) (s : Service) : Prop :=
  ∃ text url, s.readinessUrl = some text ∧ Url.urlsplit u.nfkc text = some url ∧
    url.port = some (some 0)

/-- The object, as far as the loader comes: what is hashed has a hash, the URLs of the services
are read and their ports too; and where every check passes, no URL names port zero. -/
structure Clean (u : Unicode) (members : Members) : Prop where
  profile : fieldsAre members (allowedKeys members) = true →
    hashable (productProfile members) = true
  services : ∀ header, readHeader members = .ok header →
    CleanServices u header.profile (fieldOf members "services")
  settings : ∀ header services, readHeader members = .ok header →
    readServices u header.profile (fieldOf members "services") = .ok services →
    CleanSettings u members
  ports : ∀ header services, readHeader members = .ok header →
    readServices u header.profile (fieldOf members "services") = .ok services →
    Returns (readSettings u header.profile members) →
    ∀ s ∈ services, ¬ s.NamesPortZero u

theorem readHeader_raises :
    Only LoadFault.IsManifest (readHeader members) ↔
      (fieldsAre members (allowedKeys members) = true →
        hashable (productProfile members) = true) := by
  unfold readHeader requireExactKeys
  simp only [only_bind, require_ok, choice_raises, requiredString_raises, require_raises,
    only_ok, implies_true, and_self, and_true, true_and, forall_const]

/-- The loader takes port zero for no port; any other port is the one that is compared. -/
theorem portOr_eq_iff {explicit : Option Nat} {default port : Nat} (hport : 1 ≤ port)
    (h : portOr explicit default = port) : explicit.getD default = port ↔ explicit ≠ some 0 := by
  unfold portOr at h
  cases explicit with
  | none => simpa using h
  | some n =>
    rw [Option.getD_some] at h ⊢
    by_cases hn : n = 0
    · exact iff_of_false (by omega) (not_not.mpr (congrArg some hn))
    · rw [if_neg hn] at h
      exact iff_of_true h fun hzero => hn (Option.some.inj hzero)

theorem parseServices_mem (h : parseServices u profile value = .ok services) :
    ∀ s ∈ services, ∃ item, parseService u profile item = .ok s := by
  unfold parseServices at h
  split at h
  next items =>
    intro s hs
    obtain ⟨item, -, hitem⟩ := exists_of_mem_right (mapM_eq_ok.mp h) s hs
    exact ⟨item, hitem⟩
  next => cases h

theorem host_mem_loopback (h : isLoopbackHttp u url = true) :
    ∃ host, url.hostname u.lower = some host ∧ host ∈ loopbackHosts := by
  obtain ⟨host, hhost, hloopback⟩ := (Option.any_eq_true _ _).mp (of_decide_eq_true h).2.1
  exact ⟨host, hhost, of_decide_eq_true hloopback⟩

/-- A URL that is let through keeps the contract, unless it names port zero. -/
theorem parseService_url (h : parseService u profile item = .ok s)
    (htext : s.readinessUrl = some text) :
    (∃ url host listen, Url.urlsplit u.nfkc text = some url ∧ url.hostname u.lower = some host ∧
      host ∈ loopbackHosts ∧ s.listen = some listen ∧ portOf url = some listen.port.val) ↔
      ¬ s.NamesPortZero u := by
  obtain ⟨url, listen, hsplit, hloopback, hlisten, -, explicit, hexplicit, hport⟩ :=
    (parseService_ok h).2 text htext
  have hport' := portOr_eq_iff listen.port.property.1 hport
  constructor
  · intro hcontract hzero
    obtain ⟨url', host, listen', hsplit', -, -, hlisten', hportOf⟩ := hcontract
    obtain ⟨text', url'', htext', hsplit'', hzero⟩ := hzero
    obtain rfl := Option.some.inj (htext.symm.trans htext')
    obtain rfl := Option.some.inj (hsplit.symm.trans hsplit')
    obtain rfl := Option.some.inj (hsplit.symm.trans hsplit'')
    obtain rfl := Option.some.inj (hlisten.symm.trans hlisten')
    obtain rfl := Option.some.inj (hexplicit.symm.trans hzero)
    unfold portOf at hportOf
    rw [hzero] at hportOf
    exact hport'.mp (Option.some.inj hportOf) rfl
  · intro hnonzero
    obtain ⟨host, hhost, hmem⟩ := host_mem_loopback hloopback
    have hexplicit_ne : explicit ≠ some 0 := fun hzero =>
      hnonzero ⟨text, url, htext, hsplit, hexplicit.trans (congrArg some hzero)⟩
    refine ⟨url, host, listen, hsplit, hhost, hmem, hlisten, ?_⟩
    unfold portOf
    rw [hexplicit, Option.map_some, hport'.mpr hexplicit_ne]

theorem fromDict_raises :
    Only LoadFault.IsManifest (fromDict u members) ↔
      (fieldsAre members (allowedKeys members) = true →
        hashable (productProfile members) = true) ∧
      ∀ header, readHeader members = .ok header →
        CleanServices u header.profile (fieldOf members "services") ∧
        ∀ services, readServices u header.profile (fieldOf members "services") = .ok services →
          CleanSettings u members := by
  unfold fromDict
  simp only [only_bind, readHeader_raises, readServices_raises, readSettings_raises, only_ok,
    implies_true, and_true]

theorem fromDict_ok {m : DeploymentManifest} : fromDict u members = .ok m ↔
    ∃ header services settings, readHeader members = .ok header ∧
      readServices u header.profile (fieldOf members "services") = .ok services ∧
      readSettings u header.profile members = .ok settings ∧
      m = ⟨2, header.deploymentId, "rag.home.arpa", "Private", services, settings,
        header.profile⟩ := by
  unfold fromDict
  simp only [bind_eq_ok, Except.ok.injEq]
  constructor
  · intro h
    obtain ⟨header, hheader, services, hservices, settings, hsettings, rfl⟩ := h
    exact ⟨header, services, settings, hheader, hservices, hsettings, rfl⟩
  · intro h
    obtain ⟨header, services, settings, hheader, hservices, hsettings, rfl⟩ := h
    exact ⟨header, hheader, services, hservices, settings, hsettings, rfl⟩

/-- The services that are let through keep the contract, unless a URL names port zero. -/
theorem contract_iff {m : DeploymentManifest}
    (h : readServices u profile value = .ok m.services) :
    m.Contract u ↔ ∀ s ∈ m.services, ¬ s.NamesPortZero u := by
  have hparse := parseServices_mem (readServices_ok h).1
  constructor
  · intro hcontract s hs hzero
    obtain ⟨item, hitem⟩ := hparse s hs
    obtain ⟨text, url, htext, hrest⟩ := hzero
    exact (parseService_url hitem htext).mp (hcontract.url s hs text htext)
      ⟨text, url, htext, hrest⟩
  · intro hports
    refine ⟨readServices_exposed h, fun s hs text htext => ?_, fun s hs token htoken => ?_⟩
    · obtain ⟨item, hitem⟩ := hparse s hs
      exact (parseService_url hitem htext).mpr (hports s hs)
    · obtain ⟨item, hitem⟩ := hparse s hs
      exact (parseService_ok hitem).1 token htoken

/-- The functions of `str`, on texts of ASCII characters. -/
def asciiText : Unicode := ⟨String.toLower, String.toUpper, String.toLower, id⟩

/-- An object whose profile is a list. -/
def listedProfile : Members :=
  [("schema_version", .null), ("deployment_id", .null), ("canonical_host", .null),
    ("firewall_profile", .null), ("services", .null), ("restart_policy", .null),
    ("backup", .null), ("updates", .null), ("caddy", .null), ("deployment_readiness", .null),
    ("product_profile", .arr [])]

end LocalRag.Deployment
