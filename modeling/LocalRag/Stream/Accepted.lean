import LocalRag.Stream.Speaks

/-!
# The client accepts the response

The service and the route around it, over what the client makes of the `try` block
(`Stream.Speaks`). An exception of either is reported in an event the client
accepts everywhere. `StopsBeforeAnswer` is the one path the client rejects, in
terms of what the generator yields, and `accepted_iff` shows there is no other.
-/

namespace LocalRag.Stream

open LocalRag.Core

section Service

variable {v : View} {cb : Callbacks} {prepared : PreparedChatTurn} {R : Raised → Response → Prop}

/-! ## The service -/

/-- A text that is cut is not cut to nothing. -/
theorem boundedText_ne {text fallback : String} (h : fallback ≠ "") :
    boundedText text fallback ≠ "" := by
  have hne : (if strip text = "" then fallback else strip text) ≠ "" := by
    split
    · exact h
    next hstrip => exact hstrip
  unfold boundedText
  generalize (if strip text = "" then fallback else strip text) = t at hne ⊢
  intro hempty
  rw [← String.toList_inj] at hempty
  simp only [String.toList_ofList, String.toList_empty, List.take_eq_nil_iff] at hempty
  rcases hempty with hzero | hnil
  · exact absurd hzero (by decide)
  · exact hne (String.toList_inj.mp hnil)

theorem boundedError_ne (x : Raised) : boundedError x ≠ "" := by
  refine boundedText_ne ?_
  cases x with
  | cancelled | generatorExit | accessRevoked => decide
  | http statusCode detail => exact show "HTTPException" ≠ "" by decide
  | exception className message => exact className.2

/-- A transition that returns changes no frame. -/
theorem transition_none {P : Response → Prop} {recorder : Recorder} {status : TurnStatus}
    (h : ∀ r, P r → P (recorded recorder status none r)) :
    Spec P (transition recorder status none) (fun _ => P) R :=
  Spec.bind (M := fun _ => P) (Spec.update h) fun _ => Spec.pure fun _ hr => hr

theorem recordFailure_speaks (hchat : prepared.chatId = v.expected.chatId)
    (hservice : cb.service = none) (x : Raised) :
    Spec (fun r => Live v prepared.turnId r) (recordFailure cb prepared x)
      (fun res r => match res with
        | none => Failed v r
        | some e => Final v prepared e r)
      (fun y r => y.isException = false ∧ Live v prepared.turnId r) := by
  have hreport : ∀ status code message, code ≠ "" → message ≠ "" →
      Spec (fun r => Live v prepared.turnId r) (transition .service status cb.service >>= fun _ =>
        serviceEvent prepared (.error code message) >>= fun _ =>
          (pure none : Body (Option FinalEvent)))
        (fun res r => match res with
          | none => Failed v r
          | some e => Final v prepared e r)
        (fun y r => y.isException = false ∧ Live v prepared.turnId r) := by
    intro status code message hcode hmessage
    rw [hservice]
    refine (transition_none fun _ h => h).bind fun _ => ?_
    refine Spec.bind (M := fun _ => Failed v)
      (event_spec hchat fun _ h => h.error hcode hmessage) fun _ => ?_
    exact Spec.pure fun _ h => h
  have hreraise : x.isException = false →
      Spec (fun r => Live v prepared.turnId r) (transition .service .interrupted cb.service >>=
        fun _ => (throw x : Body (Option FinalEvent)))
        (fun res r => match res with
          | none => Failed v r
          | some e => Final v prepared e r)
        (fun y r => y.isException = false ∧ Live v prepared.turnId r) := by
    intro hx
    rw [hservice]
    refine (transition_none fun _ h => h).bind fun _ => ?_
    exact Spec.throw fun _ h => ⟨hx, h⟩
  cases x with
  | cancelled => exact hreraise rfl
  | generatorExit => exact hreraise rfl
  | accessRevoked => exact hreport _ _ _ (by decide) (by decide)
  | http statusCode detail => exact hreport _ _ _ (by decide) (boundedError_ne _)
  | exception className message => exact hreport _ _ _ (by decide) (boundedError_ne _)

/-- What the route prepares: checked sources, and a prompt exactly if there are
any. -/
structure PreparedChatTurn.Ok (prepared : PreparedChatTurn) : Prop where
  authorized : prepared.accessRevoked = false
  sources : SourcesOk prepared.sources
  prompt : (if prepared.alreadyComplete then none else prepared.prompt) = none ↔
    prepared.sources = []

/-- The client has the final event or the server's error. -/
def Ended (v : View) (r : Response) : Prop := Answered v r ∨ Failed v r

theorem serviceStream_speaks (hchat : prepared.chatId = v.expected.chatId)
    (hdraft : cb.draft = none) (hservice : cb.service = none) (hok : prepared.Ok)
    (hanswers : cb.monitor = none → prepared.sources ≠ [] → prepared.continuationAnswer = none →
      stopsBeforeAnswer (cb.generation 0).chunks = false) :
    Spec (Prepared v prepared.turnId) (serviceStream cb prepared) (fun _ => Ended v)
      (fun y r => y.isException = false ∧ Live v prepared.turnId r) := by
  unfold serviceStream
  rw [if_neg (by simp [hok.authorized])]
  split
  next hprompt =>
    have hempty := hok.prompt.mp hprompt
    refine Spec.bind (M := fun _ => Sees v prepared.turnId .expectValidationStatus (some []) 0)
      (event_spec hchat fun r h => ?_) fun _ => ?_
    · have hsees := Sees.sourcesEvent h hok.sources.event.1 hok.sources.event.2
      rwa [hempty] at hsees ⊢
    · refine Spec.bind (M := fun _ => Sees v prepared.turnId .validating (some []) 0)
        (event_spec hchat fun _ h => h.status rfl rfl) fun _ => ?_
      exact event_spec hchat fun r h => Or.inl (h.final (by decide +kernel) rfl)
  next prompt hprompt =>
    have hne : prepared.sources ≠ [] := by
      intro hempty
      rw [hok.prompt.mpr hempty] at hprompt
      exact absurd hprompt (by simp)
    refine Spec.bind (Spec.tryCatch (answerTurn_speaks hchat hdraft hok.sources hne
      (fun hm => hanswers hm hne) prompt) (recordFailure_speaks hchat hservice)) fun res => ?_
    cases res with
    | none => exact Spec.pure fun _ h => Or.inr h
    | some e =>
      refine event_spec hchat fun r h => Or.inl ?_
      obtain ⟨hparses, hvalid, points, hsees⟩ := h
      exact hsees.final hparses hvalid

theorem serviceStream_rejected (hchat : prepared.chatId = v.expected.chatId) (hok : prepared.Ok)
    (hmonitor : cb.monitor = none) (hne : prepared.sources ≠ [])
    (hcont : prepared.continuationAnswer = none)
    (hstops : stopsBeforeAnswer (cb.generation 0).chunks = true) :
    Spec (Prepared v prepared.turnId) (serviceStream cb prepared) (fun _ => Rejected v)
      (fun _ => Rejected v) := by
  have hevent : ∀ e, Keeps (Rejected v) (serviceEvent prepared e) :=
    keeps_serviceEvent (stable_rejected prepared)
  have hrecord : ∀ status, Keeps (Rejected v) (transition .service status cb.service) := fun _ =>
    keeps_transition fun _ h => h
  unfold serviceStream
  rw [if_neg (by simp [hok.authorized])]
  split
  next hprompt => exact absurd (hok.prompt.mp hprompt) hne
  next prompt hprompt =>
    refine Spec.bind (Spec.tryCatch (answerTurn_rejected hchat hok.sources hne hmonitor hcont
      hstops prompt) fun x => ?_) fun res => ?_
    · show Spec _ (recordFailure cb prepared x) _ _
      cases x with
      | cancelled => exact (hrecord _).bind fun _ => Keeps.throw _
      | generatorExit => exact (hrecord _).bind fun _ => Keeps.throw _
      | accessRevoked => exact (hrecord _).bind fun _ => (hevent _).bind fun _ => Keeps.pure _
      | http statusCode detail =>
        exact (hrecord _).bind fun _ => (hevent _).bind fun _ => Keeps.pure _
      | exception className message =>
        exact (hrecord _).bind fun _ => (hevent _).bind fun _ => Keeps.pure _
    · cases res with
      | none => exact Spec.pure fun _ h => h
      | some e => exact hevent _

end Service

/-! ## The route -/

/-- The frames of the service after those the route had sent. -/
def joined (r s : Response) : Response :=
  { r with
    frames := r.frames ++ s.frames
    transitions := r.transitions ++ s.transitions }

/-- What was sent before the service started, for the route at `r`. -/
def View.within (v : View) (r : Response) : View := ⟨v.expected, v.before ++ r.frames⟩

theorem client_within (v : View) (r s : Response) :
    (v.within r).client s = v.client (joined r s) := by
  show clientAfter v.expected (v.before ++ r.frames ++ s.frames) =
    clientAfter v.expected (v.before ++ (r.frames ++ s.frames))
  rw [List.append_assoc]

theorem count_within (v : View) (r s : Response) :
    (v.within r).count s = v.count (joined r s) := by
  show (v.before ++ r.frames ++ s.frames).length = (v.before ++ (r.frames ++ s.frames)).length
  rw [List.append_assoc]

theorem sent_within (v : View) (r s : Response) :
    (v.within r).before ++ s.frames = v.before ++ (joined r s).frames :=
  List.append_assoc _ _ _

theorem forward_spec {P : Response → Prop} {inner : Body Unit} {Q : Unit → Response → Prop}
    {R : Raised → Response → Prop}
    (h : ∀ r, P r → Spec (fun s => s = ⟨r.sequence, [], []⟩) inner
      (fun u s => Q u (joined r s)) (fun x s => R x (joined r s))) :
    Spec P (forward inner) Q R := by
  refine ⟨fun r hr => ?_⟩
  have hexit := (h r hr).exits _ rfl
  unfold forward
  match inner ⟨r.sequence, [], []⟩, hexit with
  | (.ok _, s), hexit => exact hexit
  | (.error _, s), hexit => exact hexit

section Route

variable {v : View} {cb : Callbacks} {prep : Preparation} {begin : BeginTurn}

theorem Sees.within {turnId : TurnId} {state : ProtocolState}
    {sources : Option (List StreamSource)} {points : Nat} {r s : Response} :
    Sees (v.within r) turnId state sources points s ↔
      Sees v turnId state sources points (joined r s) := by
  unfold Sees
  rw [client_within, count_within]

theorem Ended.within {r s : Response} (h : Ended (v.within r) s) : Ended v (joined r s) := by
  unfold Ended Answered Failed at h ⊢
  rwa [client_within, sent_within] at h

/-- The service's stream, forwarded by the route, where the client waits for the
sources. -/
theorem prepared_within {turnId : TurnId} {r : Response} (h : Prepared v turnId r) :
    ∀ s, s = (⟨r.sequence, [], []⟩ : Response) → Prepared (v.within r) turnId s := by
  intro s hs
  subst hs
  refine Sees.within.mpr ?_
  have hjoined : joined r ⟨r.sequence, [], []⟩ = r := by simp [joined]
  rw [hjoined]
  exact h

theorem snapshotSources_ok {snapshot : Snapshot} {prepared : PreparedChatTurn}
    (h : snapshotSources cb begin snapshot = .ok prepared) :
    prepared.Ok ∧ prepared.chatId = begin.chatId ∧ prepared.turnId = begin.turnId ∧
      prepared.sources = snapshot.sources ∧
      prepared.continuationAnswer = begin.continuationAnswer := by
  unfold snapshotSources at h
  cases hcont : begin.continuationAnswer with
  | none =>
    rw [hcont] at h
    obtain rfl := Except.ok.inj h
    refine ⟨⟨rfl, snapshot.sources_ok, ?_⟩, rfl, rfl, rfl, rfl⟩
    by_cases hempty : snapshot.sources = [] <;> simp [hempty]
  | some partialAnswer =>
    rw [hcont] at h
    by_cases hempty : snapshot.sources = []
    · simp [hempty] at h
    · simp only [hempty, if_false] at h
      cases hp : continuationPrompt cb.countTokens snapshot.basePrompt partialAnswer with
      | error e =>
        rw [hp] at h
        exact absurd h (by simp [bind, Except.bind])
      | ok prompt =>
        rw [hp] at h
        obtain rfl := Except.ok.inj h
        exact ⟨⟨rfl, snapshot.sources_ok, by simp [hempty]⟩, rfl, rfl, rfl, rfl⟩

/-- The turn reaches its first generation call as a new answer, and that call ends
with a regular stop before any answer. -/
structure StopsBeforeAnswer (cb : Callbacks) (prep : Preparation) (begin : BeginTurn) : Prop where
  incomplete : begin.alreadyComplete = false
  fresh : begin.continuationAnswer = none
  embed : prep.embed = none
  retrieve : prep.retrieve = none
  rerank : prep.rerank = none
  snapshot : ∃ snapshot, prep.snapshot = .ok snapshot ∧ snapshot.sources ≠ []
  available : prep.available = none
  monitor : cb.monitor = none
  stops : stopsBeforeAnswer (cb.generation 0).chunks = true

theorem routeEvent_spec (hchat : begin.chatId = v.expected.chatId) {P Q : Response → Prop}
    {R : Raised → Response → Prop} {e : Event}
    (h : ∀ r, P r → Q (numbered v.expected.chatId begin.turnId e r)) :
    Spec P (routeEvent begin e) (fun _ => Q) R := by
  unfold routeEvent event
  rw [hchat]
  exact Spec.update h

/-- The service behind the route. -/
theorem forward_speaks {prepared : PreparedChatTurn} (hchat : prepared.chatId = v.expected.chatId)
    (hturn : prepared.turnId = begin.turnId) (hdraft : cb.draft = none)
    (hservice : cb.service = none) (hok : prepared.Ok)
    (hanswers : cb.monitor = none → prepared.sources ≠ [] → prepared.continuationAnswer = none →
      stopsBeforeAnswer (cb.generation 0).chunks = false) :
    Spec (Prepared v begin.turnId) (forward (serviceStream cb prepared)) (fun _ => Ended v)
      (fun _ r => Live v begin.turnId r) := by
  refine forward_spec fun r hr => ?_
  have hinner := @serviceStream_speaks (v.within r) cb prepared hchat hdraft hservice hok hanswers
  rw [hturn] at hinner
  refine hinner.conseq (prepared_within hr) (fun _ s h => h.within) fun _ s h => ?_
  obtain ⟨-, state, sources, points, hsees⟩ := h
  exact ⟨state, sources, points, Sees.within.mp hsees⟩

theorem prepareAndStream_speaks (hchat : begin.chatId = v.expected.chatId)
    (hdraft : cb.draft = none) (hservice : cb.service = none)
    (hnot : ¬ StopsBeforeAnswer cb prep begin) :
    Spec (Sees v begin.turnId .expectRetrieving none 0) (prepareAndStream cb prep begin)
      (fun _ => Ended v) (fun _ r => Live v begin.turnId r) := by
  unfold prepareAndStream
  refine Spec.bind (M := fun _ => Sees v begin.turnId .expectReranking none 0)
    (routeEvent_spec hchat fun _ h => h.status rfl rfl) fun _ => ?_
  split
  next hcomplete =>
    refine Spec.bind (M := fun _ => Sees v begin.turnId .expectPreparingAnswer none 0)
      (routeEvent_spec hchat fun _ h => h.status rfl rfl) fun _ => ?_
    refine Spec.bind (M := fun _ => Prepared v begin.turnId)
      (routeEvent_spec hchat fun _ h => h.status rfl rfl) fun _ => ?_
    have hempty : SourcesOk (pendingTurn begin).sources :=
      ⟨fun i s hs => absurd hs (by simp [pendingTurn]), by simp [pendingTurn],
        by simp [pendingTurn], by simp [pendingTurn]⟩
    exact forward_speaks hchat rfl hdraft hservice ⟨rfl, hempty, by simp [pendingTurn, hcomplete]⟩
      fun _ hne => absurd rfl hne
  next hincomplete =>
    have hincomplete : begin.alreadyComplete = false := by simpa using hincomplete
    refine Spec.bind (M := fun _ r => Sees v begin.turnId .expectReranking none 0 r ∧
      prep.embed = none) (await_spec (fun he _ h => ⟨h, he⟩) fun _ _ h => h.live) fun _ => ?_
    refine Spec.assume fun hembed => ?_
    refine Spec.bind (M := fun _ r => Sees v begin.turnId .expectReranking none 0 r ∧
      (begin.continuationAnswer = none → prep.retrieve = none))
      (await_spec (fun he _ h => ⟨h, fun hcont => by simpa [hcont] using he⟩)
        fun _ _ h => h.live) fun _ => ?_
    refine Spec.assume fun hretrieve => ?_
    refine Spec.bind (M := fun _ => Sees v begin.turnId .expectPreparingAnswer none 0)
      (routeEvent_spec hchat fun _ h => h.status rfl rfl) fun _ => ?_
    refine Spec.bind (M := fun _ r => Sees v begin.turnId .expectPreparingAnswer none 0 r ∧
      prep.rerank = none) (await_spec (fun he _ h => ⟨h, he⟩) fun _ _ h => h.live) fun _ => ?_
    refine Spec.assume fun hrerank => ?_
    refine Spec.bind (M := fun _ => Prepared v begin.turnId)
      (routeEvent_spec hchat fun _ h => h.status rfl rfl) fun _ => ?_
    refine Spec.bind (M := fun snapshot r => Prepared v begin.turnId r ∧
      prep.snapshot = .ok snapshot) (attempt_spec (fun _ hs _ h => ⟨h, hs⟩)
        fun _ _ h => Sees.live h) fun snapshot => ?_
    refine Spec.assume fun hsnapshot => ?_
    refine Spec.bind (M := fun prepared r => Prepared v begin.turnId r ∧
      snapshotSources cb begin snapshot = .ok prepared) (attempt_spec (fun _ hs _ h => ⟨h, hs⟩)
        fun _ _ h => Sees.live h) fun prepared => ?_
    refine Spec.assume fun hprepared => ?_
    refine Spec.bind (M := fun _ r => Prepared v begin.turnId r ∧ prep.available = none)
      (await_spec (fun he _ h => ⟨h, he⟩) fun _ _ h => Sees.live h) fun _ => ?_
    refine Spec.assume fun havailable => ?_
    obtain ⟨hok, hpchat, hpturn, hpsources, hpcont⟩ := snapshotSources_ok hprepared
    refine forward_speaks (hpchat.trans hchat) hpturn hdraft hservice hok fun hmonitor hne hcont => ?_
    rw [hpsources] at hne
    rw [hpcont] at hcont
    -- everything but the stop is in place
    by_contra hstops
    exact hnot ⟨hincomplete, hcont, hembed, hretrieve hcont, hrerank, ⟨snapshot, hsnapshot, hne⟩,
      havailable, hmonitor, by simpa using hstops⟩

theorem recordRouteFailure_speaks (hchat : begin.chatId = v.expected.chatId)
    (hroute : cb.route = none) (x : Raised) :
    Spec (fun r => Live v begin.turnId r) (recordRouteFailure cb begin x) (fun _ => Ended v)
      (fun y r => y.isException = false ∧ Live v begin.turnId r) := by
  have hreport : ∀ status code message, code ≠ "" → message ≠ "" →
      Spec (fun r => Live v begin.turnId r) (transition .route status none >>= fun _ =>
        routeEvent begin (.error code message)) (fun _ => Ended v)
        (fun y r => y.isException = false ∧ Live v begin.turnId r) := by
    intro status code message hcode hmessage
    refine (transition_none fun _ h => h).bind fun _ => ?_
    exact routeEvent_spec hchat fun _ h => Or.inr (h.error hcode hmessage)
  have hrevoke : Spec (fun r => Live v begin.turnId r) (revokeTrusted cb begin) (fun _ => Ended v)
      (fun y r => y.isException = false ∧ Live v begin.turnId r) := by
    unfold revokeTrusted
    rw [hroute, ite_self]
    exact hreport _ _ _ (by decide) (by decide)
  have hfail : ∀ message, message ≠ "" → Spec (fun r => Live v begin.turnId r)
      (failTurn cb begin message) (fun _ => Ended v)
      (fun y r => y.isException = false ∧ Live v begin.turnId r) := by
    intro message hmessage
    unfold failTurn
    rw [hroute]
    exact hreport _ _ _ (by decide) hmessage
  have hreraise : x.isException = false → Spec (fun r => Live v begin.turnId r)
      (Gen.when (¬ begin.alreadyComplete ∧ begin.token.isSome)
        (transition .route .interrupted cb.route) >>= fun _ => (throw x : Body Unit))
      (fun _ => Ended v) (fun y r => y.isException = false ∧ Live v begin.turnId r) := by
    intro hx
    rw [hroute]
    refine Spec.bind (M := fun _ r => Live v begin.turnId r)
      (Spec.when (fun _ => transition_none fun _ h => h) fun _ _ h => h) fun _ => ?_
    exact Spec.throw fun _ h => ⟨hx, h⟩
  cases x with
  | cancelled => exact hreraise rfl
  | generatorExit => exact hreraise rfl
  | accessRevoked => exact hrevoke
  | http statusCode detail =>
    show Spec _ (if statusCode ∈ [401, 403, 404] then revokeTrusted cb begin
      else failTurn cb begin (boundedText detail "generation failed")) _ _
    split
    · exact hrevoke
    · exact hfail _ (boundedText_ne (by decide))
  | exception className message => exact hfail _ (boundedError_ne _)

/-- On the one bad path the client has rejected the stream, whatever follows. -/
theorem routeStream_rejected (hchat : begin.chatId = v.expected.chatId)
    (h : StopsBeforeAnswer cb prep begin) :
    Spec (Sees v begin.turnId .expectRetrieving none 0) (routeStream cb prep begin)
      (fun _ => Rejected v) (fun _ => Rejected v) := by
  have hevent : ∀ e, Keeps (Rejected v) (routeEvent begin e) := fun e =>
    Keeps.update fun _ hr => hr.event _ _ e
  have hrecord : ∀ status answer, Keeps (Rejected v) (transition .route status answer) :=
    fun _ _ => keeps_transition fun _ hr => hr
  refine Spec.tryCatch (M := fun _ => Rejected v) ?_ fun x => ?_
  · obtain ⟨snapshot, hsnapshot, hne⟩ := h.snapshot
    obtain ⟨prepared, hprepared⟩ : ∃ prepared, snapshotSources cb begin snapshot = .ok prepared := by
      unfold snapshotSources
      rw [h.fresh]
      exact ⟨_, rfl⟩
    obtain ⟨hok, hpchat, hpturn, hpsources, hpcont⟩ := snapshotSources_ok hprepared
    unfold prepareAndStream
    rw [if_neg (by simp [h.incomplete]), h.embed, h.retrieve, ite_self, h.rerank, hsnapshot,
      h.available]
    refine Spec.bind (M := fun _ => Sees v begin.turnId .expectReranking none 0)
      (routeEvent_spec hchat fun _ hs => hs.status rfl rfl) fun _ => ?_
    refine Spec.bind (M := fun _ => Sees v begin.turnId .expectReranking none 0)
      (Spec.pure fun _ hs => hs) fun _ => ?_
    refine Spec.bind (M := fun _ => Sees v begin.turnId .expectReranking none 0)
      (Spec.pure fun _ hs => hs) fun _ => ?_
    refine Spec.bind (M := fun _ => Sees v begin.turnId .expectPreparingAnswer none 0)
      (routeEvent_spec hchat fun _ hs => hs.status rfl rfl) fun _ => ?_
    refine Spec.bind (M := fun _ => Sees v begin.turnId .expectPreparingAnswer none 0)
      (Spec.pure fun _ hs => hs) fun _ => ?_
    refine Spec.bind (M := fun _ => Prepared v begin.turnId)
      (routeEvent_spec hchat fun _ hs => hs.status rfl rfl) fun _ => ?_
    show Spec _ (attempt (snapshotSources cb begin snapshot) >>= fun prepared =>
      (pure () : Body Unit) >>= fun _ => forward (serviceStream cb prepared)) _ _
    rw [hprepared]
    show Spec _ (forward (serviceStream cb prepared)) _ _
    refine forward_spec fun r hr => ?_
    have hinner := @serviceStream_rejected (v.within r) cb prepared (hpchat.trans hchat) hok
      h.monitor (hpsources ▸ hne) (hpcont.trans h.fresh) h.stops
    rw [hpturn] at hinner
    have hwithin : ∀ s, Rejected (v.within r) s → Rejected v (joined r s) := by
      intro s hs
      unfold Rejected at hs ⊢
      rwa [client_within] at hs
    exact hinner.conseq (prepared_within hr) (fun _ => hwithin) fun _ => hwithin
  · cases x with
    | cancelled => exact (Keeps.when (hrecord _ _)).bind fun _ => Keeps.throw _
    | generatorExit => exact (Keeps.when (hrecord _ _)).bind fun _ => Keeps.throw _
    | accessRevoked => exact (hrecord _ _).bind fun _ => hevent _
    | http statusCode detail =>
      show Spec _ (if statusCode ∈ [401, 403, 404] then revokeTrusted cb begin
        else failTurn cb begin (boundedText detail "generation failed")) _ _
      split
      · exact (hrecord _ _).bind fun _ => hevent _
      · exact (hrecord _ _).bind fun _ => hevent _
    | exception className message => exact (hrecord _ _).bind fun _ => hevent _

end Route

/-! ## The whole response -/

/-- The client accepts the response: no event is an invalid stream to it, and when
the response has been sent to its end it returns the server's final event or throws
the server's own error. A response that does not reach its end was cancelled. -/
structure Accepted (expected : ExpectedChatStream) (outcome : Except Raised Unit × Response) :
    Prop where
  valid : ∀ message,
    consumeAll expected expected.start (renumber outcome.2.frames) ≠ .error (.invalid message)
  ends : outcome.1 = .ok () →
    (∃ final, consumeChatSse expected (renumber outcome.2.frames) = .ok final ∧
      ∃ f ∈ outcome.2.frames, f.event = .final final) ∨
    ∃ code message, consumeChatSse expected (renumber outcome.2.frames) =
      .error (.api code message) ∧ ∃ f ∈ outcome.2.frames, f.event = .error code message
  cancelled : ∀ x, outcome.1 = .error x → x.isException = false

/-- Where the reader of a whole response stands. -/
def View.outer (expected : ExpectedChatStream) : View := ⟨expected, []⟩

section Response

variable {expected : ExpectedChatStream} {r : Response}

theorem Ended.accepted (h : Ended (View.outer expected) r) : Accepted expected (.ok (), r) := by
  rcases h with h | h
  · obtain ⟨final, client, hclient, hfinal, hsent⟩ := h
    have hclient : consumeAll expected expected.start (renumber r.frames) = .ok client := hclient
    refine ⟨fun message => ?_, fun _ => Or.inl ⟨final, ?_, hsent⟩, fun x hx => absurd hx (by simp)⟩
    · rw [hclient]
      simp
    · show (consumeAll expected expected.start (renumber r.frames) >>= _) = _
      rw [hclient]
      dsimp only [bind, Except.bind]
      rw [hfinal]
      rfl
  · obtain ⟨code, message, hclient, hsent⟩ := h
    have hclient : consumeAll expected expected.start (renumber r.frames) =
      .error (.api code message) := hclient
    refine ⟨fun message => ?_, fun _ => Or.inr ⟨code, message, ?_, hsent⟩,
      fun x hx => absurd hx (by simp)⟩
    · rw [hclient]
      simp
    · show (consumeAll expected expected.start (renumber r.frames) >>= _) = _
      rw [hclient]
      rfl

theorem Live.accepted {turnId : TurnId} (h : Live (View.outer expected) turnId r) {x : Raised}
    (hx : x.isException = false) : Accepted expected (.error x, r) := by
  obtain ⟨state, sources, points, turn, -, hclient⟩ := h
  have hclient : consumeAll expected expected.start (renumber r.frames) = .ok _ := hclient
  refine ⟨fun message => ?_, fun hok => absurd hok (by simp), fun y hy => ?_⟩
  · rw [hclient]
    simp
  · obtain rfl := Except.error.inj hy
    exact hx

theorem Rejected.not_accepted (h : Rejected (View.outer expected) r) (result : Except Raised Unit) :
    ¬ Accepted expected (result, r) := by
  intro haccepted
  obtain ⟨message, hclient⟩ := h
  exact haccepted.valid message hclient

end Response

/-- For every turn and every behaviour of the generator, the monitor and the
finalization, with transitions that return: the client accepts the response exactly
if it is not a new answer whose first generation call stops before any answer. -/
theorem accepted_iff (cb : Callbacks) (prep : Preparation) (begin : BeginTurn)
    (expected : ExpectedChatStream) (hchat : begin.chatId = expected.chatId)
    (hturn : expected.turnId.getD begin.turnId = begin.turnId) (hdraft : cb.draft = none)
    (hservice : cb.service = none) (hroute : cb.route = none) :
    Accepted expected (respond cb prep begin) ↔ ¬ StopsBeforeAnswer cb prep begin := by
  have hstart : Sees (View.outer expected) begin.turnId .expectRetrieving none 0
      ⟨1, [], []⟩ := ⟨expected.turnId, hturn, rfl⟩
  by_cases hstops : StopsBeforeAnswer cb prep begin
  · refine iff_of_false ?_ (not_not.mpr hstops)
    have hexit := (@routeStream_rejected (View.outer expected) cb prep begin hchat hstops).exits
      _ hstart
    unfold respond
    match routeStream cb prep begin ⟨1, [], []⟩, hexit with
    | (.ok (), r), hexit => exact Rejected.not_accepted hexit _
    | (.error x, r), hexit => exact Rejected.not_accepted hexit _
  · refine iff_of_true ?_ hstops
    have hspec : Spec (Sees (View.outer expected) begin.turnId .expectRetrieving none 0)
        (routeStream cb prep begin) (fun _ => Ended (View.outer expected))
        (fun y r => y.isException = false ∧ Live (View.outer expected) begin.turnId r) :=
      Spec.tryCatch (prepareAndStream_speaks hchat hdraft hservice hstops)
        (recordRouteFailure_speaks hchat hroute)
    have hexit := hspec.exits _ hstart
    unfold respond
    match routeStream cb prep begin ⟨1, [], []⟩, hexit with
    | (.ok (), r), hexit => exact Ended.accepted hexit
    | (.error x, r), hexit => exact Live.accepted hexit.2 hexit.1

/-- The generator yields the chunks, and every call outside returns. -/
def sampleCallbacks (chunks : List GenerationChunk) : Callbacks :=
  { countTokens := fun _ => 0
    monitor := none
    generation := fun _ => ⟨chunks.map fun c => .chunk c none, none⟩
    repair := ⟨[], none⟩
    finalize := .ok ⟨[], []⟩
    draft := none
    service := none
    route := none }

def sampleThought : GenerationChunk := .thinking ⟨"hm", by decide⟩

def sampleAnswer : GenerationChunk := .answer ⟨"It is so [S1].", by decide⟩

/-- A thought, an answer and a stop: the client has the final event. -/
theorem accepted_iff_answered :
    Accepted ⟨1, none⟩ (respond (sampleCallbacks [sampleThought, sampleAnswer, .done .stop none])
      samplePreparation sampleTurn) :=
  (accepted_iff (sampleCallbacks [sampleThought, sampleAnswer, .done .stop none])
    samplePreparation sampleTurn ⟨1, none⟩ rfl rfl rfl rfl rfl).mpr
    fun h => absurd h.stops (by decide)

/-- A thought and a stop: the client calls the stream invalid. -/
theorem reasoning_left_open :
    consumeChatSse ⟨1, none⟩ (renumber (respond (sampleCallbacks [sampleThought, .done .stop none])
        samplePreparation sampleTurn).2.frames) =
      .error (.invalid "The answer stream returned status validating_citations; expected null.") ∧
    ¬ Accepted ⟨1, none⟩ (respond (sampleCallbacks [sampleThought, .done .stop none])
      samplePreparation sampleTurn) := by
  have hclient : consumeAll ⟨1, none⟩ (ExpectedChatStream.start ⟨1, none⟩) (renumber (respond
      (sampleCallbacks [sampleThought, .done .stop none]) samplePreparation sampleTurn).2.frames) =
      .error (.invalid "The answer stream returned status validating_citations; expected null.") := by
    decide +kernel
  refine ⟨?_, fun h => h.valid _ hclient⟩
  unfold consumeChatSse
  rw [hclient]
  rfl

end LocalRag.Stream
