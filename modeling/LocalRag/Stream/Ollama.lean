import LocalRag.Core.Json
import LocalRag.Core.Run
import LocalRag.Stream.Generation

/-!
# The generator — lines of the model server, chunks of a generation

`OllamaGenerationClient.stream` of `app/services/ollama_generation.py`, from the lines of a
response that was not refused. Its callers handle one exception, `GenerationServiceError`; every
other one leaves the turn of a chat unrecorded.

One line is read by `readPayload`, and `readPayload_spec` says all it does: it yields the texts of
the line and goes on, or the texts and the terminal chunk, or a part of the texts before an
exception. The exception is another one exactly on a line with `Trouble`. What holds of the whole
stream (`stream_faithful_iff`) follows by induction on the lines.

Mirroring notes.
* `json.loads` and `str` belong to Python and may themselves raise, on a deep value or a long
  number: `Python` takes them as parameters, with no assumption on them. So is the test whether a
  literal of a `float` is zero.
* `count_tokens(prompt)` is a number.
* A response may end with an exception of the transport, which the client names in its own.
-/

namespace LocalRag.Stream.Ollama

open LocalRag.Core

/-! ## The client -/

/-- `json.loads(line)`: a value, a `JSONDecodeError`, or another exception of that class. -/
inductive Loaded where
  | value (payload : Json)
  | decodeError
  | raised (className : String)

structure Python where
  loads : List Char → Loaded
  /-- `str(value)`, or the class of what it raises. -/
  str : Json → Except String String
  floatIsZero : List Char → Bool

/-- What leaves the generator. -/
inductive Failure where
  /-- `GenerationServiceError`. -/
  | service (message : String)
  | other (className : String)
deriving Repr, DecidableEq

def Failure.isService : Failure → Bool
  | .service _ => true
  | .other _ => false

/-- An exception of httpx while the body is read, in the order of the handlers. -/
inductive TransportError where
  | connect
  | timeout
  | request
deriving Repr, DecidableEq

def TransportError.failure : TransportError → Failure
  | .connect => .service "Ollama disconnected during generation"
  | .timeout => .service "Ollama generation timed out"
  | .request => .service "Ollama transport failed during generation"

variable (py : Python) (estimatedPromptTokens : Nat)

/-- `bool(value)`. -/
def truthy : Json → Bool
  | .null => false
  | .bool b => b
  | .int n => n ≠ 0
  | .float literal => !py.floatIsZero literal
  | .str s => s ≠ ""
  | .arr elements => !elements.isEmpty
  | .obj members => !members.isEmpty

/-- `payload.get("error")`, if it is true. -/
def errorOf (payload : List (String × Json)) : Option Json :=
  (Json.get payload "error").filter (truthy py)

/-- A text, empty where there is none; `none` for another type. -/
def textField (value : Option Json) : Option String :=
  match value with
  | none | some .null => some ""
  | some (.str s) => some s
  | _ => none

/-- `if text: yield GenerationChunk(…, text)`. -/
def yieldText (chunk : ChunkText → GenerationChunk) (text : String) :
    Except Failure (List GenerationChunk) :=
  if text = "" then .ok []
  else if h : 1 ≤ text.length ∧ text.length ≤ 32768 then .ok [chunk ⟨text, h⟩]
  else .error (.other "ValueError")

/-- `payload.get("done") is True`. -/
def isDone (payload : List (String × Json)) : Bool :=
  match Json.get payload "done" with
  | some (.bool true) => true
  | _ => false

/-- `done_reason not in {"stop", "length"}`: a list and a `dict` have no hash. -/
def doneReason (value : Option Json) : Except Failure DoneReason :=
  match value with
  | some (.arr _) | some (.obj _) => .error (.other "TypeError")
  | some (.str s) =>
    if s = "stop" then .ok .stop
    else if s = "length" then .ok .length
    else .error (.service "Ollama returned an invalid generation stop reason")
  | _ => .error (.service "Ollama returned an invalid generation stop reason")

/-- A counter of the terminal payload. -/
def counter (payload : List (String × Json)) (field : String) : Except Failure Nat :=
  match Json.get payload field with
  | some (.int n) =>
    if n < 0 then .error (.service "Ollama returned invalid terminal usage counters")
    else .ok n.toNat
  | _ => .error (.service "Ollama returned invalid terminal usage counters")

def usageFields : List String :=
  ["prompt_eval_count", "eval_count", "total_duration", "load_duration", "prompt_eval_duration",
    "eval_duration"]

/-- `_usage_from_terminal_payload`. -/
def usageFromTerminalPayload (payload : List (String × Json)) :
    Except Failure (Option GenerationUsage) :=
  if ¬ usageFields.any (fun field => field ∈ payload.map (·.1)) then .ok none
  else do
    return some {
      promptEvalCount := ← counter payload "prompt_eval_count"
      evalCount := ← counter payload "eval_count"
      totalDurationNs := ← counter payload "total_duration"
      loadDurationNs := ← counter payload "load_duration"
      promptEvalDurationNs := ← counter payload "prompt_eval_duration"
      evalDurationNs := ← counter payload "eval_duration"
      estimatedPromptTokens := estimatedPromptTokens }

/-- The terminal chunk. -/
def doneChunk (payload : List (String × Json)) : Except Failure GenerationChunk := do
  let reason ← doneReason (Json.get payload "done_reason")
  let usage ← usageFromTerminalPayload estimatedPromptTokens payload
  return .done reason usage

/-- How the loop goes on after a line. -/
inductive LineEnd where
  | next
  | finished
  | raised (failure : Failure)
deriving Repr, DecidableEq

/-- The loop body after the error: the two texts, and the terminal chunk if the line is done. -/
def readTexts (payload : List (String × Json)) : List GenerationChunk × LineEnd :=
  match textField (Json.get payload "thinking"), textField (Json.get payload "response") with
  | none, _ => ([], .raised (.service "Ollama returned malformed thinking text"))
  | some _, none => ([], .raised (.service "Ollama returned malformed answer text"))
  | some thinking, some answer =>
    match yieldText .thinking thinking, yieldText .answer answer with
    | .error e, _ => ([], .raised e)
    | .ok thinkings, .error e => (thinkings, .raised e)
    | .ok thinkings, .ok answers =>
      if isDone payload then
        match doneChunk estimatedPromptTokens payload with
        | .error e => (thinkings ++ answers, .raised e)
        | .ok done => (thinkings ++ answers ++ [done], .finished)
      else (thinkings ++ answers, .next)

/-- The loop body on a `dict`: what it yields, and how it ends. -/
def readPayload (payload : List (String × Json)) : List GenerationChunk × LineEnd :=
  match errorOf py payload with
  | some value =>
    match py.str value with
    | .ok message => ([], .raised (.service message))
    | .error className => ([], .raised (.other className))
  | none => readTexts estimatedPromptTokens payload

/-- The generator after a line, where `rest` is what it does with the next ones. -/
def afterLine (rest : List GenerationChunk × Option Failure) :
    List GenerationChunk × LineEnd → List GenerationChunk × Option Failure
  | (chunks, .raised failure) => (chunks, some failure)
  | (chunks, .finished) => (chunks, none)
  | (chunks, .next) => (chunks ++ rest.1, rest.2)

/-- `stream`, from the lines of the response and what they end with: what it yields, and what it
raises after that. -/
def stream (ending : Option TransportError) :
    List (List Char) → List GenerationChunk × Option Failure
  | [] =>
    match ending with
    | some error => ([], some error.failure)
    | none => ([], some (.service "Ollama generation stream ended before a terminal done frame"))
  | line :: rest =>
    if line = [] then stream ending rest
    else match py.loads line with
      | .decodeError => ([], some (.service "Ollama returned malformed streaming JSON"))
      | .raised className => ([], some (.other className))
      | .value (.obj payload) =>
        afterLine (stream ending rest) (readPayload py estimatedPromptTokens payload)
      | .value _ => ([], some (.service "Ollama returned malformed streaming JSON"))

/-! ## What a response says -/

/-- A text or the end, without its details. -/
inductive Piece where
  | thinking (text : String)
  | answer (text : String)
  | done
deriving Repr, DecidableEq

def piece : GenerationChunk → Piece
  | .thinking text => .thinking text.1
  | .answer text => .answer text.1
  | .done _ _ => .done

/-- The text of a field, if it is a `str` that is not empty. -/
def textPieces (kind : String → Piece) (value : Option Json) : List Piece :=
  match value with
  | some (.str s) => if s = "" then [] else [kind s]
  | _ => []

def pieces (payload : List (String × Json)) : List Piece :=
  textPieces .thinking (Json.get payload "thinking") ++
    textPieces .answer (Json.get payload "response")

/-- The texts of the lines up to the first that is done. -/
def said : List (List Char) → List Piece
  | [] => []
  | line :: rest =>
    if line = [] then said rest
    else match py.loads line with
      | .value (.obj payload) => pieces payload ++ if isDone payload then [] else said rest
      | _ => said rest

/-- The stream yields what was said and one terminal chunk, or a part of what was said before a
`GenerationServiceError`. -/
def Faithful (lines : List (List Char)) (result : List GenerationChunk × Option Failure) : Prop :=
  match result.2 with
  | none => result.1.map piece = said py lines ++ [.done]
  | some failure => failure.isService = true ∧ result.1.map piece <+: said py lines

/-! ## One line -/

/-- A text that a chunk refuses. -/
def Overlong (value : Option Json) : Prop := ∃ s, value = some (.str s) ∧ 32768 < s.length

/-- A value without a hash. -/
def Unhashable (value : Option Json) : Prop :=
  (∃ elements, value = some (.arr elements)) ∨ ∃ members, value = some (.obj members)

/-- Both texts are strings, where they are there. -/
def WellTyped (payload : List (String × Json)) : Prop :=
  textField (Json.get payload "thinking") ≠ none ∧ textField (Json.get payload "response") ≠ none

/-- Another exception is raised: by `str` of the error, by a chunk, or by a lookup. -/
def Trouble (payload : List (String × Json)) : Prop :=
  match errorOf py payload with
  | some value => ∃ className, py.str value = .error className
  | none => WellTyped payload ∧
      (Overlong (Json.get payload "thinking") ∨ Overlong (Json.get payload "response") ∨
        (isDone payload = true ∧ Unhashable (Json.get payload "done_reason")))

/-- The loop goes on after the line. -/
def Passes (payload : List (String × Json)) : Prop :=
  errorOf py payload = none ∧ WellTyped payload ∧
    ¬ Overlong (Json.get payload "thinking") ∧ ¬ Overlong (Json.get payload "response") ∧
    isDone payload = false

variable {py estimatedPromptTokens} {payload : List (String × Json)}

theorem textField_eq_some {value : Option Json} {text : String} (h : textField value = some text)
    (kind : String → Piece) : textPieces kind value = (if text = "" then [] else [kind text]) ∧
      (Overlong value ↔ 32768 < text.length) := by
  unfold textField at h
  split at h
  next =>
    obtain rfl := Option.some.inj h
    refine ⟨rfl, ⟨fun hoverlong => ?_, fun hlong => absurd hlong (by decide)⟩⟩
    obtain ⟨_, hs, -⟩ := hoverlong
    cases hs
  next =>
    obtain rfl := Option.some.inj h
    refine ⟨rfl, ⟨fun hoverlong => ?_, fun hlong => absurd hlong (by decide)⟩⟩
    obtain ⟨_, hs, -⟩ := hoverlong
    cases hs
  next s =>
    obtain rfl := Option.some.inj h
    refine ⟨rfl, ⟨fun hoverlong => ?_, fun hlong => ⟨_, rfl, hlong⟩⟩⟩
    obtain ⟨_, hs, hlong⟩ := hoverlong
    obtain rfl := Json.str.inj (Option.some.inj hs)
    exact hlong
  next => cases h

/-- A chunk takes the text of a field, unless it is too long. -/
theorem yieldText_cases {chunk : ChunkText → GenerationChunk} {kind : String → Piece}
    {value : Option Json} {text : String} (hchunk : ∀ t, piece (chunk t) = kind t.1)
    (h : textField value = some text) :
    (Overlong value ∧ yieldText chunk text = .error (.other "ValueError")) ∨
    (¬ Overlong value ∧ ∃ chunks, yieldText chunk text = .ok chunks ∧
      chunks.map piece = textPieces kind value) := by
  obtain ⟨hpieces, hoverlong⟩ := textField_eq_some h kind
  rw [hpieces, hoverlong]
  unfold yieldText
  by_cases hempty : text = ""
  · refine Or.inr ⟨?_, [], if_pos hempty, ?_⟩
    · rw [hempty]
      decide
    · rw [if_pos hempty]
      rfl
  · have hpos : 1 ≤ text.length := by
      rw [Nat.one_le_iff_ne_zero, Ne, String.length_eq_zero_iff]
      exact hempty
    rw [if_neg hempty]
    by_cases hlong : 32768 < text.length
    · exact Or.inl ⟨hlong, dif_neg fun hlen => absurd hlen.2 (by omega)⟩
    · refine Or.inr ⟨hlong, _, dif_pos ⟨hpos, by omega⟩, ?_⟩
      rw [if_neg hempty, List.map_singleton, hchunk]

/-- It raises nothing but a `GenerationServiceError`. -/
def ServiceOnly {α : Type} (x : Except Failure α) : Prop := ∀ e, x = .error e → e.isService = true

theorem ServiceOnly.ok {α : Type} (a : α) : ServiceOnly (.ok a) := fun _ h => by cases h

theorem ServiceOnly.bind {α β : Type} {x : Except Failure α} {f : α → Except Failure β}
    (hx : ServiceOnly x) (hf : ∀ a, ServiceOnly (f a)) : ServiceOnly (x >>= f) := by
  cases x with
  | error e =>
    intro e' h
    obtain rfl : e = e' := Except.error.inj h
    exact hx e rfl
  | ok a => exact hf a

theorem counter_service (payload : List (String × Json)) (field : String) :
    ServiceOnly (counter payload field) := by
  intro e h
  unfold counter at h
  split at h
  · split at h
    · rw [← Except.error.inj h]
      rfl
    · cases h
  · rw [← Except.error.inj h]
    rfl

theorem usage_service : ServiceOnly (usageFromTerminalPayload estimatedPromptTokens payload) := by
  unfold usageFromTerminalPayload
  split
  · exact .ok _
  · refine .bind (counter_service payload "prompt_eval_count") fun _ => ?_
    refine .bind (counter_service payload "eval_count") fun _ => ?_
    refine .bind (counter_service payload "total_duration") fun _ => ?_
    refine .bind (counter_service payload "load_duration") fun _ => ?_
    refine .bind (counter_service payload "prompt_eval_duration") fun _ => ?_
    refine .bind (counter_service payload "eval_duration") fun _ => ?_
    exact .ok _

theorem doneReason_cases (value : Option Json) :
    (Unhashable value ∧ doneReason value = .error (.other "TypeError")) ∨
    (¬ Unhashable value ∧ ServiceOnly (doneReason value)) := by
  have hservice : ∀ {x : Except Failure DoneReason},
      x = .error (.service "Ollama returned an invalid generation stop reason") →
      ServiceOnly x := by
    rintro x rfl e h
    rw [← Except.error.inj h]
    rfl
  cases value with
  | none => exact Or.inr ⟨by simp [Unhashable], hservice rfl⟩
  | some value =>
    cases value with
    | arr elements => exact Or.inl ⟨Or.inl ⟨_, rfl⟩, rfl⟩
    | obj members => exact Or.inl ⟨Or.inr ⟨_, rfl⟩, rfl⟩
    | str text =>
      refine Or.inr ⟨by simp [Unhashable], ?_⟩
      simp only [doneReason]
      split
      · exact .ok _
      · split
        · exact .ok _
        · exact hservice rfl
    | null => exact Or.inr ⟨by simp [Unhashable], hservice rfl⟩
    | bool b => exact Or.inr ⟨by simp [Unhashable], hservice rfl⟩
    | int n => exact Or.inr ⟨by simp [Unhashable], hservice rfl⟩
    | float literal => exact Or.inr ⟨by simp [Unhashable], hservice rfl⟩

/-- The terminal chunk: another exception comes from the stop reason alone. -/
theorem doneChunk_cases :
    (Unhashable (Json.get payload "done_reason") ∧
      doneChunk estimatedPromptTokens payload = .error (.other "TypeError")) ∨
    (¬ Unhashable (Json.get payload "done_reason") ∧
      ((∃ chunk, doneChunk estimatedPromptTokens payload = .ok chunk ∧ piece chunk = .done) ∨
        ∃ message, doneChunk estimatedPromptTokens payload = .error (.service message))) := by
  obtain ⟨hreason, htype⟩ | ⟨hreason, hservice⟩ := doneReason_cases (Json.get payload "done_reason")
  · refine Or.inl ⟨hreason, ?_⟩
    unfold doneChunk
    rw [htype]
    rfl
  · have hchunk : ServiceOnly (doneChunk estimatedPromptTokens payload) :=
      .bind hservice fun _ => .bind usage_service fun _ => .ok _
    refine Or.inr ⟨hreason, ?_⟩
    cases hdone : doneChunk estimatedPromptTokens payload with
    | ok chunk =>
      obtain ⟨reason, -, hrest⟩ := bind_eq_ok.mp hdone
      obtain ⟨usage, -, hchunk⟩ := bind_eq_ok.mp hrest
      exact Or.inl ⟨chunk, rfl, by rw [← Except.ok.inj hchunk]; rfl⟩
    | error e =>
      have he := hchunk e hdone
      cases e with
      | service message => exact Or.inr ⟨message, rfl⟩
      | other className => cases he

/-- What a line does: the inversion of `readPayload`. -/
inductive Reads (py : Python) (payload : List (String × Json)) :
    List GenerationChunk × LineEnd → Prop
  | next {chunks : List GenerationChunk} : Passes py payload → chunks.map piece = pieces payload →
      Reads py payload (chunks, .next)
  | finished {chunks : List GenerationChunk} : ¬ Trouble py payload → isDone payload = true →
      chunks.map piece = pieces payload ++ [.done] → Reads py payload (chunks, .finished)
  | refused {chunks : List GenerationChunk} {message : String} : ¬ Trouble py payload →
      ¬ Passes py payload → chunks.map piece <+: pieces payload →
      Reads py payload (chunks, .raised (.service message))
  | escaped {chunks : List GenerationChunk} {className : String} : Trouble py payload →
      Reads py payload (chunks, .raised (.other className))

theorem readTexts_reads (herror : errorOf py payload = none) :
    Reads py payload (readTexts estimatedPromptTokens payload) := by
  have htrouble : Trouble py payload ↔ WellTyped payload ∧
      (Overlong (Json.get payload "thinking") ∨ Overlong (Json.get payload "response") ∨
        (isDone payload = true ∧ Unhashable (Json.get payload "done_reason"))) := by
    unfold Trouble
    rw [herror]
  unfold readTexts
  cases hthinking : textField (Json.get payload "thinking") with
  | none =>
    have htyped : ¬ WellTyped payload := fun h => h.1 hthinking
    exact .refused (fun h => htyped (htrouble.mp h).1) (fun h => htyped h.2.1) List.nil_prefix
  | some thinking =>
    cases hanswer : textField (Json.get payload "response") with
    | none =>
      have htyped : ¬ WellTyped payload := fun h => h.2 hanswer
      exact .refused (fun h => htyped (htrouble.mp h).1) (fun h => htyped h.2.1) List.nil_prefix
    | some answer =>
      have htyped : WellTyped payload := ⟨by simp [hthinking], by simp [hanswer]⟩
      have hyield := @yieldText_cases .thinking .thinking _ _ (fun _ => rfl) hthinking
      have hyield' := @yieldText_cases .answer .answer _ _ (fun _ => rfl) hanswer
      obtain ⟨hlong, herr⟩ | ⟨hshort, thinkings, hok, hpieces⟩ := hyield
      · simp only [herr]
        exact .escaped (htrouble.mpr ⟨htyped, Or.inl hlong⟩)
      obtain ⟨hlong, herr⟩ | ⟨hshort', answers, hok', hpieces'⟩ := hyield'
      · simp only [hok, herr]
        exact .escaped (htrouble.mpr ⟨htyped, Or.inr (Or.inl hlong)⟩)
      have hboth : (thinkings ++ answers).map piece = pieces payload := by
        rw [List.map_append, hpieces, hpieces']
        rfl
      simp only [hok, hok']
      by_cases hdone : isDone payload = true
      · rw [if_pos hdone]
        have hpasses : ¬ Passes py payload := by
          intro h
          rw [h.2.2.2.2] at hdone
          cases hdone
        obtain ⟨hreason, herr⟩ | ⟨hreason, hrest⟩ :=
          @doneChunk_cases estimatedPromptTokens payload
        · simp only [herr]
          exact .escaped (htrouble.mpr ⟨htyped, Or.inr (Or.inr ⟨hdone, hreason⟩)⟩)
        have hcalm : ¬ Trouble py payload := by
          intro h
          obtain ⟨-, hlong | hlong | ⟨-, hhash⟩⟩ := htrouble.mp h
          · exact hshort hlong
          · exact hshort' hlong
          · exact hreason hhash
        obtain ⟨chunk, hchunk, hpiece⟩ | ⟨message, herr⟩ := hrest
        · simp only [hchunk]
          refine .finished hcalm hdone ?_
          rw [List.map_append, hboth, List.map_singleton, hpiece]
        · simp only [herr]
          exact .refused hcalm hpasses ⟨[], by rw [List.append_nil, hboth]⟩
      · rw [if_neg hdone]
        exact .next ⟨herror, htyped, hshort, hshort', by simpa using hdone⟩ hboth

theorem readPayload_reads : Reads py payload (readPayload py estimatedPromptTokens payload) := by
  unfold readPayload
  cases herror : errorOf py payload with
  | none => exact readTexts_reads herror
  | some value =>
    have htrouble : Trouble py payload ↔ ∃ className, py.str value = .error className := by
      unfold Trouble
      rw [herror]
    cases hstr : py.str value with
    | error className =>
      simp only [hstr]
      exact .escaped (htrouble.mpr ⟨className, hstr⟩)
    | ok message =>
      simp only [hstr]
      refine .refused (fun h => ?_) (fun h => ?_) List.nil_prefix
      · obtain ⟨_, hraised⟩ := htrouble.mp h
        rw [hstr] at hraised
        cases hraised
      · have hnone := h.1
        rw [herror] at hnone
        cases hnone

/-! ## The stream -/

/-- The reader goes on after the line. -/
def LinePasses (py : Python) (line : List Char) : Prop :=
  line = [] ∨ ∃ payload, py.loads line = .value (.obj payload) ∧ Passes py payload

/-- Reading the line raises another exception. -/
def LineTrouble (py : Python) (line : List Char) : Prop :=
  line ≠ [] ∧ ((∃ className, py.loads line = .raised className) ∨
    ∃ payload, py.loads line = .value (.obj payload) ∧ Trouble py payload)

/-- No line that is reached is in trouble. -/
def Calm (py : Python) (lines : List (List Char)) : Prop :=
  ∀ front line back, lines = front ++ line :: back → (∀ l ∈ front, LinePasses py l) →
    ¬ LineTrouble py line

variable {line : List Char} {lines rest : List (List Char)} {ending : Option TransportError}

theorem calm_cons : Calm py (line :: rest) ↔
    ¬ LineTrouble py line ∧ (LinePasses py line → Calm py rest) := by
  constructor
  · intro h
    refine ⟨h [] line rest rfl fun l hl => absurd hl List.not_mem_nil, ?_⟩
    rintro hpasses front l back rfl hfront
    exact h (line :: front) l back rfl (List.forall_mem_cons.mpr ⟨hpasses, hfront⟩)
  · rintro ⟨hline, hrest⟩ front l back hsplit hfront
    cases front with
    | nil =>
      obtain ⟨rfl, -⟩ := List.cons.inj hsplit
      exact hline
    | cons first front =>
      obtain ⟨rfl, htail⟩ := List.cons.inj hsplit
      rw [List.forall_mem_cons] at hfront
      exact hrest hfront.1 front l back htail hfront.2

/-- A line that ends the stream is in trouble or not by itself. -/
theorem calm_of_stop (h : ¬ LinePasses py line) :
    Calm py (line :: rest) ↔ ¬ LineTrouble py line := by
  rw [calm_cons]
  exact ⟨fun hcalm => hcalm.1, fun htrouble => ⟨htrouble, fun hpasses => absurd hpasses h⟩⟩

/-- What is said first and yielded first does not matter to what follows. -/
theorem faithful_after {chunks : List GenerationChunk}
    {result : List GenerationChunk × Option Failure}
    (hsaid : said py (line :: rest) = chunks.map piece ++ said py rest) :
    Faithful py (line :: rest) (chunks ++ result.1, result.2) ↔ Faithful py rest result := by
  unfold Faithful
  rw [hsaid]
  cases result.2 with
  | none =>
    simp only [List.map_append, List.append_assoc]
    exact List.append_right_inj _
  | some failure =>
    simp only [List.map_append]
    rw [List.prefix_append_right_inj]

/-- A line that is no `dict` ends the stream with a `GenerationServiceError`. -/
theorem faithful_refused (message : String) :
    Faithful py lines ([], some (.service message)) := ⟨rfl, List.nil_prefix⟩

theorem not_faithful_escaped {chunks : List GenerationChunk} {className : String} :
    ¬ Faithful py lines (chunks, some (.other className)) := by
  rintro ⟨hservice, -⟩
  cases hservice

/-- What the stream does with one line, when it is a `dict`. -/
theorem faithful_payload {result : List GenerationChunk × LineEnd}
    (hline : line ≠ []) (hload : py.loads line = .value (.obj payload))
    (hreads : Reads py payload result)
    (ih : Faithful py rest (stream py estimatedPromptTokens ending rest) ↔ Calm py rest) :
    Faithful py (line :: rest) (afterLine (stream py estimatedPromptTokens ending rest) result) ↔
      Calm py (line :: rest) := by
  have hsaid : said py (line :: rest) =
      pieces payload ++ if isDone payload then [] else said py rest := by
    rw [said, if_neg hline, hload]
  have hpasses : LinePasses py line ↔ Passes py payload := by
    unfold LinePasses
    rw [hload]
    simp [hline]
  have htrouble : LineTrouble py line ↔ Trouble py payload := by
    unfold LineTrouble
    rw [hload]
    simp [hline]
  cases hreads with
  | next hpass hpieces =>
    rw [hpass.2.2.2.2, if_neg Bool.false_ne_true, ← hpieces] at hsaid
    rw [calm_cons]
    have hcalm : ¬ LineTrouble py line := by
      rw [htrouble]
      unfold Trouble
      rw [hpass.1]
      rintro ⟨-, hlong | hlong | ⟨hdone, -⟩⟩
      · exact hpass.2.2.1 hlong
      · exact hpass.2.2.2.1 hlong
      · rw [hpass.2.2.2.2] at hdone
        cases hdone
    refine (faithful_after hsaid).trans (ih.trans ?_)
    exact ⟨fun h => ⟨hcalm, fun _ => h⟩, fun h => h.2 (hpasses.mpr hpass)⟩
  | finished hcalm hdone hpieces =>
    have hstop : ¬ LinePasses py line := by
      rw [hpasses]
      intro h
      rw [h.2.2.2.2] at hdone
      cases hdone
    rw [hdone, if_pos rfl, List.append_nil] at hsaid
    rw [calm_of_stop hstop, htrouble]
    refine ⟨fun _ => hcalm, fun _ => ?_⟩
    show _ = said py (line :: rest) ++ [.done]
    rw [hsaid]
    exact hpieces
  | refused hcalm hpass hpieces =>
    rw [calm_of_stop (hpasses.not.mpr hpass), htrouble]
    refine ⟨fun _ => hcalm, fun _ => ⟨rfl, ?_⟩⟩
    rw [hsaid]
    exact hpieces.trans (List.prefix_append _ _)
  | escaped h =>
    rw [calm_cons, htrouble]
    exact ⟨fun hfaithful => absurd hfaithful not_faithful_escaped, fun hcalm => absurd h hcalm.1⟩

/-- The stream is faithful exactly to a response no reached line of which is in trouble. -/
theorem stream_faithful_iff :
    Faithful py lines (stream py estimatedPromptTokens ending lines) ↔ Calm py lines := by
  induction lines with
  | nil =>
    have hcalm : Calm py [] := fun front line back hsplit => absurd hsplit (by simp)
    refine ⟨fun _ => hcalm, fun _ => ?_⟩
    cases ending with
    | none => exact faithful_refused _
    | some error => cases error <;> exact faithful_refused _
  | cons line rest ih =>
    by_cases hempty : line = []
    · have hsaid :
          said py (line :: rest) = ([] : List GenerationChunk).map piece ++ said py rest := by
        rw [said, if_pos hempty]
        rfl
      have hcalm : ¬ LineTrouble py line := fun h => h.1 hempty
      rw [stream, if_pos hempty, calm_cons]
      refine (faithful_after hsaid).trans (ih.trans ?_)
      exact ⟨fun h => ⟨hcalm, fun _ => h⟩, fun h => h.2 (Or.inl hempty)⟩
    · rw [stream, if_neg hempty]
      cases hload : py.loads line with
      | decodeError =>
        have hstop : ¬ LinePasses py line := by simp [LinePasses, hempty, hload]
        rw [calm_of_stop hstop]
        exact ⟨fun _ => by simp [LineTrouble, hload], fun _ => faithful_refused _⟩
      | raised className =>
        have htrouble : LineTrouble py line := ⟨hempty, Or.inl ⟨className, hload⟩⟩
        rw [calm_cons]
        exact ⟨fun h => absurd h not_faithful_escaped, fun h => absurd htrouble h.1⟩
      | value value =>
        cases value with
        | obj payload => exact faithful_payload hempty hload readPayload_reads ih
        | _ =>
          have hstop : ¬ LinePasses py line := by simp [LinePasses, hempty, hload]
          rw [calm_of_stop hstop]
          exact ⟨fun _ => by simp [LineTrouble, hload], fun _ => faithful_refused _⟩

/-- `json.loads` as it is, on lines it reads without another exception. -/
def plainPython : Python where
  loads line := (Core.loads line).elim .decodeError .value
  str _ := .ok ""
  floatIsZero _ := false

/-- A list as the stop reason: the `TypeError` of the lookup leaves the generator. -/
theorem unhashable_stop_reason :
    ¬ Faithful plainPython ["\x7b\"done\":true,\"done_reason\":[]\x7d".toList]
      (stream plainPython 1 none ["\x7b\"done\":true,\"done_reason\":[]\x7d".toList]) := by
  have hresult : stream plainPython 1 none ["\x7b\"done\":true,\"done_reason\":[]\x7d".toList] =
      ([], some (.other "TypeError")) := by decide +kernel
  rw [hresult]
  exact not_faithful_escaped

end LocalRag.Stream.Ollama
