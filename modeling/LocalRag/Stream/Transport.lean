import LocalRag.Core.RoundTrip
import LocalRag.Stream.Generation

/-!
# The generation transport — frames out, chunks back

The coordinator writes each chunk of a generation as one line of JSON (`frames` of
`app/runtime/coordinator.py`), and `CoordinatorGenerationClient.stream`
(`app/runtime/coordinator_client.py`) cuts the body into lines and reads the chunks
back. The two sides differ in what ends a line: the writer ends one with `\n`, and
`json.dumps` escapes every control character, but with `ensure_ascii=False` it
leaves U+0085, U+2028 and U+2029 as they are, and the reader's lines end there too.
A text with one of the three is cut inside its string literal, and the first half
is no JSON. `decoded_iff` is the exact condition.

Mirroring notes.
* `aiter_lines` belongs to httpx: `AiterLines` takes it as a parameter that splits
  the body as `str.splitlines` does, however the body was divided into reads.
* A `ValueError` of the loop (a `JSONDecodeError` is one) leaves the client as a
  `GenerationServiceError`; a `TypeError`, of an unhashable value or of `**` on
  something else than the seven counters, is not caught there.
-/

namespace LocalRag.Stream

open LocalRag.Core

/-! ## The coordinator's frames -/

/-- `uuid.uuid4().hex`. -/
abbrev RequestId := { s : String // s.length = 32 ∧ ∀ c ∈ s.toList, c ∈ ['0', '1', '2', '3', '4',
  '5', '6', '7', '8', '9', 'a', 'b', 'c', 'd', 'e', 'f'] }

def DoneReason.text : DoneReason → String
  | .stop => "stop"
  | .length => "length"

/-- `asdict(usage)`. -/
def GenerationUsage.asdict (usage : GenerationUsage) : List (String × Json) :=
  [("prompt_eval_count", .int usage.promptEvalCount),
    ("eval_count", .int usage.evalCount),
    ("total_duration_ns", .int usage.totalDurationNs),
    ("load_duration_ns", .int usage.loadDurationNs),
    ("prompt_eval_duration_ns", .int usage.promptEvalDurationNs),
    ("eval_duration_ns", .int usage.evalDurationNs),
    ("estimated_prompt_tokens", .int usage.estimatedPromptTokens)]

def usagePayload : Option GenerationUsage → Json
  | none => .null
  | some usage => .obj usage.asdict

/-- The line of a piece of text. -/
def textFrame (requestId type text : String) : List Char :=
  dumps false (.obj [("request_id", .str requestId), ("type", .str type), ("text", .str text)])

/-- The line of the terminal chunk. -/
def doneFrame (requestId : String) (doneReason : DoneReason) (usage : Option GenerationUsage) :
    List Char :=
  dumps true (.obj [("request_id", .str requestId), ("done", .bool true),
    ("done_reason", .str doneReason.text), ("usage", usagePayload usage)])

/-- What `frames` yields for an output, without the final `\n`. -/
def frameLine (requestId : String) : GenerationChunk → List Char
  | .thinking text => textFrame requestId "thinking" text.1
  | .answer text => textFrame requestId "answer" text.1
  | .done doneReason usage => doneFrame requestId doneReason usage

def GenerationChunk.isDone : GenerationChunk → Bool
  | .done _ _ => true
  | .thinking _ | .answer _ => false

/-- `frames`: what it yields, and what it raises when the outputs have ended. -/
def frames (requestId : String) (outputs : List GenerationChunk) :
    List (List Char) × Option Raised :=
  (outputs.map fun output => frameLine requestId output ++ ['\n'],
    if outputs.any GenerationChunk.isDone then none
    else some (runtimeError "generation adapter ended without a stop reason"))

/-! ## The client -/

/-- `Response.aiter_lines`, from the reads of the body. -/
structure AiterLines where
  lines : List (List Char) → List (List Char)
  splits : ∀ reads, lines reads = splitlines reads.flatten

/-- What the loop may raise: a `ValueError`, or a `TypeError`. -/
inductive DecodeError where
  | value (message : String)
  | type
deriving Repr, DecidableEq

/-- What the caller of `stream` sees of it. -/
def DecodeError.raised : DecodeError → Raised
  | .value _ => .exception ⟨"GenerationServiceError", by decide⟩
    "inference coordinator generation failed"
  | .type => .exception ⟨"TypeError", by decide⟩ ""

/-- `set(frame) == {…}`. -/
def hasKeys (members : List (String × Json)) (keys : List String) : Bool :=
  (members.all fun member => member.1 ∈ keys) ∧ keys.all fun key => key ∈ members.map (·.1)

/-- A counter of `GenerationUsage`. -/
def counter (members : List (String × Json)) (key : String) : Except DecodeError Nat :=
  match Json.get members key with
  | some (.int n) =>
    if n < 0 then .error (.value "generation usage counters must be nonnegative integers")
    else .ok n.toNat
  | _ => .error (.value "generation usage counters must be nonnegative integers")

/-- `GenerationUsage(**usage_payload)`. -/
def generationUsage : Json → Except DecodeError GenerationUsage
  | .obj members =>
    if ¬ hasKeys members ["prompt_eval_count", "eval_count", "total_duration_ns",
        "load_duration_ns", "prompt_eval_duration_ns", "eval_duration_ns",
        "estimated_prompt_tokens"] then .error .type
    else do
      return {
        promptEvalCount := ← counter members "prompt_eval_count"
        evalCount := ← counter members "eval_count"
        totalDurationNs := ← counter members "total_duration_ns"
        loadDurationNs := ← counter members "load_duration_ns"
        promptEvalDurationNs := ← counter members "prompt_eval_duration_ns"
        evalDurationNs := ← counter members "eval_duration_ns"
        estimatedPromptTokens := ← counter members "estimated_prompt_tokens" }
  | _ => .error .type

/-- `done_reason not in {"stop", "length"}`. -/
def doneReasonOf : Option Json → Except DecodeError DoneReason
  | some (.str s) =>
    if s = "stop" then .ok .stop
    else if s = "length" then .ok .length
    else .error (.value "malformed generation stop reason")
  | some (.arr _) | some (.obj _) => .error .type
  | _ => .error (.value "malformed generation stop reason")

/-- `None if usage_payload is None else …`. -/
def usageOf : Option Json → Except DecodeError (Option GenerationUsage)
  | none | some .null => .ok none
  | some payload => some <$> generationUsage payload

/-- The terminal frame. -/
def decodeDone (members : List (String × Json)) : Except DecodeError GenerationChunk :=
  if ¬ hasKeys members ["request_id", "done", "done_reason", "usage"] then
    .error (.value "malformed generation terminal frame")
  else do
    let doneReason ← doneReasonOf (Json.get members "done_reason")
    let usage ← usageOf (Json.get members "usage")
    return .done doneReason usage

/-- `GenerationChunk(chunk_type, text)`. -/
def textChunk (chunk : ChunkText → GenerationChunk) (text : String) :
    Except DecodeError GenerationChunk :=
  if h : 1 ≤ text.length ∧ text.length ≤ 32768 then .ok (chunk ⟨text, h⟩)
  else .error (.value "generation chunk text must contain 1-32768 characters")

/-- Any other frame. -/
def decodeText (members : List (String × Json)) : Except DecodeError GenerationChunk :=
  if ¬ hasKeys members ["request_id", "type", "text"] then
    .error (.value "malformed generation chunk")
  else
    match Json.get members "type", Json.get members "text" with
    | some (.arr _), _ | some (.obj _), _ => .error .type
    | some (.str type), some (.str text) =>
      if type = "thinking" then textChunk .thinking text
      else if type = "answer" then textChunk .answer text
      else .error (.value "malformed generation chunk")
    | _, _ => .error (.value "malformed generation chunk")

/-- A decoded line. -/
def decodeFrame (requestId : String) : Json → Except DecodeError GenerationChunk
  | .obj members =>
    match Json.get members "request_id" with
    | some (.str id) =>
      if id ≠ requestId then .error (.value "generation request identifier mismatch")
      else
        match Json.get members "done" with
        | some (.bool true) => decodeDone members
        | _ => decodeText members
    | _ => .error (.value "generation request identifier mismatch")
  | _ => .error (.value "malformed generation frame")

/-- One line that is not empty. -/
def decodeLine (requestId : String) (line : List Char) : Except DecodeError GenerationChunk :=
  match loads line with
  | none => .error (.value "JSONDecodeError")
  | some frame => decodeFrame requestId frame

/-- `CoordinatorGenerationClient.stream`, from the lines of the response: what it
yields, and what it raises after that. -/
def clientStream (requestId : String) : List (List Char) → List GenerationChunk × Option Raised
  | [] => ([], some (DecodeError.value "generation stream ended before terminal frame").raised)
  | line :: rest =>
    if line = [] then clientStream requestId rest
    else
      match decodeLine requestId line with
      | .error e => ([], some e.raised)
      | .ok (.done doneReason usage) => ([.done doneReason usage], none)
      | .ok chunk => (chunk :: (clientStream requestId rest).1, (clientStream requestId rest).2)

/-! ## The lines of the frames -/

theorem RequestId.isSeparator (requestId : RequestId) :
    ∀ c ∈ requestId.1.toList, Core.isSeparator c = false := by
  intro c hc
  have hmem := requestId.2.2 c hc
  simp only [List.mem_cons, List.not_mem_nil, or_false] at hmem
  rcases hmem with rfl | rfl | rfl | rfl | rfl | rfl | rfl | rfl | rfl | rfl | rfl | rfl | rfl |
    rfl | rfl | rfl <;> decide

/-- The line of a text up to a point inside it. -/
def textFrameUpTo (requestId type : String) (s : List Char) : List Char :=
  '\x7b' :: '"' :: cutMembers false "text" s [("request_id", .str requestId), ("type", .str type)]

theorem textFrame_eq (requestId type text : String) :
    textFrame requestId type text = textFrameUpTo requestId type text.toList ++ ['"', '\x7d'] := by
  simp [textFrame, textFrameUpTo, dumps, dumpsMembers, dumpsString, cutMembers]

variable {s : List Char}

theorem not_isSeparator_of_all (h : (s.all fun c => !isSeparator c) = true) :
    ∀ c ∈ s, isSeparator c = false := by
  intro c hc
  simpa using List.all_eq_true.mp h c hc

theorem quiet_textFrameUpTo (requestId : RequestId) {type : String}
    (htype : ∀ c ∈ type.toList, isSeparator c = false) (hs : ∀ c ∈ s, isSeparator c = false) :
    Quiet (textFrameUpTo requestId.1 type s) := by
  have hkey : ∀ {key : String}, (key.toList.all fun c => !isSeparator c) = true →
      Quiet (escape false key.toList) :=
    fun h => quiet_escape false (not_isSeparator_of_all h)
  simp only [textFrameUpTo, cutMembers, dumps, dumpsString, quiet_append, quiet_cons, quiet_nil,
    @hkey "request_id" (by decide), @hkey "type" (by decide), @hkey "text" (by decide),
    quiet_escape false requestId.isSeparator, quiet_escape false htype, quiet_escape false hs]
  decide

/-! ## Each line is read back -/

theorem decodeLine_thinking (requestId : String) (text : ChunkText) :
    decodeLine requestId (textFrame requestId "thinking" text.1) = .ok (.thinking text) := by
  unfold decodeLine textFrame
  rw [loads_dumps false rfl]
  simp [decodeFrame, Json.get, decodeText, hasKeys, textChunk, text.2]

theorem decodeLine_answer (requestId : String) (text : ChunkText) :
    decodeLine requestId (textFrame requestId "answer" text.1) = .ok (.answer text) := by
  unfold decodeLine textFrame
  rw [loads_dumps false rfl]
  simp [decodeFrame, Json.get, decodeText, hasKeys, textChunk, text.2]

/-- A counter of a payload. -/
theorem counter_int {members : List (String × Json)} {key : String} {n : Nat}
    (h : Json.get members key = some (.int n)) : counter members key = .ok n := by
  unfold counter
  rw [h]
  exact if_neg (by omega)

theorem usageOf_payload (usage : Option GenerationUsage) :
    usageOf (some (usagePayload usage)) = .ok usage := by
  cases usage with
  | none => rfl
  | some usage =>
    have hkeys : hasKeys usage.asdict ["prompt_eval_count", "eval_count", "total_duration_ns",
        "load_duration_ns", "prompt_eval_duration_ns", "eval_duration_ns",
        "estimated_prompt_tokens"] = true := by
      simp [hasKeys, GenerationUsage.asdict]
    show (some <$> generationUsage (.obj usage.asdict) : Except DecodeError _) = _
    rw [generationUsage, if_neg (by simp [hkeys]), counter_int (n := usage.promptEvalCount) rfl,
      counter_int (n := usage.evalCount) rfl, counter_int (n := usage.totalDurationNs) rfl,
      counter_int (n := usage.loadDurationNs) rfl,
      counter_int (n := usage.promptEvalDurationNs) rfl,
      counter_int (n := usage.evalDurationNs) rfl,
      counter_int (n := usage.estimatedPromptTokens) rfl]
    rfl

theorem decodeLine_done (requestId : String) (doneReason : DoneReason)
    (usage : Option GenerationUsage) :
    decodeLine requestId (doneFrame requestId doneReason usage) = .ok (.done doneReason usage) := by
  have hplain : (usagePayload usage).plain = true := by
    cases usage <;> rfl
  have hreason : doneReasonOf (some (.str doneReason.text)) = .ok doneReason := by
    cases doneReason <;> rfl
  unfold decodeLine doneFrame
  rw [loads_dumps true (by simp [Json.plain, plainMembers, hplain])]
  simp [decodeFrame, Json.get, decodeDone, hasKeys, hreason, usageOf_payload, bind, Except.bind,
    pure, Except.pure]

/-! ## The whole body -/

/-- The text of a chunk. -/
def GenerationChunk.text : GenerationChunk → List Char
  | .thinking text | .answer text => text.1.toList
  | .done _ _ => []

/-- No character of the text ends a line of the reader. -/
def GenerationChunk.oneLine (chunk : GenerationChunk) : Bool := chunk.text.all fun c => !isSeparator c

theorem decodeLine_frameLine (requestId : String) (chunk : GenerationChunk) :
    decodeLine requestId (frameLine requestId chunk) = .ok chunk := by
  cases chunk with
  | thinking text => exact decodeLine_thinking requestId text
  | answer text => exact decodeLine_answer requestId text
  | done doneReason usage => exact decodeLine_done requestId doneReason usage

variable {chunk : GenerationChunk}

/-- A frame without separators is one line. -/
theorem quiet_frameLine (requestId : RequestId) (h : chunk.oneLine = true) :
    Quiet (frameLine requestId.1 chunk) := by
  have htext := not_isSeparator_of_all h
  have hclose : ∀ {type : String} {text : ChunkText}, (∀ c ∈ type.toList, isSeparator c = false) →
      (∀ c ∈ text.1.toList, isSeparator c = false) → Quiet (textFrame requestId.1 type text.1) := by
    intro type text htype hs
    rw [textFrame_eq, quiet_append]
    exact ⟨quiet_textFrameUpTo requestId htype hs, by simp [isLineBreak]⟩
  cases chunk with
  | thinking text => exact hclose (not_isSeparator_of_all (by decide)) htext
  | answer text => exact hclose (not_isSeparator_of_all (by decide)) htext
  | done doneReason usage =>
    refine quiet_dumps_ascii _ ?_
    cases usage <;> rfl

theorem frameLine_ne_nil (requestId : String) (chunk : GenerationChunk) :
    frameLine requestId chunk ≠ [] := by
  cases chunk <;> simp [frameLine, textFrame, doneFrame, dumps]

/-- One frame of one line is read back, and the reader goes on behind it. -/
theorem clientStream_frame (requestId : RequestId) (h : chunk.oneLine = true) (rest : List Char) :
    clientStream requestId.1 (splitlines (frameLine requestId.1 chunk ++ '\n' :: rest)) =
      if chunk.isDone then ([chunk], none)
      else (chunk :: (clientStream requestId.1 (splitlines rest)).1,
        (clientStream requestId.1 (splitlines rest)).2) := by
  rw [splitlines_append (quiet_frameLine requestId h) (by decide) (by decide), clientStream,
    if_neg (frameLine_ne_nil requestId.1 chunk), decodeLine_frameLine]
  cases chunk <;> rfl

/-- A frame with a separator ends the reading: its first line is no JSON. -/
theorem clientStream_cut (requestId : RequestId) (h : chunk.oneLine = false) (rest : List Char) :
    ∃ e, clientStream requestId.1 (splitlines (frameLine requestId.1 chunk ++ '\n' :: rest)) =
      ([], some e) := by
  have hcut : ∀ {type : String} {text : ChunkText}, (∀ c ∈ type.toList, isSeparator c = false) →
      (text.1.toList.all fun c => !isSeparator c) = false → ∃ e, clientStream requestId.1
        (splitlines (textFrame requestId.1 type text.1 ++ '\n' :: rest)) = ([], some e) := by
    intro type text htype hsep
    -- the first separator of the text
    obtain ⟨before, c, after, htext, hc, hbefore⟩ : ∃ before c after,
        text.1.toList = before ++ c :: after ∧ isSeparator c = true ∧
          ∀ d ∈ before, isSeparator d = false := by
      obtain ⟨c, hfind⟩ : ∃ c, text.1.toList.find? isSeparator = some c := by
        rw [← Option.isSome_iff_exists, List.find?_isSome]
        simpa using hsep
      obtain ⟨hc, before, after, htext, hbefore⟩ := List.find?_eq_some_iff_append.mp hfind
      exact ⟨before, c, after, htext, hc, fun d hd => by simpa using hbefore d hd⟩
    obtain ⟨hraw, hbreak, hr⟩ := escapeChar_separator hc
    have hline : textFrame requestId.1 type text.1 ++ '\n' :: rest =
        textFrameUpTo requestId.1 type before ++ c :: (escape false after ++ '"' :: '\x7d' :: '\n' ::
          rest) := by
      rw [textFrame_eq, htext, textFrameUpTo, textFrameUpTo, cutMembers_append, escape_cons, hraw]
      simp
    rw [hline, splitlines_append (quiet_textFrameUpTo requestId htype hbefore) hbreak hr,
      clientStream, if_neg (by simp [textFrameUpTo]), decodeLine, textFrameUpTo,
      loads_cut false "text" before (by rfl)]
    exact ⟨_, rfl⟩
  cases chunk with
  | thinking text => exact hcut (not_isSeparator_of_all (by decide)) h
  | answer text => exact hcut (not_isSeparator_of_all (by decide)) h
  | done doneReason usage => exact absurd h (by simp [GenerationChunk.oneLine, GenerationChunk.text])

/-- The body of the response. -/
def body (requestId : String) (outputs : List GenerationChunk) : List Char :=
  (frames requestId outputs).1.flatten

theorem body_cons (requestId : String) (chunk : GenerationChunk) (outputs : List GenerationChunk) :
    body requestId (chunk :: outputs) = frameLine requestId chunk ++ '\n' :: body requestId outputs := by
  simp [body, frames]

/-- The outputs are read back up to the first that is cut. -/
theorem clientStream_body (requestId : RequestId) (doneReason : DoneReason)
    (usage : Option GenerationUsage) : ∀ outputs : List GenerationChunk,
    (∀ chunk ∈ outputs, chunk.isDone = false) →
      (clientStream requestId.1 (splitlines (body requestId.1 (outputs ++ [.done doneReason usage]))) =
          (outputs ++ [.done doneReason usage], none) ↔
        ∀ chunk ∈ outputs, chunk.oneLine = true)
  | [], _ => by
    rw [List.nil_append, body_cons, clientStream_frame requestId rfl]
    exact iff_of_true rfl (by simp)
  | chunk :: outputs, hdone => by
    have ih := clientStream_body requestId doneReason usage outputs fun c hc => hdone c (by simp [hc])
    have hchunk := hdone chunk (by simp)
    rw [List.cons_append, body_cons, List.forall_mem_cons]
    by_cases hline : chunk.oneLine = true
    · rw [clientStream_frame requestId hline, if_neg (by simp [hchunk]), Prod.mk.injEq,
        List.cons.injEq, and_iff_right hline, ← ih]
      simp [Prod.ext_iff]
    · obtain ⟨e, hcut⟩ := clientStream_cut requestId (by simpa using hline) (body requestId.1
        (outputs ++ [.done doneReason usage]))
      rw [hcut]
      exact iff_of_false (by simp) fun h => hline h.1

/-- For every generation that ends in its one terminal chunk, and every division of
the body into reads: the client yields the same chunks without raising exactly if
no text holds U+0085, U+2028 or U+2029. -/
theorem decoded_iff (http : AiterLines) (requestId : RequestId) (outputs : List GenerationChunk)
    (houtputs : ∀ chunk ∈ outputs, chunk.isDone = false) (doneReason : DoneReason)
    (usage : Option GenerationUsage) (reads : List (List Char))
    (hreads : reads.flatten = body requestId.1 (outputs ++ [.done doneReason usage])) :
    clientStream requestId.1 (http.lines reads) = (outputs ++ [.done doneReason usage], none) ↔
      ∀ chunk ∈ outputs, chunk.oneLine = true := by
  rw [http.splits, hreads]
  exact clientStream_body requestId doneReason usage outputs houtputs

/-- Lines as `str.splitlines` has them. -/
def splitReads : AiterLines := ⟨fun reads => splitlines reads.flatten, fun _ => rfl⟩

theorem mem_of_all_contains {digits : List Char} (h : (s.all fun c => digits.contains c) = true) :
    ∀ c ∈ s, c ∈ digits := by
  simpa using h

def sampleRequest : RequestId :=
  ⟨"0123456789abcdef0123456789abcdef", by decide, mem_of_all_contains (by decide)⟩

/-- A text with a line end and quotes, read in one piece. -/
theorem decoded_iff_row :
    clientStream sampleRequest.1 (splitReads.lines [body sampleRequest.1
      [.answer ⟨"a\n\"b\"", by decide⟩, .done .stop (some ⟨1, 2, 3, 4, 5, 6, 7⟩)]]) =
      ([.answer ⟨"a\n\"b\"", by decide⟩, .done .stop (some ⟨1, 2, 3, 4, 5, 6, 7⟩)], none) :=
  (decoded_iff splitReads sampleRequest [.answer ⟨"a\n\"b\"", by decide⟩] (by decide) .stop
    (some ⟨1, 2, 3, 4, 5, 6, 7⟩) _ (by simp)).mpr (by decide)

/-- A line separator in the answer: the client raises before it has yielded
anything. -/
theorem separator_cuts_frame :
    clientStream sampleRequest.1 (splitReads.lines [body sampleRequest.1
      [.answer ⟨"a\u2028b", by decide⟩, .done .stop none]]) =
      ([], some (.exception ⟨"GenerationServiceError", by decide⟩
        "inference coordinator generation failed")) := by
  decide +kernel

end LocalRag.Stream
