import LocalRag.Core.Cutter
import LocalRag.Highlight.Normalize
import LocalRag.Stream.Events

/-!
# The read loop — frames out of a response that arrives in pieces

Mirrors `parseFrame`, `nextBoundary` and the loop at the end of `consumeChatSse`
(`web/features/chats/sse.ts`). The client decodes each read, puts the text behind what it
has, and consumes a frame for each boundary it finds; a boundary is the leftmost of
three forms.

None of the forms ends inside another, so they make a `Cutter` (`boundaries`), and the
loop is its `readAll`: `readResponse_pieces` says that the handler calls and the ending
are those of the whole text, cut at its boundaries.

Mirroring notes.
* `pieces` are the texts `decoder.decode` returns for the reads and `flush` what it returns for
  the last, `done` one. Together they are the response text, and the `decode` after the loop
  has nothing left.
* What `consume` does with a parsed frame is `FrameHandling.handle`: the handlers it calls, with
  their arguments, and the local variables after it or what is thrown, by it or by a handler.
* The signal never fires. The checks before the first read do not see the text.
-/

namespace LocalRag.Stream

open LocalRag.Core
open Highlight (isJsSpace)

/-! ## Boundaries -/

/-- `/\r\n\r\n|\n\n|\r\r/`. -/
def boundaries : Separators Char where
  forms := [['\r', '\n', '\r', '\n'], ['\n', '\n'], ['\r', '\r']]
  filled := by decide
  apart := by
    intro A hA B hB k hk
    -- only the long form can hold another, and then two different ends meet at one place
    have hlong : B = ['\r', '\n', '\r', '\n'] ∧ k < 2 ∧ A.length = 2 := by
      simp only [List.mem_cons, List.not_mem_nil, or_false] at hA hB
      rcases hA with rfl | rfl | rfl <;> rcases hB with rfl | rfl | rfl <;>
        simp only [List.length_cons, List.length_nil] at hk <;> simp <;> omega
    obtain ⟨rfl, hk, hlength⟩ := hlong
    have hcases : k = 0 ∨ k = 1 := by omega
    simp only [List.mem_cons, List.not_mem_nil, or_false] at hA
    rcases hA with rfl | rfl | rfl
    · exact absurd hlength (by decide)
    · rcases hcases with rfl | rfl <;> decide
    · rcases hcases with rfl | rfl <;> decide

structure Boundary where
  index : Nat
  length : Nat
deriving Repr, DecidableEq

def nextBoundary (buffer : List Char) : Option Boundary :=
  (boundaries.firstMatch buffer).map fun m => ⟨m.1, m.2⟩

/-! ## Frames -/

structure SseFrame where
  event : List Char
  data : List Char
deriving Repr, DecidableEq

/-- `rawFrame.split(/\r\n|\r|\n/)`. -/
def frameLines : List Char → List (List Char)
  | [] => [[]]
  | '\r' :: '\n' :: rest => [] :: frameLines rest
  | c :: rest => if c = '\r' ∨ c = '\n' then [] :: frameLines rest else consLine c (frameLines rest)

/-- `field` and `value` of a line: the value loses one blank in front. -/
def fieldOf (line : List Char) : List Char × List Char :=
  (line.takeWhile (· ≠ ':'),
    match (line.dropWhile (· ≠ ':')).tail with
    | ' ' :: value => value
    | value => value)

/-- The local variables of `parseFrame`. -/
structure FrameFields where
  event : Option (List Char)
  data : List (List Char)
  meaningful : Bool
deriving Repr, DecidableEq

/-- The body of the loop over the lines. -/
def parseLine (fields : FrameFields) (line : List Char) : Except StreamError FrameFields :=
  if line = [] ∨ line.head? = some ':' then .ok fields
  else if (fieldOf line).1 = "event".toList then
    if fields.event.isSome then
      .error (.invalid "The server returned a malformed stream event.")
    else .ok { fields with event := some (fieldOf line).2, meaningful := true }
  else if (fieldOf line).1 = "data".toList then
    .ok { fields with data := fields.data ++ [(fieldOf line).2], meaningful := true }
  else
    .error (.invalid ("The server returned an unsupported SSE field: " ++
      String.ofList (fieldOf line).1 ++ "."))

def parseFrame (rawFrame : List Char) : Except StreamError (Option SseFrame) :=
  if trim isJsSpace rawFrame = [] then .ok none
  else do
    let fields ← (frameLines rawFrame).foldlM parseLine ⟨none, [], false⟩
    if ¬ fields.meaningful then return none
    if fields.data.length = 0 then
      throw (.invalid "The server returned a stream event without data.")
    return some ⟨fields.event.getD "message".toList, ['\n'].intercalate fields.data⟩

/-! ## The loop -/

/-- What `consumeChatSse` does with a frame: `V` are its local variables, `H` the handler calls,
`E` what may be thrown and `F` the final event. -/
structure FrameHandling (V H E F : Type*) where
  handle : SseFrame → V → List H × Except E V
  invalid : StreamError → E
  final : V → Option F

/-- How a response ends: the handler calls in order, then the result or what was thrown. -/
abbrev Ending (H E F : Type*) := List H × Except E F

section Loop

variable {V H E F : Type*} (handling : FrameHandling V H E F)

/-- `consume`; what is thrown carries the calls made before. -/
def consumeRaw (s : V × List H) (rawFrame : List Char) : Except (E × List H) (V × List H) :=
  match parseFrame rawFrame with
  | .error e => .error (handling.invalid e, s.2)
  | .ok none => .ok s
  | .ok (some frame) =>
    match handling.handle frame s.1 with
    | (calls, .error e) => .error (e, s.2 ++ calls)
    | (calls, .ok v) => .ok (v, s.2 ++ calls)

/-- What follows the loop, on what it left in the buffer. -/
def afterReads (read : Except (E × List H) ((V × List H) × List Char)) : Ending H E F :=
  let ended := read.bind fun held =>
    if trim isJsSpace held.2 ≠ [] then consumeRaw handling held.1 held.2 else .ok held.1
  match ended with
  | .error (e, calls) => (calls, .error e)
  | .ok (v, calls) =>
    match handling.final v with
    | none =>
      (calls, .error (handling.invalid
        (.invalid "The answer stream ended before a verified final result arrived.")))
    | some final => (calls, .ok final)

/-- The response, read in these pieces. -/
def readResponse (start : V) (pieces : List (List Char)) (flush : List Char) : Ending H E F :=
  afterReads handling
    (boundaries.cutter.readAll (consumeRaw handling) ((start, []), []) (pieces ++ [flush]))

/-- The frames of a response text, cut at its boundaries, and what stands behind the last. -/
def framesOfText (text : List Char) : List (List Char) × List Char := boundaries.cutter.frames text

/-- The response text, frame by frame. -/
def readText (start : V) (text : List Char) : Ending H E F :=
  afterReads handling
    (((framesOfText text).1.foldlM (consumeRaw handling) (start, [])).map fun s =>
      (s, (framesOfText text).2))

/-- The inner loop takes the text before the boundary and drops the boundary. -/
theorem next_nextBoundary (buffer : List Char) :
    boundaries.cutter.next buffer = (nextBoundary buffer).map fun boundary =>
      (buffer.take boundary.index, buffer.drop (boundary.index + boundary.length)) := by
  unfold nextBoundary
  rw [Option.map_map]
  rfl

/-- However the text is split into reads, the handlers called and the ending are those of the
text, whose frames end at the first boundary of any form in what is left of it. -/
theorem readResponse_pieces (start : V) (pieces : List (List Char)) (flush : List Char) :
    readResponse handling start pieces flush =
      readText handling start (pieces.flatten ++ flush) ∧
    boundaries.Cuts (pieces.flatten ++ flush) (framesOfText (pieces.flatten ++ flush)).1
      (framesOfText (pieces.flatten ++ flush)).2 := by
  refine ⟨?_, boundaries.frames_cuts _⟩
  unfold readResponse readText framesOfText
  rw [Cutter.readAll_eq, List.nil_append, Cutter.drain_eq]

end Loop

end LocalRag.Stream
