import LocalRag.Core.RoundTrip
import LocalRag.Core.Run
import LocalRag.Stream.ReadLoop

/-!
# The event texts — what the client cuts is what the server wrote

Mirrors `chat_stream_event` (`app/services/chats.py`) against `nextBoundary` and
`parseFrame` of the web client. An event is two lines and an empty one. Neither the name
nor what `json.dumps` writes has a line end, so the first boundary of a text is its
own end, and the two lines are one `event` and one `data` field: `framesOfText_events`.

Mirroring notes.
* The identifiers are the texts `str` gives for them.
* A payload is a `dict` of values without a `float`. The value `JSON.parse` gives is the
  one `loads` gives: both read the text of every such value as JSON defines it.
-/

namespace LocalRag.Stream

open LocalRag.Core
open Highlight (isJsSpace)

/-! ## The server -/

/-- `members[key] = value`. -/
def setMember (key : String) (value : Json) : List (String × Json) → List (String × Json)
  | [] => [(key, value)]
  | member :: rest =>
    if member.1 = key then (key, value) :: rest else member :: setMember key value rest

/-- `{**members, **payload}`. -/
def mergeMembers (members payload : List (String × Json)) : List (String × Json) :=
  payload.foldl (fun members member => setMember member.1 member.2 members) members

/-- The `body` of an event. -/
def eventBody (chatId turnId : String) (sequence : Int) (payload : List (String × Json)) : Json :=
  .obj (mergeMembers [("chat_id", .str chatId), ("turn_id", .str turnId), ("seq", .int sequence)]
    payload)

def chatStreamEvent (name chatId turnId : String) (sequence : Int)
    (payload : List (String × Json)) : Except String (List Char) :=
  if sequence < 1 then .error "stream event sequence must start at 1"
  else
    .ok ("event: ".toList ++ name.toList ++ "\ndata: ".toList ++
      dumps false (eventBody chatId turnId sequence payload) ++ "\n\n".toList)

/-- The arguments of a call: the name has no line end, and the payload no `float`. -/
structure StreamEvent where
  name : String
  chatId : String
  turnId : String
  sequence : Int
  payload : List (String × Json)
  oneLine : ∀ c ∈ name.toList, isLineEnd c = false
  plain : plainMembers payload = true

def StreamEvent.body (e : StreamEvent) : Json :=
  eventBody e.chatId e.turnId e.sequence e.payload

/-- `chat_stream_event` on these arguments. -/
def StreamEvent.text (e : StreamEvent) : Except String (List Char) :=
  chatStreamEvent e.name e.chatId e.turnId e.sequence e.payload

theorem plain_setMember {key : String} {value : Json} {members : List (String × Json)}
    (hvalue : value.plain = true) (hmembers : plainMembers members = true) :
    plainMembers (setMember key value members) = true := by
  induction members with
  | nil => simp [setMember, plainMembers, hvalue]
  | cons member rest ih =>
    have hplain : member.2.plain = true ∧ plainMembers rest = true := by
      simpa [plainMembers] using hmembers
    unfold setMember
    split
    · simp [plainMembers, hvalue, hplain.2]
    · simp [plainMembers, hplain.1, ih hplain.2]

theorem plain_mergeMembers {members payload : List (String × Json)}
    (hmembers : plainMembers members = true) (hpayload : plainMembers payload = true) :
    plainMembers (mergeMembers members payload) = true := by
  induction payload generalizing members with
  | nil => exact hmembers
  | cons member rest ih =>
    have hplain : member.2.plain = true ∧ plainMembers rest = true := by
      simpa [plainMembers] using hpayload
    exact ih (plain_setMember hplain.1 hmembers) hplain.2

theorem StreamEvent.plain_body (e : StreamEvent) : e.body.plain = true := by
  show plainMembers (mergeMembers _ e.payload) = true
  exact plain_mergeMembers rfl e.plain

/-! ## A line -/

section Lines

variable {line : List Char}

variable {c : Char}

theorem formAt_eq_none (hc : isLineEnd c = false) (x : List Char) :
    boundaries.formAt (c :: x) = none := by
  have hends : c ≠ '\r' ∧ c ≠ '\n' := by simpa [isLineEnd] using hc
  refine List.find?_eq_none.mpr fun B hB => ?_
  have hforms : B = ['\r', '\n', '\r', '\n'] ∨ B = ['\n', '\n'] ∨ B = ['\r', '\r'] := by
    simpa [boundaries] using hB
  rcases hforms with rfl | rfl | rfl <;>
    simp [List.cons_prefix_cons, hends.1.symm, hends.2.symm]

/-- No boundary begins in a line. -/
theorem firstMatch_line (h : ∀ c ∈ line, isLineEnd c = false) (x : List Char) :
    boundaries.firstMatch (line ++ x) =
      (boundaries.firstMatch x).map fun m => (line.length + m.1, m.2) := by
  induction line with
  | nil =>
    simp only [List.nil_append, List.length_nil, Nat.zero_add]
    exact Option.map_id'.symm
  | cons c line ih =>
    rw [List.cons_append, Separators.firstMatch, formAt_eq_none (h c (by simp))]
    show (boundaries.firstMatch (line ++ x)).map _ = _
    rw [ih fun d hd => h d (List.mem_cons_of_mem _ hd), Option.map_map]
    congr 1
    funext m
    show (line.length + m.1 + 1, m.2) = (line.length + 1 + m.1, m.2)
    rw [Nat.add_right_comm]

/-- One line end is no boundary. -/
theorem firstMatch_newline (hc : isLineEnd c = false) (x : List Char) :
    boundaries.firstMatch ('\n' :: c :: x) =
      (boundaries.firstMatch (c :: x)).map fun m => (m.1 + 1, m.2) := by
  have hnone : boundaries.formAt ('\n' :: c :: x) = none := by
    have hends : c ≠ '\r' ∧ c ≠ '\n' := by simpa [isLineEnd] using hc
    refine List.find?_eq_none.mpr fun B hB => ?_
    have hforms : B = ['\r', '\n', '\r', '\n'] ∨ B = ['\n', '\n'] ∨ B = ['\r', '\r'] := by
      simpa [boundaries] using hB
    rcases hforms with rfl | rfl | rfl <;> simp [List.cons_prefix_cons, hends.2.symm]
  rw [Separators.firstMatch, hnone]

theorem frameLines_cons (hc : c ≠ '\r') (x : List Char) :
    frameLines (c :: x) = if c = '\n' then [] :: frameLines x else consLine c (frameLines x) := by
  rw [frameLines.eq_def]
  split
  next h => exact absurd h (by simp)
  next h => exact absurd (List.cons.inj h).1 hc
  next d rest _ h =>
    obtain ⟨rfl, rfl⟩ := List.cons.inj h
    simp [hc]

/-- A line stands before what its end separates it from. -/
theorem frameLines_line (h : ∀ c ∈ line, isLineEnd c = false) (x : List Char) :
    frameLines (line ++ '\n' :: x) = line :: frameLines x := by
  induction line with
  | nil => rw [List.nil_append, frameLines_cons (by decide), if_pos rfl]
  | cons c line ih =>
    have hends : c ≠ '\r' ∧ c ≠ '\n' := by simpa [isLineEnd] using h c (by simp)
    rw [List.cons_append, frameLines_cons hends.1, if_neg hends.2,
      ih fun d hd => h d (List.mem_cons_of_mem _ hd)]
    rfl

theorem frameLines_last (h : ∀ c ∈ line, isLineEnd c = false) : frameLines line = [line] := by
  induction line with
  | nil => rfl
  | cons c line ih =>
    have hends : c ≠ '\r' ∧ c ≠ '\n' := by simpa [isLineEnd] using h c (by simp)
    rw [frameLines_cons hends.1, if_neg hends.2, ih fun d hd => h d (List.mem_cons_of_mem _ hd)]
    rfl

end Lines

/-! ## An event -/

/-- `event: ` and `data: `. -/
def eventField : List Char := ['e', 'v', 'e', 'n', 't', ':', ' ']

def dataField : List Char := ['d', 'a', 't', 'a', ':', ' ']

theorem quiet_fields : ∀ c ∈ eventField ++ dataField, isLineEnd c = false := by
  simp [eventField, dataField, isLineEnd]

/-- The two lines of an event. -/
def eventLines (name data : List Char) : List Char :=
  eventField ++ name ++ '\n' :: (dataField ++ data)

theorem chatStreamEvent_ok {name chatId turnId : String} {sequence : Int}
    {payload : List (String × Json)} {text : List Char}
    (h : chatStreamEvent name chatId turnId sequence payload = .ok text) :
    text = eventLines name.toList (dumps false (eventBody chatId turnId sequence payload)) ++
      ['\n', '\n'] := by
  have hevent : "event: ".toList = eventField := String.toList_ofList
  have hdata : "\ndata: ".toList = '\n' :: dataField := String.toList_ofList
  have hend : "\n\n".toList = ['\n', '\n'] := String.toList_ofList
  obtain ⟨-, htext⟩ := ite_error_eq_ok.mp h
  rw [hevent, hdata, hend] at htext
  rw [← Except.ok.inj htext]
  simp only [eventLines, List.append_assoc, List.cons_append]

section Event

variable {name data : List Char} (hname : ∀ c ∈ name, isLineEnd c = false)
  (hdata : ∀ c ∈ data, isLineEnd c = false)

include hname hdata

/-- The first boundary is the end of the event. -/
theorem firstMatch_event :
    boundaries.firstMatch (eventLines name data ++ ['\n', '\n']) =
      some ((eventLines name data).length, 2) := by
  have hfirst : ∀ c ∈ eventField ++ name, isLineEnd c = false :=
    List.forall_mem_append.mpr ⟨(List.forall_mem_append.mp quiet_fields).1, hname⟩
  have hsecond : ∀ c ∈ dataField ++ data, isLineEnd c = false :=
    List.forall_mem_append.mpr ⟨(List.forall_mem_append.mp quiet_fields).2, hdata⟩
  have hend : boundaries.firstMatch ['\n', '\n'] = some (0, 2) := by decide
  have hdataLine : boundaries.firstMatch (dataField ++ data ++ ['\n', '\n']) =
      some ((dataField ++ data).length, 2) := by
    rw [firstMatch_line hsecond, hend]
    rfl
  have hsplit : eventLines name data ++ ['\n', '\n'] =
      (eventField ++ name) ++ ('\n' :: (dataField ++ data ++ ['\n', '\n'])) := by
    simp only [eventLines, List.append_assoc, List.cons_append]
  have hnewline : boundaries.firstMatch ('\n' :: (dataField ++ data ++ ['\n', '\n'])) =
      (boundaries.firstMatch (dataField ++ data ++ ['\n', '\n'])).map fun m => (m.1 + 1, m.2) :=
    firstMatch_newline (by decide) _
  have hlength : (eventLines name data).length =
      (eventField ++ name).length + ((dataField ++ data).length + 1) := by
    unfold eventLines
    rw [List.length_append, List.length_cons]
  rw [hsplit, firstMatch_line hfirst, hnewline, hdataLine, hlength]
  rfl

/-- The frame of an event has its name and its data. -/
theorem parseFrame_event : parseFrame (eventLines name data) = .ok (some ⟨name, data⟩) := by
  have hfirst : ∀ c ∈ eventField ++ name, isLineEnd c = false :=
    List.forall_mem_append.mpr ⟨(List.forall_mem_append.mp quiet_fields).1, hname⟩
  have hsecond : ∀ c ∈ dataField ++ data, isLineEnd c = false :=
    List.forall_mem_append.mpr ⟨(List.forall_mem_append.mp quiet_fields).2, hdata⟩
  have hlines : frameLines (eventLines name data) = [eventField ++ name, dataField ++ data] := by
    unfold eventLines
    rw [frameLines_line hfirst, frameLines_last hsecond]
  have hfilled : trim isJsSpace (eventLines name data) ≠ [] := by
    intro hempty
    have hall := List.rdropWhile_eq_nil_iff.mp hempty
    have hspace := hall 'e' List.mem_cons_self
    exact absurd hspace (by decide)
  have hevent : "event".toList = ['e', 'v', 'e', 'n', 't'] := String.toList_ofList
  have hdata : "data".toList = ['d', 'a', 't', 'a'] := String.toList_ofList
  have hnameField : parseLine ⟨none, [], false⟩ (eventField ++ name) =
      .ok ⟨some name, [], true⟩ := by
    have hfield : fieldOf (eventField ++ name) = ("event".toList, name) := by
      rw [hevent]
      rfl
    unfold parseLine
    rw [if_neg (by simp [eventField]), hfield, if_pos rfl]
    rfl
  have hdataField : parseLine ⟨some name, [], true⟩ (dataField ++ data) =
      .ok ⟨some name, [data], true⟩ := by
    have hfield : fieldOf (dataField ++ data) = ("data".toList, data) := by
      rw [hdata]
      rfl
    have hother : ¬ "data".toList = "event".toList := by
      rw [hevent, hdata]
      decide
    unfold parseLine
    rw [if_neg (by simp [dataField]), hfield, if_neg hother, if_pos rfl]
    rfl
  have hfields : (frameLines (eventLines name data)).foldlM parseLine ⟨none, [], false⟩ =
      .ok ⟨some name, [data], true⟩ := by
    rw [hlines, List.foldlM_cons, hnameField]
    show parseLine ⟨some name, [], true⟩ (dataField ++ data) >>= pure = _
    rw [bind_pure]
    exact hdataField
  unfold parseFrame
  rw [if_neg hfilled, hfields]
  show Except.ok (some (⟨name, ['\n'].intercalate [data]⟩ : SseFrame)) = _
  rw [List.intercalate_singleton]

end Event

/-- The texts of the events, one after the other, are cut into one frame per event, with its name
and data that is JSON for its body, and nothing is left. -/
theorem framesOfText_events (events : List StreamEvent) {texts : List (List Char)}
    (h : events.mapM StreamEvent.text = .ok texts) :
    ∃ raws, framesOfText texts.flatten = (raws, []) ∧
      List.Forall₂ (fun raw (e : StreamEvent) => ∃ frame, parseFrame raw = .ok (some frame) ∧
        frame.event = e.name.toList ∧ loads frame.data = some e.body) raws events := by
  induction events generalizing texts with
  | nil =>
    obtain rfl : ([] : List (List Char)) = texts := Except.ok.inj h
    refine ⟨[], ?_, .nil⟩
    exact Cutter.frames_none rfl
  | cons e events ih =>
    rw [List.mapM_cons] at h
    obtain ⟨text, htext, h⟩ := bind_eq_ok.mp h
    obtain ⟨rest, hrest, h⟩ := bind_eq_ok.mp h
    obtain rfl : text :: rest = texts := Except.ok.inj h
    obtain ⟨raws, hraws, hframes⟩ := ih hrest
    have hdata := dumps_lineEnd false e.body e.plain_body
    refine ⟨eventLines e.name.toList (dumps false e.body) :: raws, ?_, .cons ?_ hframes⟩
    · have hlines : text = eventLines e.name.toList (dumps false e.body) ++ ['\n', '\n'] :=
        chatStreamEvent_ok htext
      rw [List.flatten_cons, hlines]
      show boundaries.cutter.frames _ = _
      rw [Separators.frames_frame _ (firstMatch_event e.oneLine hdata)]
      show (_ :: (framesOfText rest.flatten).1, (framesOfText rest.flatten).2) = _
      rw [hraws]
    · exact ⟨⟨e.name.toList, dumps false e.body⟩, parseFrame_event e.oneLine hdata, rfl,
        loads_dumps false e.plain_body⟩

/-- A token with line ends, a colon, a quote and blanks of its own. -/
def sampleEvent : StreamEvent where
  name := "token"
  chatId := "11111111-1111-4111-8111-111111111111"
  turnId := "22222222-2222-4222-8222-222222222222"
  sequence := 1
  payload := [("text", .str " \r\n\ndata: \"[S1]\"")]
  oneLine := by simpa using List.all_eq_true.mp (by decide : ("token".toList.all fun c => !isLineEnd c) = true)
  plain := rfl

def sampleText : List Char :=
  "event: ".toList ++ "token".toList ++ "\ndata: ".toList ++ dumps false sampleEvent.body ++
    "\n\n".toList

theorem framesOfText_events_token :
    ∃ raws, framesOfText [sampleText].flatten = (raws, []) ∧
      List.Forall₂ (fun raw (e : StreamEvent) => ∃ frame, parseFrame raw = .ok (some frame) ∧
        frame.event = e.name.toList ∧ loads frame.data = some e.body) raws [sampleEvent] :=
  framesOfText_events [sampleEvent] rfl

end LocalRag.Stream
