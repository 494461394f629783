import LocalRag.Core.Json
import LocalRag.Core.Squeeze
import LocalRag.Core.Text
import LocalRag.Runtime.Scheduler
import Mathlib.Algebra.Order.Ring.Nat

/-!
# The coordinator's protocol — what a request is held to before it is queued

Mirrors `BoundedBodyMiddleware`, `require_bounded_json` and `EmbedRequest` of
`app/runtime/protocol.py`, and `CoordinatorEmbeddingClient.embed`
(`app/runtime/coordinator_client.py`) up to the request it posts.

Three sizes meet in an embedding request: the number of texts, the characters of each
and the bytes of the body. The middleware counts the bytes as they arrive, in whatever
pieces (`buffer_delivers`), the header says them again, and the body is one JSON object
whose bytes are those of its texts, escaped, and 73 more than the priority has
(`length_body`). `embedAccepted_iff` puts the three together.

Mirroring notes.
* The HTTP client is a parameter, `post`; what is used of it is `CompactPost`: JSON without
  blanks, characters outside ASCII left as they are, UTF-8, and the two headers.
* The coordinator decodes the body it was posted. The decoding is left out: the validators
  run on the request itself.
-/

namespace LocalRag.Runtime

open LocalRag.Core

def MAXIMUM_PROTOCOL_BODY_BYTES : Nat := 256 * 1024

/-! ## `BoundedBodyMiddleware` -/

/-- An ASGI message, as far as the middleware reads it. -/
inductive Message where
  | disconnect
  | request (body : List UInt8) (moreBody : Bool)
  | other
deriving DecidableEq

structure Scope where
  type : String
  method : String
  path : String

/-- Not a request, or an upload of an OCR input: passed on as it comes. -/
def bypassed (scope : Scope) : Bool :=
  scope.type ≠ "http" ∨ (scope.method = "PUT" ∧ "/input".toList <:+ scope.path.toList)

/-- The loop: the messages that were buffered, `none` when they are too large. -/
def buffer (maximumBytes : Nat) : Nat → List Message → Option (List Message)
  | _, [] => some []
  | _, .disconnect :: _ => some [.disconnect]
  | size, .other :: rest => (buffer maximumBytes size rest).map (.other :: ·)
  | size, .request body moreBody :: rest =>
    if maximumBytes < size + body.length then none
    else if moreBody then
      (buffer maximumBytes (size + body.length) rest).map (.request body moreBody :: ·)
    else some [.request body moreBody]

/-- `BoundedBodyMiddleware.__call__`: the messages the application sees, `none` for a 413. -/
def boundedBody (maximumBytes : Nat) (scope : Scope) (messages : List Message) :
    Option (List Message) :=
  if bypassed scope then some messages else buffer maximumBytes 0 messages

/-- A server hands over the body in these messages. -/
inductive Delivers : List UInt8 → List Message → Prop
  | last (body : List UInt8) : Delivers body [.request body false]
  | piece (piece : List UInt8) {tail : List UInt8} {rest : List Message} :
      Delivers tail rest → Delivers (piece ++ tail) (.request piece true :: rest)

/-- The pieces do not matter, only what they add up to. -/
theorem buffer_delivers {maximumBytes size : Nat} {body : List UInt8} {messages : List Message}
    (h : Delivers body messages) :
    buffer maximumBytes size messages = some messages ↔ size + body.length ≤ maximumBytes := by
  induction h generalizing size with
  | last body =>
    unfold buffer
    by_cases hlarge : maximumBytes < size + body.length
    · rw [if_pos hlarge]
      simp only [reduceCtorEq, false_iff]
      omega
    · rw [if_neg hlarge]
      simp only [Bool.false_eq_true, if_false, true_iff]
      omega
  | @piece piece tail rest hrest ih =>
    unfold buffer
    rw [List.length_append]
    by_cases hlarge : maximumBytes < size + piece.length
    · rw [if_pos hlarge]
      simp only [reduceCtorEq, false_iff]
      omega
    · rw [if_neg hlarge, if_pos rfl]
      have hsum := @ih (size + piece.length)
      rw [Nat.add_assoc] at hsum
      rw [← hsum]
      constructor
      · intro hmap
        obtain ⟨buffered, hbuffered, heq⟩ := Option.map_eq_some_iff.mp hmap
        rw [hbuffered, List.cons_injective heq]
      · intro hrest
        rw [hrest]
        rfl

/-! ## `require_bounded_json` -/

/-- `HTTPException`. -/
structure HttpException where
  status : Nat
  detail : String
deriving Repr, DecidableEq

/-- `content_type.partition(";")[0].strip().lower()`. -/
def mediaType (contentType : String) : List Char :=
  (trim isSpace (contentType.toList.takeWhile (· ≠ ';'))).map Char.toLower

def requireBoundedJson (contentLength : Option Nat) (contentType : Option String) :
    Except HttpException Unit :=
  match contentLength with
  | none => .error ⟨411, "Content-Length is required"⟩
  | some length =>
    if MAXIMUM_PROTOCOL_BODY_BYTES < length then .error ⟨413, "request body is too large"⟩
    else if contentType.map mediaType ≠ some "application/json".toList then
      .error ⟨415, "application/json is required"⟩
    else .ok ()

/-! ## `EmbedRequest` -/

structure EmbedRequest where
  requestId : String
  priority : Priority
  texts : List String

def isIdChar (c : Char) : Bool := ('a' ≤ c ∧ c ≤ 'z') ∨ ('0' ≤ c ∧ c ≤ '9')

/-- `REQUEST_ID_PATTERN`: a hyphen at neither end. -/
def requestIdMatches (s : List Char) : Bool :=
  s.length ≤ 64 ∧ s.all (fun c => isIdChar c || c = '-') ∧ s.head?.any isIdChar ∧
    s.getLast?.any isIdChar

/-- The fields' bounds and `validate_texts`. -/
def EmbedRequest.valid (r : EmbedRequest) : Bool :=
  requestIdMatches r.requestId.toList ∧ r.requestId.length ≤ 64 ∧ 1 ≤ r.texts.length ∧
    r.texts.length ≤ 32 ∧ r.texts.all fun text => 1 ≤ text.length ∧ text.length ≤ 32768

/-! ## `CoordinatorEmbeddingClient.embed` -/

/-- `uuid4().hex`. -/
structure UuidHex where
  digits : List Char
  length_eq : digits.length = 32
  hex : ∀ c ∈ digits, c ∈ "0123456789abcdef".toList

def UuidHex.zero : UuidHex where
  digits := List.replicate 32 '0'
  length_eq := List.length_replicate
  hex := by
    intro c hc
    rw [List.eq_of_mem_replicate hc]
    decide

def Priority.text : Priority → String
  | .interactive => "interactive"
  | .background => "background"

/-- The request posted for these texts; for none there is no request. -/
def embedRequest (priority : Priority) (requestId : UuidHex) (texts : List String) : EmbedRequest :=
  ⟨String.ofList requestId.digits, priority, texts⟩

/-- The request as JSON without blanks. -/
def compactJson (r : EmbedRequest) : List Char :=
  "\x7b\"request_id\":".toList ++ dumpsString false r.requestId ++
    ",\"priority\":".toList ++ dumpsString false r.priority.text ++
    ",\"texts\":[".toList ++ [','].intercalate (r.texts.map (dumpsString false)) ++
    "]\x7d".toList

def utf8 (s : List Char) : List UInt8 := s.flatMap String.utf8EncodeChar

structure Posted where
  body : List UInt8
  contentLength : Option Nat
  contentType : Option String

/-- What is used of the HTTP client's `post(path, json=…)`. -/
structure CompactPost (post : EmbedRequest → Posted) : Prop where
  body : ∀ r, (post r).body = utf8 (compactJson r)
  contentLength : ∀ r, (post r).contentLength = some (post r).body.length
  contentType : ∀ r, (post r).contentType = some "application/json"

/-- The endpoint's middleware, dependency and schema let the request through. -/
def embedAccepted (post : EmbedRequest → Posted) (r : EmbedRequest) (messages : List Message) :
    Bool :=
  boundedBody MAXIMUM_PROTOCOL_BODY_BYTES ⟨"http", "POST", "/embed"⟩ messages = some messages ∧
    (requireBoundedJson (post r).contentLength (post r).contentType).isOk ∧ r.valid

/-! ## The bytes of a body -/

/-- The bytes of a character inside a JSON string. -/
def charBytes (c : Char) : Nat :=
  if shortEscape c ≠ none then 2 else if c.toNat < 0x20 then 6 else c.utf8Size

def textBytes (text : String) : Nat := (text.toList.map charBytes).sum

theorem utf8_append (x y : List Char) : utf8 (x ++ y) = utf8 x ++ utf8 y := List.flatMap_append

theorem length_utf8_cons (c : Char) (s : List Char) :
    (utf8 (c :: s)).length = c.utf8Size + (utf8 s).length := by
  unfold utf8
  rw [List.flatMap_cons, List.length_append, String.length_utf8EncodeChar]

theorem utf8Size_digitChar {n : Nat} (hn : n < 16) : (Nat.digitChar n).utf8Size = 1 := by
  have htable : ∀ n < 16, (Nat.digitChar n).utf8Size = 1 := by decide
  exact htable n hn

theorem utf8Size_shortEscape {c e : Char} (h : shortEscape c = some e) : e.utf8Size = 1 := by
  unfold shortEscape at h
  split_ifs at h
  all_goals
    obtain rfl := Option.some.inj h
    rfl

theorem length_utf8_unicodeEscape (n : Nat) : (utf8 (unicodeEscape n)).length = 6 := by
  unfold unicodeEscape
  simp only [length_utf8_cons]
  rw [utf8Size_digitChar (Nat.mod_lt _ (by decide)), utf8Size_digitChar (Nat.mod_lt _ (by decide)),
    utf8Size_digitChar (Nat.mod_lt _ (by decide)), utf8Size_digitChar (Nat.mod_lt _ (by decide))]
  rfl

theorem length_utf8_escapeChar (c : Char) : (utf8 (escapeChar false c)).length = charBytes c := by
  unfold escapeChar charBytes
  cases hshort : shortEscape c with
  | some e =>
    rw [if_pos (show some e ≠ none by simp)]
    show (utf8 ['\\', e]).length = 2
    rw [length_utf8_cons, length_utf8_cons, utf8Size_shortEscape hshort]
    rfl
  | none =>
    rw [if_neg (show ¬ (none : Option Char) ≠ none by simp)]
    by_cases hcontrol : c.toNat < 0x20
    · rw [if_pos hcontrol]
      show (utf8 (if c.toNat < 0x20 ∨ (false = true ∧ 0x7f ≤ c.toNat) then _ else _)).length = 6
      rw [if_pos (Or.inl hcontrol), if_pos (by omega), length_utf8_unicodeEscape]
    · rw [if_neg hcontrol]
      show (utf8 (if c.toNat < 0x20 ∨ (false = true ∧ 0x7f ≤ c.toNat) then _ else _)).length = _
      rw [if_neg (by simpa using hcontrol), length_utf8_cons]
      rfl

theorem length_utf8_escape (s : List Char) :
    (utf8 (escape false s)).length = (s.map charBytes).sum := by
  induction s with
  | nil => rfl
  | cons c s ih =>
    unfold escape at ih ⊢
    rw [List.flatMap_cons, utf8_append, List.length_append, ih, length_utf8_escapeChar,
      List.map_cons, List.sum_cons]

theorem length_utf8_dumpsString (text : String) :
    (utf8 (dumpsString false text)).length = textBytes text + 2 := by
  unfold dumpsString textBytes
  rw [List.cons_append, length_utf8_cons, utf8_append, List.length_append, length_utf8_escape]
  show 1 + (_ + 1) = _
  omega

variable {texts : List String}

/-- A comma less than there are texts. -/
theorem length_utf8_texts (hne : texts ≠ []) :
    (utf8 ([','].intercalate (texts.map (dumpsString false)))).length + 1
      = (texts.map fun text => textBytes text + 3).sum := by
  induction texts with
  | nil => exact absurd rfl hne
  | cons text rest ih =>
    by_cases hrest : rest = []
    · subst hrest
      rw [List.map_singleton, List.intercalate_singleton, length_utf8_dumpsString]
      rfl
    · rw [List.map_cons, List.intercalate_cons_of_ne_nil (by simpa using hrest), utf8_append,
        utf8_append, List.length_append, List.length_append, length_utf8_dumpsString,
        List.map_cons, List.sum_cons, ← ih hrest]
      show textBytes text + 2 + 1 + _ + 1 = _
      omega

theorem textBytes_uuid (id : UuidHex) : textBytes (String.ofList id.digits) = 32 := by
  have hall : ("0123456789abcdef".toList.all fun c => charBytes c = 1) = true := by decide
  have hhex : ∀ c ∈ "0123456789abcdef".toList, charBytes c = 1 := by
    simpa only [decide_eq_true_eq] using List.all_eq_true.mp hall
  have hone : ∀ n ∈ id.digits.map charBytes, n = 1 := by
    intro n hn
    obtain ⟨c, hc, rfl⟩ := List.mem_map.mp hn
    exact hhex c (id.hex c hc)
  unfold textBytes
  rw [String.toList_ofList, List.eq_replicate_of_mem hone, List.sum_replicate_nat, List.length_map,
    id.length_eq]

theorem textBytes_priority (priority : Priority) :
    textBytes priority.text = priority.text.length := by
  cases priority
  · rfl
  · rfl

/-- The body of a request: its texts, each with its quotes and a comma, and 73 bytes and the
priority around them. -/
theorem length_body (hne : texts ≠ []) (priority : Priority) (id : UuidHex) :
    (utf8 (compactJson (embedRequest priority id texts))).length
      = 73 + priority.text.length + (texts.map fun text => textBytes text + 3).sum := by
  have hid : (utf8 (dumpsString false (String.ofList id.digits))).length = 34 := by
    rw [length_utf8_dumpsString, textBytes_uuid]
  have hpriority : (utf8 (dumpsString false priority.text)).length = priority.text.length + 2 := by
    rw [length_utf8_dumpsString, textBytes_priority]
  have htexts := length_utf8_texts hne
  unfold compactJson embedRequest
  simp only [utf8_append, List.length_append]
  rw [hid, hpriority]
  show 14 + 34 + 12 + (priority.text.length + 2) + 10 + _ + 2 = _
  omega

/-! ## What is accepted -/

theorem requestIdMatches_uuid (id : UuidHex) : requestIdMatches id.digits = true := by
  have hhex : ∀ c ∈ "0123456789abcdef".toList, isIdChar c = true :=
    List.all_eq_true.mp (by decide)
  have hne : id.digits ≠ [] := by
    intro hnil
    have hlength := id.length_eq
    rw [hnil] at hlength
    exact absurd hlength (by decide)
  have hchar : ∀ c ∈ id.digits, isIdChar c = true := fun c hc => hhex c (id.hex c hc)
  unfold requestIdMatches
  rw [decide_eq_true_eq]
  refine ⟨by rw [id.length_eq]; decide, ?_, ?_, ?_⟩
  · rw [List.all_eq_true]
    intro c hc
    rw [hchar c hc]
    rfl
  · rw [List.head?_eq_some_head hne]
    exact hchar _ (List.head_mem hne)
  · rw [List.getLast?_eq_some_getLast hne]
    exact hchar _ (List.getLast_mem hne)

/-- The schema, on what the client sends. -/
theorem embedRequest_valid_iff (priority : Priority) (id : UuidHex) (texts : List String) :
    (embedRequest priority id texts).valid = true ↔
      (1 ≤ texts.length ∧ texts.length ≤ 32) ∧
        ∀ text ∈ texts, 1 ≤ text.length ∧ text.length ≤ 32768 := by
  have hid : requestIdMatches (String.ofList id.digits).toList = true := by
    rw [String.toList_ofList, requestIdMatches_uuid]
  have hlength : (String.ofList id.digits).length ≤ 64 := by
    rw [String.length_ofList, id.length_eq]
    decide
  unfold EmbedRequest.valid embedRequest
  rw [decide_eq_true_eq, List.all_eq_true]
  simp only [hid, hlength, true_and, decide_eq_true_eq, and_assoc]

theorem requireBoundedJson_iff {contentLength : Nat} :
    (requireBoundedJson (some contentLength) (some "application/json")).isOk = true ↔
      contentLength ≤ MAXIMUM_PROTOCOL_BODY_BYTES := by
  have htype : (some "application/json").map mediaType = some "application/json".toList := by
    decide
  unfold requireBoundedJson
  simp only [htype, ne_eq, not_true_eq_false, if_false]
  split
  · simp only [Except.isOk, Except.toBool, Bool.false_eq_true, false_iff]
    omega
  · simp only [Except.isOk, Except.toBool, true_iff]
    omega

/-- An embedding request is accepted if and only if its texts are 1 to 32, each has 1 to 32768
characters, and their bytes are few enough. -/
theorem embedAccepted_iff {post : EmbedRequest → Posted} (hpost : CompactPost post)
    (priority : Priority) (id : UuidHex) (hne : texts ≠ []) {messages : List Message}
    (hmessages : Delivers (post (embedRequest priority id texts)).body messages) :
    embedAccepted post (embedRequest priority id texts) messages = true ↔
      texts.length ≤ 32 ∧ (∀ text ∈ texts, 1 ≤ text.length ∧ text.length ≤ 32768) ∧
        73 + priority.text.length + (texts.map fun text => textBytes text + 3).sum ≤ 262144 := by
  have hbytes := length_body hne priority id
  have hcount : 1 ≤ texts.length := List.length_pos_iff.mpr hne
  have hbypass : bypassed ⟨"http", "POST", "/embed"⟩ = false := by decide
  unfold embedAccepted boundedBody
  rw [decide_eq_true_eq, hbypass, if_neg (by decide), buffer_delivers hmessages,
    hpost.contentLength, hpost.contentType, requireBoundedJson_iff, embedRequest_valid_iff,
    hpost.body, hbytes]
  unfold MAXIMUM_PROTOCOL_BODY_BYTES
  constructor
  · rintro ⟨hbody, -, ⟨-, hmax⟩, htexts⟩
    exact ⟨hmax, htexts, by omega⟩
  · rintro ⟨hmax, htexts, hbody⟩
    exact ⟨by omega, by omega, ⟨hcount, hmax⟩, htexts⟩

end LocalRag.Runtime
