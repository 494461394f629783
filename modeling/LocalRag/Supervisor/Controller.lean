import LocalRag.Core.Depth
import LocalRag.Core.Raises
import LocalRag.Storage.Archive
import LocalRag.Storage.Ranges

/-!
# The controller's parser — one message, and the handler in front of it

`ControllerRequest.parse` and `encode` of `apps/supervisor/controller.py`, and
`ControllerServer._handle` of `apps/supervisor/personal_runtime.py`, which answers a
`ControllerProtocolError` with a 400 and catches nothing else.

What `encode` writes `parse` reads back, and what `parse` returns is what the message
says. It raises something else in two places. `UUID(value)` asks a number, a list or an
object for its method `replace`, and the `AttributeError` is not among the exceptions
that are caught around it; and `json.loads` raises `RecursionError` on a text that nests
deeper than the interpreter goes. `LegibleMessage` leaves out these two and nothing else.

Mirroring notes.
* `depth` is how many containers the interpreter lets `json.loads` open inside the
  message's own object.
* A `dict` keeps the last value of a key: a message that names a field twice says what
  it says last.
* `%r` of a refused action opens no container that `json.loads` had not open, and no text
  of 2048 bytes holds a number too long for `int`.
* The headers are what the handler's accessors return, and a body is what `read` returns.
* A thread that cannot be started and a connection that is gone are left out.
-/

namespace LocalRag.Supervisor

open LocalRag.Core
open LocalRag.Runtime (UuidHex)
open Transfer (uuidParses uuidText removeText parsesBase16 dropRadix dropSign isIntSpace
  isLowerHex fieldsAre)
open LocalRag.Ocr (digitValue intOf)
open Storage (intMaxStrDigits)

/-! ## `UUID` -/

/-- The value of a digit of `int(text, 16)`. -/
def base16Digit (c : Char) : Nat := (hexValue c).getD (digitValue c)

/-- `int(text, 16)`, of a text it reads. -/
def base16Value (text : List Char) : Nat :=
  ((dropRadix (dropSign (trim isIntSpace text))).filter (· ≠ '_')).foldl
    (fun n c => 16 * n + base16Digit c) 0

/-- The lowest hexadecimal digits of a number, as many as asked for. -/
def hexDigits : Nat → Nat → List Char
  | 0, _ => []
  | width + 1, n => hexDigits width (n / 16) ++ [Nat.digitChar (n % 16)]

theorem length_hexDigits (width n : Nat) : (hexDigits width n).length = width := by
  induction width generalizing n with
  | zero => rfl
  | succ width ih => rw [hexDigits, List.length_append, ih]; rfl

theorem digitChar_mem : ∀ d < 16, Nat.digitChar d ∈ "0123456789abcdef".toList := by decide

theorem hexDigits_mem (width n : Nat) :
    ∀ c ∈ hexDigits width n, c ∈ "0123456789abcdef".toList := by
  induction width generalizing n with
  | zero => exact fun c hc => absurd hc List.not_mem_nil
  | succ width ih =>
    intro c hc
    rw [hexDigits, List.mem_append, List.mem_singleton] at hc
    rcases hc with hc | rfl
    · exact ih _ c hc
    · exact digitChar_mem _ (Nat.mod_lt _ (by decide))

/-- `'%032x' % n`. -/
def uuidOfNat (n : Nat) : UuidHex := ⟨hexDigits 32 n, length_hexDigits 32 n, hexDigits_mem 32 n⟩

/-- `UUID(text)`; `none` is a `ValueError`. -/
def uuidOf (text : String) : Option UuidHex :=
  if uuidParses text then
    let bare := removeText "uuid:".toList 0 (removeText "urn:".toList 0 text.toList)
    let hex := (trim (fun c => c = '\x7b' ∨ c = '\x7d') bare).filter (· ≠ '-')
    some (uuidOfNat (base16Value hex))
  else none

/-! ## `ControllerRequest` -/

inductive ControllerAction where
  | applyConfiguration
  | createBackup
  | verifyBackup
deriving Repr, DecidableEq

def ControllerAction.value : ControllerAction → String
  | .applyConfiguration => "apply_configuration"
  | .createBackup => "create_backup"
  | .verifyBackup => "verify_backup"

structure ControllerRequest where
  action : ControllerAction
  changeId : UuidHex
  nonce : String

/-- What `parse` raises. -/
inductive ControllerFault where
  /-- `ControllerProtocolError`. -/
  | protocol (message : String)
  /-- `RecursionError`. -/
  | recursion
  /-- `AttributeError`. -/
  | attribute
deriving Repr, DecidableEq

/-- A `ControllerProtocolError`. -/
def ControllerFault.IsProtocol (e : ControllerFault) : Prop := ∃ message, e = .protocol message

/-- What the conversion of a field raises. -/
inductive ValueFault where
  | type
  | value
  | attribute
deriving Repr, DecidableEq

def maxMessageBytes : Nat := 2048

/-- `_NONCE`. -/
def isNonceChar (c : Char) : Bool :=
  ('A' ≤ c ∧ c ≤ 'Z') ∨ ('a' ≤ c ∧ c ≤ 'z') ∨ ('0' ≤ c ∧ c ≤ '9') ∨ c = '_' ∨ c = '-'

def isNonce (s : String) : Bool := 43 ≤ s.length ∧ s.length ≤ 128 ∧ s.toList.all isNonceChar

/-- `ControllerAction(value)`. -/
def controllerAction : Json → Except ValueFault ControllerAction
  | .str "apply_configuration" => .ok .applyConfiguration
  | .str "create_backup" => .ok .createBackup
  | .str "verify_backup" => .ok .verifyBackup
  | _ => .error .value

/-- `UUID(value)`. -/
def controllerUuid : Json → Except ValueFault UuidHex
  | .null => .error .type
  | .str text =>
    match uuidOf text with
    | some id => .ok id
    | none => .error .value
  | _ => .error .attribute

def requestFields : List String := ["action", "change_id", "nonce"]

/-- `value[key]`, of a key that is there. -/
def fieldOf (members : List (String × Json)) (key : String) : Json :=
  (Json.get members key).getD .null

/-- The `try` around the two conversions. -/
def requestValues (members : List (String × Json)) :
    Except ControllerFault (ControllerAction × UuidHex) :=
  let values : Except ValueFault (ControllerAction × UuidHex) := do
    let action ← controllerAction (fieldOf members "action")
    let changeId ← controllerUuid (fieldOf members "change_id")
    .ok (action, changeId)
  match values with
  | .ok values => .ok values
  | .error .attribute => .error .attribute
  | .error _ => .error (.protocol "controller message values are invalid")

/-- `json.loads(payload.decode("utf-8"))`, with the `except` around it. -/
def decodeMessage (depth : Nat) (payload : ByteArray) : Except ControllerFault Json :=
  match String.fromUTF8? payload with
  | none => .error (.protocol "controller message is not valid JSON")
  | some text =>
    match loadsWithin (depth + 1) text.toList with
    | .ok value => .ok value
    | .error .decode => .error (.protocol "controller message is not valid JSON")
    | .error .recursion => .error .recursion

/-- The members, when they are exactly the fields. -/
def requestMembers : Json → Except ControllerFault (List (String × Json))
  | .obj members =>
    if ¬ fieldsAre members requestFields then
      .error (.protocol "controller message fields are invalid")
    else .ok members
  | _ => .error (.protocol "controller message fields are invalid")

def requestNonce : Json → Except ControllerFault String
  | .str nonce =>
    if ¬ isNonce nonce then .error (.protocol "controller nonce is invalid") else .ok nonce
  | _ => .error (.protocol "controller nonce is invalid")

/-- `ControllerRequest.parse`. -/
def ControllerRequest.parse (depth : Nat) (payload : ByteArray) :
    Except ControllerFault ControllerRequest :=
  if payload.size > maxMessageBytes then .error (.protocol "controller message is too large")
  else do
    let value ← decodeMessage depth payload
    let members ← requestMembers value
    let values ← requestValues members
    let nonce ← requestNonce (fieldOf members "nonce")
    .ok ⟨values.1, values.2, nonce⟩

/-- The message of `encode`: the keys sorted, and no blanks. -/
def ControllerRequest.text (r : ControllerRequest) : List Char :=
  "\x7b\"action\":".toList ++ dumpsString true r.action.value ++
    ",\"change_id\":".toList ++ dumpsString true (uuidText r.changeId) ++
    ",\"nonce\":".toList ++ dumpsString true r.nonce ++ "\x7d".toList

/-- `ControllerRequest.encode`. -/
def ControllerRequest.encode (r : ControllerRequest) : ByteArray := (String.ofList r.text).toUTF8

/-! ## `ControllerServer` -/

/-- What `_handle` reads of a request. -/
structure Command where
  path : String
  authorization : Option String
  contentType : String
  contentLength : Option String
  body : Nat → ByteArray

inductive Reply where
  | notFound
  | invalidBody
  | invalidCommand
  | busy
  | accepted
deriving Repr, DecidableEq

/-- The status and the detail, if there is one. -/
def Reply.content : Reply → Nat × Option String
  | .notFound => (404, some "not found")
  | .invalidBody => (400, some "invalid body")
  | .invalidCommand => (400, some "invalid command")
  | .busy => (409, some "controller busy")
  | .accepted => (202, none)

/-- Decimal digits, with single underscores between them. -/
def decimalGroups : List Char → Bool
  | [] => false
  | [c] => isDecimal c
  | c :: d :: rest => isDecimal c && if d = '_' then decimalGroups rest else decimalGroups (d :: rest)

/-- `int(text)`; `none` is a `ValueError`. -/
def intOfText (text : String) : Option Int :=
  let signed := trim isIntSpace text.toList
  let groups := dropSign signed
  let digits := groups.filter (· ≠ '_')
  if ¬ decimalGroups groups ∨ digits.length > intMaxStrDigits then none
  else some (if signed.head? = some '-' then -(intOf digits : Int) else intOf digits)

/-- `length`, as `_handle` computes it. -/
def Command.length (q : Command) : Int := (intOfText (q.contentLength.getD "0")).getD 0

/-- The path, the token and the type of a command. -/
def Command.isAddressed (token : String) (q : Command) : Bool :=
  q.path = "/v1/commands" ∧ q.authorization = some ("Bearer " ++ token) ∧
    q.contentType = "application/json"

/-- `_handle`, with the operation lock taken or free: the reply, and the request that a thread
is started for, which holds the lock from then on. -/
def handle (depth : Nat) (token : String) (held : Bool) (q : Command) :
    Except ControllerFault (Reply × Option ControllerRequest) :=
  if ¬ q.isAddressed token then .ok (.notFound, none)
  else if ¬(1 ≤ q.length ∧ q.length ≤ 2048) then .ok (.invalidBody, none)
  else
    match ControllerRequest.parse depth (q.body q.length.toNat) with
    | .error (.protocol _) => .ok (.invalidCommand, none)
    | .error e => .error e
    | .ok request => if held then .ok (.busy, none) else .ok (.accepted, some request)

/-! ## What it raises -/

/-- `UUID` raises one of the two exceptions that are caught, or returns. -/
def readsAsUuid : Json → Bool
  | .null => true
  | .str _ => true
  | _ => false

/-- A text within the size does not nest too deep, and if it is a message up to its action, its
`change_id` is a text or `null`. -/
def LegibleMessage (depth : Nat) (payload : ByteArray) : Prop :=
  payload.size ≤ maxMessageBytes → ∀ text, String.fromUTF8? payload = some text →
    loadsWithin (depth + 1) text.toList ≠ .error .recursion ∧
    ∀ members action, loadsWithin (depth + 1) text.toList = .ok (.obj members) →
      fieldsAre members requestFields = true →
      controllerAction (fieldOf members "action") = .ok action →
      readsAsUuid (fieldOf members "change_id") = true

section Raises

variable {depth : Nat} {payload : ByteArray} {value : Json} {members : List (String × Json)}

@[simp] theorem isProtocol_protocol (message : String) :
    (ControllerFault.protocol message).IsProtocol := ⟨message, rfl⟩

@[simp] theorem not_isProtocol_recursion : ¬ ControllerFault.recursion.IsProtocol := by
  rintro ⟨message, h⟩
  cases h

@[simp] theorem not_isProtocol_attribute : ¬ ControllerFault.attribute.IsProtocol := by
  rintro ⟨message, h⟩
  cases h

theorem decodeMessage_ok : decodeMessage depth payload = .ok value ↔
    ∃ text, String.fromUTF8? payload = some text ∧
      loadsWithin (depth + 1) text.toList = .ok value := by
  unfold decodeMessage
  cases htext : String.fromUTF8? payload with
  | none => simp
  | some text =>
    simp only [Option.some.injEq, exists_eq_left']
    cases hloads : loadsWithin (depth + 1) text.toList with
    | ok v => simp
    | error e => cases e <;> simp

theorem decodeMessage_raises : Only ControllerFault.IsProtocol (decodeMessage depth payload) ↔
    ∀ text, String.fromUTF8? payload = some text →
      loadsWithin (depth + 1) text.toList ≠ .error .recursion := by
  unfold decodeMessage
  cases htext : String.fromUTF8? payload with
  | none => simp
  | some text =>
    simp only [Option.some.injEq, forall_eq']
    cases hloads : loadsWithin (depth + 1) text.toList with
    | ok v => simp
    | error e => cases e <;> simp

theorem requestMembers_ok : requestMembers value = .ok members ↔
    value = .obj members ∧ fieldsAre members requestFields = true := by
  unfold requestMembers
  split
  next members' =>
    rw [ite_error_eq_ok, not_not]
    constructor
    · rintro ⟨hfields, h⟩
      obtain rfl := Except.ok.inj h
      exact ⟨rfl, hfields⟩
    · rintro ⟨h, hfields⟩
      obtain rfl := Json.obj.inj h
      exact ⟨hfields, rfl⟩
  next hobj =>
    refine iff_of_false (by simp) ?_
    rintro ⟨rfl, -⟩
    exact hobj _ rfl

theorem requestMembers_raises : Only ControllerFault.IsProtocol (requestMembers value) := by
  unfold requestMembers
  split
  · rw [only_guard]
    simp
  · simp

theorem requestNonce_ok {nonce : String} :
    requestNonce value = .ok nonce ↔ value = .str nonce ∧ isNonce nonce = true := by
  unfold requestNonce
  split
  next nonce' =>
    rw [ite_error_eq_ok, not_not]
    constructor
    · rintro ⟨hnonce, h⟩
      obtain rfl := Except.ok.inj h
      exact ⟨rfl, hnonce⟩
    · rintro ⟨h, hnonce⟩
      obtain rfl := Json.str.inj h
      exact ⟨hnonce, rfl⟩
  next hstr =>
    refine iff_of_false (by simp) ?_
    rintro ⟨rfl, -⟩
    exact hstr _ rfl

theorem requestNonce_raises : Only ControllerFault.IsProtocol (requestNonce value) := by
  unfold requestNonce
  split
  · rw [only_guard]
    simp
  · simp

theorem controllerAction_ok {action : ControllerAction} :
    controllerAction value = .ok action ↔ value = .str action.value := by
  constructor
  · intro h
    unfold controllerAction at h
    split at h
    · obtain rfl := Except.ok.inj h
      rfl
    · obtain rfl := Except.ok.inj h
      rfl
    · obtain rfl := Except.ok.inj h
      rfl
    · cases h
  · rintro rfl
    cases action <;> rfl

theorem controllerUuid_ok {id : UuidHex} :
    controllerUuid value = .ok id ↔ ∃ text, value = .str text ∧ uuidOf text = some id := by
  unfold controllerUuid
  split
  next => simp
  next text =>
    cases huuid : uuidOf text with
    | none => simp [huuid]
    | some id' => simp [huuid]
  next hnull hstr =>
    refine iff_of_false (by simp) ?_
    rintro ⟨text, rfl, -⟩
    exact hstr text rfl

theorem controllerAction_error {e : ValueFault} (h : controllerAction value = .error e) :
    e = .value := by
  unfold controllerAction at h
  split at h
  · cases h
  · cases h
  · cases h
  · exact (Except.error.inj h).symm

theorem controllerUuid_error {e : ValueFault} (h : controllerUuid value = .error e) :
    e = .attribute ↔ readsAsUuid value = false := by
  unfold controllerUuid at h
  split at h
  next =>
    obtain rfl := Except.error.inj h
    decide
  next text =>
    split at h
    next => cases h
    next =>
      obtain rfl := Except.error.inj h
      simp [readsAsUuid]
  next hnull hstr =>
    obtain rfl := Except.error.inj h
    cases value <;> simp_all [readsAsUuid]

theorem requestValues_ok {values : ControllerAction × UuidHex} :
    requestValues members = .ok values ↔
      controllerAction (fieldOf members "action") = .ok values.1 ∧
      controllerUuid (fieldOf members "change_id") = .ok values.2 := by
  obtain ⟨action, id⟩ := values
  unfold requestValues
  cases haction : controllerAction (fieldOf members "action") with
  | error e =>
    obtain rfl := controllerAction_error haction
    simp [bind, Except.bind]
  | ok action' =>
    cases huuid : controllerUuid (fieldOf members "change_id") with
    | error e => cases e <;> simp [bind, Except.bind]
    | ok id' => simp [bind, Except.bind]

theorem requestValues_raises : Only ControllerFault.IsProtocol (requestValues members) ↔
    ∀ action, controllerAction (fieldOf members "action") = .ok action →
      readsAsUuid (fieldOf members "change_id") = true := by
  unfold requestValues
  cases haction : controllerAction (fieldOf members "action") with
  | error e =>
    obtain rfl := controllerAction_error haction
    simp [bind, Except.bind]
  | ok action =>
    cases huuid : controllerUuid (fieldOf members "change_id") with
    | error e =>
      have hattribute := controllerUuid_error huuid
      cases e <;> simp_all [bind, Except.bind]
    | ok id =>
      obtain ⟨text, htext, -⟩ := controllerUuid_ok.mp huuid
      simp [bind, Except.bind, htext, readsAsUuid]

/-- Nothing but the protocol error leaves `parse`, exactly on the legible messages. -/
theorem parse_raises :
    Only ControllerFault.IsProtocol (ControllerRequest.parse depth payload) ↔
      LegibleMessage depth payload := by
  unfold ControllerRequest.parse LegibleMessage
  rw [only_guard]
  simp only [isProtocol_protocol, implies_true, true_and, only_bind, decodeMessage_raises,
    requestMembers_raises, requestValues_raises, requestNonce_raises, only_ok, and_true,
    decodeMessage_ok, requestMembers_ok, gt_iff_lt, not_lt]
  constructor
  · rintro h hsize text htext
    obtain ⟨hdeep, hvalues⟩ := h hsize
    exact ⟨hdeep text htext, fun members action hloads hfields haction =>
      hvalues _ ⟨text, htext, hloads⟩ members ⟨rfl, hfields⟩ action haction⟩
  · rintro h hsize
    refine ⟨fun text htext => (h hsize text htext).1, ?_⟩
    rintro value ⟨text, htext, hloads⟩ members ⟨rfl, hfields⟩ action haction
    exact (h hsize text htext).2 members action hloads hfields haction

end Raises
/-! ## What it returns -/

/-- The bytes are the text of an object with these three fields and no other, and the fields are
those of the request. -/
def Encodes (depth : Nat) (payload : ByteArray) (r : ControllerRequest) : Prop :=
  ∃ text members, String.fromUTF8? payload = some text ∧
    loadsWithin (depth + 1) text.toList = .ok (.obj members) ∧
    (∀ key, key ∈ members.map (·.1) ↔ key ∈ requestFields) ∧
    Json.get members "action" = some (.str r.action.value) ∧
    (∃ id, Json.get members "change_id" = some (.str id) ∧ uuidOf id = some r.changeId) ∧
    Json.get members "nonce" = some (.str r.nonce) ∧ isNonce r.nonce = true

section Returns

variable {depth : Nat} {payload : ByteArray} {members : List (String × Json)}
  {r : ControllerRequest}

theorem get_of_fieldOf {key text : String} (h : fieldOf members key = .str text) :
    Json.get members key = some (.str text) := by
  unfold fieldOf at h
  cases hget : Json.get members key with
  | none =>
    rw [hget] at h
    cases h
  | some value =>
    rw [hget] at h
    exact congrArg some h

theorem fieldsAre_iff {fields : List String} : fieldsAre members fields = true ↔
    ∀ key, key ∈ members.map (·.1) ↔ key ∈ fields := by
  unfold fieldsAre
  rw [decide_eq_true_eq]
  simp only [List.all_eq_true, decide_eq_true_eq, List.any_eq_true, List.mem_map]
  constructor
  · rintro ⟨hin, hall⟩ key
    constructor
    · rintro ⟨member, hmember, rfl⟩
      exact hin member hmember
    · exact hall key
  · intro h
    exact ⟨fun member hmember => (h member.1).mp ⟨member, hmember, rfl⟩, fun key => (h key).mpr⟩

/-- What `parse` returns is what the message says. -/
theorem parse_ok (h : ControllerRequest.parse depth payload = .ok r) :
    payload.size ≤ maxMessageBytes ∧ Encodes depth payload r := by
  unfold ControllerRequest.parse at h
  obtain ⟨hsize, h⟩ := ite_error_eq_ok.mp h
  obtain ⟨value, hvalue, h⟩ := bind_eq_ok.mp h
  obtain ⟨members, hmembers, h⟩ := bind_eq_ok.mp h
  obtain ⟨values, hvalues, h⟩ := bind_eq_ok.mp h
  obtain ⟨nonce, hnonce, h⟩ := bind_eq_ok.mp h
  obtain rfl := Except.ok.inj h
  obtain ⟨text, htext, hloads⟩ := decodeMessage_ok.mp hvalue
  obtain ⟨rfl, hfields⟩ := requestMembers_ok.mp hmembers
  obtain ⟨haction, huuid⟩ := requestValues_ok.mp hvalues
  obtain ⟨id, hid, hread⟩ := controllerUuid_ok.mp huuid
  obtain ⟨htextNonce, hvalid⟩ := requestNonce_ok.mp hnonce
  exact ⟨not_lt.mp hsize, text, members, htext, hloads, fieldsAre_iff.mp hfields,
    get_of_fieldOf (controllerAction_ok.mp haction), ⟨id, get_of_fieldOf hid, hread⟩,
    get_of_fieldOf htextNonce, hvalid⟩

end Returns

/-! ## The message of `encode` -/

section Encode

/-- A number is found in its digits; by induction from the last one. -/
theorem hexDigits_foldl {s : List Char} (h : ∀ c ∈ s, c ∈ "0123456789abcdef".toList) :
    hexDigits s.length (s.foldl (fun n c => 16 * n + base16Digit c) 0) = s := by
  have htable : ("0123456789abcdef".toList.all fun c =>
      base16Digit c < 16 ∧ Nat.digitChar (base16Digit c) = c) = true := by decide
  have hdigit : ∀ c ∈ "0123456789abcdef".toList,
      base16Digit c < 16 ∧ Nat.digitChar (base16Digit c) = c :=
    fun c hc => of_decide_eq_true (List.all_eq_true.mp htable c hc)
  induction s using List.reverseRecOn with
  | nil => rfl
  | append_singleton s c ih =>
    obtain ⟨hlt, hchar⟩ := hdigit c (h c (by simp))
    rw [List.length_append, List.length_singleton, List.foldl_append, List.foldl_cons,
      List.foldl_nil, hexDigits]
    have hdiv : (16 * s.foldl (fun n c => 16 * n + base16Digit c) 0 + base16Digit c) / 16 =
        s.foldl (fun n c => 16 * n + base16Digit c) 0 := by omega
    have hmod : (16 * s.foldl (fun n c => 16 * n + base16Digit c) 0 + base16Digit c) % 16 =
        base16Digit c := by omega
    rw [hdiv, hmod, ih fun d hd => h d (List.mem_append_left _ hd), hchar]

/-- A `UUID` is read back from its text. -/
theorem uuidOf_uuidText (id : UuidHex) : uuidOf (uuidText id) = some id := by
  have hvalue : base16Value id.digits =
      id.digits.foldl (fun n c => 16 * n + base16Digit c) 0 := by
    unfold base16Value
    rw [LocalRag.Transfer.dropRadix_of_lowerHex (LocalRag.Transfer.uuid_digits id)]
    refine congrArg (List.foldl _ 0) (List.filter_eq_self.mpr fun c hc => decide_eq_true ?_)
    rintro rfl
    exact absurd (LocalRag.Transfer.uuid_digits id '_' hc) (by decide)
  have hdigits : (uuidOfNat (base16Value id.digits)).digits = id.digits := by
    have hfold := hexDigits_foldl id.hex
    rw [id.length_eq, ← hvalue] at hfold
    exact hfold
  unfold uuidOf
  rw [if_pos (LocalRag.Transfer.uuidParses_uuidText id)]
  simp only [LocalRag.Transfer.hex_uuidText]
  refine congrArg some ?_
  cases id
  cases hread : uuidOfNat (base16Value _)
  rw [hread] at hdigits
  congr

theorem nonceChar_lt {c : Char} (h : isNonceChar c = true) : c.toNat < 128 := by
  rcases of_decide_eq_true h with hupper | hlower | hdigit | rfl | rfl
  · have hle : c.toNat ≤ 90 := hupper.2
    omega
  · have hle : c.toNat ≤ 122 := hlower.2
    omega
  · have hle : c.toNat ≤ 57 := hdigit.2
    omega
  · decide
  · decide

/-- A character of a nonce stands for itself in a text, and is one byte. -/
theorem escapeChar_nonceChar {c : Char} (h : isNonceChar c = true) :
    escapeChar true c = [c] ∧ c.utf8Size = 1 := by
  have htable : ∀ n < 128, isNonceChar (Char.ofNat n) = true →
      escapeChar true (Char.ofNat n) = [Char.ofNat n] ∧ (Char.ofNat n).utf8Size = 1 := by decide
  have hc := htable c.toNat (nonceChar_lt h)
  rw [Char.ofNat_toNat] at hc
  exact hc h

/-- A text of such characters, with its quotes. -/
theorem dumpsString_word {s : String} (h : s.toList.all isNonceChar = true) :
    dumpsString true s = '"' :: s.toList ++ ['"'] := by
  have hescape : ∀ t : List Char, t.all isNonceChar = true → escape true t = t := by
    intro t
    induction t with
    | nil => intro _; rfl
    | cons c t ih =>
      intro ht
      rw [List.all_cons, Bool.and_eq_true] at ht
      rw [escape_cons, (escapeChar_nonceChar ht.1).1, ih ht.2]
      rfl
  unfold dumpsString
  rw [hescape _ h]

theorem word_action (action : ControllerAction) : action.value.toList.all isNonceChar = true := by
  cases action <;> decide

theorem word_uuidText (id : UuidHex) : (uuidText id).toList.all isNonceChar = true := by
  refine List.all_eq_true.mpr fun c hc => ?_
  by_cases hdash : c = '-'
  · rw [hdash]
    decide
  by_cases hhex : isLowerHex c = true
  · unfold isLowerHex at hhex
    unfold isNonceChar
    rcases of_decide_eq_true hhex with hdigit | hletter
    · exact decide_eq_true (Or.inr (Or.inr (Or.inl hdigit)))
    · refine decide_eq_true (Or.inr (Or.inl ⟨hletter.1, Char.le_trans hletter.2 (by decide)⟩))
  · exact absurd hc (LocalRag.Transfer.not_mem_uuidText hdash (Bool.eq_false_iff.mpr hhex))

theorem length_uuidText (id : UuidHex) : (uuidText id).toList.length = 36 := by
  rw [LocalRag.Transfer.toList_uuidText]
  simp [id.length_eq]

/-- One byte for each character. -/
theorem size_ofList {s : List Char} (h : ∀ c ∈ s, c.utf8Size = 1) :
    (String.ofList s).toUTF8.size = s.length := by
  rw [String.toUTF8_eq_toByteArray, String.toByteArray_ofList]
  unfold List.utf8Encode
  rw [List.size_toByteArray]
  induction s with
  | nil => rfl
  | cons c s ih =>
    rw [List.flatMap_cons, List.length_append, String.length_utf8EncodeChar,
      h c List.mem_cons_self, ih fun d hd => h d (List.mem_cons_of_mem _ hd), List.length_cons]
    omega

/-- The message, with its three values in it. -/
theorem text_eq {r : ControllerRequest} (h : isNonce r.nonce = true) :
    r.text = "\x7b\"action\":\"".toList ++ r.action.value.toList ++
      "\",\"change_id\":\"".toList ++ (uuidText r.changeId).toList ++
      "\",\"nonce\":\"".toList ++ r.nonce.toList ++ "\"\x7d".toList := by
  unfold ControllerRequest.text
  rw [dumpsString_word (word_action _), dumpsString_word (word_uuidText _),
    dumpsString_word (of_decide_eq_true h).2.2]
  simp

theorem size_encode {r : ControllerRequest} (h : isNonce r.nonce = true) :
    r.encode.size ≤ maxMessageBytes := by
  have hnonce := of_decide_eq_true h
  have hword : ∀ t : List Char, t.all isNonceChar = true → ∀ c ∈ t, c.utf8Size = 1 :=
    fun t ht c hc => (escapeChar_nonceChar (List.all_eq_true.mp ht c hc)).2
  have hliteral : ∀ t : List Char, (t.all fun c => c.utf8Size = 1) = true →
      ∀ c ∈ t, c.utf8Size = 1 :=
    fun t ht c hc => of_decide_eq_true (List.all_eq_true.mp ht c hc)
  have hbytes : ∀ c ∈ r.text, c.utf8Size = 1 := by
    rw [text_eq h]
    simp only [List.mem_append]
    rintro c ((((((hc | hc) | hc) | hc) | hc) | hc) | hc)
    · exact hliteral _ (by decide) c hc
    · exact hword _ (word_action _) c hc
    · exact hliteral _ (by decide) c hc
    · exact hword _ (word_uuidText _) c hc
    · exact hliteral _ (by decide) c hc
    · exact hword _ hnonce.2.2 c hc
    · exact hliteral _ (by decide) c hc
  have haction : r.action.value.toList.length ≤ 19 := by
    cases r.action <;> decide
  have hlength : r.nonce.toList.length ≤ 128 := hnonce.2.1
  have hopen : "\x7b\"action\":\"".toList.length = 11 := by decide
  have hid : "\",\"change_id\":\"".toList.length = 15 := by decide
  have hkey : "\",\"nonce\":\"".toList.length = 11 := by decide
  have hclose : "\"\x7d".toList.length = 2 := by decide
  have huuid := length_uuidText r.changeId
  unfold ControllerRequest.encode maxMessageBytes
  rw [size_ofList hbytes, text_eq h]
  simp only [List.length_append]
  omega

/-- A text is decoded from its bytes. -/
theorem fromUTF8_toUTF8 (s : String) : String.fromUTF8? s.toUTF8 = some s := by
  unfold String.fromUTF8?
  rw [String.toUTF8_eq_toByteArray, dif_pos s.isValidUTF8]
  rfl

theorem scanValue_text (fuel limit : Nat) (value : String) (rest : List Char) :
    scanValue (fuel + 1) limit (dumpsString true value ++ rest) = .ok (.str value, rest) := by
  have hstring := scanString_escape true value.toList rest
  have htext : dumpsString true value ++ rest =
      '"' :: (escape true value.toList ++ '"' :: rest) := by
    unfold dumpsString
    simp
  rw [htext]
  show orDecode (scanOnce 1 ('"' :: (escape true value.toList ++ '"' :: rest))) = _
  rw [scanOnce.eq_def]
  simp only [hstring, Option.map_some, String.ofList_toList]
  rfl

/-- A member whose value is a text, in front of the rest of an object. -/
theorem scanPairs_text (fuel limit : Nat) (key value : String) (rest : List Char) :
    scanPairs (fuel + 2) limit
        (escape true key.toList ++ '"' :: ':' :: (dumpsString true value ++ rest)) =
      closePair (scanPairs (fuel + 1) limit) key (.str value) rest := by
  have hcolon : ∀ t : List Char, skipSpace (':' :: t) = ':' :: t :=
    fun t => List.dropWhile_cons_of_neg (by decide)
  have hquote : skipSpace (dumpsString true value ++ rest) = dumpsString true value ++ rest :=
    List.dropWhile_cons_of_neg (by decide)
  rw [scanPairs]
  simp only [scanString_escape, hcolon, hquote, scanValue_text, String.ofList_toList]

/-- The message, as the scanner takes it apart. -/
theorem text_members (r : ControllerRequest) :
    r.text = '\x7b' :: '"' :: (escape true "action".toList ++ '"' :: ':' ::
      (dumpsString true r.action.value ++ ',' :: '"' :: (escape true "change_id".toList ++ '"' ::
        ':' :: (dumpsString true (uuidText r.changeId) ++ ',' :: '"' ::
          (escape true "nonce".toList ++ '"' :: ':' ::
            (dumpsString true r.nonce ++ ['\x7d'])))))) := by
  have haction : escape true "action".toList = "action".toList := by decide
  have hid : escape true "change_id".toList = "change_id".toList := by decide
  have hnonce : escape true "nonce".toList = "nonce".toList := by decide
  unfold ControllerRequest.text
  rw [haction, hid, hnonce]
  simp

/-- The members of the message, in the order of the text. -/
def ControllerRequest.members (r : ControllerRequest) : List (String × Json) :=
  [("action", .str r.action.value), ("change_id", .str (uuidText r.changeId)),
    ("nonce", .str r.nonce)]

theorem loadsWithin_text (depth : Nat) (r : ControllerRequest) :
    loadsWithin (depth + 1) r.text = .ok (.obj r.members) := by
  have hcomma : ∀ t : List Char, skipSpace (',' :: t) = ',' :: t :=
    fun t => List.dropWhile_cons_of_neg (by decide)
  have hquote : ∀ t : List Char, skipSpace ('"' :: t) = '"' :: t :=
    fun t => List.dropWhile_cons_of_neg (by decide)
  have hopen : ∀ t : List Char, skipSpace ('\x7b' :: t) = '\x7b' :: t :=
    fun t => List.dropWhile_cons_of_neg (by decide)
  have hclose : ∀ t : List Char, skipSpace ('\x7d' :: t) = '\x7d' :: t :=
    fun t => List.dropWhile_cons_of_neg (by decide)
  have hlength : 2 ≤ r.text.length := by
    rw [text_members]
    simp
  obtain ⟨fuel, hfuel⟩ : ∃ n, 2 * r.text.length + 2 = n + 5 := ⟨2 * r.text.length - 3, by omega⟩
  unfold loadsWithin
  rw [hfuel, text_members]
  rw [if_neg (by simp), hopen, scanValue.eq_def]
  simp only [hquote, scanPairs_text, closePair, hcomma, hclose, Except.map]
  rw [if_pos (show skipSpace [] = [] from rfl)]
  rfl

/-- The parser reads back what `encode` writes. -/
theorem parse_encode (depth : Nat) {r : ControllerRequest} (h : isNonce r.nonce = true) :
    ControllerRequest.parse depth r.encode = .ok r := by
  have hdecoded : decodeMessage depth r.encode = .ok (.obj r.members) := by
    refine decodeMessage_ok.mpr ⟨_, fromUTF8_toUTF8 _, ?_⟩
    rw [String.toList_ofList]
    exact loadsWithin_text depth r
  have hmembers : requestMembers (.obj r.members) = .ok r.members := by
    refine requestMembers_ok.mpr ⟨rfl, ?_⟩
    simp [fieldsAre, ControllerRequest.members, requestFields]
  have hget : fieldOf r.members "action" = .str r.action.value ∧
      fieldOf r.members "change_id" = .str (uuidText r.changeId) ∧
      fieldOf r.members "nonce" = .str r.nonce := by
    simp [fieldOf, Json.get, ControllerRequest.members]
  have hvalues : requestValues r.members = .ok (r.action, r.changeId) := by
    refine requestValues_ok.mpr ⟨controllerAction_ok.mpr hget.1, ?_⟩
    exact controllerUuid_ok.mpr ⟨_, hget.2.1, uuidOf_uuidText _⟩
  have hnonce : requestNonce (fieldOf r.members "nonce") = .ok r.nonce :=
    requestNonce_ok.mpr ⟨hget.2.2, h⟩
  unfold ControllerRequest.parse
  rw [if_neg (not_lt.mpr (size_encode h))]
  exact bind_eq_ok.mpr ⟨_, hdecoded, bind_eq_ok.mpr ⟨_, hmembers, bind_eq_ok.mpr ⟨_, hvalues,
    bind_eq_ok.mpr ⟨_, hnonce, rfl⟩⟩⟩⟩

end Encode

/-! ## The parser and the handler, on every input -/

/-- The body that the handler hands to the parser, if it comes so far. -/
def Command.message (token : String) (q : Command) : Option ByteArray :=
  if q.isAddressed token ∧ 1 ≤ q.length ∧ q.length ≤ 2048 then some (q.body q.length.toNat)
  else none

/-- The handler answers exactly when the message it parses, if any, is legible. -/
theorem handle_answers {depth : Nat} {token : String} {held : Bool} {q : Command} :
    Returns (handle depth token held q) ↔
      ∀ payload, q.message token = some payload → LegibleMessage depth payload := by
  unfold handle Command.message
  by_cases haddressed : q.isAddressed token = true
  · rw [if_neg (not_not.mpr haddressed)]
    by_cases hlength : 1 ≤ q.length ∧ q.length ≤ 2048
    · rw [if_neg (not_not.mpr hlength), if_pos ⟨haddressed, hlength⟩]
      simp only [Option.some.injEq, forall_eq']
      rw [← parse_raises]
      cases hparse : ControllerRequest.parse depth (q.body q.length.toNat) with
      | ok r =>
        refine iff_of_true ?_ (only_ok r)
        cases held
        · exact returns_ok _
        · exact returns_ok _
      | error e => cases e <;> simp
    · rw [if_pos hlength, if_neg fun h => hlength h.2]
      simp
  · rw [if_pos haddressed, if_neg fun h => haddressed h.1]
    simp

/-- A request of a backup. -/
def sampleRequest : ControllerRequest :=
  ⟨.createBackup, .zero, "AAAAAAAAAAAAAAAAAAAAAAAAAAAAAAAAAAAAAAAAAAA"⟩

/-- A message up to its action, whose `change_id` is neither a text nor `null`. -/
def isUnread : Except ScanFault Json → Bool
  | .ok (.obj members) =>
    fieldsAre members requestFields ∧
      controllerAction (fieldOf members "action") = .ok .createBackup ∧
      ¬ readsAsUuid (fieldOf members "change_id")
  | _ => false

theorem not_legible_of_unread {depth : Nat} {text : String}
    (hsize : text.toUTF8.size ≤ maxMessageBytes)
    (h : isUnread (loadsWithin (depth + 1) text.toList) = true) :
    ¬ LegibleMessage depth text.toUTF8 := by
  intro hlegible
  have hread := (hlegible hsize text (fromUTF8_toUTF8 text)).2
  unfold isUnread at h
  split at h
  next members hloads =>
    obtain ⟨hfields, haction, hunread⟩ := of_decide_eq_true h
    exact hunread (hread members _ hloads hfields haction)
  next => cases h

/-- A message whose `change_id` is a number. -/
def numberedMessage : String :=
  "\x7b\"action\":\"create_backup\",\"change_id\":1,\"nonce\":\"\"\x7d"

/-- It comes from an authenticated caller. -/
def numberedCommand : Command where
  path := "/v1/commands"
  authorization := some "Bearer token"
  contentType := "application/json"
  contentLength := some "51"
  body _ := numberedMessage.toUTF8

end LocalRag.Supervisor
