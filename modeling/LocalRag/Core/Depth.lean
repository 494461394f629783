import LocalRag.Core.RoundTrip
import LocalRag.Core.Run

/-!
# Python's `json.loads`, with the recursion it needs

The scanner of `Core.Json` again, inside an interpreter that lets it open so many
arrays and objects in each other and then raises `RecursionError`.

Mirroring notes. Of two calls of the scanners that follow each other one has read a
character, so twice the length of the text is fuel enough. The limit is the number of
containers that may be open at once: the C scanner asks `Py_EnterRecursiveCall` at every
`[` and `{`, before it reads on. A text of digits that `int` refuses for its length is
none of the outcomes here.
-/

namespace LocalRag.Core

inductive ScanFault where
  /-- `JSONDecodeError`. -/
  | decode
  /-- `RecursionError`. -/
  | recursion
deriving Repr, DecidableEq

/-- The outcome of a scan that opens no container. -/
def orDecode {α : Type} : Option α → Except ScanFault α
  | some a => .ok a
  | none => .error .decode

/-- `closeMember`, with faults. -/
def closePair (next : List Char → Except ScanFault (List (String × Json) × List Char))
    (key : String) (value : Json) (rest : List Char) :
    Except ScanFault (List (String × Json) × List Char) :=
  match skipSpace rest with
  | '}' :: rest => .ok ([(key, value)], rest)
  | ',' :: rest =>
    match skipSpace rest with
    | '"' :: rest => (next rest).map fun scanned => ((key, value) :: scanned.1, scanned.2)
    | _ => .error .decode
  | _ => .error .decode

/-- `closeElement`, with faults. -/
def closeItem (next : List Char → Except ScanFault (List Json × List Char)) (x : Json)
    (rest : List Char) : Except ScanFault (List Json × List Char) :=
  match skipSpace rest with
  | ']' :: rest => .ok ([x], rest)
  | ',' :: rest => (next (skipSpace rest)).map fun scanned => (x :: scanned.1, scanned.2)
  | _ => .error .decode

mutual
/-- `scan_once`, with this many containers left to open. -/
def scanValue : Nat → Nat → List Char → Except ScanFault (Json × List Char)
  | 0, _, _ => .error .decode
  | fuel + 1, limit, s =>
    match s, limit with
    | '{' :: _, 0 => .error .recursion
    | '[' :: _, 0 => .error .recursion
    | '{' :: rest, limit + 1 =>
      match skipSpace rest with
      | '}' :: rest => .ok (.obj [], rest)
      | '"' :: rest =>
        (scanPairs fuel limit rest).map fun scanned => (.obj scanned.1, scanned.2)
      | _ => .error .decode
    | '[' :: rest, limit + 1 =>
      match skipSpace rest with
      | ']' :: rest => .ok (.arr [], rest)
      | rest => (scanItems fuel limit rest).map fun scanned => (.arr scanned.1, scanned.2)
    | s, _ => orDecode (scanOnce 1 s)

/-- The members of an object, after the opening quote of a key. -/
def scanPairs : Nat → Nat → List Char → Except ScanFault (List (String × Json) × List Char)
  | 0, _, _ => .error .decode
  | fuel + 1, limit, s =>
    match scanString s with
    | none => .error .decode
    | some (key, rest) =>
      match skipSpace rest with
      | ':' :: rest =>
        match scanValue fuel limit (skipSpace rest) with
        | .error e => .error e
        | .ok (value, rest) => closePair (scanPairs fuel limit) (String.ofList key) value rest
      | _ => .error .decode

/-- The elements of an array. -/
def scanItems : Nat → Nat → List Char → Except ScanFault (List Json × List Char)
  | 0, _, _ => .error .decode
  | fuel + 1, limit, s =>
    match scanValue fuel limit s with
    | .error e => .error e
    | .ok (x, rest) => closeItem (scanItems fuel limit) x rest
end

/-- `json.loads`, in an interpreter with that limit. -/
def loadsWithin (limit : Nat) (s : List Char) : Except ScanFault Json :=
  if s.head? = some '\ufeff' then .error .decode
  else
    match scanValue (2 * s.length + 2) limit (skipSpace s) with
    | .error e => .error e
    | .ok (value, rest) => if skipSpace rest = [] then .ok value else .error .decode

end LocalRag.Core
