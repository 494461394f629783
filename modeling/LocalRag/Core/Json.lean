import Mathlib.Tactic.Common

/-!
# Python's `json`

`json.dumps` with its default separators, with and without `ensure_ascii`, and
`json.loads`: `dumps` and `loads` over a `Json` tree. `Core.RoundTrip` has what is
proved about the two.

Mirroring notes.
* An `obj` keeps its members in the order they stand in the text. A Python `dict`
  keeps the last value of a key: `Json.get` reads it that way.
* No value of a `float` is modelled: the literal is kept, `NaN` and the infinities
  among them.
* A lone surrogate (`\ud800`) is a `str` of length one in Python and no character
  here: the scanner refuses it. No encoder of scalar values writes one.
* `scanOnce` counts down from the length of the text, and each call has read a
  character more than the one it is called from.
-/

namespace LocalRag.Core

inductive Json where
  | null
  | bool (b : Bool)
  | int (n : Int)
  | float (literal : List Char)
  | str (s : String)
  | arr (elements : List Json)
  | obj (members : List (String × Json))

/-! ## `json.dumps` -/

/-- `\uXXXX`. -/
def unicodeEscape (n : Nat) : List Char :=
  ['\\', 'u', Nat.digitChar (n / 4096 % 16), Nat.digitChar (n / 256 % 16),
    Nat.digitChar (n / 16 % 16), Nat.digitChar (n % 16)]

/-- The escapes of one letter. -/
def shortEscape (c : Char) : Option Char :=
  if c = '"' then some '"'
  else if c = '\\' then some '\\'
  else if c = '\n' then some 'n'
  else if c = '\r' then some 'r'
  else if c = '\t' then some 't'
  else if c = '\x0c' then some 'f'
  else if c = '\x08' then some 'b'
  else none

/-- One character of a string literal. -/
def escapeChar (ensureAscii : Bool) (c : Char) : List Char :=
  match shortEscape c with
  | some e => ['\\', e]
  | none =>
    if c.toNat < 0x20 ∨ (ensureAscii ∧ 0x7f ≤ c.toNat) then
      if c.toNat < 0x10000 then unicodeEscape c.toNat
      else
        unicodeEscape (0xd800 + (c.toNat - 0x10000) / 0x400) ++
          unicodeEscape (0xdc00 + (c.toNat - 0x10000) % 0x400)
    else [c]

/-- The inside of a string literal. -/
def escape (ensureAscii : Bool) (s : List Char) : List Char := s.flatMap (escapeChar ensureAscii)

def dumpsString (ensureAscii : Bool) (s : String) : List Char :=
  '"' :: escape ensureAscii s.toList ++ ['"']

/-- `int.__repr__`. -/
def dumpsInt (n : Int) : List Char :=
  if n < 0 then '-' :: Nat.toDigits 10 n.natAbs else Nat.toDigits 10 n.natAbs

mutual
/-- `json.dumps`. -/
def dumps (ensureAscii : Bool) : Json → List Char
  | .null => ['n', 'u', 'l', 'l']
  | .bool true => ['t', 'r', 'u', 'e']
  | .bool false => ['f', 'a', 'l', 's', 'e']
  | .int n => dumpsInt n
  | .float literal => literal
  | .str s => dumpsString ensureAscii s
  | .arr [] => ['[', ']']
  | .arr (x :: rest) => '[' :: dumps ensureAscii x ++ dumpsElements ensureAscii rest
  | .obj [] => ['{', '}']
  | .obj ((key, value) :: rest) =>
    '{' :: dumpsString ensureAscii key ++ ':' :: ' ' :: dumps ensureAscii value ++
      dumpsMembers ensureAscii rest

/-- What follows the first element. -/
def dumpsElements (ensureAscii : Bool) : List Json → List Char
  | [] => [']']
  | x :: rest => ',' :: ' ' :: dumps ensureAscii x ++ dumpsElements ensureAscii rest

/-- What follows the first member. -/
def dumpsMembers (ensureAscii : Bool) : List (String × Json) → List Char
  | [] => ['}']
  | (key, value) :: rest =>
    ',' :: ' ' :: dumpsString ensureAscii key ++ ':' :: ' ' :: dumps ensureAscii value ++
      dumpsMembers ensureAscii rest
end

/-! ## `json.loads` -/

def hexValue (c : Char) : Option Nat :=
  if '0' ≤ c ∧ c ≤ '9' then some (c.toNat - '0'.toNat)
  else if 'a' ≤ c ∧ c ≤ 'f' then some (c.toNat - 'a'.toNat + 10)
  else if 'A' ≤ c ∧ c ≤ 'F' then some (c.toNat - 'A'.toNat + 10)
  else none

/-- `_decode_uXXXX`. -/
def decodeHex (a b c d : Char) : Option Nat :=
  match hexValue a, hexValue b, hexValue c, hexValue d with
  | some a, some b, some c, some d => some (4096 * a + 256 * b + 16 * c + d)
  | _, _, _, _ => none

/-- `BACKSLASH`. -/
def unescapeChar (c : Char) : Option Char :=
  if c = '"' then some '"'
  else if c = '\\' then some '\\'
  else if c = '/' then some '/'
  else if c = 'b' then some '\x08'
  else if c = 'f' then some '\x0c'
  else if c = 'n' then some '\n'
  else if c = 'r' then some '\r'
  else if c = 't' then some '\t'
  else none

/-- One more character of the string, and what is left of the text. -/
def consText (c : Char) (scanned : List Char × List Char) : List Char × List Char :=
  (c :: scanned.1, scanned.2)

/-- `scanstring` with `strict`, after the opening quote. -/
def scanString : List Char → Option (List Char × List Char)
  | [] => none
  | '"' :: rest => some ([], rest)
  | '\\' :: 'u' :: a :: b :: c :: d :: rest =>
    match decodeHex a b c d with
    | none => none
    | some high =>
      if 0xd800 ≤ high ∧ high < 0xdc00 then
        match rest with
        | '\\' :: 'u' :: a :: b :: c :: d :: rest =>
          match decodeHex a b c d with
          | none => none
          | some low =>
            if 0xdc00 ≤ low ∧ low < 0xe000 then
              (scanString rest).map
                (consText (Char.ofNat (0x10000 + (high - 0xd800) * 0x400 + (low - 0xdc00))))
            else none
        | _ => none
      else if 0xdc00 ≤ high ∧ high < 0xe000 then none
      else (scanString rest).map (consText (Char.ofNat high))
  | ['\\'] => none
  | '\\' :: c :: rest =>
    match unescapeChar c with
    | none => none
    | some e => (scanString rest).map (consText e)
  | c :: rest => if c.toNat < 0x20 then none else (scanString rest).map (consText c)

/-- `WHITESPACE`. -/
def skipSpace (s : List Char) : List Char :=
  s.dropWhile fun c => c = ' ' ∨ c = '\t' ∨ c = '\n' ∨ c = '\r'

/-- One or more digits, after a prefix. -/
def scanDigits (before s : List Char) : Option (List Char × List Char) :=
  if s.takeWhile Char.isDigit = [] then none
  else some (before ++ s.takeWhile Char.isDigit, s.dropWhile Char.isDigit)

/-- `0|[1-9][0-9]*`. -/
def scanNatural : List Char → Option (List Char × List Char)
  | '0' :: rest => some (['0'], rest)
  | s => scanDigits [] s

/-- `(\.[0-9]+)?`. -/
def scanFraction : List Char → List Char × List Char
  | '.' :: rest => (scanDigits ['.'] rest).getD ([], '.' :: rest)
  | s => ([], s)

/-- `([eE][-+]?[0-9]+)?`. -/
def scanExponent : List Char → List Char × List Char
  | e :: rest =>
    if e = 'e' ∨ e = 'E' then
      match rest with
      | '+' :: digits => (scanDigits [e, '+'] digits).getD ([], e :: rest)
      | '-' :: digits => (scanDigits [e, '-'] digits).getD ([], e :: rest)
      | digits => (scanDigits [e] digits).getD ([], e :: rest)
    else ([], e :: rest)
  | [] => ([], [])

/-- `match_number`, after the sign. -/
def scanNumber (negative : Bool) (s : List Char) : Option (Json × List Char) :=
  (scanNatural s).map fun natural =>
    let fraction := scanFraction natural.2
    let exponent := scanExponent fraction.2
    let n : Int := Nat.ofDigitChars 10 natural.1 0
    if fraction.1 = [] ∧ exponent.1 = [] then (.int (if negative then -n else n), natural.2)
    else (.float ((if negative then ['-'] else []) ++ natural.1 ++ fraction.1 ++ exponent.1),
      exponent.2)

/-- After the value of a member: the closing brace, or the key of the next one. -/
def closeMember (next : List Char → Option (List (String × Json) × List Char)) (key : String)
    (value : Json) (rest : List Char) : Option (List (String × Json) × List Char) :=
  match skipSpace rest with
  | '}' :: rest => some ([(key, value)], rest)
  | ',' :: rest =>
    match skipSpace rest with
    | '"' :: rest => (next rest).map fun scanned => ((key, value) :: scanned.1, scanned.2)
    | _ => none
  | _ => none

/-- After an element: the closing bracket, or the next one. -/
def closeElement (next : List Char → Option (List Json × List Char)) (x : Json)
    (rest : List Char) : Option (List Json × List Char) :=
  match skipSpace rest with
  | ']' :: rest => some ([x], rest)
  | ',' :: rest => (next (skipSpace rest)).map fun scanned => (x :: scanned.1, scanned.2)
  | _ => none

mutual
/-- `scan_once`. -/
def scanOnce : Nat → List Char → Option (Json × List Char)
  | 0, _ => none
  | fuel + 1, s =>
    match s with
    | '"' :: rest => (scanString rest).map fun scanned => (.str (String.ofList scanned.1), scanned.2)
    | '{' :: rest =>
      match skipSpace rest with
      | '}' :: rest => some (.obj [], rest)
      | '"' :: rest => (scanMembers fuel rest).map fun scanned => (.obj scanned.1, scanned.2)
      | _ => none
    | '[' :: rest =>
      match skipSpace rest with
      | ']' :: rest => some (.arr [], rest)
      | rest => (scanElements fuel rest).map fun scanned => (.arr scanned.1, scanned.2)
    | 'n' :: 'u' :: 'l' :: 'l' :: rest => some (.null, rest)
    | 't' :: 'r' :: 'u' :: 'e' :: rest => some (.bool true, rest)
    | 'f' :: 'a' :: 'l' :: 's' :: 'e' :: rest => some (.bool false, rest)
    | 'N' :: 'a' :: 'N' :: rest => some (.float ['N', 'a', 'N'], rest)
    | 'I' :: 'n' :: 'f' :: 'i' :: 'n' :: 'i' :: 't' :: 'y' :: rest =>
      some (.float ['I', 'n', 'f', 'i', 'n', 'i', 't', 'y'], rest)
    | '-' :: 'I' :: 'n' :: 'f' :: 'i' :: 'n' :: 'i' :: 't' :: 'y' :: rest =>
      some (.float ['-', 'I', 'n', 'f', 'i', 'n', 'i', 't', 'y'], rest)
    | '-' :: rest => scanNumber true rest
    | s => scanNumber false s

/-- The members of an object, after the opening quote of a key. -/
def scanMembers : Nat → List Char → Option (List (String × Json) × List Char)
  | 0, _ => none
  | fuel + 1, s =>
    match scanString s with
    | none => none
    | some (key, rest) =>
      match skipSpace rest with
      | ':' :: rest =>
        match scanOnce fuel (skipSpace rest) with
        | none => none
        | some (value, rest) => closeMember (scanMembers fuel) (String.ofList key) value rest
      | _ => none

/-- The elements of an array. -/
def scanElements : Nat → List Char → Option (List Json × List Char)
  | 0, _ => none
  | fuel + 1, s =>
    match scanOnce fuel s with
    | none => none
    | some (x, rest) => closeElement (scanElements fuel) x rest
end

/-- `json.loads`; `none` is a `JSONDecodeError`. -/
def loads (s : List Char) : Option Json :=
  if s.head? = some '\ufeff' then none
  else
    match scanOnce (s.length + 1) (skipSpace s) with
    | some (value, rest) => if skipSpace rest = [] then some value else none
    | none => none

/-- `dict.get`: the last member of that key. -/
def Json.get (members : List (String × Json)) (key : String) : Option Json :=
  (members.reverse.find? fun member => member.1 = key).map (·.2)

end LocalRag.Core
