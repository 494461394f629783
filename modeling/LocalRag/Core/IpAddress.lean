import LocalRag.Core.Json
import Mathlib.Algebra.GroupWithZero.Nat

/-!
# Python's `ipaddress`

`ipaddress.ip_address` of a text, `version` and `is_loopback`. An address is its
number, with the scope of a scoped IPv6 address beside it: `str` writes one text for
each of these, so two addresses have one text exactly when they are equal here.

Mirroring notes. `is_loopback` is that of Python 3.12: an IPv4-mapped address is no
loopback address.
-/

namespace LocalRag.Core

inductive IpAddress where
  | v4 (ip : Nat)
  | v6 (ip : Nat) (scope : Option (List Char))
deriving Repr, DecidableEq

namespace IpAddress

/-- `_parse_octet`. -/
def octet (s : List Char) : Option Nat :=
  if s = [] ∨ ¬ s.all Char.isDigit ∨ s.length > 3 then none
  else if s ≠ ['0'] ∧ s.head? = some '0' then none
  else
    let n := Nat.ofDigitChars 10 s 0
    if n > 255 then none else some n

/-- The number whose digits these are, the first one the highest. -/
def ofDigits (base : Nat) (digits : List Nat) : Nat := digits.foldl (fun n d => base * n + d) 0

/-- `IPv4Address(s)`. -/
def parseV4 (s : List Char) : Option Nat :=
  match s.splitOn '.' with
  | [a, b, c, d] =>
    match octet a, octet b, octet c, octet d with
    | some a, some b, some c, some d => some (ofDigits 256 [a, b, c, d])
    | _, _, _, _ => none
  | _ => none

/-- `_parse_hextet`. -/
def hextet (s : List Char) : Option Nat :=
  if s = [] ∨ s.length > 4 then none
  else (s.mapM hexValue).map (ofDigits 16)

/-- A dotted last part, as two hextets. -/
def withoutDotted (parts : List (List Char)) : Option (List (List Char)) :=
  match parts.getLast? with
  | none => none
  | some last =>
    if '.' ∈ last then
      (parseV4 last).map fun n =>
        parts.dropLast ++ [Nat.toDigits 16 (n / 65536), Nat.toDigits 16 (n % 65536)]
    else some parts

/-- Where a `::` is, the ends disregarded. -/
def skips (parts : List (List Char)) : List Nat :=
  (List.range (parts.length - 1)).filter fun i => 0 < i ∧ parts[i]? = some []

/-- The parts above the `::`: it may be the front itself. -/
def above (parts : List (List Char)) (i : Nat) : Option (List (List Char)) :=
  if parts.head? = some [] then if i = 1 then some [] else none else some (parts.take i)

/-- The parts below the `::`: it may be the end itself. -/
def below (parts : List (List Char)) (i : Nat) : Option (List (List Char)) :=
  if parts.getLast? = some [] then if i + 2 = parts.length then some [] else none
  else some (parts.drop (i + 1))

/-- The number of an address with a `::` there. -/
def skipping (parts : List (List Char)) (i : Nat) : Option Nat :=
  match above parts i, below parts i with
  | some high, some low =>
    if high.length + low.length ≥ 8 then none
    else
      match high.mapM hextet, low.mapM hextet with
      | some hs, some ls =>
        some (ofDigits 65536 (hs ++ List.replicate (8 - (high.length + low.length)) 0 ++ ls))
      | _, _ => none
  | _, _ => none

/-- `_ip_int_from_string`. -/
def numberV6 (s : List Char) : Option Nat :=
  let parts := s.splitOn ':'
  if parts.length < 3 then none
  else
    match withoutDotted parts with
    | none => none
    | some parts =>
      if parts.length > 9 then none
      else
        match skips parts with
        | [] => if parts.length = 8 then (parts.mapM hextet).map (ofDigits 65536) else none
        | [i] => skipping parts i
        | _ => none

/-- `_split_scope_id`. -/
def splitScope (s : List Char) : Option (List Char × Option (List Char)) :=
  match s.splitOn '%' with
  | [address] => some (address, none)
  | [address, scope] => if scope = [] then none else some (address, some scope)
  | _ => none

/-- `IPv6Address(s)`. -/
def parseV6 (s : List Char) : Option IpAddress :=
  match splitScope s with
  | none => none
  | some (address, scope) => (numberV6 address).map fun ip => .v6 ip scope

/-- `ip_address(s)`; `none` is a `ValueError`. -/
def parse (s : List Char) : Option IpAddress :=
  if '/' ∈ s then none
  else
    match parseV4 s with
    | some ip => some (.v4 ip)
    | none => parseV6 s

def version : IpAddress → Nat
  | .v4 _ => 4
  | .v6 _ _ => 6

/-- `is_loopback`. -/
def isLoopback : IpAddress → Bool
  | .v4 ip => ip / 2 ^ 24 = 127
  | .v6 ip _ => ip = 1

end IpAddress

end LocalRag.Core
