import LocalRag.Core.IpAddress
import LocalRag.Storage.Ranges

/-!
# Python's `urlsplit`

`urllib.parse.urlsplit` of a text, and what the manifest loader reads of the result:
`scheme`, `hostname`, `port`, `username` and `fragment`.

Two of these raise. `urlsplit` refuses a host whose brackets are not those of an IPv6 address,
and a host that a compatibility normalization would take apart; `port` refuses what is no
number up to 65535, and is not asked before that (`Url.port`).

Mirroring notes. `none` of `urlsplit` and of `port` is a `ValueError`. The lower case of a
host and the normal form are arguments. The brackets are checked as Python 3.12 does.
-/

namespace LocalRag.Supervisor

open LocalRag.Core
open Storage (intMaxStrDigits)

/-- `text.partition(c)[0]`. -/
def before (c : Char) (text : List Char) : List Char := text.takeWhile (· ≠ c)

/-- `text.partition(c)[2]`. -/
def after (c : Char) (text : List Char) : List Char := (text.dropWhile (· ≠ c)).tail

/-- `SplitResult`. -/
structure Url where
  scheme : List Char
  netloc : List Char
  path : List Char
  query : List Char
  fragment : List Char
deriving Repr, DecidableEq

namespace Url

/-! ## The parts -/

/-- `scheme_chars`. -/
def isSchemeChar (c : Char) : Bool := c.isAlphanum ∨ c ∈ ['+', '-', '.']

/-- The scheme, in lower case, and what follows its colon. -/
def splitScheme (text : List Char) : List Char × List Char :=
  let scheme := before ':' text
  if ':' ∈ text ∧ scheme.head?.any Char.isAlpha ∧ scheme.all isSchemeChar then
    (scheme.map Char.toLower, after ':' text)
  else ([], text)

/-- `_splitnetloc`, behind the two slashes. -/
def splitNetloc (text : List Char) : List Char × List Char :=
  if text.take 2 = ['/', '/'] then
    ((text.drop 2).takeWhile (· ∉ ['/', '?', '#']), (text.drop 2).dropWhile (· ∉ ['/', '?', '#']))
  else ([], text)

/-- `\Av[a-fA-F0-9]+\..+\Z`; no line break is left in a URL. -/
def isIpFuture (host : List Char) : Bool :=
  let digits := host.tail.takeWhile fun c => (hexValue c).isSome
  let rest := host.tail.dropWhile fun c => (hexValue c).isSome
  digits ≠ [] ∧ rest.head? = some '.' ∧ rest.tail ≠ []

/-- `_check_bracketed_host`. -/
def bracketedHost (host : List Char) : Bool :=
  if host.head? = some 'v' then isIpFuture host
  else (IpAddress.parse host).any fun ip => ip.version = 6

/-- The brackets of a network location. -/
def checkBrackets (netloc : List Char) : Bool :=
  if '[' ∈ netloc ∧ ']' ∈ netloc then bracketedHost (before ']' (after '[' netloc))
  else '[' ∉ netloc ∧ ']' ∉ netloc

/-- `_checknetloc`. -/
def checkNetloc (nfkc : String → String) (netloc : List Char) : Bool :=
  let text := netloc.filter (· ∉ ['@', ':', '#', '?'])
  let normal := (nfkc (String.ofList text)).toList
  (netloc.all fun c => c.toNat < 128) ∨ normal = text ∨
    normal.all (· ∉ ['/', '?', '#', '@', ':'])

/-- `urlsplit(url)`. -/
def urlsplit (nfkc : String → String) (url : String) : Option Url :=
  let text := (url.toList.dropWhile fun c => c.toNat ≤ 0x20).filter (· ∉ ['\t', '\r', '\n'])
  let scheme := splitScheme text
  let netloc := splitNetloc scheme.2
  let rest := before '#' netloc.2
  if checkBrackets netloc.1 ∧ checkNetloc nfkc netloc.1 then
    some ⟨scheme.1, netloc.1, before '?' rest, after '?' rest, after '#' netloc.2⟩
  else none

/-! ## What is read of them -/

/-- The network location without the user. -/
def hostinfo (u : Url) : List Char := u.netloc.rtakeWhile (· ≠ '@')

/-- `_hostinfo`: the host, and the text of the port. -/
def hostAndPort (u : Url) : List Char × List Char :=
  if '[' ∈ u.hostinfo then
    let bracketed := after '[' u.hostinfo
    (before ']' bracketed, after ':' (after ']' bracketed))
  else (before ':' u.hostinfo, after ':' u.hostinfo)

/-- `hostname`: the zone of an address keeps its case. -/
def hostname (lower : String → String) (u : Url) : Option String :=
  let host := u.hostAndPort.1
  if host = [] then none
  else some (lower (String.ofList (before '%' host)) ++ String.ofList (host.dropWhile (· ≠ '%')))

/-- `username is not None`; a password comes with one. -/
def hasUser (u : Url) : Bool := '@' ∈ u.netloc

/-- `port`: `none` is a `ValueError`, and the inner one is `None`. -/
def port (u : Url) : Option (Option Nat) :=
  let text := u.hostAndPort.2
  let number := Nat.ofDigitChars 10 text 0
  if text = [] then some none
  else if text.all Char.isDigit ∧ text.length ≤ intMaxStrDigits ∧ number ≤ 65535 then
    some (some number)
  else none

end Url

end LocalRag.Supervisor
