import LocalRag.Supervisor.Url

/-!
# `PureWindowsPath`

The paths of the manifest: `PureWindowsPath` of a text, its `name`, `parent`, `parts` and
`str`, the comparison of two, and `/` with a plain name. A path is its drive, its root and
its components, and a text is taken apart once, so the paths that print alike may differ
here; the comparison reads what is printed, as Python's does.

Mirroring notes. These are the paths of Python 3.12. The lower case is an argument, and
the prefix of a UNC device is compared by its ASCII letters, the only ones it has in capitals.
-/

namespace LocalRag.Supervisor

/-- `drive`, `root` and `_tail`. -/
structure WindowsPath where
  drive : List Char
  root : List Char
  tail : List (List Char)
deriving Repr, DecidableEq

namespace WindowsPath

/-- `text.replace("/", "\\")`. -/
def turnSlashes (text : List Char) : List Char := text.map fun c => if c = '/' then '\\' else c

/-- `text.find("\\", start)`. -/
def findSlash (text : List Char) (start : Nat) : Option Nat :=
  ((turnSlashes text).drop start).findIdx? (· = '\\') |>.map (· + start)

/-- `\\?\UNC\`. -/
def uncMark : List Char := ['\\', '\\', '?', '\\', 'U', 'N', 'C', '\\']

/-- `ntpath.splitroot`: drive, root and the rest. -/
def splitRoot (text : List Char) : List Char × List Char × List Char :=
  let normal := turnSlashes text
  if normal.head? = some '\\' then
    if normal[1]? = some '\\' then
      -- a share, `\\server\share`, or a device, `\\?\UNC\server\share`
      let start := if (normal.take 8).map Char.toUpper = uncMark then 8 else 2
      match findSlash text start with
      | none => (text, [], [])
      | some index =>
        match findSlash text (index + 1) with
        | none => (text, [], [])
        | some index => (text.take index, (text.drop index).take 1, text.drop (index + 1))
    else ([], text.take 1, text.drop 1)
  else if normal[1]? = some ':' then
    if normal[2]? = some '\\' then (text.take 2, (text.drop 2).take 1, text.drop 3)
    else (text.take 2, [], text.drop 2)
  else ([], [], text)

/-- `part in "?."`. -/
def isDeviceMark (part : List Char) : Bool :=
  part = [] ∨ part = ['?'] ∨ part = ['.'] ∨ part = ['?', '.']

/-- A share without its root gets one: `drv_parts` has four or six parts. -/
def shareRoot (drive root : List Char) : List Char :=
  let parts := drive.splitOn '\\'
  if root = [] ∧ drive.head? = some '\\' ∧ drive.getLast? ≠ some '\\' ∧
      ((parts.length = 4 ∧ ¬ parts[2]?.any isDeviceMark) ∨
        parts.length = 6) then ['\\']
  else root

/-- `PureWindowsPath(text)`. -/
def parse (text : List Char) : WindowsPath :=
  let split := splitRoot (turnSlashes text)
  ⟨split.1, shareRoot split.1 split.2.1, (split.2.2.splitOn '\\').filter fun part =>
    part ≠ [] ∧ part ≠ ['.']⟩

/-- `ntpath.join(text, name)`, of a name without a drive and a root. -/
def join (text name : List Char) : List Char :=
  let split := splitRoot text
  let rest := split.2.2 ++
    (if split.2.2.getLast?.all (· ∈ ['\\', '/']) then [] else ['\\']) ++ name
  if rest ≠ [] ∧ split.2.1 = [] ∧ ¬ split.1.getLast?.all (· ∈ [':', '\\', '/']) then
    split.1 ++ '\\' :: rest
  else split.1 ++ split.2.1 ++ rest

def name (p : WindowsPath) : List Char := p.tail.getLast?.getD []

def parent (p : WindowsPath) : WindowsPath := { p with tail := p.tail.dropLast }

def parts (p : WindowsPath) : List (List Char) :=
  if p.drive ++ p.root = [] then p.tail else (p.drive ++ p.root) :: p.tail

/-- `str(p)`. -/
def str (p : WindowsPath) : List Char :=
  let tail :=
    if p.drive ++ p.root = [] ∧ p.tail.head?.any fun part => (splitRoot part).1 ≠ [] then
      ['.'] :: p.tail
    else p.tail
  let text := p.drive ++ p.root ++ ['\\'].intercalate tail
  if text = [] then ['.'] else text

/-- `p == q`. -/
def same (lower : String → String) (p q : WindowsPath) : Bool :=
  lower (String.ofList p.str) = lower (String.ofList q.str)

end WindowsPath

end LocalRag.Supervisor
