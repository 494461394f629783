import LocalRag.Core.RoundTrip
import LocalRag.Runtime.Protocol

/-!
# The record in the ownership file

Mirrors what `SingleInstanceOwnership` (`app/runtime/ownership.py`) writes into its file
and how it reads the file back: the payload of `acquire`, `_read_pid`, and the check of
`release`.

A record is read back by both (`readPid_recordText`, `releaseCheck_recordText`), and so are
the empty file and the single placeholder byte. Two placeholder bytes are not
(`readPid_placeholders`), whatever follows them.

Mirroring notes.
* All that is written is ASCII, so a byte is a character and `decode` never fails.
* `acquired_at` is a time since the epoch: its `repr` is digits, a point, digits.
-/

namespace LocalRag.Runtime

open LocalRag.Core

/-- `os.getpid()`. -/
abbrev Pid := { n : Nat // 0 < n }

/-- What `repr` writes for the clock's `float`. -/
structure Timestamp where
  whole : Nat
  fraction : List Char
  fraction_ne : fraction ≠ []
  digits : ∀ c ∈ fraction, c.isDigit = true

def Timestamp.literal (t : Timestamp) : List Char := Nat.toDigits 10 t.whole ++ '.' :: t.fraction

structure OwnerRecord where
  instanceId : UuidHex
  pid : Pid
  acquiredAt : Timestamp

/-- `json.dumps` with `separators=(",", ":")`. -/
def recordText (r : OwnerRecord) : List Char :=
  '\x7b' :: dumpsString true "instance_id" ++ ':' :: dumpsString true (String.ofList r.instanceId.digits) ++
    ',' :: dumpsString true "pid" ++ ':' :: dumpsInt r.pid.val ++
    ',' :: dumpsString true "acquired_at" ++ ':' :: r.acquiredAt.literal ++ ['}']

inductive OwnershipFault where
  /-- `OwnershipError`. -/
  | ownership (message : String)
  /-- `AttributeError`: the record is no object. -/
  | attribute
deriving Repr, DecidableEq

/-- `_read_pid`. -/
def readPid (raw : List Char) : Except OwnershipFault (Option Int) :=
  if raw = [] ∨ raw = ['\x00'] then .ok none
  else
    match loads raw with
    | none => .error (.ownership "ownership record is invalid")
    | some (.obj payload) =>
      match Json.get payload "pid" with
      | some (.int pid) =>
        if pid ≤ 0 then .error (.ownership "ownership record has an invalid pid") else .ok (some pid)
      | _ => .error (.ownership "ownership record has an invalid pid")
    | some _ => .error .attribute

/-- What `release` asks of the file before it unlocks it. -/
def releaseCheck (instanceId : UuidHex) (raw : List Char) : Except OwnershipFault Unit :=
  match loads raw with
  | none => .error (.ownership "ownership record was corrupted")
  | some (.obj payload) =>
    match Json.get payload "instance_id" with
    | some (.str written) =>
      if written = String.ofList instanceId.digits then .ok ()
      else .error (.ownership "ownership record no longer belongs to this instance")
    | _ => .error (.ownership "ownership record no longer belongs to this instance")
  | some _ => .error .attribute

/-! ## A record is read back -/

/-- The members of a record. -/
def OwnerRecord.members (r : OwnerRecord) : List (String × Json) :=
  [("instance_id", .str (String.ofList r.instanceId.digits)), ("pid", .int r.pid.val),
    ("acquired_at", .float r.acquiredAt.literal)]

theorem scanOnce_literal (t : Timestamp) (fuel : Nat) {rest : List Char} (h : Follows rest) :
    scanOnce (fuel + 1) (t.literal ++ rest) = some (.float t.literal, rest) := by
  have hnumber := scanNumber_fraction t.whole t.fraction_ne t.digits h
  unfold Timestamp.literal
  rw [List.append_assoc, List.cons_append]
  cases hwhole : Nat.toDigits 10 t.whole with
  | nil => exact absurd hwhole Nat.toDigits_ne_nil
  | cons c digits =>
    have hc := isDigit_toDigits t.whole c (by simp [hwhole])
    rw [hwhole] at hnumber
    rw [List.cons_append, (scanOnce_digit hc fuel _).1]
    exact hnumber

theorem skipSpace_digits {digits rest : List Char} (hne : digits ≠ [])
    (h : ∀ c ∈ digits, c.isDigit = true) : skipSpace (digits ++ rest) = digits ++ rest := by
  cases digits with
  | nil => exact absurd rfl hne
  | cons c digits =>
    have hc := h c List.mem_cons_self
    unfold skipSpace
    rw [List.cons_append, List.dropWhile_cons_of_neg]
    intro hspace
    rcases of_decide_eq_true hspace with rfl | rfl | rfl | rfl <;> exact absurd hc (by decide)

/-- A member of a compact object that is not the last. -/
theorem scanMembers_compact (fuel : Nat) (key : String) {text rest : List Char} {value : Json}
    (hspace : skipSpace text = text)
    (hvalue : scanOnce fuel text = some (value, ',' :: '"' :: rest)) :
    scanMembers (fuel + 1) (escape true key.toList ++ '"' :: ':' :: text) =
      (scanMembers fuel rest).map fun scanned => ((key, value) :: scanned.1, scanned.2) := by
  rw [scanMembers_member, hspace, hvalue]
  rfl

theorem scanOnce_dumpsString (fuel : Nat) (s : String) (rest : List Char) :
    scanOnce (fuel + 1) (dumpsString true s ++ rest) = some (.str s, rest) := by
  have htext : dumpsString true s ++ rest = '"' :: (escape true s.toList ++ '"' :: rest) := by
    simp [dumpsString]
  rw [htext, scanOnce]
  simp only [scanString_escape, Option.map_some, String.ofList_toList]

/-- The last member, and what follows a member of the record. -/
theorem scanMembers_record (r : OwnerRecord) (fuel : Nat) :
    scanMembers (fuel + 4) ((recordText r).drop 2) = some (r.members, []) := by
  have hpid : skipSpace (dumpsInt r.pid.val ++ ',' :: '"' :: (escape true "acquired_at".toList ++
      '"' :: ':' :: (r.acquiredAt.literal ++ ['}']))) = _ :=
    skipSpace_digits Nat.toDigits_ne_nil (isDigit_toDigits r.pid.val)
  have hliteral : skipSpace (r.acquiredAt.literal ++ ['}']) = r.acquiredAt.literal ++ ['}'] := by
    unfold Timestamp.literal
    rw [List.append_assoc]
    exact skipSpace_digits Nat.toDigits_ne_nil (isDigit_toDigits r.acquiredAt.whole)
  have hlast : scanMembers (fuel + 2) (escape true "acquired_at".toList ++
      '"' :: ':' :: (r.acquiredAt.literal ++ ['}'])) =
      some ([("acquired_at", .float r.acquiredAt.literal)], []) := by
    rw [scanMembers_member, hliteral,
      scanOnce_literal r.acquiredAt fuel (follows_cons (Or.inr (Or.inl rfl)) [])]
    rfl
  have htext : (recordText r).drop 2 = escape true "instance_id".toList ++ '"' :: ':' ::
      (dumpsString true (String.ofList r.instanceId.digits) ++ ',' :: '"' ::
        (escape true "pid".toList ++ '"' :: ':' :: (dumpsInt r.pid.val ++ ',' :: '"' ::
          (escape true "acquired_at".toList ++ '"' :: ':' ::
            (r.acquiredAt.literal ++ ['}']))))) := by
    simp [recordText, dumpsString]
  rw [htext, scanMembers_compact (fuel + 3) "instance_id" rfl (scanOnce_dumpsString (fuel + 2) _ _),
    scanMembers_compact (fuel + 2) "pid" hpid
      (scanOnce_dumpsInt _ (fuel + 1) (follows_cons (Or.inl rfl) _)), hlast]
  rfl

theorem loads_recordText (r : OwnerRecord) : loads (recordText r) = some (.obj r.members) := by
  obtain ⟨tail, htail⟩ : ∃ tail, recordText r = '\x7b' :: '"' :: tail := ⟨_, rfl⟩
  have hmembers : ∀ fuel, scanMembers (fuel + 4) tail = some (r.members, []) := by
    have hdrop : (recordText r).drop 2 = tail := by
      rw [htail]
      rfl
    rw [← hdrop]
    exact scanMembers_record r
  have hlength : 2 ≤ tail.length := by
    have hlen := congrArg List.length htail
    simp [recordText, dumpsString] at hlen
    omega
  obtain ⟨fuel, hfuel⟩ : ∃ fuel, ('\x7b' :: '"' :: tail).length = fuel + 4 :=
    ⟨tail.length - 2, by rw [List.length_cons, List.length_cons]; omega⟩
  have hspace : skipSpace ('\x7b' :: '"' :: tail) = '\x7b' :: '"' :: tail := rfl
  unfold loads
  rw [htail, if_neg (by simp), hspace, scanOnce_object _ rfl, hfuel, hmembers]
  rfl

theorem recordText_ne (r : OwnerRecord) : recordText r ≠ [] ∧ recordText r ≠ ['\x00'] := by
  constructor
  · exact List.cons_ne_nil _ _
  · intro h
    exact absurd (List.cons.inj h).1 (by decide)

theorem readPid_recordText (r : OwnerRecord) : readPid (recordText r) = .ok (some r.pid.val) := by
  have hpid : ¬ ((r.pid.val : Int) ≤ 0) := by
    have hpos := r.pid.property
    omega
  unfold readPid
  rw [if_neg (by simp [recordText_ne r]), loads_recordText]
  show (if (r.pid.val : Int) ≤ 0 then _ else _) = _
  rw [if_neg hpid]

theorem releaseCheck_recordText (r : OwnerRecord) :
    releaseCheck r.instanceId (recordText r) = .ok () := by
  unfold releaseCheck
  rw [loads_recordText]
  show (if String.ofList r.instanceId.digits = String.ofList r.instanceId.digits then _ else _) = _
  rw [if_pos rfl]

/-- What a later start can read: nothing, the placeholder, or a record. -/
def Readable (raw : List Char) : Prop := raw = [] ∨ raw = ['\x00'] ∨ ∃ r, raw = recordText r

theorem readPid_ok {raw : List Char} (h : Readable raw) : ∃ previous, readPid raw = .ok previous := by
  rcases h with rfl | rfl | ⟨r, rfl⟩
  · exact ⟨none, rfl⟩
  · exact ⟨none, rfl⟩
  · exact ⟨_, readPid_recordText r⟩

/-- Two placeholders are no record, whatever follows. -/
theorem readPid_placeholders (tail : List Char) :
    readPid ('\x00' :: '\x00' :: tail) =
      .error (.ownership "ownership record is invalid") := by
  have hloads : loads ('\x00' :: '\x00' :: tail) = none := by
    have hspace : skipSpace ('\x00' :: '\x00' :: tail) = '\x00' :: '\x00' :: tail := rfl
    have hscan : ∀ fuel, scanOnce fuel ('\x00' :: '\x00' :: tail) = none := by
      intro fuel
      cases fuel with
      | zero => rfl
      | succ fuel => simp [scanOnce, scanNumber, scanNatural, scanDigits]
    unfold loads
    rw [if_neg (by simp), hspace, hscan]
  unfold readPid
  rw [if_neg (by simp), hloads]

end LocalRag.Runtime
