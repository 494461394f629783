import LocalRag.Runtime.OwnerRecord

/-!
# Single-instance ownership — one file, one lock, any number of starts

Mirrors `SingleInstanceOwnership.acquire` and `release` (`app/runtime/ownership.py`) over
one path, a step for each call on the file. Any process may take the next step, and one
that dies leaves the file as it is and gives the lock back.

The lock is enough for exclusion (`step_held`): an owner is the holder. It is not enough
for recovery. The size of the file is asked and the placeholder byte written before the
lock is taken, so a second byte can get in, and the record is written into the emptied
file, so a crash can leave the front of one. What a later start finds is then no record,
and no start empties the file before it has read one.

`ownership_recovers` says when all goes well: each placeholder is written into a file that
is empty and not about to be written, or that the holder empties next, and nobody dies
with half of a record written.

Mirroring notes.
* `crash` is also what an exception of the operating system does: the handle is closed. On
  Windows the lock bars others from its byte, so a placeholder write may raise instead.
* The path is one absolute path, its directory exists, and `process_alive` returns.
* `write` moves some bytes of the record; `finish` is `flush`, `fsync` and the return.
* A process starts `acquire` again only when the last one has ended.
-/

namespace LocalRag.Runtime

open LocalRag.Core

/-- Where a process is in `acquire`, or what it got from it. -/
inductive OwnerPhase where
  | idle
  /-- The file is open. -/
  | opened
  /-- It was found empty. -/
  | empty
  /-- The lock is next. -/
  | sized
  | locked
  /-- `_read_pid` and `process_alive` have returned. -/
  | read (previousAlive : Option Bool)
  /-- The file was emptied; what is left of the record. -/
  | writing (record : OwnerRecord) (previousAlive : Option Bool) (rest : List Char)
  /-- `acquire` has returned. -/
  | owner (record : OwnerRecord) (previousAlive : Option Bool)

/-- The phases with the lock. -/
def OwnerPhase.holds : OwnerPhase → Bool
  | .locked | .read _ | .writing _ _ _ | .owner _ _ => true
  | _ => false

structure LockFile where
  file : List Char
  /-- Whose handle has the lock. -/
  holder : Option Pid
  phase : Pid → OwnerPhase

def LockFile.setPhase (s : LockFile) (p : Pid) (phase : OwnerPhase) : LockFile :=
  { s with phase := Function.update s.phase p phase }

/-- `handle.close()`, which gives the lock back. -/
def LockFile.close (s : LockFile) (p : Pid) : LockFile :=
  { s.setPhase p .idle with holder := if s.holder = some p then none else s.holder }

inductive OwnerAct where
  /-- `path.open("a+b")`. -/
  | start (p : Pid)
  /-- `path.stat()`. -/
  | size (p : Pid)
  /-- `handle.write(b"\0")`. -/
  | placeholder (p : Pid)
  /-- `_lock`. -/
  | lock (p : Pid)
  /-- `_read_pid` and `process_alive`. -/
  | read (p : Pid)
  /-- `handle.truncate()`, with the instance's id and the time. -/
  | truncate (p : Pid) (instanceId : UuidHex) (acquiredAt : Timestamp)
  | write (p : Pid) (bytes : Nat)
  | finish (p : Pid)
  | release (p : Pid)
  | crash (p : Pid)

/-! A step that the process is not at changes nothing. -/

def openFile (s : LockFile) (p : Pid) : LockFile :=
  match s.phase p with
  | .idle => s.setPhase p .opened
  | _ => s

def askSize (s : LockFile) (p : Pid) : LockFile :=
  match s.phase p with
  | .opened => s.setPhase p (if s.file = [] then .empty else .sized)
  | _ => s

def writePlaceholder (s : LockFile) (p : Pid) : LockFile :=
  match s.phase p with
  | .empty => { s.setPhase p .sized with file := s.file ++ ['\x00'] }
  | _ => s

/-- `_lock`: when another has it, `OwnershipError("another process owns this instance")`. -/
def takeLock (s : LockFile) (p : Pid) : LockFile :=
  match s.phase p with
  | .sized =>
    if s.holder = none then { s.setPhase p .locked with holder := some p }
    else s.close p
  | _ => s

def readRecord (processAlive : Int → Bool) (s : LockFile) (p : Pid) : LockFile :=
  match s.phase p with
  | .locked =>
    match readPid s.file with
    | .ok previous => s.setPhase p (.read (previous.map processAlive))
    | .error _ => s.close p
  | _ => s

def truncateFile (s : LockFile) (p : Pid) (instanceId : UuidHex) (acquiredAt : Timestamp) :
    LockFile :=
  match s.phase p with
  | .read previousAlive =>
    { s.setPhase p (.writing ⟨instanceId, p, acquiredAt⟩ previousAlive
        (recordText ⟨instanceId, p, acquiredAt⟩)) with file := [] }
  | _ => s

def writeRecord (s : LockFile) (p : Pid) (bytes : Nat) : LockFile :=
  match s.phase p with
  | .writing record previousAlive rest =>
    { s.setPhase p (.writing record previousAlive (rest.drop bytes)) with
      file := s.file ++ rest.take bytes }
  | _ => s

def finishRecord (s : LockFile) (p : Pid) : LockFile :=
  match s.phase p with
  | .writing record previousAlive [] => s.setPhase p (.owner record previousAlive)
  | _ => s

/-- `release`; one that raises keeps the lock. -/
def releaseFile (s : LockFile) (p : Pid) : LockFile :=
  match s.phase p with
  | .owner record _ =>
    match releaseCheck record.instanceId s.file with
    | .ok _ => s.close p
    | .error _ => s
  | _ => s

def ownerStep (processAlive : Int → Bool) (s : LockFile) : OwnerAct → LockFile
  | .start p => openFile s p
  | .size p => askSize s p
  | .placeholder p => writePlaceholder s p
  | .lock p => takeLock s p
  | .read p => readRecord processAlive s p
  | .truncate p instanceId acquiredAt => truncateFile s p instanceId acquiredAt
  | .write p bytes => writeRecord s p bytes
  | .finish p => finishRecord s p
  | .release p => releaseFile s p
  | .crash p => s.close p

/-- No file yet, and nobody at it. -/
def LockFile.start : LockFile := ⟨[], none, fun _ => .idle⟩

/-! ## Exclusion -/

@[simp] theorem setPhase_self (s : LockFile) (p : Pid) (phase : OwnerPhase) :
    (s.setPhase p phase).phase p = phase := Function.update_self ..

theorem setPhase_ne (s : LockFile) {p q : Pid} (h : q ≠ p) (phase : OwnerPhase) :
    (s.setPhase p phase).phase q = s.phase q := Function.update_of_ne h ..

@[simp] theorem setPhase_file (s : LockFile) (p : Pid) (phase : OwnerPhase) :
    (s.setPhase p phase).file = s.file := rfl

@[simp] theorem setPhase_holder (s : LockFile) (p : Pid) (phase : OwnerPhase) :
    (s.setPhase p phase).holder = s.holder := rfl

/-- The holder of the lock is the process in a phase with it. -/
def Held (s : LockFile) : Prop := ∀ p, s.holder = some p ↔ (s.phase p).holds = true

variable {phase : OwnerPhase}

/-- A step within the lock or outside it. -/
theorem held_setPhase {s : LockFile} (h : Held s) {p : Pid} (hp : phase.holds = (s.phase p).holds) :
    Held (s.setPhase p phase) := by
  intro q
  by_cases hq : q = p
  · rw [hq, setPhase_self, hp]
    exact h p
  · rw [setPhase_ne s hq]
    exact h q

theorem held_close {s : LockFile} (h : Held s) (p : Pid) : Held (s.close p) := by
  intro q
  show (if s.holder = some p then none else s.holder) = some q ↔ ((s.setPhase p .idle).phase q).holds = true
  by_cases hq : q = p
  · rw [hq, setPhase_self]
    by_cases hp : s.holder = some p
    · simp [hp, OwnerPhase.holds]
    · simp [hp, OwnerPhase.holds]
  · rw [setPhase_ne s hq, ← h q]
    by_cases hp : s.holder = some p
    · rw [if_pos hp, hp]
      simp [Ne.symm hq]
    · rw [if_neg hp]

theorem step_held (processAlive : Int → Bool) (s : LockFile) (a : OwnerAct) (h : Held s) :
    Held (ownerStep processAlive s a) := by
  cases a with
  | start p =>
    show Held (openFile s p)
    unfold openFile
    split
    next hphase => exact held_setPhase h (by rw [hphase]; rfl)
    next => exact h
  | size p =>
    show Held (askSize s p)
    unfold askSize
    split
    next hphase =>
      refine held_setPhase h ?_
      rw [hphase]
      split
      · rfl
      · rfl
    next => exact h
  | placeholder p =>
    show Held (writePlaceholder s p)
    unfold writePlaceholder
    split
    next hphase => exact held_setPhase h (by rw [hphase]; rfl)
    next => exact h
  | lock p =>
    show Held (takeLock s p)
    unfold takeLock
    split
    next hphase =>
      split
      next hfree =>
        intro q
        show some p = some q ↔ ((s.setPhase p .locked).phase q).holds = true
        by_cases hq : q = p
        · rw [hq, setPhase_self]
          simp [OwnerPhase.holds]
        · rw [setPhase_ne s hq, ← h q, hfree]
          simp [Ne.symm hq]
      next => exact held_close h p
    next => exact h
  | read p =>
    show Held (readRecord processAlive s p)
    unfold readRecord
    split
    next hphase =>
      split
      · exact held_setPhase h (by rw [hphase]; rfl)
      · exact held_close h p
    next => exact h
  | truncate p instanceId acquiredAt =>
    show Held (truncateFile s p instanceId acquiredAt)
    unfold truncateFile
    split
    next hphase => exact held_setPhase h (by rw [hphase]; rfl)
    next => exact h
  | write p bytes =>
    show Held (writeRecord s p bytes)
    unfold writeRecord
    split
    next hphase => exact held_setPhase h (by rw [hphase]; rfl)
    next => exact h
  | finish p =>
    show Held (finishRecord s p)
    unfold finishRecord
    split
    next hphase => exact held_setPhase h (by rw [hphase]; rfl)
    next => exact h
  | release p =>
    show Held (releaseFile s p)
    unfold releaseFile
    split
    next =>
      split
      · exact held_close h p
      · exact h
    next => exact h
  | crash p => exact held_close h p

/-- At most one process has the ownership. -/
def OneOwner (s : LockFile) : Prop :=
  ∀ p q record record' alive alive', s.phase p = .owner record alive →
    s.phase q = .owner record' alive' → p = q

theorem oneOwner_of_held {s : LockFile} (h : Held s) : OneOwner s := by
  intro p q record record' alive alive' hp hq
  have hholder : s.holder = some p := (h p).mpr (by rw [hp]; rfl)
  have hother : s.holder = some q := (h q).mpr (by rw [hq]; rfl)
  exact Option.some.inj (hholder.symm.trans hother)

/-! ## Recovery -/

/-- What the holder is doing. -/
def LockFile.holderPhase (s : LockFile) : OwnerPhase :=
  match s.holder with
  | some p => s.phase p
  | none => .idle

/-- The placeholder is the first byte of a file that nobody writes a record into, or the holder
empties the file next. -/
def PlaceholderOk (s : LockFile) : Prop :=
  match s.holderPhase with
  | .read _ => True
  | .writing _ _ _ => False
  | _ => s.file = []

/-- The process leaves no part of a record, and no placeholder beside what it has read. -/
def CrashOk (file : List Char) : OwnerPhase → Prop
  | .read _ => file.length ≤ 1 ∨ '\x00' ∉ file
  | .writing _ _ rest => file = [] ∨ rest = []
  | _ => True

def OwnerStepOk (s : LockFile) : OwnerAct → Prop
  | .placeholder p => s.phase p = .empty → PlaceholderOk s
  | .crash p => CrashOk s.file (s.phase p)
  | _ => True

/-- What the file has while a process is in this phase. -/
def OwnerPhase.Content (file : List Char) : OwnerPhase → Prop
  | .locked => Readable file
  -- the others may have found it empty before
  | .read _ => ∃ front n, Readable front ∧ file = front ++ List.replicate n '\x00'
  | .writing record _ rest => file ++ rest = recordText record
  | .owner record _ => file = recordText record
  | _ => True

/-- Without the lock, nothing is known. -/
theorem content_of_not_holds (h : phase.holds = false) (file : List Char) : phase.Content file := by
  cases phase with
  | locked => exact absurd h (by decide)
  | writing record alive rest => exact absurd h (by simp [OwnerPhase.holds])
  | owner record alive => exact absurd h (by simp [OwnerPhase.holds])
  | idle => trivial
  | opened => trivial
  | empty => trivial
  | sized => trivial
  | read alive => exact absurd h (by simp [OwnerPhase.holds])

structure SoundFile (s : LockFile) : Prop where
  held : Held s
  free : s.holder = none → Readable s.file
  content : ∀ p, (s.phase p).Content s.file

theorem start_sound : SoundFile LockFile.start where
  held p := by simp [LockFile.start, OwnerPhase.holds]
  free _ := Or.inl rfl
  content _ := trivial

variable {s : LockFile} {p : Pid}

/-- The others are outside the lock. -/
theorem SoundFile.other (h : SoundFile s) (hp : s.holder = some p) {q : Pid} (hq : q ≠ p) :
    (s.phase q).holds = false := by
  rw [Bool.eq_false_iff]
  intro hholds
  have hholder := (h.held q).mpr hholds
  rw [hp] at hholder
  exact hq (Option.some.inj hholder).symm

theorem sound_setPhase (h : SoundFile s) (hp : phase.holds = (s.phase p).holds)
    (hcontent : phase.Content s.file) :
    SoundFile (s.setPhase p phase) where
  held := held_setPhase h.held hp
  free := h.free
  content q := by
    by_cases hq : q = p
    · rw [hq, setPhase_self]
      exact hcontent
    · rw [setPhase_ne s hq]
      exact h.content q

/-- The holder leaves something readable. -/
theorem sound_close (h : SoundFile s) (hfile : s.holder = some p → Readable s.file) :
    SoundFile (s.close p) where
  held := held_close h.held p
  free := by
    intro hholder
    change (if s.holder = some p then none else s.holder) = none at hholder
    by_cases hp : s.holder = some p
    · exact hfile hp
    · rw [if_neg hp] at hholder
      exact h.free hholder
  content q := by
    by_cases hq : q = p
    · rw [hq]
      show ((s.setPhase p .idle).phase p).Content _
      rw [setPhase_self]
      trivial
    · show ((s.setPhase p .idle).phase q).Content _
      rw [setPhase_ne s hq]
      exact h.content q

/-- What the holder writes is its own. -/
theorem sound_write (h : SoundFile s) (hp : (s.phase p).holds = true)
    (hphase : phase.holds = true) {file : List Char} (hcontent : phase.Content file) :
    SoundFile { s.setPhase p phase with file := file } where
  held := held_setPhase h.held (hphase.trans hp.symm)
  free := by
    intro hholder
    change s.holder = none at hholder
    rw [(h.held p).mpr hp] at hholder
    exact absurd hholder (by simp)
  content q := by
    by_cases hq : q = p
    · rw [hq]
      show ((s.setPhase p phase).phase p).Content file
      rw [setPhase_self]
      exact hcontent
    · show ((s.setPhase p phase).phase q).Content file
      rw [setPhase_ne s hq]
      exact content_of_not_holds (h.other ((h.held p).mpr hp) hq) file

theorem holderPhase_some {q : Pid} (h : s.holder = some q) : s.holderPhase = s.phase q := by
  unfold LockFile.holderPhase
  rw [h]

theorem holderPhase_none (h : s.holder = none) : s.holderPhase = .idle := by
  unfold LockFile.holderPhase
  rw [h]

/-- A placeholder written where it does no harm. -/
theorem sound_placeholder (h : SoundFile s) (hp : s.phase p = .empty) (hok : PlaceholderOk s) :
    SoundFile { s.setPhase p .sized with file := s.file ++ ['\x00'] } := by
  have hfirst : s.file = [] → Readable (s.file ++ ['\x00']) := by
    intro hnil
    rw [hnil]
    exact Or.inr (Or.inl rfl)
  unfold PlaceholderOk at hok
  refine ⟨held_setPhase h.held (by rw [hp]; rfl), ?_, fun q => ?_⟩
  · intro hholder
    change s.holder = none at hholder
    rw [holderPhase_none hholder] at hok
    exact hfirst hok
  · show ((s.setPhase p .sized).phase q).Content (s.file ++ ['\x00'])
    by_cases hq : q = p
    · rw [hq, setPhase_self]
      trivial
    rw [setPhase_ne s hq]
    by_cases hholds : (s.phase q).holds = true
    · -- the holder's phase decides
      rw [holderPhase_some ((h.held q).mpr hholds)] at hok
      have hcontent := h.content q
      cases hphase : s.phase q with
      | idle => trivial
      | opened => trivial
      | empty => trivial
      | sized => trivial
      | read alive =>
        rw [hphase] at hcontent
        obtain ⟨front, n, hfront, hfile⟩ := hcontent
        refine ⟨front, n + 1, hfront, ?_⟩
        rw [hfile, List.append_assoc, List.replicate_succ']
      | locked =>
        rw [hphase] at hok
        exact hfirst hok
      | writing record alive rest =>
        rw [hphase] at hok
        exact hok.elim
      | owner record alive =>
        rw [hphase] at hok hcontent
        -- a record is not empty
        change s.file = recordText record at hcontent
        change s.file = [] at hok
        rw [hcontent] at hok
        exact absurd hok (recordText_ne record).1
    · exact content_of_not_holds (by simpa using hholds) _

/-- Without a placeholder beside it, what was read is still there. -/
theorem readable_of_clean {front : List Char} {n : Nat} (hfront : Readable front)
    (h : (front ++ List.replicate n '\x00').length ≤ 1 ∨
      '\x00' ∉ front ++ List.replicate n '\x00') :
    Readable (front ++ List.replicate n '\x00') := by
  cases n with
  | zero =>
    rw [List.replicate_zero, List.append_nil]
    exact hfront
  | succ n =>
    rcases h with hlength | hclean
    · -- one byte: the placeholder itself
      rw [List.length_append, List.length_replicate] at hlength
      obtain rfl : n = 0 := by omega
      obtain rfl : front = [] := List.length_eq_zero_iff.mp (by omega)
      exact Or.inr (Or.inl rfl)
    · exact absurd (by simp) hclean

theorem step_sound (processAlive : Int → Bool) (s : LockFile) (a : OwnerAct)
    (hok : OwnerStepOk s a) (h : SoundFile s) : SoundFile (ownerStep processAlive s a) := by
  cases a with
  | start p =>
    show SoundFile (openFile s p)
    unfold openFile
    split
    next hphase => exact sound_setPhase h (by rw [hphase]; rfl) trivial
    next => exact h
  | size p =>
    show SoundFile (askSize s p)
    unfold askSize
    split
    next hphase =>
      by_cases hnil : s.file = []
      · rw [if_pos hnil]
        exact sound_setPhase h (by rw [hphase]; rfl) trivial
      · rw [if_neg hnil]
        exact sound_setPhase h (by rw [hphase]; rfl) trivial
    next => exact h
  | placeholder p =>
    show SoundFile (writePlaceholder s p)
    unfold writePlaceholder
    split
    next hphase =>
      exact sound_placeholder h hphase (hok hphase)
    next => exact h
  | lock p =>
    have hheld : Held (takeLock s p) := step_held processAlive s (.lock p) h.held
    show SoundFile (takeLock s p)
    unfold takeLock at hheld ⊢
    split
    next hphase =>
      rw [hphase] at hheld
      by_cases hfree : s.holder = none
      · rw [if_pos hfree] at hheld ⊢
        refine ⟨hheld, fun hholder => absurd hholder (by simp), fun q => ?_⟩
        show ((s.setPhase p .locked).phase q).Content s.file
        by_cases hq : q = p
        · rw [hq, setPhase_self]
          exact h.free hfree
        · rw [setPhase_ne s hq]
          exact h.content q
      · rw [if_neg hfree]
        refine sound_close h fun hholder => ?_
        have hholds := (h.held p).mp hholder
        rw [hphase] at hholds
        exact absurd hholds (by decide)
    next => exact h
  | read p =>
    show SoundFile (readRecord processAlive s p)
    unfold readRecord
    split
    next hphase =>
      have hcontent := h.content p
      rw [hphase] at hcontent
      obtain ⟨previous, hread⟩ := readPid_ok hcontent
      rw [hread]
      exact sound_setPhase h (by rw [hphase]; rfl) ⟨s.file, 0, hcontent, (List.append_nil _).symm⟩
    next => exact h
  | truncate p instanceId acquiredAt =>
    show SoundFile (truncateFile s p instanceId acquiredAt)
    unfold truncateFile
    split
    next hphase => exact sound_write h (by rw [hphase]; rfl) rfl (List.nil_append _)
    next => exact h
  | write p bytes =>
    show SoundFile (writeRecord s p bytes)
    unfold writeRecord
    split
    next record alive rest hphase =>
      have hcontent := h.content p
      rw [hphase] at hcontent
      change s.file ++ rest = recordText record at hcontent
      refine sound_write h (by rw [hphase]; rfl) rfl ?_
      show s.file ++ rest.take bytes ++ rest.drop bytes = recordText record
      rw [List.append_assoc, List.take_append_drop, hcontent]
    next => exact h
  | finish p =>
    show SoundFile (finishRecord s p)
    unfold finishRecord
    split
    next record alive hphase =>
      have hcontent := h.content p
      rw [hphase] at hcontent
      change s.file ++ [] = recordText record at hcontent
      rw [List.append_nil] at hcontent
      exact sound_setPhase h (by rw [hphase]; rfl) hcontent
    next => exact h
  | release p =>
    show SoundFile (releaseFile s p)
    unfold releaseFile
    split
    next record alive hphase =>
      have hcontent := h.content p
      rw [hphase] at hcontent
      split
      · exact sound_close h fun _ => Or.inr (Or.inr ⟨record, hcontent⟩)
      · exact h
    next => exact h
  | crash p =>
    refine sound_close h fun hholder => ?_
    have hholds := (h.held p).mp hholder
    have hcontent := h.content p
    change CrashOk s.file (s.phase p) at hok
    cases hphase : s.phase p with
    | locked =>
      rw [hphase] at hcontent
      exact hcontent
    | read alive =>
      rw [hphase] at hcontent hok
      obtain ⟨front, n, hfront, hfile⟩ := hcontent
      rw [hfile] at hok ⊢
      exact readable_of_clean hfront hok
    | writing record alive rest =>
      rw [hphase] at hcontent hok
      change s.file ++ rest = recordText record at hcontent
      rcases hok with hnil | hdone
      · exact Or.inl hnil
      · rw [hdone, List.append_nil] at hcontent
        exact Or.inr (Or.inr ⟨record, hcontent⟩)
    | owner record alive =>
      rw [hphase] at hcontent
      exact Or.inr (Or.inr ⟨record, hcontent⟩)
    | idle => rw [hphase] at hholds; exact absurd hholds (by decide)
    | opened => rw [hphase] at hholds; exact absurd hholds (by decide)
    | empty => rw [hphase] at hholds; exact absurd hholds (by decide)
    | sized => rw [hphase] at hholds; exact absurd hholds (by decide)

/-! ## A start that runs alone -/

/-- `acquire`, nobody else taking a step. -/
def acquireAlone (p : Pid) (instanceId : UuidHex) (acquiredAt : Timestamp) : List OwnerAct :=
  [.start p, .size p, .placeholder p, .lock p, .read p, .truncate p instanceId acquiredAt,
    .write p (recordText ⟨instanceId, p, acquiredAt⟩).length, .finish p]

/-- Nobody has the lock: the next `acquire` that runs alone succeeds. -/
def Recovers (processAlive : Int → Bool) (s : LockFile) : Prop :=
  s.holder = none → ∀ p, s.phase p = .idle → ∀ instanceId acquiredAt, ∃ alive,
    (run (ownerStep processAlive) s (acquireAlone p instanceId acquiredAt)).phase p =
      .owner ⟨instanceId, p, acquiredAt⟩ alive

/-- From the lock on. -/
theorem acquire_sized (processAlive : Int → Bool) (hp : s.phase p = .sized)
    (hfree : s.holder = none) (hfile : Readable s.file) (instanceId : UuidHex)
    (acquiredAt : Timestamp) :
    ∃ alive, (run (ownerStep processAlive) s [.lock p, .read p, .truncate p instanceId acquiredAt,
      .write p (recordText ⟨instanceId, p, acquiredAt⟩).length, .finish p]).phase p =
        .owner ⟨instanceId, p, acquiredAt⟩ alive := by
  obtain ⟨previous, hread⟩ := readPid_ok hfile
  refine ⟨previous.map processAlive, ?_⟩
  simp [run, ownerStep, takeLock, readRecord, truncateFile, writeRecord, finishRecord, hp, hfree, hread]

/-- Up to the lock: the file has the placeholder, or what was there. -/
theorem acquire_start (processAlive : Int → Bool) (hp : s.phase p = .idle) (hfree : s.holder = none)
    (hfile : Readable s.file) :
    ∃ s', run (ownerStep processAlive) s [.start p, .size p, .placeholder p] = s' ∧
      s'.phase p = .sized ∧ s'.holder = none ∧ Readable s'.file := by
  by_cases hnil : s.file = []
  · refine ⟨{ ((s.setPhase p .opened).setPhase p .empty).setPhase p .sized with
      file := s.file ++ ['\x00'] }, ?_, setPhase_self .., hfree, ?_⟩
    · simp [run, ownerStep, openFile, askSize, writePlaceholder, hp, hnil]
    · rw [hnil]
      exact Or.inr (Or.inl rfl)
  · refine ⟨(s.setPhase p .opened).setPhase p .sized, ?_, setPhase_self .., hfree, hfile⟩
    simp [run, ownerStep, openFile, askSize, writePlaceholder, hp, hnil]

theorem recovers_of_sound (processAlive : Int → Bool) (h : SoundFile s) :
    Recovers processAlive s := by
  intro hfree p hp instanceId acquiredAt
  obtain ⟨s', hstart, hsized, hholder, hfile⟩ := acquire_start processAlive hp hfree (h.free hfree)
  show ∃ alive, (run (ownerStep processAlive) s ([.start p, .size p, .placeholder p] ++ _)).phase p
    = .owner _ alive
  rw [run_append, hstart]
  exact acquire_sized processAlive hsized hholder hfile instanceId acquiredAt

/-- **When ownership is recovered.** However the starts and the deaths fall, there is one owner at
most. If each placeholder is the first byte of a file that is not being rewritten (or is removed
by a holder that has read the file), and nobody dies with a part of a record written, then
whenever nobody has the lock the next `acquire` that runs alone succeeds. -/
theorem ownership_recovers (processAlive : Int → Bool) {as : List OwnerAct}
    (h : Along (ownerStep processAlive) OwnerStepOk LockFile.start as) :
    (∀ bs, Always (ownerStep processAlive) OneOwner LockFile.start bs) ∧
      Always (ownerStep processAlive) (Recovers processAlive) LockFile.start as := by
  refine ⟨fun bs => ?_, ?_⟩
  · -- the lock alone, without any condition
    exact always_of_step Held (fun s => oneOwner_of_held)
      (fun s a hs => step_held processAlive s a hs) bs start_sound.held
  · exact always_of_along SoundFile (fun s => recovers_of_sound processAlive)
      (fun s a hok hs => step_sound processAlive s a hok hs) h start_sound

/-- A start that dies with the ownership. -/
theorem ownership_recovers_crash :
    Always (ownerStep fun _ => true) (Recovers fun _ => true) LockFile.start
      (acquireAlone ⟨7, by decide⟩ .zero ⟨1, ['5'], by simp, by simp [Char.isDigit]⟩ ++
        [.crash ⟨7, by decide⟩]) :=
  (ownership_recovers (fun _ => true) (by
    unfold acquireAlone
    exact ⟨trivial, trivial, fun _ => rfl, trivial, trivial, trivial, trivial, trivial, trivial,
      trivial⟩)).2

/-! ## Two first starts -/

/-- Two placeholders, and nobody has read them. -/
structure StuckFile (s : LockFile) : Prop where
  file : ∃ tail, s.file = '\x00' :: '\x00' :: tail
  phase : ∀ p, (s.phase p).holds = true → s.phase p = .locked

theorem stuck_setPhase (h : StuckFile s) (hphase : phase.holds = true → phase = .locked) :
    StuckFile (s.setPhase p phase) where
  file := h.file
  phase q := by
    by_cases hq : q = p
    · rw [hq, setPhase_self]
      exact hphase
    · rw [setPhase_ne s hq]
      exact h.phase q

theorem stuck_close (h : StuckFile s) : StuckFile (s.close p) :=
  have hidle : StuckFile (s.setPhase p .idle) := stuck_setPhase h fun hholds => absurd hholds (by decide)
  ⟨hidle.file, hidle.phase⟩

/-- Nobody empties the file without having read it. -/
theorem step_stuck (processAlive : Int → Bool) (s : LockFile) (a : OwnerAct) (h : StuckFile s) :
    StuckFile (ownerStep processAlive s a) := by
  obtain ⟨tail, hfile⟩ := h.file
  have hbeyond : ∀ {p : Pid} {phase : OwnerPhase}, s.phase p = phase → phase.holds = true →
      phase ≠ .locked → False := by
    intro p phase hphase hholds hne
    have hlocked := h.phase p (by rw [hphase]; exact hholds)
    exact hne (hphase.symm.trans hlocked)
  cases a with
  | start p =>
    show StuckFile (openFile s p)
    unfold openFile
    split
    next => exact stuck_setPhase h fun hholds => absurd hholds (by decide)
    next => exact h
  | size p =>
    show StuckFile (askSize s p)
    unfold askSize
    split
    next =>
      rw [if_neg (by simp [hfile])]
      exact stuck_setPhase h fun hholds => absurd hholds (by decide)
    next => exact h
  | placeholder p =>
    show StuckFile (writePlaceholder s p)
    unfold writePlaceholder
    split
    next =>
      have hsized : StuckFile (s.setPhase p .sized) :=
        stuck_setPhase h fun hholds => absurd hholds (by decide)
      exact ⟨⟨tail ++ ['\x00'], by show s.file ++ _ = _; rw [hfile]; rfl⟩, hsized.phase⟩
    next => exact h
  | lock p =>
    show StuckFile (takeLock s p)
    unfold takeLock
    split
    next =>
      split
      · have hlocked : StuckFile (s.setPhase p .locked) := stuck_setPhase h fun _ => rfl
        exact ⟨hlocked.file, hlocked.phase⟩
      · exact stuck_close h
    next => exact h
  | read p =>
    show StuckFile (readRecord processAlive s p)
    unfold readRecord
    split
    next =>
      rw [hfile, readPid_placeholders]
      exact stuck_close h
    next => exact h
  | truncate p instanceId acquiredAt =>
    show StuckFile (truncateFile s p instanceId acquiredAt)
    unfold truncateFile
    split
    next hphase => exact (hbeyond hphase rfl (by simp)).elim
    next => exact h
  | write p bytes =>
    show StuckFile (writeRecord s p bytes)
    unfold writeRecord
    split
    next hphase => exact (hbeyond hphase rfl (by simp)).elim
    next => exact h
  | finish p =>
    show StuckFile (finishRecord s p)
    unfold finishRecord
    split
    next hphase => exact (hbeyond hphase rfl (by simp)).elim
    next => exact h
  | release p =>
    show StuckFile (releaseFile s p)
    unfold releaseFile
    split
    next hphase => exact (hbeyond hphase rfl (by simp)).elim
    next => exact h
  | crash p => exact stuck_close h

/-- From there on nobody ever gets the ownership. -/
theorem stuck_no_owner (processAlive : Int → Bool) (h : StuckFile s) (as : List OwnerAct) (p : Pid)
    (record : OwnerRecord) (alive : Option Bool) :
    (run (ownerStep processAlive) s as).phase p ≠ .owner record alive := by
  intro howner
  have hrun := run_inv_of_step StuckFile (step_stuck processAlive) as h
  have hlocked := hrun.phase p (by rw [howner]; rfl)
  rw [howner] at hlocked
  cases hlocked

theorem openFile_other (s : LockFile) {q : Pid} (h : q ≠ p) :
    (openFile s p).phase q = s.phase q := by
  unfold openFile
  split
  · exact setPhase_ne s h _
  · rfl

theorem askSize_other (s : LockFile) {q : Pid} (h : q ≠ p) : (askSize s p).phase q = s.phase q := by
  unfold askSize
  split
  · exact setPhase_ne s h _
  · rfl

theorem writePlaceholder_other (s : LockFile) {q : Pid} (h : q ≠ p) :
    (writePlaceholder s p).phase q = s.phase q := by
  unfold writePlaceholder
  split
  · exact setPhase_ne s h _
  · rfl

/-- Two processes that find the file empty before either writes. -/
def firstStarts : List OwnerAct :=
  [.start ⟨1, by decide⟩, .start ⟨2, by decide⟩, .size ⟨1, by decide⟩, .size ⟨2, by decide⟩,
    .placeholder ⟨1, by decide⟩, .placeholder ⟨2, by decide⟩]

/-- The file is left with two bytes, nobody has the lock, and every start ever after is refused. -/
theorem first_starts_refused :
    let s := run (ownerStep fun _ => false) LockFile.start firstStarts
    s.holder = none ∧ ¬ Recovers (fun _ => false) s ∧
      ∀ as p record alive, (run (ownerStep fun _ => false) s as).phase p ≠ .owner record alive := by
  have hphase : ∀ p, ((run (ownerStep fun _ => false) LockFile.start firstStarts).phase p).holds =
      false := by
    intro p
    by_cases hone : p = ⟨1, by decide⟩
    · subst hone
      rfl
    · by_cases htwo : p = ⟨2, by decide⟩
      · subst htwo
        rfl
      · have hrun : run (ownerStep fun _ => false) LockFile.start firstStarts =
            writePlaceholder (writePlaceholder (askSize (askSize (openFile (openFile LockFile.start
              ⟨1, by decide⟩) ⟨2, by decide⟩) ⟨1, by decide⟩) ⟨2, by decide⟩) ⟨1, by decide⟩)
              ⟨2, by decide⟩ := rfl
        rw [hrun, writePlaceholder_other _ htwo, writePlaceholder_other _ hone,
          askSize_other _ htwo, askSize_other _ hone, openFile_other _ htwo, openFile_other _ hone]
        rfl
  have hstuck : StuckFile (run (ownerStep fun _ => false) LockFile.start firstStarts) :=
    ⟨⟨[], rfl⟩, fun p hp => by rw [hphase p] at hp; exact absurd hp (by decide)⟩
  refine ⟨rfl, fun hrecovers => ?_, stuck_no_owner _ hstuck⟩
  obtain ⟨alive, howner⟩ := hrecovers rfl ⟨3, by decide⟩ rfl .zero ⟨0, ['0'], by simp,
    by simp [Char.isDigit]⟩
  exact stuck_no_owner _ hstuck _ _ _ _ howner

end LocalRag.Runtime
