import LocalRag.Core.IpAddress
import LocalRag.Storage.Ranges

/-!
# Network evidence — no other rule may open port 443

`network_evidence` of `apps/supervisor/evidence.py`, and the two tests it puts to every
enabled inbound allow rule: `_protocol_overlaps_tcp` and `_port_overlaps_443`.

The port test reads the ports part by part and answers `False` only when each part is a
number other than 443, or a range without it (`portLoop_false`). It asks `str.isdigit`
before it calls `int`, and the two read different texts: `²` is a digit and no decimal
one, and `int` refuses more than 4300 digits. `Converts` says that `int` takes what a part
gives it, `Reads` that this is so of every part the test comes to; elsewhere a
`ValueError` leaves the test, and the evidence with it.

The protocol test knows `TCP`, `Any` and `256`. The check of the preview release
(`Test-RagTeamPreviewNetwork.ps1`) also takes `6` for TCP, and a rule that spells it so is
passed over here.

Mirroring notes.
* `Casefold` is `str.casefold`, with what is asked of it. The addresses of the listeners
  are compared as addresses: `str` of one is its normal form.
* `rule is expected_rules[0]` is asked when there is one expected rule, and a rule that
  equals it is that one. Of the report only the findings are kept.
-/

namespace LocalRag.Supervisor

open LocalRag.Core
open Ocr (intOf)
open Storage (intMaxStrDigits)

structure ValueError where
deriving Repr, DecidableEq

/-- `str.casefold`: only their own letters and the capitals fold to these words. -/
structure Casefold where
  fold : String → String
  fold_word : ∀ s, ∀ word ∈ ["any", "tcp", "256"],
    fold s = word ↔ s.toList.map Char.toLower = word.toList

/-! ## The ports of a rule -/

/-- The digits of `str.isdigit` that are no decimal digits, first and last of each block. -/
def digitBlocks : List (Nat × Nat) :=
  [(0xb2, 0xb3), (0xb9, 0xb9), (0x1369, 0x1371), (0x19da, 0x19da), (0x2070, 0x2070),
    (0x2074, 0x2079), (0x2080, 0x2089), (0x2460, 0x2468), (0x2474, 0x247c), (0x2488, 0x2490),
    (0x24ea, 0x24ea), (0x24f5, 0x24fd), (0x24ff, 0x24ff), (0x2776, 0x277e), (0x2780, 0x2788),
    (0x278a, 0x2792), (0x10a40, 0x10a43), (0x10e60, 0x10e68), (0x11052, 0x1105a),
    (0x1f100, 0x1f10a)]

def isDigitChar (c : Char) : Bool :=
  isDecimal c ∨ digitBlocks.any fun block => block.1 ≤ c.toNat ∧ c.toNat ≤ block.2

/-- `str.isdigit`. -/
def isDigit (s : List Char) : Bool := s ≠ [] ∧ s.all isDigitChar

/-- `int` takes it: decimal digits, and not too many. -/
def Decimal (s : List Char) : Prop := s.all isDecimal = true ∧ s.length ≤ intMaxStrDigits

instance (s : List Char) : Decidable (Decimal s) := inferInstanceAs (Decidable (_ ∧ _))

/-- `int(s)`, of a text that `isdigit` accepts. -/
def int (s : List Char) : Except ValueError Nat := if Decimal s then .ok (intOf s) else .error {}

/-- `token.split("-", 1)`, each half stripped. -/
def bounds (token : List Char) : List Char × List Char :=
  (trim isSpace (token.takeWhile (· ≠ '-')), trim isSpace (token.dropWhile (· ≠ '-')).tail)

/-- One turn of the loop: the part ends it with `True`, or the next one is read. -/
def partOverlaps (cf : Casefold) (part : List Char) : Except ValueError Bool :=
  let token := trim isSpace part
  if cf.fold (String.ofList token) = "any" then .ok true
  else if isDigit token then (int token).map fun n => n = 443
  else if '-' ∈ token then
    if isDigit (bounds token).1 ∧ isDigit (bounds token).2 then do
      let lower ← int (bounds token).1
      let upper ← int (bounds token).2
      .ok (decide (lower > upper ∨ (lower ≤ 443 ∧ 443 ≤ upper)))
    else .ok true
  else .ok true

def portLoop (cf : Casefold) : List (List Char) → Except ValueError Bool
  | [] => .ok false
  | part :: rest => do
    if ← partOverlaps cf part then .ok true else portLoop cf rest

/-- `_port_overlaps_443`. -/
def portOverlaps443 (cf : Casefold) (value : String) : Except ValueError Bool :=
  portLoop cf (value.toList.splitOn ',')

/-- `_protocol_overlaps_tcp`. -/
def protocolOverlapsTcp (cf : Casefold) (protocol : String) : Bool :=
  cf.fold protocol ∈ ["tcp", "any", "256"]

/-! ## The report -/

structure Listener where
  address : String
  port : Int
  processName : String
  processPath : String
  processId : Option Nat
  parentProcessId : Option Nat
  inJob : Option Bool
deriving Repr, DecidableEq

structure FirewallRule where
  name : String
  enabled : Bool
  direction : String
  action : String
  profile : String
  protocol : String
  localPort : String
  program : String
  service : String
  localAddress : String
  remoteAddress : String
  interfaceType : String
  edgeTraversal : String
deriving Repr, DecidableEq

structure FirewallProfile where
  name : String
  enabled : Bool
  defaultInboundAction : String
deriving Repr, DecidableEq

/-- The arguments of `network_evidence`. -/
structure Observed where
  listeners : List Listener
  rules : List FirewallRule
  profiles : List FirewallProfile
  pinnedCaddyProgram : String
  expectedLocalAddresses : String × String
  supervisorProcessId : Option Nat

/-- `a == b`, of two sets. -/
def sameSet {α : Type} [DecidableEq α] (a b : List α) : Bool := a.all (· ∈ b) ∧ b.all (· ∈ a)

def Observed.expectedAddresses (w : Observed) : List String :=
  [w.expectedLocalAddresses.1, w.expectedLocalAddresses.2]

def Listener.ip (l : Listener) : Option IpAddress := IpAddress.parse l.address.toList

/-- `expected_families == {4, 6}`; an address that is none leaves the set empty. -/
def Observed.pinsBothFamilies (w : Observed) : Bool :=
  match w.expectedAddresses.mapM fun a => IpAddress.parse a.toList with
  | some ips => sameSet (ips.map IpAddress.version) [4, 6]
  | none => false

/-- `lan`. -/
def Observed.lan (w : Observed) : List Listener :=
  w.listeners.filter fun l => ¬ l.ip.any IpAddress.isLoopback

section

variable (cf : Casefold) (w : Observed)

def Observed.isPinned (program : String) : Bool := cf.fold program = cf.fold w.pinnedCaddyProgram

def Listener.isUnexpected (l : Listener) : Bool :=
  l.port ≠ 443 ∨ cf.fold l.processName ≠ "caddy" ∨ ¬ w.isPinned cf l.processPath ∨
    ¬ l.ip.any fun ip => ip.version ∈ [4, 6]

/-- `observed_addresses`. -/
def Observed.observedAddresses : List IpAddress :=
  (w.lan.filter fun l => l.port = 443 ∧ cf.fold l.processName = "caddy" ∧
    w.isPinned cf l.processPath).filterMap Listener.ip

/-- `caddy_listeners`. -/
def Observed.caddyListeners : List Listener :=
  w.lan.filter fun l => l.port = 443 ∧ w.isPinned cf l.processPath

def Observed.listenerFindings : List String :=
  (if w.expectedLocalAddresses.1 = w.expectedLocalAddresses.2 ∨ ¬ w.pinsBothFamilies then
    ["configured Caddy listeners must pin one IPv4 and one IPv6"] else []) ++
  (w.lan.filter (·.isUnexpected cf w)).map (fun l =>
    s!"unexpected LAN listener {l.address}:{l.port} owned by {l.processName}") ++
  (if ¬ sameSet (w.observedAddresses cf)
      (w.expectedAddresses.filterMap fun a => IpAddress.parse a.toList) then
    ["pinned Caddy TCP 443 listeners do not exactly match configured IPv4 and IPv6 addresses"]
    else []) ++
  (if none ∈ (w.caddyListeners cf).map (·.processId) ∨
      ((w.caddyListeners cf).map (·.processId)).dedup.length ≠ 1 then
    ["IPv4 and IPv6 TCP 443 listeners must share one Caddy PID"] else []) ++
  (if w.supervisorProcessId ≠ none ∧
      ∃ l ∈ w.caddyListeners cf, l.parentProcessId ≠ w.supervisorProcessId then
    ["Caddy parent process is not the expected supervisor"] else []) ++
  (if ∃ l ∈ w.caddyListeners cf, l.inJob ≠ some true then
    ["Caddy Job Object membership is not proven"] else [])

/-- `profile_state.get(name)`: the last profile of that name. -/
def Observed.profile (name : String) : Option FirewallProfile :=
  w.profiles.reverse.find? fun p => p.name = name

def Observed.profileFindings : List String :=
  (if ¬ sameSet (w.profiles.map (·.name)) ["Private", "Public"] then
    ["Private and Public firewall profiles must both be present"] else []) ++
  (["Private", "Public"].filter fun name =>
    ¬ (w.profile name).any fun p => p.enabled ∧ p.defaultInboundAction = "Block").map fun name =>
      s!"{name} firewall must be enabled with default inbound Block"

/-- An enabled rule that lets something in. -/
def FirewallRule.allowsInbound (rule : FirewallRule) : Bool :=
  rule.enabled ∧ rule.direction = "Inbound" ∧ rule.action = "Allow"

/-- `expected_rules`. -/
def expectedRules (rules : List FirewallRule) : List FirewallRule :=
  rules.filter fun rule => rule.allowsInbound ∧ rule.name = "Local RAG HTTPS"

/-- The rule is the pinned scoped contract. -/
def FirewallRule.meetsContract (rule : FirewallRule) : Bool :=
  rule.profile = "Private" ∧ rule.protocol = "TCP" ∧ rule.localPort = "443" ∧
    w.isPinned cf rule.program ∧ cf.fold rule.service = "any" ∧
    sameSet ((rule.localAddress.toList.splitOn ',').map fun item =>
      cf.fold (String.ofList (trim isSpace item))) (w.expectedAddresses.map cf.fold) ∧
    rule.remoteAddress = "LocalSubnet" ∧
    sameSet ((rule.interfaceType.toList.splitOn ',').map fun item =>
      String.ofList (trim isSpace item)) ["Wired", "Wireless"] ∧
    rule.edgeTraversal = "Block"

def contractMismatch : String := "Local RAG HTTPS rule does not match the pinned scoped contract"

def Observed.contractFindings : List String :=
  match expectedRules w.rules with
  | [rule] => if rule.meetsContract cf w then [] else [contractMismatch]
  | _ => ["exactly one enabled Local RAG HTTPS allow rule is required"]

def overlapFinding (rule : FirewallRule) : String :=
  s!"overlapping inbound TCP 443 allow rule: {rule.name}"

/-- One turn of the last loop: is there a finding on the rule? -/
def ruleOverlaps (expected : List FirewallRule) (rule : FirewallRule) : Except ValueError Bool :=
  if ¬ rule.allowsInbound ∨ ¬ protocolOverlapsTcp cf rule.protocol then .ok false
  else do
    if ← portOverlaps443 cf rule.localPort then .ok (decide (expected ≠ [rule])) else .ok false

def overlapFindings (expected : List FirewallRule) :
    List FirewallRule → Except ValueError (List String)
  | [] => .ok []
  | rule :: rest => do
    let overlaps ← ruleOverlaps cf expected rule
    let findings ← overlapFindings expected rest
    .ok (if overlaps then overlapFinding rule :: findings else findings)

/-- `network_evidence`, the findings of the report. -/
def networkEvidence : Except ValueError (List String) := do
  let overlaps ← overlapFindings cf (expectedRules w.rules) w.rules
  .ok (w.listenerFindings cf ++ w.profileFindings ++ w.contractFindings cf ++ overlaps)

end

/-! ## What a part may say -/

/-- A decimal number, in the digits of any script. -/
def Number (s : List Char) (n : Nat) : Prop := s ≠ [] ∧ s.all isDecimal = true ∧ intOf s = n

/-- Two decimal numbers around a dash, in their order. -/
def NumberRange (s : List Char) (lower upper : Nat) : Prop :=
  ∃ a b, s = a ++ '-' :: b ∧ '-' ∉ a ∧ Number (trim isSpace a) lower ∧
    Number (trim isSpace b) upper ∧ lower ≤ upper

/-- The part is a number other than 443 or a range without it. -/
def Harmless (part : List Char) : Prop :=
  (∃ n, Number (trim isSpace part) n ∧ n ≠ 443) ∨
    ∃ lower upper, NumberRange (trim isSpace part) lower upper ∧ ¬(lower ≤ 443 ∧ 443 ≤ upper)

/-- Every text of the part that `int` is asked for is one it reads. -/
def Converts (part : List Char) : Prop :=
  let token := trim isSpace part
  (isDigit token = true → Decimal token) ∧
    ('-' ∈ token → isDigit (bounds token).1 = true → isDigit (bounds token).2 = true →
      Decimal (bounds token).1 ∧ Decimal (bounds token).2)

/-- `Converts`, of every part that the test comes to. -/
def Reads : List (List Char) → Prop
  | [] => True
  | part :: rest => Converts part ∧ (Harmless part → Reads rest)

section Parts

variable {cf : Casefold} {part s : List Char} {parts : List (List Char)}

theorem isDigit_of_number {n : Nat} (h : Number s n) : isDigit s = true := by
  refine decide_eq_true ⟨h.1, List.all_eq_true.mpr fun c hc => ?_⟩
  exact decide_eq_true (Or.inl (List.all_eq_true.mp h.2.1 c hc))

theorem number_iff {n : Nat} (h : Decimal s) (hs : isDigit s = true) : Number s n ↔ intOf s = n :=
  ⟨fun hn => hn.2.2, fun hn => ⟨(of_decide_eq_true hs).1, h.1, hn⟩⟩

/-- A text of digits has no dash. -/
theorem dash_notMem (h : isDigit s = true) : '-' ∉ s := fun hdash =>
  absurd (List.all_eq_true.mp (of_decide_eq_true h).2 '-' hdash) (by decide)

theorem bounds_append {a b : List Char} (ha : '-' ∉ a) :
    bounds (a ++ '-' :: b) = (trim isSpace a, trim isSpace b) := by
  have hpass : ∀ c ∈ a, decide (c ≠ '-') = true := by
    intro c hc
    refine decide_eq_true ?_
    rintro rfl
    exact ha hc
  unfold bounds
  rw [List.takeWhile_append_of_pos hpass, List.dropWhile_append_of_pos hpass]
  simp

theorem numberRange_iff {lower upper : Nat} (h : '-' ∈ s) :
    NumberRange s lower upper ↔ Number (bounds s).1 lower ∧ Number (bounds s).2 upper ∧
      lower ≤ upper := by
  constructor
  · rintro ⟨a, b, rfl, ha, hl, hu, hle⟩
    rw [bounds_append ha]
    exact ⟨hl, hu, hle⟩
  · rintro ⟨hl, hu, hle⟩
    obtain ⟨a, b, rfl, ha⟩ := List.eq_append_cons_of_mem h
    rw [bounds_append ha] at hl hu
    exact ⟨a, b, rfl, ha, hl, hu, hle⟩

/-- No digit is a capital letter. -/
theorem toLower_of_digit {c : Char} (h : isDigitChar c = true) : c.toLower = c := by
  have hcapitals : ∀ n < 91, 65 ≤ n → isDigitChar (Char.ofNat n) = false := by decide
  unfold Char.toLower
  refine dif_neg fun hc => ?_
  have hlo : 65 ≤ c.toNat := hc.1
  have hhi : c.toNat ≤ 90 := hc.2
  have hnone := hcapitals c.toNat (by omega) hlo
  rw [Char.ofNat_toNat, h] at hnone
  exact absurd hnone (by decide)

/-- The word `any` is no text of digits, and has no dash. -/
theorem any_not_number (h : cf.fold (String.ofList s) = "any") :
    isDigit s = false ∧ '-' ∉ s := by
  have hword := (cf.fold_word _ "any" (by simp)).mp h
  rw [String.toList_ofList] at hword
  have hletter : ∀ c ∈ s, c.toLower ∈ ['a', 'n', 'y'] := by
    intro c hc
    have hlower := List.mem_map_of_mem (f := Char.toLower) hc
    rwa [hword] at hlower
  constructor
  · refine Bool.eq_false_iff.mpr fun hdigits => ?_
    obtain ⟨hne, hall⟩ := of_decide_eq_true hdigits
    obtain ⟨c, hc⟩ := List.exists_mem_of_ne_nil s hne
    have hdigit := List.all_eq_true.mp hall c hc
    have hmem := hletter c hc
    rw [toLower_of_digit hdigit] at hmem
    simp only [List.mem_cons, List.not_mem_nil, or_false] at hmem
    rcases hmem with rfl | rfl | rfl <;> exact absurd hdigit (by decide)
  · intro hdash
    exact absurd (hletter '-' hdash) (by decide)

/-- A harmless part is one number, or two around a dash. -/
theorem harmless_cases (h : Harmless part) :
    isDigit (trim isSpace part) = true ∨ '-' ∈ trim isSpace part := by
  rcases h with ⟨n, hn, -⟩ | ⟨lower, upper, ⟨a, b, hs, -⟩, -⟩
  · exact Or.inl (isDigit_of_number hn)
  · rw [hs]
    exact Or.inr (by simp)

theorem int_ok (h : Decimal s) : int s = .ok (intOf s) := if_pos h

theorem int_error (h : ¬ Decimal s) : int s = .error {} := if_neg h

/-- A part that converts is answered, with `False` exactly when it is harmless. -/
theorem partOverlaps_ok (h : Converts part) :
    ∃ b, partOverlaps cf part = .ok b ∧ (b = false ↔ Harmless part) := by
  obtain ⟨hnumber, hrange⟩ := h
  unfold partOverlaps
  by_cases hany : cf.fold (String.ofList (trim isSpace part)) = "any"
  · obtain ⟨hdigit, hdash⟩ := any_not_number hany
    refine ⟨true, if_pos hany, by simp, fun hharmless => ?_⟩
    rcases harmless_cases hharmless with h | h
    · rw [hdigit] at h
      exact absurd h (by decide)
    · exact absurd h hdash
  simp only [if_neg hany]
  by_cases hdigit : isDigit (trim isSpace part) = true
  · have hdecimal := hnumber hdigit
    refine ⟨_, by rw [if_pos hdigit, int_ok hdecimal]; rfl, ?_⟩
    rw [decide_eq_false_iff_not]
    constructor
    · intro hne
      exact Or.inl ⟨_, (number_iff hdecimal hdigit).mpr rfl, hne⟩
    · rintro (⟨n, hn, hne⟩ | ⟨lower, upper, ⟨a, b, hs, -⟩, -⟩)
      · rwa [(number_iff hdecimal hdigit).mp hn]
      · exact absurd (hs ▸ by simp) (dash_notMem hdigit)
  rw [if_neg hdigit]
  by_cases hdash : '-' ∈ trim isSpace part
  · rw [if_pos hdash]
    by_cases hbounds : isDigit (bounds (trim isSpace part)).1 = true ∧
        isDigit (bounds (trim isSpace part)).2 = true
    · obtain ⟨hlower, hupper⟩ := hrange hdash hbounds.1 hbounds.2
      rw [if_pos hbounds, int_ok hlower, int_ok hupper]
      refine ⟨_, rfl, ?_⟩
      rw [decide_eq_false_iff_not]
      constructor
      · intro hout
        refine Or.inr ⟨_, _, (numberRange_iff hdash).mpr
          ⟨(number_iff hlower hbounds.1).mpr rfl, (number_iff hupper hbounds.2).mpr rfl, ?_⟩, ?_⟩
        · omega
        · omega
      · rintro (⟨n, hn, -⟩ | ⟨lower, upper, hin, hout⟩)
        · exact absurd (isDigit_of_number hn) hdigit
        · obtain ⟨hl, hu, hle⟩ := (numberRange_iff hdash).mp hin
          rw [(number_iff hlower hbounds.1).mp hl, (number_iff hupper hbounds.2).mp hu]
          omega
    · rw [if_neg hbounds]
      refine ⟨true, rfl, by simp, ?_⟩
      rintro (⟨n, hn, -⟩ | ⟨lower, upper, hin, -⟩)
      · exact absurd (isDigit_of_number hn) hdigit
      · obtain ⟨hl, hu, -⟩ := (numberRange_iff hdash).mp hin
        exact absurd ⟨isDigit_of_number hl, isDigit_of_number hu⟩ hbounds
  · rw [if_neg hdash]
    refine ⟨true, rfl, by simp, fun hharmless => ?_⟩
    rcases harmless_cases hharmless with h | h
    · exact absurd h hdigit
    · exact absurd h hdash

/-- On every other part `int` raises. -/
theorem partOverlaps_error (h : ¬ Converts part) : partOverlaps cf part = .error {} := by
  unfold partOverlaps
  have hany : cf.fold (String.ofList (trim isSpace part)) ≠ "any" := by
    intro hany
    obtain ⟨hdigit, hdash⟩ := any_not_number hany
    exact h ⟨fun hin => absurd hin (by rw [hdigit]; decide), fun hin => absurd hin hdash⟩
  simp only [if_neg hany]
  by_cases hdigit : isDigit (trim isSpace part) = true
  · have hdecimal : ¬ Decimal (trim isSpace part) := fun hdecimal =>
      h ⟨fun _ => hdecimal, fun hdash => absurd hdash (dash_notMem hdigit)⟩
    rw [if_pos hdigit, int_error hdecimal]
    rfl
  rw [if_neg hdigit]
  -- the halves of a range are read from left to right
  have hrange : '-' ∈ trim isSpace part ∧ (isDigit (bounds (trim isSpace part)).1 = true ∧
      isDigit (bounds (trim isSpace part)).2 = true) ∧
      ¬(Decimal (bounds (trim isSpace part)).1 ∧ Decimal (bounds (trim isSpace part)).2) := by
    by_contra hnone
    refine h ⟨fun hin => absurd hin hdigit, fun hdash hlower hupper => ?_⟩
    by_contra hrefused
    exact hnone ⟨hdash, ⟨hlower, hupper⟩, hrefused⟩
  obtain ⟨hdash, hbounds, hrefused⟩ := hrange
  rw [if_pos hdash, if_pos hbounds]
  by_cases hlower : Decimal (bounds (trim isSpace part)).1
  · rw [int_ok hlower, int_error fun hupper => hrefused ⟨hlower, hupper⟩]
    rfl
  · rw [int_error hlower]
    rfl

/-- The test answers exactly when it can read what it comes to. -/
theorem portLoop_answers : (∃ b, portLoop cf parts = .ok b) ↔ Reads parts := by
  induction parts with
  | nil => exact iff_of_true ⟨false, rfl⟩ trivial
  | cons part rest ih =>
    unfold portLoop Reads
    by_cases hconverts : Converts part
    · obtain ⟨b, hb, hharmless⟩ := @partOverlaps_ok cf _ hconverts
      rw [hb]
      cases b with
      | true =>
        refine iff_of_true ⟨true, rfl⟩ ⟨hconverts, fun hpart => ?_⟩
        exact absurd (hharmless.mpr hpart) (by decide)
      | false =>
        refine ih.trans ⟨fun hrest => ⟨hconverts, fun _ => hrest⟩, fun hreads => ?_⟩
        exact hreads.2 (hharmless.mp rfl)
    · rw [partOverlaps_error hconverts]
      refine iff_of_false ?_ fun hreads => hconverts hreads.1
      rintro ⟨b, hb⟩
      cases hb

/-- The test answers `False` exactly when every part is harmless. -/
theorem portLoop_false {b : Bool} (h : portLoop cf parts = .ok b) :
    b = false ↔ ∀ part ∈ parts, Harmless part := by
  induction parts with
  | nil =>
    obtain rfl : false = b := Except.ok.inj h
    simp
  | cons part rest ih =>
    unfold portLoop at h
    obtain ⟨overlaps, hpart, h⟩ := bind_eq_ok.mp h
    have hconverts : Converts part := by
      by_contra hnot
      rw [partOverlaps_error hnot] at hpart
      cases hpart
    obtain ⟨b', hb', hharmless⟩ := @partOverlaps_ok cf _ hconverts
    obtain rfl : b' = overlaps := Except.ok.inj (hb'.symm.trans hpart)
    rw [List.forall_mem_cons, ← hharmless]
    cases b' with
    | true =>
      obtain rfl : true = b := Except.ok.inj h
      simp
    | false => simpa using ih h

end Parts
/-! ## Every competing rule is reported -/

/-- Some part of the ports is not known to leave 443 closed. -/
def PortsAdmit443 (value : String) : Prop := ∃ part ∈ value.toList.splitOn ',', ¬ Harmless part

/-- The protocol is TCP or any, in a spelling that one of the checks takes for it. -/
def NamesTcp (cf : Casefold) (protocol : String) : Prop :=
  protocolOverlapsTcp cf protocol = true ∨ protocol = "6"

/-- An enabled inbound allow rule that admits TCP 443, and is not the one expected rule. -/
def Competes (cf : Casefold) (w : Observed) (rule : FirewallRule) : Prop :=
  rule.allowsInbound = true ∧ NamesTcp cf rule.protocol ∧ PortsAdmit443 rule.localPort ∧
    expectedRules w.rules ≠ [rule]

open Classical in
/-- The evidence is there, with a finding on each competing rule, and on the expected rule
where it is not the pinned contract. -/
def Reported (cf : Casefold) (w : Observed) : Prop :=
  ∃ findings, networkEvidence cf w = .ok findings ∧
    ((w.rules.filter fun rule => Competes cf w rule).map overlapFinding).Sublist findings ∧
    ∀ rule, expectedRules w.rules = [rule] → rule.meetsContract cf w = false →
      contractMismatch ∈ findings

/-- The rule is put to the port test. -/
def Asked (cf : Casefold) (rule : FirewallRule) : Prop :=
  rule.allowsInbound = true ∧ protocolOverlapsTcp cf rule.protocol = true

/-- The rule gets a finding. -/
def Detected (cf : Casefold) (expected : List FirewallRule) (rule : FirewallRule) : Prop :=
  Asked cf rule ∧ PortsAdmit443 rule.localPort ∧ expected ≠ [rule]

/-- The ports of every rule that is asked can be read, and no competing rule spells TCP `6`. -/
def Legible (cf : Casefold) (w : Observed) : Prop :=
  (∀ rule ∈ w.rules, Asked cf rule → Reads (rule.localPort.toList.splitOn ',')) ∧
    ∀ rule ∈ w.rules, Competes cf w rule → rule.protocol ≠ "6"

section Evidence

variable {cf : Casefold} {w : Observed} {expected rules : List FirewallRule} {rule : FirewallRule}

theorem not_asked (h : ¬ Asked cf rule) :
    ¬ rule.allowsInbound = true ∨ ¬ protocolOverlapsTcp cf rule.protocol = true := by
  by_contra hboth
  rw [not_or, not_not, not_not] at hboth
  exact h hboth

/-- The turn of a rule ends exactly when its ports can be read. -/
theorem ruleOverlaps_answers : (∃ b, ruleOverlaps cf expected rule = .ok b) ↔
    (Asked cf rule → Reads (rule.localPort.toList.splitOn ',')) := by
  unfold ruleOverlaps
  by_cases hasked : Asked cf rule
  · rw [if_neg (by simp [hasked.1, hasked.2]), imp_iff_right hasked, ← @portLoop_answers cf]
    constructor
    · rintro ⟨b, hb⟩
      obtain ⟨overlaps, hports, -⟩ := bind_eq_ok.mp hb
      exact ⟨overlaps, hports⟩
    · rintro ⟨overlaps, hports⟩
      cases overlaps with
      | true => exact ⟨_, bind_eq_ok.mpr ⟨true, hports, rfl⟩⟩
      | false => exact ⟨_, bind_eq_ok.mpr ⟨false, hports, rfl⟩⟩
  · rw [if_pos (not_asked hasked)]
    exact iff_of_true ⟨false, rfl⟩ fun h => absurd h hasked

/-- The last branch of the turn: the rule was asked, admits 443 and is not the expected one. -/
theorem ruleOverlaps_ok {b : Bool} (h : ruleOverlaps cf expected rule = .ok b) :
    b = true ↔ Detected cf expected rule := by
  unfold ruleOverlaps at h
  unfold Detected
  by_cases hasked : Asked cf rule
  · rw [if_neg (by simp [hasked.1, hasked.2])] at h
    obtain ⟨overlaps, hports, h⟩ := bind_eq_ok.mp h
    have hadmit : overlaps = true ↔ PortsAdmit443 rule.localPort := by
      unfold PortsAdmit443
      rw [← Bool.not_eq_false, portLoop_false hports]
      simp only [not_forall, exists_prop]
    rw [← hadmit]
    cases overlaps with
    | true =>
      obtain rfl : decide (expected ≠ [rule]) = b := Except.ok.inj h
      simp [hasked]
    | false =>
      obtain rfl : false = b := Except.ok.inj h
      simp
  · rw [if_pos (not_asked hasked)] at h
    obtain rfl : false = b := Except.ok.inj h
    simp [hasked]

theorem overlapFindings_answers : (∃ findings, overlapFindings cf expected rules = .ok findings) ↔
    ∀ rule ∈ rules, Asked cf rule → Reads (rule.localPort.toList.splitOn ',') := by
  induction rules with
  | nil => exact iff_of_true ⟨[], rfl⟩ (List.forall_mem_nil _)
  | cons rule rest ih =>
    rw [List.forall_mem_cons, ← @ruleOverlaps_answers _ expected, ← ih, overlapFindings]
    constructor
    · rintro ⟨findings, h⟩
      obtain ⟨b, hb, h⟩ := bind_eq_ok.mp h
      obtain ⟨others, hrest, -⟩ := bind_eq_ok.mp h
      exact ⟨⟨b, hb⟩, others, hrest⟩
    · rintro ⟨⟨b, hb⟩, others, hrest⟩
      exact ⟨_, bind_eq_ok.mpr ⟨b, hb, bind_eq_ok.mpr ⟨others, hrest, rfl⟩⟩⟩

open Classical in
/-- One finding for each such rule, in their order. -/
theorem overlapFindings_ok {findings : List String}
    (h : overlapFindings cf expected rules = .ok findings) :
    findings = (rules.filter fun rule => Detected cf expected rule).map overlapFinding := by
  induction rules generalizing findings with
  | nil => exact (Except.ok.inj h).symm
  | cons rule rest ih =>
    rw [overlapFindings] at h
    obtain ⟨b, hb, h⟩ := bind_eq_ok.mp h
    obtain ⟨others, hrest, h⟩ := bind_eq_ok.mp h
    obtain rfl := Except.ok.inj h
    have hdetected := ruleOverlaps_ok hb
    rw [List.filter_cons, ih hrest]
    cases b with
    | true => simp [hdetected.mp rfl]
    | false =>
      have hnot : ¬ Detected cf expected rule := fun hin => absurd (hdetected.mpr hin) (by decide)
      simp [hnot]

/-- A text begins as its first piece does. -/
theorem head_append {a : String} {c : Char} (h : a.toList.head? = some c) (b : String) :
    (a ++ b).toList.head? = some c := by
  rw [String.toList_append, List.head?_append, h]
  rfl

/-- A finding on a rule opens with the word `overlapping`; no other finding does. -/
theorem head_overlapFinding (rule : FirewallRule) :
    (overlapFinding rule).toList.head? = some 'o' :=
  head_append (by decide) _

variable {f : String}

theorem head_listenerFindings (hf : f ∈ w.listenerFindings cf) : f.toList.head? ≠ some 'o' := by
  unfold Observed.listenerFindings at hf
  simp only [List.mem_append, List.mem_ite_nil_right, List.mem_singleton, List.mem_map] at hf
  rcases hf with ((((⟨-, rfl⟩ | ⟨l, -, rfl⟩) | ⟨-, rfl⟩) | ⟨-, rfl⟩) | ⟨-, rfl⟩) | ⟨-, rfl⟩
  · decide
  · have hu : (s!"unexpected LAN listener {l.address}:{l.port} owned by {l.processName}").toList.head? =
        some 'u' :=
      head_append (head_append (head_append (head_append (head_append (by decide) _) _) _) _) _
    rw [hu]
    decide
  · decide
  · decide
  · decide
  · decide

theorem head_profileFindings (hf : f ∈ w.profileFindings) : f.toList.head? ≠ some 'o' := by
  unfold Observed.profileFindings at hf
  simp only [List.mem_append, List.mem_ite_nil_right, List.mem_map, List.mem_filter,
    List.mem_cons, List.not_mem_nil, or_false] at hf
  rcases hf with ⟨-, rfl⟩ | ⟨name, ⟨rfl | rfl, -⟩, rfl⟩ <;> decide

theorem head_contractFindings (hf : f ∈ w.contractFindings cf) : f.toList.head? ≠ some 'o' := by
  unfold Observed.contractFindings at hf
  split at hf
  next rule =>
    split at hf
    next => exact absurd hf List.not_mem_nil
    next =>
      obtain rfl := List.mem_singleton.mp hf
      decide
  next =>
    obtain rfl := List.mem_singleton.mp hf
    decide

open Classical in
/-- The report reads back: what its last part is, and that no other part is about a rule. -/
theorem networkEvidence_ok {findings : List String} (h : networkEvidence cf w = .ok findings) :
    ∃ front, (∀ f ∈ front, f.toList.head? ≠ some 'o') ∧
      (∀ f ∈ w.contractFindings cf, f ∈ front) ∧
      findings = front ++ (w.rules.filter fun rule =>
        Detected cf (expectedRules w.rules) rule).map overlapFinding := by
  obtain ⟨overlaps, hoverlaps, h⟩ := bind_eq_ok.mp h
  obtain rfl := Except.ok.inj h
  refine ⟨_, fun f hf => ?_, fun f hf => ?_, congrArg (_ ++ ·) (overlapFindings_ok hoverlaps)⟩
  · simp only [List.mem_append] at hf
    rcases hf with (hf | hf) | hf
    · exact head_listenerFindings hf
    · exact head_profileFindings hf
    · exact head_contractFindings hf
  · exact List.mem_append_right _ hf

theorem networkEvidence_answers : (∃ findings, networkEvidence cf w = .ok findings) ↔
    ∀ rule ∈ w.rules, Asked cf rule → Reads (rule.localPort.toList.splitOn ',') := by
  rw [← @overlapFindings_answers _ (expectedRules w.rules)]
  constructor
  · rintro ⟨findings, h⟩
    obtain ⟨overlaps, hoverlaps, -⟩ := bind_eq_ok.mp h
    exact ⟨overlaps, hoverlaps⟩
  · rintro ⟨overlaps, hoverlaps⟩
    exact ⟨_, bind_eq_ok.mpr ⟨overlaps, hoverlaps, rfl⟩⟩

theorem not_overlaps_six : protocolOverlapsTcp cf "6" = false := by
  refine decide_eq_false fun hin => ?_
  have hword := (cf.fold_word "6" _ (by simpa [or_comm, or_left_comm] using hin)).mp rfl
  simp only [List.mem_cons, List.not_mem_nil, or_false] at hin
  rcases hin with h | h | h <;> rw [h] at hword <;> exact absurd hword (by decide)

/-- Whatever gets a finding competes. -/
theorem competes_of_detected (h : Detected cf (expectedRules w.rules) rule) : Competes cf w rule :=
  ⟨h.1.1, Or.inl h.1.2, h.2.1, h.2.2⟩

/-- What competes gets a finding, unless its protocol is spelled `6`. -/
theorem detected_iff (h : Competes cf w rule) :
    Detected cf (expectedRules w.rules) rule ↔ rule.protocol ≠ "6" := by
  obtain ⟨hallows, htcp, hports, hother⟩ := h
  constructor
  · intro hdetected hsix
    have hoverlaps := hdetected.1.2
    rw [hsix, not_overlaps_six] at hoverlaps
    exact absurd hoverlaps (by decide)
  · intro hsix
    exact ⟨⟨hallows, htcp.resolve_right hsix⟩, hports, hother⟩

/-- The report is complete exactly when it can be made and knows every spelling it meets. -/
theorem reported_iff : Reported cf w ↔ Legible cf w := by
  classical
  unfold Reported Legible
  rw [← networkEvidence_answers]
  constructor
  · rintro ⟨findings, hfindings, hall, -⟩
    refine ⟨⟨findings, hfindings⟩, fun rule hrule hcompetes => ?_⟩
    rw [← detected_iff hcompetes]
    obtain ⟨front, hfront, -, rfl⟩ := networkEvidence_ok hfindings
    -- only the last part can hold the findings on the rules
    have hlast := hall.filter fun f => decide (f.toList.head? = some 'o')
    have hnone : front.filter (fun f => decide (f.toList.head? = some 'o')) = [] :=
      List.filter_eq_nil_iff.mpr fun f hf => by simpa using hfront f hf
    have hkeep : ∀ rs : List FirewallRule, (rs.map overlapFinding).filter
        (fun f => decide (f.toList.head? = some 'o')) = rs.map overlapFinding := by
      intro rs
      refine List.filter_eq_self.mpr fun f hf => ?_
      obtain ⟨rule, -, rfl⟩ := List.mem_map.mp hf
      exact decide_eq_true (head_overlapFinding rule)
    rw [List.filter_append, hnone, List.nil_append, hkeep, hkeep] at hlast
    have hlength := hlast.length_le
    rw [List.length_map, List.length_map] at hlength
    -- what is detected competes, so it is all that competes
    have hsub : (w.rules.filter fun rule => Detected cf (expectedRules w.rules) rule).Sublist
        (w.rules.filter fun rule => Competes cf w rule) :=
      List.monotone_filter_right _ fun r hr =>
        decide_eq_true (competes_of_detected (of_decide_eq_true hr))
    have heq := hsub.eq_of_length_le hlength
    have hin : rule ∈ w.rules.filter fun rule => Competes cf w rule :=
      List.mem_filter.mpr ⟨hrule, decide_eq_true hcompetes⟩
    rw [← heq] at hin
    exact of_decide_eq_true (List.mem_filter.mp hin).2
  · rintro ⟨⟨findings, hfindings⟩, hspelled⟩
    obtain ⟨front, -, hcontract, rfl⟩ := networkEvidence_ok hfindings
    refine ⟨_, hfindings, ?_, fun rule hexpected hmismatch => ?_⟩
    · have hsame : (w.rules.filter fun rule => Competes cf w rule) =
          w.rules.filter fun rule => Detected cf (expectedRules w.rules) rule := by
        refine List.filter_congr fun rule hrule => decide_eq_decide.mpr ⟨fun hcompetes => ?_, ?_⟩
        · exact (detected_iff hcompetes).mpr (hspelled rule hrule hcompetes)
        · exact competes_of_detected
      rw [hsame]
      exact List.sublist_append_right _ _
    · refine List.mem_append_left _ (hcontract _ ?_)
      unfold Observed.contractFindings
      rw [hexpected]
      simp [hmismatch]

end Evidence

/-! ## The two tests, on every input -/

/-- The port test returns, and answers `False` only where every part is harmless. -/
def SoundOn (cf : Casefold) (value : String) : Prop :=
  ∃ b, portOverlaps443 cf value = .ok b ∧
    (b = false → ∀ part ∈ value.toList.splitOn ',', Harmless part)

/-- The port test is sound wherever it can read what it comes to, and the evidence is complete
wherever the ports it asks for can be read and no competing rule spells TCP `6`. -/
theorem port_test_sound_iff (cf : Casefold) :
    (∀ value, SoundOn cf value ↔ Reads (value.toList.splitOn ',')) ∧
      ∀ w, Reported cf w ↔ Legible cf w := by
  refine ⟨fun value => ?_, fun w => reported_iff⟩
  unfold SoundOn
  rw [← @portLoop_answers cf]
  constructor
  · rintro ⟨b, hb, -⟩
    exact ⟨b, hb⟩
  · rintro ⟨b, hb⟩
    exact ⟨b, hb, (portLoop_false hb).mp⟩

/-- Folding, where only ASCII letters have a capital. -/
def asciiFold : Casefold where
  fold s := String.ofList (s.toList.map Char.toLower)
  fold_word := by
    intro s word _
    rw [← String.toList_inj, String.toList_ofList]

/-- An enabled allow rule whose port is a superscript two. -/
def superscriptRule : FirewallRule :=
  ⟨"Open", true, "Inbound", "Allow", "Private", "TCP", "²", "Any", "Any", "Any", "Any", "Any",
    "Block"⟩

/-- A host that has that rule. -/
def superscriptHost : Observed := ⟨[], [superscriptRule], [], "caddy.exe", ("", ""), none⟩

/-- `²` is a digit that `int` refuses: the test raises, and there is no report. -/
theorem port_test_superscript :
    ¬ SoundOn asciiFold "²" ∧ ¬ Reported asciiFold superscriptHost := by
  have hraises : portOverlaps443 asciiFold "²" = .error {} := by decide
  have hlost : networkEvidence asciiFold superscriptHost = .error {} := rfl
  constructor
  · rintro ⟨b, hb, -⟩
    rw [hraises] at hb
    cases hb
  · rintro ⟨findings, hfindings, -⟩
    rw [hlost] at hfindings
    cases hfindings

end LocalRag.Supervisor
