import LocalRag.Admin.Configuration
import LocalRag.Core.Dict
import Mathlib.Data.List.Dedup
import Mathlib.Data.List.Sort

/-!
# Resolved profiles — what a configuration means for the services

Mirrors `SignedProfileResolver` of `supervisor/controller.py`, `_resolve_manual_ocr_preset` and the
choice of the affected services in `ConfigurationController.apply`. A configuration names three
profiles and a preset of the release's catalog; resolved, it is a dictionary of settings for each
service. Two resolved configurations are compared service by service, as dictionaries are: by what
each name maps to.

Mirroring notes.
* A `dict` is the list of its items.
* `{profile.profile_id: profile …}` keeps the last profile of an id.
* `[0-9]` and the other classes of the patterns are ASCII.
-/

namespace LocalRag.Admin

open LocalRag.Core

/-- What an application may raise. -/
inductive ApplyError where
  /-- `ControllerProtocolError`. -/
  | protocol (message : String)
  /-- `KeyError`. -/
  | key (service : String)
  /-- `controller API request failed`. -/
  | request
  /-- Whatever a call of the runtime raises. -/
  | runtime
deriving Repr, DecidableEq

/-- The settings of one service. -/
abbrev Settings := List (String × String)

/-- The settings by service. -/
abbrev Values := List (String × Settings)

/-! ## Parsing -/

/-- `^[a-z0-9][…]{fewest,most}$`, with a class that has `[a-z0-9]` in it. -/
def isIdentifier (among : Char → Bool) (fewest most : Nat) (text : String) : Bool :=
  text.toList.head?.any isLowerAlnum ∧ text.toList.tail.all among ∧
    fewest ≤ text.toList.tail.length ∧ text.toList.tail.length ≤ most

/-- `_PROFILE_ID`. -/
def isProfileId (text : String) : Bool :=
  isIdentifier (fun c => isLowerAlnum c ∨ c = '.' ∨ c = '_' ∨ c = '-') 2 95 text

/-- `_PRESET_ID`. -/
def isPresetId (text : String) : Bool :=
  isIdentifier (fun c => isLowerAlnum c ∨ c = '_' ∨ c = '-') 1 31 text

/-- `RuntimeConfiguration.parse`, of an object with the five fields. -/
def parseConfiguration (value : Configuration) : Except ApplyError Configuration :=
  if ¬ (isProfileId value.generationProfileId ∧ isProfileId value.rerankerProfileId ∧
      isProfileId value.ocrProfileId) then
    .error (.protocol "configuration profile ID is invalid")
  else if value.ocrMode ≠ "auto" ∧ value.ocrMode ≠ "explicit" then
    .error (.protocol "OCR selection mode is invalid")
  else if ¬ isPresetId value.ocrPresetId then .error (.protocol "OCR preset ID is invalid")
  else .ok value

/-! ## Resolution -/

structure ResolvedProfile where
  profileId : String
  service : String
  environment : Settings
deriving Repr, DecidableEq

structure SignedProfileResolver where
  profiles : List ResolvedProfile
  presets : List (String × Settings)

def unavailableProfile : ApplyError :=
  .protocol "configuration references an unavailable signed profile"

/-- `[1-9][0-9]{0,most - 1}`. -/
def isCount (most : Nat) (digits : List Char) : Bool :=
  digits ≠ [] ∧ digits.head? ≠ some '0' ∧ digits.length ≤ most ∧ digits.all Char.isDigit

/-- `int(digits)`. -/
def countOf (digits : List Char) : Nat :=
  digits.foldl (fun n c => 10 * n + (c.toNat - '0'.toNat)) 0

/-- `_resolve_manual_ocr_preset`. -/
def resolveManualOcrPreset (presetId : String) : Except ApplyError Settings :=
  let rest := presetId.toList.drop 8
  let threads := rest.takeWhile Char.isDigit
  let processes := rest.drop (threads.length + 2)
  if ¬ ("manual-t".toList.isPrefixOf presetId.toList ∧ isCount 3 threads ∧
      "-p".toList.isPrefixOf (rest.drop threads.length) ∧ isCount 2 processes) then
    .error unavailableProfile
  else if ¬ (1 ≤ countOf threads ∧ countOf threads ≤ 256) ∨
      ¬ (1 ≤ countOf processes ∧ countOf processes ≤ 16) then
    .error (.protocol "OCR tuning is outside the supported range")
  else
    .ok [("OCR_CPU_THREADS", toString (countOf threads)), ("OCR_PAGE_BATCH_SIZE", "8"),
      ("OCR_PROCESS_COUNT", toString (countOf processes))]

/-- `for name, value in fields: if name in settings: raise …; settings[name] = value`. -/
def addFields (message : String) (settings fields : Settings) : Except ApplyError Settings :=
  fields.foldlM (fun settings field =>
    if (settings.lookup field.1).isSome then .error (.protocol message)
    else .ok (setItem settings field.1 field.2)) settings

namespace SignedProfileResolver

variable (resolver : SignedProfileResolver)

/-- `self._profiles[profile_id]`. -/
def profile (profileId : String) : Except ApplyError ResolvedProfile :=
  match resolver.profiles.reverse.find? (·.profileId = profileId) with
  | some profile => .ok profile
  | none => .error unavailableProfile

/-- The preset of the catalog, or a manual one. -/
def preset (presetId : String) : Except ApplyError Settings :=
  match resolver.presets.lookup presetId with
  | some preset => .ok preset
  | none => resolveManualOcrPreset presetId

/-- `values.setdefault(profile.service, {})`, and the fields of the profile added to it. -/
def addProfile (values : Values) (profile : ResolvedProfile) : Except ApplyError Values := do
  let settings ← addFields "signed profile fields overlap"
    ((values.lookup profile.service).getD []) profile.environment
  return setItem values profile.service settings

/-- `SignedProfileResolver.resolve`. -/
def resolve (configuration : Configuration) : Except ApplyError Values := do
  let profiles ← [configuration.generationProfileId, configuration.rerankerProfileId,
    configuration.ocrProfileId].mapM resolver.profile
  let preset ← resolver.preset configuration.ocrPresetId
  let values ← profiles.foldlM addProfile []
  let ocr ← addFields "signed OCR preset fields overlap" ((values.lookup "ocr").getD []) preset
  return setItem values "ocr" (setItem ocr "OCR_SELECTION_MODE" configuration.ocrMode)

end SignedProfileResolver

/-! ## The affected services -/

/-- `desired_values.get(service) == prior_values.get(service)`. -/
def sameEntry : Option Settings → Option Settings → Bool
  | none, none => true
  | some a, some b => sameItems a b
  | _, _ => false

/-- `affected`. -/
def affectedServices (desired prior : Values) : List String :=
  (((desired ++ prior).map (·.1)).dedup.filter fun service =>
    ¬ sameEntry (desired.lookup service) (prior.lookup service)).insertionSort (· ≤ ·)

/-- A service is affected when the two configurations do not give it the same settings. -/
theorem mem_affectedServices {desired prior : Values} {service : String} :
    service ∈ affectedServices desired prior ↔
      sameEntry (desired.lookup service) (prior.lookup service) = false := by
  unfold affectedServices
  rw [(List.perm_insertionSort _ _).mem_iff, List.mem_filter, List.mem_dedup]
  constructor
  · intro h
    simpa using h.2
  · intro h
    refine ⟨?_, by simpa using h⟩
    rw [List.map_append]
    cases hd : desired.lookup service with
    | some v => exact List.mem_append_left _ (mem_keys_of_lookup hd)
    | none =>
      cases hp : prior.lookup service with
      | some v => exact List.mem_append_right _ (mem_keys_of_lookup hp)
      | none =>
        rw [hd, hp] at h
        exact absurd h (by simp [sameEntry])

/-- A service that is not affected has the same settings in both. -/
theorem same_of_not_affected {desired prior : Values} {service : String} {settings : Settings}
    (hnot : service ∉ affectedServices desired prior)
    (h : desired.lookup service = some settings) :
    ∃ settings', prior.lookup service = some settings' ∧ sameItems settings settings' = true := by
  rw [mem_affectedServices, h] at hnot
  cases hp : prior.lookup service with
  | none =>
    rw [hp] at hnot
    exact absurd rfl hnot
  | some settings' =>
    rw [hp] at hnot
    exact ⟨settings', rfl, by simpa [sameEntry] using hnot⟩

end LocalRag.Admin
