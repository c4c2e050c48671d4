import Werewolf.Storage.ProtectedState

/-! The flat files of a Den without a manifest, and its migration to the first
generation. -/

namespace Werewolf.Storage
open Library Governance State Policy

def packFile : String := "pack.json"
def silverFile : String := "silver.json"
def targetPolicyFile : String := "target_policy.json"
def fangsFile : String := "fangs.json"
def activeFangsFile : String := "active_fangs.json"

section Legacy

variable (platform : Platform)

/-- A flat file read as a value, with a default where it is absent. -/
def readFlat {α : Type} (den : Den) (file : String) (limit : Nat) (default : α)
    (parse : List UInt8 → Except Error α) : Except Error α := do
  match ← read den file limit with
  | none => .ok default
  | some data => parse data

def canonicalSilverFromLegacy (bytes : List UInt8) : Except Error (List UInt8) := do
  let value ← orError .invalidGeneration (platform.readSilver bytes)
  if value.version ≠ 1 then .error .invalidGeneration
  else if value.mode = "locked" then .ok (canonicalSilver true)
  else if value.mode = "open" then .ok (canonicalSilver false)
  else .error .invalidGeneration

def legacySilver (den : Den) : Except Error Bool :=
  readFlat den silverFile manifestLimit true (fun data => do
    parseSilver platform (← canonicalSilverFromLegacy platform data))

def readValid {α : Type} (fromSlice : List UInt8 → Option (List α)) (valid : List α → Bool)
    (data : List UInt8) : Except Error (List α) := do
  let values ← orError .invalidGeneration (fromSlice data)
  if valid values then .ok values else .error .invalidState

def legacyState (den : Den) : Except Error ProtectedState := do
  let silverLocked ← legacySilver platform den
  let peers ← readFlat den packFile documentLimit []
    (readValid platform.readPeers (pack platform.toExternal))
  let targetPolicy ← readFlat den targetPolicyFile documentLimit .deny (fun data => do
    parsePolicy platform (← orError .invalidPolicy
      (canonicalize platform.toAddressing platform.readPolicy data)))
  let fangProfiles ← readFlat den fangsFile documentLimit []
    (readValid platform.readProfiles (profileDocument platform.toExternal))
  let activeProfiles ← readFlat den activeFangsFile documentLimit []
    (readValid platform.readNames (fun names => active names fangProfiles))
  return ⟨silverLocked, peers, targetPolicy, fangProfiles, activeProfiles, none⟩

def firstGeneration : Generation := ⟨1, .a⟩

/-- The writes of a migration that took effect, and what it reported. The marker
and the selector are created only; neither is there, or nothing is written. -/
def migrate (den : Den) (fates : Nat → Replacement) : List Write × Outcome :=
  let refused (error : Error) : List Write × Outcome := ([], .reported (.notCommitted error))
  match loadCurrent platform den with
  | .ok (some generation) => ([], .reported (.durablyCommitted generation))
  | .error error => refused error
  | .ok none =>
      match legacyState platform den with
      | .error error => refused error
      | .ok state =>
          match slotWrites platform firstGeneration state with
          | .error error => refused error
          | .ok writes =>
              let (visible, ended) := replaceAll (writes ++ [⟨modeFile, modeBytes⟩,
                ⟨currentFile, currentBytes firstGeneration⟩]) fates
              (visible, ended.getD (.reported (.durablyCommitted firstGeneration)))

end Legacy

end Werewolf.Storage
