import Werewolf.Storage.Records

/-! The store of the protected state. Two slots hold complete generations, and a
small selector names the slot and the number of the one in force. A commit fills
the other slot and then replaces the selector. -/

namespace Werewolf.Storage
open Library Governance State Policy

section Documents

variable (platform : Platform)

def exact {α : Type} (codec : Codec α) (fromSlice : List UInt8 → Option α) (bytes : List UInt8) : Except Error α :=
  match fromSlice bytes with
  | none => .error .invalidGeneration
  | some value =>
      if Json.toVec codec value ≠ bytes then .error .invalidGeneration else .ok value

/-- A list in the one order it is stored in, after validation. -/
def canonicalSorted {α : Type} (valid : List α → Bool) (codec : Codec α) (key : α → String)
    (values : List α) : Except Error (List UInt8) :=
  if !valid values then .error .invalidState
  else .ok (Json.toVec (Json.array codec) (sortOn key values))

def parseSorted {α : Type} (fromSlice : List UInt8 → Option (List α))
    (canonical : List α → Except Error (List UInt8)) (bytes : List UInt8) :
    Except Error (List α) :=
  match fromSlice bytes with
  | none => .error .invalidGeneration
  | some values => do
      let again ← canonical values
      if again ≠ bytes then .error .invalidGeneration else .ok values

def canonicalPack (peers : List PeerRecord) : Except Error (List UInt8) :=
  canonicalSorted (pack platform.toExternal) peerCodec PeerRecord.name peers

def parsePack (bytes : List UInt8) : Except Error (List PeerRecord) :=
  parseSorted platform.readPeers (canonicalPack platform) bytes

def canonicalSilver (locked : Bool) : List UInt8 :=
  Json.toVec silverCodec ⟨1, if locked then "locked" else "open"⟩

def parseSilver (bytes : List UInt8) : Except Error Bool := do
  let value ← exact silverCodec platform.readSilver bytes
  if value.version ≠ 1 then .error .invalidGeneration
  else if value.mode = "locked" then .ok true
  else if value.mode = "open" then .ok false
  else .error .invalidGeneration

def canonicalProfiles (profiles : List FangProfile) : Except Error (List UInt8) :=
  canonicalSorted (profileDocument platform.toExternal) profileCodec FangProfile.name profiles

def parseProfiles (bytes : List UInt8) : Except Error (List FangProfile) :=
  parseSorted platform.readProfiles (canonicalProfiles platform) bytes

def canonicalActive (names : List String) (profiles : List FangProfile) : Except Error (List UInt8) :=
  canonicalSorted (fun names => active names profiles) Json.string id names

def parseActive (bytes : List UInt8) (profiles : List FangProfile) : Except Error (List String) :=
  parseSorted platform.readNames (fun names => canonicalActive names profiles) bytes

def orError {α : Type} (error : Error) : Option α → Except Error α
  | some value => .ok value
  | none => .error error

def canonicalPolicy (policy : TargetPolicy) : Except Error (List UInt8) :=
  orError .invalidPolicy (canonicalFromRuntime platform.toAddressing policy)

def parsePolicy (bytes : List UInt8) : Except Error TargetPolicy :=
  orError .invalidPolicy (parseCanonical platform.toAddressing platform.readPolicy bytes)

def canonicalGovernance : Option Head → Except Error (Option (List UInt8))
  | none => .ok none
  | some head => (orError .invalidGovernance (canonical head)).map some

def parseGovernance : Option (List UInt8) → Except Error (Option Head)
  | none => .ok none
  | some bytes => (orError .invalidGovernance (parse platform.readGovernance bytes)).map some

def documents (state : ProtectedState) : Except Error Documents := do
  let pack ← canonicalPack platform state.peers
  let targetPolicy ← canonicalPolicy platform state.targetPolicy
  let fangs ← canonicalProfiles platform state.fangProfiles
  let activeFangs ← canonicalActive state.activeProfiles state.fangProfiles
  let governance ← canonicalGovernance state.governance
  return {
    pack := pack
    silver := canonicalSilver state.silverLocked
    targetPolicy := targetPolicy
    fangs := fangs
    activeFangs := activeFangs
    governance := governance }

end Documents

section Manifests

variable (crypto : Crypto)

def utf8 (value : String) : List UInt8 := value.toUTF8.data.toList

def documentCommitment (document : Logical) (contents : List UInt8) : Hash :=
  crypto.blake3 (utf8 "werewolfproxy/state-manifest/v1/" ++ utf8 document.text ++
    utf8 "\x00schema\x00" ++ [schema] ++ utf8 "\x00" ++ contents)

def decodeNibble (byte : Char) : Option Nat :=
  if '0' ≤ byte ∧ byte ≤ '9' then some (byte.toNat - 0x30)
  else if 'a' ≤ byte ∧ byte ≤ 'f' then some (byte.toNat - 0x57)
  else none

def decodePair (high low : Char) : Option UInt8 :=
  (decodeNibble high).bind (fun high =>
    (decodeNibble low).map (fun low => UInt8.ofNat (16 * high + low)))

/-- The length counts characters: a text with others than digits is refused. -/
def decodeDigest (value : String) : Except Error (List UInt8) :=
  if value.toList.length ≠ 64 then .error .invalidGeneration
  else orError .invalidGeneration (readPairs decodePair value.toList)

/-- Schema 2 appends governance; the bytes of schema 1 are unchanged. -/
def governancePart : Option String → Except Error (List UInt8)
  | none => .ok []
  | some digest => do
      let bytes ← decodeDigest digest
      return utf8 "governance\x00" ++ bytes

def stateCommitment (schema : UInt8) (generation : UInt64) (documents : DocumentCommitments) :
    Except Error Hash := do
  let pack ← decodeDigest documents.pack
  let silver ← decodeDigest documents.silver
  let targetPolicy ← decodeDigest documents.targetPolicy
  let fangs ← decodeDigest documents.fangs
  let activeFangs ← decodeDigest documents.activeFangs
  let governance ← governancePart documents.governance
  return crypto.blake3 (utf8 "werewolfproxy/state-manifest/v1/state\x00schema\x00" ++ [schema] ++
    utf8 "\x00generation\x00" ++ beBytes 8 generation.toNat ++
    utf8 "pack\x00" ++ pack ++ utf8 "silver\x00" ++ silver ++
    utf8 "target-policy\x00" ++ targetPolicy ++ utf8 "fangs\x00" ++ fangs ++
    utf8 "active-fangs\x00" ++ activeFangs ++ governance)

def encodeDigest (digest : Hash) : String := hex digest.val

def commitments (contents : Documents) : DocumentCommitments where
  pack := encodeDigest (documentCommitment crypto .pack contents.pack)
  silver := encodeDigest (documentCommitment crypto .silver contents.silver)
  targetPolicy := encodeDigest (documentCommitment crypto .targetPolicy contents.targetPolicy)
  fangs := encodeDigest (documentCommitment crypto .fangs contents.fangs)
  activeFangs := encodeDigest (documentCommitment crypto .activeFangs contents.activeFangs)
  governance := contents.governance.map (fun bytes =>
    encodeDigest (documentCommitment crypto .governance bytes))

def manifest (generation : UInt64) (contents : Documents) : Except Error Manifest := do
  let documents := commitments crypto contents
  let schema := if documents.governance.isSome then schemaGovernance else schema
  let commitment ← stateCommitment crypto schema generation documents
  return ⟨schema, generation, documents, encodeDigest commitment⟩

def validateManifest (value : Manifest) (generation : Generation) (contents : Documents) :
    Except Error Unit := do
  if value.generation ≠ generation.number then .error .invalidGeneration
  else
    let expected ← manifest crypto generation.number contents
    if value.schema ≠ expected.schema then .error .invalidGeneration
    else if value.documents ≠ expected.documents ∨
        value.stateCommitment ≠ expected.stateCommitment then .error .invalidGeneration
    else .ok ()

end Manifests

abbrev Den := String → Option (List UInt8)

section Loading

variable (platform : Platform)

def read (den : Den) (file : String) (limit : Nat) : Except Error (Option (List UInt8)) :=
  match den file with
  | none => .ok none
  | some data => if limit < data.length then .error .unsafeFile else .ok (some data)

def readPresent (den : Den) (file : String) (limit : Nat) : Except Error (List UInt8) := do
  match ← read den file limit with
  | some data => .ok data
  | none => .error .invalidGeneration

def modeBytes : List UInt8 := Json.toVec modeCodec ⟨schema, "manifest"⟩

def currentBytes (generation : Generation) : List UInt8 :=
  Json.toVec currentCodec ⟨schema, generation.number, generation.slot⟩

def slotFiles : List String :=
  [Slot.a, Slot.b].flatMap (fun slot => Logical.all.map (name slot))

def checkAbsent (den : Den) : List String → Except Error Unit
  | [] => .ok ()
  | file :: rest => do
      match ← read den file documentLimit with
      | some _ => .error .invalidGeneration
      | none => checkAbsent den rest

/-- A Den that has lost its marker and its selector is refused, not taken for a
legacy one. -/
def loadCurrent (den : Den) : Except Error (Option Generation) := do
  let mode ← read den modeFile manifestLimit
  let current ← read den currentFile manifestLimit
  match mode, current with
  | none, none =>
      checkAbsent den slotFiles
      return none
  | some mode, some current =>
      let mode ← exact modeCodec platform.readMode mode
      let current ← exact currentCodec platform.readCurrent current
      if mode.schema ≠ schema ∨ mode.mode ≠ "manifest" ∨ current.schema ≠ schema ∨
          current.generation = 0 then .error .invalidGeneration
      else .ok (some ⟨current.generation, current.slot⟩)
  | _, _ => .error .invalidGeneration

def readCommitted (document : Except Error (List UInt8)) : Option String → Except Error (Option (List UInt8))
  | none => .ok none
  | some _ => document.map some

/-- The bytes of the selected slot, checked against its manifest. A governance
document that the manifest does not commit to is ignored. -/
def loadContents (den : Den) (generation : Generation) : Except Error Documents := do
  let file (document : Logical) := readPresent den (name generation.slot document) documentLimit
  let pack ← file .pack
  let silver ← file .silver
  let targetPolicy ← file .targetPolicy
  let fangs ← file .fangs
  let activeFangs ← file .activeFangs
  let manifestBytes ← readPresent den (name generation.slot .manifest) manifestLimit
  let manifest ← exact manifestCodec platform.readManifest manifestBytes
  let governance ← readCommitted (file .governance) manifest.documents.governance
  let contents : Documents := ⟨pack, silver, targetPolicy, fangs, activeFangs, governance⟩
  validateManifest platform.toCrypto manifest generation contents
  return contents

def parseContents (contents : Documents) : Except Error ProtectedState := do
  let silverLocked ← parseSilver platform contents.silver
  let peers ← parsePack platform contents.pack
  let targetPolicy ← parsePolicy platform contents.targetPolicy
  let fangProfiles ← parseProfiles platform contents.fangs
  let activeProfiles ← parseActive platform contents.activeFangs fangProfiles
  let governance ← parseGovernance platform contents.governance
  return ⟨silverLocked, peers, targetPolicy, fangProfiles, activeProfiles, governance⟩

def load (den : Den) : Except Error Load := do
  match ← loadCurrent platform den with
  | none => return .legacy
  | some generation =>
      let contents ← loadContents platform den generation
      let state ← parseContents platform contents
      return .manifest generation state

/-- The Silver bit of the selected generation, if there is one. -/
def selectedSilver (den : Den) : Option Bool :=
  match loadCurrent platform den with
  | .ok (some generation) =>
      match readPresent den (name generation.slot .silver) documentLimit with
      | .ok bytes => (parseSilver platform bytes).toOption
      | .error _ => none
  | _ => none

end Loading

structure Write where
  file : String
  data : List UInt8

def Den.apply (den : Den) (writes : List Write) : Den :=
  writes.foldl (fun den write => Function.update den write.file (some write.data)) den

/-- What may come of one file replacement: its three outcomes, and a process
that stops. -/
inductive Replacement where
  | durablyCommitted
  | notCommitted
  | indeterminateAfterRename (visible : Bool)
  | stopsBefore
  | stopsAfter

inductive Transaction where
  | durablyCommitted (generation : Generation)
  | notCommitted (error : Error)
  | indeterminateAfterRename
  deriving DecidableEq

/-- A commit reports its transaction, unless the process has stopped. -/
inductive Outcome where
  | reported (transaction : Transaction)
  | stopped
  deriving DecidableEq

/-- Whether the replacement takes effect, and how the commit ends if it ends
here. A document above the limit is never written. -/
def replace (write : Write) : Replacement → Bool × Option Outcome
  | .stopsBefore => (false, some .stopped)
  | fate =>
      if documentLimit < write.data.length then
        (false, some (.reported (.notCommitted .unsafeFile)))
      else
        match fate with
        | .durablyCommitted => (true, none)
        | .indeterminateAfterRename visible =>
            (visible, some (.reported .indeterminateAfterRename))
        | .stopsAfter => (true, some .stopped)
        | _ => (false, some (.reported (.notCommitted .replacement)))

/-- The replacements in order, up to the first that fails: those that took
effect, and how they ended unless all were durable. -/
def replaceAll : List Write → (Nat → Replacement) → List Write × Option Outcome
  | [], _ => ([], none)
  | write :: rest, fates =>
      match replace write (fates 0) with
      | (visible, some outcome) => (if visible then [write] else [], some outcome)
      | (_, none) =>
          let (later, outcome) := replaceAll rest (fun index => fates (index + 1))
          (write :: later, outcome)

section Committing

variable (platform : Platform)

def slotWrites (generation : Generation) (state : ProtectedState) : Except Error (List Write) := do
  let contents ← documents platform state
  let manifest ← manifest platform.toCrypto generation.number contents
  let write (document : Logical) (data : List UInt8) : Write :=
    ⟨name generation.slot document, data⟩
  return [write .pack contents.pack, write .silver contents.silver,
    write .targetPolicy contents.targetPolicy, write .fangs contents.fangs,
    write .activeFangs contents.activeFangs] ++
    (contents.governance.map (write .governance)).toList ++
    [write .manifest (Json.toVec manifestCodec manifest)]

def nextGeneration (observed : Generation) : Option Generation :=
  if observed.number.toNat + 1 < 2 ^ 64 then some ⟨observed.number + 1, observed.slot.inactive⟩
  else none

/-- The writes of a commit that took effect, and what it reported. -/
def commit (den : Den) (current : UInt64) (state : ProtectedState) (fates : Nat → Replacement) :
    List Write × Outcome :=
  let refused (error : Error) : List Write × Outcome := ([], .reported (.notCommitted error))
  match loadCurrent platform den with
  | .error error => refused error
  | .ok none => refused .invalidGeneration
  | .ok (some observed) =>
      if observed.number ≠ current then refused .invalidGeneration
      else
        match nextGeneration observed with
        | none => refused .generationExhausted
        | some next =>
            match slotWrites platform next state with
            | .error error => refused error
            | .ok writes =>
                let (visible, ended) :=
                  replaceAll (writes ++ [⟨currentFile, currentBytes next⟩]) fates
                (visible, ended.getD (.reported (.durablyCommitted next)))

end Committing

end Werewolf.Storage
