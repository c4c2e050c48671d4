import Werewolf.Governance.Document
import Werewolf.Policy.Target
import Werewolf.State.Validation

/-! The protected state, the records it is stored as and their JSON. -/

namespace Werewolf.Storage
open Library Governance State Policy
open Json hiding key number

def schema : UInt8 := 1
def schemaGovernance : UInt8 := 2
def modeFile : String := "security_state_manifest_mode.json"
def currentFile : String := "security_state_current.json"
def manifestLimit : Nat := 4096
def documentLimit : Nat := 1024 * 1024

inductive Slot where
  | a
  | b
  deriving DecidableEq

def Slot.inactive : Slot → Slot
  | .a => .b
  | .b => .a

def Slot.name : Slot → String
  | .a => "a"
  | .b => "b"

inductive Logical where
  | pack
  | silver
  | targetPolicy
  | fangs
  | activeFangs
  | governance
  | manifest
  deriving DecidableEq

def Logical.text : Logical → String
  | .pack => "pack"
  | .silver => "silver"
  | .targetPolicy => "target-policy"
  | .fangs => "fangs"
  | .activeFangs => "active-fangs"
  | .governance => "governance"
  | .manifest => "manifest"

def Logical.all : List Logical :=
  [.pack, .silver, .targetPolicy, .fangs, .activeFangs, .governance, .manifest]

def name (slot : Slot) (document : Logical) : String :=
  "security_state_" ++ slot.name ++ "_" ++ document.text ++ ".json"

structure Mode where
  schema : UInt8
  mode : String
  deriving DecidableEq

structure Current where
  schema : UInt8
  generation : UInt64
  slot : Slot
  deriving DecidableEq

structure DocumentCommitments where
  pack : String
  silver : String
  targetPolicy : String
  fangs : String
  activeFangs : String
  governance : Option String
  deriving DecidableEq

structure Manifest where
  schema : UInt8
  generation : UInt64
  documents : DocumentCommitments
  stateCommitment : String
  deriving DecidableEq

structure SilverDocument where
  version : UInt8
  mode : String
  deriving DecidableEq

structure ProtectedState where
  silverLocked : Bool
  peers : List PeerRecord
  targetPolicy : TargetPolicy
  fangProfiles : List FangProfile
  activeProfiles : List String
  governance : Option Head
  deriving DecidableEq

structure Generation where
  number : UInt64
  slot : Slot
  deriving DecidableEq

inductive Load where
  | legacy
  | manifest (generation : Generation) (state : ProtectedState)
  deriving DecidableEq

structure Documents where
  pack : List UInt8
  silver : List UInt8
  targetPolicy : List UInt8
  fangs : List UInt8
  activeFangs : List UInt8
  governance : Option (List UInt8)
  deriving DecidableEq

inductive Error where
  | invalidGeneration
  | generationExhausted
  | invalidState
  | invalidPolicy
  | invalidGovernance
  | unsafeFile
  | replacement
  deriving DecidableEq

section Codecs

def slotCodec : Codec Slot :=
  string.imap Slot.name (fun text =>
    if text = "a" then some .a else if text = "b" then some .b else none)

def modeCodec : Codec Mode :=
  (object (fields (field "schema" u8) (field "mode" string))).imap
    (fun value => (value.schema, value.mode)) (fun (schema, mode) => some ⟨schema, mode⟩)

def currentCodec : Codec Current :=
  (object (fields (field "schema" u8)
    (fields (field "generation" u64) (field "slot" slotCodec)))).imap
    (fun value => (value.schema, value.generation, value.slot))
    (fun (schema, generation, slot) => some ⟨schema, generation, slot⟩)

def commitmentsCodec : Codec DocumentCommitments :=
  (object (optionalField (fields (field "pack" string)
    (fields (field "silver" string)
    (fields (field "target_policy" string)
    (fields (field "fangs" string)
    (field "active_fangs" string))))) "governance" string)).imap
    (fun value => ((value.pack, value.silver, value.targetPolicy, value.fangs, value.activeFangs), value.governance))
    (fun ((pack, silver, targetPolicy, fangs, activeFangs), governance) =>
      some ⟨pack, silver, targetPolicy, fangs, activeFangs, governance⟩)

def manifestCodec : Codec Manifest :=
  (object (fields (field "schema" u8)
    (fields (field "generation" u64)
    (fields (field "documents" commitmentsCodec)
    (field "state_commitment" string))))).imap
    (fun value => (value.schema, value.generation, value.documents, value.stateCommitment))
    (fun (schema, generation, documents, stateCommitment) =>
      some ⟨schema, generation, documents, stateCommitment⟩)

def silverCodec : Codec SilverDocument :=
  (object (fields (field "version" u8) (field "mode" string))).imap
    (fun value => (value.version, value.mode)) (fun (version, mode) => some ⟨version, mode⟩)

def trustCodec : Codec TrustLevel :=
  string.imap (fun
      | .stranger => "Stranger"
      | .known => "Known"
      | .packmate => "Packmate"
      | .alpha => "Alpha")
    (fun text =>
      if text = "Stranger" then some .stranger
      else if text = "Known" then some .known
      else if text = "Packmate" then some .packmate
      else if text = "Alpha" then some .alpha
      else none)

def peerCodec : Codec PeerRecord :=
  (object (fields (field "name" string)
    (fields (field "fingerprint" string)
    (fields (field "address" string)
    (fields (field "trust" trustCodec)
    (field "public_key_b64" nullableString)))))).imap
    (fun peer => (peer.name, peer.fingerprint, peer.address, peer.trust, peer.publicKeyB64))
    (fun (name, fingerprint, address, trust, publicKeyB64) =>
      some ⟨name, fingerprint, address, trust, publicKeyB64⟩)

def profileCodec : Codec FangProfile :=
  (object (fields (field "name" string)
    (fields (field "peer" string)
    (fields (field "local" string)
    (fields (field "remote" string)
    (field "transport" string)))))).imap
    (fun profile => (profile.name, profile.peer, profile.local, profile.remote, profile.transport))
    (fun (name, peer, «local», remote, transport) => some ⟨name, peer, «local», remote, transport⟩)

end Codecs

/-- What the store takes from outside the repository: besides the needs of
validation, the text of addresses and `serde_json::from_slice` at each of the
documents' types. -/
structure Platform extends External, Addressing where
  readMode : List UInt8 → Option Mode
  readCurrent : List UInt8 → Option Current
  readManifest : List UInt8 → Option Manifest
  readSilver : List UInt8 → Option SilverDocument
  readPeers : List UInt8 → Option (List PeerRecord)
  readPolicy : List UInt8 → Option PolicyFile
  readProfiles : List UInt8 → Option (List FangProfile)
  readNames : List UInt8 → Option (List String)
  readGovernance : List UInt8 → Option Document

/-- What is assumed of the reader: it reads back every value's own text. -/
structure Platform.RoundTrip (platform : Platform) : Prop where
  mode : ∀ value, platform.readMode (toVec modeCodec value) = some value
  current : ∀ value, platform.readCurrent (toVec currentCodec value) = some value
  manifest : ∀ value, platform.readManifest (toVec manifestCodec value) = some value
  silver : ∀ value, platform.readSilver (toVec silverCodec value) = some value
  peers : ∀ value, platform.readPeers (toVec (array peerCodec) value) = some value
  policy : ∀ value,
    platform.readPolicy (toVec (policyFile platform.toAddressing) value) = some value
  profiles : ∀ value,
    platform.readProfiles (toVec (array profileCodec) value) = some value
  names : ∀ value, platform.readNames (toVec (array string) value) = some value
  governance : ∀ value, platform.readGovernance (toVec documentCodec value) = some value

end Werewolf.Storage
