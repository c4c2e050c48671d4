import Werewolf.Authority.Gate
import Werewolf.Control.Services
import Werewolf.Library.Procedure
import Werewolf.State.Validation
import Werewolf.Storage.Legacy

/-! A node as its control commands see it: the live state, the Den behind it,
and what the commands have in common. Commands are admitted one at a time, so a
command is one procedure over both. -/

namespace Werewolf.Control
open Library Procedure Governance State Policy Storage
open Authority (Gate)

inductive Silver where
  | armed
  | active
  deriving DecidableEq

inductive WolfMode where
  | human
  | wolf
  | silver
  deriving DecidableEq

structure Fang where
  id : String
  peer : String
  «local» : String
  remote : String
  alsoUses : List String
  deriving DecidableEq

/-- The live state of the daemon. A Den without a manifest has no generation. -/
structure Node where
  generation : Option UInt64
  pelt : Option PeltIdentity
  peers : List PeerRecord
  targetPolicy : TargetPolicy
  fangProfiles : List FangProfile
  activeProfiles : List String
  governance : Option Head
  services : List ServiceDefinition
  published : List PublishedService
  routes : List Route
  advertised : List String
  autoSync : Bool
  gate : Gate
  silver : Silver
  mode : WolfMode
  fangs : List Fang
  storageDegraded : Bool
  dying : Bool
  deriving DecidableEq

def Node.ownKey (external : External) (node : Node) : Option Key :=
  node.pelt.bind (fun pelt => publicKey external pelt.publicKeyB64)

def Node.unadmitted (external : External) (node : Node) : Bool :=
  State.unadmitted node.governance (node.ownKey external)

/-- The live state and the Den. A process that stopped has only the Den. Of the
command in progress it is noted whether a replacement ended indeterminately. -/
structure System where
  node : Node
  den : Den
  running : Bool
  indeterminate : Bool

inductive Destruction where
  | incomplete
  | complete
  deriving DecidableEq

/-- The last document of a Den: that of a network's death holds the statement,
that of a retirement nothing of the chain. -/
structure Tombstone where
  death : Option Statement
  destruction : Destruction
  software : String
  deriving DecidableEq

/-- What a node takes from outside the repository, besides the needs of its
store: the public key of a secret one, the texts of addresses, `serde_json` on
the files outside the manifest, and the name of the build. -/
structure Host extends Platform where
  verifyingKey : Key → Key
  socketText : SocketAddr → String
  servicesText : List ServiceDefinition → List UInt8
  publishedText : List PublishedService → List UInt8
  routesText : List Route → List UInt8
  advertiseText : UInt8 × List String → List UInt8
  peltText : PeltIdentity → List UInt8
  packText : List PeerRecord → List UInt8
  profilesText : List FangProfile → List UInt8
  namesText : List String → List UInt8
  tombstoneText : Tombstone → List UInt8
  readServices : List UInt8 → Option (List ServiceDefinition)
  readPublished : List UInt8 → Option (List PublishedService)
  readRoutes : List UInt8 → Option (List Route)
  readAdvertise : List UInt8 → Option (UInt8 × List String)
  readPelt : List UInt8 → Option PeltIdentity
  readTombstone : List UInt8 → Option Tombstone
  software : String

/-- What an interrupted destruction leaves of a file of the stage it was in. A
file is overwritten with zeros before it is unlinked. -/
inductive Residue where
  | untouched
  | scrubbed (count : Nat)
  | unlinked

/-- How far a destruction gets: the Pelt is its first stage, the protected state
the second, the rest of the Den the third. -/
structure Demise where
  stage : Nat
  residue : String → Residue

/-- What befalls one command, or one statement of a sync, or a start: the
outcomes of its file replacements; how far a destruction gets, and whether the
Den shows nothing but the Tombstone before and after it; whether a peer's
sessions end within the cleanup window; the listener that the transport could open for a Fang, with
its id and the members it depends on, and whether it still waits when it is
released; the Fangs whose tasks have ended; the identity that is generated, and
whether it serves for TLS; and the contacts that a search of the network leaves
to be kept, if they are new. -/
structure Environment where
  documents : Nat → Replacement
  archive : Replacement
  protectedState : Nat → Replacement
  tombstone : Replacement
  completion : Replacement
  demise : Demise
  bareBefore : Bool
  bareAfter : Bool
  drained : String → Bool
  listener : Option (String × List String)
  released : Bool
  finished : List String
  identity : PeltIdentity
  servesTls : Bool
  contacts : Option (List UInt8)

abbrev Action := Procedure System Code

section Storing

def replaced (den : Den) (write : Write) (fate : Replacement) : Den :=
  if (replace write fate).1 then den.apply [write] else den

namespace System

/-- What the process learns of a replacement that ended so; nothing if it was
durable. -/
def note (system : System) (ended : Option Storage.Outcome) : System :=
  { system with
    running := system.running && ended ≠ some .stopped
    indeterminate := system.indeterminate || ended = some (.reported .indeterminateAfterRename) }

/-- An indeterminate write ends all administration until an operator steps in. -/
def degrade (system : System) : System :=
  { system with node := { system.node with storageDegraded := true } }

/-- `finish_outcome`, and the publication that follows a durable write. -/
def settle (system : System) (ended : Option Storage.Outcome) (publish : Node → Node) : Bool × System :=
  match ended with
  | none => (true, { system.note none with node := publish system.node })
  | some (.reported .indeterminateAfterRename) =>
      (false, (system.note (some (.reported .indeterminateAfterRename))).degrade)
  | some other => (false, system.note (some other))

def written (system : System) (write : Write) (fate : Replacement) : System :=
  { system with den := replaced system.den write fate }

/-- `PrivateDirectory::replace`, whatever the caller makes of its outcome. -/
def replaceFile (system : System) (write : Write) (fate : Replacement) : Option Storage.Outcome × System :=
  if system.running then
    ((replace write fate).2, (system.written write fate).note (replace write fate).2)
  else (some .stopped, system)

def store (system : System) (write : Write) (fate : Replacement) (publish : Node → Node) : Bool × System :=
  if system.running then
    (system.written write fate).settle (replace write fate).2 publish
  else (false, system)

def transaction : Storage.Outcome → Option UInt64 × Option Storage.Outcome
  | .reported (.durablyCommitted next) => (some next.number, none)
  | other => (none, some other)

def commitProtected (host : Host) (system : System) (generation : UInt64)
    (candidate : ProtectedState) (fates : Nat → Replacement) (publish : Node → Node) :
    Bool × System :=
  if system.running then
    let committed := commit host.toPlatform system.den generation candidate fates
    { system with den := system.den.apply committed.1 }.settle (transaction committed.2).2
      (fun node => publish { node with generation := (transaction committed.2).1 })
  else (false, system)

def migrate (host : Host) (system : System) (fates : Nat → Replacement) : Bool × System :=
  if system.running then
    let migrated := Storage.migrate host.toPlatform system.den fates
    { system with den := system.den.apply migrated.1 }.settle (transaction migrated.2).2
      (fun node => { node with generation := (transaction migrated.2).1 })
  else (false, system)

end System

def live : Action Node := alter (fun system => (system.node, system))

def update (change : Node → Node) : Action Unit :=
  alter (fun system => ((), { system with node := change system.node }))

def degradeStorage : Action Unit := alter (fun system => ((), system.degrade))

def replaceFile (write : Write) (fate : Replacement) : Action (Option Storage.Outcome) :=
  alter (fun system => system.replaceFile write fate)

def store (write : Write) (fate : Replacement) (publish : Node → Node) : Action Bool :=
  alter (fun system => system.store write fate publish)

def create (write : Write) (fate : Replacement) (publish : Node → Node) : Action Bool :=
  alter (fun system =>
    if (system.den write.file).isSome then (false, system) else system.store write fate publish)

def protectedFromLive (node : Node) : ProtectedState where
  silverLocked := node.gate.locked
  peers := node.peers
  targetPolicy := node.targetPolicy
  fangProfiles := node.fangProfiles
  activeProfiles := node.activeProfiles
  governance := node.governance

variable (host : Host) (environment : Environment)

def commitProtected (generation : UInt64) (candidate : ProtectedState) (publish : Node → Node) : Action Bool :=
  alter (fun system =>
    system.commitProtected host generation candidate environment.protectedState publish)

def persistProtectedOrLegacy (candidate : ProtectedState) (legacy : Write)
    (publish : Node → Node) : Action Bool := do
  let node ← live
  match node.generation with
  | some generation => commitProtected host environment generation candidate publish
  | none => store legacy (environment.documents 0) publish

def silverText (locked : Bool) : List UInt8 :=
  utf8 ("\x7b\"version\":1,\"mode\":\"" ++ (if locked then "locked" else "open") ++ "\"\x7d")

def persistSilver (locked : Bool) (publish : Node → Node) : Action Bool := do
  let node ← live
  persistProtectedOrLegacy host environment { protectedFromLive node with silverLocked := locked }
    ⟨silverFile, silverText locked⟩ publish

def persistActive (candidate : List String) : Action Bool := do
  let node ← live
  if node.storageDegraded || !active candidate node.fangProfiles then return false
  else
    persistProtectedOrLegacy host environment
      { protectedFromLive node with activeProfiles := candidate }
      ⟨activeFangsFile, host.namesText candidate⟩
      (fun node => { node with activeProfiles := candidate })

end Storing

section Authorities

def onGate (operation : Gate → Option Gate) (refusal : Code) : Action Unit := do
  let node ← live
  let gate ← expect (operation node.gate) refusal
  update (fun node => { node with gate := gate })

def denyPeer (peer : String) : Action Unit :=
  onGate (fun gate => gate.denyPeer peer) .authorityUnavailable

def publishRemoval (peer : String) : Action Unit := do
  let node ← live
  match node.gate.removed peer with
  | some gate => update (fun node => { node with gate := gate })
  | none =>
      degradeStorage
      throw .authorityPublicationFailed

/-- The gate once no session of the peer is left, if they end in time. -/
def withoutSessions (gate : Gate) (text : String) (drained : Bool) : Option Gate := do
  let peer ← Authority.fingerprint text
  let mine (entry : Sigma (fun _ : UInt64 => Authority.Entry)) := entry.2.ticket.peer = peer
  Authority.require (drained || !gate.sessions.entries.any (fun entry => mine entry))
  return { gate with
    sessions := (gate.sessions.entries.filter (fun entry => !mine entry)).toAList }

def cleanup (environment : Environment) (peer : String) : Action Unit :=
  onGate (fun gate => withoutSessions gate peer (environment.drained peer)) .authorityCleanupTimeout

def lockGate (refusal : Code) : Action Unit := do
  let node ← live
  update (fun node => { node with gate := node.gate.lock.1 })
  check node.gate.lock.2 refusal

end Authorities

section Fangs

def Fang.uses (fang : Fang) (peer : String) : Bool :=
  fang.peer = peer || peer ∈ fang.alsoUses

def terminatePeer (peer : String) : Action Unit :=
  update (fun node => { node with fangs := node.fangs.filter (fun fang => !fang.uses peer) })

def closeAllFangs : Action Unit :=
  update (fun node => { node with fangs := [] })

def publishInvalidatedRuntime (candidateActive affectedIds : List String) (node : Node) : Node :=
  let remaining := node.fangs.filter (fun fang => fang.id ∉ affectedIds)
  { node with
    activeProfiles := candidateActive
    fangs := remaining
    mode :=
      if node.fangs.any (fun fang => fang.id ∈ affectedIds) && remaining.isEmpty then .human
      else node.mode }

end Fangs

end Werewolf.Control
