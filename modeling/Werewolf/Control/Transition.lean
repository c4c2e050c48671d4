import Werewolf.Authority.GateProperties
import Werewolf.Control.Dispatch
import Werewolf.Policy.TargetProperties

/-! Everything a command can do to a system, one change of the live state or one
write at a time. What a claim about all commands needs is proved of these
transitions; that the commands go through no others is proved once. -/

namespace Werewolf.Control
open Library Procedure Governance Policy
open State hiding name
open Storage hiding name

/-- What some commands do and others never. -/
inductive Liberty where
  /-- The gate opens. -/
  | opens
  /-- The gate is locked while Silver is not active. -/
  | fences
  /-- The lock of the gate is committed as the Silver bit. -/
  | recommits
  /-- A Silver bit is committed that the status does not follow. -/
  | supersedes
  /-- A dying node goes on. -/
  | revives
  /-- Silver ends. -/
  | releases
  /-- An indeterminate write of an archived statement goes unnoticed. -/
  | losesArchive
  /-- A replacement fares so. -/
  | fares (fate : Replacement)

structure Environment.Fares (environment : Environment) (permit : Liberty → Prop) : Prop where
  documents : ∀ index, permit (.fares (environment.documents index))
  archive : permit (.fares environment.archive)
  protectedState : ∀ index, permit (.fares (environment.protectedState index))
  tombstone : permit (.fares environment.tombstone)
  completion : permit (.fares environment.completion)

section Nodes

variable (permit : Liberty → Prop) (external : External)

/-- What every change of a live node has in common: it never unlocks a node that
Silver, the network or its end holds locked, and locks whatever it gives such a
reason to be locked. -/
structure Moves (before after : Node) : Prop where
  opens : after.gate.locked = false → before.gate.locked = false ∨
    (permit .opens ∧ after.silver ≠ .active ∧ after.unadmitted external = false ∧
      after.dying = false)
  locks : after.gate.locked = true → before.gate.locked = true ∨ after.silver = .active ∨
    after.dying = true ∨ permit .fences
  triggers : after.silver = .active → before.silver = .active ∨ after.gate.locked = true
  excluded : after.unadmitted external = true →
    before.unadmitted external = true ∨ after.gate.locked = true
  dies : after.dying = true → before.dying = true ∨ after.gate.locked = true
  degrades : before.storageDegraded = true → after.storageDegraded = true
  releases : before.silver = .active → after.silver = .active ∨ permit .releases

structure Retains (before after : Node) : Prop where
  generation : after.generation = before.generation
  peers : after.peers = before.peers
  targetPolicy : after.targetPolicy = before.targetPolicy
  governance : after.governance = before.governance
  silver : after.silver = before.silver

end Nodes

/-- What is assumed of the libraries behind a start: `serde_json` reads back the
files it wrote, its indented texts add a bounded number of bytes to their
strings, Base64 has its usual length, and the text of a socket address needs no
escapes and names no flow label. -/
structure Host.Faithful (host : Host) : Prop where
  services : ∀ value, host.readServices (host.servicesText value) = some value
  published : ∀ value, host.readPublished (host.publishedText value) = some value
  routes : ∀ value, host.readRoutes (host.routesText value) = some value
  advertise : ∀ value, host.readAdvertise (host.advertiseText value) = some value
  pelt : ∀ value, host.readPelt (host.peltText value) = some value
  advertiseLength : ∀ version addresses, (host.advertiseText (version, addresses)).length ≤
    64 + (addresses.map (fun address => (Json.toVec Json.string address).length + 8)).sum
  peltLength : ∀ pelt, (host.peltText pelt).length ≤
    128 + (Json.toVec Json.string pelt.publicKeyB64).length +
      (Json.toVec Json.string pelt.secretKeyB64).length +
      (Json.toVec Json.string pelt.fingerprint).length
  base64Length : ∀ bytes, byteLength (host.base64Encode bytes) = 4 * ((bytes.length + 2) / 3)
  socketPlain : ∀ text socket, host.parseSocketAddr text = some socket →
    ∀ character ∈ text.toList, Json.escape character = [character]
  socketFlow : ∀ text ip port flowinfo scopeId,
    host.parseSocketAddr text = some (.v6 ip port flowinfo scopeId) → flowinfo = 0

section Saved

structure Sound (external : External) (state : ProtectedState) : Prop where
  policy : state.targetPolicy.WellFormed
  pack : State.pack external state.peers = true
  members : ∀ head, state.governance = some head →
    ∀ peer ∈ state.peers, excludes external head peer = false

structure Shows (state : ProtectedState) (node : Node) : Prop where
  peers : node.peers = state.peers
  targetPolicy : node.targetPolicy = state.targetPolicy
  governance : node.governance = state.governance

/-- How a head follows another: a new one has its statement in the archive. -/
inductive Succeeds (crypto : Crypto) (den : Den) (before : Option Head) : Option Head → Prop where
  | same : Succeeds crypto den before before
  | fork {head : Head} (forked : before = some head) :
      Succeeds crypto den before (some { head with forked := true })
  | next {statement : Statement} {pin : Option Hash} {next : Head}
      (applied : apply crypto before statement pin = .ok (.applied next))
      (archived : readArchive den next.sequence = some statement) :
      Succeeds crypto den before (some next)

/-- The files of the operator, and those a node keeps for itself. -/
def sideFiles : List String :=
  [servicesFile, publishedFile, routesFile, advertiseFile, contactsFile, autoSyncFile, peltFile]

def flatFiles : List String := [packFile, silverFile, targetPolicyFile, fangsFile, activeFangsFile]

def Host.accepts (host : Host) (file : String) (data : List UInt8) : Bool :=
  if file = servicesFile then data.length ≤ documentLimit && (parseServices host data).isSome
  else if file = publishedFile then
    data.length ≤ documentLimit && (parsePublished host data).isSome
  else if file = routesFile then data.length ≤ documentLimit && (parseRoutes host data).isSome
  else if file = advertiseFile then
    data.length ≤ advertiseLimit && (parseAdvertise host data).isSome
  else if file = contactsFile then data.length ≤ documentLimit
  else if file = autoSyncFile then data.length ≤ autoSyncLimit && (parseAutoSync data).isSome
  else if file = peltFile then data.length ≤ peltLimit && (parsePelt host data).isSome
  else false

end Saved

inductive Transition (permit : Liberty → Prop) (host : Host) : System → System → Prop where
  | moves {system : System} {node : Node} (moved : Moves permit host.toExternal system.node node)
      (retains : Retains system.node node)
      (revives : system.node.dying = true → node.dying = true ∨
        (permit .revives ∧ system.indeterminate = false ∧ system.den tombstoneFile = none)) :
      Transition permit host system { system with node := node }
  | stored {system : System} {write : Write} {fate : Replacement} {publish : Node → Node}
      (fares : permit (.fares fate))
      (moved : Moves permit host.toExternal system.node (publish system.node))
      (alive : (publish system.node).dying = system.node.dying)
      (file : (write.file ∈ sideFiles ∧ Retains system.node (publish system.node) ∧
          (host.Faithful → write.data.length ≤ documentLimit →
            host.accepts write.file write.data = true)) ∨
        (write.file ∈ flatFiles ∧ system.node.generation = none ∧
          (publish system.node).generation = none ∧
          (publish system.node).governance = system.node.governance)) :
      Transition permit host system (system.store write fate publish).2
  | committed {system : System} {generation : UInt64} {candidate : ProtectedState}
      {fates : Nat → Replacement} {publish : Node → Node}
      (fares : ∀ index, permit (.fares (fates index)))
      (alive : system.node.dying = false ∧ ∀ number,
        (publish { system.node with generation := number }).dying = false)
      (selected : system.node.generation = some generation)
      (moved : ∀ number, Moves permit host.toExternal system.node
        (publish { system.node with generation := number }))
      (shows : ∀ number, Shows candidate (publish { system.node with generation := number }) ∧
        (publish { system.node with generation := number }).generation = number)
      (sound : host.Faithful → Sound host.toExternal (protectedFromLive system.node) →
        Sound host.toExternal candidate)
      (succeeds : Succeeds host.toCrypto system.den system.node.governance candidate.governance)
      (bit : ∀ number,
        candidate.silverLocked =
          decide ((publish { system.node with generation := number }).silver = .active) ∨
        (permit .recommits ∧ candidate.silverLocked = system.node.gate.locked ∧
          (publish { system.node with generation := number }).silver = system.node.silver) ∨
        permit .supersedes) :
      Transition permit host system
        (system.commitProtected host generation candidate fates publish).2
  | archived {system : System} {statement : Statement} {pin : Option Hash} {next : Head}
      {fate : Replacement} (fares : permit (.fares fate))
      (alive : system.node.dying = false ∧ system.node.storageDegraded = false)
      (applied : apply host.toCrypto system.node.governance statement pin = .ok (.applied next))
      (noticed : (replace ⟨governanceArchiveName next.sequence, statement.encode⟩ fate).2 =
        some (.reported .indeterminateAfterRename) → permit .losesArchive) :
      Transition permit host system
        (system.replaceFile ⟨governanceArchiveName next.sequence, statement.encode⟩ fate).2
  | entombed {system : System} {data : List UInt8} {fate : Replacement}
      (fares : permit (.fares fate)) (dying : system.node.dying = true) :
      Transition permit host system (system.replaceFile ⟨tombstoneFile, data⟩ fate).2
  | destroyed {system : System} {environment : Environment} {tombstone : Tombstone}
      (fares : permit (.fares environment.completion)) (dying : system.node.dying = true)
      (entombed : (system.den tombstoneFile).isSome) :
      Transition permit host system (system.finish host environment tombstone)
  | migrated {system : System} {fates : Nat → Replacement}
      (fares : ∀ index, permit (.fares (fates index))) (alive : system.node.dying = false)
      (flat : system.node.generation = none) :
      Transition permit host system (system.migrate host fates).2

end Werewolf.Control
