import Werewolf.Control.Mutation

/-! The start of the daemon: a Tombstone first, then the persistent state, and a
dead head before anything runs. -/

namespace Werewolf.Control
open Library Governance State Policy Storage
open Authority (Gate)

def silverLimit : Nat := 1024
def advertiseLimit : Nat := 4096
def autoSyncLimit : Nat := 64
def peltLimit : Nat := 4096

section Loading

variable (host : Host)

def flatSilver (data : List UInt8) : Except Storage.Error Bool := do
  let value ← orError .invalidGeneration (host.readSilver data)
  if value.version ≠ 1 then .error .invalidGeneration
  else if value.mode = "locked" then .ok true
  else if value.mode = "open" then .ok false
  else .error .invalidGeneration

/-- The state of a Den without a manifest, which has no governance. A policy that
cannot be read refuses every target, but not the start. -/
def flatState (den : Den) : Except Storage.Error ProtectedState := do
  let silverLocked ← readFlat den silverFile silverLimit true (flatSilver host)
  let targetPolicy ← readFlat den targetPolicyFile documentLimit .deny (fun data =>
    .ok (((host.readPolicy data).bind policyOf).getD .invalid))
  let peers ← readFlat den packFile documentLimit []
    (readValid host.readPeers (pack host.toExternal))
  let fangProfiles ← readFlat den fangsFile documentLimit []
    (readValid host.readProfiles (profileDocument host.toExternal))
  let activeProfiles ← readFlat den activeFangsFile documentLimit []
    (readValid host.readNames (fun names => active names fangProfiles))
  return ⟨silverLocked, peers, targetPolicy, fangProfiles, activeProfiles, none⟩

def loadProtected (den : Den) : Option (Option UInt64 × ProtectedState) :=
  match load host.toPlatform den with
  | .ok (.manifest generation state) => some (some generation.number, state)
  | .ok .legacy => (flatState host den).toOption.map (fun state => (none, state))
  | .error _ => none

def readFile {α : Type} (den : Den) (file : String) (limit : Nat) (default : α)
    (parse : List UInt8 → Option α) : Option α :=
  match Storage.read den file limit with
  | .ok none => some default
  | .ok (some data) => parse data
  | .error _ => none

def parseServices (data : List UInt8) : Option (List ServiceDefinition) :=
  (host.readServices data).filter validateServices

def parsePublished (data : List UInt8) : Option (List PublishedService) :=
  (host.readPublished data).filter (validatePublished host.toAddressing host.socketText)

def parseRoutes (data : List UInt8) : Option (List Route) :=
  (host.readRoutes data).filter validateRoutes

def parseAdvertise (data : List UInt8) : Option (List String) :=
  ((host.readAdvertise data).filter (fun file =>
    file.1 = 1 && validateAdvertised host.toAddressing file.2)).map (·.2)

def parsePelt (data : List UInt8) : Option PeltIdentity :=
  (host.readPelt data).filter (identity host.toExternal host.verifyingKey)

/-- The Pack was changed outside governance. That of a dead head does not
matter any more. -/
def intruded (governance : Option Head) (peers : List PeerRecord) : Bool :=
  governance.any (fun head => head.deadAt.isNone && peers.any (excludes host.toExternal head))

def startsLocked (state : ProtectedState) (pelt : Option PeltIdentity) : Bool :=
  state.silverLocked || (state.governance.any (fun head => head.deadAt.isNone) && unadmitted state.governance
        (pelt.bind (fun pelt => publicKey host.toExternal pelt.publicKeyB64)))

def loadStartupState (den : Den) : Option Node := do
  let (generation, state) ← loadProtected host den
  let services ← readFile den servicesFile documentLimit [] (parseServices host)
  let published ← readFile den publishedFile documentLimit [] (parsePublished host)
  let routes ← readFile den routesFile documentLimit [] (parseRoutes host)
  let advertised ← readFile den advertiseFile advertiseLimit [] (parseAdvertise host)
  readFile den contactsFile documentLimit () (fun _ => some ())
  let autoSync ← readFile den autoSyncFile autoSyncLimit true parseAutoSync
  let pelt ← readFile den peltFile peltLimit none (fun data => (parsePelt host data).map some)
  Authority.require (!intruded host state.governance state.peers)
  return {
    generation := generation
    pelt := pelt
    peers := state.peers
    targetPolicy := state.targetPolicy
    fangProfiles := state.fangProfiles
    activeProfiles := state.activeProfiles
    governance := state.governance
    services := services
    published := published
    routes := routes
    advertised := advertised
    autoSync := autoSync
    gate := Gate.initial (startsLocked host state pelt)
    silver := if state.silverLocked then .active else .armed
    mode := if state.silverLocked then .silver else .human
    fangs := []
    storageDegraded := false
    dying := false }

end Loading

section Ending

variable (host : Host) (environment : Environment)

def bury (tombstone : Tombstone) (den : Den) : Den :=
  match ({ tombstone with destruction := .incomplete } : Tombstone).encode host with
  | none => den
  | some data =>
      let written := replaced den ⟨tombstoneFile, data⟩ environment.tombstone
      if (replace ⟨tombstoneFile, data⟩ environment.tombstone).2 = none then
        (finish host environment tombstone written).1
      else written

/-- The start of a Den with a Tombstone: the destruction goes on. A Tombstone
that says complete next to anything else is first marked incomplete, and one
that cannot be read changes nothing. -/
def atStartup (data : List UInt8) (den : Den) : Den :=
  if tombstoneMaxLen < data.length then den
  else
    match host.readTombstone data with
    | none => den
    | some found =>
        match found.destruction with
        | .incomplete => (finish host environment found den).1
        | .complete => if environment.bareBefore then den else bury host environment found den

def deadHeadAtStartup (head : Head) (den : Den) : Den :=
  match (archivedDeath host.toCrypto den head).bind (fun statement =>
    Tombstone.ofDeath host statement .incomplete) with
  | none => den
  | some tombstone => bury host environment tombstone den

def start (den : Den) : Option Node × Den :=
  match den tombstoneFile with
  | some data => (none, atStartup host environment data den)
  | none =>
      match loadStartupState host den with
      | none => (none, den)
      | some node =>
          match node.governance with
          | none => (some node, den)
          | some head =>
              if head.deadAt.isSome then (none, deadHeadAtStartup host environment head den)
              else (some node, den)

end Ending

end Werewolf.Control
