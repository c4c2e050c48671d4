import Werewolf.Control.Archive
import Werewolf.Control.Lifecycle

/-! The commands that change what a node keeps: its identity and its manifest,
the Pack, the target policy, the profiles and Fangs, the operator's own lists,
and governance. A candidate is prepared, saved and then published. -/

namespace Werewolf.Control
open Library Procedure Governance State Policy Storage

def servicesFile : String := "services.json"
def publishedFile : String := "published.json"
def routesFile : String := "routes.json"
def advertiseFile : String := "advertise.json"
def contactsFile : String := "contacts.json"
def autoSyncFile : String := "auto_sync.json"

variable (host : Host) (environment : Environment)

section Identity

def peltInit : Action Status := do
  let system ← alter (fun system => (system, system))
  check system.node.pelt.isNone .alreadyInitialized
  check (system.den tombstoneFile).isNone .lifecycleTombstone
  let pelt := environment.identity
  check (identity host.toExternal host.verifyingKey pelt) .peltInvalid
  check environment.servesTls .peltTlsInvalid
  let saved ← create ⟨peltFile, host.peltText pelt⟩ (environment.documents 0)
    (fun node => { node with pelt := some pelt })
  check saved .peltSaveFailed
  return .initialized

def manifestMigrate : Action Status := do
  let node ← live
  check node.generation.isNone .manifestAlreadyEnabled
  let migrated ← alter (fun system => system.migrate host environment.protectedState)
  let node ← live
  check migrated (if node.storageDegraded then .manifestMigrationIndeterminate
    else .manifestMigrationFailed)
  return .migrated

end Identity

section Pack

def revokedByNetwork (governance : Option Head) (key : Option Key) : Bool :=
  match governance, key with
  | some head, some key => (binarySearch head.revoked key).isOk
  | _, _ => false

def offRoster (governance : Option Head) (key : Option Key) : Bool :=
  match governance, key with
  | some head, some key => head.activatedAt.isSome && !(binarySearch head.roster key).isOk
  | _, _ => false

/-- Commit and publish a Pack. A member that leaves is denied first, and stays
denied if the commit fails. -/
def replacePack (name : String) (candidate : List PeerRecord)
    (revokedFingerprint : Option String) : Action Unit := do
  revokedFingerprint.toList.forM (fun peer => do
    denyPeer peer
    terminatePeer name)
  let node ← live
  let saved ← persistProtectedOrLegacy host environment
    { protectedFromLive node with peers := candidate } ⟨packFile, host.packText candidate⟩
    (fun node => { node with peers := candidate })
  check saved (if revokedFingerprint.isSome then .packSaveFailedRuntimeDenied else .packSaveFailed)
  revokedFingerprint.toList.forM publishRemoval
  revokedFingerprint.toList.forM (cleanup environment)

def packAdd (name fingerprint address publicKeyB64 : String) : Action Status := do
  check (publicKeyB64 ≠ "" &&
    fingerprintFromPublicKeyB64 host.toExternal publicKeyB64 = some fingerprint)
    .packPublicKeyInvalid
  let node ← live
  check (!revokedByNetwork node.governance (publicKey host.toExternal publicKeyB64))
    .packRevokedByNetwork
  check (!offRoster node.governance (publicKey host.toExternal publicKeyB64)) .packNotOnRoster
  let candidate := node.peers ++ [⟨name, fingerprint, address, .packmate, some publicKeyB64⟩]
  check (pack host.toExternal candidate) .packInvalid
  replacePack host environment name candidate none
  return .added

def takeOut (name : String) (status : Status) : Action Status := do
  let node ← live
  let candidate := node.peers.filter (fun peer => peer.name ≠ name)
  check (candidate.length ≠ node.peers.length) .packNotFound
  check (pack host.toExternal candidate) .packInvalid
  replacePack host environment name candidate
    ((node.peers.find? (fun peer => peer.name = name)).map (·.fingerprint))
  return status

def packRemove (name : String) : Action Status := takeOut host environment name .removed

def packRevoke (name : String) : Action Status := takeOut host environment name .revoked

def changeAddress (name address : String) : List PeerRecord → Option (Bool × List PeerRecord)
  | [] => none
  | peer :: rest =>
      if peer.name = name then
        some (peer.address ≠ address, { peer with address := address } :: rest)
      else (changeAddress name address rest).map (fun (changed, rest) => (changed, peer :: rest))

def usesPeer (routes : List Route) (peerName profilePeer : String) : Bool :=
  profilePeer = peerName || routes.any (fun route => route.peer = profilePeer && route.via = peerName)

/-- The active profiles and the Fangs that survive the change of an address. -/
def survivingActive (node : Node) (peerName : String) (addressChanged : Bool) : List String :=
  if addressChanged then
    node.activeProfiles.filter (fun profileName => !node.fangProfiles.any (fun profile =>
      profile.name = profileName && usesPeer node.routes peerName profile.peer))
  else node.activeProfiles

def affectedIds (node : Node) (peerName : String) (addressChanged : Bool) : List String :=
  if addressChanged then (node.fangs.filter (fun fang => fang.uses peerName)).map (·.id) else []

/-- The Fangs and profiles of a write that may have happened are given up. -/
def giveUp (candidateActive affected : List String) : Action Unit :=
  update (fun node =>
    if node.storageDegraded then publishInvalidatedRuntime candidateActive affected node else node)

def saveNarrowed (candidateActive old : List String) : Action Bool :=
  if candidateActive = old then pure true
  else store ⟨activeFangsFile, host.namesText candidateActive⟩ (environment.documents 0) id

/-- The flat files have no common commit: the active profiles are saved first,
and restored if the Pack is not. -/
def saveAddressFlat (candidatePeers : List PeerRecord) (candidateActive affected : List String)
    (old : List String) : Action Bool := do
  let narrowed ← saveNarrowed host environment candidateActive old
  if !narrowed then return false
  else
    let saved ← store ⟨packFile, host.packText candidatePeers⟩ (environment.documents 1)
      (fun node => publishInvalidatedRuntime candidateActive affected
        { node with peers := candidatePeers })
    let node ← live
    if saved || node.storageDegraded then return saved
    else
      let restored ← store ⟨activeFangsFile, host.namesText old⟩ (environment.documents 2) id
      if restored then return false
      else
        degradeStorage
        return false

def saveAddress (node : Node) (candidatePeers : List PeerRecord)
    (candidateActive affected : List String) : Action Bool :=
  match node.generation with
  | some generation =>
      commitProtected host environment generation
        { protectedFromLive node with peers := candidatePeers, activeProfiles := candidateActive }
        (fun node => publishInvalidatedRuntime candidateActive affected { node with peers := candidatePeers })
  | none =>
      saveAddressFlat host environment candidatePeers candidateActive affected node.activeProfiles

def applyPackAddressChange (peerName : String) (candidatePeers : List PeerRecord)
    (addressChanged : Bool) : Action Unit := do
  let node ← live
  let candidateActive := survivingActive node peerName addressChanged
  let affected := affectedIds node peerName addressChanged
  check (active candidateActive node.fangProfiles) .packSaveFailed
  let saved ← saveAddress host environment node candidatePeers candidateActive affected
  if saved then pure ()
  else
    giveUp candidateActive affected
    throw .packSaveFailed

def packSetAddress (name address : String) : Action Status := do
  let node ← live
  let changed ← expect (changeAddress name address node.peers) .packNotFound
  check (pack host.toExternal changed.2) .packInvalid
  applyPackAddressChange host environment name changed.2 changed.1
  return .addressUpdated

end Pack

section Target

def persistPolicy (parsed : TargetPolicy) (status : Status) : Action Status := do
  let canonical ← expect (canonicalFromRuntime host.toAddressing parsed) .targetPolicyInvalid
  let node ← live
  let saved ← persistProtectedOrLegacy host environment
    { protectedFromLive node with targetPolicy := parsed } ⟨targetPolicyFile, canonical⟩
    (fun node => { node with targetPolicy := parsed })
  check saved .targetPolicySaveFailed
  return status

def targetPolicySet (document : String) : Action Status := do
  let parsed ← expect ((canonicalize host.toAddressing host.readPolicy (utf8 document)).bind
    (parseCanonical host.toAddressing host.readPolicy)) .targetPolicyInvalid
  persistPolicy host environment parsed .targetPolicyUpdated

def changeGrant (change : TargetPolicy → String → SocketAddr → Option TargetPolicy)
    (refusal : Code) (status : Status) (peer target : String) : Action Status := do
  let endpoint ← expect (host.parseSocketAddr target) .targetInvalid
  let node ← live
  let record ← expect (node.peers.find? (fun record => record.name = peer ||
    record.fingerprint = peer)) .packNotFound
  let parsed ← expect (change node.targetPolicy record.fingerprint endpoint) refusal
  persistPolicy host environment parsed status

def targetAllow (peer target : String) : Action Status :=
  changeGrant host environment allowExact .targetPolicyInvalid .targetAllowed peer target

def targetRemove (peer target : String) : Action Status :=
  changeGrant host environment removeExact .targetNotFound .targetRemoved peer target

end Target

section Profiles

def persistProfiles (candidate : List FangProfile) (status : Status) : Action Status := do
  check (profileDocument host.toExternal candidate) .fangProfileInvalid
  let node ← live
  let saved ← persistProtectedOrLegacy host environment
    { protectedFromLive node with fangProfiles := candidate }
    ⟨fangsFile, host.profilesText candidate⟩ (fun node => { node with fangProfiles := candidate })
  check saved .fangProfileSaveFailed
  return status

def fangProfileAdd (profile : FangProfile) : Action Status := do
  let node ← live
  check (node.peers.any (fun peer => peer.name = profile.peer)) .fangUnknownPeer
  persistProfiles host environment (node.fangProfiles ++ [profile]) .profileAdded

def fangProfileRemove (name : String) : Action Status := do
  let node ← live
  check (name ∉ node.activeProfiles) .fangProfileActive
  let candidate := node.fangProfiles.filter (fun profile => profile.name ≠ name)
  check (candidate.length ≠ node.fangProfiles.length) .fangProfileNotFound
  persistProfiles host environment candidate .profileRemoved

end Profiles

section Fangs

def outwardGates (node : Node) : Except Code Unit :=
  if node.mode = .silver then .error .silverActive
  else if node.unadmitted host.toExternal then .error .governanceUnadmitted
  else .ok ()

def fangGates (peer «local» remote : String) (node : Node) : Except Code Unit := do
  outwardGates host node
  if peer = "" ∨ «local» = "" ∨ remote = "" then .error .fangInvalid
  else if node.fangs.any (fun fang => fang.local = «local») then .error .fangAlreadyActive
  else if !node.peers.any (fun member => member.name = peer) then .error .fangUnknownPeer
  else if node.pelt.isNone then .error .noPelt
  else .ok ()

/-- The providers of a service are looked up by the transport. -/
def providerGates («local» : String) (node : Node) : Except Code Unit := do
  outwardGates host node
  if «local» = "" then .error .fangInvalid
  else if node.fangs.any (fun fang => fang.local = «local») then .error .fangAlreadyActive
  else if node.pelt.isNone then .error .noPelt
  else .ok ()

def persistActivation (name : String) : Action Unit := do
  let node ← live
  let saved ← persistActive host environment
    (if name ∈ node.activeProfiles then node.activeProfiles else node.activeProfiles ++ [name])
  check saved .activeSaveFailed

def openFang (gates : Except Code Unit) (peer «local» remote : String)
    (activation : Option String) : Action Status := do
  liftExcept gates
  let listener ← expect environment.listener .fangListenerFailed
  activation.toList.forM (persistActivation host environment)
  update (fun node => { node with
    fangs := node.fangs ++ [⟨listener.1, peer, «local», remote, listener.2⟩]
    mode := .wolf })
  if environment.released then return .active
  else
    degradeStorage
    throw .storageDegraded

def fangOpen (peer «local» remote : String) : Action Status := do
  let node ← live
  openFang host environment (fangGates host peer «local» remote node) peer «local» remote none

def fangOpenProfile (name : String) : Action Status := do
  check (name ≠ "") .fangProfileInvalid
  let node ← live
  let profile ← expect (node.fangProfiles.find? (fun profile => profile.name = name))
    .fangProfileNotFound
  openFang host environment
    (fangGates host profile.peer profile.local profile.remote node) profile.peer profile.local
    profile.remote (some name)

def serviceConnect (name «local» : String) : Action Status := do
  check (name ≠ "") .serviceInvalid
  let node ← live
  let service ← expect (node.services.find? (fun service => service.name = name)) .serviceNotFound
  openFang host environment
    (if service.fallbacks.isEmpty then fangGates host service.peer «local» service.target node
      else providerGates host «local» node)
    service.peer «local» service.target none

def Fang.belongsTo (fang : Fang) (profiles : List FangProfile) (name : String) : Bool :=
  profiles.any (fun profile => profile.name = name && profile.peer = fang.peer &&
    profile.local = fang.local && profile.remote = fang.remote)

def persistFewer (candidate : List String) (node : Node) : Action Bool :=
  if candidate = node.activeProfiles then pure true else persistActive host environment candidate

def fangClose (id : String) : Action Status := do
  check (id ≠ "") .fangInvalid
  let node ← live
  let closed ← expect (node.fangs.find? (fun fang => fang.id = id)) .fangNotFound
  let saved ← persistFewer host environment (node.activeProfiles.filter (fun name =>
    !closed.belongsTo node.fangProfiles name)) node
  check saved .activeSaveFailed
  update (fun node =>
    let remaining := node.fangs.filter (fun fang => fang.id ≠ id)
    { node with fangs := remaining, mode := if remaining.isEmpty then .human else node.mode })
  return .closed

def fangCleanup : Action Status := do
  update (fun node => { node with
    fangs := node.fangs.filter (fun fang => fang.id ∉ environment.finished) })
  return .cleanupDone

def fangDeactivateProfile (name : String) : Action Status := do
  check (name ≠ "") .fangProfileInvalid
  let node ← live
  check (name ∈ node.activeProfiles) .fangProfileNotActive
  let saved ← persistActive host environment (node.activeProfiles.filter (· ≠ name))
  check saved .activeSaveFailed
  update (fun node =>
    let remaining := node.fangs.filter (fun fang => !fang.belongsTo node.fangProfiles name)
    { node with
      fangs := remaining
      mode := if remaining.isEmpty && node.mode ≠ .silver then .human else node.mode })
  return .profileDeactivated

end Fangs

section Configuration

/-- Save and publish a value of the operator, which is kept in a file of its
own. -/
def persistFile {α : Type} (candidate : Except Code α) (file : String) (text : α → List UInt8)
    (publish : α → Node → Node) (refusal : Code) (status : Status) : Action Status := do
  let value ← liftExcept candidate
  let saved ← store ⟨file, text value⟩ (environment.documents 0) (publish value)
  check saved refusal
  return status

def persistServices (candidate : Except Code (List ServiceDefinition)) (status : Status) : Action Status :=
  persistFile environment candidate servicesFile host.servicesText
    (fun services node => { node with services := services }) .serviceSaveFailed status

def persistPublished (candidate : Except Code (List PublishedService)) (status : Status) : Action Status :=
  persistFile environment candidate publishedFile host.publishedText
    (fun published node => { node with published := published }) .serviceSaveFailed status

def persistRoutes (candidate : Except Code (List Route)) (status : Status) : Action Status :=
  persistFile environment candidate routesFile host.routesText
    (fun routes node => { node with routes := routes }) .routeSaveFailed status

def discoverAdvertise (addresses : String) : Action Status :=
  let candidate := splitAddresses addresses
  persistFile environment
    (if validateAdvertised host.toAddressing candidate then .ok candidate
      else .error .discoverAddressInvalid)
    advertiseFile (fun addresses => host.advertiseText (1, addresses))
    (fun addresses node => { node with advertised := addresses }) .discoverSaveFailed .advertised

def governanceAutoSync (state : String) : Action Status :=
  persistFile environment
    (if state = "on" then .ok true else if state = "off" then .ok false
      else .error .autoSyncInvalid)
    autoSyncFile encodeAutoSync (fun enabled node => { node with autoSync := enabled })
    .autoSyncSaveFailed .saved

def discoverNetwork : Action Status := do
  let node ← live
  liftExcept (outwardGates host node)
  check node.pelt.isSome .noPelt
  match environment.contacts with
  | none => return .searched true
  | some data =>
      if node.storageDegraded then return .searched false
      else
        let saved ← store ⟨contactsFile, data⟩ (environment.documents 0) id
        return .searched saved

end Configuration

section Governing

def fence (fences : Bool) : Action Unit :=
  if fences then do
    lockGate .authorityUnavailable
    closeAllFangs
  else pure ()

def reopen (reopens : Bool) (epoch : UInt64) (node : Node) : Node :=
  if reopens && node.silver ≠ .active then
    { node with gate := (node.gate.openAfterDurable epoch).getD node.gate }
  else node

/-- After a death the node is destroyed; after anything else it goes on. -/
def conclude (statement : Statement) (next : Head) (reopens : Bool) (epoch : UInt64) : Action Unit :=
  if next.deadAt.isSome then die host environment statement else update (reopen reopens epoch)

def withoutRevoked (revoked peers : List PeerRecord) : List PeerRecord :=
  peers.filter (fun peer => !revoked.any (fun other => other.name = peer.name))

/-- Commit a head together with the Pack it leaves, and publish both. -/
def enact (statement : Statement) (node : Node) (generation : UInt64) (next : Head) :
    Action Status := do
  let archived ← replaceFile ⟨governanceArchiveName next.sequence, statement.encode⟩
    environment.archive
  check (archived = none) .governanceSaveFailed
  let revoked := node.peers.filter (excludes host.toExternal next)
  let wasAdmitted := !node.unadmitted host.toExternal
  let nowAdmitted := admitsOwn (node.ownKey host.toExternal) next
  let candidate := withoutRevoked revoked node.peers
  fence (wasAdmitted && !nowAdmitted)
  revoked.forM (fun peer => do
    denyPeer peer.fingerprint
    terminatePeer peer.name)
  let fenced ← live
  let saved ← commitProtected host environment generation
    { protectedFromLive fenced with peers := candidate, governance := some next }
    (fun node => { node with peers := candidate, governance := some next })
  check saved (if revoked.isEmpty then .governanceSaveFailed else .governanceSaveFailedRuntimeDenied)
  revoked.forM (fun peer => publishRemoval peer.fingerprint)
  revoked.forM (fun peer => cleanup environment peer.fingerprint)
  conclude host environment statement next (!wasAdmitted && nowAdmitted) fenced.gate.epoch
  return .applied

/-- Record a fork. It is refused all the same, and stays unrecorded if the
commit fails. -/
def recordFork (node : Node) (generation : UInt64) (fenced : Head) : Action Unit := do
  let _ ← commitProtected host environment generation
    { protectedFromLive node with governance := some fenced }
    (fun node => { node with governance := some fenced })

def applyStatement (statement : Statement) (expectHash : Option Hash) : Action Status := do
  let node ← live
  let generation ← expect node.generation .governanceNeedsManifest
  match apply host.toCrypto node.governance statement expectHash with
  | .ok .alreadyApplied => return .alreadyApplied
  | .ok (.applied next) => enact host environment statement node generation next
  | .ok (.fork fenced) =>
      recordFork host environment node generation fenced
      throw .governanceFork
  | .error (.rejected .forked) => throw .governanceForked
  | .error (.rejected _) => throw .governanceRejected
  | .error .panicked => throw .panicked

/-- The forked head of two different statements that both follow the live one. -/
def conflictHead (crypto : Crypto) (governance : Option Head) (pair : List Statement) :
    Option Head :=
  match governance, pair with
  | some head, [left, right] =>
      let valid (statement : Statement) : Bool :=
        match apply crypto (some head) statement none with
        | .ok (.applied _) => true
        | _ => false
      if left.core.hash crypto = right.core.hash crypto || !valid left || !valid right then none
      else some { head with forked := true }
  | _, _ => none

def recordConflict (pair : List Statement) : Action Code := do
  let node ← live
  match node.generation, conflictHead host.toCrypto node.governance pair with
  | some generation, some fenced =>
      recordFork host environment node generation fenced
      return .governanceFork
  | _, _ => return .governanceRejected

end Governing

section Syncing

def governanceApply (statement : List UInt8) (expectHash : Option Hash) : Action Status := do
  let statement ← expect (Statement.decode statement).toOption .governanceInvalid
  applyStatement host environment statement expectHash

/-- The statements in order, each in its own environment, up to the first that
does not apply, whose error is returned. -/
def applyAll (environments : Nat → Environment) : List Statement → Action (Option Code)
  | [] => pure none
  | statement :: rest => do
      match ← attempt (applyStatement host (environments 0) statement none) with
      | .ok _ => applyAll (fun index => environments (index + 1)) rest
      | .error code => return some code

def governanceSyncApply (environments : Nat → Environment) (statements : List (List UInt8))
    (conflict : Option (List (List UInt8))) : Action Status := do
  let statements ← expect (statements.mapM (fun bytes => (Statement.decode bytes).toOption))
    .governanceInvalid
  let stopped ← applyAll host environments statements
  match stopped, conflict with
  | none, some pair =>
      let code ← recordConflict host (environments statements.length)
        (pair.filterMap (fun bytes => (Statement.decode bytes).toOption))
      return .synced (some code)
  | stopped, _ => return .synced stopped

end Syncing

end Werewolf.Control
