import Werewolf.Control.Startup

/-! The control commands and the steps a node takes: commands in their order,
inbound sessions between them, and starts of the daemon. -/

namespace Werewolf.Control
open Library Procedure Governance Policy
open State hiding name
open Storage hiding name
open Authority (Gate AuthorityTicket Transport)

/-- A command with its arguments as the handler has trimmed them. A statement is
given by its bytes. -/
inductive Command where
  | silverTrigger
  | silverReset
  | peltInit
  | denRetire (confirm : String)
  | manifestMigrate
  | packAdd (name fingerprint address publicKeyB64 : String)
  | packSetAddress (name address : String)
  | packRevoke (name : String)
  | packRemove (name : String)
  | targetPolicySet (document : String)
  | targetAllow (peer target : String)
  | targetRemove (peer target : String)
  | fangProfileAdd (profile : FangProfile)
  | fangProfileRemove (name : String)
  | fangOpenProfile (name : String)
  | fangDeactivateProfile (name : String)
  | fangOpen (peer «local» remote : String)
  | fangClose (id : String)
  | fangCleanup
  | fangList
  | serviceAdd (name peer target kind : String)
  | serviceRemove (name : String)
  | servicePublish (name kind target : String)
  | serviceUnpublish (name : String)
  | serviceProviderAdd (name peer target kind : String)
  | serviceProviderRemove (name peer : String)
  | serviceConnect (name «local» : String)
  | routeSet (peer via hop : String)
  | routeRemove (peer : String)
  | discoverAdvertise (addresses : String)
  | discoverNetwork
  | governanceAutoSync (state : String)
  | governanceApply (statement : List UInt8) (expectHash : Option Hash)
  | governanceSyncApply (statements : List (List UInt8)) (conflict : Option (List (List UInt8)))

def Command.mutates : Command → Bool
  | .discoverNetwork => false
  | .fangList => false
  | _ => true

variable (host : Host)

section Silver

variable (environment : Environment)

def silverTrigger : Action Status := do
  lockGate .silverFailed
  let saved ← persistSilver host environment true (fun node =>
    { node with fangs := [], mode := .silver, silver := .active })
  check saved .silverSaveFailed
  return .silverActive

def liftSilver (expected : UInt64) (node : Node) : Node :=
  let disarmed := { node with mode := .human, silver := .armed }
  if node.unadmitted host.toExternal then disarmed
  else
    match node.gate.openAfterDurable expected with
    | some gate => { disarmed with gate := gate }
    | none => node

def silverReset : Action Status := do
  let node ← live
  let saved ← persistSilver host environment false (liftSilver host node.gate.epoch)
  check saved .silverSaveFailed
  check (node.unadmitted host.toExternal ||
    (node.gate.openAfterDurable node.gate.epoch).isSome) .silverSuperseded
  return .silverReset

end Silver

def carryOut (environments : Nat → Environment) (node : Node) : Command → Action Status
  | .silverTrigger => silverTrigger host (environments 0)
  | .silverReset => silverReset host (environments 0)
  | .peltInit => peltInit host (environments 0)
  | .denRetire confirm => retire host (environments 0) confirm
  | .manifestMigrate => manifestMigrate host (environments 0)
  | .packAdd name fingerprint address publicKeyB64 =>
      packAdd host (environments 0) name fingerprint address publicKeyB64
  | .packSetAddress name address => packSetAddress host (environments 0) name address
  | .packRevoke name => packRevoke host (environments 0) name
  | .packRemove name => packRemove host (environments 0) name
  | .targetPolicySet document => targetPolicySet host (environments 0) document
  | .targetAllow peer target => targetAllow host (environments 0) peer target
  | .targetRemove peer target => targetRemove host (environments 0) peer target
  | .fangProfileAdd profile => fangProfileAdd host (environments 0) profile
  | .fangProfileRemove name => fangProfileRemove host (environments 0) name
  | .fangOpenProfile name => fangOpenProfile host (environments 0) name
  | .fangDeactivateProfile name => fangDeactivateProfile host (environments 0) name
  | .fangOpen peer «local» remote => fangOpen host (environments 0) peer «local» remote
  | .fangClose id => fangClose host (environments 0) id
  | .fangCleanup => fangCleanup (environments 0)
  | .fangList => fangCleanup (environments 0)
  | .serviceAdd name peer target kind =>
      persistServices host (environments 0) (serviceAdd node.services name peer target kind) .added
  | .serviceRemove name =>
      persistServices host (environments 0) (serviceRemove node.services name) .removed
  | .servicePublish name kind target =>
      persistPublished host (environments 0)
        (servicePublish host.toAddressing host.socketText node.published name kind target)
        .published
  | .serviceUnpublish name =>
      persistPublished host (environments 0)
        (serviceUnpublish host.toAddressing host.socketText node.published name) .unpublished
  | .serviceProviderAdd name peer target kind =>
      persistServices host (environments 0) (serviceProviderAdd node.services name peer target kind) .providerAdded
  | .serviceProviderRemove name peer =>
      persistServices host (environments 0) (serviceProviderRemove node.services name peer) .providerRemoved
  | .serviceConnect name «local» => serviceConnect host (environments 0) name «local»
  | .routeSet peer via hop =>
      persistRoutes host (environments 0) (routeSet node.routes (node.peers.map (·.name)) peer via hop)
        (if node.routes.any (fun route => route.peer = peer) then .updated else .set)
  | .routeRemove peer =>
      persistRoutes host (environments 0) (routeRemove node.routes peer) .removed
  | .discoverAdvertise addresses => discoverAdvertise host (environments 0) addresses
  | .discoverNetwork => discoverNetwork host (environments 0)
  | .governanceAutoSync state => governanceAutoSync (environments 0) state
  | .governanceApply statement expectHash =>
      governanceApply host (environments 0) statement expectHash
  | .governanceSyncApply statements conflict =>
      governanceSyncApply host environments statements conflict

def dispatch (environments : Nat → Environment) (command : Command) : Action Status := do
  let node ← live
  check (!node.dying) .lifecycleDying
  check (!(command.mutates && node.storageDegraded)) .storageDegraded
  carryOut host environments node command

inductive Inbound where
  | connection
  | ticket (sender : String)
  | reserve (ticket : AuthorityTicket) (transport : Transport)
  | publish (lease : UInt64)
  | release (lease : UInt64)

def Inbound.onGate (gate : Gate) : Inbound → Gate
  | .connection => (gate.allocate.map (·.2)).getD gate
  | .ticket sender => ((gate.ticket sender).map (·.2)).getD gate
  | .reserve issued transport => ((gate.reserve issued transport).map (·.2)).getD gate
  | .publish lease => (gate.publish lease).getD gate
  | .release lease => gate.release lease

inductive Event where
  | command (command : Command) (environments : Nat → Environment)
  | inbound (operation : Inbound)
  | restart (environment : Environment)

def System.fresh (system : System) : System := { system with indeterminate := false }

def serve (command : Command) (environments : Nat → Environment) (system : System) : Except Code Status × System :=
  execute (dispatch host environments command) system.fresh

/-- A restart may come at any time. Where no node comes up, only the Den is
left. -/
def step (system : System) : Event → System
  | .command command environments =>
      if system.running then (serve host command environments system).2 else system
  | .inbound operation =>
      if system.running then
        { system with node := { system.node with gate := operation.onGate system.node.gate } }
      else system
  | .restart environment =>
      match start host environment system.den with
      | (some node, den) => ⟨node, den, true, false⟩
      | (none, den) => ⟨system.node, den, false, false⟩

end Werewolf.Control
