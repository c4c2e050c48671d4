import Werewolf.Policy.Target

/-! The replies of the control socket, and what the operator configures outside
the protected state: services, published services, routes, advertised addresses
and the switch of the automatic sync. A list is changed as a candidate, which is
validated as a whole. -/

namespace Werewolf.Control
open Library Policy

/-- The error codes of the modelled commands. The transport's reasons for not
opening a Fang are all `fangListenerFailed`. -/
inductive Code where
  | lifecycleDying
  | lifecycleTombstone
  | storageDegraded
  | authorityUnavailable
  | authorityPublicationFailed
  | authorityCleanupTimeout
  | silverFailed
  | silverSaveFailed
  | silverSuperseded
  | silverActive
  | alreadyInitialized
  | peltInvalid
  | peltTlsInvalid
  | peltSaveFailed
  | manifestAlreadyEnabled
  | manifestMigrationFailed
  | manifestMigrationIndeterminate
  | packNotFound
  | packInvalid
  | packPublicKeyInvalid
  | packRevokedByNetwork
  | packNotOnRoster
  | packSaveFailed
  | packSaveFailedRuntimeDenied
  | targetInvalid
  | targetNotFound
  | targetPolicyInvalid
  | targetPolicySaveFailed
  | fangInvalid
  | fangAlreadyActive
  | fangUnknownPeer
  | fangNotFound
  | fangListenerFailed
  | fangProfileInvalid
  | fangProfileActive
  | fangProfileNotActive
  | fangProfileNotFound
  | fangProfileSaveFailed
  | activeSaveFailed
  | noPelt
  | serviceInvalid
  | serviceExists
  | serviceNotFound
  | serviceSaveFailed
  | routeInvalid
  | routeNotFound
  | routeSaveFailed
  | discoverAddressInvalid
  | discoverSaveFailed
  | autoSyncInvalid
  | autoSyncSaveFailed
  | retireConfirmMismatch
  | retireSaveFailed
  | governanceInvalid
  | governanceNeedsManifest
  | governanceUnadmitted
  | governanceRejected
  | governanceFork
  | governanceForked
  | governanceSaveFailed
  | governanceSaveFailedRuntimeDenied
  | panicked
  deriving DecidableEq

/-- The status of a command that was carried out. A sync reports what stopped
it, if anything did; a search of the network, whether its contacts were kept. -/
inductive Status where
  | silverActive
  | silverReset
  | added
  | addressUpdated
  | revoked
  | removed
  | targetPolicyUpdated
  | targetAllowed
  | targetRemoved
  | profileAdded
  | profileRemoved
  | profileDeactivated
  | active
  | closed
  | cleanupDone
  | initialized
  | migrated
  | retired
  | «set»
  | updated
  | advertised
  | saved
  | searched (cached : Bool)
  | published
  | unpublished
  | providerAdded
  | providerRemoved
  | applied
  | alreadyApplied
  | synced (stopped : Option Code)
  deriving DecidableEq

inductive ServiceKind where
  | tcp
  | http
  | https
  | ssh
  deriving DecidableEq

structure ServiceProvider where
  peer : String
  target : String
  deriving DecidableEq

structure ServiceDefinition where
  name : String
  peer : String
  target : String
  kind : ServiceKind
  fallbacks : List ServiceProvider
  deriving DecidableEq

structure PublishedService where
  name : String
  kind : ServiceKind
  target : String
  deriving DecidableEq

inductive RouteHop where
  | quic
  | tcp
  deriving DecidableEq

structure Route where
  peer : String
  via : String
  hop : RouteHop
  deriving DecidableEq

def maxProviders : Nat := 4
def maxPublished : Nat := 32
def maxRoutes : Nat := 256
def maxNameLen : Nat := 128
def maxAddresses : Nat := 4
def maxAddressLen : Nat := 256

def serviceKind (kind : String) : Option ServiceKind :=
  if kind = "tcp" then some .tcp
  else if kind = "http" then some .http
  else if kind = "https" then some .https
  else if kind = "ssh" then some .ssh
  else none

def field (limit : Nat) (text : String) : Bool :=
  text ≠ "" && isTrimmed text.toList && byteLength text ≤ limit

/-- The names that are shown to other nodes have no control characters. -/
def checkName (name : String) : Bool :=
  field maxNameLen name && !name.toList.any isControl

def ServiceDefinition.providers (service : ServiceDefinition) : List (String × String) :=
  (service.peer, service.target) :: service.fallbacks.map (fun provider => (provider.peer, provider.target))

def validateProviders (service : ServiceDefinition) : Bool :=
  service.fallbacks.length + 1 ≤ maxProviders &&
    service.fallbacks.all (fun provider => field 128 provider.peer && field 512 provider.target) &&
    (service.providers.map (·.1)).Nodup

def validateServices (services : List ServiceDefinition) : Bool :=
  services.all (fun service => validateProviders service && field 128 service.name &&
      field 128 service.peer && field 512 service.target) &&
    (services.map (·.name)).Nodup

def isUnspecified : IpAddr → Bool
  | .v4 octets => octets.val.all (· = 0)
  | .v6 octets => octets.val.all (· = 0)

section Published

variable (addressing : Addressing) (socketText : SocketAddr → String)

/-- A literal address in the one spelling that `SocketAddr` prints. -/
def checkTarget (target : String) : Bool :=
  (addressing.parseSocketAddr target).any (fun socket =>
    socket.port ≠ 0 && !isUnspecified socket.ip && socketText socket = target)

def PublishedService.check (service : PublishedService) : Bool :=
  checkName service.name && checkTarget addressing socketText service.target

def validatePublished (services : List PublishedService) : Bool :=
  services.length ≤ maxPublished && services.all (PublishedService.check addressing socketText) &&
    (services.map (·.name)).Nodup

def servicePublish (published : List PublishedService) (name kind target : String) :
    Except Code (List PublishedService) :=
  if name = "" then .error .serviceInvalid
  else if published.any (fun service => service.name = name) then .error .serviceExists
  else
    match serviceKind kind with
    | none => .error .serviceInvalid
    | some kind =>
        let candidate := published ++ [⟨name, kind, target⟩]
        if validatePublished addressing socketText candidate then .ok candidate
        else .error .serviceInvalid

def serviceUnpublish (published : List PublishedService) (name : String) :
    Except Code (List PublishedService) :=
  let candidate := published.filter (fun service => service.name ≠ name)
  if name = "" then .error .serviceInvalid
  else if candidate.length = published.length then .error .serviceNotFound
  else if validatePublished addressing socketText candidate then .ok candidate
  else .error .serviceInvalid

end Published

def validated (candidate : List ServiceDefinition) : Except Code (List ServiceDefinition) :=
  if validateServices candidate then .ok candidate else .error .serviceInvalid

def serviceAdd (services : List ServiceDefinition) (name peer target kind : String) :
    Except Code (List ServiceDefinition) :=
  if name = "" then .error .serviceInvalid
  else if services.any (fun service => service.name = name) then .error .serviceExists
  else
    match serviceKind kind with
    | none => .error .serviceInvalid
    | some kind => validated (services ++ [⟨name, peer, target, kind, []⟩])

def serviceRemove (services : List ServiceDefinition) (name : String) :
    Except Code (List ServiceDefinition) :=
  let candidate := services.filter (fun service => service.name ≠ name)
  if name = "" then .error .serviceInvalid
  else if candidate.length = services.length then .error .serviceNotFound
  else validated candidate

def changeService (name : String) (change : ServiceDefinition → Except Code ServiceDefinition) :
    List ServiceDefinition → Except Code (List ServiceDefinition)
  | [] => .error .serviceNotFound
  | service :: rest =>
      if service.name = name then (change service).map (· :: rest)
      else (changeService name change rest).map (service :: ·)

def serviceProviderAdd (services : List ServiceDefinition) (name peer target kind : String) :
    Except Code (List ServiceDefinition) := do
  let candidate ← changeService name (fun service =>
    if kind ≠ "" ∧ serviceKind kind ≠ some service.kind then .error .serviceInvalid
    else .ok { service with fallbacks := service.fallbacks ++ [⟨peer, target⟩] }) services
  validated candidate

/-- Without its first provider a service goes on with the next one; the last
provider goes only with the service. -/
def withoutProvider (peer : String) (service : ServiceDefinition) :
    Except Code ServiceDefinition :=
  if service.peer = peer then
    match service.fallbacks with
    | [] => .error .serviceInvalid
    | next :: rest => .ok { service with peer := next.peer, target := next.target, fallbacks := rest }
  else
    let rest := service.fallbacks.filter (fun provider => provider.peer ≠ peer)
    if rest.length = service.fallbacks.length then .error .serviceNotFound
    else .ok { service with fallbacks := rest }

def serviceProviderRemove (services : List ServiceDefinition) (name peer : String) :
    Except Code (List ServiceDefinition) := do
  let candidate ← changeService name (withoutProvider peer) services
  validated candidate

def Route.check (route : Route) : Bool :=
  checkName route.peer && checkName route.via && route.peer ≠ route.via

def validateRoutes (routes : List Route) : Bool :=
  routes.length ≤ maxRoutes && routes.all Route.check && (routes.map (·.peer)).Nodup &&
    !routes.any (fun route => routes.any (fun other => other.peer = route.via))

def routeHop (hop : String) : Option RouteHop :=
  if hop = "" then some .quic
  else if hop = "quic" then some .quic
  else if hop = "tcp" then some .tcp
  else none

def replaceRoute (route : Route) : List Route → List Route
  | [] => [route]
  | existing :: rest =>
      if existing.peer = route.peer then route :: rest else existing :: replaceRoute route rest

def validatedRoutes (candidate : List Route) : Except Code (List Route) :=
  if validateRoutes candidate then .ok candidate else .error .routeInvalid

def routeSet (routes : List Route) (members : List String) (peer via hop : String) : Except Code (List Route) :=
  match routeHop hop with
  | none => .error .routeInvalid
  | some hop =>
      if peer ∉ members ∨ via ∉ members then .error .routeInvalid
      else validatedRoutes (replaceRoute ⟨peer, via, hop⟩ routes)

def routeRemove (routes : List Route) (peer : String) : Except Code (List Route) :=
  let candidate := routes.filter (fun route => route.peer ≠ peer)
  if candidate.length = routes.length then .error .routeNotFound else validatedRoutes candidate

section Advertised

variable (addressing : Addressing)

def validAddress (address : String) : Bool :=
  byteLength address ≤ maxAddressLen &&
    (((stripLeading "quic://".toList address.toList).or
      (stripLeading "tcp://".toList address.toList)).bind (fun endpoint =>
        addressing.parseSocketAddr (String.ofList endpoint))).any
      (fun socket => socket.port ≠ 0 && !isUnspecified socket.ip)

def checkAddresses (addresses : List String) : Bool :=
  addresses ≠ [] && addresses.length ≤ maxAddresses && addresses.all (validAddress addressing)

def validateAdvertised (addresses : List String) : Bool :=
  addresses = [] || checkAddresses addressing addresses

end Advertised

def splitAddresses (text : String) : List String :=
  ((text.toList.splitOn ',').map (fun part => String.ofList (trim part))).filter (· ≠ "")

def encodeAutoSync (enabled : Bool) : List UInt8 :=
  ("\x7b\"version\":1,\"enabled\":" ++ (if enabled then "true" else "false") ++
    "\x7d").toUTF8.data.toList

def parseAutoSync (bytes : List UInt8) : Option Bool :=
  [true, false].find? (fun enabled => bytes = encodeAutoSync enabled)

end Werewolf.Control
