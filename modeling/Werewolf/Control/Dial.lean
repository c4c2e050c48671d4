import Werewolf.Control.Dispatch

/-! What a Fang dials. The addresses and keys are copied from the Pack when it
opens: of its peer, of the relay of a route, and of every provider of a service. -/

namespace Werewolf.Control
open Library State Policy

inductive FangTransport where
  | tcp (address : String)
  | quic (address : String)
  deriving DecidableEq

def parseFangTransport (address : String) : Option FangTransport :=
  match stripLeading "tcp://".toList address.toList with
  | some rest => some (.tcp (String.ofList rest))
  | none =>
      (stripLeading "quic://".toList address.toList).map (fun rest => .quic (String.ofList rest))

/-- `str::replace` of every `quic://` by `tcp://`. -/
def replaceQuic : List Char → List Char
  | 'q' :: 'u' :: 'i' :: 'c' :: ':' :: '/' :: '/' :: rest => "tcp://".toList ++ replaceQuic rest
  | character :: rest => character :: replaceQuic rest
  | [] => []

def selectPeerTransport (requested peerAddress : String) : Option FangTransport :=
  if requested = "tcp" ∨ requested = "tcp-plain" then
    match parseFangTransport (String.ofList (replaceQuic peerAddress.toList)) with
    | some (.tcp address) => some (.tcp address)
    | _ => none
  else
    match parseFangTransport peerAddress with
    | some (.quic address) => some (.quic address)
    | _ => none

def RouteHop.text : RouteHop → String
  | .quic => "quic"
  | .tcp => "tcp"

def FangTransport.address : FangTransport → String
  | .tcp address => address
  | .quic address => address

structure ExpectedPeerIdentity where
  fingerprint : String
  publicKeyB64 : Option String
  deriving DecidableEq

def expectedIdentity (record : PeerRecord) : ExpectedPeerIdentity :=
  ⟨record.fingerprint, record.publicKeyB64⟩

structure Routed where
  via : String
  hop : RouteHop
  relayAddress : String
  relay : ExpectedPeerIdentity
  destination : SocketAddr
  deriving DecidableEq

/-- How a member is reached. A QUIC address is a text, or parsed for a provider. -/
inductive Path where
  | quic (address : String)
  | quicSocket (address : SocketAddr)
  | tcp (address : String)
  | routed (routed : Routed)
  deriving DecidableEq

structure Provider where
  peer : String
  remote : String
  expected : ExpectedPeerIdentity
  path : Path
  deriving DecidableEq

def Provider.uses (provider : Provider) : List String :=
  match provider.path with
  | .routed routed => [provider.peer, routed.via]
  | _ => [provider.peer]

def member (peers : List PeerRecord) (name : String) : Option PeerRecord :=
  peers.find? (fun peer => peer.name = name)

section Resolving

variable (addressing : Addressing)

def literalTcp (destination : PeerRecord) : Option SocketAddr :=
  match selectPeerTransport "tcp" destination.address with
  | some (.tcp address) => addressing.parseSocketAddr address
  | _ => none

/-- `relay::resolve`. Plain TCP is never carried through a relay. -/
def relayResolve (route : Route) (destination : PeerRecord) (peers : List PeerRecord)
    (requested : String) : Option Routed := do
  Authority.require (requested ≠ "tcp-plain")
  let relay ← member peers route.via
  let transport ← selectPeerTransport route.hop.text relay.address
  let destination ← literalTcp addressing destination
  return ⟨route.via, route.hop, transport.address, expectedIdentity relay, destination⟩

/-- The path to a member, by its route or with its QUIC address read by `quic`. -/
def pathTo (quic : String → Option Path) (peers : List PeerRecord) (routes : List Route)
    (requested : String) (record : PeerRecord) (peer : String) : Option Path :=
  match routes.find? (fun route => route.peer = peer) with
  | some route => (relayResolve addressing route record peers requested).map .routed
  | none =>
      (selectPeerTransport requested record.address).bind (fun
        | .quic address => quic address
        | .tcp address => some (.tcp address))

def directPath : List PeerRecord → List Route → String → PeerRecord → String → Option Path :=
  pathTo addressing (some ∘ .quic)

def providerPath : List PeerRecord → List Route → String → PeerRecord → String → Option Path :=
  pathTo addressing (fun address => (addressing.parseSocketAddr address).map .quicSocket)

/-- A Fang of one peer, as `open_fang_with_profile` resolves it. -/
def directResolve (node : Node) (requested peer remote : String) : Option Provider := do
  let record ← member node.peers peer
  let path ← directPath addressing node.peers node.routes requested record peer
  return ⟨peer, remote, expectedIdentity record, path⟩

def providerResolve (node : Node) (requested : String) (provider : String × String) :
    Option Provider := do
  let record ← member node.peers provider.1
  let path ← providerPath addressing node.peers node.routes requested record provider.1
  return ⟨provider.1, provider.2, expectedIdentity record, path⟩

/-- `failover::resolve`. Every provider must resolve. -/
def failoverResolve (node : Node) (service : ServiceDefinition) (requested : String) :
    Option (List Provider) := do
  Authority.require (requested ≠ "tcp-plain")
  service.providers.mapM (providerResolve addressing node requested)

structure Opening where
  «local» : String
  providers : List Provider
  alsoUses : List String

def Opening.direct («local» : String) (provider : Provider) : Opening :=
  ⟨«local», [provider], provider.uses.tail⟩

def Node.resolve (node : Node) (requested : String) : Command → Option Opening
  | .fangOpen peer «local» remote =>
      (directResolve addressing node requested peer remote).map (Opening.direct «local»)
  | .fangOpenProfile name => do
      let profile ← node.fangProfiles.find? (fun profile => profile.name = name)
      (directResolve addressing node profile.transport profile.peer profile.remote).map
        (Opening.direct profile.local)
  | .serviceConnect name «local» => do
      let service ← node.services.find? (fun service => service.name = name)
      if service.fallbacks.isEmpty then
        (directResolve addressing node requested service.peer service.target).map
          (Opening.direct «local»)
      else
        (failoverResolve addressing node service requested).map (fun providers =>
          ⟨«local», providers, providers.flatMap Provider.uses⟩)
  | _ => none

end Resolving

structure Dialled where
  system : System
  dials : String → List Provider

structure DialEvent where
  event : Event
  requested : String

def Environment.listening (environment : Environment) (opening : Option Opening) : Environment :=
  { environment with
    listener := do
      let listener ← environment.listener
      let opening ← opening
      return (listener.1, opening.alsoUses) }

section Events

variable (host : Host) (node : Node) (requested : String)

def Event.opening : Event → Option Opening
  | .command asked _ => node.resolve host.toAddressing requested asked
  | _ => none

def Event.listening : Event → Event
  | .command asked environments =>
      .command asked (fun index =>
        (environments index).listening (node.resolve host.toAddressing requested asked))
  | event => event

end Events

namespace Dialled

def dialling (dialled : Dialled) : Option Opening → String → List Provider
  | some opening =>
      if dialled.system.node.fangs.any (fun fang => fang.local = opening.local) then dialled.dials
      else Function.update dialled.dials opening.local opening.providers
  | none => dialled.dials

def step (host : Host) (dialled : Dialled) (event : DialEvent) : Dialled where
  system := Control.step host dialled.system (event.event.listening host dialled.system.node event.requested)
  dials := dialled.dialling (event.event.opening host dialled.system.node event.requested)

end Dialled

end Werewolf.Control
