import Werewolf.Control.FangProperties
import Werewolf.Control.FenceProperties

/-! What a Fang dials stays what the Pack says. The addresses and keys are copied
when it opens, and a command that changes a member closes the Fangs that use it
before the change is published. -/

namespace Werewolf.Control
open Library Procedure Governance Policy
open State hiding name
open Storage hiding name
open Relation (ReflTransGen)

section Current

variable (addressing : Addressing)

/-- The path leads to the address that the record has, and that of a relay to the
address and the key of the relay's own record. -/
def Path.Leads (peers : List PeerRecord) (record : PeerRecord) : Path → Prop
  | .quic address => selectPeerTransport "quic" record.address = some (.quic address)
  | .quicSocket socket => ∃ address,
      selectPeerTransport "quic" record.address = some (.quic address) ∧
        addressing.parseSocketAddr address = some socket
  | .tcp address => selectPeerTransport "tcp" record.address = some (.tcp address)
  | .routed hop => ∃ relay transport, member peers hop.via = some relay ∧ hop.relay = expectedIdentity relay ∧
      selectPeerTransport hop.hop.text relay.address = some transport ∧
      hop.relayAddress = transport.address ∧
      literalTcp addressing record = some hop.destination

def Provider.Current (peers : List PeerRecord) (provider : Provider) : Prop :=
  ∃ record, member peers provider.peer = some record ∧
    provider.expected = expectedIdentity record ∧ provider.path.Leads addressing peers record

variable {addressing : Addressing}

theorem Provider.peer_mem_uses (provider : Provider) : provider.peer ∈ provider.uses := by
  unfold Provider.uses
  split <;> simp

theorem Provider.uses_eq (provider : Provider) : provider.uses = provider.peer :: provider.uses.tail := by
  unfold Provider.uses
  split <;> rfl

theorem Provider.Current.carries {before after : List PeerRecord} {provider : Provider}
    (current : provider.Current addressing before)
    (kept : ∀ name ∈ provider.uses, ∀ record, member before name = some record →
      member after name = some record) : provider.Current addressing after := by
  obtain ⟨record, found, expected, leads⟩ := current
  refine ⟨record, kept _ provider.peer_mem_uses record found, expected, ?_⟩
  cases path : provider.path with
  | quic address => rwa [path] at leads
  | quicSocket address => rwa [path] at leads
  | tcp address => rwa [path] at leads
  | routed routed =>
    rw [path] at leads
    obtain ⟨relay, transport, present, rest⟩ := leads
    refine ⟨relay, transport, kept _ ?_ relay present, rest⟩
    simp [Provider.uses, path]

end Current

section Resolving

variable {addressing : Addressing}
  {requested peer : String} {record : PeerRecord} {peers : List PeerRecord} {node : Node}

theorem selectPeerTransport_quic {peerAddress address : String}
    (selected : selectPeerTransport requested peerAddress = some (.quic address)) :
    selectPeerTransport "quic" peerAddress = some (.quic address) := by
  unfold selectPeerTransport at selected ⊢
  split at selected
  · split at selected <;> cases selected
  · simpa using selected

theorem selectPeerTransport_tcp {peerAddress address : String}
    (selected : selectPeerTransport requested peerAddress = some (.tcp address)) :
    selectPeerTransport "tcp" peerAddress = some (.tcp address) := by
  unfold selectPeerTransport at selected ⊢
  split at selected
  · simpa using selected
  · split at selected <;> cases selected

theorem relayResolve_leads {route : Route} {routed : Routed}
    (resolved : relayResolve addressing route record peers requested = some routed) :
    (Path.routed routed).Leads addressing peers record := by
  simp only [relayResolve, bind_eq_some, return_eq_some] at resolved
  obtain ⟨_, _, relay, found, transport, selected, destination, literal, rfl⟩ := resolved
  exact ⟨relay, transport, found, rfl, selected, rfl, literal⟩

theorem pathTo_leads {routes : List Route} {path : Path} {quic : String → Option Path}
    (leads : ∀ address path, selectPeerTransport "quic" record.address = some (.quic address) →
      quic address = some path → path.Leads addressing peers record)
    (resolved : pathTo addressing quic peers routes requested record peer = some path) :
    path.Leads addressing peers record := by
  unfold pathTo at resolved
  split at resolved
  · obtain ⟨routed, found, rfl⟩ := Option.map_eq_some_iff.mp resolved
    exact relayResolve_leads found
  · obtain ⟨transport, selected, reached⟩ := Option.bind_eq_some_iff.mp resolved
    cases transport with
    | tcp address =>
      cases reached
      exact selectPeerTransport_tcp selected
    | quic address => exact leads address path (selectPeerTransport_quic selected) reached

theorem directResolve_spec {remote : String} {provider : Provider}
    (resolved : directResolve addressing node requested peer remote = some provider) :
    provider.peer = peer ∧ provider.Current addressing node.peers := by
  simp only [directResolve, bind_eq_some, return_eq_some] at resolved
  obtain ⟨record, found, path, led, rfl⟩ := resolved
  refine ⟨rfl, record, found, rfl, pathTo_leads (fun address _ selected read => ?_) led⟩
  cases read
  exact selected

theorem providerResolve_spec {named : String × String} {provider : Provider}
    (resolved : providerResolve addressing node requested named = some provider) :
    provider.Current addressing node.peers := by
  simp only [providerResolve, bind_eq_some, return_eq_some] at resolved
  obtain ⟨record, found, path, led, rfl⟩ := resolved
  refine ⟨record, found, rfl, pathTo_leads (fun address _ selected read => ?_) led⟩
  obtain ⟨socket, parsed, rfl⟩ := Option.map_eq_some_iff.mp read
  exact ⟨address, selected, parsed⟩

structure Opening.Sound (addressing : Addressing) (peers : List PeerRecord) (peer «local» : String)
    (opening : Opening) : Prop where
  «local» : opening.local = «local»
  dials : opening.providers ≠ []
  current : ∀ provider ∈ opening.providers, provider.Current addressing peers
  uses : ∀ provider ∈ opening.providers, ∀ name ∈ provider.uses,
    name = peer ∨ name ∈ opening.alsoUses

theorem Opening.direct_sound {requested peer remote «local» : String} {opening : Opening}
    (resolved : (directResolve addressing node requested peer remote).map (Opening.direct «local») = some opening) :
    opening.Sound addressing node.peers peer «local» := by
  obtain ⟨provider, found, rfl⟩ := Option.map_eq_some_iff.mp resolved
  obtain ⟨rfl, current⟩ := directResolve_spec found
  refine ⟨rfl, List.cons_ne_nil _ _, fun other listed => ?_, fun other listed name used => ?_⟩
  · rwa [List.mem_singleton.mp listed]
  · rw [List.mem_singleton.mp listed, provider.uses_eq] at used
    exact List.mem_cons.mp used

theorem failoverResolve_spec {service : ServiceDefinition} {providers : List Provider}
    (resolved : failoverResolve addressing node service requested = some providers) :
    providers ≠ [] ∧ ∀ provider ∈ providers, provider.Current addressing node.peers := by
  simp only [failoverResolve, bind_eq_some] at resolved
  obtain ⟨_, _, all⟩ := resolved
  constructor
  · rintro rfl
    simp only [ServiceDefinition.providers, List.mapM_cons, bind_eq_some, return_eq_some] at all
    obtain ⟨_, _, _, _, impossible⟩ := all
    cases impossible
  · intro provider listed
    obtain ⟨named, _, found⟩ := mem_of_mapM all listed
    exact providerResolve_spec found

/-- Only a service with fallbacks resolves to anything but one peer. -/
theorem resolve_cases {peer «local» remote : String} {command : Command} {opening : Opening}
    (resolved : node.resolve addressing requested command = some opening)
    (asked : node.asks command = some (peer, «local», remote)) :
    (∃ transport, (directResolve addressing node transport peer remote).map (Opening.direct «local») = some opening) ∨
      ∃ name, ∃ service ∈ node.services, command = .serviceConnect name «local» ∧
        service.name = name ∧ service.fallbacks.isEmpty = false ∧
        (failoverResolve addressing node service requested).map (fun providers =>
          ⟨«local», providers, providers.flatMap Provider.uses⟩) = some opening := by
  cases command with
  | fangOpen _ _ _ =>
    cases asked
    exact .inl ⟨_, resolved⟩
  | fangOpenProfile name =>
    obtain ⟨profile, found, shape⟩ := Option.map_eq_some_iff.mp asked
    cases shape
    simp only [Node.resolve, found, Option.bind_eq_bind, Option.bind_some] at resolved
    exact .inl ⟨_, resolved⟩
  | serviceConnect name _ =>
    obtain ⟨service, found, shape⟩ := Option.map_eq_some_iff.mp asked
    cases shape
    simp only [Node.resolve, found, Option.bind_eq_bind, Option.bind_some] at resolved
    cases alone : service.fallbacks.isEmpty with
    | true => exact .inl ⟨_, by simpa [alone] using resolved⟩
    | false =>
      exact .inr ⟨name, service, List.mem_of_find?_eq_some found, rfl,
        by simpa using List.find?_some found, alone, by simpa [alone] using resolved⟩
  | _ => cases asked

theorem resolve_sound {peer «local» remote : String} {command : Command} {opening : Opening}
    (resolved : node.resolve addressing requested command = some opening)
    (asked : node.asks command = some (peer, «local», remote)) :
    opening.Sound addressing node.peers peer «local» := by
  rcases resolve_cases resolved asked with ⟨_, direct⟩ | ⟨_, _, _, _, _, _, failover⟩
  · exact Opening.direct_sound direct
  · obtain ⟨providers, all, rfl⟩ := Option.map_eq_some_iff.mp failover
    obtain ⟨some_, current⟩ := failoverResolve_spec all
    refine ⟨rfl, some_, current, fun provider listed name used => .inr ?_⟩
    exact List.mem_flatMap.mpr ⟨provider, listed, used⟩

theorem listening_some {environment : Environment} {opening : Option Opening} {id : String} {alsoUses : List String}
    (opened : (environment.listening opening).listener = some (id, alsoUses)) :
    ∃ listener found, environment.listener = some listener ∧ opening = some found ∧
      listener.1 = id ∧ alsoUses = found.alsoUses := by
  obtain ⟨listener, listens, resolved⟩ := Option.bind_eq_some_iff.mp opened
  obtain ⟨found, rfl, shape⟩ := Option.bind_eq_some_iff.mp resolved
  simp only [Option.pure_def, Option.some.injEq, Prod.mk.injEq] at shape
  exact ⟨listener, found, listens, rfl, shape.1, shape.2.symm⟩

end Resolving

section Running

variable {host : Host} {addressing : Addressing}

/-- Every Fang dials, and every member it dials or goes through is one it uses and
is dialled as the Pack has it. -/
def Dials (addressing : Addressing) (dials : String → List Provider) (node : Node) : Prop :=
  ∀ fang ∈ node.fangs, dials fang.local ≠ [] ∧ ∀ provider ∈ dials fang.local,
    provider.Current addressing node.peers ∧ ∀ name ∈ provider.uses, fang.uses name = true

variable {dials : String → List Provider} {before after : Node}

theorem Dials.loyal {accepted : List Route × List FangProfile → Prop}
    (holds : Dials addressing dials before) (loyal : Loyal accepted before after) :
    Dials addressing dials after := by
  intro fang opened
  obtain ⟨some_, all⟩ := holds fang (loyal.fangs.subset opened)
  refine ⟨some_, fun provider listed => ?_⟩
  obtain ⟨current, uses⟩ := all provider listed
  exact ⟨current.carries (fun name used record =>
    loyal.members fang opened name record (uses name used)), uses⟩

theorem Dials.opens {environment : Environment} {command : Command} {fang : Fang} {opening : Opening}
    (holds : Dials addressing dials before) (opens : Opens host environment command fang before after)
    (sound : opening.Sound addressing before.peers fang.peer fang.local) (alsoUses : fang.alsoUses = opening.alsoUses)
    (dialled : dials fang.local = opening.providers) : Dials addressing dials after := by
  have peers : after.peers = before.peers := opens.opened.peers
  intro other opened
  rw [opens.opened.fangs, List.mem_append, List.mem_singleton] at opened
  rw [peers]
  rcases opened with opened | rfl
  · exact holds other opened
  · rw [dialled]
    refine ⟨sound.dials, fun provider listed => ?_⟩
    refine ⟨sound.current provider listed, fun name used => ?_⟩
    simp only [Fang.uses, Bool.or_eq_true, decide_eq_true_eq, alsoUses]
    exact (sound.uses provider listed name used).imp Eq.symm id

theorem Dials.dialling {dialled : Dialled}
    (holds : Dials addressing dialled.dials dialled.system.node) (opening : Option Opening) :
    Dials addressing (dialled.dialling opening) dialled.system.node := by
  cases opening with
  | none => exact holds
  | some opening =>
    simp only [Dialled.dialling]
    split
    · exact holds
    · rename_i unused
      intro fang opened
      have other : fang.local ≠ opening.local := by
        rintro same
        exact unused (List.any_eq_true.mpr ⟨fang, opened, by simp [same]⟩)
      rw [Function.update_of_ne other]
      exact holds fang opened

end Running

namespace Sample

def willing (_ : Nat) : Environment := { environment with listener := some ("first", []) }

def befriended : System :=
  { stopped (fun _ => none) with
    running := true
    node := { (stopped (fun _ => none)).node with
      pelt := some pelt
      gate := Authority.Gate.initial false
      silver := .armed
      mode := .human
      peers := [⟨"howler", memberFingerprint, "tcp://127.0.0.1:7000", .packmate, some memberKey⟩] } }

def reaching : Dialled :=
  run (Dialled.step host) ⟨befriended, fun _ => []⟩
    [⟨.command (.fangOpen "howler" "127.0.0.1:8000" "127.0.0.1:22") willing, "tcp"⟩]

end Sample

end Werewolf.Control
