import Werewolf.Control.ServiceProperties
import Werewolf.Discovery.Lookup

/-! The routes of the operator as a graph. An accepted list has one edge out of a
member at most and none out of a relay, so that no walk along it is longer than one. -/

namespace Werewolf.Control
open Library Procedure Policy
open Relation (ReflTransGen)
open State hiding name

variable {routes : List Route}

structure OneRelay (routes : List Route) : Prop where
  few : routes.length ≤ maxRoutes
  checked : ∀ route ∈ routes, route.check = true
  distinct : (routes.map (·.peer)).Nodup
  unchained : ∀ route ∈ routes, ∀ other ∈ routes, other.peer ≠ route.via

theorem validateRoutes_iff : validateRoutes routes = true ↔ OneRelay routes := by
  simp only [validateRoutes, Bool.and_eq_true, decide_eq_true_eq, List.all_eq_true,
    Bool.not_eq_true', List.any_eq_false, Bool.not_eq_true]
  constructor
  · rintro ⟨⟨⟨few, checked⟩, distinct⟩, unchained⟩
    exact ⟨few, checked, distinct, unchained⟩
  · intro one
    exact ⟨⟨⟨one.few, one.checked⟩, one.distinct⟩, one.unchained⟩

theorem OneRelay.perm {other : List Route} (same : routes.Perm other) (one : OneRelay routes) : OneRelay other where
  few := same.length_eq ▸ one.few
  checked route listed := one.checked route (same.mem_iff.mpr listed)
  distinct := ((same.map _).nodup_iff).mp one.distinct
  unchained route listed next within :=
    one.unchained route (same.mem_iff.mpr listed) next (same.mem_iff.mpr within)

theorem OneRelay.relays_other (one : OneRelay routes) {route : Route} (listed : route ∈ routes) :
    route.peer ≠ route.via := by
  have checked := one.checked route listed
  simp only [Route.check, Bool.and_eq_true, decide_eq_true_eq] at checked
  exact checked.2

def Relays (routes : List Route) (peer via : String) : Prop :=
  ∃ route ∈ routes, route.peer = peer ∧ route.via = via

theorem OneRelay.walk_short (one : OneRelay routes) {peer : String} {walk : List String}
    (follows : List.IsChain (Relays routes) (peer :: walk)) : walk.length ≤ 1 := by
  match walk, follows with
  | [], _ => exact Nat.zero_le _
  | [_], _ => exact le_refl _
  | relay :: next :: rest, follows =>
    obtain ⟨⟨route, listed, _, via⟩, follows⟩ := List.isChain_cons_cons.mp follows
    obtain ⟨⟨onward, within, same, _⟩, _⟩ := List.isChain_cons_cons.mp follows
    exact absurd (same.trans via.symm) (one.unchained route listed onward within)

theorem OneRelay.one_route (one : OneRelay routes) (peer : String) :
    (routes.filter (fun route => route.peer = peer)).length ≤ 1 := by
  have counted := List.nodup_iff_count_le_one.mp one.distinct peer
  rwa [List.count, List.countP_map, List.countP_eq_length_filter] at counted

def DialsRelay (routes : List Route) (peers : List PeerRecord) (routed : Routed) : Prop :=
  (∀ via, ¬ Relays routes routed.via via) ∧
    ∃ relay ∈ peers, relay.name = routed.via ∧ routed.relay = expectedIdentity relay ∧
      (selectPeerTransport routed.hop.text relay.address).map FangTransport.address = some routed.relayAddress

section Resolving

variable {addressing : Addressing} {peers : List PeerRecord} {record : PeerRecord}
  {requested peer : String} {routed : Routed}

theorem OneRelay.relayResolve_dials (one : OneRelay routes) {route : Route} (listed : route ∈ routes)
    (resolved : relayResolve addressing route record peers requested = some routed) :
    DialsRelay routes peers routed := by
  simp only [relayResolve, bind_eq_some, pure, Option.some.injEq] at resolved
  obtain ⟨_, _, relay, found, transport, selected, destination, _, rfl⟩ := resolved
  refine ⟨?_, relay, List.mem_of_find?_eq_some found, ?_, rfl, ?_⟩
  · rintro via ⟨onward, within, same, _⟩
    exact one.unchained route listed onward within same
  · simpa using List.find?_some found
  · simp [selected]

theorem OneRelay.pathTo_dials (one : OneRelay routes) {quic : String → Option Path}
    (direct : ∀ address, quic address ≠ some (.routed routed))
    (resolved : pathTo addressing quic peers routes requested record peer = some (.routed routed)) :
    DialsRelay routes peers routed := by
  unfold pathTo at resolved
  split at resolved
  · rename_i route found
    obtain ⟨_, relayed, same⟩ := Option.map_eq_some_iff.mp resolved
    cases same
    exact one.relayResolve_dials (List.mem_of_find?_eq_some found) relayed
  · obtain ⟨transport, _, same⟩ := Option.bind_eq_some_iff.mp resolved
    cases transport with
    | quic address => exact absurd same (direct address)
    | tcp address => cases same

theorem OneRelay.fromPeer_dials (one : OneRelay routes) {contacting : Discovery.Contacting} {seed : Discovery.Seed}
    (made : Discovery.Seed.fromPeer contacting routes peers record = some seed)
    (relayed : seed.path = .relay routed) : DialsRelay routes peers routed := by
  simp only [Discovery.Seed.fromPeer, bind_eq_some, pure, Option.some.injEq] at made
  obtain ⟨_, _, _, _, rfl⟩ := made
  cases found : routes.find? (fun route => route.peer = record.name) with
  | none => simp [found] at relayed
  | some route =>
    cases resolved : relayResolve contacting.toAddressing route record peers "tcp" with
    | none => simp [found, resolved] at relayed
    | some resolution =>
      simp only [found, resolved] at relayed
      cases relayed
      exact one.relayResolve_dials (List.mem_of_find?_eq_some found) resolved

end Resolving

inductive RouteCommand where
  | set (peer via hop : String)
  | remove (peer : String)

namespace RouteCommand

def command : RouteCommand → Command
  | set peer via hop => .routeSet peer via hop
  | remove peer => .routeRemove peer

def candidate (node : Node) : RouteCommand → Except Code (List Route)
  | set peer via hop => routeSet node.routes (node.peers.map (·.name)) peer via hop
  | remove peer => routeRemove node.routes peer

theorem candidate_valid {command : RouteCommand} {node : Node}
    (accepted : command.candidate node = .ok routes) : validateRoutes routes = true := by
  cases command with
  | set => exact routeSet_valid accepted
  | remove => exact routeRemove_valid accepted

end RouteCommand

theorem serve_routes (host : Host) (system : System) (command : RouteCommand) (environments : Nat → Environment) :
    Served system.node.routes (command.candidate system.node) (serve host command.command environments system).1
      (serve host command.command environments system).2.node.routes := by
  refine serve_served Node.routes ?_
  cases command <;> exact persistFile_replies _ (fun _ => rfl) (fun _ _ => rfl)

inductive RouteStep (host : Host) : System → System → Prop where
  | command (system : System) (command : RouteCommand) (environments : Nat → Environment) :
      RouteStep host system (step host system (.command command.command environments))
  | other {before after : System} (same : after.node.routes = before.node.routes) :
      RouteStep host before after

theorem RouteStep.valid {host : Host} {before after : System} (taken : RouteStep host before after)
    (valid : validateRoutes before.node.routes = true) :
    validateRoutes after.node.routes = true := by
  cases taken with
  | other same => rwa [same]
  | command command environments =>
    simp only [step]
    split
    · have served := serve_routes host before command environments
      generalize (serve host command.command environments before).1 = result,
        (serve host command.command environments before).2.node.routes = routes at served
      cases served with
      | saved status accepted => exact RouteCommand.candidate_valid accepted
      | refused => exact valid
    · exact valid

/-- Route commands keep the list accepted, acceptance is a matter of the routes and not of
their order, and an accepted list never leads through two relays. -/
theorem routes_have_one_relay (host : Host) : (∀ before after, ReflTransGen (RouteStep host) before after →
      validateRoutes before.node.routes = true → validateRoutes after.node.routes = true) ∧
      (∀ routes other : List Route, routes.Perm other → validateRoutes routes = validateRoutes other) ∧
      ∀ routes : List Route, validateRoutes routes = true →
        (∀ peer, (routes.filter (fun route => route.peer = peer)).length ≤ 1) ∧ (∀ peer, ¬ Relays routes peer peer) ∧
          (∀ peer walk, List.IsChain (Relays routes) (peer :: walk) → walk.length ≤ 1) ∧
          (∀ addressing peers requested record peer routed,
            directPath addressing peers routes requested record peer = some (.routed routed) ∨
              providerPath addressing peers routes requested record peer =
                some (.routed routed) → DialsRelay routes peers routed) ∧
          ∀ contacting peers record seed routed, Discovery.Seed.fromPeer contacting routes peers record = some seed →
              seed.path = .relay routed → DialsRelay routes peers routed := by
  refine ⟨fun before after steps valid => ?_, fun routes other same => ?_, fun routes valid => ?_⟩
  · exact invariant_of_steps (fun system => validateRoutes system.node.routes = true)
      (fun _ _ taken => taken.valid) steps valid
  · rw [Bool.eq_iff_iff, validateRoutes_iff, validateRoutes_iff]
    exact ⟨.perm same, .perm same.symm⟩
  · have one := validateRoutes_iff.mp valid
    refine ⟨one.one_route, ?_, fun _ _ => one.walk_short, ?_, fun _ _ _ _ _ => one.fromPeer_dials⟩
    · rintro peer ⟨route, listed, same, via⟩
      exact one.relays_other listed (same.trans via.symm)
    · rintro addressing peers requested record peer routed (direct | provider)
      · exact one.pathTo_dials (fun _ => by simp) direct
      · exact one.pathTo_dials (fun _ => by simp) provider

end Werewolf.Control
