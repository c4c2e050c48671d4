import Werewolf.Policy.TargetProperties

/-! What an authorization grants. The decision is made on everything that a
target names, and only a name needs a lookup. -/

namespace Werewolf.Policy
open Library

def TargetPolicy.Permits (policy : TargetPolicy) (peer : String) (endpoint : SocketAddr) : Prop :=
  ∃ table allowed, policy = .grants table ∧ table.lookup peer = some allowed ∧ endpoint ∈ allowed

theorem permits_grants {table : Grants} {peer : String} {endpoint : SocketAddr} :
    (TargetPolicy.grants table).Permits peer endpoint ↔
      ∃ allowed, table.lookup peer = some allowed ∧ endpoint ∈ allowed := by
  simp [TargetPolicy.Permits]

def PolicyFile.Lists (file : PolicyFile) (peer : String) (endpoint : SocketAddr) : Prop :=
  ∃ entries targets, file.peers = some entries ∧ (peer, targets) ∈ entries ∧
    ∃ target ∈ targets, endpoint = SocketAddr.new target.address target.port

namespace SocketAddr

def Scoped : SocketAddr → Prop
  | .v4 _ _ => False
  | .v6 _ _ _ scopeId => scopeId ≠ 0

def LinkLocal : SocketAddr → Prop
  | .v4 _ _ => False
  | .v6 octets _ _ _ => isUnicastLinkLocal octets = true

end SocketAddr

theorem supportedEndpoint_iff (endpoint : SocketAddr) : supportedEndpoint endpoint = true ↔
      endpoint.port ≠ 0 ∧ ¬endpoint.Scoped ∧ ¬endpoint.LinkLocal := by
  cases endpoint with
  | v4 octets port => simp [supportedEndpoint, SocketAddr.Scoped, SocketAddr.LinkLocal]
  | v6 octets port flowinfo scopeId =>
    simp [supportedEndpoint, SocketAddr.Scoped, SocketAddr.LinkLocal]

section Listing

theorem endpointsOf_listed {targets : List TargetGrant} {endpoints : Finset SocketAddr}
    (read : endpointsOf targets = some endpoints) :
    ∀ endpoint ∈ endpoints, ∃ target ∈ targets, endpoint = SocketAddr.new target.address target.port := by
  refine foldlM_invariant (fun endpoints : Finset SocketAddr => ∀ endpoint ∈ endpoints,
    ∃ target ∈ targets, endpoint = SocketAddr.new target.address target.port) ?_ (by simp) read
  intro state target member next known stepped endpoint inside
  simp only [Option.ite_none_left_eq_some, Option.some.injEq] at stepped
  obtain ⟨_, rfl⟩ := stepped
  rcases Finset.mem_insert.mp inside with new | old
  · exact ⟨target, member, new⟩
  · exact known endpoint old

theorem visitMap_listed {entries : List (String × List TargetGrant)} {peers : Peers}
    (visited : visitMap entries = some peers) :
    ∀ peer targets, peers.lookup peer = some targets → (peer, targets) ∈ entries := by
  refine foldlM_invariant (fun peers : Peers => ∀ peer targets,
    peers.lookup peer = some targets → (peer, targets) ∈ entries) ?_
    (fun peer targets found => by simp at found) visited
  rintro state ⟨fingerprint, added⟩ member next known stepped peer targets found
  simp only [Option.ite_none_left_eq_some, Option.some.injEq] at stepped
  obtain ⟨_, rfl⟩ := stepped
  by_cases same : peer = fingerprint
  · subst same
    rw [Finmap.lookup_insert, Option.some.injEq] at found
    rw [← found]
    exact member
  · rw [Finmap.lookup_insert_of_ne _ same] at found
    exact known peer targets found

theorem grantsOf_listed {peers : Peers} {table : Grants} (read : grantsOf peers = some table) :
    ∀ peer endpoints, table.lookup peer = some endpoints →
      endpointsOf ((peers.lookup peer).getD []) = some endpoints := by
  refine foldlM_invariant (fun table : Grants => ∀ peer endpoints, table.lookup peer = some endpoints →
      endpointsOf ((peers.lookup peer).getD []) = some endpoints) ?_
    (fun peer endpoints found => by simp at found) read
  intro state key member next known stepped peer endpoints found
  obtain ⟨added, readAdded, rfl⟩ := Option.map_eq_some_iff.mp stepped
  by_cases same : peer = key
  · subst same
    rw [Finmap.lookup_insert, Option.some.injEq] at found
    rw [← found]
    exact readAdded
  · rw [Finmap.lookup_insert_of_ne _ same] at found
    exact known peer endpoints found

theorem listed_of_permits {file : PolicyFile} {policy : TargetPolicy}
    (read : policyOf file = some policy) {peer : String} {endpoint : SocketAddr}
    (permitted : policy.Permits peer endpoint) : file.Lists peer endpoint := by
  obtain ⟨table, allowed, rfl, found, member⟩ := permitted
  unfold policyOf at read
  split at read
  · simp [policyFromFile] at read
    split at read <;> simp at read
  · rename_i entries listed
    obtain ⟨peers, visited, granted⟩ := Option.map_eq_some_iff.mp read
    have tabled : grantsOf peers = some table := by
      unfold policyFromFile at granted
      simp only [reduceCtorEq, and_false, if_false, Option.bind_some] at granted
      split at granted
      · split at granted
        · rename_i others tabled
          cases granted
          exact tabled
        · cases granted
      · cases granted
    have endpoints := grantsOf_listed tabled peer allowed found
    obtain ⟨target, inside, same⟩ := endpointsOf_listed endpoints endpoint member
    cases present : peers.lookup peer with
    | none => simp [present] at inside
    | some targets =>
      rw [present, Option.getD_some] at inside
      exact ⟨entries, targets, listed, visitMap_listed visited peer targets present, target, inside, same⟩

end Listing

section Decision

variable {policy : TargetPolicy} {peer : String} {named addresses : List SocketAddr}

theorem decideEndpoints_ok (decided : decideEndpoints policy peer named = .ok addresses) :
    addresses = ascending named.toFinset ∧ named ≠ [] ∧ (∀ endpoint ∈ named, supportedEndpoint endpoint = true) ∧
      (policy ≠ .legacyAllow → ∀ endpoint ∈ named, policy.Permits peer endpoint) := by
  unfold decideEndpoints at decided
  dsimp only at decided
  split at decided
  · cases decided
  · rename_i accepted
    simp only [List.toFinset_eq_empty_iff, not_or, not_exists, not_and, Bool.not_eq_false,
      List.mem_toFinset] at accepted
    cases policy with
    | legacyAllow =>
      cases decided
      exact ⟨rfl, accepted.1, accepted.2, fun other => absurd rfl other⟩
    | grants table =>
      dsimp only at decided
      split at decided
      · rename_i granted
        cases decided
        obtain ⟨allowed, found, subset⟩ := (Option.any_eq_true _ _).mp granted
        refine ⟨rfl, accepted.1, accepted.2, fun _ endpoint member => ?_⟩
        have inside := of_decide_eq_true subset (List.mem_toFinset.mpr member)
        exact ⟨table, allowed, rfl, found, inside⟩
      · cases decided
    | deny => cases decided
    | invalid => cases decided

theorem decideEndpoints_cases (policy : TargetPolicy) (peer : String) (named : List SocketAddr) :
    (∃ addresses, decideEndpoints policy peer named = .ok addresses) ∨
      decideEndpoints policy peer named = .error denied := by
  unfold decideEndpoints
  dsimp only
  split
  · exact .inr rfl
  · cases policy with
    | legacyAllow => exact .inl ⟨_, rfl⟩
    | grants table =>
      dsimp only
      split
      · exact .inl ⟨_, rfl⟩
      · exact .inr rfl
    | deny => exact .inr rfl
    | invalid => exact .inr rfl

end Decision

section Authorization

variable {addressing : Addressing} {resolver : String → UInt16 → Option (List SocketAddr)}
  {policy : TargetPolicy} {peer target : String}

theorem authorizeWithResolver_literal {m : Type → Type} [Monad m]
    (lookup : String → UInt16 → m (Option (List SocketAddr))) {endpoint : SocketAddr}
    (literal : addressing.parseSocketAddr target = some endpoint) :
    authorizeWithResolver addressing lookup policy peer target =
      pure (authorize addressing resolver policy peer target) := by
  rw [authorize_eq]
  unfold authorizeWithResolver
  split
  · rfl
  · simp [targetEndpoints, literal, Except.bind]

/-- What is granted is supported and, unless everything is allowed, an exact
grant to this very fingerprint; one endpoint that is not refuses the target. -/
theorem authorize_grants_exactly (addressing : Addressing) (resolver : String → UInt16 → Option (List SocketAddr))
    (policy : TargetPolicy) (peer target : String) :
    (∀ addresses, authorize addressing resolver policy peer target = .ok addresses → addresses ≠ [] ∧
      (∀ address ∈ addresses, address.port ≠ 0 ∧ ¬address.Scoped ∧ ¬address.LinkLocal) ∧
      (policy ≠ .legacyAllow → ∀ address ∈ addresses, policy.Permits peer address ∧
        ∀ file, policyOf file = some policy → file.Lists peer address)) ∧
    (policy ≠ .legacyAllow → ∀ named, targetEndpoints addressing resolver target = .ok named →
        (∃ endpoint ∈ named, ¬policy.Permits peer endpoint) →
        authorize addressing resolver policy peer target = .error denied) ∧
    (policy = .deny ∨ policy = .invalid → authorize addressing resolver policy peer target = .error denied) ∧
    (∀ endpoint, addressing.parseSocketAddr target = some endpoint →
      ∀ (m : Type → Type) [Monad m] (lookup : String → UInt16 → m (Option (List SocketAddr))),
        authorizeWithResolver addressing lookup policy peer target =
          pure (authorize addressing resolver policy peer target)) := by
  refine ⟨fun addresses authorized => ?_, fun guarded named resolved ungranted => ?_,
    fun refuses => ?_, fun endpoint literal m _ lookup =>
      authorizeWithResolver_literal lookup literal⟩
  · rw [authorize_eq] at authorized
    split at authorized
    · cases authorized
    · cases resolved : targetEndpoints addressing resolver target with
      | error outcome => simp [resolved, Except.bind] at authorized
      | ok named =>
          rw [resolved] at authorized
          obtain ⟨rfl, nonempty, supported, granted⟩ := decideEndpoints_ok authorized
          refine ⟨fun empty => ?_, fun address member => ?_, fun guarded address member => ?_⟩
          · obtain ⟨first, member⟩ := List.exists_mem_of_ne_nil named nonempty
            have listed := mem_ascending.mpr (List.mem_toFinset.mpr member)
            simp [empty] at listed
          · exact (supportedEndpoint_iff address).mp
              (supported address (List.mem_toFinset.mp (mem_ascending.mp member)))
          · have permitted :=
              granted guarded address (List.mem_toFinset.mp (mem_ascending.mp member))
            exact ⟨permitted, fun file read => listed_of_permits read permitted⟩
  · obtain ⟨endpoint, member, refused⟩ := ungranted
    rw [authorize_eq]
    split
    · rfl
    · rw [resolved]
      rcases decideEndpoints_cases policy peer named with ⟨addresses, decided⟩ | failed
      · obtain ⟨_, _, _, granted⟩ := decideEndpoints_ok decided
        exact absurd (granted guarded endpoint member) refused
      · exact failed
  · rw [authorize_eq, if_pos]
    rcases refuses with deny | invalid
    · exact .inl deny
    · exact .inr (.inl invalid)

end Authorization

namespace Sample

def names : Addressing := ⟨fun _ => "", fun _ => none, fun _ => none⟩

def fingerprint : String := "wwp1:00-11-22-33-44-55-66-77"

def endpoint : SocketAddr := .v4 ⟨[127, 0, 0, 1], rfl⟩ 80

def granting : TargetPolicy := .grants ((∅ : Grants).insert fingerprint {endpoint})

end Sample

/-- A name of the one granted endpoint, and of another one beside it. -/
theorem granted_name_authorized :
    authorize Sample.names (fun _ _ => some [Sample.endpoint]) Sample.granting Sample.fingerprint
        "den:80" = .ok [Sample.endpoint] ∧
      Sample.granting.Permits Sample.fingerprint Sample.endpoint ∧
      authorize Sample.names (fun _ _ => some [Sample.endpoint, .v4 ⟨[127, 0, 0, 1], rfl⟩ 81])
        Sample.granting Sample.fingerprint "den:80" = .error denied := by
  have authorized : authorize Sample.names (fun _ _ => some [Sample.endpoint]) Sample.granting
      Sample.fingerprint "den:80" = .ok [Sample.endpoint] := by decide +kernel
  have exactly := (authorize_grants_exactly Sample.names (fun _ _ => some [Sample.endpoint])
    Sample.granting Sample.fingerprint "den:80").1 _ authorized
  refine ⟨authorized, ?_, by decide +kernel⟩
  exact (exactly.2.2 (by decide +kernel) Sample.endpoint (by simp)).1

end Werewolf.Policy
