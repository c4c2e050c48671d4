import Werewolf.Policy.CanonicalProperties

/-! One exact grant is added or taken away. Unless everything is allowed, a
decision depends on nothing but which pairs of a fingerprint and an endpoint are
granted, and the two changes touch one pair. -/

namespace Werewolf.Policy
open Library

section Decisions

variable {addressing : Addressing} {resolver : String → UInt16 → Option (List SocketAddr)}
  {policy : TargetPolicy} {peer target : String}

theorem authorize_error {outcome : String}
    (failed : authorize addressing resolver policy peer target = .error outcome) :
    outcome = denied := by
  rw [authorize_eq] at failed
  split at failed
  · cases failed
    rfl
  · cases resolved : targetEndpoints addressing resolver target with
    | error other =>
      rw [resolved] at failed
      cases failed
      exact targetEndpoints_error resolved
    | ok named =>
      rw [resolved] at failed
      rcases decideEndpoints_cases policy peer named with ⟨addresses, decided⟩ | refused
      · cases decided.symm.trans failed
      · cases refused.symm.trans failed
        rfl

theorem decideEndpoints_permitted {named : List SocketAddr} (nonempty : named ≠ [])
    (supported : ∀ endpoint ∈ named, supportedEndpoint endpoint = true)
    (permitted : ∀ endpoint ∈ named, policy.Permits peer endpoint) :
    decideEndpoints policy peer named = .ok (ascending named.toFinset) := by
  obtain ⟨first, member⟩ := List.exists_mem_of_ne_nil named nonempty
  obtain ⟨table, allowed, rfl, found, _⟩ := permitted first member
  have inside : named.toFinset ⊆ allowed := by
    intro endpoint listed
    obtain ⟨others, foundOthers, granted⟩ :=
      permits_grants.mp (permitted endpoint (List.mem_toFinset.mp listed))
    cases found.symm.trans foundOthers
    exact granted
  have accepted : ¬(named.toFinset = ∅ ∨ ∃ endpoint ∈ named.toFinset, supportedEndpoint endpoint = false) := by
    rintro (empty | ⟨endpoint, listed, refused⟩)
    · exact nonempty (List.toFinset_eq_empty_iff _ |>.mp empty)
    · exact absurd (supported endpoint (List.mem_toFinset.mp listed)) (by simp [refused])
  simp only [decideEndpoints]
  rw [if_neg accepted]
  simp [found, inside]

theorem authorize_ok_iff (guarded : policy ≠ .legacyAllow) {addresses : List SocketAddr} :
    authorize addressing resolver policy peer target = .ok addresses ↔
      '%' ∉ target.toList ∧ ∃ named, targetEndpoints addressing resolver target = .ok named ∧
        addresses = ascending named.toFinset ∧ named ≠ [] ∧
        (∀ endpoint ∈ named, supportedEndpoint endpoint = true) ∧
        ∀ endpoint ∈ named, policy.Permits peer endpoint := by
  rw [authorize_eq]
  constructor
  · intro authorized
    split at authorized
    · cases authorized
    · rename_i accepted
      cases resolved : targetEndpoints addressing resolver target with
      | error outcome => simp [resolved, Except.bind] at authorized
      | ok named =>
        rw [resolved] at authorized
        obtain ⟨same, nonempty, supported, granted⟩ := decideEndpoints_ok authorized
        exact ⟨fun percent => accepted (.inr (.inr percent)), named, rfl, same, nonempty, supported, granted guarded⟩
  · rintro ⟨plain, named, resolved, rfl, nonempty, supported, permitted⟩
    obtain ⟨first, member⟩ := List.exists_mem_of_ne_nil named nonempty
    obtain ⟨table, _, rfl, _⟩ := permitted first member
    rw [if_neg (by simp [plain]), resolved]
    exact decideEndpoints_permitted nonempty supported permitted

theorem authorize_congr {other : TargetPolicy} (guarded : policy ≠ .legacyAllow) (otherGuarded : other ≠ .legacyAllow)
    (same : ∀ named, targetEndpoints addressing resolver target = .ok named →
      ∀ endpoint ∈ named, other.Permits peer endpoint ↔ policy.Permits peer endpoint) :
    authorize addressing resolver other peer target = authorize addressing resolver policy peer target := by
  have agree (addresses : List SocketAddr) : authorize addressing resolver other peer target = .ok addresses ↔
        authorize addressing resolver policy peer target = .ok addresses := by
    rw [authorize_ok_iff guarded, authorize_ok_iff otherGuarded]
    refine and_congr_right fun _ => exists_congr fun named => and_congr_right fun resolved => ?_
    refine and_congr_right fun _ => and_congr_right fun _ => and_congr_right fun _ => ?_
    exact forall₂_congr (same named resolved)
  cases decided : authorize addressing resolver policy peer target with
  | ok addresses => exact (agree addresses).mpr decided
  | error outcome =>
    cases changed : authorize addressing resolver other peer target with
    | ok addresses => cases decided.symm.trans ((agree addresses).mp changed)
    | error raised => rw [authorize_error decided, authorize_error changed]

end Decisions

section Changes

variable {policy next : TargetPolicy} {fingerprint : String} {endpoint : SocketAddr}
  {table : Grants} {peer : String} {other : SocketAddr}

private theorem lookup_getD_mem :
    other ∈ (table.lookup peer).getD ∅ ↔ (TargetPolicy.grants table).Permits peer other := by
  rw [permits_grants]
  cases table.lookup peer with
  | none => simp
  | some allowed => simp

private theorem permits_insert {endpoints : Finset SocketAddr} :
    (TargetPolicy.grants (table.insert fingerprint endpoints)).Permits peer other ↔
      if peer = fingerprint then other ∈ endpoints
      else (TargetPolicy.grants table).Permits peer other := by
  rw [permits_grants, permits_grants]
  by_cases same : peer = fingerprint
  · subst same
    simp
  · rw [Finmap.lookup_insert_of_ne _ same, if_neg same]

private theorem permits_erase : (TargetPolicy.grants (table.erase fingerprint)).Permits peer other ↔
      peer ≠ fingerprint ∧ (TargetPolicy.grants table).Permits peer other := by
  rw [permits_grants, permits_grants]
  by_cases same : peer = fingerprint
  · subst same
    simp
  · rw [Finmap.lookup_erase_ne same]
    simp [same]

theorem allowExact_spec (allowed : allowExact policy fingerprint endpoint = some next) :
    policy ≠ .legacyAllow ∧ policy ≠ .invalid ∧ next ≠ .legacyAllow ∧ supportedEndpoint endpoint = true ∧
      ∀ peer other, next.Permits peer other ↔
        (peer = fingerprint ∧ other = endpoint) ∨ policy.Permits peer other := by
  simp only [allowExact, Option.ite_none_left_eq_some, Bool.or_eq_true, Bool.not_eq_true',
    not_or, Bool.not_eq_false] at allowed
  obtain ⟨⟨_, supported⟩, chosen⟩ := allowed
  cases policy with
  | legacyAllow => cases chosen
  | invalid => cases chosen
  | deny =>
    cases chosen
    refine ⟨by simp, by simp, by simp, supported, fun peer other => ?_⟩
    rw [permits_insert]
    by_cases same : peer = fingerprint <;> simp [same, TargetPolicy.Permits]
  | grants table =>
    cases chosen
    refine ⟨by simp, by simp, by simp, supported, fun peer other => ?_⟩
    rw [permits_insert, Finset.mem_insert, lookup_getD_mem]
    by_cases same : peer = fingerprint
    · subst same
      simp
    · simp [same]

theorem removeExact_spec (removed : removeExact policy fingerprint endpoint = some next) :
    policy ≠ .legacyAllow ∧ policy ≠ .invalid ∧ next ≠ .legacyAllow ∧ ∀ peer other, next.Permits peer other ↔
        ¬(peer = fingerprint ∧ other = endpoint) ∧ policy.Permits peer other := by
  simp only [removeExact, Option.ite_none_left_eq_some] at removed
  obtain ⟨_, chosen⟩ := removed
  cases policy with
  | legacyAllow => cases chosen
  | invalid => cases chosen
  | deny => cases chosen
  | grants table =>
    cases found : table.lookup fingerprint with
    | none => simp [found] at chosen
    | some targets =>
      have held (other : SocketAddr) : (TargetPolicy.grants table).Permits fingerprint other ↔ other ∈ targets := by
        rw [permits_grants]
        simp [found]
      simp only [found, Option.ite_none_left_eq_some] at chosen
      obtain ⟨_, chosen⟩ := chosen
      split at chosen
      · rename_i last
        cases chosen
        refine ⟨by simp, by simp, by simp, fun peer other => ?_⟩
        rw [permits_erase]
        by_cases same : peer = fingerprint
        · -- The entry had no other endpoint.
          have only (member : other ∈ targets) : other = endpoint := by
            by_contra different
            have left := Finset.mem_erase.mpr ⟨different, member⟩
            rw [last] at left
            simp at left
          subst same
          simp only [held, ne_eq, not_true_eq_false, false_and, true_and, false_iff, not_and]
          exact fun different member => different (only member)
        · simp [same]
      · cases chosen
        refine ⟨by simp, by simp, by simp, fun peer other => ?_⟩
        rw [permits_insert]
        by_cases same : peer = fingerprint
        · subst same
          simp [held]
        · simp [same]

end Changes

section Literals

def DecidesLiteral (addressing : Addressing) (policy : TargetPolicy) (peer : String)
    (endpoint : SocketAddr) (decision : Except String (List SocketAddr)) : Prop :=
  ∀ resolver target, addressing.parseSocketAddr target = some endpoint →
    '%' ∉ target.toList → authorize addressing resolver policy peer target = decision

def SameElsewhere (addressing : Addressing) (before after : TargetPolicy) (fingerprint : String)
    (endpoint : SocketAddr) : Prop :=
  ∀ resolver peer target other, addressing.parseSocketAddr target = some other →
    (peer, other) ≠ (fingerprint, endpoint) →
    authorize addressing resolver after peer target = authorize addressing resolver before peer target

variable {addressing : Addressing} {policy next : TargetPolicy} {fingerprint : String}
  {endpoint : SocketAddr}

private theorem targetEndpoints_literal {resolver : String → UInt16 → Option (List SocketAddr)}
    {target : String} (literal : addressing.parseSocketAddr target = some endpoint) :
    targetEndpoints addressing resolver target = .ok [endpoint] := by
  simp [targetEndpoints, literal]

theorem sameElsewhere_of_permits (guarded : policy ≠ .legacyAllow) (nextGuarded : next ≠ .legacyAllow)
    (same : ∀ peer other, (peer, other) ≠ (fingerprint, endpoint) →
      (next.Permits peer other ↔ policy.Permits peer other)) :
    SameElsewhere addressing policy next fingerprint endpoint := by
  intro resolver peer target other literal different
  refine authorize_congr guarded nextGuarded fun named resolved candidate member => ?_
  cases (targetEndpoints_literal literal).symm.trans resolved
  cases List.mem_singleton.mp member
  exact same peer _ different

theorem allowExact_decides (addressing : Addressing) (allowed : allowExact policy fingerprint endpoint = some next) :
    SameElsewhere addressing policy next fingerprint endpoint ∧
      DecidesLiteral addressing next fingerprint endpoint (.ok [endpoint]) := by
  obtain ⟨guarded, _, nextGuarded, supported, permits⟩ := allowExact_spec allowed
  refine ⟨sameElsewhere_of_permits guarded nextGuarded fun peer other different => ?_,
    fun resolver target literal plain => ?_⟩
  · rw [permits]
    exact or_iff_right fun named => different (Prod.ext named.1 named.2)
  · rw [authorize_ok_iff nextGuarded]
    refine ⟨plain, [endpoint], targetEndpoints_literal literal, ?_, by simp, by simp [supported],
      by simp [permits]⟩
    rw [List.toFinset_cons, List.toFinset_nil, insert_empty_eq, ascending_eq_sort, Finset.sort_singleton]

theorem removeExact_decides (addressing : Addressing)
    (removed : removeExact policy fingerprint endpoint = some next) :
    SameElsewhere addressing policy next fingerprint endpoint ∧
      DecidesLiteral addressing next fingerprint endpoint (.error denied) := by
  obtain ⟨guarded, _, nextGuarded, permits⟩ := removeExact_spec removed
  refine ⟨sameElsewhere_of_permits guarded nextGuarded fun peer other different => ?_,
    fun resolver target literal _ => ?_⟩
  · rw [permits]
    exact and_iff_right fun named => different (Prod.ext named.1 named.2)
  · cases decided : authorize addressing resolver next fingerprint target with
    | error outcome => rw [authorize_error decided]
    | ok addresses =>
      obtain ⟨_, named, resolved, _, _, _, permitted⟩ := (authorize_ok_iff nextGuarded).mp decided
      cases (targetEndpoints_literal literal).symm.trans resolved
      exact absurd ((permits _ _).mp (permitted endpoint (by simp))).1 (by simp)

theorem removeExact_allowExact (addressing : Addressing) {last : TargetPolicy}
    (fresh : ¬policy.Permits fingerprint endpoint) (allowed : allowExact policy fingerprint endpoint = some next)
    (removed : removeExact next fingerprint endpoint = some last) :
    DecideAlike addressing last policy := by
  obtain ⟨guarded, _, _, _, granted⟩ := allowExact_spec allowed
  obtain ⟨_, _, lastGuarded, left⟩ := removeExact_spec removed
  intro resolver peer target
  refine authorize_congr guarded lastGuarded fun _ _ other _ => ?_
  rw [left, granted]
  constructor
  · rintro ⟨different, named | permitted⟩
    · exact absurd named different
    · exact permitted
  · intro permitted
    refine ⟨?_, .inr permitted⟩
    rintro ⟨rfl, rfl⟩
    exact fresh permitted

end Literals

end Werewolf.Policy
