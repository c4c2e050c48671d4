import Werewolf.Governance.ApplyProperties

/-! The structural invariant of a chain head. It is what makes distinct
signature indices distinct keys, binary search a membership test, and every
indexing in `apply` safe. -/

namespace Werewolf.Governance
open Library

variable {statement : Statement} {effect : Head}

structure Head.WellFormed (crypto : Crypto) (head : Head) : Prop where
  threshold : head.threshold.toNat = thresholdCount
  appliedLength : head.applied.length = head.sequence.toNat + 1
  appliedLast : head.applied.getLast? = some head.hash
  epochsStart : ∃ keys later, head.keyEpochs = (0, keys) :: later
  epochsIncreasing : head.keyEpochs.Pairwise (fun left right => left.1 < right.1)
  epochsSettled : ∀ epoch ∈ head.keyEpochs, epoch.1 ≤ head.sequence
  epochsKeys : ∀ epoch ∈ head.keyEpochs, KeySet crypto epoch.2
  revokedSorted : StrictlySorted head.revoked
  rosterSorted : StrictlySorted head.roster
  rosterBounded : head.roster.length ≤ maxRoster
  rosterUnrevoked : ∀ key ∈ head.roster, key ∉ head.revoked
  activated : ∀ sequence ∈ head.activatedAt, sequence ≤ head.sequence
  dead : ∀ sequence ∈ head.deadAt, sequence = head.sequence

theorem checkGenesis_ok {crypto : Crypto} {threshold : UInt8} {keys : List Key}
    (checked : checkGenesis crypto threshold keys = .ok ()) :
    threshold.toNat = thresholdCount ∧ KeySet crypto keys := by
  simp only [checkGenesis, ite_eq_ok_iff, not_or, not_not, Bool.not_eq_true,
    Bool.or_eq_false_iff, Bool.not_eq_false', List.all_eq_true, hasRepeat_eq_false_iff,
    and_true] at checked
  obtain ⟨⟨count, size⟩, strong, distinct, _⟩ := checked
  exact ⟨count, size, distinct, strong⟩

theorem rotateEntries_ok {crypto : Crypto} {last : Option UInt8} {keys result : List Key}
    {entries : List (UInt8 × Key)} (accepted : rotateEntries crypto last keys entries = .ok result) :
    result.length = keys.length ∧ ((∀ key ∈ keys, strongKey crypto key = true) →
      ∀ key ∈ result, strongKey crypto key = true) := by
  induction entries generalizing last keys with
  | nil =>
    cases accepted
    exact ⟨rfl, id⟩
  | cons entry rest ih =>
    obtain ⟨index, key⟩ := entry
    simp only [rotateEntries, ite_eq_ok_iff] at accepted
    obtain ⟨_, strong, _, accepted⟩ := accepted
    obtain ⟨size, keeps⟩ := ih accepted
    refine ⟨by rw [size, List.length_set], fun allStrong => keeps ?_⟩
    intro other member
    rcases List.mem_or_eq_of_mem_set member with old | rfl
    · exact allStrong other old
    · simpa using strong

theorem rotated_ok {crypto : Crypto} {current keys : List Key} {entries : List (UInt8 × Key)}
    (inForce : KeySet crypto current) (accepted : rotated crypto current entries = .ok keys) :
    KeySet crypto keys := by
  simp only [rotated, ite_eq_ok_iff, bind_eq_ok, Except.ok.injEq] at accepted
  obtain ⟨_, result, replaced, distinct, _, rfl⟩ := accepted
  obtain ⟨size, strong⟩ := rotateEntries_ok replaced
  rw [Bool.not_eq_true, hasRepeat_eq_false_iff] at distinct
  exact ⟨size.trans inForce.count, distinct.1, strong inForce.strong⟩

theorem admitKeys_ok {roster result keys : List Key} (sorted : StrictlySorted roster)
    (admitted : admitKeys roster keys = .ok result) :
    StrictlySorted result ∧ (∀ key, key ∈ result ↔ key ∈ keys ∨ key ∈ roster) ∧
      result.length = roster.length + keys.length := by
  induction keys generalizing roster with
  | nil =>
    cases admitted
    exact ⟨sorted, by simp, rfl⟩
  | cons key rest ih =>
    simp only [admitKeys] at admitted
    cases searched : binarySearch roster key with
    | ok position => simp [searched] at admitted
    | error position =>
      have absent : key ∉ roster := by
        rw [← binarySearch_isOk_eq_false_iff sorted key, searched]
        rfl
      have inserted : roster.insertIdx position key = insertAbsent roster key := by
        simp only [insertAbsent, searched]
      simp only [searched, inserted] at admitted
      obtain ⟨resultSorted, members, size⟩ := ih (insertAbsent_sorted sorted key) admitted
      refine ⟨resultSorted, fun other => ?_, ?_⟩
      · rw [members, mem_insertAbsent sorted, List.mem_cons, or_left_comm, or_assoc]
      · rw [size, length_insertAbsent_of_not_mem sorted absent, List.length_cons]
        omega

theorem checkAdmission_ok {crypto : Crypto} {head : Head} {keys : List Key}
    (revokedSorted : StrictlySorted head.revoked) (checked : checkAdmission crypto head keys = .ok ()) :
    (∀ key ∈ keys, key ∉ head.revoked) ∧ head.roster.length + keys.length ≤ maxRoster := by
  simp only [checkAdmission, ite_eq_ok_iff, Bool.not_eq_true, List.any_eq_false, not_lt,
    Bool.or_eq_true, not_or] at checked
  obtain ⟨_, _, allowed, bounded, _⟩ := checked
  refine ⟨fun key member => ?_, bounded⟩
  rw [← binarySearch_isOk_eq_false_iff revokedSorted key]
  exact (allowed key member).1.2

theorem Head.WellFormed.keys {crypto : Crypto} {head : Head} (wellFormed : head.WellFormed crypto) :
    ∃ epoch, head.keyEpochs.getLast? = some epoch ∧ head.keys = .ok epoch.2 ∧ KeySet crypto epoch.2 := by
  obtain ⟨first, later, shape⟩ := wellFormed.epochsStart
  cases last : head.keyEpochs.getLast? with
  | none => simp [shape] at last
  | some epoch =>
    exact ⟨epoch, rfl, by simp [Head.keys, last], wellFormed.epochsKeys epoch (List.mem_of_getLast? last)⟩

theorem Head.initial_wellFormed {crypto : Crypto} {pin : Option Hash} {threshold : UInt8}
    {keys : List Key} (starts : Starts crypto statement pin threshold keys) :
    (Head.initial crypto statement.core threshold keys).WellFormed crypto := by
  obtain ⟨count, keySet⟩ := checkGenesis_ok starts.checked
  constructor <;> simp [Head.initial, count, keySet]

theorem Head.WellFormed.forked {crypto : Crypto} {head : Head} (wellFormed : head.WellFormed crypto) (flag : Bool) :
    ({ head with forked := flag } : Head).WellFormed crypto := by
  constructor <;> simp only
  · exact wellFormed.threshold
  · exact wellFormed.appliedLength
  · exact wellFormed.appliedLast
  · exact wellFormed.epochsStart
  · exact wellFormed.epochsIncreasing
  · exact wellFormed.epochsSettled
  · exact wellFormed.epochsKeys
  · exact wellFormed.revokedSorted
  · exact wellFormed.rosterSorted
  · exact wellFormed.rosterBounded
  · exact wellFormed.rosterUnrevoked
  · exact wellFormed.activated
  · exact wellFormed.dead

/-- How any accepted body may change a well-formed head: epochs, revoked keys
and marks are only added, and the roster stays sorted, bounded and unrevoked. -/
structure Extends (crypto : Crypto) (head effect : Head) (core : Core) : Prop where
  networkId : effect.networkId = head.networkId
  threshold : effect.threshold = head.threshold
  applied : effect.applied = head.applied
  forked : effect.forked = head.forked
  keyEpochs : effect.keyEpochs = head.keyEpochs ∨
    ∃ keys, KeySet crypto keys ∧ effect.keyEpochs = head.keyEpochs ++ [(core.sequence, keys)]
  revoked : head.revoked ⊆ effect.revoked
  revokedSorted : StrictlySorted effect.revoked
  rosterSorted : StrictlySorted effect.roster
  rosterBounded : effect.roster.length ≤ maxRoster
  rosterUnrevoked : ∀ key ∈ effect.roster, key ∉ effect.revoked
  activatedAt : effect.activatedAt = head.activatedAt ∨
    head.activatedAt = none ∧ effect.activatedAt = some core.sequence
  deadAt : effect.deadAt = head.deadAt ∨ effect.deadAt = some core.sequence

theorem BodyEffect.extends {crypto : Crypto} {head : Head} {core : Core}
    (wellFormed : head.WellFormed crypto) (body : BodyEffect crypto head core effect) :
    Extends crypto head effect core := by
  -- Every field the body leaves alone keeps the head's own fact.
  have unchanged : Extends crypto head head core :=
    ⟨rfl, rfl, rfl, rfl, .inl rfl, List.Subset.refl _, wellFormed.revokedSorted,
      wellFormed.rosterSorted, wellFormed.rosterBounded, wellFormed.rosterUnrevoked, .inl rfl,
      .inl rfl⟩
  cases body with
  | rotation _ inForce accepted =>
    obtain ⟨epoch, _, keys, keySet⟩ := wellFormed.keys
    cases keys.symm.trans inForce
    exact { unchanged with keyEpochs := .inr ⟨_, rotated_ok keySet accepted, rfl⟩ }
  | @revocation keys _ _ =>
    have shrunk := foldl_removePresent_sublist head.roster keys
    refine { unchanged with
      revoked := fun key member =>
        (mem_foldl_insertAbsent wellFormed.revokedSorted keys key).mpr (.inr member)
      revokedSorted := foldl_insertAbsent_sorted wellFormed.revokedSorted keys
      rosterSorted := wellFormed.rosterSorted.sublist shrunk
      rosterBounded := shrunk.length_le.trans wellFormed.rosterBounded
      rosterUnrevoked := ?_ }
    intro key member
    rw [mem_foldl_insertAbsent wellFormed.revokedSorted, not_or]
    obtain ⟨listed, kept⟩ := (mem_foldl_removePresent wellFormed.rosterSorted keys key).mp member
    exact ⟨kept, wellFormed.rosterUnrevoked key listed⟩
  | admission _ accepted admitted =>
    obtain ⟨allowed, bounded⟩ := checkAdmission_ok wellFormed.revokedSorted accepted
    obtain ⟨sorted, members, size⟩ := admitKeys_ok wellFormed.rosterSorted admitted
    refine { unchanged with
      rosterSorted := sorted
      rosterBounded := size ▸ bounded
      rosterUnrevoked := ?_ }
    intro key member
    rcases (members key).mp member with added | listed
    · exact allowed key added
    · exact wellFormed.rosterUnrevoked key listed
  | activation _ inactive => exact { unchanged with activatedAt := .inr ⟨inactive, rfl⟩ }
  | death _ => exact { unchanged with deadAt := .inr rfl }

theorem Advances.extends {crypto : Crypto} {head : Head} {keys : List Key}
    (advances : Advances crypto head statement keys effect) (wellFormed : head.WellFormed crypto) :
    Extends crypto head effect statement.core :=
  (applyBody_ok advances.body).extends wellFormed

theorem Advances.above {crypto : Crypto} {head : Head} {keys : List Key}
    (advances : Advances crypto head statement keys effect) :
    head.sequence < statement.core.sequence := by
  rw [UInt64.lt_iff_toNat_lt, advances.sequence]
  exact Nat.lt_succ_self _

theorem Advances.wellFormed {crypto : Crypto} {head : Head} {keys : List Key}
    (advances : Advances crypto head statement keys effect) (wellFormed : head.WellFormed crypto) :
    (effect.advance crypto statement.core).WellFormed crypto := by
  have changed := advances.extends wellFormed
  have above := advances.above
  have settled : ∀ epoch ∈ head.keyEpochs, epoch.1 < statement.core.sequence :=
    fun epoch member => UInt64.lt_of_le_of_lt (wellFormed.epochsSettled epoch member) above
  constructor
  · exact changed.threshold ▸ wellFormed.threshold
  · simp [Head.advance, changed.applied, wellFormed.appliedLength, advances.sequence]
  · simp [Head.advance]
  · obtain ⟨first, later, shape⟩ := wellFormed.epochsStart
    rcases changed.keyEpochs with same | ⟨added, _, extended⟩
    · exact ⟨first, later, same.trans shape⟩
    · exact ⟨first, later ++ [(statement.core.sequence, added)], by
        simp only [Head.advance, extended, shape, List.cons_append]⟩
  · simp only [Head.advance]
    rcases changed.keyEpochs with same | ⟨added, _, extended⟩
    · exact same ▸ wellFormed.epochsIncreasing
    · rw [extended, List.pairwise_append]
      refine ⟨wellFormed.epochsIncreasing, List.pairwise_singleton _ _, ?_⟩
      intro epoch member last lastMember
      cases List.mem_singleton.mp lastMember
      exact settled epoch member
  · intro epoch member
    simp only [Head.advance] at member ⊢
    rcases changed.keyEpochs with same | ⟨added, _, extended⟩
    · exact UInt64.le_of_lt (settled epoch (same ▸ member))
    · rw [extended, List.mem_append, List.mem_singleton] at member
      rcases member with old | rfl
      · exact UInt64.le_of_lt (settled epoch old)
      · exact UInt64.le_refl _
  · intro epoch member
    simp only [Head.advance] at member
    rcases changed.keyEpochs with same | ⟨added, keySet, extended⟩
    · exact wellFormed.epochsKeys epoch (same ▸ member)
    · rw [extended, List.mem_append, List.mem_singleton] at member
      rcases member with old | rfl
      · exact wellFormed.epochsKeys epoch old
      · exact keySet
  · exact changed.revokedSorted
  · exact changed.rosterSorted
  · exact changed.rosterBounded
  · exact changed.rosterUnrevoked
  · intro sequence marked
    simp only [Head.advance] at marked ⊢
    rcases changed.activatedAt with same | ⟨_, fresh⟩
    · exact UInt64.le_of_lt (UInt64.lt_of_le_of_lt (wellFormed.activated sequence (same ▸ marked)) above)
    · rw [fresh, Option.mem_some_iff] at marked
      exact marked ▸ UInt64.le_refl _
  · intro sequence marked
    simp only [Head.advance] at marked ⊢
    rcases changed.deadAt with same | fresh
    · rw [same, advances.alive] at marked
      cases marked
    · rw [fresh, Option.mem_some_iff] at marked
      exact marked.symm

end Werewolf.Governance
