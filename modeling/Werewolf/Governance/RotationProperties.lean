import Werewolf.Governance.RunProperties

/-! What an accepted rotation does to the ten keys. It puts its keys at their
indices and leaves the others. A key that it replaces at one index it may bring
back at another, as the check compares each new key with the one at its own
index only. -/

namespace Werewolf.Governance
open Library

section Rotating

variable {crypto : Crypto} {current keys : List Key} {entries : List (UInt8 × Key)}

theorem rotateEntries_getElem? {last : Option UInt8}
    (accepted : rotateEntries crypto last current entries = .ok keys) :
    (∀ entry ∈ entries, ∀ index ∈ last, index < entry.1) ∧ (∀ entry ∈ entries, keys[entry.1.toNat]? = some entry.2) ∧
      ∀ position, (∀ entry ∈ entries, entry.1.toNat ≠ position) → keys[position]? = current[position]? := by
  induction entries generalizing last current with
  | nil =>
    cases accepted
    exact ⟨by simp, by simp, fun _ _ => rfl⟩
  | cons entry rest ih =>
    obtain ⟨index, key⟩ := entry
    simp only [rotateEntries, ite_eq_ok_iff, Bool.not_eq_true, Bool.or_eq_false_iff,
      decide_eq_false_iff_not, not_le] at accepted
    obtain ⟨⟨ordered, _⟩, _, inside, accepted⟩ := accepted
    obtain ⟨later, placed, kept⟩ := ih accepted
    have above : ∀ previous ∈ last, previous < index := by
      intro previous known
      cases known
      simpa using ordered
    have past : ∀ other ∈ rest, index < other.1 := fun other member =>
      later other member index rfl
    refine ⟨?_, ?_, ?_⟩
    · rintro other (_ | ⟨_, member⟩) previous known
      · exact above previous known
      · exact (above previous known).trans (past other member)
    · rintro other (_ | ⟨_, member⟩)
      · have alone : ∀ other ∈ rest, other.1.toNat ≠ index.toNat := fun other member =>
          (Nat.ne_of_lt (UInt8.lt_iff_toNat_lt.mp (past other member))).symm
        rw [kept index.toNat alone, List.getElem?_set_self inside]
      · exact placed other member
    · intro position elsewhere
      rw [kept position (fun other member => elsewhere other (List.mem_cons_of_mem _ member))]
      exact List.getElem?_set_ne (elsewhere (index, key) (List.mem_cons_self ..))

theorem rotated_getElem? (accepted : rotated crypto current entries = .ok keys) :
    (∀ entry ∈ entries, keys[entry.1.toNat]? = some entry.2) ∧
      ∀ position, (∀ entry ∈ entries, entry.1.toNat ≠ position) → keys[position]? = current[position]? := by
  simp only [rotated, ite_eq_ok_iff, bind_eq_ok, Except.ok.injEq] at accepted
  obtain ⟨_, result, replaced, _, _, rfl⟩ := accepted
  exact (rotateEntries_getElem? replaced).2

/-- A rotation leaves ten distinct strong keys and touches no other index. The
keys that it replaces are gone from the set exactly if none of its new keys is
one of them. -/
theorem replaced_keys_gone_iff (crypto : Crypto) (current keys : List Key) (entries : List (UInt8 × Key))
    (inForce : KeySet crypto current) (accepted : rotated crypto current entries = .ok keys) :
    KeySet crypto keys ∧ (∀ position, (∀ entry ∈ entries, entry.1.toNat ≠ position) →
        keys[position]? = current[position]?) ∧
      ((∀ entry ∈ entries, ∀ old, current[entry.1.toNat]? = some old → old ∉ keys) ↔
        ∀ entry ∈ entries, ∀ other ∈ entries, current[entry.1.toNat]? ≠ some other.2) := by
  obtain ⟨placed, kept⟩ := rotated_getElem? accepted
  refine ⟨rotated_ok inForce accepted, kept, ?_, ?_⟩
  · intro gone entry member other otherMember same
    exact gone entry member other.2 same (List.mem_of_getElem? (placed other otherMember))
  · intro unused entry member old stood survives
    obtain ⟨position, found⟩ := List.mem_iff_getElem?.mp survives
    by_cases rotatedHere : ∃ other ∈ entries, other.1.toNat = position
    · obtain ⟨other, otherMember, rfl⟩ := rotatedHere
      rw [placed other otherMember, Option.some.injEq] at found
      exact unused entry member other otherMember (found ▸ stood)
    · -- An untouched index holds its old key, which stood at one index only.
      have elsewhere : ∀ other ∈ entries, other.1.toNat ≠ position :=
        fun other otherMember same => rotatedHere ⟨other, otherMember, same⟩
      rw [kept position elsewhere] at found
      obtain ⟨first, stoodAt⟩ := List.getElem?_eq_some_iff.mp stood
      obtain ⟨second, foundAt⟩ := List.getElem?_eq_some_iff.mp found
      exact elsewhere entry member (inForce.distinct.getElem_inj_iff.mp (stoodAt.trans foundAt.symm))

end Rotating

namespace Sample

theorem keys_keySet : KeySet crypto keys := ⟨by decide, by decide +kernel, by simp [strongKey, crypto]⟩

end Sample

/-- The theorem at a rotation that brings in a new key. -/
theorem rotation_retires_key : ∃ keys, rotated Sample.crypto Sample.keys [(9, Sample.key 10)] = .ok keys ∧
      Sample.key 9 ∉ keys := by
  have accepted : rotated Sample.crypto Sample.keys [(9, Sample.key 10)] =
      .ok (Sample.keys.set 9 (Sample.key 10)) := by decide +kernel
  obtain ⟨_, _, gone⟩ := replaced_keys_gone_iff _ _ _ _ Sample.keys_keySet accepted
  exact ⟨_, accepted, gone.mpr (by decide +kernel) _ (List.mem_singleton.mpr rfl) _ (by decide +kernel)⟩

/-- Two holders whose keys are exchanged: both stay in force. -/
theorem exchanged_keys_survive : KeySet Sample.crypto Sample.keys ∧
      ∃ keys, rotated Sample.crypto Sample.keys [(0, Sample.key 1), (1, Sample.key 0)] = .ok keys ∧
        Sample.keys[0]? = some (Sample.key 0) ∧ Sample.key 0 ∈ keys :=
  ⟨Sample.keys_keySet, (Sample.keys.set 0 (Sample.key 1)).set 1 (Sample.key 0), by decide +kernel,
    by decide +kernel, by decide +kernel⟩

end Werewolf.Governance
