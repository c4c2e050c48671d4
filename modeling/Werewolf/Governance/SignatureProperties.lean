import Mathlib.Data.List.Perm.Subperm
import Mathlib.Data.List.Nodup
import Werewolf.Governance.Apply
import Werewolf.Library.Result

/-! What a successful signature check says about the signers. -/

namespace Werewolf.Governance
open Library

variable {threshold : Nat} {statement : Statement}

/-- The statement carries at least `threshold` signatures with strictly
increasing key indices, and every one of them verifies under the key it names. -/
structure SignedBy (crypto : Crypto) (keys : List Key) (threshold : Nat)
    (statement : Statement) : Prop where
  enough : threshold ≤ statement.signatures.length
  increasing : statement.signatures.Pairwise (fun left right => left.1 < right.1)
  valid : ∀ entry ∈ statement.signatures, ∃ key, keys[entry.1.toNat]? = some key ∧
    crypto.verifyStrict key statement.core.signingInput entry.2 = true

/-- Ten pairwise distinct strong keys, the only key sets a chain ever holds. -/
structure KeySet (crypto : Crypto) (keys : List Key) : Prop where
  count : keys.length = keyCount
  distinct : keys.Nodup
  strong : ∀ key ∈ keys, strongKey crypto key = true

private theorem verifySignatures_ok_iff (crypto : Crypto) (keys : List Key) (input : List UInt8)
    (last : Option UInt8) (signatures : List (UInt8 × Signature)) :
    verifySignatures crypto keys input last signatures = .ok () ↔
      (∀ index ∈ last, ∀ entry ∈ signatures, index < entry.1) ∧
        signatures.Pairwise (fun left right => left.1 < right.1) ∧
        ∀ entry ∈ signatures, ∃ key, keys[entry.1.toNat]? = some key ∧
          strongKey crypto key = true ∧ crypto.verifyStrict key input entry.2 = true := by
  induction signatures generalizing last with
  | nil => simp [verifySignatures]
  | cons entry rest ih =>
    obtain ⟨index, signature⟩ := entry
    simp only [verifySignatures, ite_eq_ok_iff]
    cases found : keys[index.toNat]? with
    | none =>
      have missing : keys.length ≤ index.toNat := List.getElem?_eq_none_iff.mp found
      simp [missing]
    | some key =>
      have inRange : ¬ keys.length ≤ index.toNat := fun missing => by
        rw [List.getElem?_eq_none_iff.mpr missing] at found
        cases found
      have ordered : last.any (index ≤ ·) = false ↔ ∀ previous ∈ last, previous < index := by
        cases last <;> simp
      simp only [ite_eq_ok_iff, ih, List.pairwise_cons, List.forall_mem_cons, found,
        Bool.not_eq_true, Bool.or_eq_false_iff, ordered, decide_eq_false_iff_not, inRange,
        not_false_eq_true, and_true, Bool.not_eq_false', Option.mem_def, Option.some.injEq,
        forall_eq', exists_eq_left']
      constructor
      · rintro ⟨before, strong, verified, after, increasing, valid⟩
        exact ⟨fun previous member => ⟨before previous member, fun later laterMember =>
          (before previous member).trans (after later laterMember)⟩,
          ⟨after, increasing⟩, ⟨strong, verified⟩, valid⟩
      · rintro ⟨before, ⟨after, increasing⟩, ⟨strong, verified⟩, valid⟩
        exact ⟨fun previous member => (before previous member).1, strong, verified, after, increasing, valid⟩

private theorem signatures_within {crypto : Crypto} {keys : List Key}
    (signed : SignedBy crypto keys threshold statement) :
    statement.signatures.length ≤ keys.length := by
  have unique : (statement.signatures.map (fun entry => entry.1.toNat)).Nodup := by
    refine List.pairwise_map.mpr (signed.increasing.imp ?_)
    intro left right below
    exact Nat.ne_of_lt (UInt8.lt_iff_toNat_lt.mp below)
  have inside : statement.signatures.map (fun entry => entry.1.toNat) ⊆ List.range keys.length := by
    intro index member
    obtain ⟨entry, entryMember, rfl⟩ := List.mem_map.mp member
    obtain ⟨key, found, _⟩ := signed.valid entry entryMember
    exact List.mem_range.mpr (List.getElem?_eq_some_iff.mp found).1
  simpa using (unique.subperm inside).length_le

theorem checkSignatures_ok_iff {crypto : Crypto} {keys : List Key}
    (strong : ∀ key ∈ keys, strongKey crypto key = true) (threshold : Nat) (statement : Statement) :
    checkSignatures crypto statement keys threshold = .ok () ↔ SignedBy crypto keys threshold statement := by
  simp only [checkSignatures, ite_eq_ok_iff, verifySignatures_ok_iff, not_or, not_lt]
  constructor
  · rintro ⟨⟨enough, _⟩, _, increasing, valid⟩
    refine ⟨enough, increasing, fun entry member => ?_⟩
    obtain ⟨key, found, _, verified⟩ := valid entry member
    exact ⟨key, found, verified⟩
  · intro signed
    refine ⟨⟨signed.enough, signatures_within signed⟩, by simp, signed.increasing, ?_⟩
    intro entry member
    obtain ⟨key, found, verified⟩ := signed.valid entry member
    exact ⟨key, found, strong key (List.mem_of_getElem? found), verified⟩

theorem verifySignatures_error {crypto : Crypto} {keys : List Key} {input : List UInt8}
    {last : Option UInt8} {signatures : List (UInt8 × Signature)} {failure : Failure}
    (failed : verifySignatures crypto keys input last signatures = .error failure) :
    failure = .rejected .signatures := by
  induction signatures generalizing last with
  | nil => cases failed
  | cons entry rest ih =>
    obtain ⟨index, signature⟩ := entry
    simp only [verifySignatures] at failed
    split at failed
    · cases failed; rfl
    · rename_i accepted
      split at failed
      · rename_i found
        have missing : keys.length ≤ index.toNat := List.getElem?_eq_none_iff.mp found
        simp [missing] at accepted
      · split at failed
        · cases failed; rfl
        · split at failed
          · cases failed; rfl
          · exact ih failed

theorem checkSignatures_error {crypto : Crypto} {keys : List Key} {failure : Failure}
    (failed : checkSignatures crypto statement keys threshold = .error failure) :
    failure = .rejected .signatures := by
  simp only [checkSignatures] at failed
  split at failed
  · cases failed; rfl
  · exact verifySignatures_error failed

theorem SignedBy.signers {crypto : Crypto} {keys : List Key}
    (signed : SignedBy crypto keys threshold statement) (distinct : keys.Nodup) :
    ∃ signers : List Key, signers.Nodup ∧ threshold ≤ signers.length ∧
      ∀ key ∈ signers, key ∈ keys ∧ ∃ entry ∈ statement.signatures,
        crypto.verifyStrict key statement.core.signingInput entry.2 = true := by
  refine ⟨statement.signatures.filterMap (fun entry => keys[entry.1.toNat]?), ?_, ?_, ?_⟩
  · refine List.pairwise_filterMap.mpr (signed.increasing.imp ?_)
    intro left right below leftKey leftFound rightKey rightFound same
    subst same
    obtain ⟨leftBound, leftEq⟩ := List.getElem?_eq_some_iff.mp leftFound
    obtain ⟨rightBound, rightEq⟩ := List.getElem?_eq_some_iff.mp rightFound
    have indices := (List.Nodup.getElem_inj_iff distinct).mp (leftEq.trans rightEq.symm)
    exact absurd indices (Nat.ne_of_lt (UInt8.lt_iff_toNat_lt.mp below))
  · have all : ∀ entry ∈ statement.signatures, (keys[entry.1.toNat]?).isSome = true := by
      intro entry member
      obtain ⟨key, found, _⟩ := signed.valid entry member
      simp [found]
    have sizes : (statement.signatures.filterMap (fun entry => keys[entry.1.toNat]?)).length =
        statement.signatures.length := by
      rw [List.length_filterMap_eq_countP, List.countP_eq_length]
      exact all
    exact sizes ▸ signed.enough
  · intro key member
    obtain ⟨entry, entryMember, found⟩ := List.mem_filterMap.mp member
    obtain ⟨verifier, verifierFound, verified⟩ := signed.valid entry entryMember
    cases found.symm.trans verifierFound
    exact ⟨List.mem_of_getElem? found, entry, entryMember, verified⟩

end Werewolf.Governance
