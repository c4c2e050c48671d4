import Mathlib.Data.Finset.Card
import Mathlib.Data.Finset.Dedup
import Werewolf.Discovery.AnswerProperties

/-! Two nodes that start from one genesis and end on different chains: what they
hold between them against the keys, and how it fences them. -/

namespace Werewolf.Discovery
open Governance Library

section Lists

variable {α : Type}

theorem exists_first_difference {left right : List α} (leftApart : ¬ left <+: right) (rightApart : ¬ right <+: left) :
    ∃ (index : Nat) (first second : α), left[index]? = some first ∧ right[index]? = some second ∧
      first ≠ second ∧ ∀ earlier < index, left[earlier]? = right[earlier]? := by
  induction left generalizing right with
  | nil => exact absurd List.nil_prefix leftApart
  | cons first left ih =>
    cases right with
    | nil => exact absurd List.nil_prefix rightApart
    | cons second right =>
      by_cases same : first = second
      · subst same
        simp only [List.cons_prefix_cons, true_and] at leftApart rightApart
        obtain ⟨index, one, other, found, otherFound, differ, before⟩ := ih leftApart rightApart
        refine ⟨index + 1, one, other, found, otherFound, differ, fun earlier below => ?_⟩
        cases earlier with
        | zero => rfl
        | succ earlier => exact before earlier (Nat.lt_of_succ_lt_succ below)
      · exact ⟨0, first, second, rfl, rfl, same, by simp⟩

/-- Two quorums out of the same members have members in common. -/
theorem exists_common [DecidableEq α] {members left right : List α} {quorum : Nat}
    (leftDistinct : left.Nodup) (rightDistinct : right.Nodup) (leftEnough : quorum ≤ left.length)
    (rightEnough : quorum ≤ right.length) (leftOf : left ⊆ members) (rightOf : right ⊆ members) :
    ∃ common : List α, common.Nodup ∧ 2 * quorum - members.length ≤ common.length ∧
      ∀ member ∈ common, member ∈ left ∧ member ∈ right := by
  refine ⟨(left.toFinset ∩ right.toFinset).toList, Finset.nodup_toList _, ?_, by simp⟩
  have union : (left.toFinset ∪ right.toFinset).card ≤ members.length := by
    refine (Finset.card_le_card ?_).trans (List.toFinset_card_le members)
    intro member listed
    simp only [Finset.mem_union, List.mem_toFinset] at listed ⊢
    exact listed.elim (fun one => leftOf one) (fun other => rightOf other)
  have sum := Finset.card_union_add_card_inter left.toFinset right.toFinset
  rw [List.toFinset_card_of_nodup leftDistinct, List.toFinset_card_of_nodup rightDistinct] at sum
  rw [Finset.length_toList]
  omega

end Lists

section Divergence

variable {crypto : Crypto} {left right : List Presentation} {leftHead rightHead before after : Head}
  {index : Nat} {one other : Statement} {keys : List Key}

theorem apply_of_conflicts {entry : Hash} (conflicts : Conflicts crypto before one keys entry) (pin : Option Hash) :
    apply crypto (some before) one pin = .ok (.fork { before with forked := true }) := by
  simp only [apply, applyTo, applySettled, conflicts.alive, conflicts.unforked, conflicts.network,
    conflicts.settled, conflicts.recorded, conflicts.different, conflicts.afterGenesis,
    conflicts.inForce, Option.isSome_none, Bool.false_and, ne_eq, not_true_eq_false, ↓reduceIte,
    Bool.false_eq_true, bind_eq_ok, return_eq_ok]
  exact ⟨keys, rfl, (), conflicts.signatures, trivial⟩

/-- The statement that a run applied to a head, and the keys it was judged by. -/
structure Judged (crypto : Crypto) (presentations : List Presentation) (before : Head)
    (statement : Statement) (keys : List Key) : Prop where
  presented : ∃ pin, (statement, pin) ∈ presentations
  reached : ∃ earlier later, presentations = earlier ++ later ∧
    history crypto earlier = some before
  sequence : statement.core.sequence.toNat = before.sequence.toNat + 1
  previous : statement.core.previous = before.hash
  network : statement.core.networkId = before.networkId
  held : before.keys = .ok keys
  keySet : KeySet crypto keys
  signed : SignedBy crypto keys thresholdCount statement

theorem AppliedAt.judged (applied : AppliedAt crypto left leftHead index one before) :
    ∃ keys, Judged crypto left before one keys := by
  obtain ⟨earlier, pin, later, split, reached, next, accepted⟩ := applied.step
  have wellFormed := history_wellFormed reached
  obtain ⟨keys, effect, advances, _⟩ := applyTo_applied accepted
  obtain ⟨epoch, _, held, keySet⟩ := wellFormed.keys
  cases held.symm.trans advances.inForce
  refine ⟨epoch.2, ⟨pin, by simp [split]⟩, ⟨earlier, _, split, reached⟩, advances.sequence,
    advances.previous, advances.network, held, keySet, ?_⟩
  rw [← checkSignatures_ok_iff keySet.strong, ← wellFormed.threshold]
  exact advances.signatures

theorem Judged.inForce (judged : Judged crypto left before one keys) : InForce crypto left one.core keys := by
  obtain ⟨earlier, later, split, reached⟩ := judged.reached
  exact .settled split reached judged.sequence judged.held

theorem Judged.derived (judged : Judged crypto left before one keys) :
    Derived crypto (presentedCores left) before.chain := by
  obtain ⟨earlier, later, rfl, reached⟩ := judged.reached
  refine (history_derived reached).mono ?_
  rintro _ ⟨presentation, member, rfl⟩
  exact ⟨presentation, List.mem_append_left _ member, rfl⟩

def Fences (crypto : Crypto) (head : Head) (statement : Statement) : Prop :=
  head.forked = false → head.deadAt = none → ∀ pin,
    apply crypto (some head) statement pin = .ok (.fork { head with forked := true })

theorem Judged.fences (judged : Judged crypto left before one keys)
    (otherJudged : Judged crypto right after other keys) (same : before.chain = after.chain)
    (reached : history crypto left = some leftHead)
    (recorded : leftHead.applied[one.core.sequence.toNat]? = some (one.core.hash crypto))
    (different : one.core.hash crypto ≠ other.core.hash crypto) :
    Fences crypto leftHead other := by
  intro unforked alive
  obtain ⟨earlier, later, rfl, passed⟩ := judged.reached
  have wellFormed := history_wellFormed reached
  have follows := history_follows passed reached
  have network : after.networkId = before.networkId :=
    show after.chain.networkId = before.chain.networkId by rw [same]
  have number : other.core.sequence = one.core.sequence := by
    have sequence : after.sequence = before.sequence :=
      show after.chain.sequence = before.chain.sequence by rw [same]
    exact UInt64.toNat.inj (by rw [otherJudged.sequence, judged.sequence, sequence])
  rw [← number] at recorded
  refine apply_of_conflicts ⟨alive, unforked, ?_, ?_, ?_, recorded, different,
    show _ = Except.ok keys from ?_, ?_⟩
  · rw [otherJudged.network, network, follows.networkId]
  · have within := (List.getElem?_eq_some_iff.mp recorded).1
    rw [wellFormed.appliedLength] at within
    exact UInt64.le_iff_toNat_le.mpr (Nat.le_of_lt_succ within)
  · intro zero
    have positive := otherJudged.sequence
    simp [zero] at positive
  · rw [follows.keysBefore (history_wellFormed passed) (by rw [number, judged.sequence])]
    exact judged.held
  · rw [wellFormed.threshold, checkSignatures_ok_iff judged.keySet.strong]
    exact otherJudged.signed

def Signed (crypto : Crypto) (key : Key) (statement : Statement) : Prop :=
  ∃ entry ∈ statement.signatures, crypto.verifyStrict key statement.core.signingInput entry.2 = true

theorem Judged.common_signers (judged : Judged crypto left before one keys)
    (otherJudged : Judged crypto right after other keys) :
    ∃ signers : List Key, signers.Nodup ∧ 2 * thresholdCount - keyCount ≤ signers.length ∧
      ∀ key ∈ signers, key ∈ keys ∧ Signed crypto key one ∧ Signed crypto key other := by
  obtain ⟨signers, distinct, enough, valid⟩ := judged.signed.signers judged.keySet.distinct
  obtain ⟨others, otherDistinct, otherEnough, otherValid⟩ :=
    otherJudged.signed.signers judged.keySet.distinct
  obtain ⟨common, commonDistinct, count, both⟩ := exists_common distinct otherDistinct enough
    otherEnough (fun key member => (valid key member).1) (fun key member => (otherValid key member).1)
  rw [judged.keySet.count] at count
  refine ⟨common, commonDistinct, count, fun key member => ?_⟩
  obtain ⟨member, otherMember⟩ := both key member
  exact ⟨(valid key member).1, (valid key member).2, (otherValid key otherMember).2⟩

/-- Two statements of two runs that cannot both stand, and the keys that signed
both of them. -/
structure Evidence (crypto : Crypto) (left right : List Presentation) (leftHead rightHead : Head)
    (one other : Statement) (keys signers : List Key) : Prop where
  presented : (∃ pin, (one, pin) ∈ left) ∧ ∃ pin, (other, pin) ∈ right
  conflicting : one.core ≠ other.core ∧ one.core.sequence = other.core.sequence ∧
    one.core.previous = other.core.previous
  inForce : InForce crypto left one.core keys ∧ InForce crypto right other.core keys
  distinct : signers.Nodup
  enough : 2 * thresholdCount - keyCount ≤ signers.length
  signed : ∀ key ∈ signers, key ∈ keys ∧ Signed crypto key one ∧ Signed crypto key other
  fences : Fences crypto leftHead other ∧ Fences crypto rightHead one

/-- Nodes that pinned the same genesis and whose chains part hold, between them,
the proof that at least four of the ten keys then in force signed two conflicting
statements; each of the two fences the node that applied the other. -/
theorem divergence_is_accountable (left right : List Presentation) (leftHead rightHead : Head)
    (collisionFree : CollisionFreeOn crypto (presentedCores left ∪ presentedCores right))
    (leftReached : history crypto left = some leftHead) (rightReached : history crypto right = some rightHead)
    (sameGenesis : leftHead.applied.head? = rightHead.applied.head?)
    (leftApart : ¬ leftHead.applied <+: rightHead.applied) (rightApart : ¬ rightHead.applied <+: leftHead.applied) :
    ∃ one other keys signers, Evidence crypto left right leftHead rightHead one other keys signers := by
  obtain ⟨index, _, _, leftFound, rightFound, differ, agree⟩ :=
    exists_first_difference leftApart rightApart
  cases index with
  | zero =>
    rw [List.head?_eq_getElem?, List.head?_eq_getElem?, leftFound, rightFound] at sameGenesis
    exact absurd (Option.some.inj sameGenesis) differ
  | succ index =>
    have leftWithin := (List.getElem?_eq_some_iff.mp leftFound).1
    have rightWithin := (List.getElem?_eq_some_iff.mp rightFound).1
    rw [(history_wellFormed leftReached).appliedLength] at leftWithin
    rw [(history_wellFormed rightReached).appliedLength] at rightWithin
    obtain ⟨one, before, applied⟩ := exists_appliedAt leftReached (Nat.le_of_lt_succ leftWithin)
    obtain ⟨other, after, otherApplied⟩ :=
      exists_appliedAt rightReached (Nat.le_of_lt_succ rightWithin)
    obtain ⟨keys, judged⟩ := applied.judged
    obtain ⟨_, otherJudged⟩ := otherApplied.judged
    -- Both were judged by the head of the last hash the chains have in common.
    have sameHash : before.hash = after.hash := by
      have same := agree index (Nat.lt_succ_self _)
      rw [applied.previous, otherApplied.previous] at same
      exact Option.some.inj same
    have sameHead : before.chain = after.chain :=
      (judged.derived.mono Set.subset_union_left).eq_of_hash collisionFree
        (otherJudged.derived.mono Set.subset_union_right) sameHash
    have sameKeys : before.keys = after.keys :=
      show before.chain.keys = after.chain.keys by rw [sameHead]
    cases (judged.held.symm.trans sameKeys).trans otherJudged.held
    have hashes : one.core.hash crypto ≠ other.core.hash crypto := by
      rw [applied.recorded] at leftFound
      rw [otherApplied.recorded] at rightFound
      cases leftFound
      cases rightFound
      exact differ
    obtain ⟨signers, distinct, enough, signed⟩ := judged.common_signers otherJudged
    refine ⟨one, other, keys, signers, ⟨judged.presented, otherJudged.presented⟩,
      ⟨fun same => hashes (congrArg (Core.hash crypto) same),
        UInt64.toNat.inj (applied.sequence.trans otherApplied.sequence.symm),
        (judged.previous.trans sameHash).trans otherJudged.previous.symm⟩,
      ⟨judged.inForce, otherJudged.inForce⟩, distinct, enough, signed, ?_, ?_⟩
    · exact judged.fences otherJudged sameHead leftReached (by rw [applied.sequence, applied.recorded]) hashes
    · exact otherJudged.fences judged sameHead.symm rightReached
        (by rw [otherApplied.sequence, otherApplied.recorded]) hashes.symm

end Divergence

open Governance.Sample

def Sample.activatedRun : List Presentation :=
  started ++ [(signedWith 1 (following genesis .activation), none)]

theorem Sample.runs_collisionFree : CollisionFreeOn crypto
    (presentedCores rotatedRun ∪ presentedCores Sample.activatedRun) := by
  have distinct : ([genesis, rotation, following genesis .activation].map
      (Core.hash crypto)).Nodup := by decide +kernel
  apply collisionFreeOn_of_nodup distinct
  rintro _ (⟨presentation, member, rfl⟩ | ⟨presentation, member, rfl⟩)
  all_goals
    revert presentation
    decide +kernel

/-- One node saw a rotation after the genesis, the other an activation. -/
theorem rotation_and_activation_are_accountable : ∃ rotated activated one other keys signers,
      Evidence crypto rotatedRun Sample.activatedRun rotated activated one other keys signers := by
  have rotated : history crypto rotatedRun = some ((history crypto rotatedRun).get (by decide +kernel)) := by simp
  have activated : history crypto Sample.activatedRun =
      some ((history crypto Sample.activatedRun).get (by decide +kernel)) := by simp
  exact ⟨_, _, divergence_is_accountable _ _ _ _ Sample.runs_collisionFree rotated activated
    (by decide +kernel) (by decide +kernel) (by decide +kernel)⟩

end Werewolf.Discovery
