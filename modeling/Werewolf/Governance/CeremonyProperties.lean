import Mathlib.Data.List.OfFn
import Werewolf.Governance.ToolProperties

/-! The founding of a network with the offline tool. Ten holders make their keys,
and some of them sign the draft of a genesis for the ten public keys. -/

namespace Werewolf.Governance
open Library

variable {tooling : Tooling}

theorem replay_singleton {crypto : Crypto} {statement : Statement} {expectGenesis : Hash}
    {head : Head} : replay crypto [statement] expectGenesis = .ok head ↔
      apply crypto none statement (some expectGenesis) = .ok (.applied head) := by
  simp only [replay, replayFrom, bind_eq_ok]
  cases apply crypto none statement (some expectGenesis) with
  | error failure => simp
  | ok outcome =>
    cases outcome with
    | applied next =>
      simp only [Except.ok.injEq, exists_eq_left', return_eq_ok, Outcome.applied.injEq]
    | alreadyApplied | fork => simp

theorem toNat_holder (holder : Fin keyCount) : (UInt8.ofNat holder).toNat = holder :=
  UInt8.toNat_ofNat_of_lt (holder.2.trans (by decide))

section Keys

variable (standard : Base64.Standard tooling.base64Encode tooling.base64Decode) (secret : Key)

include standard

theorem readKeyFile_keygen : readKeyFile tooling (tooling.keygen secret).1 = .ok secret := by
  simp [readKeyFile, Tooling.keygen, standard.roundTrip, secret.2, show (384 &&& 63 : UInt32) = 0 from rfl]

theorem publicKey_keygen : tooling.publicKey (tooling.keygen secret).2 = .ok (tooling.verifyingKey secret) := by
  simp [Tooling.publicKey, Tooling.keygen, standard.roundTrip, (tooling.verifyingKey secret).2]

theorem signPart_keygen (draft : Statement) (secret : Key) (holder : Fin keyCount) :
    ∃ part, signPart tooling draft (tooling.keygen secret).1 (UInt8.ofNat holder) = .ok part ∧
      part.index = UInt8.ofNat holder := by
  simp only [signPart, readKeyFile_keygen standard, toNat_holder, Nat.not_le.mpr holder.2, ↓reduceIte]
  exact ⟨_, rfl, rfl⟩

end Keys

/-- Whichever holders sign the genesis, and in whatever order, their parts combine.
The statement founds a network exactly if they are seven or more and its hash is the
expected one, and then the ten keys are in force and nothing else is decided. -/
theorem ceremony_founds_network (signs : tooling.Signs)
    (standard : Base64.Standard tooling.base64Encode tooling.base64Decode) (secrets : Fin keyCount → Key)
    (keySet : KeySet tooling.toCrypto (List.ofFn (tooling.verifyingKey ∘ secrets))) (networkId : ByteArr 32)
    (holders : List (Fin keyCount)) (once : holders.Nodup) :
    let keys := List.ofFn (tooling.verifyingKey ∘ secrets)
    let draft := draftGenesis keys networkId
    ((List.ofFn secrets).map (fun secret => (tooling.keygen secret).2)).mapM tooling.publicKey = .ok keys ∧
    ∃ parts statement, holders.mapM (fun holder => signPart tooling draft (tooling.keygen (secrets holder)).1
        (UInt8.ofNat holder)) = .ok parts ∧
      combine tooling.toCrypto draft parts = .ok statement ∧
      ∀ expectGenesis head, replay tooling.toCrypto [statement] expectGenesis = .ok head ↔
        thresholdCount ≤ holders.length ∧
        expectGenesis = draft.core.hash tooling.toCrypto ∧
        head = Head.initial tooling.toCrypto draft.core (UInt8.ofNat thresholdCount) keys := by
  intro keys draft
  choose part signed index using fun holder => signPart_keygen standard draft (secrets holder) holder
  have made : ∀ each ∈ holders.map part, MadeBy tooling draft keys each := by
    intro each member
    obtain ⟨holder, _, rfl⟩ := List.mem_map.mp member
    refine ⟨_, secrets holder, readKeyFile_keygen standard _, ?_, index holder ▸ signed holder⟩
    rw [index, toNat_holder]
    simp [keys]
  have distinct : ((holders.map part).map Part.index).Nodup := by
    rw [List.map_map]
    refine once.map (fun one other same => Fin.ext ?_)
    rw [Function.comp_apply, Function.comp_apply, index, index] at same
    rw [← toNat_holder one, ← toNat_holder other, same]
  obtain ⟨statement, combined, core, valid⟩ := combine_signedBy signs made le_rfl distinct
  have count : statement.signatures.length = holders.length := by
    obtain ⟨signatures, read, _, rfl⟩ := combine_ok_iff.mp combined
    rw [(sortOn_perm Prod.fst signatures).length_eq, ← read.length_eq, List.length_map]
  refine ⟨?_, holders.map part, statement, ?_, combined, fun expectGenesis head => ?_⟩
  · rw [mapM_eq_ok_iff, show keys = (List.ofFn secrets).map tooling.verifyingKey by simp [keys],
      List.forall₂_map_left_iff, List.forall₂_map_right_iff, List.forall₂_same]
    exact fun secret _ => publicKey_keygen standard secret
  · rw [mapM_eq_ok_iff, List.forall₂_map_right_iff, List.forall₂_same]
    exact fun holder _ => signed holder
  · rw [replay_singleton]
    show applyGenesis _ _ _ = _ ↔ _
    rw [applyGenesis_ok_iff, core]
    constructor
    · rintro ⟨threshold, others, starts, same⟩
      obtain ⟨rfl, rfl⟩ := Body.genesis.inj ((congrArg Core.body core).symm.trans starts.body)
      have enough := ((checkSignatures_ok_iff keySet.strong _ _).mp starts.signatures).enough
      rw [count] at enough
      exact ⟨enough, Option.some.inj (core ▸ starts.pinned), Outcome.applied.inj same⟩
    · rintro ⟨enough, rfl, rfl⟩
      refine ⟨_, keys, ⟨by rw [core]; rfl, by rw [core]; rfl, by rw [core]; rfl, by rw [core], ?_, ?_⟩, rfl⟩
      · simp only [checkGenesis, ite_eq_ok_iff, not_or, not_not, Bool.not_eq_true,
          Bool.or_eq_false_iff, Bool.not_eq_false', List.all_eq_true, hasRepeat_eq_false_iff, and_true]
        exact ⟨⟨rfl, keySet.count⟩, keySet.strong, keySet.distinct, by simp⟩
      · exact (checkSignatures_ok_iff keySet.strong _ _).mpr
          ⟨by rw [count]; exact enough, valid.increasing, valid.valid⟩

/-- Seven of the ten holders, the last first. -/
theorem seven_holders_found_network : ∃ statement expectGenesis head,
      replay Sample.crypto [statement] expectGenesis = .ok head ∧ head.keys = .ok Sample.keys := by
  have signs : Sample.tooling.Signs := fun secret _ => by
    simp [Sample.tooling, Sample.crypto, secret.2]
  obtain ⟨_, _, statement, _, _, founds⟩ := ceremony_founds_network signs Base64.standard
    (fun tag => Sample.key (UInt8.ofNat tag)) ⟨by simp, by decide +kernel, fun _ _ => rfl⟩
    (ByteArr.zero 32) ((List.finRange keyCount).drop 3).reverse (by decide)
  exact ⟨statement, _, _, (founds _ _).mpr ⟨by decide, rfl, rfl⟩, by decide +kernel⟩

end Werewolf.Governance
