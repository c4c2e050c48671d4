import Werewolf.Governance.KeyCheck
import Werewolf.Governance.RunProperties

/-! Which answers to a challenge the check of the governance keys accepts. -/

namespace Werewolf.Governance
open Library

namespace Challenge

variable {answers : List Answer}

def Addressed (challenge : Challenge) (answer : Answer) : Prop :=
  answer.format = answerFormat ∧ answer.version = 1 ∧
    answer.networkId = challenge.networkId ∧ answer.challenge = challenge.challenge

def Signed (crypto : Crypto) (head : Head) (message : List UInt8) (answer : Answer) : Prop :=
  ∃ keys key signature, head.keys = .ok keys ∧ keys[answer.index.toNat]? = some key ∧
    unhexLower 64 answer.signature = .ok signature ∧
    crypto.verifyStrict key message signature = true

structure Accepted (crypto : Crypto) (head : Head) (challenge : Challenge)
    (message : List UInt8) (answers : List Answer) : Prop where
  addressed : ∀ answer ∈ answers, challenge.Addressed answer
  below : ∀ answer ∈ answers, answer.index.toNat < keyCount
  distinct : (answers.map (·.index)).Nodup
  signed : ∀ answer ∈ answers, Signed crypto head message answer

def verdictOf (count : Nat) : Verdict :=
  if thresholdCount ≤ count then .atLeast7Usable else .unverified

variable {crypto : Crypto} {head : Head} {challenge : Challenge} {message : List UInt8}

theorem accepted_nil : Accepted crypto head challenge message [] :=
  ⟨by simp, by simp, List.nodup_nil, by simp⟩

theorem accepted_cons {answer : Answer} {rest : List Answer} :
    Accepted crypto head challenge message (answer :: rest) ↔
      challenge.Addressed answer ∧ answer.index.toNat < keyCount ∧
        (∀ other ∈ rest, other.index ≠ answer.index) ∧ Signed crypto head message answer ∧
        Accepted crypto head challenge message rest := by
  constructor
  · rintro ⟨addressed, below, distinct, signed⟩
    simp only [List.forall_mem_cons, List.map_cons, List.nodup_cons, List.mem_map, not_exists,
      not_and] at addressed below distinct signed
    exact ⟨addressed.1, below.1, distinct.1, signed.1, ⟨addressed.2, below.2, distinct.2, signed.2⟩⟩
  · rintro ⟨addressed, below, distinct, signed, later⟩
    refine ⟨List.forall_mem_cons.mpr ⟨addressed, later.addressed⟩, List.forall_mem_cons.mpr ⟨below, later.below⟩, ?_,
      List.forall_mem_cons.mpr ⟨signed, later.signed⟩⟩
    rw [List.map_cons, List.nodup_cons]
    exact ⟨by simpa using distinct, later.distinct⟩

theorem Accepted.perm {shuffled : List Answer} (permuted : answers.Perm shuffled)
    (accepted : Accepted crypto head challenge message answers) :
    Accepted crypto head challenge message shuffled where
  addressed answer member := accepted.addressed answer (permuted.mem_iff.mpr member)
  below answer member := accepted.below answer (permuted.mem_iff.mpr member)
  distinct := (permuted.map (·.index)).nodup_iff.mp accepted.distinct
  signed answer member := accepted.signed answer (permuted.mem_iff.mpr member)

theorem keyAt_ok_iff {index : UInt8} {key : Key} : keyAt head index = .ok key ↔
      ∃ keys, head.keys = .ok keys ∧ keys[index.toNat]? = some key := by
  unfold keyAt
  cases head.keys with
  | error failure => simp
  | ok keys => cases found : keys[index.toNat]? <;> simp [found]

def Usable (crypto : Crypto) (head : Head) : Prop :=
  ∀ index key, keyAt head index = .ok key → crypto.fromBytes key = true

theorem verifyAnswers_ok_iff (usable : Usable crypto head) {indices result : List UInt8} :
    challenge.verifyAnswers crypto head message indices answers = .ok result ↔
      Accepted crypto head challenge message answers ∧ (∀ answer ∈ answers, answer.index ∉ indices) ∧
        result = indices ++ answers.map (·.index) := by
  induction answers generalizing indices with
  | nil => simp [verifyAnswers, accepted_nil, eq_comm]
  | cons answer rest ih =>
    simp only [verifyAnswers, ite_eq_ok_iff, bind_eq_ok, ih, accepted_cons,
      List.forall_mem_cons, not_or, not_not, Nat.not_le, Bool.not_eq_true', Bool.not_eq_false]
    constructor
    · rintro ⟨addressed, ⟨below, fresh⟩, key, found, _, signature, read, verified, accepted, others, rfl⟩
      obtain ⟨keys, inForce, present⟩ := keyAt_ok_iff.mp found
      simp only [List.mem_append, List.mem_singleton, not_or] at others
      exact ⟨⟨addressed, below, fun other member => (others other member).2,
        ⟨keys, key, signature, inForce, present, read, verified⟩, accepted⟩,
        ⟨fresh, fun other member => (others other member).1⟩, by simp⟩
    · rintro ⟨⟨addressed, below, distinct, ⟨keys, key, signature, inForce, present, read,
        verified⟩, accepted⟩, ⟨fresh, others⟩, rfl⟩
      have found := keyAt_ok_iff.mpr ⟨keys, inForce, present⟩
      refine ⟨addressed, ⟨below, fresh⟩, key, found, usable _ _ found, signature, read, verified,
        accepted, fun other member => ?_, by simp⟩
      simpa using ⟨others other member, distinct other member⟩

theorem verify_ok_iff (usable : Usable crypto head) {bytes : ByteArr 32}
    (wellFormed : challenge.fields = .ok (head.networkId, bytes)) {result : List UInt8 × Verdict} :
    challenge.verify crypto head answers = .ok result ↔
      Accepted crypto head challenge (keyCheckInput head.networkId bytes) answers ∧
        result = (sortOn id (answers.map (·.index)), verdictOf answers.length) := by
  simp only [verify, bind_eq_ok, wellFormed, Except.ok.injEq, exists_eq_left', ne_eq,
    not_true_eq_false, if_false, verifyAnswers_ok_iff usable, return_eq_ok]
  constructor
  · rintro ⟨_, ⟨accepted, _, rfl⟩, rfl⟩
    exact ⟨accepted, by simp [verdictOf]⟩
  · rintro ⟨accepted, rfl⟩
    exact ⟨_, ⟨accepted, by simp, rfl⟩, by simp [verdictOf]⟩

end Challenge

theorem unhexLower_hex {size : Nat} (bytes : ByteArr size) : unhexLower size (hex bytes.val) = .ok bytes := by
  have pairs := @readPairs_hexChars (fun first second => (lowerHexValue first).bind (fun high =>
    (lowerHexValue second).map (fun low => UInt8.ofNat (16 * high + low)))) (by decide +kernel)
    bytes.val
  have sized : (hexChars bytes.val).length = 2 * size := by rw [length_hexChars, bytes.2]
  simp only [unhexLower, hex, String.toList_ofList, sized, pairs, ne_eq, not_true_eq_false,
    if_false, bytes.2, dif_pos]

theorem Head.WellFormed.usable {crypto : Crypto} {head : Head}
    (wellFormed : head.WellFormed crypto) : Challenge.Usable crypto head := by
  intro index key found
  obtain ⟨keys, inForce, present⟩ := Challenge.keyAt_ok_iff.mp found
  unfold Head.keys at inForce
  split at inForce
  · rename_i epoch last
    cases inForce
    have strong := (wellFormed.epochsKeys _ (List.mem_of_getLast? last)).strong key (List.mem_of_getElem? present)
    rw [strongKey, Bool.and_eq_true] at strong
    exact strong.1
  · cases inForce

theorem keyCheckInput_ne_signingInput (networkId challenge : ByteArr 32) (core : Core) :
    keyCheckInput networkId challenge ≠ core.signingInput := by
  intro same
  have parted : (keyCheckInput networkId challenge)[28]? = core.signingInput[28]? := by rw [same]
  have left : (keyCheckInput networkId challenge)[28]? = keyCheckDomain[28]? := by
    rw [keyCheckInput, List.append_assoc, List.getElem?_append_left (by decide +kernel)]
  have right : core.signingInput[28]? = signDomain[28]? := by
    rw [Core.signingInput, List.getElem?_append_left (by decide +kernel)]
  rw [left, right] at parted
  revert parted
  decide +kernel

/-- A check against a head that a run reached succeeds exactly for a list of
accepted answers, with their indices and the verdict by their number, in whatever
order they come. The bytes signed for it are no statement's. -/
theorem key_check_is_exact (crypto : Crypto) (presentations : List Presentation) (head : Head)
    (reached : history crypto presentations = some head) (challenge : Challenge) (bytes : ByteArr 32)
    (wellFormed : challenge.fields = .ok (head.networkId, bytes)) (answers : List Answer) :
    let message := keyCheckInput head.networkId bytes
    ((∃ result, challenge.verify crypto head answers = .ok result) ↔ challenge.Accepted crypto head message answers) ∧
    (∀ indices verdict, challenge.verify crypto head answers = .ok (indices, verdict) →
      indices.Perm (answers.map (·.index)) ∧ (verdict = .atLeast7Usable ↔ 7 ≤ answers.length)) ∧
    (∀ shuffled, answers.Perm shuffled → ∀ result, challenge.verify crypto head shuffled = .ok result ↔
        challenge.verify crypto head answers = .ok result) ∧
    ∀ core : Core, message ≠ core.signingInput := by
  intro message
  have usable := (history_wellFormed reached).usable
  refine ⟨?_, ?_, ?_, keyCheckInput_ne_signingInput _ _⟩
  · simp only [Challenge.verify_ok_iff usable wellFormed, exists_and_left, exists_eq, and_true, message]
  · intro indices verdict verified
    obtain ⟨_, result⟩ := (Challenge.verify_ok_iff usable wellFormed).mp verified
    cases result
    refine ⟨sortOn_perm id _, ?_⟩
    by_cases enough : 7 ≤ answers.length <;> simp [Challenge.verdictOf, thresholdCount, enough]
  · intro shuffled permuted result
    rw [Challenge.verify_ok_iff usable wellFormed, Challenge.verify_ok_iff usable wellFormed, permuted.length_eq]
    constructor
    · rintro ⟨accepted, rfl⟩
      exact ⟨accepted.perm permuted.symm,
        by rw [sortOn_eq_of_perm (permuted.symm.map _) (by simpa using accepted.distinct)]⟩
    · rintro ⟨accepted, rfl⟩
      exact ⟨accepted.perm permuted,
        by rw [sortOn_eq_of_perm (permuted.map _) (by simpa using accepted.distinct)]⟩

namespace Sample

def challenge : Challenge :=
  ⟨challengeFormat, 1, hex (ByteArr.zero 32).val, hex (key 5).val⟩

def answer (index : UInt8) : Answer :=
  ⟨answerFormat, 1, challenge.networkId, challenge.challenge, index, hex (signature index 0).val⟩

end Sample

open Sample

/-- Seven answers to a challenge of the rotated network, out of order. -/
theorem seven_answers_are_enough : ∃ head indices, history Sample.crypto rotatedRun = some head ∧
      Sample.challenge.verify Sample.crypto head ([6, 5, 4, 3, 2, 0, 1].map Sample.answer) =
        .ok (indices, .atLeast7Usable) := by
  have reached : history Sample.crypto rotatedRun =
      some ((history Sample.crypto rotatedRun).get (by decide +kernel)) := by simp
  generalize (history Sample.crypto rotatedRun).get (by decide +kernel) = head at reached
  have shape : (history Sample.crypto rotatedRun).all (fun head =>
      head.networkId = ByteArr.zero 32 && head.keys = .ok (keys.set 9 (Sample.key 10))) = true := by
    decide +kernel
  simp only [reached, Option.all_some, Bool.and_eq_true, decide_eq_true_eq] at shape
  have wellFormed : Sample.challenge.fields = .ok (head.networkId, Sample.key 5) := by
    rw [shape.1, Challenge.fields, if_neg (by simp [Sample.challenge])]
    simp only [Sample.challenge, unhexLower_hex]
    rfl
  have signed (index : UInt8) (listed : index ∈ ([6, 5, 4, 3, 2, 0, 1] : List UInt8)) :
      Challenge.Signed Sample.crypto head (keyCheckInput head.networkId (Sample.key 5)) (Sample.answer index) := by
    refine ⟨_, Sample.key index, Sample.signature index 0, shape.2, ?_, unhexLower_hex _, ?_⟩
    · revert index
      decide +kernel
    · exact decide_eq_true (by simp [Sample.signature, Sample.key])
  have accepted : Sample.challenge.Accepted Sample.crypto head
      (keyCheckInput head.networkId (Sample.key 5)) ([6, 5, 4, 3, 2, 0, 1].map Sample.answer) := by
    refine ⟨?_, ?_, by decide, ?_⟩ <;> simp only [List.forall_mem_map]
    · exact fun index _ => ⟨rfl, rfl, rfl, rfl⟩
    · simp [Sample.answer, keyCount]
    · exact signed
  obtain ⟨exactly, verdicts, _⟩ := key_check_is_exact _ _ head reached _ _ wellFormed
    ([6, 5, 4, 3, 2, 0, 1].map Sample.answer)
  obtain ⟨⟨indices, verdict⟩, verified⟩ := exactly.mpr accepted
  have enough : verdict = .atLeast7Usable := (verdicts indices verdict verified).2.mpr (by decide)
  exact ⟨head, indices, reached, by rw [verified, enough]⟩

end Werewolf.Governance
