import Werewolf.Governance.EncodingProperties

/-! How long an accepted statement is. The rules bound the lists of every body
and a signature needs a key of its own, so the longest is a revocation or an
admission of as many keys as allowed. -/

namespace Werewolf.Governance
open Library

variable {crypto : Crypto} {statement : Statement}

def Accepted (crypto : Crypto) (statement : Statement) : Prop :=
  ∃ presentations pin next,
    apply crypto (history crypto presentations) statement pin = .ok (.applied next)

def maxAcceptedBody : Nat := 2 + 32 * 64

def maxAcceptedStatement : Nat := 2777

structure Statement.Short (statement : Statement) : Prop where
  counts : statement.core.body.CountsFit
  body : statement.core.body.encode.length ≤ maxAcceptedBody
  signatures : statement.signatures.length ≤ keyCount

private theorem length_flatMap {α : Type} {width : Nat} {encode : α → List UInt8}
    (size : ∀ value, (encode value).length = width) (values : List α) :
    (values.flatMap encode).length = width * values.length := by
  induction values with
  | nil => rfl
  | cons value rest ih =>
    simp only [List.flatMap_cons, List.length_append, size, ih, List.length_cons, Nat.mul_succ]
    omega

theorem length_encodeKeyList (keys : List Key) : (encodeKeyList keys).length = 2 + 32 * keys.length := by
  rw [encodeKeyList, List.length_append, length_beBytes, length_flatMap (fun key => key.2)]

theorem length_encode_entries (entries : List (UInt8 × Key)) :
    (Body.rotation entries).encode.length = 1 + 33 * entries.length := by
  have size (entry : UInt8 × Key) : (entry.1 :: entry.2.val).length = 33 := by
    rw [List.length_cons, entry.2.2]
  rw [Body.encode, List.length_cons, length_flatMap size, Nat.add_comm]

theorem checkSignatures_few {keys : List Key} {threshold : Nat}
    (checked : checkSignatures crypto statement keys threshold = .ok ()) :
    statement.signatures.length ≤ keys.length := by
  simp only [checkSignatures, ite_eq_ok_iff, not_or, not_lt] at checked
  exact checked.1.2

theorem Starts.short {pin : Option Hash} {threshold : UInt8} {keys : List Key}
    (starts : Starts crypto statement pin threshold keys) : statement.Short := by
  have count : keys.length = 10 := (checkGenesis_ok starts.checked).2.count
  refine ⟨?_, ?_, (checkSignatures_few starts.signatures).trans_eq count⟩
  · rw [starts.body]
    exact (count.trans_lt (by decide) : keys.length < 2 ^ 8)
  · rw [starts.body, Body.encode, List.length_cons, List.length_cons, length_flatMap (fun key => key.2), count]
    decide

theorem BodyEffect.short {head effect : Head} {core : Core} (effects : BodyEffect crypto head core effect) :
    core.body.CountsFit ∧ core.body.encode.length ≤ maxAcceptedBody := by
  cases effects with
  | @rotation entries current keys body inForce accepted =>
    simp only [rotated, ite_eq_ok_iff, Bool.or_eq_true, decide_eq_true_eq, not_or, not_lt] at accepted
    have few : entries.length ≤ 10 := accepted.1.2
    rw [body, length_encode_entries]
    simp only [Body.CountsFit, maxAcceptedBody]
    omega
  | @revocation keys body accepted =>
    simp only [checkRevocation, ite_eq_ok_iff, Bool.or_eq_true, decide_eq_true_eq, not_or, not_lt] at accepted
    have few : keys.length ≤ 64 := accepted.1.2
    rw [body, Body.encode, length_encodeKeyList]
    simp only [Body.CountsFit, maxAcceptedBody]
    omega
  | @admission keys roster body accepted admitted =>
    simp only [checkAdmission, ite_eq_ok_iff, Bool.or_eq_true, decide_eq_true_eq, not_or, not_lt] at accepted
    have few : keys.length ≤ 64 := accepted.1.2
    rw [body, Body.encode, length_encodeKeyList]
    simp only [Body.CountsFit, maxAcceptedBody]
    omega
  | activation body => rw [body]; exact ⟨trivial, Nat.zero_le _⟩
  | death body => rw [body]; exact ⟨trivial, Nat.zero_le _⟩

theorem Accepted.short (accepted : Accepted crypto statement) : statement.Short := by
  obtain ⟨presentations, pin, next, applied⟩ := accepted
  cases reached : history crypto presentations with
  | none =>
    rw [reached] at applied
    obtain ⟨_, _, starts, _⟩ := applyGenesis_ok_iff.mp applied
    exact starts.short
  | some head =>
    rw [reached] at applied
    obtain ⟨keys, effect, advances, _⟩ := applyTo_applied applied
    obtain ⟨epoch, _, inForce, keySet⟩ := (history_wellFormed reached).keys
    have same : keys = epoch.2 := Except.ok.inj (advances.inForce.symm.trans inForce)
    obtain ⟨counts, body⟩ := BodyEffect.short (applyBody_ok advances.body)
    exact ⟨counts, body, (checkSignatures_few advances.signatures).trans_eq (same ▸ keySet.count)⟩

theorem Statement.length_encode (statement : Statement) : statement.encode.length =
      77 + statement.core.body.encode.length + 65 * statement.signatures.length := by
  have size (entry : UInt8 × Signature) : (entry.1 :: entry.2.val).length = 65 := by
    rw [List.length_cons, entry.2.2]
  simp only [Statement.encode, Core.encode, List.length_append, List.length_singleton,
    length_beBytes, statement.core.networkId.2, statement.core.previous.2, length_flatMap size]
  omega

theorem Statement.Short.length_le (short : statement.Short) : statement.encode.length ≤ maxAcceptedStatement := by
  have body : statement.core.body.encode.length ≤ 2050 := short.body
  have signatures : statement.signatures.length ≤ 10 := short.signatures
  rw [statement.length_encode, maxAcceptedStatement]
  omega

theorem Statement.Short.decode_encode (short : statement.Short) :
    Statement.decode statement.encode = .ok statement := by
  have body : statement.core.body.encode.length ≤ 2050 := short.body
  have signatures : statement.signatures.length ≤ 10 := short.signatures
  refine Statement.decode_encode ⟨short.counts, by omega, by omega⟩ (short.length_le.trans ?_)
  decide

end Werewolf.Governance
