import Werewolf.Governance.SignatureProperties

/-! Exact inversion of the accepting branches of `apply`, stated once so that
no later property has to unfold it. -/

namespace Werewolf.Governance
open Library

variable {statement : Statement}

inductive BodyEffect (crypto : Crypto) (head : Head) (core : Core) : Head → Prop where
  | rotation {entries : List (UInt8 × Key)} {current keys : List Key}
      (body : core.body = .rotation entries) (inForce : head.keys = .ok current)
      (accepted : rotated crypto current entries = .ok keys) :
      BodyEffect crypto head core
        { head with keyEpochs := head.keyEpochs ++ [(core.sequence, keys)] }
  | revocation {keys : List Key} (body : core.body = .revocation keys)
      (accepted : checkRevocation crypto keys = .ok ()) :
      BodyEffect crypto head core { head with
        revoked := keys.foldl insertAbsent head.revoked
        roster := keys.foldl removePresent head.roster }
  | admission {keys roster : List Key} (body : core.body = .admission keys)
      (accepted : checkAdmission crypto head keys = .ok ())
      (admitted : admitKeys head.roster keys = .ok roster) :
      BodyEffect crypto head core { head with roster := roster }
  | activation (body : core.body = .activation) (inactive : head.activatedAt = none) :
      BodyEffect crypto head core { head with activatedAt := some core.sequence }
  | death (body : core.body = .death) :
      BodyEffect crypto head core { head with deadAt := some core.sequence }

theorem applyBody_ok {crypto : Crypto} {head next : Head} {core : Core}
    (accepted : applyBody crypto head core = .ok next) : BodyEffect crypto head core next := by
  unfold applyBody at accepted
  cases body : core.body with
  | genesis threshold keys => simp [body] at accepted
  | rotation entries =>
    simp only [body, bind_eq_ok, return_eq_ok] at accepted
    obtain ⟨current, inForce, keys, kept, rfl⟩ := accepted
    exact .rotation body inForce kept
  | revocation keys =>
    simp only [body, bind_eq_ok, return_eq_ok] at accepted
    obtain ⟨_, checked, rfl⟩ := accepted
    exact .revocation body checked
  | admission keys =>
    simp only [body, bind_eq_ok, return_eq_ok] at accepted
    obtain ⟨_, checked, roster, admitted, rfl⟩ := accepted
    exact .admission body checked admitted
  | activation =>
    simp only [body, ite_eq_ok_iff, Except.ok.injEq] at accepted
    obtain ⟨inactive, rfl⟩ := accepted
    exact .activation body (by simpa using inactive)
  | death =>
    simp only [body, Except.ok.injEq] at accepted
    subst accepted
    exact .death body

def Head.advance (crypto : Crypto) (head : Head) (core : Core) : Head :=
  { head with
    sequence := core.sequence
    hash := core.hash crypto
    applied := head.applied ++ [core.hash crypto] }

def Head.initial (crypto : Crypto) (core : Core) (threshold : UInt8) (keys : List Key) : Head where
  networkId := core.networkId
  sequence := 0
  hash := core.hash crypto
  threshold := threshold
  keyEpochs := [(0, keys)]
  revoked := []
  applied := [core.hash crypto]
  forked := false
  roster := []
  activatedAt := none
  deadAt := none

structure Starts (crypto : Crypto) (statement : Statement) (pin : Option Hash)
    (threshold : UInt8) (keys : List Key) : Prop where
  body : statement.core.body = .genesis threshold keys
  sequence : statement.core.sequence = 0
  previous : statement.core.previous = ByteArr.zero 32
  pinned : pin = some (statement.core.hash crypto)
  checked : checkGenesis crypto threshold keys = .ok ()
  signatures : checkSignatures crypto statement keys threshold.toNat = .ok ()

theorem applyGenesis_ok_iff {crypto : Crypto} {pin : Option Hash} {outcome : Outcome} :
    applyGenesis crypto statement pin = .ok outcome ↔ ∃ threshold keys, Starts crypto statement pin threshold keys ∧
        outcome = .applied (Head.initial crypto statement.core threshold keys) := by
  unfold applyGenesis
  cases body : statement.core.body with
  | genesis threshold keys =>
    simp only [body, ite_eq_ok_iff, bind_eq_ok, return_eq_ok, not_or, not_not]
    constructor
    · rintro ⟨⟨sequence, previous⟩, pinned, _, checked, _, signatures, rfl⟩
      exact ⟨threshold, keys, ⟨body, sequence, previous, pinned, checked, signatures⟩, rfl⟩
    · rintro ⟨otherThreshold, otherKeys, starts, rfl⟩
      cases body.symm.trans starts.body
      exact ⟨⟨starts.sequence, starts.previous⟩, starts.pinned, (), starts.checked, (), starts.signatures, rfl⟩
  | rotation | revocation | admission | activation | death =>
    simp only [body, reduceCtorEq, false_iff, not_exists, not_and]
    intro threshold keys starts
    cases body.symm.trans starts.body

structure Advances (crypto : Crypto) (head : Head) (statement : Statement) (keys : List Key)
    (effect : Head) : Prop where
  alive : head.deadAt = none
  fenced : head.forked = true → statement.core.body = .death
  network : statement.core.networkId = head.networkId
  sequence : statement.core.sequence.toNat = head.sequence.toNat + 1
  previous : statement.core.previous = head.hash
  inForce : head.keys = .ok keys
  signatures : checkSignatures crypto statement keys head.threshold.toNat = .ok ()
  body : applyBody crypto head statement.core = .ok effect

/-- Everything that holds when a head recognizes conflicting signatures. -/
structure Conflicts (crypto : Crypto) (head : Head) (statement : Statement) (keys : List Key)
    (entry : Hash) : Prop where
  alive : head.deadAt = none
  unforked : head.forked = false
  network : statement.core.networkId = head.networkId
  settled : statement.core.sequence ≤ head.sequence
  afterGenesis : statement.core.sequence ≠ 0
  recorded : head.applied[statement.core.sequence.toNat]? = some entry
  different : entry ≠ statement.core.hash crypto
  inForce : head.keysBefore statement.core.sequence = .ok keys
  signatures : checkSignatures crypto statement keys head.threshold.toNat = .ok ()

private theorem successor_toNat {low high : UInt64} (above : ¬ high ≤ low)
    (next : high = low + 1) : high.toNat = low.toNat + 1 := by
  subst next
  simp only [UInt64.le_iff_toNat_le, UInt64.toNat_add, UInt64.toNat_one] at above ⊢
  have bound := UInt64.toNat_lt low
  omega

private theorem wrapped_eq_zero {low high : UInt64} (below : high ≤ low) (next : high = low + 1) : high = 0 := by
  subst next
  apply UInt64.toNat.inj
  simp only [UInt64.le_iff_toNat_le, UInt64.toNat_add, UInt64.toNat_one, UInt64.toNat_zero] at below ⊢
  have bound := UInt64.toNat_lt low
  omega

theorem applyNext_ok_iff {crypto : Crypto} {head : Head} {outcome : Outcome} :
    applyNext crypto head statement = .ok outcome ↔ ∃ keys effect, head.keys = .ok keys ∧
        checkSignatures crypto statement keys head.threshold.toNat = .ok () ∧
        applyBody crypto head statement.core = .ok effect ∧
        outcome = .applied (effect.advance crypto statement.core) := by
  unfold applyNext
  simp only [bind_eq_ok, return_eq_ok]
  constructor
  · rintro ⟨keys, inForce, _, signatures, effect, body, rfl⟩
    exact ⟨keys, effect, inForce, signatures, body, rfl⟩
  · rintro ⟨keys, effect, inForce, signatures, body, rfl⟩
    exact ⟨keys, inForce, (), signatures, effect, body, rfl⟩

theorem applyDead_ok {crypto : Crypto} {head : Head} {core : Core} {outcome : Outcome}
    (accepted : applyDead crypto head core = .ok outcome) : outcome = .alreadyApplied := by
  unfold applyDead at accepted
  split at accepted
  · split at accepted
    · cases accepted
    · split at accepted <;> cases accepted
      rfl
  · cases accepted

theorem applyTo_applied {crypto : Crypto} {head next : Head}
    (accepted : applyTo crypto head statement = .ok (.applied next)) :
    ∃ keys effect, Advances crypto head statement keys effect ∧
      next = effect.advance crypto statement.core := by
  unfold applyTo at accepted
  dsimp only at accepted
  split at accepted
  · cases applyDead_ok accepted
  · rename_i alive
    simp only [ite_eq_ok_iff] at accepted
    obtain ⟨guard, network, accepted⟩ := accepted
    split at accepted
    · simp only [applySettled] at accepted
      split at accepted
      · cases accepted
      · split at accepted
        · cases accepted
        · simp only [ite_eq_ok_iff, bind_eq_ok, return_eq_ok, reduceCtorEq, and_false,
            exists_false] at accepted
    · rename_i above
      simp only [ite_eq_ok_iff, not_not] at accepted
      obtain ⟨sequence, previous, accepted⟩ := accepted
      obtain ⟨keys, effect, inForce, signatures, body, shape⟩ := applyNext_ok_iff.mp accepted
      cases shape
      refine ⟨keys, effect, ⟨by simpa using alive, ?_, not_not.mp network,
        successor_toNat above sequence, previous, inForce, signatures, body⟩, rfl⟩
      intro forked
      simp only [forked, Bool.true_and, Bool.not_eq_true, Bool.not_eq_false', Head.chainsDeath,
        Bool.and_eq_true, decide_eq_true_eq] at guard
      exact guard.1.1

theorem Advances.applyTo {crypto : Crypto} {head effect : Head} {keys : List Key}
    (advances : Advances crypto head statement keys effect) :
    applyTo crypto head statement = .ok (.applied (effect.advance crypto statement.core)) := by
  have next : statement.core.sequence = head.sequence + 1 := by
    apply UInt64.toNat.inj
    have bound := UInt64.toNat_lt statement.core.sequence
    have sequence := advances.sequence
    rw [UInt64.toNat_add, UInt64.toNat_one]
    omega
  have above : ¬ head.sequence + 1 ≤ head.sequence := by
    have sequence := advances.sequence
    rw [← next, UInt64.le_iff_toNat_le]
    omega
  have passes : (head.forked && !head.chainsDeath statement.core) = false := by
    cases forked : head.forked with
    | false => rfl
    | true => simp [Head.chainsDeath, advances.fenced forked, next, advances.previous]
  have accepted := applyNext_ok_iff.mpr ⟨keys, effect, advances.inForce, advances.signatures, advances.body, rfl⟩
  simp only [Governance.applyTo, advances.alive, Option.isSome_none, Bool.false_eq_true, ↓reduceIte,
    passes, advances.network, ne_eq, not_true_eq_false, above, advances.previous, next]
  exact accepted

theorem applyTo_fork {crypto : Crypto} {head fenced : Head}
    (accepted : applyTo crypto head statement = .ok (.fork fenced)) :
    ∃ keys entry, Conflicts crypto head statement keys entry ∧ fenced = { head with forked := true } := by
  unfold applyTo at accepted
  dsimp only at accepted
  split at accepted
  · cases applyDead_ok accepted
  · rename_i alive
    simp only [ite_eq_ok_iff] at accepted
    obtain ⟨guard, network, accepted⟩ := accepted
    split at accepted
    · rename_i settled
      simp only [applySettled] at accepted
      split at accepted
      · cases accepted
      · rename_i entry found
        split at accepted
        · cases accepted
        · rename_i different
          simp only [ite_eq_ok_iff, bind_eq_ok, return_eq_ok, Outcome.fork.injEq] at accepted
          obtain ⟨afterGenesis, keys, inForce, _, signatures, rfl⟩ := accepted
          refine ⟨keys, entry, ⟨by simpa using alive, ?_, not_not.mp network, settled,
            afterGenesis, found, different, inForce, signatures⟩, rfl⟩
          -- A death that passes the fence here would have wrapped to sequence zero.
          cases forked : head.forked with
          | false => rfl
          | true =>
            simp only [forked, Bool.true_and, Bool.not_eq_true, Bool.not_eq_false',
              Head.chainsDeath, Bool.and_eq_true, decide_eq_true_eq] at guard
            exact absurd (wrapped_eq_zero settled guard.1.2) afterGenesis
    · simp only [ite_eq_ok_iff] at accepted
      obtain ⟨_, _, accepted⟩ := accepted
      obtain ⟨_, _, _, _, _, shape⟩ := applyNext_ok_iff.mp accepted
      cases shape

end Werewolf.Governance
