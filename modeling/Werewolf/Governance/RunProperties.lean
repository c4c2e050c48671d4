import Werewolf.Governance.Run

/-! What every run guarantees about the keys behind an accepted statement, about
fork evidence for past sequences, and about the fields that never go back. -/

namespace Werewolf.Governance
open Library

variable {sequence : UInt64}

theorem present_of_error {crypto : Crypto} {head : Option Head} {statement : Statement} {pin : Option Hash}
    {failure : Failure} (rejected : apply crypto head statement pin = .error failure) :
    present crypto head (statement, pin) = head := by
  simp [present, rejected]

/-- Searching the stored epochs backwards finds the key set of the head as it
was just before the sequence, whatever was rotated since. -/
theorem Follows.keysBefore {crypto : Crypto} {past head : Head} (follows : Follows past head)
    (wellFormed : past.WellFormed crypto) (next : sequence.toNat = past.sequence.toNat + 1) :
    head.keysBefore sequence = past.keys := by
  obtain ⟨later, shape, after⟩ := follows.keyEpochs
  obtain ⟨epoch, last, inForce, _⟩ := wellFormed.keys
  have skipped : later.reverse.find? (fun epoch => epoch.1 < sequence) = none := by
    rw [List.find?_eq_none]
    intro candidate member
    have above := UInt64.lt_iff_toNat_lt.mp (after candidate (List.mem_reverse.mp member))
    rw [decide_eq_true_eq, UInt64.lt_iff_toNat_lt]
    omega
  have found : past.keyEpochs.reverse.find? (fun epoch => epoch.1 < sequence) = some epoch := by
    have settled := UInt64.le_iff_toNat_le.mp (wellFormed.epochsSettled epoch (List.mem_of_getLast? last))
    obtain ⟨older, split⟩ := List.getLast?_eq_some_iff.mp last
    have within : epoch.1 < sequence := by
      rw [UInt64.lt_iff_toNat_lt]
      omega
    rw [split, List.reverse_append, List.reverse_singleton, List.singleton_append]
    exact List.find?_cons_of_pos (by simpa using within)
  simp only [Head.keysBefore, shape, List.reverse_append, List.find?_append, skipped, found, Option.none_or, inForce]

/-- The key set in force just before a statement's sequence: a genesis brings
its own, any other statement is judged by the head of the run at the sequence
before it. -/
inductive InForce (crypto : Crypto) (presentations : List Presentation) (core : Core) :
    List Key → Prop where
  | genesis {threshold : UInt8} {keys : List Key}
      (unstarted : history crypto presentations = none)
      (body : core.body = .genesis threshold keys) : InForce crypto presentations core keys
  | settled {earlier later : List Presentation} {past : Head} {keys : List Key}
      (split : presentations = earlier ++ later) (reached : history crypto earlier = some past)
      (next : core.sequence.toNat = past.sequence.toNat + 1) (inForce : past.keys = .ok keys) :
      InForce crypto presentations core keys

theorem inForce_iff {crypto : Crypto} {presentations : List Presentation} {core : Core} {head : Head}
    (reached : history crypto presentations = some head) (afterGenesis : core.sequence ≠ 0)
    (within : core.sequence.toNat ≤ head.sequence.toNat + 1) (keys : List Key) :
    InForce crypto presentations core keys ↔ head.keysBefore core.sequence = .ok keys := by
  have positive : core.sequence.toNat ≠ 0 := fun zero => afterGenesis (UInt64.toNat.inj zero)
  constructor
  · intro inForce
    cases inForce with
    | genesis unstarted _ =>
      rw [reached] at unstarted
      cases unstarted
    | settled split passed next inForce =>
      subst split
      rw [(history_follows passed reached).keysBefore (history_wellFormed passed) next]
      exact inForce
  · intro remembered
    obtain ⟨earlier, later, past, split, passed, exact⟩ :=
      history_reaches reached (core.sequence.toNat - 1) (by omega)
    have next : core.sequence.toNat = past.sequence.toNat + 1 := by omega
    refine .settled split passed next ?_
    subst split
    rw [← (history_follows passed reached).keysBefore (history_wellFormed passed) next]
    exact remembered

theorem history_keysBefore {crypto : Crypto} {presentations : List Presentation} {head : Head}
    (reached : history crypto presentations = some head) (afterGenesis : sequence ≠ 0)
    (within : sequence.toNat ≤ head.sequence.toNat + 1) :
    ∃ keys, head.keysBefore sequence = .ok keys ∧ KeySet crypto keys := by
  have positive : sequence.toNat ≠ 0 := fun zero => afterGenesis (UInt64.toNat.inj zero)
  obtain ⟨earlier, later, past, split, passed, exact⟩ :=
    history_reaches reached (sequence.toNat - 1) (by omega)
  obtain ⟨epoch, _, inForce, keySet⟩ := (history_wellFormed passed).keys
  subst split
  refine ⟨epoch.2, ?_, keySet⟩
  rw [(history_follows passed reached).keysBefore (history_wellFormed passed) (by omega)]
  exact inForce

/-- At least seven distinct keys of the set each signed the statement, and no
signature it lists fails. -/
structure Attested (crypto : Crypto) (keys : List Key) (statement : Statement) : Prop where
  signers : ∃ signers : List Key, signers.Nodup ∧ thresholdCount ≤ signers.length ∧
    ∀ key ∈ signers, key ∈ keys ∧ ∃ entry ∈ statement.signatures,
      crypto.verifyStrict key statement.core.signingInput entry.2 = true
  noneFails : ∀ entry ∈ statement.signatures, ∃ key, keys[entry.1.toNat]? = some key ∧
    crypto.verifyStrict key statement.core.signingInput entry.2 = true

theorem KeySet.attested {crypto : Crypto} {keys : List Key} {statement : Statement}
    {threshold : UInt8} (keySet : KeySet crypto keys) (count : threshold.toNat = thresholdCount)
    (checked : checkSignatures crypto statement keys threshold.toNat = .ok ()) :
    Attested crypto keys statement := by
  rw [count, checkSignatures_ok_iff keySet.strong] at checked
  exact ⟨checked.signers keySet.distinct, checked.valid⟩

private theorem sequence_ne_zero {count : Nat} (next : sequence.toNat = count + 1) : sequence ≠ 0 := by
  rintro rfl
  simp at next

/-- Whatever statements were presented before, a statement that moves or fences
the head is attested by the key set in force just before its sequence. -/
theorem accepted_attested (crypto : Crypto) (presentations : List Presentation)
    (statement : Statement) (pin : Option Hash) (outcome : Outcome)
    (accepted : apply crypto (history crypto presentations) statement pin = .ok outcome)
    (effective : outcome ≠ .alreadyApplied) :
    (∃ keys, InForce crypto presentations statement.core keys) ∧
      ∀ keys, InForce crypto presentations statement.core keys →
        keys.length = keyCount ∧ Attested crypto keys statement := by
  cases reached : history crypto presentations with
  | none =>
      rw [reached] at accepted
      obtain ⟨threshold, keys, starts, _⟩ := applyGenesis_ok_iff.mp accepted
      obtain ⟨count, keySet⟩ := checkGenesis_ok starts.checked
      refine ⟨⟨keys, .genesis reached starts.body⟩, fun others inForce => ?_⟩
      cases inForce with
      | genesis _ body =>
          cases starts.body.symm.trans body
          exact ⟨keySet.count, keySet.attested count starts.signatures⟩
      | settled _ _ next _ => exact absurd starts.sequence (sequence_ne_zero next)
  | some head =>
      rw [reached] at accepted
      have wellFormed := history_wellFormed reached
      -- Both outcomes check the signatures against the keys remembered for the sequence.
      obtain ⟨keys, afterGenesis, within, inForce, signatures⟩ : ∃ keys, statement.core.sequence ≠ 0 ∧
            statement.core.sequence.toNat ≤ head.sequence.toNat + 1 ∧
            head.keysBefore statement.core.sequence = .ok keys ∧
            checkSignatures crypto statement keys head.threshold.toNat = .ok () := by
        cases outcome with
        | alreadyApplied => exact absurd rfl effective
        | applied next =>
            obtain ⟨keys, effect, advances, _⟩ := applyTo_applied accepted
            refine ⟨keys, sequence_ne_zero advances.sequence, advances.sequence.le, ?_, advances.signatures⟩
            rw [(Follows.refl head).keysBefore wellFormed advances.sequence]
            exact advances.inForce
        | fork fenced =>
            obtain ⟨keys, entry, conflicts, _⟩ := applyTo_fork accepted
            exact ⟨keys, conflicts.afterGenesis,
              Nat.le_succ_of_le (UInt64.le_iff_toNat_le.mp conflicts.settled), conflicts.inForce,
              conflicts.signatures⟩
      have same := inForce_iff reached afterGenesis within
      refine ⟨⟨keys, (same keys).mpr inForce⟩, fun others othersInForce => ?_⟩
      obtain ⟨remembered, found, keySet⟩ := history_keysBefore reached afterGenesis within
      cases found.symm.trans ((same others).mp othersInForce)
      cases found.symm.trans inForce
      exact ⟨keySet.count, keySet.attested wellFormed.threshold signatures⟩

namespace Sample

/-- A digest and a signature scheme that evaluate: a signature is the signing
key followed by bytes of its own. -/
def crypto : Crypto where
  blake3 input := ⟨beBytes 32 (input.foldl (fun digest byte => digest * 257 + byte.toNat) 0), length_beBytes 32 _⟩
  fromBytes _ := true
  isWeak _ := false
  verifyStrict key _ signature := signature.1.take 32 = key.1

def key (tag : UInt8) : Key := ⟨List.replicate 32 tag, rfl⟩

def signature (tag salt : UInt8) : Signature := ⟨(key tag).1 ++ List.replicate 32 salt, rfl⟩

def signedWith (salt : UInt8) (core : Core) : Statement :=
  { core := core
    signatures := [0, 1, 2, 3, 4, 5, 6].map (fun index => (index, signature index salt)) }

def keys : List Key := [0, 1, 2, 3, 4, 5, 6, 7, 8, 9].map key

def genesis : Core where
  networkId := ByteArr.zero 32
  sequence := 0
  previous := ByteArr.zero 32
  body := .genesis 7 keys

def pin : Option Hash := some (genesis.hash crypto)

def started : List Presentation := [(signedWith 0 genesis, pin)]

def following (previous : Core) (body : Body) : Core where
  networkId := ByteArr.zero 32
  sequence := previous.sequence + 1
  previous := previous.hash crypto
  body := body

def rotation : Core := following genesis (.rotation [(9, key 10)])

def rotatedRun : List Presentation := started ++ [(signedWith 0 rotation, none)]

def fencedRun : List Presentation :=
  rotatedRun ++ [(signedWith 0 (following genesis .activation), none)]

def ending : List Presentation := [(signedWith 0 (following rotation .death), none)]

theorem signedWith_signedBy (salt : UInt8) (core : Core) :
    SignedBy crypto keys thresholdCount (signedWith salt core) := by
  refine ⟨le_refl 7, by simp [signedWith], fun entry member => ?_⟩
  obtain ⟨index, listed, rfl⟩ := List.mem_map.mp member
  have found : ∀ index ∈ [0, 1, 2, 3, 4, 5, 6], keys[(index : UInt8).toNat]? = some (key index) := by
    decide +kernel
  exact ⟨key index, found index listed, by simp [crypto, signature, key]⟩

end Sample

open Sample

/-- The theorem at a rotation, which the keys it replaces must sign. -/
theorem rotation_attested : InForce crypto Sample.started rotation keys ∧
      Attested crypto keys (signedWith 0 rotation) := by
  have reached : history crypto Sample.started =
      some ((history crypto Sample.started).get (by decide +kernel)) := by simp
  have inForce : InForce crypto Sample.started rotation keys :=
    .settled (List.append_nil _).symm reached (by decide +kernel) (by decide +kernel)
  have accepted : apply crypto (history crypto Sample.started) (signedWith 0 rotation) none =
        .ok (.applied ((history crypto rotatedRun).get (by decide +kernel))) := by
    decide +kernel
  exact ⟨inForce, ((accepted_attested _ _ _ _ _ accepted (by simp)).2 _ inForce).2⟩

theorem Head.WellFormed.recorded {crypto : Crypto} {head : Head}
    (wellFormed : head.WellFormed crypto) (settled : sequence ≤ head.sequence) :
    ∃ entry, head.applied[sequence.toNat]? = some entry := by
  have within : sequence.toNat < head.applied.length := by
    rw [wellFormed.appliedLength]
    exact Nat.lt_succ_of_le (UInt64.le_iff_toNat_le.mp settled)
  exact ⟨_, List.getElem?_eq_getElem within⟩

/-- A different statement at an applied sequence fences the head exactly when
the keys in force at that point of the run signed it, whatever was rotated
since; any other is rejected and changes nothing. -/
theorem fork_iff_signed (crypto : Crypto) (presentations : List Presentation) (head : Head) (statement : Statement)
    (pin : Option Hash) (reached : history crypto presentations = some head) (unforked : head.forked = false)
    (alive : head.deadAt = none) (network : statement.core.networkId = head.networkId)
    (afterGenesis : 1 ≤ statement.core.sequence) (settled : statement.core.sequence ≤ head.sequence)
    (different : head.applied[statement.core.sequence.toNat]? ≠ some (statement.core.hash crypto)) :
    (∃ keys, InForce crypto presentations statement.core keys) ∧
      ∀ keys, InForce crypto presentations statement.core keys →
        ((∃ fenced, apply crypto (some head) statement pin = .ok (.fork fenced)) ↔
          SignedBy crypto keys thresholdCount statement) ∧
        (¬ SignedBy crypto keys thresholdCount statement →
          (∃ error, apply crypto (some head) statement pin = .error (.rejected error)) ∧
            present crypto (some head) (statement, pin) = some head) := by
  have wellFormed := history_wellFormed reached
  have positive : statement.core.sequence ≠ 0 := by
    rintro zero
    rw [zero] at afterGenesis
    exact absurd afterGenesis (by decide)
  have within : statement.core.sequence.toNat ≤ head.sequence.toNat + 1 :=
    Nat.le_succ_of_le (UInt64.le_iff_toNat_le.mp settled)
  have same := inForce_iff reached positive within
  obtain ⟨keys, inForce, keySet⟩ := history_keysBefore reached positive within
  refine ⟨⟨keys, (same keys).mpr inForce⟩, fun others othersInForce => ?_⟩
  cases inForce.symm.trans ((same others).mp othersInForce)
  obtain ⟨entry, recorded⟩ := wellFormed.recorded settled
  have mismatch : entry ≠ statement.core.hash crypto := by
    rintro rfl
    exact different recorded
  have signed := checkSignatures_ok_iff keySet.strong thresholdCount statement
  have evaluated : apply crypto (some head) statement pin = (do
      checkSignatures crypto statement keys thresholdCount
      return .fork { head with forked := true }) := by
    simp only [apply, applyTo, applySettled, alive, unforked, network, settled, recorded, mismatch,
      positive, inForce, wellFormed.threshold, Option.isSome_none, Bool.false_and, ne_eq,
      not_true_eq_false, ↓reduceIte, Bool.false_eq_true]
    rfl
  constructor
  · simp only [evaluated, bind_eq_ok, return_eq_ok, ← signed]
    constructor
    · rintro ⟨_, _, checked, _⟩
      exact checked
    · exact fun checked => ⟨_, (), checked, rfl⟩
  · intro unsigned
    cases outcome : checkSignatures crypto statement keys thresholdCount with
    | ok _ => exact absurd (signed.mp outcome) unsigned
    | error failure =>
        cases checkSignatures_error outcome
        rw [outcome] at evaluated
        exact ⟨⟨_, evaluated⟩, present_of_error evaluated⟩

/-- Fork evidence about the rotated sequence is judged by the keys before it. -/
theorem fork_evidence_at_rotation : ∃ fenced, apply crypto (history crypto rotatedRun)
      (signedWith 0 (following Sample.genesis .activation)) none = .ok (.fork fenced) := by
  have reached : history crypto rotatedRun = some ((history crypto rotatedRun).get (by decide +kernel)) := by simp
  obtain ⟨⟨keys, inForce⟩, decided⟩ := fork_iff_signed crypto rotatedRun _
    (signedWith 0 (following Sample.genesis .activation)) none reached
    (by decide +kernel) (by decide +kernel) (by decide +kernel) (by decide +kernel)
    (by decide +kernel) (by decide +kernel)
  have same : keys = Sample.keys := by
    have remembered := (inForce_iff reached (by decide) (by decide +kernel) keys).mp inForce
    have found : ((history crypto rotatedRun).get (by decide +kernel)).keysBefore 1 =
        .ok Sample.keys := by decide +kernel
    exact Except.ok.inj (remembered.symm.trans found)
  rw [reached]
  exact (decided keys inForce).1.mpr (same ▸ signedWith_signedBy 0 _)

theorem Head.WellFormed.refuses_revoked {crypto : Crypto} {head : Head}
    (wellFormed : head.WellFormed crypto) {key : Key} (revoked : key ∈ head.revoked)
    (activated : head.activatedAt.isSome = true) : head.admits key = false := by
  have found := (binarySearch_isOk_iff wellFormed.revokedSorted key).mpr revoked
  simp [Head.admits, found, activated]

theorem Head.WellFormed.apply_dead {crypto : Crypto} {head : Head} (wellFormed : head.WellFormed crypto)
    (dead : head.deadAt.isSome = true) (statement : Statement) (pin : Option Hash) :
    apply crypto (some head) statement pin = .ok .alreadyApplied ∨
      apply crypto (some head) statement pin = .error (.rejected .terminal) := by
  simp only [apply, applyTo, dead, ↓reduceIte, applyDead]
  split
  · rename_i settled
    obtain ⟨entry, recorded⟩ := wellFormed.recorded settled
    simp only [recorded]
    split
    · exact .inl rfl
    · exact .inr rfl
  · exact .inr rfl

/-- What holds at a later point of any run, given an earlier one. -/
theorem history_never_goes_back (crypto : Crypto) (earlier later : List Presentation) (past : Head)
    (reached : history crypto earlier = some past) :
    ∃ head, history crypto (earlier ++ later) = some head ∧
      (∀ key ∈ past.revoked, key ∈ head.revoked ∧ key ∉ head.roster ∧
        (head.activatedAt.isSome = true → head.admits key = false)) ∧
      (∀ sequence, past.activatedAt = some sequence → head.activatedAt = some sequence) ∧
      past.applied <+: head.applied ∧
      (past.forked = true → head.forked = true) ∧
      (head.forked = true → ∀ statement pin, (∀ fenced, apply crypto (some head) statement pin ≠ .ok (.fork fenced)) ∧
        ∀ next, apply crypto (some head) statement pin = .ok (.applied next) →
          statement.core.body = .death ∧ statement.core.previous = head.hash ∧
            statement.core.sequence.toNat = head.sequence.toNat + 1) ∧
      (past.deadAt.isSome = true → ∀ statement pin,
        apply crypto (some head) statement pin = .ok .alreadyApplied ∨
          apply crypto (some head) statement pin = .error (.rejected .terminal)) ∧
      ∀ statement pin fenced, apply crypto (some head) statement pin = .ok (.fork fenced) →
        fenced = { head with forked := true } := by
  obtain ⟨head, continued, follows⟩ := run_follows (history_wellFormed reached) later
  have finished : history crypto (earlier ++ later) = some head := by
    rw [history, run_append, ← history, reached, continued]
  have wellFormed := history_wellFormed finished
  refine ⟨head, finished, ?_, follows.activatedAt, follows.applied, follows.forked, ?_, ?_, ?_⟩
  · intro key revoked
    have kept := follows.revoked revoked
    exact ⟨kept, fun listed => wellFormed.rosterUnrevoked key listed kept, wellFormed.refuses_revoked kept⟩
  · intro forked statement pin
    constructor
    · intro fenced accepted
      obtain ⟨_, _, conflicts, _⟩ := applyTo_fork accepted
      rw [conflicts.unforked] at forked
      cases forked
    · intro next accepted
      obtain ⟨_, _, advances, _⟩ := applyTo_applied accepted
      exact ⟨advances.fenced forked, advances.previous, advances.sequence⟩
  · intro ended statement pin
    cases follows.dead ended
    exact wellFormed.apply_dead ended statement pin
  · intro statement pin fenced accepted
    obtain ⟨_, _, _, same⟩ := applyTo_fork accepted
    exact same

/-- From a fenced head to its death. -/
theorem fenced_run_never_goes_back : ∃ past head, history crypto fencedRun = some past ∧ past.forked = true ∧
      history crypto (fencedRun ++ Sample.ending) = some head ∧
      head.deadAt = some 2 ∧ head.forked = true ∧ past.applied <+: head.applied := by
  have reached : history crypto fencedRun = some ((history crypto fencedRun).get (by decide +kernel)) := by simp
  have forked : ((history crypto fencedRun).get (by decide +kernel)).forked = true := by
    decide +kernel
  obtain ⟨head, finished, _, _, grows, kept, _⟩ :=
    history_never_goes_back crypto fencedRun Sample.ending _ reached
  have ended : (history crypto (fencedRun ++ Sample.ending)).bind (·.deadAt) = some 2 := by decide +kernel
  rw [finished] at ended
  exact ⟨_, head, reached, forked, finished, ended, kept forked, grows⟩

end Werewolf.Governance
