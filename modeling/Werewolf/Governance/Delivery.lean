import Werewolf.Governance.RunProperties

/-! Delivery of an accepted chain in any order, with repetitions and with other
signature sets. A node that is offered such statements behaves as a counter of
the next expected sequence. -/

namespace Werewolf.Governance
open Library

variable {count position : Nat} {chain : List Statement} {statement : Statement}

/-- The abstract receiver: it takes exactly the sequence it expects. -/
def expect (count sequence : Nat) : Nat :=
  if sequence = count then count + 1 else count

theorem le_expect (count sequence : Nat) : count ≤ expect count sequence := by
  unfold expect
  split <;> omega

theorem le_run_expect (count : Nat) (sequences : List Nat) : count ≤ run expect count sequences :=
  run_related (fun _ => True) (· ≤ ·) Nat.le_refl Nat.le_trans (fun _ _ _ => trivial)
    (fun count sequence _ => le_expect count sequence) trivial sequences

theorem run_expect_of_sublist {sequences : List Nat} {start length : Nat} (behind : start ≤ count)
    (contained : (List.range' start length).Sublist sequences) :
    start + length ≤ run expect count sequences := by
  induction sequences generalizing start length count with
  | nil =>
    have empty : length = 0 := by simpa using contained
    simpa [empty] using behind
  | cons sequence rest ih =>
    cases length with
    | zero => exact behind.trans (le_run_expect count _)
    | succ length =>
      rw [List.range'_succ] at contained
      cases contained with
      | cons _ later => exact ih (behind.trans (le_expect count sequence)) later
      | cons_cons _ later =>
        have passed : sequence + 1 ≤ expect count sequence := by
          unfold expect
          split <;> omega
        have reached := ih passed later
        rw [run_cons]
        omega

def deliver (crypto : Crypto) (pin : Option Hash) (head : Option Head) (statement : Statement) : Option Head :=
  present crypto head (statement, pin)

def deliverAll (crypto : Crypto) (pin : Option Hash) (statements : List Statement) : Option Head :=
  run (deliver crypto pin) none statements

theorem deliverAll_eq_history (crypto : Crypto) (pin : Option Hash) (statements : List Statement) :
    deliverAll crypto pin statements = history crypto (statements.map (·, pin)) := by
  simp only [deliverAll, history, run, List.foldl_map]
  rfl

@[simp] theorem deliverAll_snoc (crypto : Crypto) (pin : Option Hash)
    (statements : List Statement) (statement : Statement) :
    deliverAll crypto pin (statements ++ [statement]) =
      deliver crypto pin (deliverAll crypto pin statements) statement := by
  simp [deliverAll]

def AcceptedInOrder (crypto : Crypto) (pin : Option Hash) (chain : List Statement) : Prop :=
  ∀ position statement, chain[position]? = some statement →
    ∃ next, apply crypto (deliverAll crypto pin (chain.take position)) statement pin = .ok (.applied next)

def signingKeys (head : Option Head) (core : Core) : Except Failure (List Key) :=
  match head, core.body with
  | some head, _ => head.keys
  | none, .genesis _ keys => .ok keys
  | none, _ => .error (.rejected .noGenesis)

/-- The delivery carries the core of a statement of the chain, with a signature
set of its own that is valid at that point of the chain. -/
structure Redelivers (crypto : Crypto) (pin : Option Hash) (chain : List Statement)
    (position : Nat) (delivery : Statement) : Prop where
  statement : ∃ statement, chain[position]? = some statement ∧ delivery.core = statement.core
  signatures : ∃ keys,
    signingKeys (deliverAll crypto pin (chain.take position)) delivery.core = .ok keys ∧
      SignedBy crypto keys thresholdCount delivery

theorem AcceptedInOrder.step {crypto : Crypto} {pin : Option Hash}
    (accepted : AcceptedInOrder crypto pin chain) (found : chain[position]? = some statement) :
    ∃ next, apply crypto (deliverAll crypto pin (chain.take position)) statement pin = .ok (.applied next) ∧
      deliverAll crypto pin (chain.take (position + 1)) = some next := by
  obtain ⟨next, applied⟩ := accepted position statement found
  refine ⟨next, applied, ?_⟩
  rw [List.take_add_one, found, Option.toList_some, deliverAll_snoc]
  simp [deliver, present, applied]

structure PrefixHead (crypto : Crypto) (chain : List Statement) (count : Nat) (head : Head) :
    Prop where
  sequence : head.sequence.toNat + 1 = count
  appliedLength : head.applied.length = count
  recorded : ∀ position statement, position < count → chain[position]? = some statement →
    head.applied[position]? = some (statement.core.hash crypto) ∧
      statement.core.sequence.toNat = position ∧ statement.core.networkId = head.networkId
  unforked : head.forked = false

theorem AcceptedInOrder.prefixHead {crypto : Crypto} {pin : Option Hash}
    (accepted : AcceptedInOrder crypto pin chain) (within : count < chain.length) :
    ∃ head, deliverAll crypto pin (chain.take (count + 1)) = some head ∧
      PrefixHead crypto chain (count + 1) head := by
  induction count with
  | zero =>
    obtain ⟨next, applied, reached⟩ := accepted.step (List.getElem?_eq_getElem within)
    obtain ⟨threshold, keys, starts, shape⟩ := applyGenesis_ok_iff.mp applied
    cases shape
    refine ⟨_, reached, rfl, rfl, fun position statement first found => ?_, rfl⟩
    cases Nat.lt_one_iff.mp first
    cases (List.getElem?_eq_getElem within).symm.trans found
    exact ⟨rfl, by simp [starts.sequence], rfl⟩
  | succ count ih =>
    obtain ⟨before, beforeReached, known⟩ := ih (Nat.lt_of_succ_lt within)
    obtain ⟨next, applied, reached⟩ := accepted.step (List.getElem?_eq_getElem within)
    rw [beforeReached] at applied
    obtain ⟨keys, effect, advances, rfl⟩ := applyTo_applied applied
    have wellFormed : before.WellFormed crypto :=
      history_wellFormed ((deliverAll_eq_history ..).symm.trans beforeReached)
    have changed := advances.extends wellFormed
    have counted := known.sequence
    have size : effect.applied.length = count + 1 := changed.applied ▸ known.appliedLength
    refine ⟨_, reached, ?_, by simp [Head.advance, size], ?_, changed.forked.trans known.unforked⟩
    · simp only [Head.advance, advances.sequence]
      omega
    · intro position statement below found
      rcases Nat.lt_or_eq_of_le (Nat.le_of_lt_succ below) with earlier | rfl
      · obtain ⟨recorded, numbered, network⟩ := known.recorded position statement earlier found
        refine ⟨?_, numbered, network.trans changed.networkId.symm⟩
        simp only [Head.advance]
        rw [List.getElem?_append_left (size ▸ earlier), changed.applied, recorded]
      · cases (List.getElem?_eq_getElem within).symm.trans found
        refine ⟨?_, by rw [advances.sequence, counted], advances.network.trans changed.networkId.symm⟩
        simp [Head.advance, size]

theorem AcceptedInOrder.numbered {crypto : Crypto} {pin : Option Hash}
    (accepted : AcceptedInOrder crypto pin chain) (found : chain[position]? = some statement) :
    statement.core.sequence.toNat = position := by
  obtain ⟨within, _⟩ := List.getElem?_eq_some_iff.mp found
  obtain ⟨head, _, known⟩ := accepted.prefixHead within
  exact (known.recorded position statement (Nat.lt_succ_self _) found).2.1

theorem applyTo_recorded {crypto : Crypto} {head : Head} (unforked : head.forked = false)
    (settled : statement.core.sequence ≤ head.sequence)
    (recorded : head.applied[statement.core.sequence.toNat]? = some (statement.core.hash crypto))
    (network : statement.core.networkId = head.networkId) :
    applyTo crypto head statement = .ok .alreadyApplied := by
  unfold applyTo
  split
  · simp [applyDead, settled, recorded, network]
  · simp [applySettled, unforked, settled, recorded, network]

theorem applyTo_gap {crypto : Crypto} {head : Head} (gap : head.sequence.toNat + 1 < statement.core.sequence.toNat) :
    ∃ failure, applyTo crypto head statement = .error failure := by
  have above : ¬ statement.core.sequence ≤ head.sequence := by
    rw [UInt64.le_iff_toNat_le]
    omega
  have notNext : statement.core.sequence ≠ head.sequence + 1 := by
    intro next
    rw [next, UInt64.toNat_add, UInt64.toNat_one] at gap
    omega
  simp only [applyTo, applyDead, above, notNext, ↓reduceIte, ne_eq, not_false_eq_true]
  split
  · exact ⟨_, rfl⟩
  · split
    · exact ⟨_, rfl⟩
    · split <;> exact ⟨_, rfl⟩

theorem apply_resigned {crypto : Crypto} {head : Option Head} {delivery : Statement} {pin : Option Hash} {next : Head}
    {keys : List Key} (wellFormed : ∀ before ∈ head, before.WellFormed crypto)
    (applied : apply crypto head statement pin = .ok (.applied next)) (core : delivery.core = statement.core)
    (inForce : signingKeys head delivery.core = .ok keys) (signed : SignedBy crypto keys thresholdCount delivery) :
    apply crypto head delivery pin = .ok (.applied next) := by
  cases head with
  | none =>
    obtain ⟨threshold, own, starts, shape⟩ := applyGenesis_ok_iff.mp applied
    cases shape
    obtain ⟨count, keySet⟩ := checkGenesis_ok starts.checked
    simp only [signingKeys, core, starts.body, Except.ok.injEq] at inForce
    subst inForce
    rw [← checkSignatures_ok_iff keySet.strong, ← count] at signed
    refine applyGenesis_ok_iff.mpr ⟨threshold, own, ?_, by rw [core]⟩
    exact ⟨core ▸ starts.body, core ▸ starts.sequence, core ▸ starts.previous,
      core ▸ starts.pinned, starts.checked, signed⟩
  | some before =>
    obtain ⟨current, effect, advances, rfl⟩ := applyTo_applied applied
    have beforeWellFormed := wellFormed before rfl
    obtain ⟨epoch, _, found, keySet⟩ := beforeWellFormed.keys
    cases found.symm.trans inForce
    rw [← checkSignatures_ok_iff keySet.strong, ← beforeWellFormed.threshold] at signed
    rw [← core]
    exact Advances.applyTo ⟨advances.alive, core ▸ advances.fenced, core ▸ advances.network,
      core ▸ advances.sequence, core ▸ advances.previous, found, signed, core ▸ advances.body⟩

theorem AcceptedInOrder.deliver {crypto : Crypto} {pin : Option Hash}
    (accepted : AcceptedInOrder crypto pin chain) {delivery : Statement}
    (within : count ≤ chain.length) (redelivers : Redelivers crypto pin chain position delivery) :
    (∀ fenced, apply crypto (deliverAll crypto pin (chain.take count)) delivery pin ≠
      .ok (.fork fenced)) ∧ expect count position ≤ chain.length ∧
      deliver crypto pin (deliverAll crypto pin (chain.take count)) delivery =
        deliverAll crypto pin (chain.take (expect count position)) := by
  obtain ⟨statement, found, core⟩ := redelivers.statement
  obtain ⟨keys, inForce, signed⟩ := redelivers.signatures
  have numbered : delivery.core.sequence.toNat = position := core ▸ accepted.numbered found
  obtain ⟨inside, _⟩ := List.getElem?_eq_some_iff.mp found
  rcases Nat.lt_trichotomy position count with past | rfl | future
  · -- The sequence is settled: the recorded hash is that of the same core.
    have stays : expect count position = count := if_neg (Nat.ne_of_lt past)
    obtain ⟨last, rfl⟩ := Nat.exists_eq_succ_of_ne_zero (Nat.ne_zero_of_lt past)
    obtain ⟨head, reached, known⟩ := accepted.prefixHead (Nat.lt_of_succ_le within)
    obtain ⟨recorded, _, network⟩ := known.recorded position statement past found
    rw [← core] at recorded network
    have settled : delivery.core.sequence ≤ head.sequence := by
      have counted := known.sequence
      rw [UInt64.le_iff_toNat_le, numbered]
      omega
    have repeated : apply crypto (some head) delivery pin = .ok .alreadyApplied :=
      applyTo_recorded known.unforked settled (numbered.symm ▸ recorded) network
    rw [stays, reached, Governance.deliver, present, repeated]
    exact ⟨by simp, within, rfl⟩
  · have moves : expect position position = position + 1 := if_pos rfl
    obtain ⟨next, applied, reached⟩ := accepted.step found
    have wellFormed : ∀ before ∈ deliverAll crypto pin (chain.take position),
        before.WellFormed crypto := fun before known =>
      history_wellFormed ((deliverAll_eq_history ..).symm.trans known)
    have resigned := apply_resigned wellFormed applied core inForce signed
    rw [moves, reached, Governance.deliver, present, resigned]
    exact ⟨by simp, inside, rfl⟩
  · -- The statement is ahead of the head, or there is no head yet.
    have stays : expect count position = count := if_neg (Nat.ne_of_gt future)
    obtain ⟨failure, refused⟩ : ∃ failure,
        apply crypto (deliverAll crypto pin (chain.take count)) delivery pin = .error failure := by
      cases count with
      | zero =>
        cases outcome : apply crypto (deliverAll crypto pin (chain.take 0)) delivery pin with
        | error failure => exact ⟨failure, rfl⟩
        | ok outcome' =>
          obtain ⟨_, _, starts, _⟩ := applyGenesis_ok_iff.mp outcome
          rw [starts.sequence] at numbered
          exact absurd numbered (Nat.ne_of_lt future)
      | succ last =>
        obtain ⟨head, reached, known⟩ := accepted.prefixHead (Nat.lt_of_succ_le within)
        rw [reached]
        exact applyTo_gap (by rw [known.sequence, numbered]; exact future)
    rw [stays, Governance.deliver, present, refused]
    exact ⟨by simp, within, rfl⟩

def progress (deliveries : List Statement) : Nat :=
  run expect 0 (deliveries.map (·.core.sequence.toNat))

theorem progress_snoc (deliveries : List Statement) (delivery : Statement) : progress (deliveries ++ [delivery]) =
      expect (progress deliveries) delivery.core.sequence.toNat := by
  simp [progress]

theorem AcceptedInOrder.deliverAll {crypto : Crypto} {pin : Option Hash}
    (accepted : AcceptedInOrder crypto pin chain) {deliveries : List Statement}
    (drawn : ∀ delivery ∈ deliveries, ∃ position, Redelivers crypto pin chain position delivery) :
    progress deliveries ≤ chain.length ∧ deliverAll crypto pin deliveries =
        deliverAll crypto pin (chain.take (progress deliveries)) := by
  induction deliveries using List.reverseRecOn with
  | nil => exact ⟨Nat.zero_le _, rfl⟩
  | append_singleton deliveries delivery ih =>
    obtain ⟨within, reached⟩ := ih (fun other member => drawn other (List.mem_append_left _ member))
    obtain ⟨position, redelivers⟩ := drawn delivery (by simp)
    obtain ⟨statement, found, core⟩ := redelivers.statement
    have numbered : delivery.core.sequence.toNat = position := core ▸ accepted.numbered found
    obtain ⟨_, bounded, moved⟩ := accepted.deliver within redelivers
    rw [progress_snoc, numbered, deliverAll_snoc, reached]
    exact ⟨bounded, moved⟩

theorem AcceptedInOrder.sequences {crypto : Crypto} {pin : Option Hash}
    (accepted : AcceptedInOrder crypto pin chain) :
    chain.map (·.core.sequence.toNat) = List.range' 0 chain.length := by
  apply List.ext_getElem (by simp)
  intro position inside _
  rw [List.length_map] at inside
  rw [List.getElem_map, List.getElem_range', accepted.numbered (List.getElem?_eq_getElem inside)]
  omega

/-- Deliveries drawn from an accepted chain only ever move the head along it,
and those that contain the chain bring it to the end. -/
theorem deliveries_converge (crypto : Crypto) (pin : Option Hash)
    (chain deliveries : List Statement) (accepted : AcceptedInOrder crypto pin chain)
    (drawn : ∀ delivery ∈ deliveries, ∃ position, Redelivers crypto pin chain position delivery) :
    ∃ reached : Nat → Nat, Monotone reached ∧ (∀ count, reached count ≤ chain.length ∧
        deliverAll crypto pin (deliveries.take count) = deliverAll crypto pin (chain.take (reached count))) ∧
      (∀ before delivery after, deliveries = before ++ delivery :: after →
        (∀ fenced, apply crypto (deliverAll crypto pin before) delivery pin ≠ .ok (.fork fenced)) ∧
        ((∃ failure, apply crypto (deliverAll crypto pin before) delivery pin = .error failure) ∨
            apply crypto (deliverAll crypto pin before) delivery pin = .ok .alreadyApplied →
          deliverAll crypto pin (before ++ [delivery]) = deliverAll crypto pin before)) ∧
      ((chain.map (·.core)).Sublist (deliveries.map (·.core)) →
        deliverAll crypto pin deliveries = deliverAll crypto pin chain) := by
  refine ⟨fun count => progress (deliveries.take count), ?_, ?_, ?_, ?_⟩
  · apply monotone_nat_of_le_succ
    intro count
    simp only [progress, List.take_add_one, List.map_append, run_append]
    exact le_run_expect _ _
  · exact fun count => accepted.deliverAll (fun delivery member => drawn delivery (List.mem_of_mem_take member))
  · intro before delivery after split
    obtain ⟨within, reached⟩ := accepted.deliverAll
      (fun other member => drawn other (by rw [split]; exact List.mem_append_left _ member))
    obtain ⟨position, redelivers⟩ := drawn delivery (by simp [split])
    refine ⟨reached ▸ (accepted.deliver within redelivers).1, fun unchanged => ?_⟩
    rw [deliverAll_snoc, deliver, present]
    rcases unchanged with ⟨failure, refused⟩ | repeated
    · rw [refused]
    · rw [repeated]
  · intro contained
    obtain ⟨within, reached⟩ := accepted.deliverAll drawn
    have sequences : (List.range' 0 chain.length).Sublist (deliveries.map (·.core.sequence.toNat)) := by
      have mapped := contained.map (·.sequence.toNat)
      rw [List.map_map, List.map_map] at mapped
      rw [← accepted.sequences]
      exact mapped
    have complete : chain.length ≤ progress deliveries :=
      Nat.zero_add chain.length ▸ run_expect_of_sublist (Nat.le_refl 0) sequences
    rw [reached, List.take_of_length_le complete]

open Sample

/-- A rotation that arrives early, then its genesis twice, then the rotation
again, each with signatures of its own. -/
theorem shuffled_deliveries_converge : deliverAll crypto pin [signedWith 3 Sample.rotation,
        signedWith 1 Sample.genesis, signedWith 2 Sample.genesis,
        signedWith 4 Sample.rotation] =
      deliverAll crypto pin [signedWith 0 Sample.genesis, signedWith 0 Sample.rotation] := by
  have accepted : AcceptedInOrder crypto pin [signedWith 0 Sample.genesis, signedWith 0 Sample.rotation] := by
    intro position statement found
    match position, found with
    | 0, found =>
        cases found
        exact ⟨(deliverAll crypto pin [signedWith 0 Sample.genesis]).get (by decide +kernel), by decide +kernel⟩
    | 1, found =>
        cases found
        exact ⟨(deliverAll crypto pin [signedWith 0 Sample.genesis,
          signedWith 0 Sample.rotation]).get (by decide +kernel), by decide +kernel⟩
  have genesis (salt : UInt8) : Redelivers crypto pin [signedWith 0 Sample.genesis, signedWith 0 Sample.rotation] 0
      (signedWith salt Sample.genesis) :=
    ⟨⟨_, rfl, rfl⟩, keys, rfl, signedWith_signedBy salt _⟩
  have inForce : signingKeys (deliverAll crypto pin [signedWith 0 Sample.genesis]) Sample.rotation = .ok keys := by
    decide +kernel
  have rotation (salt : UInt8) : Redelivers crypto pin [signedWith 0 Sample.genesis, signedWith 0 Sample.rotation] 1
      (signedWith salt Sample.rotation) :=
    ⟨⟨_, rfl, rfl⟩, keys, inForce, signedWith_signedBy salt _⟩
  obtain ⟨_, _, _, _, complete⟩ := deliveries_converge _ _ _ [signedWith 3 Sample.rotation,
    signedWith 1 Sample.genesis, signedWith 2 Sample.genesis,
    signedWith 4 Sample.rotation] accepted (by
      simp only [List.mem_cons, List.not_mem_nil, or_false]
      rintro delivery (rfl | rfl | rfl | rfl)
      · exact ⟨1, rotation 3⟩
      · exact ⟨0, genesis 1⟩
      · exact ⟨0, genesis 2⟩
      · exact ⟨1, rotation 4⟩)
  exact complete (by decide +kernel)

end Werewolf.Governance
