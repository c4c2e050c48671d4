import Mathlib.Data.List.Induction
import Werewolf.Governance.WellFormed
import Werewolf.Library.Transition

/-! Runs of `apply`: any list of statements presented to a node, in any order
and with any repetition. A node keeps the head of an applied statement and the
fenced head of a fork, and nothing else changes its head. -/

namespace Werewolf.Governance
open Library

variable {statement : Statement}

abbrev Presentation := Statement × Option Hash

def present (crypto : Crypto) (head : Option Head) (presentation : Presentation) : Option Head :=
  match apply crypto head presentation.1 presentation.2 with
  | .ok (.applied next) => some next
  | .ok (.fork fenced) => some fenced
  | _ => head

def history (crypto : Crypto) (presentations : List Presentation) : Option Head :=
  run (present crypto) none presentations

variable {presentations : List Presentation}

theorem history_snoc_applied {crypto : Crypto} {pin : Option Hash} {next : Head}
    (accepted : apply crypto (history crypto presentations) statement pin = .ok (.applied next)) :
    history crypto (presentations ++ [(statement, pin)]) = some next := by
  rw [history, run_append]
  simp only [run_cons, run_nil, present]
  rw [history] at accepted
  rw [accepted]

theorem present_cases (crypto : Crypto) (head : Option Head) (statement : Statement) (pin : Option Hash) :
    present crypto head (statement, pin) = head ∨
    (∃ threshold keys, head = none ∧ Starts crypto statement pin threshold keys ∧
      present crypto head (statement, pin) = some (Head.initial crypto statement.core threshold keys)) ∨
    (∃ before keys effect, head = some before ∧ Advances crypto before statement keys effect ∧
      present crypto head (statement, pin) = some (effect.advance crypto statement.core)) ∨
    (∃ before keys entry, head = some before ∧ Conflicts crypto before statement keys entry ∧
      present crypto head (statement, pin) = some { before with forked := true }) := by
  unfold present
  cases outcome : apply crypto head statement pin with
  | error failure => exact .inl rfl
  | ok outcome' =>
    cases head with
    | none =>
      obtain ⟨threshold, keys, starts, rfl⟩ := applyGenesis_ok_iff.mp outcome
      exact .inr (.inl ⟨threshold, keys, rfl, starts, rfl⟩)
    | some before =>
      cases outcome' with
      | alreadyApplied => exact .inl rfl
      | applied next =>
        obtain ⟨keys, effect, advances, rfl⟩ := applyTo_applied outcome
        exact .inr (.inr (.inl ⟨before, keys, effect, rfl, advances, rfl⟩))
      | fork fenced =>
        obtain ⟨keys, entry, conflicts, rfl⟩ := applyTo_fork outcome
        exact .inr (.inr (.inr ⟨before, keys, entry, rfl, conflicts, rfl⟩))

theorem present_wellFormed {crypto : Crypto} (head : Option Head) (presentation : Presentation)
    (wellFormed : ∀ before ∈ head, before.WellFormed crypto) :
    ∀ after ∈ present crypto head presentation, after.WellFormed crypto := by
  obtain ⟨statement, pin⟩ := presentation
  intro after reached
  rcases present_cases crypto head statement pin with same | ⟨_, _, _, starts, started⟩ |
      ⟨before, _, _, rfl, advances, advanced⟩ | ⟨before, _, _, rfl, _, fenced⟩
  · exact wellFormed after (same ▸ reached)
  · rw [started, Option.mem_some_iff] at reached
    exact reached ▸ Head.initial_wellFormed starts
  · rw [advanced, Option.mem_some_iff] at reached
    exact reached ▸ advances.wellFormed (wellFormed before rfl)
  · rw [fenced, Option.mem_some_iff] at reached
    exact reached ▸ (wellFormed before rfl).forked true

theorem history_wellFormed {crypto : Crypto} {head : Head}
    (reached : history crypto presentations = some head) : head.WellFormed crypto :=
  run_invariant (fun state => ∀ before ∈ state, before.WellFormed crypto)
    present_wellFormed (by simp) presentations head reached

/-- What a later head owes to an earlier one. -/
structure Follows (past head : Head) : Prop where
  networkId : head.networkId = past.networkId
  sequence : past.sequence ≤ head.sequence
  keyEpochs : ∃ later, head.keyEpochs = past.keyEpochs ++ later ∧
    ∀ epoch ∈ later, past.sequence < epoch.1
  applied : past.applied <+: head.applied
  revoked : past.revoked ⊆ head.revoked
  activatedAt : ∀ sequence ∈ past.activatedAt, sequence ∈ head.activatedAt
  forked : past.forked = true → head.forked = true
  dead : past.deadAt.isSome = true → head = past

theorem Follows.refl (head : Head) : Follows head head :=
  ⟨rfl, UInt64.le_refl _, ⟨[], by simp, by simp⟩, List.prefix_refl _, List.Subset.refl _,
    fun _ => id, id, fun _ => rfl⟩

theorem Follows.trans {first second third : Head} (before : Follows first second)
    (after : Follows second third) : Follows first third where
  networkId := after.networkId.trans before.networkId
  sequence := UInt64.le_trans before.sequence after.sequence
  keyEpochs := by
    obtain ⟨middle, middleShape, middleLater⟩ := before.keyEpochs
    obtain ⟨last, lastShape, lastLater⟩ := after.keyEpochs
    refine ⟨middle ++ last, by rw [lastShape, middleShape, List.append_assoc], ?_⟩
    intro epoch member
    rcases List.mem_append.mp member with inMiddle | inLast
    · exact middleLater epoch inMiddle
    · exact UInt64.lt_of_le_of_lt before.sequence (lastLater epoch inLast)
  applied := before.applied.trans after.applied
  revoked := List.Subset.trans before.revoked after.revoked
  activatedAt sequence marked := after.activatedAt sequence (before.activatedAt sequence marked)
  forked flag := after.forked (before.forked flag)
  dead ended := by
    have same := before.dead ended
    subst same
    exact after.dead ended

theorem Advances.follows {crypto : Crypto} {head effect : Head} {keys : List Key}
    (advances : Advances crypto head statement keys effect) (wellFormed : head.WellFormed crypto) :
    Follows head (effect.advance crypto statement.core) := by
  have changed := advances.extends wellFormed
  refine ⟨changed.networkId, UInt64.le_of_lt advances.above, ?_, ?_, changed.revoked, ?_, ?_, ?_⟩
  · rcases changed.keyEpochs with same | ⟨added, _, extended⟩
    · exact ⟨[], by simpa [Head.advance] using same, by simp⟩
    · refine ⟨[(statement.core.sequence, added)], extended, ?_⟩
      intro epoch member
      cases List.mem_singleton.mp member
      exact advances.above
  · simp [Head.advance, changed.applied]
  · intro sequence marked
    rcases changed.activatedAt with same | ⟨inactive, _⟩
    · exact same ▸ marked
    · rw [inactive] at marked
      cases marked
  · exact fun flag => changed.forked.trans flag
  · intro ended
    simp [advances.alive] at ended

theorem Conflicts.follows {crypto : Crypto} {head : Head} {keys : List Key} {entry : Hash}
    (conflicts : Conflicts crypto head statement keys entry) :
    Follows head { head with forked := true } :=
  { Follows.refl head with
    forked := fun _ => rfl
    dead := fun ended => by simp [conflicts.alive] at ended }

theorem present_follows {crypto : Crypto} (head : Option Head) (presentation : Presentation)
    (wellFormed : ∀ before ∈ head, before.WellFormed crypto) :
    ∀ past ∈ head, ∃ after ∈ present crypto head presentation, Follows past after := by
  obtain ⟨statement, pin⟩ := presentation
  intro past known
  rcases present_cases crypto head statement pin with same | ⟨_, _, rfl, _⟩ |
      ⟨before, _, _, rfl, advances, advanced⟩ | ⟨before, _, _, rfl, conflicts, fenced⟩
  · exact ⟨past, same.symm ▸ known, Follows.refl past⟩
  · cases known
  · cases known
    exact ⟨_, advanced, advances.follows (wellFormed past rfl)⟩
  · cases known
    exact ⟨_, fenced, conflicts.follows⟩

theorem run_follows {crypto : Crypto} {past : Head} (wellFormed : past.WellFormed crypto)
    (presentations : List Presentation) :
    ∃ head, run (present crypto) (some past) presentations = some head ∧ Follows past head := by
  have known : ∀ before ∈ some past, before.WellFormed crypto := by simpa using wellFormed
  have related := run_related (fun state : Option Head => ∀ before ∈ state, before.WellFormed crypto)
    (fun earlier later => ∀ past ∈ earlier, ∃ head ∈ later, Follows past head)
    (fun state past known => ⟨past, known, Follows.refl past⟩)
    (fun first second past known => by
      obtain ⟨middle, reached, before⟩ := first past known
      obtain ⟨head, finished, after⟩ := second middle reached
      exact ⟨head, finished, before.trans after⟩)
    present_wellFormed present_follows known presentations
  exact related past rfl

theorem history_follows {crypto : Crypto} {earlier later : List Presentation} {past head : Head}
    (reached : history crypto earlier = some past)
    (extended : history crypto (earlier ++ later) = some head) : Follows past head := by
  obtain ⟨final, finished, follows⟩ := run_follows (history_wellFormed reached) later
  rw [history, run_append] at extended
  rw [history] at reached
  rw [reached, finished] at extended
  cases extended
  exact follows

/-- A statement was applied to the head with sequence `index`. -/
def AdvancedAt (crypto : Crypto) (presentations : List Presentation) (index : Nat) : Prop :=
  ∃ earlier statement pin later before keys effect, presentations = earlier ++ (statement, pin) :: later ∧
    history crypto earlier = some before ∧ before.sequence.toNat = index ∧
    Advances crypto before statement keys effect

theorem history_advanced {crypto : Crypto} {head : Head} {index : Nat}
    (reached : history crypto presentations = some head) (below : index < head.sequence.toNat) :
    AdvancedAt crypto presentations index := by
  induction presentations using List.reverseRecOn generalizing head with
  | nil => cases reached
  | append_singleton presentations presentation ih =>
    obtain ⟨statement, pin⟩ := presentation
    have older {before : Head} (known : history crypto presentations = some before)
        (below : index < before.sequence.toNat) : AdvancedAt crypto (presentations ++ [(statement, pin)]) index := by
      obtain ⟨earlier, found, shown, later, past, keys, effect, split, rest⟩ := ih known below
      exact ⟨earlier, found, shown, later ++ [(statement, pin)], past, keys, effect, by simp [split], rest⟩
    have last : present crypto (history crypto presentations) (statement, pin) = some head := by
      simpa [history] using reached
    rcases present_cases crypto (history crypto presentations) statement pin with same |
        ⟨_, _, _, _, started⟩ | ⟨before, keys, effect, known, advances, advanced⟩ | ⟨before, _, _, known, _, fenced⟩
    · exact older (same.symm.trans last) below
    · cases started.symm.trans last
      exact absurd below (Nat.not_lt_zero index)
    · cases advanced.symm.trans last
      have next := advances.sequence
      simp only [Head.advance] at below
      rcases Nat.lt_or_eq_of_le (show index ≤ before.sequence.toNat by omega) with above | same
      · exact older known above
      · exact ⟨presentations, statement, pin, [], before, keys, effect, rfl, known, same.symm, advances⟩
    · cases fenced.symm.trans last
      exact older known below

theorem history_reaches {crypto : Crypto} {head : Head} (reached : history crypto presentations = some head)
    (target : Nat) (settled : target ≤ head.sequence.toNat) :
    ∃ earlier later past, presentations = earlier ++ later ∧
      history crypto earlier = some past ∧ past.sequence.toNat = target := by
  rcases Nat.lt_or_eq_of_le settled with below | same
  · obtain ⟨earlier, _, _, _, past, _, _, split, known, exact, _⟩ := history_advanced reached below
    exact ⟨earlier, _, past, split, known, exact⟩
  · exact ⟨_, [], head, (List.append_nil _).symm, reached, same.symm⟩

end Werewolf.Governance
