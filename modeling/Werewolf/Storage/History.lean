import Werewolf.Storage.Durability

/-! Commit after commit on one Den, each of them cut short anywhere. What the
Den selects is the last state whose selector was written, and the numbers of the
selected generations only grow. -/

namespace Werewolf.Storage
open Library Governance State Policy

/-- One commit: the generation its caller believes in, the state, and what
comes of each replacement. -/
structure Attempt where
  current : UInt64
  state : ProtectedState
  fates : Nat → Replacement

/-- A Den and the generations whose selector was written to it, newest first. -/
structure History where
  den : Den
  selections : List (UInt64 × ProtectedState)

namespace History

variable (platform : Platform) {history : History}

def step (history : History) (attempt : Attempt) : History :=
  let visible := (commit platform history.den attempt.current attempt.state attempt.fates).1
  { den := history.den.apply visible
    selections :=
      if tookEffect visible then (attempt.current + 1, attempt.state) :: history.selections
      else history.selections }

def Coherent (history : History) : Prop :=
  ∃ number last older slot, history.selections = (number, last) :: older ∧
    Holds platform history.den ⟨number, slot⟩ last ∧
    history.selections.Pairwise (fun later earlier => earlier.1.toNat < later.1.toNat)

variable {platform}

theorem step_of_tookEffect {attempt : Attempt}
    (effect : tookEffect (commit platform history.den attempt.current attempt.state attempt.fates).1 = true) :
    (history.step platform attempt).selections = (attempt.current + 1, attempt.state) :: history.selections :=
  if_pos effect

theorem step_of_not_tookEffect {attempt : Attempt}
    (effect : tookEffect (commit platform history.den attempt.current attempt.state attempt.fates).1 = false) :
    (history.step platform attempt).selections = history.selections :=
  if_neg (by simp [effect])

theorem step_of_committed {den : Den} {current : UInt64} {state : ProtectedState} {fates : Nat → Replacement}
    {generation : Generation} (committed : (commit platform den current state fates).2 =
      .reported (.durablyCommitted generation)) (selections : List (UInt64 × ProtectedState)) :
    (step platform ⟨den, selections⟩ ⟨current, state, fates⟩).selections = (current + 1, state) :: selections ∧
      Holds platform (step platform ⟨den, selections⟩ ⟨current, state, fates⟩).den generation state :=
  ⟨step_of_tookEffect (tookEffect_of_committed committed), holds_of_committed committed⟩

theorem Coherent.step (roundTrip : platform.RoundTrip) (attempt : Attempt)
    (coherent : history.Coherent platform) : (history.step platform attempt).Coherent platform := by
  obtain ⟨number, last, older, slot, newest, holds, increasing⟩ := coherent
  cases effect : tookEffect (commit platform history.den attempt.current attempt.state attempt.fates).1 with
  | false =>
    rw [Coherent, step_of_not_tookEffect effect]
    exact ⟨number, last, older, slot, newest, holds_of_not_tookEffect roundTrip effect holds, increasing⟩
  | true =>
    obtain ⟨holdsNext, greater⟩ := holds_of_tookEffect roundTrip effect holds
    rw [Coherent, step_of_tookEffect effect]
    refine ⟨_, _, _, _, rfl, holdsNext, List.pairwise_cons.mpr ⟨?_, increasing⟩⟩
    intro earlier member
    -- the newest of the earlier numbers is the selected one
    have below : earlier.1.toNat ≤ number.toNat := by
      rw [newest] at increasing member
      rcases List.mem_cons.mp member with rfl | member
      · exact Nat.le_refl _
      · exact Nat.le_of_lt ((List.pairwise_cons.mp increasing).1 earlier member)
    exact greater ▸ Nat.lt_succ_of_le below

end History

/-- Every sequence of commits, each cut short anywhere: the Den loads the last
state whose selector was written, the numbers increase, and a further commit
that reports no effect has none. -/
theorem load_after_commits (platform : Platform) (roundTrip : platform.RoundTrip) (den : Den)
    (generation : Generation) (state : ProtectedState)
    (enabled : load platform den = .ok (.manifest generation state)) (attempts : List Attempt) :
    let reached := run (History.step platform) ⟨den, [(generation.number, state)]⟩ attempts
    load platform reached.den ≠ .ok .legacy ∧
      (∃ number last older slot, reached.selections = (number, last) :: older ∧ (last.targetPolicy.WellFormed →
          load platform reached.den = .ok (.manifest ⟨number, slot⟩ last.normal) ∧
            SameState platform last.normal last)) ∧
      reached.selections.Pairwise (fun later earlier => earlier.1.toNat < later.1.toNat) ∧
      ∀ attempt error, (commit platform reached.den attempt.current attempt.state
          attempt.fates).2 = .reported (.notCommitted error) →
        load platform (reached.step platform attempt).den = load platform reached.den := by
  intro reached
  have coherent : reached.Coherent platform := by
    refine run_invariant (History.Coherent platform)
      (fun _ attempt coherent => coherent.step roundTrip attempt) ?_ attempts
    obtain ⟨holds, _, _⟩ := holds_of_load roundTrip enabled
    exact ⟨generation.number, state, [], generation.slot, rfl, holds, List.pairwise_singleton _ _⟩
  obtain ⟨number, last, older, slot, newest, holds, increasing⟩ := coherent
  refine ⟨load_ne_legacy roundTrip holds, ⟨number, last, older, slot, newest, ?_⟩, increasing, ?_⟩
  · intro wellFormed
    exact ⟨load_of_holds roundTrip wellFormed holds, normal_sameState platform last⟩
  · intro attempt error failed
    have after := holds_of_not_tookEffect roundTrip (not_tookEffect_of_notCommitted failed) holds
    obtain ⟨contents, documented, loaded⟩ := load_eq_parse roundTrip holds
    obtain ⟨contentsAfter, documentedAfter, loadedAfter⟩ := load_eq_parse roundTrip after
    cases documented.symm.trans documentedAfter
    exact loadedAfter.trans loaded.symm

namespace Sample

def started : Den :=
  den.apply (commit platform den 1 (state (grant fingerprint)) durable).1

theorem started_holds : Holds platform started ⟨2, .b⟩ (state (grant fingerprint)) :=
  holds_of_committed (committed selected (by decide) (by decide +kernel))

theorem started_loads : load platform started = .ok (.manifest ⟨2, .b⟩ (state (grant fingerprint)).normal) :=
  load_of_holds roundTrip grant_wellFormed started_holds

def begun : History := ⟨started, [(2, (state (grant fingerprint)).normal)]⟩

def attempt (policy : TargetPolicy) : Attempt := ⟨2, state policy, durable⟩

theorem step_selects {policy : TargetPolicy} (small : fits policy = true) :
    (begun.step platform (attempt policy)).selections = (2 + 1, state policy) :: begun.selections ∧
      Holds platform (begun.step platform (attempt policy)).den ⟨3, .a⟩ (state policy) := by
  have next : loadCurrent platform started = .ok (some ⟨2, .b⟩) :=
    loadCurrent_of_selected roundTrip started_holds.mode started_holds.current (by decide)
  have selects : (commit platform started 2 (state policy) durable).2 =
      .reported (.durablyCommitted ⟨3, .a⟩) := committed next (by decide) small
  exact History.step_of_committed selects _

end Sample

open Sample

/-- After a commit of another policy, that is the one that loads. -/
theorem second_commit_loads : ∃ slot, load Sample.platform (run (History.step Sample.platform) begun
        [Sample.attempt .deny]).den = .ok (.manifest ⟨3, slot⟩ (state .deny).normal) := by
  obtain ⟨_, ⟨number, last, older, slot, newest, loads⟩, _⟩ :=
    load_after_commits Sample.platform Sample.roundTrip Sample.started ⟨2, .b⟩
      (state (grant Sample.fingerprint)).normal started_loads
      [Sample.attempt .deny]
  have selected := (step_selects (by decide +kernel : fits .deny = true)).1
  obtain ⟨rfl, rfl⟩ := Prod.mk.inj (List.cons.inj (selected.symm.trans newest)).1
  exact ⟨slot, (loads trivial).1⟩

/-- After a commit of a grant to something that is no fingerprint, nothing
loads. -/
theorem misnamed_second_commit_never_loads : load Sample.platform Sample.started = .ok (.manifest ⟨2, .b⟩
        (state (grant Sample.fingerprint)).normal) ∧
      (run (History.step Sample.platform) begun
        [Sample.attempt (grant "howler")]).selections =
          (2 + 1, state (grant "howler")) :: begun.selections ∧
      load Sample.platform (run (History.step Sample.platform) begun
        [Sample.attempt (grant "howler")]).den = .error .invalidPolicy := by
  obtain ⟨selected, holds⟩ := step_selects (by decide +kernel :
    fits (grant "howler") = true)
  rw [run_cons, run_nil]
  exact ⟨started_loads, selected, load_refused Sample.roundTrip holds (by decide +kernel)⟩

end Werewolf.Storage
