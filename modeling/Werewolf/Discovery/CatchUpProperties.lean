import Werewolf.Discovery.DivergenceProperties

/-! A node that syncs with one peer further along its chain. Every round brings it
forward by what the peer returns, and it asks again as long as the answers are
full. -/

namespace Werewolf.Discovery
open Library Governance
open Control (recordsOf governanceRecords)

section Walking

variable {crypto : Crypto} {offer chosen : List Statement} {simulated final : Head}

theorem applyAll_cons {statement : Statement} {rest : List Statement} :
    applyAll crypto simulated (statement :: rest) = some final ↔
      ∃ next, successor crypto simulated statement = some next ∧ applyAll crypto next rest = some final := by
  rw [applyAll, List.foldlM_cons]
  exact Option.bind_eq_some_iff

theorem candidates_single (taken : List Statement) :
    candidates crypto [taken ++ offer] (chosen ++ taken) taken.length = offer.head?.toList := by
  have agreed : agrees crypto (chosen ++ taken) (taken ++ offer) taken.length = true := by
    simp [agrees, List.zip, List.zipWith_self]
  cases offer with
  | nil => simp [candidates]
  | cons statement rest => simp [candidates, agreed]

theorem walk_single (taken : List Statement) (applied : applyAll crypto simulated offer = some final) :
    walk crypto [taken ++ offer] (offer.length + 1) taken.length simulated (chosen ++ taken) =
      ⟨final, chosen ++ (taken ++ offer), none⟩ := by
  induction offer generalizing taken simulated with
  | nil =>
      cases applied
      rw [List.length_nil, walk, candidates_single, List.append_nil]
      rfl
  | cons statement rest ih =>
      obtain ⟨next, accepted, later⟩ := applyAll_cons.mp applied
      have found : valid crypto simulated (candidates crypto [taken ++ statement :: rest]
          (chosen ++ taken) taken.length) = [(statement, next)] := by
        simp [candidates_single, valid, accepted]
      rw [List.length_cons, walk, found]
      have walked := ih (taken ++ [statement]) later
      simp only [List.append_assoc, List.singleton_append, List.length_append, List.length_singleton] at walked ⊢
      exact walked

/-- A round with one peer takes all that the peer returns. -/
theorem resolveRound_single (applied : applyAll crypto simulated offer = some final) :
    resolveRound crypto ([offer].filter (fun offer => !offer.isEmpty)) simulated chosen =
      ⟨final, chosen ++ offer, none⟩ := by
  cases offer with
  | nil =>
      cases applied
      simp [resolveRound, walk, candidates, valid]
  | cons statement rest =>
      have walked : walk crypto _ _ _ _ (chosen ++ []) = _ := walk_single [] applied
      simpa [resolveRound] using walked

end Walking

section Syncing

variable {crypto : Crypto} {den : Storage.Den} {responder : Head} {cores : Set Core}

theorem recordsOf_known {start final : Head} {sequences : List Nat} (known : start.hash ∈ responder.applied)
    (applied : applyAll crypto start (recordsOf crypto den responder sequences) = some final) :
    final.hash ∈ responder.applied := by
  induction sequences generalizing start with
  | nil =>
      cases applied
      exact known
  | cons sequence rest ih =>
      unfold recordsOf at applied
      split at applied
      · cases applied
        exact known
      · split at applied
        · rename_i recorded
          obtain ⟨next, accepted, later⟩ := applyAll_cons.mp applied
          obtain ⟨_, _, _, rfl⟩ := applyTo_applied (successor_eq_some_iff.mp accepted)
          exact ih (List.mem_of_getElem? recorded) later
        · cases applied
          exact known

theorem governanceRecords_known {start final : Head} {count : UInt8}
    (known : start.hash ∈ responder.applied) (applied : applyAll crypto start
      (governanceRecords crypto den (some responder) start.hash count) = some final) :
    final.hash ∈ responder.applied := by
  unfold governanceRecords at applied
  dsimp only at applied
  split at applied
  · cases applied
    exact known
  · exact recordsOf_known known applied

/-- What one peer is asked for in a round. -/
def asking (crypto : Crypto) (den : Storage.Den) (responder : Head) (_ : Nat) (simulated : Head) : List Offer :=
  [governanceRecords crypto den (some responder) simulated.hash Transport.maxGovernanceK]

theorem resolveRounds_single {responding : List Presentation} (collisionFree : CollisionFreeOn crypto cores)
    (holds : history crypto responding = some responder)
    (archives : Archives crypto den responding) (responds : presentedCores responding ⊆ cores)
    (remaining : Nat) : ∀ {simulated : Head} {visited : List Presentation} {chosen : List Statement},
      history crypto visited = some simulated → presentedCores visited ⊆ cores →
      simulated.forked = false → simulated.hash ∈ responder.applied →
      ∃ added final, resolveRounds crypto (asking crypto den responder) remaining simulated chosen =
          ⟨final, chosen ++ added, none⟩ ∧ applyAll crypto simulated added = some final ∧
        (final = responder.chain ∨ added.length = Transport.maxGovernanceK.toNat * remaining) := by
  induction remaining with
  | zero =>
      intro simulated visited chosen _ _ _ _
      exact ⟨[], simulated, by rw [List.append_nil]; rfl, rfl, .inr rfl⟩
  | succ remaining ih =>
      intro simulated visited chosen reached asks unforked known
      have both : presentedCores responding ∪ presentedCores visited ⊆ cores :=
        Set.union_subset responds asks
      obtain ⟨next, leads, few, ends⟩ := governanceRecords_leads holds archives reached unforked
        (collisionFree.mono (Set.image_mono both)) known Transport.maxGovernanceK
      have nextKnown := governanceRecords_known known leads.applied
      generalize governed : governanceRecords crypto den (some responder) simulated.hash
        Transport.maxGovernanceK = records at leads few ends nextKnown
      unfold resolveRounds
      simp only [asking, governed, resolveRound_single leads.applied, List.length_append]
      by_cases full : records.length = Transport.maxGovernanceK.toNat
      · obtain ⟨further, nextReached, nextAsks⟩ := leads.reached
        obtain ⟨added, final, result, applied, outcome⟩ := @ih next further (chosen ++ records)
          nextReached (nextAsks.trans both) leads.unforked nextKnown
        have positive : Transport.maxGovernanceK.toNat ≠ 0 := by decide
        refine ⟨records ++ added, final, ?_, ?_, outcome.imp id (fun length => ?_)⟩
        · have filled : records ≠ [] := fun empty => positive (by rw [← full, empty]; rfl)
          simpa [full, positive, filled] using result
        · rw [applyAll, List.foldlM_append, ← applyAll, leads.applied]
          exact applied
        · rw [List.length_append, full, length, Nat.mul_succ, Nat.add_comm]
      · refine ⟨records, next, ?_, leads.applied, .inl (ends (Nat.lt_of_le_of_ne few full))⟩
        simp [full]

/-- Whatever the distance, a sync with one peer ahead on the chain finds no conflict
and only statements that apply in turn. It ends at the peer's own head, or after
sixteen full answers. -/
theorem sync_catches_up {requester : Head} {responding requesting : List Presentation}
    (holds : history crypto responding = some responder) (archives : Archives crypto den responding)
    (asks : history crypto requesting = some requester) (unforked : requester.forked = false)
    (collisionFree : CollisionFreeOn crypto (presentedCores responding ∪ presentedCores requesting))
    (known : requester.hash ∈ responder.applied) :
    ∃ final added, resolveSync crypto (asking crypto den responder) requester =
        ⟨final, added, none⟩ ∧ applyAll crypto requester added = some final ∧
      (final = responder.chain ∨ added.length = 64) := by
  obtain ⟨added, final, result, applied, outcome⟩ := @resolveRounds_single _ _ _ _ _ collisionFree
    holds archives Set.subset_union_left rounds _ _ [] asks Set.subset_union_right unforked known
  exact ⟨final, added, result, applied, outcome⟩

end Syncing

open Governance.Sample

theorem rotation_is_caught_up_with : ∃ behind ahead final added, history crypto started = some behind ∧
      history crypto rotatedRun = some ahead ∧
      resolveSync crypto (asking crypto Sample.rotatedDen ahead) behind = ⟨final, added, none⟩ ∧
      applyAll crypto behind added = some final := by
  have behind : history crypto started = some ((history crypto started).get (by decide +kernel)) := by simp
  have ahead : history crypto rotatedRun = some ((history crypto rotatedRun).get (by decide +kernel)) := by simp
  have included : presentedCores started ⊆ presentedCores Sample.activatedRun := by
    rintro _ ⟨presentation, member, rfl⟩
    exact ⟨presentation, List.mem_append_left _ member, rfl⟩
  obtain ⟨final, added, result, applied, _⟩ := sync_catches_up ahead Sample.rotatedDen_archives
    behind (by decide +kernel) (Sample.runs_collisionFree.mono
      (Set.image_mono (Set.union_subset_union_right _ included))) (by decide +kernel)
  exact ⟨_, _, final, added, behind, ahead, result, applied⟩

end Werewolf.Discovery
