import Werewolf.Control.Chains
import Werewolf.Storage.Migration

/-! What one transition leaves: the node by how its write ended, and the files of
the Den that it does not write. -/

namespace Werewolf.Control
open Library Procedure Governance Policy
open State hiding name
open Storage hiding name

variable {permit : Liberty → Prop} {host : Host} {environment : Environment}
  {before after : System}

section Settling

inductive Settles (publish : Node → Node) (before : System) (den : Den) :
    Option Storage.Outcome → System → Prop where
  | durable : Settles publish before den none
      { before with den := den, node := publish before.node }
  | unsure : Settles publish before den (some (.reported .indeterminateAfterRename))
      { before with
        den := den
        node := { before.node with storageDegraded := true }
        indeterminate := true }
  | refused {error : Storage.Error} :
      Settles publish before den (some (.reported (.notCommitted error)))
        { before with den := den }
  | stopped : Settles publish before den (some .stopped)
      { before with den := den, running := false }

theorem settle_settles (running : before.running = true) (den : Den) {ended : Option Storage.Outcome}
    (publish : Node → Node) (undecided : ∀ generation, ended ≠ some (.reported (.durablyCommitted generation))) :
    Settles publish before den ended (({ before with den := den } : System).settle ended publish).2 := by
  rcases before with ⟨node, old, _, indeterminate⟩
  cases running
  match ended, undecided with
  | none, _ => simpa [System.settle, System.note] using Settles.durable
  | some (.reported (.durablyCommitted generation)), undecided =>
    exact absurd rfl (undecided generation)
  | some (.reported .indeterminateAfterRename), _ =>
    simpa [System.settle, System.note, System.degrade] using Settles.unsure
  | some (.reported (.notCommitted error)), _ =>
    simpa [System.settle, System.note] using Settles.refused
  | some .stopped, _ => simpa [System.settle, System.note] using Settles.stopped

theorem store_cases (system : System) (write : Write) (fate : Replacement) (publish : Node → Node) :
    (system.store write fate publish).2 = system ∨
      Settles publish system (replaced system.den write fate) (replace write fate).2
        (system.store write fate publish).2 := by
  unfold System.store
  split
  · rename_i running
    exact .inr (settle_settles running _ publish (replace_spec write fate).2.2.2)
  · exact .inl rfl

theorem transaction_undecided (outcome : Storage.Outcome) (generation : Generation) :
    (System.transaction outcome).2 ≠ some (.reported (.durablyCommitted generation)) := by
  match outcome with
  | .reported (.durablyCommitted _) => simp [System.transaction]
  | .reported (.notCommitted _) => simp [System.transaction]
  | .reported .indeterminateAfterRename => simp [System.transaction]
  | .stopped => simp [System.transaction]

theorem commitProtected_cases (host : Host) (system : System) (generation : UInt64)
    (candidate : ProtectedState) (fates : Nat → Replacement) (publish : Node → Node) :
    (system.commitProtected host generation candidate fates publish).2 = system ∨
      Settles (fun node => publish { node with generation := (System.transaction
          (commit host.toPlatform system.den generation candidate fates).2).1 }) system
        (system.den.apply (commit host.toPlatform system.den generation candidate fates).1)
        (System.transaction (commit host.toPlatform system.den generation candidate fates).2).2
        (system.commitProtected host generation candidate fates publish).2 := by
  unfold System.commitProtected
  split
  · rename_i running
    exact .inr (settle_settles running _ _ (transaction_undecided _))
  · exact .inl rfl

theorem migrate_settles (host : Host) (system : System) (fates : Nat → Replacement) :
    (system.migrate host fates).2 = system ∨ Settles (fun node => { node with generation := (System.transaction
          (Storage.migrate host.toPlatform system.den fates).2).1 }) system
        (system.den.apply (Storage.migrate host.toPlatform system.den fates).1)
        (System.transaction (Storage.migrate host.toPlatform system.den fates).2).2
        (system.migrate host fates).2 := by
  unfold System.migrate
  split
  · rename_i running
    exact .inr (settle_settles running _ _ (transaction_undecided _))
  · exact .inl rfl

theorem replaceFile_cases (system : System) (write : Write) (fate : Replacement) :
    (system.replaceFile write fate).2 = system ∨ (system.replaceFile write fate).2 =
        ({ system with den := replaced system.den write fate } : System).note (replace write fate).2 := by
  unfold System.replaceFile
  split
  · exact .inr rfl
  · exact .inl rfl

end Settling

section Durable

variable {system : System} {write : Write} {fate : Replacement} {publish : Node → Node}
  {candidate : ProtectedState}

theorem store_true (saved : (system.store write fate publish).1 = true) : (system.store write fate publish).2 =
      { system with den := system.den.apply [write], node := publish system.node } := by
  unfold System.store at saved ⊢
  split at saved
  · rename_i running
    obtain ⟨durable, settled⟩ := settle_true saved
    rw [if_pos running, settled]
    simp [System.note, System.written, replaced, (replace_spec write fate).1 durable]
  · cases saved

inductive SavesNode (publish : Node → Node) (before : Node) : Bool → Node → Prop where
  | durable (number : Option UInt64) :
      SavesNode publish before true (publish { before with generation := number })
  | refused : SavesNode publish before false before
  | unsure : SavesNode publish before false { before with storageDegraded := true }

private theorem settle_saves (den : Den) (ended : Option Storage.Outcome) (number : Option UInt64) :
    SavesNode publish system.node (({ system with den := den } : System).settle ended
        (fun node => publish { node with generation := number })).1
      (({ system with den := den } : System).settle ended
        (fun node => publish { node with generation := number })).2.node := by
  unfold System.settle
  split
  · exact .durable number
  · exact .unsure
  · exact .refused

theorem store_saves (flat : system.node.generation = none) :
    SavesNode publish system.node (system.store write fate publish).1 (system.store write fate publish).2.node := by
  have same : { system.node with generation := none } = system.node := by rw [← flat]
  unfold System.store
  split
  · unfold System.settle
    split
    · have saved : SavesNode publish system.node true (publish _) := .durable none
      rw [same] at saved
      exact saved
    · exact .unsure
    · exact .refused
  · exact .refused

theorem commitProtected_saves {generation : UInt64} {fates : Nat → Replacement} :
    SavesNode publish system.node (system.commitProtected host generation candidate fates publish).1
      (system.commitProtected host generation candidate fates publish).2.node := by
  unfold System.commitProtected
  split
  · exact settle_saves _ _ _
  · exact .refused

theorem persist_saves {fails : Code → System → Prop} {legacy : Write} {environment : Environment} :
    Replies system (persistProtectedOrLegacy host environment candidate legacy publish) fails
      (fun saved next => SavesNode publish system.node saved next.node) := by
  refine replies_alter_bind ?_
  dsimp only
  split
  · exact replies_alter commitProtected_saves
  · rename_i flat
    exact replies_alter (store_saves flat)

theorem commitProtected_holds {generation : UInt64} {fates : Nat → Replacement}
    (saved : (system.commitProtected host generation candidate fates publish).1 = true) :
    ∃ next : Generation, Holds host.toPlatform (system.commitProtected host generation candidate fates publish).2.den
        next candidate ∧
      (system.commitProtected host generation candidate fates publish).2.node =
        publish { system.node with generation := some next.number } := by
  unfold System.commitProtected at saved ⊢
  split at saved
  · rename_i running
    obtain ⟨durable, settled⟩ := settle_true saved
    rw [if_pos running, settled]
    cases outcome : (commit host.toPlatform system.den generation candidate fates).2 with
    | stopped => simp [outcome, System.transaction] at durable
    | reported report =>
      cases report with
      | durablyCommitted next =>
        exact ⟨next, holds_of_committed outcome, rfl⟩
      | notCommitted error => simp [outcome, System.transaction] at durable
      | indeterminateAfterRename => simp [outcome, System.transaction] at durable
  · cases saved

end Durable

section Nodes

theorem Settles.moves {publish : Node → Node} {den : Den} {ended : Option Storage.Outcome}
    (settles : Settles publish before den ended after) {external : External}
    (published : Moves permit external before.node (publish before.node)) :
    Moves permit external before.node after.node := by
  cases settles with
  | durable => exact published
  | unsure => exact .of_same rfl rfl rfl rfl rfl (fun _ => rfl)
  | refused => exact .of_same rfl rfl rfl rfl rfl id
  | stopped => exact .of_same rfl rfl rfl rfl rfl id

theorem Transition.moved (transition : Transition permit host before after) :
    Moves permit host.toExternal before.node after.node := by
  cases transition with
  | moves moved => exact moved
  | stored fares moved =>
    rcases store_cases before _ _ _ with same | settles
    · rw [same]
      exact .of_same rfl rfl rfl rfl rfl id
    · exact settles.moves moved
  | committed fares alive selected moved =>
    rcases commitProtected_cases host before _ _ _ _ with same | settles
    · rw [same]
      exact .of_same rfl rfl rfl rfl rfl id
    · exact settles.moves (moved _)
  | archived | entombed =>
    rcases replaceFile_cases before _ _ with same | noted
    · rw [same]
      exact .of_same rfl rfl rfl rfl rfl id
    · rw [noted]
      exact .of_same rfl rfl rfl rfl rfl id
  | destroyed =>
    unfold System.finish
    split <;> exact .of_same rfl rfl rfl rfl rfl id
  | migrated =>
    rcases migrate_settles host before _ with same | settles
    · rw [same]
      exact .of_same rfl rfl rfl rfl rfl id
    · exact settles.moves (.of_same rfl rfl rfl rfl rfl id)

end Nodes

section Frames

variable {file : String}

theorem replaced_frame {den : Den} {write : Write} {fate : Replacement}
    (other : file ≠ write.file) : replaced den write fate file = den file := by
  unfold replaced
  split
  · exact apply_of_notMem (by simpa using other)
  · rfl

theorem replaced_present {den : Den} {write : Write} {fate : Replacement}
    (present : (den file).isSome) : (replaced den write fate file).isSome := by
  by_cases same : file = write.file
  · unfold replaced
    split
    · simp [Den.apply, same]
    · exact present
  · rw [replaced_frame same]
    exact present

theorem ne_governanceArchiveName (first : file.toList.head? ≠ some 'g') (sequence : UInt64) :
    file ≠ governanceArchiveName sequence := by
  rintro rfl
  simp [governanceArchiveName] at first

theorem Settles.den {publish : Node → Node} {den : Den} {ended : Option Storage.Outcome}
    (settles : Settles publish before den ended after) : after.den = den := by
  cases settles <;> rfl

theorem Transition.den_frame (transition : Transition permit host before after)
    (alive : before.node.dying = false) (outside : file ∉ sideFiles ++ flatFiles ++ protectedFiles)
    (notArchive : ∀ sequence, file ≠ governanceArchiveName sequence) :
    after.den file = before.den file := by
  simp only [List.mem_append, not_or] at outside
  obtain ⟨⟨notSide, notFlat⟩, notProtected⟩ := outside
  cases transition with
  | moves => rfl
  | stored fares moved living written =>
    rcases store_cases before _ _ _ with same | settles
    · rw [same]
    · rw [settles.den]
      refine replaced_frame (fun same => ?_)
      rcases written with ⟨side, _⟩ | ⟨flat, _⟩
      · exact notSide (same ▸ side)
      · exact notFlat (same ▸ flat)
  | committed =>
    rcases commitProtected_cases host before _ _ _ _ with same | settles
    · rw [same]
    · rw [settles.den]
      exact commit_frame _ _ _ _ notProtected
  | archived =>
    rcases replaceFile_cases before _ _ with same | noted
    · rw [same]
    · rw [noted]
      exact replaced_frame (notArchive _)
  | entombed fares dying => exact absurd (alive.symm.trans dying) (by decide)
  | destroyed fares dying => exact absurd (alive.symm.trans dying) (by decide)
  | migrated =>
    rcases migrate_settles host before _ with same | settles
    · rw [same]
    · rw [settles.den]
      exact migrate_frame _ _ notProtected

end Frames

section Tombstones

variable {publish : Node → Node}

theorem tombstone_outside : tombstoneFile ∉ sideFiles ++ flatFiles ++ protectedFiles := by
  decide +kernel

theorem tombstone_notArchive (sequence : UInt64) : tombstoneFile ≠ governanceArchiveName sequence :=
  ne_governanceArchiveName (by decide) sequence

theorem finish_tombstone {tombstone : Tombstone} {den : Den} (present : (den tombstoneFile).isSome) :
    ((finish host environment tombstone den).1 tombstoneFile).isSome := by
  have spared : (destroyDen environment.demise den tombstoneFile).isSome := by
    simpa [destroyDen] using present
  unfold finish
  dsimp only
  split
  · exact spared
  · split
    · exact spared
    · exact replaced_present spared

theorem stored_frame {write : Write} {fate : Replacement} {file : String} (other : file ≠ write.file) :
    (before.store write fate publish).2.den file = before.den file := by
  rcases store_cases before write fate publish with same | settles
  · rw [same]
  · rw [settles.den]
    exact replaced_frame other

theorem Settles.dying {den : Den} {ended : Option Storage.Outcome} (settles : Settles publish before den ended after)
    (same : (publish before.node).dying = before.node.dying) :
    after.node.dying = before.node.dying := by
  cases settles with
  | durable => exact same
  | unsure | refused | stopped => rfl

theorem store_dying {write : Write} {fate : Replacement} (same : (publish before.node).dying = before.node.dying) :
    (before.store write fate publish).2.node.dying = before.node.dying := by
  rcases store_cases before write fate publish with kept | settles
  · rw [kept]
  · exact settles.dying same

theorem Transition.dying (transition : Transition permit host before after) (dying : before.node.dying = true) :
    after.node.dying = true ∨ (permit .revives ∧ before.indeterminate = false ∧
      before.den tombstoneFile = none ∧ after = { before with node := after.node }) := by
  cases transition with
  | moves moved retains revives =>
    rcases revives dying with still | ⟨allowed, untouched, absent⟩
    · exact .inl still
    · exact .inr ⟨allowed, untouched, absent, rfl⟩
  | stored fares moved same => exact .inl ((store_dying same).trans dying)
  | committed fares alive => exact absurd (alive.1.symm.trans dying) (by decide)
  | archived fares alive => exact absurd (alive.1.symm.trans dying) (by decide)
  | entombed =>
    rcases replaceFile_cases before _ _ with same | noted
    · rw [same]
      exact .inl dying
    · rw [noted]
      exact .inl dying
  | destroyed =>
    unfold System.finish
    split <;> exact .inl dying
  | migrated fares alive => exact absurd (alive.symm.trans dying) (by decide)

theorem Transition.entombed_stays (transition : Transition permit host before after)
    (present : (before.den tombstoneFile).isSome) : (after.den tombstoneFile).isSome := by
  cases dying : before.node.dying with
  | false =>
    rw [transition.den_frame dying tombstone_outside tombstone_notArchive]
    exact present
  | true =>
    cases transition with
    | moves => exact present
    | stored fares moved same written =>
      rw [stored_frame]
      · exact present
      · rintro named
        rcases written with ⟨side, _⟩ | ⟨flat, _⟩
        · exact absurd (named ▸ side) (by decide)
        · exact absurd (named ▸ flat) (by decide)
    | committed fares alive => exact absurd (alive.1.symm.trans dying) (by decide)
    | archived fares alive => exact absurd (alive.1.symm.trans dying) (by decide)
    | entombed =>
      rcases replaceFile_cases before _ _ with same | noted
      · rw [same]
        exact present
      · rw [noted]
        exact replaced_present present
    | destroyed =>
      unfold System.finish
      split
      · exact finish_tombstone present
      · exact present
    | migrated fares alive => exact absurd (alive.symm.trans dying) (by decide)

def Ready (system : System) : Prop :=
  (system.den tombstoneFile).isSome → system.node.dying = true

theorem Transition.ready (transition : Transition permit host before after) (ready : Ready before) : Ready after := by
  intro present
  cases dying : before.node.dying with
  | false =>
    rw [transition.den_frame dying tombstone_outside tombstone_notArchive] at present
    exact absurd (dying.symm.trans (ready present)) (by decide)
  | true =>
    rcases transition.dying dying with still | ⟨_, _, absent, same⟩
    · exact still
    · rw [same] at present
      simp [absent] at present

end Tombstones

end Werewolf.Control
