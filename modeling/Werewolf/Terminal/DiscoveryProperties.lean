import Werewolf.Terminal.Discovery

/-! A discovery operation that outlives its node's destruction writes to the Den
behind it. As long as none writes while the node is dying, a destruction that has
reported complete leaves the Den as it is until the process exits. -/

namespace Werewolf.Terminal
open Library
open Control (Tombstone Destruction tombstoneFile denLock contactsFile)

def LockInert (den : Tree) : Prop :=
  ∀ entry, den.find? denLock = some entry → ∃ file, regular entry = some file ∧ file.data = []

/-- Nothing but a Tombstone and an inert lock. -/
structure Clean (den : Tree) : Prop where
  allowed : ∀ name, den.find? name ≠ none → name = tombstoneFile ∨ name = denLock
  tombstone : den.find? tombstoneFile ≠ none
  lock : LockInert den

def Apart (name : String) (before after : Tree) : Prop :=
  ∀ other, other ≠ name → after.find? other = before.find? other

theorem apart_set (name : String) (entry : Entry) (den : Tree) : Apart name den (den.set name entry) :=
  fun other different => by rw [Tree.find?_set, if_neg different]

section Placing

variable {temporary : String} {data : List UInt8} {base : Tree}

theorem find?_takePlace (name : String) {den : Tree} (beside : Apart temporary base den)
    (filled : den.find? temporary = some (privateFile data)) (other : String) :
    (den.rename temporary name).find? other =
      if other = name then some (privateFile data)
      else if other = temporary then none else base.find? other := by
  rw [Tree.find?_rename filled]
  split
  · rfl
  · split
    · rfl
    · exact beside other (by assumption)

theorem clean_takePlace {den : Tree} (beside : Apart temporary base den)
    (filled : den.find? temporary = some (privateFile data)) (clean : Clean base) :
    Clean (den.rename temporary tombstoneFile) := by
  have found := find?_takePlace tombstoneFile beside filled
  refine ⟨fun name present => ?_, by simp [found], fun entry present => ?_⟩
  · rw [found] at present
    split at present
    · exact .inl (by assumption)
    · split at present
      · exact absurd rfl present
      · exact clean.allowed name present
  · rw [found, if_neg (by decide)] at present
    split at present
    · cases present
    · exact clean.lock entry present

end Placing

theorem lockInert_iff {den : Tree} : lockInert den = true ↔ LockInert den := by
  simp only [lockInert, LockInert]
  cases den.find? denLock with
  | none => simp
  | some entry =>
    simp only [Option.all_some, Option.any_eq_true, List.isEmpty_iff, Option.some.injEq, forall_eq']

namespace Process

variable {outside : Outside} {process : Process}

/-- A clean Den beside the file that is to take the place of its Tombstone. -/
def CleanBeside (temporary : String) (den : Tree) : Prop :=
  ∃ base data, Clean base ∧ Apart temporary base den ∧ den.find? temporary = some (privateFile data)

/-- What the last stages of an end have found out about the Den. -/
def Justified (process : Process) : Prop :=
  match process.stage with
  | .serving => True
  | .creates tombstone => process.dying = true ∧ (tombstone.destruction = .complete → Clean process.den)
  | .places tombstone temporary => process.dying = true ∧
      (tombstone.destruction = .complete → CleanBeside temporary process.den)
  | .syncs tombstone => process.dying = true ∧ (tombstone.destruction = .complete → Clean process.den)
  | .inspects _ => process.dying = true ∧
      (∀ name, process.den.find? name ≠ none → name = tombstoneFile ∨ name = denLock) ∧
      process.den.find? tombstoneFile ≠ none
  | .reported .complete => process.dying = true ∧ Clean process.den
  | _ => process.dying = true

theorem notCommitted_justified {tombstone : Tombstone} (dying : process.dying = true) :
    (process.notCommitted tombstone).Justified := by
  unfold notCommitted
  split
  · trivial
  · exact dying

theorem indeterminate_justified {tombstone : Tombstone} (dying : process.dying = true) :
    (process.indeterminate tombstone).Justified := by
  unfold indeterminate
  split <;> exact dying

theorem proceed_justified (succeeds : Bool) (suffix : ByteArr 16) (justified : process.Justified) :
    (process.proceed outside succeeds suffix).Justified := by
  unfold proceed
  cases stage : process.stage with
  | creates tombstone =>
    simp only [Justified, stage] at justified
    dsimp only
    cases encode outside tombstone with
    | some data =>
      dsimp only
      split
      · refine ⟨justified.1, fun complete => ⟨process.den, data, justified.2 complete,
          apart_set (temporaryName suffix) (privateFile data) process.den, ?_⟩⟩
        rw [Tree.find?_set, if_pos rfl]
      · exact notCommitted_justified justified.1
    | none => exact notCommitted_justified justified.1
  | places tombstone temporary =>
    simp only [Justified, stage] at justified
    cases succeeds with
    | true =>
      refine ⟨justified.1, fun complete => ?_⟩
      obtain ⟨base, data, clean, beside, filled⟩ := justified.2 complete
      exact clean_takePlace beside filled clean
    | false => exact notCommitted_justified justified.1
  | syncs tombstone =>
    simp only [Justified, stage] at justified
    cases succeeds with
    | true =>
      cases kind : tombstone.destruction with
      | incomplete => simpa [committed, kind, Justified] using justified.1
      | complete => simpa [committed, kind, Justified] using ⟨justified.1, justified.2 kind⟩
    | false => exact indeterminate_justified justified.1
  | lists tombstone round =>
    simp only [Justified, stage] at justified
    cases succeeds <;> exact justified
  | sweeps tombstone round left =>
    simp only [Justified, stage] at justified
    cases left with
    | nil => cases round <;> exact justified
    | cons name left => cases succeeds <;> exact justified
  | scrubs tombstone =>
    simp only [Justified, stage] at justified
    dsimp only
    split
    · split <;> exact justified
    · exact justified
  | checks tombstone =>
    simp only [Justified, stage] at justified
    dsimp only
    split_ifs with found
    · simp only [Bool.and_eq_true, List.all_eq_true, Bool.or_eq_true, decide_eq_true_eq, List.any_eq_true] at found
      obtain ⟨⟨_, allowed⟩, _, member, rfl⟩ := found
      exact ⟨justified, fun name present => allowed name (Tree.mem_names.mpr present), Tree.mem_names.mp member⟩
    · exact justified
  | inspects tombstone =>
    simp only [Justified, stage] at justified
    dsimp only
    split_ifs with inert
    · rw [Bool.and_eq_true] at inert
      obtain ⟨dying, allowed, present⟩ := justified
      exact ⟨dying, fun _ => ⟨allowed, present, lockInert_iff.mp inert.2⟩⟩
    · exact justified.1
  | serving | reported _ | stuck => exact justified

theorem Justified.serving (justified : process.Justified) (alive : process.dying = false) :
    process.stage = .serving := by
  have never : process.dying ≠ true := by simp [alive]
  unfold Justified at justified
  split at justified
  · assumption
  all_goals first | exact absurd justified never | exact absurd justified.1 never

theorem save_stage (index : Nat) (succeeds : Bool) (suffix : ByteArr 16) (data : List UInt8)
    (process : Process) : (process.save index succeeds suffix data).stage = process.stage := by
  unfold save
  split
  · split <;> rfl
  · split <;> rfl
  · split <;> rfl
  · rfl

theorem step_justified {turn : Turn} (alone : turn.writes = true → process.dying = false)
    (justified : process.Justified) : (process.step outside turn).Justified := by
  unfold step
  split
  · exact justified
  · cases turn with
    | ends tombstone =>
      dsimp only
      split
      · exact justified
      · exact ⟨rfl, fun complete => by cases complete⟩
    | proceeds succeeds suffix => exact proceed_justified succeeds suffix justified
    | discovers =>
      dsimp only
      split <;> exact justified
    | learns index new =>
      dsimp only
      split
      · split <;> exact justified
      · exact justified
    | saves index succeeds suffix data =>
      dsimp only
      rw [Justified, save_stage, justified.serving (alone rfl)]
      trivial
    | exits => exact justified

theorem step_complete {turn : Turn} (alone : turn.writes = true → process.dying = false)
    (justified : process.Justified) (complete : process.stage = .reported .complete) :
    (process.step outside turn).den = process.den := by
  have dying : process.dying = true := by
    simp only [Justified, complete] at justified
    exact justified.1
  unfold step
  split
  · rfl
  · cases turn with
    | ends tombstone => dsimp only
    | proceeds succeeds suffix => simp only [proceed, complete]
    | discovers => dsimp only
    | learns index new =>
      dsimp only
      split
      · split <;> rfl
      · rfl
    | saves index succeeds suffix data => exact absurd (dying.symm.trans (alone rfl)) (by decide)
    | exits => rfl

end Process

/-- In every run in which no discovery operation writes while the node is dying:
once a destruction has reported complete, the Den holds nothing but its Tombstone
and an inert lock, and no turn changes it. -/
theorem complete_den_is_left_alone {outside : Outside} (den : Tree) (turns : List Turn)
    (alone : ∀ before turn after, turns = before ++ turn :: after → turn.writes = true →
      (run (Process.step outside) (Process.serving den) before).dying = false) :
    let reached := run (Process.step outside) (Process.serving den)
    ((reached turns).stage = .reported .complete → Clean (reached turns).den) ∧
      ∀ before turn after, turns = before ++ turn :: after → (reached before).stage = .reported .complete →
        (reached (before ++ [turn])).den = (reached before).den := by
  intro reached
  have justified (before after : List Turn) (split : turns = before ++ after) : (reached before).Justified := by
    have initial : (Process.serving den).Justified := trivial
    refine run_invariant_of_steps Process.Justified (fun process turn => turn.writes = true → process.dying = false)
      (fun process turn justified alone => Process.step_justified alone justified) initial before ?_
    intro first turn rest inner
    exact alone first turn (rest ++ after) (by rw [split, inner, List.append_assoc, List.cons_append])
  refine ⟨fun complete => ?_, fun before turn after split complete => ?_⟩
  · have holds := justified turns [] (List.append_nil _).symm
    simp only [Process.Justified, complete] at holds
    exact holds.2
  · simp only [reached, run_append, run_cons, run_nil]
    exact Process.step_complete (alone before turn after split) (justified before (turn :: after) split) complete

namespace Sample

def retirement : Tombstone := ⟨none, .incomplete, "sample"⟩

/-- A Den with an identity, held through its lock. -/
def held : Tree := Tree.set "pelt.json" (privateFile [7]) (Tree.set denLock (privateFile [1]) .nil)

def ending (suffix : ByteArr 16) : List Turn :=
  .ends retirement :: List.replicate 20 (.proceeds true suffix)

def late : List Turn :=
  [.discovers, .learns 0 true] ++ ending (ByteArr.zero 16) ++
    [.saves 0 true (ByteArr.zero 16) [1], .saves 0 true (ByteArr.zero 16) [1]]

def early : List Turn :=
  [.discovers, .learns 0 true, .saves 0 true (ByteArr.zero 16) [1],
    .saves 0 true (ByteArr.zero 16) [1]] ++ ending (ByteArr.zero 16)

end Sample

open Sample

/-- The contacts of a discovery operation that ran when a retirement began are in
the Den behind its complete destruction. -/
theorem late_contacts_are_saved :
    let process := run (Process.step Sample.outside) (Process.serving held) late
    process.stage = .reported .complete ∧ process.exited = false ∧ process.den.find? "pelt.json" = none ∧
      process.den.find? contactsFile = some (privateFile [1]) := by
  decide +kernel

/-- What an operation saved before the retirement begins goes with the rest. -/
theorem early_contacts_are_destroyed :
    let process := run (Process.step Sample.outside) (Process.serving held) early
    process.stage = .reported .complete ∧ Clean process.den := by
  have alone : ∀ index < early.length, ∀ turn, early[index]? = some turn →
      turn.writes = true → (run (Process.step Sample.outside) (Process.serving held)
        (early.take index)).dying = false := by
    have checked : ∀ index < early.length, (early[index]?).all (fun turn =>
        !turn.writes || !(run (Process.step Sample.outside) (Process.serving held)
          (early.take index)).dying) = true := by
      decide +kernel
    intro index bound turn found writes
    simpa [found, writes] using checked index bound
  have complete : (run (Process.step Sample.outside) (Process.serving held) early).stage = .reported .complete := by
    decide +kernel
  refine ⟨complete, (complete_den_is_left_alone held early ?_).1 complete⟩
  intro before turn after split writes
  have bound : before.length < early.length := by simp [split]
  have found : early[before.length]? = some turn := by simp [split]
  have taken : early.take before.length = before := by simp [split]
  exact taken ▸ alone before.length bound turn found writes

end Werewolf.Terminal
