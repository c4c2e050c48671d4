import Werewolf.Storage.Durability
import Werewolf.Storage.Legacy

/-! A migration that reports no effect. The files of its slot are artefacts: a
Den that has one of them and no selector is refused by every later load. -/

namespace Werewolf.Storage
open Library Governance State Policy

section Absence

theorem read_eq_ok_none_iff {den : Den} {file : String} {limit : Nat} :
    read den file limit = .ok none ↔ den file = none := by
  cases found : den file with
  | none => simp [read, found]
  | some data => simp [read, found, ite_eq_ok_iff]

theorem checkAbsent_iff {den : Den} {files : List String} :
    checkAbsent den files = .ok () ↔ ∀ file ∈ files, den file = none := by
  induction files with
  | nil => simp [checkAbsent]
  | cons file files ih =>
    have first : read den file documentLimit = .ok none ↔ den file = none :=
      read_eq_ok_none_iff
    rw [checkAbsent, bind_eq_ok, List.forall_mem_cons, ← ih, ← first]
    constructor
    · rintro ⟨_ | data, found, rest⟩
      · exact ⟨found, rest⟩
      · cases rest
    · rintro ⟨found, rest⟩
      exact ⟨none, found, rest⟩

variable {platform : Platform}

theorem loadCurrent_none_iff {den : Den} :
    loadCurrent platform den = .ok none ↔ ∀ file ∈ protectedFiles, den file = none := by
  simp only [loadCurrent, bind_eq_ok, protectedFiles, List.forall_mem_cons]
  constructor
  · rintro ⟨mode, modeRead, current, currentRead, rest⟩
    cases mode with
    | none =>
      cases current with
      | none =>
        obtain ⟨_, absent, _⟩ := bind_eq_ok.mp rest
        exact ⟨read_eq_ok_none_iff.mp modeRead, read_eq_ok_none_iff.mp currentRead, checkAbsent_iff.mp absent⟩
      | some data => cases rest
    | some modeData =>
      cases current with
      | none => cases rest
      | some data =>
        simp only [bind_eq_ok, ite_eq_ok_iff] at rest
        obtain ⟨_, _, _, _, _, selected⟩ := rest
        cases selected
  · rintro ⟨mode, current, absent⟩
    exact ⟨none, read_eq_ok_none_iff.mpr mode, none, read_eq_ok_none_iff.mpr current,
      bind_eq_ok.mpr ⟨(), checkAbsent_iff.mpr absent, rfl⟩⟩

theorem load_legacy_iff {den : Den} : load platform den = .ok .legacy ↔ loadCurrent platform den = .ok none := by
  rw [load, bind_eq_ok]
  constructor
  · rintro ⟨_ | generation, found, rest⟩
    · exact found
    · simp only [bind_eq_ok, return_eq_ok, reduceCtorEq, and_false, exists_false] at rest
  · intro found
    exact ⟨none, found, rfl⟩

end Absence

section Migrating

variable {writes visible : List Write} {fates : Nat → Replacement} {generation : Generation}
  {error : Error}

def Migratable (platform : Platform) (den : Den) : Prop :=
  ∃ state contents, legacyState platform den = .ok state ∧ documents platform state = .ok contents ∧
    ∀ bytes ∈ contents.bytes, bytes.length ≤ documentLimit

def migrationWrites (writes : List Write) : List Write :=
  writes ++ [⟨modeFile, modeBytes⟩, ⟨currentFile, currentBytes firstGeneration⟩]

variable {platform : Platform}

theorem migrate_cases {den : Den} (legacy : loadCurrent platform den = .ok none) (fates : Nat → Replacement) :
    ((∃ error, migrate platform den fates = ([], .reported (.notCommitted error))) ∧ ¬ Migratable platform den) ∨
      ∃ state writes, legacyState platform den = .ok state ∧ slotWrites platform firstGeneration state = .ok writes ∧
        migrate platform den fates = ((replaceAll (migrationWrites writes) fates).1,
          (replaceAll (migrationWrites writes) fates).2.getD (.reported (.durablyCommitted firstGeneration))) := by
  cases flat : legacyState platform den with
  | error error =>
    refine .inl ⟨⟨error, by simp only [migrate, legacy, flat]⟩, ?_⟩
    rintro ⟨state, contents, found, _⟩
    cases flat.symm.trans found
  | ok state =>
    cases written : slotWrites platform firstGeneration state with
    | error error =>
      refine .inl ⟨⟨error, by simp only [migrate, legacy, flat, written]⟩, ?_⟩
      rintro ⟨_, contents, found, documented, fits⟩
      cases flat.symm.trans found
      obtain ⟨writes, ok, _⟩ := slotWrites_fits documented fits
      cases written.symm.trans ok
    | ok writes =>
      exact .inr ⟨state, writes, rfl, written, by
        simp only [migrate, legacy, flat, written, migrationWrites]⟩

theorem migrationWrites_distinct {state : ProtectedState}
    (written : slotWrites platform firstGeneration state = .ok writes) :
    ((migrationWrites writes).map Write.file).Nodup := by
  have all : (Logical.all.map (name firstGeneration.slot) ++ [modeFile, currentFile]).Nodup := by
    decide +kernel
  rw [migrationWrites, List.map_append]
  exact all.sublist ((slotWrites_files written).append (List.Sublist.refl _))

theorem migrate_attempted {den : Den} (unselected : den currentFile = none) :
    (∃ error, migrate platform den fates = ([], .reported (.notCommitted error))) ∨
      ∃ state writes, legacyState platform den = .ok state ∧ slotWrites platform firstGeneration state = .ok writes ∧
        migrate platform den fates = ((replaceAll (migrationWrites writes) fates).1,
          (replaceAll (migrationWrites writes) fates).2.getD (.reported (.durablyCommitted firstGeneration))) := by
  cases selected : loadCurrent platform den with
  | error error => exact .inl ⟨error, by simp only [migrate, selected]⟩
  | ok found =>
    cases found with
    | some generation =>
      have present := (selected_of_loadCurrent selected).2.1
      cases unselected.symm.trans present
    | none => exact (migrate_cases selected fates).imp (fun refused => refused.1) id

theorem holds_migrated {den : Den} {state : ProtectedState}
    (written : slotWrites platform firstGeneration state = .ok writes)
    (fits : ∀ write ∈ migrationWrites writes, write.data.length ≤ documentLimit) :
    Holds platform (den.apply (migrationWrites writes)) firstGeneration state := by
  have stored : ∀ write ∈ migrationWrites writes, den.apply (migrationWrites writes) write.file = some write.data :=
    fun write member => apply_of_mem (migrationWrites_distinct written) member
  refine ⟨stored ⟨modeFile, modeBytes⟩ (by simp [migrationWrites]),
    stored ⟨currentFile, currentBytes firstGeneration⟩ (by simp [migrationWrites]), by decide,
    writes, written, fun write member => ?_⟩
  have listed : write ∈ migrationWrites writes := List.mem_append_left _ member
  exact ⟨stored write listed, fits write listed⟩

theorem migrate_holds {den : Den} (unselected : den currentFile = none)
    (durable : (migrate platform den fates).2 = .reported (.durablyCommitted generation)) :
    ∃ state, legacyState platform den = .ok state ∧
      Holds platform (den.apply (migrate platform den fates).1) generation state := by
  rcases migrate_attempted unselected with ⟨error, refused⟩ | ⟨state, writes, flat, written, result⟩
  · rw [refused] at durable
    cases durable
  · have performed := replaceAll_performed (migrationWrites writes) fates
    rw [result] at durable ⊢
    cases ended : (replaceAll (migrationWrites writes) fates).2 with
    | some outcome =>
      rw [ended] at durable performed
      exact absurd (congrArg some durable) (performed.undecided generation)
    | none =>
      rw [ended] at durable performed
      cases durable
      have complete := performed.complete rfl
      have fits := performed.fits
      rw [complete] at fits ⊢
      exact ⟨state, flat, holds_migrated written fits⟩

theorem migrated_unselected {den : Den} {state : ProtectedState} (unselected : den currentFile = none)
    (written : slotWrites platform firstGeneration state = .ok writes)
    (first : visible <+: migrationWrites writes) (short : visible ≠ migrationWrites writes) :
    den.apply visible currentFile = none := by
  have shape : migrationWrites writes = (writes ++ [⟨modeFile, modeBytes⟩]) ++
      [⟨currentFile, currentBytes firstGeneration⟩] := by simp [migrationWrites]
  have distinct := migrationWrites_distinct written
  rw [shape] at first short distinct
  rcases List.prefix_concat_iff.mp first with complete | before
  · exact absurd complete short
  · rw [apply_of_notMem, unselected]
    intro named
    rw [List.map_append, List.nodup_append] at distinct
    refine distinct.2.2 currentFile ((before.map Write.file).subset named) currentFile ?_ rfl
    simp

theorem migrate_unselected {den : Den} (unselected : den currentFile = none)
    (failed : (migrate platform den fates).2 = .reported (.notCommitted error)) :
    den.apply (migrate platform den fates).1 currentFile = none := by
  rcases migrate_attempted unselected with ⟨_, refused⟩ | ⟨state, writes, flat, written, result⟩
  · rw [refused]
    exact unselected
  · have performed := replaceAll_performed (migrationWrites writes) fates
    rw [result] at failed ⊢
    cases ended : (replaceAll (migrationWrites writes) fates).2 with
    | none =>
      rw [ended] at failed
      cases failed
    | some outcome =>
      rw [ended] at failed performed
      have short := performed.refused error (congrArg some failed)
      refine migrated_unselected unselected written performed.first (fun complete => ?_)
      rw [complete] at short
      exact absurd short (Nat.lt_irrefl _)

theorem holds_after_migrate {den : Den} {after : ProtectedState}
    (holds : Holds platform (den.apply (migrate platform den fates).1) generation after) :
    Holds platform den generation after ∨ ∃ state, legacyState platform den = .ok state ∧
        Holds platform (den.apply (migrate platform den fates).1) firstGeneration state := by
  cases selected : loadCurrent platform den with
  | error error =>
    simp only [migrate, selected] at holds
    exact .inl holds
  | ok found =>
    cases found with
    | some observed =>
      simp only [migrate, selected] at holds
      exact .inl holds
    | none =>
      rcases migrate_cases selected fates with
        ⟨⟨error, refused⟩, _⟩ | ⟨state, writes, flat, written, result⟩
      · rw [refused] at holds
        exact .inl holds
      · have performed := replaceAll_performed (migrationWrites writes) fates
        have unselected := loadCurrent_none_iff.mp selected currentFile (by simp [protectedFiles])
        rw [result] at holds ⊢
        by_cases whole : (replaceAll (migrationWrites writes) fates).1 = migrationWrites writes
        · have fits := performed.fits
          rw [whole] at fits ⊢
          exact .inr ⟨state, flat, holds_migrated written fits⟩
        · have none := migrated_unselected unselected written performed.first whole
          cases none.symm.trans holds.current

theorem migrate_frame (den : Den) (fates : Nat → Replacement) {file : String} (outside : file ∉ protectedFiles) :
    den.apply (migrate platform den fates).1 file = den file := by
  refine apply_of_notMem (fun touched => outside ?_)
  cases selected : loadCurrent platform den with
  | error error => simp [migrate, selected] at touched
  | ok found =>
    cases found with
    | some generation => simp [migrate, selected] at touched
    | none =>
      rcases migrate_cases selected fates with ⟨⟨_, refused⟩, _⟩ | ⟨_, writes, _, written, result⟩
      · simp [refused] at touched
      · rw [result] at touched
        obtain ⟨write, member, rfl⟩ := List.mem_map.mp touched
        rcases List.mem_append.mp ((replaceAll_performed _ fates).first.subset member) with
          slot | marker
        · obtain ⟨document, named⟩ := slotWrites_file written slot
          exact named ▸ name_mem_protectedFiles _ document
        · simp only [List.mem_cons, List.not_mem_nil, or_false] at marker
          rcases marker with rfl | rfl <;> simp [protectedFiles]

theorem migrationWrites_fits {state : ProtectedState} {contents : Documents}
    (documented : documents platform state = .ok contents)
    (fits : ∀ bytes ∈ contents.bytes, bytes.length ≤ documentLimit) :
    ∃ writes, slotWrites platform firstGeneration state = .ok writes ∧
      ∀ write ∈ migrationWrites writes, write.data.length ≤ documentLimit := by
  obtain ⟨writes, written, sizes⟩ : ∃ writes, slotWrites platform firstGeneration state =
      .ok writes ∧ ∀ write ∈ writes, write.data.length ≤ documentLimit :=
    slotWrites_fits documented fits
  refine ⟨writes, written, fun write member => ?_⟩
  simp only [migrationWrites, List.mem_append, List.mem_cons, List.not_mem_nil, or_false] at member
  rcases member with slot | rfl | rfl
  · exact sizes write slot
  · exact modeBytes_length.trans (by decide)
  · exact (currentBytes_length firstGeneration).trans (by decide)

theorem migrate_durable_iff {den : Den} (legacy : loadCurrent platform den = .ok none) :
    (∃ generation, (migrate platform den (fun _ => .durablyCommitted)).2 =
      .reported (.durablyCommitted generation)) ↔ Migratable platform den := by
  constructor
  · rintro ⟨generation, succeeded⟩
    rcases migrate_cases legacy (fun _ => .durablyCommitted) with
      ⟨⟨error, refused⟩, _⟩ | ⟨state, writes, flat, written, result⟩
    · rw [refused] at succeeded
      cases succeeded
    · rw [result] at succeeded
      have performed := replaceAll_performed (migrationWrites writes) (fun _ => .durablyCommitted)
      have finished : (replaceAll (migrationWrites writes) (fun _ => .durablyCommitted)).2 = none := by
        cases ended : (replaceAll (migrationWrites writes) (fun _ => .durablyCommitted)).2 with
        | none => rfl
        | some outcome =>
          rw [ended] at succeeded performed
          exact absurd (congrArg some succeeded) (performed.undecided generation)
      have sizes := performed.fits
      rw [performed.complete finished] at sizes
      simp only [slotWrites, bind_eq_ok, return_eq_ok] at written
      obtain ⟨contents, documented, _, _, rfl⟩ := written
      refine ⟨state, contents, flat, documented, fun bytes member => ?_⟩
      simp only [migrationWrites, List.mem_append, List.mem_cons, List.not_mem_nil, or_false,
        Option.mem_toList, Option.map_eq_some_iff] at sizes
      simp only [Documents.bytes, List.mem_append, List.mem_cons, List.not_mem_nil, or_false,
        Option.mem_toList] at member
      rcases member with (rfl | rfl | rfl | rfl | rfl) | given
      · exact sizes ⟨_, _⟩ (.inl (.inl (.inl (.inl rfl))))
      · exact sizes ⟨_, _⟩ (.inl (.inl (.inl (.inr (.inl rfl)))))
      · exact sizes ⟨_, _⟩ (.inl (.inl (.inl (.inr (.inr (.inl rfl))))))
      · exact sizes ⟨_, _⟩ (.inl (.inl (.inl (.inr (.inr (.inr (.inl rfl)))))))
      · exact sizes ⟨_, _⟩ (.inl (.inl (.inl (.inr (.inr (.inr (.inr rfl)))))))
      · exact sizes ⟨_, _⟩ (.inl (.inl (.inr ⟨bytes, given, rfl⟩)))
  · rintro ⟨state, contents, flat, documented, fits⟩
    obtain ⟨writes, written, sizes⟩ := migrationWrites_fits documented fits
    have finished := replaceAll_durable sizes
    rw [migrationWrites] at finished
    exact ⟨firstGeneration, by simp only [migrate, legacy, flat, written, finished]; rfl⟩

theorem slotWrites_first {state : ProtectedState} (written : slotWrites platform generation state = .ok writes) :
    ∃ pack rest, writes = ⟨name generation.slot .pack, pack⟩ :: rest := by
  simp only [slotWrites, bind_eq_ok, return_eq_ok] at written
  obtain ⟨contents, _, _, _, rfl⟩ := written
  exact ⟨contents.pack, _, rfl⟩

theorem apply_present {den : Den} {file : String} (touched : file ∈ writes.map Write.file) :
    ∃ data, den.apply writes file = some data := by
  induction writes generalizing den with
  | nil => cases touched
  | cons write writes ih =>
    by_cases later : file ∈ writes.map Write.file
    · exact ih later
    · have same : file = write.file :=
        (List.mem_cons.mp touched).resolve_right later
      subst same
      exact ⟨write.data, (apply_of_notMem later).trans (Function.update_self _ _ _)⟩

theorem not_legacy_of_visible {den : Den} {state : ProtectedState}
    (written : slotWrites platform firstGeneration state = .ok writes)
    (first : visible <+: migrationWrites writes) (some : visible ≠ []) :
    loadCurrent platform (den.apply visible) ≠ .ok none := by
  intro absent
  obtain ⟨pack, rest, rfl⟩ := slotWrites_first written
  obtain ⟨write, later, rfl⟩ := List.exists_cons_of_ne_nil some
  obtain ⟨rfl, _⟩ := List.cons_prefix_cons.mp first
  have missing := loadCurrent_none_iff.mp absent _ (name_mem_protectedFiles firstGeneration.slot .pack)
  obtain ⟨data, found⟩ : ∃ data, den.apply (⟨name firstGeneration.slot .pack, pack⟩ :: later)
      (name firstGeneration.slot .pack) = .some data := apply_present (by simp)
  rw [found] at missing
  cases missing

theorem replaceAll_fails {before after : List Write} {write : Write}
    (fits : ∀ other ∈ before ++ write :: after, other.data.length ≤ documentLimit)
    (durable : ∀ index < before.length, fates index = .durablyCommitted)
    (fails : fates before.length = .notCommitted) :
    replaceAll (before ++ write :: after) fates = (before, some (.reported (.notCommitted .replacement))) := by
  induction before generalizing fates with
  | nil =>
    have small := Nat.not_lt.mpr (fits write (by simp))
    simp only [List.length_nil] at fails
    simp [replaceAll, replace, fails, small]
  | cons first before ih =>
    have small := Nat.not_lt.mpr (fits first (by simp))
    have rest : replaceAll (before ++ write :: after) (fun index => fates (index + 1)) = _ :=
      ih (fun other member => fits other (List.mem_cons_of_mem first member))
        (fun index below => durable (index + 1) (by simpa using below)) fails
    simp [replaceAll, replace, durable 0 (by simp), small, rest]

theorem fate_of_notCommitted {write : Write} {fate : Replacement} (fits : write.data.length ≤ documentLimit)
    (failed : (replace write fate).2 = some (.reported (.notCommitted error))) :
    fate = .notCommitted := by
  have small := Nat.not_lt.mpr fits
  cases fate <;> simp [replace, small] at failed ⊢

theorem migrate_fails {den : Den} (legacy : loadCurrent platform den = .ok none)
    (migratable : Migratable platform den) {position : Nat} (early : position < 3)
    (durable : ∀ index < position, fates index = .durablyCommitted) (fails : fates position = .notCommitted) :
    ∃ state writes, slotWrites platform firstGeneration state = .ok writes ∧ migrate platform den fates =
        ((migrationWrites writes).take position, .reported (.notCommitted .replacement)) := by
  obtain ⟨state, contents, flat, documented, fits⟩ := migratable
  obtain ⟨writes, written, sizes⟩ := migrationWrites_fits documented fits
  obtain ⟨pack, rest, shape⟩ := slotWrites_first written
  have inside : position < (migrationWrites writes).length := by
    simp only [shape, migrationWrites, List.length_append, List.length_cons, List.length_nil]
    omega
  have divided : (migrationWrites writes).take position ++ (migrationWrites writes)[position] ::
      (migrationWrites writes).drop (position + 1) = migrationWrites writes := by
    rw [← List.drop_eq_getElem_cons inside, List.take_append_drop]
  have length : ((migrationWrites writes).take position).length = position := by
    rw [List.length_take, Nat.min_eq_left (Nat.le_of_lt inside)]
  have stopped : replaceAll ((migrationWrites writes).take position ++
      (migrationWrites writes)[position] :: (migrationWrites writes).drop (position + 1)) fates =
        ((migrationWrites writes).take position, some (.reported (.notCommitted .replacement))) :=
    replaceAll_fails (by rwa [divided]) (by rwa [length]) (by rwa [length])
  rw [divided] at stopped
  refine ⟨state, writes, written, ?_⟩
  rw [migrationWrites] at stopped ⊢
  simp only [migrate, legacy, flat, written, stopped]
  rfl

theorem refused_of_artefacts {den : Den} {state : ProtectedState} (legacy : loadCurrent platform den = .ok none)
    (written : slotWrites platform firstGeneration state = .ok writes) (first : visible <+: writes)
    (some : visible ≠ []) :
    ∃ error, load platform (den.apply visible) = .error error ∧
      ∀ fates, (migrate platform (den.apply visible) fates).2 = .reported (.notCommitted error) := by
  have unmarked : den.apply visible modeFile = none := by
    rw [apply_of_notMem, loadCurrent_none_iff.mp legacy modeFile (by simp [protectedFiles])]
    intro touched
    obtain ⟨write, member, same⟩ := List.mem_map.mp touched
    obtain ⟨document, named⟩ := slotWrites_file written (first.subset member)
    exact ((names_distinct firstGeneration.slot).2 document (mem_all document)).1 (named.symm.trans same)
  cases loaded : loadCurrent platform (den.apply visible) with
  | error error =>
    refine ⟨error, ?_, fun fates => ?_⟩
    · rw [load, loaded]
      rfl
    · rw [migrate, loaded]
  | ok found =>
    cases found with
    | none =>
      exact absurd loaded (not_legacy_of_visible written (first.trans (List.prefix_append _ _)) some)
    | some generation =>
      rw [(selected_of_loadCurrent loaded).1] at unmarked
      cases unmarked

theorem first_fate {den : Den} {state : ProtectedState} (migratable : Migratable platform den)
    (flat : legacyState platform den = .ok state) (written : slotWrites platform firstGeneration state = .ok writes)
    (untouched : (replaceAll (migrationWrites writes) fates).1 = [])
    (failed : (replaceAll (migrationWrites writes) fates).2.getD
      (.reported (.durablyCommitted firstGeneration)) = .reported (.notCommitted error)) :
    fates 0 = .notCommitted := by
  obtain ⟨_, contents, found, documented, fits⟩ := migratable
  cases flat.symm.trans found
  obtain ⟨_, again, sizes⟩ : ∃ writes, slotWrites platform firstGeneration state = .ok writes ∧
      ∀ write ∈ writes, write.data.length ≤ documentLimit := slotWrites_fits documented fits
  cases written.symm.trans again
  obtain ⟨pack, rest, rfl⟩ := slotWrites_first written
  have first := sizes ⟨name firstGeneration.slot .pack, pack⟩ (by simp)
  rw [migrationWrites, List.cons_append] at untouched failed
  cases result : replace ⟨name firstGeneration.slot .pack, pack⟩ (fates 0) with
  | mk visible ended =>
    simp only [replaceAll, result] at untouched failed
    cases ended with
    | none => simp at untouched
    | some outcome => exact fate_of_notCommitted first (by rw [result]; exact congrArg some failed)

theorem untouched_of_fate {state : ProtectedState} (written : slotWrites platform firstGeneration state = .ok writes)
    (fate : fates 0 = .notCommitted) : (replaceAll (migrationWrites writes) fates).1 = [] := by
  obtain ⟨pack, rest, rfl⟩ := slotWrites_first written
  by_cases large : documentLimit < pack.length
  · simp [migrationWrites, replaceAll, replace, fate, large]
  · simp [migrationWrites, replaceAll, replace, fate, large]

/-- A migration that reports no effect can be repeated, and leaves the flat files
in force, exactly if its very first replacement was the one that failed and the
flat files are migratable. -/
theorem migration_repeatable_iff (platform : Platform) (den : Den) (fates : Nat → Replacement)
    (legacy : load platform den = .ok .legacy) :
    (∀ error, (migrate platform den fates).2 = .reported (.notCommitted error) →
      load platform (den.apply (migrate platform den fates).1) = .ok .legacy ∧
        ∃ generation, (migrate platform (den.apply (migrate platform den fates).1)
          (fun _ => .durablyCommitted)).2 = .reported (.durablyCommitted generation)) ↔
    (∀ error, (migrate platform den fates).2 = .reported (.notCommitted error) →
      Migratable platform den ∧ fates 0 = .notCommitted) := by
  have unselected := load_legacy_iff.mp legacy
  refine forall_congr' fun error => forall_congr' fun failed => ?_
  rcases migrate_cases unselected fates with
    ⟨⟨_, refused⟩, unfit⟩ | ⟨state, writes, flat, written, result⟩
  · -- nothing was written, so what refused the migration refuses it again
    rw [refused]
    exact ⟨fun ⟨_, succeeded⟩ => absurd ((migrate_durable_iff unselected).mp succeeded) unfit,
      fun ⟨migratable, _⟩ => absurd migratable unfit⟩
  · rw [result] at failed ⊢
    constructor
    · rintro ⟨again, succeeded⟩
      have untouched : (replaceAll (migrationWrites writes) fates).1 = [] := by
        by_contra visible
        exact not_legacy_of_visible written (replaceAll_performed _ fates).first visible (load_legacy_iff.mp again)
      simp only [untouched] at succeeded
      have migratable := (migrate_durable_iff unselected).mp succeeded
      exact ⟨migratable, first_fate migratable flat written untouched failed⟩
    · rintro ⟨migratable, fate⟩
      have untouched := untouched_of_fate written fate
      simp only [untouched]
      exact ⟨legacy, (migrate_durable_iff unselected).mpr migratable⟩

end Migrating

namespace Sample

def empty : Den := fun _ => none

def emptyState : ProtectedState := ⟨true, [], .deny, [], [], none⟩

def failing (position index : Nat) : Replacement :=
  if index = position then .notCommitted else .durablyCommitted

theorem failing_at (position : Nat) : failing position position = .notCommitted := if_pos rfl

theorem failing_before {position index : Nat} (before : index < position) :
    failing position index = .durablyCommitted := if_neg (Nat.ne_of_lt before)

theorem empty_legacy : load platform empty = .ok .legacy :=
  load_legacy_iff.mpr (loadCurrent_none_iff.mpr fun _ _ => rfl)

theorem empty_migratable : Migratable platform empty := by
  have small : (documents platform emptyState).toOption.any
      (fun contents => contents.bytes.all (fun bytes => bytes.length ≤ documentLimit)) = true := by
    decide +kernel
  cases documented : documents platform emptyState with
  | error => simp [documented, Except.toOption] at small
  | ok contents =>
    exact ⟨emptyState, contents, rfl, documented, by
      simpa [documented, Except.toOption] using small⟩

end Sample

open Sample

/-- The first replacement fails, and the next migration succeeds. -/
theorem first_failure_repeatable : load Sample.platform (empty.apply (migrate Sample.platform empty
        (Sample.failing 0)).1) = .ok .legacy ∧
      ∃ generation, (migrate Sample.platform (empty.apply (migrate Sample.platform
        empty (Sample.failing 0)).1) (fun _ => .durablyCommitted)).2 = .reported (.durablyCommitted generation) := by
  obtain ⟨state, writes, _, result⟩ := migrate_fails (load_legacy_iff.mp empty_legacy)
    empty_migratable (by decide : 0 < 3) (fun _ => failing_before)
    (failing_at 0)
  exact (migration_repeatable_iff Sample.platform empty (Sample.failing 0)
    empty_legacy).mpr (fun _ _ => ⟨empty_migratable, failing_at 0⟩)
    .replacement (congrArg Prod.snd result)

/-- The second one fails. The Den neither loads nor migrates any more. -/
theorem second_failure_unrepeatable : load Sample.platform empty = .ok .legacy ∧
      (migrate Sample.platform empty (Sample.failing 1)).2 = .reported (.notCommitted .replacement) ∧
      ∃ error, load Sample.platform (empty.apply (migrate Sample.platform empty
          (Sample.failing 1)).1) = .error error ∧
        ∀ fates, (migrate Sample.platform (empty.apply (migrate Sample.platform empty
          (Sample.failing 1)).1) fates).2 = .reported (.notCommitted error) := by
  have legacy := load_legacy_iff.mp empty_legacy
  obtain ⟨state, writes, written, result⟩ := migrate_fails legacy empty_migratable
    (by decide : 1 < 3) (fun _ => failing_before) (failing_at 1)
  obtain ⟨pack, rest, rfl⟩ := slotWrites_first written
  rw [result]
  exact ⟨empty_legacy, rfl, refused_of_artefacts legacy written ⟨rest, rfl⟩ (List.cons_ne_nil _ _)⟩

end Werewolf.Storage
