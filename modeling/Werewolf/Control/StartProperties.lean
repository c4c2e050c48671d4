import Werewolf.Control.FenceProperties

/-! A node never writes what its next start refuses. The state it committed, the
files it keeps beside it and the checks of the start are related by one
invariant of every transition. -/

namespace Werewolf.Control
open Library Procedure Governance Policy
open State hiding name
open Storage hiding name

variable {permit : Liberty → Prop} {host : Host} {before after system : System}

section Loading

variable {den : Den}

theorem readFile_isSome_iff {α : Type} {file : String} {limit : Nat} {default : α} {parse : List UInt8 → Option α} :
    (readFile den file limit default parse).isSome ↔
      ∀ data, den file = some data → data.length ≤ limit ∧ (parse data).isSome := by
  unfold readFile Storage.read
  cases den file with
  | none => simp
  | some data =>
    by_cases long : limit < data.length
    · simp [long]
    · simp [long, Nat.not_lt.mp long]

def SidesAccepted (host : Host) (den : Den) : Prop :=
  ∀ file ∈ sideFiles, ∀ data, den file = some data → host.accepts file data = true

theorem sidesAccepted_iff : SidesAccepted host den ↔
      (readFile den servicesFile documentLimit [] (parseServices host)).isSome ∧
      (readFile den publishedFile documentLimit [] (parsePublished host)).isSome ∧
      (readFile den routesFile documentLimit [] (parseRoutes host)).isSome ∧
      (readFile den advertiseFile advertiseLimit [] (parseAdvertise host)).isSome ∧
      (readFile den contactsFile documentLimit () (fun _ => some ())).isSome ∧
      (readFile den autoSyncFile autoSyncLimit true parseAutoSync).isSome ∧
      (readFile den peltFile peltLimit none (fun data => (parsePelt host data).map some)).isSome := by
  simp only [SidesAccepted, sideFiles, List.forall_mem_cons, readFile_isSome_iff]
  simp [Host.accepts, servicesFile, publishedFile, routesFile, advertiseFile, contactsFile, autoSyncFile, peltFile]

theorem loadStartupState_isSome_iff : (loadStartupState host den).isSome ↔
      ∃ generation state, loadProtected host den = some (generation, state) ∧
        SidesAccepted host den ∧ intruded host state.governance state.peers = false := by
  rw [sidesAccepted_iff]
  simp only [loadStartupState, Option.isSome_iff_exists, bind_eq_some, return_eq_some,
    Authority.require_eq_some, Bool.not_eq_true']
  constructor
  · rintro ⟨_, ⟨generation, state⟩, found, services, served, published, shown, routes, routed,
      advertised, advertises, _, contacts, autoSync, switched, pelt, worn, _, spared, _⟩
    exact ⟨generation, state, found, ⟨⟨_, served⟩, ⟨_, shown⟩, ⟨_, routed⟩, ⟨_, advertises⟩,
      ⟨_, contacts⟩, ⟨_, switched⟩, ⟨_, worn⟩⟩, spared⟩
  · rintro ⟨generation, state, found, ⟨⟨_, served⟩, ⟨_, shown⟩, ⟨_, routed⟩, ⟨_, advertises⟩,
      ⟨_, contacts⟩, ⟨_, switched⟩, ⟨_, worn⟩⟩, spared⟩
    exact ⟨_, ⟨generation, state⟩, found, _, served, _, shown, _, routed, _, advertises, _,
      contacts, _, switched, _, worn, (), spared, rfl⟩

end Loading

section Invariant

variable {file : String}

theorem Sound.congr {external : External} {state other : ProtectedState}
    (sound : Sound external state) (policy : other.targetPolicy = state.targetPolicy)
    (peers : other.peers = state.peers) (governance : other.governance = state.governance) :
    Sound external other := by
  refine ⟨policy ▸ sound.policy, peers ▸ sound.pack, ?_⟩
  rw [governance, peers]
  exact sound.members

structure Committable (external : External) (node : Node) : Prop where
  sound : Sound external (protectedFromLive node)
  selected : node.generation.isSome

theorem Committable.retained {external : External} {node next : Node}
    (committable : Committable external node) (retains : Retains node next) :
    Committable external next :=
  ⟨committable.sound.congr retains.targetPolicy retains.peers retains.governance,
    retains.generation ▸ committable.selected⟩

theorem Settles.committable {publish : Node → Node} {den : Den} {ended : Option Storage.Outcome}
    {external : External} (settles : Settles publish before den ended after)
    (published : ended = none → Committable external (publish before.node))
    (committable : Committable external before.node) : Committable external after.node := by
  cases settles with
  | durable => exact published rfl
  | unsure => exact committable.retained ⟨rfl, rfl, rfl, rfl, rfl⟩
  | refused => exact committable
  | stopped => exact committable

structure Startable (host : Host) (system : System) : Prop where
  held : ∃ generation state, Holds host.toPlatform system.den generation state ∧
    Sound host.toExternal state
  sides : SidesAccepted host system.den
  live : Committable host.toExternal system.node

theorem sideFiles_unprotected (side : file ∈ sideFiles) : file ∉ protectedFiles := by
  have apart : ∀ file ∈ sideFiles, file ∉ protectedFiles := by decide +kernel
  exact apart file side

theorem protectedFiles_notArchive (member : file ∈ protectedFiles) (sequence : UInt64) :
    file ≠ governanceArchiveName sequence := by
  have initials : ∀ file ∈ protectedFiles, file.toList.head? ≠ some 'g' := by decide +kernel
  exact ne_governanceArchiveName (initials file member) sequence

theorem sideFiles_notArchive (member : file ∈ sideFiles) (sequence : UInt64) :
    file ≠ governanceArchiveName sequence := by
  have initials : ∀ file ∈ sideFiles, file.toList.head? ≠ some 'g' := by decide +kernel
  exact ne_governanceArchiveName (initials file member) sequence

theorem SidesAccepted.congr {den other : Den} (sides : SidesAccepted host den)
    (same : ∀ file ∈ sideFiles, other file = den file) : SidesAccepted host other :=
  fun file member data present => sides file member data (same file member ▸ present)

theorem SidesAccepted.replaced {den : Den} {write : Write} {fate : Replacement} (sides : SidesAccepted host den)
    (accepted : write.data.length ≤ documentLimit → host.accepts write.file write.data = true) :
    SidesAccepted host (replaced den write fate) := by
  intro file member data present
  by_cases same : file = write.file
  · subst same
    unfold Control.replaced at present
    split at present
    · rename_i visible
      simp only [Den.apply, List.foldl_cons, List.foldl_nil, Function.update_self, Option.some.injEq] at present
      rw [← present]
      exact accepted ((replace_spec write fate).2.1 visible)
    · exact sides _ member data present
  · rw [replaced_frame same] at present
    exact sides file member data present

theorem commit_held (roundTrip : host.RoundTrip) {den : Den} {number : UInt64}
    {candidate : ProtectedState} {fates : Nat → Replacement}
    (held : ∃ generation state, Holds host.toPlatform den generation state ∧ Sound host.toExternal state)
    (sound : Sound host.toExternal candidate) :
    ∃ generation state, Holds host.toPlatform (den.apply (commit host.toPlatform den number candidate fates).1)
        generation state ∧ Sound host.toExternal state := by
  obtain ⟨generation, state, holds, stored⟩ := held
  cases effect : tookEffect (commit host.toPlatform den number candidate fates).1 with
  | true => exact ⟨_, candidate, (holds_of_tookEffect roundTrip effect holds).1, sound⟩
  | false => exact ⟨generation, state, holds_of_not_tookEffect roundTrip effect holds, stored⟩

theorem transaction_durable {outcome : Storage.Outcome} (durable : (System.transaction outcome).2 = none) :
    (System.transaction outcome).1.isSome := by
  match outcome with
  | .reported (.durablyCommitted _) => rfl
  | .reported (.notCommitted _) => cases durable
  | .reported .indeterminateAfterRename => cases durable
  | .stopped => cases durable

theorem Transition.startable (roundTrip : host.RoundTrip) (faithful : host.Faithful)
    (transition : Transition permit host before after) (startable : Startable host before) :
    (after.den tombstoneFile).isSome ∨ Startable host after := by
  obtain ⟨held, sides, live⟩ := startable
  cases transition with
  | moves moved retains => exact .inr ⟨held, sides, live.retained retains⟩
  | stored fares moved alive written =>
    rename_i write fate publish
    rcases written with ⟨side, retains, accepted⟩ | ⟨_, flat, _⟩
    · right
      rcases store_cases before write fate publish with same | settles
      · rw [same]
        exact ⟨held, sides, live⟩
      · refine ⟨?_, ?_, settles.committable (fun _ => live.retained retains) live⟩
        · obtain ⟨generation, state, holds, stored⟩ := held
          rw [settles.den]
          refine ⟨generation, state, holds.congr (fun file member => ?_), stored⟩
          exact replaced_frame (fun same => sideFiles_unprotected (same ▸ side) member)
        · rw [settles.den]
          exact sides.replaced (accepted faithful)
    · have selected := live.selected
      rw [flat] at selected
      cases selected
  | committed fares alive selected moved shows sound =>
    right
    rcases commitProtected_cases host before _ _ _ _ with same | settles
    · rw [same]
      exact ⟨held, sides, live⟩
    · have stored := sound faithful live.sound
      refine ⟨?_, ?_, settles.committable (fun durable => ?_) live⟩
      · rw [settles.den]
        exact commit_held roundTrip held stored
      · rw [settles.den]
        exact sides.congr (fun file member =>
          commit_frame _ _ _ _ (sideFiles_unprotected member))
      · obtain ⟨shown, numbered⟩ := shows (System.transaction _).1
        refine ⟨stored.congr shown.targetPolicy shown.peers shown.governance, ?_⟩
        rw [numbered]
        exact transaction_durable durable
  | archived =>
    right
    rcases replaceFile_cases before _ _ with same | noted
    · rw [same]
      exact ⟨held, sides, live⟩
    · rw [noted]
      obtain ⟨generation, state, holds, stored⟩ := held
      refine ⟨⟨generation, state, holds.congr (fun file member => ?_), stored⟩,
        sides.congr (fun file member => ?_), live⟩
      · exact replaced_frame (protectedFiles_notArchive member _)
      · exact replaced_frame (sideFiles_notArchive member _)
  | entombed =>
    rename_i data fate _ _
    rcases replaceFile_cases before _ _ with same | noted
    · rw [same]
      exact .inr ⟨held, sides, live⟩
    · rw [noted]
      by_cases visible : (replace ⟨tombstoneFile, data⟩ fate).1 = true
      · left
        simp [System.note, replaced, visible, Den.apply]
      · right
        have unchanged : replaced before.den ⟨tombstoneFile, data⟩ fate = before.den := by
          simp [replaced, visible]
        rw [unchanged]
        exact ⟨held, sides, live⟩
  | destroyed fares dying entombed =>
    left
    unfold System.finish
    split
    · exact finish_tombstone entombed
    · exact entombed
  | migrated fares alive flat =>
    have selected := live.selected
    rw [flat] at selected
    cases selected

theorem startable_of_loaded (roundTrip : host.RoundTrip) {den : Den} {node : Node}
    (loaded : loadStartupState host den = some node) (selected : node.generation.isSome)
    (living : ∀ head, node.governance = some head → head.deadAt = none) (running indeterminate : Bool) :
    Startable host ⟨node, den, running, indeterminate⟩ := by
  have accepted := loadStartupState_isSome_iff.mp (by rw [loaded]; rfl)
  obtain ⟨number, state, found, sides, spared⟩ := accepted
  obtain ⟨other, again, peers, policy, governance, _⟩ := loadStartupState_some loaded
  obtain ⟨rfl, rfl⟩ := Prod.mk.inj (Option.some.inj (found.symm.trans again))
  have manifest : ∃ generation, load host.toPlatform den = .ok (.manifest generation state) := by
    unfold loadProtected at found
    split at found
    · rename_i generation other loads
      obtain ⟨_, rfl⟩ := Prod.mk.inj (Option.some.inj found)
      exact ⟨generation, loads⟩
    · obtain ⟨other, _, same⟩ := Option.map_eq_some_iff.mp found
      have absent := (Prod.mk.inj same).1
      rw [← absent] at selected
      cases selected
    · cases found
  obtain ⟨generation, loads⟩ := manifest
  obtain ⟨holds, wellFormed, _⟩ := holds_of_load roundTrip loads
  have sound : Sound host.toExternal state := by
    refine ⟨wellFormed, holds.valid.1, fun head governed peer member => ?_⟩
    have alive := living head (governance.trans governed)
    simp only [intruded, governed, Option.any_some, alive, Option.isNone_none, Bool.true_and,
      List.any_eq_false, Bool.not_eq_true] at spared
    exact spared peer member
  exact ⟨⟨generation, state, holds, sound⟩, sides, sound.congr policy peers governance, selected⟩

theorem Startable.loads (roundTrip : host.RoundTrip) (startable : Startable host system) :
    ∃ generation state, load host.toPlatform system.den = .ok (.manifest generation state) ∧
      Sound host.toExternal state := by
  obtain ⟨generation, state, holds, sound⟩ := startable.held
  have loads := load_of_holds roundTrip sound.policy holds
  obtain ⟨again, wellFormed, _⟩ := holds_of_load roundTrip loads
  refine ⟨generation, state.normal, loads, wellFormed, again.valid.1,
    fun head governed peer member => ?_⟩
  exact sound.members head governed peer ((sortOn_perm _ _).mem_iff.mp member)

theorem startable_step (roundTrip : host.RoundTrip) (faithful : host.Faithful) (event : Event)
    (ready : system.running = true → Ready system)
    (holds : (system.den tombstoneFile).isSome ∨ Startable host system) :
    ((step host system event).den tombstoneFile).isSome ∨ Startable host (step host system event) := by
  refine step_preserves (fun system => (system.den tombstoneFile).isSome ∨ Startable host system)
    (fun _ _ _ _ => permits_anything) (fun _ _ transition holds => ?_) ?_ ?_ ?_ ready holds
  · rcases holds with entombed | startable
    · exact .inl (transition.entombed_stays entombed)
    · exact transition.startable roundTrip faithful startable
  · rintro (entombed | ⟨held, sides, live⟩)
    · exact .inl entombed
    · exact .inr ⟨held, sides, live⟩
  · intro environment node _ loaded absent living
    right
    have startable := holds.resolve_left (by simp [absent])
    refine startable_of_loaded roundTrip loaded ?_ living _ _
    obtain ⟨generation, state, loads, _⟩ := startable.loads roundTrip
    obtain ⟨other, found, _⟩ := loadStartupState_some loaded
    simp only [loadProtected, loads, Option.some.injEq, Prod.mk.injEq] at found
    rw [← found.1]
    rfl
  · intro environment _ _
    have left : Untouched system.den (start host environment system.den).2 :=
      start_den environment system.den
    rcases left with same | entombed
    · rw [same]
      rcases holds with entombed | ⟨held, sides, live⟩
      · exact .inl entombed
      · exact .inr ⟨held, sides, live⟩
    · exact .inl entombed

end Invariant

/-- On a Den with a manifest, whatever its node does, however its writes end and
wherever it stops, the next start loads what it finds, unless the Den is being
destroyed. -/
theorem own_state_always_loads (roundTrip : host.RoundTrip) (faithful : host.Faithful) (first : System)
    (stopped : first.running = false) (environment : Environment)
    (started : (step host first (.restart environment)).running = true)
    (manifest : (step host first (.restart environment)).node.generation.isSome) (events : List Event) :
    let den := (run (step host) (step host first (.restart environment)) events).den
    (den tombstoneFile).isSome ∨ ∃ generation state, load host.toPlatform den = .ok (.manifest generation state) ∧
        (loadStartupState host den).isSome ∧
        (∀ head, state.governance = some head → ∀ peer ∈ state.peers, excludes host.toExternal head peer = false) ∧
        (∀ name ∈ state.activeProfiles, ∃ profile ∈ state.fangProfiles, profile.name = name) ∧
        ∀ file ∈ sideFiles, ∀ data, den file = some data → host.accepts file data = true := by
  have initial : Startable host (step host first (.restart environment)) := by
    simp only [step] at started manifest ⊢
    cases result : start host environment first.den with
    | mk node den =>
        rw [result] at started manifest
        cases node with
        | none => cases started
        | some node =>
            obtain ⟨rfl, _, loaded, living⟩ := start_some result
            exact startable_of_loaded roundTrip loaded manifest living _ _
  have invariant := run_invariant (fun system => (system.running = true → Ready system) ∧
      ((system.den tombstoneFile).isSome ∨ Startable host system))
    (fun system event holds => ⟨ready_step event holds.1, startable_step roundTrip faithful event holds.1 holds.2⟩)
    ⟨(Reachable.of_restart stopped environment).ready, .inr initial⟩ events
  refine invariant.2.imp id (fun startable => ?_)
  obtain ⟨generation, state, loads, sound⟩ := startable.loads roundTrip
  refine ⟨generation, state, loads, ?_, sound.members, ?_, startable.sides⟩
  · refine loadStartupState_isSome_iff.mpr ⟨some generation.number, state, ?_, startable.sides, ?_⟩
    · simp [loadProtected, loads]
    · cases governed : state.governance with
      | none => rfl
      | some head =>
          simp only [intruded, Option.any_some, Bool.and_eq_false_iff, List.any_eq_false, Bool.not_eq_true]
          exact .inr (sound.members head governed)
  · intro name member
    have named := (holds_of_load roundTrip loads).1.valid.2
    exact ((active_iff _ _).mp named).2.1 name member

namespace Sample

section Holding

variable (host : Host) (state : ProtectedState)

def holding : Den :=
  match slotWrites host.toPlatform firstGeneration state with
  | .ok writes =>
      Den.apply (fun file => if file = modeFile then some modeBytes else none)
        (writes ++ [⟨currentFile, currentBytes firstGeneration⟩])
  | .error _ => fun _ => none

def storable : Bool :=
  (documents host.toPlatform state).toOption.any
    (fun contents => contents.bytes.all (fun bytes => bytes.length ≤ documentLimit))

def awake : Node where
  generation := some 1
  pelt := none
  peers := state.normal.peers
  targetPolicy := state.normal.targetPolicy
  fangProfiles := state.normal.fangProfiles
  activeProfiles := state.normal.activeProfiles
  governance := state.governance
  services := []
  published := []
  routes := []
  advertised := []
  autoSync := true
  gate := Authority.Gate.initial (startsLocked host state none)
  silver := if state.silverLocked then .active else .armed
  mode := if state.silverLocked then .silver else .human
  fangs := []
  storageDegraded := false
  dying := false

end Holding

variable {host : Host} {state : ProtectedState}

theorem documents_of_storable (stores : storable host state = true) :
    ∃ contents, documents host.toPlatform state = .ok contents ∧
      ∀ bytes ∈ contents.bytes, bytes.length ≤ documentLimit := by
  unfold storable at stores
  cases documented : documents host.toPlatform state with
  | error error => simp [documented, Except.toOption] at stores
  | ok contents => exact ⟨contents, rfl, by simpa [documented, Except.toOption] using stores⟩

theorem holding_holds (stores : storable host state = true) :
    Holds host.toPlatform (holding host state) firstGeneration state := by
  obtain ⟨contents, documented, fits⟩ := documents_of_storable stores
  obtain ⟨writes, written, bounded⟩ := slotWrites_fits documented fits
  unfold holding
  rw [written]
  exact holds_of_slot (if_pos rfl) (by decide) written bounded

theorem holding_absent {file : String} (outside : file ∉ protectedFiles) : holding host state file = none := by
  unfold holding
  cases written : slotWrites host.toPlatform firstGeneration state with
  | error error => rfl
  | ok writes =>
    have unnamed : file ∉ (writes ++ [(⟨currentFile, currentBytes firstGeneration⟩ : Write)]).map Write.file := by
      intro named
      obtain ⟨write, member, rfl⟩ := List.mem_map.mp named
      rcases List.mem_append.mp member with slot | selector
      · obtain ⟨document, same⟩ := slotWrites_file written slot
        exact outside (same ▸ name_mem_protectedFiles _ _)
      · cases List.mem_singleton.mp selector
        exact outside (by simp [protectedFiles])
    dsimp only
    rw [apply_of_notMem unnamed, if_neg]
    rintro rfl
    exact outside (by simp [protectedFiles])

theorem loadStartupState_holding (roundTrip : host.RoundTrip) (stores : storable host state = true)
    (sound : Sound host.toExternal state) :
    loadStartupState host (holding host state) = some (awake host state) := by
  have loads := load_of_holds roundTrip sound.policy (holding_holds stores)
  have absent : ∀ file ∈ sideFiles, holding host state file = none :=
    fun file side => holding_absent (sideFiles_unprotected side)
  have spared : intruded host state.normal.governance state.normal.peers = false := by
    cases governed : state.governance with
    | none => simp [intruded, ProtectedState.normal, governed]
    | some head =>
      simp only [intruded, ProtectedState.normal, governed, Option.any_some,
        Bool.and_eq_false_iff, List.any_eq_false, Bool.not_eq_true]
      exact .inr (fun peer member =>
        sound.members head governed peer ((sortOn_perm _ _).mem_iff.mp member))
  simp only [sideFiles, List.forall_mem_cons] at absent
  obtain ⟨services, published, routes, advertise, contacts, autoSync, pelt, _⟩ := absent
  simp [loadStartupState, loadProtected, loads, readFile, Storage.read, services, published,
    routes, advertise, contacts, autoSync, pelt, spared, Authority.require, awake]
  exact ⟨rfl, rfl, rfl, rfl, rfl⟩

theorem restart_holding (roundTrip : host.RoundTrip) (stores : storable host state = true)
    (sound : Sound host.toExternal state) (living : ∀ head, state.governance = some head → head.deadAt = none)
    (environment : Environment) :
    step host (stopped (holding host state)) (.restart environment) =
      ⟨awake host state, holding host state, true, false⟩ := by
  have absent : holding host state tombstoneFile = none :=
    holding_absent (fun member => tombstone_outside (List.mem_append_right _ member))
  have loaded := loadStartupState_holding roundTrip stores sound
  have started : start host environment (holding host state) = (some (awake host state), holding host state) := by
    simp only [start, absent, loaded]
    cases governed : state.governance with
    | none => simp [awake, governed]
    | some head => simp [awake, governed, living head governed]
  simp [step, stopped, started]

theorem emptyState_storable : storable Sample.host Storage.Sample.emptyState = true := by
  decide +kernel

theorem emptyState_sound : Sound Sample.host.toExternal Storage.Sample.emptyState :=
  ⟨trivial, rfl, fun _ governed => (by cases governed)⟩

end Sample

open Sample

/-- A start, a command and another start. -/
theorem restarted_state_loads :
    let first := stopped (holding Sample.host Storage.Sample.emptyState)
    (step Sample.host first (.restart environment)).node.generation.isSome ∧
      let den := (run (step Sample.host) (step Sample.host first (.restart environment))
        [smoothly .silverReset, .restart environment]).den
      (den tombstoneFile).isSome ∨ ∃ generation state,
        load Sample.host.toPlatform den = .ok (.manifest generation state) ∧
          (loadStartupState Sample.host den).isSome := by
  have begins := restart_holding Sample.roundTrip emptyState_storable
    emptyState_sound (fun _ governed => (by cases governed)) environment
  refine ⟨by rw [begins]; rfl, ?_⟩
  have loads := own_state_always_loads Sample.roundTrip Sample.faithful
    (stopped (holding Sample.host Storage.Sample.emptyState)) rfl
    environment (by rw [begins]) (by rw [begins]; rfl)
    [smoothly .silverReset, .restart environment]
  refine loads.imp id ?_
  rintro ⟨generation, state, loaded, succeeds, _⟩
  exact ⟨generation, state, loaded, succeeds⟩

end Werewolf.Control
