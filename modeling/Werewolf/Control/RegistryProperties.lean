import Werewolf.Control.Registry
import Werewolf.Library.Transition

/-! Who can still abort a session child. As long as the finished listeners that are
removed have no running children, every running child has its tracker in the
registry or in a bundle that will abort it. -/

namespace Werewolf.Control
open Library

namespace Runtime

def Bundled (runtime : Runtime) (child : Child) : Prop :=
  ∃ bundle ∈ runtime.bundles, child.fang ∈ bundle.cancellations

def Tracks (runtime : Runtime) (child : Child) : Prop :=
  child ∈ (runtime.trackers child.fang).handles ∧
    (runtime.registry.cancellations.lookup ((runtime.records child.fang).id) = some child.fang ∨
      runtime.Bundled child)

instance (runtime : Runtime) (child : Child) : Decidable (runtime.Tracks child) :=
  inferInstanceAs (Decidable (_ ∧ (_ ∨ ∃ bundle ∈ runtime.bundles, _)))

/-- The registry and the tasks agree: listeners and trackers are kept under the same
ids, a listener that may still spawn is in the registry, and running children are
tracked. -/
structure Accounted (runtime : Runtime) : Prop where
  alike : ∀ id, runtime.registry.tasks.lookup id = runtime.registry.cancellations.lookup id
  named : ∀ id fang, runtime.registry.cancellations.lookup id = some fang →
    (runtime.records fang).id = id ∧ fang < runtime.opened
  begun : ∀ fang, runtime.listening fang = true → fang < runtime.opened
  admits : ∀ fang, runtime.listening fang = true → (runtime.trackers fang).accepting = true →
    runtime.registry.cancellations.lookup ((runtime.records fang).id) = some fang
  older : ∀ child ∈ runtime.alive, child.fang < runtime.opened
  tracked : ∀ child ∈ runtime.alive, runtime.Tracks child

theorem accounted_initial : Accounted initial where
  alike _ := rfl
  named _ _ found := by cases found
  begun _ listening := by cases listening
  admits _ listening := by cases listening
  older _ alive := by cases alive
  tracked _ alive := by cases alive

section Primitives

variable {runtime : Runtime} {fang other : Nat}

theorem mem_abortChildren {child : Child} (alive : child ∈ (runtime.abortChildren fang).alive) :
    child ∈ runtime.alive ∧ child ∉ (runtime.trackers fang).handles := by
  simpa [abortChildren, closeAdmission, abortTaken] using alive

theorem abortChildren_tracker (apart : other ≠ fang) :
    (runtime.abortChildren fang).trackers other = runtime.trackers other := by
  simp [abortChildren, closeAdmission, abortTaken, Function.update_of_ne apart]

theorem abortChildren_accepting
    (accepting : ((runtime.abortChildren fang).trackers other).accepting = true) :
    other ≠ fang ∧ (runtime.trackers other).accepting = true := by
  by_cases same : other = fang
  · subst same
    simp [abortChildren, closeAdmission, abortTaken] at accepting
  · rw [abortChildren_tracker same] at accepting
    exact ⟨same, accepting⟩

theorem closeAdmission_handles :
    ((runtime.closeAdmission fang).trackers other).handles = (runtime.trackers other).handles := by
  by_cases same : other = fang
  · subst same
    simp [closeAdmission]
  · simp [closeAdmission, Function.update_of_ne same]

theorem closeAdmission_accepting
    (accepting : ((runtime.closeAdmission fang).trackers other).accepting = true) :
    other ≠ fang ∧ (runtime.trackers other).accepting = true := by
  by_cases same : other = fang
  · subst same
    simp [closeAdmission] at accepting
  · exact ⟨same, by simpa [closeAdmission, Function.update_of_ne same] using accepting⟩

theorem stopListener_listening (listening : (runtime.stopListener fang).listening other = true) :
    runtime.listening other = true := by
  by_cases same : other = fang
  · subst same
    simp [stopListener] at listening
  · simpa [stopListener, Function.update_of_ne same] using listening

theorem Accounted.spawn (accounted : Accounted runtime) (fang : Nat) :
    Accounted (runtime.spawn fang) := by
  unfold Runtime.spawn
  dsimp only
  split
  · rename_i may
    simp only [Bool.and_eq_true] at may
    have registered := accounted.admits fang may.1 may.2
    refine ⟨accounted.alike, accounted.named, accounted.begun, fun other listening accepting => ?_,
      fun child alive => ?_, fun child alive => ?_⟩
    · refine accounted.admits other listening ?_
      by_cases same : other = fang
      · exact same ▸ may.2
      · simpa [Function.update_of_ne same] using accepting
    · rcases List.mem_append.mp alive with running | started
      · exact accounted.older child running
      · rw [List.mem_singleton.mp started]
        exact accounted.begun fang may.1
    · rcases List.mem_append.mp alive with running | started
      · obtain ⟨handled, held⟩ := accounted.tracked child running
        refine ⟨?_, held⟩
        by_cases same : child.fang = fang
        · subst same
          simp [handled, running]
        · simpa [Function.update_of_ne same] using handled
      · obtain rfl := List.mem_singleton.mp started
        exact ⟨by simp, .inl registered⟩
  · exact accounted

theorem Accounted.stopListener (accounted : Accounted runtime) (fang : Nat) :
    Accounted (runtime.stopListener fang) :=
  ⟨accounted.alike, accounted.named,
    fun other listening => accounted.begun other (stopListener_listening listening),
    fun other listening => accounted.admits other (stopListener_listening listening),
    accounted.older, accounted.tracked⟩

theorem Accounted.childEnds (accounted : Accounted runtime) (keep : Child → Bool) :
    Accounted { runtime with alive := runtime.alive.filter keep } :=
  ⟨accounted.alike, accounted.named, accounted.begun, accounted.admits,
    fun child alive => accounted.older child (List.mem_of_mem_filter alive),
    fun child alive => accounted.tracked child (List.mem_of_mem_filter alive)⟩

theorem Accounted.publish (accounted : Accounted runtime) {fang : Fang}
    (unused : runtime.registry.cancellations.lookup fang.id = none) :
    Accounted (runtime.publish fang) := by
  have kept {id : String} {serial : Nat}
      (found : runtime.registry.cancellations.lookup id = some serial) :
      (runtime.registry.cancellations.insert fang.id runtime.opened).lookup id = some serial := by
    rw [AList.lookup_insert_ne, found]
    rintro rfl
    rw [unused] at found
    cases found
  have name {serial : Nat} (older : serial < runtime.opened) :
      (Function.update runtime.records runtime.opened fang serial).id =
        (runtime.records serial).id :=
    congrArg Fang.id (Function.update_of_ne (Nat.ne_of_lt older) _ _)
  refine ⟨fun id => ?_, fun id serial found => ?_, fun serial listening => ?_,
    fun serial listening accepting => ?_, fun child alive => ?_, fun child alive => ?_⟩
  · by_cases same : id = fang.id
    · subst same
      simp [Runtime.publish]
    · simp [Runtime.publish, AList.lookup_insert_ne same, accounted.alike]
  · by_cases same : id = fang.id
    · subst same
      simp only [Runtime.publish, AList.lookup_insert, Option.some.injEq] at found
      subst found
      simp [Runtime.publish]
    · simp only [Runtime.publish, AList.lookup_insert_ne same] at found
      obtain ⟨named, older⟩ := accounted.named id serial found
      exact ⟨(name older).trans named, Nat.lt_succ_of_lt older⟩
  · by_cases same : serial = runtime.opened
    · simp [Runtime.publish, same]
    · simp only [Runtime.publish, Function.update_of_ne same] at listening
      exact Nat.lt_succ_of_lt (accounted.begun serial listening)
  · by_cases same : serial = runtime.opened
    · subst same
      have named : ((runtime.publish fang).records runtime.opened).id = fang.id := by
        simp [Runtime.publish]
      rw [named]
      exact AList.lookup_insert runtime.registry.cancellations
    · simp only [Runtime.publish, Function.update_of_ne same] at listening accepting
      have registered := kept (accounted.admits serial listening accepting)
      rwa [← name (accounted.begun serial listening)] at registered
  · exact Nat.lt_succ_of_lt (accounted.older child alive)
  · have older := accounted.older child alive
    obtain ⟨handled, held⟩ := accounted.tracked child alive
    refine ⟨?_, held.imp (fun registered => ?_) id⟩
    · simpa [Runtime.publish, Function.update_of_ne (Nat.ne_of_lt older)] using handled
    · have registered := kept registered
      rwa [← name older] at registered

end Primitives

section Dropping

variable {runtime : Runtime} {id : String}

theorem Accounted.dropped {after : Runtime} (accounted : Accounted runtime)
    (gone : String → Prop)
    (tasks : ∀ id, after.registry.tasks.lookup id = after.registry.cancellations.lookup id)
    (kept : ∀ id, ¬ gone id →
      after.registry.cancellations.lookup id = runtime.registry.cancellations.lookup id)
    (removed : ∀ id, gone id → after.registry.cancellations.lookup id = none)
    (records : after.records = runtime.records) (opened : after.opened = runtime.opened)
    (listening : ∀ fang, after.listening fang = true → runtime.listening fang = true)
    (accepting : ∀ fang, (after.trackers fang).accepting = true →
      (runtime.trackers fang).accepting = true)
    (closed : ∀ id fang, gone id → runtime.registry.cancellations.lookup id = some fang →
      after.listening fang = true → (after.trackers fang).accepting = false)
    (alive : ∀ child ∈ after.alive, child ∈ runtime.alive ∧
      (runtime.Tracks child → after.Tracks child)) : Accounted after where
  alike := tasks
  named id fang found := by
    by_cases left : gone id
    · rw [removed id left] at found
      cases found
    · rw [records, opened]
      exact accounted.named id fang ((kept id left).symm.trans found)
  begun fang heard := opened ▸ accounted.begun fang (listening fang heard)
  admits fang heard taking := by
    have registered := accounted.admits fang (listening fang heard) (accepting fang taking)
    by_cases left : gone ((runtime.records fang).id)
    · rw [closed _ fang left registered heard] at taking
      cases taking
    · rw [records, kept _ left, registered]
  older child running := opened ▸ accounted.older child (alive child running).1
  tracked child running := (alive child running).2 (accounted.tracked child (alive child running).1)

private theorem lookup_erase_alike {tasks cancellations : AList (fun _ : String => Nat)}
    {other : String} (alike : ∀ id, tasks.lookup id = cancellations.lookup id) :
    (tasks.erase id).lookup other = (cancellations.erase id).lookup other := by
  by_cases same : other = id
  · subst same
    rw [AList.lookup_erase, AList.lookup_erase]
  · rw [AList.lookup_erase_ne same, AList.lookup_erase_ne same, alike]

theorem Accounted.terminate (accounted : Accounted runtime) (id : String) :
    Accounted (runtime.terminate id) := by
  have tasks := accounted.alike id
  cases found : runtime.registry.cancellations.lookup id with
  | none =>
    rw [found] at tasks
    simpa only [Runtime.terminate, tasks, found] using accounted
  | some fang =>
    rw [found] at tasks
    have shape : runtime.terminate id =
        ((((runtime.stopListener fang).dropTask id).abortChildren fang).dropCancellation id) := by
      simp only [Runtime.terminate, tasks, Runtime.stopListener, Runtime.dropTask, found]
    rw [shape]
    refine accounted.dropped (· = id) (fun other => ?_) (fun other apart => ?_)
      (fun other same => ?_) rfl rfl (fun other => stopListener_listening)
      (fun other accepting => (abortChildren_accepting accepting).2)
      (fun other serial same registered listening => ?_) (fun child alive => ?_)
    · exact lookup_erase_alike accounted.alike
    · exact AList.lookup_erase_ne apart
    · exact same ▸ AList.lookup_erase _ _
    · obtain rfl := Option.some.inj ((same ▸ registered).symm.trans found)
      by_contra accepting
      exact (abortChildren_accepting (Bool.eq_true_of_not_eq_false accepting)).1 rfl
    · obtain ⟨running, spared⟩ := mem_abortChildren alive
      refine ⟨running, fun tracks => ?_⟩
      have apart : child.fang ≠ fang := by
        rintro rfl
        exact spared tracks.1
      have tracker : (((runtime.stopListener fang).dropTask id).abortChildren fang).trackers
          child.fang = runtime.trackers child.fang := abortChildren_tracker apart
      refine ⟨tracker ▸ tracks.1, tracks.2.imp (fun registered => ?_) (fun bundled => bundled)⟩
      have other : (runtime.records child.fang).id ≠ id := by
        intro same
        rw [same, found] at registered
        exact apart (Option.some.inj registered).symm
      exact (AList.lookup_erase_ne other).trans registered

theorem Accounted.retainRecords (accounted : Accounted runtime) (keep : Fang → Bool) :
    Accounted (runtime.retainRecords keep) :=
  ⟨accounted.alike, accounted.named, accounted.begun, accounted.admits, accounted.older,
    accounted.tracked⟩

theorem Accounted.terminateIds (accounted : Accounted runtime) (ids : List String) :
    Accounted (runtime.terminateIds ids) := by
  refine Accounted.retainRecords ?_ _
  induction ids generalizing runtime with
  | nil => exact accounted
  | cons id ids ih => exact ih (accounted.terminate id)

def held (state : Runtime × FangTermination) : Runtime :=
  { state.1 with bundles := state.1.bundles ++ [state.2] }

theorem Accounted.detach {state : Runtime × FangTermination} (accounted : Accounted (held state))
    (id : String) : Accounted (held (Runtime.detach state id)) := by
  obtain ⟨runtime, bundle⟩ := state
  have tasks := accounted.alike id
  cases found : runtime.registry.cancellations.lookup id with
  | none =>
    have absent : runtime.registry.tasks.lookup id = none := tasks.trans found
    simpa only [Runtime.detach, absent, found] using accounted
  | some fang =>
    have present : runtime.registry.tasks.lookup id = some fang := tasks.trans found
    have shape : Runtime.detach (runtime, bundle) id =
        (((runtime.closeAdmission fang).dropCancellation id).dropTask id,
          ⟨bundle.listeners ++ [fang], bundle.cancellations ++ [fang]⟩) := by
      simp only [Runtime.detach, found, Runtime.closeAdmission, Runtime.dropCancellation, present]
    rw [shape]
    refine accounted.dropped (· = id) (fun other => ?_) (fun other apart => ?_)
      (fun other same => ?_) rfl rfl (fun other listening => listening)
      (fun other accepting => (closeAdmission_accepting accepting).2)
      (fun other serial same registered listening => ?_)
      (fun child alive => ⟨alive, fun tracks => ⟨?_, ?_⟩⟩)
    · exact lookup_erase_alike accounted.alike
    · exact AList.lookup_erase_ne apart
    · exact same ▸ AList.lookup_erase _ _
    · obtain rfl := Option.some.inj ((same ▸ registered).symm.trans found)
      by_contra accepting
      exact (closeAdmission_accepting (Bool.eq_true_of_not_eq_false accepting)).1 rfl
    · exact closeAdmission_handles.symm ▸ tracks.1
    · -- The tracker is still in the registry, or it is now in the bundle.
      rcases tracks.2 with registered | ⟨other, listed, mine⟩
      · by_cases same : (runtime.records child.fang).id = id
        · have taken := found.symm.trans (same ▸ registered)
          refine .inr ⟨_, List.mem_append_right _ (List.mem_singleton_self _), ?_⟩
          rw [Option.some.inj taken]
          simp
        · exact .inl ((AList.lookup_erase_ne same).trans registered)
      · rcases List.mem_append.mp listed with listed | last
        · exact .inr ⟨other, List.mem_append_left _ listed, mine⟩
        · rw [List.mem_singleton.mp last] at mine
          exact .inr ⟨_, List.mem_append_right _ (List.mem_singleton_self _),
            List.mem_append_left _ mine⟩

theorem Accounted.begins (accounted : Accounted runtime) : Accounted (held (runtime, ⟨[], []⟩)) := by
  refine ⟨accounted.alike, accounted.named, accounted.begun, accounted.admits, accounted.older,
    fun child alive => ?_⟩
  obtain ⟨handled, held⟩ := accounted.tracked child alive
  refine ⟨handled, held.imp (fun registered => registered) (fun bundled => ?_)⟩
  obtain ⟨bundle, listed, mine⟩ := bundled
  exact ⟨bundle, List.mem_append_left _ listed, mine⟩

theorem Accounted.detachIds (accounted : Accounted runtime) (ids : List String) :
    Accounted (runtime.detachIds ids) := by
  have filled (state : Runtime × FangTermination) (accounted : Accounted (held state)) :
      Accounted (held (ids.foldl Runtime.detach state)) := by
    induction ids generalizing state with
    | nil => exact accounted
    | cons id ids ih => exact ih _ (accounted.detach id)
  exact (filled _ accounted.begins).retainRecords _

def Spent (runtime : Runtime) (id : String) : Prop :=
  ∀ fang, runtime.registry.cancellations.lookup id = some fang →
    runtime.listening fang = false ∧ ∀ child ∈ runtime.alive, child.fang ≠ fang

theorem Accounted.drop (accounted : Accounted runtime) (spent : runtime.Spent id) :
    Accounted ((runtime.dropTask id).dropCancellation id) := by
  refine accounted.dropped (· = id) (fun other => ?_) (fun other apart => ?_)
    (fun other same => ?_) rfl rfl (fun other listening => listening)
    (fun other accepting => accepting) (fun other serial same registered listening => ?_)
    (fun child alive => ⟨alive, fun tracks => ⟨tracks.1, ?_⟩⟩)
  · exact lookup_erase_alike accounted.alike
  · exact AList.lookup_erase_ne apart
  · exact same ▸ AList.lookup_erase _ _
  · have silent := (spent serial (same ▸ registered)).1
    exact absurd (silent.symm.trans listening) (by decide)
  · refine tracks.2.imp (fun registered => ?_) (fun bundled => bundled)
    refine (AList.lookup_erase_ne (fun same : (runtime.records child.fang).id = id => ?_)).trans registered
    rw [same] at registered
    exact (spent child.fang registered).2 child alive rfl

theorem Spent.drop {other : String} (spent : runtime.Spent id) :
    ((runtime.dropTask other).dropCancellation other).Spent id := by
  intro fang found
  refine spent fang ?_
  by_cases same : id = other
  · subst same
    rw [Runtime.dropCancellation, AList.lookup_erase] at found
    cases found
  · exact (AList.lookup_erase_ne same).symm.trans found

theorem finishedIds_spent (accounted : Accounted runtime) (finished : id ∈ runtime.finishedIds)
    (quiet : ∀ child ∈ runtime.alive, runtime.registry.cancellations.lookup id ≠ some child.fang) :
    runtime.Spent id := by
  intro fang found
  simp only [Runtime.finishedIds, List.mem_map, List.mem_filter, Bool.not_eq_true'] at finished
  obtain ⟨entry, ⟨listed, silent⟩, rfl⟩ := finished
  have task : runtime.registry.tasks.lookup entry.1 = some entry.2 := AList.mem_lookup_iff.mpr listed
  obtain rfl := Option.some.inj ((task.symm.trans (accounted.alike _)).trans found)
  exact ⟨silent, fun child alive same => quiet child alive (same ▸ found)⟩

theorem Accounted.removeFinished (accounted : Accounted runtime)
    (quiet : ∀ child ∈ runtime.alive, ∀ id ∈ runtime.finishedIds,
      runtime.registry.cancellations.lookup id ≠ some child.fang) :
    Accounted runtime.removeFinished := by
  have spent : ∀ id ∈ runtime.finishedIds, runtime.Spent id := fun id finished =>
    finishedIds_spent accounted finished (fun child alive => quiet child alive id finished)
  have dropped (dead : List String) (runtime : Runtime) (accounted : Accounted runtime)
      (spent : ∀ id ∈ dead, runtime.Spent id) :
      Accounted (dead.foldl (fun runtime id => (runtime.dropTask id).dropCancellation id)
        runtime) := by
    induction dead generalizing runtime with
    | nil => exact accounted
    | cons id dead ih =>
      exact ih _ (accounted.drop (spent id List.mem_cons_self))
        (fun other listed => (spent other (List.mem_cons_of_mem _ listed)).drop)
  exact (dropped _ runtime accounted spent).retainRecords _

end Dropping

section Aborting

variable {runtime : Runtime}

structure Sheds (fangs : List Nat) (before after : Runtime) : Prop where
  registry : after.registry = before.registry
  listening : after.listening = before.listening
  bundles : after.bundles = before.bundles
  records : after.records = before.records
  opened : after.opened = before.opened
  alive : ∀ child ∈ after.alive, child ∈ before.alive ∧
    ∀ fang ∈ fangs, child ∉ (before.trackers fang).handles
  tracker : ∀ fang, fang ∉ fangs → after.trackers fang = before.trackers fang
  accepting : ∀ fang, (after.trackers fang).accepting = true →
    (before.trackers fang).accepting = true

theorem abortTaken_sheds (runtime : Runtime) (fang : Nat) :
    Sheds [fang] runtime (runtime.abortTaken fang) := by
  refine ⟨rfl, rfl, rfl, rfl, rfl, fun child alive => ?_, fun other apart => ?_,
    fun other accepting => ?_⟩
  · simpa [abortTaken] using alive
  · simp [abortTaken, Function.update_of_ne (by simpa using apart)]
  · by_cases same : other = fang
    · subst same
      simpa [abortTaken] using accepting
    · simpa [abortTaken, Function.update_of_ne same] using accepting

theorem abortChildren_sheds (runtime : Runtime) (fang : Nat) :
    Sheds [fang] runtime (runtime.abortChildren fang) := by
  refine ⟨rfl, rfl, rfl, rfl, rfl, fun child alive => ?_,
    fun other apart => abortChildren_tracker (by simpa using apart),
    fun other accepting => (abortChildren_accepting accepting).2⟩
  simpa using mem_abortChildren alive

theorem Sheds.foldl {abort : Runtime → Nat → Runtime}
    (one : ∀ runtime fang, Sheds [fang] runtime (abort runtime fang)) (fangs : List Nat)
    (runtime : Runtime) : Sheds fangs runtime (fangs.foldl abort runtime) := by
  induction fangs generalizing runtime with
  | nil => exact ⟨rfl, rfl, rfl, rfl, rfl, fun child alive => ⟨alive, by simp⟩, fun _ _ => rfl,
      fun _ accepting => accepting⟩
  | cons fang fangs ih =>
    have first := one runtime fang
    have rest := ih (abort runtime fang)
    refine ⟨rest.registry.trans first.registry, rest.listening.trans first.listening,
      rest.bundles.trans first.bundles, rest.records.trans first.records,
      rest.opened.trans first.opened, fun child alive => ?_, fun other apart => ?_,
      fun other accepting => first.accepting other (rest.accepting other accepting)⟩
    · obtain ⟨between, spared⟩ := rest.alive child alive
      obtain ⟨running, other⟩ := first.alive child between
      refine ⟨running, fun serial listed => ?_⟩
      by_cases same : serial = fang
      · exact same ▸ other fang (List.mem_singleton_self _)
      · have later := spared serial ((List.mem_cons.mp listed).resolve_left same)
        rwa [first.tracker serial (by simpa using same)] at later
    · rw [List.mem_cons, not_or] at apart
      exact (rest.tracker other apart.2).trans (first.tracker other (by simpa using apart.1))

theorem Sheds.spares {fangs : List Nat} {before after : Runtime} (sheds : Sheds fangs before after)
    {child : Child} (alive : child ∈ after.alive) (tracks : before.Tracks child) :
    child.fang ∉ fangs ∧ child ∈ (after.trackers child.fang).handles := by
  have apart : child.fang ∉ fangs := fun listed =>
    (sheds.alive child alive).2 child.fang listed tracks.1
  exact ⟨apart, (sheds.tracker child.fang apart).symm ▸ tracks.1⟩

theorem foldl_stopListener (fangs : List Nat) (runtime : Runtime) :
    (∃ listening, fangs.foldl stopListener runtime = { runtime with listening := listening }) ∧
      ∀ fang, (fangs.foldl stopListener runtime).listening fang = true →
        runtime.listening fang = true ∧ fang ∉ fangs := by
  induction fangs generalizing runtime with
  | nil => exact ⟨⟨runtime.listening, rfl⟩, fun fang listening => ⟨listening, by simp⟩⟩
  | cons stopped fangs ih =>
    obtain ⟨⟨listening, shape⟩, silent⟩ := ih (runtime.stopListener stopped)
    refine ⟨⟨listening, shape⟩, fun fang heard => ?_⟩
    obtain ⟨before, apart⟩ := silent fang heard
    refine ⟨stopListener_listening before, ?_⟩
    rw [List.mem_cons, not_or]
    refine ⟨?_, apart⟩
    rintro rfl
    simp [stopListener] at before

theorem Accounted.quiesce (accounted : Accounted runtime) (index : Nat) :
    Accounted (runtime.quiesce index) := by
  unfold Runtime.quiesce
  cases found : runtime.bundles[index]? with
  | none => exact accounted
  | some bundle =>
    dsimp only
    obtain ⟨⟨listening, stopped⟩, silent⟩ := foldl_stopListener bundle.listeners runtime
    rw [stopped] at silent ⊢
    have sheds := Sheds.foldl abortTaken_sheds bundle.cancellations
      { runtime with listening := listening }
    revert sheds
    generalize bundle.cancellations.foldl abortTaken { runtime with listening := listening } = after
    intro sheds
    constructor
    · simpa only [sheds.registry] using accounted.alike
    · simpa only [sheds.registry, sheds.records, sheds.opened] using accounted.named
    · intro fang heard
      rw [sheds.listening] at heard
      simpa only [sheds.opened] using accounted.begun fang (silent fang heard).1
    · intro fang heard accepting
      rw [sheds.listening] at heard
      show after.registry.cancellations.lookup ((after.records fang).id) = some fang
      rw [sheds.registry, sheds.records]
      exact accounted.admits fang (silent fang heard).1 (sheds.accepting fang accepting)
    · intro child alive
      simpa only [sheds.opened] using accounted.older child (sheds.alive child alive).1
    · intro child alive
      have tracks := accounted.tracked child (sheds.alive child alive).1
      obtain ⟨apart, handled⟩ := sheds.spares alive tracks
      refine ⟨handled, tracks.2.imp (fun registered => ?_) (fun bundled => ?_)⟩
      · show after.registry.cancellations.lookup ((after.records child.fang).id) = some child.fang
        rw [sheds.registry, sheds.records]
        exact registered
      -- The bundle of the child is not the one that was quiesced.
      · obtain ⟨other, waiting, listed⟩ := bundled
        obtain ⟨place, held⟩ := List.mem_iff_getElem?.mp waiting
        refine ⟨other, ?_, listed⟩
        simp only [sheds.bundles]
        refine List.mem_eraseIdx_iff_getElem?.mpr ⟨place, fun same => apart ?_, held⟩
        rw [same, found] at held
        exact Option.some.inj held ▸ listed

theorem Accounted.abortAll (accounted : Accounted runtime) : Accounted runtime.abortAll := by
  have registered : ∀ id fang, runtime.registry.cancellations.lookup id = some fang →
      fang ∈ runtime.registry.cancellations.entries.map (·.2) ∧
        fang ∈ runtime.registry.tasks.entries.map (·.2) := by
    intro id fang found
    exact ⟨List.mem_map.mpr ⟨⟨id, fang⟩, AList.mem_lookup_iff.mp found, rfl⟩,
      List.mem_map.mpr ⟨⟨id, fang⟩,
        AList.mem_lookup_iff.mp ((accounted.alike id).trans found), rfl⟩⟩
  have sheds := Sheds.foldl abortChildren_sheds
    (runtime.registry.cancellations.entries.map (·.2)) runtime
  unfold Runtime.abortAll
  dsimp only
  revert sheds
  generalize (runtime.registry.cancellations.entries.map (·.2)).foldl abortChildren runtime =
    aborted
  intro sheds
  obtain ⟨⟨listening, stopped⟩, silent⟩ :=
    foldl_stopListener (runtime.registry.tasks.entries.map (·.2)) aborted
  rw [stopped] at silent ⊢
  rw [sheds.listening] at silent
  constructor
  · exact fun id => rfl
  · intro id fang found
    cases found
  · intro fang heard
    simpa only [sheds.opened] using accounted.begun fang (silent fang heard).1
  · intro fang heard accepting
    have found := accounted.admits fang (silent fang heard).1 (sheds.accepting fang accepting)
    exact absurd (registered _ fang found).2 (silent fang heard).2
  · intro child alive
    simpa only [sheds.opened] using accounted.older child (sheds.alive child alive).1
  · intro child alive
    have tracks := accounted.tracked child (sheds.alive child alive).1
    obtain ⟨apart, handled⟩ := sheds.spares alive tracks
    refine ⟨handled, .inr ?_⟩
    obtain ⟨bundle, waiting, listed⟩ :=
      tracks.2.resolve_left (fun found => apart (registered _ child.fang found).1)
    exact ⟨bundle, sheds.bundles.symm ▸ waiting, listed⟩

end Aborting

section Removing

variable {runtime : Runtime}

structure Drops (ids : List String) (before after : Runtime) : Prop where
  fangs : after.registry.fangs = before.registry.fangs
  records : after.records = before.records
  lookup : ∀ id, after.registry.cancellations.lookup id =
    if id ∈ ids then none else before.registry.cancellations.lookup id

theorem Drops.foldl {σ : Type} (view : σ → Runtime) {step : σ → String → σ}
    (one : ∀ state id, Drops [id] (view state) (view (step state id))) (ids : List String)
    (state : σ) : Drops ids (view state) (view (ids.foldl step state)) := by
  induction ids generalizing state with
  | nil => exact ⟨rfl, rfl, fun id => by simp⟩
  | cons id ids ih =>
    have first := one state id
    have rest := ih (step state id)
    refine ⟨rest.fangs.trans first.fangs, rest.records.trans first.records, fun other => ?_⟩
    refine (rest.lookup other).trans ?_
    rw [first.lookup other]
    by_cases same : other = id
    · simp [same]
    · simp [same]

theorem dropCancellation_lookup {id other : String} :
    (runtime.dropCancellation id).registry.cancellations.lookup other =
      if other ∈ [id] then none else runtime.registry.cancellations.lookup other := by
  split
  · rename_i same
    rw [List.mem_singleton.mp same]
    exact AList.lookup_erase _ _
  · rename_i apart
    exact AList.lookup_erase_ne (List.mem_singleton.not.mp apart)

private theorem lookup_absent {id other : String}
    (absent : runtime.registry.cancellations.lookup id = none) :
    runtime.registry.cancellations.lookup other =
      if other ∈ [id] then none else runtime.registry.cancellations.lookup other := by
  split
  · rename_i same
    rw [List.mem_singleton.mp same, absent]
  · rfl

theorem terminate_drops (runtime : Runtime) (id : String) :
    Drops [id] runtime (runtime.terminate id) := by
  unfold Runtime.terminate
  cases runtime.registry.tasks.lookup id <;>
    cases found : runtime.registry.cancellations.lookup id with
    | none =>
      simp only [stopListener, dropTask, found]
      exact ⟨rfl, rfl, fun other => lookup_absent found⟩
    | some fang =>
      simp only [stopListener, dropTask, found]
      exact ⟨rfl, rfl, fun other => dropCancellation_lookup⟩

theorem detach_drops (state : Runtime × FangTermination) (id : String) :
    Drops [id] state.1 (Runtime.detach state id).1 := by
  unfold Runtime.detach
  cases found : state.1.registry.cancellations.lookup id with
  | none =>
    dsimp only
    split <;> exact ⟨rfl, rfl, fun other => lookup_absent found⟩
  | some fang =>
    dsimp only
    split <;> exact ⟨rfl, rfl, fun other => dropCancellation_lookup⟩

def Recorded (runtime : Runtime) : Prop :=
  ∀ id fang, runtime.registry.cancellations.lookup id = some fang → runtime.records fang ∈ runtime.registry.fangs

theorem Recorded.publish (recorded : runtime.Recorded) (accounted : Accounted runtime)
    (fang : Fang) : (runtime.publish fang).Recorded := by
  intro id serial found
  simp only [Runtime.publish] at found ⊢
  by_cases same : id = fang.id
  · subst same
    rw [AList.lookup_insert, Option.some.injEq] at found
    subst found
    simp
  · rw [AList.lookup_insert_ne same] at found
    rw [Function.update_of_ne (Nat.ne_of_lt (accounted.named id serial found).2)]
    exact List.mem_append_left _ (recorded id serial found)

theorem Recorded.retain {ids : List String} {after : Runtime} (recorded : runtime.Recorded)
    (accounted : Accounted runtime) (drops : Drops ids runtime after) :
    (after.retainRecords (fun fang => fang.id ∉ ids)).Recorded := by
  intro id fang found
  have kept := (drops.lookup id).symm.trans found
  split at kept
  · cases kept
  · rename_i absent
    simp only [retainRecords, drops.records, drops.fangs, List.mem_filter, decide_not,
      Bool.not_eq_true', decide_eq_false_iff_not]
    exact ⟨recorded id fang kept, by rwa [(accounted.named id fang kept).1]⟩

end Removing

end Runtime

/-- No running child belongs to a listener that ended and is now removed, and every
Fang has an id of its own. -/
def RegistryEvent.Heeds (runtime : Runtime) : RegistryEvent → Prop
  | .publish fang => runtime.registry.cancellations.lookup fang.id = none
  | .removeFinished => ∀ child ∈ runtime.alive, ∀ id ∈ runtime.finishedIds,
      runtime.registry.cancellations.lookup id ≠ some child.fang
  | _ => True

instance (runtime : Runtime) : (event : RegistryEvent) → Decidable (event.Heeds runtime)
  | .publish _ => inferInstanceAs (Decidable (_ = none))
  | .removeFinished => inferInstanceAs (Decidable (∀ child ∈ _, ∀ id ∈ _, _ ≠ _))
  | .spawn _ | .listenerEnds _ | .childEnds _ | .terminateIds _ | .terminatePeer _
  | .detachIds _ | .quiesce _ | .abortAll => inferInstanceAs (Decidable True)

def RegistryEvent.Ends : RegistryEvent → Fang → Prop
  | .terminateIds ids, fang => fang.id ∈ ids
  | .terminatePeer peer, fang => fang.uses peer = true
  | .detachIds ids, fang => fang.id ∈ ids
  | .abortAll, _ => True
  | _, _ => False

namespace Runtime

variable {runtime : Runtime}

theorem Accounted.step (accounted : Accounted runtime) {event : RegistryEvent}
    (heeds : event.Heeds runtime) : Accounted (runtime.step event) := by
  cases event with
  | publish fang => exact accounted.publish heeds
  | spawn fang => exact accounted.spawn fang
  | listenerEnds fang => exact accounted.stopListener fang
  | childEnds child => exact accounted.childEnds _
  | removeFinished => exact accounted.removeFinished heeds
  | terminateIds ids => exact accounted.terminateIds ids
  | terminatePeer peer => exact accounted.terminateIds _
  | detachIds ids => exact accounted.detachIds ids
  | quiesce index => exact accounted.quiesce index
  | abortAll => exact accounted.abortAll

theorem terminateIds_drops (runtime : Runtime) (ids : List String) :
    Drops ids runtime (ids.foldl terminate runtime) :=
  Drops.foldl (fun runtime => runtime) terminate_drops ids runtime

theorem detachIds_drops (runtime : Runtime) (ids : List String) :
    Drops ids runtime (ids.foldl detach (runtime, ⟨[], []⟩)).1 :=
  Drops.foldl Prod.fst detach_drops ids (runtime, ⟨[], []⟩)

theorem quiesce_registry (runtime : Runtime) (index : Nat) :
    (runtime.quiesce index).registry = runtime.registry ∧
      (runtime.quiesce index).records = runtime.records := by
  unfold Runtime.quiesce
  split
  · exact ⟨rfl, rfl⟩
  · rename_i bundle found
    obtain ⟨listening, stopped⟩ := (foldl_stopListener bundle.listeners runtime).1
    have sheds := Sheds.foldl abortTaken_sheds bundle.cancellations
      (bundle.listeners.foldl stopListener runtime)
    rw [stopped] at sheds ⊢
    exact ⟨sheds.registry, sheds.records⟩

theorem Recorded.step (recorded : runtime.Recorded) (accounted : Accounted runtime)
    (event : RegistryEvent) : (runtime.step event).Recorded := by
  cases event with
  | publish fang => exact recorded.publish accounted fang
  | spawn fang =>
    show (runtime.spawn fang).Recorded
    unfold Runtime.spawn
    dsimp only
    split <;> exact recorded
  | listenerEnds fang => exact recorded
  | childEnds child => exact recorded
  | removeFinished =>
    refine recorded.retain accounted
      (Drops.foldl (fun runtime => runtime) (fun runtime id => ?_) _ runtime)
    exact ⟨rfl, rfl, fun other => dropCancellation_lookup⟩
  | terminateIds ids => exact recorded.retain accounted (terminateIds_drops runtime ids)
  | terminatePeer peer => exact recorded.retain accounted (terminateIds_drops runtime _)
  | detachIds ids => exact recorded.retain accounted (detachIds_drops runtime ids)
  | quiesce index =>
    obtain ⟨registry, records⟩ := quiesce_registry runtime index
    show (runtime.quiesce index).Recorded
    unfold Recorded
    rw [registry, records]
    exact recorded
  | abortAll =>
    intro id fang found
    cases found

theorem Recorded.bundled (recorded : runtime.Recorded) {event : RegistryEvent}
    (next : Accounted (runtime.step event)) {child : Child}
    (alive : child ∈ (runtime.step event).alive)
    (ends : event.Ends ((runtime.step event).records child.fang)) :
    (runtime.step event).Bundled child := by
  refine (next.tracked child alive).2.resolve_left (fun registered => ?_)
  have left {ids : List String} {after : Runtime} (drops : Drops ids runtime after)
      (registered : after.registry.cancellations.lookup (after.records child.fang).id =
        some child.fang) :
      (runtime.records child.fang).id ∉ ids ∧
        runtime.registry.cancellations.lookup (runtime.records child.fang).id =
          some child.fang := by
    rw [drops.lookup, drops.records] at registered
    split at registered
    · cases registered
    · rename_i spared
      exact ⟨spared, registered⟩
  cases event with
  | terminateIds ids =>
    have drops := terminateIds_drops runtime ids
    exact (left drops registered).1 (drops.records ▸ ends)
  | detachIds ids =>
    have drops := detachIds_drops runtime ids
    exact (left drops registered).1 (drops.records ▸ ends)
  | abortAll => cases registered
  | terminatePeer peer =>
    have drops := terminateIds_drops runtime (runtime.idsUsingPeer peer)
    obtain ⟨spared, before⟩ := left drops registered
    have uses : (runtime.records child.fang).uses peer = true := drops.records ▸ ends
    exact spared (List.mem_map_of_mem
      (List.mem_filter.mpr ⟨recorded _ child.fang before, uses⟩))
  | publish fang => cases ends
  | spawn fang => cases ends
  | listenerEnds fang => cases ends
  | childEnds child => cases ends
  | removeFinished => cases ends
  | quiesce index => cases ends

/-- As long as no listener that ended is removed with children still running, every
running child has a tracker in the registry under the id of its Fang or in a bundle,
and whatever ends a Fang leaves no child of it but to a bundle. -/
theorem children_stay_tracked (events : List RegistryEvent)
    (heeds : ∀ before event after, events = before ++ event :: after →
      event.Heeds (run Runtime.step initial before)) :
    (∀ child ∈ (run Runtime.step initial events).alive,
      (run Runtime.step initial events).Tracks child) ∧
    ∀ before event, events = before ++ [event] →
      ∀ child ∈ (run Runtime.step initial events).alive,
        event.Ends ((run Runtime.step initial events).records child.fang) →
          (run Runtime.step initial events).Bundled child := by
  have reached (events : List RegistryEvent)
      (heeds : ∀ before event after, events = before ++ event :: after →
        event.Heeds (run Runtime.step initial before)) :
      Accounted (run Runtime.step initial events) ∧ (run Runtime.step initial events).Recorded :=
    run_invariant_of_steps (fun runtime => Accounted runtime ∧ runtime.Recorded)
      (fun runtime event => event.Heeds runtime)
      (fun runtime event known heeds => ⟨known.1.step heeds, known.2.step known.1 event⟩)
      ⟨accounted_initial, fun _ _ found => by cases found⟩ events heeds
  refine ⟨(reached events heeds).1.tracked, fun before event last => ?_⟩
  subst last
  have earlier := reached before (fun first next rest split =>
    heeds first next (rest ++ [event]) (by rw [split, List.append_assoc, List.cons_append]))
  have now := (reached _ heeds).1
  rw [run_append] at now ⊢
  exact fun child alive ends => earlier.2.bundled now alive ends

end Runtime

namespace Sample

def northward : Fang := ⟨"first", "north", "127.0.0.1:4000", "127.0.0.1:80", []⟩

def southward : Fang := ⟨"second", "south", "127.0.0.1:4001", "127.0.0.1:80", ["east"]⟩

def closing : List RegistryEvent :=
  [.publish northward, .publish southward, .spawn 0, .spawn 1, .removeFinished,
    .listenerEnds 0, .terminatePeer "north"]

def forgetting : List RegistryEvent :=
  [.publish northward, .spawn 0, .listenerEnds 0, .removeFinished, .abortAll]

end Sample

namespace Runtime

theorem closing_keeps_the_other_child :
    (run Runtime.step initial (Sample.closing.take 6)).alive = [⟨0, 0⟩, ⟨1, 1⟩] ∧
      (run Runtime.step initial Sample.closing).alive = [⟨1, 1⟩] ∧
      ∀ child ∈ (run Runtime.step initial Sample.closing).alive,
        (run Runtime.step initial Sample.closing).Tracks child := by
  refine ⟨by decide, by decide, (children_stay_tracked Sample.closing ?_).1⟩
  simp only [Sample.closing, forall_steps_cons]
  exact ⟨by decide, by decide, trivial, trivial, by decide, trivial, trivial, forall_steps_nil⟩

/-- Silver leaves the child of a Fang that was removed as finished. -/
theorem forgotten_child_outlives_silver :
    (run Runtime.step initial Sample.forgetting).alive = [⟨0, 0⟩] ∧
      (run Runtime.step initial Sample.forgetting).bundles = [] ∧
      RegistryEvent.abortAll.Ends ((run Runtime.step initial Sample.forgetting).records 0) ∧
      ¬ (run Runtime.step initial (Sample.forgetting.take 4)).Tracks ⟨0, 0⟩ ∧
      ¬ (run Runtime.step initial Sample.forgetting).Tracks ⟨0, 0⟩ :=
  ⟨by decide, by decide, trivial, by decide, by decide⟩

end Runtime

end Werewolf.Control
