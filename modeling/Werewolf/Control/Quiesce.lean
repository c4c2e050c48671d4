import Mathlib.Data.List.Nodup
import Werewolf.Library.Transition

/-! Detaching Fangs and waiting for all they have spawned. The steps are those between
which other tasks run: every use of a tracker's mutex and every await. -/

namespace Werewolf.Control.Quiesce
open Library

structure Tracker where
  accepting : Bool
  handles : List Nat

/-- Where `detach_ids`, and then `quiesce` of the bundle it makes, have come to: the Fangs
still to close, the listeners still to join, the trackers still to empty and the children
taken from the others, the children still to join. -/
inductive Phase where
  | attached
  | closing (rest : List Nat)
  | joining (rest : List Nat)
  | taking (rest : List Nat) (children : List Nat)
  | waiting (children : List Nat)
  | returned

/-- Futures are counted as they are offered. The answers of `spawn` are kept, and the
futures that were started, by their Fangs. -/
structure State where
  trackers : Nat → Tracker
  listening : Nat → Bool
  finished : Nat → Bool
  offered : Nat
  answers : List (Nat × Bool)
  started : List (Nat × Nat)
  bundle : List Nat
  phase : Phase

def initial (listening : Nat → Bool) : State where
  trackers _ := ⟨true, []⟩
  listening := listening
  finished _ := false
  offered := 0
  answers := []
  started := []
  bundle := []
  phase := .attached

namespace State

/-- `FangCancellation::spawn` of the next future. -/
def spawn (state : State) (fang : Nat) : State :=
  let tracker := state.trackers fang
  if tracker.accepting then
    let handles := tracker.handles.filter (fun child => !state.finished child)
    { state with
      trackers := Function.update state.trackers fang ⟨true, handles ++ [state.offered]⟩
      started := state.started ++ [(fang, state.offered)]
      answers := state.answers ++ [(state.offered, true)]
      offered := state.offered + 1 }
  else
    { state with
      answers := state.answers ++ [(state.offered, false)]
      offered := state.offered + 1 }

/-- The next step of `detach_ids` and `quiesce`. To abort only asks a task to end, and
the end is a step of the task; a join waits for it. -/
def advance (state : State) : State :=
  match state.phase with
  | .closing (fang :: rest) =>
      { state with
        trackers := Function.update state.trackers fang { state.trackers fang with accepting := false }
        phase := .closing rest }
  | .closing [] => { state with phase := .joining state.bundle }
  | .joining (fang :: rest) =>
      if state.listening fang then state else { state with phase := .joining rest }
  | .joining [] => { state with phase := .taking state.bundle [] }
  | .taking (fang :: rest) children =>
      { state with
        trackers := Function.update state.trackers fang { state.trackers fang with handles := [] }
        phase := .taking rest (children ++ (state.trackers fang).handles) }
  | .taking [] children => { state with phase := .waiting children }
  | .waiting (child :: rest) =>
      if state.finished child then { state with phase := .waiting rest } else state
  | .waiting [] => { state with phase := .returned }
  | .attached => state
  | .returned => state

end State

/-- A call of `spawn`, the end of a task, or a step of the one that detaches. -/
inductive Event where
  | spawn (fang : Nat)
  | listenerEnds (fang : Nat)
  | childEnds (child : Nat)
  | detach (ids : List Nat)
  | advance

def step (state : State) : Event → State
  | .spawn fang => state.spawn fang
  | .listenerEnds fang => { state with listening := Function.update state.listening fang false }
  | .childEnds child => { state with finished := Function.update state.finished child true }
  | .detach ids =>
      match state.phase with
      | .attached => { state with bundle := ids, phase := .closing ids }
      | _ => state
  | .advance => state.advance

namespace State

variable {state : State} {fang : Nat}

def Detached (state : State) (fang : Nat) : Prop :=
  fang ∈ state.bundle ∧
    match state.phase with
    | .attached => False
    | .closing rest => fang ∉ rest
    | _ => True

def Taken (state : State) (fang : Nat) : Prop :=
  fang ∈ state.bundle ∧
    match state.phase with
    | .taking rest _ => fang ∉ rest
    | .waiting _ => True
    | .returned => True
    | _ => False

def held (state : State) : List Nat :=
  match state.phase with
  | .taking _ children => children
  | .waiting children => children
  | _ => []

structure Sound (state : State) : Prop where
  closed : ∀ fang, state.Detached fang → (state.trackers fang).accepting = false
  emptied : ∀ fang, state.Taken fang → (state.trackers fang).handles = []
  tracked : ∀ fang child, (fang, child) ∈ state.started → state.finished child = true ∨
    child ∈ (state.trackers fang).handles ∨ child ∈ state.held
  answered : ∀ fang child, (fang, child) ∈ state.started → (child, true) ∈ state.answers
  distinct : (state.answers.map (·.1)).Nodup
  counted : ∀ answer ∈ state.answers, answer.1 < state.offered

theorem Taken.detached (taken : state.Taken fang) : state.Detached fang := by
  obtain ⟨listed, phase⟩ := taken
  refine ⟨listed, ?_⟩
  split at phase <;> simp_all

theorem sound_initial (listening : Nat → Bool) : (initial listening).Sound where
  closed _ detached := absurd detached.1 (List.not_mem_nil)
  emptied _ taken := absurd taken.1 (List.not_mem_nil)
  tracked _ _ started := absurd started (List.not_mem_nil)
  answered _ _ started := absurd started (List.not_mem_nil)
  distinct := List.nodup_nil
  counted _ answer := absurd answer (List.not_mem_nil)

private theorem distinct_answer (sound : state.Sound) (answer : Bool) :
    ((state.answers ++ [(state.offered, answer)]).map (·.1)).Nodup := by
  rw [List.map_append, List.nodup_append]
  refine ⟨sound.distinct, by simp, ?_⟩
  intro number listed other same equal
  obtain ⟨answer, within, rfl⟩ := List.mem_map.mp listed
  have earlier := sound.counted answer within
  simp only [List.map_cons, List.map_nil, List.mem_singleton] at same
  omega

private theorem counted_answer (sound : state.Sound) (answer : Bool) :
    ∀ given ∈ state.answers ++ [(state.offered, answer)], given.1 < state.offered + 1 := by
  intro given listed
  rcases List.mem_append.mp listed with earlier | last
  · exact Nat.lt_succ_of_lt (sound.counted given earlier)
  · rw [List.mem_singleton.mp last]
    exact Nat.lt_succ_self _

theorem spawn_sound (sound : state.Sound) (fang : Nat) : (state.spawn fang).Sound := by
  unfold spawn
  dsimp only
  split
  · rename_i accepting
    have admits : ¬ state.Detached fang := fun detached => by
      rw [sound.closed fang detached] at accepting
      cases accepting
    refine ⟨fun other detached => ?_, fun other taken => ?_, ?_, ?_, distinct_answer sound true,
      counted_answer sound true⟩
    · have different : other ≠ fang := fun same => admits (same ▸ detached)
      simp only [Function.update_of_ne different]
      exact sound.closed other detached
    · have different : other ≠ fang := fun same => admits (same ▸ taken.detached)
      simp only [Function.update_of_ne different]
      exact sound.emptied other taken
    · intro other child started
      rcases List.mem_append.mp started with earlier | last
      · rcases sound.tracked other child earlier with ended | tracked | held
        · exact .inl ended
        · by_cases same : other = fang
          · subst same
            simp only [Function.update_self]
            cases ended : state.finished child with
            | true => exact .inl rfl
            | false =>
              refine .inr (.inl (List.mem_append_left _ (List.mem_filter.mpr ⟨tracked, ?_⟩)))
              simp [ended]
          · simp only [Function.update_of_ne same]
            exact .inr (.inl tracked)
        · exact .inr (.inr held)
      · cases List.mem_singleton.mp last
        simp only [Function.update_self]
        exact .inr (.inl (by simp))
    · intro other child started
      rcases List.mem_append.mp started with earlier | last
      · exact List.mem_append_left _ (sound.answered other child earlier)
      · cases List.mem_singleton.mp last
        simp
  · exact ⟨sound.closed, sound.emptied, sound.tracked,
      fun other child started => List.mem_append_left _ (sound.answered other child started),
      distinct_answer sound false, counted_answer sound false⟩

private theorem sound_of_phase {next : State} (sound : state.Sound) (started : next.started = state.started)
    (answers : next.answers = state.answers) (offered : next.offered = state.offered)
    (closed : ∀ fang, next.Detached fang → (next.trackers fang).accepting = false)
    (emptied : ∀ fang, next.Taken fang → (next.trackers fang).handles = [])
    (tracked : ∀ fang child, state.finished child = true ∨
      child ∈ (state.trackers fang).handles ∨ child ∈ state.held →
        next.finished child = true ∨ child ∈ (next.trackers fang).handles ∨ child ∈ next.held) :
    next.Sound where
  closed := closed
  emptied := emptied
  tracked fang child listed := tracked fang child (sound.tracked fang child (started ▸ listed))
  answered fang child listed := answers ▸ sound.answered fang child (started ▸ listed)
  distinct := answers ▸ sound.distinct
  counted := answers ▸ offered ▸ sound.counted

theorem advance_sound (sound : state.Sound) : state.advance.Sound := by
  have ⟨closed, emptied, _, _, _, _⟩ := sound
  unfold advance
  split
  all_goals rename_i phase
  all_goals simp only [Detached, Taken, phase] at closed emptied
  · rename_i fang rest
    refine sound_of_phase sound rfl rfl rfl (fun other detached => ?_) (fun _ taken => taken.2.elim)
      (fun other child => ?_)
    · by_cases same : other = fang
      · simp only [same, Function.update_self]
      · simp only [Function.update_of_ne same]
        exact closed other ⟨detached.1, by simpa [same] using detached.2⟩
    · by_cases same : other = fang
      · simp only [same, Function.update_self]
        simp [held, phase]
      · simp only [Function.update_of_ne same]
        simp [held, phase]
  · exact sound_of_phase sound rfl rfl rfl (fun other detached => closed other ⟨detached.1, by simp⟩)
      (fun _ taken => taken.2.elim) (by simp [held, phase])
  · split
    · exact sound
    · exact sound_of_phase sound rfl rfl rfl (fun other detached => closed other detached)
        (fun _ taken => taken.2.elim) (by simp [held, phase])
  · exact sound_of_phase sound rfl rfl rfl (fun other detached => closed other detached)
      (fun _ taken => absurd taken.1 taken.2) (by simp [held, phase])
  · rename_i fang rest children
    refine sound_of_phase sound rfl rfl rfl (fun other detached => ?_) (fun other taken => ?_) (fun other child => ?_)
    · have shut := closed other detached
      by_cases same : other = fang
      · subst same
        simpa only [Function.update_self] using shut
      · simpa only [Function.update_of_ne same] using shut
    · by_cases same : other = fang
      · simp only [same, Function.update_self]
      · simp only [Function.update_of_ne same]
        exact emptied other ⟨taken.1, by simpa [same] using taken.2⟩
    · by_cases same : other = fang
      · subst same
        simp only [Function.update_self]
        simp only [held, phase, List.mem_append, List.not_mem_nil]
        tauto
      · simp only [Function.update_of_ne same]
        simp only [held, phase, List.mem_append]
        tauto
  · exact sound_of_phase sound rfl rfl rfl (fun other detached => closed other detached)
      (fun other taken => emptied other ⟨taken.1, by simp⟩) (by simp [held, phase])
  · rename_i first rest
    split
    · rename_i ended
      refine sound_of_phase sound rfl rfl rfl (fun other detached => closed other detached)
        (fun other taken => emptied other taken) (fun other child => ?_)
      simp only [held, phase, List.mem_cons]
      rintro (earlier | tracked | rfl | waited)
      · exact .inl earlier
      · exact .inr (.inl tracked)
      · exact .inl ended
      · exact .inr (.inr waited)
    · exact sound
  · exact sound_of_phase sound rfl rfl rfl (fun other detached => closed other detached)
      (fun other taken => emptied other taken) (by simp [held, phase])
  · exact sound
  · exact sound

theorem step_sound (sound : state.Sound) (event : Event) : (step state event).Sound := by
  cases event with
  | spawn fang => exact spawn_sound sound fang
  | advance => exact advance_sound sound
  | listenerEnds fang =>
    exact sound_of_phase sound rfl rfl rfl sound.closed sound.emptied (by simp [step, held])
  | childEnds child =>
    refine sound_of_phase sound rfl rfl rfl sound.closed sound.emptied (fun fang other => ?_)
    rintro (ended | tracked)
    · by_cases same : other = child
      · exact .inl (by simp [step, same])
      · exact .inl (by simpa [step, Function.update_of_ne same] using ended)
    · exact .inr tracked
  | detach ids =>
    simp only [step]
    split
    · rename_i phase
      exact sound_of_phase sound rfl rfl rfl (fun fang detached => absurd detached.1 detached.2)
        (fun _ taken => taken.2.elim) (by simp [held, phase])
    · exact sound

theorem step_detached (sound : state.Sound) (detached : state.Detached fang) (event : Event) :
    (step state event).Detached fang ∧ (step state event).started.filter (fun child => child.1 = fang) =
        state.started.filter (fun child => child.1 = fang) := by
  cases event with
  | listenerEnds => exact ⟨detached, rfl⟩
  | childEnds => exact ⟨detached, rfl⟩
  | spawn other =>
    simp only [step, spawn]
    split
    · rename_i accepting
      have different : other ≠ fang := fun same => by
        rw [same, sound.closed fang detached] at accepting
        cases accepting
      exact ⟨detached, by simp [List.filter_append, different]⟩
    · exact ⟨detached, rfl⟩
  | detach ids =>
    obtain ⟨listed, phase⟩ := detached
    simp only [step]
    split
    · simp_all
    · exact ⟨⟨listed, phase⟩, rfl⟩
  | advance =>
    obtain ⟨listed, stage⟩ := detached
    simp only [step, advance]
    split
    all_goals rename_i phase
    all_goals simp only [phase] at stage
    all_goals first
      | exact stage.elim
      | exact ⟨⟨listed, List.not_mem_of_not_mem_cons stage⟩, rfl⟩
      | exact ⟨⟨listed, trivial⟩, rfl⟩
      | (split <;> exact ⟨⟨listed, by simp [phase]⟩, rfl⟩)
      | exact ⟨⟨listed, by simp [phase]⟩, rfl⟩

end State

open State

/-- Whatever calls of `spawn` come between the steps: when `quiesce` has returned, every
child of a detached Fang is over; after it is detached nothing is started for a Fang; and a
future that was refused is never started. -/
theorem quiesce_waits_for_every_child (listening : Nat → Bool) (events later : List Event) :
    let state := run step (initial listening) events
    (∀ fang child, state.phase = .returned → fang ∈ state.bundle → (fang, child) ∈ state.started →
      state.finished child = true) ∧
      (∀ fang, state.Detached fang → (run step state later).started.filter (fun child => child.1 = fang) =
          state.started.filter (fun child => child.1 = fang)) ∧
      ∀ fang child, (child, false) ∈ state.answers → (fang, child) ∉ state.started := by
  intro state
  have sound : state.Sound := run_invariant Sound (fun _ event sound => step_sound sound event)
    (sound_initial listening) events
  refine ⟨fun fang child returned listed started => ?_, fun fang detached => ?_,
    fun fang child refused started => ?_⟩
  · have emptied := sound.emptied fang ⟨listed, by simp [returned]⟩
    rcases sound.tracked fang child started with ended | tracked | held
    · exact ended
    · simp [emptied] at tracked
    · simp [State.held, returned] at held
  · refine (run_invariant (fun next : State => next.Sound ∧ next.Detached fang ∧
      next.started.filter (fun child => child.1 = fang) =
        state.started.filter (fun child => child.1 = fang)) ?_ ⟨sound, detached, rfl⟩ later).2.2
    rintro next event ⟨sound, detached, same⟩
    obtain ⟨still, kept⟩ := step_detached sound detached event
    exact ⟨step_sound sound event, still, kept.trans same⟩
  · have pairs := List.inj_on_of_nodup_map sound.distinct (sound.answered fang child started) refused rfl
    cases pairs

end Werewolf.Control.Quiesce
