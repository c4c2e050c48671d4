/-! Runs of a total step function, and the two inductions over them: an
invariant of every reached state, and a preorder between any two of them. -/

namespace Werewolf.Library

variable {σ ε : Type}

/-- The state after all events, in order. -/
def run (step : σ → ε → σ) (start : σ) (events : List ε) : σ := events.foldl step start

@[simp] theorem run_nil (step : σ → ε → σ) (start : σ) : run step start [] = start := rfl

@[simp] theorem run_cons (step : σ → ε → σ) (start : σ) (event : ε) (events : List ε) :
    run step start (event :: events) = run step (step start event) events := rfl

@[simp] theorem run_append (step : σ → ε → σ) (start : σ) (first second : List ε) :
    run step start (first ++ second) = run step (run step start first) second :=
  List.foldl_append

theorem run_invariant {step : σ → ε → σ} (invariant : σ → Prop)
    (preserved : ∀ state event, invariant state → invariant (step state event))
    {start : σ} (initial : invariant start) (events : List ε) :
    invariant (run step start events) := by
  induction events generalizing start with
  | nil => exact initial
  | cons event events ih => exact ih (preserved start event initial)

theorem forall_steps_cons {step : σ → ε → σ} {meets : σ → ε → Prop} {start : σ} {first : ε} {events : List ε} :
    (∀ before event after, first :: events = before ++ event :: after → meets (run step start before) event) ↔
      meets start first ∧ ∀ before event after, events = before ++ event :: after →
        meets (run step (step start first) before) event := by
  constructor
  · intro all
    refine ⟨all [] first events rfl, fun before event after split => ?_⟩
    exact all (first :: before) event after (by rw [split, List.cons_append])
  · rintro ⟨now, later⟩ before event after split
    cases before with
    | nil =>
      obtain ⟨rfl, rfl⟩ := List.cons.inj split
      exact now
    | cons earlier before =>
      obtain ⟨rfl, rest⟩ := List.cons.inj split
      exact later before event after rest

theorem forall_steps_nil {step : σ → ε → σ} {meets : σ → ε → Prop} {start : σ} :
    ∀ before event after, [] = before ++ event :: after → meets (run step start before) event := by
  intro before event after split
  cases before <;> cases split

theorem run_invariant_of_steps {step : σ → ε → σ} (invariant : σ → Prop) (meets : σ → ε → Prop)
    (preserved : ∀ state event, invariant state → meets state event → invariant (step state event))
    {start : σ} (initial : invariant start) (events : List ε)
    (conditions : ∀ before event after, events = before ++ event :: after →
      meets (run step start before) event) : invariant (run step start events) := by
  induction events generalizing start with
  | nil => exact initial
  | cons event events ih =>
    obtain ⟨now, later⟩ := forall_steps_cons.mp conditions
    exact ih (preserved start event initial now) later

/-- What a step leaves true exactly where it was true and the step meets the
condition, holds at the end of exactly the runs all of whose steps meet it. -/
theorem run_iff_steps {step : σ → ε → σ} (invariant holds : σ → Prop) (meets : σ → ε → Prop)
    (preserved : ∀ state event, invariant state → invariant (step state event))
    (exact : ∀ state event, invariant state → (holds (step state event) ↔ holds state ∧ meets state event))
    {start : σ} (initial : invariant start) (events : List ε) :
    holds (run step start events) ↔ holds start ∧ ∀ before event after, events = before ++ event :: after →
        meets (run step start before) event := by
  induction events generalizing start with
  | nil => simp
  | cons event events ih =>
    rw [run_cons, ih (preserved start event initial), exact start event initial, and_assoc]
    exact and_congr_right (fun _ => forall_steps_cons.symm)

/-- Where it is known what a step must meet to keep a property, all states of a
run have it exactly if all its steps meet that. -/
theorem run_always_iff {step : σ → ε → σ} (invariant holds : σ → Prop) (meets : σ → ε → Prop)
    (preserved : ∀ state event, invariant state → invariant (step state event))
    (exact : ∀ state event, invariant state → holds state → (holds (step state event) ↔ meets state event))
    {start : σ} (initial : invariant start) (begins : holds start) (events : List ε) :
    (∀ before after, events = before ++ after → holds (run step start before)) ↔
      ∀ before event after, events = before ++ event :: after → meets (run step start before) event := by
  have reached := run_invariant invariant preserved initial
  constructor
  · intro always before event after split
    have now := always before (event :: after) split
    have next := always (before ++ [event]) after (by rw [split, List.append_assoc]; rfl)
    rw [run_append] at next
    exact (exact _ event (reached before) now).mp next
  · intro met before after split
    suffices kept : invariant (run step start before) ∧ holds (run step start before) from kept.2
    refine run_invariant_of_steps (fun state => invariant state ∧ holds state) meets
      (fun state event known meets => ⟨preserved state event known.1,
        (exact state event known.1 known.2).mpr meets⟩) ⟨initial, begins⟩ before
      (fun earlier event later shape => ?_)
    refine met earlier event (later ++ after) ?_
    rw [split, shape, List.append_assoc, List.cons_append]

/-- A reflexive and transitive relation that every step establishes relates
each reached state to every later one, as long as the invariant holds. -/
theorem run_related {step : σ → ε → σ} (invariant : σ → Prop) (relation : σ → σ → Prop)
    (reflexive : ∀ state, relation state state)
    (transitive : ∀ {first second third}, relation first second → relation second third → relation first third)
    (preserved : ∀ state event, invariant state → invariant (step state event))
    (advances : ∀ state event, invariant state → relation state (step state event))
    {start : σ} (initial : invariant start) (events : List ε) :
    relation start (run step start events) := by
  induction events generalizing start with
  | nil => exact reflexive start
  | cons event events ih =>
    exact transitive (advances start event initial) (ih (preserved start event initial))

end Werewolf.Library
