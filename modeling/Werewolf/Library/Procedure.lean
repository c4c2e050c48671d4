import Mathlib.Logic.Relation

/-! Procedures that change a state and return a value or an error. An error
keeps what was changed before it. The rules say which steps a procedure goes
through, and follow the way procedures are put together. -/

namespace Werewolf.Library

abbrev Procedure (σ ε : Type) := ExceptT ε (StateM σ)

namespace Procedure
open Relation (ReflTransGen)

variable {σ ε α β : Type}

def execute (procedure : Procedure σ ε α) (state : σ) : Except ε α × σ :=
  procedure.run.run state

def alter (change : σ → α × σ) : Procedure σ ε α := modifyGet change

def check (condition : Bool) (error : ε) : Procedure σ ε Unit :=
  if condition then pure () else throw error

def expect (value : Option α) (error : ε) : Procedure σ ε α :=
  match value with
  | some value => pure value
  | none => throw error

def attempt (procedure : Procedure σ ε α) : Procedure σ ε (Except ε α) :=
  alter (execute procedure)

@[simp] theorem execute_pure (value : α) (state : σ) :
    execute (pure value : Procedure σ ε α) state = (.ok value, state) := rfl

@[simp] theorem execute_throw (error : ε) (state : σ) :
    execute (throw error : Procedure σ ε α) state = (.error error, state) := rfl

@[simp] theorem execute_alter (change : σ → α × σ) (state : σ) :
    execute (alter change : Procedure σ ε α) state = (.ok (change state).1, (change state).2) := rfl

theorem execute_bind (procedure : Procedure σ ε α) (rest : α → Procedure σ ε β) (state : σ) :
    execute (procedure >>= rest) state =
      match execute procedure state with
      | (.ok value, next) => execute (rest value) next
      | (.error error, next) => (.error error, next) := by
  have unfolded : execute (procedure >>= rest) state = execute (match (execute procedure state).1 with
        | .ok value => rest value
        | .error error => throw error) (execute procedure state).2 := rfl
  rw [unfolded]
  cases execute procedure state with
  | mk result next =>
    cases result with
    | ok value => rfl
    | error error => rfl

theorem invariant_of_steps {relation : σ → σ → Prop} (invariant : σ → Prop)
    (preserved : ∀ before after, relation before after → invariant before → invariant after)
    {first last : σ} (steps : ReflTransGen relation first last) (holds : invariant first) :
    invariant last := by
  induction steps with
  | refl => exact holds
  | tail _ step ih => exact preserved _ _ step ih

/-- Run from the state, the procedure goes through steps of the relation, and
what it returns, with the state it leaves, meets the condition. -/
def Follows (relation : σ → σ → Prop) (state : σ) (procedure : Procedure σ ε α) (after : α → σ → Prop) : Prop :=
  ReflTransGen relation state (execute procedure state).2 ∧
    ∀ value, (execute procedure state).1 = .ok value → after value (execute procedure state).2

/-- It goes through steps of the relation, whatever it returns. -/
abbrev Traces (relation : σ → σ → Prop) (state : σ) (procedure : Procedure σ ε α) : Prop :=
  Follows relation state procedure (fun _ _ => True)

variable {relation : σ → σ → Prop} {state : σ} {after : α → σ → Prop}

theorem follows_pure {value : α} (holds : after value state) :
    Follows relation state (pure value : Procedure σ ε α) after := by
  refine ⟨.refl, ?_⟩
  rintro _ ⟨⟩
  exact holds

theorem follows_throw {error : ε} : Follows relation state (throw error : Procedure σ ε α) after :=
  ⟨.refl, fun _ failed => by cases failed⟩

theorem follows_alter {change : σ → α × σ} (steps : ReflTransGen relation state (change state).2)
    (holds : after (change state).1 (change state).2) :
    Follows relation state (alter change : Procedure σ ε α) after := by
  refine ⟨steps, ?_⟩
  rintro _ ⟨⟩
  exact holds

theorem Follows.imp {procedure : Procedure σ ε α} {weaker : α → σ → Prop}
    (follows : Follows relation state procedure after) (holds : ∀ value next, after value next → weaker value next) :
    Follows relation state procedure weaker :=
  ⟨follows.1, fun value returned => holds value _ (follows.2 value returned)⟩

theorem Follows.mono {wider : σ → σ → Prop} {procedure : Procedure σ ε α}
    (follows : Follows relation state procedure after)
    (included : ∀ before after, relation before after → wider before after) :
    Follows wider state procedure after :=
  ⟨ReflTransGen.mono included _ _ follows.1, follows.2⟩

section Binding

variable {after : β → σ → Prop}

theorem follows_bind {procedure : Procedure σ ε α} {rest : α → Procedure σ ε β}
    {middle : α → σ → Prop} (first : Follows relation state procedure middle)
    (second : ∀ value next, middle value next → Follows relation next (rest value) after) :
    Follows relation state (procedure >>= rest) after := by
  obtain ⟨steps, holds⟩ := first
  unfold Follows
  rw [execute_bind]
  cases result : execute procedure state with
  | mk outcome next =>
    rw [result] at steps holds
    cases outcome with
    | ok value =>
      obtain ⟨later, ends⟩ := second value next (holds value rfl)
      exact ⟨steps.trans later, ends⟩
    | error error => exact ⟨steps, fun _ failed => by cases failed⟩

theorem follows_alter_bind {change : σ → α × σ} {rest : α → Procedure σ ε β}
    (steps : ReflTransGen relation state (change state).2)
    (second : Follows relation (change state).2 (rest (change state).1) after) :
    Follows relation state (alter change >>= rest) after := by
  have first : Follows relation state (alter change : Procedure σ ε α)
      (fun value next => value = (change state).1 ∧ next = (change state).2) :=
    follows_alter steps ⟨rfl, rfl⟩
  refine follows_bind first ?_
  rintro value next ⟨rfl, rfl⟩
  exact second

theorem follows_check {condition : Bool} {error : ε} {rest : Unit → Procedure σ ε β}
    (passes : condition = true → Follows relation state (rest ()) after) :
    Follows relation state (check condition error >>= rest) after := by
  cases condition with
  | true => exact passes rfl
  | false => exact follows_throw

theorem follows_expect {value : Option α} {error : ε} {rest : α → Procedure σ ε β}
    (found : ∀ some, value = .some some → Follows relation state (rest some) after) :
    Follows relation state (expect value error >>= rest) after := by
  cases value with
  | some value => exact found value rfl
  | none => exact follows_throw

theorem follows_liftExcept {value : Except ε α} {rest : α → Procedure σ ε β}
    (accepted : ∀ some, value = .ok some → Follows relation state (rest some) after) :
    Follows relation state ((liftExcept value : Procedure σ ε α) >>= rest) after := by
  cases value with
  | ok value => exact accepted value rfl
  | error error => exact follows_throw

theorem follows_attempt_bind {procedure : Procedure σ ε α} {middle : α → σ → Prop}
    {rest : Except ε α → Procedure σ ε β} (first : Follows relation state procedure middle)
    (succeeds : ∀ value next, execute procedure state = (.ok value, next) → middle value next →
      Follows relation next (rest (.ok value)) after)
    (fails : ∀ error next, Follows relation next (rest (.error error)) after) :
    Follows relation state (attempt procedure >>= rest) after := by
  obtain ⟨steps, holds⟩ := first
  refine follows_alter_bind steps ?_
  cases result : execute procedure state with
  | mk outcome next =>
    rw [result] at holds
    cases outcome with
    | ok value => exact succeeds value next result (holds value rfl)
    | error error => exact fails error next

theorem follows_forM {ι : Type} {body : ι → Procedure σ ε PUnit} {invariant : σ → Prop}
    (each : ∀ item state, invariant state → Follows relation state (body item) (fun _ => invariant)) :
    ∀ (items : List ι) (state : σ), invariant state → Follows relation state (items.forM body) (fun _ => invariant)
  | [], _, holds => follows_pure holds
  | item :: items, state, holds =>
    follows_bind (each item state holds) (fun _ next kept => follows_forM each items next kept)

end Binding

section Raising

variable {allowed : ε → Prop}

/-- Every error that the procedure returns, from whatever state, is one of these. -/
def Raises (allowed : ε → Prop) (procedure : Procedure σ ε α) : Prop :=
  ∀ state error, (execute procedure state).1 = .error error → allowed error

theorem raises_pure (value : α) : Raises allowed (pure value : Procedure σ ε α) :=
  fun _ _ failed => by cases failed

theorem raises_throw {error : ε} (holds : allowed error) : Raises allowed (throw error : Procedure σ ε α) := by
  rintro _ _ ⟨⟩
  exact holds

theorem raises_alter (change : σ → α × σ) : Raises allowed (alter change : Procedure σ ε α) :=
  fun _ _ failed => by cases failed

theorem raises_check {condition : Bool} {error : ε} (holds : allowed error) :
    Raises allowed (check condition error : Procedure σ ε Unit) := by
  cases condition with
  | true => exact raises_pure ()
  | false => exact raises_throw holds

theorem raises_expect {value : Option α} {error : ε} (holds : allowed error) :
    Raises allowed (expect value error : Procedure σ ε α) := by
  cases value with
  | some value => exact raises_pure value
  | none => exact raises_throw holds

theorem raises_bind {procedure : Procedure σ ε α} {rest : α → Procedure σ ε β}
    (first : Raises allowed procedure) (second : ∀ value, Raises allowed (rest value)) :
    Raises allowed (procedure >>= rest) := by
  intro state error failed
  rw [execute_bind] at failed
  cases result : execute procedure state with
  | mk outcome next =>
    rw [result] at failed
    cases outcome with
    | ok value => exact second value next error failed
    | error raised =>
      cases failed
      exact first state _ (by rw [result])

theorem raises_forM {ι : Type} {body : ι → Procedure σ ε PUnit}
    (each : ∀ item, Raises allowed (body item)) : ∀ items : List ι, Raises allowed (items.forM body)
  | [] => raises_pure _
  | item :: items => raises_bind (each item) (fun _ => raises_forM each items)

end Raising

section Replying

variable {fails : ε → σ → Prop}

/-- Run from the state, the procedure returns a value or an error, and what it
returns, with the state it leaves, meets the condition of its kind. -/
def Replies (state : σ) (procedure : Procedure σ ε α) (fails : ε → σ → Prop) (after : α → σ → Prop) : Prop :=
  (∀ error, (execute procedure state).1 = .error error → fails error (execute procedure state).2) ∧
    ∀ value, (execute procedure state).1 = .ok value → after value (execute procedure state).2

theorem Replies.imp {procedure : Procedure σ ε α} {weaker : α → σ → Prop}
    (replies : Replies state procedure fails after) (holds : ∀ value next, after value next → weaker value next) :
    Replies state procedure fails weaker :=
  ⟨replies.1, fun value returned => holds value _ (replies.2 value returned)⟩

theorem replies_pure {value : α} (holds : after value state) :
    Replies state (pure value : Procedure σ ε α) fails after := by
  refine ⟨fun _ failed => (by cases failed), ?_⟩
  rintro _ ⟨⟩
  exact holds

theorem replies_throw {error : ε} (holds : fails error state) :
    Replies state (throw error : Procedure σ ε α) fails after := by
  refine ⟨?_, fun _ returned => by cases returned⟩
  rintro _ ⟨⟩
  exact holds

theorem replies_alter {change : σ → α × σ} (holds : after (change state).1 (change state).2) :
    Replies state (alter change : Procedure σ ε α) fails after := by
  refine ⟨fun _ failed => (by cases failed), ?_⟩
  rintro _ ⟨⟩
  exact holds

theorem replies_check {condition : Bool} {error : ε} {after : Unit → σ → Prop}
    (refused : fails error state) (passes : after () state) :
    Replies state (check condition error : Procedure σ ε Unit) fails after := by
  cases condition with
  | true => exact replies_pure passes
  | false => exact replies_throw refused

theorem replies_expect {value : Option α} {error : ε} (absent : fails error state)
    (found : ∀ some, value = .some some → after some state) :
    Replies state (expect value error : Procedure σ ε α) fails after := by
  cases value with
  | some value => exact replies_pure (found value rfl)
  | none => exact replies_throw absent

section Sequences

variable {after : β → σ → Prop}

theorem replies_bind {procedure : Procedure σ ε α} {rest : α → Procedure σ ε β}
    {middle : α → σ → Prop} (first : Replies state procedure fails middle)
    (second : ∀ value next, middle value next → Replies next (rest value) fails after) :
    Replies state (procedure >>= rest) fails after := by
  obtain ⟨failed, returned⟩ := first
  unfold Replies
  rw [execute_bind]
  cases result : execute procedure state with
  | mk outcome next =>
    rw [result] at failed returned
    cases outcome with
    | ok value => exact second value next (returned value rfl)
    | error error =>
      refine ⟨?_, fun _ returned => by cases returned⟩
      rintro _ ⟨⟩
      exact failed error rfl

theorem replies_alter_bind {change : σ → α × σ} {rest : α → Procedure σ ε β}
    (second : Replies (change state).2 (rest (change state).1) fails after) :
    Replies state (alter change >>= rest) fails after := by
  have first : Replies state (alter change : Procedure σ ε α) fails
      (fun value next => value = (change state).1 ∧ next = (change state).2) :=
    replies_alter ⟨rfl, rfl⟩
  refine replies_bind first ?_
  rintro value next ⟨rfl, rfl⟩
  exact second

theorem replies_check_bind {condition : Bool} {error : ε} {rest : Unit → Procedure σ ε β}
    (refused : condition = false → fails error state)
    (passes : condition = true → Replies state (rest ()) fails after) :
    Replies state (check condition error >>= rest) fails after := by
  cases condition with
  | true => exact passes rfl
  | false => exact replies_throw (refused rfl)

theorem replies_expect_bind {value : Option α} {error : ε} {rest : α → Procedure σ ε β} (absent : fails error state)
    (found : ∀ some, value = .some some → Replies state (rest some) fails after) :
    Replies state (expect value error >>= rest) fails after := by
  cases value with
  | some value => exact found value rfl
  | none => exact replies_throw absent

end Sequences

end Replying

end Procedure

end Werewolf.Library
