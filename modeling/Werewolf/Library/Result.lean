import Mathlib.Data.List.Forall2

/-! Sequencing of fallible computations. -/

namespace Werewolf.Library

variable {ε α β : Type}

theorem bind_eq_ok {computation : Except ε α} {next : α → Except ε β} {result : β} :
    (computation >>= next) = .ok result ↔ ∃ value, computation = .ok value ∧ next value = .ok result := by
  cases computation with
  | error error => simp [bind, Except.bind]
  | ok value => simp [bind, Except.bind]

theorem ite_eq_ok_iff {condition : Prop} [Decidable condition] {error : ε} {otherwise : Except ε α} {result : α} :
    (if condition then .error error else otherwise) = .ok result ↔ ¬ condition ∧ otherwise = .ok result := by
  by_cases holds : condition <;> simp [holds]

@[simp] theorem return_eq_ok {value result : α} : (return value : Except ε α) = .ok result ↔ value = result := by
  simp [pure, Except.pure]

theorem bind_eq_some {value : Option α} {next : α → Option β} {result : β} :
    (value >>= next) = some result ↔ ∃ found, value = some found ∧ next found = some result :=
  Option.bind_eq_some_iff

theorem return_eq_some {value result : α} : (return value : Option α) = some result ↔ value = result :=
  Option.some_inj

theorem mapM_map_some {encode : α → β} {decode : β → Option α} {values : List α}
    (each : ∀ value ∈ values, decode (encode value) = some value) :
    (values.map encode).mapM decode = some values := by
  induction values with
  | nil => rfl
  | cons value rest ih =>
    rw [List.map_cons, List.mapM_cons, each value List.mem_cons_self,
      ih (fun other member => each other (List.mem_cons_of_mem value member))]
    rfl

section Avoiding

variable {ε α β : Type} {bad : ε}

/-- The computation may fail, but not in this way. -/
def Avoids (bad : ε) (computation : Except ε α) : Prop := computation ≠ .error bad

theorem avoids_ok (value : α) : Avoids bad (.ok value : Except ε α) := fun failed => by cases failed

theorem avoids_error {error : ε} (other : error ≠ bad) : Avoids bad (.error error : Except ε α) :=
  fun failed => other (Except.error.inj failed)

theorem avoids_bind {computation : Except ε α} {next : α → Except ε β} (first : Avoids bad computation)
    (second : ∀ value, computation = .ok value → Avoids bad (next value)) :
    Avoids bad (computation >>= next) := by
  cases computation with
  | error error => exact avoids_error (fun same => first (congrArg Except.error same))
  | ok value => exact second value rfl

theorem avoids_ok_bind {value : α} {next : α → Except ε β} (rest : Avoids bad (next value)) :
    Avoids bad (.ok value >>= next) :=
  rest

theorem avoids_ite {condition : Prop} [Decidable condition] {error : ε}
    {otherwise : Except ε α} (other : error ≠ bad) (rest : ¬ condition → Avoids bad otherwise) :
    Avoids bad (if condition then .error error else otherwise) := by
  by_cases holds : condition
  · rw [if_pos holds]
    exact avoids_error other
  · rw [if_neg holds]
    exact rest holds

end Avoiding

theorem mapM_eq_ok_iff {parse : α → Except ε β} {values : List α} {results : List β} :
    values.mapM parse = .ok results ↔ List.Forall₂ (fun value result => parse value = .ok result) values results := by
  induction values generalizing results with
  | nil => simp [pure, Except.pure, eq_comm]
  | cons value values ih =>
    simp only [List.mapM_cons, bind_eq_ok, return_eq_ok, ih, List.forall₂_cons_left_iff]
    constructor
    · rintro ⟨first, read, rest, others, rfl⟩
      exact ⟨first, rest, read, others, rfl⟩
    · rintro ⟨first, rest, read, others, rfl⟩
      exact ⟨first, read, rest, others, rfl⟩

theorem foldlM_invariant {step : β → α → Option β} (invariant : β → Prop) {values : List α}
    (preserved : ∀ state, ∀ value ∈ values, ∀ next, invariant state →
      step state value = some next → invariant next) {start result : β} (initial : invariant start)
    (folded : values.foldlM step start = some result) : invariant result := by
  induction values generalizing start with
  | nil =>
    cases folded
    exact initial
  | cons value values ih =>
    simp only [List.foldlM_cons, bind_eq_some] at folded
    obtain ⟨next, stepped, rest⟩ := folded
    refine ih (fun state value member => preserved state value (by simp [member]))
      (preserved start value (by simp) next initial stepped) rest

theorem foldlM_step {step : β → α → Option β} {values : List α} {start result : β}
    (folded : values.foldlM step start = some result) {value : α} (member : value ∈ values) :
    ∃ state next, step state value = some next := by
  induction values generalizing start with
  | nil => cases member
  | cons first values ih =>
    simp only [List.foldlM_cons, bind_eq_some] at folded
    obtain ⟨next, stepped, rest⟩ := folded
    cases member with
    | head => exact ⟨start, next, stepped⟩
    | tail _ later => exact ih rest later

theorem mem_of_mapM {parse : α → Option β} {values : List α} {results : List β} {result : β}
    (parsed : values.mapM parse = some results) (member : result ∈ results) :
    ∃ value ∈ values, parse value = some result := by
  induction values generalizing results with
  | nil =>
    cases parsed
    cases member
  | cons value values ih =>
    simp only [List.mapM_cons, bind_eq_some, return_eq_some] at parsed
    obtain ⟨first, read, rest, others, rfl⟩ := parsed
    cases member with
    | head => exact ⟨value, List.mem_cons_self, read⟩
    | tail _ member =>
      obtain ⟨found, among, read⟩ := ih others member
      exact ⟨found, List.mem_cons_of_mem _ among, read⟩

end Werewolf.Library
