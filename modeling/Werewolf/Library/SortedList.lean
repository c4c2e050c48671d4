import Mathlib.Data.List.TakeWhile
import Mathlib.Order.Lattice

/-! Binary search over strictly increasing lists, with insertion and removal
at the position it reports. -/

namespace Werewolf.Library

abbrev StrictlySorted {α : Type} [LinearOrder α] (values : List α) : Prop := values.Pairwise (· < ·)

/-- The contract of a slice's binary search on a sorted slice: the position of
the value, or the position where inserting it keeps the order. -/
def binarySearch {α : Type} [LinearOrder α] (values : List α) (value : α) :
    Except Nat Nat :=
  let position := (values.takeWhile (· < value)).length
  if values[position]? = some value then .ok position else .error position

def insertAbsent {α : Type} [LinearOrder α] (values : List α) (value : α) : List α :=
  match binarySearch values value with
  | .ok _ => values
  | .error position => values.insertIdx position value

def removePresent {α : Type} [LinearOrder α] (values : List α) (value : α) : List α :=
  match binarySearch values value with
  | .ok position => values.eraseIdx position
  | .error _ => values

def hasDescent {α : Type} [LinearOrder α] (values : List α) : Bool :=
  (values.zip values.tail).any (fun pair => pair.2 ≤ pair.1)

def hasRepeat {α : Type} [BEq α] (seen : List α) : List α → Bool
  | [] => false
  | value :: rest => seen.contains value || hasRepeat (seen ++ [value]) rest

theorem hasRepeat_eq_false_iff {α : Type} [BEq α] [LawfulBEq α] (seen values : List α) :
    hasRepeat seen values = false ↔ values.Nodup ∧ ∀ value ∈ values, value ∉ seen := by
  induction values generalizing seen with
  | nil => simp [hasRepeat]
  | cons value rest ih =>
    simp only [hasRepeat, Bool.or_eq_false_iff, ih, List.contains_eq_mem, decide_eq_false_iff_not,
      List.nodup_cons, List.mem_append, List.mem_singleton, List.forall_mem_cons]
    constructor
    · rintro ⟨fresh, unique, apart⟩
      exact ⟨⟨fun member => apart value member (.inr rfl), unique⟩, fresh,
        fun other member earlier => apart other member (.inl earlier)⟩
    · rintro ⟨⟨absent, unique⟩, fresh, apart⟩
      refine ⟨fresh, unique, fun other member earlier => ?_⟩
      rcases earlier with earlier | rfl
      · exact apart other member earlier
      · exact absent member

variable {α : Type} [LinearOrder α]

theorem hasDescent_eq_false_iff (values : List α) : hasDescent values = false ↔ StrictlySorted values := by
  induction values with
  | nil => simp [hasDescent]
  | cons first rest ih =>
    cases rest with
    | nil => simp [hasDescent]
    | cons second rest =>
      have unfolded : hasDescent (first :: second :: rest) =
          (decide (second ≤ first) || hasDescent (second :: rest)) := by
        simp [hasDescent]
      rw [unfolded, Bool.or_eq_false_iff, ih, decide_eq_false_iff_not, not_le]
      constructor
      · rintro ⟨step, sorted⟩
        refine List.pairwise_cons.mpr ⟨fun other member => ?_, sorted⟩
        rcases List.mem_cons.mp member with rfl | later
        · exact step
        · exact step.trans (List.rel_of_pairwise_cons sorted later)
      · intro sorted
        exact ⟨List.rel_of_pairwise_cons sorted List.mem_cons_self, sorted.of_cons⟩

private theorem below_position {values : List α} {value other : α}
    (member : other ∈ values.takeWhile (· < value)) : other < value := by
  simpa using List.mem_takeWhile_imp member

private theorem insertIdx_takeWhile (values : List α) (value : α) :
    values.insertIdx (values.takeWhile (· < value)).length value =
      values.takeWhile (· < value) ++ value :: values.dropWhile (· < value) := by
  induction values with
  | nil => rfl
  | cons first rest ih =>
    by_cases below : first < value
    · simpa [List.takeWhile_cons, List.dropWhile_cons, below] using ih
    · simp [below]

private theorem eraseIdx_takeWhile (values : List α) (value : α) :
    values.eraseIdx (values.takeWhile (· < value)).length =
      values.takeWhile (· < value) ++ (values.dropWhile (· < value)).tail := by
  induction values with
  | nil => rfl
  | cons first rest ih =>
    by_cases below : first < value
    · simpa [List.takeWhile_cons, List.dropWhile_cons, below] using ih
    · simp [below]

private theorem getElem?_takeWhile (values : List α) (value : α) :
    values[(values.takeWhile (· < value)).length]? = (values.dropWhile (· < value)).head? := by
  induction values with
  | nil => rfl
  | cons first rest ih =>
    by_cases below : first < value
    · simpa [List.takeWhile_cons, List.dropWhile_cons, below] using ih
    · simp [below]

private theorem dropWhile_head_ge {values : List α} {value first : α} {rest : List α}
    (shape : values.dropWhile (· < value) = first :: rest) : value ≤ first := by
  induction values with
  | nil => simp at shape
  | cons head tail ih =>
    by_cases below : head < value
    · exact ih (by simpa [List.dropWhile_cons, below] using shape)
    · simp only [List.dropWhile_cons, below, decide_false] at shape
      cases shape
      exact not_lt.mp below

section Sorted

variable {values : List α} (sorted : StrictlySorted values)

include sorted

private theorem dropWhile_sorted (value : α) : StrictlySorted (values.dropWhile (· < value)) :=
  sorted.sublist (List.dropWhile_sublist _)

theorem binarySearch_isOk_iff (value : α) : (binarySearch values value).isOk = true ↔ value ∈ values := by
  have split := List.takeWhile_append_dropWhile (p := (· < value)) (l := values)
  simp only [binarySearch, getElem?_takeWhile]
  cases shape : values.dropWhile (· < value) with
  | nil =>
    have absent : value ∉ values := by
      intro member
      rw [← split, shape, List.append_nil] at member
      exact lt_irrefl value (below_position member)
    simp [Except.isOk, Except.toBool, absent]
  | cons first rest =>
    have tailSorted := dropWhile_sorted sorted value
    rw [shape] at tailSorted
    have least := dropWhile_head_ge shape
    by_cases same : first = value
    · subst first
      have member : value ∈ values := by
        rw [← split, shape]
        simp
      simp [Except.isOk, Except.toBool, member]
    · have absent : value ∉ values := by
        intro member
        rw [← split, shape] at member
        rcases List.mem_append.mp member with before | after
        · exact lt_irrefl value (below_position before)
        · rcases List.mem_cons.mp after with here | later
          · exact same here.symm
          · exact absurd (List.rel_of_pairwise_cons tailSorted later) (not_lt.mpr least)
      simp [Except.isOk, Except.toBool, same, absent]

theorem binarySearch_isOk_eq_false_iff (value : α) : (binarySearch values value).isOk = false ↔ value ∉ values := by
  rw [← binarySearch_isOk_iff sorted value, Bool.not_eq_true]

private theorem binarySearch_of_mem {value : α} (member : value ∈ values) :
    binarySearch values value = .ok (values.takeWhile (· < value)).length ∧
      (values.dropWhile (· < value)).head? = some value := by
  have found := (binarySearch_isOk_iff sorted value).mpr member
  unfold binarySearch at found ⊢
  dsimp only at found ⊢
  split at found
  · rename_i here
    rw [if_pos here]
    exact ⟨rfl, getElem?_takeWhile values value ▸ here⟩
  · cases found

private theorem binarySearch_of_not_mem {value : α} (absent : value ∉ values) :
    binarySearch values value = .error (values.takeWhile (· < value)).length := by
  have found := (binarySearch_isOk_eq_false_iff sorted value).mpr absent
  unfold binarySearch at found ⊢
  dsimp only at found ⊢
  split at found
  · cases found
  · rename_i missing
    rw [if_neg missing]

theorem insertAbsent_of_mem {value : α} (member : value ∈ values) : insertAbsent values value = values := by
  simp only [insertAbsent, binarySearch_of_mem sorted member]

theorem insertAbsent_of_not_mem {value : α} (absent : value ∉ values) : insertAbsent values value =
      values.takeWhile (· < value) ++ value :: values.dropWhile (· < value) := by
  simp only [insertAbsent, binarySearch_of_not_mem sorted absent, insertIdx_takeWhile]

theorem removePresent_of_not_mem {value : α} (absent : value ∉ values) : removePresent values value = values := by
  simp only [removePresent, binarySearch_of_not_mem sorted absent]

theorem removePresent_of_mem {value : α} (member : value ∈ values) :
    ∃ before after, values = before ++ value :: after ∧ removePresent values value = before ++ after := by
  obtain ⟨found, here⟩ := binarySearch_of_mem sorted member
  have split := List.takeWhile_append_dropWhile (p := (· < value)) (l := values)
  obtain ⟨after, shape⟩ := List.head?_eq_some_iff.mp here
  refine ⟨values.takeWhile (· < value), after, ?_, ?_⟩
  · rw [← shape, split]
  · simp only [removePresent, found, eraseIdx_takeWhile, shape, List.tail_cons]

theorem mem_insertAbsent (value other : α) : other ∈ insertAbsent values value ↔ other = value ∨ other ∈ values := by
  by_cases member : value ∈ values
  · rw [insertAbsent_of_mem sorted member]
    exact ⟨.inr, fun either => either.elim (fun same => same ▸ member) id⟩
  · rw [insertAbsent_of_not_mem sorted member, List.mem_append, List.mem_cons, or_left_comm,
      ← List.mem_append, List.takeWhile_append_dropWhile]

theorem insertAbsent_sorted (value : α) : StrictlySorted (insertAbsent values value) := by
  by_cases member : value ∈ values
  · rwa [insertAbsent_of_mem sorted member]
  · rw [insertAbsent_of_not_mem sorted member]
    have split := List.takeWhile_append_dropWhile (p := (· < value)) (l := values)
    have ordered := sorted
    rw [← split] at ordered
    obtain ⟨before, after, across⟩ := List.pairwise_append.mp ordered
    refine List.pairwise_append.mpr ⟨before, List.pairwise_cons.mpr ⟨?_, after⟩, ?_⟩
    · intro other later
      have least : value ≤ other := by
        cases shape : values.dropWhile (· < value) with
        | nil => simp [shape] at later
        | cons first rest =>
          rw [shape] at later after
          rcases List.mem_cons.mp later with rfl | behind
          · exact dropWhile_head_ge shape
          · exact (dropWhile_head_ge shape).trans (List.rel_of_pairwise_cons after behind).le
      refine lt_of_le_of_ne least ?_
      rintro rfl
      exact member (split ▸ List.mem_append_right _ later)
    · intro left leftMember right rightMember
      rcases List.mem_cons.mp rightMember with rfl | later
      · exact below_position leftMember
      · exact across left leftMember right later

theorem length_insertAbsent_of_not_mem {value : α} (absent : value ∉ values) :
    (insertAbsent values value).length = values.length + 1 := by
  rw [insertAbsent_of_not_mem sorted absent, List.length_append, List.length_cons,
    ← Nat.add_assoc, ← List.length_append, List.takeWhile_append_dropWhile]

end Sorted

theorem removePresent_sublist (values : List α) (value : α) : (removePresent values value).Sublist values := by
  unfold removePresent
  split
  · exact List.eraseIdx_sublist _ _
  · exact List.Sublist.refl _

theorem removePresent_sorted {values : List α} (sorted : StrictlySorted values) (value : α) :
    StrictlySorted (removePresent values value) :=
  sorted.sublist (removePresent_sublist values value)

theorem mem_removePresent {values : List α} (sorted : StrictlySorted values) (value other : α) :
    other ∈ removePresent values value ↔ other ∈ values ∧ other ≠ value := by
  by_cases member : value ∈ values
  · obtain ⟨before, after, shape, removed⟩ := removePresent_of_mem sorted member
    rw [removed]
    have unique : (before ++ value :: after).Nodup := shape ▸ sorted.imp ne_of_lt
    have notBefore : value ∉ before := fun earlier =>
      (List.nodup_append.mp unique).2.2 value earlier value List.mem_cons_self rfl
    have notAfter : value ∉ after := (List.nodup_cons.mp (List.nodup_append.mp unique).2.1).1
    rw [shape]
    simp only [List.mem_append, List.mem_cons]
    constructor
    · rintro (earlier | later)
      · exact ⟨.inl earlier, fun same => notBefore (same ▸ earlier)⟩
      · exact ⟨.inr (.inr later), fun same => notAfter (same ▸ later)⟩
    · rintro ⟨earlier | same | later, different⟩
      · exact .inl earlier
      · exact absurd same different
      · exact .inr later
  · rw [removePresent_of_not_mem sorted member]
    exact ⟨fun present => ⟨present, fun same => member (same ▸ present)⟩, And.left⟩

theorem foldl_insertAbsent_sorted {values : List α} (sorted : StrictlySorted values)
    (added : List α) : StrictlySorted (added.foldl insertAbsent values) := by
  induction added generalizing values with
  | nil => exact sorted
  | cons value rest ih => exact ih (insertAbsent_sorted sorted value)

theorem mem_foldl_insertAbsent {values : List α} (sorted : StrictlySorted values) (added : List α) (other : α) :
    other ∈ added.foldl insertAbsent values ↔ other ∈ added ∨ other ∈ values := by
  induction added generalizing values with
  | nil => simp
  | cons value rest ih =>
    rw [List.foldl_cons, ih (insertAbsent_sorted sorted value), mem_insertAbsent sorted,
      List.mem_cons, or_left_comm, or_assoc]

theorem foldl_removePresent_sublist (values removed : List α) :
    (removed.foldl removePresent values).Sublist values := by
  induction removed generalizing values with
  | nil => exact List.Sublist.refl _
  | cons value rest ih => exact (ih _).trans (removePresent_sublist values value)

theorem mem_foldl_removePresent {values : List α} (sorted : StrictlySorted values) (removed : List α) (other : α) :
    other ∈ removed.foldl removePresent values ↔ other ∈ values ∧ other ∉ removed := by
  induction removed generalizing values with
  | nil => simp
  | cons value rest ih =>
    rw [List.foldl_cons, ih (removePresent_sorted sorted value), mem_removePresent sorted,
      List.mem_cons, not_or, and_assoc]

end Werewolf.Library
