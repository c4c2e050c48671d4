import Mathlib.Data.Finset.Sort
import Mathlib.Data.List.Sort

/-! Sorting a list by a key, and a finite set in ascending order. -/

namespace Werewolf.Library

variable {α κ : Type} [LinearOrder κ]

/-- Sort by a key and keep the order of equal keys. -/
def sortOn (key : α → κ) (values : List α) : List α :=
  values.insertionSort (fun left right => key left ≤ key right)

theorem sortOn_perm (key : α → κ) (values : List α) : (sortOn key values).Perm values :=
  List.perm_insertionSort _ values

theorem sortOn_sorted (key : α → κ) (values : List α) :
    (sortOn key values).Pairwise (fun left right => key left ≤ key right) :=
  have : Std.Total (fun left right : α => key left ≤ key right) := ⟨fun _ _ => le_total _ _⟩
  have : IsTrans α (fun left right => key left ≤ key right) := ⟨fun _ _ _ => le_trans⟩
  List.pairwise_insertionSort _ values

theorem sortOn_of_sorted {key : α → κ} {values : List α}
    (sorted : values.Pairwise (fun left right => key left ≤ key right)) :
    sortOn key values = values :=
  sorted.insertionSort_eq

@[simp] theorem sortOn_sortOn (key : α → κ) (values : List α) : sortOn key (sortOn key values) = sortOn key values :=
  sortOn_of_sorted (sortOn_sorted key values)

theorem sortOn_eq_of_perm {key : α → κ} {left right : List α} (permuted : left.Perm right)
    (distinct : (left.map key).Nodup) : sortOn key left = sortOn key right := by
  refine List.Perm.eq_of_pairwise (fun first second firstMember secondMember below above => ?_)
    (sortOn_sorted key left) (sortOn_sorted key right)
    (((sortOn_perm key left).trans permuted).trans (sortOn_perm key right).symm)
  refine List.inj_on_of_nodup_map distinct ((sortOn_perm key left).mem_iff.mp firstMember) ?_
    (le_antisymm below above)
  exact permuted.mem_iff.mpr ((sortOn_perm key right).mem_iff.mp secondMember)

theorem sortOn_strict {key : α → κ} {values : List α} (distinct : (values.map key).Nodup) :
    (sortOn key values).Pairwise (fun left right => key left < key right) :=
  (sortOn_sorted key values).imp₂ (fun _ _ => lt_of_le_of_ne)
    (List.pairwise_map.mp (((sortOn_perm key values).map key).nodup_iff.mpr distinct))

theorem take_of_sorted {order : α → α → Prop} {values : List α} (sorted : values.Pairwise order)
    {count : Nat} {value : α} (member : value ∈ values) (cut : value ∉ values.take count) :
    (values.take count).length = count ∧ ∀ kept ∈ values.take count, order kept value := by
  have parts := List.take_append_drop count values
  rw [← parts] at sorted member
  have dropped := (List.mem_append.mp member).resolve_left cut
  refine ⟨List.length_take_of_le ?_, fun kept stays =>
    (List.pairwise_append.mp sorted).2.2 kept stays value dropped⟩
  by_contra short
  rw [List.drop_eq_nil_of_le (by omega)] at dropped
  cases dropped

def hasTwin (key : α → κ) (values : List α) : Bool :=
  (values.zip values.tail).any (fun pair => key pair.1 = key pair.2)

theorem pairwise_lt_of_hasTwin {key : α → κ} {values : List α}
    (sorted : values.Pairwise (fun left right => key left ≤ key right)) (single : hasTwin key values = false) :
    values.Pairwise (fun left right => key left < key right) := by
  induction values with
  | nil => exact .nil
  | cons first rest ih =>
    obtain ⟨below, sortedRest⟩ := List.pairwise_cons.mp sorted
    cases rest with
    | nil => exact List.pairwise_singleton _ _
    | cons second later =>
      simp only [hasTwin, List.tail_cons, List.zip_cons_cons, List.any_cons,
        Bool.or_eq_false_iff, decide_eq_false_iff_not] at single
      have strict : key first < key second :=
        lt_of_le_of_ne (below second List.mem_cons_self) single.1
      refine List.pairwise_cons.mpr ⟨fun other member => ?_, ih sortedRest single.2⟩
      rcases List.mem_cons.mp member with rfl | after
      · exact strict
      · exact lt_of_lt_of_le strict ((List.pairwise_cons.mp sortedRest).1 other after)

theorem hasTwin_of_pairwise_lt {key : α → κ} {values : List α}
    (increasing : values.Pairwise (fun left right => key left < key right)) :
    hasTwin key values = false := by
  induction values with
  | nil => rfl
  | cons first rest ih =>
    obtain ⟨below, later⟩ := List.pairwise_cons.mp increasing
    cases rest with
    | nil => rfl
    | cons second others =>
      have single := ih later
      simp only [hasTwin, List.tail_cons, List.zip_cons_cons, List.any_cons,
        Bool.or_eq_false_iff, decide_eq_false_iff_not] at single ⊢
      exact ⟨ne_of_lt (below second List.mem_cons_self), single⟩

theorem hasTwin_sortOn {key : α → κ} {values : List α} :
    hasTwin key (sortOn key values) = false ↔ (values.map key).Nodup := by
  have permuted := (sortOn_perm key values).map key
  constructor
  · intro single
    refine permuted.nodup_iff.mp (List.pairwise_map.mpr ?_)
    exact (pairwise_lt_of_hasTwin (sortOn_sorted key values) single).imp ne_of_lt
  · intro distinct
    exact hasTwin_of_pairwise_lt (sortOn_strict distinct)

/-- The members of a finite set in ascending order, as a computation that the
kernel can follow. -/
def ascending (values : Finset κ) : List κ :=
  Quot.liftOn values.1 (sortOn id) (fun left right same =>
    List.Perm.eq_of_pairwise (fun _ _ _ _ => le_antisymm) (sortOn_sorted id left) (sortOn_sorted id right)
      (((sortOn_perm id left).trans same).trans (sortOn_perm id right).symm))

theorem ascending_eq_sort (values : Finset κ) : ascending values = values.sort (· ≤ ·) := by
  refine List.Perm.eq_of_pairwise (fun _ _ _ _ => le_antisymm) ?_ (values.pairwise_sort (· ≤ ·)) ?_
  · obtain ⟨⟨list⟩, nodup⟩ := values
    exact sortOn_sorted id list
  · obtain ⟨⟨list⟩, nodup⟩ := values
    have same := Finset.sort_eq (⟨Quot.mk _ list, nodup⟩ : Finset κ) (· ≤ ·)
    exact (sortOn_perm id list).trans (Multiset.coe_eq_coe.mp same).symm

theorem mem_ascending {values : Finset κ} {value : κ} : value ∈ ascending values ↔ value ∈ values := by
  rw [ascending_eq_sort, Finset.mem_sort]

theorem ascending_nodup (values : Finset κ) : (ascending values).Nodup := by
  rw [ascending_eq_sort]
  exact values.sort_nodup (· ≤ ·)

end Werewolf.Library
