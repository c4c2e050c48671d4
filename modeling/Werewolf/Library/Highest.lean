import Mathlib.Data.List.Induction
import Mathlib.Data.List.Nodup
import Mathlib.Data.List.Perm.Basic
import Mathlib.Order.Lattice

/-! Keeping one value of each key, the one of the highest rank. Of several that
share that rank the first stays. -/

namespace Werewolf.Library

variable {α κ : Type}

/-- Put a value in the place of the one with its key if it is better, and behind all
others if its key is new. -/
def place [DecidableEq κ] (key : α → κ) (better : α → α → Bool) : List α → α → List α
  | [], value => [value]
  | kept :: rest, value =>
      if key kept = key value then (if better value kept then value else kept) :: rest
      else kept :: place key better rest value

def FirstHighest {ρ : Type} [LinearOrder ρ] (key : α → κ) (rank : α → ρ) (values : List α) (best : α) : Prop :=
  ∃ before after, values = before ++ best :: after ∧
    (∀ value ∈ before, key value = key best → rank value < rank best) ∧
    ∀ value ∈ after, key value = key best → rank value ≤ rank best

section Placing

variable [DecidableEq κ] {key : α → κ} {better : α → α → Bool}

theorem place_of_not_mem {kept : List α} {value : α} (fresh : key value ∉ kept.map key) :
    place key better kept value = kept ++ [value] := by
  induction kept with
  | nil => rfl
  | cons first rest ih =>
    rw [List.map_cons, List.mem_cons, not_or] at fresh
    rw [place, if_neg (Ne.symm fresh.1), ih fresh.2, List.cons_append]

theorem place_of_mem {kept : List α} {value : α} (known : key value ∈ kept.map key) :
    ∃ before old after, kept = before ++ old :: after ∧ key old = key value ∧
      (∀ other ∈ before, key other ≠ key value) ∧
      place key better kept value = before ++ (if better value old then value else old) :: after := by
  induction kept with
  | nil => cases known
  | cons first rest ih =>
    by_cases same : key first = key value
    · exact ⟨[], first, rest, rfl, same, fun _ member => (nomatch member),
        by rw [place, if_pos same, List.nil_append]⟩
    · rw [List.map_cons, List.mem_cons] at known
      obtain ⟨before, old, after, rfl, alike, others, placed⟩ :=
        ih (known.resolve_left (Ne.symm same))
      refine ⟨first :: before, old, after, rfl, alike, ?_, ?_⟩
      · exact List.forall_mem_cons.mpr ⟨same, others⟩
      · rw [place, if_neg same, placed, List.cons_append]

theorem foldl_place_of_nodup (kept values : List α) (distinct : ((kept ++ values).map key).Nodup) :
    values.foldl (place key better) kept = kept ++ values := by
  induction values generalizing kept with
  | nil => rw [List.foldl_nil, List.append_nil]
  | cons value rest ih =>
    have shape : kept ++ value :: rest = (kept ++ [value]) ++ rest := by simp
    have fresh : key value ∉ kept.map key := by
      rw [List.map_append, List.nodup_append] at distinct
      intro member
      exact distinct.2.2 _ member _ (List.mem_map_of_mem List.mem_cons_self) rfl
    rw [List.foldl_cons, place_of_not_mem fresh, ih _ (by rwa [← shape]), ← shape]

end Placing

section Ranks

variable {ρ : Type} [LinearOrder ρ] {key : α → κ} {rank : α → ρ} {values kept : List α}
  {value best : α}

theorem FirstHighest.mem (highest : FirstHighest key rank values best) : best ∈ values := by
  obtain ⟨before, after, rfl, _, _⟩ := highest
  simp

theorem FirstHighest.rank_le (highest : FirstHighest key rank values best) {other : α}
    (member : other ∈ values) (same : key other = key best) : rank other ≤ rank best := by
  obtain ⟨before, after, rfl, below, above⟩ := highest
  rcases List.mem_append.mp member with earlier | later
  · exact (below other earlier same).le
  · rcases List.mem_cons.mp later with rfl | later
    · exact le_rfl
    · exact above other later same

theorem FirstHighest.unique {other : α} (highest : FirstHighest key rank values best)
    (also : FirstHighest key rank values other) (same : key best = key other) : best = other := by
  obtain ⟨before, after, rfl, below, above⟩ := highest
  obtain ⟨otherBefore, otherAfter, split, otherBelow, otherAbove⟩ := also
  rcases List.append_eq_append_iff.mp split with ⟨more, rfl, tail⟩ | ⟨more, rfl, tail⟩
  · cases more with
    | nil => exact (List.cons.inj tail).1
    | cons first more =>
      obtain ⟨rfl, rfl⟩ := List.cons.inj tail
      have strict := otherBelow best (by simp) same
      exact absurd (above other (by simp) same.symm) (not_le.mpr strict)
  · cases more with
    | nil => exact (List.cons.inj tail).1.symm
    | cons first more =>
      obtain ⟨rfl, rfl⟩ := List.cons.inj tail
      have strict := below other (by simp) same.symm
      exact absurd (otherAbove best (by simp) same) (not_le.mpr strict)

theorem FirstHighest.snoc (highest : FirstHighest key rank values best)
    (below : key value = key best → rank value ≤ rank best) :
    FirstHighest key rank (values ++ [value]) best := by
  obtain ⟨before, after, rfl, earlier, later⟩ := highest
  refine ⟨before, after ++ [value], by simp, earlier, fun other member => ?_⟩
  rcases List.mem_append.mp member with known | new
  · exact later other known
  · rw [List.mem_singleton.mp new]
    exact below

theorem FirstHighest.last (above : ∀ other ∈ values, key other = key value →
    rank other < rank value) : FirstHighest key rank (values ++ [value]) value :=
  ⟨values, [], rfl, above, fun _ member => (nomatch member)⟩

/-- One value is kept of each key, the first of the highest rank. -/
structure KeepsHighest (key : α → κ) (rank : α → ρ) (values kept : List α) : Prop where
  distinct : (kept.map key).Nodup
  highest : ∀ best ∈ kept, FirstHighest key rank values best
  covers : ∀ value ∈ values, key value ∈ kept.map key

theorem keepsHighest_nil : KeepsHighest key rank [] [] :=
  ⟨List.nodup_nil, fun _ member => (nomatch member), fun _ member => (nomatch member)⟩

variable [DecidableEq κ] {better : α → α → Bool}

theorem KeepsHighest.place (keeps : KeepsHighest key rank values kept)
    (ranked : ∀ old ∈ kept, key old = key value → (better value old = true ↔ rank old < rank value)) :
    KeepsHighest key rank (values ++ [value]) (place key better kept value) := by
  by_cases known : key value ∈ kept.map key
  · obtain ⟨before, old, after, rfl, same, others, placed⟩ := @place_of_mem _ _ _ _ better _ _ known
    rw [placed]
    have keys : (before ++ (if better value old then value else old) :: after).map key =
        (before ++ old :: after).map key := by
      split <;> simp [same]
    refine ⟨by rw [keys]; exact keeps.distinct, fun best member => ?_, fun other member => ?_⟩
    · have atOld : FirstHighest key rank values old := keeps.highest old (by simp)
      have apart (other : α) (listed : other ∈ after) : key other ≠ key value := by
        have distinct := keeps.distinct
        rw [List.map_append, List.map_cons, List.nodup_append, List.nodup_cons] at distinct
        intro alike
        exact distinct.2.1.1 (List.mem_map.mpr ⟨other, listed, alike.trans same.symm⟩)
      have chosen : FirstHighest key rank (values ++ [value]) (if better value old then value else old) := by
        have ranks := ranked old (by simp) same
        split
        · rename_i improves
          refine .last (fun other listed alike => ?_)
          exact (atOld.rank_le listed (alike.trans same.symm)).trans_lt (ranks.mp improves)
        · rename_i worse
          exact atOld.snoc (fun _ => not_lt.mp (fun above => worse (ranks.mpr above)))
      rcases List.mem_append.mp member with earlier | later
      · exact (keeps.highest best (List.mem_append_left _ earlier)).snoc
          (fun alike => absurd alike.symm (others best earlier))
      · rcases List.mem_cons.mp later with rfl | later
        · exact chosen
        · exact (keeps.highest best (by simp [later])).snoc (fun alike => absurd alike.symm (apart best later))
    · rw [keys]
      rcases List.mem_append.mp member with old | new
      · exact keeps.covers other old
      · rw [List.mem_singleton.mp new]
        exact known
  · rw [place_of_not_mem known]
    have fresh (other : α) (member : other ∈ values) : key other ≠ key value := by
      intro alike
      exact known (alike ▸ keeps.covers other member)
    refine ⟨?_, fun best member => ?_, fun other member => ?_⟩
    · rw [List.map_append, List.map_singleton]
      exact keeps.distinct.append (List.nodup_singleton _) (by simpa [List.disjoint_singleton] using known)
    · rcases List.mem_append.mp member with old | new
      · exact (keeps.highest best old).snoc (fun alike => absurd alike.symm (fresh best (keeps.highest best old).mem))
      · rw [List.mem_singleton.mp new]
        exact .last (fun other listed alike => absurd alike (fresh other listed))
    · rw [List.map_append, List.mem_append]
      rcases List.mem_append.mp member with old | new
      · exact .inl (keeps.covers other old)
      · rw [List.mem_singleton.mp new]
        exact .inr (by simp)

theorem keepsHighest_foldl (ranked : ∀ value old, key old = key value →
      (better value old = true ↔ rank old < rank value)) (values : List α) :
    KeepsHighest key rank values (values.foldl (Library.place key better) []) := by
  induction values using List.reverseRecOn with
  | nil => exact keepsHighest_nil
  | append_singleton values value ih =>
    rw [List.foldl_append]
    exact ih.place (fun old _ => ranked value old)

end Ranks

end Werewolf.Library
