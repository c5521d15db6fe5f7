import Mathlib.Data.List.Sort

/-!
Owns the element of a given rank in a list: its place in the sorted list, how
many elements are below it, and what added elements do to it.
-/

namespace Disburse.Library

universe u

variable {α : Type u} [LinearOrder α]

/-- The element at place `rank` of the sorted list. -/
def ranked (rank : Nat) (values : List α) : Option α := (values.mergeSort (· ≤ ·))[rank]?

/-- At most `rank` elements are below the value, and more than `rank` are not above it. -/
structure HasRank (rank : Nat) (values : List α) (value : α) : Prop where
  below : values.countP (· < value) ≤ rank
  upTo : rank < values.countP (· ≤ value)

theorem hasRank_perm {rank : Nat} {first second : List α} (same : first.Perm second) (value : α) :
    HasRank rank first value ↔ HasRank rank second value := by
  constructor
  · intro has
    exact ⟨same.countP_eq _ ▸ has.below, same.countP_eq _ ▸ has.upTo⟩
  · intro has
    exact ⟨same.symm.countP_eq _ ▸ has.below, same.symm.countP_eq _ ▸ has.upTo⟩

section Sorted

variable {first value : α} {rest : List α}

theorem countP_lt_eq_zero (least : ∀ other ∈ rest, first ≤ other) (notAbove : value ≤ first) :
    rest.countP (· < value) = 0 := by
  apply List.countP_eq_zero.mpr
  intro other member
  have after := notAbove.trans (least other member)
  simpa using after

theorem countP_le_eq_zero (least : ∀ other ∈ rest, first ≤ other) (below : value < first) :
    rest.countP (· ≤ value) = 0 := by
  apply List.countP_eq_zero.mpr
  intro other member
  have after := below.trans_le (least other member)
  simpa using after

/-- In front of larger elements one is added to the rank of a value above it; the
value itself has all ranks from zero on. -/
theorem hasRank_cons (least : ∀ other ∈ rest, first ≤ other) (rank : Nat) :
    HasRank (rank + 1) (first :: rest) value ↔ HasRank rank rest value := by
  have below := List.countP_cons (p := (· < value)) (a := first) (l := rest)
  have upTo := List.countP_cons (p := (· ≤ value)) (a := first) (l := rest)
  rcases lt_trichotomy first value with less | rfl | above
  · simp only [less, less.le, decide_true, ↓reduceIte] at below upTo
    constructor
    · intro has
      exact ⟨by have := has.below; omega, by have := has.upTo; omega⟩
    · intro has
      exact ⟨by have := has.below; omega, by have := has.upTo; omega⟩
  · have none := countP_lt_eq_zero least (le_refl first)
    simp only [lt_irrefl, le_refl, decide_true, decide_false, Bool.false_eq_true,
      ↓reduceIte] at below upTo
    constructor
    · intro has
      exact ⟨by omega, by have := has.upTo; omega⟩
    · intro has
      exact ⟨by omega, by have := has.upTo; omega⟩
  · have none := countP_le_eq_zero least above
    simp only [not_le.mpr above, decide_false, Bool.false_eq_true, ↓reduceIte] at upTo
    constructor
    · intro has
      have := has.upTo
      omega
    · intro has
      have := has.upTo
      omega

end Sorted

/-- In a sorted list a value stands at the places it has as a rank. -/
theorem sorted_getElem?_iff {values : List α} (sorted : values.Pairwise (· ≤ ·)) {rank : Nat}
    {value : α} : values[rank]? = some value ↔ HasRank rank values value := by
  induction values generalizing rank with
  | nil => exact iff_of_false (by simp) fun has => Nat.not_lt_zero _ has.upTo
  | cons first rest inductionHypothesis =>
      have least := (List.pairwise_cons.mp sorted).1
      have leastAll : ∀ other ∈ first :: rest, first ≤ other := by
        intro other member
        rcases List.mem_cons.mp member with rfl | inside
        · exact le_refl _
        · exact least other inside
      cases rank with
      | zero =>
          rw [List.getElem?_cons_zero, Option.some_inj]
          constructor
          · rintro rfl
            exact ⟨(countP_lt_eq_zero leastAll (le_refl _)).le,
              List.countP_pos_iff.mpr ⟨first, by simp⟩⟩
          · intro has
            have none := List.countP_eq_zero.mp (Nat.le_zero.mp has.below) first
              List.mem_cons_self
            have notAbove : value ≤ first := by simpa using none
            by_contra different
            have less : value < first := lt_of_le_of_ne notAbove (Ne.symm different)
            have some := has.upTo
            rw [countP_le_eq_zero leastAll less] at some
            exact Nat.lt_irrefl 0 some
      | succ rank =>
          rw [List.getElem?_cons_succ, inductionHypothesis (List.pairwise_cons.mp sorted).2]
          exact (hasRank_cons least rank).symm

theorem ranked_eq_some_iff {rank : Nat} {values : List α} {value : α} :
    ranked rank values = some value ↔ HasRank rank values value := by
  rw [ranked, sorted_getElem?_iff (List.pairwise_mergeSort' (· ≤ ·) values)]
  exact hasRank_perm (List.mergeSort_perm values _) value

/-! ### Counting around a value -/

theorem countP_le_eq (values : List α) (value : α) :
    values.countP (· ≤ value) = values.countP (· < value) + values.count value := by
  induction values with
  | nil => rfl
  | cons first rest inductionHypothesis =>
      simp only [List.countP_cons, List.count_cons, inductionHypothesis, beq_iff_eq,
        decide_eq_true_eq]
      rcases lt_trichotomy first value with less | rfl | above
      · simp only [less, less.le, less.ne, ↓reduceIte]
        omega
      · simp only [lt_irrefl, le_refl, ↓reduceIte]
        omega
      · simp only [above.not_gt, not_le.mpr above, above.ne', ↓reduceIte]
        omega

theorem countP_le_add_countP_gt (values : List α) (value : α) :
    values.countP (· ≤ value) + values.countP (value < ·) = values.length := by
  have split := List.length_eq_countP_add_countP (· ≤ value) (l := values)
  have above : values.countP (value < ·) = values.countP (fun other => ¬ other ≤ value) :=
    List.countP_congr fun other _ => by simp
  rw [above, split]
  congr 1
  exact List.countP_congr fun other _ => by simp

/-- Among different elements a value of the rank has exactly that many below it. -/
theorem HasRank.countP_lt {rank : Nat} {values : List α} {value : α}
    (has : HasRank rank values value) (different : values.Nodup) :
    values.countP (· < value) = rank := by
  have below := has.below
  have upTo := has.upTo
  have once := List.nodup_iff_count_le_one.mp different value
  rw [countP_le_eq] at upTo
  omega

theorem HasRank.mem {rank : Nat} {values : List α} {value : α} (has : HasRank rank values value) :
    value ∈ values := by
  have below := has.below
  have upTo := has.upTo
  rw [countP_le_eq] at upTo
  exact List.count_pos_iff.mp (by omega)

/-- A rank in joined lists, by what is below the value and what is above it. -/
theorem hasRank_append_iff {rank : Nat} {first second : List α} {value : α} :
    HasRank rank (first ++ second) value ↔
      first.countP (· < value) + second.countP (· < value) ≤ rank ∧
        rank + first.countP (value < ·) + second.countP (value < ·) <
          first.length + second.length := by
  have firstSplit := countP_le_add_countP_gt first value
  have secondSplit := countP_le_add_countP_gt second value
  constructor
  · intro has
    have below := has.below
    have upTo := has.upTo
    rw [List.countP_append] at below upTo
    exact ⟨below, by omega⟩
  · rintro ⟨below, above⟩
    refine ⟨?_, ?_⟩
    · rw [List.countP_append]
      exact below
    · rw [List.countP_append]
      omega

end Disburse.Library
