import Mathlib.Algebra.BigOperators.Fin
import Mathlib.Algebra.Order.Field.Basic
import Mathlib.Order.Interval.Set.Basic
import Mathlib.Tactic.Linarith
import Mathlib.Tactic.Ring

/-!
Owns exponentially weighted averages: the first value seeds the average and each
later one is mixed in with a fixed share. The average is a weighted sum of all
values, and it never leaves their range.
-/

namespace Disburse.Library

universe u v

section Average

variable {K : Type u} [Field K]

/-- Mix the later values in, one after the other. -/
def smooth (alpha first : K) (later : List K) : K :=
  later.foldl (fun average value => alpha * value + (1 - alpha) * average) first

/-- The sum in which a value loses the share `alpha` of its weight to each one after it. -/
def weightedSum (alpha first : K) (later : List K) : K :=
  (1 - alpha) ^ later.length * first +
    ∑ place : Fin later.length,
      alpha * (1 - alpha) ^ (later.length - (place.val + 1)) * later[place]

@[simp] theorem smooth_nil (alpha first : K) : smooth alpha first [] = first := rfl

theorem smooth_cons (alpha first value : K) (later : List K) :
    smooth alpha first (value :: later) =
      smooth alpha (alpha * value + (1 - alpha) * first) later := rfl

theorem weightedSum_cons (alpha first value : K) (later : List K) :
    weightedSum alpha first (value :: later) =
      weightedSum alpha (alpha * value + (1 - alpha) * first) later := by
  have parts : ∑ place : Fin (later.length + 1),
      alpha * (1 - alpha) ^ (later.length + 1 - (place.val + 1)) * (value :: later).get place =
      alpha * (1 - alpha) ^ later.length * value + ∑ place : Fin later.length,
        alpha * (1 - alpha) ^ (later.length - (place.val + 1)) * later[place] := by
    rw [Fin.sum_univ_succ]
    congr 1
    refine Finset.sum_congr rfl fun place _ => ?_
    rw [Fin.val_succ, Nat.add_sub_add_right]
    rfl
  calc weightedSum alpha first (value :: later)
      = (1 - alpha) ^ (later.length + 1) * first +
          (alpha * (1 - alpha) ^ later.length * value + ∑ place : Fin later.length,
            alpha * (1 - alpha) ^ (later.length - (place.val + 1)) * later[place]) :=
        congrArg _ parts
    _ = weightedSum alpha (alpha * value + (1 - alpha) * first) later := by
        rw [weightedSum, pow_succ]
        ring

theorem smooth_eq_weightedSum (alpha first : K) (later : List K) :
    smooth alpha first later = weightedSum alpha first later := by
  induction later generalizing first with
  | nil => simp [weightedSum]
  | cons value rest inductionHypothesis =>
      rw [smooth_cons, weightedSum_cons, inductionHypothesis]

end Average

section Range

variable {K : Type u} [Field K] [LinearOrder K] [IsStrictOrderedRing K]

/-- Mixing two values of an interval stays in it. -/
theorem mix_mem_Icc {alpha low high value average : K} (nonneg : 0 ≤ alpha) (atMost : alpha ≤ 1)
    (inside : value ∈ Set.Icc low high) (before : average ∈ Set.Icc low high) :
    alpha * value + (1 - alpha) * average ∈ Set.Icc low high := by
  have rest : 0 ≤ 1 - alpha := sub_nonneg.mpr atMost
  constructor
  · have first := mul_le_mul_of_nonneg_left inside.1 nonneg
    have second := mul_le_mul_of_nonneg_left before.1 rest
    linarith
  · have first := mul_le_mul_of_nonneg_left inside.2 nonneg
    have second := mul_le_mul_of_nonneg_left before.2 rest
    linarith

theorem smooth_mem_Icc {alpha low high : K} (nonneg : 0 ≤ alpha) (atMost : alpha ≤ 1) {first : K}
    {later : List K} (inside : ∀ value ∈ first :: later, value ∈ Set.Icc low high) :
    smooth alpha first later ∈ Set.Icc low high := by
  induction later generalizing first with
  | nil => exact inside first List.mem_cons_self
  | cons value rest inductionHypothesis =>
      rw [smooth_cons]
      apply inductionHypothesis
      intro other member
      rcases List.mem_cons.mp member with rfl | behind
      · exact mix_mem_Icc nonneg atMost (inside value (by simp)) (inside first (by simp))
      · exact inside other (by simp [behind])

end Range

end Disburse.Library
