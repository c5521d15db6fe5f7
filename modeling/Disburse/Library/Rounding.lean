import Mathlib.Algebra.Order.Field.Power
import Mathlib.Algebra.Order.Field.Rat
import Mathlib.Tactic.NormNum

/-!
Owns rounded arithmetic: an operation computes the exact result and rounds it.
Exact arithmetic is one rounding; `Library.Binary64` has that of 64-bit floats.
-/

namespace Disburse.Library

/-- How results are rounded to the numbers that can be stored. -/
structure Rounding where
  round : Rat → Rat
  mono : Monotone round
  idem : ∀ value, round (round value) = round value
  /-- Numbers of at most 53 binary digits that are not too fine are stored as they are. -/
  short : ∀ digits exponent : Int, |digits| ≤ 2 ^ 53 → -1074 ≤ exponent →
    round (digits * 2 ^ exponent) = digits * 2 ^ exponent

namespace Rounding

/-- No rounding at all. -/
def exact : Rounding where
  round := id
  mono := monotone_id
  idem := fun _ => rfl
  short := fun _ _ _ _ => rfl

variable (arith : Rounding)

def add (first second : Rat) : Rat := arith.round (first + second)

def sub (first second : Rat) : Rat := arith.round (first - second)

def mul (first second : Rat) : Rat := arith.round (first * second)

def div (first second : Rat) : Rat := arith.round (first / second)

/-- A number that can be stored. -/
def Stored (value : Rat) : Prop := arith.round value = value

@[simp] theorem exact_round (value : Rat) : exact.round value = value := rfl

@[simp] theorem exact_add (first second : Rat) : exact.add first second = first + second := rfl

@[simp] theorem exact_sub (first second : Rat) : exact.sub first second = first - second := rfl

@[simp] theorem exact_mul (first second : Rat) : exact.mul first second = first * second := rfl

@[simp] theorem exact_div (first second : Rat) : exact.div first second = first / second := rfl

/-! ### Stored numbers -/

theorem stored_round (value : Rat) : arith.Stored (arith.round value) := arith.idem value

theorem stored_int (value : Int) (small : |value| ≤ 2 ^ 53) : arith.Stored value := by
  have stored := arith.short value 0 small (by norm_num)
  rw [zpow_zero, mul_one] at stored
  exact stored

@[simp] theorem round_zero : arith.round 0 = 0 := by
  have stored := arith.stored_int 0 (by norm_num)
  rwa [Stored, Int.cast_zero] at stored

@[simp] theorem round_one : arith.round 1 = 1 := by
  have stored := arith.stored_int 1 (by norm_num)
  rwa [Stored, Int.cast_one] at stored

theorem stored_half : arith.Stored (1 / 2) := by
  have stored := arith.short 1 (-1) (by norm_num) (by norm_num)
  norm_num at stored
  exact stored

variable {arith}

theorem round_nonneg {value : Rat} (nonneg : 0 ≤ value) : 0 ≤ arith.round value := by
  have above := arith.mono nonneg
  rwa [round_zero] at above

/-- A number that is not tiny is not rounded to zero. -/
theorem round_pos {value : Rat} (above : 1 / 2 ^ 60 ≤ value) : 0 < arith.round value := by
  have stored := arith.short 1 (-60) (by norm_num) (by norm_num)
  have same : ((1 : Int) : Rat) * 2 ^ (-60 : Int) = 1 / 2 ^ 60 := by norm_num
  rw [same] at stored
  calc (0 : Rat) < 1 / 2 ^ 60 := by norm_num
    _ = arith.round (1 / 2 ^ 60) := stored.symm
    _ ≤ arith.round value := arith.mono above

/-- What stays below a stored number is rounded to something not above it. -/
theorem Stored.round_le {bound value : Rat} (stored : arith.Stored bound) (below : value ≤ bound) :
    arith.round value ≤ bound :=
  (arith.mono below).trans_eq stored

theorem Stored.le_round {bound value : Rat} (stored : arith.Stored bound) (above : bound ≤ value) :
    bound ≤ arith.round value :=
  (Eq.symm stored).trans_le (arith.mono above)

end Rounding

end Disburse.Library
