import Disburse.Library.Rounding
import Mathlib.Algebra.Order.Floor.Ring
import Mathlib.Data.Int.Log
import Mathlib.Data.Rat.Floor
import Mathlib.Tactic.Linarith
import Mathlib.Tactic.Positivity

/-!
Owns the rounding of 64-bit floats: to the nearest number of 53 binary digits
and no finer than `2 ^ (-1074)`, of two as near to the even one. Numbers above
the greatest float are not cut off, so results about it are about values that
stay below `2 ^ 1024`.
-/

namespace Disburse.Library

/-! ### Integers -/

/-- The nearest integer, of two as near the even one. -/
def roundEven (value : Rat) : Int :=
  let upper := ⌊value + 1 / 2⌋
  if value + 1 / 2 = upper ∧ upper % 2 = 1 then upper - 1 else upper

/-- The integer is within a half. -/
theorem roundEven_le (value : Rat) : (roundEven value : Rat) ≤ value + 1 / 2 := by
  have below := Int.floor_le (value + 1 / 2)
  unfold roundEven
  dsimp only
  split
  · push_cast
    linarith
  · exact below

theorem le_roundEven (value : Rat) : value - 1 / 2 ≤ (roundEven value : Rat) := by
  have above := Int.lt_floor_add_one (value + 1 / 2)
  unfold roundEven
  dsimp only
  split
  · rename_i tie
    push_cast
    linarith [tie.1]
  · linarith

theorem roundEven_intCast (value : Int) : roundEven value = value := by
  have floor : ⌊(value : Rat) + 1 / 2⌋ = value := by
    rw [Int.floor_eq_iff]
    constructor
    · linarith
    · linarith
  unfold roundEven
  rw [floor]
  dsimp only
  rw [if_neg]
  rintro ⟨tie, -⟩
  linarith

theorem roundEven_mono {first second : Rat} (le : first ≤ second) :
    roundEven first ≤ roundEven second := by
  have floors : ⌊first + 1 / 2⌋ ≤ ⌊second + 1 / 2⌋ := Int.floor_le_floor (by linarith)
  rcases floors.lt_or_eq with less | equal
  · have lower : roundEven first ≤ ⌊first + 1 / 2⌋ := by
      unfold roundEven
      dsimp only
      split <;> omega
    have upper : ⌊second + 1 / 2⌋ - 1 ≤ roundEven second := by
      unfold roundEven
      dsimp only
      split <;> omega
    omega
  · -- A tie is the least number of its floor, so it is the first if the second is one.
    unfold roundEven
    dsimp only
    rw [equal]
    split
    · split <;> omega
    · rename_i firstUp
      split
      · rename_i secondDown
        exfalso
        apply firstUp
        refine ⟨le_antisymm ?_ ?_, secondDown.2⟩
        · linarith [secondDown.1]
        · rw [← equal]
          exact Int.floor_le _
      · exact le_rfl

/-! ### Floats -/

/-- The exponent of the last digit of a positive number. -/
def lastDigit (value : Rat) : Int := max (Int.log 2 value - 52) (-1074)

/-- Rounding of a number that is not negative. -/
def roundNonneg (value : Rat) : Rat :=
  roundEven (value / 2 ^ lastDigit value) * 2 ^ lastDigit value

/-- Rounding to the nearest float. -/
def round64 (value : Rat) : Rat := if value < 0 then -roundNonneg (-value) else roundNonneg value

theorem digit_pos (exponent : Int) : (0 : Rat) < 2 ^ exponent := by positivity

theorem digit_split {high low : Int} (le : low ≤ high) :
    (2 : Rat) ^ high = ((2 ^ (high - low).toNat : Int) : Rat) * 2 ^ low := by
  have whole : ((high - low).toNat : Int) = high - low := Int.toNat_of_nonneg (by omega)
  rw [Int.cast_pow, Int.cast_ofNat, ← zpow_natCast, whole, ← zpow_add₀ (by norm_num)]
  congr 1
  omega

section Nonneg

variable {value : Rat}

theorem roundNonneg_zero : roundNonneg 0 = 0 := by
  have zero := roundEven_intCast 0
  rw [Int.cast_zero] at zero
  rw [roundNonneg, zero_div, zero, Int.cast_zero, zero_mul]

/-- A multiple of the last digit bounds what is rounded. -/
theorem roundNonneg_le {digits : Int} (below : value ≤ digits * 2 ^ lastDigit value) :
    roundNonneg value ≤ digits * 2 ^ lastDigit value := by
  have quotient : value / 2 ^ lastDigit value ≤ digits := (div_le_iff₀ (digit_pos _)).mpr below
  have rounded := roundEven_mono quotient
  rw [roundEven_intCast] at rounded
  exact mul_le_mul_of_nonneg_right (by exact_mod_cast rounded) (digit_pos _).le

theorem le_roundNonneg (value : Rat) (digits : Int)
    (above : digits * 2 ^ lastDigit value ≤ value) :
    digits * 2 ^ lastDigit value ≤ roundNonneg value := by
  have quotient : (digits : Rat) ≤ value / 2 ^ lastDigit value :=
    (le_div_iff₀ (digit_pos _)).mpr above
  have rounded := roundEven_mono quotient
  rw [roundEven_intCast] at rounded
  exact mul_le_mul_of_nonneg_right (by exact_mod_cast rounded) (digit_pos _).le

theorem roundNonneg_eq (digits : Int) (same : value = digits * 2 ^ lastDigit value) :
    roundNonneg value = value := by
  apply le_antisymm
  · calc roundNonneg value ≤ digits * 2 ^ lastDigit value := roundNonneg_le same.le
      _ = value := same.symm
  · calc value = digits * 2 ^ lastDigit value := same
      _ ≤ roundNonneg value := le_roundNonneg value digits same.ge

theorem roundNonneg_nonneg (nonneg : 0 ≤ value) : 0 ≤ roundNonneg value := by
  have above := le_roundNonneg value 0 (by simpa using nonneg)
  simpa using above

/-- The power of two above a number is not rounded past. -/
theorem roundNonneg_le_next (value : Rat) :
    roundNonneg value ≤ 2 ^ max (Int.log 2 value + 1) (-1074) := by
  have next := Int.lt_zpow_succ_log_self (R := Rat) (b := 2) (by norm_num) value
  have fine : lastDigit value ≤ max (Int.log 2 value + 1) (-1074) := by
    unfold lastDigit
    omega
  rw [digit_split fine]
  apply roundNonneg_le
  rw [← digit_split fine]
  exact next.le.trans (zpow_le_zpow_right₀ (by norm_num) (le_max_left _ _))

/-- The power of two below a number is a bound of its rounding. -/
theorem log_le_roundNonneg (positive : 0 < value) (normal : -1074 ≤ Int.log 2 value) :
    2 ^ Int.log 2 value ≤ roundNonneg value := by
  have least := Int.zpow_log_le_self (R := Rat) (b := 2) (by norm_num) positive
  have fine : lastDigit value ≤ Int.log 2 value := by
    unfold lastDigit
    omega
  have above := le_roundNonneg value (2 ^ (Int.log 2 value - lastDigit value).toNat)
    (by rw [← digit_split fine]; exact_mod_cast least)
  rwa [← digit_split fine] at above

end Nonneg

theorem roundNonneg_mono {first second : Rat} (nonneg : 0 ≤ first) (le : first ≤ second) :
    roundNonneg first ≤ roundNonneg second := by
  rcases nonneg.eq_or_lt with rfl | positive
  · rw [roundNonneg_zero]
    exact roundNonneg_nonneg le
  · have logs := Int.log_mono_right (b := 2) positive le
    by_cases same : lastDigit first = lastDigit second
    · unfold roundNonneg
      rw [same]
      have quotient : first / 2 ^ lastDigit second ≤ second / 2 ^ lastDigit second :=
        div_le_div_of_nonneg_right le (digit_pos _).le
      exact mul_le_mul_of_nonneg_right (by exact_mod_cast roundEven_mono quotient)
        (digit_pos _).le
    · -- A coarser last digit means that a power of two lies between the numbers.
      have coarser : Int.log 2 first < Int.log 2 second ∧ -1074 ≤ Int.log 2 second := by
        unfold lastDigit at same
        omega
      calc roundNonneg first ≤ 2 ^ max (Int.log 2 first + 1) (-1074) := roundNonneg_le_next first
        _ ≤ 2 ^ Int.log 2 second := zpow_le_zpow_right₀ (by norm_num) (by omega)
        _ ≤ roundNonneg second := log_le_roundNonneg (positive.trans_le le) coarser.2

theorem round64_mono : Monotone round64 := by
  intro first second le
  unfold round64
  by_cases firstNegative : first < 0
  · rw [if_pos firstNegative]
    by_cases secondNegative : second < 0
    · rw [if_pos secondNegative]
      exact neg_le_neg (roundNonneg_mono (by linarith) (by linarith))
    · rw [if_neg secondNegative]
      have below := roundNonneg_nonneg (show 0 ≤ -first by linarith)
      have above := roundNonneg_nonneg (not_lt.mp secondNegative)
      linarith
  · rw [if_neg firstNegative, if_neg (by linarith)]
    exact roundNonneg_mono (not_lt.mp firstNegative) le

/-! ### Floats stay as they are -/

theorem roundNonneg_short {digits exponent : Int} (positive : 0 < digits) (short : digits ≤ 2 ^ 53)
    (fine : -1074 ≤ exponent) :
    roundNonneg (digits * 2 ^ exponent) = digits * 2 ^ exponent := by
  -- The power of two itself has a digit less in the next exponent.
  obtain ⟨few, scale, same, fewPositive, fewShort, scaleFine⟩ : ∃ few scale : Int,
      (digits * 2 ^ exponent : Rat) = few * 2 ^ scale ∧ 0 < few ∧ few < 2 ^ 53 ∧
        -1074 ≤ scale := by
    rcases short.lt_or_eq with less | rfl
    · exact ⟨digits, exponent, rfl, positive, less, fine⟩
    · refine ⟨2 ^ 52, exponent + 1, ?_, by norm_num, by norm_num, by omega⟩
      rw [zpow_add_one₀ (by norm_num)]
      push_cast
      ring
  rw [same]
  have valuePositive : (0 : Rat) < few * 2 ^ scale :=
    mul_pos (by exact_mod_cast fewPositive) (digit_pos _)
  have below : (few * 2 ^ scale : Rat) < 2 ^ (scale + 53) := by
    rw [zpow_add₀ (by norm_num), mul_comm ((2 : Rat) ^ scale)]
    exact mul_lt_mul_of_pos_right (by exact_mod_cast fewShort) (digit_pos _)
  have log : Int.log 2 (few * 2 ^ scale : Rat) < scale + 53 :=
    (Int.lt_zpow_iff_log_lt (by norm_num) valuePositive).mp (by exact_mod_cast below)
  have coarse : lastDigit (few * 2 ^ scale) ≤ scale := by
    unfold lastDigit
    omega
  apply roundNonneg_eq (few * 2 ^ (scale - lastDigit (few * 2 ^ scale)).toNat)
  rw [Int.cast_mul, mul_assoc, ← digit_split coarse]

theorem round64_short (digits exponent : Int) (short : |digits| ≤ 2 ^ 53)
    (fine : -1074 ≤ exponent) : round64 (digits * 2 ^ exponent) = digits * 2 ^ exponent := by
  have scale := digit_pos exponent
  have bounds := abs_le.mp short
  unfold round64
  rcases lt_trichotomy digits 0 with negative | rfl | positive
  · have cast : (digits : Rat) < 0 := by exact_mod_cast negative
    rw [if_pos (mul_neg_of_neg_of_pos cast scale), ← neg_mul, ← Int.cast_neg,
      roundNonneg_short (by omega) (by omega) fine]
    push_cast
    ring
  · rw [Int.cast_zero, zero_mul, if_neg (lt_irrefl _), roundNonneg_zero]
  · have cast : (0 : Rat) < digits := by exact_mod_cast positive
    rw [if_neg (mul_pos cast scale).le.not_gt, roundNonneg_short positive bounds.2 fine]

/-- A rounded number is made of 53 digits. -/
theorem roundNonneg_digits {value : Rat} (nonneg : 0 ≤ value) :
    ∃ digits exponent : Int, 0 ≤ digits ∧ digits ≤ 2 ^ 53 ∧ -1074 ≤ exponent ∧
      roundNonneg value = digits * 2 ^ exponent := by
  refine ⟨_, _, ?_, ?_, le_max_right _ _, rfl⟩
  · have above := roundEven_mono (div_nonneg nonneg (digit_pos (lastDigit value)).le)
    have zero := roundEven_intCast 0
    rw [Int.cast_zero] at zero
    rwa [zero] at above
  · have next := Int.lt_zpow_succ_log_self (R := Rat) (b := 2) (by norm_num) value
    have coarse : Int.log 2 value + 1 ≤ 53 + lastDigit value := by
      unfold lastDigit
      omega
    have quotient : value / 2 ^ lastDigit value ≤ ((2 ^ 53 : Int) : Rat) := by
      rw [div_le_iff₀ (digit_pos _)]
      calc value ≤ 2 ^ (Int.log 2 value + 1) := by exact_mod_cast next.le
        _ ≤ 2 ^ (53 + lastDigit value) := zpow_le_zpow_right₀ (by norm_num) coarse
        _ = ((2 ^ 53 : Int) : Rat) * 2 ^ lastDigit value := by
          rw [zpow_add₀ (by norm_num)]
          norm_num
    have rounded := roundEven_mono quotient
    rwa [roundEven_intCast] at rounded

theorem round64_idem (value : Rat) : round64 (round64 value) = round64 value := by
  by_cases negative : value < 0
  · obtain ⟨digits, exponent, nonneg, short, fine, same⟩ :=
      roundNonneg_digits (show 0 ≤ -value by linarith)
    have whole : round64 value = ((-digits : Int) : Rat) * 2 ^ exponent := by
      rw [round64, if_pos negative, same]
      push_cast
      ring
    rw [whole, round64_short _ _ (by rw [abs_neg, abs_of_nonneg nonneg]; exact short) fine]
  · obtain ⟨digits, exponent, nonneg, short, fine, same⟩ :=
      roundNonneg_digits (not_lt.mp negative)
    have whole : round64 value = digits * 2 ^ exponent := by
      rw [round64, if_neg negative, same]
    rw [whole, round64_short _ _ (by rw [abs_of_nonneg nonneg]; exact short) fine]

/-- The arithmetic of 64-bit floats. -/
def Rounding.binary64 : Rounding where
  round := round64
  mono := round64_mono
  idem := round64_idem
  short := round64_short

theorem round64_neg (value : Rat) : round64 (-value) = -round64 value := by
  unfold round64
  rcases lt_trichotomy value 0 with negative | rfl | positive
  · rw [if_neg (by linarith), if_pos negative, neg_neg]
  · simp [roundNonneg_zero]
  · rw [if_pos (by linarith), if_neg (by linarith), neg_neg]

/-- Half of a float that is not tiny is a float. -/
theorem stored_div_two {value : Rat} (stored : Rounding.binary64.Stored value)
    (normal : 2 ^ (-1021 : Int) < value) : Rounding.binary64.Stored (value / 2) := by
  have positive : 0 < value := (digit_pos _).trans normal
  obtain ⟨digits, exponent, nonneg, short, fine, same⟩ := roundNonneg_digits positive.le
  have whole : value = digits * 2 ^ exponent := by
    rw [← same]
    change round64 value = value at stored
    rw [round64, if_neg positive.le.not_gt] at stored
    exact stored.symm
  have coarse : -1073 ≤ exponent := by
    by_contra finest
    have least : exponent = -1074 := by omega
    have castShort : (digits : Rat) ≤ ((2 ^ 53 : Int) : Rat) := by exact_mod_cast short
    have tiny : value ≤ 2 ^ (-1021 : Int) := by
      calc value = digits * 2 ^ (-1074 : Int) := by rw [whole, least]
        _ ≤ ((2 ^ 53 : Int) : Rat) * 2 ^ (-1074 : Int) :=
            mul_le_mul_of_nonneg_right castShort (digit_pos _).le
        _ = 2 ^ (-1021 : Int) := by
            rw [Int.cast_pow, Int.cast_ofNat, ← zpow_natCast, ← zpow_add₀ (by norm_num)]
            norm_num
    linarith
  have halved : value / 2 = digits * 2 ^ (exponent - 1) := by
    rw [whole, zpow_sub_one₀ (by norm_num)]
    ring
  rw [halved]
  exact round64_short digits (exponent - 1) (by rwa [abs_of_nonneg nonneg]) (by omega)

/-! ### Where the rounding jumps -/

/-- Past the middle below a multiple of its last digit a number is rounded up to it. -/
theorem le_roundNonneg_of_lt (value : Rat) (digits : Int)
    (past : (digits - 1 / 2) * 2 ^ lastDigit value < value) :
    digits * 2 ^ lastDigit value ≤ roundNonneg value := by
  have quotient : (digits : Rat) - 1 / 2 < value / 2 ^ lastDigit value :=
    (lt_div_iff₀ (digit_pos _)).mpr past
  have near := le_roundEven (value / 2 ^ lastDigit value)
  have above : ((digits - 1 : Int) : Rat) < roundEven (value / 2 ^ lastDigit value) := by
    push_cast
    linarith
  have whole : digits ≤ roundEven (value / 2 ^ lastDigit value) := by
    have strict := Int.cast_lt.mp above
    omega
  exact mul_le_mul_of_nonneg_right (by exact_mod_cast whole) (digit_pos _).le

section Jump

-- An odd float of full length; the one below it is even.
variable {digits exponent : Int} (odd : digits % 2 = 1) (long : 2 ^ 52 < digits)
  (short : digits < 2 ^ 53) (fine : -1074 ≤ exponent)

include long fine in
/-- The last digit of the numbers between the two. -/
theorem lastDigit_of_middle {value : Rat} (above : (digits - 1 / 2) * 2 ^ exponent ≤ value)
    (below : value < 2 ^ 53 * 2 ^ exponent) : lastDigit value = exponent := by
  have least : (2 : Rat) ^ (52 + exponent) ≤ value := by
    rw [zpow_add₀ (by norm_num)]
    refine le_trans (mul_le_mul_of_nonneg_right ?_ (digit_pos _).le) above
    have cast : ((2 ^ 52 + 1 : Int) : Rat) ≤ digits := by exact_mod_cast long
    push_cast at cast
    norm_num at cast ⊢
    linarith
  have next : value < 2 ^ (52 + exponent + 1) := by
    rw [show 52 + exponent + 1 = 53 + exponent by ring, zpow_add₀ (by norm_num)]
    exact below
  have positive : 0 < value := (digit_pos _).trans_le least
  have lower := (Int.zpow_le_iff_le_log (b := 2) (by norm_num) positive).mp least
  have upper := (Int.lt_zpow_iff_log_lt (b := 2) (by norm_num) positive).mp next
  unfold lastDigit
  omega

include odd long short fine

/-- The middle is rounded to the even float below. -/
theorem round64_middle :
    round64 ((digits - 1 / 2) * 2 ^ exponent) = (digits - 1) * 2 ^ exponent := by
  have cast : ((2 ^ 52 : Int) : Rat) < digits := by exact_mod_cast long
  have castShort : (digits : Rat) < ((2 ^ 53 : Int) : Rat) := by exact_mod_cast short
  push_cast at cast castShort
  have positive : (0 : Rat) < (digits - 1 / 2) * 2 ^ exponent :=
    mul_pos (by linarith) (digit_pos _)
  have last : lastDigit ((digits - 1 / 2) * 2 ^ exponent) = exponent :=
    lastDigit_of_middle long fine le_rfl (mul_lt_mul_of_pos_right (by linarith) (digit_pos _))
  have even : roundEven ((digits : Rat) - 1 / 2) = digits - 1 := by
    unfold roundEven
    rw [sub_add_cancel, Int.floor_intCast, if_pos ⟨rfl, odd⟩]
  rw [round64, if_neg positive.le.not_gt, roundNonneg, last, mul_div_cancel_right₀ _
    (digit_pos _).ne', even]
  push_cast
  rfl

variable (digits exponent)

/-- A number is rounded to the odd float or above exactly when it is past the middle. -/
theorem le_round64_iff (value : Rat) :
    digits * 2 ^ exponent ≤ round64 value ↔ (digits - 1 / 2) * 2 ^ exponent < value := by
  constructor
  · intro reaches
    by_contra before
    have below := (round64_mono (not_lt.mp before)).trans_eq
      (round64_middle odd long short fine)
    have scale := digit_pos exponent
    linarith
  · intro past
    rcases le_or_gt (digits * 2 ^ exponent : Rat) value with reached | between
    · have stored := round64_short digits exponent (abs_le.mpr ⟨by omega, short.le⟩) fine
      exact stored.symm.trans_le (round64_mono reached)
    · have castShort : (digits : Rat) < ((2 ^ 53 : Int) : Rat) := by exact_mod_cast short
      push_cast at castShort
      have last : lastDigit value = exponent := lastDigit_of_middle long fine past.le
        (between.trans (mul_lt_mul_of_pos_right castShort (digit_pos _)))
      have rounded := le_roundNonneg_of_lt value digits (by rw [last]; exact past)
      have positive : 0 ≤ value := by
        have cast : ((2 ^ 52 : Int) : Rat) < digits := by exact_mod_cast long
        push_cast at cast
        have middle : (0 : Rat) < (digits - 1 / 2) * 2 ^ exponent :=
          mul_pos (by linarith) (digit_pos _)
        linarith
      rw [last] at rounded
      rwa [round64, if_neg positive.not_gt]

/-- It is rounded to the even float below or less exactly when it is not. -/
theorem round64_le_iff (value : Rat) :
    round64 value ≤ (digits - 1) * 2 ^ exponent ↔ value ≤ (digits - 1 / 2) * 2 ^ exponent := by
  constructor
  · intro stays
    by_contra past
    have reaches := (le_round64_iff digits exponent odd long short fine value).mpr (not_le.mp past)
    have scale := digit_pos exponent
    linarith
  · intro before
    exact (round64_mono before).trans_eq (round64_middle odd long short fine)

end Jump

/-! ### Underflow -/

/-- What is rounded to zero: half of the least float and less. -/
theorem round64_pos_iff {value : Rat} : 0 < round64 value ↔ 2 ^ (-1075 : Int) < value := by
  have least : (2 : Rat) ^ (-1074 : Int) = 2 * 2 ^ (-1075 : Int) := by
    rw [← zpow_one_add₀ (by norm_num)]
    norm_num
  constructor
  · intro positive
    by_contra small
    rw [not_lt] at small
    have half : round64 (2 ^ (-1075 : Int)) = 0 := by
      decide +kernel
    exact absurd positive (not_lt.mpr ((round64_mono small).trans_eq half))
  · intro large
    have valuePositive : 0 < value := (digit_pos _).trans large
    rw [round64, if_neg valuePositive.le.not_gt]
    have digit : (2 : Rat) ^ lastDigit value < 2 * value := by
      rcases max_choice (Int.log 2 value - 52) (-1074) with normal | subnormal
      · rw [lastDigit, normal]
        have least := Int.zpow_log_le_self (R := Rat) (b := 2) (by norm_num) valuePositive
        calc (2 : Rat) ^ (Int.log 2 value - 52) ≤ 2 ^ Int.log 2 value :=
              zpow_le_zpow_right₀ (by norm_num) (by omega)
          _ ≤ value := by exact_mod_cast least
          _ < 2 * value := by linarith
      · rw [lastDigit, subnormal]
        linarith
    have rounded := le_roundNonneg_of_lt value 1 (by push_cast; linarith)
    rw [Int.cast_one, one_mul] at rounded
    exact (digit_pos _).trans_le rounded

end Disburse.Library
