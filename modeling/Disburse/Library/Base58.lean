import Mathlib.Data.Nat.Digits.Lemmas

/-!
Owns the base-58 text of a byte string: a change of radix on the number that
the bytes write, with one leading `1` for each leading zero byte.
-/

namespace Disburse.Library

/-- Rewrite digits, most significant first, from radix `source` to radix
`target`, keeping each leading zero as one leading zero. -/
def changeRadix (source target : Nat) : List Nat → List Nat
  | 0 :: rest => 0 :: changeRadix source target rest
  | digits => (Nat.digits target (Nat.ofDigits source digits.reverse)).reverse

theorem changeRadix_nil (source target : Nat) : changeRadix source target [] = [] := by
  simp [changeRadix]

theorem changeRadix_zero (source target : Nat) (rest : List Nat) :
    changeRadix source target (0 :: rest) = 0 :: changeRadix source target rest := rfl

/-- Without a leading zero the digits are those of the number. -/
theorem changeRadix_of_head {source target : Nat} {digits : List Nat}
    (head : ∀ rest, digits ≠ 0 :: rest) :
    changeRadix source target digits =
      (Nat.digits target (Nat.ofDigits source digits.reverse)).reverse := by
  unfold changeRadix
  split
  · rename_i rest
    exact absurd rfl (head rest)
  · rfl

/-- The digits of a number have no leading zero. -/
theorem reverse_digits_head (radix number : Nat) :
    ∀ rest, (Nat.digits radix number).reverse ≠ 0 :: rest := by
  intro rest same
  have shape : Nat.digits radix number = rest.reverse ++ [0] := by
    rw [← List.reverse_reverse (Nat.digits radix number), same, List.reverse_cons]
  have positive : number ≠ 0 := by
    intro zero
    rw [zero, Nat.digits_zero] at shape
    simp at shape
  apply Nat.getLast_digit_ne_zero radix positive
  rw [List.getLast_congr _ (by simp) shape, List.getLast_append_singleton]

theorem changeRadix_changeRadix {source target : Nat} (sourceRadix : 1 < source)
    {digits : List Nat} (bounded : ∀ digit ∈ digits, digit < source) :
    changeRadix target source (changeRadix source target digits) = digits := by
  induction digits with
  | nil => rw [changeRadix_nil, changeRadix_nil]
  | cons digit rest inductionHypothesis =>
      by_cases zero : digit = 0
      · subst zero
        have restBounded := fun other member => bounded other (List.mem_cons_of_mem 0 member)
        rw [changeRadix_zero, changeRadix_zero, inductionHypothesis restBounded]
      · have head : ∀ other, digit :: rest ≠ 0 :: other := by
          intro other same
          exact zero (List.cons.inj same).1
        rw [changeRadix_of_head head, changeRadix_of_head (reverse_digits_head target _),
          List.reverse_reverse, Nat.ofDigits_digits, Nat.digits_ofDigits source sourceRadix,
          List.reverse_reverse]
        · intro other member
          exact bounded other (List.mem_reverse.mp member)
        · intro nonempty
          simpa using zero

/-! ### The alphabet -/

/-- Digits and letters without `0`, `O`, `I` and `l`. -/
def base58Alphabet : List Char :=
  "123456789ABCDEFGHJKLMNPQRSTUVWXYZabcdefghijkmnopqrstuvwxyz".toList

def base58Char (digit : Nat) : Char := base58Alphabet.getD digit '1'

def base58Value (c : Char) : Option Nat := base58Alphabet.idxOf? c

theorem base58Value_char {digit : Nat} (bounded : digit < 58) :
    base58Value (base58Char digit) = some digit := by
  have table : ∀ digit : Fin 58, base58Value (base58Char digit.val) = some digit.val := by
    decide +kernel
  exact table ⟨digit, bounded⟩

theorem mapM_base58Value {digits : List Nat} (bounded : ∀ digit ∈ digits, digit < 58) :
    (digits.map base58Char).mapM base58Value = some digits := by
  induction digits with
  | nil => rfl
  | cons digit rest inductionHypothesis =>
      have first := base58Value_char (bounded digit List.mem_cons_self)
      have others := inductionHypothesis fun other member =>
        bounded other (List.mem_cons_of_mem digit member)
      simp [first, others]

/-! ### Texts of bytes -/

def base58Encode (bytes : List UInt8) : String :=
  String.ofList ((changeRadix 256 58 (bytes.map UInt8.toNat)).map base58Char)

def base58Decode (text : String) : Option (List UInt8) :=
  (text.toList.mapM base58Value).map fun digits => (changeRadix 58 256 digits).map UInt8.ofNat

theorem changeRadix_bounded (source : Nat) {target : Nat} (targetRadix : 1 < target)
    (digits : List Nat) : ∀ digit ∈ changeRadix source target digits, digit < target := by
  induction digits with
  | nil => simp [changeRadix_nil]
  | cons first rest inductionHypothesis =>
      intro digit member
      by_cases zero : first = 0
      · subst zero
        rw [changeRadix_zero, List.mem_cons] at member
        rcases member with isZero | inRest
        · omega
        · exact inductionHypothesis digit inRest
      · have head : ∀ other, first :: rest ≠ 0 :: other := by
          intro other same
          exact zero (List.cons.inj same).1
        rw [changeRadix_of_head head, List.mem_reverse] at member
        exact Nat.digits_lt_base targetRadix member

theorem base58Decode_encode (bytes : List UInt8) :
    base58Decode (base58Encode bytes) = some bytes := by
  have bounded : ∀ digit ∈ bytes.map UInt8.toNat, digit < 256 := by
    intro digit member
    obtain ⟨byte, _, rfl⟩ := List.mem_map.mp member
    exact byte.toNat_lt
  have digits := mapM_base58Value (changeRadix_bounded 256 (by decide : 1 < 58)
    (bytes.map UInt8.toNat))
  rw [base58Decode, base58Encode, String.toList_ofList, digits, Option.map_some,
    changeRadix_changeRadix (by decide) bounded, List.map_map]
  have same : UInt8.ofNat ∘ UInt8.toNat = id := by
    funext byte
    exact UInt8.ofNat_toNat
  rw [same, List.map_id]

end Disburse.Library
