import Disburse.Library.Json
import Mathlib.Data.List.Infix
import Mathlib.Algebra.Order.Field.Rat

/-!
Owns JSON texts as the grammar derives them: the tree of a text, its bytes and
its value.

The leaves are those that have a value: an escape of half a surrogate pair, which
a parser into strings refuses, is not among them. The bytes of an array or object
are its brackets around its elements, each with the white space on both sides.
-/

namespace Disburse.Library

/-! ### White space -/

inductive Blank where
  | space
  | tab
  | newline
  | carriageReturn
deriving DecidableEq, Repr

def Blank.byte : Blank → UInt8
  | space => 32
  | tab => 9
  | newline => 10
  | carriageReturn => 13

abbrev Blanks := List Blank

def Blanks.bytes (blanks : Blanks) : List UInt8 := blanks.map Blank.byte

/-! ### Numbers -/

abbrev Digit := Fin 10

def Digit.byte (digit : Digit) : UInt8 := UInt8.ofNat (48 + digit.val)

/-- A row of digits with at least one in it. -/
structure Digits where
  first : Digit
  others : List Digit
deriving DecidableEq, Repr

namespace Digits

def toList (digits : Digits) : List Digit := digits.first :: digits.others

def bytes (digits : Digits) : List UInt8 := digits.toList.map Digit.byte

def toNat (digits : Digits) : Nat :=
  digits.toList.foldl (fun number digit => 10 * number + digit.val) 0

end Digits

inductive ExponentSign where
  | absent
  | plus
  | minus
deriving DecidableEq, Repr

structure Exponent where
  upperCase : Bool
  sign : ExponentSign
  digits : Digits
deriving DecidableEq, Repr

namespace Exponent

def bytes (exponent : Exponent) : List UInt8 :=
  let letter : UInt8 := if exponent.upperCase then 69 else 101
  let sign : List UInt8 :=
    match exponent.sign with
    | .absent => []
    | .plus => [43]
    | .minus => [45]
  letter :: sign ++ exponent.digits.bytes

def value (exponent : Exponent) : Int :=
  match exponent.sign with
  | .minus => -exponent.digits.toNat
  | .absent | .plus => exponent.digits.toNat

end Exponent

structure NumberText where
  negative : Bool
  whole : Digits
  /-- No superfluous zero in front. -/
  leading : whole.first = 0 → whole.others = []
  fraction : Option Digits
  exponent : Option Exponent
deriving DecidableEq, Repr

namespace NumberText

def bytes (number : NumberText) : List UInt8 :=
  let sign : List UInt8 := if number.negative then [45] else []
  let fraction : List UInt8 := number.fraction.elim [] fun digits => 46 :: digits.bytes
  let exponent : List UInt8 := number.exponent.elim [] Exponent.bytes
  sign ++ number.whole.bytes ++ fraction ++ exponent

/-- The number as a rational. -/
def rational (number : NumberText) : Rat :=
  let fraction : Rat := number.fraction.elim 0 fun digits =>
    digits.toNat / 10 ^ digits.toList.length
  let exponent : Int := number.exponent.elim 0 Exponent.value
  let magnitude : Rat := (number.whole.toNat + fraction) * 10 ^ exponent
  if number.negative then -magnitude else magnitude

/-- Integers that fit 64 bits are kept as integers. -/
def value (number : NumberText) : Number :=
  let whole := number.whole.toNat
  if number.fraction.isSome || number.exponent.isSome then .float number.rational
  else if number.negative then
    if whole = 0 ∨ 2 ^ 63 < whole then .float number.rational else .negInt (-whole)
  else if whole < 2 ^ 64 then .posInt whole
  else .float number.rational

end NumberText

/-! ### Strings -/

structure HexDigit where
  value : Fin 16
  upperCase : Bool
deriving DecidableEq, Repr

def HexDigit.byte (digit : HexDigit) : UInt8 :=
  if digit.value.val < 10 then UInt8.ofNat (48 + digit.value.val)
  else if digit.upperCase then UInt8.ofNat (55 + digit.value.val)
  else UInt8.ofNat (87 + digit.value.val)

/-- The four digits of a `\u` escape. -/
structure HexQuad where
  first : HexDigit
  second : HexDigit
  third : HexDigit
  fourth : HexDigit
deriving DecidableEq, Repr

namespace HexQuad

def bytes (quad : HexQuad) : List UInt8 :=
  [quad.first.byte, quad.second.byte, quad.third.byte, quad.fourth.byte]

def code (quad : HexQuad) : Nat :=
  4096 * quad.first.value.val + 256 * quad.second.value.val + 16 * quad.third.value.val +
    quad.fourth.value.val

end HexQuad

inductive ShortEscape where
  | quote
  | backslash
  | slash
  | backspace
  | formFeed
  | newline
  | carriageReturn
  | tab
deriving DecidableEq, Repr

namespace ShortEscape

/-- The byte after the backslash. -/
def byte : ShortEscape → UInt8
  | quote => 34
  | backslash => 92
  | slash => 47
  | backspace => 98
  | formFeed => 102
  | newline => 110
  | carriageReturn => 114
  | tab => 116

def char : ShortEscape → Char
  | quote => '"'
  | backslash => '\\'
  | slash => '/'
  | backspace => Char.ofNat 8
  | formFeed => Char.ofNat 12
  | newline => '\n'
  | carriageReturn => '\r'
  | tab => '\t'

end ShortEscape

/-- A piece of a string literal that stands for one character. -/
inductive StringUnit where
  | plain (c : Char) (allowed : c.toNat ≠ 34 ∧ c.toNat ≠ 92 ∧ 32 ≤ c.toNat)
  | escape (short : ShortEscape)
  | unicode (quad : HexQuad) (scalar : quad.code < 0xD800 ∨ 0xE000 ≤ quad.code)
  | pair (high low : HexQuad) (leading : 0xD800 ≤ high.code ∧ high.code < 0xDC00)
      (trailing : 0xDC00 ≤ low.code ∧ low.code < 0xE000)
deriving DecidableEq, Repr

namespace StringUnit

def bytes : StringUnit → List UInt8
  | plain c _ => String.utf8EncodeChar c
  | escape short => [92, short.byte]
  | unicode quad _ => 92 :: 117 :: quad.bytes
  | pair high low _ _ => 92 :: 117 :: high.bytes ++ 92 :: 117 :: low.bytes

def char : StringUnit → Char
  | plain c _ => c
  | escape short => short.char
  | unicode quad _ => Char.ofNat quad.code
  | pair high low _ _ =>
      Char.ofNat (0x10000 + 1024 * (high.code - 0xD800) + (low.code - 0xDC00))

end StringUnit

/-- What stands between the quotes of a string literal. -/
abbrev StringText := List StringUnit

namespace StringText

/-- The bytes after the opening quote. -/
def closing (units : StringText) : List UInt8 := units.flatMap StringUnit.bytes ++ [34]

def bytes (units : StringText) : List UInt8 := 34 :: units.closing

def value (units : StringText) : String := String.ofList (units.map StringUnit.char)

end StringText

/-! ### Texts -/

mutual

/-- A value in a text. An empty array or object may hold white space; before
elements or members it adds to the first one's own. -/
inductive JsonText where
  | null
  | bool (value : Bool)
  | number (text : NumberText)
  | string (units : StringText)
  | array (blanks : Blanks) (elements : Elements)
  | object (blanks : Blanks) (members : Members)

inductive Elements where
  | nil
  | cons (before : Blanks) (value : JsonText) (after : Blanks) (rest : Elements)

inductive Members where
  | nil
  | cons (before : Blanks) (key : StringText) (beforeColon afterColon : Blanks)
      (value : JsonText) (after : Blanks) (rest : Members)

end

/-- The comma before what follows an element. -/
def Elements.comma : Elements → List UInt8
  | nil => []
  | cons _ _ _ _ => [44]

def Members.comma : Members → List UInt8
  | nil => []
  | cons _ _ _ _ _ _ _ => [44]

mutual

def JsonText.bytes : JsonText → List UInt8
  | .null => [110, 117, 108, 108]
  | .bool true => [116, 114, 117, 101]
  | .bool false => [102, 97, 108, 115, 101]
  | .number text => text.bytes
  | .string units => units.bytes
  | .array blanks elements => 91 :: (blanks.bytes ++ (elements.bytes ++ [93]))
  | .object blanks members => 123 :: (blanks.bytes ++ (members.bytes ++ [125]))

def Elements.bytes : Elements → List UInt8
  | .nil => []
  | .cons before value after rest =>
      before.bytes ++ (value.bytes ++ (after.bytes ++ (rest.comma ++ rest.bytes)))

def Members.bytes : Members → List UInt8
  | .nil => []
  | .cons before key beforeColon afterColon value after rest =>
      before.bytes ++ (key.bytes ++ (beforeColon.bytes ++ (58 :: (afterColon.bytes ++
        (value.bytes ++ (after.bytes ++ (rest.comma ++ rest.bytes)))))))

end

/-- Enter a member into a map in the order of its keys; a later one replaces an
earlier one of the same key. -/
def insertMember (key : String) (value : Json) : List (String × Json) → List (String × Json)
  | [] => [(key, value)]
  | (other, old) :: rest =>
      if key = other then (key, value) :: rest
      else if key < other then (key, value) :: (other, old) :: rest
      else (other, old) :: insertMember key value rest

mutual

def JsonText.value : JsonText → Json
  | .null => .null
  | .bool value => .bool value
  | .number text => .number text.value
  | .string units => .string units.value
  | .array _ elements => .array elements.values
  | .object _ members => .object (members.enter [])

def Elements.values : Elements → List Json
  | .nil => []
  | .cons _ value _ rest => value.value :: rest.values

/-- The map after the members are entered in their order. -/
def Members.enter (entered : List (String × Json)) : Members → List (String × Json)
  | .nil => entered
  | .cons _ key _ _ value _ rest => rest.enter (insertMember key.value value.value entered)

end

/-! ### Members by key -/

/-- The value of the last member whose key reads as this, however it is spelled. -/
def Members.lastUnder (key : String) : Members → Option Json
  | .nil => none
  | .cons _ own _ _ value _ rest =>
      (rest.lastUnder key).or (if own.value = key then some value.value else none)

theorem lookup_cons_ite (first other : String) (value : Json) (rest : List (String × Json)) :
    ((first, value) :: rest).lookup other =
      if other = first then some value else rest.lookup other := by
  rw [List.lookup_cons]
  by_cases same : other = first
  · rw [if_pos same, beq_iff_eq.mpr same]
  · rw [if_neg same, beq_eq_false_iff_ne.mpr same]

theorem lookup_insertMember (key other : String) (value : Json) (members : List (String × Json)) :
    (insertMember key value members).lookup other =
      if other = key then some value else members.lookup other := by
  induction members with
  | nil => rw [insertMember, lookup_cons_ite]
  | cons entry rest inductionHypothesis =>
      rcases entry with ⟨first, old⟩
      rw [insertMember]
      by_cases present : key = first
      · rw [if_pos present, lookup_cons_ite, lookup_cons_ite, ← present]
        split <;> rfl
      · rw [if_neg present]
        by_cases before : key < first
        · rw [if_pos before, lookup_cons_ite]
        · rw [if_neg before, lookup_cons_ite, lookup_cons_ite, inductionHypothesis]
          by_cases same : other = key
          · rw [if_pos same, if_pos same, if_neg (same ▸ present)]
          · rw [if_neg same, if_neg same]

/-- A parsed object holds under each key the value of the last member with it. -/
theorem Members.lookup_enter (key : String) (members : Members) (entered : List (String × Json)) :
    (members.enter entered).lookup key = (members.lastUnder key).or (entered.lookup key) := by
  match members with
  | .nil => rfl
  | .cons before own beforeColon afterColon value after rest =>
      rw [Members.enter, lastUnder, lookup_enter key rest, lookup_insertMember, Option.or_assoc]
      by_cases same : key = own.value
      · simp [same]
      · simp [same, Ne.symm same]

/-- A whole text: one value with white space around it. -/
structure JsonDocument where
  before : Blanks
  root : JsonText
  after : Blanks

namespace JsonDocument

def bytes (document : JsonDocument) : List UInt8 :=
  document.before.bytes ++ (document.root.bytes ++ document.after.bytes)

def value (document : JsonDocument) : Json := document.root.value

end JsonDocument

end Disburse.Library
