import Mathlib.Data.Rat.Defs

/-!
Owns JSON values as a parser delivers them and the read accessors on them.
The text form of a value is the subject of `Disburse.Library.JsonText`.
-/

namespace Disburse.Library

/-- A JSON number: a non-negative integer, a negative integer, or anything
written with a fraction or an exponent. -/
inductive Number where
  | posInt (value : Nat)
  | negInt (value : Int)
  | float (value : Rat)
deriving DecidableEq, Repr

/-- A JSON value. The members of an object are listed in the order of their
map, each key once. -/
inductive Json where
  | null
  | bool (value : Bool)
  | number (value : Number)
  | string (value : String)
  | array (elements : List Json)
  | object (members : List (String × Json))
deriving Repr

namespace Json

/-- A signed integer as a JSON number. -/
def ofInt : Int → Json
  | .ofNat value => .number (.posInt value)
  | .negSucc value => .number (.negInt (.negSucc value))

theorem ofInt_injective : Function.Injective ofInt := by
  intro left right same
  cases left <;> cases right <;> simp_all [ofInt]

/-- The member of an object under a key; other values have no members. -/
def get : Json → String → Option Json
  | .object members, key => members.lookup key
  | _, _ => none

/-- Follow object keys from the root. Array indices are not followed: no path
used by a caller has a numeric token. -/
def pointer (value : Json) : List String → Option Json
  | [] => some value
  | key :: rest => (value.get key).bind fun inner => pointer inner rest

def asStr : Json → Option String
  | .string value => some value
  | _ => none

def asBool : Json → Option Bool
  | .bool value => some value
  | _ => none

def asArray : Json → Option (List Json)
  | .array elements => some elements
  | _ => none

def asU64 : Json → Option Nat
  | .number (.posInt value) => some value
  | _ => none

def isObject : Json → Bool
  | .object _ => true
  | _ => false

def isNull : Json → Bool
  | .null => true
  | _ => false

@[simp] theorem get_object (members : List (String × Json)) (key : String) :
    (Json.object members).get key = members.lookup key := rfl

end Json

end Disburse.Library
