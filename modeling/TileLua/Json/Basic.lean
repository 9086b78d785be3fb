import Std.Data.TreeMap

/-! JSON values.
An object lists its members as they are written. What it means is a table sorted by key, code
point by code point, in which the last member of a name counts; look-up and traversal go through
that table.
-/

namespace TileLua

/-- A JSON value. Whole numbers are apart from floating-point ones. -/
inductive Json
  | null
  | bool (value : Bool)
  | int (value : Int)
  | float (value : Float)
  | str (text : String)
  | arr (items : List Json)
  | obj (members : List (String × Json))
  deriving Inhabited

namespace Json

/-- A list of named things as a table: sorted by name, the last of a name counting. -/
def tableOf {α : Type} (members : List (String × α)) : Std.TreeMap String α :=
  Std.TreeMap.ofList members

/-- The table that an object means; any other value has no members. -/
def table : Json → Std.TreeMap String Json
  | obj members => tableOf members
  | _ => tableOf []

/-- The member of that name. -/
def get? (value : Json) (name : String) : Option Json :=
  value.table[name]?

/-- The members of an object in key order, each name once. -/
def entries (value : Json) : List (String × Json) :=
  value.table.toList

/-- Whether a value is an object. -/
def isObject : Json → Bool
  | obj _ => true
  | _ => false

/-- A text. -/
def asText? : Json → Option String
  | str text => some text
  | _ => none

/-- The items of an array. -/
def asItems? : Json → Option (List Json)
  | arr items => some items
  | _ => none

/-- A whole number in the range of 64-bit words with a sign. -/
def asWord? : Json → Option Int64
  | int value =>
      if Int64.minValue.toInt ≤ value ∧ value ≤ Int64.maxValue.toInt then some (.ofInt value)
      else none
  | _ => none

/-- A whole number that is not negative. -/
def asIndex? : Json → Option Nat
  | int value => if 0 ≤ value then some value.toNat else none
  | _ => none

end Json

end TileLua
