import TileLua.Json.Basic

/-! Numbers of JSON texts.
A literal without point and exponent is a whole number as long as it fits 64 bits, with or
without a sign; minus zero and everything else is a double. A double is taken from the digits
that fit 64 bits and multiplied or divided once by its power of ten, one rounding each.
-/

namespace TileLua.Json

/-- The bound on digits kept of a literal: one more than the largest 64-bit word. -/
def wordLimit : Nat :=
  0x10000000000000000

/-- The value of a decimal digit. -/
def digitValue (c : Char) : Nat :=
  c.toNat - '0'.toNat

/-- Appends digits to `kept` until one no longer fits a word, and says how many were taken. -/
def keepDigits (kept : Nat) : List Char → Nat × Nat
  | [] => (kept, 0)
  | c :: rest =>
      let next := kept * 10 + digitValue c
      if next < wordLimit then
        let (value, taken) := keepDigits next rest
        (value, taken + 1)
      else
        (kept, 0)

/-- A power of ten that a double can hold. -/
def powerOfTen (exponent : Nat) : Float :=
  Float.ofScientific 1 false exponent

/-- The largest exponent of a power of ten that a double can hold. -/
def maxPower : Nat :=
  308

/-- Divides by a power of ten, in steps that a double can hold. -/
def divideByPower (value : Float) (exponent : Nat) : Float :=
  if exponent ≤ maxPower then value / powerOfTen exponent
  else if value == 0 then value
  else divideByPower (value / powerOfTen maxPower) (exponent - maxPower)
termination_by exponent
decreasing_by simp only [maxPower] at *; omega

/-- Multiplies a word by a power of ten; nothing when the product is beyond all doubles. -/
def scaleWord (word : Nat) (exponent : Int) : Option Float :=
  let value := Float.ofScientific word false 0
  if exponent < 0 then some (divideByPower value exponent.natAbs)
  else if exponent.natAbs ≤ maxPower then
    let product := value * powerOfTen exponent.natAbs
    if product.isInf then none else some product
  else if word = 0 then some value
  else none

/-- The number that digits write. -/
def naturalOf (digits : List Char) : Nat :=
  digits.foldl (fun value c => value * 10 + digitValue c) 0

/-- The number that a text of nothing but digits writes. -/
def naturalOf? (text : List Char) : Option Int :=
  if text ≠ [] ∧ text.all Char.isDigit then some (naturalOf text) else none

/-- The exponent that follows a mark `e`: a sign if any, then digits. -/
def exponentOf? : List Char → Option Int
  | '+' :: digits => naturalOf? digits
  | '-' :: digits => (naturalOf? digits).map fun value => -value
  | digits => naturalOf? digits

/-- The double of whole digits, digits after the point, and an exponent. -/
def floatOf? (negative : Bool) (whole fraction : List Char) (exponent : Int) : Option Json :=
  let (head, takenWhole) := keepDigits 0 whole
  let (word, takenFraction) := keepDigits head fraction
  let shift : Int := (whole.length - takenWhole : Nat) - (takenFraction : Int)
  (scaleWord word (shift + exponent)).map fun value => float (if negative then -value else value)

/-- The number of a literal without point and exponent. -/
def wholeOf? (negative : Bool) (digits : List Char) : Option Json :=
  let value := naturalOf digits
  if !negative && value < wordLimit then some (int value)
  else if negative && 0 < value && value ≤ wordLimit / 2 then some (int (-value))
  else floatOf? negative digits [] 0

/-- Reads the part of a literal after its whole digits. -/
def readTail? (negative : Bool) (whole : List Char) : List Char → Option Json
  | [] => wholeOf? negative whole
  | '.' :: rest =>
      let fraction := rest.takeWhile Char.isDigit
      if fraction = [] then none
      else match rest.dropWhile Char.isDigit with
        | [] => floatOf? negative whole fraction 0
        | c :: rest =>
            if c = 'e' ∨ c = 'E' then (exponentOf? rest).bind (floatOf? negative whole fraction)
            else none
  | c :: rest =>
      if c = 'e' ∨ c = 'E' then (exponentOf? rest).bind (floatOf? negative whole [])
      else none

/-- Reads a literal without its sign; a leading zero stands alone. -/
def readUnsigned? (negative : Bool) (literal : List Char) : Option Json :=
  let whole := literal.takeWhile Char.isDigit
  if whole = [] ∨ (whole.head? = some '0' ∧ 1 < whole.length) then none
  else readTail? negative whole (literal.dropWhile Char.isDigit)

/-- Reads a number literal. -/
def readNumber? : List Char → Option Json
  | '-' :: literal => readUnsigned? true literal
  | literal => readUnsigned? false literal

end TileLua.Json
