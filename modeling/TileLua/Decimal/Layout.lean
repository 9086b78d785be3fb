import TileLua.Decimal.Shortest

/-! Decimal text of floating-point numbers.
The digits are the shortest that read back; a layout decides where the point goes, when an
exponent is written instead, and how the special values are spelled.
-/

namespace TileLua.Decimal

/-- The choices of a number format. -/
structure Layout where
  /-- The least exponent of a leading digit that is still written without an exponent. -/
  plainFrom : Int
  /-- The least exponent of a leading digit, above `plainFrom`, that needs an exponent. -/
  plainBelow : Int
  /-- What stands before an exponent that is not negative. -/
  positiveMark : String
  tie : Tie
  infinity : String
  notANumber : String

/-- Digits with a point and no exponent, with at least one digit on each side of the point. -/
def plainText (digits : List Char) (exponent : Int) : List Char :=
  if 0 ≤ exponent then
    digits ++ List.replicate exponent.toNat '0' ++ ['.', '0']
  else
    let places := (-exponent).toNat
    if places < digits.length then
      digits.take (digits.length - places) ++ '.' :: digits.drop (digits.length - places)
    else
      '0' :: '.' :: (List.replicate (places - digits.length) '0' ++ digits)

/-- The first digit, a point before the others if there are any, and the exponent. -/
def exponentText (layout : Layout) (digits : List Char) (leading : Int) : List Char :=
  let head := match digits with
    | first :: second :: rest => first :: '.' :: second :: rest
    | _ => digits
  let mark := if leading < 0 then "-" else layout.positiveMark
  head ++ 'e' :: (mark.toList ++ Nat.toDigits 10 leading.natAbs)

/-- The text of a positive decimal in a layout. -/
def Digits.text (layout : Layout) (number : Digits) : List Char :=
  let digits := Nat.toDigits 10 number.significand
  let leading := number.exponent + digits.length - 1
  if layout.plainFrom ≤ leading && leading < layout.plainBelow then
    plainText digits number.exponent
  else
    exponentText layout digits leading

/-- The text of a double in a layout; a negative zero keeps its sign. -/
def Layout.render (layout : Layout) (number : Float) : String :=
  let bits := number.toBits.toNat
  let magnitudeCount := exponentCount * fractionCount
  let infinite := (exponentCount - 1) * fractionCount
  let magnitude := bits % magnitudeCount
  let sign := if bits / magnitudeCount = 1 then "-" else ""
  if magnitude = 0 then sign ++ "0.0"
  else if magnitude < infinite then
    sign ++ String.ofList (((Binary.ofBits magnitude).shortest layout.tie).text layout)
  else if magnitude = infinite then sign ++ layout.infinity
  else layout.notANumber

end TileLua.Decimal
