import TileLua.Search

/-! The shortest decimal that reads back as a given binary floating-point number.
A finite double is `significand * 2 ^ exponent`, and the decimals that read back as it are those
of an interval around it. The shortest of them is a point of the coarsest grid of multiples of
a power of ten that meets the interval; of two such points the nearer one is taken.
-/

namespace TileLua.Decimal

/-- A positive binary number `significand * 2 ^ exponent`. The gap to its lower neighbour is
half as wide as the gap to its upper one when `narrow` holds.
-/
structure Binary where
  significand : Nat
  exponent : Int
  narrow : Bool

/-- A positive decimal number `significand * 10 ^ exponent`. -/
structure Digits where
  significand : Nat
  exponent : Int

/-- Which of two equally near decimals is taken. -/
inductive Tie
  | up
  | even

/-- The number of values of the 52-bit fraction of a double. -/
def fractionCount : Nat :=
  0x10000000000000

/-- The number of values of the 11-bit exponent field of a double. -/
def exponentCount : Nat :=
  0x800

/-- The magnitude of a finite double other than zero. -/
def Binary.ofBits (bits : Nat) : Binary :=
  let fraction : Nat := bits % fractionCount
  let field : Nat := bits / fractionCount % exponentCount
  if field = 0 then
    { significand := fraction, exponent := -1074, narrow := false }
  else
    { significand := fractionCount + fraction, exponent := (field : Int) - 1075,
      narrow := fraction = 0 && 1 < field }

/-- A point `multiple * 10 ^ power` on both scales multiplied up to whole numbers, where a
quarter of the unit in the last binary place is `2 ^ quarter`.
-/
def scaleDecimal (multiple : Nat) (power quarter : Int) : Nat :=
  multiple * Nat.pow 10 power.toNat * Nat.pow 2 (-quarter).toNat

/-- A whole number of binary quarter units on the scale of `scaleDecimal`. -/
def scaleQuarters (count : Nat) (power quarter : Int) : Nat :=
  count * Nat.pow 2 quarter.toNat * Nat.pow 10 (-power).toNat

/-- Whether the decimal `multiple * 10 ^ power` reads back as the binary number: it lies in the
interval of reals that round to it, whose ends belong to it when the significand is even.
-/
def Binary.reads (value : Binary) (multiple : Nat) (power : Int) : Bool :=
  let quarter := value.exponent - 2
  let point := scaleDecimal multiple power quarter
  let below := 4 * value.significand - (if value.narrow then 1 else 2)
  let low := scaleQuarters below power quarter
  let high := scaleQuarters (4 * value.significand + 2) power quarter
  if value.significand % 2 = 0 then low ≤ point && point ≤ high
  else low < point && point < high

/-- The largest multiple of `10 ^ power` that does not exceed the value. -/
def Binary.multipleBelow (value : Binary) (power : Int) : Nat :=
  let quarter := value.exponent - 2
  scaleQuarters (4 * value.significand) power quarter / scaleDecimal 1 power quarter

/-- Whether one of the value's two neighbours on the grid of `10 ^ power` reads back. -/
def Binary.meetsGrid (value : Binary) (power : Int) : Bool :=
  let lower := value.multipleBelow power
  value.reads lower power || value.reads (lower + 1) power

/-- The neighbour on the grid of `10 ^ power` that is taken for the value. -/
def Binary.onGrid (value : Binary) (tie : Tie) (power : Int) : Nat :=
  let quarter := value.exponent - 2
  let lower := value.multipleBelow power
  let exact := scaleQuarters (4 * value.significand) power quarter
  let distance := exact - scaleDecimal lower power quarter
  let remaining := scaleDecimal (lower + 1) power quarter - exact
  if !value.reads (lower + 1) power then lower
  else if !value.reads lower power then lower + 1
  else if distance < remaining then lower
  else if remaining < distance then lower + 1
  else match tie with
    | .up => lower + 1
    | .even => if lower % 2 = 0 then lower else lower + 1

/-- A power of ten above the value: its bit length times a little more than the logarithm of
two, rounded up.
-/
def Binary.topPower (value : Binary) : Int :=
  (value.exponent + 53) * 30103 / 100000 + 1

/-- The shortest decimal that reads back as the value. Seventeen digits always do, so the
coarsest grid is at most twenty steps below the top power.
-/
def Binary.shortest (value : Binary) (tie : Tie) : Digits :=
  let step := Search.least (fun step => value.meetsGrid (value.topPower - step)) 20
  let power := value.topPower - step
  { significand := value.onGrid tie power, exponent := power }

end TileLua.Decimal
