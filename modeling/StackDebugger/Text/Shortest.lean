/-!
# Shortest decimals of binary numbers

A finite 64-bit binary number is written with the fewest decimal digits that
round back to it.  The digits are found by exact arithmetic: on each decimal
grid, from coarse to fine, the two neighbours of the value are tried.
-/

namespace StackDebugger.Shortest

/-- A positive binary number `significand * 2 ^ exponent`. -/
structure Binary where
  significand : Nat
  exponent : Int
  /-- The number below is only half as far away as the number above. -/
  narrowBelow : Bool

/-- The magnitude that the bits of a finite number stand for. -/
def Binary.ofBits (bits : UInt64) : Binary :=
  let biased : Nat := bits.toNat / 0x10000000000000 % 0x800
  let fraction : Nat := bits.toNat % 0x10000000000000
  if biased = 0 then
    { significand := fraction, exponent := -1074, narrowBelow := false }
  else
    { significand := 0x10000000000000 + fraction
      exponent := (biased : Int) - 1075
      narrowBelow := fraction = 0 && 1 < biased }

/-- Decimal digits with a point before the first of them, moved `point`
places to the right. -/
structure Decimal where
  digits : Nat
  point : Int

/-- A binary number and a power of ten over one denominator: quarters of a
unit in the last place count `quarter`, the power of ten counts `grid`. -/
structure Scale where
  quarter : Nat
  grid : Nat

/-- Brings quarters of the last place of a number and `10 ^ power` to whole
numbers. -/
def Binary.scale (number : Binary) (power : Int) : Scale :=
  let exponent := number.exponent - 2
  { quarter := Nat.pow 2 exponent.toNat * Nat.pow 10 (-power).toNat
    grid := Nat.pow 10 power.toNat * Nat.pow 2 (-exponent).toNat }

/-- Whether `digits * 10 ^ power` rounds to the number.  The ends of the
interval belong to an even significand. -/
def Binary.accepts (number : Binary) (power : Int) (digits : Nat) : Bool :=
  let scale := number.scale power
  let below := if number.narrowBelow then 1 else 2
  let low := (4 * number.significand - below) * scale.quarter
  let high := (4 * number.significand + 2) * scale.quarter
  let candidate := digits * scale.grid
  if number.significand % 2 = 0 then low ≤ candidate && candidate ≤ high
  else low < candidate && candidate < high

/-- The least `point` for which the number is below `10 ^ point`. -/
def Binary.point (number : Binary) : Int :=
  let magnitude := (number.significand.log2 : Int) + number.exponent
  let guess := (magnitude * 30103).fdiv 100000 + 1
  let scale := number.scale guess
  if 4 * number.significand * scale.quarter < scale.grid then guess else guess + 1

/-- The neighbour of the number on the grid of a power of ten that rounds to
it, the closer one of two and the even one of two equally close ones. -/
def Binary.onGrid? (number : Binary) (power : Int) : Option Nat :=
  let scale := number.scale power
  let value := 4 * number.significand * scale.quarter
  let lower := value / scale.grid
  match number.accepts power lower, number.accepts power (lower + 1) with
  | true, false => some lower
  | false, true => some (lower + 1)
  | false, false => none
  | true, true =>
      match compare (2 * value) ((2 * lower + 1) * scale.grid) with
      | .lt => some lower
      | .gt => some (lower + 1)
      | .eq => if lower % 2 = 0 then some lower else some (lower + 1)

/-- The first hit on grids of `count` digits and more. -/
def Binary.search (number : Binary) (point : Int) (count : Nat) : Nat → Nat × Nat
  | 0 => (number.significand, count)
  | tries + 1 =>
      match number.onGrid? (point - count) with
      | some digits => (digits, count)
      | none => number.search point (count + 1) tries

/-- Removes the zeros at the end of a number, at most `tries` of them. -/
def stripZeros : Nat → Nat → Nat
  | 0, digits => digits
  | tries + 1, digits =>
      if digits ≠ 0 ∧ digits % 10 = 0 then stripZeros tries (digits / 10) else digits

/-- The shortest digits of a positive number.  Seventeen always suffice. -/
def Binary.shortest (number : Binary) : Decimal :=
  let point := number.point
  let (digits, count) := number.search point 1 17
  { digits := stripZeros 17 digits
    point := if digits = Nat.pow 10 count then point + 1 else point }

/-- An exponent after its mark.  Its sign is always written. -/
def exponentText (exponent : Int) : List Char :=
  let sign := if exponent < 0 then '-' else '+'
  'e' :: sign :: Nat.toDigits 10 exponent.natAbs

/-- A decimal laid out as a number: positionally, with at least one digit on
either side of the point, from `0.00001` up to sixteen places before the
point, and with a signed exponent otherwise. -/
def Decimal.render (decimal : Decimal) : String :=
  let digits := Nat.toDigits 10 decimal.digits
  let point := decimal.point
  let count : Int := digits.length
  let zeros (places : Int) := List.replicate places.toNat '0'
  if count ≤ point ∧ point ≤ 16 then
    String.ofList (digits ++ zeros (point - count) ++ ['.', '0'])
  else if 0 < point ∧ point ≤ 16 then
    String.ofList (digits.take point.toNat ++ '.' :: digits.drop point.toNat)
  else if -5 < point ∧ point ≤ 0 then
    String.ofList ('0' :: '.' :: (zeros (-point) ++ digits))
  else
    let fraction := match digits.drop 1 with
      | [] => []
      | later => '.' :: later
    String.ofList (digits.take 1 ++ fraction ++ exponentText (point - 1))

/-- The text of a finite 64-bit binary number. -/
def render (value : Float) : String :=
  let bits := value.toBits
  let sign := if 0x8000000000000000 ≤ bits.toNat then "-" else ""
  let number := Binary.ofBits bits
  if number.significand = 0 then sign ++ "0.0" else sign ++ number.shortest.render

end StackDebugger.Shortest
