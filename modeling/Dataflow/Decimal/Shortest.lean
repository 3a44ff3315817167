import Dataflow.Binary.Format
set_option autoImplicit false

/- The shortest decimal that reads back as a given binary number. The decimals that read back fill
an interval around the number; the coarsest decimal grid with a point in it is searched, and on a
grid only the two neighbours of the number matter. All arithmetic is exact. -/
namespace Dataflow

structure Decimal where
  significand : Nat
  exponent : Int
deriving DecidableEq

namespace Decimal
open Binary

/-- The decimals that round to a number: between `low` and `high` over `scale`, the ends included
where the significand is even. The number itself is `value` over `scale`. -/
structure Interval where
  low : Nat
  value : Nat
  high : Nat
  scale : Nat
  closed : Bool

/-- The rounding interval of `significand * 2 ^ exponent`. Below a power of two the next number
is only half as far away. -/
def Interval.around (format : Format) (significand : Nat) (exponent : Int) : Interval :=
  let narrow := significand = Nat.pow 2 format.fractionWidth ∧ format.leastExponent < exponent
  let unit := exponent - 2
  let factor := Nat.pow 2 unit.toNat
  { low := (4 * significand - if narrow then 1 else 2) * factor
    value := 4 * significand * factor
    high := (4 * significand + 2) * factor
    scale := Nat.pow 2 (-unit).toNat
    closed := significand % 2 = 0 }

def Interval.shift (interval : Interval) (power : Int) : Interval :=
  let factor := Nat.pow 10 power.toNat
  { interval with
    low := interval.low * factor
    value := interval.value * factor
    high := interval.high * factor
    scale := interval.scale * Nat.pow 10 (-power).toNat }

def Interval.contains (interval : Interval) (point : Nat) : Bool :=
  let scaled := point * interval.scale
  if interval.closed then interval.low ≤ scaled && scaled ≤ interval.high
  else interval.low < scaled && scaled < interval.high

/-- The whole number in the interval that is nearest to its value, if one of the value's two
neighbours is in it; a tie goes up. -/
def Interval.wholeNumber? (interval : Interval) : Option Nat :=
  let below := interval.value / interval.scale
  let remaining := interval.value % interval.scale
  match interval.contains below, interval.contains (below + 1) with
  | true, true => some (if 2 * remaining < interval.scale then below else below + 1)
  | true, false => some below
  | false, true => some (below + 1)
  | false, false => none

def countDigits (n : Nat) : Nat :=
  (Nat.toDigits 10 n).length

def leadingPlace (numerator denominator : Nat) : Int :=
  if denominator ≤ numerator then countDigits (numerator / denominator)
  else
    let zeros := countDigits (denominator / numerator) - 1
    if denominator ≤ numerator * Nat.pow 10 zeros then 1 - (zeros : Int) else -(zeros : Int)

/-- Moves trailing zeros of the significand into the exponent; `steps` bounds their number. -/
def normalize : Nat → Decimal → Decimal
  | 0, decimal => decimal
  | steps + 1, decimal =>
      if decimal.significand % 10 = 0 ∧ decimal.significand ≠ 0 then
        normalize steps ⟨decimal.significand / 10, decimal.exponent + 1⟩
      else decimal

/-- Seventeen digits always suffice for a double, and nine for a single. -/
def maximalDigits : Nat := 17

def shortest (format : Format) (significand : Nat) (exponent : Int) : Decimal :=
  let interval := Interval.around format significand exponent
  let place := leadingPlace interval.value interval.scale
  let onGrid (digits : Nat) : Option Decimal :=
    (interval.shift (digits - place)).wholeNumber?.map (⟨·, place - digits⟩)
  let found := (List.range maximalDigits).findSome? fun count => onGrid (count + 1)
  (found.getD ⟨0, 0⟩).normalize (maximalDigits + 1)

end Decimal

end Dataflow
