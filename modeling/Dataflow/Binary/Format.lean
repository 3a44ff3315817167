set_option autoImplicit false

namespace Dataflow.Binary

structure Format where
  fractionWidth : Nat
  exponentWidth : Nat

def single : Format := ⟨23, 8⟩
def double : Format := ⟨52, 11⟩

namespace Format

def exponentLimit (format : Format) : Nat :=
  Nat.pow 2 format.exponentWidth - 1

def leastExponent (format : Format) : Int :=
  2 - Int.pow 2 (format.exponentWidth - 1) - (format.fractionWidth : Int)

def infinityBits (format : Format) : Nat :=
  format.exponentLimit * Nat.pow 2 format.fractionWidth

def signBit (format : Format) : Nat :=
  Nat.pow 2 (format.fractionWidth + format.exponentWidth)

end Format

inductive Magnitude where
  | nan
  | infinite
  | finite (significand : Nat) (exponent : Int)

structure Number where
  negative : Bool
  magnitude : Magnitude

def Format.decode (format : Format) (bits : Nat) : Number :=
  let fraction := bits % Nat.pow 2 format.fractionWidth
  let exponent := bits / Nat.pow 2 format.fractionWidth % Nat.pow 2 format.exponentWidth
  let magnitude : Magnitude :=
    if exponent = format.exponentLimit then
      if fraction = 0 then .infinite else .nan
    else if exponent = 0 then .finite fraction format.leastExponent
    else .finite (fraction + Nat.pow 2 format.fractionWidth) (format.leastExponent + (exponent - 1 : Nat))
  ⟨bits / format.signBit % 2 = 1, magnitude⟩

def leadingExponent (numerator denominator : Nat) : Int :=
  let estimate : Int := (numerator.log2 : Int) - denominator.log2
  let reached := denominator * Nat.pow 2 estimate.toNat ≤ numerator * Nat.pow 2 (-estimate).toNat
  if reached then estimate else estimate - 1

/-- The nearest integer to a quotient; a tie goes to the even neighbour. -/
def divideToEven (numerator denominator : Nat) : Nat :=
  let quotient := numerator / denominator
  let twice := 2 * (numerator % denominator)
  if twice < denominator then quotient
  else if denominator < twice then quotient + 1
  else quotient + quotient % 2

/-- The bits of the number nearest to `numerator / denominator`; too large a quotient is
infinite. The bits are in the order of the numbers, so a carry into the exponent needs no care. -/
def Format.nearest (format : Format) (numerator denominator : Nat) : Nat :=
  if numerator = 0 then 0 else
  let unit := max (leadingExponent numerator denominator - format.fractionWidth) format.leastExponent
  let significand :=
    divideToEven (numerator * Nat.pow 2 (-unit).toNat) (denominator * Nat.pow 2 unit.toNat)
  let steps := (unit - format.leastExponent).toNat
  min format.infinityBits (steps * Nat.pow 2 format.fractionWidth + significand)

def Format.nearestSigned (format : Format) (negative : Bool) (numerator denominator : Nat) : Nat :=
  (if negative then format.signBit else 0) + format.nearest numerator denominator

def ofDouble (x : Float) : Number :=
  double.decode x.toBits.toNat

def ofSingle (x : Float32) : Number :=
  single.decode x.toBits.toNat

end Dataflow.Binary
