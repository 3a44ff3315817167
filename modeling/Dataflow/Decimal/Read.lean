import Dataflow.Binary.Format
import Dataflow.Text.Numeral
set_option autoImplicit false

namespace Dataflow.Decimal
open Binary

inductive Reading where
  | nan
  | infinite
  /-- `significand * 10 ^ exponent`. -/
  | finite (significand : Nat) (exponent : Int)

def isDigit (c : Char) : Bool :=
  (Text.digit? c).isSome

def exponent? (text : List Char) : Option Int :=
  match text with
  | '-' :: digits => (Text.natural? digits).map fun value => -(value : Int)
  | '+' :: digits => (Text.natural? digits).map fun value => (value : Int)
  | digits => (Text.natural? digits).map fun value => (value : Int)

def scale? : List Char → Option Int
  | [] => some 0
  | mark :: rest => if mark = 'e' ∨ mark = 'E' then exponent? rest else none

def finite? (text : List Char) : Option Reading :=
  let whole := text.takeWhile isDigit
  let (fraction, rest) := match text.dropWhile isDigit with
    | '.' :: rest => (rest.takeWhile isDigit, rest.dropWhile isDigit)
    | rest => ([], rest)
  (Text.natural? (whole ++ fraction)).bind fun significand =>
    (scale? rest).map fun exponent => .finite significand (exponent - fraction.length)

def unsigned? (text : List Char) : Option Reading :=
  let word := String.ofList (text.map Char.toLower)
  if word = "inf" ∨ word = "infinity" then some .infinite
  else if word = "nan" then some .nan
  else finite? text

/-- Beyond this decimal exponent every number is infinite, and below its negative every number
is zero, in both formats. -/
def exponentBound : Int := 400

def Reading.magnitudeBits (format : Format) : Reading → Nat
  | .nan => format.infinityBits + Nat.pow 2 (format.fractionWidth - 1)
  | .infinite => format.infinityBits
  | .finite significand exponent =>
      let leading := exponent + (Nat.toDigits 10 significand).length
      if significand = 0 ∨ leading < -exponentBound then 0
      else if exponentBound < leading then format.infinityBits
      else format.nearest (significand * Nat.pow 10 exponent.toNat) (Nat.pow 10 (-exponent).toNat)

def read? (format : Format) (text : List Char) : Option Nat :=
  let (negative, body) := match text with
    | '-' :: rest => (true, rest)
    | '+' :: rest => (false, rest)
    | _ => (false, text)
  (unsigned? body).map fun reading =>
    (if negative then format.signBit else 0) + reading.magnitudeBits format

def double? (text : List Char) : Option Float :=
  (read? double text).map fun bits => Float.ofBits (UInt64.ofNat bits)

def single? (text : List Char) : Option Float32 :=
  (read? single text).map fun bits => Float32.ofBits (UInt32.ofNat bits)

end Dataflow.Decimal
