import Dataflow.Decimal.Shortest
set_option autoImplicit false

namespace Dataflow.Decimal
open Binary

def digits (decimal : Decimal) : List Char :=
  Nat.toDigits 10 decimal.significand

def leading (decimal : Decimal) : Int :=
  decimal.digits.length + decimal.exponent - 1

def positional (decimal : Decimal) : List Char :=
  let digits := decimal.digits
  let whole := digits.length + decimal.exponent
  if 0 ≤ decimal.exponent then digits ++ List.replicate decimal.exponent.toNat '0'
  else if 0 < whole then digits.take whole.toNat ++ '.' :: digits.drop whole.toNat
  else '0' :: '.' :: (List.replicate (-whole).toNat '0' ++ digits)

def signed (negative : Bool) (text : List Char) : List Char :=
  if negative then '-' :: text else text

def plain (format : Format) (number : Number) : List Char :=
  match number.magnitude with
  | .nan => "NaN".toList
  | .infinite => signed number.negative "inf".toList
  | .finite 0 _ => signed number.negative ['0']
  | .finite significand exponent =>
      signed number.negative (shortest format significand exponent).positional

def plainDouble (x : Float) : String :=
  String.ofList (plain double (ofDouble x))

def plainSingle (x : Float32) : String :=
  String.ofList (plain single (ofSingle x))

def exponentText (exponent : Int) : List Char :=
  let digits := Nat.toDigits 10 exponent.natAbs
  signed (exponent < 0) (List.replicate (2 - digits.length) '0' ++ digits)

def mantissa (decimal : Decimal) : List Char :=
  match decimal.digits with
  | [] => []
  | [leading] => [leading]
  | leading :: rest => leading :: '.' :: rest

def isModerate (decimal : Decimal) : Bool :=
  -4 ≤ decimal.leading && decimal.leading < 16

/-- A literal of double precision ends in `d` or has its exponent after it, and a positional one
always has a point. Only finite numbers have one. -/
def literal? (number : Number) : Option (List Char) :=
  match number.magnitude with
  | .finite 0 _ => some (signed number.negative "0.0d".toList)
  | .finite significand exponent =>
      let decimal := shortest double significand exponent
      let body :=
        if decimal.isModerate then
          let text := decimal.positional
          (if text.contains '.' then text else text ++ ['.', '0']) ++ ['d']
        else decimal.mantissa ++ 'd' :: exponentText decimal.leading
      some (signed number.negative body)
  | _ => none

end Dataflow.Decimal
