import Dataflow.Binary.Format
set_option autoImplicit false

namespace Dataflow.Binary

def commonRemainder (significand₁ : Nat) (exponent₁ : Int) (significand₂ : Nat) (exponent₂ : Int) :
    Nat × Int :=
  let unit := min exponent₁ exponent₂
  ((significand₁ * Nat.pow 2 (exponent₁ - unit).toNat) % (significand₂ * Nat.pow 2 (exponent₂ - unit).toNat), unit)

/-- Takes the sign of the dividend. The remainder by zero and of an infinity is no number. -/
def remainder (x y : Float) : Float :=
  let dividend := ofDouble x
  match dividend.magnitude, (ofDouble y).magnitude with
  | .finite _ _, .infinite => x
  | .finite _ _, .finite 0 _ => 0 / 0
  | .finite significand₁ exponent₁, .finite significand₂ exponent₂ =>
      let (value, unit) := commonRemainder significand₁ exponent₁ significand₂ exponent₂
      let bits := double.nearestSigned dividend.negative
        (value * Nat.pow 2 unit.toNat) (Nat.pow 2 (-unit).toNat)
      Float.ofBits (UInt64.ofNat bits)
  | _, _ => 0 / 0

end Dataflow.Binary
