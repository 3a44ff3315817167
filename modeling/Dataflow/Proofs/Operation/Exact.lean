import Mathlib.Algebra.Order.Ring.Unbundled.Rat
import Mathlib.Data.Rat.Floor
import Dataflow.Operation
set_option autoImplicit false

-- Integers are added, subtracted, multiplied and divided exactly, or the operation is refused. Quotients are the
-- floor of the rational quotient, and no step between leaves the range.
namespace Dataflow.Operation
open Binary

/-! ### Numbers -/

theorem floor_div (x y : Int) : ⌊(x : ℚ) / y⌋ = x.fdiv y := by
  by_cases positive : 0 ≤ y
  · obtain ⟨divisor, rfl⟩ := Int.eq_ofNat_of_zero_le positive
    rw [Int.fdiv_eq_ediv_of_nonneg x positive]
    exact Rat.floor_intCast_div_natCast x divisor
  · obtain ⟨divisor, same⟩ := Int.eq_ofNat_of_zero_le (show 0 ≤ -y by omega)
    have swapped : (x : ℚ) / y = ((-x : Int) : ℚ) / (divisor : Nat) := by
      rw [← Int.cast_natCast divisor, ← same, Int.cast_neg, Int.cast_neg, neg_div_neg_eq]
    rw [swapped, Rat.floor_intCast_div_natCast, ← Int.neg_fdiv_neg, same]
    exact (Int.fdiv_eq_ediv_of_nonneg (-x) (Int.natCast_nonneg divisor)).symm

theorem fmod_small {x y : Int} (nonzero : y ≠ 0) : |x.fmod y| < |y| ∧ (x.fmod y ≠ 0 → (x.fmod y < 0 ↔ y < 0)) := by
  by_cases positive : 0 < y
  · have low := Int.fmod_nonneg_of_pos x positive
    have high := Int.fmod_lt_of_pos x positive
    rw [abs_of_nonneg low, abs_of_pos positive]
    omega
  · have low := Int.fmod_nonneg_of_pos (-x) (show 0 < -y by omega)
    have high := Int.fmod_lt_of_pos (-x) (show 0 < -y by omega)
    rw [Int.neg_fmod_neg] at low high
    rw [abs_of_nonpos (by omega), abs_of_neg (by omega)]
    omega

-- Division leaves the range only where the least integer is negated.
theorem tdiv_beyond {x y : Int} (least : -9223372036854775808 ≤ x ∧ x < 9223372036854775808) (nonzero : y ≠ 0)
    (beyond : ¬ (-9223372036854775808 ≤ x.tdiv y ∧ x.tdiv y < 9223372036854775808)) :
    x = -9223372036854775808 ∧ y = -1 := by
  have magnitude := Int.natAbs_tdiv x y
  by_cases unit : y.natAbs = 1
  · rcases show y = 1 ∨ y = -1 by omega with rfl | rfl
    · rw [Int.tdiv_one] at beyond
      omega
    · rw [Int.tdiv_neg, Int.tdiv_one] at beyond
      omega
  · have half : x.natAbs / y.natAbs ≤ x.natAbs / 2 := Nat.div_le_div_left (by omega) (by decide)
    change _ = x.natAbs / y.natAbs at magnitude
    omega

/-! ### What an operation gives -/

-- The exact result, where it is a 64-bit integer, and an overflow where it is none.
inductive Exactly (exact : Int) : Result Value → Prop
  | integer {value : Int64} (same : value.toInt = exact) : Exactly exact (.ok (.int value))
  | overflow (beyond : exact < -2 ^ 63 ∨ 2 ^ 63 ≤ exact) : Exactly exact (.error .overflow)

-- The quotient rounded down. Nothing is divided by zero, and the least integer cannot be negated.
inductive Divided (x y : Int64) : Result Value → Prop
  | byZero (zero : y = 0) : Divided x y (.error .divideByZero)
  | overflow (least : x = Int64.minValue) (negated : y = -1) : Divided x y (.error .overflow)
  | floor {quotient : Int64} (nonzero : y ≠ 0) (same : quotient.toInt = ⌊(x.toInt : ℚ) / y.toInt⌋) :
      Divided x y (.ok (.int quotient))

-- What the quotient that is rounded down leaves.
inductive Left (x y : Int64) : Result Value → Prop
  | byZero (zero : y = 0) : Left x y (.error .divideByZero)
  | rest {rest : Int64} (nonzero : y ≠ 0) (same : rest.toInt = x.toInt - y.toInt * ⌊(x.toInt : ℚ) / y.toInt⌋)
      (smaller : |rest.toInt| < |y.toInt|) (sign : rest ≠ 0 → (rest < 0 ↔ y < 0)) : Left x y (.ok (.int rest))

theorem exactly_checked (exact : Int) : Exactly exact ((checked (Text.int64? exact)).map .int) := by
  by_cases inside : Int64.minValue.toInt ≤ exact ∧ exact ≤ Int64.maxValue.toInt
  · obtain ⟨value, found, same⟩ := Text.int64_of_inside inside.1 inside.2
    rw [found]
    exact .integer same
  · have missing : Text.int64? exact = none := by simp only [Text.int64?, dif_neg inside]
    rw [missing]
    rw [inside_iff] at inside
    exact .overflow (by omega)

section Integers
variable (x y : Int64)

theorem integer_steps (op : Arithmetic) : integerSteps op x y = some (integerArithmetic op x y) :=
  (Option.some_get _).symm

theorem arithmetic_of_steps {op : Arithmetic} {result : Result Int64} (steps : integerSteps op x y = some result) :
    arithmetic op (.int x) (.int y) = result.map .int := by
  have same : integerArithmetic op x y = result := Option.get_of_eq_some _ steps
  rw [← same]
  rfl

theorem divided_div : Divided x y (evaluate .div [.int x, .int y]) := by
  change Divided x y (arithmetic .div (.int x) (.int y))
  by_cases zero : y = 0
  · have steps : integerSteps .div x y = some (.error .divideByZero) := by simp [integerSteps, zero]
    rw [arithmetic_of_steps x y steps]
    exact .byZero zero
  have divisor : y.toInt ≠ 0 := fun same => zero (Int64.toInt_inj.mp same)
  cases divided : quotient? x y with
  | none =>
      have steps : integerSteps .div x y = some (.error .overflow) := by simp [integerSteps, zero, divided]
      rw [arithmetic_of_steps x y steps]
      have beyond : ¬ (Int64.minValue.toInt ≤ x.toInt.tdiv y.toInt ∧ x.toInt.tdiv y.toInt ≤ Int64.maxValue.toInt) := by
        intro inside
        obtain ⟨value, found, _⟩ := Text.int64_of_inside inside.1 inside.2
        simp [quotient?, zero, found] at divided
      rw [inside_iff] at beyond
      obtain ⟨least, negated⟩ := tdiv_beyond (bounds x) divisor beyond
      exact .overflow (Int64.toInt_inj.mp least) (Int64.toInt_inj.mp negated)
  | some quotient =>
      obtain ⟨value, done, same⟩ := rounded_down divided
      have steps : integerSteps .div x y = some (.ok value) := by simp [integerSteps, zero, divided, done]
      rw [arithmetic_of_steps x y steps]
      exact .floor zero (by rw [same, floor_div])

theorem left_mod : Left x y (evaluate .mod [.int x, .int y]) := by
  change Left x y (arithmetic .mod (.int x) (.int y))
  by_cases zero : y = 0
  · have steps : integerSteps .mod x y = some (.error .divideByZero) := by simp [integerSteps, zero]
    rw [arithmetic_of_steps x y steps]
    exact .byZero zero
  have divisor : y.toInt ≠ 0 := fun same => zero (Int64.toInt_inj.mp same)
  obtain ⟨rest, done, same⟩ := modulus_of_rest (x := x) zero
  obtain ⟨smaller, sign⟩ := fmod_small (x := x.toInt) divisor
  have steps : integerSteps .mod x y = some (.ok rest) := by simp [integerSteps, zero, done]
  rw [arithmetic_of_steps x y steps]
  rw [← same] at smaller sign
  refine .rest zero ?_ smaller fun some => ?_
  · rw [same, floor_div, Int.fmod_def]
  · rw [Int64.lt_iff_toInt_lt, Int64.lt_iff_toInt_lt]
    exact sign fun zero => some (Int64.toInt_inj.mp zero)

theorem division_identity {value : Value} (done : evaluate .div [.int x, .int y] = .ok value) :
    ∃ quotient rest, value = .int quotient ∧ evaluate .mod [.int x, .int y] = .ok (.int rest) ∧
      quotient.toInt * y.toInt + rest.toInt = x.toInt := by
  have divided := divided_div x y
  have left := left_mod x y
  rw [done] at divided
  generalize evaluate .mod [.int x, .int y] = remainder at left ⊢
  cases divided with
  | floor nonzero same =>
      cases left with
      | byZero zero => exact absurd zero nonzero
      | rest _ leaves _ _ =>
          refine ⟨_, _, rfl, rfl, ?_⟩
          rw [leaves, same, Int.mul_comm]
          omega

theorem greatest_of_max : ∃ most, evaluate .max [.int x, .int y] = .ok (.int most) ∧
    most.toInt = max x.toInt y.toInt := by
  refine ⟨if x < y then y else x, rfl, ?_⟩
  simp only [Int64.lt_iff_toInt_lt]
  split <;> omega

theorem least_of_min : ∃ least, evaluate .min [.int x, .int y] = .ok (.int least) ∧
    least.toInt = min x.toInt y.toInt := by
  refine ⟨if y < x then y else x, rfl, ?_⟩
  simp only [Int64.lt_iff_toInt_lt]
  split <;> omega

end Integers

theorem integers_are_exact (x y : Int64) :
    Exactly (x.toInt + y.toInt) (evaluate .plus [.int x, .int y]) ∧
    Exactly (x.toInt - y.toInt) (evaluate .minus [.int x, .int y]) ∧
    Exactly (x.toInt * y.toInt) (evaluate .times [.int x, .int y]) ∧
    Exactly (-x.toInt) (evaluate .neg [.int x]) ∧
    Exactly |x.toInt| (evaluate .abs [.int x]) ∧
    Divided x y (evaluate .div [.int x, .int y]) ∧
    Left x y (evaluate .mod [.int x, .int y]) ∧
    (∀ value, evaluate .div [.int x, .int y] = .ok value → ∃ quotient rest, value = .int quotient ∧
      evaluate .mod [.int x, .int y] = .ok (.int rest) ∧ quotient.toInt * y.toInt + rest.toInt = x.toInt) ∧
    (∃ most, evaluate .max [.int x, .int y] = .ok (.int most) ∧ most.toInt = max x.toInt y.toInt) ∧
    (∃ least, evaluate .min [.int x, .int y] = .ok (.int least) ∧ least.toInt = min x.toInt y.toInt) ∧
    ∀ op, ∃ result, integerSteps op x y = some result ∧ arithmetic op (.int x) (.int y) = result.map .int := by
  have magnitude : evaluate .abs [.int x] = (checked (Text.int64? |x.toInt|)).map .int := by
    rw [Int.abs_eq_natAbs]
    rfl
  refine ⟨exactly_checked _, exactly_checked _, exactly_checked _, exactly_checked _, ?_, divided_div x y, left_mod x y,
    fun value => division_identity x y, greatest_of_max x y, least_of_min x y, fun op => ?_⟩
  · rw [magnitude]
    exact exactly_checked _
  · exact ⟨_, integer_steps x y op, rfl⟩

theorem seven_halves_down : evaluate .div [.int (-7), .int 2] = .ok (.int (-4)) ∧
    ∃ quotient rest, Value.int (-4) = .int quotient ∧ evaluate .mod [.int (-7), .int 2] = .ok (.int rest) ∧
      quotient.toInt * 2 + rest.toInt = -7 := by
  have done : evaluate .div [.int (-7), .int 2] = .ok (.int (-4)) := rfl
  obtain ⟨_, _, _, _, _, _, _, identity, _⟩ := integers_are_exact (-7) 2
  exact ⟨done, identity (.int (-4)) done⟩

-- The least integer cannot be negated, but divided by minus one it leaves nothing.
example : evaluate .div [.int Int64.minValue, .int (-1)] = .error .overflow ∧
    evaluate .mod [.int Int64.minValue, .int (-1)] = .ok (.int 0) := ⟨rfl, rfl⟩

end Dataflow.Operation
