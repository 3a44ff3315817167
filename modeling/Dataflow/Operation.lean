import Dataflow.Binary.Division
import Dataflow.Binary.Remainder
import Dataflow.RunError
import Dataflow.Value
set_option autoImplicit false

namespace Dataflow.Operation

abbrev Result (α : Type) := Except OperationFault α

inductive Numeric where
  | int (value : Int64)
  | real (value : Float32)
  | double (value : Float)

namespace Numeric

def toSingle : Numeric → Float32
  | int value => value.toFloat32
  | real value => value
  | double value => value.toFloat32

def toDouble : Numeric → Float
  | int value => value.toFloat
  | real value => value.toFloat
  | double value => value

def ofValue? : Value → Option Numeric
  | .bool value => some (int (if value then 1 else 0))
  | .int value => some (int value)
  | .real value => some (real value)
  | .double value => some (double value)
  | _ => none

end Numeric

inductive Operands where
  | int (first second : Int64)
  | real (first second : Float32)
  | double (first second : Float)

def widen : Numeric → Numeric → Operands
  | .int first, .int second => .int first second
  | .double first, second => .double first second.toDouble
  | first, .double second => .double first.toDouble second
  | first, second => .real first.toSingle second.toSingle

def unary : List Value → Result Value
  | [value] => .ok value
  | values => .error (.arity 1 values.length)

def binary : List Value → Result (Value × Value)
  | [first, second] => .ok (first, second)
  | values => .error (.arity 2 values.length)

def numeric (value : Value) : Result Numeric :=
  match Numeric.ofValue? value with
  | some number => .ok number
  | none => .error (.mismatch "number" value.typeName)

def operands (first second : Value) : Result Operands := do
  let first ← numeric first
  let second ← numeric second
  pure (widen first second)

def either (first second : Value) : Value :=
  if first.isTrue then first else second

def both (first second : Value) : Value :=
  if first.isTrue then second else first

inductive Arithmetic where
  | plus | minus | times | div | mod | max | min
deriving DecidableEq

/-- A checked step reports an overflow where the exact result is no 64-bit integer. -/
def checked : Option Int64 → Result Int64
  | some value => .ok value
  | none => .error .overflow

/-- Quotients are rounded down, and remainders have the sign of the divisor. The first step of an
operation is checked and the others are not; where one of these stops there is no result. -/
def integerSteps (op : Arithmetic) (x y : Int64) : Option (Result Int64) :=
  match op with
  | .plus => some (checked (Binary.sum? x y))
  | .minus => some (checked (Binary.difference? x y))
  | .times => some (checked (Binary.product? x y))
  | .div =>
      if y = 0 then some (.error .divideByZero)
      else
        match Binary.quotient? x y with
        | none => some (.error .overflow)
        | some quotient => (Binary.roundedDown? x y quotient).map .ok
  | .mod => if y = 0 then some (.error .divideByZero) else (Binary.modulus? x y).map .ok
  | .max => some (.ok (if x < y then y else x))
  | .min => some (.ok (if y < x then y else x))

theorem integer_steps_end (op : Arithmetic) (x y : Int64) : (integerSteps op x y).isSome = true := by
  cases op with
  | div =>
      by_cases zero : y = 0
      · simp [integerSteps, zero]
      cases divided : Binary.quotient? x y with
      | none => simp [integerSteps, zero, divided]
      | some quotient =>
          obtain ⟨value, done, _⟩ := Binary.rounded_down divided
          simp [integerSteps, zero, divided, done]
  | mod =>
      by_cases zero : y = 0
      · simp [integerSteps, zero]
      obtain ⟨value, done, _⟩ := Binary.modulus_of_rest (x := x) zero
      simp [integerSteps, zero, done]
  | plus | minus | times | max | min => rfl

def integerArithmetic (op : Arithmetic) (x y : Int64) : Result Int64 :=
  (integerSteps op x y).get (integer_steps_end op x y)

def floatModulo (x y : Float) : Float :=
  let rest := Binary.remainder x y
  if rest != 0 && (decide (rest < 0) != decide (y < 0)) then rest + y else rest

/-- A number wins over what is no number. -/
def floatMax (x y : Float) : Float :=
  if x.isNaN then y else if y.isNaN then x else if x < y then y else x

def floatMin (x y : Float) : Float :=
  if x.isNaN then y else if y.isNaN then x else if y < x then y else x

def floatArithmetic (op : Arithmetic) (x y : Float) : Result Float :=
  match op with
  | .plus => .ok (x + y)
  | .minus => .ok (x - y)
  | .times => .ok (x * y)
  | .div => if y == 0 then .error .divideByZero else .ok (x / y)
  | .mod => if y == 0 then .error .divideByZero else .ok (floatModulo x y)
  | .max => .ok (floatMax x y)
  | .min => .ok (floatMin x y)

/-- Reals are computed in double precision and rounded at the end. -/
def arithmetic (op : Arithmetic) (first second : Value) : Result Value := do
  match ← operands first second with
  | .int x y => (integerArithmetic op x y).map .int
  | .real x y => (floatArithmetic op x.toFloat y.toFloat).map fun value => .real value.toFloat32
  | .double x y => (floatArithmetic op x y).map .double

def overloaded (op : Arithmetic) (logic : Value → Value → Value) (args : List Value) :
    Result Value := do
  let (first, second) ← binary args
  if first.isBool || second.isBool then pure (logic first second) else arithmetic op first second

def extremum (op : Arithmetic) (logic : Bool → Bool → Bool) (args : List Value) : Result Value := do
  match ← binary args with
  | (.bool first, .bool second) => pure (.bool (logic first second))
  | (first, second) => arithmetic op first second

/-- Integers are raised as doubles and give a real. -/
def power (first second : Value) : Result Value := do
  match ← operands first second with
  | .int x y => pure (.real (x.toFloat.pow y.toFloat).toFloat32)
  | .real x y => pure (.real (x.pow y))
  | .double x y => pure (.double (x.pow y))

def absolute : Numeric → Result Value
  | .int value => (checked (Text.int64? value.toInt.natAbs)).map .int
  | .real value => .ok (.real value.abs)
  | .double value => .ok (.double value.abs)

def negate : Numeric → Result Value
  | .int value => (checked (Text.int64? (-value.toInt))).map .int
  | .real value => .ok (.real (-value))
  | .double value => .ok (.double (-value))

def floor : Numeric → Value
  | .int value => .real value.toFloat32
  | .real value => .real value.floor
  | .double value => .double value.floor

def truncateSingle (value : Float32) : Float32 :=
  if value < 0 then value.ceil else value.floor

def truncateDouble (value : Float) : Float :=
  if value < 0 then value.ceil else value.floor

def truncate : Numeric → Value
  | .int value => .real value.toFloat32
  | .real value => .real (truncateSingle value)
  | .double value => .double (truncateDouble value)

def integerBound : Float := 9223372036854775808

def doubleToInteger (value : Float) : Result Int64 :=
  if value.isFinite && -integerBound ≤ value && value < integerBound then .ok value.toInt64
  else .error .overflow

def toInteger : Numeric → Result Int64
  | .int value => .ok value
  | .real value => doubleToInteger value.toFloat
  | .double value => doubleToInteger value

def character? (code : Int) : Option Char :=
  if 0 ≤ code ∧ code.toNat.isValidChar then some (Char.ofNat code.toNat) else none

def toCharacter : Value → Result Char
  | .bool value => .ok (if value then '\x01' else '\x00')
  | .char value => .ok value
  | .int value =>
      match character? value.toInt with
      | some c => .ok c
      | none => .error (.mismatch "character code" (Text.showInteger value))
  | value => .error (.mismatch "boolean, character or integer" value.typeName)

/-- What is no number is not ordered. -/
def compareSingle (x y : Float32) : Option Ordering :=
  if x < y then some .lt else if y < x then some .gt else if x == y then some .eq else none

def compareDouble (x y : Float) : Option Ordering :=
  if x < y then some .lt else if y < x then some .gt else if x == y then some .eq else none

def Operands.compare : Operands → Option Ordering
  | int x y => some (Ord.compare x.toInt y.toInt)
  | real x y => compareSingle x y
  | double x y => compareDouble x y

def equalNumbers (first second : Value) : Bool :=
  match Numeric.ofValue? first, Numeric.ofValue? second with
  | some x, some y => (widen x y).compare == some .eq
  | _, _ => false

mutual
/-- Numbers are equal after widening; any other value is equal only to one of its own kind. -/
def equal : Value → Value → Bool
  | .char x, .char y => x == y
  | .null, .null => true
  | .function x, .function y => x == y
  | .array xs, .array ys => equalAll xs ys
  | first, second => equalNumbers first second

def equalAll : List Value → List Value → Bool
  | [], [] => true
  | x :: xs, y :: ys => equal x y && equalAll xs ys
  | _, _ => false
end

def order (first second : Value) : Result (Option Ordering) :=
  match first, second with
  | .char x, .char y => .ok (some (compare x y))
  | first, second =>
      match Numeric.ofValue? first, Numeric.ofValue? second with
      | some x, some y => .ok (widen x y).compare
      | _, _ => .error (.mismatch first.typeName second.typeName)

def comparison (accepts : Ordering → Bool) (args : List Value) : Result Value := do
  let (first, second) ← binary args
  let ordering ← order first second
  pure (.bool (ordering.any accepts))

def evaluate (op : Opcode) (args : List Value) : Result Value :=
  match op with
  | .plus => overloaded .plus either args
  | .minus => overloaded .minus either args
  | .times => overloaded .times both args
  | .div => overloaded .div both args
  | .mod => do
      let (first, second) ← binary args
      arithmetic .mod first second
  | .max => extremum .max or args
  | .min => extremum .min and args
  | .exp => do
      let (first, second) ← binary args
      power first second
  | .abs => do absolute (← numeric (← unary args))
  | .neg => do negate (← numeric (← unary args))
  | .floor => do pure (floor (← numeric (← unary args)))
  | .trunc => do pure (truncate (← numeric (← unary args)))
  | .int => do pure (.int (← toInteger (← numeric (← unary args))))
  | .double => do pure (.double (← numeric (← unary args)).toDouble)
  | .single => do pure (.real (← numeric (← unary args)).toSingle)
  | .bool => do pure (.bool (← unary args).isTrue)
  | .char => do pure (.char (← toCharacter (← unary args)))
  | .not => do pure (.bool !(← unary args).isTrue)
  | .and => do
      let (first, second) ← binary args
      pure (both first second)
  | .or => do
      let (first, second) ← binary args
      pure (either first second)
  | .equal => do
      let (first, second) ← binary args
      pure (.bool (equal first second))
  | .notEqual => do
      let (first, second) ← binary args
      pure (.bool !(equal first second))
  | .less => comparison (· == .lt) args
  | .lessEqual => comparison (· != .gt) args
  | .great => comparison (· == .gt) args
  | .greatEqual => comparison (· != .lt) args
  | .ifThenElse | .iterate | .call | .noOp => .error (.structured op)
  | _ => .error (.notImplemented op)

end Dataflow.Operation
