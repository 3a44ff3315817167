set_option autoImplicit false

namespace Dataflow.Text

def digit? (c : Char) : Option Nat :=
  if '0' ≤ c ∧ c ≤ '9' then some (c.toNat - '0'.toNat) else none

def natural? : List Char → Option Nat
  | [] => none
  | digits => digits.foldlM (fun value c => (digit? c).map (value * 10 + ·)) 0

def wordBound : Nat := Nat.pow 2 32

/-- Reads a number below `2 ^ 32`, with or without a plus sign. -/
def word? (text : List Char) : Option Nat :=
  let digits := match text with
    | '+' :: rest => rest
    | _ => text
  (natural? digits).filter (· < wordBound)

def int64? (value : Int) : Option Int64 :=
  if h : Int64.minValue.toInt ≤ value ∧ value ≤ Int64.maxValue.toInt then
    some (Int64.ofIntLE value h.1 h.2)
  else none

theorem toInt_of_int64 {value : Int} {number : Int64} (found : int64? value = some number) :
    number.toInt = value := by
  by_cases inside : Int64.minValue.toInt ≤ value ∧ value ≤ Int64.maxValue.toInt
  · simp only [int64?, dif_pos inside, Option.some.injEq] at found
    rw [← found, Int64.toInt_ofIntLE]
  · simp only [int64?, dif_neg inside, reduceCtorEq] at found

theorem int64_of_inside {value : Int} (low : Int64.minValue.toInt ≤ value)
    (high : value ≤ Int64.maxValue.toInt) : ∃ number, int64? value = some number ∧ number.toInt = value := by
  have found : int64? value = some (Int64.ofIntLE value low high) := dif_pos ⟨low, high⟩
  exact ⟨_, found, toInt_of_int64 found⟩

def integer? : List Char → Option Int64
  | '-' :: digits => (natural? digits).bind fun value => int64? (-(value : Int))
  | '+' :: digits => (natural? digits).bind fun value => int64? value
  | digits => (natural? digits).bind fun value => int64? value

def showInteger (value : Int64) : String :=
  match value.toInt with
  | .ofNat magnitude => toString magnitude
  | .negSucc predecessor => "-" ++ toString (predecessor + 1)

end Dataflow.Text
