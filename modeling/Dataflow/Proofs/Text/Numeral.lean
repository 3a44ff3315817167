import Dataflow.Proofs.Text.Words
import Dataflow.Text.Numeral
set_option autoImplicit false

-- Numerals are read back as the numbers that they were written for.
namespace Dataflow.Text

theorem digit_of_is_digit {c : Char} (digit : c.isDigit = true) :
    digit? c = some (c.toNat - '0'.toNat) := by
  unfold digit?
  simp only [Char.isDigit, Bool.and_eq_true, decide_eq_true_eq] at digit
  exact if_pos digit

theorem fold_digits {digits : List Char} (numeral : ∀ c ∈ digits, c.isDigit = true) (value : Nat) :
    digits.foldlM (fun value c => (digit? c).map (value * 10 + ·)) value =
      some (Nat.ofDigitChars 10 digits value) := by
  induction digits generalizing value with
  | nil => rw [Nat.ofDigitChars_nil]; rfl
  | cons c rest ih =>
      have later := fun other member => numeral other (List.mem_cons_of_mem c member)
      rw [List.foldlM_cons, digit_of_is_digit (numeral c List.mem_cons_self), Nat.ofDigitChars_cons]
      have same := ih later (value * 10 + (c.toNat - '0'.toNat))
      rw [Nat.mul_comm] at same ⊢
      exact same

theorem natural_of_digits {digits : List Char} (nonempty : digits ≠ []) (numeral : ∀ c ∈ digits, c.isDigit = true) :
    natural? digits = some (Nat.ofDigitChars 10 digits 0) := by
  unfold natural?
  split
  · exact absurd rfl nonempty
  · exact fold_digits numeral 0

theorem digits_are_digits (number : Nat) : ∀ c ∈ Nat.toDigits 10 number, c.isDigit = true :=
  fun _ member => Nat.isDigit_of_mem_toDigits (by decide) (by decide) member

theorem natural_digits (number : Nat) : natural? (Nat.toDigits 10 number) = some number := by
  rw [natural_of_digits Nat.toDigits_ne_nil (digits_are_digits number), Nat.ofDigitChars_ten_toDigits]

theorem toList_of_number (number : Nat) : (toString number).toList = Nat.toDigits 10 number := by
  rw [Nat.toString_eq_repr, Nat.toList_repr]

theorem not_digit_head {number : Nat} {head : Char} {rest : List Char}
    (start : Nat.toDigits 10 number = head :: rest) : head.isDigit = true := by
  apply digits_are_digits number
  rw [start]
  exact List.mem_cons_self

theorem word_digits {number : Nat} (bound : number < wordBound) :
    word? (Nat.toDigits 10 number) = some number := by
  unfold word?
  split
  · rename_i rest start
    exact absurd (not_digit_head start) (by decide)
  · simp [natural_digits, bound]

theorem lt_of_word_digits {number read : Nat} (found : word? (Nat.toDigits 10 number) = some read) :
    number < wordBound := by
  unfold word? at found
  split at found
  · rename_i rest start
    exact absurd (not_digit_head start) (by decide)
  · simp only [natural_digits] at found
    obtain ⟨same, inside⟩ := Option.filter_eq_some_iff.mp found
    rw [Option.some.inj same]
    exact of_decide_eq_true inside

theorem solid_digits (number : Nat) : Solid (Nat.toDigits 10 number) := by
  refine ⟨Nat.toDigits_ne_nil, fun c member => ?_⟩
  have digit := digits_are_digits number c member
  simp only [Char.isDigit, Bool.and_eq_true, decide_eq_true_eq] at digit
  have low : 48 ≤ c.toNat := digit.1
  have high : c.toNat ≤ 57 := digit.2
  unfold isBlank
  simp only [Bool.or_eq_false_iff, Bool.and_eq_false_iff, beq_eq_false_iff_ne, decide_eq_false_iff_not]
  omega

theorem percent_not_mem_digits (number : Nat) : '%' ∉ Nat.toDigits 10 number := by
  intro member
  exact absurd (digits_are_digits number '%' member) (by decide)

/-! ### Signed integers -/

theorem int64_of_toInt (value : Int64) : int64? value.toInt = some value := by
  have inside : Int64.minValue.toInt ≤ value.toInt ∧ value.toInt ≤ Int64.maxValue.toInt :=
    ⟨Int64.minValue_le_toInt value, Int64.toInt_le value⟩
  unfold int64?
  rw [dif_pos inside, Int64.ofIntLE_toInt]

theorem toList_show_integer (value : Int64) :
    (showInteger value).toList =
      match value.toInt with
      | .ofNat magnitude => Nat.toDigits 10 magnitude
      | .negSucc predecessor => '-' :: Nat.toDigits 10 (predecessor + 1) := by
  unfold showInteger
  cases value.toInt with
  | ofNat magnitude => exact toList_of_number magnitude
  | negSucc predecessor =>
      simp only [String.toList_append, toList_of_number]
      rfl

section Digits
variable {digits : List Char} (nonempty : digits ≠ []) (numeral : ∀ c ∈ digits, c.isDigit = true)
include nonempty numeral

theorem integer_of_digits : integer? digits = int64? (Nat.ofDigitChars 10 digits 0) := by
  have read := natural_of_digits nonempty numeral
  unfold integer?
  split
  · exact absurd (numeral _ List.mem_cons_self) (by decide)
  · exact absurd (numeral _ List.mem_cons_self) (by decide)
  · rw [read, Option.bind_some]

theorem integer_of_minus : integer? ('-' :: digits) = int64? (-(Nat.ofDigitChars 10 digits 0 : Int)) := by
  rw [integer?, natural_of_digits nonempty numeral, Option.bind_some]

end Digits

theorem integer_digits (number : Nat) : integer? (Nat.toDigits 10 number) = int64? number := by
  rw [integer_of_digits Nat.toDigits_ne_nil (digits_are_digits number), Nat.ofDigitChars_ten_toDigits]

theorem integer_minus (number : Nat) :
    integer? ('-' :: Nat.toDigits 10 number) = int64? (-(number : Int)) := by
  rw [integer_of_minus Nat.toDigits_ne_nil (digits_are_digits number), Nat.ofDigitChars_ten_toDigits]

theorem integer_show (value : Int64) : integer? (showInteger value).toList = some value := by
  rw [toList_show_integer, ← int64_of_toInt value]
  cases value.toInt with
  | ofNat magnitude => exact integer_digits magnitude
  | negSucc predecessor => exact integer_minus (predecessor + 1)

theorem solid_show (value : Int64) : Solid (showInteger value).toList := by
  rw [toList_show_integer]
  cases value.toInt with
  | ofNat magnitude => exact solid_digits magnitude
  | negSucc predecessor =>
      refine ⟨by simp, fun c member => ?_⟩
      rcases List.mem_cons.mp member with rfl | member
      · decide
      · exact (solid_digits _).2 c member

end Dataflow.Text
