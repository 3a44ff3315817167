import Dataflow.Text.Numeral
set_option autoImplicit false

/- Arithmetic of 64-bit integers in the steps of a machine that divides toward zero. A step whose
exact result is no 64-bit integer has none: there the machine stops. -/
namespace Dataflow.Binary

def sum? (x y : Int64) : Option Int64 :=
  Text.int64? (x.toInt + y.toInt)

def difference? (x y : Int64) : Option Int64 :=
  Text.int64? (x.toInt - y.toInt)

def product? (x y : Int64) : Option Int64 :=
  Text.int64? (x.toInt * y.toInt)

def quotient? (x y : Int64) : Option Int64 :=
  if y = 0 then none else Text.int64? (x.toInt.tdiv y.toInt)

/-- What a quotient leaves, with the sign of the dividend. Where there is no quotient there is no
remainder either, even if it would be zero. -/
def remainder? (x y : Int64) : Option Int64 :=
  (quotient? x y).map fun _ => x % y

def opposite (x y : Int64) : Bool :=
  decide (x < 0) != decide (y < 0)

def roundedDown? (x y quotient : Int64) : Option Int64 := do
  let rest ← remainder? x y
  if rest != 0 && opposite x y then difference? quotient 1 else some quotient

def modulus? (x y : Int64) : Option Int64 :=
  let rest := x % y
  if rest != 0 && opposite rest y then sum? rest y else some rest

section Integers
variable {x y : Int}

theorem fdiv_of_tdiv (nonzero : y ≠ 0) :
    x.fdiv y = if x.tmod y ≠ 0 ∧ (x < 0 ↔ ¬ y < 0) then x.tdiv y - 1 else x.tdiv y := by
  simp only [Int.fdiv_eq_tdiv, Int.dvd_iff_tmod_eq_zero]
  by_cases exact : x.tmod y = 0
  · simp [exact]
  by_cases positive : 0 < y
  · have sign := Int.sign_eq_one_of_pos positive
    by_cases negative : x < 0 <;> simp [exact, sign] <;> omega
  · have sign := Int.sign_eq_neg_one_of_neg (show y < 0 by omega)
    by_cases negative : x < 0 <;> simp [exact, sign] <;> omega

theorem sign_of_tmod (rest : x.tmod y ≠ 0) : x.tmod y < 0 ↔ x < 0 := by
  by_cases negative : x < 0
  · have below := Int.tmod_nonneg (a := -x) y (by omega)
    rw [Int.neg_tmod] at below
    omega
  · have above := Int.tmod_nonneg y (show 0 ≤ x by omega)
    omega

theorem fmod_of_tmod (nonzero : y ≠ 0) :
    x.fmod y = if x.tmod y ≠ 0 ∧ (x.tmod y < 0 ↔ ¬ y < 0) then x.tmod y + y else x.tmod y := by
  have whole := Int.tdiv_mul_add_tmod x y
  rw [Int.fmod_def, fdiv_of_tdiv nonzero, Int.mul_comm]
  by_cases rest : x.tmod y ≠ 0
  · have sign := sign_of_tmod rest
    by_cases opposite : x < 0 ↔ ¬ y < 0
    · rw [if_pos ⟨rest, opposite⟩, if_pos ⟨rest, sign.trans opposite⟩, Int.sub_mul]
      omega
    · rw [if_neg fun both => opposite both.2, if_neg fun both => opposite (sign.symm.trans both.2)]
      omega
  · rw [if_neg fun both => rest both.1, if_neg fun both => rest both.1]
    omega

theorem natAbs_tdiv_lt (rest : x.tmod y ≠ 0) : (x.tdiv y).natAbs < x.natAbs := by
  have parts := Nat.div_add_mod x.natAbs y.natAbs
  have left : x.natAbs % y.natAbs ≠ 0 := by
    rw [← Int.natAbs_tmod]
    exact Int.natAbs_ne_zero.mpr rest
  have many : 1 ≤ y.natAbs ∨ y.natAbs = 0 := by omega
  rw [Int.natAbs_tdiv]
  change x.natAbs / y.natAbs < x.natAbs
  rcases many with some | none
  · have := Nat.mul_le_mul_right (x.natAbs / y.natAbs) some
    omega
  · rw [none, Nat.div_zero]
    omega

end Integers

section Steps
variable {x y : Int64}

theorem toInt_of_quotient {quotient : Int64} (divided : quotient? x y = some quotient) :
    y.toInt ≠ 0 ∧ quotient.toInt = x.toInt.tdiv y.toInt := by
  by_cases zero : y = 0
  · simp [quotient?, zero] at divided
  · simp only [quotient?, if_neg zero] at divided
    exact ⟨fun same => zero (Int64.toInt_inj.mp same), Text.toInt_of_int64 divided⟩

theorem rest_iff : (x % y != 0) = true ↔ x.toInt.tmod y.toInt ≠ 0 := by
  rw [bne_iff_ne, ← Int64.toInt_mod, ne_eq, ne_eq, ← Int64.toInt_inj, Int64.toInt_zero]

theorem opposite_iff : opposite x y = true ↔ (x.toInt < 0 ↔ ¬ y.toInt < 0) := by
  simp only [opposite, bne_iff_ne, ne_eq, decide_eq_decide, Int64.lt_iff_toInt_lt, Int64.toInt_zero]
  by_cases negative : x.toInt < 0 <;> simp [negative]

theorem inside_iff {value : Int} : Int64.minValue.toInt ≤ value ∧ value ≤ Int64.maxValue.toInt ↔
    -9223372036854775808 ≤ value ∧ value < 9223372036854775808 := by
  rw [Int64.toInt_minValue, Int64.toInt_maxValue]
  omega

theorem bounds (x : Int64) : -9223372036854775808 ≤ x.toInt ∧ x.toInt < 9223372036854775808 :=
  inside_iff.mp ⟨Int64.minValue_le_toInt x, Int64.toInt_le x⟩

-- A quotient that is corrected is nearer to zero than the dividend, so the correction stays in range.
theorem rounded_down {quotient : Int64} (divided : quotient? x y = some quotient) :
    ∃ value, roundedDown? x y quotient = some value ∧ value.toInt = x.toInt.fdiv y.toInt := by
  obtain ⟨nonzero, same⟩ := toInt_of_quotient divided
  have left : remainder? x y = some (x % y) := by simp [remainder?, divided]
  rw [fdiv_of_tdiv nonzero, roundedDown?, left, Option.bind_eq_bind, Option.bind_some]
  by_cases corrected : (x % y != 0 && opposite x y) = true
  · have both : _ ∧ _ := Bool.and_eq_true_iff.mp corrected
    rw [rest_iff, opposite_iff] at both
    rw [if_pos corrected, if_pos both, ← same]
    have nearer := natAbs_tdiv_lt both.1
    have dividend := bounds x
    have inside := inside_iff.mpr (show _ ≤ quotient.toInt - 1 ∧ quotient.toInt - 1 < _ by omega)
    exact Text.int64_of_inside inside.1 inside.2
  · have not : ¬ (_ ∧ _) := fun both => corrected (Bool.and_eq_true_iff.mpr both)
    rw [rest_iff, opposite_iff] at not
    rw [if_neg corrected, if_neg not]
    exact ⟨quotient, rfl, same⟩

-- The corrected remainder lies between two numbers that are in range.
theorem modulus_of_rest (nonzero : y ≠ 0) :
    ∃ value, modulus? x y = some value ∧ value.toInt = x.toInt.fmod y.toInt := by
  have divisor : y.toInt ≠ 0 := fun same => nonzero (Int64.toInt_inj.mp same)
  rw [fmod_of_tmod divisor, modulus?, ← Int64.toInt_mod]
  by_cases corrected : (x % y != 0 && opposite (x % y) y) = true
  · have both : _ ∧ _ := Bool.and_eq_true_iff.mp corrected
    rw [rest_iff, opposite_iff, ← Int64.toInt_mod] at both
    rw [if_pos corrected, if_pos both]
    have rest := bounds (x % y)
    have divisorToo := bounds y
    have inside := inside_iff.mpr (show _ ≤ (x % y).toInt + y.toInt ∧ (x % y).toInt + y.toInt < _ by omega)
    exact Text.int64_of_inside inside.1 inside.2
  · have not : ¬ (_ ∧ _) := fun both => corrected (Bool.and_eq_true_iff.mpr both)
    rw [rest_iff, opposite_iff, ← Int64.toInt_mod] at not
    rw [if_neg corrected, if_neg not]
    exact ⟨x % y, rfl, rfl⟩

end Steps

end Dataflow.Binary
