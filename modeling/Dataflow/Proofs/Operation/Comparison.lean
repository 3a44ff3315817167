import Mathlib.Data.List.Forall2
import Dataflow.Operation
set_option autoImplicit false

-- Comparisons of values without floats. Equality is that of the values with each boolean counted as an integer,
-- and the order is that of the integers, within characters and within numbers.
namespace Dataflow

namespace Value

inductive Floatless : Value → Prop
  | bool (value : Bool) : Floatless (.bool value)
  | char (value : Char) : Floatless (.char value)
  | int (value : Int64) : Floatless (.int value)
  | null : Floatless .null
  | function (id : NodeId) : Floatless (.function id)
  | array {items : List Value} (each : ∀ item ∈ items, Floatless item) : Floatless (.array items)

mutual
-- The value with an integer for each boolean in it.
def counted : Value → Value
  | .bool value => .int (if value then 1 else 0)
  | .array items => .array (countedAll items)
  | value => value

def countedAll : List Value → List Value
  | [] => []
  | item :: items => counted item :: countedAll items
end

theorem counted_all_eq (items : List Value) : countedAll items = items.map counted := by
  induction items with
  | nil => rfl
  | cons item items ih => rw [countedAll, ih, List.map_cons]

end Value

namespace Operation
open Value (Floatless counted countedAll)

def Holds (op : Opcode) (first second : Value) : Prop :=
  evaluate op [first, second] = .ok (.bool true)

inductive Scale where
  | characters | numbers

-- Where a value stands among those that it is ordered with.
inductive Stands : Scale → Value → Int → Prop
  | character (value : Char) : Stands .characters (.char value) value.toNat
  | boolean (value : Bool) : Stands .numbers (.bool value) (if value then 1 else 0)
  | integer (value : Int64) : Stands .numbers (.int value) value.toInt

-- Two characters, or two of the booleans and integers.
def Comparable (first second : Value) : Prop :=
  ∃ scale x y, Stands scale first x ∧ Stands scale second y

def orderings : List Opcode :=
  [.less, .lessEqual, .great, .greatEqual]

structure Ordered (first second : Value) : Prop where
  answered : ∀ op ∈ .equal :: orderings, ∃ answer, evaluate op [first, second] = .ok (.bool answer)
  one : (Holds .less first second ∧ ¬ Holds .equal first second ∧ ¬ Holds .great first second) ∨
    (¬ Holds .less first second ∧ Holds .equal first second ∧ ¬ Holds .great first second) ∨
    (¬ Holds .less first second ∧ ¬ Holds .equal first second ∧ Holds .great first second)
  lessEqual : Holds .lessEqual first second ↔ ¬ Holds .great first second
  greatEqual : Holds .greatEqual first second ↔ ¬ Holds .less first second
  turned : evaluate .less [first, second] = evaluate .great [second, first]

/-! ### Equality -/

theorem equal_integers (x y : Int64) : equalNumbers (.int x) (.int y) = true ↔ x = y := by
  simp [equalNumbers, Numeric.ofValue?, widen, Operands.compare, Int64.toInt_inj]

theorem holds_equal (first second : Value) : Holds .equal first second ↔ equal first second = true := by
  simp [Holds, evaluate, binary, Bind.bind, Except.bind, pure, Except.pure]

theorem equal_all_iff (items others : List Value) :
    equalAll items others = true ↔ List.Forall₂ (Holds .equal) items others := by
  induction items generalizing others with
  | nil => cases others <;> simp [equalAll]
  | cons item items ih => cases others <;> simp [equalAll, ih, holds_equal]

theorem counted_all_iff (items others : List Value) :
    countedAll items = countedAll others ↔ List.Forall₂ (fun item other => counted item = counted other) items others := by
  rw [Value.counted_all_eq, Value.counted_all_eq, ← List.forall₂_eq_eq_eq, List.forall₂_map_left_iff,
    List.forall₂_map_right_iff]

theorem equal_counted {first second : Value} (floatless : first.Floatless) (floatlessToo : second.Floatless) :
    equal first second = true ↔ counted first = counted second := by
  induction floatless generalizing second with
  | bool value =>
      have same := equal_integers (if value then 1 else 0)
      cases floatlessToo <;> simp_all [equal, counted, equalNumbers, Numeric.ofValue?]
  | char value => cases floatlessToo <;> simp [equal, counted, equalNumbers, Numeric.ofValue?]
  | int value =>
      have same := equal_integers value
      cases floatlessToo <;> simp_all [equal, counted, equalNumbers, Numeric.ofValue?]
  | null => cases floatlessToo <;> simp [equal, counted, equalNumbers, Numeric.ofValue?]
  | function id => cases floatlessToo <;> simp [equal, counted, equalNumbers, Numeric.ofValue?]
  | array each ih =>
      cases floatlessToo with
      | array eachToo =>
          simp only [equal, counted, Value.array.injEq, equal_all_iff, counted_all_iff, List.forall₂_iff_zip, holds_equal]
          refine and_congr_right fun _ => forall₂_congr fun item other => imp_congr_right fun member => ?_
          obtain ⟨inside, insideToo⟩ := List.of_mem_zip member
          exact ih item inside (eachToo other insideToo)
      | _ => simp [equal, counted, equalNumbers, Numeric.ofValue?]

theorem holds_equal_iff {first second : Value} (floatless : first.Floatless) (floatlessToo : second.Floatless) :
    Holds .equal first second ↔ counted first = counted second :=
  (holds_equal first second).trans (equal_counted floatless floatlessToo)

/-! ### Order -/

theorem compare_characters (x y : Char) : compare x y = compare (x.toNat : Int) y.toNat := by
  have less : x < y ↔ (x.toNat : Int) < y.toNat := Int.ofNat_lt.symm
  have same : x = y ↔ (x.toNat : Int) = y.toNat := by rw [Int.natCast_inj, Char.toNat_inj]
  change compareOfLessAndEq x y = compareOfLessAndEq (x.toNat : Int) y.toNat
  simp only [compareOfLessAndEq, less, same]

section Order
variable {first second : Value}

theorem comparison_of_order {accepts : Ordering → Bool} {ordering : Ordering}
    (told : order first second = .ok (some ordering)) :
    comparison accepts [first, second] = .ok (.bool (accepts ordering)) := by
  simp [comparison, binary, told, Bind.bind, Except.bind, pure, Except.pure]

theorem comparison_of_refusal {accepts : Ordering → Bool} {fault : OperationFault}
    (refused : order first second = .error fault) : comparison accepts [first, second] = .error fault := by
  simp [comparison, binary, refused, Bind.bind, Except.bind]

theorem floatless_of_stands {scale : Scale} {x : Int} (stands : Stands scale first x) : first.Floatless := by
  cases stands with
  | character value => exact .char value
  | boolean value => exact .bool value
  | integer value => exact .int value

section Standing
variable {scale : Scale} {x y : Int} (here : Stands scale first x) (there : Stands scale second y)
include here there

theorem order_of_stands : order first second = .ok (some (compare x y)) := by
  cases here with
  | character value =>
      cases there with
      | character other => simp [order, compare_characters]
  | boolean value =>
      cases there with
      | boolean other => cases value <;> cases other <;> rfl
      | integer other => cases value <;> rfl
  | integer value =>
      cases there with
      | boolean other => cases other <;> rfl
      | integer other => rfl

theorem counted_of_stands : counted first = counted second ↔ x = y := by
  cases here with
  | character value =>
      cases there with
      | character other => simp only [counted, Value.char.injEq, Int.natCast_inj, Char.toNat_inj]
  | boolean value =>
      cases there with
      | boolean other => cases value <;> cases other <;> simp [counted]
      | integer other => cases value <;> simp [counted, ← Int64.toInt_inj]
  | integer value =>
      cases there with
      | boolean other => cases other <;> simp [counted, ← Int64.toInt_inj]
      | integer other => simp [counted, Int64.toInt_inj]

theorem equal_iff : Holds .equal first second ↔ x = y :=
  (holds_equal_iff (floatless_of_stands here) (floatless_of_stands there)).trans (counted_of_stands here there)

theorem less_iff : Holds .less first second ↔ x < y := by
  have told : evaluate .less [first, second] = _ := comparison_of_order (order_of_stands here there)
  simp [Holds, told, Int.compare_eq_lt]

theorem great_iff : Holds .great first second ↔ y < x := by
  have told : evaluate .great [first, second] = _ := comparison_of_order (order_of_stands here there)
  simp [Holds, told, Int.compare_eq_gt]

theorem less_equal_iff : Holds .lessEqual first second ↔ ¬ y < x := by
  have told : evaluate .lessEqual [first, second] = _ := comparison_of_order (order_of_stands here there)
  simp [Holds, told, Int.compare_eq_gt]

theorem great_equal_iff : Holds .greatEqual first second ↔ ¬ x < y := by
  have told : evaluate .greatEqual [first, second] = _ := comparison_of_order (order_of_stands here there)
  simp [Holds, told, Int.compare_eq_lt]

end Standing

theorem equal_answers (first second : Value) : ∃ same,
    evaluate .equal [first, second] = .ok (.bool same) ∧ evaluate .notEqual [first, second] = .ok (.bool !same) :=
  ⟨equal first second, rfl, rfl⟩

theorem ordered_of_comparable (comparable : Comparable first second) : Ordered first second := by
  obtain ⟨scale, x, y, here, there⟩ := comparable
  have told := order_of_stands here there
  refine ⟨fun op member => ?_, ?_, ?_, ?_, ?_⟩
  · simp only [orderings, List.mem_cons, List.not_mem_nil, or_false] at member
    rcases member with rfl | rfl | rfl | rfl | rfl
    · exact ⟨_, rfl⟩
    all_goals exact ⟨_, comparison_of_order told⟩
  · rw [less_iff here there, equal_iff here there, great_iff here there]
    omega
  · rw [less_equal_iff here there, great_iff here there]
  · rw [great_equal_iff here there, less_iff here there]
  · have less : evaluate .less [first, second] = _ := comparison_of_order told
    have great : evaluate .great [second, first] = _ := comparison_of_order (order_of_stands there here)
    rw [less, great, ← Int.compare_swap y x]
    cases compare y x <;> rfl

theorem stands_of_number {number : Numeric} (floatless : first.Floatless) (found : Numeric.ofValue? first = some number) :
    ∃ x, Stands .numbers first x := by
  cases floatless with
  | bool value => exact ⟨_, .boolean value⟩
  | int value => exact ⟨_, .integer value⟩
  | char | null | function | array => cases found

theorem order_refused (floatless : first.Floatless) (floatlessToo : second.Floatless)
    (apart : ¬ Comparable first second) : order first second = .error (.mismatch first.typeName second.typeName) := by
  unfold order
  split
  · exact absurd ⟨_, _, _, .character _, .character _⟩ apart
  · split
    · rename_i found foundToo
      obtain ⟨x, here⟩ := stands_of_number floatless found
      obtain ⟨y, there⟩ := stands_of_number floatlessToo foundToo
      exact absurd ⟨_, x, y, here, there⟩ apart
    · rfl

end Order

theorem less_trans {first second third : Value} (comparable : Comparable first second)
    (comparableToo : Comparable second third) (less : Holds .less first second) (lessToo : Holds .less second third) :
    Holds .less first third := by
  obtain ⟨scale, x, y, here, middle⟩ := comparable
  obtain ⟨other, y', z, middleToo, there⟩ := comparableToo
  obtain ⟨rfl, rfl⟩ : scale = other ∧ y = y' := by
    cases middle <;> cases middleToo <;> exact ⟨rfl, rfl⟩
  rw [less_iff here middle] at less
  rw [less_iff middle there] at lessToo
  rw [less_iff here there]
  omega

theorem comparisons_agree :
    Equivalence (fun first second : { value : Value // value.Floatless } => Holds .equal first.1 second.1) ∧
    (∀ items others, Holds .equal (.array items) (.array others) ↔ List.Forall₂ (Holds .equal) items others) ∧
    (∀ first second : Value, first.Floatless → second.Floatless →
      ∃ same, evaluate .equal [first, second] = .ok (.bool same) ∧
        evaluate .notEqual [first, second] = .ok (.bool !same)) ∧
    (∀ first second, Comparable first second → Ordered first second) ∧
    (∀ first second third, Comparable first second → Comparable second third → Holds .less first second →
      Holds .less second third → Holds .less first third) ∧
    ∀ first second : Value, first.Floatless → second.Floatless → ¬ Comparable first second →
      ∀ op ∈ orderings, evaluate op [first, second] = .error (.mismatch first.typeName second.typeName) := by
  refine ⟨⟨fun first => ?_, fun {first second} same => ?_, fun {first second third} same sameToo => ?_⟩,
    fun items others => ?_, fun first second _ _ => equal_answers first second,
    fun _ _ => ordered_of_comparable, fun _ _ _ => less_trans, fun first second floatless floatlessToo apart op member => ?_⟩
  · exact (holds_equal_iff first.2 first.2).mpr rfl
  · rw [holds_equal_iff first.2 second.2] at same
    exact (holds_equal_iff second.2 first.2).mpr same.symm
  · rw [holds_equal_iff first.2 second.2] at same
    rw [holds_equal_iff second.2 third.2] at sameToo
    exact (holds_equal_iff first.2 third.2).mpr (same.trans sameToo)
  · rw [holds_equal, equal, equal_all_iff]
  · have refused := order_refused floatless floatlessToo apart
    simp only [orderings, List.mem_cons, List.not_mem_nil, or_false] at member
    rcases member with rfl | rfl | rfl | rfl
    all_goals exact comparison_of_refusal refused

-- Nested arrays with a boolean in the place of an integer, and what is in no order.
theorem nested_boolean_counts :
    let nested := Value.array [.array [.bool true, .null], .char 'a']
    let plain := Value.array [.array [.int 1, .null], .char 'a']
    Holds .equal nested plain ∧ Holds .equal plain nested ∧
      evaluate .less [nested, plain] = .error (.mismatch "array" "array") ∧
      evaluate .greatEqual [.char 'a', .int 97] = .error (.mismatch "character" "integer") ∧
      Ordered (.bool true) (.int (-3)) ∧ Holds .less (.int (-3)) (.int 5) := by
  intro nested plain
  obtain ⟨equivalence, arrays, _, ordered, trans, refused⟩ := comparisons_agree
  have inner : Floatless (.array [.bool true, .null]) := .array (by simp [Floatless.bool, Floatless.null])
  have innerToo : Floatless (.array [.int 1, .null]) := .array (by simp [Floatless.int, Floatless.null])
  have first : Floatless nested := .array (by simp [inner, Floatless.char])
  have second : Floatless plain := .array (by simp [innerToo, Floatless.char])
  have same : Holds .equal nested plain := by
    rw [arrays, List.forall₂_cons, List.forall₂_cons, arrays]
    exact ⟨.cons rfl (.cons rfl .nil), rfl, .nil⟩
  have minus : Stands .numbers (.int (-3)) (-3) := .integer (-3)
  refine ⟨same, equivalence.symm (x := ⟨nested, first⟩) (y := ⟨plain, second⟩) same, ?_, ?_, ?_, ?_⟩
  · refine refused _ _ first second (fun ⟨_, _, _, here, _⟩ => ?_) .less (by simp [orderings])
    change Stands _ (.array _) _ at here
    cases here
  · refine refused _ _ (.char 'a') (.int 97) (fun ⟨_, _, _, here, there⟩ => ?_) .greatEqual (by simp [orderings])
    cases here
    cases there
  · exact ordered _ _ ⟨_, _, _, .boolean true, minus⟩
  · exact trans _ (.bool true) _ ⟨_, _, _, minus, .boolean true⟩ ⟨_, _, _, .boolean true, .integer 5⟩ rfl rfl

end Operation
end Dataflow
