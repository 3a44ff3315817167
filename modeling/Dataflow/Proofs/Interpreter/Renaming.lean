import Mathlib.Logic.Function.Basic
import Dataflow.Operation
import Dataflow.Proofs.Outcome
set_option autoImplicit false

-- Values under other ids of functions. No operation tells a value from its renaming, for functions are
-- only compared.
namespace Dataflow

namespace Value

mutual
def renumber (number : NodeId → NodeId) : Value → Value
  | .array items => .array (renumberAll number items)
  | .function id => .function (number id)
  | value => value

def renumberAll (number : NodeId → NodeId) : List Value → List Value
  | [] => []
  | item :: items => renumber number item :: renumberAll number items
end

mutual
-- Holds no function.
def IsData : Value → Prop
  | .array items => AllData items
  | .function _ => False
  | _ => True

def AllData : List Value → Prop
  | [] => True
  | item :: items => IsData item ∧ AllData items
end

section Renumber
variable {number : NodeId → NodeId}

mutual
theorem renumber_data : (value : Value) → value.IsData → value.renumber number = value
  | .array items, data => by rw [renumber, renumber_all_data items data]
  | .function _, data => data.elim
  | .bool _, _ | .char _, _ | .int _, _ | .real _, _ | .double _, _ | .null, _ => rfl

theorem renumber_all_data : (items : List Value) → AllData items → renumberAll number items = items
  | [], _ => rfl
  | item :: items, data => by rw [renumberAll, renumber_data item data.1, renumber_all_data items data.2]
end

theorem renumber_data_list {values : List Value} (data : ∀ value ∈ values, value.IsData) :
    values.map (renumber number) = values := by
  induction values with
  | nil => rfl
  | cons value rest ih =>
      rw [List.map_cons, renumber_data value (data value List.mem_cons_self),
        ih fun other member => data other (List.mem_cons_of_mem _ member)]

mutual
theorem renumber_id : (value : Value) → value.renumber id = value
  | .array items => by rw [renumber, renumber_all_id items]
  | .function _ | .bool _ | .char _ | .int _ | .real _ | .double _ | .null => rfl

theorem renumber_all_id : (items : List Value) → renumberAll id items = items
  | [] => rfl
  | item :: items => by rw [renumberAll, renumber_id item, renumber_all_id items]
end

theorem renumber_id_list (values : List Value) : values.map (renumber id) = values := by
  have same : renumber id = id := funext renumber_id
  rw [same, List.map_id]

mutual
theorem renumber_undone {back : NodeId → NodeId} (undone : Function.LeftInverse back number) :
    (value : Value) → (value.renumber number).renumber back = value
  | .array items => by rw [renumber, renumber, renumber_all_undone undone items]
  | .function id => by rw [renumber, renumber, undone id]
  | .bool _ | .char _ | .int _ | .real _ | .double _ | .null => rfl

theorem renumber_all_undone {back : NodeId → NodeId} (undone : Function.LeftInverse back number) :
    (items : List Value) → renumberAll back (renumberAll number items) = items
  | [] => rfl
  | item :: items => by rw [renumberAll, renumberAll, renumber_undone undone item, renumber_all_undone undone items]
end

theorem renumber_list_undone {back : NodeId → NodeId} (undone : Function.LeftInverse back number)
    (values : List Value) : (values.map (renumber number)).map (renumber back) = values := by
  rw [List.map_map, show renumber back ∘ renumber number = id from funext (renumber_undone undone), List.map_id]

@[simp] theorem is_true_renumber (value : Value) : (value.renumber number).isTrue = value.isTrue := by
  cases value with
  | array items => cases items <;> rfl
  | _ => rfl

@[simp] theorem is_bool_renumber (value : Value) : (value.renumber number).isBool = value.isBool := by
  cases value <;> rfl

@[simp] theorem type_name_renumber (value : Value) : (value.renumber number).typeName = value.typeName := by
  cases value <;> rfl

end Renumber

end Value

namespace Operation
open Value

section Renumber
variable {number : NodeId → NodeId}

@[simp] theorem numeric_of_renumber (value : Value) :
    Numeric.ofValue? (value.renumber number) = Numeric.ofValue? value := by
  cases value <;> rfl

@[simp] theorem numeric_renumber (value : Value) : numeric (value.renumber number) = numeric value := by
  simp only [numeric, numeric_of_renumber, type_name_renumber]

@[simp] theorem operands_renumber (first second : Value) :
    operands (first.renumber number) (second.renumber number) = operands first second := by
  simp only [operands, numeric_renumber]

theorem unary_renumber (args : List Value) :
    unary (args.map (renumber number)) = (unary args).map (renumber number) := by
  rcases args with _ | ⟨first, _ | ⟨second, rest⟩⟩
  · rfl
  · rfl
  · simp [unary, Except.map]

theorem binary_renumber (args : List Value) : binary (args.map (renumber number)) =
    (binary args).map fun pair => (pair.1.renumber number, pair.2.renumber number) := by
  rcases args with _ | ⟨first, _ | ⟨second, _ | ⟨third, rest⟩⟩⟩
  · rfl
  · rfl
  · rfl
  · simp [binary, Except.map]

theorem map_map_of_scalar {α : Type} {make : α → Value} (scalar : ∀ value, (make value).renumber number = make value)
    (result : Result α) : (result.map make).map (renumber number) = result.map make := by
  cases result with
  | error fault => rfl
  | ok value => exact congrArg Except.ok (scalar value)

theorem unary_then {next : Value → Result Value}
    (same : ∀ value, next (value.renumber number) = (next value).map (renumber number)) (args : List Value) :
    (unary (args.map (renumber number)) >>= next) = (unary args >>= next).map (renumber number) := by
  rw [unary_renumber]
  cases unary args with
  | error fault => rfl
  | ok value => exact same value

theorem binary_then {next : Value × Value → Result Value}
    (same : ∀ first second, next (first.renumber number, second.renumber number) =
      (next (first, second)).map (renumber number)) (args : List Value) :
    (binary (args.map (renumber number)) >>= next) = (binary args >>= next).map (renumber number) := by
  rw [binary_renumber]
  cases binary args with
  | error fault => rfl
  | ok pair => exact same pair.1 pair.2

theorem numeric_then {next : Numeric → Result Value}
    (scalar : ∀ value, (next value).map (renumber number) = next value) (args : List Value) :
    (do next (← numeric (← unary (args.map (renumber number))))) =
      (do next (← numeric (← unary args))).map (renumber number) := by
  refine unary_then (fun value => ?_) args
  rw [numeric_renumber]
  cases numeric value with
  | error fault => rfl
  | ok value => exact (scalar value).symm

theorem either_renumber (first second : Value) :
    either (first.renumber number) (second.renumber number) = (either first second).renumber number := by
  unfold either
  rw [is_true_renumber]
  split <;> rfl

theorem both_renumber (first second : Value) :
    both (first.renumber number) (second.renumber number) = (both first second).renumber number := by
  unfold both
  rw [is_true_renumber]
  split <;> rfl

theorem operands_then {next : Operands → Result Value}
    (scalar : ∀ pair, (next pair).map (renumber number) = next pair) (first second : Value) :
    (operands (first.renumber number) (second.renumber number) >>= next) =
      (operands first second >>= next).map (renumber number) := by
  rw [operands_renumber]
  cases operands first second with
  | error fault => rfl
  | ok pair => exact (scalar pair).symm

theorem arithmetic_renumber (op : Arithmetic) (first second : Value) :
    arithmetic op (first.renumber number) (second.renumber number) =
      (arithmetic op first second).map (renumber number) := by
  refine operands_then (fun pair => ?_) first second
  cases pair <;> exact map_map_of_scalar (fun _ => rfl) _

theorem power_renumber (first second : Value) :
    power (first.renumber number) (second.renumber number) = (power first second).map (renumber number) := by
  refine operands_then (fun pair => ?_) first second
  cases pair <;> rfl

theorem overloaded_renumber (op : Arithmetic) {logic : Value → Value → Value}
    (same : ∀ first second, logic (first.renumber number) (second.renumber number) =
      (logic first second).renumber number) (args : List Value) :
    overloaded op logic (args.map (renumber number)) = (overloaded op logic args).map (renumber number) := by
  refine binary_then (fun first second => ?_) args
  simp only [is_bool_renumber]
  split
  · exact congrArg Except.ok (same first second)
  · exact arithmetic_renumber op first second

theorem extremum_renumber (op : Arithmetic) (logic : Bool → Bool → Bool) (args : List Value) :
    extremum op logic (args.map (renumber number)) = (extremum op logic args).map (renumber number) := by
  refine binary_then (fun first second => ?_) args
  have plain : arithmetic op (first.renumber number) (second.renumber number) = _ := arithmetic_renumber op first second
  cases first with
  | bool value =>
      cases second with
      | bool other => rfl
      | _ => exact plain
  | _ => exact plain

theorem order_renumber (first second : Value) :
    order (first.renumber number) (second.renumber number) = order first second := by
  cases first <;> cases second <;> rfl

theorem comparison_renumber (accepts : Ordering → Bool) (args : List Value) :
    comparison accepts (args.map (renumber number)) = (comparison accepts args).map (renumber number) := by
  refine binary_then (fun first second => ?_) args
  change (order (first.renumber number) (second.renumber number) >>= _) = (order first second >>= _).map _
  rw [order_renumber]
  cases order first second <;> rfl

mutual
theorem equal_renumber (apart : Function.Injective number) : (first second : Value) →
    equal (first.renumber number) (second.renumber number) = equal first second
  | .array xs, second => by
      cases second with
      | array ys => exact equal_all_renumber apart xs ys
      | _ => rfl
  | .function x, second => by
      cases second with
      | function y =>
          change (number x == number y) = (x == y)
          by_cases same : x = y
          · rw [same, beq_self_eq_true, beq_self_eq_true]
          · rw [beq_eq_false_iff_ne.mpr same, beq_eq_false_iff_ne.mpr fun equal => same (apart equal)]
      | _ => rfl
  | .bool _, second | .char _, second | .int _, second | .real _, second | .double _, second | .null, second => by
      cases second <;> rfl

theorem equal_all_renumber (apart : Function.Injective number) : (first second : List Value) →
    equalAll (renumberAll number first) (renumberAll number second) = equalAll first second
  | [], [] => rfl
  | [], _ :: _ => rfl
  | _ :: _, [] => rfl
  | x :: xs, y :: ys => by
      rw [renumberAll, renumberAll, equalAll, equalAll, equal_renumber apart x y, equal_all_renumber apart xs ys]
end

theorem to_character_renumber (value : Value) : toCharacter (value.renumber number) = toCharacter value := by
  cases value <;> rfl

theorem evaluate_renumber (apart : Function.Injective number) (op : Opcode) (args : List Value) :
    evaluate op (args.map (renumber number)) = (evaluate op args).map (renumber number) := by
  cases op with
  | plus => exact overloaded_renumber _ either_renumber args
  | minus => exact overloaded_renumber _ either_renumber args
  | times => exact overloaded_renumber _ both_renumber args
  | div => exact overloaded_renumber _ both_renumber args
  | mod => exact binary_then (fun first second => arithmetic_renumber .mod first second) args
  | max => exact extremum_renumber _ _ args
  | min => exact extremum_renumber _ _ args
  | exp => exact binary_then (fun first second => power_renumber first second) args
  | abs => exact numeric_then (fun value => by cases value <;> first | rfl | exact map_map_of_scalar (fun _ => rfl) _) args
  | neg => exact numeric_then (fun value => by cases value <;> first | rfl | exact map_map_of_scalar (fun _ => rfl) _) args
  | floor => exact numeric_then (fun value => by cases value <;> rfl) args
  | trunc => exact numeric_then (fun value => by cases value <;> rfl) args
  | int => exact numeric_then (fun value => by cases toInteger value <;> rfl) args
  | double => exact numeric_then (fun _ => rfl) args
  | single => exact numeric_then (fun _ => rfl) args
  | bool => exact unary_then (fun value => by rw [is_true_renumber]; rfl) args
  | char =>
      refine unary_then (fun value => ?_) args
      rw [to_character_renumber]
      cases toCharacter value <;> rfl
  | not => exact unary_then (fun value => by rw [is_true_renumber]; rfl) args
  | and => exact binary_then (fun first second => congrArg Except.ok (both_renumber first second)) args
  | or => exact binary_then (fun first second => congrArg Except.ok (either_renumber first second)) args
  | equal =>
      refine binary_then (fun first second => ?_) args
      exact congrArg (fun same => Except.ok (Value.bool same)) (equal_renumber apart first second)
  | notEqual =>
      refine binary_then (fun first second => ?_) args
      exact congrArg (fun same => Except.ok (Value.bool !same)) (equal_renumber apart first second)
  | less => exact comparison_renumber _ args
  | lessEqual => exact comparison_renumber _ args
  | great => exact comparison_renumber _ args
  | greatEqual => exact comparison_renumber _ args
  | _ => rfl

end Renumber

end Operation

end Dataflow
