import Dataflow.Literal.Host
import Dataflow.Proofs.Literal.Grammar
import Dataflow.Proofs.Outcome
import Dataflow.Proofs.Text.Numeral
set_option autoImplicit false

-- The texts that stand for host values keep to one line.
namespace Dataflow
open Text (digits_are_digits)

theorem Literal.single_of_kind {text : List Char} {kind : LiteralKind} (read : Literal.kind? text = some kind) :
    '\n' ∉ text :=
  fun member => absurd (Literal.printable_of_spells (Literal.kind_iff.mp read) _ member) (by decide)

/-! ### Numbers -/

namespace Decimal

theorem single_digits (number : Nat) : '\n' ∉ Nat.toDigits 10 number :=
  fun member => absurd (digits_are_digits number _ member) (by decide)

theorem single_signed {text : List Char} (negative : Bool) (single : '\n' ∉ text) : '\n' ∉ signed negative text := by
  unfold signed
  split
  · intro member
    rcases List.mem_cons.mp member with same | member
    · exact absurd same (by decide)
    · exact single member
  · exact single

theorem single_zeros (count : Nat) : '\n' ∉ List.replicate count '0' :=
  fun member => absurd (List.eq_of_mem_replicate member) (by decide)

theorem single_append {first second : List Char} (here : '\n' ∉ first) (later : '\n' ∉ second) :
    '\n' ∉ first ++ second :=
  fun member => (List.mem_append.mp member).elim here later

theorem single_cons {c : Char} {text : List Char} (here : '\n' ≠ c) (later : '\n' ∉ text) : '\n' ∉ c :: text :=
  fun member => (List.mem_cons.mp member).elim here later

theorem single_positional (decimal : Decimal) : '\n' ∉ decimal.positional := by
  have digits : '\n' ∉ decimal.digits := single_digits _
  unfold positional
  simp only
  split
  · exact single_append digits (single_zeros _)
  split
  · refine single_append (fun member => digits (List.mem_of_mem_take member)) (single_cons (by decide) ?_)
    exact fun member => digits (List.mem_of_mem_drop member)
  · exact single_cons (by decide) (single_cons (by decide) (single_append (single_zeros _) digits))

theorem single_mantissa (decimal : Decimal) : '\n' ∉ decimal.mantissa := by
  have digits : '\n' ∉ decimal.digits := single_digits _
  unfold mantissa
  split
  · exact List.not_mem_nil
  · rename_i leading same
    rw [same] at digits
    exact digits
  · rename_i leading rest _ same
    rw [same] at digits
    refine single_cons (fun equal => digits ?_) (single_cons (by decide) fun member => digits ?_)
    · rw [equal]
      exact List.mem_cons_self
    · exact List.mem_cons_of_mem _ member

theorem single_exponent (exponent : Int) : '\n' ∉ exponentText exponent :=
  single_signed _ (single_append (single_zeros _) (single_digits _))

theorem single_literal {number : Binary.Number} {text : List Char} (shown : literal? number = some text) :
    '\n' ∉ text := by
  unfold literal? at shown
  split at shown
  · cases shown
    exact single_signed _ (by decide)
  · cases shown
    refine single_signed _ ?_
    split
    · refine single_append ?_ (by decide)
      split
      · exact single_positional _
      · exact single_append (single_positional _) (by decide)
    · exact single_append (single_mantissa _) (single_cons (by decide) (single_exponent _))
  · cases shown

end Decimal

theorem single_host {value : HostValue} {text : String} {kind : LiteralKind}
    (spelled : value.literal = .ok (.text text kind)) : '\n' ∉ text.toList := by
  cases value with
  | bool value =>
      cases spelled
      cases value <;> decide
  | int value =>
      cases spelled
      rw [Text.toList_show_integer]
      split
      · exact Decimal.single_digits _
      · exact Decimal.single_cons (by decide) (Decimal.single_digits _)
  | float value =>
      obtain ⟨spelling, shown, same⟩ := Outcome.map_ok spelled
      cases same
      unfold Literal.double at shown
      split at shown
      · rename_i found
        cases shown
        rw [String.toList_ofList]
        exact Decimal.single_literal found
      · cases shown
  | text value =>
      obtain ⟨kind, read, same⟩ := Outcome.map_ok spelled
      cases same
      unfold Literal.classify at read
      split at read
      · rename_i found
        exact Literal.single_of_kind found
      · cases read
  | function id => cases spelled

end Dataflow
