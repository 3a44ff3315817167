import Dataflow.Proofs.Module.Settled
import Dataflow.Proofs.Type.Grounded
set_option autoImplicit false

-- Types that dangle: they were taken from the list, and something that is still there refers to them. What
-- is added only refers to types in the list, so nothing begins to dangle when functions get their types.
namespace Dataflow.Module
open Edit TypeTable

inductive Uses (m : Module) (id : TypeId) : Prop
  | type {outer : TypeId} (live : outer ∈ m.types.order) (contains : m.types.Contains outer id)
  | literal {inlet : Inlet} {literal : Literal} (bound : m.binding? inlet = some (.literal literal))
      (typed : literal.type = some id)
  | output {outlet : Outlet} (typed : m.outputType? outlet = some id)

structure Dangles (m : Module) (id : TypeId) : Prop where
  gone : id ∉ m.types.order
  used : m.Uses id

theorem uses_of_input_type {m : Module} {inlet : Inlet} {id : TypeId} (typed : m.inputType? inlet = some id) :
    m.Uses id := by
  unfold inputType? at typed
  cases bound : m.binding? inlet with
  | none =>
      rw [bound] at typed
      cases typed
  | some binding =>
      rw [bound] at typed
      cases binding with
      | literal literal => exact .literal bound typed
      | wire source stamp => exact .output typed

theorem uses_of_result {m : Module} {id : NodeId} {type : TypeId} (member : type ∈ m.resultsOf id) : m.Uses type := by
  obtain ⟨port, _, typed⟩ := mem_results.mp member
  exact uses_of_input_type typed

theorem uses_of_argument {m : Module} {id : NodeId} {type : TypeId} (member : type ∈ m.argumentsOf id) : m.Uses type := by
  rw [arguments_eq] at member
  obtain ⟨⟨port, known⟩, walked, rfl⟩ := List.mem_map.mp member
  obtain ⟨output, found, typed⟩ := Option.bind_eq_some_iff.mp (SortedMap.mem_walk.mp walked)
  rw [get_outputs] at found
  exact .output (by rw [outputType?, found]; exact typed : m.outputType? ⟨id, port⟩ = some known)

/-! ### Changes of one port -/

section Ports
variable {m : Module}

-- A port that is changed has its old type, or the one that it gets.
theorem uses_of_modified_output {outlet : Outlet} {change : Output → Output} {id : TypeId}
    (used : (modifyNode outlet.node (Node.modifyOutput outlet.port change) m).Uses id) :
    m.Uses id ∨ (change ((m.output? outlet).getD {})).type = some id := by
  by_cases inside : outlet.node < m.nodes.size
  · cases used with
    | type live contains => exact .inl (.type live contains)
    | literal bound typed =>
        have inputs := input_modify m outlet.node (Node.modifyOutput outlet.port change) fun _ => rfl
        rw [binding_eq_of_input (inputs _)] at bound
        exact .inl (.literal bound typed)
    | output typed =>
        rw [outputType?, output_modify_output m outlet.node outlet.port change inside] at typed
        split at typed
        · rename_i same
          subst same
          exact .inr typed
        · exact .inl (.output typed)
  · rw [Quiet.modify_of_size inside] at used
    exact .inl used

end Ports

/-! ### Changes that only refer to types in the list -/

structure Tight (m changed : Module) : Prop where
  reliable : m.types.Reliable → changed.types.Reliable
  size : m.types.arena.size ≤ changed.types.arena.size
  live : ∀ id ∈ m.types.order, id ∈ changed.types.order
  uses : m.types.Reliable → ∀ {id}, changed.Uses id → m.Uses id ∨ id ∈ changed.types.order

namespace Tight

variable {m changed : Module}

theorem refl (m : Module) : Tight m m :=
  ⟨id, Nat.le_refl _, fun _ live => live, fun _ _ => .inl⟩

theorem trans (m middle changed : Module) (here : Tight m middle) (later : Tight middle changed) : Tight m changed := by
  refine ⟨later.reliable ∘ here.reliable, Nat.le_trans here.size later.size,
    fun id live => later.live id (here.live id live), fun reliable id used => ?_⟩
  rcases later.uses (here.reliable reliable) used with before | new
  · exact (here.uses reliable before).imp_right (later.live id)
  · exact .inr new

theorem dangles (tight : Tight m changed) (reliable : m.types.Reliable) {id : TypeId} (dangles : changed.Dangles id) :
    m.Dangles id :=
  ⟨fun live => dangles.gone (tight.live id live), (tight.uses reliable dangles.used).resolve_right dangles.gone⟩

theorem of_uses (types : changed.types = m.types) (uses : ∀ {id}, changed.Uses id → m.Uses id ∨ id ∈ m.types.order) :
    Tight m changed := by
  refine ⟨?_, ?_, ?_, ?_⟩ <;> rw [types]
  · exact id
  · exact fun _ live => live
  · exact fun _ => uses

theorem of_interned (m : Module) {signature : Signature}
    (live : ∀ reference ∈ signature.references, reference ∈ m.types.order) :
    Tight m { m with types := interned signature m.types } := by
  refine ⟨fun reliable => reliable_interned reliable fun reference member => reliable.bounded _ (live reference member),
    by simp [interned], fun id member => mem_order_interned.mpr (.inl member), fun reliable id used => ?_⟩
  cases used with
  | literal bound typed => exact .inl (.literal bound typed)
  | output typed => exact .inl (.output typed)
  | @type outer member contains =>
      rcases mem_order_interned.mp member with old | rfl
      · exact .inl (.type old ((contains_interned (Nat.ne_of_lt (reliable.bounded outer old))).mp contains))
      · obtain ⟨other, found, inside⟩ := contains_iff.mp contains
        rw [signature_interned, if_pos rfl] at found
        cases found
        exact .inr (mem_order_interned.mpr (.inl (live id inside)))

theorem of_pragmas (m : Module) (change : Pragmas → Pragmas) (type : TypeId) :
    Tight m { m with types := modifyPragmas change type m.types } := by
  refine ⟨reliable_modify change type, by simp [modifyPragmas], fun _ live => live, fun _ id used => .inl ?_⟩
  cases used with
  | literal bound typed => exact .literal bound typed
  | output typed => exact .output typed
  | type member contains =>
      simp only [Contains, signature_modify] at contains
      exact .type member contains

theorem of_added (m : Module) (types : TypeTable) (added : Added m.types types) : Tight m { m with types := types } := by
  induction added with
  | refl => exact refl m
  | @tail middle last _ addition ih =>
      refine ih.trans m { m with types := middle } { m with types := last } ?_
      cases addition with
      | type live missing => exact of_interned { m with types := middle } live
      | pragmas sized => exact of_pragmas { m with types := middle } _ _

theorem set_output (outlet : Outlet) (type : TypeId) : Moves Tight (setOutput outlet type) := by
  refine moves_checked refl fun _ _ => moves_found refl fun {m definition} found => ?_
  obtain ⟨live, _⟩ := get_eq_some_iff.mp (find_ok_iff.mp found)
  refine related_found (refl m) fun _ _ => of_uses rfl fun {id} used => ?_
  rcases uses_of_modified_output used with before | new
  · exact .inl before
  · cases new
    exact .inr live

end Tight

theorem tight_steps : Steps Tight where
  refl := .refl
  trans := .trans
  types := .of_added
  output := .set_output

end Dataflow.Module
