import Dataflow.Proofs.Module.FunctionType
import Dataflow.Proofs.Module.Request
import Dataflow.Proofs.Type.Requests
set_option autoImplicit false

-- Asking for the type of a graph, writing a module and making a literal add types and declare outputs, and
-- do nothing else. A relation that holds of these steps holds of the whole, refused or not.
namespace Dataflow.Module
open Edit TypeTable

theorem added_signature_type (arguments results : List TypeId) : AddEdit (signatureType arguments results) :=
  added_bind (added_chain arguments .tuple none) fun first =>
    added_bind (added_chain results .tuple none) fun second => added_add .function first second

theorem added_literal_type (kind : LiteralKind) : AddEdit (literalType kind) := by
  unfold literalType
  split
  · exact added_basic _
  · exact added_bind (added_basic .character) fun _ => added_add .array _ none

structure Steps (relation : Module → Module → Prop) : Prop where
  refl : ∀ m, relation m m
  trans : ∀ first second third, relation first second → relation second third → relation first third
  types : ∀ (m : Module) (types : TypeTable), Added m.types types → relation m { m with types := types }
  output : ∀ outlet type, Moves relation (setOutput outlet type)

namespace Steps

variable {relation : Module → Module → Prop} (steps : Steps relation)
include steps

theorem bind {α β : Type} {first : Change α} {next : α → Change β} (here : Moves relation first)
    (later : ∀ value, Moves relation (next value)) : Moves relation (first >>= next) :=
  moves_bind steps.trans here later

theorem query {α : Type} (find : Module → Except Error α) : Moves relation (query find) :=
  moves_query steps.refl find

theorem pure {α : Type} (value : α) : Moves relation (pure value : Change α) :=
  moves_pure steps.refl value

theorem got : Moves relation (get : Change Module) :=
  moves_of_unchanged steps.refl fun _ => rfl

theorem on_types {α : Type} {change : TypeTable.Change α} (added : AddEdit change) : Moves relation (onTypes change) :=
  moves_within added steps.types

theorem ignoring {α : Type} {change : Change α} (moves : Moves relation change) : Moves relation (ignoring change) :=
  steps.bind moves fun _ => steps.pure ()

theorem fill_gaps (id : NodeId) (gaps : List Nat) : Moves relation (fillGaps id gaps) := by
  rw [fill_gaps_eq]
  split
  · exact steps.pure ()
  · refine steps.bind (steps.on_types (added_add .wild none none)) fun wild => ?_
    exact moves_each steps.refl steps.trans (fun port => steps.output ⟨id, port⟩ wild) gaps

theorem ports_type (id : NodeId) : Moves relation (portsType id) := by
  refine steps.bind (steps.query _) fun _ => steps.bind steps.got fun _ => ?_
  exact steps.bind (steps.on_types (added_signature_type _ _)) fun _ => steps.pure _

theorem function_type (id : NodeId) : Moves relation (functionType id) := by
  rw [function_type_eq]
  refine steps.bind (steps.query _) fun graph => steps.bind steps.got fun m => ?_
  split
  · exact steps.pure _
  · exact steps.bind (steps.fill_gaps id _) fun _ => steps.ports_type id

theorem function_types (ids : List NodeId) : Moves relation (ids.mapM functionType) :=
  moves_map steps.refl steps.trans steps.function_type ids

theorem to_text : Moves relation toText :=
  steps.bind steps.got fun _ => steps.bind (steps.function_types _) fun _ => steps.query _

theorem node_text (id : NodeId) : Moves relation (nodeText id) := by
  refine steps.bind (steps.query _) fun node => ?_
  cases node.role with
  | function name =>
      refine steps.bind (steps.function_type id) fun _ => steps.bind (steps.query _) fun _ => ?_
      exact steps.pure _
  | subgraph compound => exact steps.bind (steps.query _) fun _ => steps.pure _
  | node graph => exact steps.bind (steps.query _) fun _ => steps.pure _

theorem literal_of (value : HostValue) : Moves relation (literalOf value) := by
  refine steps.bind (moves_of_except steps.refl _) fun literal => ?_
  cases literal with
  | text text kind => exact steps.bind (steps.on_types (added_literal_type kind)) fun _ => steps.pure _
  | function id =>
      refine steps.bind (steps.query _) fun name => steps.bind (steps.function_type id) fun type => ?_
      cases type with
      | none => exact moves_throw steps.refl _
      | some type => exact steps.pure _

end Steps

end Dataflow.Module
