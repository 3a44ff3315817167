import Dataflow.Proofs.Module.Steps
set_option autoImplicit false

-- Requests about types, pragmas, ports and texts bind nothing, whether they are refused or not.
namespace Dataflow.Module
open Edit

abbrev QuietEdit {α : Type} (change : Change α) : Prop :=
  Moves Quiet change

theorem quiet_bind {α β : Type} {first : Change α} {next : α → Change β} (here : QuietEdit first)
    (later : ∀ value, QuietEdit (next value)) : QuietEdit (first >>= next) :=
  moves_bind Quiet.trans here later

theorem quiet_pure {α : Type} (value : α) : QuietEdit (pure value) :=
  moves_pure Quiet.refl value

theorem quiet_query {α : Type} (find : Module → Except Error α) : QuietEdit (query find) :=
  moves_query Quiet.refl find

theorem quiet_of_except {α : Type} (outcome : Except Error α) :
    QuietEdit (Edit.ofExcept outcome : Change α) :=
  moves_of_except Quiet.refl outcome

theorem quiet_get : QuietEdit (get : Change Module) :=
  moves_of_unchanged Quiet.refl fun _ => rfl

theorem quiet_ignoring {α : Type} {change : Change α} (quiet : QuietEdit change) :
    QuietEdit (ignoring change) :=
  quiet_bind quiet fun _ => quiet_pure ()

theorem quiet_on_types {α : Type} (change : TypeTable.Change α) : QuietEdit (onTypes change) := by
  have moved : Moves (fun _ _ => True) change := fun _ => trivial
  exact moves_within moved fun m types _ => Quiet.of_types m types

theorem quiet_set_output (outlet : Outlet) (type : TypeId) : QuietEdit (setOutput outlet type) := by
  refine moves_checked Quiet.refl fun _ checked => ?_
  refine quiet_bind (quiet_query _) fun _ => quiet_bind (quiet_query _) fun _ => ?_
  exact moves_modify fun m => Quiet.of_output m outlet (numbered_of_check checked) _

theorem quiet_add_input (inlet : Inlet) : QuietEdit (addInput inlet) := by
  refine moves_checked Quiet.refl fun _ checked => ?_
  refine quiet_bind (quiet_query _) fun _ => ?_
  exact moves_modify fun m => Quiet.of_input m inlet (numbered_of_check checked) fun _ => rfl

theorem quiet_add_output (outlet : Outlet) : QuietEdit (addOutput outlet) := by
  refine moves_checked Quiet.refl fun _ checked => ?_
  refine quiet_bind (quiet_query _) fun _ => ?_
  exact moves_modify fun m => Quiet.of_output m outlet (numbered_of_check checked) _

theorem quiet_node_pragmas (id : NodeId) (change : PragmaChange) :
    QuietEdit (changeNodePragmas id change) := by
  refine quiet_bind (quiet_query _) fun _ => quiet_bind (quiet_of_except _) fun pragmas => ?_
  exact moves_modify fun m => Quiet.of_node_pragmas m id pragmas

-- Port 0 is refused before anything is changed.
theorem quiet_input_pragmas (inlet : Inlet) (change : PragmaChange) :
    QuietEdit (changeInputPragmas inlet change) := by
  rcases Nat.eq_zero_or_pos inlet.port with zero | numbered
  · refine moves_of_unchanged Quiet.refl fun m => ?_
    unfold changeInputPragmas addInput
    rw [check_port_refused zero]
    rfl
  · refine quiet_bind (quiet_add_input inlet) fun _ => quiet_bind quiet_get fun _ => ?_
    refine quiet_bind (quiet_of_except _) fun pragmas => ?_
    exact moves_modify fun m => Quiet.of_input m inlet numbered fun _ => rfl

theorem quiet_output_pragmas (outlet : Outlet) (change : PragmaChange) :
    QuietEdit (changeOutputPragmas outlet change) := by
  rcases Nat.eq_zero_or_pos outlet.port with zero | numbered
  · refine moves_of_unchanged Quiet.refl fun m => ?_
    unfold changeOutputPragmas addOutput
    rw [check_port_refused zero]
    rfl
  · refine quiet_bind (quiet_add_output outlet) fun _ => quiet_bind quiet_get fun _ => ?_
    refine quiet_bind (quiet_of_except _) fun pragmas => ?_
    exact moves_modify fun m => Quiet.of_output m outlet numbered _

theorem quiet_steps : Steps Quiet where
  refl := .refl
  trans := .trans
  types m types _ := .of_types m types
  output := quiet_set_output

theorem quiet_function_type (id : NodeId) : QuietEdit (functionType id) :=
  quiet_steps.function_type id

end Dataflow.Module
