import Dataflow.Proofs.Module.Feeding
set_option autoImplicit false

-- What a literal leaves behind at its port: the text, and a live type that says how the text is read.
namespace Dataflow

namespace TypeTable

end TypeTable

namespace Module
open TypeTable

section Types
variable {table : TypeTable} (reliable : table.Reliable)
include reliable

end Types

/-! ### Binding -/

section Bind
variable {m : Module} {inlet : Inlet} {literal : Literal}

theorem literal_bind (inside : inlet.node < m.nodes.size) :
    (bind inlet (.literal literal) m).literal? inlet = some literal := by
  rw [literal?, input_bind _ inside, if_pos rfl]
  rfl

end Bind

end Module

end Dataflow
