import Dataflow.Proofs.Module.Nesting
import Dataflow.Proofs.Module.Rereading
set_option autoImplicit false

-- The type of a graph says what its ports are, and asking for it settles them: whoever asks again, alone or to
-- write the module, is told the same and changes nothing.
namespace Dataflow

namespace TypeTable

end TypeTable

namespace Module
open TypeTable

section Ports
variable {m changed : Module} {graph : NodeId}

theorem Retyped.type_kept (retyped : Retyped graph m changed) {outlet : Outlet}
    (known : (m.outputType? outlet).isSome) : changed.output? outlet = m.output? outlet := by
  rcases retyped.output outlet with same | ⟨_, untyped, _⟩
  · exact same
  · rw [untyped] at known
    cases known

end Ports

end Module

end Dataflow
