import Dataflow.Proofs.Module.Nesting
import Dataflow.Proofs.Type.Naming
set_option autoImplicit false

-- A chain over live types is read back as it was asked for, whatever was read, added and deleted before.
namespace Dataflow

namespace TypeTable

section Tells
variable {table changed : TypeTable} {kind : LinkKind} {types links : List TypeId}

end Tells

end TypeTable

namespace Module
open TypeTable

end Module

end Dataflow
