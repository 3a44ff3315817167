import Dataflow.Proofs.Module.TypeList
set_option autoImplicit false

-- Types with one signature are shared, unless a text lists several of them and the one that is handed
-- out is deleted: then the others are forgotten, and a request makes a new one.
namespace Dataflow

namespace TypeTable

section Known
variable {table changed : TypeTable} {signature : Signature}

end Known

section Lapsed
variable {first : Nat} {table changed : TypeTable} {signature : Signature}

end Lapsed

end TypeTable

namespace Module
open TypeTable

end Module

end Dataflow
