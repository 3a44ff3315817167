import Dataflow.Proofs.Module.Chains
set_option autoImplicit false

-- A chain is built from its end, and each link is refused on its own. So a refused chain leaves what was
-- built behind the missing element: the links are listed, and those that are shared keep their new names.
namespace Dataflow

namespace TypeTable

-- The chain is there already, and its links are called as they should be.
structure Holds (table : TypeTable) (kind : LinkKind) (types : List TypeId) (names : Option (List String))
    (links : List TypeId) : Prop where
  strung : Strung table kind types links
  called : ∀ given ∈ names, links.map table.name? = given.map some

-- What a chain leaves that got no further than these links.
structure Unfinished (table : TypeTable) (kind : LinkKind) (behind : List TypeId) (names : Option (List String))
    (links : List TypeId) (changed : TypeTable) : Prop where
  built : addChain behind kind.code names table = .ok links.head? changed
  holds : changed.Holds kind behind names links
  listed : ∃ added, changed.order = table.order ++ added ∧ ∀ id ∈ added, id ∈ links
  undisturbed : Undisturbed table (if names.isSome then links else []) changed
  unchanged : changed = table ↔ ∃ known, table.Holds kind behind names known

section Paired
variable {types : List TypeId} {names : Option (List String)}

end Paired

/-! ### What is left -/

section Left
variable {table changed : TypeTable} {kind : LinkKind} {types links : List TypeId} {chain : Option TypeId}

end Left

/-! ### Chains that are refused -/

end TypeTable

namespace Module
open TypeTable

end Module

end Dataflow
