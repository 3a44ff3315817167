import Dataflow.Module.FunctionType
import Dataflow.Proofs.Edit
set_option autoImplicit false

-- The function type of a graph of a module in two steps: missing arguments are declared, and then
-- the chains over the types of the ports are interned.
namespace Dataflow.Module

theorem fill_gaps_eq (id : NodeId) (gaps : List Nat) :
    fillGaps id gaps = (if gaps.isEmpty then pure ()
      else do
        let wild ← onTypes (TypeTable.add .wild none none)
        gaps.forM fun port => setOutput ⟨id, port⟩ wild : Change Unit) := rfl

theorem ports_type_eq (id : NodeId) :
    portsType id = (do
      let filled ← Edit.query (·.node id)
      let results := (← get).resultTypes id filled
      let type ← onTypes (signatureType (argumentTypes filled) results)
      pure (some type) : Change (Option TypeId)) := rfl

theorem function_type_eq (id : NodeId) :
    functionType id = (do
      let graph ← Edit.query (·.graph id)
      if ((← get).resultTypes id graph).isEmpty then pure none
      else do
        fillGaps id (argumentGaps graph)
        portsType id : Change (Option TypeId)) := rfl

end Dataflow.Module
