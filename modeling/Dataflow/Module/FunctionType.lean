import Dataflow.Module.Build
import Dataflow.Type.Chain
set_option autoImplicit false

namespace Dataflow.Module

def resultTypes (m : Module) (id : NodeId) (graph : Node) : List TypeId :=
  graph.inputs.keys.filterMap fun port => m.inputType? ⟨id, port⟩

def argumentGaps (graph : Node) : List Nat :=
  let typed := graph.outputs.keys.filter fun port => (graph.outputType? port).isSome
  (List.range' 1 (typed.getLast?.getD 0)).filter fun port => (graph.outputType? port).isNone

def argumentTypes (graph : Node) : List TypeId :=
  graph.outputs.entries.filterMap (·.2.type)

section Keeper
variable {σ τ : Type} [TypeTable.Keeper τ]

def signatureType (arguments results : List TypeId) : Edit τ TypeId := do
  let first ← TypeTable.addChain arguments .tuple none
  let second ← TypeTable.addChain results .tuple none
  TypeTable.add .function first second

variable [Keeper σ τ]
open Keeper (frame)

def resultsIn (s : σ) (id : NodeId) (graph : Node) : List TypeId :=
  graph.inputs.keys.filterMap fun port => Keeper.inputType? s ⟨id, port⟩

def fillGaps (id : NodeId) (gaps : List Nat) : Edit σ Unit :=
  if gaps.isEmpty then pure ()
  else do
    let wild ← Keeper.onTypes (TypeTable.add .wild none none)
    gaps.forM fun port => setOutput ⟨id, port⟩ wild

def portsType (id : NodeId) : Edit σ (Option TypeId) := do
  let filled ← Edit.query fun s : σ => (frame s).node id
  let results := resultsIn (← get) id filled
  let type ← Keeper.onTypes (signatureType (argumentTypes filled) results)
  pure (some type)

/-- The function type of a graph, or nothing for a graph without typed results. Missing arguments
are declared wild first, so that each argument has the place of its port. -/
def functionType (id : NodeId) : Edit σ (Option TypeId) := do
  let graph ← Edit.query fun s : σ => (frame s).graph id
  if (resultsIn (← get) id graph).isEmpty then pure none
  else do
    fillGaps id (argumentGaps graph)
    portsType id

end Keeper

end Dataflow.Module
