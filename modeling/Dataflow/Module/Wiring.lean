import Dataflow.Module.Build
set_option autoImplicit false

/- Wires. A wire into a nested graph is led through every compound on the way: the compound takes
the value in at a fresh input port, and its child graphs hand it on at an output port of the same
number. -/
namespace Dataflow.Module

structure Crossing where
  compound : NodeId
  child : NodeId
deriving DecidableEq

/-- The crossings from a graph out to an enclosing one, innermost first. Every step outward leads
to an earlier node, so there are fewer steps than nodes. -/
def crossings? (m : Module) (outer : NodeId) : Nat → NodeId → Option (List Crossing)
  | 0, scope => if scope = outer then some [] else none
  | steps + 1, scope =>
      if scope = outer then some []
      else
        match m.nodes[scope]?.map Node.role with
        | some (.subgraph compound) =>
            match m.scopeOf compound with
            | .ok next => (m.crossings? outer steps next).map (⟨compound, scope⟩ :: ·)
            | .error _ => none
        | _ => none

def topPort (m : Module) (compound : NodeId) : Nat :=
  match m.nodes[compound]? with
  | some node =>
      node.distinctChildren.foldl (fun top child =>
        max top (m.nodes[child]?.map Node.maxOutput |>.getD 0)) node.maxInput
  | none => 0

/-- The port after the highest one. Ports are numbers of 32 bits, so the last one is followed by 0. -/
def freePort (m : Module) (compound : NodeId) : Nat :=
  (m.topPort compound + 1) % Text.wordBound

section Keeper
variable {σ τ : Type} [Keeper σ τ]
open Keeper (frame)

structure Routing (σ : Type) where
  m : σ
  current : Outlet
  path : List Port

def Routing.enter (routing : Routing σ) (crossing : Crossing) : Routing σ :=
  let port := (frame routing.m).freePort crossing.compound
  let entry : Inlet := ⟨crossing.compound, port⟩
  let exit : Outlet := ⟨crossing.child, port⟩
  let output : Output := { type := (frame routing.m).outputType? routing.current }
  let children := ((frame routing.m).nodes[crossing.compound]?.map Node.distinctChildren).getD []
  let declare (m : σ) (child : NodeId) : σ :=
    Keeper.mapFrame (modifyNode child (fun graph => { graph with outputs := graph.outputs.insert port output })) m
  { m := children.foldl declare (Keeper.connect routing.current entry routing.m)
    current := exit
    path := routing.path ++ [.inlet entry, .outlet exit] }

/-- Feeds an input from an output that is visible from it: one of the same graph or of an
enclosing one. The result is the ports on the way, which ends with the input. -/
def wire (target : Inlet) (source : Outlet) : Edit σ (List Port) := do
  Edit.ofExcept (checkPort target.port)
  Edit.ofExcept (checkPort source.port)
  let outer ← Edit.query fun s : σ => (frame s).scopeOf source.node
  let inner ← Edit.query fun s : σ => (frame s).scopeOf target.node
  let m ← get
  match (frame m).crossings? outer (frame m).nodes.size inner with
  | none => throw (.disconnected source target)
  | some crossings =>
      let routing := crossings.reverse.foldl Routing.enter ⟨m, source, []⟩
      set (Keeper.connect routing.current target routing.m)
      pure (routing.path ++ [.inlet target])

end Keeper

end Dataflow.Module
