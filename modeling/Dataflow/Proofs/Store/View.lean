import Dataflow.Proofs.Module.Ports
import Dataflow.Store
set_option autoImplicit false

-- Modules fed anew. What feeds the inputs and the module without it make up a module.
namespace Dataflow

namespace Node

def bare (node : Node) : Node :=
  node.fed fun _ => none

theorem fed_fed (node : Node) (feed other : Nat → Option Binding) : (node.fed feed).fed other = node.fed other := by
  simp [fed, SortedMap.mapValues]

theorem fed_self (node : Node) : node.fed node.binding? = node := by
  have same : node.inputs.mapValues (fun port input => { input with binding := node.binding? port }) = node.inputs := by
    refine SortedMap.ext_get? fun port => ?_
    rw [SortedMap.get?_mapValues, binding?]
    cases node.inputs.get? port <;> rfl
  unfold fed
  rw [same]

theorem bare_of_new {node : Node} (portless : node.inputs = .empty) : node.bare = node := by
  cases node
  cases portless
  rfl

theorem bare_modify_input {change other : Input → Input}
    (kept : ∀ input, { change input with binding := none } = other { input with binding := none }) (port : Nat)
    (node : Node) : (node.modifyInput port change).bare = node.bare.modifyInput port other := by
  have same : (node.inputs.update port {} change).mapValues (fun _ input => { input with binding := none }) =
      (node.inputs.mapValues fun _ input => { input with binding := none }).update port {} other := by
    refine SortedMap.ext_get? fun query => ?_
    rw [SortedMap.get?_mapValues, SortedMap.get?_update, SortedMap.get?_update, SortedMap.get?_mapValues,
      SortedMap.get?_mapValues]
    by_cases here : query = port
    · rw [if_pos here, if_pos here, Option.map_some, kept]
      cases node.inputs.get? port <;> rfl
    · rw [if_neg here, if_neg here]
  unfold bare fed modifyInput
  rw [same]

theorem binding_modify_input {change : Input → Input} (kept : ∀ input, (change input).binding = input.binding)
    (port : Nat) (node : Node) (query : Nat) : (node.modifyInput port change).binding? query = node.binding? query := by
  unfold binding? modifyInput
  rw [SortedMap.get?_update]
  by_cases here : query = port
  · rw [if_pos here, here]
    cases node.inputs.get? port <;> simp [kept]
  · rw [if_neg here]

end Node

namespace Module

def bare (m : Module) : Module :=
  m.fed fun _ => none

variable {m : Module}

theorem fed_fed (m : Module) (feed other : Inlet → Option Binding) : (m.fed feed).fed other = m.fed other := by
  simp [fed, Node.fed_fed, Function.comp_def]

theorem nodes_fed (feed : Inlet → Option Binding) (id : NodeId) :
    (m.fed feed).nodes[id]? = m.nodes[id]?.map fun node => node.fed fun port => feed ⟨id, port⟩ :=
  Array.getElem?_mapIdx

theorem binding_eq_of_node {inlet : Inlet} {node : Node} (found : m.nodes[inlet.node]? = some node) :
    m.binding? inlet = node.binding? inlet.port := by
  rw [binding?, input_eq_of_node found, Node.binding?]

theorem fed_self (m : Module) : m.fed m.binding? = m := by
  have same : (m.fed m.binding?).nodes = m.nodes := by
    refine Array.ext_getElem? fun id => ?_
    rw [nodes_fed]
    cases found : m.nodes[id]? with
    | none => rfl
    | some node =>
        have here : (fun port => m.binding? ⟨id, port⟩) = node.binding? := funext fun port => binding_eq_of_node found
        rw [Option.map_some, here, Node.fed_self]
  exact congrArg (fun nodes => { m with nodes := nodes }) same

-- A module is what it is without its feeds, and what feeds it.
theorem fed_of_bare {other : Module} {feed : Inlet → Option Binding} (same : m.bare = other.bare)
    (fed : ∀ inlet, m.binding? inlet = feed inlet) : other.fed feed = m := by
  rw [← fed_fed other fun _ => none, ← funext fed]
  change other.bare.fed m.binding? = m
  rw [← same]
  exact (fed_fed m _ _).trans (fed_self m)

theorem bare_modify {id : NodeId} {change other : Node → Node} (each : ∀ node, (change node).bare = other node.bare) :
    (modifyNode id change m).bare = modifyNode id other m.bare := by
  have same : (modifyNode id change m).bare.nodes = (modifyNode id other m.bare).nodes := by
    refine Array.ext_getElem? fun query => ?_
    rw [bare, nodes_fed, nodes_modify, nodes_modify, bare, nodes_fed]
    split
    · cases m.nodes[query]? with
      | none => rfl
      | some node => exact congrArg some (each node)
    · rfl
  exact congrArg (fun nodes => { m with nodes := nodes }) same

-- What feeds an input does not show in the module without its feeds.
theorem bare_bind (inlet : Inlet) (binding : Binding) :
    (bind inlet binding m).bare = modifyNode inlet.node (Node.modifyInput inlet.port id) m.bare :=
  bare_modify (Node.bare_modify_input (fun _ => rfl) inlet.port)

theorem bare_unbind (inlet : Inlet) :
    (unbind inlet m).bare = modifyNode inlet.node (Node.modifyInput inlet.port id) m.bare :=
  bare_modify (Node.bare_modify_input (fun _ => rfl) inlet.port)

end Module

end Dataflow
