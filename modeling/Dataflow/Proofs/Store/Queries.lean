import Dataflow.Proofs.Store.Feeds
set_option autoImplicit false

-- Whatever the requests look up is the same in a store and in the module that it shows, but for what
-- feeds the inputs of a node.
namespace Dataflow.Store
open Dataflow.Module

-- Nodes that differ in their feeds at most.
def Twins (held shown : Node) : Prop :=
  held.bare = shown.bare

namespace Twins

variable {held shown : Node} (twins : Twins held shown)
include twins

theorem role : held.role = shown.role := by
  have same := congrArg Node.role twins
  exact same

theorem opcode : held.opcode = shown.opcode := by
  have same := congrArg Node.opcode twins
  exact same

theorem outputs : held.outputs = shown.outputs := by
  have same := congrArg Node.outputs twins
  exact same

theorem children : held.children = shown.children := by
  have same := congrArg Node.children twins
  exact same

theorem nodes : held.nodes = shown.nodes := by
  have same := congrArg Node.nodes twins
  exact same

theorem pragmas : held.pragmas = shown.pragmas := by
  have same := congrArg Node.pragmas twins
  exact same

theorem keys : held.inputs.keys = shown.inputs.keys := by
  have same := congrArg (fun node : Node => node.inputs.keys) twins
  simpa [Node.bare, Node.fed, SortedMap.keys, SortedMap.mapValues, Function.comp_def] using same

theorem notes (port : Nat) : (held.inputs.get? port).map Input.pragmas = (shown.inputs.get? port).map Input.pragmas := by
  have same := congrArg (fun node : Node => (node.inputs.get? port).map Input.pragmas) twins
  simpa [Node.bare, Node.fed, Function.comp_def] using same

theorem isGraph : held.isGraph = shown.isGraph := by
  rw [Node.isGraph, Node.isGraph, twins.role]

end Twins

namespace Shows

variable {s : Store} {m : Module} (shows_ : Shows s m)
include shows_

theorem cases (id : NodeId) : (s.frame.nodes[id]? = none ∧ m.nodes[id]? = none) ∨
    ∃ held shown, s.frame.nodes[id]? = some held ∧ m.nodes[id]? = some shown ∧ Twins held shown := by
  have same := shows_.node id
  cases here : s.frame.nodes[id]? with
  | none =>
      rw [here] at same
      exact .inl ⟨rfl, Option.map_eq_none_iff.mp same⟩
  | some held =>
      rw [here] at same
      obtain ⟨shown, there, twins⟩ := Option.map_eq_some_iff.mp same
      exact .inr ⟨held, shown, rfl, there, twins.symm⟩

theorem agree_node (id : NodeId) : Agree Twins (s.frame.node id) (m.node id) := by
  unfold Module.node
  rcases shows_.cases id with ⟨here, there⟩ | ⟨held, shown, here, there, twins⟩
  · rw [here, there]
    exact .error rfl rfl
  · rw [here, there]
    exact .ok rfl rfl twins

theorem agree_graph (id : NodeId) : Agree Twins (s.frame.graph id) (m.graph id) := by
  refine (shows_.agree_node id).bind fun {held shown} twins => ?_
  rw [twins.isGraph]
  split
  · exact .ok rfl rfl twins
  · exact .error rfl rfl

theorem scope (id : NodeId) : s.frame.scopeOf id = m.scopeOf id := by
  refine Agree.eq ((shows_.agree_node id).bind fun {held shown} twins => ?_)
  rw [twins.role]
  exact .of_eq rfl

theorem function_name (id : NodeId) : s.frame.functionName id = m.functionName id := by
  refine Agree.eq ((shows_.agree_node id).bind fun {held shown} twins => ?_)
  rw [Node.functionName?, Node.functionName?, twins.role]
  exact .of_eq rfl

theorem output (outlet : Outlet) : s.frame.output? outlet = m.output? outlet := by
  unfold output?
  rcases shows_.cases outlet.node with ⟨here, there⟩ | ⟨held, shown, here, there, twins⟩
  · rw [here, there]
  · rw [here, there, Option.bind_some, Option.bind_some, twins.outputs]

theorem output_type (outlet : Outlet) : s.frame.outputType? outlet = m.outputType? outlet := by
  rw [outputType?, outputType?, shows_.output]

theorem input_type (inlet : Inlet) : s.inputType? inlet = m.inputType? inlet := by
  unfold inputType? Module.inputType?
  rw [shows_.binding]
  rcases s.binding? inlet with _ | ⟨_⟩ | ⟨source, _⟩
  · rfl
  · rfl
  · exact shows_.output_type source

theorem input_pragmas (inlet : Inlet) :
    ((s.frame.input? inlet).getD {}).pragmas = ((m.input? inlet).getD {}).pragmas := by
  have same : (s.frame.input? inlet).map Input.pragmas = (m.input? inlet).map Input.pragmas := by
    unfold input?
    rcases shows_.cases inlet.node with ⟨here, there⟩ | ⟨held, shown, here, there, twins⟩
    · rw [here, there]
    · rw [here, there]
      exact twins.notes inlet.port
  cases here : s.frame.input? inlet <;> cases there : m.input? inlet <;> simp_all

theorem port (inlet : Inlet) : (s.frame.input? inlet).isSome = (m.input? inlet).isSome := by
  unfold input?
  rcases shows_.cases inlet.node with ⟨here, there⟩ | ⟨held, shown, here, there, twins⟩
  · rw [here, there]
  · rw [here, there, Option.bind_some, Option.bind_some, Bool.eq_iff_iff, ← SortedMap.mem_keys_iff,
      ← SortedMap.mem_keys_iff, twins.keys]

theorem crossings (outer : NodeId) (steps : Nat) (scope : NodeId) :
    s.frame.crossings? outer steps scope = m.crossings? outer steps scope := by
  induction steps generalizing scope with
  | zero => rfl
  | succ steps ih =>
      have role : s.frame.nodes[scope]?.map Node.role = m.nodes[scope]?.map Node.role := (shows_.role scope).symm
      unfold crossings?
      simp only [role, shows_.scope, ih]

theorem top_port (compound : NodeId) : s.frame.topPort compound = m.topPort compound := by
  have outputs : ∀ child, s.frame.nodes[child]?.map Node.maxOutput = m.nodes[child]?.map Node.maxOutput :=
    fun child => (shows_.read (fun _ => rfl) child).symm
  unfold topPort
  rcases shows_.cases compound with ⟨here, there⟩ | ⟨held, shown, here, there, twins⟩
  · rw [here, there]
  · have top : held.maxInput = shown.maxInput := by
      rw [Node.maxInput, Node.maxInput, SortedMap.lastKey?, SortedMap.lastKey?, twins.keys]
    rw [here, there]
    simp only [outputs, top, Node.distinctChildren, twins.children]

theorem free_port (compound : NodeId) : s.frame.freePort compound = m.freePort compound := by
  rw [freePort, freePort, shows_.top_port]

theorem results {id : NodeId} {held shown : Node} (twins : Twins held shown) :
    resultsIn s id held = resultsIn m id shown := by
  unfold resultsIn
  rw [twins.keys]
  congr 1
  funext port
  exact shows_.input_type ⟨id, port⟩

end Shows

theorem gaps_of_twins {held shown : Node} (twins : Twins held shown) : argumentGaps held = argumentGaps shown := by
  unfold argumentGaps Node.outputType?
  rw [twins.outputs]

end Dataflow.Store
