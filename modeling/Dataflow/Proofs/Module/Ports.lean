import Dataflow.Proofs.Module.Shape
set_option autoImplicit false

-- Ports through their look-ups: what a change of one port leaves of all others.
namespace Dataflow.Module

theorem input_eq_of_node {m : Module} {inlet : Inlet} {node : Node}
    (found : m.nodes[inlet.node]? = some node) : m.input? inlet = node.inputs.get? inlet.port := by
  simp [input?, found]

theorem output_eq_of_node {m : Module} {outlet : Outlet} {node : Node}
    (found : m.nodes[outlet.node]? = some node) :
    m.output? outlet = node.outputs.get? outlet.port := by
  simp [output?, found]

theorem binding_eq_of_input {m changed : Module} {inlet : Inlet}
    (same : changed.input? inlet = m.input? inlet) : changed.binding? inlet = m.binding? inlet := by
  rw [binding?, binding?, same]

theorem lt_size_of_binding {m : Module} {inlet : Inlet} {binding : Binding}
    (bound : m.binding? inlet = some binding) : inlet.node < m.nodes.size := by
  cases found : m.nodes[inlet.node]? with
  | some node => exact exists_node_iff.mp ⟨node, found⟩
  | none => simp [binding?, input?, found] at bound

theorem lt_size_of_output {m : Module} {outlet : Outlet} (declared : (m.output? outlet).isSome) :
    outlet.node < m.nodes.size := by
  cases found : m.nodes[outlet.node]? with
  | some node => exact exists_node_iff.mp ⟨node, found⟩
  | none => simp [output?, found] at declared

section Modify
variable (m : Module) (id port : Nat)

theorem input_modify_input (change : Input → Input) (bound : id < m.nodes.size) (inlet : Inlet) :
    (modifyNode id (Node.modifyInput port change) m).input? inlet =
      if inlet = ⟨id, port⟩ then some (change ((m.input? inlet).getD {})) else m.input? inlet := by
  obtain ⟨node, found⟩ := exists_node_iff.mpr bound
  obtain ⟨other, number⟩ := inlet
  simp only [input?, nodes_modify, Inlet.mk.injEq]
  by_cases same : other = id
  · subst same
    rw [if_pos rfl, found]
    simp only [Option.map_some, Option.bind_some, Node.modifyInput, SortedMap.get?_update, true_and]
    by_cases equal : number = port
    · rw [if_pos equal, if_pos equal, equal]
    · rw [if_neg equal, if_neg equal]
  · rw [if_neg same, if_neg fun both => same both.1]

theorem output_modify_output (change : Output → Output) (bound : id < m.nodes.size)
    (outlet : Outlet) :
    (modifyNode id (Node.modifyOutput port change) m).output? outlet =
      if outlet = ⟨id, port⟩ then some (change ((m.output? outlet).getD {}))
      else m.output? outlet := by
  obtain ⟨node, found⟩ := exists_node_iff.mpr bound
  obtain ⟨other, number⟩ := outlet
  simp only [output?, nodes_modify, Outlet.mk.injEq]
  by_cases same : other = id
  · subst same
    rw [if_pos rfl, found]
    simp only [Option.map_some, Option.bind_some, Node.modifyOutput, SortedMap.get?_update, true_and]
    by_cases equal : number = port
    · rw [if_pos equal, if_pos equal, equal]
    · rw [if_neg equal, if_neg equal]
  · rw [if_neg same, if_neg fun both => same both.1]

theorem input_modify (change : Node → Node) (inputs : ∀ node, (change node).inputs = node.inputs)
    (inlet : Inlet) : (modifyNode id change m).input? inlet = m.input? inlet := by
  simp only [input?, nodes_modify]
  split
  · cases m.nodes[inlet.node]? <;> simp [inputs]
  · rfl

theorem output_modify (change : Node → Node)
    (outputs : ∀ node, (change node).outputs = node.outputs) (outlet : Outlet) :
    (modifyNode id change m).output? outlet = m.output? outlet := by
  simp only [output?, nodes_modify]
  split
  · cases m.nodes[outlet.node]? <;> simp [outputs]
  · rfl

end Modify

theorem modify_twice {m : Module} (id : NodeId) (first second : Node → Node) :
    modifyNode id second (modifyNode id first m) = modifyNode id (second ∘ first) m := by
  have same : (m.nodes.modify id first).modify id second = m.nodes.modify id (second ∘ first) := by
    refine Array.ext_getElem? fun query => ?_
    simp only [Array.getElem?_modify]
    split <;> simp
  simp [modifyNode, same]

theorem modify_apart {m : Module} {id other : NodeId} (apart : id ≠ other) (first second : Node → Node) :
    modifyNode id first (modifyNode other second m) = modifyNode other second (modifyNode id first m) := by
  have same : (m.nodes.modify other second).modify id first = (m.nodes.modify id first).modify other second := by
    refine Array.ext_getElem? fun query => ?_
    simp only [Array.getElem?_modify]
    split <;> split <;> simp_all
  simp [modifyNode, same]

/-! ### Binding a port -/

theorem bind_again (inlet : Inlet) (binding : Binding) (m : Module) :
    bind inlet binding (unbind inlet m) = bind inlet binding m := by
  unfold bind unbind
  rw [modify_twice]
  congr 1
  funext node
  simp only [Function.comp, Node.modifyInput, SortedMap.update_twice]
  rfl

-- Inputs and outputs are apart, also those of one node.
theorem bind_with_output (inlet : Inlet) (binding : Binding) (outlet : Outlet) (change : Output → Output) (m : Module) :
    bind inlet binding (modifyNode outlet.node (Node.modifyOutput outlet.port change) m) =
      modifyNode outlet.node (Node.modifyOutput outlet.port change) (bind inlet binding m) := by
  unfold bind
  by_cases same : inlet.node = outlet.node
  · rw [same, modify_twice, modify_twice]
    rfl
  · exact modify_apart same _ _

section Bind
variable {m : Module} {target : Inlet}

theorem input_bind (binding : Binding) (inside : target.node < m.nodes.size) (inlet : Inlet) :
    (bind target binding m).input? inlet =
      if inlet = target then some { (m.input? inlet).getD {} with binding := some binding }
      else m.input? inlet :=
  input_modify_input m target.node target.port _ inside inlet

theorem binding_bind (binding : Binding) (inside : target.node < m.nodes.size) (inlet : Inlet) :
    (bind target binding m).binding? inlet =
      if inlet = target then some binding else m.binding? inlet := by
  simp only [binding?, input_bind binding inside]
  split <;> rfl

theorem output_bind (binding : Binding) (outlet : Outlet) :
    (bind target binding m).output? outlet = m.output? outlet :=
  output_modify m target.node
    (Node.modifyInput target.port fun input => { input with binding := some binding })
    (fun _ => rfl) outlet

theorem nodes_connect (source : Outlet) :
    (connect source target m).nodes =
      (modifyNode source.node (Node.modifyOutput source.port id)
        (bind target (.wire source m.stamp) m)).nodes := rfl

theorem input_connect (source : Outlet) (inside : target.node < m.nodes.size) (inlet : Inlet) :
    (connect source target m).input? inlet =
      if inlet = target then
        some { (m.input? inlet).getD {} with binding := some (.wire source m.stamp) }
      else m.input? inlet := by
  have declared := input_modify (bind target (.wire source m.stamp) m) source.node
    (Node.modifyOutput source.port id) (fun _ => rfl) inlet
  rw [← input_bind (.wire source m.stamp) inside, ← declared]
  simp only [input?, nodes_connect]

theorem binding_connect (source : Outlet) (inside : target.node < m.nodes.size) (inlet : Inlet) :
    (connect source target m).binding? inlet =
      if inlet = target then some (.wire source m.stamp) else m.binding? inlet := by
  simp only [binding?, input_connect source inside]
  split <;> rfl

theorem output_connect (source outlet : Outlet) (inside : source.node < m.nodes.size) :
    (connect source target m).output? outlet =
      if outlet = source then some ((m.output? outlet).getD {}) else m.output? outlet := by
  have bound : source.node < (bind target (.wire source m.stamp) m).nodes.size := by
    rw [(same_shape_bind target (.wire source m.stamp) m).size]
    exact inside
  have declared := output_modify_output _ source.node source.port id bound outlet
  rw [output_bind] at declared
  refine Eq.trans ?_ declared
  simp only [output?, nodes_connect]

@[simp] theorem stamp_connect (source : Outlet) : (connect source target m).stamp = m.stamp + 1 := rfl

@[simp] theorem types_connect (source : Outlet) : (connect source target m).types = m.types := rfl

@[simp] theorem pragmas_connect (source : Outlet) :
    (connect source target m).pragmas = m.pragmas := rfl

@[simp] theorem pragmas_bind (binding : Binding) : (bind target binding m).pragmas = m.pragmas := rfl

@[simp] theorem stamp_bind (binding : Binding) : (bind target binding m).stamp = m.stamp := rfl

@[simp] theorem types_bind (binding : Binding) : (bind target binding m).types = m.types := rfl

end Bind

/-! ### Changes that bind nothing -/

-- Types and pragmas may change, and ports may be added.
structure Calm (m changed : Module) : Prop where
  shape : SameShape m changed
  stamp : changed.stamp = m.stamp
  binding : ∀ inlet, changed.binding? inlet = m.binding? inlet
  declared : ∀ outlet, (m.output? outlet).isSome → (changed.output? outlet).isSome

theorem Calm.refl (m : Module) : Calm m m :=
  ⟨.refl m, rfl, fun _ => rfl, fun _ => id⟩

theorem Calm.trans {first second third : Module} (here : Calm first second) (later : Calm second third) :
    Calm first third :=
  ⟨here.shape.trans later.shape, later.stamp.trans here.stamp,
    fun inlet => (later.binding inlet).trans (here.binding inlet),
    fun outlet found => later.declared outlet (here.declared outlet found)⟩

-- The ports that are added are numbered from 1.
structure Quiet (m changed : Module) : Prop extends Calm m changed where
  inputs : ∀ inlet, (changed.input? inlet).isSome → (m.input? inlet).isSome ∨ 1 ≤ inlet.port
  outputs : ∀ outlet, (changed.output? outlet).isSome → (m.output? outlet).isSome ∨ 1 ≤ outlet.port

namespace Quiet

theorem refl (m : Module) : Quiet m m :=
  ⟨.refl m, fun _ => .inl, fun _ => .inl⟩

theorem trans (first second third : Module) (here : Quiet first second)
    (later : Quiet second third) : Quiet first third := by
  refine ⟨here.toCalm.trans later.toCalm, ?_, ?_⟩
  · intro inlet found
    rcases later.inputs inlet found with before | numbered
    · exact here.inputs inlet before
    · exact .inr numbered
  · intro outlet found
    rcases later.outputs outlet found with before | numbered
    · exact here.outputs outlet before
    · exact .inr numbered

theorem of_types (m : Module) (types : TypeTable) : Quiet m { m with types := types } :=
  ⟨⟨same_shape_types m types, rfl, fun _ => rfl, fun _ => id⟩, fun _ => .inl, fun _ => .inl⟩

theorem of_pragmas (m : Module) (pragmas : SortedMap Char String) :
    Quiet m { m with pragmas := pragmas } :=
  ⟨⟨⟨rfl, rfl, fun _ => rfl, fun _ => rfl, fun _ => rfl, fun _ => rfl⟩, rfl, fun _ => rfl, fun _ => id⟩,
    fun _ => .inl, fun _ => .inl⟩

theorem of_node_pragmas (m : Module) (id : NodeId) (pragmas : Pragmas) :
    Quiet m (setNodePragmas id pragmas m) := by
  have inputs := input_modify m id (fun node => { node with pragmas := pragmas }) fun _ => rfl
  have outputs := output_modify m id (fun node => { node with pragmas := pragmas }) fun _ => rfl
  refine ⟨⟨same_shape_modify _ _ (fun _ => rfl) (fun _ => rfl) (fun _ => rfl) (fun _ => rfl), rfl,
    fun inlet => binding_eq_of_input (inputs inlet), ?_⟩, ?_, ?_⟩
  · exact fun outlet found => by rw [setNodePragmas, outputs outlet]; exact found
  · exact fun inlet found => .inl (by rw [← inputs inlet]; exact found)
  · exact fun outlet found => .inl (by rw [← outputs outlet]; exact found)

theorem modify_of_size {id : NodeId} {change : Node → Node} {m : Module}
    (beyond : ¬ id < m.nodes.size) : modifyNode id change m = m := by
  have same : m.nodes.modify id change = m.nodes := by
    refine Array.ext_getElem? fun query => ?_
    rw [Array.getElem?_modify]
    split
    · rename_i equal
      rw [← equal, Array.getElem?_eq_none (Nat.le_of_not_lt beyond)]
      rfl
    · rfl
  simp [modifyNode, same]

theorem of_input (m : Module) (inlet : Inlet) (numbered : 1 ≤ inlet.port) {change : Input → Input}
    (binding : ∀ input, (change input).binding = input.binding) :
    Quiet m (modifyNode inlet.node (Node.modifyInput inlet.port change) m) := by
  by_cases inside : inlet.node < m.nodes.size
  · have inputs := input_modify_input m inlet.node inlet.port change inside
    have outputs := output_modify m inlet.node (Node.modifyInput inlet.port change) fun _ => rfl
    refine ⟨⟨same_shape_modify _ _ (fun _ => rfl) (fun _ => rfl) (fun _ => rfl) (fun _ => rfl), rfl,
      ?_, ?_⟩, ?_, ?_⟩
    · intro query
      rw [binding?, binding?, inputs]
      split
      · cases m.input? query <;> simp [binding]
      · rfl
    · exact fun outlet found => by rw [outputs outlet]; exact found
    · intro query found
      rw [inputs] at found
      split at found
      · rename_i same
        rw [same]
        exact .inr numbered
      · exact .inl found
    · exact fun outlet found => .inl (by rw [← outputs outlet]; exact found)
  · rw [modify_of_size inside]
    exact .refl m

end Quiet

theorem calm_output (m : Module) (outlet : Outlet) (change : Output → Output) :
    Calm m (modifyNode outlet.node (Node.modifyOutput outlet.port change) m) := by
  by_cases inside : outlet.node < m.nodes.size
  · have outputs := output_modify_output m outlet.node outlet.port change inside
    have inputs := input_modify m outlet.node (Node.modifyOutput outlet.port change) fun _ => rfl
    refine ⟨same_shape_modify _ _ (fun _ => rfl) (fun _ => rfl) (fun _ => rfl) (fun _ => rfl), rfl,
      fun query => binding_eq_of_input (inputs query), ?_⟩
    intro query found
    rw [outputs]
    split
    · rfl
    · exact found
  · rw [Quiet.modify_of_size inside]
    exact .refl m

theorem Quiet.of_output (m : Module) (outlet : Outlet) (numbered : 1 ≤ outlet.port)
    (change : Output → Output) :
    Quiet m (modifyNode outlet.node (Node.modifyOutput outlet.port change) m) := by
  refine ⟨calm_output m outlet change, ?_, ?_⟩
  · have inputs := input_modify m outlet.node (Node.modifyOutput outlet.port change) fun _ => rfl
    exact fun query found => .inl (by rw [← inputs query]; exact found)
  · intro query found
    by_cases inside : outlet.node < m.nodes.size
    · rw [output_modify_output m outlet.node outlet.port change inside] at found
      split at found
      · rename_i same
        rw [same]
        exact .inr numbered
      · exact .inl found
    · rw [modify_of_size inside] at found
      exact .inl found

end Dataflow.Module
