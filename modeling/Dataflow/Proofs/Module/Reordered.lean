import Mathlib.Logic.Equiv.Defs
import Dataflow.Proofs.Module.Copying
import Dataflow.Proofs.Places
set_option autoImplicit false

-- Modules that tell their nodes apart in the same way but list them in other orders, and orders in which
-- nodes come after what they read.
namespace Dataflow

namespace Supply

theorem renumber_undone {number back : NodeId → NodeId} (undone : Function.LeftInverse back number) (supply : Supply) :
    (supply.renumber number id).renumber back id = supply := by
  cases supply with
  | literal literal => simp [renumber]
  | wire source => simp [renumber, Outlet.renumber, undone source.node]

end Supply

namespace Role

theorem renumber_undone {number back : NodeId → NodeId} (undone : Function.LeftInverse back number) (role : Role) :
    (role.renumber number).renumber back = role := by
  cases role with
  | function name => rfl
  | subgraph compound => rw [renumber, renumber, undone compound]
  | node graph => rw [renumber, renumber, undone graph]

end Role

def Input.Twin (number : NodeId → NodeId) (input twin : Input) : Prop :=
  twin.binding.map Binding.supply = input.binding.map fun binding => binding.supply.renumber number id

instance (number : NodeId → NodeId) (input twin : Input) : Decidable (input.Twin number twin) :=
  inferInstanceAs (Decidable (_ = _))

def Input.TwinAt (number : NodeId → NodeId) (entry twin : Nat × Input) : Prop :=
  twin.1 = entry.1 ∧ entry.2.Twin number twin.2

instance (number : NodeId → NodeId) (entry twin : Nat × Input) : Decidable (Input.TwinAt number entry twin) :=
  inferInstanceAs (Decidable (_ ∧ _))

-- The same node under another id and with other pragmas, which may list its nodes in another order.
structure Node.Rearranged (number : NodeId → NodeId) (node twin : Node) : Prop where
  opcode : twin.opcode = node.opcode
  role : twin.role = node.role.renumber number
  inputs : List.Forall₂ (Input.TwinAt number) node.inputs.entries twin.inputs.entries
  outputs : twin.outputs = node.outputs
  children : twin.children = node.children.map number
  nodes : twin.nodes.Perm (node.nodes.map number)

instance (number : NodeId → NodeId) (node twin : Node) : Decidable (node.Rearranged number twin) :=
  decidable_of_iff (twin.opcode = node.opcode ∧ twin.role = node.role.renumber number ∧
      List.Forall₂ (Input.TwinAt number) node.inputs.entries twin.inputs.entries ∧ twin.outputs = node.outputs ∧
      twin.children = node.children.map number ∧ twin.nodes.Perm (node.nodes.map number))
    ⟨fun ⟨opcode, role, inputs, outputs, children, nodes⟩ => ⟨opcode, role, inputs, outputs, children, nodes⟩,
      fun ⟨opcode, role, inputs, outputs, children, nodes⟩ => ⟨opcode, role, inputs, outputs, children, nodes⟩⟩

-- Where each wire into a node comes from.
def Node.sources (node : Node) : List Outlet :=
  node.inputs.entries.filterMap fun entry => entry.2.source?

namespace Module

-- Modules that differ in the order of the nodes of their graphs. They may also have other ids for their nodes,
-- as ids tell the order in which nodes were added; the same ids are the case of the identity.
structure Reordered (m other : Module) (number : NodeId ≃ NodeId) : Prop where
  inside : ∀ id, number id < other.nodes.size ↔ id < m.nodes.size
  node : ∀ {id node}, m.nodes[id]? = some node →
    ∃ twin, other.nodes[number id]? = some twin ∧ node.Rearranged number twin
  types : other.types = m.types
  functions : other.functions = m.functions.map number

-- Every wire between two nodes of one graph goes from the one that is listed earlier.
def FrontToBack (m : Module) : Prop :=
  ∀ graph < m.nodes.size, ∀ id ∈ m.nodesOf graph, ∀ node ∈ m.nodes[id]?, ∀ source ∈ node.sources,
    source.node ∈ m.nodesOf graph → (m.nodesOf graph).idxOf source.node < (m.nodesOf graph).idxOf id

instance (m : Module) : Decidable m.FrontToBack :=
  inferInstanceAs (Decidable (∀ graph < m.nodes.size, _))

-- No graph lists a node twice or itself.
def Lists (m : Module) : Prop :=
  ∀ graph, (m.nodesOf graph).Nodup ∧ graph ∉ m.nodesOf graph

theorem lists_of_owned {m : Module} (owned : m.Owned) : m.Lists := by
  refine fun graph => ⟨owned.once graph, fun member => ?_⟩
  have before := (owned.held (owned.listed member)).1
  exact Nat.lt_irrefl _ before

end Module

theorem Input.Twin.source {number : NodeId → NodeId} {input twin : Input} (same : input.Twin number twin) :
    twin.source? = input.source?.map (Outlet.renumber number) := by
  unfold Input.Twin at same
  unfold Input.source?
  rcases here : input.binding with _ | ⟨literal⟩ | ⟨source, stamp⟩ <;>
    rcases there : twin.binding with _ | ⟨twin⟩ | ⟨other, later⟩ <;> rw [here, there] at same <;>
      simp_all [Binding.supply, Supply.renumber]

theorem Node.Rearranged.sources {number : NodeId → NodeId} {node twin : Node} (same : node.Rearranged number twin) :
    twin.sources = node.sources.map (Outlet.renumber number) := by
  unfold Node.sources
  have inputs := same.inputs
  generalize node.inputs.entries = entries, twin.inputs.entries = others at inputs
  induction inputs with
  | nil => rfl
  | cons first _ ih =>
      rw [List.filterMap_cons, List.filterMap_cons, ih, first.2.source]
      cases Input.source? _ <;> rfl

theorem Node.Rearranged.max_output {number : NodeId → NodeId} {node twin : Node}
    (same : node.Rearranged number twin) : twin.maxOutput = node.maxOutput := by
  unfold Node.maxOutput
  rw [same.outputs]

/-! ### There and back -/

section Back
variable {number : NodeId ≃ NodeId}

theorem Input.Twin.symm {input twin : Input} (same : input.Twin number twin) : twin.Twin number.symm input := by
  have back := congrArg (Option.map fun supply => supply.renumber number.symm id) same
  rw [Option.map_map, Option.map_map] at back
  refine Eq.trans (Option.map_congr fun binding _ => ?_) back.symm
  exact (Supply.renumber_undone number.symm_apply_apply binding.supply).symm

theorem Input.TwinAt.symm {entry twin : Nat × Input} (same : Input.TwinAt number entry twin) :
    Input.TwinAt number.symm twin entry :=
  ⟨same.1.symm, same.2.symm⟩

theorem map_undone (ids : List NodeId) : (ids.map number).map number.symm = ids := by
  rw [List.map_map, number.symm_comp_self, List.map_id]

-- The order in which the other module lists the nodes, by their ids in the first one.
theorem Node.Rearranged.order {node twin : Node} (same : node.Rearranged number twin) :
    ∃ order : List NodeId, twin.nodes = order.map number ∧ order.Perm node.nodes := by
  refine ⟨twin.nodes.map number.symm, ?_, ?_⟩
  · rw [List.map_map, number.self_comp_symm, List.map_id]
  · have back := same.nodes.map number.symm
    rw [map_undone] at back
    exact back

theorem Node.Rearranged.symm {node twin : Node} (same : node.Rearranged number twin) :
    twin.Rearranged number.symm node := by
  refine ⟨same.opcode.symm, ?_, ?_, same.outputs.symm, ?_, ?_⟩
  · rw [same.role, Role.renumber_undone number.symm_apply_apply]
  · exact (same.inputs.imp fun _ _ => Input.TwinAt.symm).flip
  · rw [same.children, map_undone]
  · obtain ⟨order, listed, among⟩ := same.order
    rw [listed, map_undone]
    exact among.symm

end Back

namespace Module.Reordered
variable {m other : Module} {number : NodeId ≃ NodeId}

theorem twin (reordered : m.Reordered other number) {id : NodeId} {twin : Node}
    (there : other.nodes[number id]? = some twin) :
    ∃ node, m.nodes[id]? = some node ∧ node.Rearranged number twin := by
  obtain ⟨node, here⟩ := exists_node_iff.mpr ((reordered.inside id).mp (exists_node_iff.mp ⟨twin, there⟩))
  obtain ⟨_, thereToo, same⟩ := reordered.node here
  cases there.symm.trans thereToo
  exact ⟨node, here, same⟩

theorem symm (reordered : m.Reordered other number) : other.Reordered m number.symm := by
  refine ⟨fun id => ?_, fun {id twin} there => ?_, reordered.types.symm, ?_⟩
  · rw [← reordered.inside, number.apply_symm_apply]
  · rw [← number.apply_symm_apply id] at there
    obtain ⟨node, here, same⟩ := reordered.twin there
    exact ⟨node, here, same.symm⟩
  · rw [reordered.functions, map_undone]

theorem lists (reordered : m.Reordered other number) (lists : m.Lists) : other.Lists := by
  intro graph
  cases there : other.nodes[graph]? with
  | none => simp [nodesOf, there]
  | some twin =>
      obtain ⟨node, here, same⟩ := reordered.symm.node there
      obtain ⟨once, outside⟩ := lists (number.symm graph)
      have nodes : m.nodesOf (number.symm graph) = node.nodes := by simp [nodesOf, here]
      have nodesToo : other.nodesOf graph = twin.nodes := by simp [nodesOf, there]
      rw [nodes] at once outside
      rw [nodesToo]
      refine ⟨(same.nodes.nodup_iff.mp once).of_map _, fun member => outside ?_⟩
      exact same.nodes.mem_iff.mpr (List.mem_map_of_mem member)

-- What a node reads has had its turn in the other module, too.
theorem produced_before (reordered : m.Reordered other number) (front : other.FrontToBack) (lists : other.Lists)
    {graph id : NodeId} {node : Node} {source : Outlet} {before after : List NodeId}
    (listed : other.nodesOf (number graph) = (before ++ id :: after).map number) (found : m.nodes[id]? = some node)
    (read : source ∈ node.sources) (within : source.node ∈ before ++ id :: after) : source.node ∈ before := by
  obtain ⟨twin, there, same⟩ := reordered.node found
  have once := (lists (number graph)).1
  have member : number id ∈ other.nodesOf (number graph) := by
    rw [listed]
    exact List.mem_map_of_mem (List.mem_append_right _ List.mem_cons_self)
  have inside : number graph < other.nodes.size := by
    refine Nat.lt_of_not_le fun beyond => ?_
    rw [nodes_of_size beyond] at member
    cases member
  have earlier := front (number graph) inside (number id) member twin there (source.renumber number)
    (by rw [same.sources]; exact List.mem_map_of_mem read) (by rw [listed]; exact List.mem_map_of_mem within)
  rw [listed, List.map_append, List.map_cons] at once earlier
  exact (List.mem_map_of_injective number.injective).mp (Places.mem_of_idx_lt once earlier)

end Module.Reordered

end Dataflow
