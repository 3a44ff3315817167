import Dataflow.Proofs.Module.Shape
set_option autoImplicit false

-- The ownership forest: every node lies in one graph, every child graph in one compound, and
-- functions are the roots. Owners come before what they own.
namespace Dataflow.Module

def IsGraph (m : Module) (id : NodeId) : Prop :=
  ∃ role, m.role? id = some role ∧ ∀ graph, role ≠ .node graph

structure Owned (m : Module) : Prop where
  held : ∀ {id graph}, m.role? id = some (.node graph) →
    graph < id ∧ m.IsGraph graph ∧ id ∈ m.nodesOf graph
  listed : ∀ {id graph}, id ∈ m.nodesOf graph → m.role? id = some (.node graph)
  once : ∀ graph, (m.nodesOf graph).Nodup
  inside : ∀ {id compound}, m.role? id = some (.subgraph compound) →
    compound < id ∧ ∃ graph, m.role? compound = some (.node graph)
  child : ∀ {id compound}, id ∈ m.childrenOf compound → m.role? id = some (.subgraph compound)
  registered : ∀ {id}, id ∈ m.functions ↔ ∃ name, m.role? id = some (.function name)
  inOrder : m.functions.Pairwise (· < ·)

-- Holds as long as no child graph is taken from its compound's list.
def Complete (m : Module) : Prop :=
  ∀ {id compound}, m.role? id = some (.subgraph compound) → id ∈ m.childrenOf compound

namespace Owned

theorem of_same_shape {m changed : Module} (same : SameShape m changed) (owned : m.Owned) :
    changed.Owned := by
  constructor
  · intro id graph found
    rw [same.role] at found
    obtain ⟨before, ⟨role, here, isGraph⟩, member⟩ := owned.held found
    exact ⟨before, ⟨role, by rw [same.role]; exact here, isGraph⟩, by rw [same.nodes]; exact member⟩
  · intro id graph member
    rw [same.nodes] at member
    rw [same.role]
    exact owned.listed member
  · intro graph
    rw [same.nodes]
    exact owned.once graph
  · intro id compound found
    rw [same.role] at found
    rw [same.role]
    exact owned.inside found
  · intro id compound member
    rw [same.children] at member
    rw [same.role]
    exact owned.child member
  · intro id
    rw [same.functions, same.role]
    exact owned.registered
  · rw [same.functions]
    exact owned.inOrder

end Owned

theorem complete_of_same_shape {m changed : Module} (same : SameShape m changed)
    (complete : m.Complete) : changed.Complete := by
  intro id compound found
  rw [same.role] at found
  rw [same.children]
  exact complete found

theorem role_eq_none_of_size {m : Module} {id : NodeId} (beyond : m.nodes.size ≤ id) :
    m.role? id = none := by
  simp [role?, beyond]

theorem nodes_of_size {m : Module} {id : NodeId} (beyond : m.nodes.size ≤ id) : m.nodesOf id = [] := by
  simp [nodesOf, beyond]

theorem children_of_size {m : Module} {id : NodeId} (beyond : m.nodes.size ≤ id) :
    m.childrenOf id = [] := by
  simp [childrenOf, beyond]

/-! ### New nodes -/

-- A node that no other node refers to yet.
def pushed (node : Node) (m : Module) : Module :=
  { m with nodes := m.nodes.push node }

section Pushed
variable (node : Node) (m : Module)

theorem nodes_pushed (query : NodeId) :
    (pushed node m).nodes[query]? = if query = m.nodes.size then some node else m.nodes[query]? := by
  simp only [pushed, Array.getElem?_push]

theorem role_pushed (query : NodeId) :
    (pushed node m).role? query =
      if query = m.nodes.size then some node.role else m.role? query := by
  simp only [role?, nodes_pushed]
  split <;> rfl

theorem nodes_of_pushed (bare : node.nodes = []) (query : NodeId) :
    (pushed node m).nodesOf query = m.nodesOf query := by
  simp only [nodesOf, nodes_pushed]
  split
  · rename_i same
    simp [bare, same]
  · rfl

theorem children_of_pushed (bare : node.children = []) (query : NodeId) :
    (pushed node m).childrenOf query = m.childrenOf query := by
  simp only [childrenOf, nodes_pushed]
  split
  · rename_i same
    simp [bare, same]
  · rfl

@[simp] theorem size_pushed : (pushed node m).nodes.size = m.nodes.size + 1 := by
  simp [pushed]

end Pushed

def withFunction (op : Opcode) (name : String) (m : Module) : Module :=
  { pushed { opcode := op, role := .function name } m with functions := m.functions ++ [m.nodes.size] }

def withNode (graph : NodeId) (op : Opcode) (m : Module) : Module :=
  modifyNode graph (fun owner => { owner with nodes := owner.nodes ++ [m.nodes.size] })
    (pushed { opcode := op, role := .node graph } m)

def withGraph (compound : NodeId) (m : Module) : Module :=
  appendChild compound m.nodes.size (pushed { opcode := .xGraph, role := .subgraph compound } m)

theorem add_function_run (op : Opcode) (name : String) (m : Module) :
    addFunctionOf op name m = .ok m.nodes.size (withFunction op name m) := rfl

theorem add_node_run {graph : NodeId} {op : Opcode} {m : Module} {owner : Node}
    (found : m.graph graph = .ok owner) :
    addNode graph op m = .ok m.nodes.size (withNode graph op m) := by
  exact (Edit.bind_query_of_ok (by exact found)).trans rfl

theorem add_node_refused {graph : NodeId} {op : Opcode} {m : Module} {error : Error}
    (missing : m.graph graph = .error error) : addNode graph op m = .error error m := by
  exact Edit.bind_query_of_error (by exact missing)

theorem add_graph_run {compound : NodeId} {m : Module} {owner : Node}
    (found : m.nodes[compound]? = some owner) (plain : owner.isGraph = false) :
    addGraph compound m = .ok m.nodes.size (withGraph compound m) := by
  refine (Edit.bind_query_of_ok (by exact node_ok_iff.mpr found)).trans ?_
  simp only [plain]
  rfl

theorem add_graph_refused (compound : NodeId) (m : Module)
    (refused : ∀ owner, m.nodes[compound]? = some owner → owner.isGraph = true) :
    ∃ error, addGraph compound m = .error error m := by
  cases found : m.node compound with
  | error error => exact ⟨error, Edit.bind_query_of_error (by exact found)⟩
  | ok owner =>
      refine ⟨.invalidGraph (.ownerIsGraph compound), ?_⟩
      refine (Edit.bind_query_of_ok (by exact found)).trans ?_
      simp only [refused owner (node_ok_iff.mp found), if_true]
      rfl

/-! ### Shapes of the results -/

section Results
variable (m : Module) (query : NodeId)

theorem role_with_function (op : Opcode) (name : String) :
    (withFunction op name m).role? query =
      if query = m.nodes.size then some (.function name) else m.role? query :=
  role_pushed _ m query

theorem nodes_with_function (op : Opcode) (name : String) :
    (withFunction op name m).nodesOf query = m.nodesOf query :=
  nodes_of_pushed _ m rfl query

theorem children_with_function (op : Opcode) (name : String) :
    (withFunction op name m).childrenOf query = m.childrenOf query :=
  children_of_pushed _ m rfl query

theorem role_modify {id : NodeId} {change : Node → Node} (role : ∀ node, (change node).role = node.role) :
    (modifyNode id change m).role? query = m.role? query := by
  simp only [role?, nodes_modify]
  split
  · cases m.nodes[query]? <;> simp [role]
  · rfl

theorem role_with_node (graph : NodeId) (op : Opcode) :
    (withNode graph op m).role? query =
      if query = m.nodes.size then some (.node graph) else m.role? query := by
  rw [withNode, role_modify]
  · exact role_pushed _ m query
  · exact fun _ => rfl

theorem nodes_with_node {graph : NodeId} (op : Opcode) (bound : graph < m.nodes.size) :
    (withNode graph op m).nodesOf query =
      if query = graph then m.nodesOf query ++ [m.nodes.size] else m.nodesOf query := by
  by_cases same : query = graph
  · subst same
    have different : query ≠ m.nodes.size := Nat.ne_of_lt bound
    obtain ⟨node, found⟩ := exists_node_iff.mpr bound
    simp [nodesOf, withNode, nodes_modify, nodes_pushed, different, found]
  · rw [if_neg same, ← nodes_of_pushed { opcode := op, role := .node graph } m rfl query]
    simp [nodesOf, withNode, nodes_modify, same]

theorem children_with_node (graph : NodeId) (op : Opcode) :
    (withNode graph op m).childrenOf query = m.childrenOf query := by
  rw [← children_of_pushed { opcode := op, role := .node graph } m rfl query]
  simp only [childrenOf, withNode, nodes_modify]
  split
  · cases (pushed { opcode := op, role := .node graph } m).nodes[query]? <;> rfl
  · rfl

theorem nodes_append_child (compound child : NodeId) :
    (appendChild compound child m).nodesOf query = m.nodesOf query := by
  simp only [nodesOf, appendChild, nodes_modify]
  split
  · cases m.nodes[query]? <;> rfl
  · rfl

theorem children_append_child {compound : NodeId} (child : NodeId) (bound : compound < m.nodes.size) :
    (appendChild compound child m).childrenOf query =
      if query = compound then m.childrenOf query ++ [child] else m.childrenOf query := by
  simp only [childrenOf, appendChild, nodes_modify]
  by_cases same : query = compound
  · subst same
    obtain ⟨node, found⟩ := exists_node_iff.mpr bound
    simp [found]
  · simp [same]

theorem role_with_graph (compound : NodeId) :
    (withGraph compound m).role? query =
      if query = m.nodes.size then some (.subgraph compound) else m.role? query := by
  rw [withGraph, appendChild, role_modify]
  · exact role_pushed _ m query
  · exact fun _ => rfl

theorem nodes_with_graph (compound : NodeId) :
    (withGraph compound m).nodesOf query = m.nodesOf query := by
  rw [withGraph, nodes_append_child]
  exact nodes_of_pushed _ m rfl query

theorem children_with_graph {compound : NodeId} (bound : compound < m.nodes.size) :
    (withGraph compound m).childrenOf query =
      if query = compound then m.childrenOf query ++ [m.nodes.size] else m.childrenOf query := by
  have inside : compound < (pushed { opcode := .xGraph, role := .subgraph compound } m).nodes.size := by
    rw [size_pushed]
    exact Nat.lt_succ_of_lt bound
  rw [withGraph, children_append_child _ _ _ inside, children_of_pushed _ _ rfl]

end Results

/-! ### Preservation -/

theorem is_graph_of_role {m changed : Module} {id : NodeId}
    (same : ∀ role, m.role? id = some role → changed.role? id = some role)
    (graph : m.IsGraph id) : changed.IsGraph id := by
  obtain ⟨role, found, isGraph⟩ := graph
  exact ⟨role, same role found, isGraph⟩

theorem owned_with_function {m : Module} (op : Opcode) (name : String) (owned : m.Owned) :
    (withFunction op name m).Owned := by
  have old : ∀ id role, m.role? id = some role → (withFunction op name m).role? id = some role := by
    intro id role found
    rw [role_with_function, if_neg (Nat.ne_of_lt (lt_size_of_role found))]
    exact found
  constructor
  · intro id graph found
    rw [role_with_function] at found
    split at found
    · cases found
    · obtain ⟨before, isGraph, member⟩ := owned.held found
      exact ⟨before, is_graph_of_role (old graph) isGraph, by rw [nodes_with_function]; exact member⟩
  · intro id graph member
    rw [nodes_with_function] at member
    exact old _ _ (owned.listed member)
  · intro graph
    rw [nodes_with_function]
    exact owned.once graph
  · intro id compound found
    rw [role_with_function] at found
    split at found
    · cases found
    · obtain ⟨before, graph, plain⟩ := owned.inside found
      exact ⟨before, graph, old _ _ plain⟩
  · intro id compound member
    rw [children_with_function] at member
    exact old _ _ (owned.child member)
  · intro id
    rw [role_with_function]
    change id ∈ m.functions ++ [m.nodes.size] ↔ _
    by_cases new : id = m.nodes.size
    · simp [new]
    · simp [new, owned.registered]
  · change (m.functions ++ [m.nodes.size]).Pairwise (· < ·)
    refine List.pairwise_append.mpr ⟨owned.inOrder, by simp, ?_⟩
    intro id member other last
    obtain ⟨_, found⟩ := owned.registered.mp member
    rw [List.mem_singleton.mp last]
    exact lt_size_of_role found

theorem owned_with_node {m : Module} {graph : NodeId} (op : Opcode) (isGraph : m.IsGraph graph)
    (owned : m.Owned) : (withNode graph op m).Owned := by
  have bound : graph < m.nodes.size := by
    obtain ⟨_, found, _⟩ := isGraph
    exact lt_size_of_role found
  have old : ∀ id role, m.role? id = some role → (withNode graph op m).role? id = some role := by
    intro id role found
    rw [role_with_node, if_neg (Nat.ne_of_lt (lt_size_of_role found))]
    exact found
  constructor
  · intro id owner found
    rw [role_with_node] at found
    rw [nodes_with_node m owner op bound]
    split at found
    · rename_i new
      cases found
      subst new
      refine ⟨bound, is_graph_of_role (old graph) isGraph, ?_⟩
      simp
    · obtain ⟨before, ownerGraph, member⟩ := owned.held found
      refine ⟨before, is_graph_of_role (old owner) ownerGraph, ?_⟩
      split
      · exact List.mem_append_left _ member
      · exact member
  · intro id owner member
    rw [nodes_with_node m owner op bound] at member
    split at member
    · rename_i same
      rcases List.mem_append.mp member with member | new
      · exact old _ _ (owned.listed member)
      · rw [List.mem_singleton.mp new, role_with_node, if_pos rfl, same]
    · exact old _ _ (owned.listed member)
  · intro owner
    rw [nodes_with_node m owner op bound]
    split
    · refine List.nodup_append.mpr ⟨owned.once owner, by simp, ?_⟩
      intro id member other last
      rw [List.mem_singleton.mp last]
      exact Nat.ne_of_lt (lt_size_of_role (owned.listed member))
    · exact owned.once owner
  · intro id compound found
    rw [role_with_node] at found
    split at found
    · cases found
    · obtain ⟨before, owner, plain⟩ := owned.inside found
      exact ⟨before, owner, old _ _ plain⟩
  · intro id compound member
    rw [children_with_node] at member
    exact old _ _ (owned.child member)
  · intro id
    rw [role_with_node]
    change id ∈ m.functions ↔ _
    by_cases new : id = m.nodes.size
    · rw [owned.registered]
      simp [new, role_eq_none_of_size]
    · rw [owned.registered, if_neg new]
  · exact owned.inOrder

theorem owned_append_child {m : Module} {compound child : NodeId}
    (role : m.role? child = some (.subgraph compound)) (bound : compound < m.nodes.size)
    (owned : m.Owned) : (appendChild compound child m).Owned := by
  have same : ∀ id, (appendChild compound child m).role? id = m.role? id :=
    fun id => role_modify _ _ fun _ => rfl
  constructor
  · intro id graph found
    rw [same] at found
    obtain ⟨before, isGraph, member⟩ := owned.held found
    refine ⟨before, is_graph_of_role (fun role here => by rw [same]; exact here) isGraph, ?_⟩
    rw [nodes_append_child]
    exact member
  · intro id graph member
    rw [nodes_append_child] at member
    rw [same]
    exact owned.listed member
  · intro graph
    rw [nodes_append_child]
    exact owned.once graph
  · intro id other found
    rw [same] at found
    rw [same]
    exact owned.inside found
  · intro id other member
    rw [children_append_child _ _ _ bound] at member
    rw [same]
    split at member
    · rename_i equal
      rcases List.mem_append.mp member with member | last
      · exact owned.child member
      · rw [List.mem_singleton.mp last, equal]
        exact role
    · exact owned.child member
  · intro id
    rw [same]
    exact owned.registered
  · exact owned.inOrder

theorem owned_pushed_graph {m : Module} {compound : NodeId}
    (plain : ∃ graph, m.role? compound = some (.node graph)) (owned : m.Owned) :
    (pushed { opcode := .xGraph, role := .subgraph compound } m).Owned := by
  have old : ∀ id role, m.role? id = some role →
      (pushed { opcode := .xGraph, role := .subgraph compound } m).role? id = some role := by
    intro id role found
    rw [role_pushed, if_neg (Nat.ne_of_lt (lt_size_of_role found))]
    exact found
  constructor
  · intro id graph found
    rw [role_pushed] at found
    split at found
    · cases found
    · obtain ⟨before, isGraph, member⟩ := owned.held found
      exact ⟨before, is_graph_of_role (old graph) isGraph, by
        rw [nodes_of_pushed _ _ rfl]; exact member⟩
  · intro id graph member
    rw [nodes_of_pushed _ _ rfl] at member
    exact old _ _ (owned.listed member)
  · intro graph
    rw [nodes_of_pushed _ _ rfl]
    exact owned.once graph
  · intro id other found
    rw [role_pushed] at found
    split at found
    · rename_i new
      cases found
      obtain ⟨graph, here⟩ := plain
      exact ⟨by rw [new]; exact lt_size_of_role here, graph, old _ _ here⟩
    · obtain ⟨before, graph, here⟩ := owned.inside found
      exact ⟨before, graph, old _ _ here⟩
  · intro id other member
    rw [children_of_pushed _ _ rfl] at member
    exact old _ _ (owned.child member)
  · intro id
    rw [role_pushed]
    change id ∈ m.functions ↔ _
    by_cases new : id = m.nodes.size
    · rw [owned.registered]
      simp [new, role_eq_none_of_size]
    · rw [owned.registered, if_neg new]
  · exact owned.inOrder

theorem owned_with_graph {m : Module} {compound : NodeId}
    (plain : ∃ graph, m.role? compound = some (.node graph)) (owned : m.Owned) :
    (withGraph compound m).Owned := by
  refine owned_append_child ?_ ?_ (owned_pushed_graph plain owned)
  · rw [role_pushed, if_pos rfl]
  · obtain ⟨_, found⟩ := plain
    rw [size_pushed]
    exact Nat.lt_succ_of_lt (lt_size_of_role found)

end Dataflow.Module
