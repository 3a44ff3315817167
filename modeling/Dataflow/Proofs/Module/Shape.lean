import Mathlib.Data.List.Find
import Dataflow.Module.Wiring
import Dataflow.Proofs.Edit
import Dataflow.Proofs.SortedMap
set_option autoImplicit false

-- Modules through their look-ups. The shape of a module is what its nodes are and how they are
-- nested; ports, bindings and pragmas are looked up apart from it.
namespace Dataflow

def Role.name? : Role → Option String
  | .function name => some name
  | _ => none

namespace Module

def role? (m : Module) (id : NodeId) : Option Role :=
  m.nodes[id]?.map Node.role

def opcode? (m : Module) (id : NodeId) : Option Opcode :=
  m.nodes[id]?.map Node.opcode

def nodesOf (m : Module) (id : NodeId) : List NodeId :=
  (m.nodes[id]?.map Node.nodes).getD []

def childrenOf (m : Module) (id : NodeId) : List NodeId :=
  (m.nodes[id]?.map Node.children).getD []

/-! ### Changes of single nodes -/

theorem nodes_modify (id : NodeId) (change : Node → Node) (m : Module) (query : NodeId) :
    (modifyNode id change m).nodes[query]? =
      if query = id then m.nodes[query]?.map change else m.nodes[query]? := by
  simp only [modifyNode, Array.getElem?_modify, eq_comm]

@[simp] theorem types_modify (id : NodeId) (change : Node → Node) (m : Module) :
    (modifyNode id change m).types = m.types := rfl

@[simp] theorem functions_modify (id : NodeId) (change : Node → Node) (m : Module) :
    (modifyNode id change m).functions = m.functions := rfl

@[simp] theorem stamp_modify (id : NodeId) (change : Node → Node) (m : Module) :
    (modifyNode id change m).stamp = m.stamp := rfl

@[simp] theorem pragmas_modify (id : NodeId) (change : Node → Node) (m : Module) :
    (modifyNode id change m).pragmas = m.pragmas := rfl

@[simp] theorem size_modify (id : NodeId) (change : Node → Node) (m : Module) :
    (modifyNode id change m).nodes.size = m.nodes.size := by
  simp [modifyNode]

theorem exists_node_iff {m : Module} {id : NodeId} :
    (∃ node, m.nodes[id]? = some node) ↔ id < m.nodes.size := by
  constructor
  · rintro ⟨node, found⟩
    exact (Array.getElem?_eq_some_iff.mp found).1
  · intro bound
    exact ⟨m.nodes[id], Array.getElem?_eq_some_iff.mpr ⟨bound, rfl⟩⟩

theorem node_ok_iff {m : Module} {id : NodeId} {node : Node} :
    m.node id = .ok node ↔ m.nodes[id]? = some node := by
  unfold Module.node
  cases m.nodes[id]? <;> simp

theorem graph_ok_iff {m : Module} {id : NodeId} {node : Node} :
    m.graph id = .ok node ↔ m.nodes[id]? = some node ∧ node.isGraph = true := by
  unfold Module.graph
  rw [← node_ok_iff]
  cases m.node id with
  | error error => simp [Bind.bind, Except.bind]
  | ok other =>
      change (if other.isGraph then Except.ok other else .error (Error.notAGraph id)) = _ ↔ _
      by_cases graph : other.isGraph = true
      · rw [if_pos graph]
        constructor
        · intro same
          cases same
          exact ⟨rfl, graph⟩
        · exact fun found => found.1
      · rw [if_neg graph]
        constructor
        · intro impossible
          cases impossible
        · rintro ⟨same, isGraph⟩
          cases same
          exact absurd isGraph graph

/-! ### The same shape -/

structure SameShape (m changed : Module) : Prop where
  functions : changed.functions = m.functions
  size : changed.nodes.size = m.nodes.size
  role : ∀ id, changed.role? id = m.role? id
  opcode : ∀ id, changed.opcode? id = m.opcode? id
  nodes : ∀ id, changed.nodesOf id = m.nodesOf id
  children : ∀ id, changed.childrenOf id = m.childrenOf id

namespace SameShape

theorem refl (m : Module) : SameShape m m :=
  ⟨rfl, rfl, fun _ => rfl, fun _ => rfl, fun _ => rfl, fun _ => rfl⟩

theorem trans {first second third : Module} (here : SameShape first second)
    (later : SameShape second third) : SameShape first third :=
  ⟨later.functions.trans here.functions, later.size.trans here.size,
    fun id => (later.role id).trans (here.role id),
    fun id => (later.opcode id).trans (here.opcode id),
    fun id => (later.nodes id).trans (here.nodes id),
    fun id => (later.children id).trans (here.children id)⟩

end SameShape

theorem same_shape_modify (id : NodeId) {change : Node → Node} (m : Module)
    (role : ∀ node, (change node).role = node.role)
    (opcode : ∀ node, (change node).opcode = node.opcode)
    (nodes : ∀ node, (change node).nodes = node.nodes)
    (children : ∀ node, (change node).children = node.children) :
    SameShape m (modifyNode id change m) := by
  refine ⟨rfl, size_modify id change m, ?_, ?_, ?_, ?_⟩
  all_goals
    intro query
    simp only [role?, opcode?, nodesOf, childrenOf, nodes_modify]
    split
    · cases m.nodes[query]? <;> simp [role, opcode, nodes, children]
    · rfl

theorem same_shape_types (m : Module) (types : TypeTable) :
    SameShape m { m with types := types } :=
  ⟨rfl, rfl, fun _ => rfl, fun _ => rfl, fun _ => rfl, fun _ => rfl⟩

theorem same_shape_bind (inlet : Inlet) (binding : Binding) (m : Module) :
    SameShape m (bind inlet binding m) :=
  same_shape_modify _ _ (fun _ => rfl) (fun _ => rfl) (fun _ => rfl) (fun _ => rfl)

theorem same_shape_connect (source : Outlet) (target : Inlet) (m : Module) :
    SameShape m (connect source target m) := by
  have bound := same_shape_bind target (.wire source m.stamp) m
  have declared : SameShape (bind target (.wire source m.stamp) m)
      (modifyNode source.node (Node.modifyOutput source.port id)
        (bind target (.wire source m.stamp) m)) :=
    same_shape_modify _ _ (fun _ => rfl) (fun _ => rfl) (fun _ => rfl) (fun _ => rfl)
  have both := bound.trans declared
  exact ⟨both.functions, both.size, both.role, both.opcode, both.nodes, both.children⟩

-- Scopes are read off roles alone.
theorem scope_ok_iff {m : Module} {id scope : NodeId} :
    m.scopeOf id = .ok scope ↔
      ∃ role, m.role? id = some role ∧ scope = match role with | .node graph => graph | _ => id := by
  unfold scopeOf Module.node role?
  cases m.nodes[id]? with
  | none => simp [Bind.bind, Except.bind]
  | some node =>
      simp only [Bind.bind, Except.bind, pure, Except.pure, Option.map_some, Option.some.injEq,
        exists_eq_left']
      cases node.role <;> simp [eq_comm]

theorem scope_congr {m changed : Module} {id : NodeId} (same : changed.role? id = m.role? id)
    (scope : NodeId) : changed.scopeOf id = .ok scope ↔ m.scopeOf id = .ok scope := by
  rw [scope_ok_iff, scope_ok_iff, same]

theorem role_eq_some_of_node {m : Module} {id : NodeId} {node : Node}
    (found : m.nodes[id]? = some node) : m.role? id = some node.role := by
  simp [role?, found]

theorem node_of_role {m : Module} {id : NodeId} {role : Role} (found : m.role? id = some role) :
    ∃ node, m.nodes[id]? = some node ∧ node.role = role := by
  simpa [role?] using found

theorem lt_size_of_role {m : Module} {id : NodeId} {role : Role} (found : m.role? id = some role) :
    id < m.nodes.size := by
  obtain ⟨node, here, _⟩ := node_of_role found
  exact exists_node_iff.mp ⟨node, here⟩

theorem lt_size_of_scope {m : Module} {id scope : NodeId} (found : m.scopeOf id = .ok scope) : id < m.nodes.size := by
  obtain ⟨_, role, _⟩ := scope_ok_iff.mp found
  exact lt_size_of_role role

theorem function_name_ok_iff {m : Module} {id : NodeId} {name : String} :
    m.functionName id = .ok name ↔ m.role? id = some (.function name) := by
  unfold functionName Module.node role?
  cases m.nodes[id]? with
  | none => simp [Bind.bind, Except.bind]
  | some node =>
      simp only [Bind.bind, Except.bind, Node.functionName?, Option.map_some, Option.some.injEq]
      cases node.role <;> simp [pure, Except.pure]

theorem function_name_eq (m : Module) (id : NodeId) :
    m.nodes[id]?.bind Node.functionName? = (m.role? id).bind Role.name? := by
  unfold role?
  cases m.nodes[id]? <;> rfl

theorem function_congr {m changed : Module} (functions : changed.functions = m.functions)
    (role : ∀ id ∈ m.functions, changed.role? id = m.role? id) (name : String) :
    changed.function? name = m.function? name := by
  unfold function?
  rw [functions]
  refine List.find?_congr fun id member => ?_
  rw [function_name_eq, function_name_eq, role id (List.mem_reverse.mp member)]

end Module

end Dataflow
