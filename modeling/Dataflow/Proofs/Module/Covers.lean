import Dataflow.Proofs.Module.Rereading
set_option autoImplicit false

-- What is written is closed: with a node its graph is written, and with a graph its nodes.
namespace Dataflow.Module

structure Covers (m : Module) (order : List NodeId) : Prop where
  up : ∀ id ∈ order, ∀ {graph}, m.role? id = some (.node graph) → graph ∈ order
  down : ∀ id ∈ order, m.nodesOf id ⊆ order
  children : ∀ id ∈ order, m.childrenOf id ⊆ order

section Covers
variable {m : Module}

theorem nodes_of_plain_role (owned : m.Owned) {id graph : NodeId} (role : m.role? id = some (.node graph)) :
    m.nodesOf id = [] := by
  obtain ⟨node, found, _⟩ := node_of_role role
  rw [nodes_of_node found]
  exact nodes_of_plain owned found role

theorem children_of_graph_role (owned : m.Owned) {id : NodeId} (isGraph : m.IsGraph id) : m.childrenOf id = [] := by
  obtain ⟨node, found, here⟩ := graph_of_is_graph isGraph
  rw [children_of_node found]
  exact children_of_graph owned found (graph_ok_iff.mp here).2

-- Below the tops everything that is written has its owner written, too.
theorem owner_written {part : Part} {order : List NodeId} {records : List Record} (owned : m.Owned)
    (written : Written m part order records) :
    ∀ id ∈ order, id ∈ part.tops ∨ ∃ outer ∈ order, m.Owns id outer := by
  induction written with
  | plain => exact fun id member => .inl member
  | @compound id node label order bodies bindings found labelled holds inner fed ih =>
      intro other member
      rcases List.mem_cons.mp member with rfl | member
      · exact .inl (List.mem_singleton.mpr rfl)
      rcases ih other member with top | ⟨outer, inside, owns⟩
      · refine .inr ⟨id, List.mem_cons_self, .inr (owned.child ?_)⟩
        rw [children_of_node found]
        exact mem_distinct_children.mp top
      · exact .inr ⟨outer, List.mem_cons_of_mem _ inside, owns⟩
  | noNodes => exact fun _ member => by cases member
  | nodes head rest headIh restIh =>
      intro other member
      rcases List.mem_append.mp member with member | member
      · rcases headIh other member with top | ⟨outer, inside, owns⟩
        · exact .inl (by rw [List.mem_singleton.mp top]; exact List.mem_cons_self)
        · exact .inr ⟨outer, List.mem_append_left _ inside, owns⟩
      · rcases restIh other member with top | ⟨outer, inside, owns⟩
        · exact .inl (List.mem_cons_of_mem _ top)
        · exact .inr ⟨outer, List.mem_append_right _ inside, owns⟩
  | noGraphs => exact fun _ member => by cases member
  | @graphs id ids first second node results here later found isGraph fed body rest bodyIh restIh =>
      intro other member
      rcases List.mem_cons.mp member with rfl | member
      · exact .inl List.mem_cons_self
      rcases List.mem_append.mp member with member | member
      · rcases bodyIh other member with top | ⟨outer, inside, owns⟩
        · refine .inr ⟨id, List.mem_cons_self, .inl (owned.listed ?_)⟩
          rw [nodes_of_node found]
          exact top
        · exact .inr ⟨outer, List.mem_cons_of_mem _ (List.mem_append_left _ inside), owns⟩
      · rcases restIh other member with top | ⟨outer, inside, owns⟩
        · exact .inl (List.mem_cons_of_mem _ top)
        · exact .inr ⟨outer, List.mem_cons_of_mem _ (List.mem_append_right _ inside), owns⟩

theorem level_graphs (owned : m.Owned) {id : NodeId} {node : Node} (found : m.nodes[id]? = some node) :
    Level m (.graphs node.distinctChildren) := by
  intro child member
  rw [mem_distinct_children, ← children_of_node found] at member
  exact is_graph_of_child (owned.child member)

-- Whatever is written has its nodes and child graphs written, too.
theorem inner_written {part : Part} {order : List NodeId} {records : List Record} (owned : m.Owned)
    (written : Written m part order records) (level : Level m part) :
    ∀ id ∈ order, m.nodesOf id ⊆ order ∧ m.childrenOf id ⊆ order := by
  induction written with
  | plain found labelled bare fed =>
      intro other member
      obtain ⟨graph, role⟩ := level
      rw [List.mem_singleton.mp member, nodes_of_plain_role owned role, children_of_node found, bare]
      exact ⟨List.nil_subset _, List.nil_subset _⟩
  | compound found labelled holds inner fed ih =>
      intro other member
      obtain ⟨graph, role⟩ := level
      rcases List.mem_cons.mp member with rfl | member
      · rw [nodes_of_plain_role owned role, children_of_node found]
        exact ⟨List.nil_subset _, fun child listed =>
          List.mem_cons_of_mem _ (tops_inside inner (mem_distinct_children.mpr listed))⟩
      · have below := ih (level_graphs owned found) other member
        exact ⟨fun _ listed => List.mem_cons_of_mem _ (below.1 listed),
          fun _ listed => List.mem_cons_of_mem _ (below.2 listed)⟩
  | noNodes => exact fun _ member => by cases member
  | nodes head rest headIh restIh =>
      intro other member
      rcases List.mem_append.mp member with member | member
      · have below := headIh (level _ List.mem_cons_self) other member
        exact ⟨fun _ listed => List.mem_append_left _ (below.1 listed),
          fun _ listed => List.mem_append_left _ (below.2 listed)⟩
      · have below := restIh (fun id inside => level id (List.mem_cons_of_mem _ inside)) other member
        exact ⟨fun _ listed => List.mem_append_right _ (below.1 listed),
          fun _ listed => List.mem_append_right _ (below.2 listed)⟩
  | noGraphs => exact fun _ member => by cases member
  | graphs found isGraph fed body rest bodyIh restIh =>
      intro other member
      rcases List.mem_cons.mp member with rfl | member
      · rw [nodes_of_node found, children_of_graph_role owned (level other List.mem_cons_self)]
        exact ⟨fun _ listed => List.mem_cons_of_mem _ (List.mem_append_left _ (tops_inside body listed)),
          List.nil_subset _⟩
      rcases List.mem_append.mp member with member | member
      · have below := bodyIh (level_nodes owned found) other member
        exact ⟨fun _ listed => List.mem_cons_of_mem _ (List.mem_append_left _ (below.1 listed)),
          fun _ listed => List.mem_cons_of_mem _ (List.mem_append_left _ (below.2 listed))⟩
      · have below := restIh (fun id inside => level id (List.mem_cons_of_mem _ inside)) other member
        exact ⟨fun _ listed => List.mem_cons_of_mem _ (List.mem_append_right _ (below.1 listed)),
          fun _ listed => List.mem_cons_of_mem _ (List.mem_append_right _ (below.2 listed))⟩

theorem covers_function {id : NodeId} {type : Option TypeId} {order : List NodeId} {records : List Record}
    (owned : m.Owned) (written : WrittenFunction m id type order records) : Covers m order := by
  obtain ⟨node, name, label, results, inner, body, found, role, _, _, inside, rfl, _⟩ := written.written
  have nodes := nodes_of_node found
  have isGraph : m.IsGraph id := is_graph_of_node found (by simp [Node.isGraph, role])
  refine ⟨?_, ?_, ?_⟩
  · intro other member graph otherRole
    rcases List.mem_cons.mp member with rfl | member
    · rw [role_eq_some_of_node found, role] at otherRole
      cases otherRole
    rcases owner_written owned inside other member with top | ⟨outer, listed, owns⟩
    · have owner := owned.listed (by rw [nodes]; exact top : other ∈ m.nodesOf id)
      rw [owner] at otherRole
      cases otherRole
      exact List.mem_cons_self
    · rw [owns_unique (.inl otherRole) owns]
      exact List.mem_cons_of_mem _ listed
  · intro other member
    rcases List.mem_cons.mp member with rfl | member
    · rw [nodes]
      exact fun _ listed => List.mem_cons_of_mem _ (tops_inside inside listed)
    · exact fun _ listed => List.mem_cons_of_mem _
        ((inner_written owned inside (level_nodes owned found) other member).1 listed)
  · intro other member
    rcases List.mem_cons.mp member with rfl | member
    · rw [children_of_graph_role owned isGraph]
      exact List.nil_subset _
    · exact fun _ listed => List.mem_cons_of_mem _
        ((inner_written owned inside (level_nodes owned found) other member).2 listed)

theorem covers_append {first second : List NodeId} (here : Covers m first) (later : Covers m second) :
    Covers m (first ++ second) := by
  refine ⟨?_, ?_, ?_⟩
  · intro id member graph role
    rcases List.mem_append.mp member with member | member
    · exact List.mem_append_left _ (here.up id member role)
    · exact List.mem_append_right _ (later.up id member role)
  · intro id member inner listed
    rcases List.mem_append.mp member with member | member
    · exact List.mem_append_left _ (here.down id member listed)
    · exact List.mem_append_right _ (later.down id member listed)
  · intro id member inner listed
    rcases List.mem_append.mp member with member | member
    · exact List.mem_append_left _ (here.children id member listed)
    · exact List.mem_append_right _ (later.children id member listed)

theorem covers_functions {ids : List NodeId} {types : List (Option TypeId)} {order : List NodeId}
    {records : List Record} (owned : m.Owned) (written : WrittenFunctions m ids types order records) :
    Covers m order ∧ ids ⊆ order := by
  induction written with
  | nil =>
      exact ⟨⟨fun _ member => (by cases member), fun _ member => (by cases member),
        fun _ member => (by cases member)⟩, List.nil_subset _⟩
  | cons settled head rest ih =>
      refine ⟨covers_append (covers_function owned head) ih.1, ?_⟩
      intro id member
      rcases List.mem_cons.mp member with rfl | member
      · obtain ⟨_, _, _, _, _, _, _, _, _, _, _, rfl, _⟩ := head.written
        exact List.mem_append_left _ List.mem_cons_self
      · exact List.mem_append_right _ (ih.2 member)

end Covers

end Dataflow.Module
