import Mathlib.Logic.Relation
import Dataflow.Proofs.Module.Written
import Dataflow.Proofs.Places
set_option autoImplicit false

-- The order in which nodes are written. Every node lies under one top only, so none is written twice,
-- and as long as all child graphs are listed every node is written.
namespace Dataflow.Module
open Relation (ReflTransGen)

def Owns (m : Module) (inner outer : NodeId) : Prop :=
  m.role? inner = some (.node outer) ∨ m.role? inner = some (.subgraph outer)

abbrev Under (m : Module) : NodeId → NodeId → Prop :=
  ReflTransGen m.Owns

def Part.tops : Part → List NodeId
  | .node id => [id]
  | .nodes ids => ids
  | .graphs ids => ids

section Under
variable {m : Module}

theorem owns_unique {inner first second : NodeId} (here : m.Owns inner first) (there : m.Owns inner second) :
    first = second := by
  rcases here with here | here <;> rcases there with there | there <;> rw [here] at there <;> cases there <;> rfl

theorem owns_lt (owned : m.Owned) {inner outer : NodeId} (owns : m.Owns inner outer) : outer < inner := by
  rcases owns with role | role
  · exact (owned.held role).1
  · exact (owned.inside role).1

theorem under_le (owned : m.Owned) {inner outer : NodeId} (under : m.Under inner outer) : outer ≤ inner := by
  induction under with
  | refl => exact Nat.le_refl _
  | tail _ owns ih => exact Nat.le_trans (Nat.le_of_lt (owns_lt owned owns)) ih

theorem under_total {id first second : NodeId} (here : m.Under id first) (there : m.Under id second) :
    m.Under first second ∨ m.Under second first :=
  here.total_of_right_unique (fun _ _ _ => owns_unique) there

theorem not_under_sibling (owned : m.Owned) {first second outer : NodeId} (here : m.Owns first outer)
    (there : m.Owns second outer) (under : m.Under first second) : first = second := by
  rcases under.cases_head with same | ⟨next, owns, above⟩
  · exact same
  · rw [owns_unique owns here] at above
    have le := under_le owned above
    exact absurd (owns_lt owned there) (Nat.not_lt_of_le le)

theorem siblings_apart (owned : m.Owned) {id first second outer : NodeId} (here : m.Owns first outer)
    (there : m.Owns second outer) (underFirst : m.Under id first) (underSecond : m.Under id second) :
    first = second := by
  rcases under_total underFirst underSecond with under | under
  · exact not_under_sibling owned here there under
  · exact (not_under_sibling owned there here under).symm

theorem not_under_function {id root : NodeId} {name : String} (role : m.role? id = some (.function name))
    (under : m.Under id root) : id = root := by
  rcases under.cases_head with same | ⟨next, owns, _⟩
  · exact same
  · rcases owns with here | here <;> rw [role] at here <;> cases here

end Under

/-! ### No node twice -/

structure Siblings (m : Module) (tops : List NodeId) : Prop where
  once : tops.Nodup
  owner : ∃ outer, ∀ top ∈ tops, m.Owns top outer

theorem Siblings.tail {m : Module} {top : NodeId} {rest : List NodeId} (siblings : Siblings m (top :: rest)) :
    Siblings m rest := by
  obtain ⟨once, outer, owns⟩ := siblings
  exact ⟨(List.nodup_cons.mp once).2, outer, fun other member => owns other (List.mem_cons_of_mem _ member)⟩

theorem Siblings.head {m : Module} {top : NodeId} {rest : List NodeId} (siblings : Siblings m (top :: rest)) :
    Siblings m [top] := by
  obtain ⟨_, outer, owns⟩ := siblings
  refine ⟨by simp, outer, fun other member => ?_⟩
  rw [List.mem_singleton.mp member]
  exact owns top List.mem_cons_self

theorem siblings_of_nodes {m : Module} (owned : m.Owned) (graph : NodeId) : Siblings m (m.nodesOf graph) :=
  ⟨owned.once graph, graph, fun _ member => .inl (owned.listed member)⟩

theorem mem_distinct_children {node : Node} {id : NodeId} :
    id ∈ node.distinctChildren ↔ id ∈ node.children :=
  List.mem_eraseDups

theorem children_of_node {m : Module} {id : NodeId} {node : Node} (found : m.nodes[id]? = some node) :
    m.childrenOf id = node.children := by
  simp [childrenOf, found]

theorem nodes_of_node {m : Module} {id : NodeId} {node : Node} (found : m.nodes[id]? = some node) :
    m.nodesOf id = node.nodes := by
  simp [nodesOf, found]

theorem siblings_of_children {m : Module} (owned : m.Owned) {id : NodeId} {node : Node}
    (found : m.nodes[id]? = some node) : Siblings m node.distinctChildren := by
  refine ⟨Places.nodup_erase_dups _, id, fun child member => .inr (owned.child ?_)⟩
  rw [children_of_node found]
  exact mem_distinct_children.mp member

structure Preorder (m : Module) (tops order : List NodeId) : Prop where
  once : order.Nodup
  under : ∀ id ∈ order, ∃ top ∈ tops, m.Under id top

theorem preorder_cons {m : Module} {id : NodeId} {tops order : List NodeId} (owned : m.Owned)
    (owns : ∀ top ∈ tops, m.Owns top id) (below : Preorder m tops order) : Preorder m [id] (id :: order) := by
  have lower : ∀ other ∈ order, m.Under other id ∧ id < other := by
    intro other member
    obtain ⟨top, inside, under⟩ := below.under other member
    refine ⟨under.tail (owns top inside), ?_⟩
    exact Nat.lt_of_lt_of_le (owns_lt owned (owns top inside)) (under_le owned under)
  refine ⟨List.nodup_cons.mpr ⟨fun member => Nat.lt_irrefl _ (lower id member).2, below.once⟩, ?_⟩
  intro other member
  refine ⟨id, List.mem_singleton.mpr rfl, ?_⟩
  rcases List.mem_cons.mp member with rfl | member
  · exact .refl
  · exact (lower other member).1

theorem preorder_append {m : Module} {id : NodeId} {tops first second : List NodeId}
    (apart : ∀ top ∈ tops, ∀ other, m.Under other id → m.Under other top → top = id) (new : id ∉ tops)
    (here : Preorder m [id] first) (rest : Preorder m tops second) :
    Preorder m (id :: tops) (first ++ second) := by
  refine ⟨List.nodup_append.mpr ⟨here.once, rest.once, ?_⟩, ?_⟩
  · rintro other inFirst _ inSecond rfl
    obtain ⟨top, member, under⟩ := here.under other inFirst
    rw [List.mem_singleton.mp member] at under
    obtain ⟨top, member, underToo⟩ := rest.under other inSecond
    exact new (apart top member other under underToo ▸ member)
  · intro other member
    rcases List.mem_append.mp member with member | member
    · obtain ⟨top, inside, under⟩ := here.under other member
      exact ⟨top, List.mem_cons.mpr (.inl (List.mem_singleton.mp inside)), under⟩
    · obtain ⟨top, inside, under⟩ := rest.under other member
      exact ⟨top, List.mem_cons_of_mem _ inside, under⟩

theorem preorder_siblings {m : Module} {id : NodeId} {tops first second : List NodeId} (owned : m.Owned)
    (siblings : Siblings m (id :: tops)) (here : Preorder m [id] first) (rest : Preorder m tops second) :
    Preorder m (id :: tops) (first ++ second) := by
  obtain ⟨once, outer, owns⟩ := siblings
  refine preorder_append ?_ (List.nodup_cons.mp once).1 here rest
  intro top member other underId underTop
  exact siblings_apart owned (owns top (List.mem_cons_of_mem _ member)) (owns id List.mem_cons_self) underTop underId

theorem preorder_of_written {m : Module} {part : Part} {order : List NodeId} {records : List Record}
    (owned : m.Owned) (written : Written m part order records) (siblings : Siblings m part.tops) :
    Preorder m part.tops order := by
  induction written with
  | plain =>
      exact @preorder_cons _ _ [] _ owned (fun _ member => by cases member)
        ⟨.nil, fun _ member => by cases member⟩
  | compound found labelled holds inner fed ih =>
      refine preorder_cons owned ?_ (ih (siblings_of_children owned found))
      intro child member
      refine .inr (owned.child ?_)
      rw [children_of_node found]
      exact mem_distinct_children.mp member
  | noNodes => exact ⟨.nil, fun _ member => by cases member⟩
  | nodes head rest headIh restIh =>
      exact preorder_siblings owned siblings (headIh siblings.head) (restIh siblings.tail)
  | noGraphs => exact ⟨.nil, fun _ member => by cases member⟩
  | @graphs id ids first second node results here later found isGraph fed body rest bodyIh restIh =>
      have nodes := nodes_of_node found
      have inside := bodyIh (by rw [← nodes]; exact siblings_of_nodes owned id)
      have graph : Preorder m [id] (id :: first) := by
        refine preorder_cons owned (fun top member => .inl (owned.listed ?_)) inside
        rw [nodes]
        exact member
      exact preorder_siblings owned siblings graph (restIh siblings.tail)

theorem preorder_of_function {m : Module} {id : NodeId} {type : Option TypeId} {order : List NodeId}
    {records : List Record} (owned : m.Owned) (written : WrittenFunction m id type order records) :
    Preorder m [id] order := by
  obtain ⟨node, name, label, results, inner, body, found, role, _, _, inside, rfl, _⟩ := written.written
  have nodes := nodes_of_node found
  have below := preorder_of_written owned inside (by
    change Siblings m node.nodes
    rw [← nodes]
    exact siblings_of_nodes owned id)
  refine preorder_cons owned (fun top member => .inl (owned.listed ?_)) below
  rw [nodes]
  exact member

theorem preorder_of_functions {m : Module} {ids : List NodeId} {orders : List (List NodeId)}
    (roots : ∀ id ∈ ids, ∃ name, m.role? id = some (.function name)) (once : ids.Nodup)
    (each : List.Forall₂ (fun id order => Preorder m [id] order) ids orders) :
    Preorder m ids orders.flatten := by
  induction each with
  | nil => exact ⟨.nil, fun _ member => by cases member⟩
  | @cons id order ids orders here _ ih =>
      obtain ⟨new, rest⟩ := List.nodup_cons.mp once
      refine preorder_append ?_ new here (ih (fun other member => roots other (List.mem_cons_of_mem _ member)) rest)
      intro top member other underId underTop
      obtain ⟨name, role⟩ := roots id List.mem_cons_self
      obtain ⟨otherName, otherRole⟩ := roots top (List.mem_cons_of_mem _ member)
      rcases under_total underId underTop with under | under
      · exact (not_under_function role under).symm
      · exact not_under_function otherRole under

/-! ### Every node -/

-- What a part consists of.
def Level (m : Module) : Part → Prop
  | .node id => ∃ graph, m.role? id = some (.node graph)
  | .nodes ids => ∀ id ∈ ids, ∃ graph, m.role? id = some (.node graph)
  | .graphs ids => ∀ id ∈ ids, m.IsGraph id

theorem level_nodes {m : Module} (owned : m.Owned) {id : NodeId} {node : Node} (found : m.nodes[id]? = some node) :
    Level m (.nodes node.nodes) := by
  intro inner member
  rw [← nodes_of_node found] at member
  exact ⟨id, owned.listed member⟩

theorem is_graph_of_child {m : Module} {id compound : NodeId} (role : m.role? id = some (.subgraph compound)) :
    m.IsGraph id :=
  ⟨_, role, fun graph => by simp⟩

end Dataflow.Module
