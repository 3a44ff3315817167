import Dataflow.Proofs.Module.Preorder
import Dataflow.Proofs.Module.Refeeding
set_option autoImplicit false

-- What a copy of a module holds for a node, and how that is kept while the copy grows.
namespace Dataflow

def Role.renumber (number : NodeId → Nat) : Role → Role
  | .function name => .function name
  | .subgraph compound => .subgraph (number compound)
  | .node graph => .node (number graph)

-- The kind of a graph is not written.
def Node.writtenOpcode (node : Node) : Opcode :=
  if node.isGraph then .xGraph else node.opcode

-- A node as it is read back, before its inputs are fed.
def Node.renumber (number : NodeId → Nat) (node : Node) : Node :=
  { opcode := node.writtenOpcode, role := node.role.renumber number, children := node.children.map number,
    nodes := node.nodes.map number, pragmas := node.pragmas.normalize }

namespace Module

structure Placed (m : Module) (number : NodeId → Nat) (copy : Module) (id : NodeId) : Prop where
  role : copy.role? (number id) = (m.role? id).map (·.renumber number)
  opcode : copy.opcode? (number id) = m.nodes[id]?.map Node.writtenOpcode
  nodes : copy.nodesOf (number id) = (m.nodesOf id).map number
  children : copy.childrenOf (number id) = (m.childrenOf id).map number
  pragmas : copy.pragmasOf (number id) = (m.pragmasOf id).normalize

-- The type of a function that is written declares its arguments.
def Declared (m : Module) (outlet : Outlet) : Prop :=
  (∃ name, m.role? outlet.node = some (.function name)) ∧ m.resultsOf outlet.node ≠ [] ∧
    (m.outputType? outlet).isSome

def Consumed (m : Module) (outlet : Outlet) : Prop :=
  ∃ inlet stamp, m.binding? inlet = some (.wire outlet stamp)

structure Ported (m : Module) (number : NodeId → Nat) (copy : Module) (id : NodeId) : Prop where
  fed : ∀ port, (m.binding? ⟨id, port⟩).isSome →
    ∃ input, copy.input? ⟨number id, port⟩ = some input ∧ FedAs m number ⟨id, port⟩ input
  unfed : ∀ port, m.binding? ⟨id, port⟩ = none → copy.input? ⟨number id, port⟩ = none
  used : ∀ port, m.Consumed ⟨id, port⟩ ∨ m.Declared ⟨id, port⟩ →
    copy.output? ⟨number id, port⟩ = some (m.mirrored ⟨id, port⟩)
  unused : ∀ port, ¬ (m.Consumed ⟨id, port⟩ ∨ m.Declared ⟨id, port⟩) → copy.output? ⟨number id, port⟩ = none

-- A node before its graph ends: it has no ports but the declared arguments.
structure Bare (m : Module) (number : NodeId → Nat) (copy : Module) (id : NodeId) : Prop where
  input : ∀ port, copy.input? ⟨number id, port⟩ = none
  declared : ∀ port, m.Declared ⟨id, port⟩ → copy.output? ⟨number id, port⟩ = some (m.mirrored ⟨id, port⟩)
  output : ∀ port, ¬ m.Declared ⟨id, port⟩ → copy.output? ⟨number id, port⟩ = none

section Kept
variable {m copy changed : Module} {number : NodeId → Nat} {id : NodeId}

theorem placed_of_renumbered {node : Node} {outputs : SortedMap Nat Output} (found : m.nodes[id]? = some node)
    (shown : copy.nodes[number id]? = some { node.renumber number with outputs := outputs }) :
    Placed m number copy id := by
  constructor <;> simp [role?, opcode?, nodesOf, childrenOf, pragmasOf, found, shown, Node.renumber]

theorem bare_of_renumbered {node : Node} {nodes : List NodeId}
    (shown : copy.nodes[number id]? = some { node.renumber number with nodes := nodes })
    (other : ∀ name, m.role? id ≠ some (.function name)) : Bare m number copy id := by
  have undeclared : ∀ port, ¬ m.Declared ⟨id, port⟩ := fun port declared => by
    obtain ⟨⟨name, role⟩, _⟩ := declared
    exact other name role
  refine ⟨fun port => ?_, fun port declared => absurd declared (undeclared port), fun port _ => ?_⟩
  · simp [input?, shown, Node.renumber]
  · simp [output?, shown, Node.renumber]

theorem placed_of_node (same : changed.nodes[number id]? = copy.nodes[number id]?)
    (placed : Placed m number copy id) : Placed m number changed id := by
  obtain ⟨role, opcode, nodes, children, pragmas⟩ := placed
  unfold role? at role
  unfold opcode? at opcode
  unfold nodesOf at nodes
  unfold childrenOf at children
  unfold pragmasOf at pragmas
  rw [← same] at role opcode nodes children pragmas
  exact ⟨role, opcode, nodes, children, pragmas⟩

theorem placed_of_shape (shape : SameShape copy changed)
    (kept : ∀ query, changed.pragmasOf query = copy.pragmasOf query) (placed : Placed m number copy id) :
    Placed m number changed id :=
  ⟨(shape.role _).trans placed.role, (shape.opcode _).trans placed.opcode, (shape.nodes _).trans placed.nodes,
    (shape.children _).trans placed.children, (kept _).trans placed.pragmas⟩

theorem input_of_node {inlet : Inlet} (same : changed.nodes[inlet.node]? = copy.nodes[inlet.node]?) :
    changed.input? inlet = copy.input? inlet := by
  rw [input?, input?, same]

theorem output_of_node {outlet : Outlet} (same : changed.nodes[outlet.node]? = copy.nodes[outlet.node]?) :
    changed.output? outlet = copy.output? outlet := by
  rw [output?, output?, same]

theorem ported_of_node (same : changed.nodes[number id]? = copy.nodes[number id]?)
    (ported : Ported m number copy id) : Ported m number changed id := by
  have input : ∀ port, changed.input? ⟨number id, port⟩ = copy.input? ⟨number id, port⟩ :=
    fun port => input_of_node same
  have output : ∀ port, changed.output? ⟨number id, port⟩ = copy.output? ⟨number id, port⟩ :=
    fun port => output_of_node same
  refine ⟨fun port bound => ?_, fun port bare => ?_, fun port used => ?_, fun port unused => ?_⟩
  · rw [input]
    exact ported.fed port bound
  · rw [input]
    exact ported.unfed port bare
  · rw [output]
    exact ported.used port used
  · rw [output]
    exact ported.unused port unused

theorem bare_of_node (same : changed.nodes[number id]? = copy.nodes[number id]?)
    (bare : Bare m number copy id) : Bare m number changed id := by
  refine ⟨fun port => ?_, fun port declared => ?_, fun port other => ?_⟩
  · rw [input_of_node same]
    exact bare.input port
  · rw [output_of_node same]
    exact bare.declared port declared
  · rw [output_of_node same]
    exact bare.output port other

end Kept

/-! ### New names in order -/

def Numbered (number : NodeId → Nat) (start : Nat) (order : List NodeId) : Prop :=
  ∀ {place id}, order[place]? = some id → number id = start + place

section Numbered
variable {number : NodeId → Nat} {start : Nat} {order first second : List NodeId}

theorem Numbered.head {id : NodeId} (numbered : Numbered number start (id :: order)) : number id = start :=
  @numbered 0 id rfl

theorem Numbered.tail {id : NodeId} (numbered : Numbered number start (id :: order)) :
    Numbered number (start + 1) order := by
  intro place other found
  have here := numbered (by rw [List.getElem?_cons_succ]; exact found)
  omega

theorem Numbered.left (numbered : Numbered number start (first ++ second)) : Numbered number start first := by
  intro place id found
  have inside := (List.getElem?_eq_some_iff.mp found).1
  exact numbered (by rw [List.getElem?_append_left inside]; exact found)

theorem Numbered.right (numbered : Numbered number start (first ++ second)) :
    Numbered number (start + first.length) second := by
  intro place id found
  have here := @numbered (first.length + place) id (by
    rw [List.getElem?_append_right (by omega), Nat.add_sub_cancel_left]
    exact found)
  omega

theorem Numbered.bounds (numbered : Numbered number start order) {id : NodeId} (member : id ∈ order) :
    start ≤ number id ∧ number id < start + order.length := by
  obtain ⟨place, inside, rfl⟩ := List.getElem_of_mem member
  have here := numbered (List.getElem?_eq_getElem inside)
  omega

theorem Numbered.apart (numbered : Numbered number start order) : Apart number order := by
  intro id member other memberToo same
  obtain ⟨place, inside, rfl⟩ := List.getElem_of_mem member
  obtain ⟨otherPlace, otherInside, rfl⟩ := List.getElem_of_mem memberToo
  have here := numbered (List.getElem?_eq_getElem inside)
  have there := numbered (List.getElem?_eq_getElem otherInside)
  have equal : place = otherPlace := by omega
  simp only [equal]

theorem Apart.mono {ids larger : List NodeId} (apart : Apart number larger) (inside : ids ⊆ larger) :
    Apart number ids :=
  fun first inFirst second inSecond => apart first (inside inFirst) second (inside inSecond)

theorem Numbered.before {chosen : List NodeId} (numbered : Numbered number start order) (inside : chosen ⊆ order)
    {query : NodeId} (before : query < start) : query ∉ chosen.map number := by
  intro named
  obtain ⟨id, listed, rfl⟩ := List.mem_map.mp named
  exact absurd before (Nat.not_lt_of_le (numbered.bounds (inside listed)).1)

theorem Apart.unnamed {ids chosen : List NodeId} (apart : Apart number ids) (inside : chosen ⊆ ids) {id : NodeId}
    (member : id ∈ ids) (other : id ∉ chosen) : number id ∉ chosen.map number := by
  intro named
  obtain ⟨twin, listed, same⟩ := List.mem_map.mp named
  have equal := apart twin (inside listed) id member same
  rw [equal] at listed
  exact other listed

-- In a list without repetition every node can be named by its place.
theorem numbered_of_once {order : List NodeId} (once : order.Nodup) :
    Numbered (fun id => order.idxOf id) 0 order := by
  intro place id found
  exact (Places.idx_of_at once found).trans (Nat.zero_add place).symm

end Numbered

/-! ### Growth -/

-- Nodes are added in order, one older node takes them in, and all others stay.
structure Placement (m : Module) (number : NodeId → Nat) (host : NodeId) (grow : Node → Node)
    (order : List NodeId) (copy changed : Module) : Prop where
  size : changed.nodes.size = copy.nodes.size + order.length
  types : changed.types = copy.types
  functions : changed.functions = copy.functions
  pragmas : changed.pragmas = copy.pragmas
  owned : changed.Owned
  old : ∀ id, id < copy.nodes.size →
    changed.nodes[id]? = if id = host then copy.nodes[id]?.map grow else copy.nodes[id]?
  placed : ∀ id ∈ order, Placed m number changed id

section Placement
variable {m copy middle changed : Module} {number : NodeId → Nat} {host : NodeId} {grow more : Node → Node}
  {first second order : List NodeId}

theorem Placement.refl (owned : copy.Owned) (same : ∀ node, grow node = node) :
    Placement m number host grow [] copy copy := by
  refine ⟨rfl, rfl, rfl, rfl, owned, fun id _ => ?_, fun _ member => by cases member⟩
  split
  · cases copy.nodes[id]? <;> simp [same]
  · rfl

-- Nodes that were added before stay as they are.
theorem Placement.kept (later : Placement m number host more second middle changed)
    (size : middle.nodes.size = copy.nodes.size + first.length) (hostOld : host < copy.nodes.size)
    (numbered : Numbered number copy.nodes.size first) {id : NodeId} (member : id ∈ first) :
    changed.nodes[number id]? = middle.nodes[number id]? := by
  have bounds := numbered.bounds member
  have host' : number id ≠ host := by
    intro same
    rw [same] at bounds
    exact absurd hostOld (Nat.not_lt_of_le bounds.1)
  rw [later.old (number id) (by rw [size]; exact bounds.2), if_neg host']

theorem Placement.append (here : Placement m number host grow first copy middle)
    (later : Placement m number host more second middle changed) (hostOld : host < copy.nodes.size)
    (numbered : Numbered number copy.nodes.size first) :
    Placement m number host (more ∘ grow) (first ++ second) copy changed := by
  refine ⟨?_, later.types.trans here.types, later.functions.trans here.functions,
    later.pragmas.trans here.pragmas, later.owned, ?_, ?_⟩
  · rw [later.size, here.size, List.length_append, Nat.add_assoc]
  · intro id inside
    have insideMiddle : id < middle.nodes.size := by
      rw [here.size]
      exact Nat.lt_add_right _ inside
    rw [later.old id insideMiddle, here.old id inside]
    split
    · rw [Option.map_map]
    · rfl
  · intro id member
    rcases List.mem_append.mp member with member | member
    · exact placed_of_node (later.kept here.size hostOld numbered member) (here.placed id member)
    · exact later.placed id member

theorem Placement.congr {other : Node → Node} (here : Placement m number host grow order copy changed)
    (same : ∀ node, grow node = other node) : Placement m number host other order copy changed := by
  have equal : grow = other := funext same
  rw [← equal]
  exact here

end Placement

def withNodes (ids : List NodeId) (node : Node) : Node :=
  { node with nodes := node.nodes ++ ids }

def withChildren (ids : List NodeId) (node : Node) : Node :=
  { node with children := node.children ++ ids }

end Module

end Dataflow
