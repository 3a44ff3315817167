import Dataflow.Proofs.Module.Inlets
set_option autoImplicit false

-- A graph that ends in a copy of a module: its inputs are fed as those of the original, under the new
-- names of the nodes and types.
namespace Dataflow

def Inlet.renumber (number : NodeId → Nat) (inlet : Inlet) : Inlet :=
  ⟨number inlet.node, inlet.port⟩

def Outlet.renumber (number : NodeId → Nat) (outlet : Outlet) : Outlet :=
  ⟨number outlet.node, outlet.port⟩

def Supply.renumber (number : NodeId → Nat) (place : TypeId → Nat) : Supply → Supply
  | .literal value => .literal ⟨value.text, value.type.map place⟩
  | .wire source => .wire (source.renumber number)

namespace Module
open TypeTable

-- Nodes keep their names apart.
def Apart (number : NodeId → Nat) (ids : List NodeId) : Prop :=
  ∀ first ∈ ids, ∀ second ∈ ids, number first = number second → first = second

section Apart
variable {number : NodeId → Nat} {ids : List NodeId}

theorem inlet_apart (apart : Apart number ids) {first second : Inlet} (inFirst : first.node ∈ ids)
    (inSecond : second.node ∈ ids) (same : first.renumber number = second.renumber number) : first = second := by
  obtain ⟨node, port⟩ := first
  obtain ⟨other, otherPort⟩ := second
  cases apart node inFirst other inSecond (congrArg Inlet.node same)
  cases (congrArg Inlet.port same : port = otherPort)
  rfl

theorem outlet_apart (apart : Apart number ids) {first second : Outlet} (inFirst : first.node ∈ ids)
    (inSecond : second.node ∈ ids) (same : first.renumber number = second.renumber number) : first = second := by
  obtain ⟨node, port⟩ := first
  obtain ⟨other, otherPort⟩ := second
  cases apart node inFirst other inSecond (congrArg Outlet.node same)
  cases (congrArg Outlet.port same : port = otherPort)
  rfl

end Apart

/-! ### Nodes of a scope -/

def members (m : Module) (graph : NodeId) : List NodeId :=
  graph :: m.nodesOf graph

theorem member_of_scope {m : Module} (owned : m.Owned) {graph id : NodeId} (scope : m.scopeOf id = .ok graph) :
    id ∈ m.members graph := by
  obtain ⟨role, found, same⟩ := scope_ok_iff.mp scope
  cases role with
  | node other =>
      cases same
      exact List.mem_cons_of_mem _ (owned.held found).2.2
  | function name => exact List.mem_cons.mpr (.inl same.symm)
  | subgraph compound => exact List.mem_cons.mpr (.inl same.symm)

theorem scope_of_member {m : Module} (owned : m.Owned) {graph id : NodeId} (isGraph : m.IsGraph graph)
    (member : id ∈ m.members graph) : m.scopeOf id = .ok graph := by
  rcases List.mem_cons.mp member with rfl | member
  · exact Read.scope_of_graph isGraph
  · exact scope_ok_iff.mpr ⟨_, owned.listed member, rfl⟩

theorem source_member {m : Module} (owned : m.Owned) (wired : m.Wired) {graph : NodeId}
    (isGraph : m.IsGraph graph) {inlet : Inlet} {source : Outlet} {stamp : Nat}
    (member : inlet.node ∈ m.members graph) (bound : m.binding? inlet = some (.wire source stamp)) :
    source.node ∈ m.members graph := by
  obtain ⟨_, scope, sourceScope, targetScope⟩ := wired.wires bound
  rw [scope_of_member owned isGraph member] at targetScope
  cases targetScope
  exact member_of_scope owned sourceScope

theorem label_graph {m : Module} {id : NodeId} (isGraph : m.IsGraph id) : m.label id = .ok 0 := by
  obtain ⟨role, found, other⟩ := isGraph
  obtain ⟨node, here, rfl⟩ := node_of_role found
  unfold Module.label
  refine (Outcome.bind_of_ok (node_ok_iff.mpr here)).trans ?_
  cases shape : node.role with
  | node graph => exact absurd shape (other graph)
  | function name => rfl
  | subgraph compound => rfl

theorem label_node {m : Module} (owned : m.Owned) {graph id : NodeId} (role : m.role? id = some (.node graph)) :
    m.label id = .ok ((m.nodesOf graph).idxOf id + 1) := by
  obtain ⟨_, isGraph, member⟩ := owned.held role
  obtain ⟨owner, there, found⟩ := graph_of_is_graph isGraph
  obtain ⟨node, here, shape⟩ := node_of_role role
  have nodes : m.nodesOf graph = owner.nodes := by simp [nodesOf, there]
  rw [nodes] at member ⊢
  unfold Module.label
  refine (Outcome.bind_of_ok (node_ok_iff.mpr here)).trans ?_
  rw [shape]
  refine (Outcome.bind_of_ok found).trans ?_
  rw [Places.idx_of_iff.mpr ⟨member, rfl⟩]
  rfl

theorem label_exists {m : Module} (owned : m.Owned) {id : NodeId} (inside : id < m.nodes.size) :
    ∃ label, m.label id = .ok label := by
  obtain ⟨node, found⟩ := exists_node_iff.mpr inside
  have role := role_eq_some_of_node found
  cases shape : node.role with
  | node graph =>
      rw [shape] at role
      exact ⟨_, label_node owned role⟩
  | function | subgraph =>
      rw [shape] at role
      exact ⟨0, label_graph ⟨_, role, fun _ => Role.noConfusion⟩⟩

theorem label_member {m : Module} (owned : m.Owned) {graph id : NodeId} (isGraph : m.IsGraph graph)
    (member : id ∈ m.members graph) {label : Nat} (labelled : m.label id = .ok label) :
    id = graph ∧ label = 0 ∨ id ∈ m.nodesOf graph ∧ label = (m.nodesOf graph).idxOf id + 1 := by
  rcases List.mem_cons.mp member with rfl | member
  · rw [label_graph isGraph] at labelled
    cases labelled
    exact .inl ⟨rfl, rfl⟩
  · rw [label_node owned (owned.listed member)] at labelled
    cases labelled
    exact .inr ⟨member, rfl⟩

-- A label leads to the copy of the node.
theorem node_at_label {m : Module} (number : NodeId → Nat) (owned : m.Owned) {graph id : NodeId}
    (isGraph : m.IsGraph graph) (member : id ∈ m.members graph) {label : Nat} (labelled : m.label id = .ok label) :
    Read.nodeAt (number graph) ((m.nodesOf graph).map number) label = .ok (number id) := by
  rcases label_member owned isGraph member labelled with ⟨rfl, rfl⟩ | ⟨inside, rfl⟩
  · rfl
  · unfold Read.nodeAt
    rw [if_neg (Nat.succ_ne_zero _), Nat.add_sub_cancel, List.getElem?_map, List.getElem?_idxOf inside]
    rfl

/-! ### One feed -/

namespace Read

section Ports
variable {m : Module} {source : Outlet} {target : Inlet}

theorem input_offered (source : Outlet) (type : Option TypeId) (m : Module) (inlet : Inlet) :
    (offered source type m).input? inlet = m.input? inlet := by
  unfold offered
  split
  · exact input_modify m source.node (Node.modifyOutput source.port _) (fun _ => rfl) inlet
  · rfl

theorem size_offered (source : Outlet) (type : Option TypeId) (m : Module) :
    (offered source type m).nodes.size = m.nodes.size := by
  unfold offered
  split
  · exact size_modify _ _ _
  · rfl

theorem stamp_offered (source : Outlet) (type : Option TypeId) (m : Module) :
    (offered source type m).stamp = m.stamp := by
  unfold offered
  split <;> rfl

theorem output_offered_other {outlet : Outlet} (type : Option TypeId) (inside : source.node < m.nodes.size)
    (other : outlet ≠ source) : (offered source type m).output? outlet = m.output? outlet := by
  unfold offered
  split
  · unfold typed
    rw [output_modify_output _ _ _ _ inside, if_neg other]
  · rfl

theorem output_offered_self {type : Option TypeId} (inside : source.node < m.nodes.size)
    (before : m.output? source = none ∨ m.output? source = some ⟨type, .empty⟩) :
    ((offered source type m).output? source).getD {} = ⟨type, .empty⟩ := by
  unfold offered
  cases type with
  | none => rcases before with none | same <;> simp [*]
  | some known =>
      rcases before with bare | same
      · have untyped : m.outputType? source = none := by simp [outputType?, bare]
        rw [untyped]
        unfold typed
        rw [output_modify_output _ _ _ _ inside, if_pos rfl, bare]
        rfl
      · have typed : m.outputType? source = some known := by simp [outputType?, same]
        rw [typed, same]
        rfl

theorem input_fed_wire (source : Outlet) (type : Option TypeId) (pragmas : Pragmas)
    (inside : target.node < m.nodes.size) (inlet : Inlet) :
    (fedWire source target type pragmas m).input? inlet =
      if inlet = target then some ⟨pragmas, some (.wire source m.stamp)⟩ else m.input? inlet := by
  have offeredInside : target.node < (offered source type m).nodes.size := by
    rw [size_offered]
    exact inside
  have connectedInside : target.node < (connect source target (offered source type m)).nodes.size := by
    rw [(same_shape_connect source target _).size]
    exact offeredInside
  unfold fedWire
  rw [input_noted _ connectedInside, input_connect source offeredInside, input_offered, stamp_offered]
  split <;> rfl

theorem output_fed_wire {type : Option TypeId} (target : Inlet) (pragmas : Pragmas) (inside : source.node < m.nodes.size)
    (before : m.output? source = none ∨ m.output? source = some ⟨type, .empty⟩) (outlet : Outlet) :
    (fedWire source target type pragmas m).output? outlet =
      if outlet = source then some ⟨type, .empty⟩ else m.output? outlet := by
  have offeredInside : source.node < (offered source type m).nodes.size := by
    rw [size_offered]
    exact inside
  unfold fedWire
  rw [output_noted, output_connect source outlet offeredInside]
  by_cases same : outlet = source
  · rw [if_pos same, if_pos same, same, output_offered_self inside before]
  · rw [if_neg same, if_neg same, output_offered_other type inside same]

theorem nodes_noted_other {inlet : Inlet} (pragmas : Pragmas) (m : Module) {id : NodeId} (other : id ≠ inlet.node) :
    (noted inlet pragmas m).nodes[id]? = m.nodes[id]? := by
  unfold noted setInputPragmas
  rw [nodes_modify, if_neg other, nodes_modify, if_neg other]

theorem nodes_fed_wire_other (type : Option TypeId) (pragmas : Pragmas) {id : NodeId} (apart : id ≠ source.node)
    (apartToo : id ≠ target.node) : (fedWire source target type pragmas m).nodes[id]? = m.nodes[id]? := by
  have offeredSame : (offered source type m).nodes[id]? = m.nodes[id]? := by
    unfold offered typed
    split
    · rw [nodes_modify, if_neg apart]
    · rfl
  unfold fedWire
  rw [nodes_noted_other _ _ apartToo, nodes_connect, nodes_modify, if_neg apart, bind, nodes_modify,
    if_neg apartToo, offeredSame]

theorem pragmas_of_noted (inlet : Inlet) (pragmas : Pragmas) (m : Module) (query : NodeId) :
    (noted inlet pragmas m).pragmasOf query = m.pragmasOf query := by
  have inner := pragmas_of_modify m inlet.node (Node.modifyInput inlet.port id) (fun _ => rfl) query
  exact (pragmas_of_modify _ _ (Node.modifyInput inlet.port _) (fun _ => rfl) query).trans inner

theorem pragmas_of_connect (source : Outlet) (target : Inlet) (m : Module) (query : NodeId) :
    (connect source target m).pragmasOf query = m.pragmasOf query := by
  have inner := pragmas_of_modify m target.node (Node.modifyInput target.port fun input =>
    { input with binding := some (.wire source m.stamp) }) (fun _ => rfl) query
  have outer := pragmas_of_modify (bind target (.wire source m.stamp) m) source.node
    (Node.modifyOutput source.port id) (fun _ => rfl) query
  exact outer.trans inner

theorem pragmas_of_fed_wire (type : Option TypeId) (pragmas : Pragmas) (query : NodeId) :
    (fedWire source target type pragmas m).pragmasOf query = m.pragmasOf query := by
  have offeredSame : (offered source type m).pragmasOf query = m.pragmasOf query := by
    unfold offered
    split
    · exact pragmas_of_modify m source.node (Node.modifyOutput source.port _) (fun _ => rfl) query
    · rfl
  exact (pragmas_of_noted _ _ _ _).trans ((pragmas_of_connect _ _ _ _).trans offeredSame)

theorem input_fed_text (literal : Literal) (pragmas : Pragmas) (inside : target.node < m.nodes.size)
    (inlet : Inlet) :
    (fedText target literal pragmas m).input? inlet =
      if inlet = target then some ⟨pragmas, some (.literal literal)⟩ else m.input? inlet := by
  have boundInside : target.node < (bind target (.literal literal) m).nodes.size := by
    rw [(same_shape_bind target (.literal literal) m).size]
    exact inside
  unfold fedText
  rw [input_noted _ boundInside, input_bind _ inside]
  split <;> rfl

theorem output_fed_text (literal : Literal) (pragmas : Pragmas) (outlet : Outlet) :
    (fedText target literal pragmas m).output? outlet = m.output? outlet :=
  (output_noted _ _ _ _).trans (output_bind _ _)

theorem nodes_fed_text_other (literal : Literal) (pragmas : Pragmas) {id : NodeId} (apart : id ≠ target.node) :
    (fedText target literal pragmas m).nodes[id]? = m.nodes[id]? := by
  unfold fedText
  rw [nodes_noted_other _ _ apart, bind, nodes_modify, if_neg apart]

theorem pragmas_of_fed_text (literal : Literal) (pragmas : Pragmas) (query : NodeId) :
    (fedText target literal pragmas m).pragmasOf query = m.pragmasOf query :=
  (pragmas_of_noted _ _ _ _).trans
    (pragmas_of_modify m target.node (Node.modifyInput target.port _) (fun _ => rfl) query)

theorem shape_fed_text (literal : Literal) (pragmas : Pragmas) (numbered : 1 ≤ target.port) :
    SameShape m (fedText target literal pragmas m) :=
  (same_shape_bind _ _ _).trans (same_shape_noted numbered _ _)

theorem shape_fed_wire (type : Option TypeId) (pragmas : Pragmas) (numbered : 1 ≤ source.port)
    (numberedToo : 1 ≤ target.port) : SameShape m (fedWire source target type pragmas m) :=
  ((quiet_offered source numbered type m).shape.trans (same_shape_connect _ _ _)).trans
    (same_shape_noted numberedToo _ _)

end Ports

end Read

/-! ### The inputs of a graph -/

-- An output that is used keeps its type and nothing else.
def mirrored (m : Module) (outlet : Outlet) : Output :=
  ⟨(m.outputType? outlet).map m.types.place, .empty⟩

structure FedAs (m : Module) (number : NodeId → Nat) (inlet : Inlet) (input : Input) : Prop where
  pragmas : input.pragmas = (m.fedPragmas inlet).normalize
  supply : input.binding.map Binding.supply =
    (m.binding? inlet).map fun binding => binding.supply.renumber number m.types.place

-- A copy in which this graph is about to end.
structure Ready (m : Module) (number : NodeId → Nat) (graph : NodeId) (copy : Module) : Prop where
  owned : copy.Owned
  isGraph : copy.IsGraph (number graph)
  nodes : copy.nodesOf (number graph) = (m.nodesOf graph).map number
  held : ∀ type ∈ m.types.order, Read.TypeHeld copy (m.types.place type)
  outlets : ∀ outlet : Outlet, outlet.node ∈ m.members graph →
    copy.output? (outlet.renumber number) = none ∨ copy.output? (outlet.renumber number) = some (m.mirrored outlet)

structure Refed (m : Module) (number : NodeId → Nat) (graph : NodeId) (inlets : List Inlet)
    (copy changed : Module) : Prop where
  shape : SameShape copy changed
  types : changed.types = copy.types
  pragmas : changed.pragmas = copy.pragmas
  nodePragmas : ∀ query, changed.pragmasOf query = copy.pragmasOf query
  nodes : ∀ id, id ∉ (m.members graph).map number → changed.nodes[id]? = copy.nodes[id]?
  input : ∀ inlet ∈ inlets, ∃ input, changed.input? (inlet.renumber number) = some input ∧ FedAs m number inlet input
  inputOther : ∀ query, (∀ inlet ∈ inlets, inlet.renumber number ≠ query) →
    changed.input? query = copy.input? query
  output : ∀ inlet ∈ inlets, ∀ source stamp, m.binding? inlet = some (.wire source stamp) →
    changed.output? (source.renumber number) = some (m.mirrored source)
  outputOther : ∀ query, (∀ inlet ∈ inlets, ∀ source stamp, m.binding? inlet = some (.wire source stamp) →
    source.renumber number ≠ query) → changed.output? query = copy.output? query

section Refeeding
variable {m copy : Module} {number : NodeId → Nat} {graph : NodeId}

theorem refed_nil (graph : NodeId) : Refed m number graph [] copy copy :=
  ⟨.refl copy, rfl, rfl, fun _ => rfl, fun _ _ => rfl, fun _ member => (by cases member), fun _ _ => rfl,
    fun _ member => (by cases member), fun _ _ => rfl⟩

theorem ready_of_refed {inlets : List Inlet} {changed : Module} (ready : Ready m number graph copy)
    (refed : Refed m number graph inlets copy changed) (apart : Apart number (m.members graph))
    (sources : ∀ inlet ∈ inlets, ∀ source stamp, m.binding? inlet = some (.wire source stamp) →
      source.node ∈ m.members graph) : Ready m number graph changed := by
  refine ⟨ready.owned.of_same_shape refed.shape, Read.is_graph_of_same_shape refed.shape ready.isGraph,
    (refed.shape.nodes _).trans ready.nodes, ?_, ?_⟩
  · intro type member
    rw [Read.TypeHeld, refed.types]
    exact ready.held type member
  · intro outlet member
    by_cases used : ∃ inlet ∈ inlets, ∃ stamp, m.binding? inlet = some (.wire outlet stamp)
    · obtain ⟨inlet, inside, stamp, bound⟩ := used
      exact .inr (refed.output inlet inside outlet stamp bound)
    · rw [refed.outputOther]
      · exact ready.outlets outlet member
      · intro inlet inside source stamp bound same
        have equal := outlet_apart apart (sources inlet inside source stamp bound) member same
        exact used ⟨inlet, inside, stamp, by rw [← equal]; exact bound⟩

theorem refed_cons {inlet : Inlet} {rest : List Inlet} {middle changed : Module} (new : inlet ∉ rest)
    (apart : Apart number (m.members graph)) (members : ∀ other ∈ inlet :: rest, other.node ∈ m.members graph)
    (sources : ∀ inlet ∈ rest, ∀ source stamp, m.binding? inlet = some (.wire source stamp) →
      source.node ∈ m.members graph)
    (source : ∀ source stamp, m.binding? inlet = some (.wire source stamp) → source.node ∈ m.members graph)
    (here : Refed m number graph [inlet] copy middle) (later : Refed m number graph rest middle changed) :
    Refed m number graph (inlet :: rest) copy changed := by
  refine ⟨here.shape.trans later.shape, later.types.trans here.types, later.pragmas.trans here.pragmas,
    fun query => (later.nodePragmas query).trans (here.nodePragmas query),
    fun id other => (later.nodes id other).trans (here.nodes id other), ?_, ?_, ?_, ?_⟩
  · intro other member
    rcases List.mem_cons.mp member with rfl | member
    · rw [later.inputOther]
      · exact here.input other List.mem_cons_self
      · intro third inside same
        have equal := inlet_apart apart (members third (List.mem_cons_of_mem _ inside))
          (members other List.mem_cons_self) same
        exact new (equal ▸ inside)
    · exact later.input other member
  · intro query others
    rw [later.inputOther query fun other member => others other (List.mem_cons_of_mem _ member)]
    refine here.inputOther query fun other member => ?_
    rw [List.mem_singleton.mp member]
    exact others inlet List.mem_cons_self
  · intro other member outlet stamp bound
    rcases List.mem_cons.mp member with rfl | member
    · by_cases again : ∃ third ∈ rest, ∃ stamp, m.binding? third = some (.wire outlet stamp)
      · obtain ⟨third, inside, stamp, boundToo⟩ := again
        exact later.output third inside outlet stamp boundToo
      · rw [later.outputOther]
        · exact here.output other List.mem_cons_self outlet stamp bound
        · intro third inside otherSource otherStamp boundToo same
          have equal := outlet_apart apart (sources third inside otherSource otherStamp boundToo)
            (source outlet stamp bound) same
          exact again ⟨third, inside, otherStamp, by rw [← equal]; exact boundToo⟩
    · exact later.output other member outlet stamp bound
  · intro query others
    rw [later.outputOther query fun other member => others other (List.mem_cons_of_mem _ member)]
    refine here.outputOther query fun other member => ?_
    rw [List.mem_singleton.mp member]
    exact others inlet List.mem_cons_self

theorem held_place {type : Option TypeId} (ready : Ready m number graph copy) (live : LiveOption m.types type) :
    ∀ known, type.map m.types.place = some known → Read.TypeHeld copy known := by
  intro known same
  obtain ⟨old, here, rfl⟩ := Option.map_eq_some_iff.mp same
  exact ready.held old (live old here)

theorem refed_text {inlet : Inlet} {literal : Literal} (bound : m.binding? inlet = some (.literal literal))
    (member : inlet.node ∈ m.members graph) (inside : number inlet.node < copy.nodes.size) (numbered : 1 ≤ inlet.port) :
    Refed m number graph [inlet] copy (Read.fedText (inlet.renumber number)
      ⟨literal.text, literal.type.map m.types.place⟩ (m.fedPragmas inlet).normalize copy) := by
  let fed : Literal := ⟨literal.text, literal.type.map m.types.place⟩
  have input := Read.input_fed_text fed (m.fedPragmas inlet).normalize
    (show (inlet.renumber number).node < copy.nodes.size from inside)
  refine ⟨Read.shape_fed_text fed _ numbered, rfl, rfl, Read.pragmas_of_fed_text fed _, ?_, ?_, ?_, ?_, ?_⟩
  · intro id other
    refine Read.nodes_fed_text_other fed _ fun same => other ?_
    rw [same]
    exact List.mem_map_of_mem member
  · intro other here
    rw [List.mem_singleton.mp here]
    refine ⟨_, (input _).trans (if_pos rfl), rfl, ?_⟩
    rw [bound]
    rfl
  · intro query others
    exact (input query).trans (if_neg fun same => others inlet List.mem_cons_self same.symm)
  · intro other here source stamp wire
    rw [List.mem_singleton.mp here, bound] at wire
    cases wire
  · exact fun query _ => Read.output_fed_text fed _ query

theorem refed_wire {inlet : Inlet} {source : Outlet} {stamp : Nat} (ready : Ready m number graph copy)
    (bound : m.binding? inlet = some (.wire source stamp))
    (member : inlet.node ∈ m.members graph) (sourceMember : source.node ∈ m.members graph)
    (inside : number inlet.node < copy.nodes.size) (sourceInside : number source.node < copy.nodes.size)
    (numbered : 1 ≤ inlet.port) (sourceNumbered : 1 ≤ source.port) :
    Refed m number graph [inlet] copy (Read.fedWire (source.renumber number) (inlet.renumber number)
      ((m.outputType? source).map m.types.place) (m.fedPragmas inlet).normalize copy) := by
  let type := (m.outputType? source).map m.types.place
  have targetInside : (inlet.renumber number).node < copy.nodes.size := inside
  have input := Read.input_fed_wire (source.renumber number) type (m.fedPragmas inlet).normalize targetInside
  have output := Read.output_fed_wire (inlet.renumber number) (m.fedPragmas inlet).normalize sourceInside
    (ready.outlets source sourceMember)
  refine ⟨Read.shape_fed_wire type _ sourceNumbered numbered, ?_, ?_, Read.pragmas_of_fed_wire type _,
    ?_, ?_, ?_, ?_, ?_⟩
  · rw [Read.fedWire, Read.types_noted, types_connect, Read.types_offered]
  · rw [Read.fedWire, Read.pragmas_noted, pragmas_connect, Read.pragmas_offered]
  · intro id other
    refine Read.nodes_fed_wire_other type _ (fun same => other ?_) fun same => other ?_
    · rw [same]
      exact List.mem_map_of_mem sourceMember
    · rw [same]
      exact List.mem_map_of_mem member
  · intro other here
    rw [List.mem_singleton.mp here]
    refine ⟨_, (input _).trans (if_pos rfl), rfl, ?_⟩
    rw [bound]
    rfl
  · intro query others
    exact (input query).trans (if_neg fun same => others inlet List.mem_cons_self same.symm)
  · intro other here outlet otherStamp wire
    rw [List.mem_singleton.mp here, bound] at wire
    cases wire
    exact (output _).trans (if_pos rfl)
  · intro query others
    exact (output query).trans (if_neg fun same =>
      others inlet List.mem_cons_self source stamp bound same.symm)

theorem resolve_asked {inlet : Inlet} {pending : Read.Pending} (owned : m.Owned) (wired : m.Wired)
    (isGraph : m.IsGraph graph) (ready : Ready m number graph copy) (member : inlet.node ∈ m.members graph)
    (asked : Asked m inlet pending) :
    ∃ changed, Read.resolve (number graph) (copy.nodesOf (number graph)) copy pending = .ok changed ∧
      Refed m number graph [inlet] copy changed := by
  obtain ⟨binding, bound, feed⟩ := asked.feed
  have targetAt := node_at_label number owned isGraph member asked.target
  rw [← ready.nodes] at targetAt
  have inside := lt_size_of_scope (Read.node_at_scope ready.owned ready.isGraph targetAt)
  have numbered := asked.low
  have held := held_place ready asked.live
  cases binding with
  | literal literal =>
      cases fed : pending.feed with
      | text text =>
          rw [fed] at feed
          cases feed
          have type : m.inputType? inlet = literal.type := by simp [inputType?, bound]
          rw [← asked.type] at held
          have run := Read.resolve_text_run ready.owned ready.isGraph fed targetAt
            (by rw [asked.port]; exact numbered) held
          rw [asked.type, asked.port, asked.pragmas, type] at run
          exact ⟨_, run, refed_text bound member inside numbered⟩
      | wire label port =>
          rw [fed] at feed
          cases feed
  | wire source stamp =>
      cases fed : pending.feed with
      | text text =>
          rw [fed] at feed
          cases feed
      | wire label port =>
          rw [fed] at feed
          cases feed with
          | wire labelled sourceNumbered =>
              have type : m.inputType? inlet = m.outputType? source := by simp [inputType?, bound]
              have sourceMember := source_member owned wired isGraph member bound
              have sourceAt := node_at_label number owned isGraph sourceMember labelled
              rw [← ready.nodes] at sourceAt
              have sourceInside := lt_size_of_scope (Read.node_at_scope ready.owned ready.isGraph sourceAt)
              rw [← asked.type] at held
              have run := Read.resolve_wire_run ready.owned ready.isGraph fed sourceAt targetAt sourceNumbered
                (by rw [asked.port]; exact numbered) held
              rw [asked.type, asked.port, asked.pragmas, type] at run
              exact ⟨_, run, refed_wire ready bound member sourceMember inside sourceInside numbered sourceNumbered⟩

-- A graph of the copy ends as soon as all its inputs have been asked for.
theorem end_graph_asked {inlets : List Inlet} {pendings : List Read.Pending} (owned : m.Owned) (wired : m.Wired)
    (isGraph : m.IsGraph graph) (apart : Apart number (m.members graph)) (ready : Ready m number graph copy)
    (members : ∀ inlet ∈ inlets, inlet.node ∈ m.members graph) (once : inlets.Nodup)
    (asked : List.Forall₂ (Asked m) inlets pendings) :
    ∃ changed, Read.endGraph (number graph) pendings copy = .ok changed ∧
      Refed m number graph inlets copy changed := by
  rw [Read.end_graph_eq, ready.nodes]
  induction asked generalizing copy with
  | nil => exact ⟨copy, rfl, refed_nil graph⟩
  | @cons inlet pending rest pendings here _ ih =>
      have member := members inlet List.mem_cons_self
      have membersLater := fun other inside => members other (List.mem_cons_of_mem inlet inside)
      obtain ⟨new, onceLater⟩ := List.nodup_cons.mp once
      obtain ⟨middle, run, fed⟩ := resolve_asked owned wired isGraph ready member here
      have source : ∀ source stamp, m.binding? inlet = some (.wire source stamp) → source.node ∈ m.members graph :=
        fun source stamp bound => source_member owned wired isGraph member bound
      have readyLater := ready_of_refed ready fed apart fun other inside => by
        rw [List.mem_singleton.mp inside]
        exact source
      obtain ⟨changed, later, refed⟩ := ih readyLater membersLater onceLater
      refine ⟨changed, ?_, refed_cons new apart members ?_ source fed refed⟩
      · rw [List.foldlM_cons, ← ready.nodes, Outcome.bind_of_ok run, ready.nodes]
        exact later
      · exact fun other inside outlet stamp bound =>
          source_member owned wired isGraph (membersLater other inside) bound

end Refeeding

end Module

end Dataflow
