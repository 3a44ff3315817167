import Dataflow.Proofs.Module.Copy
set_option autoImplicit false

-- A copy is written as the original is: its labels are those of the original, and pragmas that were
-- read back are written as before.
namespace Dataflow

namespace Record

def normalized : Record → Record
  | .type record => .type { record with pragmas := record.pragmas.normalize }
  | .pragma key text => .pragma key text
  | .function record => .function { record with pragmas := record.pragmas.normalize }
  | .node record => .node { record with pragmas := record.pragmas.normalize }
  | .compound record => .compound record
  | .graph pragmas => .graph pragmas.normalize
  | .trailer record => .trailer { record with pragmas := record.pragmas.normalize }
  | .edge record => .edge { record with pragmas := record.pragmas.normalize }
  | .literal record => .literal { record with pragmas := record.pragmas.normalize }

theorem render_normalized {record : Record} (spelled : record.Spelled Pragmas.Plain) :
    record.normalized.render = record.render := by
  have same := (spelled.holds Pragmas.plain_empty).render_normalized
  cases record with
  | pragma | compound => rfl
  | _ => simpa [normalized, render, pragmas] using same

end Record

namespace Module
open TypeTable

/-! ### Look-ups in a copy -/

namespace Copied

variable {m copy : Module} {order : List NodeId}

theorem role (copied : Copied m order copy) {id : NodeId} (member : id ∈ order) :
    ∃ role, m.role? id = some role ∧ copy.role? (order.idxOf id) = some (role.renumber order.idxOf) := by
  have inside : order.idxOf id < copy.nodes.size := by
    rw [copied.size]
    exact List.idxOf_lt_length_iff.mpr member
  obtain ⟨node, found⟩ := exists_node_iff.mpr inside
  have same := (copied.placed id member).role
  rw [role_eq_some_of_node found] at same
  obtain ⟨role, here, renamed⟩ := Option.map_eq_some_iff.mp same.symm
  exact ⟨role, here, by rw [role_eq_some_of_node found, ← renamed]⟩

theorem is_graph_iff (copied : Copied m order copy) {id : NodeId} (member : id ∈ order) :
    copy.IsGraph (order.idxOf id) ↔ m.IsGraph id := by
  obtain ⟨role, here, there⟩ := copied.role member
  unfold IsGraph
  rw [here, there]
  cases role <;> simp [Role.renumber]

theorem apart (copied : Copied m order copy) : Apart order.idxOf order :=
  Numbered.apart (numbered_of_once copied.once)

theorem label (copied : Copied m order copy) (owned : m.Owned) {id : NodeId} (member : id ∈ order) :
    copy.label (order.idxOf id) = m.label id := by
  obtain ⟨role, here, there⟩ := copied.role member
  have graphs : m.IsGraph id → copy.label (order.idxOf id) = m.label id := by
    intro isGraph
    rw [label_graph isGraph, label_graph ((copied.is_graph_iff member).mpr isGraph)]
  cases role with
  | function name => exact graphs ⟨_, here, fun graph => by simp⟩
  | subgraph compound => exact graphs ⟨_, here, fun graph => by simp⟩
  | node graph =>
      have listed := (owned.held here).2.2
      have graphMember := copied.covers.up id member here
      have nodes := (copied.placed graph graphMember).nodes
      have found : (copy.nodesOf (order.idxOf graph))[(m.nodesOf graph).idxOf id]? = some (order.idxOf id) := by
        rw [nodes, List.getElem?_map, List.getElem?_idxOf listed]
        rfl
      rw [label_node owned here, label_node copied.owned there,
        Places.idx_of_at (copied.owned.once _) found]

theorem supply (copied : Copied m order copy) {inlet : Inlet} (member : inlet.node ∈ order) :
    (copy.binding? (inlet.renumber order.idxOf)).map Binding.supply =
      (m.binding? inlet).map fun binding => binding.supply.renumber order.idxOf m.types.place := by
  have ported := copied.ported inlet.node member
  cases bound : m.binding? inlet with
  | none =>
      have unfed := ported.unfed inlet.port bound
      rw [binding?, Inlet.renumber, unfed]
      rfl
  | some binding =>
      obtain ⟨input, found, fed⟩ := ported.fed inlet.port (by rw [bound]; rfl)
      rw [binding?, Inlet.renumber, found]
      have same := fed.supply
      rw [bound] at same
      exact same

theorem bound_iff (copied : Copied m order copy) {inlet : Inlet} (member : inlet.node ∈ order) :
    (copy.binding? (inlet.renumber order.idxOf)).isSome ↔ (m.binding? inlet).isSome := by
  have same := congrArg Option.isSome (copied.supply member)
  simp only [Option.isSome_map] at same
  rw [same]

theorem literal_of (copied : Copied m order copy) {inlet : Inlet} (member : inlet.node ∈ order) {literal : Literal}
    (bound : m.binding? inlet = some (.literal literal)) :
    copy.binding? (inlet.renumber order.idxOf) =
      some (.literal ⟨literal.text, literal.type.map m.types.place⟩) := by
  have same := copied.supply member
  rw [bound] at same
  obtain ⟨binding, found, supply⟩ := Option.map_eq_some_iff.mp same
  cases binding with
  | literal other =>
      cases supply
      exact found
  | wire source stamp => cases supply

theorem wire_of (copied : Copied m order copy) {inlet : Inlet} (member : inlet.node ∈ order) {source : Outlet}
    {stamp : Nat} (bound : m.binding? inlet = some (.wire source stamp)) :
    ∃ later, copy.binding? (inlet.renumber order.idxOf) = some (.wire (source.renumber order.idxOf) later) := by
  have same := copied.supply member
  rw [bound] at same
  obtain ⟨binding, found, supply⟩ := Option.map_eq_some_iff.mp same
  cases binding with
  | literal other => cases supply
  | wire other later =>
      cases supply
      exact ⟨later, found⟩

theorem source_member (copied : Copied m order copy) (owned : m.Owned) (wired : m.Wired) {inlet : Inlet}
    {source : Outlet} {stamp : Nat} (member : inlet.node ∈ order)
    (bound : m.binding? inlet = some (.wire source stamp)) : source.node ∈ order := by
  obtain ⟨_, scope, sourceScope, targetScope⟩ := wired.wires bound
  have graph : scope ∈ order := by
    obtain ⟨role, here, same⟩ := scope_ok_iff.mp targetScope
    cases role with
    | node other =>
        cases same
        exact copied.covers.up _ member here
    | function name =>
        rw [same]
        exact member
    | subgraph compound =>
        rw [same]
        exact member
  rcases List.mem_cons.mp (member_of_scope owned sourceScope) with same | inner
  · rw [same]
    exact graph
  · exact copied.covers.down scope graph inner

theorem output_of_source (copied : Copied m order copy) (owned : m.Owned) (wired : m.Wired) {inlet : Inlet}
    {source : Outlet} {stamp : Nat} (member : inlet.node ∈ order)
    (bound : m.binding? inlet = some (.wire source stamp)) :
    copy.output? (source.renumber order.idxOf) = some (m.mirrored source) :=
  (copied.ported source.node (copied.source_member owned wired member bound)).used source.port
    (.inl ⟨inlet, stamp, bound⟩)

theorem input_type (copied : Copied m order copy) (owned : m.Owned) (wired : m.Wired) {inlet : Inlet}
    (member : inlet.node ∈ order) :
    copy.inputType? (inlet.renumber order.idxOf) = (m.inputType? inlet).map m.types.place := by
  unfold inputType?
  cases bound : m.binding? inlet with
  | none =>
      have same := copied.supply member
      rw [bound] at same
      rw [Option.map_eq_none_iff.mp same]
      rfl
  | some binding =>
      cases binding with
      | literal literal =>
          rw [copied.literal_of member bound]
      | wire source stamp =>
          obtain ⟨later, found⟩ := copied.wire_of member bound
          rw [found]
          simp only [outputType?, copied.output_of_source owned wired member bound]
          rfl

theorem fed_pragmas (copied : Copied m order copy) (owned : m.Owned) (wired : m.Wired) {inlet : Inlet}
    (member : inlet.node ∈ order) (bound : (m.binding? inlet).isSome) :
    copy.fedPragmas (inlet.renumber order.idxOf) = (m.fedPragmas inlet).normalize := by
  obtain ⟨input, found, fed⟩ := (copied.ported inlet.node member).fed inlet.port bound
  have here : copy.input? (inlet.renumber order.idxOf) = some input := found
  obtain ⟨binding, bound⟩ := Option.isSome_iff_exists.mp bound
  cases binding with
  | literal literal =>
      have single : copy.fedPragmas (inlet.renumber order.idxOf) = input.pragmas := by
        unfold fedPragmas
        rw [copied.literal_of member bound, here]
        rfl
      rw [single]
      exact fed.pragmas
  | wire source stamp =>
      obtain ⟨later, wire⟩ := copied.wire_of member bound
      have output := copied.output_of_source owned wired member bound
      have merged : copy.fedPragmas (inlet.renumber order.idxOf) = Pragmas.merge .empty input.pragmas := by
        unfold fedPragmas
        rw [wire, here]
        simp only [output]
        rfl
      rw [merged, Pragmas.empty_merge]
      exact fed.pragmas

theorem bound_inlets (copied : Copied m order copy) {id : NodeId} (member : id ∈ order) :
    copy.boundInlets (order.idxOf id) = (m.boundInlets id).map (Inlet.renumber order.idxOf) := by
  have ports : copy.boundPorts (order.idxOf id) = m.boundPorts id := by
    refine Places.eq_of_ascending bound_ports_ascending bound_ports_ascending fun port => ?_
    rw [mem_bound_ports, mem_bound_ports]
    exact copied.bound_iff (show (⟨id, port⟩ : Inlet).node ∈ order from member)
  unfold boundInlets
  rw [ports, List.map_map]
  rfl

/-! ### Types of a copy -/

theorem place (copied : Copied m order copy) (regular : m.types.Regular) (closed : m.types.Closed) {type : TypeId}
    (live : type ∈ m.types.order) : copy.types.place (m.types.place type) = m.types.place type := by
  refine place_of_order (copied.types.regular regular closed) ?_
  rw [copied.types.order, List.getElem?_range (place_lt live)]

theorem live_option (copied : Copied m order copy) {type : Option TypeId} (live : LiveOption m.types type) :
    LiveOption copy.types (type.map m.types.place) := by
  intro known same
  obtain ⟨old, here, rfl⟩ := Option.map_eq_some_iff.mp same
  exact copied.types.live (live old here)

theorem type_label (copied : Copied m order copy) (regular : m.types.Regular) (closed : m.types.Closed)
    {type : Option TypeId} {label : Nat} (done : m.typeLabel type = .ok label) :
    copy.typeLabel (type.map m.types.place) = .ok label := by
  obtain ⟨live, rfl⟩ := type_label_ok done
  rw [type_label_run (copied.live_option live)]
  cases type with
  | none => rfl
  | some type => simp [copied.place regular closed (live type rfl)]

theorem type_record (copied : Copied m order copy) (regular : m.types.Regular) (closed : m.types.Closed)
    {type : TypeId} {definition : TypeDef} (found : m.types.get? type = some definition) :
    copy.typeRecord (m.types.place type) = .ok (Read.TypeRecord.reread (m.recordOf type definition)) := by
  obtain ⟨live, there⟩ := get_eq_some_iff.mp found
  have shown : copy.types.get? (m.types.place type) = some (definition.renumber m.types.place) := by
    refine get_eq_some_iff.mpr ⟨copied.types.live live, ?_⟩
    rw [copied.types.arena type live, there]
    rfl
  have signature : m.types.signature? type = some definition.signature := by
    rw [signature?, there]
    rfl
  have references := closed live signature
  rw [type_record_run shown]
  · unfold recordOf Read.TypeRecord.reread TypeDef.renumber
    rw [copied.place regular closed live, Signature.map_map]
    refine congrArg (fun signature => Except.ok (TypeRecord.mk _ signature _)) ?_
    refine Signature.map_congr fun reference member => ?_
    rw [Function.comp_apply, copied.place regular closed (references reference member)]
  · intro reference member
    change reference ∈ (definition.signature.map m.types.place).references at member
    rw [Signature.references_map] at member
    obtain ⟨old, inside, rfl⟩ := List.mem_map.mp member
    exact copied.types.live (references old inside)

theorem type_records (copied : Copied m order copy) (regular : m.types.Regular) {records : List TypeRecord}
    (written : m.TypesWritten records) :
    copy.types.order.mapM copy.typeRecord = .ok (records.map Read.TypeRecord.reread) := by
  have places : m.types.order.map m.types.place = List.range m.types.order.length := by
    refine List.ext_getElem (by simp) fun position inside _ => ?_
    rw [List.getElem_map, List.getElem_range]
    exact place_of_order regular (List.getElem?_eq_getElem _)
  rw [copied.types.order, ← places]
  refine Outcome.map_m_of_forall ?_
  rw [List.forall₂_map_left_iff, List.forall₂_map_right_iff]
  refine written.each.imp fun type record shown => ?_
  obtain ⟨definition, found, rfl⟩ := shown
  exact copied.type_record regular written.closed found

/-! ### Records of a copy -/

structure Setup (m : Module) : Prop where
  regular : m.types.Regular
  closed : m.types.Closed
  owned : m.Owned
  wired : m.Wired

theorem binds (copied : Copied m order copy) (setup : Setup m) {label : Nat} {inlet : Inlet} {record : Record}
    (member : inlet.node ∈ order) (binds : Binds m label inlet record) :
    Binds copy label (inlet.renumber order.idxOf) record.normalized := by
  obtain ⟨type, typed, shape⟩ := binds_cases binds
  have typedToo := copied.type_label setup.regular setup.closed typed
  rw [← copied.input_type setup.owned setup.wired member] at typedToo
  rcases shape with ⟨literal, bound, rfl⟩ | ⟨source, stamp, sourceLabel, bound, labelled, rfl⟩
  · have here := binds_of_literal label (copied.literal_of member bound) typedToo
    rw [copied.fed_pragmas setup.owned setup.wired member (by rw [bound]; rfl)] at here
    exact here
  · obtain ⟨later, wire⟩ := copied.wire_of member bound
    have sourceMember := copied.source_member setup.owned setup.wired member bound
    rw [← copied.label setup.owned sourceMember] at labelled
    have here := binds_of_wire label wire labelled typedToo
    rw [copied.fed_pragmas setup.owned setup.wired member (by rw [bound]; rfl)] at here
    exact here

theorem node (copied : Copied m order copy) {id : NodeId} {node : Node} (member : id ∈ order)
    (found : m.nodes[id]? = some node) : ∃ twin, copy.nodes[order.idxOf id]? = some twin ∧
      twin.role = node.role.renumber order.idxOf ∧ twin.opcode = node.writtenOpcode ∧
      twin.nodes = node.nodes.map order.idxOf ∧ twin.children = node.children.map order.idxOf ∧
      twin.pragmas = node.pragmas.normalize := by
  have inside : order.idxOf id < copy.nodes.size := by
    rw [copied.size]
    exact List.idxOf_lt_length_iff.mpr member
  obtain ⟨twin, there⟩ := exists_node_iff.mpr inside
  obtain ⟨role, opcode, nodes, children, pragmas⟩ := copied.placed id member
  simp only [role?, opcode?, nodesOf, childrenOf, pragmasOf, found, there, Option.map_some, Option.getD_some,
    Option.some.injEq] at role opcode nodes children pragmas
  exact ⟨twin, there, role, opcode, nodes, children, pragmas⟩

theorem binding_records (copied : Copied m order copy) (setup : Setup m) {id : NodeId} {node twin : Node}
    {label : Nat} {records : List Record} (member : id ∈ order) (found : m.nodes[id]? = some node)
    (shown : copy.nodes[order.idxOf id]? = some twin) (fed : m.bindingRecords label node = .ok records) :
    copy.bindingRecords label twin = .ok (records.map Record.normalized) := by
  refine (binding_records_iff shown).mpr ?_
  rw [copied.bound_inlets member, List.forall₂_map_left_iff, List.forall₂_map_right_iff]
  have each := (binding_records_iff found).mp fed
  refine List.forall₂_iff_get.mpr ⟨each.length_eq, fun position inFirst inSecond => ?_⟩
  refine copied.binds setup ?_ (each.get inFirst inSecond)
  have listed := List.get_mem (m.boundInlets id) ⟨position, inFirst⟩
  rw [(mem_bound_inlets.mp listed).1]
  exact member

theorem distinct_children (copied : Copied m order copy) {id : NodeId} {node twin : Node} (member : id ∈ order)
    (found : m.nodes[id]? = some node) (same : twin.children = node.children.map order.idxOf) :
    twin.distinctChildren = node.distinctChildren.map order.idxOf := by
  have inside := copied.covers.children id member
  rw [children_of_node found] at inside
  unfold Node.distinctChildren
  rw [same]
  exact Places.erase_dups_map node.children (copied.apart.mono inside)

theorem offsets (copied : Copied m order copy) {id : NodeId} {node twin : Node} (member : id ∈ order)
    (found : m.nodes[id]? = some node) (same : twin.children = node.children.map order.idxOf) :
    offsetsOf twin = offsetsOf node := by
  unfold offsetsOf
  rw [copied.distinct_children member found same, same, List.map_map]
  refine List.map_congr_left fun child listed => ?_
  refine Places.idx_of_at ?_ ?_
  · rw [← copied.distinct_children member found same]
    exact Places.nodup_erase_dups _
  · rw [List.getElem?_map, List.getElem?_idxOf (mem_distinct_children.mpr listed)]
    rfl

end Copied

def Part.renumber (number : NodeId → Nat) : Part → Part
  | .node id => .node (number id)
  | .nodes ids => .nodes (ids.map number)
  | .graphs ids => .graphs (ids.map number)

namespace Copied

variable {m copy : Module} {order : List NodeId}

theorem plain_opcode {id graph : NodeId} {node : Node} (found : m.nodes[id]? = some node)
    (role : m.role? id = some (.node graph)) : node.writtenOpcode = node.opcode := by
  rw [role_eq_some_of_node found] at role
  simp [Node.writtenOpcode, Node.isGraph, Option.some.inj role]

-- By induction on what was written: the copy is written with the same labels.
theorem written (copied : Copied m order copy) (setup : Setup m) {part : Part} {inner : List NodeId}
    {records : List Record} (written : Written m part inner records) (level : Level m part)
    (inside : inner ⊆ order) : Written copy (part.renumber order.idxOf) (inner.map order.idxOf)
      (records.map Record.normalized) := by
  induction written with
  | @plain id node label bindings found labelled bare fed =>
      have member := inside List.mem_cons_self
      obtain ⟨graph, role⟩ := level
      obtain ⟨twin, shown, _, opcode, _, children, pragmas⟩ := copied.node member found
      have labelledToo := copied.label setup.owned member
      rw [labelled] at labelledToo
      have here := Written.plain shown labelledToo (by rw [children, bare]; rfl)
        (copied.binding_records setup member found shown fed)
      rw [opcode, plain_opcode found role, pragmas] at here
      exact here
  | @compound id node label below bodies bindings found labelled holds inner fed ih =>
      have member := inside List.mem_cons_self
      obtain ⟨graph, role⟩ := level
      obtain ⟨twin, shown, _, opcode, _, children, pragmas⟩ := copied.node member found
      have labelledToo := copied.label setup.owned member
      rw [labelled] at labelledToo
      have graphs := ih (level_graphs setup.owned found) fun other listed => inside (List.mem_cons_of_mem _ listed)
      have distinct := copied.distinct_children member found children
      have here := Written.compound shown labelledToo (by simpa [children] using holds)
        (by rw [distinct]; exact graphs) (copied.binding_records setup member found shown fed)
      rw [opcode, plain_opcode found role, pragmas, copied.offsets member found children] at here
      simp only [List.map_append, List.map_cons]
      exact here
  | noNodes => exact .noNodes
  | nodes head rest headIh restIh =>
      have here := headIh (level _ List.mem_cons_self) fun other listed => inside (List.mem_append_left _ listed)
      have later := restIh (fun other listed => level other (List.mem_cons_of_mem _ listed))
        fun other listed => inside (List.mem_append_right _ listed)
      rw [List.map_append, List.map_append]
      exact .nodes here later
  | noGraphs => exact .noGraphs
  | @graphs id ids first second node results here later found isGraph fed body rest bodyIh restIh =>
      have member := inside List.mem_cons_self
      obtain ⟨twin, shown, role, _, nodes, _, pragmas⟩ := copied.node member found
      have twinGraph : twin.isGraph = true := by
        obtain ⟨_, _, known⟩ := graph_of_is_graph
          ((copied.is_graph_iff member).mpr (level id List.mem_cons_self))
        obtain ⟨there, graph⟩ := graph_ok_iff.mp known
        rw [shown] at there
        cases there
        exact graph
      have nodesWritten := bodyIh (level_nodes setup.owned found)
        fun other listed => inside (List.mem_cons_of_mem _ (List.mem_append_left _ listed))
      have others := restIh (fun other listed => level other (List.mem_cons_of_mem _ listed))
        fun other listed => inside (List.mem_cons_of_mem _ (List.mem_append_right _ listed))
      have whole := Written.graphs shown twinGraph (copied.binding_records setup member found shown fed)
        (by rw [nodes]; exact nodesWritten) others
      rw [pragmas] at whole
      simp only [List.map_append, List.map_cons]
      exact whole

theorem written_function (copied : Copied m order copy) (setup : Setup m) {id : NodeId} {type : Option TypeId}
    {inner : List NodeId} {records : List Record} (written : WrittenFunction m id type inner records)
    (inside : inner ⊆ order) : WrittenFunction copy (order.idxOf id) (type.map m.types.place)
      (inner.map order.idxOf) (records.map Record.normalized) := by
  obtain ⟨node, name, label, results, below, body, found, role, typed, fed, nodes, rfl, rfl⟩ := written.written
  have member := inside List.mem_cons_self
  obtain ⟨twin, shown, twinRole, _, twinNodes, _, pragmas⟩ := copied.node member found
  have body := copied.written setup nodes (level_nodes setup.owned found)
    fun other listed => inside (List.mem_cons_of_mem _ listed)
  refine ⟨⟨twin, name, label, _, _, _, shown, by rw [twinRole, role]; rfl,
    copied.type_label setup.regular setup.closed typed, copied.binding_records setup member found shown fed,
    by rw [twinNodes]; exact body, rfl, ?_⟩⟩
  rw [pragmas, List.map_cons, List.map_append]
  rfl

/-! ### Types of functions of a copy -/

theorem results (copied : Copied m order copy) (setup : Setup m) {id : NodeId} (member : id ∈ order) :
    copy.resultsOf (order.idxOf id) = (m.resultsOf id).map m.types.place := by
  rw [results_eq, results_eq, ← SortedMap.walk_map]
  refine congrArg (List.map Prod.snd) ?_
  refine SortedMap.walk_congr fun port => ?_
  have typed : copy.inputType? ⟨order.idxOf id, port⟩ = (m.inputType? ⟨id, port⟩).map m.types.place :=
    copied.input_type setup.owned setup.wired (show (⟨id, port⟩ : Inlet).node ∈ order from member)
  rw [get_inputs, get_inputs, typed]
  cases bound : m.binding? ⟨id, port⟩ with
  | none =>
      have untyped : m.inputType? ⟨id, port⟩ = none := by simp [inputType?, bound]
      rw [(copied.ported id member).unfed port bound, untyped]
      cases m.input? ⟨id, port⟩ <;> rfl
  | some binding =>
      obtain ⟨input, found, _⟩ := (copied.ported id member).fed port (by rw [bound]; rfl)
      obtain ⟨old, here⟩ := Option.isSome_iff_exists.mp (input_isSome_of_binding bound)
      rw [found, here]
      rfl

theorem argument_type (copied : Copied m order copy) {id : NodeId} {name : String} (member : id ∈ order)
    (role : m.role? id = some (.function name)) (results : m.resultsOf id ≠ []) (port : Nat) :
    copy.outputType? ⟨order.idxOf id, port⟩ = (m.outputType? ⟨id, port⟩).map m.types.place := by
  by_cases used : m.Consumed ⟨id, port⟩ ∨ m.Declared ⟨id, port⟩
  · rw [outputType?, (copied.ported id member).used port used]
    rfl
  · have undeclared : m.outputType? ⟨id, port⟩ = none := by
      cases typed : m.outputType? ⟨id, port⟩ with
      | none => rfl
      | some type => exact absurd (.inr ⟨⟨name, role⟩, results, by rw [typed]; rfl⟩) used
    rw [outputType?, (copied.ported id member).unused port used, undeclared]
    rfl

theorem arguments (copied : Copied m order copy) {id : NodeId} {name : String} (member : id ∈ order)
    (role : m.role? id = some (.function name)) (results : m.resultsOf id ≠ []) :
    copy.argumentsOf (order.idxOf id) = (m.argumentsOf id).map m.types.place := by
  rw [arguments_eq, arguments_eq, ← SortedMap.walk_map]
  refine congrArg (List.map Prod.snd) ?_
  refine SortedMap.walk_congr fun port => ?_
  rw [get_outputs, get_outputs]
  have typed := copied.argument_type member role results port
  unfold outputType? at typed
  rw [typed]
  cases m.output? ⟨id, port⟩ <;> rfl

theorem settled (copied : Copied m order copy) (setup : Setup m) {id : NodeId} {name : String}
    {type : Option TypeId} (member : id ∈ order) (role : m.role? id = some (.function name))
    (settled : Settled m id type) : Settled copy (order.idxOf id) (type.map m.types.place) := by
  have isGraph := (copied.is_graph_iff member).mpr ⟨_, role, fun graph => by simp⟩
  have results := copied.results setup member
  cases settled with
  | untyped _ bare =>
      refine .untyped isGraph ?_
      rw [results, bare]
      rfl
  | typed _ some_ whole signed live =>
      have arguments := copied.arguments member role some_
      refine .typed isGraph (by simpa [results] using some_) ?_ ?_ ?_
      · refine gaps_eq_nil_iff.mpr fun port gap => ?_
        obtain ⟨low, untyped, top, typed, less⟩ := mem_gaps_of.mp gap
        rw [copied.argument_type member role some_] at untyped typed
        refine gaps_eq_nil_iff.mp whole port (mem_gaps_of.mpr ⟨low, ?_, top, by simpa using typed, less⟩)
        simpa using untyped
      · rw [arguments, results]
        exact copied.types.signed setup.regular setup.closed signed
      · rw [arguments, results, ← List.map_append]
        intro known listed
        obtain ⟨old, inside, rfl⟩ := List.mem_map.mp listed
        exact copied.types.live (live old inside)

/-! ### The text of a copy -/

theorem function_pieces (copied : Copied m order copy) (setup : Setup m) {ids : List NodeId}
    {types : List (Option TypeId)} {inner : List NodeId} {records : List Record}
    (written : WrittenFunctions m ids types inner records) (inside : inner ⊆ order) : ∃ pieces,
      (((ids.map order.idxOf).zip (types.map (Option.map m.types.place))).mapM fun (id, type) =>
        copy.functionRecords id type) = .ok pieces ∧ pieces.flatten = records.map Record.normalized := by
  induction written with
  | nil => exact ⟨[], rfl, rfl⟩
  | @cons id ids first second type types here later settled head rest ih =>
      obtain ⟨pieces, walked, flat⟩ := ih fun other listed => inside (List.mem_append_right _ listed)
      have inHead : first ⊆ order := fun other listed => inside (List.mem_append_left _ listed)
      have function := copied.written_function setup head inHead
      have few : (first.map order.idxOf).length ≤ copy.nodes.size := by
        rw [List.length_map, copied.size]
        exact (List.subperm_of_subset (preorder_of_function setup.owned head).once inHead).length_le
      have own := records_of_function function few
      have pair := @map_m_cons_ok _ _ _ _ (order.idxOf id, type.map m.types.place) _ _ _ own walked
      exact ⟨_, pair, by rw [List.flatten_cons, flat, List.map_append]⟩

theorem settled_functions (copied : Copied m order copy) (setup : Setup m) {types : List (Option TypeId)}
    (each : List.Forall₂ (Settled m) m.functions types) :
    List.Forall₂ (Settled copy) copy.functions (types.map (Option.map m.types.place)) := by
  rw [copied.functions, List.forall₂_map_left_iff, List.forall₂_map_right_iff]
  refine List.forall₂_iff_get.mpr ⟨each.length_eq, fun position inFirst inSecond => ?_⟩
  have listed : m.functions.get ⟨position, inFirst⟩ ∈ m.functions := List.get_mem _ _
  obtain ⟨name, role⟩ := setup.owned.registered.mp listed
  exact copied.settled setup (copied.roots listed) role (each.get inFirst inSecond)

end Copied

theorem render_lines_normalized {records : List Record}
    (spelled : ∀ record ∈ records, record.Spelled Pragmas.Plain) :
    renderLines (records.map Record.normalized) = renderLines records := by
  unfold renderLines
  rw [List.map_map]
  exact congrArg _ (List.map_congr_left fun record member => Record.render_normalized (spelled record member))

theorem Copied.text_with {m copy : Module} {order : List NodeId} (copied : Copied m order copy) (setup : Setup m)
    (fitting : m.Fitting Pragmas.Plain) {types : List (Option TypeId)} {typeRecords : List TypeRecord}
    {body : List Record} (typesWritten : m.TypesWritten typeRecords)
    (written : WrittenFunctions m m.functions types order body) :
    copy.textWith (types.map (Option.map m.types.place)) =
      .ok (Read.fullText typeRecords m.pragmas body) := by
  obtain ⟨pieces, walked, flat⟩ := copied.function_pieces setup written fun _ listed => listed
  have preamble : copy.preamble = .ok (Read.heading (typeRecords.map Read.TypeRecord.reread) m.pragmas) := by
    unfold Module.preamble
    rw [Outcome.bind_of_ok (copied.type_records setup.regular typesWritten), copied.pragmas]
    rfl
  have header : ((typeRecords.map Read.TypeRecord.reread).map Record.type).map
      (fun (record : Record) => record.render ++ "\n") =
        (typeRecords.map Record.type).map fun (record : Record) => record.render ++ "\n" := by
    rw [List.map_map, List.map_map, List.map_map]
    refine List.map_congr_left fun record member => ?_
    exact congrArg (· ++ "\n") (Record.render_normalized (spelled_types fitting.types typesWritten record member))
  have body := render_lines_normalized
    ((throughout_spelled Pragmas.lasting_plain fitting.toPrintable).functions written)
  unfold textWith
  rw [Outcome.bind_of_ok preamble, copied.functions, Outcome.bind_of_ok walked, flat]
  refine congrArg Except.ok ?_
  rw [Read.fullText, Read.heading, Read.heading, List.map_append, List.map_append, header, body]

theorem Copied.written_again {m copy : Module} {order : List NodeId} (copied : Copied m order copy) (setup : Setup m)
    (fitting : m.Fitting Pragmas.Plain) {types : List (Option TypeId)} {typeRecords : List TypeRecord}
    {body : List Record} (settled : List.Forall₂ (Settled m) m.functions types)
    (typesWritten : m.TypesWritten typeRecords) (written : WrittenFunctions m m.functions types order body) :
    toText copy = .ok (Read.fullText typeRecords m.pragmas body) copy :=
  to_text_run (copied.types.regular setup.regular setup.closed).reliable (copied.settled_functions setup settled)
    (copied.text_with setup fitting typesWritten written)

-- A module that can be read back is, and what is read back is written by the same text.
theorem reread {m : Module} {types : List (Option TypeId)} {text : String} (regular : m.types.Regular)
    (owned : m.Owned) (wired : m.Wired) (homogeneous : m.types.Homogeneous) (legible : m.Legible)
    (settled : List.Forall₂ (Settled m) m.functions types) (done : m.textWith types = .ok text) :
    ∃ copy order, ofText text = .ok copy ∧ Copied m order copy ∧ Copied.Setup m ∧
      toText copy = .ok text copy := by
  obtain ⟨typeRecords, order, body, typesWritten, functionsWritten, rfl⟩ := text_with_ok settled done
  obtain ⟨copy, read, copied⟩ := read_written regular owned wired homogeneous legible typesWritten functionsWritten
  have setup : Copied.Setup m := ⟨regular, typesWritten.closed, owned, wired⟩
  exact ⟨copy, order, read, copied, setup,
    copied.written_again setup legible.toFitting settled typesWritten functionsWritten⟩

end Module

end Dataflow
