import Dataflow.Proofs.Module.Copying
import Dataflow.Proofs.Module.Room
set_option autoImplicit false

-- Reading what was written: by induction on the derivation of the records, every part of a module
-- comes to stand in the copy. Nodes of an open graph have no ports yet; those of a graph that has
-- ended have all of them.
namespace Dataflow.Module
open TypeTable

/-! ### New nodes of the copy -/

section New
variable {copy : Module} {graph compound : NodeId}

theorem nodes_with_new_node (op : Opcode) (inside : graph < copy.nodes.size) (query : NodeId) :
    (withNode graph op copy).nodes[query]? =
      if query = copy.nodes.size then some { opcode := op, role := .node graph }
      else if query = graph then copy.nodes[query]?.map (withNodes [copy.nodes.size])
      else copy.nodes[query]? := by
  unfold withNode
  rw [nodes_modify, nodes_pushed]
  by_cases new : query = copy.nodes.size
  · simp [new, Nat.ne_of_gt inside]
  · simp only [if_neg new]
    rfl

theorem nodes_with_new_graph (inside : compound < copy.nodes.size) (query : NodeId) :
    (withGraph compound copy).nodes[query]? =
      if query = copy.nodes.size then some { opcode := .xGraph, role := .subgraph compound }
      else if query = compound then copy.nodes[query]?.map (withChildren [copy.nodes.size])
      else copy.nodes[query]? := by
  unfold withGraph appendChild
  rw [nodes_modify, nodes_pushed]
  by_cases new : query = copy.nodes.size
  · simp [new, Nat.ne_of_gt inside]
  · simp only [if_neg new]
    rfl

theorem nodes_with_pragmas (id : NodeId) (pragmas : Pragmas) (m : Module) (query : NodeId) :
    (setNodePragmas id pragmas m).nodes[query]? =
      if query = id then m.nodes[query]?.map fun node => { node with pragmas := pragmas } else m.nodes[query]? :=
  nodes_modify id _ m query

end New

/-! ### Single records -/

section Records
variable {labels : List Nat} {copy : Module} {graph : NodeId} {earlier : List Read.Pending}
  {scopes : List Read.Scope}

theorem is_graph_found (isGraph : copy.IsGraph graph) : ∃ owner, copy.graph graph = .ok owner := by
  obtain ⟨node, _, found⟩ := graph_of_is_graph isGraph
  exact ⟨node, found⟩

theorem add_node_at_run (line : Record.Word) {label : Nat} (op : Opcode) (isGraph : copy.IsGraph graph)
    (expected : label = (copy.nodesOf graph).length + 1) :
    Read.addNodeAt line label op ⟨copy, .graph graph earlier :: scopes⟩ =
      .ok (copy.nodes.size, withNode graph op copy) := by
  obtain ⟨owner, found⟩ := is_graph_found isGraph
  change (if label = (copy.nodesOf graph).length + 1 then Read.apply line (addNode graph op) copy
    else Read.refuse line _) = _
  rw [if_pos expected]
  exact Read.apply_of_ok (add_node_run found)

theorem step_node (labels : List Nat) (earlier : List Read.Pending) (scopes : List Read.Scope) {record : NodeRecord}
    (clear : (Record.node record).Clear) (isGraph : copy.IsGraph graph)
    (expected : record.label = (copy.nodesOf graph).length + 1) :
    Read.step labels ⟨copy, .graph graph earlier :: scopes⟩ (.node, Record.line (.node record)) =
      .ok ⟨setNodePragmas copy.nodes.size record.pragmas.normalize (withNode graph record.opcode copy),
        .graph graph earlier :: scopes⟩ := by
  change Read.readNode _ _ = _
  unfold Read.readNode
  rw [Record.parse_node_line clear]
  refine (Read.on_line_bind _ _ _).trans ?_
  exact (Outcome.bind_of_ok (add_node_at_run _ record.opcode isGraph expected)).trans rfl

theorem step_compound (labels : List Nat) (earlier : List Read.Pending) (scopes : List Read.Scope)
    {record : CompoundRecord} (clear : (Record.compound record).Clear)
    (isGraph : copy.IsGraph graph) (expected : record.label = (copy.nodesOf graph).length + 1) :
    Read.step labels ⟨copy, .graph graph earlier :: scopes⟩ (.compound, Record.line (.compound record)) =
      .ok ⟨withNode graph record.opcode copy,
        .compound copy.nodes.size record [] :: .graph graph earlier :: scopes⟩ := by
  change Read.beginCompound _ _ = _
  unfold Read.beginCompound
  rw [Record.parse_compound_line clear]
  refine (Read.on_line_bind _ _ _).trans ?_
  exact (Outcome.bind_of_ok (add_node_at_run _ record.opcode isGraph expected)).trans rfl

-- Records of a compound follow a child graph that may still be open.
theorem step_graph (labels : List Nat) {state : Read.State} {compound : NodeId} {header : CompoundRecord}
    {graphs : List NodeId}
    {pragmas : Pragmas} (clear : (Record.graph pragmas).Clear)
    (ended : Read.endSubgraph state = .ok ⟨copy, .compound compound header graphs :: scopes⟩)
    (plain : ∃ graph, copy.role? compound = some (.node graph)) :
    Read.step labels state (.graph, Record.line (.graph pragmas)) =
      .ok ⟨setNodePragmas copy.nodes.size pragmas.normalize (withGraph compound copy),
        .graph copy.nodes.size [] :: .compound compound header (graphs ++ [copy.nodes.size]) :: scopes⟩ := by
  obtain ⟨outer, role⟩ := plain
  obtain ⟨owner, found, shape⟩ := node_of_role role
  have bare : owner.isGraph = false := by simp [Node.isGraph, shape]
  change Read.beginSubgraph _ _ = _
  unfold Read.beginSubgraph
  rw [Record.parse_graph_line clear]
  refine (Read.on_line_bind _ _ _).trans ((Outcome.bind_of_ok ended).trans ?_)
  exact (Outcome.bind_of_ok (Read.apply_of_ok (add_graph_run found bare))).trans rfl

theorem step_trailer (labels : List Nat) {state : Read.State} {compound : NodeId} {record : TrailerRecord}
    {graphs children : List NodeId}
    (clear : (Record.trailer record).Clear)
    (ended : Read.endSubgraph state =
      .ok ⟨copy, .compound compound ⟨record.label, record.opcode⟩ graphs :: scopes⟩)
    (listed : List.Forall₂ (fun offset child => graphs[offset]? = some child) record.offsets children) :
    Read.step labels state (.trailer, Record.line (.trailer record)) =
      .ok ⟨modifyNode compound (Read.closed children record.pragmas.normalize) copy, scopes⟩ := by
  change Read.endCompound _ _ = _
  unfold Read.endCompound
  refine (Outcome.bind_of_ok ended).trans ?_
  simp only
  rw [Record.parse_trailer_line clear listed]
  exact (Read.on_line_bind _ _ _).trans rfl

theorem fold_body {record : Record} {kind : Read.Kind} {rest : List Record} {state next : Read.State}
    (body : Read.kindOf record = some kind)
    (step : Read.step labels state (kind, Record.line record) = .ok next) :
    ((record :: rest).filterMap Read.bodyLine).foldlM (Read.step labels) state =
      (rest.filterMap Read.bodyLine).foldlM (Read.step labels) next := by
  have here : Read.bodyLine record = some (kind, Record.line record) := by
    unfold Read.bodyLine
    rw [body]
    rfl
  rw [List.filterMap_cons, here, List.foldlM_cons, Outcome.bind_of_ok step]

end Records

/-! ### Rows of nodes and graphs -/

-- A module, the labels under which its types are read back, and the table of the copy.
structure Setting (m : Module) (labels : List Nat) (table : TypeTable) : Prop where
  owned : m.Owned
  wired : m.Wired
  positive : ∀ {id name}, m.role? id = some (.function name) → m.PositiveAt id
  labels : labels = List.range' 1 m.types.order.length
  held : ∀ type ∈ m.types.order, (table.get? (m.types.place type)).isSome

-- A graph of the copy that has not ended, and the nodes of it that have been read.
structure Open (number : NodeId → Nat) (table : TypeTable) (graph : NodeId) (before : List NodeId)
    (copy : Module) : Prop where
  owned : copy.Owned
  types : copy.types = table
  isGraph : copy.IsGraph (number graph)
  nodes : copy.nodesOf (number graph) = before.map number

structure RowRead (m : Module) (number : NodeId → Nat) (graph : NodeId) (ids order : List NodeId)
    (copy changed : Module) : Prop where
  grown : Placement m number (number graph) (withNodes (ids.map number)) order copy changed
  bare : ∀ id ∈ ids, Bare m number changed id
  ported : ∀ id ∈ order, id ∉ ids → Ported m number changed id

-- Nodes are read into a graph that stays open; what feeds them waits for its end.
def RowReplay (m : Module) (labels : List Nat) (table : TypeTable) (number : NodeId → Nat)
    (ids order : List NodeId) (records : List Record) : Prop :=
  ∀ {graph : NodeId} {before : List NodeId} {copy : Module} {earlier : List Read.Pending}
    {scopes : List Read.Scope}, Open number table graph before copy → before ++ ids <+: m.nodesOf graph →
    Numbered number copy.nodes.size order → ∃ changed pendings,
      (records.filterMap Read.bodyLine).foldlM (Read.step labels)
        ⟨copy, .graph (number graph) earlier :: scopes⟩ =
          .ok ⟨changed, .graph (number graph) (earlier ++ pendings) :: scopes⟩ ∧
      RowRead m number graph ids order copy changed ∧ List.Forall₂ (Asked m) (ids.flatMap m.boundInlets) pendings

-- Child graphs are read into a compound; the last one ends when the next record of the compound comes.
def GraphsReplay (m : Module) (labels : List Nat) (table : TypeTable) (number : NodeId → Nat)
    (ids order : List NodeId) (records : List Record) : Prop :=
  ∀ {compound : NodeId} {copy : Module} {state : Read.State} {header : CompoundRecord} {graphs : List NodeId}
    {scopes : List Read.Scope},
    Read.endSubgraph state = .ok ⟨copy, .compound (number compound) header graphs :: scopes⟩ →
    copy.Owned → copy.types = table → (∃ graph, copy.role? (number compound) = some (.node graph)) →
    (∀ id ∈ ids, m.role? id = some (.subgraph compound)) → Numbered number copy.nodes.size order →
    ∃ changed next, (records.filterMap Read.bodyLine).foldlM (Read.step labels) state = .ok next ∧
      Read.endSubgraph next =
        .ok ⟨changed, .compound (number compound) header (graphs ++ ids.map number) :: scopes⟩ ∧
      Placement m number (number compound) (withChildren (ids.map number)) order copy changed ∧
      ∀ id ∈ order, Ported m number changed id

def PartReplay (m : Module) (labels : List Nat) (table : TypeTable) (number : NodeId → Nat) :
    Part → List NodeId → List Record → Prop
  | .node id => RowReplay m labels table number [id]
  | .nodes ids => RowReplay m labels table number ids
  | .graphs ids => GraphsReplay m labels table number ids

/-! ### A graph that ends -/

-- A graph of the copy that has just begun.
structure Opened (m : Module) (number : NodeId → Nat) (table : TypeTable) (id : NodeId) (node : Node)
    (copy : Module) : Prop where
  owned : copy.Owned
  types : copy.types = table
  found : m.nodes[id]? = some node
  isGraph : node.isGraph = true
  last : copy.nodes.size = number id + 1
  shown : ∃ outputs, copy.nodes[number id]? = some { node.renumber number with nodes := [], outputs := outputs }
  bare : Bare m number copy id

structure GraphRead (m : Module) (number : NodeId → Nat) (id : NodeId) (order : List NodeId)
    (copy changed : Module) : Prop where
  size : changed.nodes.size = copy.nodes.size + order.length
  types : changed.types = copy.types
  functions : changed.functions = copy.functions
  pragmas : changed.pragmas = copy.pragmas
  owned : changed.Owned
  old : ∀ query, query < number id → changed.nodes[query]? = copy.nodes[query]?
  placed : ∀ other ∈ id :: order, Placed m number changed other
  ported : ∀ other ∈ id :: order, Ported m number changed other

section Graph
variable {m copy changed : Module} {number : NodeId → Nat} {labels : List Nat} {table : TypeTable} {id : NodeId}
  {node : Node}

theorem is_graph_of_renumbered {query : NodeId} {outputs : SortedMap Nat Output} {nodes : List NodeId}
    (isGraph : node.isGraph = true)
    (shown : copy.nodes[query]? = some { node.renumber number with nodes := nodes, outputs := outputs }) :
    copy.IsGraph query := by
  refine ⟨node.role.renumber number, by simp [role?, shown, Node.renumber], fun graph => ?_⟩
  unfold Node.isGraph at isGraph
  cases role : node.role with
  | node graph => rw [role] at isGraph; cases isGraph
  | function name => simp [Role.renumber]
  | subgraph compound => simp [Role.renumber]

theorem is_graph_of_node (found : m.nodes[id]? = some node) (isGraph : node.isGraph = true) : m.IsGraph id :=
  is_graph_of_graph (graph_ok_iff.mpr ⟨found, isGraph⟩)

theorem bare_of_grown {query : NodeId} {grow : Node → Node} (same : changed.nodes[number query]? =
    copy.nodes[number query]?.map grow) (inputs : ∀ node, (grow node).inputs = node.inputs)
    (outputs : ∀ node, (grow node).outputs = node.outputs) (bare : Bare m number copy query) :
    Bare m number changed query := by
  have input : ∀ port, changed.input? ⟨number query, port⟩ = copy.input? ⟨number query, port⟩ := by
    intro port
    rw [input?, input?, same]
    cases copy.nodes[number query]? <;> simp [inputs]
  have output : ∀ port, changed.output? ⟨number query, port⟩ = copy.output? ⟨number query, port⟩ := by
    intro port
    rw [output?, output?, same]
    cases copy.nodes[number query]? <;> simp [outputs]
  refine ⟨fun port => (input port).trans (bare.input port), fun port declared => ?_, fun port other => ?_⟩
  · exact (output port).trans (bare.declared port declared)
  · exact (output port).trans (bare.output port other)

-- All that the nodes of a graph consume is fed when it ends.
theorem ported_of_refed {graph : NodeId} (owned : m.Owned) (wired : m.Wired) (isGraph : m.IsGraph graph)
    (apart : Apart number (m.members graph)) (member : id ∈ m.members graph)
    (bare : Bare m number copy id)
    (refed : Refed m number graph ((m.members graph).flatMap m.boundInlets) copy changed) :
    Ported m number changed id := by
  have here : ∀ port, (m.binding? ⟨id, port⟩).isSome →
      (⟨id, port⟩ : Inlet) ∈ (m.members graph).flatMap m.boundInlets :=
    fun port bound => List.mem_flatMap.mpr ⟨id, member, mem_bound_inlets.mpr ⟨rfl, bound⟩⟩
  have inside : ∀ inlet ∈ (m.members graph).flatMap m.boundInlets,
      inlet.node ∈ m.members graph ∧ (m.binding? inlet).isSome := by
    intro inlet listed
    obtain ⟨other, otherMember, own⟩ := List.mem_flatMap.mp listed
    obtain ⟨same, bound⟩ := mem_bound_inlets.mp own
    exact ⟨by rw [same]; exact otherMember, bound⟩
  have consumed : ∀ port, m.Consumed ⟨id, port⟩ →
      changed.output? ⟨number id, port⟩ = some (m.mirrored ⟨id, port⟩) := by
    rintro port ⟨inlet, stamp, bound⟩
    obtain ⟨_, scope, sourceScope, targetScope⟩ := wired.wires bound
    rw [scope_of_member owned isGraph member] at sourceScope
    cases sourceScope
    have listed : inlet ∈ (m.members graph).flatMap m.boundInlets :=
      List.mem_flatMap.mpr ⟨inlet.node, member_of_scope owned targetScope,
        mem_bound_inlets.mpr ⟨rfl, by rw [bound]; rfl⟩⟩
    exact refed.output inlet listed ⟨id, port⟩ stamp bound
  have others : ∀ port, ¬ m.Consumed ⟨id, port⟩ →
      changed.output? ⟨number id, port⟩ = copy.output? ⟨number id, port⟩ := by
    intro port unused
    refine refed.outputOther _ fun inlet listed source stamp bound same => unused ?_
    have sourceMember := source_member owned wired isGraph (inside inlet listed).1 bound
    have equal := outlet_apart apart sourceMember (show (⟨id, port⟩ : Outlet).node ∈ _ from member) same
    exact ⟨inlet, stamp, by rw [← equal]; exact bound⟩
  refine ⟨fun port bound => refed.input _ (here port bound), fun port unbound => ?_, fun port used => ?_,
    fun port unused => ?_⟩
  · rw [refed.inputOther, bare.input]
    intro inlet listed same
    have equal := inlet_apart apart (inside inlet listed).1 (show (⟨id, port⟩ : Inlet).node ∈ _ from member) same
    have bound := (inside inlet listed).2
    rw [equal, unbound] at bound
    cases bound
  · by_cases wire : m.Consumed ⟨id, port⟩
    · exact consumed port wire
    · rw [others port wire]
      exact bare.declared port (used.resolve_left wire)
  · rw [others port fun wire => unused (.inl wire)]
    exact bare.output port fun declared => unused (.inr declared)

theorem members_once (owned : m.Owned) (graph : NodeId) : (m.members graph).Nodup := by
  refine List.nodup_cons.mpr ⟨fun member => ?_, owned.once graph⟩
  exact Nat.lt_irrefl _ (owned.held (owned.listed member)).1

theorem member_inlets_once (owned : m.Owned) (graph : NodeId) :
    ((m.members graph).flatMap m.boundInlets).Nodup := by
  refine List.nodup_flatMap.mpr ⟨fun _ _ => bound_inlets_once, (members_once owned graph).imp ?_⟩
  intro first second different inlet inFirst inSecond
  exact different ((mem_bound_inlets.mp inFirst).1.symm.trans (mem_bound_inlets.mp inSecond).1)

theorem ready_of_row {order : List NodeId} {full : Module} (setting : Setting m labels table)
    (opened : Opened m number table id node copy) (read : RowRead m number id node.nodes order copy full)
    (isGraph : full.IsGraph (number id)) (bare : Bare m number full id) : Ready m number id full := by
  obtain ⟨outputs, shown⟩ := opened.shown
  have inside : number id < copy.nodes.size := by rw [opened.last]; exact Nat.lt_succ_self _
  have own : full.nodes[number id]? = copy.nodes[number id]?.map (withNodes (node.nodes.map number)) := by
    rw [read.grown.old _ inside, if_pos rfl]
  refine ⟨read.grown.owned, isGraph, ?_, ?_, ?_⟩
  · rw [nodes_of_node opened.found, nodesOf, own, shown]
    rfl
  · intro type member
    rw [Read.TypeHeld, read.grown.types, opened.types]
    exact setting.held type member
  · intro outlet member
    have bareToo : Bare m number full outlet.node := by
      rcases List.mem_cons.mp member with same | inner
      · rw [same]
        exact bare
      · rw [nodes_of_node opened.found] at inner
        exact read.bare _ inner
    by_cases declared : m.Declared outlet
    · exact .inr (bareToo.declared outlet.port declared)
    · exact .inl (bareToo.output outlet.port declared)

theorem graph_read {results here : List Record} {order : List NodeId} (setting : Setting m labels table)
    (opened : Opened m number table id node copy) (fed : m.bindingRecords 0 node = .ok results)
    (row : RowReplay m labels table number node.nodes order here) (inner : node.nodes ⊆ order)
    (numbered : Numbered number (number id) (id :: order)) (readable : ∀ record ∈ results, record.Readable)
    (scopes : List Read.Scope) : ∃ full pendings ended,
      ((results ++ here).filterMap Read.bodyLine).foldlM (Read.step labels)
        ⟨copy, .graph (number id) [] :: scopes⟩ = .ok ⟨full, .graph (number id) pendings :: scopes⟩ ∧
      Read.endGraph (number id) pendings full = .ok ended ∧
      full.role? (number id) = copy.role? (number id) ∧ GraphRead m number id order copy ended := by
  obtain ⟨outputs, shown⟩ := opened.shown
  have isGraph := is_graph_of_node opened.found opened.isGraph
  have nodes := nodes_of_node opened.found
  have inside : number id < copy.nodes.size := by rw [opened.last]; exact Nat.lt_succ_self _
  have later : Numbered number copy.nodes.size order := by rw [opened.last]; exact numbered.tail
  obtain ⟨first, askedFirst, waits⟩ := asked_of_bindings setting.labels ((binding_records_iff opened.found).mp fed)
    (fun inlet member => by rw [(mem_bound_inlets.mp member).1]; exact label_graph isGraph) readable
  have begun : Open number table id [] copy := by
    refine ⟨opened.owned, opened.types, is_graph_of_renumbered opened.isGraph shown, ?_⟩
    rw [nodesOf, shown]
    rfl
  obtain ⟨full, second, run, read, askedSecond⟩ := @row _ _ _ first scopes begun
    (by simp only [nodes, List.nil_append, List.prefix_refl]) later
  have own : full.nodes[number id]? = copy.nodes[number id]?.map (withNodes (node.nodes.map number)) := by
    rw [read.grown.old _ inside, if_pos rfl]
  have grown : full.nodes[number id]? =
      some { node.renumber number with nodes := [] ++ node.nodes.map number, outputs := outputs } := by
    rw [own, shown]
    rfl
  have bare : Bare m number full id := bare_of_grown own (fun _ => rfl) (fun _ => rfl) opened.bare
  have ready := ready_of_row setting opened read (is_graph_of_renumbered opened.isGraph grown) bare
  have inMembers : m.members id ⊆ id :: order := by
    unfold members
    rw [nodes]
    exact List.cons_subset_cons _ inner
  have apart : Apart number (m.members id) := numbered.apart.mono inMembers
  have asked : List.Forall₂ (Asked m) ((m.members id).flatMap m.boundInlets) (first ++ second) := by
    rw [members, List.flatMap_cons, nodes]
    exact List.rel_append askedFirst askedSecond
  obtain ⟨ended, ending, refed⟩ := end_graph_asked setting.owned setting.wired isGraph apart ready
    (fun inlet listed => by
      obtain ⟨other, member, own⟩ := List.mem_flatMap.mp listed
      rw [(mem_bound_inlets.mp own).1]
      exact member) (member_inlets_once setting.owned id) asked
  have bareMember : ∀ other ∈ m.members id, Bare m number full other := by
    intro other member
    rcases List.mem_cons.mp member with rfl | member
    · exact bare
    · rw [nodes] at member
      exact read.bare other member
  refine ⟨full, first ++ second, ended, ?_, ending, ?_, ?_⟩
  · rw [List.filterMap_append, Outcome.fold_m_append (waits copy (number id) [] scopes), List.nil_append]
    exact run
  · rw [role?, own, role?]
    cases copy.nodes[number id]? <;> rfl
  · have outside : ∀ query, query ∉ (m.members id).map number → ended.nodes[query]? = full.nodes[query]? :=
      refed.nodes
    refine ⟨refed.shape.size.trans read.grown.size, refed.types.trans read.grown.types,
      refed.shape.functions.trans read.grown.functions, refed.pragmas.trans read.grown.pragmas,
      read.grown.owned.of_same_shape refed.shape, ?_, ?_, ?_⟩
    · intro query before
      rw [outside query (numbered.before inMembers before), read.grown.old query (Nat.lt_trans before inside),
        if_neg (Nat.ne_of_lt before)]
    · intro other member
      refine placed_of_shape refed.shape refed.nodePragmas ?_
      rcases List.mem_cons.mp member with rfl | member
      · exact placed_of_renumbered opened.found grown
      · exact read.grown.placed other member
    · intro other member
      by_cases listed : other ∈ m.members id
      · exact ported_of_refed setting.owned setting.wired isGraph apart listed (bareMember other listed) refed
      · have same := outside _ (numbered.apart.unnamed inMembers member listed)
        rw [members, nodes, List.mem_cons, not_or] at listed
        have deep := (List.mem_cons.mp member).resolve_left listed.1
        exact ported_of_node same (read.ported other deep listed.2)

end Graph

/-! ### Derivations, case by case -/

theorem tops_inside {m : Module} {part : Part} {order : List NodeId} {records : List Record}
    (written : Written m part order records) : part.tops ⊆ order := by
  induction written with
  | plain => exact fun _ member => member
  | compound =>
      intro top member
      rw [List.mem_singleton.mp member]
      exact List.mem_cons_self
  | noNodes => exact fun _ member => member
  | nodes head rest headIh restIh =>
      intro top member
      rcases List.mem_cons.mp member with rfl | member
      · exact List.mem_append_left _ (headIh List.mem_cons_self)
      · exact List.mem_append_right _ (restIh member)
  | noGraphs => exact fun _ member => member
  | graphs found isGraph fed body rest bodyIh restIh =>
      intro top member
      rcases List.mem_cons.mp member with rfl | member
      · exact List.mem_cons_self
      · exact List.mem_cons_of_mem _ (List.mem_append_right _ (restIh member))

section Cases
variable {m : Module} {number : NodeId → Nat} {labels : List Nat} {table : TypeTable}

theorem inside_of_open {graph : NodeId} {before : List NodeId} {copy : Module}
    (isOpen : Open number table graph before copy) : number graph < copy.nodes.size := by
  obtain ⟨_, role, _⟩ := isOpen.isGraph
  exact lt_size_of_role role

theorem row_nil : RowReplay m labels table number [] [] [] := by
  intro graph before copy earlier scopes isOpen _ _
  refine ⟨copy, [], by rw [List.append_nil]; rfl, ⟨.refl isOpen.owned fun node => ?_, ?_, ?_⟩, .nil⟩
  · simp [withNodes]
  · exact fun _ member => by cases member
  · exact fun _ member => by cases member

theorem open_of_row {graph id : NodeId} {before order : List NodeId} {copy middle : Module}
    (isOpen : Open number table graph before copy) (read : RowRead m number graph [id] order copy middle) :
    Open number table graph (before ++ [id]) middle := by
  have inside := inside_of_open isOpen
  have own := read.grown.old _ inside
  rw [if_pos rfl] at own
  refine ⟨read.grown.owned, read.grown.types.trans isOpen.types, ?_, ?_⟩
  · obtain ⟨role, found, other⟩ := isOpen.isGraph
    obtain ⟨node, here, rfl⟩ := node_of_role found
    exact ⟨node.role, by simp [role?, own, here, withNodes], other⟩
  · obtain ⟨node, here⟩ := exists_node_iff.mpr inside
    have nodes := isOpen.nodes
    rw [nodes_of_node here] at nodes
    simp [nodesOf, own, here, withNodes, nodes]

theorem row_cons {id : NodeId} {ids first second : List NodeId} {here later : List Record}
    (top : id ∈ first) (head : RowReplay m labels table number [id] first here)
    (rest : RowReplay m labels table number ids second later) :
    RowReplay m labels table number (id :: ids) (first ++ second) (here ++ later) := by
  intro graph before copy earlier scopes isOpen prefixed numbered
  have inside := inside_of_open isOpen
  obtain ⟨middle, pendings, run, read, asked⟩ := head isOpen
    ((List.prefix_append_right_inj before).mpr ⟨ids, rfl⟩ |>.trans prefixed) numbered.left
  have size := read.grown.size
  obtain ⟨changed, more, runMore, readMore, askedMore⟩ := rest
    (open_of_row isOpen read) (by rw [List.append_assoc]; exact prefixed) (by rw [size]; exact numbered.right)
  have kept : ∀ other ∈ first, changed.nodes[number other]? = middle.nodes[number other]? :=
    fun other member => readMore.grown.kept size inside numbered.left member
  refine ⟨changed, pendings ++ more, ?_, ⟨?_, ?_, ?_⟩, ?_⟩
  · rw [List.filterMap_append, Outcome.fold_m_append run, ← List.append_assoc]
    exact runMore
  · refine (read.grown.append readMore.grown inside numbered.left).congr fun node => ?_
    simp [withNodes]
  · intro other member
    rcases List.mem_cons.mp member with rfl | member
    · exact bare_of_node (kept other top) (read.bare other List.mem_cons_self)
    · exact readMore.bare other member
  · intro other member outside
    rw [List.mem_cons, not_or] at outside
    rcases List.mem_append.mp member with member | member
    · refine ported_of_node (kept other member) (read.ported other member ?_)
      rw [List.mem_singleton]
      exact outside.1
    · exact readMore.ported other member outside.2
  · rw [List.flatMap_cons]
    exact List.rel_append (by simpa using asked) askedMore

-- A node that comes next in its graph has the next label.
theorem next_label {graph id : NodeId} {before : List NodeId} {copy : Module} {label : Nat} (owned : m.Owned)
    (isOpen : Open number table graph before copy) (prefixed : before ++ [id] <+: m.nodesOf graph)
    (labelled : m.label id = .ok label) :
    m.role? id = some (.node graph) ∧ label = (copy.nodesOf (number graph)).length + 1 := by
  have found : (m.nodesOf graph)[before.length]? = some id := by
    obtain ⟨rest, whole⟩ := prefixed
    rw [← whole, List.append_assoc, List.getElem?_append_right (Nat.le_refl _), Nat.sub_self]
    rfl
  have role := owned.listed (List.mem_of_getElem? found)
  rw [label_node owned role, Places.idx_of_at (owned.once graph) found] at labelled
  cases labelled
  refine ⟨role, ?_⟩
  rw [isOpen.nodes, List.length_map]

theorem nodes_of_plain {graph id : NodeId} {node : Node} (owned : m.Owned) (found : m.nodes[id]? = some node)
    (role : m.role? id = some (.node graph)) : node.nodes = [] := by
  refine List.eq_nil_iff_forall_not_mem.mpr fun inner member => ?_
  rw [← nodes_of_node found] at member
  obtain ⟨_, ⟨other, here, isGraph⟩, _⟩ := owned.held (owned.listed member)
  rw [role] at here
  cases here
  exact isGraph graph rfl

theorem children_of_graph {id : NodeId} {node : Node} (owned : m.Owned) (found : m.nodes[id]? = some node)
    (isGraph : node.isGraph = true) : node.children = [] := by
  refine List.eq_nil_iff_forall_not_mem.mpr fun inner member => ?_
  rw [← children_of_node found] at member
  obtain ⟨_, graph, role⟩ := owned.inside (owned.child member)
  obtain ⟨other, here, plain⟩ := is_graph_of_node found isGraph
  rw [role] at here
  cases here
  exact plain graph rfl

theorem renumber_plain {graph id : NodeId} {node : Node} (found : m.nodes[id]? = some node)
    (role : m.role? id = some (.node graph)) (nodes : node.nodes = []) :
    node.renumber number =
      { opcode := node.opcode, role := .node (number graph), children := node.children.map number,
        pragmas := node.pragmas.normalize } := by
  rw [role_eq_some_of_node found] at role
  have shape : node.role = .node graph := Option.some.inj role
  simp [Node.renumber, Node.writtenOpcode, Node.isGraph, shape, Role.renumber, nodes]

theorem role_apart {graph id : NodeId} (role : m.role? id = some (.node graph)) (name : String) :
    m.role? id ≠ some (.function name) := by
  rw [role]
  simp

theorem row_plain {id : NodeId} {node : Node} {label : Nat} {bindings : List Record}
    (setting : Setting m labels table) (found : m.nodes[id]? = some node) (labelled : m.label id = .ok label)
    (childless : node.children = []) (fed : m.bindingRecords label node = .ok bindings)
    (readable : ∀ record ∈ Record.node ⟨label, node.opcode, node.pragmas⟩ :: bindings, record.Readable) :
    RowReplay m labels table number [id] [id] (.node ⟨label, node.opcode, node.pragmas⟩ :: bindings) := by
  intro graph before copy earlier scopes isOpen prefixed numbered
  obtain ⟨role, expected⟩ := next_label setting.owned isOpen prefixed labelled
  have inside := inside_of_open isOpen
  have name := numbered.head
  obtain ⟨pendings, asked, waits⟩ := asked_of_bindings setting.labels ((binding_records_iff found).mp fed)
    (fun inlet member => by rw [(mem_bound_inlets.mp member).1]; exact labelled)
    fun record member => readable record (List.mem_cons_of_mem _ member)
  have step := step_node labels earlier scopes (readable _ List.mem_cons_self).clear
    isOpen.isGraph expected
  let changed := setNodePragmas copy.nodes.size node.pragmas.normalize (withNode (number graph) node.opcode copy)
  have look := nodes_with_new_node node.opcode inside
  have quiet := Quiet.of_node_pragmas (withNode (number graph) node.opcode copy) copy.nodes.size
    node.pragmas.normalize
  have shown : changed.nodes[number id]? = some (node.renumber number) := by
    rw [name, nodes_with_pragmas, if_pos rfl, look, if_pos rfl,
      renumber_plain found role (nodes_of_plain setting.owned found role), childless]
    rfl
  refine ⟨changed, pendings, ?_, ⟨⟨?_, rfl, rfl, rfl, ?_, ?_, ?_⟩, ?_, ?_⟩, ?_⟩
  · rw [fold_body rfl step]
    exact waits changed (number graph) earlier scopes
  · rw [quiet.shape.size]
    simp [withNode, size_modify]
  · exact (owned_with_node node.opcode isOpen.isGraph isOpen.owned).of_same_shape quiet.shape
  · intro query before
    have other := Nat.ne_of_lt before
    rw [nodes_with_pragmas, if_neg other, look, if_neg other, List.map_cons, name]
    rfl
  · intro other member
    rw [List.mem_singleton.mp member]
    exact placed_of_renumbered found shown
  · intro other member
    rw [List.mem_singleton.mp member]
    exact bare_of_renumbered shown (role_apart role)
  · exact fun other member outside => absurd member outside
  · simpa using asked

theorem listed_offsets (number : NodeId → Nat) (node : Node) :
    List.Forall₂ (fun offset child => (node.distinctChildren.map number)[offset]? = some child)
      (offsetsOf node) (node.children.map number) := by
  unfold offsetsOf
  rw [List.forall₂_map_left_iff, List.forall₂_map_right_iff]
  refine List.forall₂_same.mpr fun child member => ?_
  rw [List.getElem?_map, List.getElem?_idxOf (mem_distinct_children.mpr member)]
  rfl

theorem closed_renumber {graph id : NodeId} {node : Node} (found : m.nodes[id]? = some node)
    (role : m.role? id = some (.node graph)) (nodes : node.nodes = []) (ids : List NodeId) :
    Read.closed (node.children.map number) node.pragmas.normalize
      (withChildren ids { opcode := node.opcode, role := .node (number graph) }) = node.renumber number := by
  rw [renumber_plain found role nodes]
  rfl

theorem row_compound {id : NodeId} {node : Node} {label : Nat} {order : List NodeId}
    {bodies bindings : List Record} (setting : Setting m labels table) (found : m.nodes[id]? = some node)
    (labelled : m.label id = .ok label) (inner : node.distinctChildren ⊆ order)
    (graphs : GraphsReplay m labels table number node.distinctChildren order bodies)
    (fed : m.bindingRecords label node = .ok bindings)
    (head : (Record.compound ⟨label, node.opcode⟩).Clear)
    (last : (Record.trailer ⟨label, node.opcode, offsetsOf node, node.pragmas⟩).Clear)
    (readable : ∀ record ∈ bindings, record.Readable) :
    RowReplay m labels table number [id] (id :: order) (.compound ⟨label, node.opcode⟩ :: bodies
      ++ .trailer ⟨label, node.opcode, offsetsOf node, node.pragmas⟩ :: bindings) := by
  intro graph before copy earlier scopes isOpen prefixed numbered
  obtain ⟨role, expected⟩ := next_label setting.owned isOpen prefixed labelled
  have inside := inside_of_open isOpen
  have name := numbered.head
  have below : Numbered number (copy.nodes.size + 1) order := numbered.tail
  have nodes := nodes_of_plain setting.owned found role
  obtain ⟨pendings, asked, waits⟩ := asked_of_bindings setting.labels ((binding_records_iff found).mp fed)
    (fun inlet member => by rw [(mem_bound_inlets.mp member).1]; exact labelled) readable
  have step := step_compound labels earlier scopes head isOpen.isGraph expected
  let middle := withNode (number graph) node.opcode copy
  have look : ∀ query, middle.nodes[query]? = _ := nodes_with_new_node node.opcode inside
  have fresh : middle.nodes[number id]? = some { opcode := node.opcode, role := .node (number graph) } := by
    rw [look, name, if_pos rfl]
  have size : middle.nodes.size = copy.nodes.size + 1 := by simp [middle, withNode, size_modify]
  have inMiddle : number id < middle.nodes.size := by rw [size, name]; exact Nat.lt_succ_self _
  have ended : Read.endSubgraph ⟨middle, .compound (number id) ⟨label, node.opcode⟩ [] ::
      .graph (number graph) earlier :: scopes⟩ = .ok ⟨middle, .compound (number id) ⟨label, node.opcode⟩ [] ::
      .graph (number graph) earlier :: scopes⟩ := rfl
  obtain ⟨grown, next, run, endedNext, placement, ported⟩ := graphs ended
    (owned_with_node node.opcode isOpen.isGraph isOpen.owned) isOpen.types
    ⟨number graph, by simp [role?, fresh]⟩
    (fun child member => setting.owned.child (by
      rw [children_of_node found]
      exact mem_distinct_children.mp member))
    (by rw [size]; exact below)
  have trailer := step_trailer labels last endedNext (by
    rw [List.nil_append]
    exact listed_offsets number node)
  let changed := modifyNode (number id) (Read.closed (node.children.map number) node.pragmas.normalize) grown
  have lookChanged : ∀ query, query ≠ number id → changed.nodes[query]? = grown.nodes[query]? := by
    intro query other
    rw [nodes_modify, if_neg other]
  have shown : changed.nodes[number id]? = some (node.renumber number) := by
    rw [nodes_modify, if_pos rfl, placement.old _ inMiddle, if_pos rfl, fresh, Option.map_some, Option.map_some,
      closed_renumber found role nodes]
  have apart : ∀ other ∈ order, number other ≠ number id := by
    intro other member same
    have bounds := below.bounds member
    omega
  have roles : ∀ child ∈ node.children.map number, grown.role? child = some (.subgraph (number id)) := by
    intro child member
    obtain ⟨old, listed, rfl⟩ := List.mem_map.mp member
    have owner := setting.owned.child (by rw [children_of_node found]; exact listed)
    rw [(placement.placed old (inner (mem_distinct_children.mpr listed))).role, owner]
    rfl
  have inGrown : number id < grown.nodes.size := by
    rw [placement.size]
    exact Nat.lt_add_right _ inMiddle
  refine ⟨changed, pendings, ?_, ⟨⟨?_, placement.types, placement.functions, placement.pragmas, ?_, ?_, ?_⟩,
    ?_, ?_⟩, ?_⟩
  · rw [List.filterMap_append, Outcome.fold_m_append ((fold_body rfl step).trans (by rw [← name]; exact run)),
      fold_body rfl trailer]
    exact waits changed (number graph) earlier scopes
  · rw [size_modify, placement.size, size, List.length_cons]
    omega
  · exact Read.owned_closed _ inGrown roles placement.owned
  · intro query before
    have other : query ≠ number id := by rw [name]; exact Nat.ne_of_lt before
    rw [lookChanged query other, placement.old query (by omega), if_neg other, look,
      if_neg (Nat.ne_of_lt before), List.map_cons, name]
    rfl
  · intro other member
    rcases List.mem_cons.mp member with rfl | member
    · exact placed_of_renumbered found shown
    · exact placed_of_node (lookChanged _ (apart other member)) (placement.placed other member)
  · intro other member
    rw [List.mem_singleton.mp member]
    exact bare_of_renumbered shown (role_apart role)
  · intro other member outside
    have deep := (List.mem_cons.mp member).resolve_left fun same => outside (List.mem_singleton.mpr same)
    exact ported_of_node (lookChanged _ (apart other deep)) (ported other deep)
  · simpa using asked

theorem graphs_nil : GraphsReplay m labels table number [] [] [] := by
  intro compound copy state header graphs scopes ended owned _ _ _ _
  refine ⟨copy, state, rfl, by rw [List.map_nil, List.append_nil]; exact ended, .refl owned fun node => ?_,
    fun _ member => by cases member⟩
  simp [withChildren]

theorem end_subgraph_run {copy ended : Module} {id compound : NodeId} {pendings : List Read.Pending}
    {scopes : List Read.Scope} (role : copy.role? id = some (.subgraph compound))
    (ending : Read.endGraph id pendings copy = .ok ended) :
    Read.endSubgraph ⟨copy, .graph id pendings :: scopes⟩ = .ok ⟨ended, scopes⟩ := by
  rw [Read.end_subgraph_eq, role]
  exact (Outcome.bind_of_ok ending).trans rfl

theorem opened_graph {compound id : NodeId} {node : Node} {copy : Module} (setting : Setting m labels table)
    (found : m.nodes[id]? = some node) (role : m.role? id = some (.subgraph compound)) (owned : copy.Owned)
    (types : copy.types = table) (plain : ∃ graph, copy.role? (number compound) = some (.node graph))
    (name : number id = copy.nodes.size) :
    Opened m number table id node
      (setNodePragmas copy.nodes.size node.pragmas.normalize (withGraph (number compound) copy)) := by
  have isGraph : node.isGraph = true := by
    rw [role_eq_some_of_node found] at role
    simp [Node.isGraph, Option.some.inj role]
  have inside : number compound < copy.nodes.size := by
    obtain ⟨_, here⟩ := plain
    exact lt_size_of_role here
  have quiet := Quiet.of_node_pragmas (withGraph (number compound) copy) copy.nodes.size node.pragmas.normalize
  have shown : (setNodePragmas copy.nodes.size node.pragmas.normalize (withGraph (number compound) copy)).nodes[
      number id]? = some { node.renumber number with nodes := [] } := by
    have childless := children_of_graph setting.owned found isGraph
    rw [role_eq_some_of_node found] at role
    rw [name, nodes_with_pragmas, if_pos rfl, nodes_with_new_graph inside, if_pos rfl]
    simp [Node.renumber, Node.writtenOpcode, isGraph, Option.some.inj role, Role.renumber, childless]
  refine ⟨(owned_with_graph plain owned).of_same_shape quiet.shape, types, found, isGraph, ?_, ⟨_, shown⟩, ?_⟩
  · rw [quiet.shape.size, name]
    simp [withGraph, appendChild, size_modify]
  · refine bare_of_renumbered shown fun name => ?_
    rw [role]
    simp

theorem placement_of_graph {compound id : NodeId} {first : List NodeId} {copy ended : Module} {pragmas : Pragmas}
    (inside : number compound < copy.nodes.size) (name : number id = copy.nodes.size)
    (read : GraphRead m number id first
      (setNodePragmas copy.nodes.size pragmas (withGraph (number compound) copy)) ended) :
    Placement m number (number compound) (withChildren [number id]) (id :: first) copy ended := by
  have quiet := Quiet.of_node_pragmas (withGraph (number compound) copy) copy.nodes.size pragmas
  refine ⟨?_, read.types, read.functions, read.pragmas, read.owned, ?_, read.placed⟩
  · rw [read.size, quiet.shape.size, List.length_cons]
    simp [withGraph, appendChild, size_modify]
    omega
  · intro query before
    have other := Nat.ne_of_lt before
    rw [read.old query (by rw [name]; exact before), nodes_with_pragmas, if_neg other,
      nodes_with_new_graph inside, if_neg other, name]

theorem graphs_cons {id : NodeId} {ids first second : List NodeId} {node : Node}
    {results here later : List Record} (setting : Setting m labels table) (found : m.nodes[id]? = some node)
    (fed : m.bindingRecords 0 node = .ok results) (inner : node.nodes ⊆ first)
    (row : RowReplay m labels table number node.nodes first here)
    (rest : GraphsReplay m labels table number ids second later) (head : (Record.graph node.pragmas).Clear)
    (readable : ∀ record ∈ results, record.Readable) :
    GraphsReplay m labels table number (id :: ids) (id :: (first ++ second))
      (.graph node.pragmas :: (results ++ here) ++ later) := by
  intro compound copy state header graphs scopes ended owned types plain roles numbered
  have role := roles id List.mem_cons_self
  have name := numbered.head
  have inside : number compound < copy.nodes.size := by
    obtain ⟨_, here⟩ := plain
    exact lt_size_of_role here
  have front : Numbered number copy.nodes.size (id :: first) := numbered.left
  have back : Numbered number (copy.nodes.size + (id :: first).length) second :=
    numbered.right
  have step := step_graph labels head ended plain
  obtain ⟨full, pendings, closed, run, ending, sameRole, read⟩ := graph_read setting
    (opened_graph setting found role owned types plain name) fed row inner (by rw [name]; exact front) readable
    (.compound (number compound) header (graphs ++ [copy.nodes.size]) :: scopes)
  have placement := placement_of_graph inside name read
  have graphRole : full.role? (number id) = some (.subgraph (number compound)) := by
    rw [sameRole, name, (Quiet.of_node_pragmas _ _ _).shape.role, role_with_graph, if_pos rfl]
  have host : closed.role? (number compound) = copy.role? (number compound) := by
    rw [role?, placement.old _ inside, if_pos rfl, role?]
    cases copy.nodes[number compound]? <;> rfl
  obtain ⟨changed, next, runMore, endedNext, more, portedMore⟩ := rest (end_subgraph_run graphRole ending)
    placement.owned (placement.types.trans types) (by rw [host]; exact plain)
    (fun other member => roles other (List.mem_cons_of_mem _ member)) (by rw [placement.size]; exact back)
  have kept : ∀ other ∈ id :: first, changed.nodes[number other]? = closed.nodes[number other]? :=
    fun other member => more.kept placement.size inside front member
  refine ⟨changed, next, ?_, ?_, ?_, ?_⟩
  · rw [List.filterMap_append]
    refine (Outcome.fold_m_append ((fold_body rfl step).trans ?_)).trans runMore
    rw [← name]
    rw [← name] at run
    exact run
  · rw [endedNext, List.append_assoc, List.map_cons, name]
    rfl
  · refine (placement.append more inside front).congr fun node => ?_
    simp [withChildren]
  · intro other member
    rcases List.mem_append.mp (show other ∈ (id :: first) ++ second from member) with member | member
    · exact ported_of_node (kept other member) (read.ported other member)
    · exact portedMore other member

theorem replay_of_written {part : Part} {order : List NodeId} {records : List Record}
    (setting : Setting m labels table) (written : Written m part order records)
    (readable : ∀ record ∈ records, record.Readable) : PartReplay m labels table number part order records := by
  induction written with
  | plain found labelled bare fed => exact row_plain setting found labelled bare fed readable
  | compound found labelled holds inner fed ih =>
      refine row_compound setting found labelled (tops_inside inner) (ih fun record member => ?_) fed
        (readable _ (by simp)).clear (readable _ (by simp)).clear fun record member => ?_
      all_goals exact readable _ (by simp [member])
  | noNodes => exact row_nil
  | nodes head rest headIh restIh =>
      exact row_cons (tops_inside head List.mem_cons_self)
        (headIh fun record member => readable record (List.mem_append_left _ member))
        (restIh fun record member => readable record (List.mem_append_right _ member))
  | noGraphs => exact graphs_nil
  | graphs found isGraph fed body rest bodyIh restIh =>
      refine graphs_cons setting found fed (tops_inside body) (bodyIh fun record member => ?_)
        (restIh fun record member => ?_) (readable _ (by simp)).clear fun record member => ?_
      all_goals exact readable _ (by simp [member])

end Cases

end Dataflow.Module
