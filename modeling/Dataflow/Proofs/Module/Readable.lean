import Dataflow.Proofs.Module.Legible
import Dataflow.Proofs.Module.Rereading
import Dataflow.Proofs.Module.Tables
set_option autoImplicit false

-- Whatever text is read, its module can be written in records that can be read again. Child graphs
-- are counted when their compound ends, so an open compound may have too many of them.
namespace Dataflow.Module.Read
open TypeTable
open Text (wordBound)

structure Readable (table : TypeTable) (m : Module) : Prop extends Printable m Pragmas.Plain, Counted m where
  types : m.types = table
  header : ∀ entry ∈ m.pragmas.entries, (Record.pragma entry.1 entry.2).Wordy
  declared : ∀ outlet, LiveOption table (m.outputType? outlet)
  literals : ∀ {inlet literal}, m.binding? inlet = some (.literal literal) → LiveOption table literal.type

structure Pending.Legible (table : TypeTable) (pending : Pending) : Prop where
  port : pending.port < wordBound
  live : LiveOption table pending.type
  plain : pending.pragmas.Plain
  wire : ∀ {label port}, pending.feed = .wire label port → port < wordBound
  text : ∀ {text}, pending.feed = .text text → '\n' ∉ text.toList ∧ pending.pragmas.Quoteless

/-! ### One record of a graph that ends -/

section Feed
variable {table : TypeTable} {m : Module} {source : Outlet} {target : Inlet} {pragmas : Pragmas}

theorem declared_fed_wire {type : Option TypeId} (inside : source.node < m.nodes.size)
    (live : LiveOption table type) (declared : ∀ outlet, LiveOption table (m.outputType? outlet)) (outlet : Outlet) :
    LiveOption table ((fedWire source target type pragmas m).outputType? outlet) := by
  have offeredInside : source.node < (offered source type m).nodes.size := by
    rw [size_offered]
    exact inside
  have offeredLive : LiveOption table ((offered source type m).outputType? outlet) := by
    unfold offered
    split
    · rename_i known untyped
      unfold typed
      rw [outputType?, output_modify_output _ _ _ _ inside]
      split
      · exact live
      · exact declared outlet
    · exact declared outlet
  unfold fedWire
  rw [outputType?, output_noted, output_connect source outlet offeredInside]
  by_cases same : outlet = source
  · subst same
    rw [if_pos rfl]
    unfold outputType? at offeredLive
    cases found : (offered outlet type m).output? outlet with
    | none => exact fun _ none => by cases none
    | some output =>
        rw [found] at offeredLive
        exact offeredLive
  · rw [if_neg same]
    exact offeredLive

theorem output_fed_wire_ok {type : Option TypeId} (inside : source.node < m.nodes.size)
    (numbered : source.port < wordBound)
    (held : ∀ {outlet output}, m.output? outlet = some output → outlet.port < wordBound ∧ output.pragmas.Plain)
    {outlet : Outlet} {output : Output} (found : (fedWire source target type pragmas m).output? outlet = some output) :
    outlet.port < wordBound ∧ output.pragmas.Plain := by
  have offeredInside : source.node < (offered source type m).nodes.size := by
    rw [size_offered]
    exact inside
  have offeredHeld : ∀ {outlet output}, (offered source type m).output? outlet = some output →
      outlet.port < wordBound ∧ output.pragmas.Plain := by
    intro outlet output found
    unfold offered at found
    split at found
    · unfold typed at found
      rw [output_modify_output _ _ _ _ inside] at found
      split at found
      · rename_i same
        cases found
        refine ⟨by rw [same]; exact numbered, ?_⟩
        cases before : m.output? outlet with
        | none => exact Pragmas.plain_empty
        | some old => exact (held before).2
      · exact held found
    · exact held found
  unfold fedWire at found
  rw [output_noted, output_connect source outlet offeredInside] at found
  split at found
  · rename_i same
    cases found
    refine ⟨by rw [same]; exact numbered, ?_⟩
    cases before : (offered source type m).output? outlet with
    | none => exact Pragmas.plain_empty
    | some old => exact (offeredHeld before).2
  · exact offeredHeld found

theorem readable_fed_wire {type : Option TypeId} (readable : Readable table m)
    (sourceInside : source.node < m.nodes.size) (targetInside : target.node < m.nodes.size)
    (sourceNumbered : 1 ≤ source.port) (targetNumbered : 1 ≤ target.port)
    (sourcePort : source.port < wordBound) (targetPort : target.port < wordBound) (live : LiveOption table type)
    (plain : pragmas.Plain) : Readable table (fedWire source target type pragmas m) := by
  have shape := shape_fed_wire (m := m) type pragmas sourceNumbered targetNumbered
  have input := input_fed_wire (m := m) source type pragmas targetInside
  have output := fun {outlet output} => @output_fed_wire_ok _ source target pragmas type sourceInside sourcePort
    (fun found => ⟨readable.outlets (by rw [found]; rfl), readable.output found⟩) outlet output
  refine ⟨⟨fun role => ?_, fun id => ?_, fun found => ?_, fun found => (output found).2, fun bound => ?_⟩,
    ⟨fun held => ?_, fun held => ?_, fun id => ?_⟩, ?_, ?_, ?_, fun bound => ?_⟩
  · rw [shape.role] at role
    rw [pragmas_of_fed_wire]
    exact readable.named role
  · rw [pragmas_of_fed_wire]
    exact readable.own id
  · rw [input] at found
    split at found
    · cases found
      exact plain
    · exact readable.input found
  · rw [binding?, input] at bound
    rw [input]
    split at bound
    · cases bound
    · rename_i other
      rw [if_neg other]
      exact readable.literal bound
  · rw [input] at held
    split at held
    · rename_i same
      rw [same]
      exact targetPort
    · exact readable.inlets held
  · obtain ⟨_, found⟩ := Option.isSome_iff_exists.mp held
    exact (output found).1
  · rw [shape.nodes]
    exact readable.nodes id
  · rw [← readable.types, fedWire, types_noted, types_connect, types_offered]
  · rw [fedWire, pragmas_noted, pragmas_connect, pragmas_offered]
    exact readable.header
  · exact declared_fed_wire sourceInside live readable.declared
  · rw [binding?, input] at bound
    split at bound
    · cases bound
    · exact readable.literals bound

theorem readable_fed_text {literal : Literal} (readable : Readable table m)
    (inside : target.node < m.nodes.size) (numbered : 1 ≤ target.port) (port : target.port < wordBound)
    (live : LiveOption table literal.type) (plain : pragmas.Plain) (quoteless : pragmas.Quoteless)
    (single : '\n' ∉ literal.text.toList) : Readable table (fedText target literal pragmas m) := by
  have shape := shape_fed_text (m := m) literal pragmas numbered
  have input := input_fed_text (m := m) literal pragmas inside
  refine ⟨⟨fun role => ?_, fun id => ?_, fun found => ?_, fun found => ?_, fun bound => ?_⟩,
    ⟨fun held => ?_, fun held => ?_, fun id => ?_⟩, ?_, ?_, fun outlet => ?_, fun bound => ?_⟩
  · rw [shape.role] at role
    rw [pragmas_of_fed_text]
    exact readable.named role
  · rw [pragmas_of_fed_text]
    exact readable.own id
  · rw [input] at found
    split at found
    · cases found
      exact plain
    · exact readable.input found
  · rw [output_fed_text] at found
    exact readable.output found
  · rw [binding?, input] at bound
    rw [input]
    split at bound
    · rename_i same
      cases bound
      rw [if_pos same]
      exact ⟨single, @quoteless⟩
    · rename_i other
      rw [if_neg other]
      exact readable.literal bound
  · rw [input] at held
    split at held
    · rename_i same
      rw [same]
      exact port
    · exact readable.inlets held
  · rw [output_fed_text] at held
    exact readable.outlets held
  · rw [shape.nodes]
    exact readable.nodes id
  · rw [← readable.types, fedText, types_noted, types_bind]
  · rw [fedText, pragmas_noted, pragmas_bind]
    exact readable.header
  · rw [outputType?, output_fed_text]
    exact readable.declared outlet
  · rw [binding?, input] at bound
    split at bound
    · cases bound
      exact live
    · exact readable.literals bound

theorem readable_fed {graph : NodeId} {changed : Module} {pending : Pending} (owned : m.Owned)
    (isGraph : m.IsGraph graph) (readable : Readable table m) (legible : pending.Legible table)
    (fed : Fed graph (m.nodesOf graph) m pending changed) : Readable table changed := by
  have inside : ∀ {label id}, nodeAt graph (m.nodesOf graph) label = .ok id → id < m.nodes.size := by
    intro label id found
    exact lt_size_of_scope (node_at_scope owned isGraph found)
  cases fed with
  | wire feed sourceAt targetAt sourceNumbered targetNumbered =>
      exact readable_fed_wire readable (inside sourceAt) (inside targetAt) sourceNumbered targetNumbered
        (legible.wire feed) legible.port legible.live legible.plain
  | text feed targetAt numbered held =>
      obtain ⟨single, quoteless⟩ := legible.text feed
      exact readable_fed_text readable (inside targetAt) numbered legible.port legible.live legible.plain
        (@quoteless) single

theorem readable_end_graph {id : NodeId} {pendings : List Pending} {changed : Module} (owned : m.Owned)
    (isGraph : m.IsGraph id) (readable : Readable table m)
    (legible : ∀ pending ∈ pendings, pending.Legible table) (done : endGraph id pendings m = .ok changed) :
    Readable table changed := by
  rw [end_graph_eq] at done
  induction pendings generalizing m with
  | nil =>
      cases done
      exact readable
  | cons first rest ih =>
      obtain ⟨middle, here, later⟩ := Outcome.fold_m_cons done
      have fed := fed_of_resolve owned isGraph here
      have shape := (same_shape_fed fed).1
      rw [← shape.nodes id] at later
      exact ih (owned.of_same_shape shape) (is_graph_of_same_shape shape isGraph)
        (readable_fed owned isGraph readable (legible first List.mem_cons_self) fed)
        (fun pending member => legible pending (List.mem_cons_of_mem _ member)) later

end Feed

/-! ### New nodes -/

section New
variable {table : TypeTable} {m changed : Module}

theorem Readable.of_extends (readable : Readable table m) (extends_ : Extends m changed)
    (types : changed.types = m.types) (pragmas : changed.pragmas = m.pragmas)
    (named : ∀ {id name}, changed.role? id = some (.function name) →
      '\n' ∉ name.toList ∧ (changed.pragmasOf id).Quoteless)
    (plain : ∀ id, (changed.pragmasOf id).Plain) (nodes : ∀ id, (changed.nodesOf id).length < wordBound) :
    Readable table changed := by
  refine ⟨⟨named, plain, fun found => ?_, fun found => ?_, fun bound => ?_⟩, ⟨fun held => ?_, fun held => ?_, nodes⟩,
    types.trans readable.types, by rw [pragmas]; exact readable.header, fun outlet => ?_, fun bound => ?_⟩
  · rw [extends_.input] at found
    exact readable.input found
  · rw [extends_.output] at found
    exact readable.output found
  · rw [binding_eq_of_input (extends_.input _)] at bound
    rw [extends_.input]
    exact readable.literal bound
  · rw [extends_.input] at held
    exact readable.inlets held
  · rw [extends_.output] at held
    exact readable.outlets held
  · rw [outputType?, extends_.output]
    exact readable.declared outlet
  · rw [binding_eq_of_input (extends_.input _)] at bound
    exact readable.literals bound

theorem pragmas_of_pushed {node : Node} (m : Module) (bare : node.pragmas = .empty) (query : NodeId) :
    (pushed node m).pragmasOf query = m.pragmasOf query := by
  simp only [pragmasOf, nodes_pushed]
  split
  · rename_i new
    simp [new, bare]
  · rfl

theorem pragmas_of_new_function (op : Opcode) (name : String) (m : Module) (query : NodeId) :
    (withFunction op name m).pragmasOf query = m.pragmasOf query :=
  pragmas_of_pushed m rfl query

theorem pragmas_of_new_node (graph : NodeId) (op : Opcode) (m : Module) (query : NodeId) :
    (withNode graph op m).pragmasOf query = m.pragmasOf query :=
  (pragmas_of_modify _ graph (fun owner => { owner with nodes := owner.nodes ++ [m.nodes.size] })
    (fun _ => rfl) query).trans (pragmas_of_pushed m rfl query)

theorem pragmas_of_new_graph (compound : NodeId) (m : Module) (query : NodeId) :
    (withGraph compound m).pragmasOf query = m.pragmasOf query :=
  (pragmas_of_modify _ compound (fun owner => { owner with children := owner.children ++ [m.nodes.size] })
    (fun _ => rfl) query).trans
      (pragmas_of_pushed m rfl query)

theorem pragmas_of_set {id query : NodeId} (pragmas : Pragmas) (m : Module) :
    (setNodePragmas id pragmas m).pragmasOf query = pragmas ∨
      (setNodePragmas id pragmas m).pragmasOf query = m.pragmasOf query := by
  simp only [pragmasOf, nodes_with_pragmas]
  split
  · cases m.nodes[query]? <;> simp
  · exact .inr rfl

theorem pragmas_of_set_other {id query : NodeId} (pragmas : Pragmas) (m : Module) (other : query ≠ id) :
    (setNodePragmas id pragmas m).pragmasOf query = m.pragmasOf query := by
  simp only [pragmasOf, nodes_with_pragmas, if_neg other]

theorem readable_pragmas {id : NodeId} {pragmas : Pragmas} (readable : Readable table m) (plain : pragmas.Plain)
    (quoteless : ∀ name, m.role? id = some (.function name) → pragmas.Quoteless) :
    Readable table (setNodePragmas id pragmas m) := by
  have shape := (Quiet.of_node_pragmas m id pragmas).shape
  have extends_ : Extends m (setNodePragmas id pragmas m) :=
    .of_modify _ _ (fun _ => rfl) (fun _ => rfl) fun _ => rfl
  refine readable.of_extends extends_ rfl rfl (fun {query name} role => ?_) (fun query => ?_) fun query => ?_
  · rw [shape.role] at role
    refine ⟨(readable.named role).1, ?_⟩
    by_cases same : query = id
    · subst same
      rcases pragmas_of_set pragmas m with new | old
      · rw [new]
        exact quoteless name role
      · rw [old]
        exact (readable.named role).2
    · rw [pragmas_of_set_other pragmas m same]
      exact (readable.named role).2
  · rcases pragmas_of_set pragmas m with new | old
    · rw [new]
      exact plain
    · rw [old]
      exact readable.own query
  · rw [shape.nodes]
    exact readable.nodes query

theorem readable_new_function {name : String} (readable : Readable table m) (single : '\n' ∉ name.toList) :
    Readable table (withFunction .xGraph name m) := by
  refine readable.of_extends (.of_function .xGraph name) rfl rfl (fun {query other} role => ?_) (fun query => ?_)
    fun query => ?_
  · rw [role_with_function] at role
    rw [pragmas_of_new_function]
    split at role
    · rename_i new
      cases role
      refine ⟨single, ?_⟩
      rw [new]
      simp [pragmasOf, Pragmas.quoteless_empty]
    · exact readable.named role
  · rw [pragmas_of_new_function]
    exact readable.own query
  · rw [nodes_with_function]
    exact readable.nodes query

theorem readable_new_node {graph : NodeId} (op : Opcode) (readable : Readable table m)
    (inside : graph < m.nodes.size) (few : (m.nodesOf graph).length + 1 < wordBound) :
    Readable table (withNode graph op m) := by
  refine readable.of_extends (.of_node graph op) rfl rfl (fun {query other} role => ?_) (fun query => ?_) fun query => ?_
  · rw [role_with_node] at role
    rw [pragmas_of_new_node]
    split at role
    · cases role
    · exact readable.named role
  · rw [pragmas_of_new_node]
    exact readable.own query
  · rw [nodes_with_node m query op inside]
    split
    · rename_i same
      rw [List.length_append, same]
      exact few
    · exact readable.nodes query

theorem readable_new_graph {compound : NodeId} (readable : Readable table m) :
    Readable table (withGraph compound m) := by
  refine readable.of_extends (.of_graph compound) rfl rfl (fun {query other} role => ?_) (fun query => ?_)
    fun query => ?_
  · rw [role_with_graph] at role
    rw [pragmas_of_new_graph]
    split at role
    · cases role
    · exact readable.named role
  · rw [pragmas_of_new_graph]
    exact readable.own query
  · rw [nodes_with_graph]
    exact readable.nodes query

theorem readable_closed {id : NodeId} {children : List NodeId} {pragmas : Pragmas} (readable : Readable table m)
    (plain : pragmas.Plain) (isPlain : ∃ graph, m.role? id = some (.node graph)) :
    Readable table (modifyNode id (closed children pragmas) m) := by
  have extends_ : Extends m (modifyNode id (closed children pragmas) m) :=
    .of_modify _ _ (fun _ => rfl) (fun _ => rfl) fun _ => rfl
  refine readable.of_extends extends_ rfl rfl (fun {query name} role => ?_) (fun query => ?_) fun query => ?_
  · rw [role_closed] at role
    have other : query ≠ id := by
      obtain ⟨graph, here⟩ := isPlain
      intro same
      rw [same, here] at role
      cases role
    have same : (modifyNode id (closed children pragmas) m).pragmasOf query = m.pragmasOf query := by
      simp only [pragmasOf, nodes_modify, if_neg other]
    rw [same]
    exact readable.named role
  · simp only [pragmasOf, nodes_modify]
    split
    · cases m.nodes[query]? with
      | none => exact Pragmas.plain_empty
      | some node => exact plain
    · exact readable.own query
  · rw [nodes_closed]
    exact readable.nodes query

end New

/-! ### Arguments that a type declares -/

theorem held_of_member {m : Module} (regular : m.types.Regular) {type : TypeId} (member : type ∈ m.types.order) :
    TypeHeld m type := by
  have inside := regular.bounded type member
  rw [TypeHeld, get_eq_some_iff.mpr ⟨member, Array.getElem?_eq_getElem inside⟩]
  rfl

theorem declare_arguments_ok {id : NodeId} {m declared : Module} {type : Option TypeId} (regular : m.types.Regular)
    (closed : m.types.Closed) (inside : id < m.nodes.size) (fresh : ∀ port, m.output? ⟨id, port⟩ = none)
    (done : declareArguments id type m = .ok () declared) :
    ∃ arguments, Arguments id arguments 0 m declared ∧ arguments.length ≤ m.types.arena.size ∧
      ∀ argument ∈ arguments, argument ∈ m.types.order := by
  rw [declare_arguments_eq] at done
  obtain ⟨_, _, got, done⟩ := Edit.bind_ok done
  cases got
  have bare : declared = m → ∃ arguments, Arguments id arguments 0 m declared ∧
      arguments.length ≤ m.types.arena.size ∧ ∀ argument ∈ arguments, argument ∈ m.types.order := by
    rintro rfl
    exact ⟨[], arguments_nil, Nat.zero_le _, fun _ member => by cases member⟩
  cases shape : (type.bind m.types.get?).map TypeDef.signature with
  | none =>
      rw [shape] at done
      exact bare (Edit.pure_ok done).2.symm
  | some signature =>
      rw [shape] at done
      cases signature with
      | function first second =>
          cases first with
          | none => exact bare (Edit.pure_ok done).2.symm
          | some head =>
              obtain ⟨arguments, _, query, done⟩ := Edit.bind_ok done
              obtain ⟨chain, rfl⟩ := Edit.query_ok query
              obtain ⟨few, live⟩ := chain_ok regular closed chain
              obtain ⟨changed, run, given⟩ := declare_run inside
                (fun argument member => held_of_member regular (live argument member)) fun port _ => fresh port
              rw [run] at done
              cases done
              exact ⟨arguments, given, few, live⟩
      | _ => exact bare (Edit.pure_ok done).2.symm

theorem readable_arguments {table : TypeTable} {id : NodeId} {arguments : List TypeId} {m declared : Module}
    (readable : Readable table m) (few : arguments.length < wordBound)
    (live : ∀ argument ∈ arguments, argument ∈ table.order) (given : Arguments id arguments 0 m declared) :
    Readable table declared := by
  constructor
  case toPrintable =>
    constructor
    case named =>
      intro id name role
      rw [given.shape.role] at role
      rw [given.pragmas_of]
      exact readable.named role
    case own =>
      intro query
      rw [given.pragmas_of]
      exact readable.own query
    case input =>
      intro inlet input found
      rw [given.input] at found
      exact readable.input found
    case output =>
      intro outlet output found
      rcases given.output found with old | ⟨type, _, low, rfl⟩
      · exact readable.output old
      · exact Pragmas.plain_empty
    case literal =>
      intro inlet literal bound
      rw [binding_eq_of_input (given.input _)] at bound
      rw [given.input]
      exact readable.literal bound
  case toCounted =>
    constructor
    case inlets =>
      intro inlet held
      rw [given.input] at held
      exact readable.inlets held
    case outlets =>
      intro outlet held
      obtain ⟨output, found⟩ := Option.isSome_iff_exists.mp held
      rcases given.output found with old | ⟨_, _, low, _⟩
      · exact readable.outlets (by rw [old]; rfl)
      · rw [Nat.zero_add] at low
        exact Nat.lt_of_le_of_lt low few
    case nodes =>
      intro query
      rw [given.shape.nodes]
      exact readable.nodes query
  case types => exact given.types.trans readable.types
  case header =>
    rw [given.pragmas]
    exact readable.header
  case declared =>
    intro outlet type typed
    obtain ⟨output, found, known⟩ := Option.bind_eq_some_iff.mp typed
    rcases given.output found with old | ⟨argument, member, _, rfl⟩
    · exact readable.declared outlet type (by rw [outputType?, old]; exact known)
    · rw [← Option.some.inj known]
      exact live argument member
  case literals =>
    intro inlet literal bound
    rw [binding_eq_of_input (given.input _)] at bound
    exact readable.literals bound

/-! ### What actions keep -/

-- The types that the labels of a text stand for.
structure Listing (labels : List Nat) (table : TypeTable) : Prop where
  order : table.order = List.range labels.length
  sane : table.Sane
  few : table.arena.size < wordBound

theorem Listing.live {labels : List Nat} {table : TypeTable} (listing : Listing labels table) {label : Nat}
    {type : Option TypeId} (typed : typeAt labels label = .ok type) : LiveOption table type := by
  rintro known rfl
  unfold typeAt at typed
  split at typed
  · cases typed
  · cases found : labels.idxOf? label with
    | none => simp [found, Record.require, Except.map] at typed
    | some place =>
        rw [found] at typed
        cases typed
        obtain ⟨member, rfl⟩ := Places.idx_of_iff.mp found
        rw [listing.order]
        exact List.mem_range.mpr (List.idxOf_lt_length_iff.mpr member)

structure StateReadable (table : TypeTable) (state : State) : Prop where
  readable : Readable table state.m
  pending : ∀ {id pendings}, Scope.graph id pendings ∈ state.scopes → ∀ pending ∈ pendings, pending.Legible table
  children : ∀ id, (∀ header graphs, Scope.compound id header graphs ∉ state.scopes) →
    (state.m.childrenOf id).length < wordBound

section Actions
variable {labels : List Nat} {table : TypeTable} {m : Module} {scopes : List Scope}

theorem readable_close {id : NodeId} {pendings : List Pending} {changed : Module} (owned : m.Owned)
    (isGraph : m.IsGraph id) (kept : StateReadable table ⟨m, .graph id pendings :: scopes⟩)
    (done : endGraph id pendings m = .ok changed) : StateReadable table ⟨changed, scopes⟩ := by
  obtain ⟨_, shape, _, _⟩ := end_graph_keeps (fun _ => True) owned isGraph trivial
    (fun _ _ _ _ _ _ _ => trivial) done
  refine ⟨?_, fun member => kept.pending (List.mem_cons_of_mem _ member), fun query free => ?_⟩
  · exact readable_end_graph owned isGraph kept.readable (kept.pending List.mem_cons_self) done
  · change (changed.childrenOf query).length < wordBound
    rw [shape.children]
    refine kept.children query fun header graphs member => ?_
    rcases List.mem_cons.mp member with same | member
    · cases same
    · exact free header graphs member

theorem readable_function {line : Record.Word} {record : FunctionRecord} {type : Option TypeId} {declared : Module}
    (listing : Listing labels table) (kept : StateReadable table ⟨m, []⟩) (single : '\n' ∉ line)
    (parsed : Record.parseFunction line = .ok record) (declares : declareArguments m.nodes.size type
      (setNodePragmas m.nodes.size record.pragmas (withFunction .xGraph record.name m)) = .ok () declared) :
    StateReadable table ⟨declared, [.graph m.nodes.size []]⟩ := by
  obtain ⟨⟨named, plain, quoteless⟩, _⟩ := Record.parse_function_ok single parsed
  have quiet := Quiet.of_node_pragmas (withFunction .xGraph record.name m) m.nodes.size record.pragmas
  have types : (setNodePragmas m.nodes.size record.pragmas (withFunction .xGraph record.name m)).types = table :=
    kept.readable.types
  have begun : Readable table (setNodePragmas m.nodes.size record.pragmas (withFunction .xGraph record.name m)) :=
    readable_pragmas (readable_new_function kept.readable named) plain fun _ _ => @quoteless
  have inside : m.nodes.size <
      (setNodePragmas m.nodes.size record.pragmas (withFunction .xGraph record.name m)).nodes.size := by
    rw [quiet.shape.size]
    simp [withFunction]
  have fresh : ∀ port, (setNodePragmas m.nodes.size record.pragmas
      (withFunction .xGraph record.name m)).output? ⟨m.nodes.size, port⟩ = none := by
    intro port
    refine (output_modify _ _ (fun node => { node with pragmas := record.pragmas }) (fun _ => rfl) _).trans ?_
    rw [(Extends.of_function .xGraph record.name).output]
    simp [output?]
  obtain ⟨arguments, given, few, live⟩ := declare_arguments_ok (by rw [types]; exact listing.sane.regular)
    (by rw [types]; exact listing.sane.closed) inside fresh declares
  rw [types] at few live
  refine ⟨readable_arguments begun (Nat.lt_of_le_of_lt few listing.few) live given, ?_, fun query free => ?_⟩
  · intro id pendings member pending listed
    cases List.mem_singleton.mp member
    cases listed
  · change (declared.childrenOf query).length < wordBound
    rw [given.shape.children, quiet.shape.children, children_with_function]
    exact kept.children query fun _ _ member => by cases member

theorem readable_node {line : Record.Word} {record : NodeRecord} {graph : NodeId}
    (kept : StateReadable table ⟨m, scopes⟩) (parsed : Record.parseNode line = .ok record)
    (isGraph : m.IsGraph graph) (label : record.label = (m.nodesOf graph).length + 1) :
    StateReadable table ⟨setNodePragmas m.nodes.size record.pragmas (withNode graph record.opcode m), scopes⟩ := by
  obtain ⟨plain, small⟩ := Record.parse_node_ok parsed
  obtain ⟨role, found, _⟩ := isGraph
  have quiet := Quiet.of_node_pragmas (withNode graph record.opcode m) m.nodes.size record.pragmas
  have grown := readable_new_node record.opcode kept.readable (lt_size_of_role found) (by rw [← label]; exact small)
  refine ⟨readable_pragmas grown plain fun name role => ?_, kept.pending, fun query free => ?_⟩
  · rw [role_with_node, if_pos rfl] at role
    cases role
  · rw [quiet.shape.children, children_with_node]
    exact kept.children query free

theorem readable_compound {line : Record.Word} {header : CompoundRecord} {graph : NodeId}
    (kept : StateReadable table ⟨m, scopes⟩) (parsed : Record.parseCompound line = .ok header)
    (isGraph : m.IsGraph graph) (label : header.label = (m.nodesOf graph).length + 1) :
    StateReadable table ⟨withNode graph header.opcode m, .compound m.nodes.size header [] :: scopes⟩ := by
  have small : header.label < wordBound := (Record.parse_compound_ok parsed).counted
  obtain ⟨role, found, _⟩ := isGraph
  refine ⟨?_, fun member => ?_, fun query free => ?_⟩
  · exact readable_new_node header.opcode kept.readable (lt_size_of_role found) (by rw [← label]; exact small)
  · rcases List.mem_cons.mp member with same | member
    · cases same
    · exact kept.pending member
  · rw [children_with_node]
    exact kept.children query fun other graphs member => free other graphs (List.mem_cons_of_mem _ member)

theorem readable_subgraph {line : Record.Word} {pragmas : Pragmas} {compound : NodeId} {header : CompoundRecord}
    {graphs : List NodeId} (kept : StateReadable table ⟨m, .compound compound header graphs :: scopes⟩)
    (parsed : Record.parseGraph line = .ok pragmas) (plain : ∃ graph, m.role? compound = some (.node graph)) :
    StateReadable table ⟨setNodePragmas m.nodes.size pragmas (withGraph compound m),
      .graph m.nodes.size [] :: .compound compound header (graphs ++ [m.nodes.size]) :: scopes⟩ := by
  obtain ⟨graph, found⟩ := plain
  have quiet := Quiet.of_node_pragmas (withGraph compound m) m.nodes.size pragmas
  refine ⟨?_, ?_, fun query free => ?_⟩
  · refine readable_pragmas (readable_new_graph kept.readable) (Record.parse_graph_ok parsed) fun name role => ?_
    rw [role_with_graph, if_pos rfl] at role
    cases role
  · intro id pendings member pending listed
    rcases List.mem_cons.mp member with same | member
    · cases same
      cases listed
    rcases List.mem_cons.mp member with same | member
    · cases same
    · exact kept.pending (List.mem_cons_of_mem _ member) pending listed
  · have other : query ≠ compound := by
      rintro rfl
      exact free header (graphs ++ [m.nodes.size]) (List.mem_cons_of_mem _ List.mem_cons_self)
    rw [quiet.shape.children, children_with_graph _ _ (lt_size_of_role found), if_neg other]
    refine kept.children query fun otherHeader otherGraphs member => ?_
    rcases List.mem_cons.mp member with same | member
    · cases same
      exact other rfl
    · exact free _ _ (List.mem_cons_of_mem _ (List.mem_cons_of_mem _ member))

theorem readable_trailer {line : Record.Word} {id : NodeId} {header : CompoundRecord} {graphs children : List NodeId}
    {pragmas : Pragmas} (kept : StateReadable table ⟨m, .compound id header graphs :: scopes⟩)
    (parsed : Record.parseTrailer header graphs line = .ok (children, pragmas))
    (isPlain : ∃ graph, m.role? id = some (.node graph)) :
    StateReadable table ⟨modifyNode id (closed children pragmas) m, scopes⟩ := by
  obtain ⟨few, _, plain⟩ := Record.parse_trailer_ok parsed
  obtain ⟨graph, found⟩ := isPlain
  refine ⟨readable_closed kept.readable plain ⟨graph, found⟩,
    fun member => kept.pending (List.mem_cons_of_mem _ member), fun query free => ?_⟩
  rw [children_closed children pragmas (lt_size_of_role found)]
  split
  · exact few
  · rename_i other
    refine kept.children query fun otherHeader otherGraphs member => ?_
    rcases List.mem_cons.mp member with same | member
    · cases same
      exact other rfl
    · exact free _ _ member

theorem readable_pending {id : NodeId} {earlier : List Pending} {pending : Pending}
    (kept : StateReadable table ⟨m, .graph id earlier :: scopes⟩) (legible : pending.Legible table) :
    StateReadable table ⟨m, .graph id (earlier ++ [pending]) :: scopes⟩ := by
  refine ⟨kept.readable, ?_, fun query free => ?_⟩
  · intro other pendings member late listed
    rcases List.mem_cons.mp member with same | member
    · cases same
      rcases List.mem_append.mp listed with listed | last
      · exact kept.pending List.mem_cons_self late listed
      · rw [List.mem_singleton.mp last]
        exact legible
    · exact kept.pending (List.mem_cons_of_mem _ member) late listed
  · refine kept.children query fun header graphs member => ?_
    rcases List.mem_cons.mp member with same | member
    · cases same
    · exact free header graphs (List.mem_cons_of_mem _ member)

theorem readable_action {state next : State} {touches : Touches Supply} {history : Touches Binding}
    (listing : Listing labels table) (sound : StateSound state history) (kept : StateReadable table state)
    (action : Action labels state touches next) : StateReadable table next := by
  cases action with
  | close done => exact readable_close sound.sound.owned (sound.scopes _ List.mem_cons_self) kept done
  | function single parsed typed declares => exact readable_function listing kept single parsed declares
  | node parsed isGraph label => exact readable_node kept parsed isGraph label
  | compound parsed isGraph label => exact readable_compound kept parsed isGraph label
  | subgraph parsed plain => exact readable_subgraph kept parsed plain
  | trailer parsed => exact readable_trailer kept parsed (sound.scopes _ List.mem_cons_self).1
  | edge parsed typed =>
      obtain ⟨plain, _, sourcePort, _, targetPort, _⟩ := Record.parse_edge_ok parsed
      refine readable_pending kept ⟨targetPort, listing.live typed, plain, fun feed => ?_, fun feed => ?_⟩
      · cases feed
        exact sourcePort
      · cases feed
  | literal single parsed typed =>
      obtain ⟨⟨free, plain, quoteless⟩, _, targetPort, _⟩ := Record.parse_literal_ok single parsed
      refine readable_pending kept ⟨targetPort, listing.live typed, plain, fun feed => ?_, fun feed => ?_⟩
      · cases feed
      · cases feed
        exact ⟨free, @quoteless⟩

end Actions

/-! ### A text -/

theorem readable_start {table : TypeTable} {pragmas : SortedMap Char String}
    (wordy : ∀ entry ∈ pragmas.entries, (Record.pragma entry.1 entry.2).Wordy) :
    StateReadable table ⟨{ withTypes table with pragmas := pragmas }, []⟩ := by
  have bare : ∀ id : NodeId, ({ withTypes table with pragmas := pragmas } : Module).nodes[id]? = none :=
    fun id => by simp [withTypes]
  have positive : 0 < wordBound := Nat.pos_of_ne_zero (by decide)
  refine ⟨⟨⟨fun role => ?_, fun id => ?_, fun found => ?_, fun found => ?_, fun bound => ?_⟩,
    ⟨fun held => ?_, fun held => ?_, fun id => ?_⟩, rfl, wordy, fun outlet => ?_, fun bound => ?_⟩,
    fun member => (by cases member), fun id _ => ?_⟩
  · rw [role?, bare] at role
    cases role
  · rw [pragmasOf, bare]
    exact Pragmas.plain_empty
  · rw [input?, bare] at found
    cases found
  · rw [output?, bare] at found
    cases found
  · rw [binding?, input?, bare] at bound
    cases bound
  · rw [input?, bare] at held
    cases held
  · rw [output?, bare] at held
    cases held
  · rw [nodesOf, bare]
    exact positive
  · rw [outputType?, output?, bare]
    exact fun _ none => by cases none
  · rw [binding?, input?, bare] at bound
    cases bound
  · rw [childrenOf, bare]
    exact positive

-- What every accepted text gives.
structure Accepted (m : Module) : Prop where
  sane : m.types.Sane
  readable : Readable m.types m
  owned : m.Owned
  wired : m.Wired
  positive : m.Positive
  children : ∀ id, (m.childrenOf id).length < wordBound
  types : ∃ definitions, m.types = ofList definitions

theorem listing_of_document {document : Document} (gathered : Gathered document) (sane : (typeTable document.types).Sane) :
    Listing (typeLabels document.types) (typeTable document.types) := by
  refine ⟨order_of_table document.types, sane, ?_⟩
  rw [type_table_eq]
  simpa [ofList] using few_labels gathered.types

theorem accepted {text : String} {m : Module} (done : ofText text = .ok m) : Accepted m := by
  obtain ⟨document, gathering, done⟩ := Outcome.bind_ok done
  have gathered := gathered_document gathering
  have actions := build_actions gathered.single done
  have positive := positive_build gathered.single done
  obtain ⟨_, acyclic, done⟩ := Outcome.bind_ok done
  obtain ⟨_, chains, _⟩ := Outcome.bind_ok done
  have sane := sane_table gathered.types acyclic chains
  have listing := listing_of_document gathered sane
  obtain ⟨⟨history, final⟩, kept⟩ := actions.keeps
    (fun state => (∃ history, StateSound state history) ∧ StateReadable (typeTable document.types) state)
    ⟨⟨[], start_sound document⟩, readable_start gathered.pragmas⟩ (by
      rintro state touches next ⟨⟨history, sound⟩, kept⟩ action
      obtain ⟨made, after, _⟩ := sound_action sound action
      exact ⟨⟨_, after⟩, readable_action listing sound kept action⟩)
  have types := kept.readable.types
  refine ⟨by rw [types]; exact sane, by rw [types]; exact kept.readable, final.sound.owned, final.sound.wired, positive,
    fun id => kept.children id fun _ _ member => (by cases member), ?_⟩
  rw [types, type_table_eq]
  exact ⟨_, rfl⟩

end Dataflow.Module.Read
