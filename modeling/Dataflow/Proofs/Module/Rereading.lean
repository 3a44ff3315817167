import Dataflow.Proofs.Module.Replay
set_option autoImplicit false

-- Reading all functions that were written. A function ends when the next one begins, so each step
-- starts from what ending everything gives.
namespace Dataflow.Module
open TypeTable

/-! ### Declared arguments -/

structure Arguments (id : NodeId) (arguments : List TypeId) (start : Nat) (copy changed : Module) : Prop where
  shape : SameShape copy changed
  types : changed.types = copy.types
  pragmas : changed.pragmas = copy.pragmas
  other : ∀ query, query ≠ id → changed.nodes[query]? = copy.nodes[query]?
  own : ∃ change : Node → SortedMap Nat Output,
    changed.nodes[id]? = copy.nodes[id]?.map fun node => { node with outputs := change node }
  given : ∀ {place type}, arguments[place]? = some type →
    changed.output? ⟨id, start + place + 1⟩ = some ⟨some type, .empty⟩
  kept : ∀ port, port ≤ start ∨ start + arguments.length < port →
    changed.output? ⟨id, port⟩ = copy.output? ⟨id, port⟩

section Arguments
variable {id : NodeId} {types : List TypeId} {start : Nat} {copy : Module}

theorem arguments_nil : Arguments id [] start copy copy :=
  ⟨.refl copy, rfl, rfl, fun _ _ => rfl,
    ⟨Node.outputs, by cases copy.nodes[id]? <;> rfl⟩, fun found => (by cases found), fun _ _ => rfl⟩

theorem arguments_cons {type : TypeId} {changed : Module} (inside : id < copy.nodes.size)
    (fresh : copy.output? ⟨id, start + 1⟩ = none)
    (rest : Arguments id types (start + 1) (Read.typed ⟨id, start + 1⟩ type copy) changed) :
    Arguments id (type :: types) start copy changed := by
  have shape := typed_shape ⟨id, start + 1⟩ type copy
  have output : ∀ outlet : Outlet, (Read.typed ⟨id, start + 1⟩ type copy).output? outlet =
      if outlet = ⟨id, start + 1⟩ then some { (copy.output? outlet).getD {} with type := some type }
      else copy.output? outlet :=
    output_modify_output copy id (start + 1) (fun output => { output with type := some type }) inside
  refine ⟨shape.trans rest.shape, rest.types, rest.pragmas, ?_, ?_, ?_, ?_⟩
  · intro query different
    rw [rest.other query different, Read.typed, nodes_modify, if_neg different]
  · obtain ⟨change, own⟩ := rest.own
    refine ⟨fun node => change (node.modifyOutput (start + 1) fun output => { output with type := some type }), ?_⟩
    rw [own, Read.typed, nodes_modify, if_pos rfl, Option.map_map]
    cases copy.nodes[id]? <;> rfl
  · intro place found here
    cases place with
    | zero =>
        cases here
        rw [Nat.add_zero, rest.kept (start + 1) (.inl (Nat.le_refl _)), output, if_pos rfl, fresh]
        rfl
    | succ place =>
        have later := rest.given here
        rw [← later, Nat.add_right_comm start 1 place]
        rfl
  · intro port outside
    rw [List.length_cons] at outside
    rw [rest.kept port (by omega), output, if_neg]
    intro same
    have equal : port = start + 1 := congrArg Outlet.port same
    omega

theorem declare_run (inside : id < copy.nodes.size) (held : ∀ type ∈ types, Read.TypeHeld copy type)
    (fresh : ∀ port, start < port → copy.output? ⟨id, port⟩ = none) :
    ∃ changed, ((types.zipIdx start).forM fun (type, place) => setOutput ⟨id, place + 1⟩ type) copy =
      .ok () changed ∧ Arguments id types start copy changed := by
  induction types generalizing start copy with
  | nil => exact ⟨copy, rfl, arguments_nil⟩
  | cons type types ih =>
      have here := @Read.set_output_run ⟨id, start + 1⟩ _ _ (Nat.succ_pos start)
        (held type List.mem_cons_self) inside
      have shape := typed_shape ⟨id, start + 1⟩ type copy
      obtain ⟨changed, later, arguments⟩ := @ih (start + 1) (Read.typed ⟨id, start + 1⟩ type copy)
        (by rw [shape.size]; exact inside) (fun other member => held other (List.mem_cons_of_mem _ member))
        (by
          intro port above
          refine (output_modify_output copy id (start + 1) (fun output => { output with type := some type })
            inside ⟨id, port⟩).trans ?_
          rw [if_neg, fresh port (by omega)]
          intro same
          have equal : port = start + 1 := congrArg Outlet.port same
          omega)
      refine ⟨changed, ?_, arguments_cons inside (fresh _ (Nat.lt_succ_self _)) arguments⟩
      rw [List.zipIdx_cons]
      exact (Edit.bind_of_ok here).trans later

namespace Arguments
variable {changed : Module}

theorem input (given : Arguments id types start copy changed) (inlet : Inlet) :
    changed.input? inlet = copy.input? inlet := by
  unfold input?
  by_cases same : inlet.node = id
  · obtain ⟨change, own⟩ := given.own
    rw [same, own]
    cases copy.nodes[id]? <;> rfl
  · rw [given.other _ same]

theorem pragmas_of (given : Arguments id types start copy changed) (query : NodeId) :
    changed.pragmasOf query = copy.pragmasOf query := by
  unfold pragmasOf
  by_cases same : query = id
  · obtain ⟨change, own⟩ := given.own
    rw [same, own]
    cases copy.nodes[id]? <;> rfl
  · rw [given.other _ same]

-- An output port is an old one or one of the arguments.
theorem output (given : Arguments id types start copy changed) {outlet : Outlet} {output : Output}
    (found : changed.output? outlet = some output) : copy.output? outlet = some output ∨
      ∃ type ∈ types, outlet.port ≤ start + types.length ∧ output = ⟨some type, .empty⟩ := by
  obtain ⟨node, port⟩ := outlet
  by_cases same : node = id
  · subst same
    by_cases outside : port ≤ start ∨ start + types.length < port
    · rw [given.kept port outside] at found
      exact .inl found
    · obtain ⟨place, rfl⟩ : ∃ place, port = start + place + 1 := ⟨port - start - 1, by omega⟩
      have within : place < types.length := by omega
      rw [given.given (List.getElem?_eq_getElem within)] at found
      cases found
      refine .inr ⟨_, List.getElem_mem within, ?_, rfl⟩
      dsimp only
      omega
  · refine .inl ?_
    rw [← found]
    unfold output?
    rw [given.other node same]

end Arguments

end Arguments

-- The arguments that the type of a function declares are those of the function.
theorem declare_arguments_run (id : NodeId) {copy : Module} {type : Option TypeId} {arguments : List TypeId}
    (regular : copy.types.Regular) (inside : id < copy.nodes.size)
    (signed : match type with
      | none => arguments = []
      | some type => ∃ results, Signed copy.types arguments results type)
    (held : ∀ argument ∈ arguments, Read.TypeHeld copy argument)
    (fresh : ∀ port, copy.output? ⟨id, port⟩ = none) :
    ∃ changed, Read.declareArguments id type copy = .ok () changed ∧ Arguments id arguments 0 copy changed := by
  rw [Read.declare_arguments_eq]
  cases type with
  | none =>
      subst signed
      exact ⟨copy, (Edit.bind_get copy).trans rfl, arguments_nil⟩
  | some type =>
      obtain ⟨results, first, second, firstChained, _, found⟩ := signed
      obtain ⟨live, shape⟩ := live_of_lookup regular found
      obtain ⟨definition, there⟩ : ∃ definition, copy.types.get? type = some definition := by
        have bound := regular.bounded type live
        exact ⟨_, get_eq_some_iff.mpr ⟨live, Array.getElem?_eq_getElem bound⟩⟩
      have signature : definition.signature = .function first second := by
        rw [TypeTable.signature?, (get_eq_some_iff.mp there).2] at shape
        exact Option.some.inj shape
      obtain ⟨changed, run, given⟩ := declare_run inside held fun port _ => fresh port
      cases first with
      | none =>
          have bare : arguments = [] := by
            cases arguments with
            | nil => rfl
            | cons argument rest =>
                obtain ⟨_, _, same, _⟩ := firstChained
                cases same
          subst bare
          refine ⟨copy, (Edit.bind_get copy).trans ?_, arguments_nil⟩
          simp only [Option.bind_some, there, Option.map_some, signature]
          rfl
      | some head =>
          refine ⟨changed, (Edit.bind_get copy).trans ?_, given⟩
          simp only [Option.bind_some, there, Option.map_some, signature]
          exact (Edit.bind_query_of_ok (by exact chain_of_chained regular firstChained)).trans run

/-! ### A function that begins -/

section Functions
variable {m copy : Module} {number : NodeId → Nat} {labels : List Nat} {table : TypeTable}

theorem argument_of_port {id : NodeId} (positive : m.PositiveAt id) (whole : m.gapsOf id = []) (place : Nat) :
    (m.argumentsOf id)[place]? = m.outputType? ⟨id, place + 1⟩ := by
  unfold argumentsOf
  unfold gapsOf at whole
  cases found : m.nodes[id]? with
  | none => simp [outputType?, output?, found]
  | some node =>
      rw [found] at whole
      simp only [Option.map_some, Option.getD_some] at whole ⊢
      rw [← output_type_of_node found]
      refine Node.argument_at (fun port typed => positive port (.inr ?_)) whole place
      rw [output_type_of_node found] at typed
      exact held_of_type typed

-- The arguments that are declared before a function is read: those of its type.
def givenArguments (m : Module) (id : NodeId) (type : Option TypeId) : List TypeId :=
  if type.isSome then m.argumentsOf id else []

theorem given_signed {id : NodeId} {type : Option TypeId} (regular : m.types.Regular) (closed : m.types.Closed)
    (relisted : Relisted m.types table) (settled : Settled m id type) :
    match type.map m.types.place with
    | none => (m.givenArguments id type).map m.types.place = []
    | some type' => ∃ results, Signed table ((m.givenArguments id type).map m.types.place) results type' := by
  cases settled with
  | untyped isGraph bare => rfl
  | typed isGraph results whole signed live => exact ⟨_, relisted.signed regular closed signed⟩

theorem given_live {id : NodeId} {type : Option TypeId} (settled : Settled m id type) :
    ∀ argument ∈ m.givenArguments id type, argument ∈ m.types.order := by
  cases settled with
  | untyped isGraph bare => exact fun _ member => by cases member
  | typed isGraph results whole signed live =>
      exact fun argument member => live argument (List.mem_append_left _ member)

-- What is declared is what the type of the function lists.
theorem declared_iff {id : NodeId} {type : Option TypeId} {name : String} (positive : m.PositiveAt id)
    (role : m.role? id = some (.function name)) (settled : Settled m id type) (place : Nat) :
    m.Declared ⟨id, place + 1⟩ ↔ place < (m.givenArguments id type).length := by
  cases settled with
  | untyped isGraph bare =>
      refine ⟨fun declared => absurd bare declared.2.1, fun inside => ?_⟩
      simp [givenArguments] at inside
  | typed isGraph results whole signed live =>
      change _ ↔ place < (m.argumentsOf id).length
      have inside : (m.argumentsOf id)[place]?.isSome ↔ place < (m.argumentsOf id).length := by simp
      rw [← inside, argument_of_port positive whole]
      exact ⟨fun declared => declared.2.2, fun typed => ⟨⟨name, role⟩, results, typed⟩⟩

theorem given_at {id : NodeId} {type : Option TypeId} (positive : m.PositiveAt id) (settled : Settled m id type)
    {place : Nat}
    (inside : place < (m.givenArguments id type).length) :
    (m.givenArguments id type)[place]? = m.outputType? ⟨id, place + 1⟩ := by
  cases settled with
  | untyped isGraph bare => simp [givenArguments] at inside
  | typed isGraph results whole signed live => exact argument_of_port positive whole place

theorem bare_of_arguments {id : NodeId} {type : Option TypeId} {name : String} {base changed : Module}
    (positive : m.PositiveAt id) (role : m.role? id = some (.function name)) (settled : Settled m id type)
    (fresh : ∃ node, base.nodes[number id]? = some node ∧ node.inputs = .empty ∧ node.outputs = .empty)
    (arguments : Arguments (number id) ((m.givenArguments id type).map m.types.place) 0 base changed) :
    Bare m number changed id := by
  obtain ⟨node, found, noInputs, noOutputs⟩ := fresh
  obtain ⟨change, own⟩ := arguments.own
  have nothing : ∀ port, base.output? ⟨number id, port⟩ = none := by
    intro port
    simp [output?, found, noOutputs]
  refine ⟨fun port => ?_, fun port declared => ?_, fun port other => ?_⟩
  · simp [input?, own, found, noInputs]
  · obtain ⟨place, rfl⟩ : ∃ place, port = place + 1 := by
      have low : 1 ≤ port := positive port (.inr (held_of_type declared.2.2))
      exact ⟨port - 1, by omega⟩
    have inside := (declared_iff positive role settled place).mp declared
    obtain ⟨known, typed⟩ := Option.isSome_iff_exists.mp declared.2.2
    have given : ((m.givenArguments id type).map m.types.place)[place]? = some (m.types.place known) := by
      rw [List.getElem?_map, given_at positive settled inside, typed]
      rfl
    have here := arguments.given given
    rw [Nat.zero_add] at here
    rw [here, mirrored, typed]
    rfl
  · refine (arguments.kept port ?_).trans (nothing port)
    rw [List.length_map]
    cases port with
    | zero => exact .inl (Nat.le_refl _)
    | succ place =>
        have outside : ¬ place < (m.givenArguments id type).length :=
          fun inside => other ((declared_iff positive role settled place).mpr inside)
        omega

theorem opened_function {id : NodeId} {type : Option TypeId} {node : Node} {name : String}
    (setting : Setting m labels table) (regular : m.types.Regular) (closed : m.types.Closed)
    (relisted : Relisted m.types table) (settled : Settled m id type) (found : m.nodes[id]? = some node)
    (role : node.role = .function name) (owned : copy.Owned) (types : copy.types = table)
    (last : number id = copy.nodes.size) :
    ∃ changed, Read.declareArguments copy.nodes.size (type.map m.types.place)
        (setNodePragmas copy.nodes.size node.pragmas.normalize (withFunction .xGraph name copy)) = .ok () changed ∧
      Opened m number table id node changed ∧ changed.pragmas = copy.pragmas ∧
      changed.functions = copy.functions ++ [number id] ∧
      ∀ query, query < number id → changed.nodes[query]? = copy.nodes[query]? := by
  let base := setNodePragmas copy.nodes.size node.pragmas.normalize (withFunction .xGraph name copy)
  have isGraph : node.isGraph = true := by simp [Node.isGraph, role]
  have known : m.role? id = some (.function name) := by rw [role_eq_some_of_node found, role]
  have quiet := Quiet.of_node_pragmas (withFunction .xGraph name copy) copy.nodes.size node.pragmas.normalize
  have size : base.nodes.size = copy.nodes.size + 1 := by
    rw [quiet.shape.size]
    simp [withFunction]
  have look : ∀ query, (withFunction .xGraph name copy).nodes[query]? =
      if query = copy.nodes.size then some { opcode := .xGraph, role := .function name } else copy.nodes[query]? :=
    nodes_pushed _ copy
  have new : base.nodes[number id]? =
      some { opcode := .xGraph, role := .function name, pragmas := node.pragmas.normalize } := by
    rw [nodes_with_pragmas, if_pos last, look, if_pos last]
    rfl
  have heldTypes : ∀ argument ∈ (m.givenArguments id type).map m.types.place, Read.TypeHeld base argument := by
    intro argument member
    obtain ⟨old, inside, rfl⟩ := List.mem_map.mp member
    change (copy.types.get? _).isSome
    rw [types]
    exact setting.held old (given_live settled old inside)
  obtain ⟨changed, run, arguments⟩ := declare_arguments_run (number id)
    (by change copy.types.Regular; rw [types]; exact relisted.regular regular closed)
    (by rw [size, last]; exact Nat.lt_succ_self _)
    (by
      have signed := given_signed regular closed relisted settled
      rw [← types] at signed
      exact signed) heldTypes
    (fun port => by simp [output?, new])
  obtain ⟨change, own⟩ := arguments.own
  have childless := children_of_graph setting.owned found isGraph
  refine ⟨changed, by rw [← last]; rw [last] at run ⊢; exact run, ⟨?_, ?_, found, isGraph, ?_, ⟨?_, ?_⟩, ?_⟩, ?_, ?_, ?_⟩
  · exact ((owned_with_function .xGraph name owned).of_same_shape quiet.shape).of_same_shape arguments.shape
  · exact arguments.types.trans types
  · rw [arguments.shape.size, size, last]
  · exact change { opcode := .xGraph, role := .function name, pragmas := node.pragmas.normalize }
  · rw [own, new]
    simp [Node.renumber, Node.writtenOpcode, isGraph, role, Role.renumber, childless]
  · exact bare_of_arguments (setting.positive known) known settled ⟨_, new, rfl, rfl⟩ arguments
  · exact arguments.pragmas
  · rw [arguments.shape.functions, quiet.shape.functions, last]
    rfl
  · intro query before
    have different := Nat.ne_of_lt before
    rw [arguments.other query different, nodes_with_pragmas, if_neg (by rw [← last]; exact different), look,
      if_neg (by rw [← last]; exact different)]

theorem step_function {record : FunctionRecord} {type : Option TypeId} {declared : Module} {state : Read.State}
    (clear : (Record.function record).Clear)
    (ended : ∀ line, Read.endAll line state.m state.scopes = .ok copy)
    (typed : Read.typeAt labels record.type = .ok type)
    (declares : Read.declareArguments copy.nodes.size type (setNodePragmas copy.nodes.size
      record.pragmas.normalize (withFunction .xGraph record.name copy)) = .ok () declared) :
    Read.step labels state (.function, Record.line (.function record)) =
      .ok ⟨declared, [.graph copy.nodes.size []]⟩ := by
  change Read.beginFunction _ _ _ = _
  unfold Read.beginFunction
  refine (Outcome.bind_of_ok (ended _)).trans ?_
  rw [Record.parse_function_line clear]
  refine (Read.on_line_bind _ _ _).trans ?_
  simp only [typed]
  refine (Read.on_line_bind _ _ _).trans ?_
  refine (Outcome.bind_of_ok (Read.apply_of_ok (add_function_run .xGraph record.name copy))).trans ?_
  exact (Outcome.bind_of_ok (Read.apply_of_ok declares)).trans rfl

/-! ### All functions -/

inductive WrittenFunctions (m : Module) :
    List NodeId → List (Option TypeId) → List NodeId → List Record → Prop
  | nil : WrittenFunctions m [] [] [] []
  | cons {id : NodeId} {ids first second : List NodeId} {type : Option TypeId} {types : List (Option TypeId)}
      {here later : List Record} (settled : Settled m id type) (head : WrittenFunction m id type first here)
      (rest : WrittenFunctions m ids types second later) :
      WrittenFunctions m (id :: ids) (type :: types) (first ++ second) (here ++ later)

structure FunctionsRead (m : Module) (number : NodeId → Nat) (ids order : List NodeId)
    (copy changed : Module) : Prop where
  size : changed.nodes.size = copy.nodes.size + order.length
  types : changed.types = copy.types
  pragmas : changed.pragmas = copy.pragmas
  owned : changed.Owned
  functions : changed.functions = copy.functions ++ ids.map number
  old : ∀ query, query < copy.nodes.size → changed.nodes[query]? = copy.nodes[query]?
  placed : ∀ id ∈ order, Placed m number changed id
  ported : ∀ id ∈ order, Ported m number changed id

theorem functions_read_nil (owned : copy.Owned) : FunctionsRead m number [] [] copy copy :=
  ⟨rfl, rfl, rfl, owned, by simp, fun _ _ => rfl, fun _ member => (by cases member),
    fun _ member => (by cases member)⟩

theorem functions_read_cons {id : NodeId} {ids first second : List NodeId} {middle changed : Module}
    (numbered : Numbered number copy.nodes.size first) (here : FunctionsRead m number [id] first copy middle)
    (later : FunctionsRead m number ids second middle changed) :
    FunctionsRead m number (id :: ids) (first ++ second) copy changed := by
  have kept : ∀ other ∈ first, changed.nodes[number other]? = middle.nodes[number other]? := by
    intro other member
    refine later.old _ ?_
    rw [here.size]
    exact (numbered.bounds member).2
  refine ⟨?_, later.types.trans here.types, later.pragmas.trans here.pragmas, later.owned, ?_, ?_, ?_, ?_⟩
  · rw [later.size, here.size, List.length_append, Nat.add_assoc]
  · rw [later.functions, here.functions, List.append_assoc]
    rfl
  · intro query before
    rw [later.old query (by rw [here.size]; exact Nat.lt_add_right _ before), here.old query before]
  · intro other member
    rcases List.mem_append.mp member with member | member
    · exact placed_of_node (kept other member) (here.placed other member)
    · exact later.placed other member
  · intro other member
    rcases List.mem_append.mp member with member | member
    · exact ported_of_node (kept other member) (here.ported other member)
    · exact later.ported other member

theorem function_replay {id : NodeId} {type : Option TypeId} {order : List NodeId} {records : List Record}
    {state : Read.State} (setting : Setting m labels table) (regular : m.types.Regular) (closed : m.types.Closed)
    (relisted : Relisted m.types table) (settled : Settled m id type)
    (written : WrittenFunction m id type order records) (readable : ∀ record ∈ records, record.Readable)
    (ended : ∀ line, Read.endAll line state.m state.scopes = .ok copy) (owned : copy.Owned)
    (types : copy.types = table) (numbered : Numbered number copy.nodes.size order) : ∃ next changed,
      (records.filterMap Read.bodyLine).foldlM (Read.step labels) state = .ok next ∧
      (∀ line, Read.endAll line next.m next.scopes = .ok changed) ∧
      FunctionsRead m number [id] order copy changed := by
  obtain ⟨node, name, label, results, inner, body, found, role, typed, fed, inside, rfl, rfl⟩ := written.written
  have last : number id = copy.nodes.size := numbered.head
  obtain ⟨live, rfl⟩ := type_label_ok typed
  have known := type_at_label live
  rw [← setting.labels] at known
  obtain ⟨begun, declares, opened, pragmas, functions, old⟩ := opened_function setting regular closed relisted
    settled found role owned types last
  have step := step_function (readable _ List.mem_cons_self).clear ended known declares
  have row : RowReplay m labels table number node.nodes inner body :=
    replay_of_written setting inside fun record member =>
      readable record (List.mem_cons_of_mem _ (List.mem_append_right _ member))
  obtain ⟨full, pendings, changed, run, ending, _, read⟩ := graph_read setting opened fed row (tops_inside inside)
    (by rw [last]; exact numbered)
    (fun record member => readable record (List.mem_cons_of_mem _ (List.mem_append_left _ member))) []
  refine ⟨⟨full, [.graph (number id) pendings]⟩, changed, ?_, fun line => ?_, ?_⟩
  · rw [fold_body rfl step, ← last]
    exact run
  · exact (Outcome.bind_of_ok ending).trans rfl
  · refine ⟨?_, read.types.trans (opened.types.trans types.symm), read.pragmas.trans pragmas, read.owned,
      read.functions.trans functions, ?_, read.placed, read.ported⟩
    · rw [read.size, opened.last, last, List.length_cons]
      omega
    · intro query before
      rw [← last] at before
      rw [read.old query before, old query before]

theorem functions_replay {ids : List NodeId} {given : List (Option TypeId)} {order : List NodeId}
    {records : List Record} (state : Read.State) (setting : Setting m labels table) (regular : m.types.Regular)
    (closed : m.types.Closed) (relisted : Relisted m.types table)
    (written : WrittenFunctions m ids given order records) (readable : ∀ record ∈ records, record.Readable)
    (ended : ∀ line, Read.endAll line state.m state.scopes = .ok copy) (owned : copy.Owned)
    (types : copy.types = table) (numbered : Numbered number copy.nodes.size order) : ∃ next changed,
      (records.filterMap Read.bodyLine).foldlM (Read.step labels) state = .ok next ∧
      (∀ line, Read.endAll line next.m next.scopes = .ok changed) ∧
      FunctionsRead m number ids order copy changed := by
  induction written generalizing copy state with
  | nil => exact ⟨state, copy, rfl, ended, functions_read_nil owned⟩
  | cons settled head rest ih =>
      obtain ⟨next, middle, run, endedNext, read⟩ := function_replay setting regular closed relisted settled head
        (fun record member => readable record (List.mem_append_left _ member)) ended owned types numbered.left
      obtain ⟨final, changed, runMore, endedFinal, readMore⟩ := ih next
        (fun record member => readable record (List.mem_append_right _ member)) endedNext read.owned
        (read.types.trans types) (by rw [read.size]; exact numbered.right)
      refine ⟨final, changed, ?_, endedFinal, functions_read_cons numbered.left read readMore⟩
      rw [List.filterMap_append, Outcome.fold_m_append run]
      exact runMore

end Functions

end Dataflow.Module
