import Mathlib.Data.List.Find
import Dataflow.Proofs.Interpreter.Mirrored
import Dataflow.Proofs.Module.Renamed
set_option autoImplicit false

-- A module that was made by requests computes what the module that is read from its text computes.
namespace Dataflow

namespace Signature

theorem map_id (signature : Signature) : signature.map id = signature := by
  cases signature with
  | link kind element rest => rw [map, Option.map_id, id_eq, id_eq]
  | function arguments results => rw [map, Option.map_id, id_eq, id_eq]
  | _ => rfl

end Signature

namespace Interpreter
open Dataflow.Module Value

/-! ### Literals -/

section Literals
variable {place : TypeId → TypeId} {number : NodeId → NodeId}

-- Types under other ids, as a literal sees them.
def Places (types copy : TypeTable) (place : TypeId → TypeId) : Prop :=
  ∀ ⦃type definition⦄, types.get? type = some definition →
    ∃ twin, copy.get? (place type) = some twin ∧ twin.signature = definition.signature.map place

theorem shape_mirrored {types copy : TypeTable} (placed : Places types copy place) {type : TypeId}
    {shape : LiteralShape} (found : shapeOfType? types type = some shape) :
    shapeOfType? copy (place type) = some shape := by
  obtain ⟨definition, here, found⟩ := Option.bind_eq_some_iff.mp found
  obtain ⟨twin, there, same⟩ := placed here
  refine Option.bind_eq_some_iff.mpr ⟨twin, there, ?_⟩
  rw [same]
  cases signature : definition.signature with
  | container kind base =>
      rw [signature] at found
      cases kind with
      | array =>
          obtain ⟨element, held, found⟩ := Option.bind_eq_some_iff.mp found
          obtain ⟨elementToo, heldToo, alike⟩ := placed held
          refine Option.bind_eq_some_iff.mpr ⟨elementToo, heldToo, ?_⟩
          split at found
          · rename_i character
            rw [alike, character]
            exact found
          · cases found
      | _ => exact found
  | _ =>
      rw [signature] at found
      exact found

theorem read_basic_data {kind : BasicKind} {text : List Char} {value : Value}
    (done : readBasic kind text = .ok value) : value.IsData := by
  cases kind with
  | wildBasic => cases done
  | boolean | null =>
      cases done
      trivial
  | _ =>
      obtain ⟨_, _, rfl⟩ := Outcome.map_ok done
      trivial

theorem all_data_chars (text : List Char) : AllData (text.map Value.char) := by
  induction text with
  | nil => trivial
  | cons c rest ih => exact ⟨trivial, ih⟩

theorem read_string_data {text : List Char} {value : Value} (done : readString text = .ok value) : value.IsData := by
  obtain ⟨body, _, done⟩ := Outcome.bind_ok done
  cases done
  exact all_data_chars _

def shapeOf? (types : TypeTable) (literal : Literal) : Option LiteralShape :=
  match literal.type with
  | some type => shapeOfType? types type
  | none => some (shapeOfText literal.text)

-- What a literal stands for.
inductive Denotes (m : Module) (literal : Literal) : Value → Prop where
  | basic {kind : BasicKind} {value : Value} (shape : shapeOf? m.types literal = some (.basic kind))
      (read : readBasic kind literal.text.toList = .ok value) : Denotes m literal value
  | string {value : Value} (shape : shapeOf? m.types literal = some .string)
      (read : readString literal.text.toList = .ok value) : Denotes m literal value
  | function {id : NodeId} (shape : shapeOf? m.types literal = some .function)
      (named : m.function? literal.text = some id) : Denotes m literal (.function id)

theorem literal_value_eq (m : Module) (inlet : Inlet) (literal : Literal) : literalValue m inlet literal =
    let read (reading : Reading Value) : Except RunError Value :=
      match reading with
      | .ok value => .ok value
      | .error fault => .error (.invalidLiteral inlet literal.text fault)
    match shapeOf? m.types literal with
    | none => read (.error .notALiteralType)
    | some (.basic kind) => read (readBasic kind literal.text.toList)
    | some .string => read (readString literal.text.toList)
    | some .function =>
        match m.function? literal.text with
        | some id => .ok (.function id)
        | none => .error (.functionNotFound literal.text) := rfl

theorem literal_value_iff {m : Module} {inlet : Inlet} {literal : Literal} {value : Value} :
    literalValue m inlet literal = .ok value ↔ Denotes m literal value := by
  rw [literal_value_eq]
  dsimp only
  constructor
  · intro done
    split at done
    · cases done
    · rename_i kind shape
      split at done
      · rename_i read
        cases done
        exact .basic shape read
      · cases done
    · rename_i shape
      split at done
      · rename_i read
        cases done
        exact .string shape read
      · cases done
    · rename_i shape
      split at done
      · rename_i named
        cases done
        exact .function shape named
      · cases done
  · rintro (⟨shape, read⟩ | ⟨shape, read⟩ | ⟨shape, named⟩)
    · simp only [shape, read]
    · simp only [shape, read]
    · simp only [shape, named]

theorem shape_of_mirrored {types copy : TypeTable} (placed : Places types copy place) {literal : Literal}
    {shape : LiteralShape} (found : shapeOf? types literal = some shape) :
    shapeOf? copy ⟨literal.text, literal.type.map place⟩ = some shape := by
  obtain ⟨text, _ | type⟩ := literal
  · exact found
  · exact shape_mirrored placed found

-- Only a literal that names a function stands for a value that is renamed.
theorem literal_mirrored {m copy : Module} (placed : Places m.types copy.types place)
    (named : ∀ {name id}, m.function? name = some id → copy.function? name = some (number id))
    {inlet twin : Inlet} {literal : Literal} {value : Value} (done : literalValue m inlet literal = .ok value) :
    literalValue copy twin ⟨literal.text, literal.type.map place⟩ = .ok (value.renumber number) := by
  refine literal_value_iff.mpr ?_
  cases literal_value_iff.mp done with
  | basic shape read =>
      rw [renumber_data _ (read_basic_data read)]
      exact .basic (shape_of_mirrored placed shape) read
  | string shape read =>
      rw [renumber_data _ (read_string_data read)]
      exact .string (shape_of_mirrored placed shape) read
  | function shape here => exact .function (shape_of_mirrored placed shape) (named here)

end Literals

end Interpreter

namespace Module
open Interpreter

/-! ### Mirrors, through look-ups -/

section Lookups
variable {m copy : Module} {number : NodeId → NodeId}

theorem function_name_mirrored {id twin : NodeId} (role : copy.role? twin = (m.role? id).map (·.renumber number)) :
    copy.nodes[twin]?.bind Node.functionName? = m.nodes[id]?.bind Node.functionName? := by
  rw [function_name_eq, function_name_eq, role]
  cases m.role? id with
  | none => rfl
  | some role => cases role <;> rfl

theorem function_mirrored (functions : copy.functions = m.functions.map number)
    (roles : ∀ id ∈ m.functions, copy.role? (number id) = (m.role? id).map (·.renumber number))
    {name : String} {id : NodeId} (found : m.function? name = some id) : copy.function? name = some (number id) := by
  unfold function? at found ⊢
  rw [functions, ← List.map_reverse, List.find?_map]
  have same : m.functions.reverse.find? ((fun id => copy.nodes[id]?.bind Node.functionName? == some name) ∘ number) =
      m.functions.reverse.find? fun id => m.nodes[id]?.bind Node.functionName? == some name := by
    refine List.find?_congr fun id member => ?_
    rw [Function.comp_apply, function_name_mirrored (roles id (List.mem_reverse.mp member))]
  rw [same, found]
  rfl

theorem kinds_of_role {node twin : Node} (same : twin.role = node.role.renumber number) :
    twin.isGraph = node.isGraph ∧ twin.isFunction = node.isFunction := by
  unfold Node.isGraph Node.isFunction Node.functionName?
  rw [same]
  cases node.role <;> exact ⟨rfl, rfl⟩

theorem function_of_is_function {node : Node} (isFunction : node.isFunction = true) :
    ∃ name, node.role = .function name := by
  unfold Node.isFunction Node.functionName? at isFunction
  cases role : node.role with
  | function name => exact ⟨name, rfl⟩
  | _ => simp [role] at isFunction

theorem graph_of_plain {node : Node} (plain : node.isGraph = false) : ∃ graph, node.role = .node graph := by
  unfold Node.isGraph at plain
  cases role : node.role with
  | node graph => exact ⟨graph, rfl⟩
  | _ => simp [role] at plain

theorem twin_of_lookups {id twin : NodeId} {node : Node} (found : m.nodes[id]? = some node)
    (inside : twin < copy.nodes.size) (role : copy.role? twin = (m.role? id).map (·.renumber number))
    (opcode : ∀ {graph}, m.role? id = some (.node graph) → copy.opcode? twin = m.opcode? id)
    (nodes : copy.nodesOf twin = (m.nodesOf id).map number)
    (children : copy.childrenOf twin = (m.childrenOf id).map number)
    (fewer : ∀ {port}, (copy.output? ⟨twin, port⟩).isSome → port ≤ node.maxOutput)
    (arguments : ∀ {name top}, m.role? id = some (.function name) → node.outputs.lastKey? = some top →
      (copy.output? ⟨twin, top⟩).isSome) :
    ∃ other, copy.nodes[twin]? = some other ∧ node.Twin number other := by
  obtain ⟨other, there⟩ := exists_node_iff.mpr inside
  have output : ∀ port, copy.output? ⟨twin, port⟩ = other.outputs.get? port := fun port => output_eq_of_node there
  have here := role_eq_some_of_node found
  rw [role_eq_some_of_node there, here] at role
  obtain ⟨isGraph, isFunction⟩ := kinds_of_role (Option.some.inj role)
  have below : other.maxOutput ≤ node.maxOutput :=
    SortedMap.last_key_le fun held => fewer (by rw [output]; exact held)
  refine ⟨other, there, isGraph, isFunction, fun plain => ?_, ?_, ?_, below, fun whole => ?_⟩
  · obtain ⟨graph, kind⟩ := graph_of_plain plain
    rw [kind] at here
    simpa [opcode?, found, there] using opcode here
  · simpa [nodesOf, found, there] using nodes
  · simpa [childrenOf, found, there] using children
  · obtain ⟨name, kind⟩ := function_of_is_function whole
    rw [kind] at here
    refine Nat.le_antisymm below ?_
    unfold Node.maxOutput
    cases last : node.outputs.lastKey? with
    | none => exact Nat.zero_le _
    | some top =>
        have held := arguments here last
        rw [output] at held
        exact SortedMap.le_last_key held

end Lookups

/-! ### Asking for types -/

theorem renumber_role_id (role : Option Role) : role.map (·.renumber id) = role := by
  cases role with
  | none => rfl
  | some role => cases role <;> rfl

namespace Typed

section Kept
variable {m changed : Module}

theorem twin (typed : Typed m changed) {query : NodeId} {node : Node} (found : m.nodes[query]? = some node) :
    ∃ other, changed.nodes[query]? = some other ∧ node.Twin id other := by
  have shape := typed.shape
  have output : ∀ port, m.output? ⟨query, port⟩ = node.outputs.get? port := fun port => output_eq_of_node found
  refine twin_of_lookups found ?_ ?_ (fun _ => shape.opcode query) ?_ ?_ (fun {port} held => ?_)
    fun {name top} _ last => ?_
  · rw [shape.size]
    exact exists_node_iff.mp ⟨node, found⟩
  · exact (shape.role query).trans (renumber_role_id _).symm
  · rw [List.map_id]
    exact shape.nodes query
  · rw [List.map_id]
    exact shape.children query
  · obtain ⟨top, here, below⟩ := typed.output_below held
    rw [output] at here
    exact Nat.le_trans below (SortedMap.le_last_key here)
  · refine typed.output_held ?_
    rw [output]
    exact (SortedMap.last_key_iff.mp last).1

end Kept

theorem mirrors {m changed : Module} (typed : Typed m changed) : Mirrors m changed id := by
  have binding : ∀ inlet, changed.binding? inlet = m.binding? inlet := fun inlet => binding_eq_of_input (typed.input inlet)
  have placed : Places m.types changed.types id :=
    fun type definition found => ⟨definition, typed.grows.get found, (Signature.map_id _).symm⟩
  have named : ∀ {name query}, m.function? name = some query → changed.function? name = some query := by
    refine fun found => @function_mirrored _ _ id ?_ (fun query _ => ?_) _ _ found
    · rw [List.map_id]
      exact typed.shape.functions
    · exact (typed.shape.role query).trans (renumber_role_id _).symm
  constructor
  case apart => exact Function.injective_id
  case node => exact typed.twin
  case input =>
    intro inlet _ held
    rw [← typed.input]
    exact held
  case bound =>
    intro inlet _
    change (changed.binding? inlet).isSome ↔ _
    rw [binding]
  case wire =>
    intro inlet source stamp bound
    exact ⟨stamp, (binding inlet).trans bound⟩
  case literal =>
    intro inlet literal value bound done
    refine ⟨⟨literal.text, literal.type.map id⟩, ?_, literal_mirrored placed named done⟩
    rw [Option.map_id]
    exact (binding inlet).trans bound
  case function => exact named

end Typed

/-! ### Reading a text -/

-- The type of each function tells how many arguments it takes.
def Annotated (m : Module) : Prop :=
  ∀ id ∈ m.functions, m.resultsOf id ≠ [] ∧
    ∀ node ∈ m.nodes[id]?, ∀ top ∈ node.outputs.lastKey?, (node.outputType? top).isSome

instance (m : Module) : Decidable m.Annotated :=
  inferInstanceAs (Decidable (∀ _ ∈ _, _))

theorem Typed.annotated {m changed : Module} (typed : Typed m changed) (annotated : m.Annotated) :
    changed.Annotated := by
  intro id member
  rw [typed.shape.functions] at member
  obtain ⟨some_, highest⟩ := annotated id member
  refine ⟨results_kept (fun _ => typed.input _) (fun _ _ => typed.type_kept) some_, fun node found top last => ?_⟩
  have output : ∀ port, changed.output? ⟨id, port⟩ = node.outputs.get? port := fun port => output_eq_of_node found
  obtain ⟨held, above⟩ := SortedMap.last_key_iff.mp last
  rw [Node.outputType?, ← output]
  rw [← output] at held
  rcases typed.output ⟨id, top⟩ with same | ⟨_, _, _, wild, _, filled⟩
  · rw [same] at held
    obtain ⟨before, here⟩ := exists_node_iff.mpr (lt_size_of_output held)
    have outputs : ∀ port, m.output? ⟨id, port⟩ = before.outputs.get? port := fun port => output_eq_of_node here
    have lastToo : before.outputs.lastKey? = some top := by
      refine SortedMap.last_key_iff.mpr ⟨by rw [← outputs]; exact held, fun {port} there => above ?_⟩
      rw [← output]
      exact typed.output_held (by rw [outputs]; exact there)
    have known := highest before here top lastToo
    rw [Node.outputType?, ← outputs] at known
    rw [same]
    exact known
  · rw [filled]
    rfl

namespace Copied

variable {m copy : Module} {order : List NodeId}

theorem held_of_copy (copied : Copied m order copy) (setup : Setup m) {id : NodeId} {port : Nat} (member : id ∈ order)
    (held : (copy.output? ⟨order.idxOf id, port⟩).isSome) : (m.output? ⟨id, port⟩).isSome := by
  rcases (copied.output_iff member).mp held with ⟨inlet, stamp, bound⟩ | ⟨_, _, known⟩
  · exact (setup.wired.wires bound).1
  · exact held_of_type known

theorem twin (copied : Copied m order copy) (setup : Setup m) (complete : m.Complete) (annotated : m.Annotated)
    (renamed : Renamed m copy (numbering order) m.types.place) {id : NodeId} {node : Node}
    (found : m.nodes[id]? = some node) :
    ∃ other, copy.nodes[numbering order id]? = some other ∧ node.Twin (numbering order) other := by
  have inside : id < m.nodes.size := exists_node_iff.mp ⟨node, found⟩
  have member := copied.everything setup.owned complete inside
  have output : ∀ port, m.output? ⟨id, port⟩ = node.outputs.get? port := fun port => output_eq_of_node found
  refine twin_of_lookups found ?_ (renamed.role inside) renamed.opcode (renamed.nodes inside)
    (renamed.children inside) (fun {port} held => ?_) fun {name top} role last => ?_
  · rw [renamed.size]
    exact renamed.inside inside
  · rw [numbering_of_mem member] at held
    have here := copied.held_of_copy setup member held
    rw [output] at here
    exact SortedMap.le_last_key here
  · obtain ⟨some_, highest⟩ := annotated id (setup.owned.registered.mpr ⟨name, role⟩)
    have known := highest node found top last
    rw [Node.outputType?, ← output] at known
    rw [numbering_of_mem member, (copied.ported id member).used top (.inr ⟨⟨name, role⟩, some_, known⟩)]
    rfl

theorem mirrors (copied : Copied m order copy) (setup : Setup m) (complete : m.Complete) (annotated : m.Annotated)
    (renamed : Renamed m copy (numbering order) m.types.place) : Mirrors m copy (numbering order) := by
  have placed : Places m.types copy.types m.types.place := by
    intro type definition found
    obtain ⟨twin, there, same, _⟩ := renamed.definition found
    exact ⟨twin, there, same⟩
  have named : ∀ {name id}, m.function? name = some id → copy.function? name = some (numbering order id) :=
    fun found => function_mirrored renamed.functions
      (fun id member => renamed.role (copied.inside (copied.roots member))) found
  have fed : ∀ {inlet binding}, m.binding? inlet = some binding → ∃ other,
      copy.binding? (inlet.renumber (numbering order)) = some other ∧
        other.supply = binding.supply.renumber (numbering order) m.types.place := by
    intro inlet binding bound
    have same := renamed.supply (lt_size_of_binding bound)
    rw [bound] at same
    exact Option.map_eq_some_iff.mp same
  constructor
  case apart => exact renamed.apart
  case node => exact fun found => copied.twin setup complete annotated renamed found
  case input =>
    intro inlet inside held
    obtain ⟨binding, bound⟩ := Option.isSome_iff_exists.mp ((renamed.input inside).mp held)
    exact input_isSome_of_binding bound
  case bound =>
    intro inlet inside
    rw [← Option.isSome_map (f := Binding.supply), renamed.supply inside, Option.isSome_map]
  case wire =>
    intro inlet source stamp bound
    obtain ⟨other, there, same⟩ := fed bound
    cases other with
    | literal literal => cases same
    | wire sourceToo later =>
        rw [there, Supply.wire.inj same]
        exact ⟨later, rfl⟩
  case literal =>
    intro inlet literal value bound done
    obtain ⟨other, there, same⟩ := fed bound
    cases other with
    | literal twin =>
        rw [there, Supply.literal.inj same]
        exact ⟨_, rfl, literal_mirrored placed named done⟩
    | wire source stamp => cases same
  case function => exact named

end Copied

/-! ### Calls -/

-- Whatever a function of the first module computes from data, its namesake in the second one computes.
def Computes (m copy : Module) (number : NodeId → NodeId) : Prop :=
  ∀ (limits : Limits) (traced : Bool) (name : String) (args : List Value), (∀ value ∈ args, value.IsData) →
    ∀ ⦃trace after : Array TraceEntry⦄ ⦃values : List Value⦄,
      ({ m, limits, traced } : Interpreter).run (.function name args) trace = .ok values after →
      ∀ there, ∃ final, ({ m := copy, limits, traced } : Interpreter).run (.function name args) there =
        .ok (values.map (Value.renumber number)) final

theorem computes_of_mirrors {m copy : Module} {number : NodeId → NodeId} (owned : m.Owned)
    (mirrors : Mirrors m copy number) : Computes m copy number := by
  intro limits traced name args data trace after values done there
  have reflects : Reflects { m, limits, traced } { m := copy, limits, traced } number := ⟨mirrors, owned, rfl, rfl, rfl⟩
  obtain ⟨_, final, again, rfl⟩ := mimics_function reflects name args done there
  rw [Value.renumber_data_list data] at again
  exact ⟨final, again⟩

theorem Computes.after {m settled copy : Module} {number : NodeId → NodeId} (first : Computes m settled id)
    (second : Computes settled copy number) : Computes m copy number := by
  intro limits traced name args data trace after values done there
  obtain ⟨middle, again⟩ := first limits traced name args data done trace
  rw [Value.renumber_id_list] at again
  exact second limits traced name args data again there

-- Writing asks for the types of the functions, which changes no computation, so the call may come before or after it.
theorem text_keeps_computations {start : Module} (blank : start = .initial ∨ start = .empty) (requests : List Request)
    (tame : (run start requests).Tame) (annotated : (run start requests).Annotated) {text : String}
    {settled copy : Module} (written : toText.result (run start requests) = .ok (text, settled))
    (read : ofText text = .ok copy) :
    ∃ number, Function.Injective number ∧ copy.functions = (run start requests).functions.map number ∧
      Computes (run start requests) copy number ∧ Computes settled copy number := by
  obtain ⟨order, retold⟩ := retold_of_accepted blank requests tame written read
  obtain ⟨history, made⟩ := made_run requests (made_start blank)
  have renamed := retold.renamed
  have mirrors := retold.copied.mirrors retold.setup retold.complete (retold.typed.annotated annotated) renamed
  have second : Computes settled copy (Copied.numbering order) := computes_of_mirrors retold.setup.owned mirrors
  have first : Computes (run start requests) settled id := computes_of_mirrors made.owned retold.typed.mirrors
  refine ⟨Copied.numbering order, renamed.apart, ?_, first.after second, second⟩
  rw [renamed.functions, retold.typed.shape.functions]

-- An integer and a function.
def pair? : EStateM.Result RunError (Array TraceEntry) (List Value) → Option (Int64 × NodeId)
  | .ok [.int number, .function id] _ => some (number, id)
  | _ => none

theorem pair_eq_some {result : EStateM.Result RunError (Array TraceEntry) (List Value)} {number : Int64} {id : NodeId}
    (pair : pair? result = some (number, id)) : ∃ after, result = .ok [.int number, .function id] after := by
  unfold pair? at pair
  split at pair
  · cases pair
    exact ⟨_, rfl⟩
  · cases pair

-- The first function calls the second one and returns it, too. In the text, the nodes of the first one come
-- before the second one.
theorem reference_is_renamed :
    let requests : List Request := [.addBasic .integer, .addFunction "apply", .addFunction "twice", .setOutput ⟨1, 1⟩ 0,
      .addNode 1 .plus, .wire ⟨2, 1⟩ ⟨1, 1⟩, .wire ⟨2, 2⟩ ⟨1, 1⟩, .setOutput ⟨2, 1⟩ 0, .wire ⟨1, 1⟩ ⟨2, 1⟩,
      .addNode 0 .call, .setLiteral ⟨3, 1⟩ (.function 1), .setOutput ⟨0, 1⟩ 0, .wire ⟨3, 2⟩ ⟨0, 1⟩,
      .setOutput ⟨3, 1⟩ 0, .wire ⟨0, 1⟩ ⟨3, 1⟩, .setLiteral ⟨0, 2⟩ (.function 1)]
    ∃ text settled copy, ∃ number : NodeId → NodeId, ∃ final,
      toText.result (run Module.empty requests) = .ok (text, settled) ∧ ofText text = .ok copy ∧
      copy.functions = [number 0, number 1] ∧
      ({ m := copy } : Interpreter).run (.function "apply" [.int 7]) #[] =
        .ok [.int 14, .function (number 1)] final := by
  intro requests
  have tame : (run Module.empty requests).Tame := by decide +kernel
  have annotated : (run Module.empty requests).Annotated := by decide +kernel
  have functions : (run Module.empty requests).functions = [0, 1] := by decide +kernel
  have shown : (toText.result (run Module.empty requests)).toOption.any
      (fun done => (ofText done.1).toOption.isSome) = true := by decide +kernel
  have answered : pair? (({ m := run Module.empty requests } : Interpreter).run (.function "apply" [.int 7]) #[]) =
      some (14, 1) := by decide +kernel
  obtain ⟨after, here⟩ := pair_eq_some answered
  cases written : toText.result (run Module.empty requests) with
  | error error =>
      rw [written] at shown
      cases shown
  | ok done =>
      obtain ⟨text, settled⟩ := done
      have readable : (ofText text).toOption.isSome := by simpa [written, Except.toOption] using shown
      cases read : ofText text with
      | error error =>
          rw [read] at readable
          cases readable
      | ok copy =>
          obtain ⟨number, _, same, computes, _⟩ :=
            text_keeps_computations (.inr rfl) requests tame annotated written read
          have data : ∀ value ∈ [Value.int 7], value.IsData := by
            intro value member
            rw [List.mem_singleton.mp member]
            trivial
          obtain ⟨final, again⟩ := computes {} false "apply" _ data here #[]
          exact ⟨text, settled, copy, number, final, rfl, read, by rw [same, functions]; rfl, again⟩

end Module

end Dataflow
