import Dataflow.Proofs.Module.Made
import Dataflow.Proofs.Module.RoundTrip
set_option autoImplicit false

-- Modules whose texts have no blanks, quotes or line breaks where these would be read as the end of
-- something. Made by requests, they can be read back, and where a text is accepted anyway, it is enough
-- that they are blankless.
namespace Dataflow
open Text (isBlank wordBound)

namespace Pragmas

-- Keys and values are words without quotes. A key may hold equals signs.
def Blankless (pragmas : Pragmas) : Prop :=
  ∀ entry ∈ pragmas.entries.entries, (∀ c ∈ entry.1.toList, isBlank c = false ∧ c ≠ '"') ∧
    ∀ c ∈ entry.2.render.toList, isBlank c = false ∧ c ≠ '"'

instance : DecidablePred Blankless :=
  fun _ => inferInstanceAs (Decidable (∀ _ ∈ _, _))

-- A key and its value are words without quotes, and the key ends at its equals sign. Text that reads as
-- an integer is the numeral of that integer.
def TameEntry (entry : String × PragmaValue) : Prop :=
  (∀ c ∈ entry.1.toList, isBlank c = false ∧ c ≠ '"' ∧ c ≠ '=') ∧
    (∀ c ∈ entry.2.render.toList, isBlank c = false ∧ c ≠ '"') ∧
    ∀ text ∈ entry.2.text?, ∀ number ∈ Text.integer? text.toList, text = Text.showInteger number

-- Goes through the texts, not through all characters and numbers there are.
instance (entry : String × PragmaValue) : Decidable (TameEntry entry) :=
  @instDecidableAnd _ _ (List.decidableBAll _ entry.1.toList)
    (@instDecidableAnd _ _ (List.decidableBAll _ entry.2.render.toList)
      (@Option.decidableForallMem _ _ (fun text => Option.decidableForallMem (Text.integer? text.toList)) entry.2.text?))

def Tame (pragmas : Pragmas) : Prop :=
  ∀ entry ∈ pragmas.entries.entries, TameEntry entry

instance (pragmas : Pragmas) : Decidable pragmas.Tame :=
  inferInstanceAs (Decidable (∀ _ ∈ _, _))

section Blankless
variable {pragmas : Pragmas}

theorem blankless_empty : Blankless .empty :=
  fun _ member => by cases member

theorem wordy_of_blankless (sized : pragmas.Sized) (blankless : pragmas.Blankless) : pragmas.Wordy := by
  refine ⟨fun member => sized _ _ (SortedMap.get?_of_mem_entries member), fun member c inside => ?_,
    fun member c inside => ?_⟩
  · exact ((blankless _ member).1 c inside).1
  · exact ((blankless _ member).2 c inside).1

theorem quoteless_of_blankless (blankless : pragmas.Blankless) : pragmas.Quoteless := by
  intro key value member
  refine ⟨fun quote => ?_, fun quote => ?_⟩
  · exact ((blankless _ member).1 _ quote).2 rfl
  · exact ((blankless _ member).2 _ quote).2 rfl

end Blankless

section Tame
variable {pragmas : Pragmas}

theorem stable_of_tame {entry : String × PragmaValue} (tame : TameEntry entry) :
    entry.2.reread.render = entry.2.render := by
  obtain ⟨key, value⟩ := entry
  unfold PragmaValue.reread PragmaValue.ofText
  cases value with
  | int number =>
      rw [PragmaValue.render, Text.integer_show]
      rfl
  | text text =>
      rw [PragmaValue.render]
      cases read : Text.integer? text.toList with
      | none => rfl
      | some number => exact (tame.2.2 text rfl number read).symm

theorem blankless_of_tame (tame : pragmas.Tame) : pragmas.Blankless := by
  refine fun entry member => ⟨fun c inside => ?_, (tame entry member).2.1⟩
  obtain ⟨solid, free, _⟩ := (tame entry member).1 c inside
  exact ⟨solid, free⟩

theorem plain_of_tame (sized : pragmas.Sized) (tame : pragmas.Tame) : pragmas.Plain := by
  refine ⟨⟨wordy_of_blankless sized (blankless_of_tame tame), fun member inside => ?_⟩, fun {key value} member => ?_⟩
  · exact ((tame _ member).1 _ inside).2.2 rfl
  · exact @stable_of_tame (key, value) (tame _ member)

theorem tame_empty : Tame .empty :=
  fun _ member => by cases member

end Tame

end Pragmas

-- A chain that goes on goes on with links of its kind.
def TypeTable.Alike (table : TypeTable) : Signature → Prop
  | .link kind _ (some rest) => (table.signature? rest).map Signature.code = some kind.code
  | _ => True

instance (table : TypeTable) (signature : Signature) : Decidable (table.Alike signature) := by
  unfold TypeTable.Alike
  split <;> infer_instance

structure Node.Tame (node : Node) : Prop where
  own : node.pragmas.Tame
  inputs : ∀ entry ∈ node.inputs.entries, entry.2.pragmas.Tame
  outputs : ∀ entry ∈ node.outputs.entries, entry.2.pragmas.Tame
  named : ∀ name ∈ node.functionName?, '\n' ∉ name.toList

instance (node : Node) : Decidable node.Tame :=
  decidable_of_iff (_ ∧ _ ∧ _ ∧ _) ⟨fun ⟨own, inputs, outputs, named⟩ => ⟨own, inputs, outputs, named⟩,
    fun ⟨own, inputs, outputs, named⟩ => ⟨own, inputs, outputs, named⟩⟩

-- What is asked of all pragmas of a node, and that its name is on one line.
structure Node.Spelled (good : Pragmas → Prop) (node : Node) : Prop where
  own : good node.pragmas
  inputs : ∀ entry ∈ node.inputs.entries, good entry.2.pragmas
  outputs : ∀ entry ∈ node.outputs.entries, good entry.2.pragmas
  named : ∀ name ∈ node.functionName?, '\n' ∉ name.toList

instance (good : Pragmas → Prop) [DecidablePred good] (node : Node) : Decidable (node.Spelled good) :=
  decidable_of_iff (_ ∧ _ ∧ _ ∧ _) ⟨fun ⟨own, inputs, outputs, named⟩ => ⟨own, inputs, outputs, named⟩,
    fun ⟨own, inputs, outputs, named⟩ => ⟨own, inputs, outputs, named⟩⟩

-- Ports and counts are words of 32 bits.
structure Node.Worded (node : Node) : Prop where
  inputs : ∀ entry ∈ node.inputs.entries, entry.1 < wordBound
  outputs : ∀ entry ∈ node.outputs.entries, entry.1 < wordBound
  children : node.children.length < wordBound

instance (node : Node) : Decidable node.Worded :=
  decidable_of_iff (_ ∧ _ ∧ _) ⟨fun ⟨inputs, outputs, children⟩ => ⟨inputs, outputs, children⟩,
    fun ⟨inputs, outputs, children⟩ => ⟨inputs, outputs, children⟩⟩

namespace Module
open Touches

structure Blankless (m : Module) : Prop where
  types : ∀ type ∈ m.types.order, ∀ definition ∈ m.types.arena[type]?, definition.pragmas.Blankless
  nodes : ∀ node ∈ m.nodes.toList, node.Spelled Pragmas.Blankless
  header : ∀ entry ∈ m.pragmas.entries,
    isBlank entry.1 = false ∧ '\n' ∉ entry.2.toList ∧ Text.trim entry.2.toList = entry.2.toList

instance (m : Module) : Decidable m.Blankless :=
  decidable_of_iff (_ ∧ _ ∧ _) ⟨fun ⟨types, nodes, header⟩ => ⟨types, nodes, header⟩,
    fun ⟨types, nodes, header⟩ => ⟨types, nodes, header⟩⟩

structure Tame (m : Module) : Prop where
  types : ∀ type ∈ m.types.order, ∀ definition ∈ m.types.arena[type]?,
    definition.pragmas.Tame ∧ m.types.Alike definition.signature
  nodes : ∀ node ∈ m.nodes.toList, node.Tame
  header : ∀ entry ∈ m.pragmas.entries,
    isBlank entry.1 = false ∧ '\n' ∉ entry.2.toList ∧ Text.trim entry.2.toList = entry.2.toList

instance (m : Module) : Decidable m.Tame :=
  decidable_of_iff (_ ∧ _ ∧ _) ⟨fun ⟨types, nodes, header⟩ => ⟨types, nodes, header⟩,
    fun ⟨types, nodes, header⟩ => ⟨types, nodes, header⟩⟩

-- Ids, labels and ports are words of 32 bits.
structure Worded (m : Module) : Prop where
  nodes : ∀ node ∈ m.nodes.toList, node.Worded
  size : m.nodes.size ≤ wordBound
  types : m.types.order.length < wordBound

instance (m : Module) : Decidable m.Worded :=
  decidable_of_iff (_ ∧ _ ∧ _) ⟨fun ⟨nodes, size, types⟩ => ⟨nodes, size, types⟩,
    fun ⟨nodes, size, types⟩ => ⟨nodes, size, types⟩⟩

section Made
variable {m : Module} {history : Touches Binding}

theorem sized_node (tidy : m.Tidy) (id : NodeId) : (m.pragmasOf id).Sized := by
  unfold pragmasOf
  cases found : m.nodes[id]? with
  | none => exact Pragmas.sized_empty
  | some node => exact (tidy.nodes.node found).own

theorem mem_of_node {id : NodeId} {node : Node} (found : m.nodes[id]? = some node) : node ∈ m.nodes.toList :=
  List.mem_of_getElem? (by rw [Array.getElem?_toList]; exact found)

theorem Worded.node (worded : m.Worded) {id : NodeId} {node : Node} (found : m.nodes[id]? = some node) :
    node.Worded :=
  worded.nodes node (mem_of_node found)

theorem Worded.input (worded : m.Worded) {inlet : Inlet} (held : (m.input? inlet).isSome) :
    inlet.port < wordBound := by
  obtain ⟨input, found⟩ := Option.isSome_iff_exists.mp held
  obtain ⟨node, here, there⟩ := Option.bind_eq_some_iff.mp found
  exact (worded.node here).inputs _ (SortedMap.mem_entries_of_get? there)

theorem Worded.output (worded : m.Worded) {outlet : Outlet} (held : (m.output? outlet).isSome) :
    outlet.port < wordBound := by
  obtain ⟨output, found⟩ := Option.isSome_iff_exists.mp held
  obtain ⟨node, here, there⟩ := Option.bind_eq_some_iff.mp found
  exact (worded.node here).outputs _ (SortedMap.mem_entries_of_get? there)

theorem Worded.children (worded : m.Worded) (id : NodeId) : (m.childrenOf id).length < wordBound := by
  cases found : m.nodes[id]? with
  | none =>
      rw [childrenOf, found]
      exact Nat.pos_of_ne_zero (by decide)
  | some node =>
      rw [children_of_node found]
      exact (worded.node found).children

section Spelled
variable {good asked : Pragmas → Prop}

theorem name_spelled (spelled : ∀ node ∈ m.nodes.toList, node.Spelled good) {id : NodeId} {name : String}
    (role : m.role? id = some (.function name)) : '\n' ∉ name.toList := by
  obtain ⟨node, found, named⟩ := node_of_role role
  exact (spelled node (mem_of_node found)).named name (by rw [Node.functionName?, named]; exact rfl)

theorem own_spelled (spelled : ∀ node ∈ m.nodes.toList, node.Spelled good) (empty : good .empty) (id : NodeId) :
    good (m.pragmasOf id) := by
  unfold pragmasOf
  cases found : m.nodes[id]? with
  | none => exact empty
  | some node => exact (spelled node (mem_of_node found)).own

theorem input_spelled (spelled : ∀ node ∈ m.nodes.toList, node.Spelled good) (empty : good .empty) (inlet : Inlet) :
    good ((m.input? inlet).getD {}).pragmas := by
  cases found : m.input? inlet with
  | none => exact empty
  | some input =>
      obtain ⟨node, here, there⟩ := Option.bind_eq_some_iff.mp found
      exact (spelled node (mem_of_node here)).inputs _ (SortedMap.mem_entries_of_get? there)

theorem output_spelled (spelled : ∀ node ∈ m.nodes.toList, node.Spelled good) (empty : good .empty)
    (outlet : Outlet) : good ((m.output? outlet).getD {}).pragmas := by
  cases found : m.output? outlet with
  | none => exact empty
  | some output =>
      obtain ⟨node, here, there⟩ := Option.bind_eq_some_iff.mp found
      exact (spelled node (mem_of_node here)).outputs _ (SortedMap.mem_entries_of_get? there)

theorem single_literal (made : Made m history) (spelled : ∀ node ∈ m.nodes.toList, node.Spelled good)
    {inlet : Inlet} {literal : Literal} (bound : m.binding? inlet = some (.literal literal)) :
    '\n' ∉ literal.text.toList := by
  rcases spells_of_binding made bound with single | ⟨id, role⟩
  · exact single
  · exact name_spelled spelled role

theorem printable_of_spelled (made : Made m history) (spelled : ∀ node ∈ m.nodes.toList, node.Spelled good)
    (empty : good .empty) (quoteless : ∀ {pragmas}, good pragmas → pragmas.Quoteless)
    (enough : ∀ {pragmas}, pragmas.Sized → good pragmas → asked pragmas) : m.Printable asked := by
  refine ⟨fun {id name} role => ⟨name_spelled spelled role, ?_⟩, fun id => ?_, fun {inlet input} found => ?_,
    fun {outlet output} found => ?_, fun {inlet literal} bound => ⟨single_literal made spelled bound, ?_⟩⟩
  · exact quoteless (own_spelled spelled empty id)
  · exact enough (sized_node made.tidy id) (own_spelled spelled empty id)
  · have held := enough (sized_input_of_module made.tidy.nodes inlet) (input_spelled spelled empty inlet)
    rw [found] at held
    exact held
  · have held := enough (sized_output_of_module made.tidy.nodes outlet) (output_spelled spelled empty outlet)
    rw [found] at held
    exact held
  · exact quoteless (input_spelled spelled empty inlet)

-- What is asked of a module that was made by requests holds once its functions have types.
theorem fitting_of_spelled {settled : Module} (made : Made m history)
    (spelled : ∀ node ∈ m.nodes.toList, node.Spelled good)
    (types : ∀ type ∈ m.types.order, ∀ definition ∈ m.types.arena[type]?, good definition.pragmas)
    (header : ∀ entry ∈ m.pragmas.entries, (Record.pragma entry.1 entry.2).Wordy)
    (empty : good .empty) (quoteless : ∀ {pragmas}, good pragmas → pragmas.Quoteless)
    (enough : ∀ {pragmas}, pragmas.Sized → good pragmas → asked pragmas) (typed : Typed m settled) :
    settled.Fitting asked := by
  have askedTypes : ∀ {type definition}, m.types.get? type = some definition → asked definition.pragmas := by
    intro type definition found
    obtain ⟨live, here⟩ := TypeTable.get_eq_some_iff.mp found
    exact enough (made.tidy.types.sized here) (types type live definition here)
  exact fitting_typed (enough Pragmas.sized_empty empty)
    ⟨printable_of_spelled made spelled empty quoteless enough, askedTypes, header⟩ typed

end Spelled

theorem fitting_of_tame {settled : Module} (made : Made m history) (tame : m.Tame) (typed : Typed m settled) :
    settled.Fitting Pragmas.Plain := by
  refine fitting_of_spelled made (fun node member => ?_) (fun type live definition here => ?_) tame.header
    Pragmas.tame_empty (fun tame => Pragmas.quoteless_of_blankless (Pragmas.blankless_of_tame tame))
    Pragmas.plain_of_tame typed
  · have good := tame.nodes node member
    exact ⟨good.own, good.inputs, good.outputs, good.named⟩
  · exact (tame.types type live definition here).1

end Made

end Module

end Dataflow
