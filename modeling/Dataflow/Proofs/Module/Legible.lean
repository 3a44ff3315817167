import Dataflow.Proofs.Module.Refeeding
import Dataflow.Proofs.Module.Room
set_option autoImplicit false

-- Modules whose records can all be read back: what is written between blanks holds none, what is
-- written between quotes stays on its line, and numbers fit a word.
namespace Dataflow.Module
open Text (wordBound)

structure Printable (m : Module) (asked : Pragmas → Prop) : Prop where
  named : ∀ {id name}, m.role? id = some (.function name) →
    '\n' ∉ name.toList ∧ (m.pragmasOf id).Quoteless
  own : ∀ id, asked (m.pragmasOf id)
  input : ∀ {inlet input}, m.input? inlet = some input → asked input.pragmas
  output : ∀ {outlet output}, m.output? outlet = some output → asked output.pragmas
  literal : ∀ {inlet literal}, m.binding? inlet = some (.literal literal) →
    '\n' ∉ literal.text.toList ∧ ((m.input? inlet).getD {}).pragmas.Quoteless

structure Fitting (m : Module) (asked : Pragmas → Prop) : Prop extends Printable m asked where
  types : ∀ {type definition}, m.types.get? type = some definition → asked definition.pragmas
  pragmas : ∀ entry ∈ m.pragmas.entries, (Record.pragma entry.1 entry.2).Wordy

theorem Fitting.mono {m : Module} {asked other : Pragmas → Prop} (enough : ∀ {pragmas}, asked pragmas → other pragmas)
    (fitting : m.Fitting asked) : m.Fitting other := by
  refine ⟨⟨fitting.named, fun id => enough (fitting.own id), fun found => enough (fitting.input found),
    fun found => enough (fitting.output found), fitting.literal⟩, fun found => enough (fitting.types found),
    fitting.pragmas⟩

-- Ports and places are words of 32 bits.
structure Counted (m : Module) : Prop where
  inlets : ∀ {inlet}, (m.input? inlet).isSome → inlet.port < wordBound
  outlets : ∀ {outlet}, (m.output? outlet).isSome → outlet.port < wordBound
  nodes : ∀ id, (m.nodesOf id).length < wordBound

structure Countable (m : Module) : Prop extends Counted m where
  children : ∀ id, (m.childrenOf id).length < wordBound
  count : m.types.order.length < wordBound

structure Legible (m : Module) : Prop extends Fitting m Pragmas.Plain, Countable m where
  positive : m.Positive

/-! ### Records of a module -/

-- What holds of every record that is written for a function.
structure Throughout (m : Module) (good : Record → Prop) : Prop where
  binding : ∀ {label inlet record}, m.label inlet.node = .ok label → Binds m label inlet record → good record
  node : ∀ {id : NodeId} {node : Node} {label : Nat}, m.nodes[id]? = some node → m.label id = .ok label →
    good (.node ⟨label, node.opcode, node.pragmas⟩)
  compound : ∀ {id : NodeId} {node : Node} {label : Nat}, m.nodes[id]? = some node → m.label id = .ok label →
    good (.compound ⟨label, node.opcode⟩)
  trailer : ∀ {id : NodeId} {node : Node} {label : Nat}, m.nodes[id]? = some node → m.label id = .ok label →
    good (.trailer ⟨label, node.opcode, offsetsOf node, node.pragmas⟩)
  graph : ∀ {id : NodeId} {node : Node}, m.nodes[id]? = some node → good (.graph node.pragmas)
  function : ∀ {id : NodeId} {node : Node} {name : String} {type : Option TypeId} {label : Nat},
    m.nodes[id]? = some node → node.role = .function name → m.typeLabel type = .ok label →
      good (.function ⟨label, name, node.pragmas⟩)

namespace Throughout
variable {m : Module} {good : Record → Prop}

theorem bindings (throughout : m.Throughout good) {id : NodeId} {node : Node} {label : Nat} {records : List Record}
    (found : m.nodes[id]? = some node) (labelled : m.label id = .ok label)
    (fed : m.bindingRecords label node = .ok records) : ∀ record ∈ records, good record := by
  intro record member
  obtain ⟨position, inside, rfl⟩ := List.getElem_of_mem member
  have each := (binding_records_iff found).mp fed
  have here := each.get (by rw [each.length_eq]; exact inside) inside
  have listed := List.get_mem (m.boundInlets id) ⟨position, by rw [each.length_eq]; exact inside⟩
  refine throughout.binding ?_ here
  rw [(mem_bound_inlets.mp listed).1]
  exact labelled

theorem label_of_graph {id : NodeId} {node : Node} (found : m.nodes[id]? = some node) (isGraph : node.isGraph = true) :
    m.label id = .ok 0 :=
  label_graph (is_graph_of_graph (graph_ok_iff.mpr ⟨found, isGraph⟩))

theorem written (throughout : m.Throughout good) {part : Part} {order : List NodeId} {records : List Record}
    (written : Written m part order records) : ∀ record ∈ records, good record := by
  induction written with
  | plain found labelled bare fed =>
      intro record member
      rcases List.mem_cons.mp member with rfl | member
      · exact throughout.node found labelled
      · exact throughout.bindings found labelled fed record member
  | compound found labelled holds inner fed ih =>
      intro record member
      rcases List.mem_append.mp member with member | member
      · rcases List.mem_cons.mp member with rfl | member
        · exact throughout.compound found labelled
        · exact ih record member
      · rcases List.mem_cons.mp member with rfl | member
        · exact throughout.trailer found labelled
        · exact throughout.bindings found labelled fed record member
  | noNodes => exact fun _ member => by cases member
  | nodes head rest headIh restIh =>
      exact fun record member => (List.mem_append.mp member).elim (headIh record) (restIh record)
  | noGraphs => exact fun _ member => by cases member
  | graphs found isGraph fed body rest bodyIh restIh =>
      intro record member
      rcases List.mem_append.mp member with member | member
      · rcases List.mem_cons.mp member with rfl | member
        · exact throughout.graph found
        rcases List.mem_append.mp member with member | member
        · exact throughout.bindings found (label_of_graph found isGraph) fed record member
        · exact bodyIh record member
      · exact restIh record member

theorem written_function (throughout : m.Throughout good) {id : NodeId} {type : Option TypeId} {order : List NodeId}
    {records : List Record} (written : WrittenFunction m id type order records) :
    ∀ record ∈ records, good record := by
  obtain ⟨node, name, label, results, inner, body, found, role, typed, fed, inside, _, rfl⟩ := written.written
  intro record member
  rcases List.mem_cons.mp member with rfl | member
  · exact throughout.function found role typed
  rcases List.mem_append.mp member with member | member
  · exact throughout.bindings found (label_of_graph found (by simp [Node.isGraph, role])) fed record member
  · exact throughout.written inside record member

end Throughout

section Fitting
variable {m : Module} {asked : Pragmas → Prop}

theorem label_lt (counted : m.Counted) {id : NodeId} {label : Nat} (labelled : m.label id = .ok label) :
    label < wordBound := by
  have positive : 0 < wordBound := Nat.pos_of_ne_zero (by decide)
  obtain ⟨node, found, done⟩ := Outcome.bind_ok labelled
  cases role : node.role with
  | node graph =>
      rw [role] at done
      obtain ⟨owner, there, done⟩ := Outcome.bind_ok done
      have nodes : m.nodesOf graph = owner.nodes := by simp [nodesOf, (graph_ok_iff.mp there).1]
      cases place : owner.nodes.idxOf? id with
      | none =>
          simp only [place] at done
          cases done
      | some place' =>
          simp only [place] at done
          cases done
          obtain ⟨member, rfl⟩ := Places.idx_of_iff.mp place
          have inside := List.idxOf_lt_length_iff.mpr member
          have few := counted.nodes graph
          rw [nodes] at few
          omega
  | function name =>
      rw [role] at done
      cases done
      exact positive
  | subgraph compound =>
      rw [role] at done
      cases done
      exact positive

theorem type_label_lt (count : m.types.order.length < wordBound) {type : Option TypeId} {label : Nat}
    (done : m.typeLabel type = .ok label) : label < wordBound := by
  obtain ⟨live, rfl⟩ := type_label_ok done
  cases type with
  | none => exact Nat.pos_of_ne_zero (by decide)
  | some type =>
      have place := TypeTable.place_lt (live type rfl)
      simp only [Option.map_some, Option.getD_some]
      omega

theorem asked_fed (lasting : Pragmas.Lasting asked) (printable : m.Printable asked) (inlet : Inlet) :
    asked (m.fedPragmas inlet) := by
  have input : asked ((m.input? inlet).getD {}).pragmas := by
    cases found : m.input? inlet with
    | none => exact lasting.empty
    | some input => exact printable.input found
  unfold fedPragmas
  split
  · rename_i source stamp _
    refine lasting.merge ?_ input
    cases found : m.output? source with
    | none => exact lasting.empty
    | some output => exact printable.output found
  · exact input

theorem asked_node (printable : m.Printable asked) {id : NodeId} {node : Node} (found : m.nodes[id]? = some node) :
    asked node.pragmas := by
  have own := printable.own id
  simpa [pragmasOf, found] using own

theorem throughout_kinds (m : Module) : m.Throughout fun record => (Read.kindOf record).isSome := by
  constructor
  case binding =>
    intro label inlet record labelled binds
    obtain ⟨_, _, ⟨_, _, rfl⟩ | ⟨_, _, _, _, _, rfl⟩⟩ := binds_cases binds <;> rfl
  all_goals
    intros
    rfl

theorem throughout_spelled (lasting : Pragmas.Lasting asked) (printable : m.Printable asked) :
    m.Throughout (Record.Spelled asked) := by
  constructor
  case binding =>
    intro label inlet record labelled binds
    have fed := asked_fed lasting printable inlet
    obtain ⟨type, typed, ⟨literal, bound, rfl⟩ | ⟨source, stamp, sourceLabel, bound, found, rfl⟩⟩ := binds_cases binds
    · obtain ⟨free, quoteless⟩ := printable.literal bound
      have same : m.fedPragmas inlet = ((m.input? inlet).getD {}).pragmas := by
        unfold fedPragmas
        rw [bound]
      refine ⟨free, fed, ?_⟩
      rw [same]
      exact @quoteless
    · exact fed
  case function =>
    intro id node name type label found role typed
    have known : m.role? id = some (.function name) := by simp [role?, found, role]
    have same : m.pragmasOf id = node.pragmas := by simp [pragmasOf, found]
    obtain ⟨free, quoteless⟩ := printable.named known
    rw [same] at quoteless
    exact ⟨free, asked_node printable found, @quoteless⟩
  case compound => exact fun _ _ => trivial
  case graph => exact fun found => asked_node printable found
  all_goals exact fun found _ => asked_node printable found

theorem offsets_lt {node : Node} (few : node.children.length < wordBound) :
    (offsetsOf node).length < wordBound ∧ ∀ offset ∈ offsetsOf node, offset < wordBound := by
  refine ⟨by simpa [offsetsOf] using few, fun offset member => ?_⟩
  obtain ⟨child, listed, rfl⟩ := List.mem_map.mp member
  have inside := List.idxOf_lt_length_iff.mpr (List.mem_eraseDups.mpr listed)
  have fewer : node.distinctChildren.length ≤ node.children.length := by
    refine (List.subperm_of_subset (Places.nodup_erase_dups _) ?_).length_le
    exact fun child listed => List.mem_eraseDups.mp listed
  exact Nat.lt_trans (Nat.lt_of_lt_of_le inside fewer) few

theorem throughout_counted (countable : m.Countable) (wired : m.Wired) : m.Throughout Record.Counted := by
  have small : ∀ {id label}, m.label id = .ok label → label < wordBound :=
    fun labelled => label_lt countable.toCounted labelled
  constructor
  case binding =>
    intro label inlet record labelled binds
    obtain ⟨input, held, _⟩ := binds.written
    have port := countable.inlets (show (m.input? inlet).isSome by rw [held]; rfl)
    obtain ⟨type, typed, ⟨literal, bound, rfl⟩ | ⟨source, stamp, sourceLabel, bound, found, rfl⟩⟩ := binds_cases binds
    · exact ⟨small labelled, port, type_label_lt countable.count typed⟩
    · exact ⟨small found, countable.outlets (wired.wires bound).1, small labelled, port,
        type_label_lt countable.count typed⟩
  case trailer =>
    intro id node label found labelled
    have few := countable.children id
    rw [childrenOf, found, Option.map_some, Option.getD_some] at few
    exact ⟨small labelled, offsets_lt few⟩
  case function => exact fun _ _ typed => type_label_lt countable.count typed
  case graph => exact fun _ => trivial
  all_goals exact fun _ labelled => small labelled

theorem throughout_ported (positive : m.Positive) (wired : m.Wired) : m.Throughout Record.Ported := by
  constructor
  case binding =>
    intro label inlet record labelled binds
    obtain ⟨input, held, _⟩ := binds.written
    have low := positive inlet.node inlet.port (.inl (by rw [held]; rfl))
    obtain ⟨type, typed, ⟨literal, bound, rfl⟩ | ⟨source, stamp, sourceLabel, bound, found, rfl⟩⟩ := binds_cases binds
    · exact low
    · exact ⟨positive source.node source.port (.inr (wired.wires bound).1), low⟩
  all_goals
    intros
    trivial

theorem spelled_types (types : ∀ {type definition}, m.types.get? type = some definition → asked definition.pragmas)
    {records : List TypeRecord} (written : m.TypesWritten records) :
    ∀ record ∈ records, (Record.type record).Spelled asked := by
  intro record member
  obtain ⟨position, inside, rfl⟩ := List.getElem_of_mem member
  obtain ⟨definition, found, same⟩ := written.each.get (by rw [written.each.length_eq]; exact inside) inside
  simp only [List.get_eq_getElem] at found same
  rw [same]
  refine ⟨Nat.le_add_left 1 _, fun reference inside => ?_, types found⟩
  change reference ∈ (definition.signature.map _).references at inside
  rw [Signature.references_map] at inside
  obtain ⟨_, _, rfl⟩ := List.mem_map.mp inside
  exact Nat.le_add_left 1 _

theorem counted_types (count : m.types.order.length < wordBound) {records : List TypeRecord}
    (written : m.TypesWritten records) : ∀ record ∈ records, (Record.type record).Counted := by
  intro record member
  obtain ⟨position, inside, rfl⟩ := List.getElem_of_mem member
  obtain ⟨definition, found, same⟩ := written.each.get (by rw [written.each.length_eq]; exact inside) inside
  simp only [List.get_eq_getElem] at found same
  have label : ∀ {type : TypeId}, type ∈ m.types.order → m.types.place type + 1 < wordBound :=
    fun live => Nat.lt_of_le_of_lt (TypeTable.place_lt live) count
  obtain ⟨live, there⟩ := TypeTable.get_eq_some_iff.mp found
  rw [same]
  refine ⟨label live, fun reference inside => ?_⟩
  change reference ∈ (definition.signature.map _).references at inside
  rw [Signature.references_map] at inside
  obtain ⟨old, here, rfl⟩ := List.mem_map.mp inside
  refine label (written.closed live ?_ old here)
  rw [TypeTable.signature?, there]
  rfl

end Fitting

end Dataflow.Module
