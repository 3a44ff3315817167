import Dataflow.Proofs.Module.Bindings
import Dataflow.Proofs.Module.Tame
import Dataflow.Proofs.Module.Used
set_option autoImplicit false

-- A module that was made by requests is read back as the same module under other ids. What the text
-- leaves out is left out: inputs that nothing feeds, and outputs that nothing reads.
namespace Dataflow.Module
open TypeTable

structure Renamed (m copy : Module) (number : NodeId → NodeId) (place : TypeId → TypeId) : Prop where
  size : copy.nodes.size = m.nodes.size
  inside : ∀ {id}, id < m.nodes.size → number id < m.nodes.size
  apart : Function.Injective number
  functions : copy.functions = m.functions.map number
  role : ∀ {id}, id < m.nodes.size → copy.role? (number id) = (m.role? id).map (·.renumber number)
  opcode : ∀ {id graph}, m.role? id = some (.node graph) → copy.opcode? (number id) = m.opcode? id
  nodes : ∀ {id}, id < m.nodes.size → copy.nodesOf (number id) = (m.nodesOf id).map number
  children : ∀ {id}, id < m.nodes.size → copy.childrenOf (number id) = (m.childrenOf id).map number
  pragmas : ∀ {id}, id < m.nodes.size → (copy.pragmasOf (number id)).render = (m.pragmasOf id).render
  header : copy.pragmas = m.pragmas
  types : copy.types.order = m.types.order.map place
  typesApart : (m.types.order.map place).Nodup
  definition : ∀ {type definition}, m.types.get? type = some definition →
    ∃ twin, copy.types.get? (place type) = some twin ∧ twin.signature = definition.signature.map place ∧
      twin.pragmas.render = definition.pragmas.render
  signature : ∀ {id}, id ∈ m.functions → ∃ type, functionType id m = .ok type m ∧
    functionType (number id) copy = .ok (type.map place) copy
  supply : ∀ {inlet}, inlet.node < m.nodes.size →
    (copy.binding? (inlet.renumber number)).map Binding.supply =
      (m.binding? inlet).map fun binding => binding.supply.renumber number place
  input : ∀ {inlet}, inlet.node < m.nodes.size →
    ((copy.input? (inlet.renumber number)).isSome ↔ (m.binding? inlet).isSome)
  inputType : ∀ {inlet}, inlet.node < m.nodes.size →
    copy.inputType? (inlet.renumber number) = (m.inputType? inlet).map place
  output : ∀ {outlet}, m.Consumed outlet ∨ m.Declared outlet →
    copy.outputType? (outlet.renumber number) = (m.outputType? outlet).map place
  fed : ∀ {inlet}, (m.binding? inlet).isSome →
    (copy.fedPragmas (inlet.renumber number)).render = (m.fedPragmas inlet).render

namespace Copied

variable {m copy : Module} {order : List NodeId}

-- Every node is written: its owner is, and lists it.
theorem everything (copied : Copied m order copy) (owned : m.Owned) (complete : m.Complete) {id : NodeId}
    (inside : id < m.nodes.size) : id ∈ order := by
  induction id using Nat.strongRecOn with
  | ind id ih =>
      obtain ⟨node, found⟩ := exists_node_iff.mpr inside
      have role : m.role? id = some node.role := role_eq_some_of_node found
      cases kind : node.role with
      | function name =>
          rw [kind] at role
          exact copied.roots (owned.registered.mpr ⟨name, role⟩)
      | node graph =>
          rw [kind] at role
          obtain ⟨before, _, listed⟩ := owned.held role
          exact copied.covers.down graph (ih graph before (Nat.lt_trans before inside)) listed
      | subgraph compound =>
          rw [kind] at role
          obtain ⟨before, _⟩ := owned.inside role
          exact copied.covers.children compound (ih compound before (Nat.lt_trans before inside)) (complete role)

theorem inside (copied : Copied m order copy) {id : NodeId} (member : id ∈ order) : id < m.nodes.size := by
  by_cases small : id < m.nodes.size
  · exact small
  · have twin := (copied.placed id member).role
    rw [role_eq_none_of_size (Nat.le_of_not_lt small)] at twin
    have there : order.idxOf id < copy.nodes.size := by
      rw [copied.size]
      exact List.idxOf_lt_length_iff.mpr member
    obtain ⟨node, found⟩ := exists_node_iff.mpr there
    rw [role_eq_some_of_node found] at twin
    cases twin

theorem definition (copied : Copied m order copy) (fitting : m.Fitting Pragmas.Plain) {type : TypeId} {definition : TypeDef}
    (found : m.types.get? type = some definition) :
    ∃ twin, copy.types.get? (m.types.place type) = some twin ∧
      twin.signature = definition.signature.map m.types.place ∧ twin.pragmas.render = definition.pragmas.render := by
  obtain ⟨live, here⟩ := get_eq_some_iff.mp found
  have there := copied.types.arena type live
  rw [here] at there
  refine ⟨definition.renumber m.types.place, get_eq_some_iff.mpr ⟨copied.types.live live, there⟩, rfl, ?_⟩
  exact (fitting.types found).render_normalized

theorem signature (copied : Copied m order copy) (setup : Setup m) {types : List (Option TypeId)}
    (each : List.Forall₂ (Settled m) m.functions types) {id : NodeId} (member : id ∈ m.functions) :
    ∃ type, functionType id m = .ok type m ∧
      functionType (order.idxOf id) copy = .ok (type.map m.types.place) copy := by
  obtain ⟨position, inside, rfl⟩ := List.getElem_of_mem member
  have settled := each.get inside (by rw [← each.length_eq]; exact inside)
  obtain ⟨name, role⟩ := setup.owned.registered.mp member
  exact ⟨_, function_type_run setup.regular.reliable settled,
    function_type_run (copied.types.regular setup.regular setup.closed).reliable
      (copied.settled setup (copied.roots member) role settled)⟩

theorem types_apart (setup : Setup m) : (m.types.order.map m.types.place).Nodup :=
  setup.regular.once.map_on fun _ first _ _ same => place_inj first same

theorem type_order (copied : Copied m order copy) (setup : Setup m) :
    copy.types.order = m.types.order.map m.types.place := by
  rw [copied.types.order]
  refine List.ext_getElem (by simp) fun position inside _ => ?_
  rw [List.getElem_range, List.getElem_map, place_of_order setup.regular (List.getElem?_eq_getElem _)]

theorem length_eq (copied : Copied m order copy) (owned : m.Owned) (complete : m.Complete) :
    order.length = m.nodes.size := by
  have covering : List.range m.nodes.size ⊆ order :=
    fun id member => copied.everything owned complete (List.mem_range.mp member)
  have covered : order ⊆ List.range m.nodes.size := fun id member => List.mem_range.mpr (copied.inside member)
  have fewer := (List.subperm_of_subset copied.once covered).length_le
  have more := (List.subperm_of_subset List.nodup_range covering).length_le
  rw [List.length_range] at fewer more
  exact Nat.le_antisymm fewer more

-- Places in the order, and every other id itself, so that no two ids are taken for one.
def numbering (order : List NodeId) (id : NodeId) : NodeId :=
  if id ∈ order then order.idxOf id else id

theorem numbering_of_mem {id : NodeId} (member : id ∈ order) : numbering order id = order.idxOf id :=
  if_pos member

theorem numbering_apart (copied : Copied m order copy) (owned : m.Owned) (complete : m.Complete) :
    Function.Injective (numbering order) := by
  have small : ∀ {id}, id ∈ order → order.idxOf id < m.nodes.size := by
    intro id member
    rw [← copied.length_eq owned complete]
    exact List.idxOf_lt_length_iff.mpr member
  have large : ∀ {id}, id ∉ order → m.nodes.size ≤ id :=
    fun absent => Nat.le_of_not_lt fun below => absent (copied.everything owned complete below)
  intro first second same
  by_cases here : first ∈ order <;> by_cases there : second ∈ order
  · rw [numbering_of_mem here, numbering_of_mem there] at same
    exact (List.idxOf_inj here).mp same
  · rw [numbering_of_mem here, numbering, if_neg there] at same
    exact absurd (small here) (by rw [same]; exact Nat.not_lt_of_le (large there))
  · rw [numbering_of_mem there, numbering, if_neg here] at same
    exact absurd (small there) (by rw [← same]; exact Nat.not_lt_of_le (large here))
  · rw [numbering, numbering, if_neg here, if_neg there] at same
    exact same

theorem numbering_list {ids : List NodeId} (inside : ids ⊆ order) : ids.map (numbering order) = ids.map order.idxOf :=
  List.map_congr_left fun _ member => numbering_of_mem (inside member)

theorem numbering_role (copied : Copied m order copy) (owned : m.Owned) {id : NodeId} (member : id ∈ order)
    (complete : m.Complete) :
    (m.role? id).map (·.renumber (numbering order)) = (m.role? id).map (·.renumber order.idxOf) := by
  cases role : m.role? id with
  | none => rfl
  | some found =>
      cases found with
      | function name => rfl
      | node graph =>
          have owner := copied.covers.up id member role
          simp only [Option.map_some, Role.renumber, numbering_of_mem owner]
      | subgraph compound =>
          have below := (owned.inside role).1
          have owner := copied.everything owned complete (Nat.lt_trans below (lt_size_of_role role))
          simp only [Option.map_some, Role.renumber, numbering_of_mem owner]

theorem numbering_supply (copied : Copied m order copy) (owned : m.Owned) (wired : m.Wired) {inlet : Inlet}
    (member : inlet.node ∈ order) :
    ((m.binding? inlet).map fun binding => binding.supply.renumber (numbering order) m.types.place) =
      (m.binding? inlet).map fun binding => binding.supply.renumber order.idxOf m.types.place := by
  cases bound : m.binding? inlet with
  | none => rfl
  | some binding =>
      cases binding with
      | literal literal => rfl
      | wire source stamp =>
          have there := copied.source_member owned wired member bound
          simp only [Option.map_some, Binding.supply, Supply.renumber, Outlet.renumber, numbering_of_mem there]

theorem fed_iff (copied : Copied m order copy) {inlet : Inlet} (member : inlet.node ∈ order) :
    (copy.input? (inlet.renumber order.idxOf)).isSome ↔ (m.binding? inlet).isSome := by
  refine Iff.trans ⟨fun held => ?_, fun bound => ?_⟩ (copied.bound_iff member)
  · cases bound : m.binding? inlet with
    | none =>
        rw [Inlet.renumber, (copied.ported _ member).unfed inlet.port bound] at held
        cases held
    | some binding => exact (copied.bound_iff member).mpr (by rw [bound]; rfl)
  · obtain ⟨binding, found⟩ := Option.isSome_iff_exists.mp bound
    exact input_isSome_of_binding found

theorem used_member (copied : Copied m order copy) (setup : Setup m) (complete : m.Complete) {outlet : Outlet}
    (used : m.Consumed outlet ∨ m.Declared outlet) : outlet.node ∈ order := by
  refine copied.everything setup.owned complete ?_
  rcases used with ⟨inlet, stamp, bound⟩ | ⟨⟨name, role⟩, _⟩
  · exact lt_size_of_output (setup.wired.wires bound).1
  · exact lt_size_of_role role

theorem renamed (copied : Copied m order copy) (setup : Setup m) (complete : m.Complete)
    (fitting : m.Fitting Pragmas.Plain) {types : List (Option TypeId)} (each : List.Forall₂ (Settled m) m.functions types) :
    Renamed m copy (numbering order) m.types.place := by
  have all : ∀ {id}, id < m.nodes.size → id ∈ order := fun inside => copied.everything setup.owned complete inside
  have here : ∀ {id}, id < m.nodes.size → numbering order id = order.idxOf id :=
    fun inside => numbering_of_mem (all inside)
  have inlet_eq : ∀ {inlet : Inlet}, inlet.node < m.nodes.size →
      inlet.renumber (numbering order) = inlet.renumber order.idxOf := by
    intro inlet inside
    rw [Inlet.renumber, here inside]
    rfl
  have length := copied.length_eq setup.owned complete
  constructor
  case size => exact copied.size.trans length
  case inside =>
    intro id inside
    rw [here inside, ← length]
    exact List.idxOf_lt_length_iff.mpr (all inside)
  case apart => exact copied.numbering_apart setup.owned complete
  case functions => rw [copied.functions, numbering_list copied.roots]
  case role =>
    intro id inside
    rw [here inside, copied.numbering_role setup.owned (all inside) complete]
    exact (copied.placed id (all inside)).role
  case opcode =>
    intro id graph role
    obtain ⟨node, found, _⟩ := node_of_role role
    have inside := lt_size_of_role role
    rw [here inside, (copied.placed id (all inside)).opcode, opcode?, found]
    exact congrArg some (plain_opcode found role)
  case nodes =>
    intro id inside
    rw [here inside, numbering_list (copied.covers.down id (all inside))]
    exact (copied.placed id (all inside)).nodes
  case children =>
    intro id inside
    rw [here inside, numbering_list (copied.covers.children id (all inside))]
    exact (copied.placed id (all inside)).children
  case pragmas =>
    intro id inside
    rw [here inside, (copied.placed id (all inside)).pragmas]
    exact (fitting.own id).render_normalized
  case header => exact copied.pragmas
  case types => exact copied.type_order setup
  case typesApart => exact types_apart setup
  case definition => exact copied.definition fitting
  case signature =>
    intro id member
    rw [numbering_of_mem (copied.roots member)]
    exact copied.signature setup each member
  case supply =>
    intro inlet inside
    rw [inlet_eq inside, copied.numbering_supply setup.owned setup.wired (all inside)]
    exact copied.supply (all inside)
  case input =>
    intro inlet inside
    rw [inlet_eq inside]
    exact copied.fed_iff (all inside)
  case inputType =>
    intro inlet inside
    rw [inlet_eq inside]
    exact copied.input_type setup.owned setup.wired (all inside)
  case output =>
    intro outlet used
    have there := copied.used_member setup complete used
    rw [Outlet.renumber, numbering_of_mem there, outputType?, (copied.ported _ there).used outlet.port used]
    rfl
  case fed =>
    intro inlet bound
    obtain ⟨binding, found⟩ := Option.isSome_iff_exists.mp bound
    have inside := lt_size_of_binding found
    rw [inlet_eq inside, copied.fed_pragmas setup.owned setup.wired (all inside) bound]
    exact (asked_fed Pragmas.lasting_plain fitting.toPrintable inlet).render_normalized

end Copied

/-! ### Modules that are made by requests -/

-- A module and what is read back from its text, once its functions have types.
structure Retold (m settled copy : Module) (text : String) (order : List NodeId) : Prop where
  typed : Typed m settled
  copied : Copied settled order copy
  setup : Copied.Setup settled
  complete : settled.Complete
  fitting : settled.Fitting Pragmas.Plain
  each : ∃ types, List.Forall₂ (Settled settled) settled.functions types
  text : toText copy = .ok text copy
  few : settled.types.order.length < Text.wordBound

theorem Retold.renamed {m settled copy : Module} {text : String} {order : List NodeId}
    (retold : Retold m settled copy text order) :
    Renamed settled copy (Copied.numbering order) settled.types.place := by
  obtain ⟨types, each⟩ := retold.each
  exact retold.copied.renamed retold.setup retold.complete retold.fitting each

section Run
variable {start : Module} (blank : start = .initial ∨ start = .empty) (requests : List Request)
include blank

theorem functions_positive {settled : Module} (typed : Typed (run start requests) settled) {id : NodeId} {name : String}
    (role : settled.role? id = some (.function name)) : settled.PositiveAt id := by
  obtain ⟨origin, started⟩ := origin_of_blank blank
  exact positive_typed (function_positive started ((typed.shape.role id).symm.trans role)) typed

-- A text that is accepted has no number of more than 32 bits, and no port 0.
theorem retold_of_accepted (tame : (run start requests).Tame) {text : String} {settled copy : Module}
    (written : toText.result (run start requests) = .ok (text, settled)) (read : ofText text = .ok copy) :
    ∃ order, Retold (run start requests) settled copy text order := by
  obtain ⟨history, made⟩ := made_run requests (made_start blank)
  have done := Edit.result_eq_ok.mp written
  obtain ⟨typed, types, each, shown⟩ := to_text_ok made.tidy.types.regular made.wired done
  have wired := wired_to_text made.wired done
  have owned := made.owned.of_same_shape typed.shape
  have fitting := fitting_of_tame made tame typed
  obtain ⟨records, order, body, typesWritten, functionsWritten, rfl⟩ := text_with_ok each shown
  have copied := copied_of_accepted typed.regular owned wired (functions_positive blank requests typed)
    (fitting.mono fun plain => plain.toWordy) typesWritten functionsWritten read
  have setup : Copied.Setup settled := ⟨typed.regular, typesWritten.closed, owned, wired⟩
  exact ⟨order, typed, copied, setup, complete_of_same_shape typed.shape made.complete, fitting, ⟨types, each⟩,
    copied.written_again setup fitting each typesWritten functionsWritten,
    few_of_accepted typed.regular (fitting.mono fun plain => plain.toWordy) each shown read⟩

end Run

end Dataflow.Module
