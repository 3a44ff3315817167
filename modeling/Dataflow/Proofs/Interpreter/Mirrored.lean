import Dataflow.Proofs.Interpreter.Mimicry
import Dataflow.Proofs.Module.Ownership
import Dataflow.Proofs.Module.Refeeding
import Dataflow.Proofs.Places
set_option autoImplicit false

-- Modules in which evaluations find the same under other ids. A mirrored module may lack inputs that
-- nothing feeds and outputs that nothing needs, for no evaluation that succeeds gets to see them.
namespace Dataflow
open Interpreter

structure Node.Twin (number : NodeId → NodeId) (node twin : Node) : Prop where
  isGraph : twin.isGraph = node.isGraph
  isFunction : twin.isFunction = node.isFunction
  opcode : node.isGraph = false → twin.opcode = node.opcode
  nodes : twin.nodes = node.nodes.map number
  children : twin.children = node.children.map number
  fewer : twin.maxOutput ≤ node.maxOutput
  arguments : node.isFunction = true → twin.maxOutput = node.maxOutput

structure Module.Mirrors (m copy : Module) (number : NodeId → NodeId) : Prop where
  apart : Function.Injective number
  node : ∀ {id node}, m.nodes[id]? = some node → ∃ twin, copy.nodes[number id]? = some twin ∧ node.Twin number twin
  input : ∀ {inlet}, inlet.node < m.nodes.size → (copy.input? (inlet.renumber number)).isSome → (m.input? inlet).isSome
  bound : ∀ {inlet}, inlet.node < m.nodes.size →
    ((copy.binding? (inlet.renumber number)).isSome ↔ (m.binding? inlet).isSome)
  wire : ∀ {inlet source stamp}, m.binding? inlet = some (.wire source stamp) →
    ∃ later, copy.binding? (inlet.renumber number) = some (.wire (source.renumber number) later)
  literal : ∀ {inlet literal value}, m.binding? inlet = some (.literal literal) →
    literalValue m inlet literal = .ok value → ∃ twin, copy.binding? (inlet.renumber number) = some (.literal twin) ∧
      literalValue copy (inlet.renumber number) twin = .ok (value.renumber number)
  function : ∀ {name id}, m.function? name = some id → copy.function? name = some (number id)

namespace Interpreter
open Dataflow.Module Value

/-! ### Frames -/

def Frame.renumber (number : NodeId → NodeId) (frame : Frame) : Frame :=
  frame.map fun entry => (number entry.1, entry.2.map (Value.renumber number))

section Frames
variable {number : NodeId → NodeId}

theorem lookup_renumber (apart : Function.Injective number) (frame : Frame) (id : NodeId) :
    (frame.renumber number).lookup (number id) = (frame.lookup id).map (List.map (Value.renumber number)) := by
  induction frame with
  | nil => rfl
  | cons entry rest ih =>
      obtain ⟨other, values⟩ := entry
      change List.lookup (number id) ((number other, values.map (Value.renumber number)) :: Frame.renumber number rest) = _
      rw [List.lookup_cons, List.lookup_cons]
      by_cases same : id = other
      · rw [same, beq_self_eq_true, beq_self_eq_true]
        rfl
      · rw [beq_false_of_ne same, beq_false_of_ne fun equal => same (apart equal)]
        exact ih

theorem value_alike {frame twin : Frame} {outlet : Outlet}
    (same : twin.lookup (number outlet.node) = (frame.lookup outlet.node).map (List.map (Value.renumber number))) :
    twin.value? (outlet.renumber number) = (frame.value? outlet).map (Value.renumber number) := by
  unfold Frame.value? Outlet.renumber
  dsimp only
  rw [same]
  cases frame.lookup outlet.node with
  | none => rfl
  | some values =>
      change (if outlet.port = 0 then none else (values.map (Value.renumber number))[outlet.port - 1]?) =
        (if outlet.port = 0 then none else values[outlet.port - 1]?).map (Value.renumber number)
      split
      · rfl
      · exact List.getElem?_map

end Frames

/-! ### Inputs -/

section Inputs
variable {self other : Interpreter} {number : NodeId → NodeId} {frame : Frame}

theorem bound_of_value {inlet : Inlet} {input : Input} {value : Value} (found : self.m.input? inlet = some input)
    (done : self.inputValue frame inlet input = .ok value) : (self.m.binding? inlet).isSome := by
  rw [Module.binding?, found]
  unfold inputValue at done
  split at done
  · rename_i bound
    exact Option.isSome_iff_exists.mpr ⟨_, bound⟩
  · rename_i bound
    exact Option.isSome_iff_exists.mpr ⟨_, bound⟩
  · cases done

theorem input_value_mirrored (mirrors : Mirrors self.m other.m number) {inlet : Inlet} {input twin : Input}
    {value : Value} (found : self.m.input? inlet = some input)
    (foundToo : other.m.input? (inlet.renumber number) = some twin)
    (done : self.inputValue frame inlet input = .ok value) :
    other.inputValue (frame.renumber number) (inlet.renumber number) twin = .ok (value.renumber number) := by
  have look : ∀ {binding}, input.binding = some binding → self.m.binding? inlet = some binding := by
    intro binding bound
    rw [Module.binding?, found]
    exact bound
  have lookToo : ∀ {binding}, other.m.binding? (inlet.renumber number) = some binding → twin.binding = some binding := by
    intro binding bound
    rw [Module.binding?, foundToo] at bound
    exact bound
  unfold inputValue at done ⊢
  split at done
  · rename_i bound
    obtain ⟨_, literal, same⟩ := mirrors.literal (look bound) done
    rw [lookToo literal]
    exact same
  · rename_i source stamp bound
    obtain ⟨later, wired⟩ := mirrors.wire (look bound)
    rw [lookToo wired]
    dsimp only
    rw [value_alike (lookup_renumber mirrors.apart frame source.node)]
    split at done
    · rename_i known
      cases done
      rw [known]
      rfl
    · cases done
  · cases done

-- Ports of the same numbers, in the same order, find the same values.
theorem gather_mirrored (mirrors : Mirrors self.m other.m number) {id : NodeId} {first second : List (Nat × Input)}
    {values : List Value} (keys : second.map (·.1) = first.map (·.1))
    (here : ∀ entry ∈ first, self.m.input? ⟨id, entry.1⟩ = some entry.2)
    (there : ∀ entry ∈ second, other.m.input? ⟨number id, entry.1⟩ = some entry.2)
    (done : (first.mapM fun (port, input) => self.inputValue frame ⟨id, port⟩ input) = .ok values) :
    (second.mapM fun (port, input) => other.inputValue (frame.renumber number) ⟨number id, port⟩ input) =
      .ok (values.map (Value.renumber number)) := by
  have keyed : List.Forall₂ (fun twin entry => twin.1 = entry.1) second first := by
    refine List.forall₂_map_left_iff.mp (List.forall₂_map_right_iff.mp ?_)
    rw [keys]
    exact List.forall₂_refl _
  have held := (List.forall₂_and_left second first).mpr ⟨there, keyed⟩
  have each := (List.forall₂_and_left first second).mpr ⟨here, held.flip⟩
  refine Outcome.map_m_related (each.imp ?_) done
  rintro ⟨port, input⟩ ⟨_, twin⟩ ⟨found, foundToo, same⟩ value evaluated
  cases same
  exact input_value_mirrored mirrors found foundToo evaluated

theorem input_of_entry {m : Module} {id : NodeId} {node : Node} (found : m.nodes[id]? = some node) {entry : Nat × Input}
    (member : entry ∈ node.inputs.entries) : m.input? ⟨id, entry.1⟩ = some entry.2 := by
  rw [input_eq_of_node found]
  exact SortedMap.get?_of_mem_entries member

theorem mem_result_ports {m : Module} {id : NodeId} {node : Node} (found : m.nodes[id]? = some node) {port : Nat} :
    port ∈ (resultInputs node).map (·.1) ↔ (m.binding? ⟨id, port⟩).isSome := by
  rw [List.mem_map]
  constructor
  · rintro ⟨entry, member, rfl⟩
    obtain ⟨inside, bound⟩ := List.mem_filter.mp member
    rw [Module.binding?, input_of_entry found inside]
    exact bound
  · intro bound
    obtain ⟨binding, here⟩ := Option.isSome_iff_exists.mp bound
    obtain ⟨input, held, feeds⟩ := Option.bind_eq_some_iff.mp here
    rw [input_eq_of_node found] at held
    refine ⟨(port, input), List.mem_filter.mpr ⟨SortedMap.mem_entries_of_get? held, ?_⟩, rfl⟩
    rw [feeds]
    rfl

theorem ports_ascending (map : SortedMap Nat Input) : (map.entries.map (·.1)).Pairwise (· < ·) :=
  List.pairwise_map.mpr (map.ascending.imp fun less => Nat.compare_eq_lt.mp less)

theorem result_ports_mirrored (mirrors : Mirrors self.m other.m number) {id : NodeId} {node twin : Node}
    (found : self.m.nodes[id]? = some node) (foundToo : other.m.nodes[number id]? = some twin) :
    (resultInputs twin).map (·.1) = (resultInputs node).map (·.1) := by
  have ordered : ∀ node : Node, ((resultInputs node).map (·.1)).Pairwise (· < ·) := fun node =>
    (ports_ascending node.inputs).sublist (List.filter_sublist.map _)
  refine Places.eq_of_ascending (ordered twin) (ordered node) fun port => ?_
  rw [mem_result_ports found, mem_result_ports foundToo]
  exact mirrors.bound (show (⟨id, port⟩ : Inlet).node < _ from exists_node_iff.mp ⟨node, found⟩)

-- A node that is evaluated has all of its inputs fed, so none of them is lacking.
theorem inputs_mirrored (mirrors : Mirrors self.m other.m number) {id : NodeId} {node twin : Node}
    (found : self.m.nodes[id]? = some node) (foundToo : other.m.nodes[number id]? = some twin) {values : List Value}
    (done : self.inputValues frame id node = .ok values) :
    other.inputValues (frame.renumber number) (number id) twin = .ok (values.map (Value.renumber number)) := by
  have inside : id < self.m.nodes.size := exists_node_iff.mp ⟨node, found⟩
  have fed : ∀ {port}, (self.m.input? ⟨id, port⟩).isSome → (self.m.binding? ⟨id, port⟩).isSome := by
    intro port held
    obtain ⟨input, here⟩ := Option.isSome_iff_exists.mp held
    have look := here
    rw [input_eq_of_node found] at look
    obtain ⟨value, evaluated⟩ := Outcome.map_m_each done (SortedMap.mem_entries_of_get? look)
    exact bound_of_value here evaluated
  have keys : twin.inputs.entries.map (·.1) = node.inputs.entries.map (·.1) := by
    refine Places.eq_of_ascending (ports_ascending _) (ports_ascending _) fun port => ?_
    change port ∈ twin.inputs.keys ↔ port ∈ node.inputs.keys
    rw [SortedMap.mem_keys_iff, SortedMap.mem_keys_iff]
    have here : self.m.input? ⟨id, port⟩ = node.inputs.get? port := input_eq_of_node found
    have there : other.m.input? ⟨number id, port⟩ = twin.inputs.get? port := input_eq_of_node foundToo
    rw [← here, ← there]
    refine ⟨fun held => mirrors.input inside held, fun held => ?_⟩
    obtain ⟨binding, bound⟩ := Option.isSome_iff_exists.mp ((mirrors.bound inside).mpr (fed held))
    exact input_isSome_of_binding bound
  exact gather_mirrored mirrors keys (fun _ => input_of_entry found) (fun _ => input_of_entry foundToo) done

theorem results_mirrored (mirrors : Mirrors self.m other.m number) {id : NodeId} {graph twin : Node}
    (found : self.m.nodes[id]? = some graph) (foundToo : other.m.nodes[number id]? = some twin) {values : List Value}
    (done : self.results frame id graph = .ok values) :
    other.results (frame.renumber number) (number id) twin = .ok (values.map (Value.renumber number)) := by
  refine gather_mirrored mirrors (result_ports_mirrored mirrors found foundToo) (fun entry member => ?_)
    (fun entry member => ?_) done
  · exact input_of_entry found (List.mem_of_mem_filter member)
  · exact input_of_entry foundToo (List.mem_of_mem_filter member)

end Inputs

/-! ### Nodes -/

-- What an evaluation of a node gets to see of an interpreter.
structure Conforms (here there : Interpreter) (number : NodeId → NodeId) : Prop where
  apart : Function.Injective number
  limits : there.limits = here.limits
  standard : here.operations = .standard
  standardToo : there.operations = .standard
  ports : ∀ {id graph}, here.m.nodes[id]? = some graph → ∃ twin, there.m.nodes[number id]? = some twin ∧
    (resultInputs twin).map (·.1) = (resultInputs graph).map (·.1)

section Nodes
variable {self other : Interpreter} {number : NodeId → NodeId} {evaluate follow : Evaluator}

theorem Conforms.relating (conforms : Conforms self other number) : (mimicry number).Conforms self other := by
  refine ⟨conforms.limits, fun body => mimics_find fun graph found => ?_, fun id op args => ?_⟩
  · obtain ⟨twin, there, ports⟩ := conforms.ports (node_ok_iff.mp found)
    exact ⟨twin, node_ok_iff.mpr there, ports⟩
  · rw [conforms.standard, conforms.standardToo]
    exact mimics_standard conforms.apart id _ op args

theorem mimics_eval_node (conforms : Conforms self other number) (follows : Follows number evaluate follow)
    {id : NodeId} {node twin : Node} (found : self.m.nodes[id]? = some node)
    (foundToo : other.m.nodes[number id]? = some twin) (opcode : twin.opcode = node.opcode)
    (children : twin.children = node.children.map number) (fewer : twin.maxOutput ≤ node.maxOutput)
    (inputs : List Value) : Mimics (Alike number) (self.evalNode evaluate id inputs)
      (other.evalNode follow (number id) (inputs.map (Value.renumber number))) := by
  refine related_eval_node conforms.relating follows (node_ok_iff.mpr found) (node_ok_iff.mpr foundToo) opcode children
    inputs (fun outputs => mimics_record self other _ _) fun outputs => ?_
  refine mimics_checked fun _ done => ⟨(), ?_, trivial⟩
  unfold checkOutputs at done ⊢
  rw [List.length_map]
  split at done
  · rename_i enough
    rw [if_pos (Nat.le_trans fewer enough)]
  · cases done

end Nodes

/-! ### Graphs -/

section Graphs
variable {self other : Interpreter} {number : NodeId → NodeId}

def AlikeFrames (number : NodeId → NodeId) (frame twin : Frame) : Prop :=
  twin = frame.renumber number

-- A mirrored interpreter is of the same make, apart from its trace.
structure Reflects (here there : Interpreter) (number : NodeId → NodeId) : Prop where
  mirrors : here.m.Mirrors there.m number
  owned : here.m.Owned
  limits : there.limits = here.limits
  standard : here.operations = .standard
  standardToo : there.operations = .standard

theorem Reflects.conforms (reflects : Reflects self other number) : Conforms self other number := by
  refine ⟨reflects.mirrors.apart, reflects.limits, reflects.standard, reflects.standardToo, fun found => ?_⟩
  obtain ⟨twin, there, _⟩ := reflects.mirrors.node found
  exact ⟨twin, there, result_ports_mirrored reflects.mirrors found there⟩

theorem mimics_step (reflects : Reflects self other number) {evaluate follow : Evaluator}
    (follows : Follows number evaluate follow) {graph id : NodeId} (listed : id ∈ self.m.nodesOf graph) (frame : Frame) :
    Mimics (AlikeFrames number) (self.step evaluate frame id) (other.step follow (frame.renumber number) (number id)) := by
  obtain ⟨node, found, role⟩ := node_of_role (reflects.owned.listed listed)
  have plain : node.isGraph = false := by simp [Node.isGraph, role]
  obtain ⟨twin, there, same⟩ := reflects.mirrors.node found
  unfold step
  rw [bind_find_ok (node_ok_iff.mpr found), bind_find_ok (node_ok_iff.mpr there)]
  refine mimics_bind _ (mimics_checked fun inputs done => ⟨_, inputs_mirrored reflects.mirrors found there done, rfl⟩)
    fun inputs inputsToo close => ?_
  subst close
  have evaluated := mimics_eval_node reflects.conforms follows found there (same.opcode plain) same.children same.fewer
  refine mimics_bind _ (evaluated inputs) fun outputs outputsToo close => ?_
  subst close
  exact mimics_pure rfl

theorem mimics_steps (reflects : Reflects self other number) {evaluate follow : Evaluator}
    (follows : Follows number evaluate follow) {graph : NodeId} (nodes : List NodeId)
    (listed : ∀ id ∈ nodes, id ∈ self.m.nodesOf graph) (frame : Frame) :
    Mimics (AlikeFrames number) (nodes.foldlM (self.step evaluate) frame)
      ((nodes.map number).foldlM (other.step follow) (frame.renumber number)) := by
  refine @related_fold _ _ _ (mimicry number) _ _ _ nodes (fun id member {frame twin} alike => ?_) frame _ rfl
  subst alike
  exact mimics_step reflects follows (listed id member) frame

theorem check_arguments_mirrored {id twin : NodeId} {graph graphToo : Node} {args : List Value}
    (fewer : graphToo.maxOutput ≤ graph.maxOutput) (kind : graphToo.isFunction = graph.isFunction)
    (arguments : graph.isFunction = true → graphToo.maxOutput = graph.maxOutput)
    (done : checkArguments id graph args = .ok ()) :
    checkArguments twin graphToo (args.map (Value.renumber number)) = .ok () := by
  unfold checkArguments at done ⊢
  dsimp only at done ⊢
  rw [List.length_map]
  split at done
  · cases done
  · rename_i fitting
    rw [if_neg]
    rintro (short | ⟨isFunction, other⟩)
    · exact fitting (.inl (Nat.lt_of_lt_of_le short fewer))
    · rw [kind] at isFunction
      rw [arguments isFunction] at other
      exact fitting (.inr ⟨isFunction, other⟩)

theorem mimics_run_graph (reflects : Reflects self other number) {evaluate follow : Evaluator}
    (follows : Follows number evaluate follow) : Follows number (self.runGraph evaluate) (other.runGraph follow) := by
  intro id args
  unfold runGraph
  cases found : self.m.graph id with
  | error error => exact mimics_throw _ _
  | ok graph =>
      obtain ⟨here, isGraph⟩ := graph_ok_iff.mp found
      obtain ⟨twin, there, same⟩ := reflects.mirrors.node here
      have foundToo : other.m.graph (number id) = .ok twin := graph_ok_iff.mpr ⟨there, same.isGraph.trans isGraph⟩
      rw [bind_find_ok rfl, bind_find_ok foundToo]
      have checked := fun done => @check_arguments_mirrored number id (number id) graph twin args same.fewer
        same.isFunction same.arguments done
      refine mimics_bind (fun _ _ => True) (mimics_checked fun _ done => ⟨(), checked done, trivial⟩) fun _ _ _ => ?_
      have nodes : self.m.nodesOf id = graph.nodes := by simp [nodesOf, here]
      have steps := mimics_steps reflects follows graph.nodes (fun other member => by rw [nodes]; exact member)
        [(id, args)]
      rw [same.nodes]
      refine mimics_bind _ steps fun frame frameToo close => ?_
      subst close
      exact mimics_checked fun values done => ⟨_, results_mirrored reflects.mirrors here there done, rfl⟩

theorem follows_eval_graph (reflects : Reflects self other number) (depth : Nat) :
    Follows number (self.evalGraph depth) (other.evalGraph depth) := by
  induction depth with
  | zero => exact fun id args => mimics_throw _ _
  | succ depth ih => exact mimics_run_graph reflects ih

theorem mimics_function (reflects : Reflects self other number) (name : String) (args : List Value) :
    Mimics (Alike number) (self.run (.function name args))
      (other.run (.function name (args.map (Value.renumber number)))) := by
  unfold run respond evaluator
  dsimp only
  cases found : self.m.function? name with
  | none => exact mimics_throw _ _
  | some id =>
      rw [reflects.mirrors.function found, reflects.limits]
      exact follows_eval_graph reflects _ id args

end Graphs

end Interpreter

end Dataflow
