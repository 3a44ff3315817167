import Dataflow.Proofs.Interpreter.Activations
import Dataflow.Proofs.Interpreter.Traversal
import Dataflow.Proofs.Module.Bindings
import Dataflow.Proofs.Module.Refeeding
import Dataflow.Proofs.Module.Reordered
set_option autoImplicit false

-- Graphs whose nodes find all of their values. Values go by their place and wires by their port: a declared
-- port is at most the highest one, and as many values as that are there, or the evaluation has failed before.
namespace Dataflow

namespace Module

-- All inputs of the nodes are fed, and wires come from the graph itself or from a node with a smaller label.
structure Supplied (m : Module) (graph : NodeId) : Prop where
  isGraph : m.IsGraph graph
  fed : ∀ id ∈ m.nodesOf graph, ∀ node ∈ m.nodes[id]?, ∀ entry ∈ node.inputs.entries, entry.2.binding.isSome
  earlier : ∀ id ∈ m.nodesOf graph, ∀ node ∈ m.nodes[id]?, ∀ source ∈ node.sources, source.node = graph ∨
    ∃ first ∈ (m.label source.node).toOption, ∃ second ∈ (m.label id).toOption, first < second

end Module

namespace Interpreter
open Dataflow.Module

-- A value is missing at the graph or at one of its nodes.
def Lacks (m : Module) (graph : NodeId) : RunError → Prop
  | .missingValue inlet => inlet.node ∈ m.members graph
  | _ => False

/-! ### Runs that do not fail in this way -/

def Avoids {α : Type} (bad : RunError → Prop) (run : Run α) : Prop :=
  ∀ ⦃trace after error⦄, run trace = .error error after → ¬ bad error

section Avoids
variable {α β : Type} {bad : RunError → Prop}

theorem avoids_pure (value : α) : Avoids bad (pure value) := by
  intro trace after error failed
  cases failed

theorem avoids_throw {error : RunError} (mild : ¬ bad error) : Avoids bad (throw error : Run α) := by
  intro trace after error failed
  cases failed
  exact mild

theorem avoids_bind {first : Run α} {next : α → Run β} (before : Avoids bad first)
    (later : ∀ trace value left, first trace = .ok value left → Avoids bad (next value)) : Avoids bad (first >>= next) := by
  intro trace after error failed
  rw [bind_run] at failed
  cases step : first trace with
  | error other left =>
      rw [step] at failed
      cases failed
      exact before step
  | ok value left =>
      rw [step] at failed
      exact later trace value left step failed

theorem avoids_checked {outcome : Except RunError α} (mild : ∀ error, outcome = .error error → ¬ bad error) :
    Avoids bad (ofExcept outcome) := by
  cases outcome with
  | ok value => exact avoids_pure value
  | error error => exact avoids_throw (mild error rfl)

theorem avoids_find {outcome : Except Error α} (mild : ∀ error, ¬ bad (.refused error)) : Avoids bad (find outcome) := by
  cases outcome with
  | ok value => exact avoids_pure value
  | error error => exact avoids_throw (mild error)

theorem avoids_record (self : Interpreter) (entry : TraceEntry) : Avoids bad (self.record entry) := by
  intro trace after error failed
  obtain ⟨final, done⟩ := record_ok self entry trace
  rw [done] at failed
  cases failed

-- Only the first evaluation counts; the other one may be any.
def avoiding (bad : RunError → Prop) (mild : ∀ {error twin}, Blames id error twin → ¬ bad error) :
    Relating Trace Trace id where
  related values first _ := Avoids bad first ∧ ∀ trace value left, first trace = .ok value left → ∃ twin, values value twin
  pure alike := ⟨avoids_pure _, fun _ _ _ done => (by cases done; exact ⟨_, alike⟩)⟩
  throw blames := ⟨avoids_throw (mild blames), fun _ _ _ done => (by cases done)⟩
  bind before later := by
    refine ⟨avoids_bind before.1 fun _ _ _ done => ?_, fun trace _ _ done => ?_⟩
    · obtain ⟨_, alike⟩ := before.2 _ _ _ done
      exact (later alike).1
    · obtain ⟨_, _, first, next⟩ := bind_run_inv done
      obtain ⟨_, alike⟩ := before.2 _ _ _ first
      exact (later alike).2 _ _ _ next

end Avoids

/-! ### Nodes -/

section Nodes
variable {self : Interpreter} {evaluate : Evaluator} {m : Module} {graph : NodeId}

-- Operations that do not claim that a value is missing.
def Honest (operations : Operations) : Prop :=
  ∀ id op args inlet, operations id op args ≠ .error (.missingValue inlet)

theorem lacks_inv {error : RunError} (lacks : Lacks m graph error) :
    ∃ inlet, error = .missingValue inlet ∧ inlet.node ∈ m.members graph := by
  cases error with
  | missingValue inlet => exact ⟨inlet, rfl, lacks⟩
  | _ => exact lacks.elim

theorem not_lacks_of_blames {error twin : RunError} (blames : Blames id error twin) : ¬ Lacks m graph error := by
  cases blames <;> exact False.elim

def lackless (m : Module) (graph : NodeId) : Relating Trace Trace id :=
  avoiding (Lacks m graph) not_lacks_of_blames

theorem lackless_conforms (honest : Honest self.operations) : (lackless m graph).Conforms self self := by
  refine ⟨rfl, fun body => ⟨avoids_find fun _ => False.elim, fun _ value _ _ => ⟨value, rfl⟩⟩, fun node op args => ?_⟩
  refine ⟨avoids_checked fun error failed lacks => ?_, fun _ _ _ _ => ⟨_, rfl⟩⟩
  obtain ⟨inlet, rfl, _⟩ := lacks_inv lacks
  exact honest node op args inlet failed

theorem lackless_within (within : ∀ id args, Avoids (Lacks m graph) (evaluate id args)) :
    (lackless m graph).Within evaluate evaluate :=
  fun id args => ⟨within id args, fun _ _ _ _ => ⟨_, rfl⟩⟩

theorem check_outputs_fails {id : NodeId} {node : Node} {outputs : List Value} {error : RunError}
    (failed : checkOutputs id node outputs = .error error) : ¬ Lacks m graph error := by
  unfold checkOutputs at failed
  split at failed <;> cases failed
  exact False.elim

theorem avoids_eval_node (honest : Honest self.operations)
    (within : ∀ id args, Avoids (Lacks m graph) (evaluate id args)) (id : NodeId) (inputs : List Value) :
    Avoids (Lacks m graph) (self.evalNode evaluate id inputs) := by
  cases found : self.m.node id with
  | error error =>
      unfold evalNode
      rw [found]
      exact @avoids_throw _ _ (.refused error) False.elim
  | ok node =>
      refine (related_eval_node (lackless_conforms honest) (lackless_within within) found found rfl
        (List.map_id node.children).symm inputs (fun outputs => ?_) fun outputs => ?_).1
      · exact ⟨avoids_record self _, fun _ _ _ _ => ⟨(), trivial⟩⟩
      · exact ⟨avoids_checked fun _ => check_outputs_fails, fun _ _ _ _ => ⟨(), trivial⟩⟩

end Nodes

/-! ### Inputs -/

-- A node, or a graph by its arguments, that has a value for each of its ports.
def Stocked (m : Module) (frame : Frame) (id : NodeId) : Prop :=
  ∃ node values, m.nodes[id]? = some node ∧ frame.lookup id = some values ∧ node.maxOutput ≤ values.length

section Inputs
variable {self : Interpreter} {m : Module} {graph : NodeId} {frame : Frame}

theorem stocked_value (positive : m.Positive) {source : Outlet} (stocked : Stocked m frame source.node)
    (declared : (m.output? source).isSome) : ∃ value, frame.value? source = some value := by
  obtain ⟨node, values, found, held, enough⟩ := stocked
  have low := positive source.node source.port (.inr declared)
  rw [output_eq_of_node found] at declared
  have inside : source.port ≤ node.maxOutput := SortedMap.le_last_key declared
  unfold Frame.value?
  rw [held]
  refine ⟨values[source.port - 1], ?_⟩
  change (if source.port = 0 then none else values[source.port - 1]?) = _
  rw [if_neg (by omega), List.getElem?_eq_getElem (by omega)]

theorem literal_never_missing {inlet other : Inlet} {literal : Literal} :
    literalValue m inlet literal ≠ .error (.missingValue other) := by
  intro failed
  unfold literalValue at failed
  dsimp only at failed
  repeat' split at failed
  all_goals cases failed

-- An evaluation blames the port that it reads.
theorem input_value_blames {inlet : Inlet} {input : Input} {error : RunError}
    (failed : self.inputValue frame inlet input = .error error) (lacks : Lacks m graph error) :
    inlet.node ∈ m.members graph ∧
      (input.binding = none ∨ ∃ source ∈ input.source?, frame.value? source = none) := by
  obtain ⟨missing, rfl, within⟩ := lacks_inv lacks
  unfold inputValue at failed
  split at failed
  · exact absurd failed literal_never_missing
  · rename_i source _ bound
    split at failed
    · cases failed
    · rename_i unknown
      cases failed
      exact ⟨within, .inr ⟨source, by simp [Input.source?, bound], unknown⟩⟩
  · rename_i unbound
    cases failed
    exact ⟨within, .inl unbound⟩

theorem wire_of_entry {id : NodeId} {node : Node} (found : m.nodes[id]? = some node) {entry : Nat × Input}
    (member : entry ∈ node.inputs.entries) {source : Outlet} (isSource : source ∈ entry.2.source?) :
    ∃ stamp, m.binding? ⟨id, entry.1⟩ = some (.wire source stamp) := by
  refine source_eq_some_iff.mp ?_
  rw [Module.source?, input_eq_of_node found, SortedMap.get?_of_mem_entries member]
  exact isSource

theorem reads_supplied (wired : self.m.Wired) (positive : self.m.Positive) {id : NodeId} {node : Node}
    (found : self.m.nodes[id]? = some node)
    {entry : Nat × Input} (member : entry ∈ node.inputs.entries) (fed : entry.2.binding.isSome)
    (stocked : ∀ source ∈ entry.2.source?, Stocked self.m frame source.node) {error : RunError}
    (failed : self.inputValue frame ⟨id, entry.1⟩ entry.2 = .error error) : ¬ Lacks self.m graph error := by
  intro lacks
  obtain ⟨_, unbound | ⟨source, isSource, unknown⟩⟩ := input_value_blames failed lacks
  · rw [unbound] at fed
    cases fed
  · obtain ⟨stamp, bound⟩ := wire_of_entry found member isSource
    obtain ⟨value, known⟩ := stocked_value positive (stocked source isSource) (wired.wires bound).1
    rw [known] at unknown
    cases unknown

-- What a node reads has had its turn, or is an argument of the graph.
theorem source_before (owned : m.Owned) (wired : m.Wired) (supplied : m.Supplied graph) {id : NodeId}
    {before after : List NodeId} (listed : m.nodesOf graph = before ++ id :: after) {node : Node}
    (found : m.nodes[id]? = some node) {entry : Nat × Input} (member : entry ∈ node.inputs.entries) {source : Outlet}
    (isSource : source ∈ entry.2.source?) : source.node ∈ graph :: before := by
  have inside : id ∈ m.nodesOf graph := by
    rw [listed]
    exact List.mem_append_right _ List.mem_cons_self
  have read : source ∈ node.sources := List.mem_filterMap.mpr ⟨entry, member, isSource⟩
  rcases supplied.earlier id inside node found source read with own | ⟨first, here, second, there, less⟩
  · exact List.mem_cons.mpr (.inl own)
  · obtain ⟨stamp, bound⟩ := wire_of_entry found member isSource
    have within : source.node ∈ m.members graph :=
      source_member owned wired supplied.isGraph (List.mem_cons_of_mem _ inside) bound
    rcases label_member owned supplied.isGraph within (Outcome.mem_to_option.mp here) with ⟨own, _⟩ | ⟨_, place⟩
    · exact List.mem_cons.mpr (.inl own)
    · have placeToo := Outcome.mem_to_option.mp there
      rw [label_node owned (owned.listed inside)] at placeToo
      cases placeToo
      have once := owned.once graph
      rw [place, listed] at less
      rw [listed] at once
      exact List.mem_cons_of_mem _ (Places.mem_of_idx_lt once (Nat.lt_of_succ_lt_succ less))

end Inputs

/-! ### Graphs -/

section Graphs
variable {self : Interpreter} {evaluate : Evaluator} {graph : NodeId} {frame : Frame}

theorem avoids_step (honest : Honest self.operations)
    (within : ∀ id args, Avoids (Lacks self.m graph) (evaluate id args)) {id : NodeId}
    (reads : ∀ node, self.m.nodes[id]? = some node → ∀ entry ∈ node.inputs.entries, ∀ error,
      self.inputValue frame ⟨id, entry.1⟩ entry.2 = .error error → ¬ Lacks self.m graph error) :
    Avoids (Lacks self.m graph) (self.step evaluate frame id) := by
  refine avoids_bind (avoids_find fun _ => False.elim) fun _ node _ looked => ?_
  refine avoids_bind (avoids_checked fun error failed => ?_) fun _ inputs _ _ => ?_
  · obtain ⟨entry, member, here⟩ := Outcome.map_m_error failed
    exact reads node (node_ok_iff.mp (find_inv looked).1) entry member error here
  · exact avoids_bind (avoids_eval_node honest within id inputs) fun _ _ _ _ => avoids_pure _

theorem eval_node_enough {id : NodeId} {inputs outputs : List Value} {trace left : Trace}
    (done : self.evalNode evaluate id inputs trace = .ok outputs left) :
    ∃ node, self.m.nodes[id]? = some node ∧ node.maxOutput ≤ outputs.length := by
  obtain ⟨node, _, looked, done⟩ := bind_run_inv done
  obtain ⟨others, _, _, done⟩ := bind_run_inv done
  obtain ⟨_, _, _, done⟩ := bind_run_inv done
  obtain ⟨_, _, checked, done⟩ := bind_run_inv done
  cases done
  refine ⟨node, node_ok_iff.mp (find_inv looked).1, ?_⟩
  have enough := (checked_inv checked).1
  unfold checkOutputs at enough
  split at enough
  · assumption
  · cases enough

theorem stocked_next {id : NodeId} {next : Frame} {trace left : Trace} {ids : List NodeId}
    (stocked : ∀ other ∈ ids, Stocked self.m frame other)
    (done : self.step evaluate frame id trace = .ok next left) : ∀ other ∈ ids ++ [id], Stocked self.m next other := by
  obtain ⟨_, _, outputs, _, _, evaluated, rfl⟩ := step_inv done
  obtain ⟨node, found, enough⟩ := eval_node_enough evaluated
  intro other member
  by_cases same : other = id
  · rw [same]
    exact ⟨node, outputs, found, List.lookup_cons_self, enough⟩
  · obtain ⟨node, values, found, held, enough⟩ := stocked other (by simpa [same] using member)
    exact ⟨node, values, found, by rw [lookup_other same]; exact held, enough⟩

-- The induction is on the nodes whose turn is still to come.
theorem avoids_turns (honest : Honest self.operations)
    (within : ∀ id args, Avoids (Lacks self.m graph) (evaluate id args)) (owned : self.m.Owned)
    (wired : self.m.Wired) (positive : self.m.Positive) (supplied : self.m.Supplied graph) {before after : List NodeId}
    (listed : self.m.nodesOf graph = before ++ after) (stocked : ∀ id ∈ graph :: before, Stocked self.m frame id) :
    Avoids (Lacks self.m graph) (after.foldlM (self.step evaluate) frame) ∧
      ∀ trace final left, after.foldlM (self.step evaluate) frame trace = .ok final left →
        ∀ id ∈ self.m.members graph, Stocked self.m final id := by
  induction after generalizing before frame with
  | nil =>
      refine ⟨avoids_pure frame, fun trace final left done => ?_⟩
      cases done
      rw [members, listed, List.append_nil]
      exact stocked
  | cons id rest ih =>
      have turn : Avoids (Lacks self.m graph) (self.step evaluate frame id) := by
        refine avoids_step honest within fun node found entry member error failed => ?_
        refine reads_supplied wired positive found member ?_ (fun source isSource => stocked _ ?_) failed
        · exact supplied.fed id (by rw [listed]; exact List.mem_append_right _ List.mem_cons_self) node found entry member
        · exact source_before owned wired supplied listed found member isSource
      have split : before ++ id :: rest = (before ++ [id]) ++ rest := by simp
      rw [split] at listed
      have later : ∀ {trace next left}, self.step evaluate frame id trace = .ok next left → _ := fun done =>
        ih listed (stocked_next stocked done)
      refine ⟨?_, fun trace final left done => ?_⟩
      · rw [List.foldlM_cons]
        exact avoids_bind turn fun _ next _ done => (later done).1
      · rw [List.foldlM_cons] at done
        obtain ⟨next, middle, step, done⟩ := bind_run_inv done
        exact (later step).2 middle final left done

theorem members_apart {m : Module} {first second id : NodeId} (owned : m.Owned) (isGraph : m.IsGraph first)
    (isGraphToo : m.IsGraph second) (member : id ∈ m.members first) (memberToo : id ∈ m.members second) :
    first = second := by
  have scope := scope_of_member owned isGraph member
  rw [scope_of_member owned isGraphToo memberToo] at scope
  exact (Except.ok.inj scope).symm

-- The nodes of other graphs read their own ports only.
theorem avoids_others (honest : Honest self.operations)
    (within : ∀ id args, Avoids (Lacks self.m graph) (evaluate id args)) {nodes : List NodeId}
    (apart : ∀ id ∈ nodes, id ∉ self.m.members graph) (frame : Frame) :
    Avoids (Lacks self.m graph) (nodes.foldlM (self.step evaluate) frame) := by
  induction nodes generalizing frame with
  | nil => exact avoids_pure frame
  | cons id rest ih =>
      rw [List.foldlM_cons]
      refine avoids_bind (avoids_step honest within fun node _ entry _ error failed lacks => ?_) fun _ next _ _ => ?_
      · exact apart id List.mem_cons_self (input_value_blames failed lacks).1
      · exact ih (fun other member => apart other (List.mem_cons_of_mem _ member)) next

theorem check_arguments_fails {id : NodeId} {node : Node} {args : List Value} {error : RunError}
    (failed : checkArguments id node args = .error error) : ¬ Lacks self.m graph error := by
  unfold checkArguments at failed
  dsimp only at failed
  split at failed <;> cases failed
  exact False.elim

theorem check_arguments_enough {id : NodeId} {node : Node} {args : List Value}
    (done : checkArguments id node args = .ok ()) : node.maxOutput ≤ args.length := by
  unfold checkArguments at done
  dsimp only at done
  split at done
  · cases done
  · rename_i fitting
    exact Nat.le_of_not_lt fun short => fitting (.inl short)

theorem avoids_run_graph (honest : Honest self.operations)
    (within : ∀ id args, Avoids (Lacks self.m graph) (evaluate id args)) (owned : self.m.Owned)
    (wired : self.m.Wired) (positive : self.m.Positive) (supplied : self.m.Supplied graph) (id : NodeId)
    (args : List Value) :
    Avoids (Lacks self.m graph) (self.runGraph evaluate id args) := by
  refine avoids_bind (avoids_find fun _ => False.elim) fun _ node _ looked => ?_
  have found := (find_inv looked).1
  have here := (graph_ok_iff.mp found).1
  have nodes : self.m.nodesOf id = node.nodes := by simp [nodesOf, here]
  refine avoids_bind (avoids_checked fun _ => check_arguments_fails) fun _ _ _ checked => ?_
  have enough := check_arguments_enough (checked_inv checked).1
  by_cases own : id = graph
  · subst own
    have start : ∀ other ∈ [id], Stocked self.m [(id, args)] other := by
      intro other member
      rw [List.mem_singleton.mp member]
      exact ⟨node, args, here, List.lookup_cons_self, enough⟩
    have listed : self.m.nodesOf id = [] ++ node.nodes := nodes
    obtain ⟨turns, stocked⟩ := avoids_turns honest within owned wired positive supplied listed start
    refine avoids_bind turns fun trace frame left walked => avoids_checked fun error failed => ?_
    obtain ⟨entry, member, failed⟩ := Outcome.map_m_error failed
    obtain ⟨inside, fed⟩ := List.mem_filter.mp member
    refine reads_supplied wired positive here inside fed (fun source isSource => ?_) failed
    obtain ⟨stamp, bound⟩ := wire_of_entry here inside isSource
    exact stocked trace frame left walked source.node
      (source_member owned wired supplied.isGraph List.mem_cons_self bound)
  · have apart : ∀ other ∈ self.m.members id, other ∉ self.m.members graph := fun other member memberToo =>
      own (members_apart owned (is_graph_of_graph found) supplied.isGraph member memberToo)
    refine avoids_bind (avoids_others honest within (fun other member => ?_) _) fun _ frame _ _ => ?_
    · exact apart other (List.mem_cons_of_mem _ (by rw [nodes]; exact member))
    · refine avoids_checked fun error failed lacks => ?_
      obtain ⟨entry, _, failed⟩ := Outcome.map_m_error failed
      exact apart id List.mem_cons_self (input_value_blames failed lacks).1

theorem avoids_eval_graph (honest : Honest self.operations) (owned : self.m.Owned) (wired : self.m.Wired)
    (positive : self.m.Positive) (supplied : self.m.Supplied graph) (depth : Nat) (id : NodeId) (args : List Value) :
    Avoids (Lacks self.m graph) (self.evalGraph depth id args) := by
  induction depth generalizing id args with
  | zero => exact avoids_throw False.elim
  | succ depth ih => exact avoids_run_graph honest ih owned wired positive supplied id args

theorem isolated_inputs_fail {id : NodeId} {inputs : List (Nat × Input)} {args : List Value} {error : RunError}
    (failed : self.isolatedInputs id inputs args = .error error) : ¬ Lacks self.m graph error := by
  induction inputs generalizing args with
  | nil => cases failed
  | cons entry rest ih =>
      obtain ⟨port, input⟩ := entry
      unfold isolatedInputs at failed
      split at failed
      · rcases Outcome.bind_error failed with failed | ⟨value, _, failed⟩
        · intro lacks
          obtain ⟨inlet, rfl, _⟩ := lacks_inv lacks
          exact literal_never_missing failed
        · exact ih (Outcome.bind_pure_error_iff.mp failed)
      · cases failed
        exact False.elim
      · exact ih (Outcome.bind_pure_error_iff.mp failed)

theorem avoids_run (honest : Honest self.operations) (owned : self.m.Owned) (wired : self.m.Wired)
    (positive : self.m.Positive) (supplied : self.m.Supplied graph) (call : Call) :
    Avoids (Lacks self.m graph) (self.run call) := by
  have within := avoids_eval_graph honest owned wired positive supplied self.limits.depth
  cases call with
  | graph id args => exact within id args
  | function name args =>
      unfold run respond
      dsimp only
      cases self.m.function? name with
      | none => exact avoids_throw False.elim
      | some id => exact within id args
  | node id args =>
      refine avoids_bind (avoids_find fun _ => False.elim) fun _ node _ _ => ?_
      dsimp only
      split
      · exact within id args
      · refine avoids_bind (avoids_checked fun _ => isolated_inputs_fail) fun _ shared _ _ => ?_
        split
        · exact avoids_bind (avoids_throw False.elim) fun _ _ _ _ => avoids_eval_node honest within id _
        · exact avoids_eval_node honest within id _

theorem short_arguments {node : Node} {args : List Value} (trace : Trace) (found : self.m.graph graph = .ok node)
    (short : args.length < node.maxOutput) : self.runGraph evaluate graph args trace =
      .error (.operation graph (.arity node.maxOutput args.length)) trace := by
  unfold runGraph
  rw [bind_find_ok found]
  refine bind_checked_error trace ?_
  unfold checkArguments
  exact if_pos (.inl short)

theorem short_outputs {id : NodeId} {node : Node} {inputs outputs : List Value} {trace after : Trace}
    (found : self.m.nodes[id]? = some node) (done : self.outputs evaluate id node inputs trace = .ok outputs after)
    (short : outputs.length < node.maxOutput) : ∃ final, self.evalNode evaluate id inputs trace =
      .error (.operation id (.arity node.maxOutput outputs.length)) final := by
  obtain ⟨final, ending⟩ := eval_node_of_outputs (node_ok_iff.mpr found) done
  rw [if_neg (Nat.not_le_of_lt short)] at ending
  exact ⟨final, ending⟩

end Graphs

-- Where values are too few, that is what an evaluation fails with, before a port is read. No value stands at a
-- port 0, so there must be none.
theorem front_to_back_never_lacks {origin : Origin} {start : Module} (started : origin.start = .ok start)
    {requests : List Request} (room : Roomy start requests) {graph : NodeId}
    (supplied : (Module.run start requests).Supplied graph) (self : Interpreter)
    (after : self.m = Module.run start requests) (honest : Honest self.operations) :
    (∀ depth id args trace inlet left, self.evalGraph depth id args trace = .error (.missingValue inlet) left →
      inlet.node ∉ self.m.members graph) ∧
    (∀ call trace inlet left, self.run call trace = .error (.missingValue inlet) left →
      inlet.node ∉ self.m.members graph) ∧
    (∀ depth args trace, ∀ node ∈ self.m.nodes[graph]?, args.length < node.maxOutput →
      self.evalGraph (depth + 1) graph args trace =
        .error (.operation graph (.arity node.maxOutput args.length)) trace) ∧
    ∀ depth inputs trace outputs left, ∀ id ∈ self.m.nodesOf graph, ∀ node ∈ self.m.nodes[id]?,
      self.outputs (self.evalGraph depth) id node inputs trace = .ok outputs left → outputs.length < node.maxOutput →
        ∃ final, self.evalNode (self.evalGraph depth) id inputs trace =
          .error (.operation id (.arity node.maxOutput outputs.length)) final := by
  obtain ⟨_, sound, _⟩ := sound_origin started
  obtain ⟨_, soundNow, _⟩ := sound_run requests sound
  have positive := positive_of_run started room
  rw [← after] at soundNow supplied positive
  obtain ⟨owned, wired, _⟩ := soundNow
  refine ⟨?_, ?_, ?_, ?_⟩
  · intro depth id args trace inlet left failed
    exact avoids_eval_graph honest owned wired positive supplied depth id args failed
  · intro call trace inlet left failed
    exact avoids_run honest owned wired positive supplied call failed
  · intro depth args trace node found short
    obtain ⟨_, there, isGraph⟩ := graph_of_is_graph supplied.isGraph
    cases there.symm.trans found
    exact short_arguments trace isGraph short
  · intro depth inputs trace outputs left id _ node found done short
    exact short_outputs found done short

-- The child graph gives out a value at port 0, so it takes no arguments.
theorem port_zero_is_missing :
    let self : Interpreter := { m := Module.run Module.empty crowded, operations := fun _ _ _ => .ok [] }
    self.m.Supplied 2 ∧ Honest self.operations ∧
      self.run (.graph 2 []) #[] = .error (.missingValue ⟨3, 1⟩) #[] ∧ 3 ∈ self.m.members 2 := by
  intro self
  have isGraph : self.m.role? 2 = some (.subgraph 1) := by decide +kernel
  exact ⟨⟨⟨_, isGraph, fun _ => Role.noConfusion⟩, by decide +kernel, by decide +kernel⟩,
    fun _ _ _ _ failed => (by cases failed), by rfl, by decide +kernel⟩

-- Operations without results, in a function that adds its two arguments.
theorem sum_without_a_result :
    let requests : List Request := [.addFunction "f", .addNode 0 .plus, .addNode 0 .noOp, .wire ⟨1, 1⟩ ⟨0, 1⟩,
      .wire ⟨1, 2⟩ ⟨0, 2⟩, .wire ⟨2, 1⟩ ⟨1, 1⟩, .wire ⟨0, 1⟩ ⟨2, 1⟩]
    let self : Interpreter := { m := Module.run Module.initial requests, operations := fun _ _ _ => .ok [] }
    self.m.Supplied 0 ∧ Honest self.operations ∧
      (∀ args trace inlet left, self.run (.function "f" args) trace = .error (.missingValue inlet) left →
        inlet.node ∉ [0, 1, 2]) ∧
      self.evalGraph 1 0 [.int 3] #[] = .error (.operation 0 (.arity 2 1)) #[] ∧
      ∃ final, self.evalNode (self.evalGraph 1) 1 [.int 3, .int 4] #[] = .error (.operation 1 (.arity 1 0)) final := by
  intro requests self
  have isGraph : self.m.role? 0 = some (.function "f") := by decide +kernel
  have nodes : self.m.nodesOf 0 = [1, 2] := by decide +kernel
  have supplied : self.m.Supplied 0 :=
    ⟨⟨_, isGraph, fun _ => Role.noConfusion⟩, by decide +kernel, by decide +kernel⟩
  have honest : Honest self.operations := fun _ _ _ _ failed => by cases failed
  have started : Origin.initial.start = .ok Module.initial := rfl
  have room : Roomy Module.initial requests := by decide +kernel
  obtain ⟨_, calls, arguments, results⟩ := front_to_back_never_lacks started room supplied self rfl honest
  refine ⟨supplied, honest, ?_, ?_, ?_⟩
  · have members : self.m.members 0 = [0, 1, 2] := by rw [members, nodes]
    intro args trace inlet left failed
    rw [← members]
    exact calls _ trace inlet left failed
  · obtain ⟨function, found, ports⟩ : ∃ node ∈ self.m.nodes[0]?, node.maxOutput = 2 := by decide +kernel
    have refused := arguments 0 [.int 3] #[] function found (by rw [ports]; decide)
    rw [ports] at refused
    exact refused
  · obtain ⟨sum, found, op, ports⟩ : ∃ node ∈ self.m.nodes[1]?, node.opcode = .plus ∧ node.maxOutput = 1 := by
      decide +kernel
    have computed : self.outputs (self.evalGraph 1) 1 sum [.int 3, .int 4] #[] = .ok [] #[] := by
      unfold outputs
      rw [op]
      rfl
    obtain ⟨final, refused⟩ := results 1 [.int 3, .int 4] #[] [] #[] 1 (by rw [nodes]; decide) sum found computed
      (by rw [ports]; decide)
    rw [ports] at refused
    exact ⟨final, refused⟩

end Interpreter

end Dataflow
