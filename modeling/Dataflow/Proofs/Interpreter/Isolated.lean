import Dataflow.Proofs.Interpreter.Logged
import Dataflow.Proofs.Module.Bindings
set_option autoImplicit false

-- A node on its own. It takes what arrives at its ports, apart from its literals, and answers what it answers in
-- the graph around it: the row of its ports is walked once by either way of gathering inputs.
namespace Dataflow.Interpreter
open Dataflow.Module

-- The values at the ports without a literal, in the order of the ports.
def arrivals (inputs : List (Nat × Input)) (values : List Value) : List Value :=
  ((inputs.zip values).filter fun pair => pair.1.2.literal?.isNone).map Prod.snd

def Firing.arrived (firing : Firing) : List Value :=
  arrivals firing.node.inputs.entries firing.inputs

/-! ### Inputs -/

section Inputs
variable {self : Interpreter} {frame : Frame} {id : NodeId}

theorem arrivals_literal {entry : Nat × Input} {rest : List (Nat × Input)} {value : Value} {values : List Value}
    {literal : Literal} (bound : entry.2.literal? = some literal) :
    arrivals (entry :: rest) (value :: values) = arrivals rest values := by
  unfold arrivals
  rw [List.zip_cons_cons, List.filter_cons_of_neg (by simp [bound])]

theorem arrivals_free {entry : Nat × Input} {rest : List (Nat × Input)} {value : Value} {values : List Value}
    (free : entry.2.literal? = none) : arrivals (entry :: rest) (value :: values) = value :: arrivals rest values := by
  unfold arrivals
  rw [List.zip_cons_cons, List.filter_cons_of_pos (by rw [free]; rfl)]
  rfl

theorem input_value_literal {inlet : Inlet} {input : Input} {literal : Literal}
    (bound : input.literal? = some literal) : self.inputValue frame inlet input = literalValue self.m inlet literal := by
  unfold Input.literal? at bound
  unfold inputValue
  split at bound
  · rename_i other same
    cases bound
    rw [same]
  · cases bound

-- The induction is on the ports: a literal reads the same either way, any other port takes the next value.
theorem isolated_of_gathered {entries : List (Nat × Input)} {values : List Value}
    (gathered : (entries.mapM fun (port, input) => self.inputValue frame ⟨id, port⟩ input) = .ok values) :
    self.isolatedInputs id entries (arrivals entries values) = .ok (values, []) := by
  induction entries generalizing values with
  | nil =>
      cases gathered
      rfl
  | cons entry rest ih =>
      obtain ⟨port, input⟩ := entry
      rw [List.mapM_cons] at gathered
      obtain ⟨value, here, gathered⟩ := Outcome.bind_ok gathered
      obtain ⟨later, there, gathered⟩ := Outcome.bind_ok gathered
      cases gathered
      cases bound : input.literal? with
      | some literal =>
          dsimp only at here
          rw [input_value_literal bound] at here
          rw [arrivals_literal bound]
          simp only [isolatedInputs, bound]
          rw [Outcome.bind_of_ok here, Outcome.bind_of_ok (ih there)]
          rfl
      | none =>
          rw [arrivals_free bound]
          simp only [isolatedInputs, bound]
          rw [Outcome.bind_of_ok (ih there)]
          rfl

end Inputs

/-! ### A graph that answers -/

section Graph
variable {self : Interpreter} {evaluate : Evaluator}

theorem step_done {activation : Activation} {next : Frame} {left : Trace}
    (done : self.step evaluate activation.frame activation.id activation.trace = .ok next left) :
    ∃ firing outputs after, activation.firing? self = some firing ∧
      firing.ending self evaluate = .ok outputs after ∧ checkOutputs firing.id firing.node outputs = .ok () := by
  cases ready : activation.firing? self with
  | none =>
      obtain ⟨error, stuck⟩ := step_stuck ready
      have here : self.step evaluate activation.frame activation.id activation.trace = .error error activation.trace :=
        stuck self.limits evaluate
      rw [here] at done
      cases done
  | some firing =>
      rw [step_ready ready] at done
      cases ending : firing.ending self evaluate with
      | error error after =>
          rw [ending] at done
          cases done
      | ok outputs after =>
          rw [ending] at done
          obtain ⟨_, _, _, done⟩ := bind_run_inv done
          obtain ⟨_, _, covered, _⟩ := bind_run_inv done
          exact ⟨firing, outputs, after, rfl, ending, (checked_inv covered).1⟩

-- Every node has its turn, and each turn is an evaluation that succeeds.
theorem steps_done {nodes : List NodeId} {frame final : Frame} {trace left : Trace}
    (done : nodes.foldlM (self.step evaluate) frame trace = .ok final left) :
    let firings := (self.activations evaluate nodes frame trace).filterMap (Activation.firing? self)
    firings.map Firing.id = nodes ∧ ∀ firing ∈ firings, ∃ outputs after,
      firing.ending self evaluate = .ok outputs after ∧ checkOutputs firing.id firing.node outputs = .ok () := by
  induction nodes generalizing frame trace with
  | nil => exact ⟨rfl, fun _ member => by cases member⟩
  | cons id rest ih =>
      rw [fold_next] at done
      cases step : self.step evaluate frame id trace with
      | error error after =>
          rw [step] at done
          cases done
      | ok next after =>
          rw [step] at done
          obtain ⟨firing, outputs, ended, ready, ending⟩ := @step_done self evaluate ⟨id, frame, trace⟩ _ _ step
          obtain ⟨same, each⟩ := ih done
          rw [Interpreter.activations, step, List.filterMap_cons, ready]
          obtain ⟨node, inputs, _, _, rfl⟩ := firing_ready ready
          exact ⟨congrArg (List.cons id) same, List.forall_mem_cons.mpr ⟨⟨outputs, ended, ending⟩, each⟩⟩

theorem visit_done {visit : Visit} {depth : Nat} {results : List Value} {left : Trace}
    (done : visit.ending (self.evalGraph (depth + 1)) = .ok results left) :
    (visit.firings self (self.evalGraph depth)).map Firing.id = self.m.nodesOf visit.graph ∧
      ∀ firing ∈ visit.firings self (self.evalGraph depth), ∃ outputs after,
        firing.ending self (self.evalGraph depth) = .ok outputs after ∧
          checkOutputs firing.id firing.node outputs = .ok () := by
  rcases run_graph_cases self visit with ⟨error, refused⟩ | ⟨graph, found, _, run⟩
  · have here : visit.ending (self.evalGraph (depth + 1)) = .error error visit.trace :=
      (refused self.limits (self.evalGraph depth)).1
    rw [here] at done
    cases done
  · have here : visit.ending (self.evalGraph (depth + 1)) =
        (graph.nodes.foldlM (self.step (self.evalGraph depth)) [(visit.graph, visit.args)] >>= fun frame =>
          ofExcept (self.results frame visit.graph graph)) visit.trace := (run self.limits (self.evalGraph depth)).1
    rw [here] at done
    obtain ⟨final, after, walked, _⟩ := bind_run_inv done
    have nodes : self.m.nodesOf visit.graph = graph.nodes := by
      simp [Module.nodesOf, (Module.graph_ok_iff.mp found).1]
    unfold Visit.firings
    rw [show visit.activations self (self.evalGraph depth) = _ from (run self.limits (self.evalGraph depth)).2, nodes]
    exact steps_done walked

theorem gathered_of_firing {visit : Visit} {firing : Firing} (member : firing ∈ visit.firings self evaluate) :
    self.m.node firing.id = .ok firing.node ∧
      ∃ frame, self.inputValues frame firing.id firing.node = .ok firing.inputs := by
  obtain ⟨activation, _, ready⟩ := List.mem_filterMap.mp member
  obtain ⟨node, inputs, found, gathered, rfl⟩ := firing_ready ready
  exact ⟨found, activation.frame, gathered⟩

end Graph

/-! ### A node on its own -/

section Alone
variable {self : Interpreter}

theorem entry_arrived {firing : Firing} {frame : Frame} (known : self.m.node firing.id = .ok firing.node)
    (plain : firing.node.isGraph = false)
    (gathered : self.inputValues frame firing.id firing.node = .ok firing.inputs) :
    self.entry (.node firing.id firing.arrived) = .ok (.firing firing.id firing.node firing.inputs) := by
  have alone := isolated_of_gathered gathered
  unfold entry
  simp only [known, plain, Firing.arrived, alone]
  rfl

-- On its own a node may open more evaluations of graphs than it may inside of one, so it does no worse.
theorem answer_arrived {firing : Firing} {frame : Frame} {depth : Nat} {outputs : List Value} {after : Trace}
    (known : self.m.node firing.id = .ok firing.node) (plain : firing.node.isGraph = false)
    (gathered : self.inputValues frame firing.id firing.node = .ok firing.inputs) (low : depth ≤ self.limits.depth)
    (done : firing.ending self (self.evalGraph depth) = .ok outputs after)
    (covered : checkOutputs firing.id firing.node outputs = .ok ()) :
    (self.answer {} (.node firing.id firing.arrived)).1 = .ok outputs := by
  obtain ⟨left, again⟩ := firing_again low done
  have finished : ∃ trace, self.run (.node firing.id firing.arrived) #[] = .ok outputs trace := by
    rw [run_entry, entry_arrived known plain gathered]
    dsimp only [Firing.ending]
    rw [again]
    dsimp only [finishAlone]
    rw [covered]
    unfold record
    split <;> exact ⟨_, rfl⟩
  obtain ⟨trace, run⟩ := finished
  have answered := answered_run self #[] (.node firing.id firing.arrived)
  rw [run] at answered
  exact congrArg Prod.fst answered

end Alone

section Graphs
variable {self : Interpreter} {graph : NodeId} {args results : List Value} {session : Session}

theorem ending_of_answer (done : self.answer {} (.graph graph args) = (.ok results, session)) :
    ∃ depth left, self.limits.depth = depth + 1 ∧
      Visit.ending (self.evalGraph (depth + 1)) ⟨graph, args, #[]⟩ = .ok results left := by
  have answered := answered_run self #[] (.graph graph args)
  change Answered _ (Visit.ending self.evaluator ⟨graph, args, #[]⟩) at answered
  cases ending : Visit.ending self.evaluator ⟨graph, args, #[]⟩ with
  | error error left =>
      rw [ending] at answered
      cases done.symm.trans answered
  | ok values left =>
      rw [ending] at answered
      cases done.symm.trans answered
      cases bound : self.limits.depth with
      | zero =>
          unfold evaluator at ending
          rw [bound] at ending
          cases ending
      | succ depth =>
          refine ⟨depth, left, rfl, ?_⟩
          rw [← bound]
          exact ending

theorem entry_of_firing {depth : Nat} (traced : self.traced = true)
    (done : self.answer {} (.graph graph args) = (.ok results, session)) (deep : self.limits.depth = depth + 1)
    {firing : Firing} (member : firing ∈ Visit.firings self (self.evalGraph depth) ⟨graph, args, #[]⟩)
    {outputs : List Value} {after : Trace} (ended : firing.ending self (self.evalGraph depth) = .ok outputs after) :
    ⟨firing.id, firing.node.opcode, firing.inputs, outputs⟩ ∈ session.trace.toList := by
  have logged : session.trace.toList = self.entriesOf (self.evaluations (depth + 1) ⟨graph, args, #[]⟩) := by
    have here : (self.answer {} (.graph graph args)).2.trace.toList = _ := kept_answer self (.graph graph args) #[]
    rw [done, kept_run traced] at here
    rw [← deep]
    exact here
  rw [logged]
  refine List.mem_filterMap.mpr ⟨⟨depth, firing⟩, ?_, ?_⟩
  · rw [evaluations_succ]
    exact List.mem_flatMap.mpr ⟨firing, member, List.mem_append_right _ List.mem_cons_self⟩
  · unfold Evaluation.entry? Evaluation.ending
    rw [ended]

end Graphs

theorem nodes_answer_alone {origin : Origin} {start : Module} (started : origin.start = .ok start)
    (requests : List Request) (self : Interpreter) (after : self.m = Module.run start requests) {graph : NodeId}
    {args results : List Value} {session : Session}
    (done : self.answer {} (.graph graph args) = (.ok results, session)) :
    let evaluate := self.evalGraph (self.limits.depth - 1)
    let firings := Visit.firings self evaluate ⟨graph, args, #[]⟩
    firings.map Firing.id = self.m.nodesOf graph ∧ ∀ firing ∈ firings, ∃ outputs left,
      firing.ending self evaluate = .ok outputs left ∧
      (self.traced = true → ⟨firing.id, firing.node.opcode, firing.inputs, outputs⟩ ∈ session.trace.toList) ∧
      (self.answer {} (.node firing.id firing.arrived)).1 = .ok outputs := by
  obtain ⟨_, sound, _⟩ := sound_origin started
  obtain ⟨_, soundNow, _⟩ := sound_run requests sound
  rw [← after] at soundNow
  obtain ⟨depth, left, deep, ending⟩ := ending_of_answer done
  obtain ⟨nodes, each⟩ := visit_done ending
  rw [deep, Nat.add_sub_cancel]
  refine ⟨nodes, fun firing member => ?_⟩
  obtain ⟨outputs, left, ended, covered⟩ := each firing member
  obtain ⟨known, frame, gathered⟩ := gathered_of_firing member
  have listed : firing.id ∈ self.m.nodesOf graph := by
    rw [← nodes]
    exact List.mem_map_of_mem member
  have plain : firing.node.isGraph = false := by
    have role := soundNow.owned.listed listed
    rw [role_eq_some_of_node (node_ok_iff.mp known)] at role
    simp [Node.isGraph, Option.some.inj role]
  exact ⟨outputs, left, ended, fun traced => entry_of_firing traced done deep member ended,
    answer_arrived known plain gathered (by omega) ended covered⟩

-- A node with a literal between two wires, and a conditional on what it puts out.
theorem mixed_ports_answer_alone :
    let requests : List Request := [.addFunction "f", .addNode 0 .noOp, .wire ⟨1, 1⟩ ⟨0, 1⟩,
      .setLiteral ⟨1, 2⟩ (.bool true), .wire ⟨1, 3⟩ ⟨0, 2⟩, .addNode 0 .ifThenElse, .addGraph 2, .addGraph 2,
      .wire ⟨4, 1⟩ ⟨4, 1⟩, .wire ⟨2, 1⟩ ⟨1, 3⟩, .wire ⟨0, 1⟩ ⟨2, 1⟩]
    let self : Interpreter := { m := Module.run Module.initial requests }
    let call : Call := .graph 0 [.bool true, .bool false]
    let evaluate := self.evalGraph (self.limits.depth - 1)
    let firings := Visit.firings self evaluate ⟨0, [.bool true, .bool false], #[]⟩
    (self.answer {} call).1.toOption.isSome ∧ firings.map Firing.id = [1, 2] ∧
      firings.map (fun firing => firing.inputs.map Value.isTrue) = [[true, true, false], [false]] ∧
      firings.map (fun firing => firing.arrived.map Value.isTrue) = [[true, false], [false]] ∧
      ∀ firing ∈ firings, ∃ outputs left, firing.ending self evaluate = .ok outputs left ∧
        (self.answer {} (.node firing.id firing.arrived)).1 = .ok outputs := by
  intro requests self call evaluate firings
  have succeeds : (self.answer {} call).1.toOption.isSome := by decide +kernel
  have started : Origin.initial.start = .ok Module.initial := rfl
  obtain ⟨results, same⟩ := Option.isSome_iff_exists.mp succeeds
  have done : self.answer {} call = (.ok results, (self.answer {} call).2) := by
    rw [← Outcome.mem_to_option.mp same]
  have after : self.m = Module.run Module.initial requests := by dsimp only [self]
  obtain ⟨nodes, each⟩ := nodes_answer_alone started requests self after done
  have listed : self.m.nodesOf 0 = [1, 2] := by decide +kernel
  refine ⟨succeeds, nodes.trans listed, by decide +kernel, by decide +kernel, fun firing member => ?_⟩
  obtain ⟨outputs, left, ended, _, alone⟩ := each firing member
  exact ⟨outputs, left, ended, alone⟩

end Dataflow.Interpreter
