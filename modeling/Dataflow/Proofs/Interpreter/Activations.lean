import Dataflow.Proofs.Interpreter.Visits
set_option autoImplicit false

-- Evaluations of graphs. The nodes have their turns in order, and each one is evaluated once its inputs
-- are there; how these evaluations end decides everything.
namespace Dataflow.Interpreter

def activations (self : Interpreter) (evaluate : Evaluator) : List NodeId → Frame → Trace → List Activation
  | [], _, _ => []
  | id :: rest, frame, trace =>
      ⟨id, frame, trace⟩ :: following (self.step evaluate frame id trace) (self.activations evaluate rest)

def Visit.activations (self : Interpreter) (evaluate : Evaluator) (visit : Visit) : List Activation :=
  match self.m.graph visit.graph with
  | .error _ => []
  | .ok graph =>
      match checkArguments visit.graph graph visit.args with
      | .error _ => []
      | .ok _ => Interpreter.activations self evaluate graph.nodes [(visit.graph, visit.args)] visit.trace

-- A node without all of its inputs is not evaluated.
def Activation.firing? (self : Interpreter) (activation : Activation) : Option Firing :=
  match self.m.node activation.id with
  | .error _ => none
  | .ok node =>
      match self.inputValues activation.frame activation.id node with
      | .error _ => none
      | .ok inputs => some ⟨activation.id, node, inputs, activation.trace⟩

def Visit.firings (self : Interpreter) (evaluate : Evaluator) (visit : Visit) : List Firing :=
  (visit.activations self evaluate).filterMap (Activation.firing? self)

-- The evaluations of graphs that are asked for within.
def Visit.visits (self : Interpreter) (evaluate : Evaluator) (visit : Visit) : List Visit :=
  (visit.firings self evaluate).flatMap (Firing.visits self evaluate)

/-! ### Steps -/

theorem lookup_other {frame : Frame} {id other : NodeId} (apart : other ≠ id) (outputs : List Value) :
    List.lookup other ((id, outputs) :: frame) = frame.lookup other := by
  rw [List.lookup_cons, beq_false_of_ne apart]

theorem step_inv {self : Interpreter} {evaluate : Evaluator} {frame next : Frame} {id : NodeId} {trace left : Trace}
    (done : self.step evaluate frame id trace = .ok next left) :
    ∃ node inputs outputs, self.m.node id = .ok node ∧ self.inputValues frame id node = .ok inputs ∧
      self.evalNode evaluate id inputs trace = .ok outputs left ∧ next = (id, outputs) :: frame := by
  obtain ⟨node, _, looked, done⟩ := bind_run_inv done
  obtain ⟨found, rfl⟩ := find_inv looked
  obtain ⟨inputs, _, read, done⟩ := bind_run_inv done
  obtain ⟨gathered, rfl⟩ := checked_inv read
  obtain ⟨outputs, _, evaluated, done⟩ := bind_run_inv done
  cases done
  exact ⟨node, inputs, outputs, found, gathered, evaluated, rfl⟩

def finish (self : Interpreter) (frame : Frame) (firing : Firing) (outputs : List Value) : Run Frame := do
  self.record ⟨firing.id, firing.node.opcode, firing.inputs, outputs⟩
  ofExcept (checkOutputs firing.id firing.node outputs)
  pure ((firing.id, outputs) :: frame)

section Step
variable {self : Interpreter} {evaluate other : Evaluator} {limits : Limits} {activation : Activation}

theorem firing_ready {firing : Firing} (ready : activation.firing? self = some firing) :
    ∃ node inputs, self.m.node activation.id = .ok node ∧
      self.inputValues activation.frame activation.id node = .ok inputs ∧
        firing = ⟨activation.id, node, inputs, activation.trace⟩ := by
  unfold Activation.firing? at ready
  split at ready
  · cases ready
  · rename_i node found
    split at ready
    · cases ready
    · rename_i inputs gathered
      cases ready
      exact ⟨node, inputs, found, gathered, rfl⟩

theorem step_ready {firing : Firing} (ready : activation.firing? self = some firing) :
    self.step evaluate activation.frame activation.id activation.trace =
      match firing.ending self evaluate with
      | .ok outputs trace => self.finish activation.frame firing outputs trace
      | .error error trace => .error error trace := by
  obtain ⟨node, inputs, found, gathered, rfl⟩ := firing_ready ready
  unfold step evalNode Firing.ending finish
  rw [bind_find_ok found, bind_checked_ok gathered, bind_find_ok found]
  simp only [bind_assoc, pure_bind]
  rw [bind_run]
  cases self.outputs evaluate activation.id node inputs activation.trace <;> rfl

theorem step_stuck (stuck : activation.firing? self = none) : ∃ error, ∀ limits evaluate,
    (self.withLimits limits).step evaluate activation.frame activation.id activation.trace =
      .error error activation.trace := by
  unfold Activation.firing? at stuck
  split at stuck
  · rename_i error missing
    exact ⟨.refused error, fun limits evaluate => bind_find_error _ missing⟩
  · rename_i node found
    split at stuck
    · rename_i error missing
      refine ⟨error, fun limits evaluate => ?_⟩
      unfold step
      rw [bind_find_ok (show (self.withLimits limits).m.node activation.id = .ok node from found)]
      exact bind_checked_error _ missing
    · cases stuck

theorem step_same (agree : ∀ firing, activation.firing? self = some firing →
      firing.ending (self.withLimits limits) other = firing.ending self evaluate) :
    (self.withLimits limits).step other activation.frame activation.id activation.trace =
      self.step evaluate activation.frame activation.id activation.trace := by
  cases ready : activation.firing? self with
  | none =>
      obtain ⟨error, stuck⟩ := step_stuck ready
      exact (stuck limits other).trans (stuck self.limits evaluate).symm
  | some firing =>
      have there : activation.firing? (self.withLimits limits) = some firing := ready
      rw [step_ready ready, step_ready there, agree firing ready]
      rfl

theorem step_fails {firing : Firing} {error : RunError} {after : Trace}
    (ready : activation.firing? self = some firing) (failed : firing.ending self evaluate = .error error after) :
    self.step evaluate activation.frame activation.id activation.trace = .error error after := by
  rw [step_ready ready, failed]

end Step

/-! ### Graphs -/

section Graph
variable {self : Interpreter} {evaluate other : Evaluator} {limits : Limits} {nodes : List NodeId} {frame : Frame}
  {trace : Trace}

theorem fold_next (id : NodeId) : (id :: nodes).foldlM (self.step evaluate) frame trace =
    match self.step evaluate frame id trace with
    | .ok next left => nodes.foldlM (self.step evaluate) next left
    | .error error left => .error error left := by
  rw [List.foldlM_cons, bind_run]
  cases self.step evaluate frame id trace <;> rfl

theorem fold_same (agree : ∀ activation ∈ self.activations evaluate nodes frame trace,
      ∀ firing, activation.firing? self = some firing →
        firing.ending (self.withLimits limits) other = firing.ending self evaluate) :
    nodes.foldlM ((self.withLimits limits).step other) frame trace =
        nodes.foldlM (self.step evaluate) frame trace ∧
      (self.withLimits limits).activations other nodes frame trace =
        self.activations evaluate nodes frame trace := by
  induction nodes generalizing frame trace with
  | nil => exact ⟨rfl, rfl⟩
  | cons id rest ih =>
      have here := step_same (agree _ List.mem_cons_self)
      dsimp only at here
      rw [fold_next, fold_next, Interpreter.activations, Interpreter.activations, here]
      rw [Interpreter.activations] at agree
      cases step : self.step evaluate frame id trace with
      | error error left => exact ⟨rfl, rfl⟩
      | ok next left =>
          rw [step] at agree
          obtain ⟨same, activations⟩ := ih fun activation member => agree activation (List.mem_cons_of_mem _ member)
          exact ⟨same, congrArg (List.cons _) activations⟩

theorem fold_fails {activation : Activation} {firing : Firing} {error : RunError} {after : Trace}
    (member : activation ∈ self.activations evaluate nodes frame trace)
    (ready : activation.firing? self = some firing) (failed : firing.ending self evaluate = .error error after) :
    nodes.foldlM (self.step evaluate) frame trace = .error error after := by
  induction nodes generalizing frame trace with
  | nil => cases member
  | cons id rest ih =>
      rw [fold_next]
      rcases List.mem_cons.mp member with rfl | later
      · have here := step_fails ready failed
        dsimp only at here
        rw [here]
      · cases step : self.step evaluate frame id trace with
        | error other left =>
            rw [step] at later
            cases later
        | ok next left =>
            rw [step] at later
            exact ih later

end Graph

section Visit
variable {self : Interpreter} {evaluate other : Evaluator} {limits : Limits} {visit : Visit}

-- The checks on a graph and its arguments come first.
theorem run_graph_cases (self : Interpreter) (visit : Visit) :
    (∃ error, ∀ limits evaluate, (self.withLimits limits).runGraph evaluate visit.graph visit.args visit.trace =
        .error error visit.trace ∧ visit.activations (self.withLimits limits) evaluate = []) ∨
      ∃ graph, self.m.graph visit.graph = .ok graph ∧ checkArguments visit.graph graph visit.args = .ok () ∧
        ∀ limits evaluate, (self.withLimits limits).runGraph evaluate visit.graph visit.args visit.trace =
            (graph.nodes.foldlM ((self.withLimits limits).step evaluate) [(visit.graph, visit.args)] >>= fun frame =>
              ofExcept (self.results frame visit.graph graph)) visit.trace ∧
          visit.activations (self.withLimits limits) evaluate = (self.withLimits limits).activations evaluate
            graph.nodes [(visit.graph, visit.args)] visit.trace := by
  unfold runGraph Visit.activations
  cases found : self.m.graph visit.graph with
  | error error =>
      exact .inl ⟨.refused error, fun limits evaluate => ⟨bind_find_error _ found, by simp only [withLimits, found]⟩⟩
  | ok graph =>
      have graph_found : ∀ limits, (self.withLimits limits).m.graph visit.graph = .ok graph := fun _ => found
      cases checked : checkArguments visit.graph graph visit.args with
      | error error =>
          refine .inl ⟨error, fun limits evaluate => ⟨?_, by simp only [graph_found, checked]⟩⟩
          rw [bind_find_ok (graph_found limits)]
          exact bind_checked_error _ checked
      | ok done =>
          refine .inr ⟨graph, rfl, checked, fun limits evaluate => ⟨?_, by simp only [graph_found, checked]⟩⟩
          rw [bind_find_ok (graph_found limits), bind_checked_ok checked]
          rfl

theorem visit_same (agree : ∀ firing ∈ visit.firings self evaluate,
      firing.ending (self.withLimits limits) other = firing.ending self evaluate) :
    (self.withLimits limits).runGraph other visit.graph visit.args visit.trace =
        self.runGraph evaluate visit.graph visit.args visit.trace ∧
      visit.firings (self.withLimits limits) other = visit.firings self evaluate := by
  unfold Visit.firings at agree ⊢
  rcases run_graph_cases self visit with ⟨error, refused⟩ | ⟨graph, _, _, run⟩
  · have here := refused self.limits evaluate
    have there := refused limits other
    refine ⟨there.1.trans here.1.symm, ?_⟩
    rw [there.2, show visit.activations self evaluate = [] from here.2]
    rfl
  · have here := run self.limits evaluate
    have there := run limits other
    have walked : visit.activations self evaluate =
      self.activations evaluate graph.nodes [(visit.graph, visit.args)] visit.trace := here.2
    rw [walked] at agree
    obtain ⟨same, activations⟩ := fold_same fun activation member firing ready =>
      agree firing (List.mem_filterMap.mpr ⟨activation, member, ready⟩)
    refine ⟨there.1.trans (Eq.trans ?_ here.1.symm), ?_⟩
    · rw [bind_run, bind_run, same]
      rfl
    · rw [there.2, walked, activations]
      rfl

theorem visit_fails {firing : Firing} {error : RunError} {after : Trace}
    (member : firing ∈ visit.firings self evaluate) (failed : firing.ending self evaluate = .error error after) :
    self.runGraph evaluate visit.graph visit.args visit.trace = .error error after := by
  obtain ⟨activation, inside, ready⟩ := List.mem_filterMap.mp member
  rcases run_graph_cases self visit with ⟨other, refused⟩ | ⟨graph, _, _, run⟩
  · rw [show visit.activations self evaluate = [] from (refused self.limits evaluate).2] at inside
    cases inside
  · have here := run self.limits evaluate
    rw [show visit.activations self evaluate = _ from here.2] at inside
    exact here.1.trans (bind_run_error (fold_fails inside ready failed))

end Visit

end Dataflow.Interpreter
