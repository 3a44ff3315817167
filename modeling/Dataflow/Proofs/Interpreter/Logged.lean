import Dataflow.Proofs.Interpreter.Kept
import Dataflow.Proofs.Interpreter.Limits
import Dataflow.Proofs.Interpreter.Sessions
import Dataflow.Proofs.Module.Refeeding
set_option autoImplicit false

-- What a trace says of a run. The evaluations of nodes are listed in the order in which they end, so that
-- those inside of a node come directly before it; the trace has an entry for each one whose operation answers.
namespace Dataflow.Interpreter

/-! ### Evaluations of nodes -/

-- A node that is evaluated, while `depth` evaluations of graphs may still be opened inside of it.
structure Evaluation where
  depth : Nat
  firing : Firing

def Evaluation.ending (self : Interpreter) (evaluation : Evaluation) : Ending (List Value) :=
  evaluation.firing.ending self (self.evalGraph evaluation.depth)

def Evaluation.visits (self : Interpreter) (evaluation : Evaluation) : List Visit :=
  evaluation.firing.visits self (self.evalGraph evaluation.depth)

-- In the order in which they end.
def evaluations (self : Interpreter) : Nat → Visit → List Evaluation
  | 0, _ => []
  | depth + 1, visit => (visit.firings self (self.evalGraph depth)).flatMap fun firing =>
      (firing.visits self (self.evalGraph depth)).flatMap (self.evaluations depth) ++ [⟨depth, firing⟩]

def Evaluation.inside (self : Interpreter) (evaluation : Evaluation) : List Evaluation :=
  (evaluation.visits self).flatMap (self.evaluations evaluation.depth)

def Evaluation.whole (self : Interpreter) (evaluation : Evaluation) : List Evaluation :=
  evaluation.inside self ++ [evaluation]

-- An operation that fails has no entry.
def Evaluation.entry? (self : Interpreter) (evaluation : Evaluation) : Option TraceEntry :=
  match evaluation.ending self with
  | .ok outputs _ =>
      some ⟨evaluation.firing.id, evaluation.firing.node.opcode, evaluation.firing.inputs, outputs⟩
  | .error _ _ => none

def entriesOf (self : Interpreter) (evaluations : List Evaluation) : List TraceEntry :=
  evaluations.filterMap (Evaluation.entry? self)

def Firing.added (self : Interpreter) (depth : Nat) (firing : Firing) : List TraceEntry :=
  self.entriesOf (Evaluation.whole self ⟨depth, firing⟩)

abbrev Firing.start (firing : Firing) : List TraceEntry :=
  firing.trace.toList

theorem evaluations_succ (self : Interpreter) (depth : Nat) (visit : Visit) : self.evaluations (depth + 1) visit =
    (visit.firings self (self.evalGraph depth)).flatMap fun firing => Evaluation.whole self ⟨depth, firing⟩ := rfl

theorem entries_append (self : Interpreter) (first second : List Evaluation) :
    self.entriesOf (first ++ second) = self.entriesOf first ++ self.entriesOf second :=
  List.filterMap_append

theorem entries_flat_map (self : Interpreter) {α : Type} (parts : List α) (each : α → List Evaluation) :
    self.entriesOf (parts.flatMap each) = parts.flatMap fun part => self.entriesOf (each part) :=
  List.filterMap_flatMap

section Graph
variable {self : Interpreter} {depth : Nat}

theorem record_traced (traced : self.traced = true) (entry : TraceEntry) (trace : Trace) :
    self.record entry trace = .ok () (trace.push entry) := by
  unfold record
  rw [if_pos traced]
  rfl

theorem kept_record {α : Type} (traced : self.traced = true) (entry : TraceEntry) (checked : Except RunError Unit)
    (value : α) (trace : Trace) :
    kept ((self.record entry >>= fun _ => ofExcept checked >>= fun _ => pure value : Run α) trace) =
      trace.toList ++ [entry] := by
  rw [bind_run_ok (record_traced traced entry trace)]
  cases checked <;> exact Array.toList_push

theorem kept_inside (within : ∀ visit : Visit, kept (visit.ending (self.evalGraph depth)) =
      visit.start ++ self.entriesOf (self.evaluations depth visit)) (firing : Firing) :
    kept (firing.ending self (self.evalGraph depth)) =
      firing.start ++ self.entriesOf (Evaluation.inside self ⟨depth, firing⟩) := by
  unfold Evaluation.inside
  rw [entries_flat_map]
  exact (logs_firing within firing).1

theorem added_ok {firing : Firing} {outputs : List Value} {left : Trace}
    (done : firing.ending self (self.evalGraph depth) = .ok outputs left) : firing.added self depth =
      self.entriesOf (Evaluation.inside self ⟨depth, firing⟩) ++
        [⟨firing.id, firing.node.opcode, firing.inputs, outputs⟩] := by
  unfold Firing.added Evaluation.whole
  rw [entries_append]
  simp [entriesOf, Evaluation.entry?, Evaluation.ending, done]

theorem added_error {firing : Firing} {error : RunError} {left : Trace}
    (failed : firing.ending self (self.evalGraph depth) = .error error left) :
    firing.added self depth = self.entriesOf (Evaluation.inside self ⟨depth, firing⟩) := by
  unfold Firing.added Evaluation.whole
  rw [entries_append]
  simp [entriesOf, Evaluation.entry?, Evaluation.ending, failed]

-- What happens inside of a node, and then the entry of the node.
theorem kept_firing {α : Type}
    (within : ∀ visit : Visit, kept (visit.ending (self.evalGraph depth)) =
      visit.start ++ self.entriesOf (self.evaluations depth visit)) (firing : Firing) (close : List Value → Run α)
    (closes : ∀ outputs trace, kept (close outputs trace) =
      trace.toList ++ [⟨firing.id, firing.node.opcode, firing.inputs, outputs⟩]) :
    kept (match firing.ending self (self.evalGraph depth) with
      | .ok outputs trace => close outputs trace
      | .error error trace => .error error trace) = firing.start ++ firing.added self depth := by
  have inside := kept_inside within firing
  cases ending : firing.ending self (self.evalGraph depth) with
  | error error left =>
      rw [ending] at inside
      rw [added_error ending]
      exact inside
  | ok outputs left =>
      rw [ending] at inside
      rw [added_ok ending, ← List.append_assoc]
      exact (closes outputs left).trans (congrArg (· ++ _) inside)

theorem kept_step (traced : self.traced = true)
    (within : ∀ visit : Visit, kept (visit.ending (self.evalGraph depth)) =
      visit.start ++ self.entriesOf (self.evaluations depth visit))
    {activation : Activation} {firing : Firing} (ready : activation.firing? self = some firing) :
    kept (self.step (self.evalGraph depth) activation.frame activation.id activation.trace) =
      activation.trace.toList ++ firing.added self depth := by
  rw [step_ready ready]
  obtain ⟨node, inputs, _, _, rfl⟩ := firing_ready ready
  exact kept_firing within _ _ fun outputs trace => kept_record traced _ _ _ trace

theorem kept_steps (traced : self.traced = true)
    (within : ∀ visit : Visit, kept (visit.ending (self.evalGraph depth)) =
      visit.start ++ self.entriesOf (self.evaluations depth visit)) (nodes : List NodeId) (frame : Frame) (trace : Trace) :
    let firings := (self.activations (self.evalGraph depth) nodes frame trace).filterMap (Activation.firing? self)
    kept (nodes.foldlM (self.step (self.evalGraph depth)) frame trace) =
        trace.toList ++ firings.flatMap (Firing.added self depth) ∧
      Consecutive Firing.start (Firing.added self depth) trace.toList firings := by
  induction nodes generalizing frame trace with
  | nil => exact ⟨(List.append_nil _).symm, trivial⟩
  | cons id rest ih =>
      rw [Interpreter.activations, List.filterMap_cons, fold_next]
      cases ready : Activation.firing? self ⟨id, frame, trace⟩ with
      | none =>
          obtain ⟨error, stuck⟩ := step_stuck ready
          have here : self.step (self.evalGraph depth) frame id trace = .error error trace :=
            stuck self.limits (self.evalGraph depth)
          simp [here, following, kept, Consecutive]
      | some firing =>
          have here := kept_step traced within ready
          obtain ⟨node, inputs, _, _, rfl⟩ := firing_ready ready
          dsimp only at here ⊢
          cases step : self.step (self.evalGraph depth) frame id trace with
          | error error left =>
              rw [step] at here
              exact ⟨here.trans (by simp [following]), rfl, trivial⟩
          | ok next left =>
              rw [step] at here
              change left.toList = _ at here
              obtain ⟨later, consecutive⟩ := ih next left
              refine ⟨later.trans (by simp [following, here]), rfl, ?_⟩
              rw [← here]
              exact consecutive

theorem kept_visit (traced : self.traced = true)
    (within : ∀ visit : Visit, kept (visit.ending (self.evalGraph depth)) =
      visit.start ++ self.entriesOf (self.evaluations depth visit)) (visit : Visit) :
    kept (visit.ending (self.evalGraph (depth + 1))) =
        visit.start ++ (visit.firings self (self.evalGraph depth)).flatMap (Firing.added self depth) ∧
      Consecutive Firing.start (Firing.added self depth) visit.start (visit.firings self (self.evalGraph depth)) := by
  unfold Visit.firings
  rcases run_graph_cases self visit with ⟨error, refused⟩ | ⟨graph, _, _, run⟩
  · have here := refused self.limits (self.evalGraph depth)
    rw [show visit.activations self (self.evalGraph depth) = [] from here.2]
    exact ⟨(congrArg kept here.1).trans (List.append_nil _).symm, trivial⟩
  · have here : visit.ending (self.evalGraph (depth + 1)) =
        (graph.nodes.foldlM (self.step (self.evalGraph depth)) [(visit.graph, visit.args)] >>= fun frame =>
          ofExcept (self.results frame visit.graph graph)) visit.trace := (run self.limits (self.evalGraph depth)).1
    rw [show visit.activations self (self.evalGraph depth) = _ from (run self.limits (self.evalGraph depth)).2]
    obtain ⟨whole, consecutive⟩ := kept_steps traced within graph.nodes [(visit.graph, visit.args)] visit.trace
    refine ⟨Eq.trans ?_ whole, consecutive⟩
    rw [here, bind_run]
    cases graph.nodes.foldlM (self.step (self.evalGraph depth)) [(visit.graph, visit.args)] visit.trace with
    | error error left => rfl
    | ok frame left =>
        dsimp only
        cases self.results frame visit.graph graph <;> rfl

theorem kept_eval_graph (traced : self.traced = true) (depth : Nat) (visit : Visit) :
    kept (visit.ending (self.evalGraph depth)) = visit.start ++ self.entriesOf (self.evaluations depth visit) := by
  induction depth generalizing visit with
  | zero => exact (List.append_nil _).symm
  | succ depth ih =>
      rw [evaluations_succ, entries_flat_map]
      exact (kept_visit traced ih visit).1

/-! ### Places in the list -/

-- What is evaluated inside comes directly before, and whatever is in the trace when the evaluation starts
-- comes from the evaluations before that.
def Placed (self : Interpreter) (start : List TraceEntry) (all : List Evaluation) (evaluation : Evaluation) : Prop :=
  ∃ before after, all = before ++ (evaluation.inside self ++ evaluation :: after) ∧
    evaluation.firing.start = start ++ self.entriesOf before

theorem placed_amid {start : List TraceEntry} {first part second : List Evaluation} {evaluation : Evaluation}
    (placed : self.Placed (start ++ self.entriesOf first) part evaluation) :
    self.Placed start (first ++ (part ++ second)) evaluation := by
  obtain ⟨before, after, whole, begins⟩ := placed
  refine ⟨first ++ before, after ++ second, ?_, ?_⟩
  · simp [whole]
  · rw [begins, entries_append, List.append_assoc]

theorem placed_part {α : Type} {parts : List α} {each : α → List Evaluation} {begins : α → List TraceEntry}
    {start : List TraceEntry}
    (consecutive : Consecutive begins (fun part => self.entriesOf (each part)) start parts)
    {part : α} (member : part ∈ parts) {evaluation : Evaluation}
    (placed : self.Placed (begins part) (each part) evaluation) :
    self.Placed start (parts.flatMap each) evaluation := by
  obtain ⟨first, second, rfl⟩ := List.append_of_mem member
  rw [start_of_consecutive consecutive, ← entries_flat_map] at placed
  rw [List.flatMap_append, List.flatMap_cons]
  exact placed_amid placed

theorem placed_whole (traced : self.traced = true)
    (within : ∀ {visit : Visit} {evaluation : Evaluation}, evaluation ∈ self.evaluations depth visit →
      self.Placed visit.start (self.evaluations depth visit) evaluation)
    {firing : Firing} {evaluation : Evaluation} (member : evaluation ∈ Evaluation.whole self ⟨depth, firing⟩) :
    self.Placed firing.start (Evaluation.whole self ⟨depth, firing⟩) evaluation := by
  rcases List.mem_append.mp member with inside | same
  · obtain ⟨visit, visited, here⟩ := List.mem_flatMap.mp inside
    have consecutive : Consecutive Visit.start (fun visit => self.entriesOf (self.evaluations depth visit))
        firing.trace.toList (firing.visits self (self.evalGraph depth)) :=
      (logs_firing (kept_eval_graph traced depth) firing).2
    have placed := placed_part consecutive visited (within here)
    have begins : firing.trace.toList = firing.trace.toList ++ self.entriesOf [] := (List.append_nil _).symm
    rw [begins] at placed
    exact placed_amid placed
  · rw [List.mem_singleton.mp same]
    exact ⟨[], [], rfl, (List.append_nil _).symm⟩

theorem placed_evaluations (traced : self.traced = true) {depth : Nat} {visit : Visit} {evaluation : Evaluation}
    (member : evaluation ∈ self.evaluations depth visit) :
    self.Placed visit.start (self.evaluations depth visit) evaluation := by
  induction depth generalizing visit evaluation with
  | zero => cases member
  | succ depth ih =>
      obtain ⟨firing, fired, here⟩ := List.mem_flatMap.mp member
      have consecutive := (kept_visit traced (kept_eval_graph traced depth) visit).2
      exact placed_part consecutive fired (placed_whole traced ih here)

end Graph

/-! ### Entries on their own -/

-- What the operation of a node answers on its own, where nothing else is open.
structure Repeats (here : Interpreter) (entry : TraceEntry) (node : Node) : Prop where
  known : here.m.node entry.node = .ok node
  opcode : entry.opcode = node.opcode
  again : ∃ after, here.outputs here.evaluator entry.node node entry.inputs #[] = .ok entry.outputs after
  same : entry.opcode = .noOp → entry.outputs = entry.inputs
  delegated : entry.opcode ∉ [.ifThenElse, .iterate, .call, .noOp] →
    here.operations entry.node entry.opcode entry.inputs = .ok entry.outputs

section Entries
variable {self : Interpreter}

theorem evaluated {depth : Nat} {visit : Visit} {evaluation : Evaluation}
    (member : evaluation ∈ self.evaluations depth visit) :
    evaluation.depth < depth ∧ self.m.node evaluation.firing.id = .ok evaluation.firing.node := by
  induction depth generalizing visit evaluation with
  | zero => cases member
  | succ depth ih =>
      obtain ⟨firing, fired, here⟩ := List.mem_flatMap.mp member
      rcases List.mem_append.mp here with inside | same
      · obtain ⟨inner, _, there⟩ := List.mem_flatMap.mp inside
        obtain ⟨less, known⟩ := ih there
        exact ⟨Nat.lt_succ_of_lt less, known⟩
      · rw [List.mem_singleton.mp same]
        obtain ⟨activation, _, ready⟩ := List.mem_filterMap.mp fired
        obtain ⟨node, inputs, found, _, rfl⟩ := firing_ready ready
        exact ⟨Nat.lt_succ_self depth, found⟩

theorem firing_deeper {firing : Firing} {depth : Nat} {outputs : List Value} {left : Trace}
    (low : depth ≤ self.limits.depth) (done : firing.ending self (self.evalGraph depth) = .ok outputs left) :
    firing.ending self self.evaluator = .ok outputs left := by
  have ended : ¬ Limited (firing.ending self (self.evalGraph depth)) := by
    rw [done]
    exact id
  have deep : most ((firing.visits self (self.evalGraph depth)).map (self.nesting depth)) ≤ self.limits.depth := by
    refine most_le_iff.mpr fun count member => ?_
    obtain ⟨visit, _, rfl⟩ := List.mem_map.mp member
    exact Nat.le_trans (nesting_le self depth visit) low
  have long : most ((firing.visits self (self.evalGraph depth)).map (self.longest depth)) ≤ self.limits.iterations := by
    refine most_le_iff.mpr fun count member => ?_
    obtain ⟨visit, _, rfl⟩ := List.mem_map.mp member
    exact longest_le self depth visit
  have inner : ∀ {visit : Visit}, ¬ Limited (visit.ending (self.evalGraph depth)) →
      self.nesting depth visit ≤ self.limits.depth → self.longest depth visit ≤ self.limits.iterations →
        Same self self.limits depth self.limits.depth visit := eval_graph_same
  exact (firing_transfer inner ended deep (passes_le self _ firing) long).1.1.trans done

-- More evaluations of graphs may be opened, and nothing is in the trace.
theorem firing_again {firing : Firing} {depth : Nat} {outputs : List Value} {left : Trace}
    (low : depth ≤ self.limits.depth) (done : firing.ending self (self.evalGraph depth) = .ok outputs left) :
    ∃ after, self.outputs self.evaluator firing.id firing.node firing.inputs #[] = .ok outputs after := by
  have recorded : ∀ entry, Lockstep (Extends firing.trace) (self.record entry)
      ((self.withTrace self.traced).record entry) := recorded_extends self firing.trace
  have within := lockstep_eval_graph recorded self.limits.depth
  have same := lockstep_outputs self self.traced within firing.id firing.node firing.inputs
    (show Extends firing.trace firing.trace #[] from Array.append_empty.symm)
  rw [show self.outputs (self.evalGraph self.limits.depth) firing.id firing.node firing.inputs firing.trace = _ from
    firing_deeper low done] at same
  change Ended _ _ (.ok outputs left) (self.outputs self.evaluator firing.id firing.node firing.inputs #[]) at same
  cases alone : self.outputs self.evaluator firing.id firing.node firing.inputs #[] with
  | error error after =>
      rw [alone] at same
      exact same.elim
  | ok others after =>
      rw [alone] at same
      exact ⟨after, by rw [same.1]⟩

theorem outputs_still {node : Node} (still : node.opcode = .noOp) (evaluate : Evaluator) (id : NodeId)
    (inputs : List Value) : self.outputs evaluate id node inputs = ofExcept (.ok inputs) := by
  unfold outputs
  rw [still]
  rfl

theorem outputs_delegated {node : Node} (other : node.opcode ∉ [.ifThenElse, .iterate, .call, .noOp])
    (evaluate : Evaluator) (id : NodeId) (inputs : List Value) :
    self.outputs evaluate id node inputs = ofExcept (self.operations id node.opcode inputs) := by
  unfold outputs
  split
  all_goals simp_all

theorem repeats_of_entry {evaluation : Evaluation} {entry : TraceEntry}
    (low : evaluation.depth ≤ self.limits.depth)
    (known : self.m.node evaluation.firing.id = .ok evaluation.firing.node)
    (recorded : evaluation.entry? self = some entry) : self.Repeats entry evaluation.firing.node := by
  unfold Evaluation.entry? at recorded
  cases done : evaluation.ending self with
  | error error left =>
      rw [done] at recorded
      cases recorded
  | ok outputs left =>
      rw [done] at recorded
      cases recorded
      obtain ⟨after, again⟩ := firing_again low done
      refine ⟨known, rfl, ⟨after, again⟩, fun still => ?_, fun other => ?_⟩
      · rw [outputs_still still] at again
        exact (Except.ok.inj (checked_inv again).1).symm
      · rw [outputs_delegated other] at again
        exact (checked_inv again).1

/-! ### Orders -/

theorem firings_in_order (nodes : List NodeId) (evaluate : Evaluator) (frame : Frame) (trace : Trace) :
    ((self.activations evaluate nodes frame trace).filterMap (Activation.firing? self)).map Firing.id <+: nodes := by
  induction nodes generalizing frame trace with
  | nil => exact List.nil_prefix
  | cons id rest ih =>
      rw [Interpreter.activations, List.filterMap_cons]
      cases ready : Activation.firing? self ⟨id, frame, trace⟩ with
      | none =>
          obtain ⟨error, stuck⟩ := step_stuck ready
          have here : self.step evaluate frame id trace = .error error trace := stuck self.limits evaluate
          rw [here]
          exact List.nil_prefix
      | some firing =>
          obtain ⟨node, inputs, _, _, rfl⟩ := firing_ready ready
          refine List.cons_prefix_cons.mpr ⟨rfl, ?_⟩
          cases self.step evaluate frame id trace with
          | error error left => exact List.nil_prefix
          | ok next left => exact ih next left

theorem visit_in_order (evaluate : Evaluator) (visit : Visit) :
    (visit.firings self evaluate).map Firing.id <+: self.m.nodesOf visit.graph := by
  unfold Visit.firings Visit.activations
  cases found : self.m.graph visit.graph with
  | error error => exact List.nil_prefix
  | ok graph =>
      dsimp only
      cases checkArguments visit.graph graph visit.args with
      | error error => exact List.nil_prefix
      | ok done =>
          have nodes : self.m.nodesOf visit.graph = graph.nodes := by
            simp [Module.nodesOf, (Module.graph_ok_iff.mp found).1]
          rw [nodes]
          exact firings_in_order graph.nodes evaluate _ visit.trace

theorem labels_in_order (owned : self.m.Owned) (evaluate : Evaluator) (visit : Visit) :
    (visit.firings self evaluate).Pairwise fun first second => ∃ earlier ∈ (self.m.label first.id).toOption,
      ∃ later ∈ (self.m.label second.id).toOption, earlier < later := by
  have once := owned.once visit.graph
  have place : ∀ position (inside : position < (self.m.nodesOf visit.graph).length),
      position + 1 ∈ (self.m.label (self.m.nodesOf visit.graph)[position]).toOption := by
    intro position inside
    rw [Module.label_node owned (owned.listed (List.getElem_mem inside)), once.idxOf_getElem position inside]
    exact rfl
  have whole : (self.m.nodesOf visit.graph).Pairwise fun first second =>
      ∃ earlier ∈ (self.m.label first).toOption, ∃ later ∈ (self.m.label second).toOption, earlier < later := by
    refine List.pairwise_iff_getElem.mpr fun first second inside insideToo less => ?_
    exact ⟨_, place first inside, _, place second insideToo, Nat.succ_lt_succ less⟩
  exact List.pairwise_map.mp (whole.sublist (visit_in_order evaluate visit).sublist)

end Entries

/-! ### Calls -/

def evaluationsOf (self : Interpreter) (call : Call) (trace : Trace) : List Evaluation :=
  match self.entry call with
  | .error _ => []
  | .ok (.visit graph args) => self.evaluations self.limits.depth ⟨graph, args, trace⟩
  | .ok (.firing id node inputs) => Evaluation.whole self ⟨self.limits.depth, ⟨id, node, inputs, trace⟩⟩

structure Logged (here : Interpreter) (call : Call) (trace : Trace) : Prop where
  entries : (here.answer ⟨0, trace⟩ call).2.trace.toList =
    trace.toList ++ here.entriesOf (here.evaluationsOf call trace)
  placed : ∀ evaluation ∈ here.evaluationsOf call trace,
    here.Placed trace.toList (here.evaluationsOf call trace) evaluation
  ended : ∀ evaluation ∈ here.evaluationsOf call trace, kept (evaluation.ending here) =
    evaluation.firing.start ++ here.entriesOf (evaluation.inside here)
  repeats : ∀ evaluation ∈ here.evaluationsOf call trace, ∀ entry ∈ evaluation.entry? here,
    here.Repeats entry evaluation.firing.node
  -- The nodes of a graph, each with what is evaluated inside of it.
  nodes : ∀ depth visit, ∃ firings : List Firing, here.evaluations (depth + 1) visit =
      (firings.flatMap fun firing => Evaluation.whole here ⟨depth, firing⟩) ∧
    firings.map Firing.id <+: here.m.nodesOf visit.graph ∧
    (here.m.Owned → firings.Pairwise fun first second => ∃ earlier ∈ (here.m.label first.id).toOption,
      ∃ later ∈ (here.m.label second.id).toOption, earlier < later)

section Calls
variable {self : Interpreter}

theorem entry_known {call : Call} {id : NodeId} {node : Node} {inputs : List Value}
    (entered : self.entry call = .ok (.firing id node inputs)) : self.m.node id = .ok node := by
  unfold entry at entered
  split at entered
  · cases entered
  · split at entered <;> cases entered
  · split at entered
    · cases entered
    · split at entered
      · cases entered
      · split at entered
        · cases entered
        · split at entered
          · cases entered
            assumption
          · cases entered

theorem kept_run (traced : self.traced = true) (call : Call) (trace : Trace) :
    kept (self.run call trace) = trace.toList ++ self.entriesOf (self.evaluationsOf call trace) := by
  rw [run_entry]
  unfold evaluationsOf
  cases self.entry call with
  | error error => exact (List.append_nil _).symm
  | ok here =>
      cases here with
      | visit graph args => exact kept_eval_graph traced self.limits.depth ⟨graph, args, trace⟩
      | firing id node inputs =>
          exact kept_firing (kept_eval_graph traced self.limits.depth) _ _
            fun outputs trace => kept_record traced _ _ _ trace

theorem kept_answer (self : Interpreter) (call : Call) (trace : Trace) :
    (self.answer ⟨0, trace⟩ call).2.trace.toList = kept (self.run call trace) := by
  have answered := answered_run self trace call
  revert answered
  cases self.run call trace <;> exact fun answered => by rw [answered]; rfl

theorem logged_of_run (self : Interpreter) (traced : self.traced = true) (call : Call) (trace : Trace) :
    self.Logged call trace := by
  have within : ∀ {visit : Visit} {evaluation : Evaluation},
      evaluation ∈ self.evaluations self.limits.depth visit →
        self.Placed visit.start (self.evaluations self.limits.depth visit) evaluation := placed_evaluations traced
  have known : ∀ evaluation ∈ self.evaluationsOf call trace, evaluation.depth ≤ self.limits.depth ∧
      self.m.node evaluation.firing.id = .ok evaluation.firing.node := by
    intro evaluation member
    unfold evaluationsOf at member
    split at member
    · cases member
    · exact (evaluated member).imp Nat.le_of_lt id
    · rename_i entered
      rcases List.mem_append.mp member with inside | same
      · obtain ⟨visit, _, here⟩ := List.mem_flatMap.mp inside
        exact (evaluated here).imp Nat.le_of_lt id
      · rw [List.mem_singleton.mp same]
        exact ⟨Nat.le_refl _, entry_known entered⟩
  constructor
  · rw [kept_answer, kept_run traced]
  · intro evaluation member
    unfold evaluationsOf at member ⊢
    split at member
    · cases member
    · exact within member
    · exact placed_whole traced within member
  · exact fun evaluation _ => kept_inside (kept_eval_graph traced evaluation.depth) evaluation.firing
  · exact fun evaluation member entry recorded =>
      repeats_of_entry (known evaluation member).1 (known evaluation member).2 recorded
  · exact fun depth visit => ⟨_, evaluations_succ self depth visit, visit_in_order _ visit,
      fun owned => labels_in_order owned _ visit⟩

end Calls

-- A function that counts down with a loop, and then divides by zero.
theorem failed_division_has_no_entry :
    let requests : List Module.Request := [.addFunction "count", .addNode 0 .iterate, .addGraph 1,
      .addNode 2 .minus, .wire ⟨3, 1⟩ ⟨2, 1⟩, .setLiteral ⟨3, 2⟩ (.int 1), .wire ⟨2, 1⟩ ⟨3, 1⟩,
      .wire ⟨1, 1⟩ ⟨0, 1⟩, .addNode 0 .div, .wire ⟨4, 1⟩ ⟨1, 1⟩, .setLiteral ⟨4, 2⟩ (.int 0), .wire ⟨0, 1⟩ ⟨4, 1⟩]
    let self : Interpreter := { m := Module.run Module.initial requests, traced := true }
    let call : Call := .function "count" [.int 3]
    self.traced = true ∧ self.Logged call #[] ∧
      (self.evaluationsOf call #[]).map (·.firing.id) = [3, 3, 3, 1, 4] ∧
      (self.entriesOf (self.evaluationsOf call #[])).map TraceEntry.node = [3, 3, 3, 1] := by
  intro requests self call
  exact ⟨rfl, logged_of_run self rfl call #[], by decide +kernel, by decide +kernel⟩

end Dataflow.Interpreter
