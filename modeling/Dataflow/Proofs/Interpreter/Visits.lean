import Dataflow.Interpreter
set_option autoImplicit false

-- What an evaluation consists of: the nodes whose turn it is, and the evaluations of graphs that they
-- ask for. Nothing else of an evaluator matters, and a failure within is the failure of the whole.
namespace Dataflow.Interpreter

abbrev Trace := Array TraceEntry

abbrev Ending (α : Type) := EStateM.Result RunError Trace α

-- A graph that is evaluated on these arguments, after what was recorded before.
structure Visit where
  graph : NodeId
  args : List Value
  trace : Trace

def Visit.ending (evaluate : Evaluator) (visit : Visit) : Ending (List Value) :=
  evaluate visit.graph visit.args visit.trace

-- A node whose turn it is, with the values so far.
structure Activation where
  id : NodeId
  frame : Frame
  trace : Trace

-- A node that is evaluated on these inputs.
structure Firing where
  id : NodeId
  node : Node
  inputs : List Value
  trace : Trace

def Firing.ending (self : Interpreter) (evaluate : Evaluator) (firing : Firing) : Ending (List Value) :=
  self.outputs evaluate firing.id firing.node firing.inputs firing.trace

section Sequence
variable {σ α β γ : Type}

-- What comes after a step, if it gets there.
def following (ending : Ending α) (later : α → Trace → List γ) : List γ :=
  match ending with
  | .ok value trace => later value trace
  | .error _ _ => []

theorem bind_run (first : RunOn σ α) (next : α → RunOn σ β) (state : σ) :
    (first >>= next) state = match first state with
      | .ok value state => next value state
      | .error error state => .error error state := by
  change EStateM.bind first next state = _
  unfold EStateM.bind
  cases first state <;> rfl

theorem bind_run_ok {first : RunOn σ α} {next : α → RunOn σ β} {state after : σ} {value : α}
    (done : first state = .ok value after) : (first >>= next) state = next value after := by
  rw [bind_run, done]

theorem bind_run_error {first : RunOn σ α} {next : α → RunOn σ β} {state after : σ} {error : RunError}
    (failed : first state = .error error after) : (first >>= next) state = .error error after := by
  rw [bind_run, failed]

theorem bind_run_inv {first : RunOn σ α} {next : α → RunOn σ β} {state after : σ} {result : β}
    (done : (first >>= next) state = .ok result after) :
    ∃ value left, first state = .ok value left ∧ next value left = .ok result after := by
  rw [bind_run] at done
  cases step : first state with
  | ok value left =>
      rw [step] at done
      exact ⟨value, left, rfl, done⟩
  | error error left =>
      rw [step] at done
      cases done

theorem checked_inv {outcome : Except RunError α} {state after : σ} {result : α}
    (done : ofExcept outcome state = .ok result after) : outcome = .ok result ∧ state = after := by
  cases outcome with
  | ok value =>
      cases done
      exact ⟨rfl, rfl⟩
  | error error => cases done

theorem find_inv {outcome : Except Error α} {state after : σ} {result : α}
    (done : find outcome state = .ok result after) : outcome = .ok result ∧ state = after := by
  cases outcome with
  | ok value =>
      cases done
      exact ⟨rfl, rfl⟩
  | error error => cases done

theorem bind_find_ok {outcome : Except Error α} {next : α → RunOn σ β} {value : α} (found : outcome = .ok value) :
    find outcome >>= next = next value := by
  rw [found]
  rfl

theorem bind_find_error {outcome : Except Error α} {next : α → RunOn σ β} {error : Error} (state : σ)
    (missing : outcome = .error error) : (find outcome >>= next) state = .error (.refused error) state := by
  rw [missing]
  rfl

theorem bind_checked_ok {outcome : Except RunError α} {next : α → RunOn σ β} {value : α} (done : outcome = .ok value) :
    ofExcept outcome >>= next = next value := by
  rw [done]
  rfl

theorem bind_checked_error {outcome : Except RunError α} {next : α → RunOn σ β} {error : RunError} (state : σ)
    (failed : outcome = .error error) : (ofExcept outcome >>= next) state = .error error state := by
  rw [failed]
  rfl

theorem record_ok [Recorder σ] (self : Interpreter) (entry : TraceEntry) (state : σ) :
    ∃ final, self.record entry state = .ok () final := by
  unfold record
  split
  · exact ⟨Recorder.push state entry, rfl⟩
  · exact ⟨state, rfl⟩

-- What is left of a node after its operation: results that do not cover its ports are refused.
theorem eval_node_of_outputs [Recorder σ] {self : Interpreter} {evaluate : EvaluatorOn σ} {id : NodeId} {node : Node}
    {inputs outputs : List Value} {state after : σ} (known : self.m.node id = .ok node)
    (done : self.outputs evaluate id node inputs state = .ok outputs after) :
    ∃ final, self.evalNode evaluate id inputs state =
      if node.maxOutput ≤ outputs.length then .ok outputs final
      else .error (.operation id (.arity node.maxOutput outputs.length)) final := by
  obtain ⟨final, recorded⟩ := record_ok self ⟨id, node.opcode, inputs, outputs⟩ after
  refine ⟨final, ?_⟩
  unfold evalNode checkOutputs
  rw [bind_find_ok known, bind_run_ok done, bind_run_ok recorded]
  split <;> rfl

end Sequence

/-! ### Visits of a node -/

def casesVisits (evaluate : Evaluator) (args : List Value) : List NodeId → Trace → List Visit
  | [], _ => []
  | [otherwise], trace => [⟨otherwise, args, trace⟩]
  | test :: body :: rest, trace =>
      ⟨test, args, trace⟩ :: following (evaluate test args trace) fun outcome trace =>
        match outcome.head? with
        | none => []
        | some taken => if taken.isTrue then [⟨body, args, trace⟩] else casesVisits evaluate args rest trace

def conditionalVisits (evaluate : Evaluator) (children : List NodeId) (args : List Value) (trace : Trace) :
    List Visit :=
  match children with
  | [yes, no] =>
      match args.head? with
      | none => []
      | some chooser => [⟨if chooser.isTrue then yes else no, args, trace⟩]
  | _ =>
      if 3 ≤ children.length ∧ children.length % 2 = 1 then casesVisits evaluate args children trace
      else []

def loopVisits (body : NodeId) (pass : List Value → Run (List Value)) : Nat → List Value → Trace → List Visit
  | remaining, values, trace =>
      if (values.head?.map Value.isTrue).getD false then
        match remaining with
        | 0 => []
        | remaining + 1 => ⟨body, values, trace⟩ :: following (pass values trace) (loopVisits body pass remaining)
      else []

def iterateVisits (self : Interpreter) (evaluate : Evaluator) (id : NodeId) (children : List NodeId)
    (args : List Value) (trace : Trace) : List Visit :=
  match children with
  | [] => []
  | body :: _ =>
      match self.m.node body with
      | .error _ => []
      | .ok graph =>
          loopVisits body (pass evaluate id body ((resultInputs graph).map (·.1))) self.limits.iterations args trace

def callVisits (args : List Value) (trace : Trace) : List Visit :=
  match args with
  | .function target :: args => [⟨target, args, trace⟩]
  | _ => []

def Firing.visits (self : Interpreter) (evaluate : Evaluator) (firing : Firing) : List Visit :=
  match firing.node.opcode with
  | .ifThenElse => conditionalVisits evaluate firing.node.children firing.inputs firing.trace
  | .iterate => self.iterateVisits evaluate firing.id firing.node.children firing.inputs firing.trace
  | .call => callVisits firing.inputs firing.trace
  | _ => []

/-! ### Loops -/

def Goes (values : List Value) : Prop :=
  (values.head?.map Value.isTrue).getD false = true

section Turns
variable {σ : Type} {id : NodeId} {limit : Nat} {pass : List Value → RunOn σ (List Value)} {remaining : Nat}
  {values : List Value}

theorem loop_stop (stops : ¬ Goes values) : loop id limit pass remaining values = pure values := by
  rw [loop.eq_def]
  exact if_neg stops

theorem loop_limit (goes : Goes values) : loop id limit pass 0 values = throw (.iterationLimit id limit) := by
  rw [loop.eq_def]
  exact if_pos goes

theorem loop_next (goes : Goes values) :
    loop id limit pass (remaining + 1) values = pass values >>= loop id limit pass remaining := by
  rw [loop.eq_def]
  exact if_pos goes

end Turns

section Loop
variable {id body : NodeId} {limit : Nat} {pass : List Value → Run (List Value)} {remaining : Nat}
  {values : List Value} {trace : Trace}

theorem loop_visits_stop (stops : ¬ Goes values) : loopVisits body pass remaining values trace = [] := by
  rw [loopVisits.eq_def]
  exact if_neg stops

theorem loop_visits_limit : loopVisits body pass 0 values trace = [] := by
  rw [loopVisits.eq_def]
  exact ite_self _

theorem loop_visits_next (goes : Goes values) : loopVisits body pass (remaining + 1) values trace =
    ⟨body, values, trace⟩ :: following (pass values trace) (loopVisits body pass remaining) := by
  rw [loopVisits.eq_def]
  exact if_pos goes

-- A limit that is not reached makes no difference.
theorem loop_same {most enough : Nat} (other : List Value → Run (List Value))
    (ended : ∀ after, loop id limit pass remaining values trace ≠ .error (.iterationLimit id limit) after)
    (few : (loopVisits body pass remaining values trace).length ≤ enough)
    (agree : ∀ visit ∈ loopVisits body pass remaining values trace,
      other visit.args visit.trace = pass visit.args visit.trace) :
    loop id most other enough values trace = loop id limit pass remaining values trace ∧
      loopVisits body other enough values trace = loopVisits body pass remaining values trace := by
  induction remaining generalizing enough values trace with
  | zero =>
      by_cases goes : Goes values
      · rw [loop_limit goes] at ended
        exact absurd rfl (ended trace)
      · rw [loop_stop goes, loop_stop goes, loop_visits_stop goes, loop_visits_stop goes]
        exact ⟨rfl, rfl⟩
  | succ remaining ih =>
      by_cases goes : Goes values
      · rw [loop_next goes, bind_run] at ended
        rw [loop_visits_next goes] at few agree
        rw [List.length_cons] at few
        obtain ⟨fewer, rfl⟩ : ∃ fewer, enough = fewer + 1 := ⟨enough - 1, by omega⟩
        have here : other values trace = pass values trace := agree _ List.mem_cons_self
        rw [loop_next goes, loop_next goes, loop_visits_next goes, loop_visits_next goes, bind_run, bind_run, here]
        cases step : pass values trace with
        | error error left => exact ⟨rfl, rfl⟩
        | ok next left =>
            rw [step] at ended few agree
            obtain ⟨same, visits⟩ := ih ended (Nat.le_of_succ_le_succ few)
              fun visit member => agree visit (List.mem_cons_of_mem _ member)
            exact ⟨same, congrArg (List.cons _) visits⟩
      · rw [loop_stop goes, loop_stop goes, loop_visits_stop goes, loop_visits_stop goes]
        exact ⟨rfl, rfl⟩

theorem mem_loop_visits {visit : Visit} (member : visit ∈ loopVisits body pass (remaining + 1) values trace) :
    Goes values ∧ (visit = ⟨body, values, trace⟩ ∨ ∃ next left, pass values trace = .ok next left ∧
      visit ∈ loopVisits body pass remaining next left) := by
  by_cases goes : Goes values
  · rw [loop_visits_next goes] at member
    refine ⟨goes, ?_⟩
    rcases List.mem_cons.mp member with here | later
    · exact .inl here
    · cases step : pass values trace with
      | error error left =>
          rw [step] at later
          cases later
      | ok next left =>
          rw [step] at later
          exact .inr ⟨next, left, rfl, later⟩
  · rw [loop_visits_stop goes] at member
    cases member

theorem body_of_loop_visits {visit : Visit} (member : visit ∈ loopVisits body pass remaining values trace) :
    visit.graph = body := by
  induction remaining generalizing values trace with
  | zero =>
      rw [loop_visits_limit] at member
      cases member
  | succ remaining ih =>
      obtain ⟨_, rfl | ⟨next, left, _, later⟩⟩ := mem_loop_visits member
      · rfl
      · exact ih later

theorem length_loop_visits : (loopVisits body pass remaining values trace).length ≤ remaining := by
  induction remaining generalizing values trace with
  | zero =>
      rw [loop_visits_limit]
      exact Nat.le_refl 0
  | succ remaining ih =>
      by_cases goes : Goes values
      · rw [loop_visits_next goes, List.length_cons]
        refine Nat.succ_le_succ ?_
        cases pass values trace with
        | error error left => exact Nat.zero_le remaining
        | ok next left => exact ih
      · rw [loop_visits_stop goes]
        exact Nat.zero_le _

end Loop

/-! ### What visits say of an evaluation -/

-- What may hold of an evaluation beside the graphs that it asks for. Where it holds of graphs, and of whatever
-- is put together, it holds of nodes.
structure Visiting where
  holds : {α : Type} → (Evaluator → Run α) → (Evaluator → Trace → List Visit) → Prop
  visit : ∀ graph args, holds (fun evaluate => evaluate graph args) fun _ trace => [⟨graph, args, trace⟩]
  still : ∀ {α : Type} (outcome : Except RunError α), holds (fun _ => ofExcept outcome) fun _ _ => []
  bind : ∀ {α β : Type} {first : Evaluator → Run α} {next : α → Evaluator → Run β}
    {here : Evaluator → Trace → List Visit} {later : α → Evaluator → Trace → List Visit},
    holds first here → (∀ value, holds (next value) (later value)) →
    holds (fun evaluate => first evaluate >>= fun value => next value evaluate) fun evaluate trace =>
      here evaluate trace ++ following (first evaluate trace) fun value => later value evaluate

section Visiting
variable (kind : Visiting)

theorem visiting_cases (id : NodeId) (args : List Value) : (graphs : List NodeId) →
    kind.holds (fun evaluate => cases evaluate id args graphs) fun evaluate => casesVisits evaluate args graphs
  | [] => kind.still (.error _)
  | [otherwise] => kind.visit otherwise args
  | test :: body :: rest => by
      refine kind.bind (kind.visit test args) fun outcome => ?_
      cases outcome.head? with
      | none => exact kind.still (.error _)
      | some taken =>
          dsimp only
          cases taken.isTrue with
          | true => exact kind.visit body args
          | false => exact visiting_cases id args rest

theorem visiting_conditional (id : NodeId) (children : List NodeId) (args : List Value) :
    kind.holds (fun evaluate => conditional evaluate id children args) fun evaluate =>
      conditionalVisits evaluate children args := by
  have many : kind.holds (fun evaluate => if 3 ≤ children.length ∧ children.length % 2 = 1 then
      cases evaluate id args children else throw (.invalidCompound id (.branches children.length)))
      fun evaluate trace => if 3 ≤ children.length ∧ children.length % 2 = 1 then
        casesVisits evaluate args children trace else [] := by
    by_cases odd : 3 ≤ children.length ∧ children.length % 2 = 1
    · simp only [if_pos odd]
      exact visiting_cases kind id args children
    · simp only [if_neg odd]
      exact kind.still (.error _)
  rcases children with _ | ⟨first, _ | ⟨second, _ | ⟨third, rest⟩⟩⟩
  · exact many
  · exact many
  · unfold conditional conditionalVisits
    cases args.head? with
    | none => exact kind.still (.error _)
    | some chooser => exact kind.visit _ args
  · exact many

theorem visiting_call (id : NodeId) (args : List Value) :
    kind.holds (fun evaluate => call evaluate id args) fun _ => callVisits args := by
  cases args with
  | nil => exact kind.still (.error _)
  | cons value args =>
      cases value with
      | function target => exact kind.visit target args
      | _ => exact kind.still (.error _)

theorem visiting_pass (id body : NodeId) (ports : List Nat) (values : List Value) :
    kind.holds (fun evaluate => pass evaluate id body ports values) fun _ trace => [⟨body, values, trace⟩] := by
  have whole := kind.bind (kind.visit body values) fun results =>
    kind.still ((ports.zip results).foldlM (carry id) values)
  have visits : ∀ (evaluate : Evaluator) (trace : Trace), [(⟨body, values, trace⟩ : Visit)] ++
      following (evaluate body values trace) (fun _ _ => []) = [⟨body, values, trace⟩] := by
    intro evaluate trace
    cases evaluate body values trace <;> rfl
  simp only [visits] at whole
  exact whole

theorem visiting_loop {id body : NodeId} {limit : Nat} {pass : Evaluator → List Value → Run (List Value)}
    (each : ∀ values, kind.holds (fun evaluate => pass evaluate values) fun _ trace => [⟨body, values, trace⟩])
    (remaining : Nat) (values : List Value) : kind.holds (fun evaluate => loop id limit (pass evaluate) remaining values)
      fun evaluate => loopVisits body (pass evaluate) remaining values := by
  induction remaining generalizing values with
  | zero =>
      have none : (fun evaluate => loopVisits body (pass evaluate) 0 values) = fun _ _ => [] :=
        funext fun _ => funext fun _ => loop_visits_limit
      rw [none]
      by_cases goes : Goes values
      · simp only [loop_limit goes]
        exact kind.still (.error _)
      · simp only [loop_stop goes]
        exact kind.still (.ok values)
  | succ remaining ih =>
      by_cases goes : Goes values
      · have next : (fun evaluate => loopVisits body (pass evaluate) (remaining + 1) values) = fun evaluate trace =>
            ⟨body, values, trace⟩ :: following (pass evaluate values trace) (loopVisits body (pass evaluate) remaining) :=
          funext fun _ => funext fun _ => loop_visits_next goes
        rw [next]
        simp only [loop_next goes]
        exact kind.bind (each values) ih
      · have none : (fun evaluate => loopVisits body (pass evaluate) (remaining + 1) values) = fun _ _ => [] :=
          funext fun _ => funext fun _ => loop_visits_stop goes
        rw [none]
        simp only [loop_stop goes]
        exact kind.still (.ok values)

theorem visiting_iterate (self : Interpreter) (id : NodeId) (children : List NodeId) (args : List Value) :
    kind.holds (fun evaluate => self.iterate evaluate id children args) fun evaluate =>
      self.iterateVisits evaluate id children args := by
  unfold iterate iterateVisits
  cases children with
  | nil => exact kind.still (.error _)
  | cons body rest =>
      dsimp only
      cases self.m.node body with
      | error error => exact kind.still (.error (.refused error))
      | ok graph =>
          simp only [bind_find_ok rfl]
          exact visiting_loop kind (fun values => visiting_pass kind id body _ values) _ args

theorem visiting_outputs (self : Interpreter) (id : NodeId) (node : Node) (inputs : List Value) :
    kind.holds (fun evaluate => self.outputs evaluate id node inputs) fun evaluate trace =>
      Firing.visits self evaluate ⟨id, node, inputs, trace⟩ := by
  unfold Firing.visits outputs
  dsimp only
  cases node.opcode with
  | ifThenElse => exact visiting_conditional kind id node.children inputs
  | call => exact visiting_call kind id inputs
  | iterate => exact visiting_iterate kind self id node.children inputs
  | noOp => exact kind.still (.ok inputs)
  | _ => exact kind.still _

end Visiting

/-! ### Visits decide -/

structure Observed {α : Type} (run : Evaluator → Run α) (visits : Evaluator → Trace → List Visit) : Prop where
  same : ∀ {evaluate other : Evaluator} {trace : Trace},
    (∀ visit ∈ visits evaluate trace, visit.ending other = visit.ending evaluate) →
      run other trace = run evaluate trace ∧ visits other trace = visits evaluate trace
  fails : ∀ {evaluate : Evaluator} {trace after : Trace} {visit : Visit} {error : RunError},
    visit ∈ visits evaluate trace → visit.ending evaluate = .error error after →
      run evaluate trace = .error error after

section Observed
variable {α β : Type}

theorem observed_visit (graph : NodeId) (args : List Value) :
    Observed (fun evaluate => evaluate graph args) fun _ trace => [⟨graph, args, trace⟩] := by
  refine ⟨fun agree => ⟨agree _ List.mem_cons_self, rfl⟩, fun member failed => ?_⟩
  rw [List.mem_singleton.mp member] at failed
  exact failed

theorem observed_still (run : Run α) : Observed (fun _ => run) fun _ _ => [] :=
  ⟨fun _ => ⟨rfl, rfl⟩, fun member => by cases member⟩

theorem observed_bind {first : Evaluator → Run α} {next : α → Evaluator → Run β}
    {here : Evaluator → Trace → List Visit} {later : α → Evaluator → Trace → List Visit}
    (before : Observed first here) (after : ∀ value, Observed (next value) (later value)) :
    Observed (fun evaluate => first evaluate >>= fun value => next value evaluate) fun evaluate trace =>
      here evaluate trace ++ following (first evaluate trace) fun value => later value evaluate := by
  refine ⟨?_, ?_⟩
  · intro evaluate other trace agree
    obtain ⟨same, visits⟩ := before.same fun visit member => agree visit (List.mem_append_left _ member)
    rw [bind_run, bind_run, same, visits]
    cases step : first evaluate trace with
    | error error left => exact ⟨rfl, rfl⟩
    | ok value left =>
        obtain ⟨sameToo, visitsToo⟩ := (after value).same fun visit member =>
          agree visit (List.mem_append_right _ (by rw [step]; exact member))
        exact ⟨sameToo, congrArg (here evaluate trace ++ ·) visitsToo⟩
  · intro evaluate trace left visit error member failed
    rcases List.mem_append.mp member with member | member
    · exact bind_run_error (before.fails member failed)
    · cases step : first evaluate trace with
      | error error left =>
          rw [step] at member
          cases member
      | ok value middle =>
          rw [step] at member
          exact (bind_run_ok step).trans ((after value).fails member failed)

def deciding : Visiting where
  holds := Observed
  visit := observed_visit
  still outcome := observed_still (ofExcept outcome)
  bind := observed_bind

end Observed

/-! ### Firings -/

def withLimits (self : Interpreter) (limits : Limits) : Interpreter :=
  { self with limits := limits }

theorem isolated_inputs_of_module (self other : Interpreter) (same : other.m = self.m) (id : NodeId)
    (inputs : List (Nat × Input)) (args : List Value) :
    other.isolatedInputs id inputs args = self.isolatedInputs id inputs args := by
  induction inputs generalizing args with
  | nil => rfl
  | cons entry rest ih =>
      unfold isolatedInputs
      simp only [same, ih]

-- A loop without a body fails before it asks for anything.
theorem iterate_cases (m : Module) (id : NodeId) (children : List NodeId) (args : List Value) :
    (∃ error, ∀ self : Interpreter, self.m = m → ∀ evaluate trace,
      self.iterate evaluate id children args trace = .error error trace ∧
        self.iterateVisits evaluate id children args trace = []) ∨
      ∃ body graph, m.node body = .ok graph ∧ children.head? = some body ∧
        ∀ self : Interpreter, self.m = m → ∀ evaluate trace,
          self.iterate evaluate id children args trace =
              loop id self.limits.iterations (pass evaluate id body ((resultInputs graph).map (·.1)))
                self.limits.iterations args trace ∧
            self.iterateVisits evaluate id children args trace =
              loopVisits body (pass evaluate id body ((resultInputs graph).map (·.1))) self.limits.iterations
                args trace := by
  cases children with
  | nil => exact .inl ⟨_, fun _ _ _ _ => ⟨rfl, rfl⟩⟩
  | cons body rest =>
      cases found : m.node body with
      | error error =>
          refine .inl ⟨.refused error, fun self same evaluate trace => ?_⟩
          unfold iterate iterateVisits
          simp only [same, found]
          exact ⟨rfl, trivial⟩
      | ok graph =>
          refine .inr ⟨body, graph, found, rfl, fun self same evaluate trace => ?_⟩
          unfold iterate iterateVisits
          simp only [same, found]
          exact ⟨rfl, trivial⟩

section Firing
variable {self : Interpreter} {evaluate : Evaluator} {firing : Firing}

theorem firing_fails {visit : Visit} {error : RunError} {after : Trace}
    (member : visit ∈ firing.visits self evaluate) (failed : visit.ending evaluate = .error error after) :
    firing.ending self evaluate = .error error after := by
  have observed : Observed _ _ := visiting_outputs deciding self firing.id firing.node firing.inputs
  exact observed.fails member failed

def isLimit : RunError → Bool
  | .iterationLimit _ _ | .recursionLimit _ _ => true
  | _ => false

def Limited {α : Type} : Ending α → Prop
  | .ok _ _ => False
  | .error error _ => isLimit error = true

instance {α : Type} : (ending : Ending α) → Decidable (Limited ending)
  | .ok _ _ => inferInstanceAs (Decidable False)
  | .error error _ => inferInstanceAs (Decidable (isLimit error = true))

-- How often the node runs the body of a loop.
def Firing.passes (self : Interpreter) (evaluate : Evaluator) (firing : Firing) : Nat :=
  if firing.node.opcode = .iterate then (firing.visits self evaluate).length else 0

theorem firing_same {limits : Limits} {other : Evaluator} (ended : ¬ Limited (firing.ending self evaluate))
    (few : firing.passes self evaluate ≤ limits.iterations)
    (agree : ∀ visit ∈ firing.visits self evaluate, visit.ending other = visit.ending evaluate) :
    firing.ending (self.withLimits limits) other = firing.ending self evaluate ∧
      firing.visits (self.withLimits limits) other = firing.visits self evaluate := by
  unfold Firing.passes at few
  unfold Firing.ending Firing.visits outputs at *
  cases op : firing.node.opcode with
  | ifThenElse =>
      rw [op] at agree
      exact Observed.same (visiting_conditional deciding firing.id firing.node.children firing.inputs) agree
  | call =>
      rw [op] at agree
      exact Observed.same (visiting_call deciding firing.id firing.inputs) agree
  | iterate =>
      rw [op] at ended few agree
      rw [if_pos rfl] at few
      dsimp only at ended few agree ⊢
      rcases iterate_cases self.m firing.id firing.node.children firing.inputs with
        ⟨error, none⟩ | ⟨body, graph, _, _, run⟩
      · have here := none self rfl evaluate firing.trace
        have there := none (self.withLimits limits) rfl other firing.trace
        exact ⟨there.1.trans here.1.symm, there.2.trans here.2.symm⟩
      · have here := run self rfl evaluate firing.trace
        have there := run (self.withLimits limits) rfl other firing.trace
        rw [here.1] at ended
        rw [here.2] at few agree
        obtain ⟨same, visits⟩ := loop_same
          (pass other firing.id body ((resultInputs graph).map (·.1)))
          (fun after limited => ended (by rw [limited]; rfl)) few fun visit member => by
            refine (Observed.same (visiting_pass deciding firing.id body _ visit.args) fun inner only => ?_).1
            rw [List.mem_singleton.mp only, ← body_of_loop_visits member]
            exact agree visit member
        exact ⟨there.1.trans (same.trans here.1.symm), there.2.trans (visits.trans here.2.symm)⟩
  | _ => exact ⟨rfl, rfl⟩

end Firing

end Dataflow.Interpreter
