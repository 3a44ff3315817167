import Dataflow.Interpreter.Literal
import Dataflow.Operation
set_option autoImplicit false

/- Evaluation of graphs. The nodes of a graph run in the order of their labels. Values belong to
ports by their place: the first value to port 1, and so on; values without a port are dropped. -/
namespace Dataflow

abbrev Operations := NodeId → Opcode → List Value → Except RunError (List Value)

def Operations.standard : Operations := fun node op args =>
  match Operation.evaluate op args with
  | .ok value => .ok [value]
  | .error fault => .error (.operation node fault)

structure TraceEntry where
  node : NodeId
  opcode : Opcode
  inputs : List Value
  outputs : List Value

structure Limits where
  /-- How many evaluations of graphs may be open at a time. -/
  depth : Nat := 256
  iterations : Nat := 1000000
deriving DecidableEq

structure Interpreter where
  m : Module
  limits : Limits := {}
  traced : Bool := false
  operations : Operations := .standard

namespace Interpreter

class Recorder (σ : Type) where
  push : σ → TraceEntry → σ

instance : Recorder (Array TraceEntry) := ⟨Array.push⟩

/-- An evaluation adds to what is kept, also where it fails in the end. -/
abbrev RunOn (σ α : Type) := EStateM RunError σ α

abbrev Run (α : Type) := RunOn (Array TraceEntry) α

abbrev EvaluatorOn (σ : Type) := NodeId → List Value → RunOn σ (List Value)

abbrev Evaluator := EvaluatorOn (Array TraceEntry)

section
variable {σ : Type}

def ofExcept {α : Type} : Except RunError α → RunOn σ α
  | .ok value => pure value
  | .error error => throw error

def find {α : Type} : Except Error α → RunOn σ α
  | .ok value => pure value
  | .error error => throw (.refused error)

end

/-- The values at the output ports of a graph and of its nodes so far, the latest first. -/
abbrev Frame := List (NodeId × List Value)

def Frame.value? (frame : Frame) (outlet : Outlet) : Option Value := do
  let values ← frame.lookup outlet.node
  if outlet.port = 0 then none else values[outlet.port - 1]?

def inputValue (self : Interpreter) (frame : Frame) (inlet : Inlet) (input : Input) :
    Except RunError Value :=
  match input.binding with
  | some (.literal literal) => literalValue self.m inlet literal
  | some (.wire source _) =>
      match frame.value? source with
      | some value => .ok value
      | none => .error (.missingValue inlet)
  | none => .error (.missingValue inlet)

def inputValues (self : Interpreter) (frame : Frame) (id : NodeId) (node : Node) :
    Except RunError (List Value) :=
  node.inputs.entries.mapM fun (port, input) => self.inputValue frame ⟨id, port⟩ input

def resultInputs (graph : Node) : List (Nat × Input) :=
  graph.inputs.entries.filter (·.2.binding.isSome)

def results (self : Interpreter) (frame : Frame) (id : NodeId) (graph : Node) :
    Except RunError (List Value) :=
  (resultInputs graph).mapM fun (port, input) => self.inputValue frame ⟨id, port⟩ input

def checkOutputs (id : NodeId) (node : Node) (outputs : List Value) : Except RunError Unit :=
  if node.maxOutput ≤ outputs.length then .ok ()
  else .error (.operation id (.arity node.maxOutput outputs.length))

def record {σ : Type} [Recorder σ] (self : Interpreter) (entry : TraceEntry) : RunOn σ Unit :=
  if self.traced then modify (Recorder.push · entry) else pure ()

section
variable {σ : Type}

/-- Tests and bodies in turn: the body after the first test that holds is chosen, or the last graph
if none does. -/
def cases (evaluate : EvaluatorOn σ) (id : NodeId) (args : List Value) :
    List NodeId → RunOn σ (List Value)
  | [] => throw (.invalidCompound id (.branches 0))
  | [otherwise] => evaluate otherwise args
  | test :: body :: rest => do
      let outcome ← evaluate test args
      match outcome.head? with
      | none => throw (.invalidCompound id (.emptyTest test))
      | some taken => if taken.isTrue then evaluate body args else cases evaluate id args rest

/-- With two child graphs the first input chooses; more of them are cases. -/
def conditional (evaluate : EvaluatorOn σ) (id : NodeId) (children : List NodeId)
    (args : List Value) : RunOn σ (List Value) :=
  match children with
  | [yes, no] =>
      match args.head? with
      | none => throw (.operation id (.arity 1 0))
      | some chooser => evaluate (if chooser.isTrue then yes else no) args
  | _ =>
      if 3 ≤ children.length ∧ children.length % 2 = 1 then cases evaluate id args children
      else throw (.invalidCompound id (.branches children.length))

def carry (id : NodeId) (values : List Value) (result : Nat × Value) :
    Except RunError (List Value) :=
  if 1 ≤ result.1 ∧ result.1 ≤ values.length then .ok (values.set (result.1 - 1) result.2)
  else .error (.invalidCompound id (.noCarriedValue result.1))

def pass (evaluate : EvaluatorOn σ) (id body : NodeId) (ports : List Nat) (values : List Value) :
    RunOn σ (List Value) := do
  let results ← evaluate body values
  ofExcept ((ports.zip results).foldlM (carry id) values)

def loop (id : NodeId) (limit : Nat) (pass : List Value → RunOn σ (List Value)) :
    Nat → List Value → RunOn σ (List Value)
  | remaining, values =>
      if (values.head?.map Value.isTrue).getD false then
        match remaining with
        | 0 => throw (.iterationLimit id limit)
        | remaining + 1 => do
            let next ← pass values
            loop id limit pass remaining next
      else pure values

def iterate (self : Interpreter) (evaluate : EvaluatorOn σ) (id : NodeId) (children : List NodeId)
    (args : List Value) : RunOn σ (List Value) :=
  match children with
  | [] => throw (.invalidCompound id .noBody)
  | body :: _ => do
      let graph ← find (self.m.node body)
      let ports := (resultInputs graph).map (·.1)
      let limit := self.limits.iterations
      loop id limit (pass evaluate id body ports) limit args

def call (evaluate : EvaluatorOn σ) (id : NodeId) : List Value → RunOn σ (List Value)
  | .function target :: args => evaluate target args
  | value :: _ => throw (.operation id (.mismatch "function" value.typeName))
  | [] => throw (.operation id (.arity 1 0))

def outputs (self : Interpreter) (evaluate : EvaluatorOn σ) (id : NodeId) (node : Node)
    (inputs : List Value) : RunOn σ (List Value) :=
  match node.opcode with
  | .ifThenElse => conditional evaluate id node.children inputs
  | .iterate => self.iterate evaluate id node.children inputs
  | .call => call evaluate id inputs
  | .noOp => pure inputs
  | op => ofExcept (self.operations id op inputs)

variable [Recorder σ]

/-- Evaluates a node on given inputs. Its entry follows those of everything inside of it. -/
def evalNode (self : Interpreter) (evaluate : EvaluatorOn σ) (id : NodeId) (inputs : List Value) :
    RunOn σ (List Value) := do
  let node ← find (self.m.node id)
  let outputs ← self.outputs evaluate id node inputs
  self.record ⟨id, node.opcode, inputs, outputs⟩
  ofExcept (checkOutputs id node outputs)
  pure outputs

def step (self : Interpreter) (evaluate : EvaluatorOn σ) (frame : Frame) (id : NodeId) :
    RunOn σ Frame := do
  let node ← find (self.m.node id)
  let inputs ← ofExcept (self.inputValues frame id node)
  let outputs ← self.evalNode evaluate id inputs
  pure ((id, outputs) :: frame)

/-- A graph needs a value for every declared port; a function takes no more than that. -/
def checkArguments (id : NodeId) (graph : Node) (args : List Value) : Except RunError Unit :=
  let expected := graph.maxOutput
  if args.length < expected ∨ (graph.isFunction ∧ args.length ≠ expected) then
    .error (.operation id (.arity expected args.length))
  else .ok ()

def runGraph (self : Interpreter) (evaluate : EvaluatorOn σ) (id : NodeId) (args : List Value) :
    RunOn σ (List Value) := do
  let graph ← find (self.m.graph id)
  ofExcept (checkArguments id graph args)
  let frame ← graph.nodes.foldlM (self.step evaluate) [(id, args)]
  ofExcept (self.results frame id graph)

end

def evalGraph (self : Interpreter) : Nat → Evaluator
  | 0, id, _ => throw (.recursionLimit id self.limits.depth)
  | depth + 1, id, args => self.runGraph (self.evalGraph depth) id args

def evaluator (self : Interpreter) : Evaluator :=
  self.evalGraph self.limits.depth

/-- The inputs of a node on its own: literals keep their values, and every other port takes the
next argument. The second part is the arguments that are left. -/
def isolatedInputs (self : Interpreter) (id : NodeId) :
    List (Nat × Input) → List Value → Except RunError (List Value × List Value)
  | [], args => .ok ([], args)
  | (port, input) :: rest, args =>
      match input.literal?, args with
      | some literal, args => do
          let value ← literalValue self.m ⟨id, port⟩ literal
          let (values, left) ← self.isolatedInputs id rest args
          pure (value :: values, left)
      | none, [] => .error (.unsetInputs id)
      | none, arg :: args => do
          let (values, left) ← self.isolatedInputs id rest args
          pure (arg :: values, left)

inductive Call where
  | graph (id : NodeId) (args : List Value)
  /-- The latest function of a name. -/
  | function (name : String) (args : List Value)
  | node (id : NodeId) (args : List Value)

section
variable {σ : Type} [Recorder σ]

def runNode (self : Interpreter) (evaluate : EvaluatorOn σ) (id : NodeId) (args : List Value) :
    RunOn σ (List Value) := do
  let node ← find (self.m.node id)
  if node.isGraph then evaluate id args
  else
    let (inputs, left) ← ofExcept (self.isolatedInputs id node.inputs.entries args)
    if !left.isEmpty then throw (.unusedInputs id)
    self.evalNode evaluate id inputs

def respond (self : Interpreter) (evaluate : EvaluatorOn σ) : Call → RunOn σ (List Value)
  | .graph id args => evaluate id args
  | .function name args =>
      match self.m.function? name with
      | some id => evaluate id args
      | none => throw (.functionNotFound name)
  | .node id args => self.runNode evaluate id args

end

def run (self : Interpreter) : Call → Run (List Value) :=
  self.respond self.evaluator

structure Session where
  opened : Nat := 0
  trace : Array TraceEntry := #[]

instance : Recorder Session where
  push session entry := { session with trace := session.trace.push entry }

/-- Evaluates a graph unless too many evaluations are open. This one is open until it ends, also
where it fails. Every step opens one, so the steps do not run out before the limit is reached. -/
def interpret (self : Interpreter) : Nat → EvaluatorOn Session
  | 0, id, _ => throw (.recursionLimit id self.limits.depth)
  | steps + 1, id, args => do
      if self.limits.depth ≤ (← get).opened then throw (.recursionLimit id self.limits.depth)
      else
        modify fun session => { session with opened := session.opened + 1 }
        let outcome ← observing (self.runGraph (self.interpret steps) id args)
        modify fun session => { session with opened := session.opened - 1 }
        ofExcept outcome

def perform (self : Interpreter) : Call → RunOn Session (List Value) :=
  self.respond (self.interpret (self.limits.depth + 1))

abbrev Answer := Except RunError (List Value)

def answer (self : Interpreter) (session : Session) (call : Call) : Answer × Session :=
  match self.perform call session with
  | .ok values session => (.ok values, session)
  | .error error session => (.error error, session)

def proceed (self : Interpreter) (done : Array Answer × Session) (call : Call) :
    Array Answer × Session :=
  let (answer, session) := self.answer done.2 call
  (done.1.push answer, session)

def serve (self : Interpreter) (calls : List Call) : Array Answer × Session :=
  calls.foldl self.proceed (#[], {})

def answers (self : Interpreter) (calls : List Call) : Array Answer × Array TraceEntry :=
  let (answers, session) := self.serve calls
  (answers, session.trace)

end Interpreter

end Dataflow
