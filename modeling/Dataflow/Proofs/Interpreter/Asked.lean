import Dataflow.Proofs.Interpreter.Lockstep
set_option autoImplicit false

-- What the operation of a node asks for. An evaluator that also lists what it is asked for ends as it does
-- without the list, so the list says which graphs are evaluated, on what, and in which order.
namespace Dataflow.Interpreter

-- A graph and its arguments.
abbrev Question := NodeId × List Value

structure Asked (σ : Type) where
  state : σ
  questions : List Question

section
variable {σ α β : Type}

def noted (questions : List Question) : EStateM.Result RunError σ α → EStateM.Result RunError (Asked σ) α
  | .ok value state => .ok value ⟨state, questions⟩
  | .error error state => .error error ⟨state, questions⟩

def asking (evaluate : EvaluatorOn σ) : EvaluatorOn (Asked σ) := fun graph args before =>
  noted (before.questions ++ [(graph, args)]) (evaluate graph args before.state)

-- An operation that ends like this, after asking for exactly these evaluations in turn.
structure Ends (here : Interpreter) (evaluate : EvaluatorOn σ) (id : NodeId) (node : Node) (args : List Value)
    (state : σ) (questions : List Question) (ending : EStateM.Result RunError σ (List Value)) : Prop where
  result : here.outputs evaluate id node args state = ending
  asked : here.outputs (asking evaluate) id node args ⟨state, []⟩ = noted questions ending

-- What a node answers when its operation ends like this. Results that do not cover its ports are refused.
def Answers [Recorder σ] (here : Interpreter) (evaluate : EvaluatorOn σ) (id : NodeId) (node : Node) (args : List Value)
    (state : σ) : EStateM.Result RunError σ (List Value) → Prop
  | .error error left => here.evalNode evaluate id args state = .error error left
  | .ok outputs _ => ∃ final, here.evalNode evaluate id args state =
      if node.maxOutput ≤ outputs.length then .ok outputs final
      else .error (.operation id (.arity node.maxOutput outputs.length)) final

theorem noted_inj {questions others : List Question} {ending other : EStateM.Result RunError σ α}
    (same : noted questions ending = noted others other) : questions = others ∧ ending = other := by
  cases ending <;> cases other <;> cases same <;> exact ⟨rfl, rfl⟩

theorem noted_exists (ending : EStateM.Result RunError (Asked σ) α) :
    ∃ questions bare, ending = noted questions bare := by
  cases ending with
  | ok value after => exact ⟨after.questions, .ok value after.state, rfl⟩
  | error error after => exact ⟨after.questions, .error error after.state, rfl⟩

end

section
variable {σ : Type} {self : Interpreter} {evaluate : EvaluatorOn σ} {id : NodeId} {node : Node} {args : List Value}
  {state : σ} {questions others : List Question} {ending other : EStateM.Result RunError σ (List Value)}

theorem lockstep_asking (evaluate : EvaluatorOn σ) (graph : NodeId) (args : List Value) :
    Lockstep (fun (asked : Asked σ) state => asked.state = state) (asking evaluate graph args)
      (evaluate graph args) := by
  rintro asked state rfl
  unfold asking
  cases evaluate graph args asked.state <;> exact ⟨rfl, rfl⟩

theorem asking_ok {graph : NodeId} {results : List Value} {left : σ} (questions : List Question)
    (turn : evaluate graph args state = .ok results left) :
    asking evaluate graph args ⟨state, questions⟩ = .ok results ⟨left, questions ++ [(graph, args)]⟩ := by
  unfold asking
  rw [turn]
  rfl

theorem asking_error {graph : NodeId} {error : RunError} {left : σ} (questions : List Question)
    (turn : evaluate graph args state = .error error left) :
    asking evaluate graph args ⟨state, questions⟩ = .error error ⟨left, questions ++ [(graph, args)]⟩ := by
  unfold asking
  rw [turn]
  rfl

theorem asking_inv {graph : NodeId} {results : List Value} {before after : Asked σ}
    (done : asking evaluate graph args before = .ok results after) :
    evaluate graph args before.state = .ok results after.state := by
  unfold asking at done
  cases turn : evaluate graph args before.state with
  | ok found left =>
      rw [turn] at done
      cases done
      rfl
  | error error left =>
      rw [turn] at done
      cases done

theorem ends_of_asked (asked : self.outputs (asking evaluate) id node args ⟨state, []⟩ = noted questions ending) :
    self.Ends evaluate id node args state questions ending := by
  refine ⟨?_, asked⟩
  have same := lockstep_outputs self self.traced (lockstep_asking evaluate) id node args
    (show (Asked.mk state []).state = state from rfl)
  change Ended _ _ _ (self.outputs evaluate id node args state) at same
  rw [asked] at same
  revert same
  cases ending <;> cases self.outputs evaluate id node args state
  · rintro ⟨rfl, rfl⟩
    rfl
  · exact False.elim
  · exact False.elim
  · rintro ⟨rfl, rfl⟩
    rfl

theorem ends_exists (self : Interpreter) (evaluate : EvaluatorOn σ) (id : NodeId) (node : Node) (args : List Value)
    (state : σ) : ∃ questions ending, self.Ends evaluate id node args state questions ending := by
  obtain ⟨questions, ending, asked⟩ := noted_exists (self.outputs (asking evaluate) id node args ⟨state, []⟩)
  exact ⟨questions, ending, ends_of_asked asked⟩

theorem answers_of_ends [Recorder σ] (known : self.m.node id = .ok node)
    (ends : self.Ends evaluate id node args state questions ending) : self.Answers evaluate id node args state ending := by
  cases ending with
  | ok outputs left => exact eval_node_of_outputs known ends.result
  | error error left =>
      unfold Answers evalNode
      rw [bind_find_ok known]
      exact bind_run_error ends.result

theorem Ends.unique (here : self.Ends evaluate id node args state questions ending)
    (there : self.Ends evaluate id node args state others other) : questions = others ∧ ending = other :=
  noted_inj (here.asked.symm.trans there.asked)

end

end Dataflow.Interpreter
