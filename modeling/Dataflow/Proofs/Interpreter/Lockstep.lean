import Dataflow.Proofs.Interpreter.Traversal
set_option autoImplicit false

-- Two evaluations of the same thing that keep different states. They go through the same steps and end in
-- the same way, failures included, and every step keeps the relation between their states.
namespace Dataflow.Interpreter

section Sequence
variable {σ τ α β γ δ : Type}

def Ended (values : α → β → Prop) (related : σ → τ → Prop) :
    EStateM.Result RunError σ α → EStateM.Result RunError τ β → Prop
  | .ok value state, .ok other twin => values value other ∧ related state twin
  | .error error state, .error other twin => error = other ∧ related state twin
  | _, _ => False

def InStep (related : σ → τ → Prop) (values : α → β → Prop) (first : RunOn σ α) (second : RunOn τ β) : Prop :=
  ∀ ⦃state twin⦄, related state twin → Ended values related (first state) (second twin)

abbrev Lockstep (related : σ → τ → Prop) (first : RunOn σ α) (second : RunOn τ α) : Prop :=
  InStep related Eq first second

variable {related : σ → τ → Prop} {values : α → β → Prop} {results : γ → δ → Prop}

theorem InStep.mono {weaker : α → β → Prop} {first : RunOn σ α} {second : RunOn τ β}
    (here : InStep related values first second) (weak : ∀ {value twin}, values value twin → weaker value twin) :
    InStep related weaker first second := by
  intro state twin close
  have ended := here close
  revert ended
  cases first state <;> cases second twin
  · exact fun ended => ⟨weak ended.1, ended.2⟩
  all_goals exact id

theorem in_step_bind {first : RunOn σ α} {second : RunOn τ β} {next : α → RunOn σ γ} {follow : β → RunOn τ δ}
    (before : InStep related values first second)
    (later : ∀ {value twin}, values value twin → InStep related results (next value) (follow twin)) :
    InStep related results (first >>= next) (second >>= follow) := by
  intro state twin close
  have here := before close
  rw [bind_run, bind_run]
  revert here
  cases first state <;> cases second twin
  · rintro ⟨alike, still⟩
    exact later alike still
  · exact False.elim
  · exact False.elim
  · exact id

theorem lockstep_pure (value : α) : Lockstep related (pure value) (pure value) :=
  fun _ _ close => ⟨rfl, close⟩

theorem lockstep_throw (error : RunError) :
    Lockstep related (throw error : RunOn σ α) (throw error : RunOn τ α) :=
  fun _ _ close => ⟨rfl, close⟩

theorem lockstep_bind {first : RunOn σ α} {second : RunOn τ α} {next : α → RunOn σ β} {follow : α → RunOn τ β}
    (before : Lockstep related first second) (later : ∀ value, Lockstep related (next value) (follow value)) :
    Lockstep related (first >>= next) (second >>= follow) :=
  in_step_bind before fun {value twin} same => by
    subst same
    exact later value

theorem lockstep_checked (outcome : Except RunError α) :
    Lockstep related (ofExcept outcome : RunOn σ α) (ofExcept outcome : RunOn τ α) := by
  cases outcome with
  | ok value => exact lockstep_pure value
  | error error => exact lockstep_throw error

theorem lockstep_find (outcome : Except Error α) :
    Lockstep related (find outcome : RunOn σ α) (find outcome : RunOn τ α) := by
  cases outcome with
  | ok value => exact lockstep_pure value
  | error error => exact lockstep_throw (.refused error)

theorem same_of_blames {error twin : RunError} (blames : Blames id error twin) : error = twin := by
  cases blames <;> rfl

-- The ids are the same on both sides.
def lockstep (related : σ → τ → Prop) : Relating σ τ id where
  related := InStep related
  pure alike _ _ close := ⟨alike, close⟩
  throw blames _ _ close := ⟨same_of_blames blames, close⟩
  bind := in_step_bind

theorem alike_id {values twins : List Value} : Alike id values twins ↔ values = twins := by
  rw [Alike, Value.renumber_id_list, eq_comm]

theorem lockstep_of_alike {first : RunOn σ (List Value)} {second : RunOn τ (List Value)}
    (here : (lockstep related).related (Alike id) first second) : Lockstep related first second :=
  InStep.mono here alike_id.mp

theorem alike_of_lockstep {first : RunOn σ (List Value)} {second : RunOn τ (List Value)}
    (here : Lockstep related first second) : (lockstep related).related (Alike id) first second :=
  InStep.mono here alike_id.mpr

end Sequence

/-! ### Nodes -/

section Nodes
variable {σ τ : Type} {related : σ → τ → Prop} {evaluate : EvaluatorOn σ} {follow : EvaluatorOn τ}

def withTrace (self : Interpreter) (traced : Bool) : Interpreter :=
  { self with traced := traced }

theorem lockstep_conforms (self : Interpreter) (traced : Bool) :
    (lockstep related).Conforms self (self.withTrace traced) := by
  refine ⟨rfl, fun body => ?_, fun node op args => ?_⟩
  · exact InStep.mono (lockstep_find (self.m.node body)) fun same => by rw [same]
  · rw [Value.renumber_id_list]
    exact alike_of_lockstep (lockstep_checked _)

theorem lockstep_within (within : ∀ id args, Lockstep related (evaluate id args) (follow id args)) :
    (lockstep related).Within evaluate follow := by
  intro graph args
  rw [Value.renumber_id_list]
  exact alike_of_lockstep (within graph args)

theorem lockstep_outputs (self : Interpreter) (traced : Bool)
    (within : ∀ id args, Lockstep related (evaluate id args) (follow id args)) (id : NodeId) (node : Node)
    (inputs : List Value) :
    Lockstep related (self.outputs evaluate id node inputs) ((self.withTrace traced).outputs follow id node inputs) := by
  have same := related_outputs (lockstep_conforms self traced) (lockstep_within within) id rfl
    (List.map_id node.children).symm inputs
  rw [Value.renumber_id_list] at same
  exact lockstep_of_alike same

end Nodes

/-! ### Graphs and calls -/

section Graphs
variable {σ τ : Type} [Recorder σ] [Recorder τ] {related : σ → τ → Prop} {self : Interpreter} {traced : Bool}
  {evaluate : EvaluatorOn σ} {follow : EvaluatorOn τ}

theorem lockstep_eval_node
    (recorded : ∀ entry, Lockstep related (self.record entry) ((self.withTrace traced).record entry))
    (within : ∀ id args, Lockstep related (evaluate id args) (follow id args)) (id : NodeId) (inputs : List Value) :
    Lockstep related (self.evalNode evaluate id inputs) ((self.withTrace traced).evalNode follow id inputs) := by
  cases found : self.m.node id with
  | error error =>
      unfold evalNode
      rw [show (self.withTrace traced).m.node id = self.m.node id from rfl, found]
      exact lockstep_throw (.refused error)
  | ok node =>
      have same := related_eval_node (lockstep_conforms self traced) (lockstep_within within) found found rfl
        (List.map_id node.children).symm inputs (fun outputs => ?_) fun outputs => ?_
      · rw [Value.renumber_id_list] at same
        exact lockstep_of_alike same
      · rw [Value.renumber_id_list, Value.renumber_id_list]
        exact InStep.mono (recorded _) fun _ => trivial
      · rw [Value.renumber_id_list]
        exact InStep.mono (lockstep_checked _) fun _ => trivial

theorem lockstep_step
    (recorded : ∀ entry, Lockstep related (self.record entry) ((self.withTrace traced).record entry))
    (within : ∀ id args, Lockstep related (evaluate id args) (follow id args)) (frame : Frame) (id : NodeId) :
    Lockstep related (self.step evaluate frame id) ((self.withTrace traced).step follow frame id) := by
  refine lockstep_bind (lockstep_find (self.m.node id)) fun node => ?_
  refine lockstep_bind (lockstep_checked (self.inputValues frame id node)) fun inputs => ?_
  exact lockstep_bind (lockstep_eval_node recorded within id inputs) fun outputs => lockstep_pure _

theorem lockstep_steps
    (recorded : ∀ entry, Lockstep related (self.record entry) ((self.withTrace traced).record entry))
    (within : ∀ id args, Lockstep related (evaluate id args) (follow id args)) (nodes : List NodeId)
    (frame : Frame) : Lockstep related (nodes.foldlM (self.step evaluate) frame)
      (nodes.foldlM ((self.withTrace traced).step follow) frame) := by
  have same := @related_fold _ _ _ (lockstep related) Eq (self.step evaluate) ((self.withTrace traced).step follow) nodes
    (fun id _ {frame _} alike => alike ▸ lockstep_step recorded within frame id) frame frame rfl
  rw [List.map_id] at same
  exact same

theorem lockstep_run_graph
    (recorded : ∀ entry, Lockstep related (self.record entry) ((self.withTrace traced).record entry))
    (within : ∀ id args, Lockstep related (evaluate id args) (follow id args)) (id : NodeId) (args : List Value) :
    Lockstep related (self.runGraph evaluate id args) ((self.withTrace traced).runGraph follow id args) := by
  refine lockstep_bind (lockstep_find (self.m.graph id)) fun graph => ?_
  refine lockstep_bind (lockstep_checked (checkArguments id graph args)) fun _ => ?_
  exact lockstep_bind (lockstep_steps recorded within graph.nodes _) fun frame => lockstep_checked _

theorem lockstep_respond
    (recorded : ∀ entry, Lockstep related (self.record entry) ((self.withTrace traced).record entry))
    (within : ∀ id args, Lockstep related (evaluate id args) (follow id args)) (call : Call) :
    Lockstep related (self.respond evaluate call) ((self.withTrace traced).respond follow call) := by
  cases call with
  | graph id args => exact within id args
  | function name args =>
      unfold respond
      dsimp only [withTrace]
      cases self.m.function? name with
      | none => exact lockstep_throw _
      | some id => exact within id args
  | node id args =>
      refine lockstep_bind (lockstep_find (self.m.node id)) fun node => ?_
      split
      · exact within id args
      · rw [isolated_inputs_of_module self (self.withTrace traced) rfl]
        refine lockstep_bind (lockstep_checked (self.isolatedInputs id node.inputs.entries args)) fun shared => ?_
        dsimp only
        split
        · exact lockstep_throw _
        · exact lockstep_eval_node recorded within id shared.1

end Graphs

end Dataflow.Interpreter
