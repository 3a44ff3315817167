import Dataflow.Proofs.Interpreter.Renaming
import Dataflow.Proofs.Interpreter.Visits
set_option autoImplicit false

-- Relations between evaluations of the same thing. A relation that holds of results and of failures, and of
-- whatever is put together from what is related, holds of nodes as soon as it holds of the evaluations of
-- graphs that they ask for. One evaluation may know the nodes and functions under other ids.
namespace Dataflow.Interpreter
open Value

-- Values under other ids of functions.
def Alike (number : NodeId → NodeId) (values twins : List Value) : Prop :=
  twins = values.map (renumber number)

-- What a structured operation fails with by itself.
inductive Blames (number : NodeId → NodeId) : RunError → RunError → Prop
  | operation (id : NodeId) (fault : OperationFault) : Blames number (.operation id fault) (.operation (number id) fault)
  | limit (id : NodeId) (limit : Nat) : Blames number (.iterationLimit id limit) (.iterationLimit (number id) limit)
  | branches (id : NodeId) (count : Nat) :
      Blames number (.invalidCompound id (.branches count)) (.invalidCompound (number id) (.branches count))
  | emptyTest (id test : NodeId) :
      Blames number (.invalidCompound id (.emptyTest test)) (.invalidCompound (number id) (.emptyTest (number test)))
  | noBody (id : NodeId) : Blames number (.invalidCompound id .noBody) (.invalidCompound (number id) .noBody)
  | noCarriedValue (id : NodeId) (port : Nat) :
      Blames number (.invalidCompound id (.noCarriedValue port)) (.invalidCompound (number id) (.noCarriedValue port))

structure Relating (σ τ : Type) (number : NodeId → NodeId) where
  related : {α β : Type} → (α → β → Prop) → RunOn σ α → RunOn τ β → Prop
  pure : ∀ {α β : Type} {values : α → β → Prop} {value : α} {twin : β}, values value twin →
    related values (pure value) (pure twin)
  throw : ∀ {α β : Type} {values : α → β → Prop} {error twin : RunError}, Blames number error twin →
    related values (throw error) (throw twin)
  bind : ∀ {α β γ δ : Type} {values : α → β → Prop} {results : γ → δ → Prop} {first : RunOn σ α} {second : RunOn τ β}
    {next : α → RunOn σ γ} {follow : β → RunOn τ δ}, related values first second →
    (∀ {value twin}, values value twin → related results (next value) (follow twin)) →
    related results (first >>= next) (second >>= follow)

variable {σ τ : Type} {number : NodeId → NodeId}

def Relating.Within (kind : Relating σ τ number) (evaluate : EvaluatorOn σ) (follow : EvaluatorOn τ) : Prop :=
  ∀ id args, kind.related (Alike number) (evaluate id args) (follow (number id) (args.map (renumber number)))

section Nodes
variable {kind : Relating σ τ number} {evaluate : EvaluatorOn σ} {follow : EvaluatorOn τ}

-- The values that come next are those of the first evaluation under their other ids.
theorem related_next {β γ : Type} {results : β → γ → Prop} {first : RunOn σ (List Value)} {second : RunOn τ (List Value)}
    {later : List Value → RunOn σ β} {follow : List Value → RunOn τ γ} (here : kind.related (Alike number) first second)
    (each : ∀ values, kind.related results (later values) (follow (values.map (renumber number)))) :
    kind.related results (first >>= later) (second >>= follow) :=
  kind.bind here fun {values twins} alike => by
    subst alike
    exact each values

theorem head_is_true (values : List Value) :
    (values.map (renumber number)).head?.map isTrue = values.head?.map isTrue := by
  cases values with
  | nil => rfl
  | cons value rest => exact congrArg some (is_true_renumber value)

theorem goes_renumber (values : List Value) : Goes (values.map (renumber number)) ↔ Goes values := by
  unfold Goes
  rw [head_is_true]

theorem related_cases (within : kind.Within evaluate follow) (id : NodeId) (args : List Value) : (children : List NodeId) →
    kind.related (Alike number) (cases evaluate id args children)
      (cases follow (number id) (args.map (renumber number)) (children.map number))
  | [] => kind.throw (.branches id 0)
  | [otherwise] => within otherwise args
  | test :: body :: rest => by
      refine related_next (within test args) fun outcome => ?_
      have heads := @head_is_true number outcome
      cases here : outcome.head? with
      | none =>
          rw [here, Option.map_none, Option.map_eq_none_iff] at heads
          rw [heads]
          exact kind.throw (.emptyTest id test)
      | some taken =>
          rw [here] at heads
          obtain ⟨takenToo, there, same⟩ := Option.map_eq_some_iff.mp heads
          rw [there]
          dsimp only
          rw [same]
          cases taken.isTrue with
          | true => exact within body args
          | false => exact related_cases within id args rest

theorem related_conditional (within : kind.Within evaluate follow) (id : NodeId) (children : List NodeId)
    (args : List Value) :
    kind.related (Alike number) (conditional evaluate id children args)
      (conditional follow (number id) (children.map number) (args.map (renumber number))) := by
  have many : kind.related (Alike number)
      (if 3 ≤ children.length ∧ children.length % 2 = 1 then cases evaluate id args children
        else throw (.invalidCompound id (.branches children.length)))
      (if 3 ≤ (children.map number).length ∧ (children.map number).length % 2 = 1 then
          cases follow (number id) (args.map (renumber number)) (children.map number)
        else throw (.invalidCompound (number id) (.branches (children.map number).length))) := by
    rw [List.length_map]
    split
    · exact related_cases within id args children
    · exact kind.throw (.branches id _)
  rcases children with _ | ⟨first, _ | ⟨second, _ | ⟨third, rest⟩⟩⟩
  · exact many
  · exact many
  · cases args with
    | nil => exact kind.throw (.operation id _)
    | cons chooser rest =>
        change kind.related _ (evaluate (if chooser.isTrue then first else second) (chooser :: rest))
          (follow (if (chooser.renumber number).isTrue then number first else number second) _)
        rw [is_true_renumber]
        cases chooser.isTrue with
        | true => exact within first _
        | false => exact within second _
  · exact many

theorem related_carry (id : NodeId) (results : List (Nat × Value)) (values : List Value) :
    kind.related (Alike number) (ofExcept (results.foldlM (carry id) values))
      (ofExcept ((results.map fun result => (result.1, result.2.renumber number)).foldlM (carry (number id))
        (values.map (renumber number)))) := by
  induction results generalizing values with
  | nil => exact kind.pure rfl
  | cons result rest ih =>
      rw [List.map_cons, List.foldlM_cons, List.foldlM_cons]
      unfold carry
      rw [List.length_map]
      split
      · have same := ih (values.set (result.1 - 1) result.2)
        rw [List.map_set] at same
        exact same
      · exact kind.throw (.noCarriedValue id result.1)

theorem related_pass (within : kind.Within evaluate follow) (id body : NodeId) (ports : List Nat) (values : List Value) :
    kind.related (Alike number) (pass evaluate id body ports values)
      (pass follow (number id) (number body) ports (values.map (renumber number))) := by
  refine related_next (within body values) fun results => ?_
  have zipped : ports.zip (results.map (renumber number)) =
      (ports.zip results).map fun result => (result.1, result.2.renumber number) := List.zip_map_right
  rw [zipped]
  exact related_carry id _ values

theorem related_loop {id : NodeId} {limit : Nat} {pass : List Value → RunOn σ (List Value)}
    {passToo : List Value → RunOn τ (List Value)}
    (each : ∀ values, kind.related (Alike number) (pass values) (passToo (values.map (renumber number))))
    (remaining : Nat) (values : List Value) : kind.related (Alike number) (loop id limit pass remaining values)
      (loop (number id) limit passToo remaining (values.map (renumber number))) := by
  induction remaining generalizing values with
  | zero =>
      by_cases goes : Goes values
      · rw [loop_limit goes, loop_limit ((goes_renumber values).mpr goes)]
        exact kind.throw (.limit id limit)
      · rw [loop_stop goes, loop_stop fun there => goes ((goes_renumber values).mp there)]
        exact kind.pure rfl
  | succ remaining ih =>
      by_cases goes : Goes values
      · rw [loop_next goes, loop_next ((goes_renumber values).mpr goes)]
        exact related_next (each values) ih
      · rw [loop_stop goes, loop_stop fun there => goes ((goes_renumber values).mp there)]
        exact kind.pure rfl

theorem related_call (within : kind.Within evaluate follow) (id : NodeId) (args : List Value) :
    kind.related (Alike number) (call evaluate id args) (call follow (number id) (args.map (renumber number))) := by
  cases args with
  | nil => exact kind.throw (.operation id _)
  | cons value args =>
      cases value with
      | function target => exact within target args
      | _ => exact kind.throw (.operation id _)

end Nodes

-- What nodes get to see of an interpreter.
structure Relating.Conforms (kind : Relating σ τ number) (here there : Interpreter) : Prop where
  limits : there.limits = here.limits
  ports : ∀ id, kind.related (fun graph twin => (resultInputs twin).map (·.1) = (resultInputs graph).map (·.1))
    (find (here.m.node id)) (find (there.m.node (number id)))
  simple : ∀ id op args, kind.related (Alike number) (ofExcept (here.operations id op args))
    (ofExcept (there.operations (number id) op (args.map (renumber number))))

section Outputs
variable {kind : Relating σ τ number} {evaluate : EvaluatorOn σ} {follow : EvaluatorOn τ} {self other : Interpreter}
  (conforms : kind.Conforms self other) (within : kind.Within evaluate follow)
include conforms within

theorem related_iterate (id : NodeId) (children : List NodeId) (args : List Value) :
    kind.related (Alike number) (self.iterate evaluate id children args)
      (other.iterate follow (number id) (children.map number) (args.map (renumber number))) := by
  cases children with
  | nil => exact kind.throw (.noBody id)
  | cons body rest =>
      refine kind.bind (conforms.ports body) fun {graph twin} ports => ?_
      dsimp only
      rw [ports, conforms.limits]
      exact related_loop (related_pass within id body _) _ args

theorem related_outputs (id : NodeId) {node twin : Node} (opcode : twin.opcode = node.opcode)
    (children : twin.children = node.children.map number) (inputs : List Value) :
    kind.related (Alike number) (self.outputs evaluate id node inputs)
      (other.outputs follow (number id) twin (inputs.map (renumber number))) := by
  unfold outputs
  rw [opcode, children]
  split
  · exact related_conditional within id node.children inputs
  · exact related_iterate conforms within id node.children inputs
  · exact related_call within id inputs
  · exact kind.pure rfl
  · exact conforms.simple id _ inputs

-- The operation, then the entry and the check of the outputs.
theorem related_eval_node [Recorder σ] [Recorder τ] {id : NodeId} {node twin : Node} (found : self.m.node id = .ok node)
    (foundToo : other.m.node (number id) = .ok twin) (opcode : twin.opcode = node.opcode)
    (children : twin.children = node.children.map number) (inputs : List Value)
    (recorded : ∀ outputs, kind.related (fun _ _ => True) (self.record ⟨id, node.opcode, inputs, outputs⟩)
      (other.record ⟨number id, twin.opcode, inputs.map (renumber number), outputs.map (renumber number)⟩))
    (checked : ∀ outputs, kind.related (fun _ _ => True) (ofExcept (checkOutputs id node outputs))
      (ofExcept (checkOutputs (number id) twin (outputs.map (renumber number))))) :
    kind.related (Alike number) (self.evalNode evaluate id inputs)
      (other.evalNode follow (number id) (inputs.map (renumber number))) := by
  unfold evalNode
  rw [bind_find_ok found, bind_find_ok foundToo]
  refine related_next (related_outputs conforms within id opcode children inputs) fun outputs => ?_
  exact kind.bind (recorded outputs) fun _ => kind.bind (checked outputs) fun _ => kind.pure rfl

end Outputs

theorem related_fold {kind : Relating σ τ number} {frames : Frame → Frame → Prop} {step : Frame → NodeId → RunOn σ Frame}
    {stepToo : Frame → NodeId → RunOn τ Frame} {nodes : List NodeId}
    (each : ∀ id ∈ nodes, ∀ {frame twin}, frames frame twin → kind.related frames (step frame id) (stepToo twin (number id)))
    {frame twin : Frame} (start : frames frame twin) :
    kind.related frames (nodes.foldlM step frame) ((nodes.map number).foldlM stepToo twin) := by
  induction nodes generalizing frame twin with
  | nil => exact kind.pure start
  | cons id rest ih =>
      rw [List.map_cons, List.foldlM_cons, List.foldlM_cons]
      refine kind.bind (each id List.mem_cons_self start) fun alike => ?_
      exact ih (fun other member => each other (List.mem_cons_of_mem _ member)) alike

end Dataflow.Interpreter
