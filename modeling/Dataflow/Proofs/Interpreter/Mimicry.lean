import Dataflow.Proofs.Interpreter.Traversal
set_option autoImplicit false

-- Evaluations that another evaluation repeats on renamed values. Whatever the first one answers, the
-- second one answers too, up to the renaming; where the first one fails, nothing is said.
namespace Dataflow.Interpreter
open Value

def Mimics {α β : Type} (alike : α → β → Prop) (first : Run α) (second : Run β) : Prop :=
  ∀ ⦃trace after : Trace⦄ ⦃value : α⦄, first trace = .ok value after → ∀ there : Trace,
    ∃ twin final, second there = .ok twin final ∧ alike value twin

section Mimics
variable {α β γ δ : Type} {alike : α → β → Prop} {same : γ → δ → Prop}

theorem mimics_pure {value : α} {twin : β} (here : alike value twin) : Mimics alike (pure value) (pure twin) := by
  intro trace after value done there
  cases done
  exact ⟨twin, there, rfl, here⟩

theorem mimics_throw (error : RunError) (second : Run β) : Mimics alike (throw error) second := by
  intro trace after value done
  cases done

theorem mimics_bind (alike : α → β → Prop) {first : Run α} {second : Run β} {next : α → Run γ}
    {follow : β → Run δ} (before : Mimics alike first second)
    (later : ∀ value twin, alike value twin → Mimics same (next value) (follow twin)) :
    Mimics same (first >>= next) (second >>= follow) := by
  intro trace after result done there
  obtain ⟨value, left, here, done⟩ := bind_run_inv done
  obtain ⟨twin, middle, step, close⟩ := before here there
  obtain ⟨final, end_, last, closer⟩ := later value twin close done middle
  exact ⟨final, end_, (bind_run_ok step).trans last, closer⟩

theorem mimics_checked {first : Except RunError α} {second : Except RunError β}
    (each : ∀ value, first = .ok value → ∃ twin, second = .ok twin ∧ alike value twin) :
    Mimics alike (ofExcept first) (ofExcept second) := by
  intro trace after value done there
  obtain ⟨here, rfl⟩ := checked_inv done
  obtain ⟨twin, step, close⟩ := each value here
  rw [step]
  exact ⟨twin, there, rfl, close⟩

theorem mimics_find {first : Except Error α} {second : Except Error β}
    (each : ∀ value, first = .ok value → ∃ twin, second = .ok twin ∧ alike value twin) :
    Mimics alike (find first) (find second) := by
  cases first with
  | error error => exact mimics_throw _ _
  | ok value =>
      obtain ⟨twin, step, close⟩ := each value rfl
      rw [step]
      exact mimics_pure close

theorem mimics_record (self other : Interpreter) (entry twin : TraceEntry) :
    Mimics (fun _ _ => True) (self.record entry) (other.record twin) := by
  intro trace after value done there
  unfold record
  split
  · exact ⟨(), there.push twin, rfl, trivial⟩
  · exact ⟨(), there, rfl, trivial⟩

end Mimics

-- Failures are not told apart.
def mimicry (number : NodeId → NodeId) : Relating Trace Trace number where
  related := Mimics
  pure := mimics_pure
  throw _ := mimics_throw _ _
  bind before later := mimics_bind _ before fun _ _ alike => later alike

abbrev Follows (number : NodeId → NodeId) (evaluate other : Evaluator) : Prop :=
  (mimicry number).Within evaluate other

section Nodes
variable {number : NodeId → NodeId}

theorem mimics_standard (apart : Function.Injective number) (id twin : NodeId) (op : Opcode) (args : List Value) :
    Mimics (Alike number) (ofExcept (Operations.standard id op args))
      (ofExcept (Operations.standard twin op (args.map (renumber number)))) := by
  refine mimics_checked fun values done => ?_
  unfold Operations.standard at done ⊢
  rw [Operation.evaluate_renumber apart]
  cases evaluated : Operation.evaluate op args with
  | error fault =>
      rw [evaluated] at done
      cases done
  | ok value =>
      rw [evaluated] at done
      cases done
      exact ⟨_, rfl, rfl⟩

end Nodes

end Dataflow.Interpreter
