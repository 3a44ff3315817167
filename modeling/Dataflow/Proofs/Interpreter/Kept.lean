import Dataflow.Proofs.Interpreter.Visits
set_option autoImplicit false

-- What evaluations leave behind in the trace. The operation of a node leaves what its evaluations of graphs
-- leave, one after another, and nothing else.
namespace Dataflow.Interpreter

def kept {α : Type} : Ending α → List TraceEntry
  | .ok _ trace => trace.toList
  | .error _ trace => trace.toList

-- Parts of a run that begin where the one before has ended.
def Consecutive {α : Type} (start added : α → List TraceEntry) : List TraceEntry → List α → Prop
  | _, [] => True
  | trace, part :: rest => start part = trace ∧ Consecutive start added (trace ++ added part) rest

section Consecutive
variable {α : Type} {start added : α → List TraceEntry} {trace : List TraceEntry} {first second : List α}

theorem consecutive_append_iff : Consecutive start added trace (first ++ second) ↔
    Consecutive start added trace first ∧ Consecutive start added (trace ++ first.flatMap added) second := by
  induction first generalizing trace with
  | nil => simp [Consecutive]
  | cons part rest ih => simp [Consecutive, ih, and_assoc]

theorem start_of_consecutive {part : α} (consecutive : Consecutive start added trace (first ++ part :: second)) :
    start part = trace ++ first.flatMap added :=
  (consecutive_append_iff.mp consecutive).2.1

end Consecutive

/-! ### Graphs that are evaluated inside -/

abbrev Visit.start (visit : Visit) : List TraceEntry :=
  visit.trace.toList

-- What a run adds is what its evaluations of graphs add.
def Logs {α : Type} (added : Visit → List TraceEntry) (run : Run α) (visits : Trace → List Visit) : Prop :=
  ∀ trace, kept (run trace) = trace.toList ++ (visits trace).flatMap added ∧
    Consecutive Visit.start added trace.toList (visits trace)

section Logs
variable {α β : Type} {added : Visit → List TraceEntry} {evaluate : Evaluator}

theorem logs_still {run : Run α} (still : ∀ trace, kept (run trace) = trace.toList) :
    Logs added run fun _ => [] :=
  fun trace => ⟨by rw [still]; simp, trivial⟩

theorem logs_checked (outcome : Except RunError α) : Logs added (ofExcept outcome) fun _ => [] := by
  refine logs_still fun trace => ?_
  cases outcome <;> rfl

theorem logs_bind {first : Run α} {next : α → Run β} {here : Trace → List Visit}
    {later : α → Trace → List Visit} (before : Logs added first here)
    (after : ∀ value, Logs added (next value) (later value)) :
    Logs added (first >>= next) fun trace => here trace ++ following (first trace) later := by
  intro trace
  obtain ⟨whole, consecutive⟩ := before trace
  rw [bind_run, consecutive_append_iff]
  cases step : first trace with
  | error error left =>
      rw [step] at whole
      exact ⟨whole.trans (by simp [step, following]), consecutive, trivial⟩
  | ok value left =>
      rw [step] at whole
      change left.toList = _ at whole
      obtain ⟨rest, consecutiveToo⟩ := after value left
      refine ⟨rest.trans ?_, consecutive, ?_⟩
      · simp [step, following, whole]
      · rw [← whole]
        exact consecutiveToo

theorem logs_visit (within : ∀ visit : Visit, kept (visit.ending evaluate) = visit.start ++ added visit)
    (graph : NodeId) (args : List Value) : Logs added (evaluate graph args) fun trace => [⟨graph, args, trace⟩] := by
  intro trace
  refine ⟨?_, rfl, trivial⟩
  rw [List.flatMap_singleton]
  exact within ⟨graph, args, trace⟩

def logging (added : Visit → List TraceEntry) (evaluate : Evaluator)
    (within : ∀ visit : Visit, kept (visit.ending evaluate) = visit.start ++ added visit) : Visiting where
  holds run visits := Logs added (run evaluate) (visits evaluate)
  visit := logs_visit within
  still := logs_checked
  bind := logs_bind

theorem logs_firing {self : Interpreter}
    (within : ∀ visit : Visit, kept (visit.ending evaluate) = visit.start ++ added visit) (firing : Firing) :
    kept (firing.ending self evaluate) = firing.trace.toList ++ (firing.visits self evaluate).flatMap added ∧
      Consecutive Visit.start added firing.trace.toList (firing.visits self evaluate) := by
  have logs : Logs added _ _ := visiting_outputs (logging added evaluate within) self firing.id firing.node firing.inputs
  exact logs firing.trace

end Logs

end Dataflow.Interpreter
