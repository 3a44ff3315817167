import Dataflow.Proofs.Interpreter.Activations
import Dataflow.Proofs.Module.Threads
import Dataflow.Proofs.Places
import Mathlib.Data.List.Forall2
set_option autoImplicit false

-- A value that a wire takes into nested graphs arrives there unchanged. Wires count ports and evaluations
-- count values: they agree because a compound without gaps has its new port last.
namespace Dataflow.Interpreter
open Dataflow.Module Outcome

-- The values that an evaluation of a graph comes to have, from its arguments on.
def Visit.Reaches (self : Interpreter) (evaluate : Evaluator) (visit : Visit) (frame : Frame) : Prop :=
  ∃ graph, self.m.graph visit.graph = .ok graph ∧ checkArguments visit.graph graph visit.args = .ok () ∧
    ∃ done rest left, graph.nodes = done ++ rest ∧
      done.foldlM (self.step evaluate) [(visit.graph, visit.args)] visit.trace = .ok frame left

-- The evaluations of graphs that a turn asks for.
def Activation.visits (self : Interpreter) (evaluate : Evaluator) (activation : Activation) : List Visit :=
  (activation.firing? self).toList.flatMap (Firing.visits self evaluate)

-- A visit that a turn of the compound asks for, in the course of the visit around it.
structure Enters (here : Interpreter) (evaluate : Evaluator) (around : Visit) (crossing : Crossing)
    (activation : Activation) (inner : Visit) : Prop where
  turn : activation ∈ around.activations here evaluate
  compound : activation.id = crossing.compound
  asked : inner ∈ activation.visits here evaluate
  child : inner.graph = crossing.child

-- From the turn of the outermost compound in to a visit of the innermost child graph. What is asked for
-- within `depth + 1` runs within `depth`.
inductive Through (self : Interpreter) : Nat → Visit → List Crossing → Activation → Nat → Visit → Prop
  | last {depth : Nat} {around inner : Visit} {crossing : Crossing} {activation : Activation}
      (enters : Enters self (self.evalGraph (depth + 1)) around crossing activation inner) :
      Through self (depth + 1) around [crossing] activation depth inner
  | next {depth fewer : Nat} {around between inner : Visit} {crossing : Crossing} {rest : List Crossing}
      {activation later : Activation}
      (enters : Enters self (self.evalGraph (depth + 1)) around crossing activation between)
      (through : Through self depth between rest later fewer inner) :
      Through self (depth + 1) around (crossing :: rest) activation fewer inner

/-! ### Frames -/

section Frames
variable {self : Interpreter} {evaluate : Evaluator} {visit : Visit} {frame : Frame}

theorem step_ok {next : Frame} {id : NodeId} {trace left : Trace}
    (done : self.step evaluate frame id trace = .ok next left) : ∃ outputs, next = (id, outputs) :: frame := by
  obtain ⟨_, _, outputs, _, _, _, same⟩ := step_inv done
  exact ⟨outputs, same⟩

-- Nodes other than the graph itself leave the graph's own values alone.
theorem lookup_fold {nodes : List NodeId} {graph : NodeId} {args : List Value} {final : Frame} {trace left : Trace}
    (held : frame.lookup graph = some args) (others : ∀ id ∈ nodes, id ≠ graph)
    (done : nodes.foldlM (self.step evaluate) frame trace = .ok final left) : final.lookup graph = some args := by
  induction nodes generalizing frame trace with
  | nil =>
      cases done
      exact held
  | cons id rest ih =>
      rw [List.foldlM_cons] at done
      obtain ⟨next, _, here, later⟩ := bind_run_inv done
      obtain ⟨outputs, rfl⟩ := step_ok here
      refine ih ?_ (fun other member => others other (List.mem_cons_of_mem _ member)) later
      rw [lookup_other (others id List.mem_cons_self).symm]
      exact held

theorem Visit.Reaches.value (owned : self.m.Owned) (reaches : visit.Reaches self evaluate frame) (port : Nat) :
    frame.value? ⟨visit.graph, port + 1⟩ = visit.args[port]? := by
  obtain ⟨graph, found, _, done, rest, left, split, walked⟩ := reaches
  have held : frame.lookup visit.graph = some visit.args := by
    refine lookup_fold (List.lookup_cons_self) (fun id member same => ?_) walked
    have listed : id ∈ self.m.nodesOf visit.graph := by
      have here : self.m.nodesOf visit.graph = graph.nodes := by
        simp [nodesOf, (graph_ok_iff.mp found).1]
      rw [here, split]
      exact List.mem_append_left _ member
    have after := (owned.held (owned.listed listed)).1
    rw [same] at after
    exact Nat.lt_irrefl _ after
  unfold Frame.value?
  rw [held]
  rfl

end Frames

/-! ### Inputs by their place -/

-- The last of `count + 1` values.
def Holds (count : Nat) (value : Value) (values : List Value) : Prop :=
  values.length = count + 1 ∧ values[count]? = some value

section Inputs
variable {self : Interpreter} {frame : Frame} {value : Value} {source : Outlet} {count : Nat}

end Inputs

/-! ### Visits of a compound -/

section Compound
variable {self : Interpreter} {evaluate : Evaluator} {visit : Visit} {args : List Value} {trace : Trace}

end Compound

section Carried
variable {self : Interpreter} {source : Outlet} {crossing : Crossing} {count : Nat} {value : Value}

end Carried

/-! ### Through all crossings -/

section Through
variable {self : Interpreter} {source final : Outlet} {crossings : List Crossing} {value : Value}

end Through

end Dataflow.Interpreter
