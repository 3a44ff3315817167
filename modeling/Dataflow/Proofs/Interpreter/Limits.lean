import Dataflow.Proofs.Interpreter.Activations
import Dataflow.Proofs.Module.Request
import Mathlib.Data.List.Basic
set_option autoImplicit false

-- Limits only cut evaluations off. A call that ends for another reason has used up certain limits, and
-- it ends in the same way, with the same trace, under exactly the limits that are no lower.
namespace Dataflow.Interpreter

def most (counts : List Nat) : Nat :=
  counts.foldr max 0

theorem most_le_iff {counts : List Nat} {bound : Nat} : most counts ≤ bound ↔ ∀ count ∈ counts, count ≤ bound := by
  induction counts with
  | nil => simp [most]
  | cons count rest ih =>
      have split : most (count :: rest) = max count (most rest) := rfl
      rw [split, Nat.max_le, ih, List.forall_mem_cons]

theorem le_most {α : Type} {count : α → Nat} {values : List α} {value : α} {bound : Nat} (member : value ∈ values)
    (below : most (values.map count) ≤ bound) : count value ≤ bound :=
  most_le_iff.mp below _ (List.mem_map_of_mem member)

theorem most_congr {α : Type} {first second : α → Nat} {values : List α}
    (same : ∀ value ∈ values, first value = second value) : most (values.map first) = most (values.map second) := by
  rw [List.map_congr_left same]

-- How many evaluations of graphs are open at a time, of a graph that is evaluated within `depth`.
def nesting (self : Interpreter) : Nat → Visit → Nat
  | 0, _ => 0
  | depth + 1, visit => 1 + most ((visit.visits self (self.evalGraph depth)).map (self.nesting depth))

-- How often a loop runs its body, the longest loop counting.
def longest (self : Interpreter) : Nat → Visit → Nat
  | 0, _ => 0
  | depth + 1, visit =>
      max (most ((visit.firings self (self.evalGraph depth)).map (Firing.passes self (self.evalGraph depth))))
        (most ((visit.visits self (self.evalGraph depth)).map (self.longest depth)))

theorem nesting_le (self : Interpreter) (depth : Nat) (visit : Visit) : self.nesting depth visit ≤ depth := by
  induction depth generalizing visit with
  | zero => exact Nat.le_refl 0
  | succ depth ih =>
      have inner : most ((visit.visits self (self.evalGraph depth)).map (self.nesting depth)) ≤ depth := by
        refine most_le_iff.mpr fun count member => ?_
        obtain ⟨inner, _, rfl⟩ := List.mem_map.mp member
        exact ih inner
      rw [nesting]
      omega

theorem passes_le (self : Interpreter) (evaluate : Evaluator) (firing : Firing) :
    firing.passes self evaluate ≤ self.limits.iterations := by
  unfold Firing.passes Firing.visits
  split
  · rename_i op
    rw [op]
    rcases iterate_cases self.m firing.id firing.node.children firing.inputs with
      ⟨_, none⟩ | ⟨body, graph, _, _, run⟩
    · dsimp only
      rw [(none self rfl evaluate firing.trace).2]
      exact Nat.zero_le _
    · dsimp only
      rw [(run self rfl evaluate firing.trace).2]
      exact length_loop_visits
  · exact Nat.zero_le _

theorem longest_le (self : Interpreter) (depth : Nat) (visit : Visit) :
    self.longest depth visit ≤ self.limits.iterations := by
  induction depth generalizing visit with
  | zero => exact Nat.zero_le _
  | succ depth ih =>
      rw [longest]
      refine Nat.max_le.mpr ⟨?_, ?_⟩ <;> refine most_le_iff.mpr fun count member => ?_
      · obtain ⟨firing, _, rfl⟩ := List.mem_map.mp member
        exact passes_le self _ firing
      · obtain ⟨inner, _, rfl⟩ := List.mem_map.mp member
        exact ih inner

/-! ### Graphs under other limits -/

section Other
variable {self : Interpreter} {limits : Limits}

theorem not_limited_of_fails {α β : Type} {whole : Ending α} {part : Ending β}
    (fails : ∀ error after, part = .error error after → whole = .error error after) (ended : ¬ Limited whole) :
    ¬ Limited part := by
  cases part with
  | ok value after => exact id
  | error error after =>
      rw [fails error after rfl] at ended
      exact ended

structure Same (here : Interpreter) (limits : Limits) (depth enough : Nat) (visit : Visit) : Prop where
  ending : visit.ending ((here.withLimits limits).evalGraph enough) = visit.ending (here.evalGraph depth)
  nesting : (here.withLimits limits).nesting enough visit = here.nesting depth visit
  longest : (here.withLimits limits).longest enough visit = here.longest depth visit

-- The induction goes from a node to the graphs that it asks for.
theorem firing_transfer {depth enough : Nat} {firing : Firing}
    (inner : ∀ {visit}, ¬ Limited (visit.ending (self.evalGraph depth)) → self.nesting depth visit ≤ enough →
      self.longest depth visit ≤ limits.iterations → Same self limits depth enough visit)
    (ended : ¬ Limited (firing.ending self (self.evalGraph depth)))
    (deep : most ((firing.visits self (self.evalGraph depth)).map (self.nesting depth)) ≤ enough)
    (few : firing.passes self (self.evalGraph depth) ≤ limits.iterations)
    (long : most ((firing.visits self (self.evalGraph depth)).map (self.longest depth)) ≤ limits.iterations) :
    (firing.ending (self.withLimits limits) ((self.withLimits limits).evalGraph enough) =
        firing.ending self (self.evalGraph depth) ∧
      firing.visits (self.withLimits limits) ((self.withLimits limits).evalGraph enough) =
        firing.visits self (self.evalGraph depth)) ∧
      ∀ visit ∈ firing.visits self (self.evalGraph depth), Same self limits depth enough visit := by
  have each : ∀ visit ∈ firing.visits self (self.evalGraph depth), Same self limits depth enough visit := by
    intro visit member
    have open_ := not_limited_of_fails (fun error after failed => firing_fails member failed) ended
    exact inner open_ (le_most member deep) (le_most member long)
  exact ⟨firing_same ended few fun visit member => (each visit member).ending, each⟩

theorem eval_graph_same {depth enough : Nat} {visit : Visit}
    (ended : ¬ Limited (visit.ending (self.evalGraph depth))) (deep : self.nesting depth visit ≤ enough)
    (long : self.longest depth visit ≤ limits.iterations) : Same self limits depth enough visit := by
  induction depth generalizing enough visit with
  | zero => exact absurd rfl ended
  | succ depth ih =>
      rw [nesting] at deep
      rw [longest] at long
      obtain ⟨fewer, rfl⟩ : ∃ fewer, enough = fewer + 1 := ⟨enough - 1, by omega⟩
      have deepInner : most ((visit.visits self (self.evalGraph depth)).map (self.nesting depth)) ≤ fewer := by omega
      obtain ⟨own, longInner⟩ := Nat.max_le.mp long
      have each : ∀ firing ∈ visit.firings self (self.evalGraph depth), _ := fun firing member =>
        firing_transfer ih
          (not_limited_of_fails (fun error after failed => visit_fails member failed) ended)
          (most_le_iff.mpr fun count inside => by
            obtain ⟨inner, here, rfl⟩ := List.mem_map.mp inside
            exact le_most (List.mem_flatMap.mpr ⟨firing, member, here⟩) deepInner)
          (le_most member own)
          (most_le_iff.mpr fun count inside => by
            obtain ⟨inner, here, rfl⟩ := List.mem_map.mp inside
            exact le_most (List.mem_flatMap.mpr ⟨firing, member, here⟩) longInner)
      obtain ⟨ending, firings⟩ := visit_same
        fun firing member => (each firing member).1.1
      have visits : visit.visits (self.withLimits limits) ((self.withLimits limits).evalGraph fewer) =
          visit.visits self (self.evalGraph depth) := by
        unfold Visit.visits
        rw [firings]
        exact List.flatMap_congr fun firing member => (each firing member).1.2
      have inner : ∀ inner ∈ visit.visits self (self.evalGraph depth), Same self limits depth fewer inner := by
        intro inner member
        obtain ⟨firing, inside, here⟩ := List.mem_flatMap.mp member
        exact (each firing inside).2 inner here
      refine ⟨ending, ?_, ?_⟩
      · rw [nesting, nesting, visits]
        exact congrArg (1 + ·) (most_congr fun visit member => (inner visit member).nesting)
      · rw [longest, longest, visits, firings]
        have passes : ∀ firing ∈ visit.firings self (self.evalGraph depth),
            firing.passes (self.withLimits limits) ((self.withLimits limits).evalGraph fewer) =
              firing.passes self (self.evalGraph depth) := by
          intro firing member
          unfold Firing.passes
          rw [(each firing member).1.2]
        rw [most_congr passes, most_congr fun visit member => (inner visit member).longest]

end Other

/-! ### Calls -/

-- What a call comes down to.
inductive Entry where
  | visit (graph : NodeId) (args : List Value)
  | firing (id : NodeId) (node : Node) (inputs : List Value)

def entry (self : Interpreter) : Call → Except RunError Entry
  | .graph id args => .ok (.visit id args)
  | .function name args =>
      match self.m.function? name with
      | some id => .ok (.visit id args)
      | none => .error (.functionNotFound name)
  | .node id args =>
      match self.m.node id with
      | .error error => .error (.refused error)
      | .ok node =>
          if node.isGraph then .ok (.visit id args)
          else
            match self.isolatedInputs id node.inputs.entries args with
            | .error error => .error error
            | .ok (inputs, left) => if left.isEmpty then .ok (.firing id node inputs) else .error (.unusedInputs id)

theorem entry_of_module (self other : Interpreter) (same : other.m = self.m) (call : Call) :
    other.entry call = self.entry call := by
  cases call with
  | graph id args => rfl
  | function name args => simp only [entry, same]
  | node id args => simp only [entry, same, isolated_inputs_of_module self other same]

def finishAlone (self : Interpreter) (firing : Firing) (outputs : List Value) : Run (List Value) := do
  self.record ⟨firing.id, firing.node.opcode, firing.inputs, outputs⟩
  ofExcept (checkOutputs firing.id firing.node outputs)
  pure outputs

theorem run_entry (self : Interpreter) (call : Call) (trace : Trace) : self.run call trace =
    match self.entry call with
    | .error error => .error error trace
    | .ok (.visit graph args) => Visit.ending self.evaluator ⟨graph, args, trace⟩
    | .ok (.firing id node inputs) =>
        match Firing.ending self self.evaluator ⟨id, node, inputs, trace⟩ with
        | .ok outputs after => self.finishAlone ⟨id, node, inputs, trace⟩ outputs after
        | .error error after => .error error after := by
  cases call with
  | graph id args => rfl
  | function name args =>
      unfold run respond entry
      dsimp only
      cases self.m.function? name <;> rfl
  | node id args =>
      unfold run respond runNode entry
      dsimp only
      cases found : self.m.node id with
      | error error => rfl
      | ok node =>
          rw [bind_find_ok rfl]
          dsimp only
          split
          · rfl
          · cases gathered : self.isolatedInputs id node.inputs.entries args with
            | error error => rfl
            | ok pair =>
                obtain ⟨inputs, left⟩ := pair
                rw [bind_checked_ok rfl]
                dsimp only
                cases left with
                | cons value rest => rfl
                | nil =>
                    simp only [List.isEmpty_nil, Bool.not_true, Bool.false_eq_true, if_false, if_true]
                    unfold evalNode Firing.ending finishAlone
                    rw [bind_find_ok found, bind_run]
                    cases self.outputs self.evaluator id node inputs trace <;> rfl

-- The limits that a call makes use of.
def used (self : Interpreter) (call : Call) (trace : Trace) : Limits :=
  match self.entry call with
  | .error _ => ⟨0, 0⟩
  | .ok (.visit graph args) =>
      ⟨self.nesting self.limits.depth ⟨graph, args, trace⟩, self.longest self.limits.depth ⟨graph, args, trace⟩⟩
  | .ok (.firing id node inputs) =>
      let firing : Firing := ⟨id, node, inputs, trace⟩
      let visits := firing.visits self self.evaluator
      ⟨most (visits.map (self.nesting self.limits.depth)),
        max (firing.passes self self.evaluator) (most (visits.map (self.longest self.limits.depth)))⟩

theorem used_le (self : Interpreter) (call : Call) (trace : Trace) :
    (self.used call trace).depth ≤ self.limits.depth ∧ (self.used call trace).iterations ≤ self.limits.iterations := by
  unfold used
  split
  · exact ⟨Nat.zero_le _, Nat.zero_le _⟩
  · exact ⟨nesting_le self _ _, longest_le self _ _⟩
  · refine ⟨most_le_iff.mpr fun count member => ?_,
      Nat.max_le.mpr ⟨passes_le self _ _, most_le_iff.mpr fun count member => ?_⟩⟩
    · obtain ⟨visit, _, rfl⟩ := List.mem_map.mp member
      exact nesting_le self _ visit
    · obtain ⟨visit, _, rfl⟩ := List.mem_map.mp member
      exact longest_le self _ visit

theorem run_same {self : Interpreter} {call : Call} {trace : Trace} (limits : Limits)
    (ended : ¬ Limited (self.run call trace)) (deep : (self.used call trace).depth ≤ limits.depth)
    (long : (self.used call trace).iterations ≤ limits.iterations) :
    (self.withLimits limits).run call trace = self.run call trace ∧
      (self.withLimits limits).used call trace = self.used call trace := by
  have entered : (self.withLimits limits).entry call = self.entry call :=
    entry_of_module self (self.withLimits limits) rfl call
  rw [run_entry] at ended
  rw [run_entry, run_entry]
  unfold used at *
  rw [entered]
  cases entry : self.entry call with
  | error error => exact ⟨rfl, rfl⟩
  | ok here =>
      rw [entry] at ended deep long
      cases here with
      | visit graph args =>
          have same := eval_graph_same ended deep long
          refine ⟨same.ending, ?_⟩
          dsimp only
          rw [← same.nesting, ← same.longest]
          rfl
      | firing id node inputs =>
          dsimp only at ended deep long ⊢
          obtain ⟨few, longInner⟩ := Nat.max_le.mp long
          have open_ : ¬ Limited (Firing.ending self self.evaluator ⟨id, node, inputs, trace⟩) :=
            not_limited_of_fails (fun error after failed => by rw [failed]) ended
          obtain ⟨⟨ending, visits⟩, each⟩ := firing_transfer
            (fun {_} => eval_graph_same) open_ deep few longInner
          change Firing.ending (self.withLimits limits) (self.withLimits limits).evaluator _ = _ at ending
          change Firing.visits (self.withLimits limits) (self.withLimits limits).evaluator _ = _ at visits
          rw [ending, visits]
          refine ⟨rfl, ?_⟩
          unfold Firing.passes
          rw [visits]
          exact congrArg₂ Limits.mk (most_congr fun visit member => (each visit member).nesting)
            (congrArg (max _) (most_congr fun visit member => (each visit member).longest))

def top (first second : Limits) : Limits :=
  ⟨max first.depth second.depth, max first.iterations second.iterations⟩

-- Both runs can be compared under limits that are no lower than either.
theorem used_of_same {self : Interpreter} {call : Call} {trace : Trace} {limits : Limits}
    (ended : ¬ Limited (self.run call trace)) (same : (self.withLimits limits).run call trace = self.run call trace) :
    (self.withLimits limits).used call trace = self.used call trace := by
  have bound := used_le self call trace
  have boundToo := used_le (self.withLimits limits) call trace
  have here := run_same (top self.limits limits) ended
    (Nat.le_trans bound.1 (Nat.le_max_left _ _)) (Nat.le_trans bound.2 (Nat.le_max_left _ _))
  have there := run_same (top self.limits limits)
    (by rw [same]; exact ended)
    (Nat.le_trans boundToo.1 (Nat.le_max_right _ _)) (Nat.le_trans boundToo.2 (Nat.le_max_right _ _))
  exact there.2.symm.trans here.2

theorem limits_only_cut (self : Interpreter) (call : Call) (trace : Trace) (ended : ¬ Limited (self.run call trace)) :
    (∀ limits : Limits, self.limits.depth ≤ limits.depth → self.limits.iterations ≤ limits.iterations →
      (self.withLimits limits).run call trace = self.run call trace) ∧
    ∀ limits : Limits, (self.withLimits limits).run call trace = self.run call trace ↔
      (self.used call trace).depth ≤ limits.depth ∧ (self.used call trace).iterations ≤ limits.iterations := by
  have bound := used_le self call trace
  refine ⟨fun limits deep long => ?_, fun limits => ⟨fun same => ?_, fun ⟨deep, long⟩ => ?_⟩⟩
  · exact (run_same limits ended (Nat.le_trans bound.1 deep) (Nat.le_trans bound.2 long)).1
  · rw [← used_of_same ended same]
    exact used_le (self.withLimits limits) call trace
  · exact (run_same limits ended deep long).1

-- A function that counts down with a loop, from three.
theorem countdown_takes_three_passes :
    let requests : List Module.Request := [.addFunction "count", .addNode 0 .iterate, .addGraph 1,
      .addNode 2 .minus, .wire ⟨3, 1⟩ ⟨2, 1⟩, .setLiteral ⟨3, 2⟩ (.int 1), .wire ⟨2, 1⟩ ⟨3, 1⟩,
      .wire ⟨1, 1⟩ ⟨0, 1⟩, .wire ⟨0, 1⟩ ⟨1, 1⟩]
    let self : Interpreter := { m := Module.run Module.initial requests, traced := true }
    let call : Call := .function "count" [.int 3]
    ¬ Limited (self.run call #[]) ∧ ∀ limits, (self.withLimits limits).run call #[] = self.run call #[] ↔
      2 ≤ limits.depth ∧ 3 ≤ limits.iterations := by
  intro requests self call
  have ended : ¬ Limited (self.run call #[]) := by decide +kernel
  have used : self.used call #[] = ⟨2, 3⟩ := by decide +kernel
  have cut := (limits_only_cut self call #[] ended).2
  rw [used] at cut
  exact ⟨ended, cut⟩

end Dataflow.Interpreter
