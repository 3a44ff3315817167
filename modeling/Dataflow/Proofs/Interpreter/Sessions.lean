import Dataflow.Proofs.Interpreter.Lockstep
set_option autoImplicit false

-- Calls of one interpreter in turn. An evaluation closes what it opens, however it ends, and it only adds to
-- the trace, so each call finds what a new interpreter would find.
namespace Dataflow.Interpreter

/-! ### The trace -/

section Trace
variable {self : Interpreter} {traced : Bool} {related : Trace → Trace → Prop}

theorem lockstep_eval_graph
    (recorded : ∀ entry, Lockstep related (self.record entry) ((self.withTrace traced).record entry)) (depth : Nat)
    (id : NodeId) (args : List Value) :
    Lockstep related (self.evalGraph depth id args) ((self.withTrace traced).evalGraph depth id args) := by
  induction depth generalizing id args with
  | zero => exact lockstep_throw _
  | succ depth ih => exact lockstep_run_graph recorded ih id args

theorem lockstep_run
    (recorded : ∀ entry, Lockstep related (self.record entry) ((self.withTrace traced).record entry)) (call : Call) :
    Lockstep related (self.run call) ((self.withTrace traced).run call) :=
  lockstep_respond recorded (lockstep_eval_graph recorded self.limits.depth) call

def Extends (earlier trace fresh : Trace) : Prop :=
  trace = earlier ++ fresh

theorem recorded_extends (self : Interpreter) (earlier : Trace) (entry : TraceEntry) :
    Lockstep (Extends earlier) (self.record entry : Run Unit) (self.record entry) := by
  rintro trace fresh rfl
  unfold record
  split
  · exact ⟨rfl, Array.push_append⟩
  · exact ⟨rfl, rfl⟩

theorem recorded_anyway (self : Interpreter) (traced : Bool) (entry : TraceEntry) :
    Lockstep (fun _ _ => True) (self.record entry : Run Unit) ((self.withTrace traced).record entry : Run Unit) := by
  intro trace other _
  unfold record
  split <;> split <;> exact ⟨rfl, trivial⟩

end Trace

/-! ### Open evaluations -/

theorem observing_run {σ α : Type} (run : RunOn σ α) (state : σ) : observing run state =
    match run state with
    | .ok value after => .ok (.ok value) after
    | .error error after => .ok (.error error) after := by
  change EStateM.tryCatch (run >>= fun value => pure (Except.ok value)) (fun error => pure (.error error)) state = _
  unfold EStateM.tryCatch
  rw [bind_run]
  cases run state <;> rfl

section Open
variable {self : Interpreter} {session : Session} {steps : Nat}

theorem interpret_full (id : NodeId) (args : List Value) (full : self.limits.depth ≤ session.opened) :
    self.interpret (steps + 1) id args session = .error (.recursionLimit id self.limits.depth) session := by
  have read : (get : RunOn Session Session) session = .ok session session := rfl
  unfold interpret
  refine (bind_run_ok read).trans ?_
  rw [if_pos full]
  rfl

theorem interpret_open (id : NodeId) (args : List Value) (room : session.opened < self.limits.depth) :
    self.interpret (steps + 1) id args session =
      match self.runGraph (self.interpret steps) id args { session with opened := session.opened + 1 } with
      | .ok values after => .ok values { after with opened := after.opened - 1 }
      | .error error after => .error error { after with opened := after.opened - 1 } := by
  have read : (get : RunOn Session Session) session = .ok session session := rfl
  let opening (session : Session) : Session := { session with opened := session.opened + 1 }
  have opens : (modify opening : RunOn Session PUnit) session = .ok () (opening session) := rfl
  conv => lhs; unfold interpret
  refine (bind_run_ok read).trans ?_
  rw [if_neg (Nat.not_le.mpr room)]
  refine (bind_run_ok opens).trans ?_
  rw [bind_run, observing_run]
  cases self.runGraph (self.interpret steps) id args { session with opened := session.opened + 1 } <;> rfl

def Opened (count : Nat) (session : Session) (trace : Trace) : Prop :=
  session = ⟨count, trace⟩

theorem recorded_opened (self : Interpreter) (count : Nat) (entry : TraceEntry) :
    Lockstep (Opened count) (self.record entry : RunOn Session Unit) (self.record entry : Run Unit) := by
  rintro session trace rfl
  unfold record
  split <;> exact ⟨rfl, rfl⟩

-- The count of open evaluations says how many more may be opened, as long as it is what it was after every
-- evaluation inside of this one.
theorem lockstep_interpret {count : Nat} (enough : self.limits.depth < steps + count) (id : NodeId)
    (args : List Value) :
    Lockstep (Opened count) (self.interpret steps id args) (self.evalGraph (self.limits.depth - count) id args) := by
  induction steps generalizing count id args with
  | zero =>
      rw [Nat.sub_eq_zero_of_le (by omega)]
      exact lockstep_throw _
  | succ steps ih =>
      rintro session trace rfl
      by_cases full : self.limits.depth ≤ count
      · rw [interpret_full id args full, Nat.sub_eq_zero_of_le full]
        exact ⟨rfl, rfl⟩
      · have room : count < self.limits.depth := Nat.lt_of_not_le full
        have recorded : ∀ entry, Lockstep (Opened (count + 1)) (self.record entry)
            ((self.withTrace self.traced).record entry) := recorded_opened self (count + 1)
        have inside : Lockstep (Opened (count + 1)) (self.runGraph (self.interpret steps) id args)
            (self.runGraph (self.evalGraph (self.limits.depth - (count + 1))) id args) :=
          lockstep_run_graph recorded (fun id args => ih (by omega) id args) id args
        have here := inside (show Opened (count + 1) ⟨count + 1, trace⟩ trace from rfl)
        rw [interpret_open id args room, show self.limits.depth - count = self.limits.depth - (count + 1) + 1 by omega]
        unfold evalGraph
        dsimp only
        revert here
        cases self.runGraph (self.interpret steps) id args ⟨count + 1, trace⟩ <;>
          cases self.runGraph (self.evalGraph (self.limits.depth - (count + 1))) id args trace
        · rintro ⟨rfl, rfl⟩
          exact ⟨rfl, rfl⟩
        · exact False.elim
        · exact False.elim
        · rintro ⟨rfl, rfl⟩
          exact ⟨rfl, rfl⟩

end Open

/-! ### Calls -/

section Calls
variable {self : Interpreter}

theorem lockstep_perform (self : Interpreter) (call : Call) :
    Lockstep (Opened 0) (self.perform call) (self.run call) := by
  have recorded : ∀ entry, Lockstep (Opened 0) (self.record entry) ((self.withTrace self.traced).record entry) :=
    recorded_opened self 0
  exact lockstep_respond recorded (fun id args => lockstep_interpret (by omega) id args) call

def Answered (answered : Answer × Session) : Ending (List Value) → Prop
  | .ok values trace => answered = (.ok values, ⟨0, trace⟩)
  | .error error trace => answered = (.error error, ⟨0, trace⟩)

-- A call ends as it does on its own, and leaves nothing open.
theorem answered_run (self : Interpreter) (trace : Trace) (call : Call) :
    Answered (self.answer ⟨0, trace⟩ call) (self.run call trace) := by
  have here := lockstep_perform self call (show Opened 0 ⟨0, trace⟩ trace from rfl)
  unfold answer
  revert here
  cases self.perform call ⟨0, trace⟩ <;> cases self.run call trace
  · rintro ⟨rfl, rfl⟩
    rfl
  · exact False.elim
  · exact False.elim
  · rintro ⟨rfl, rfl⟩
    rfl

theorem answer_later (self : Interpreter) (earlier : Trace) (call : Call) :
    self.answer ⟨0, earlier⟩ call =
      ((self.answer {} call).1, ⟨0, earlier ++ (self.answer {} call).2.trace⟩) := by
  have later := answered_run self earlier call
  have fresh := answered_run self #[] call
  have recorded : ∀ entry, Lockstep (Extends earlier) (self.record entry) ((self.withTrace self.traced).record entry) :=
    recorded_extends self earlier
  have here := lockstep_run recorded call (show Extends earlier earlier #[] from Array.append_empty.symm)
  change Ended _ _ (self.run call earlier) (self.run call #[]) at here
  revert later fresh here
  cases self.run call earlier <;> cases self.run call #[]
  · rintro later fresh ⟨rfl, rfl⟩
    rw [later, fresh]
  · exact fun _ _ => False.elim
  · exact fun _ _ => False.elim
  · rintro later fresh ⟨rfl, rfl⟩
    rw [later, fresh]

theorem answer_anyway (self : Interpreter) (traced : Bool) (call : Call) :
    ((self.withTrace traced).answer {} call).1 = (self.answer {} call).1 := by
  have silent := answered_run (self.withTrace traced) #[] call
  have fresh := answered_run self #[] call
  have alike := lockstep_run (recorded_anyway self traced) call
  have here := @alike #[] #[] trivial
  revert silent fresh here
  cases self.run call #[] <;> cases (self.withTrace traced).run call #[]
  · rintro silent fresh ⟨rfl, _⟩
    rw [silent, fresh]
  · exact fun _ _ => False.elim
  · exact fun _ _ => False.elim
  · rintro silent fresh ⟨rfl, _⟩
    rw [silent, fresh]

theorem proceed_calls (self : Interpreter) (calls : List Call) (answers : Array Answer) (trace : Trace) :
    calls.foldl self.proceed (answers, ⟨0, trace⟩) =
      (answers ++ (calls.map fun call => (self.answer {} call).1).toArray,
        ⟨0, trace ++ (calls.flatMap fun call => (self.answer {} call).2.trace.toList).toArray⟩) := by
  induction calls generalizing answers trace with
  | nil => simp
  | cons call rest ih =>
      rw [List.foldl_cons, proceed, answer_later, ih]
      refine Prod.ext (by simp) (congrArg (Session.mk 0) (Array.ext' ?_))
      simp

theorem calls_start_afresh (self : Interpreter) (calls : List Call) :
    (self.serve calls).1.toList = calls.map (fun call => (self.answer {} call).1) ∧
      (self.serve calls).2.trace.toList = calls.flatMap (fun call => (self.answer {} call).2.trace.toList) ∧
      (self.serve calls).2.opened = 0 ∧
      ∀ traced, ((self.withTrace traced).serve calls).1 = (self.serve calls).1 := by
  unfold serve
  refine ⟨?_, ?_, ?_, fun traced => ?_⟩
  · rw [proceed_calls]
    simp
  · rw [proceed_calls]
    simp
  · rw [proceed_calls]
  · rw [proceed_calls, proceed_calls]
    simp only [answer_anyway]

end Calls

end Dataflow.Interpreter
