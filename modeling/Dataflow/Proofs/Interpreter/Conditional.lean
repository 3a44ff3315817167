import Dataflow.Proofs.Interpreter.Asked
import Dataflow.Proofs.Interpreter.Sessions
import Dataflow.Proofs.Module.Request
import Mathlib.Data.List.Basic
set_option autoImplicit false

-- Conditionals. Tests are evaluated one after another until one of them holds, then the body next to it or,
-- where none holds, the last graph; nothing else is evaluated.
namespace Dataflow.Interpreter

-- A test with its body.
abbrev Branch := NodeId × NodeId

-- The child graphs in their order.
def chained (branches : List Branch) (otherwise : NodeId) : List NodeId :=
  branches.flatMap (fun branch => [branch.1, branch.2]) ++ [otherwise]

-- What a test says, if it says anything.
def verdict (results : List Value) : Option Bool :=
  results.head?.map Value.isTrue

section
variable {σ : Type}

-- Tests that are evaluated in turn, none of which holds.
inductive Rejected (evaluate : EvaluatorOn σ) (args : List Value) : List NodeId → σ → σ → Prop
  | none (state : σ) : Rejected evaluate args [] state state
  | next {test : NodeId} {rest : List NodeId} {state middle left : σ} {results : List Value}
      (turn : evaluate test args state = .ok results middle) (fails : verdict results = some false)
      (later : Rejected evaluate args rest middle left) : Rejected evaluate args (test :: rest) state left

-- How a chain of tests ends, with the graphs that are evaluated on the way.
inductive Chooses (evaluate : EvaluatorOn σ) (id : NodeId) (args : List Value) (branches : List Branch)
    (otherwise : NodeId) (state : σ) : List NodeId → EStateM.Result RunError σ (List Value) → Prop
  | taken {before after : List Branch} {test body : NodeId} {middle left : σ} {results : List Value}
      (split : branches = before ++ (test, body) :: after)
      (rejected : Rejected evaluate args (before.map Prod.fst) state middle)
      (turn : evaluate test args middle = .ok results left) (holds : verdict results = some true) :
      Chooses evaluate id args branches otherwise state (before.map Prod.fst ++ [test, body])
        (evaluate body args left)
  | otherwise {middle : σ} (rejected : Rejected evaluate args (branches.map Prod.fst) state middle) :
      Chooses evaluate id args branches otherwise state (branches.map Prod.fst ++ [otherwise])
        (evaluate otherwise args middle)
  | failed {before after : List Branch} {test body : NodeId} {middle left : σ} {error : RunError}
      (split : branches = before ++ (test, body) :: after)
      (rejected : Rejected evaluate args (before.map Prod.fst) state middle)
      (turn : evaluate test args middle = .error error left) :
      Chooses evaluate id args branches otherwise state (before.map Prod.fst ++ [test]) (.error error left)
  | mute {before after : List Branch} {test body : NodeId} {middle left : σ}
      (split : branches = before ++ (test, body) :: after)
      (rejected : Rejected evaluate args (before.map Prod.fst) state middle)
      (turn : evaluate test args middle = .ok [] left) :
      Chooses evaluate id args branches otherwise state (before.map Prod.fst ++ [test])
        (.error (.invalidCompound id (.emptyTest test)) left)

end

/-! ### Child graphs -/

theorem length_chained (branches : List Branch) (otherwise : NodeId) :
    (chained branches otherwise).length = 2 * branches.length + 1 := by
  induction branches with
  | nil => rfl
  | cons branch rest ih =>
      have step : (chained (branch :: rest) otherwise).length = (chained rest otherwise).length + 2 := rfl
      rw [step, ih, List.length_cons]
      omega

theorem chained_inj {branches others : List Branch} {otherwise other : NodeId}
    (same : chained branches otherwise = chained others other) : branches = others ∧ otherwise = other := by
  have count := congrArg List.length same
  rw [length_chained, length_chained] at count
  induction branches generalizing others with
  | nil =>
      obtain rfl := List.length_eq_zero_iff.mp (show others.length = 0 by rw [List.length_nil] at count; omega)
      cases same
      exact ⟨rfl, rfl⟩
  | cons branch rest ih =>
      cases others with
      | nil =>
          rw [List.length_cons, List.length_nil] at count
          omega
      | cons twin more =>
          obtain ⟨test, body, later⟩ : branch.1 = twin.1 ∧ branch.2 = twin.2 ∧
              chained rest otherwise = chained more other := by simpa [chained] using same
          obtain ⟨rfl, last⟩ := ih later (by rw [List.length_cons, List.length_cons] at count; omega)
          exact ⟨by rw [Prod.ext test body], last⟩

theorem chained_exists : (children : List NodeId) → children.length % 2 = 1 →
    ∃ branches otherwise, children = chained branches otherwise
  | [], odd => by cases odd
  | [otherwise], _ => ⟨[], otherwise, rfl⟩
  | test :: body :: rest, odd => by
      rw [List.length_cons, List.length_cons, Nat.add_assoc, Nat.add_mod_right] at odd
      obtain ⟨branches, otherwise, same⟩ := chained_exists rest odd
      exact ⟨(test, body) :: branches, otherwise, by rw [same]; rfl⟩

/-! ### Chains of tests -/

section Chain
variable {σ : Type} {evaluate : EvaluatorOn σ} {id otherwise : NodeId} {args : List Value} {branches : List Branch}
  {state left : σ}

theorem cases_next {test body : NodeId} {rest : List Branch} :
    cases evaluate id args (chained ((test, body) :: rest) otherwise) = (do
      let outcome ← evaluate test args
      match outcome.head? with
      | none => throw (.invalidCompound id (.emptyTest test))
      | some taken =>
          if taken.isTrue then evaluate body args else cases evaluate id args (chained rest otherwise)) := rfl

theorem cases_turn {test body : NodeId} {rest : List Branch} {results : List Value} {taken : Bool}
    (turn : evaluate test args state = .ok results left) (tells : verdict results = some taken) :
    cases evaluate id args (chained ((test, body) :: rest) otherwise) state =
      if taken then evaluate body args left else cases evaluate id args (chained rest otherwise) left := by
  obtain ⟨first, head, rfl⟩ := Option.map_eq_some_iff.mp tells
  rw [cases_next, bind_run_ok turn, head]
  dsimp only
  split <;> rfl

theorem cases_rejected {before after : List Branch}
    (rejected : Rejected evaluate args (before.map Prod.fst) state left) :
    cases evaluate id args (chained (before ++ after) otherwise) state =
      cases evaluate id args (chained after otherwise) left := by
  induction before generalizing state with
  | nil =>
      cases rejected
      rfl
  | cons branch rest ih =>
      cases rejected with
      | next turn fails later => exact (cases_turn turn fails).trans (ih later)

theorem rejected_append {tests more : List NodeId} {middle : σ} (rejected : Rejected evaluate args tests state middle)
    (later : Rejected evaluate args more middle left) : Rejected evaluate args (tests ++ more) state left := by
  induction rejected with
  | none => exact later
  | next turn fails _ ih => exact .next turn fails (ih later)

-- Each way in which a chain may end is the way in which it does.
theorem cases_of_chooses {graphs : List NodeId} {ending : EStateM.Result RunError σ (List Value)}
    (chooses : Chooses evaluate id args branches otherwise state graphs ending) :
    cases evaluate id args (chained branches otherwise) state = ending := by
  cases chooses with
  | taken split rejected turn holds =>
      rw [split, cases_rejected rejected, cases_turn turn holds]
      rfl
  | otherwise rejected =>
      have whole := @cases_rejected _ evaluate id otherwise args _ _ _ [] rejected
      rw [List.append_nil] at whole
      exact whole
  | failed split rejected turn =>
      rw [split, cases_rejected rejected, cases_next]
      exact bind_run_error turn
  | mute split rejected turn =>
      rw [split, cases_rejected rejected, cases_next, bind_run_ok turn]
      rfl

-- The induction is on the branches: a test that fails leaves the rest of them.
theorem chooses_exists (evaluate : EvaluatorOn σ) (id otherwise : NodeId) (args : List Value)
    (branches : List Branch) (state : σ) :
    ∃ graphs ending, Chooses evaluate id args branches otherwise state graphs ending := by
  suffices found : ∀ after before middle, branches = before ++ after →
      Rejected evaluate args (before.map Prod.fst) state middle →
        ∃ graphs ending, Chooses evaluate id args branches otherwise state graphs ending from
    found branches [] state rfl (.none state)
  intro after
  induction after with
  | nil =>
      rintro before middle split rejected
      rw [List.append_nil] at split
      rw [← split] at rejected
      exact ⟨_, _, .otherwise rejected⟩
  | cons branch rest ih =>
      intro before middle split rejected
      obtain ⟨test, body⟩ := branch
      cases turn : evaluate test args middle with
      | error error left => exact ⟨_, _, .failed split rejected turn⟩
      | ok results left =>
          cases results with
          | nil => exact ⟨_, _, .mute split rejected turn⟩
          | cons first others =>
              cases tells : first.isTrue with
              | true => exact ⟨_, _, .taken split rejected turn (congrArg some tells)⟩
              | false =>
                  refine ih (before ++ [(test, body)]) left (by rw [split]; simp) ?_
                  rw [List.map_append]
                  exact rejected_append rejected (.next turn (congrArg some tells) (.none left))

-- Only what is evaluated matters.
theorem rejected_congr {other : EvaluatorOn σ} {tests : List NodeId}
    (agree : ∀ test ∈ tests, ∀ state, other test args state = evaluate test args state)
    (rejected : Rejected evaluate args tests state left) : Rejected other args tests state left := by
  induction rejected with
  | none state => exact .none state
  | next turn fails _ ih =>
      obtain ⟨here, rest⟩ := List.forall_mem_cons.mp agree
      exact .next ((here _).trans turn) fails (ih rest)

theorem chooses_congr {other : EvaluatorOn σ} {graphs : List NodeId} {ending : EStateM.Result RunError σ (List Value)}
    (chooses : Chooses evaluate id args branches otherwise state graphs ending)
    (agree : ∀ graph ∈ graphs, ∀ state, other graph args state = evaluate graph args state) :
    Chooses other id args branches otherwise state graphs ending := by
  obtain ⟨tests, last⟩ : (∀ {before more}, graphs = before ++ more → ∀ test ∈ before, ∀ state,
      other test args state = evaluate test args state) ∧ ∀ {before more}, graphs = before ++ more →
        ∀ test ∈ more, ∀ state, other test args state = evaluate test args state :=
    ⟨fun split test member => agree test (by rw [split]; exact List.mem_append_left _ member),
      fun split test member => agree test (by rw [split]; exact List.mem_append_right _ member)⟩
  cases chooses with
  | taken split rejected turn holds =>
      rw [← last rfl _ (List.mem_cons_of_mem _ List.mem_cons_self)]
      exact .taken split (rejected_congr (tests rfl) rejected) ((last rfl _ List.mem_cons_self _).trans turn) holds
  | otherwise rejected =>
      rw [← last rfl _ List.mem_cons_self]
      exact .otherwise (rejected_congr (tests rfl) rejected)
  | failed split rejected turn =>
      exact .failed split (rejected_congr (tests rfl) rejected) ((last rfl _ List.mem_cons_self _).trans turn)
  | mute split rejected turn =>
      exact .mute split (rejected_congr (tests rfl) rejected) ((last rfl _ List.mem_cons_self _).trans turn)

theorem rejected_asking {tests : List NodeId} (rejected : Rejected evaluate args tests state left)
    (questions : List Question) : Rejected (asking evaluate) args tests ⟨state, questions⟩
      ⟨left, questions ++ tests.map (·, args)⟩ := by
  induction rejected generalizing questions with
  | none state =>
      rw [List.map_nil, List.append_nil]
      exact .none _
  | @next test rest state middle left results turn fails _ ih =>
      have later := ih (questions ++ [(test, args)])
      rw [List.append_assoc] at later
      exact .next (asking_ok questions turn) fails later

theorem chooses_asking {graphs : List NodeId} {ending : EStateM.Result RunError σ (List Value)}
    (chooses : Chooses evaluate id args branches otherwise state graphs ending) :
    Chooses (asking evaluate) id args branches otherwise ⟨state, []⟩ graphs
      (noted (graphs.map (·, args)) ending) := by
  cases chooses with
  | taken split rejected turn holds =>
      have whole : Chooses (asking evaluate) id args branches otherwise ⟨state, []⟩ _ _ :=
        .taken split (rejected_asking rejected []) (asking_ok _ turn) holds
      simpa [asking] using whole
  | otherwise rejected =>
      have whole : Chooses (asking evaluate) id args branches otherwise ⟨state, []⟩ _ _ :=
        .otherwise (rejected_asking rejected [])
      simpa [asking] using whole
  | failed split rejected turn =>
      have whole : Chooses (asking evaluate) id args branches otherwise ⟨state, []⟩ _ _ :=
        .failed split (rejected_asking rejected []) (asking_error _ turn)
      simpa [noted] using whole
  | mute split rejected turn =>
      have whole : Chooses (asking evaluate) id args branches otherwise ⟨state, []⟩ _ _ :=
        .mute split (rejected_asking rejected []) (asking_ok _ turn)
      simpa [noted] using whole

end Chain

/-! ### The node -/

section Node
variable {σ : Type} {self : Interpreter} {evaluate other : EvaluatorOn σ} {id : NodeId} {node : Node}
  {args : List Value} {state : σ} {questions : List Question} {ending : EStateM.Result RunError σ (List Value)}

theorem outputs_conditional (op : node.opcode = .ifThenElse) (evaluate : EvaluatorOn σ) (id : NodeId)
    (args : List Value) : self.outputs evaluate id node args = conditional evaluate id node.children args := by
  unfold outputs
  rw [op]

theorem conditional_many {children : List NodeId} (apart : children.length ≠ 2) (evaluate : EvaluatorOn σ)
    (id : NodeId) (args : List Value) : conditional evaluate id children args =
      if 3 ≤ children.length ∧ children.length % 2 = 1 then cases evaluate id args children
      else throw (.invalidCompound id (.branches children.length)) := by
  unfold conditional
  split
  · exact absurd rfl apart
  · rfl

theorem ends_of_chooses {branches : List Branch} {otherwise : NodeId} {graphs : List NodeId}
    (op : node.opcode = .ifThenElse) (children : node.children = chained branches otherwise)
    (many : 3 ≤ node.children.length) (chooses : Chooses evaluate id args branches otherwise state graphs ending) :
    self.Ends evaluate id node args state (graphs.map (·, args)) ending := by
  have odd := length_chained branches otherwise
  rw [children] at many
  refine ends_of_asked ?_
  rw [outputs_conditional op, children, conditional_many (by omega), if_pos ⟨many, by omega⟩]
  exact cases_of_chooses (chooses_asking chooses)

theorem ends_chain_iff {branches : List Branch} {otherwise : NodeId} (op : node.opcode = .ifThenElse)
    (children : node.children = chained branches otherwise) (many : 3 ≤ node.children.length) :
    self.Ends evaluate id node args state questions ending ↔ ∃ graphs, questions = graphs.map (·, args) ∧
      Chooses evaluate id args branches otherwise state graphs ending := by
  constructor
  · intro ends
    obtain ⟨graphs, other, chooses⟩ := chooses_exists evaluate id otherwise args branches state
    obtain ⟨rfl, rfl⟩ := ends.unique (ends_of_chooses op children many chooses)
    exact ⟨graphs, rfl, chooses⟩
  · rintro ⟨graphs, rfl, chooses⟩
    exact ends_of_chooses op children many chooses

theorem ends_without_input {yes no : NodeId} (op : node.opcode = .ifThenElse) (children : node.children = [yes, no]) :
    self.Ends evaluate id node [] state [] (.error (.operation id (.arity 1 0)) state) := by
  refine ends_of_asked ?_
  rw [outputs_conditional op, children]
  rfl

theorem ends_pair {yes no : NodeId} (op : node.opcode = .ifThenElse) (children : node.children = [yes, no])
    (first : Value) (rest : List Value) :
    self.Ends evaluate id node (first :: rest) state [(if first.isTrue then yes else no, first :: rest)]
      (evaluate (if first.isTrue then yes else no) (first :: rest) state) := by
  refine ends_of_asked ?_
  rw [outputs_conditional op, children]
  rfl

theorem ends_unusable (op : node.opcode = .ifThenElse) (apart : node.children.length ≠ 2)
    (unusable : ¬ (3 ≤ node.children.length ∧ node.children.length % 2 = 1)) :
    self.Ends evaluate id node args state [] (.error (.invalidCompound id (.branches node.children.length)) state) := by
  refine ends_of_asked ?_
  rw [outputs_conditional op, conditional_many apart, if_neg unusable]
  rfl

-- What a graph that is not evaluated would answer makes no difference.
theorem ends_congr (op : node.opcode = .ifThenElse) (ends : self.Ends evaluate id node args state questions ending)
    (agree : ∀ question ∈ questions, ∀ state,
      other question.1 question.2 state = evaluate question.1 question.2 state) :
    self.Ends other id node args state questions ending := by
  by_cases two : node.children.length = 2
  · obtain ⟨yes, no, children⟩ := List.length_eq_two.mp two
    cases args with
    | nil =>
        obtain ⟨rfl, rfl⟩ := ends.unique (ends_without_input op children)
        exact ends_without_input op children
    | cons first rest =>
        obtain ⟨rfl, rfl⟩ := ends.unique (ends_pair op children first rest)
        have same := agree _ List.mem_cons_self state
        rw [← same]
        exact ends_pair op children first rest
  by_cases many : 3 ≤ node.children.length ∧ node.children.length % 2 = 1
  · obtain ⟨branches, otherwise, children⟩ := chained_exists node.children many.2
    obtain ⟨graphs, rfl, chooses⟩ := (ends_chain_iff op children many.1).mp ends
    exact ends_of_chooses op children many.1 (chooses_congr chooses fun graph member =>
      agree _ (List.mem_map_of_mem member))
  · obtain ⟨rfl, rfl⟩ := ends.unique (ends_unusable op two many)
    exact ends_unusable op two many

end Node

theorem conditional_is_lazy {σ : Type} [Recorder σ] (self : Interpreter) (evaluate : EvaluatorOn σ) (id : NodeId)
    {node : Node} (op : node.opcode = .ifThenElse) (args : List Value) (state : σ) :
    (∃ questions ending, self.Ends evaluate id node args state questions ending) ∧
    (∀ questions ending, self.Ends evaluate id node args state questions ending → self.m.node id = .ok node →
      self.Answers evaluate id node args state ending) ∧
    (3 ≤ node.children.length → node.children.length % 2 = 1 → ∃ branches otherwise,
      node.children = chained branches otherwise ∧ ∀ questions ending,
        self.Ends evaluate id node args state questions ending ↔ ∃ graphs, questions = graphs.map (·, args) ∧
          Chooses evaluate id args branches otherwise state graphs ending) ∧
    (∀ yes no, node.children = [yes, no] →
      (args = [] → self.Ends evaluate id node args state [] (.error (.operation id (.arity 1 0)) state)) ∧
      ∀ first ∈ args.head?, self.Ends evaluate id node args state [(if first.isTrue then yes else no, args)]
        (evaluate (if first.isTrue then yes else no) args state)) ∧
    (node.children.length ≠ 2 → ¬ (3 ≤ node.children.length ∧ node.children.length % 2 = 1) →
      self.Ends evaluate id node args state []
        (.error (.invalidCompound id (.branches node.children.length)) state)) ∧
    ∀ questions ending, self.Ends evaluate id node args state questions ending → ∀ other : EvaluatorOn σ,
      (∀ question ∈ questions, ∀ state, other question.1 question.2 state = evaluate question.1 question.2 state) →
        self.Ends other id node args state questions ending := by
  refine ⟨ends_exists self evaluate id node args state, fun _ _ ends known => answers_of_ends known ends,
    fun many odd => ?_, fun yes no children => ⟨?_, ?_⟩, ends_unusable op,
    fun questions ending ends other => ends_congr op ends⟩
  · obtain ⟨branches, otherwise, children⟩ := chained_exists node.children odd
    exact ⟨branches, otherwise, children, fun _ _ => ends_chain_iff op children many⟩
  · rintro rfl
    exact ends_without_input op children
  · intro first head
    obtain ⟨rest, rfl⟩ := List.head?_eq_some_iff.mp head
    exact ends_pair op children first rest

-- The third graph is a test and its body. The second one, which is the last one too, is not evaluated.
theorem second_test_chooses :
    let requests : List Module.Request := [.addFunction "f", .addNode 0 .ifThenElse, .addGraph 1, .addGraph 1,
      .addGraph 1, .pushChild 1 4, .pushChild 1 3, .wire ⟨2, 1⟩ ⟨2, 2⟩, .wire ⟨4, 1⟩ ⟨4, 1⟩]
    let self : Interpreter := { m := Module.run Module.initial requests }
    let args : List Value := [.int 7, .bool false]
    let questions : List Question := [(2, args), (4, args), (4, args)]
    ∃ node, self.m.node 1 = .ok node ∧ node.children = [2, 3, 4, 4, 3] ∧
      self.Ends (self.interpret 9) 1 node args {} questions (.ok [.int 7] {}) ∧
      (∃ final, self.evalNode (self.interpret 9) 1 args {} = .ok [.int 7] final) ∧
      ∀ other : EvaluatorOn Session, (∀ question ∈ questions, ∀ session,
        other question.1 question.2 session = self.interpret 9 question.1 question.2 session) →
          self.Ends other 1 node args {} questions (.ok [.int 7] {}) := by
  intro requests self args questions
  obtain ⟨node, found, op, ports, children⟩ : ∃ node ∈ self.m.nodes[1]?, node.opcode = .ifThenElse ∧
      node.maxOutput = 0 ∧ node.children = [2, 3, 4, 4, 3] := by decide +kernel
  have known : self.m.node 1 = .ok node := Module.node_ok_iff.mpr found
  obtain ⟨-, answers, chain, -, -, congr⟩ := conditional_is_lazy self (self.interpret 9) 1 op args {}
  obtain ⟨branches, otherwise, same, chosen⟩ := chain (by rw [children]; decide) (by rw [children]; rfl)
  obtain ⟨rfl, rfl⟩ := @chained_inj _ [(2, 3), (4, 4)] _ 3 (same.symm.trans children)
  have fails : self.interpret 9 2 args {} = .ok [.bool false] {} := by
    rw [interpret_open 2 args (by decide)]
    rfl
  have holds : self.interpret 9 4 args {} = .ok [.int 7] {} := by
    rw [interpret_open 4 args (by decide)]
    rfl
  have ends : self.Ends (self.interpret 9) 1 node args {} questions (.ok [.int 7] {}) := by
    refine (chosen _ _).mpr ⟨[2, 4, 4], rfl, ?_⟩
    rw [← holds]
    have split : [(2, 3), (4, 4)] = [(2, 3)] ++ (4, 4) :: ([] : List Branch) := rfl
    exact .taken split (.next fails rfl (.none _)) holds rfl
  obtain ⟨final, answer⟩ := answers _ _ ends known
  rw [ports, if_pos (Nat.zero_le _)] at answer
  exact ⟨node, known, children, ends, ⟨final, answer⟩, congr _ _ ends⟩

end Dataflow.Interpreter
