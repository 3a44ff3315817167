import Dataflow.Proofs.Interpreter.Asked
import Dataflow.Proofs.Interpreter.Sessions
import Dataflow.Proofs.Module.Request
import Dataflow.Proofs.Outcome
import Dataflow.Proofs.Places
import Dataflow.Proofs.SortedMap
set_option autoImplicit false

-- Loops. The body runs on the carried values as long as the first of them is true, and each of its results
-- replaces the value at the place of its port. So the passes make a row of carried values of one length.
namespace Dataflow.Interpreter

-- The ports of the results of a body.
def resultPorts (graph : Node) : List Nat :=
  (resultInputs graph).map (·.1)

-- The carried values after a pass.
def replaced (ports : List Nat) (results values : List Value) : List Value :=
  values.mapIdx fun place value => ((ports.zip results).lookup (place + 1)).getD value

-- There is a carried value for the port.
def Fits (values : List Value) (port : Nat) : Prop :=
  1 ≤ port ∧ port ≤ values.length

instance (values : List Value) : DecidablePred (Fits values) :=
  fun port => inferInstanceAs (Decidable (1 ≤ port ∧ port ≤ values.length))

section
variable {σ : Type}

-- Passes one after another, with the carried values before each of them.
inductive Passes (evaluate : EvaluatorOn σ) (body : NodeId) (ports : List Nat) :
    List Value → σ → List (List Value) → List Value → σ → Prop
  | none (values : List Value) (state : σ) : Passes evaluate body ports values state [] values state
  | next {values results final : List Value} {state middle left : σ} {visited : List (List Value)}
      (goes : Goes values) (fits : ∀ port ∈ ports, Fits values port)
      (turn : evaluate body values state = .ok results middle)
      (later : Passes evaluate body ports (replaced ports results values) middle visited final left) :
      Passes evaluate body ports values state (values :: visited) final left

-- How a loop ends, with the carried values on which its body is evaluated.
inductive Loops (evaluate : EvaluatorOn σ) (id body : NodeId) (ports : List Nat) (limit : Nat) (args : List Value)
    (state : σ) : List (List Value) → EStateM.Result RunError σ (List Value) → Prop
  | done {visited : List (List Value)} {final : List Value} {left : σ}
      (passes : Passes evaluate body ports args state visited final left) (stops : ¬ Goes final)
      (within : visited.length ≤ limit) :
      Loops evaluate id body ports limit args state visited (.ok final left)
  | limit {visited : List (List Value)} {final : List Value} {left : σ}
      (passes : Passes evaluate body ports args state visited final left) (goes : Goes final)
      (reached : visited.length = limit) :
      Loops evaluate id body ports limit args state visited (.error (.iterationLimit id limit) left)
  | failed {visited : List (List Value)} {values : List Value} {middle left : σ} {error : RunError}
      (passes : Passes evaluate body ports args state visited values middle) (goes : Goes values)
      (room : visited.length < limit) (turn : evaluate body values middle = .error error left) :
      Loops evaluate id body ports limit args state (visited ++ [values]) (.error error left)
  | beyond {results : List Value} {left : σ} {port : Nat} (goes : Goes args) (room : 0 < limit)
      (turn : evaluate body args state = .ok results left)
      (misfit : ports.find? (fun port => ¬ Fits args port) = some port) :
      Loops evaluate id body ports limit args state [args] (.error (.invalidCompound id (.noCarriedValue port)) left)

end

/-! ### Carried values -/

theorem length_replaced (ports : List Nat) (results values : List Value) :
    (replaced ports results values).length = values.length :=
  List.length_mapIdx

theorem replaced_at (ports : List Nat) (results values : List Value) (place : Nat) :
    (replaced ports results values)[place]? =
      values[place]?.map fun value => ((ports.zip results).lookup (place + 1)).getD value :=
  List.getElem?_mapIdx

theorem replaced_unbound {ports : List Nat} {results values : List Value} {place : Nat} (unbound : place + 1 ∉ ports) :
    (replaced ports results values)[place]? = values[place]? := by
  have missing : (ports.zip results).lookup (place + 1) = none := by
    refine List.lookup_eq_none_iff.mpr fun pair member => ?_
    refine bne_iff_ne.mpr fun same => unbound ?_
    rw [same]
    exact (List.of_mem_zip member).1
  rw [replaced_at, missing]
  cases values[place]? <;> rfl

theorem replaced_without_results (ports : List Nat) (values : List Value) : replaced ports [] values = values := by
  refine List.ext_getElem? fun place => ?_
  rw [replaced_at, List.zip_nil_right]
  cases values[place]? <;> rfl

-- A port is in the row once, so what is written first stays.
theorem replaced_cons {port : Nat} {ports : List Nat} {result : Value} {results values : List Value} (low : 1 ≤ port)
    (apart : port ∉ ports) : replaced (port :: ports) (result :: results) values =
      replaced ports results (values.set (port - 1) result) := by
  refine List.ext_getElem? fun place => ?_
  by_cases here : place + 1 = port
  · subst here
    have found : ((place + 1, result) :: ports.zip results).lookup (place + 1) = some result := List.lookup_cons_self
    rw [replaced_unbound apart, replaced_at, List.zip_cons_cons, found, Nat.add_sub_cancel, List.getElem?_set_self']
    rfl
  · have other : (place + 1 == port) = false := beq_false_of_ne here
    have different : port - 1 ≠ place := by omega
    rw [replaced_at, replaced_at, List.getElem?_set_ne different, List.zip_cons_cons, List.lookup_cons, other]

theorem fits_congr {values others : List Value} (same : others.length = values.length) : Fits others = Fits values := by
  funext port
  unfold Fits
  rw [same]

theorem carry_fits {id : NodeId} {values : List Value} {port : Nat} (fits : Fits values port) (result : Value) :
    carry id values (port, result) = .ok (values.set (port - 1) result) :=
  if_pos fits

theorem carry_misfit {id : NodeId} {values : List Value} {port : Nat} (misfit : ¬ Fits values port) (result : Value) :
    carry id values (port, result) = .error (.invalidCompound id (.noCarriedValue port)) :=
  if_neg misfit

theorem fold_carry_fits {id : NodeId} {ports : List Nat} {results values : List Value} (once : ports.Nodup)
    (fits : ∀ port ∈ ports, Fits values port) :
    (ports.zip results).foldlM (carry id) values = .ok (replaced ports results values) := by
  induction ports generalizing results values with
  | nil => exact congrArg Except.ok (List.ext_getElem? fun _ => (replaced_unbound List.not_mem_nil).symm)
  | cons port rest ih =>
      cases results with
      | nil => exact congrArg Except.ok (replaced_without_results _ values).symm
      | cons result others =>
          obtain ⟨fit, fitsRest⟩ := List.forall_mem_cons.mp fits
          obtain ⟨apart, onceRest⟩ := List.nodup_cons.mp once
          have still : Fits (values.set (port - 1) result) = Fits values := fits_congr List.length_set
          rw [List.zip_cons_cons, List.foldlM_cons, Outcome.bind_of_ok (carry_fits fit result),
            replaced_cons fit.1 apart]
          exact ih onceRest (by rw [still]; exact fitsRest)

theorem fold_carry_misfit {id : NodeId} {ports : List Nat} {results values : List Value} {port : Nat}
    (enough : results.length = ports.length) (misfit : ports.find? (fun port => ¬ Fits values port) = some port) :
    (ports.zip results).foldlM (carry id) values = .error (.invalidCompound id (.noCarriedValue port)) := by
  induction ports generalizing results values with
  | nil => cases misfit
  | cons first rest ih =>
      cases results with
      | nil => cases enough
      | cons result others =>
          rw [List.zip_cons_cons, List.foldlM_cons]
          by_cases fit : Fits values first
          · have still : Fits (values.set (first - 1) result) = Fits values := fits_congr List.length_set
            rw [List.find?_cons_of_neg (by simp [fit])] at misfit
            rw [Outcome.bind_of_ok (carry_fits fit result)]
            refine ih (Nat.succ.inj enough) ?_
            simp only [still]
            exact misfit
          · rw [List.find?_cons_of_pos (by simp [fit])] at misfit
            cases misfit
            rw [carry_misfit fit]
            rfl

/-! ### Results of a body -/

theorem result_ports_once (graph : Node) : (resultPorts graph).Nodup := by
  refine List.pairwise_map.mpr ((graph.inputs.ascending.filter _).imp ?_)
  intro first second less same
  rw [same] at less
  exact SortedMap.key_lt_irrefl _ less

section Body
variable {self : Interpreter} {id : NodeId} {node graph : Node} {args values : List Value}

theorem run_graph_results {σ : Type} [Recorder σ] {evaluate : EvaluatorOn σ} {state left : σ}
    (known : self.m.node id = .ok graph) (done : self.runGraph evaluate id args state = .ok values left) :
    values.length = (resultPorts graph).length := by
  obtain ⟨found, _, here, done⟩ := bind_run_inv done
  obtain ⟨other, there, isGraph⟩ := Outcome.bind_ok (find_inv here).1
  have same : found = graph := by
    rw [known] at there
    cases there
    split at isGraph <;> cases isGraph
    rfl
  obtain ⟨_, _, _, done⟩ := bind_run_inv done
  obtain ⟨frame, _, _, done⟩ := bind_run_inv done
  rw [same] at done
  rw [resultPorts, List.length_map]
  exact (Outcome.map_m_ok (checked_inv done).1).length_eq.symm

theorem interpret_results {steps : Nat} {session left : Session} (known : self.m.node id = .ok graph)
    (done : self.interpret steps id args session = .ok values left) : values.length = (resultPorts graph).length := by
  cases steps with
  | zero => cases done
  | succ steps =>
      by_cases full : self.limits.depth ≤ session.opened
      · rw [interpret_full id args full] at done
        cases done
      · rw [interpret_open id args (Nat.lt_of_not_le full)] at done
        split at done
        · rename_i inside
          cases done
          exact run_graph_results known inside
        · cases done

theorem outputs_iterate {σ : Type} {body : NodeId} {rest : List NodeId} (op : node.opcode = .iterate)
    (children : node.children = body :: rest) (known : self.m.node body = .ok graph) (evaluate : EvaluatorOn σ) :
    self.outputs evaluate id node args =
      loop id self.limits.iterations (pass evaluate id body (resultPorts graph)) self.limits.iterations args := by
  unfold outputs iterate
  rw [op, children]
  exact bind_find_ok known

end Body

/-! ### Passes -/

section Pass
variable {σ : Type} {evaluate : EvaluatorOn σ} {id body : NodeId} {ports : List Nat} {values results : List Value}
  {state left : σ}

theorem pass_done (once : ports.Nodup) (fits : ∀ port ∈ ports, Fits values port)
    (turn : evaluate body values state = .ok results left) :
    pass evaluate id body ports values state = .ok (replaced ports results values) left := by
  unfold pass
  rw [bind_run_ok turn, fold_carry_fits once fits]
  rfl

theorem pass_failed {error : RunError} (turn : evaluate body values state = .error error left) :
    pass evaluate id body ports values state = .error error left :=
  bind_run_error turn

theorem pass_beyond {port : Nat} (turn : evaluate body values state = .ok results left)
    (enough : results.length = ports.length) (misfit : ports.find? (fun port => ¬ Fits values port) = some port) :
    pass evaluate id body ports values state = .error (.invalidCompound id (.noCarriedValue port)) left := by
  unfold pass
  rw [bind_run_ok turn, fold_carry_misfit enough misfit]
  rfl

theorem length_of_passes {visited : List (List Value)} {final : List Value}
    (passes : Passes evaluate body ports values state visited final left) :
    final.length = values.length ∧ ∀ carried ∈ visited, carried.length = values.length := by
  induction passes with
  | none => exact ⟨rfl, fun _ member => by cases member⟩
  | next goes fits turn _ ih =>
      simp only [length_replaced] at ih
      exact ⟨ih.1, List.forall_mem_cons.mpr ⟨rfl, ih.2⟩⟩

theorem unbound_of_passes {visited : List (List Value)} {final : List Value}
    (passes : Passes evaluate body ports values state visited final left) {place : Nat} (unbound : place + 1 ∉ ports) :
    final[place]? = values[place]? := by
  induction passes with
  | none => rfl
  | next goes fits turn _ ih => exact ih.trans (replaced_unbound unbound)

theorem passes_snoc {visited : List (List Value)} {between : List Value} {middle : σ}
    (passes : Passes evaluate body ports values state visited between middle) (goes : Goes between)
    (fits : ∀ port ∈ ports, Fits between port) (turn : evaluate body between middle = .ok results left) :
    Passes evaluate body ports values state (visited ++ [between]) (replaced ports results between) left := by
  induction passes with
  | none => exact .next goes fits turn (.none _ _)
  | next goesFirst fitsFirst turnFirst _ ih => exact .next goesFirst fitsFirst turnFirst (ih goes fits turn)

theorem loop_of_passes {limit remaining : Nat} {visited : List (List Value)} {final : List Value} (once : ports.Nodup)
    (passes : Passes evaluate body ports values state visited final left) :
    loop id limit (pass evaluate id body ports) (remaining + visited.length) values state =
      loop id limit (pass evaluate id body ports) remaining final left := by
  induction passes with
  | none => rfl
  | next goes fits turn _ ih =>
      rw [List.length_cons, ← Nat.add_assoc, loop_next goes, bind_run_ok (pass_done once fits turn)]
      exact ih

end Pass

/-! ### Loops -/

section Loop
variable {σ : Type} {evaluate : EvaluatorOn σ} {id body : NodeId} {ports : List Nat} {limit : Nat}
  {args : List Value} {state : σ}

-- Each way in which a loop may end is the way in which it does.
theorem loop_of_loops {visited : List (List Value)} {ending : EStateM.Result RunError σ (List Value)}
    (once : ports.Nodup) (whole : ∀ {values middle results left}, evaluate body values middle = .ok results left →
      results.length = ports.length)
    (loops : Loops evaluate id body ports limit args state visited ending) :
    loop id limit (pass evaluate id body ports) limit args state = ending := by
  cases loops with
  | done passes stops within =>
      obtain ⟨room, rfl⟩ := Nat.exists_eq_add_of_le' within
      rw [loop_of_passes once passes, loop_stop stops]
      rfl
  | limit passes goes reached =>
      have all := @loop_of_passes _ _ id _ _ _ _ _ limit 0 _ _ once passes
      rw [Nat.zero_add, reached] at all
      rw [all, loop_limit goes]
      rfl
  | @failed visited values middle left error passes goes room turn =>
      obtain ⟨more, same⟩ : ∃ more, limit = (more + 1) + visited.length := ⟨limit - visited.length - 1, by omega⟩
      conv => lhs; arg 4; rw [same]
      rw [loop_of_passes once passes, loop_next goes]
      exact bind_run_error (pass_failed turn)
  | beyond goes room turn misfit =>
      obtain ⟨more, same⟩ : ∃ more, limit = more + 1 := ⟨limit - 1, by omega⟩
      conv => lhs; arg 4; rw [same]
      rw [loop_next goes]
      exact bind_run_error (pass_beyond turn (whole turn) misfit)

-- The induction is on the passes that remain. A port that is beyond the values is found after the first pass, as
-- every pass before has found a value for it.
theorem loops_exists (evaluate : EvaluatorOn σ) (id body : NodeId) (ports : List Nat) (limit : Nat) (args : List Value)
    (state : σ) : ∃ visited ending, Loops evaluate id body ports limit args state visited ending := by
  suffices found : ∀ remaining visited between middle,
      Passes evaluate body ports args state visited between middle → visited.length + remaining = limit →
        ∃ visited ending, Loops evaluate id body ports limit args state visited ending from
    found limit [] args state (.none args state) (Nat.zero_add limit)
  intro remaining
  induction remaining with
  | zero =>
      intro visited between middle passes count
      by_cases goes : Goes between
      · exact ⟨_, _, .limit passes goes count⟩
      · exact ⟨_, _, .done passes goes (Nat.le_of_eq count)⟩
  | succ remaining ih =>
      intro visited between middle passes count
      by_cases goes : Goes between
      · cases turn : evaluate body between middle with
        | error error left => exact ⟨_, _, .failed passes goes (by omega) turn⟩
        | ok results left =>
            by_cases fits : ∀ port ∈ ports, Fits between port
            · refine ih _ _ _ (passes_snoc passes goes fits turn) ?_
              rw [List.length_append, List.length_singleton]
              omega
            · cases passes with
              | none =>
                  obtain ⟨port, misfit⟩ : ∃ port, ports.find? (fun port => ¬ Fits args port) = some port :=
                    Option.isSome_iff_exists.mp (List.find?_isSome.mpr (by simpa using fits))
                  exact ⟨_, _, .beyond goes (by omega) turn misfit⟩
              | next goesFirst fitsFirst turnFirst later =>
                  have same := (length_of_passes later).1.trans (length_replaced _ _ _)
                  exact absurd (by rw [fits_congr same]; exact fitsFirst) fits
      · exact ⟨_, _, .done passes goes (by omega)⟩

theorem limit_iff {visited : List (List Value)} {culprit : NodeId} {bound : Nat} {left : σ} :
    Loops evaluate id body ports limit args state visited (.error (.iterationLimit culprit bound) left) ↔
      (culprit = id ∧ bound = limit ∧ visited.length = limit ∧
        ∃ final, Passes evaluate body ports args state visited final left ∧ Goes final) ∨
      ∃ earlier values middle, visited = earlier ++ [values] ∧ earlier.length < limit ∧
        Passes evaluate body ports args state earlier values middle ∧ Goes values ∧
        evaluate body values middle = .error (.iterationLimit culprit bound) left := by
  constructor
  · intro loops
    cases loops with
    | limit passes goes reached => exact .inl ⟨rfl, rfl, reached, _, passes, goes⟩
    | failed passes goes room turn => exact .inr ⟨_, _, _, rfl, room, passes, goes, turn⟩
  · rintro (⟨rfl, rfl, reached, final, passes, goes⟩ | ⟨earlier, values, middle, rfl, room, passes, goes, turn⟩)
    · exact .limit passes goes reached
    · exact .failed passes goes room turn

theorem passes_asking {visited : List (List Value)} {final : List Value} {left : σ}
    (passes : Passes evaluate body ports args state visited final left) (questions : List Question) :
    Passes (asking evaluate) body ports args ⟨state, questions⟩ visited final
      ⟨left, questions ++ visited.map (body, ·)⟩ := by
  induction passes generalizing questions with
  | none values state =>
      rw [List.map_nil, List.append_nil]
      exact .none _ _
  | @next values results final state middle left visited goes fits turn _ ih =>
      have later := ih (questions ++ [(body, values)])
      rw [List.append_assoc] at later
      exact .next goes fits (asking_ok questions turn) later

theorem loops_asking {visited : List (List Value)} {ending : EStateM.Result RunError σ (List Value)}
    (loops : Loops evaluate id body ports limit args state visited ending) :
    Loops (asking evaluate) id body ports limit args ⟨state, []⟩ visited (noted (visited.map (body, ·)) ending) := by
  cases loops with
  | done passes stops within => exact .done (passes_asking passes []) stops within
  | limit passes goes reached => exact .limit (passes_asking passes []) goes reached
  | failed passes goes room turn =>
      rw [List.map_append]
      exact .failed (passes_asking passes []) goes room (asking_error _ turn)
  | beyond goes room turn misfit => exact .beyond goes room (asking_ok [] turn) misfit

theorem ends_of_loops {self : Interpreter} {node graph : Node} {rest : List NodeId} {visited : List (List Value)}
    {ending : EStateM.Result RunError σ (List Value)} (op : node.opcode = .iterate)
    (children : node.children = body :: rest) (known : self.m.node body = .ok graph)
    (whole : ∀ {values before results after}, evaluate body values before = .ok results after →
      results.length = (resultPorts graph).length)
    (loops : Loops evaluate id body (resultPorts graph) self.limits.iterations args state visited ending) :
    self.Ends evaluate id node args state (visited.map (body, ·)) ending := by
  refine ends_of_asked ?_
  rw [outputs_iterate op children known]
  exact loop_of_loops (result_ports_once graph) (fun turn => whole (asking_inv turn)) (loops_asking loops)

end Loop

theorem iterate_is_a_bounded_loop (self : Interpreter) (steps : Nat) (id : NodeId) {node graph : Node} {body : NodeId}
    {rest : List NodeId} (op : node.opcode = .iterate) (children : node.children = body :: rest)
    (known : self.m.node body = .ok graph) (args : List Value) (session : Session) :
    let evaluate := self.interpret steps
    let ports := resultPorts graph
    let limit := self.limits.iterations
    (∃ questions ending, self.Ends evaluate id node args session questions ending) ∧
    (∀ questions ending, self.Ends evaluate id node args session questions ending → self.m.node id = .ok node →
      self.Answers evaluate id node args session ending) ∧
    (∀ questions ending, self.Ends evaluate id node args session questions ending ↔ ∃ visited,
      questions = visited.map (body, ·) ∧ Loops evaluate id body ports limit args session visited ending) ∧
    (∀ values before results after, evaluate body values before = .ok results after →
      results.length = ports.length) ∧
    (∀ visited final left, Passes evaluate body ports args session visited final left →
      final.length = args.length ∧ ∀ place, place + 1 ∉ ports → final[place]? = args[place]?) ∧
    ∀ culprit bound left,
      (∃ questions, self.Ends evaluate id node args session questions (.error (.iterationLimit culprit bound) left)) ↔
        (culprit = id ∧ bound = limit ∧ ∃ visited final, visited.length = limit ∧
          Passes evaluate body ports args session visited final left ∧ Goes final) ∨
        ∃ visited values middle, visited.length < limit ∧
          Passes evaluate body ports args session visited values middle ∧ Goes values ∧
          evaluate body values middle = .error (.iterationLimit culprit bound) left := by
  intro evaluate ports limit
  have whole : ∀ {values before results after}, evaluate body values before = .ok results after →
      results.length = ports.length := interpret_results known
  have shape : ∀ questions ending, self.Ends evaluate id node args session questions ending ↔ ∃ visited,
      questions = visited.map (body, ·) ∧ Loops evaluate id body ports limit args session visited ending := by
    intro questions ending
    constructor
    · intro ends
      obtain ⟨visited, other, loops⟩ := loops_exists evaluate id body ports limit args session
      obtain ⟨rfl, rfl⟩ := ends.unique (ends_of_loops op children known whole loops)
      exact ⟨visited, rfl, loops⟩
    · rintro ⟨visited, rfl, loops⟩
      exact ends_of_loops op children known whole loops
  refine ⟨ends_exists self evaluate id node args session, fun _ _ ends known => answers_of_ends known ends, shape,
    fun _ _ _ _ => whole, fun visited final left passes => ⟨(length_of_passes passes).1, fun place =>
      unbound_of_passes passes⟩, fun culprit bound left => ?_⟩
  simp only [shape]
  constructor
  · rintro ⟨_, visited, rfl, loops⟩
    rcases limit_iff.mp loops with ⟨rfl, rfl, reached, final, here⟩ | ⟨earlier, values, middle, _, here⟩
    · exact .inl ⟨rfl, rfl, visited, final, reached, here⟩
    · exact .inr ⟨earlier, values, middle, here⟩
  · rintro (⟨rfl, rfl, visited, final, reached, here⟩ | ⟨earlier, values, middle, here⟩)
    · exact ⟨_, visited, rfl, limit_iff.mpr (.inl ⟨rfl, rfl, reached, final, here⟩)⟩
    · exact ⟨_, _, rfl, limit_iff.mpr (.inr ⟨earlier, values, middle, rfl, here⟩)⟩

-- Every pass shifts the carried values by one place, and the last of them stays.
theorem shift_is_a_bounded_loop :
    let requests : List Module.Request := [.addFunction "shift", .addNode 0 .iterate, .addGraph 1,
      .wire ⟨2, 1⟩ ⟨2, 2⟩, .wire ⟨2, 2⟩ ⟨2, 3⟩, .wire ⟨1, 1⟩ ⟨0, 1⟩, .wire ⟨1, 2⟩ ⟨0, 2⟩, .wire ⟨1, 3⟩ ⟨0, 3⟩]
    let self (iterations : Nat) : Interpreter := { m := Module.run Module.initial requests, limits := ⟨2, iterations⟩ }
    let yes : Value := .bool true
    let no : Value := .bool false
    ∃ node, (∀ iterations, (self iterations).m.node 1 = .ok node) ∧
      (self 2).Ends ((self 2).interpret 1) 1 node [yes, yes, no] {} [(2, [yes, yes, no]), (2, [yes, no, no])]
        (.ok [no, no, no] {}) ∧
      (∃ final, (self 2).evalNode ((self 2).interpret 1) 1 [yes, yes, no] {} = .ok [no, no, no] final) ∧
      (∃ questions, (self 1).Ends ((self 1).interpret 1) 1 node [yes, yes, no] {} questions
        (.error (.iterationLimit 1 1) {})) ∧
      (self 1).evalNode ((self 1).interpret 1) 1 [yes, yes, no] {} = .error (.iterationLimit 1 1) {} := by
  intro requests self yes no
  obtain ⟨node, found, op, children, outlets⟩ : ∃ node, (∀ iterations, (self iterations).m.node 1 = .ok node) ∧
      node.opcode = .iterate ∧ node.children = [2] ∧ node.maxOutput ≤ [no, no, no].length :=
    ⟨_, fun _ => rfl, rfl, rfl, by decide +kernel⟩
  obtain ⟨graph, known, ports⟩ : ∃ graph, (∀ iterations, (self iterations).m.node 2 = .ok graph) ∧
      resultPorts graph = [1, 2] := ⟨_, fun _ => rfl, by decide +kernel⟩
  have first (iterations : Nat) : (self iterations).interpret 1 2 [yes, yes, no] {} = .ok [yes, no] {} := rfl
  have second : (self 2).interpret 1 2 [yes, no, no] {} = .ok [no, no] {} := rfl
  have fits : ∀ port ∈ [1, 2], Fits [yes, yes, no] port := by decide
  obtain ⟨-, answers, shape, -⟩ := iterate_is_a_bounded_loop (self 2) 1 1 op children (known 2) [yes, yes, no] {}
  obtain ⟨-, refused, -, -, -, limited⟩ :=
    iterate_is_a_bounded_loop (self 1) 1 1 op children (known 1) [yes, yes, no] {}
  have ends : (self 2).Ends ((self 2).interpret 1) 1 node [yes, yes, no] {}
      [(2, [yes, yes, no]), (2, [yes, no, no])] (.ok [no, no, no] {}) := by
    refine (shape _ _).mpr ⟨[[yes, yes, no], [yes, no, no]], rfl, ?_⟩
    rw [ports]
    exact .done (.next rfl fits (first 2) (.next rfl fits second (.none _ _))) Bool.false_ne_true (by decide)
  obtain ⟨questions, short⟩ : ∃ questions, (self 1).Ends ((self 1).interpret 1) 1 node [yes, yes, no] {} questions
      (.error (.iterationLimit 1 1) {}) := by
    refine (limited _ _ _).mpr (.inl ⟨rfl, rfl, [[yes, yes, no]], [yes, no, no], rfl, ?_, rfl⟩)
    rw [ports]
    exact .next rfl fits (first 1) (.none _ _)
  obtain ⟨final, answer⟩ := answers _ _ ends (found 2)
  rw [if_pos outlets] at answer
  exact ⟨node, found, ends, ⟨final, answer⟩, ⟨questions, short⟩, refused _ _ short (found 1)⟩

end Dataflow.Interpreter
