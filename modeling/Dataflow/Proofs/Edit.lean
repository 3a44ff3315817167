import Dataflow.Error
set_option autoImplicit false

-- Changes step by step: what a sequence of edits does when it succeeds, and what holds of the
-- state that it leaves behind whether it succeeds or not.
namespace Dataflow.Edit

variable {σ τ α β : Type}

theorem bind_ok {first : Edit σ α} {next : α → Edit σ β} {state changed : σ} {result : β}
    (done : (first >>= next) state = .ok result changed) :
    ∃ value middle, first state = .ok value middle ∧ next value middle = .ok result changed := by
  change EStateM.bind first next state = _ at done
  unfold EStateM.bind at done
  cases step : first state with
  | ok value middle => exact ⟨value, middle, rfl, by rw [step] at done; exact done⟩
  | error error middle => rw [step] at done; cases done

theorem bind_of_ok {first : Edit σ α} {next : α → Edit σ β} {state middle : σ} {value : α}
    (step : first state = .ok value middle) : (first >>= next) state = next value middle := by
  change EStateM.bind first next state = _
  unfold EStateM.bind
  rw [step]

theorem bind_of_error {first : Edit σ α} {next : α → Edit σ β} {state middle : σ} {error : Error}
    (step : first state = .error error middle) : (first >>= next) state = .error error middle := by
  change EStateM.bind first next state = _
  unfold EStateM.bind
  rw [step]

theorem bind_error {first : Edit σ α} {next : α → Edit σ β} {state changed : σ} {error : Error}
    (refused : (first >>= next) state = .error error changed) :
    first state = .error error changed ∨
      ∃ value middle, first state = .ok value middle ∧ next value middle = .error error changed := by
  cases step : first state with
  | ok value middle =>
      rw [bind_of_ok step] at refused
      exact .inr ⟨value, middle, rfl, refused⟩
  | error other middle =>
      rw [bind_of_error step] at refused
      cases refused
      exact .inl rfl

theorem pure_ok {value result : α} {state changed : σ}
    (done : (pure value : Edit σ α) state = .ok result changed) : value = result ∧ state = changed := by
  cases done
  exact ⟨rfl, rfl⟩

theorem query_ok {find : σ → Except Error α} {state changed : σ} {result : α}
    (done : query find state = .ok result changed) : find state = .ok result ∧ state = changed := by
  unfold query at done
  cases found : find state with
  | ok value => rw [found] at done; cases done; exact ⟨rfl, rfl⟩
  | error error => rw [found] at done; cases done

theorem query_of_ok {find : σ → Except Error α} {state : σ} {value : α}
    (found : find state = .ok value) : query find state = .ok value state := by
  unfold query
  rw [found]

theorem query_of_error {find : σ → Except Error α} {state : σ} {error : Error}
    (missing : find state = .error error) : query find state = .error error state := by
  unfold query
  rw [missing]

theorem query_error {find : σ → Except Error α} {state changed : σ} {error : Error}
    (refused : query find state = .error error changed) : state = changed := by
  unfold query at refused
  cases found : find state with
  | ok value => rw [found] at refused; cases refused
  | error error => rw [found] at refused; cases refused; rfl

theorem missing_of_query {find : σ → Except Error α} {state changed : σ} {error : Error}
    (refused : query find state = .error error changed) : find state = .error error := by
  cases found : find state with
  | ok value => cases (query_of_ok found).symm.trans refused
  | error other =>
      cases (query_of_error found).symm.trans refused
      rfl

theorem bind_query_of_ok {find : σ → Except Error α} {next : α → Edit σ β} {state : σ} {value : α}
    (found : find state = .ok value) : (query find >>= next) state = next value state :=
  bind_of_ok (query_of_ok found)

theorem bind_query_of_error {find : σ → Except Error α} {next : α → Edit σ β} {state : σ}
    {error : Error} (missing : find state = .error error) :
    (query find >>= next) state = .error error state :=
  bind_of_error (query_of_error missing)

theorem bind_get {next : σ → Edit σ β} (state : σ) :
    ((get : Edit σ σ) >>= next) state = next state state := rfl

theorem bind_of_except {next : α → Edit σ β} (value : α) (state : σ) :
    ((ofExcept (.ok value) : Edit σ α) >>= next) state = next value state := rfl

theorem of_except_ok {outcome : Except Error α} {state changed : σ} {result : α}
    (done : (ofExcept outcome : Edit σ α) state = .ok result changed) :
    outcome = .ok result ∧ state = changed := by
  cases outcome with
  | ok value => cases done; exact ⟨rfl, rfl⟩
  | error error => cases done

theorem of_except_error {outcome : Except Error α} {state changed : σ} {error : Error}
    (refused : (ofExcept outcome : Edit σ α) state = .error error changed) : state = changed := by
  cases outcome with
  | ok value => cases refused
  | error error => cases refused; rfl

theorem modify_ok {change : σ → σ} {state changed : σ} {result : PUnit}
    (done : (modify change : Edit σ PUnit) state = .ok result changed) : changed = change state := by
  cases done
  rfl

theorem within_ok {part : σ → τ} {replace : τ → σ → σ} {edit : Edit τ α} {state changed : σ}
    {result : α} (done : within part replace edit state = .ok result changed) :
    ∃ inner, edit (part state) = .ok result inner ∧ changed = replace inner state := by
  unfold within at done
  cases step : edit (part state) with
  | ok value inner => rw [step] at done; cases done; exact ⟨inner, rfl, rfl⟩
  | error error inner => rw [step] at done; cases done

theorem within_of_ok {part : σ → τ} {replace : τ → σ → σ} {edit : Edit τ α} {state : σ}
    {inner : τ} {value : α} (step : edit (part state) = .ok value inner) :
    within part replace edit state = .ok value (replace inner state) := by
  unfold within
  rw [step]

theorem within_of_error {part : σ → τ} {replace : τ → σ → σ} {edit : Edit τ α} {state : σ} {inner : τ}
    {error : Error} (step : edit (part state) = .error error inner) :
    within part replace edit state = .error error (replace inner state) := by
  unfold within
  rw [step]

theorem within_error {part : σ → τ} {replace : τ → σ → σ} {edit : Edit τ α} {state changed : σ} {error : Error}
    (refused : within part replace edit state = .error error changed) :
    ∃ inner, edit (part state) = .error error inner ∧ changed = replace inner state := by
  cases step : edit (part state) with
  | ok value inner => cases (within_of_ok step).symm.trans refused
  | error other inner =>
      cases (within_of_error step).symm.trans refused
      exact ⟨inner, rfl, rfl⟩

theorem bind_congr {first : Edit σ α} {next later : α → Edit σ β} {state : σ}
    (same : ∀ value middle, first state = .ok value middle → next value middle = later value middle) :
    (first >>= next) state = (first >>= later) state := by
  cases step : first state with
  | ok value middle =>
      rw [bind_of_ok step, bind_of_ok step]
      exact same value middle step
  | error error middle => rw [bind_of_error step, bind_of_error step]

theorem found_congr {find : σ → Except Error α} {next later : α → Edit σ β} {state : σ}
    (same : ∀ value, find state = .ok value → next value state = later value state) :
    (query find >>= next) state = (query find >>= later) state := by
  refine bind_congr fun value middle step => ?_
  obtain ⟨found, rfl⟩ := query_ok step
  exact same value found

theorem checked_congr {outcome : Except Error α} {next later : α → Edit σ β} {state : σ}
    (same : ∀ value, outcome = .ok value → next value state = later value state) :
    (ofExcept outcome >>= next) state = (ofExcept outcome >>= later) state := by
  refine bind_congr fun value middle step => ?_
  obtain ⟨checked, rfl⟩ := of_except_ok step
  exact same value checked

theorem result_eq_ok {edit : Edit σ α} {state changed : σ} {value : α} :
    edit.result state = .ok (value, changed) ↔ edit state = .ok value changed := by
  unfold result
  cases edit state with
  | ok found after => simp
  | error error after => simp

/-! ### The state left behind -/

theorem after_of_ok {edit : Edit σ α} {state changed : σ} {value : α}
    (done : edit state = .ok value changed) : edit.after state = changed := by
  simp [after, outcome, done]

theorem after_of_error {edit : Edit σ α} {state changed : σ} {error : Error}
    (refused : edit state = .error error changed) : edit.after state = changed := by
  simp [after, outcome, refused]

-- A relation between the states before and after an edit, refused edits included.
def Moves (relation : σ → σ → Prop) (edit : Edit σ α) : Prop :=
  ∀ state, relation state (edit.after state)

section Moves
variable {relation : σ → σ → Prop}

theorem moves_of_unchanged (reflexive : ∀ state, relation state state) {edit : Edit σ α}
    (unchanged : ∀ state, edit.after state = state) : Moves relation edit := by
  intro state
  rw [unchanged]
  exact reflexive state

theorem moves_pure (reflexive : ∀ state, relation state state) (value : α) :
    Moves relation (pure value : Edit σ α) :=
  moves_of_unchanged reflexive fun _ => rfl

theorem moves_throw (reflexive : ∀ state, relation state state) (error : Error) :
    Moves relation (throw error : Edit σ α) :=
  moves_of_unchanged reflexive fun _ => rfl

theorem after_query (find : σ → Except Error α) (state : σ) : (query find).after state = state := by
  cases found : find state with
  | ok value => exact after_of_ok (query_of_ok found)
  | error error => exact after_of_error (query_of_error found)

theorem moves_query (reflexive : ∀ state, relation state state) (find : σ → Except Error α) :
    Moves relation (query find) :=
  moves_of_unchanged reflexive (after_query find)

theorem moves_of_except (reflexive : ∀ state, relation state state) (outcome : Except Error α) :
    Moves relation (ofExcept outcome : Edit σ α) := by
  refine moves_of_unchanged reflexive fun state => ?_
  cases outcome <;> rfl

theorem moves_modify {change : σ → σ} (holds : ∀ state, relation state (change state)) :
    Moves relation (modify change : Edit σ PUnit) := by
  intro state
  exact holds state

theorem moves_bind (transitive : ∀ a b c, relation a b → relation b c → relation a c)
    {first : Edit σ α} {next : α → Edit σ β} (here : Moves relation first)
    (later : ∀ value, Moves relation (next value)) : Moves relation (first >>= next) := by
  intro state
  cases step : first state with
  | ok value middle =>
      have before : relation state middle := by
        rw [← after_of_ok step]
        exact here state
      have same : (first >>= next).after state = (next value).after middle := by
        simp only [after, outcome, bind_of_ok step]
      rw [same]
      exact transitive _ _ _ before (later value middle)
  | error error middle =>
      rw [after_of_error (bind_of_error step), ← after_of_error step]
      exact here state

theorem moves_checked (reflexive : ∀ state, relation state state) {outcome : Except Error α}
    {next : α → Edit σ β} (later : ∀ value, outcome = .ok value → Moves relation (next value)) :
    Moves relation (ofExcept outcome >>= next) := by
  intro state
  cases outcome with
  | ok value => exact later value rfl state
  | error error => exact reflexive state

theorem related_found {find : σ → Except Error α} {next : α → Edit σ β} {state : σ} (same : relation state state)
    (later : ∀ value, find state = .ok value → relation state ((next value).after state)) :
    relation state ((query find >>= next).after state) := by
  cases found : find state with
  | ok value =>
      have run : (query find >>= next).after state = (next value).after state := by
        simp only [after, outcome, bind_query_of_ok found]
      rw [run]
      exact later value found
  | error error =>
      rw [after_of_error (bind_query_of_error found)]
      exact same

theorem moves_found (reflexive : ∀ state, relation state state) {find : σ → Except Error α} {next : α → Edit σ β}
    (later : ∀ {state value}, find state = .ok value → relation state ((next value).after state)) :
    Moves relation (query find >>= next) :=
  fun state => related_found (reflexive state) fun _ found => later found

theorem moves_got {next : σ → Edit σ β} (later : ∀ state, relation state ((next state).after state)) :
    Moves relation (get >>= next) := by
  intro state
  have same : (get >>= next : Edit σ β).after state = (next state).after state := by
    simp only [after, outcome, bind_get]
  rw [same]
  exact later state

theorem moves_within {inner : τ → τ → Prop} {part : σ → τ} {replace : τ → σ → σ} {edit : Edit τ α}
    (moves : Moves inner edit)
    (lifts : ∀ state changed, inner (part state) changed → relation state (replace changed state)) :
    Moves relation (within part replace edit) := by
  intro state
  have here := moves (part state)
  cases step : edit (part state) with
  | ok value changed =>
      rw [after_of_ok step] at here
      rw [after_of_ok (within_of_ok step)]
      exact lifts state changed here
  | error error changed =>
      rw [after_of_error step] at here
      rw [after_of_error (within_of_error step)]
      exact lifts state changed here

theorem moves_each (reflexive : ∀ state, relation state state)
    (transitive : ∀ a b c, relation a b → relation b c → relation a c) {change : α → Edit σ PUnit}
    (moves : ∀ value, Moves relation (change value)) (values : List α) : Moves relation (values.forM change) := by
  induction values with
  | nil => exact moves_pure reflexive _
  | cons value rest ih => exact moves_bind transitive (moves value) fun _ => ih

theorem moves_map (reflexive : ∀ state, relation state state)
    (transitive : ∀ a b c, relation a b → relation b c → relation a c) {change : α → Edit σ β}
    (moves : ∀ value, Moves relation (change value)) (values : List α) : Moves relation (values.mapM change) := by
  induction values with
  | nil =>
      rw [List.mapM_nil]
      exact moves_pure reflexive _
  | cons value rest ih =>
      rw [List.mapM_cons]
      exact moves_bind transitive (moves value) fun _ =>
        moves_bind transitive ih fun _ => moves_pure reflexive _

end Moves

/-! ### Refusals that change nothing -/

def Intact (edit : Edit σ α) : Prop :=
  ∀ state changed error, edit state = .error error changed → changed = state

section Intact

theorem intact_of_runs {edit : Edit σ α} (runs : ∀ state, ∃ result changed, edit state = .ok result changed) :
    Intact edit := by
  intro state changed error refused
  obtain ⟨result, final, done⟩ := runs state
  cases done.symm.trans refused

theorem intact_throw (error : Error) : Intact (throw error : Edit σ α) := by
  intro state changed other refused
  cases refused
  rfl

theorem intact_modify (change : σ → σ) : Intact (modify change : Edit σ PUnit) :=
  intact_of_runs fun _ => ⟨_, _, rfl⟩

-- An edit that only looks at the state comes before one that changes it.
theorem intact_found {find : σ → Except Error α} {next : α → Edit σ β} (later : ∀ value, Intact (next value)) :
    Intact (query find >>= next) := by
  intro state changed error refused
  rcases bind_error refused with here | ⟨value, _, query, refused⟩
  · exact (query_error here).symm
  · obtain ⟨_, rfl⟩ := query_ok query
    exact later value _ _ _ refused

theorem intact_checked {outcome : Except Error α} {next : α → Edit σ β} (later : ∀ value, Intact (next value)) :
    Intact (ofExcept outcome >>= next) := by
  intro state changed error refused
  rcases bind_error refused with here | ⟨value, _, checked, refused⟩
  · exact (of_except_error here).symm
  · obtain ⟨_, rfl⟩ := of_except_ok checked
    exact later value _ _ _ refused

theorem intact_got {next : σ → Edit σ β} (later : ∀ state, Intact (next state)) : Intact (get >>= next) :=
  fun state _ _ refused => later state _ _ _ ((bind_get state).symm.trans refused)

theorem related_of_intact {relation : σ → σ → Prop} {edit : Edit σ α} {state : σ} (intact : Intact edit)
    (same : relation state state) (done : ∀ value changed, edit state = .ok value changed → relation state changed) :
    relation state (edit.after state) := by
  cases step : edit state with
  | ok value changed =>
      rw [after_of_ok step]
      exact done value changed step
  | error error changed =>
      rw [after_of_error step, intact _ _ _ step]
      exact same

end Intact

end Dataflow.Edit
