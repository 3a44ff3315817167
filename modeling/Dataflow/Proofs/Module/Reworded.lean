import Dataflow.Proofs.Module.Reading
set_option autoImplicit false

-- Reading line by line, from lines in other words. Nothing but a refusal looks at the words of a line once it
-- is parsed, so readings of records that agree go from state to state alike.
namespace Dataflow.Module.Read
open Record (Word)

theorem on_line_again {α : Type} {line : Word} {parsed : Record.Parsed α} {value : α} (other : Word)
    (done : onLine line parsed = .ok value) : onLine other parsed = .ok value := by
  rw [on_line_ok done]
  rfl

theorem on_line_of_ok {α : Type} {parsed : Record.Parsed α} {value : α} (line : Word) (done : parsed = .ok value) :
    onLine line parsed = .ok value := by
  rw [done]
  rfl

theorem apply_again {α : Type} {line : Word} {change : Change α} {m : Module} {result : α × Module} (other : Word)
    (done : apply line change m = .ok result) : apply other change m = .ok result :=
  apply_of_ok (apply_ok done)

/-! ### States -/

def Pending.Reworded (pending twin : Pending) : Prop :=
  ∃ line, twin = { pending with line := line }

inductive Scope.Reworded : Scope → Scope → Prop
  | graph (id : NodeId) {pending twins : List Pending} : List.Forall₂ Pending.Reworded pending twins →
      Scope.Reworded (.graph id pending) (.graph id twins)
  | compound (id : NodeId) (header : CompoundRecord) (graphs : List NodeId) :
      Scope.Reworded (.compound id header graphs) (.compound id header graphs)

structure State.Reworded (state twin : State) : Prop where
  m : twin.m = state.m
  scopes : List.Forall₂ Scope.Reworded state.scopes twin.scopes

theorem resolve_reworded {graph : NodeId} {nodes : List NodeId} {m changed : Module} {pending twin : Pending}
    (reworded : pending.Reworded twin) (done : resolve graph nodes m pending = .ok changed) :
    resolve graph nodes m twin = .ok changed := by
  obtain ⟨line, rfl⟩ := reworded
  obtain ⟨old, target, port, feed, type, pragmas⟩ := pending
  cases feed with
  | wire label outlet =>
      obtain ⟨source, found, done⟩ := Outcome.bind_ok done
      obtain ⟨inlet, foundToo, done⟩ := Outcome.bind_ok done
      obtain ⟨result, fed, done⟩ := Outcome.bind_ok done
      exact (Outcome.bind_of_ok (on_line_again line found)).trans
        ((Outcome.bind_of_ok (on_line_again line foundToo)).trans
          ((Outcome.bind_of_ok (apply_again line fed)).trans done))
  | text text =>
      obtain ⟨inlet, found, done⟩ := Outcome.bind_ok done
      obtain ⟨result, fed, done⟩ := Outcome.bind_ok done
      exact (Outcome.bind_of_ok (on_line_again line found)).trans
        ((Outcome.bind_of_ok (apply_again line fed)).trans done)

theorem end_graph_reworded {id : NodeId} {pending twins : List Pending} {m changed : Module}
    (each : List.Forall₂ Pending.Reworded pending twins) (done : endGraph id pending m = .ok changed) :
    endGraph id twins m = .ok changed := by
  unfold endGraph at done ⊢
  generalize (m.nodes[id]?.map Node.nodes).getD [] = nodes at done ⊢
  induction each generalizing m with
  | nil => exact done
  | cons here _ ih =>
      obtain ⟨middle, first, later⟩ := Outcome.fold_m_cons done
      rw [List.foldlM_cons, Outcome.bind_of_ok (resolve_reworded here first)]
      exact ih later

theorem end_all_reworded {line : Word} (other : Word) {m changed : Module} {scopes twins : List Scope}
    (each : List.Forall₂ Scope.Reworded scopes twins) (done : endAll line m scopes = .ok changed) :
    endAll other m twins = .ok changed := by
  induction each generalizing m with
  | nil => exact done
  | cons here _ ih =>
      cases here with
      | compound => cases done
      | graph id pending =>
          obtain ⟨middle, first, later⟩ := Outcome.bind_ok done
          exact (Outcome.bind_of_ok (end_graph_reworded pending first)).trans (ih later)

theorem end_subgraph_reworded {state twin next : State} (reworded : state.Reworded twin)
    (done : endSubgraph state = .ok next) : ∃ nextTwin, endSubgraph twin = .ok nextTwin ∧ next.Reworded nextTwin := by
  obtain ⟨_, scopes⟩ := state
  obtain ⟨m, twins⟩ := twin
  obtain ⟨rfl, each⟩ := reworded
  cases each with
  | nil =>
      cases done
      exact ⟨_, rfl, rfl, .nil⟩
  | @cons scope twin scopes twins here rest =>
      cases here with
      | compound id header graphs =>
          cases done
          exact ⟨_, rfl, rfl, .cons (.compound id header graphs) rest⟩
      | graph id pending =>
          rw [end_subgraph_eq] at done
          rw [end_subgraph_eq]
          match role : m.role? id with
          | some (.subgraph compound) =>
              rw [role] at done
              obtain ⟨changed, ended, done⟩ := Outcome.bind_ok done
              cases done
              exact ⟨_, (Outcome.bind_of_ok (end_graph_reworded pending ended)).trans rfl, rfl, rest⟩
          | none | some (.function _) | some (.node _) =>
              rw [role] at done
              cases done
              exact ⟨_, rfl, rfl, .cons (.graph id pending) rest⟩

/-! ### Records -/

section Records
variable {state twin next : State} {line : Word}

theorem add_node_at_reworded (other : Word) {label : Nat} {op : Opcode} {result : NodeId × Module}
    (reworded : state.Reworded twin) (done : addNodeAt line label op state = .ok result) :
    addNodeAt other label op twin = .ok result := by
  obtain ⟨_, scopes⟩ := state
  obtain ⟨m, twins⟩ := twin
  obtain ⟨rfl, each⟩ := reworded
  cases each with
  | nil => cases done
  | cons here rest =>
      cases here with
      | compound => cases done
      | graph id pending =>
          unfold addNodeAt at done ⊢
          dsimp only at done ⊢
          split at done
          · rename_i expected
            rw [if_pos expected]
            exact apply_again other done
          · cases done

theorem add_pending_reworded {pending pendingTwin : Pending} (reworded : state.Reworded twin)
    (same : pending.Reworded pendingTwin) (done : addPending pending state = .ok next) :
    ∃ nextTwin, addPending pendingTwin twin = .ok nextTwin ∧ next.Reworded nextTwin := by
  obtain ⟨_, scopes⟩ := state
  obtain ⟨m, twins⟩ := twin
  obtain ⟨rfl, each⟩ := reworded
  cases each with
  | nil => cases done
  | cons here rest =>
      cases here with
      | compound => cases done
      | graph id earlier =>
          cases done
          exact ⟨_, rfl, rfl, .cons (.graph id (List.rel_append earlier (.cons same .nil))) rest⟩

theorem read_node_reworded (reworded : state.Reworded twin) (done : readNode line state = .ok next) :
    ∃ nextTwin, readNode line twin = .ok nextTwin ∧ next.Reworded nextTwin := by
  obtain ⟨record, parsed, done⟩ := Outcome.bind_ok done
  obtain ⟨⟨id, m⟩, added, done⟩ := Outcome.bind_ok done
  cases done
  exact ⟨_, (Outcome.bind_of_ok parsed).trans ((Outcome.bind_of_ok (add_node_at_reworded line reworded added)).trans rfl),
    rfl, reworded.scopes⟩

theorem begin_compound_reworded (reworded : state.Reworded twin) (done : beginCompound line state = .ok next) :
    ∃ nextTwin, beginCompound line twin = .ok nextTwin ∧ next.Reworded nextTwin := by
  obtain ⟨header, parsed, done⟩ := Outcome.bind_ok done
  obtain ⟨⟨id, m⟩, added, done⟩ := Outcome.bind_ok done
  cases done
  exact ⟨_, (Outcome.bind_of_ok parsed).trans ((Outcome.bind_of_ok (add_node_at_reworded line reworded added)).trans rfl),
    rfl, .cons (.compound id header []) reworded.scopes⟩

theorem begin_subgraph_reworded (reworded : state.Reworded twin) (done : beginSubgraph line state = .ok next) :
    ∃ nextTwin, beginSubgraph line twin = .ok nextTwin ∧ next.Reworded nextTwin := by
  obtain ⟨pragmas, parsed, done⟩ := Outcome.bind_ok done
  obtain ⟨middle, ended, done⟩ := Outcome.bind_ok done
  obtain ⟨middleTwin, endedToo, same⟩ := end_subgraph_reworded reworded ended
  obtain ⟨_, scopes⟩ := middle
  obtain ⟨m, twins⟩ := middleTwin
  obtain ⟨rfl, each⟩ := same
  cases each with
  | nil => cases done
  | cons here rest =>
      cases here with
      | graph => cases done
      | compound compound header graphs =>
          obtain ⟨⟨id, changed⟩, added, done⟩ := Outcome.bind_ok done
          cases done
          exact ⟨_, (Outcome.bind_of_ok parsed).trans ((Outcome.bind_of_ok endedToo).trans
            ((Outcome.bind_of_ok added).trans rfl)), rfl, .cons (.graph id .nil) (.cons (.compound _ _ _) rest)⟩

theorem end_compound_reworded (reworded : state.Reworded twin) (done : endCompound line state = .ok next) :
    ∃ nextTwin, endCompound line twin = .ok nextTwin ∧ next.Reworded nextTwin := by
  obtain ⟨middle, ended, done⟩ := Outcome.bind_ok done
  obtain ⟨middleTwin, endedToo, same⟩ := end_subgraph_reworded reworded ended
  obtain ⟨_, scopes⟩ := middle
  obtain ⟨m, twins⟩ := middleTwin
  obtain ⟨rfl, each⟩ := same
  cases each with
  | nil => cases done
  | cons here rest =>
      cases here with
      | graph => cases done
      | compound id header graphs =>
          obtain ⟨⟨children, pragmas⟩, parsed, done⟩ := Outcome.bind_ok done
          cases done
          exact ⟨_, (Outcome.bind_of_ok endedToo).trans ((Outcome.bind_of_ok parsed).trans rfl), rfl, rest⟩

end Records

end Dataflow.Module.Read
