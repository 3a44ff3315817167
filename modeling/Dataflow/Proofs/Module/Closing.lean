import Dataflow.Proofs.Module.Feeding
import Dataflow.Proofs.Record.Parsed
set_option autoImplicit false

-- The end of a graph: its records feed the ports of the graph and of its nodes, in their order.
namespace Dataflow.Module.Read
open Record (Word)
open Touches

theorem on_line_bind {α β : Type} (line : Word) (value : α) (next : α → Reading β) :
    (onLine line (.ok value) >>= next) = next value := rfl

theorem apply_ok {α : Type} {line : Word} {change : Change α} {m changed : Module} {value : α}
    (done : apply line change m = .ok (value, changed)) : change m = .ok value changed := by
  unfold apply at done
  cases step : change.result m with
  | ok result =>
      rw [step] at done
      cases done
      exact Edit.result_eq_ok.mp step
  | error error =>
      rw [step] at done
      cases done

theorem apply_of_ok {α : Type} {line : Word} {change : Change α} {m changed : Module} {value : α}
    (step : change m = .ok value changed) : apply line change m = .ok (value, changed) := by
  unfold apply
  rw [Edit.result_eq_ok.mpr step]

/-! ### One record -/

theorem node_at_cases {graph : NodeId} {nodes : List NodeId} {label : Nat} {id : NodeId}
    (found : nodeAt graph nodes label = .ok id) :
    label = 0 ∧ id = graph ∨ 1 ≤ label ∧ nodes[label - 1]? = some id := by
  unfold nodeAt at found
  by_cases zero : label = 0
  · rw [if_pos zero] at found
    cases found
    exact .inl ⟨zero, rfl⟩
  · rw [if_neg zero] at found
    exact .inr ⟨Nat.one_le_iff_ne_zero.mpr zero, Record.require_ok found⟩

theorem scope_of_graph {m : Module} {graph : NodeId} (isGraph : m.IsGraph graph) :
    m.scopeOf graph = .ok graph := by
  obtain ⟨role, found, other⟩ := isGraph
  refine scope_ok_iff.mpr ⟨role, found, ?_⟩
  cases role with
  | node owner => exact absurd rfl (other owner)
  | function name => rfl
  | subgraph compound => rfl

theorem node_at_scope {m : Module} {graph id : NodeId} {label : Nat} (owned : m.Owned)
    (isGraph : m.IsGraph graph) (found : nodeAt graph (m.nodesOf graph) label = .ok id) :
    m.scopeOf id = .ok graph := by
  rcases node_at_cases found with ⟨_, rfl⟩ | ⟨_, place⟩
  · exact scope_of_graph isGraph
  · exact scope_ok_iff.mpr ⟨_, owned.listed (List.mem_of_getElem? place), rfl⟩

-- What one record does to the module when its graph ends.
inductive Fed (graph : NodeId) (nodes : List NodeId) (m : Module) (pending : Pending) : Module → Prop
  | wire {label port : Nat} {source target : NodeId} (feed : pending.feed = .wire label port)
      (sourceAt : nodeAt graph nodes label = .ok source)
      (targetAt : nodeAt graph nodes pending.target = .ok target)
      (sourceNumbered : 1 ≤ port) (targetNumbered : 1 ≤ pending.port) :
      Fed graph nodes m pending
        (fedWire ⟨source, port⟩ ⟨target, pending.port⟩ pending.type pending.pragmas m)
  | text {text : String} {target : NodeId} (feed : pending.feed = .text text)
      (targetAt : nodeAt graph nodes pending.target = .ok target)
      (numbered : 1 ≤ pending.port) (held : ∀ known, pending.type = some known → TypeHeld m known) :
      Fed graph nodes m pending
        (fedText ⟨target, pending.port⟩ ⟨text, pending.type⟩ pending.pragmas m)

theorem fed_of_resolve {graph : NodeId} {m changed : Module} {pending : Pending} (owned : m.Owned)
    (isGraph : m.IsGraph graph)
    (done : resolve graph (m.nodesOf graph) m pending = .ok changed) :
    Fed graph (m.nodesOf graph) m pending changed := by
  unfold resolve at done
  cases feed : pending.feed with
  | wire label port =>
      rw [feed] at done
      obtain ⟨source, sourceAt, done⟩ := Outcome.bind_ok done
      obtain ⟨target, targetAt, done⟩ := Outcome.bind_ok done
      have sourceAt := on_line_ok sourceAt
      have targetAt := on_line_ok targetAt
      obtain ⟨⟨_, result⟩, applied, done⟩ := Outcome.bind_ok done
      cases done
      obtain ⟨sourceNumbered, targetNumbered, rfl⟩ := feed_wire_ok (node_at_scope owned isGraph sourceAt)
        (node_at_scope owned isGraph targetAt) (apply_ok applied)
      exact .wire feed sourceAt targetAt sourceNumbered targetNumbered
  | text text =>
      rw [feed] at done
      obtain ⟨target, targetAt, done⟩ := Outcome.bind_ok done
      have targetAt := on_line_ok targetAt
      obtain ⟨⟨_, result⟩, applied, done⟩ := Outcome.bind_ok done
      cases done
      obtain ⟨numbered, _, held, rfl⟩ := feed_text_ok (apply_ok applied)
      exact .text feed targetAt numbered held

-- The same, in the other direction: nothing else can refuse a record.
theorem resolve_wire_run {graph source target : NodeId} {label port : Nat} {m : Module}
    {pending : Pending} (owned : m.Owned) (isGraph : m.IsGraph graph)
    (feed : pending.feed = .wire label port)
    (sourceAt : nodeAt graph (m.nodesOf graph) label = .ok source)
    (targetAt : nodeAt graph (m.nodesOf graph) pending.target = .ok target)
    (sourceNumbered : 1 ≤ port) (targetNumbered : 1 ≤ pending.port)
    (held : ∀ known, pending.type = some known → TypeHeld m known) :
    resolve graph (m.nodesOf graph) m pending =
      .ok (fedWire ⟨source, port⟩ ⟨target, pending.port⟩ pending.type pending.pragmas m) := by
  have run := feed_wire_run ⟨source, port⟩ ⟨target, pending.port⟩
    pending.pragmas (node_at_scope owned isGraph sourceAt) (node_at_scope owned isGraph targetAt)
    sourceNumbered targetNumbered held
  unfold resolve
  rw [feed]
  simp only [sourceAt, targetAt]
  refine (on_line_bind pending.line source _).trans ((on_line_bind pending.line target _).trans ?_)
  exact (Outcome.bind_of_ok (apply_of_ok run)).trans rfl

theorem resolve_text_run {graph target : NodeId} {text : String} {m : Module} {pending : Pending}
    (owned : m.Owned) (isGraph : m.IsGraph graph) (feed : pending.feed = .text text)
    (targetAt : nodeAt graph (m.nodesOf graph) pending.target = .ok target)
    (numbered : 1 ≤ pending.port) (held : ∀ known, pending.type = some known → TypeHeld m known) :
    resolve graph (m.nodesOf graph) m pending =
      .ok (fedText ⟨target, pending.port⟩ ⟨text, pending.type⟩ pending.pragmas m) := by
  obtain ⟨_, role, _⟩ := scope_ok_iff.mp (node_at_scope owned isGraph targetAt)
  have run := feed_text_run ⟨target, pending.port⟩ ⟨text, pending.type⟩
    pending.pragmas numbered (lt_size_of_role role) held
  unfold resolve
  rw [feed]
  simp only [targetAt]
  refine (on_line_bind pending.line target _).trans ?_
  exact (Outcome.bind_of_ok (apply_of_ok run)).trans rfl

/-! ### What a record touches -/

def fedBy (graph : NodeId) (nodes : List NodeId) (pending : Pending) : Option (Inlet × Supply) :=
  match nodeAt graph nodes pending.target, pending.feed with
  | .ok target, .text text => some (⟨target, pending.port⟩, .literal ⟨text, pending.type⟩)
  | .ok target, .wire label port =>
      match nodeAt graph nodes label with
      | .ok source => some (⟨target, pending.port⟩, .wire ⟨source, port⟩)
      | .error _ => none
  | .error _, _ => none

theorem same_shape_noted {inlet : Inlet} (numbered : 1 ≤ inlet.port) (pragmas : Pragmas) (m : Module) :
    SameShape m (noted inlet pragmas m) :=
  (quiet_noted numbered pragmas m).shape

theorem same_shape_fed {graph : NodeId} {nodes : List NodeId} {m changed : Module} {pending : Pending}
    (fed : Fed graph nodes m pending changed) :
    SameShape m changed ∧ changed.types = m.types ∧ changed.pragmas = m.pragmas := by
  cases fed with
  | wire feed sourceAt targetAt sourceNumbered targetNumbered =>
      rename_i label port source target
      have offering := (quiet_offered ⟨source, port⟩ sourceNumbered pending.type m).shape
      refine ⟨(offering.trans (same_shape_connect _ _ _)).trans (same_shape_noted targetNumbered _ _), ?_, ?_⟩
      · rw [fedWire, types_noted, types_connect, types_offered]
      · rw [fedWire, pragmas_noted, pragmas_connect, pragmas_offered]
  | text feed targetAt numbered held =>
      refine ⟨(same_shape_bind _ _ _).trans (same_shape_noted numbered _ _), ?_, ?_⟩
      · rw [fedText, types_noted, types_bind]
      · rw [fedText, pragmas_noted, pragmas_bind]

theorem sound_fed {graph : NodeId} {m changed : Module} {pending : Pending}
    {history : Touches Binding} (isGraph : m.IsGraph graph) (sound : m.Sound history)
    (fed : Fed graph (m.nodesOf graph) m pending changed) :
    ∃ made, changed.Sound (history ++ made) ∧
      relabel Binding.supply made = (fedBy graph (m.nodesOf graph) pending).toList := by
  have owned := sound.owned.of_same_shape (same_shape_fed fed).1
  cases fed with
  | wire feed sourceAt targetAt sourceNumbered targetNumbered =>
      rename_i label port source target
      have quiet := quiet_offered ⟨source, port⟩ sourceNumbered pending.type m
      have sourceScope := (scope_congr (quiet.shape.role source) graph).mpr
        (node_at_scope sound.owned isGraph sourceAt)
      have targetScope := (scope_congr (quiet.shape.role target) graph).mpr
        (node_at_scope sound.owned isGraph targetAt)
      obtain ⟨_, targetRole, _⟩ := scope_ok_iff.mp targetScope
      have kept := sound.of_quiet quiet
      have wired := kept.wired.of_connect ⟨source, port⟩ ⟨target, pending.port⟩
        sourceScope targetScope
      have records := kept.records.of_connect ⟨source, port⟩ ⟨target, pending.port⟩
        (lt_size_of_role targetRole)
      refine ⟨_, ⟨owned, wired.of_calm (quiet_noted targetNumbered _ _).toCalm,
        records.of_calm (quiet_noted targetNumbered _ _).toCalm⟩, ?_⟩
      simp [fedBy, targetAt, feed, sourceAt, relabel, Binding.supply]
  | text feed targetAt numbered held =>
      rename_i text target
      obtain ⟨_, role, _⟩ := scope_ok_iff.mp (node_at_scope sound.owned isGraph targetAt)
      have wired := sound.wired.of_literal ⟨target, pending.port⟩ ⟨text, pending.type⟩
        (lt_size_of_role role)
      have records := sound.records.of_literal ⟨target, pending.port⟩
        ⟨text, pending.type⟩ (lt_size_of_role role)
      refine ⟨_, ⟨owned, wired.of_calm (quiet_noted numbered _ _).toCalm,
        records.of_calm (quiet_noted numbered _ _).toCalm⟩, ?_⟩
      simp [fedBy, targetAt, feed, relabel, Binding.supply]

/-! ### All records of a graph -/

def closingTouches (m : Module) (id : NodeId) (pending : List Pending) : Touches Supply :=
  pending.filterMap (fedBy id (m.nodesOf id))

theorem end_graph_eq (id : NodeId) (pending : List Pending) (m : Module) :
    endGraph id pending m = pending.foldlM (resolve id (m.nodesOf id)) m := rfl

theorem is_graph_of_same_shape {m changed : Module} (shape : SameShape m changed) {id : NodeId}
    (isGraph : m.IsGraph id) : changed.IsGraph id :=
  is_graph_of_role (fun _ found => (shape.role id).trans found) isGraph

-- Records are fed one after the other, and none of them changes the shape of the module.
theorem end_graph_keeps {id : NodeId} {pending : List Pending} {m changed : Module}
    (holds : Module → Prop) (owned : m.Owned) (isGraph : m.IsGraph id) (start : holds m)
    (kept : ∀ (m changed : Module) (pending : Pending), m.Owned → m.IsGraph id → holds m →
      Fed id (m.nodesOf id) m pending changed → holds changed)
    (done : endGraph id pending m = .ok changed) :
    holds changed ∧ SameShape m changed ∧ changed.types = m.types ∧ changed.pragmas = m.pragmas := by
  rw [end_graph_eq] at done
  induction pending generalizing m with
  | nil =>
      cases done
      exact ⟨start, .refl _, rfl, rfl⟩
  | cons first rest ih =>
      obtain ⟨middle, here, later⟩ := Outcome.fold_m_cons done
      have fed := fed_of_resolve owned isGraph here
      obtain ⟨shape, types, pragmas⟩ := same_shape_fed fed
      rw [← shape.nodes id] at later
      obtain ⟨final, moreShape, moreTypes, morePragmas⟩ := ih (owned.of_same_shape shape)
        (is_graph_of_same_shape shape isGraph) (kept _ _ _ owned isGraph start fed) later
      exact ⟨final, shape.trans moreShape, moreTypes.trans types, morePragmas.trans pragmas⟩

theorem sound_end_graph {id : NodeId} {pending : List Pending} {m changed : Module}
    {history : Touches Binding} (isGraph : m.IsGraph id) (sound : m.Sound history)
    (done : endGraph id pending m = .ok changed) :
    ∃ made, changed.Sound (history ++ made) ∧
      relabel Binding.supply made = closingTouches m id pending := by
  rw [end_graph_eq] at done
  unfold closingTouches
  induction pending generalizing m history with
  | nil =>
      cases done
      exact ⟨[], sound.unmoved, rfl⟩
  | cons first rest ih =>
      obtain ⟨middle, here, later⟩ := Outcome.fold_m_cons done
      have fed := fed_of_resolve sound.owned isGraph here
      obtain ⟨shape, _, _⟩ := same_shape_fed fed
      obtain ⟨made, kept, touched⟩ := sound_fed isGraph sound fed
      rw [← shape.nodes id] at later
      obtain ⟨more, final, others⟩ := ih (is_graph_of_same_shape shape isGraph) kept later
      refine ⟨made ++ more, ?_, ?_⟩
      · rw [← List.append_assoc]
        exact final
      · rw [relabel_append, touched, others, shape.nodes id, List.filterMap_cons]
        cases fedBy id (m.nodesOf id) first <;> rfl

end Dataflow.Module.Read
