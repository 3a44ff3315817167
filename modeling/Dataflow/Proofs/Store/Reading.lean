import Dataflow.Proofs.Store.Requests
set_option autoImplicit false

-- A text is read into a store as into a module.
namespace Dataflow.Store
open Dataflow.Module Dataflow.Module.Read Edit

def ShowsState (held : StateOf Store) (shown : State) : Prop :=
  Shows held.m shown.m ∧ held.scopes = shown.scopes

section Steps
variable {s : Store} {m : Module}

theorem agree_apply {α : Type} {change : Edit Store α} {model : Change α} (line : Record.Word)
    (follows : FollowsStore change model) (shows_ : Shows s m) :
    Agree (fun done other => done.1 = other.1 ∧ Shows done.2 other.2) (apply line change s) (apply line model m) := by
  unfold apply
  cases follows.result shows_ with
  | ok here there same =>
      rw [here, there]
      exact .ok rfl rfl same
  | error here there =>
      rw [here, there]
      exact .error rfl rfl

theorem follows_replace (inlet : Inlet) (pragmas : Pragmas) :
    FollowsStore (replaceInputPragmas inlet pragmas) (replaceInputPragmas inlet pragmas) :=
  (follows_on_frame fun _ => framed_add_input inlet).bind fun _ => follows_map_frame (spares_input_pragmas inlet pragmas)

theorem follows_feed_wire (source : Outlet) (target : Inlet) (type : Option TypeId) (pragmas : Pragmas) :
    FollowsStore (feedWire source target type pragmas) (feedWire source target type pragmas) := by
  have rest : FollowsStore (wire target source >>= fun _ => replaceInputPragmas target pragmas)
      (wire target source >>= fun _ => replaceInputPragmas target pragmas) :=
    (follows_wire target source).bind fun _ => follows_replace target pragmas
  refine Follows.got fun s m shows_ => ?_
  have same : (Keeper.frame s).outputType? source = (Keeper.frame m).outputType? source := shows_.output_type source
  rw [same]
  rcases type with _ | type
  · exact rest
  · cases (Keeper.frame m).outputType? source with
    | none => exact (follows_set_output source type).bind fun _ => rest
    | some declared => exact rest

theorem follows_feed_text (target : Inlet) (literal : Literal) (pragmas : Pragmas) :
    FollowsStore (feedText target literal pragmas) (feedText target literal pragmas) :=
  (follows_bind_literal target literal).bind fun _ => follows_replace target pragmas

theorem agree_resolve (graph : NodeId) (nodes : List NodeId) (pending : Pending) (shows_ : Shows s m) :
    Agree Shows (resolve graph nodes s pending) (resolve graph nodes m pending) := by
  unfold resolve
  cases pending.feed with
  | wire label port =>
      refine Agree.seq fun source => Agree.seq fun target => ?_
      exact (agree_apply _ (follows_feed_wire _ _ _ _) shows_).bind fun left => .ok rfl rfl left.2
  | text text =>
      refine Agree.seq fun target => ?_
      exact (agree_apply _ (follows_feed_text _ _ _) shows_).bind fun left => .ok rfl rfl left.2

theorem nodes_shown (shows_ : Shows s m) (id : NodeId) :
    (Keeper.frame s).nodes[id]?.map Node.nodes = (Keeper.frame m).nodes[id]?.map Node.nodes :=
  (shows_.read (fun _ => rfl) id).symm

theorem agree_end_graph (id : NodeId) (pending : List Pending) (shows_ : Shows s m) :
    Agree Shows (endGraph id pending s) (endGraph id pending m) := by
  unfold endGraph
  rw [nodes_shown shows_]
  exact Agree.fold_m (fun entry shown => agree_resolve id _ entry shown) shows_

theorem agree_end_all (line : Record.Word) (scopes : List Scope) (shows_ : Shows s m) :
    Agree Shows (endAll line s scopes) (endAll line m scopes) := by
  induction scopes generalizing s m with
  | nil => exact .ok rfl rfl shows_
  | cons scope rest ih =>
      cases scope with
      | compound id header graphs => exact .error rfl rfl
      | graph id pending => exact (agree_end_graph id pending shows_).bind fun shown => ih shown

theorem follows_declare (id : NodeId) (type : Option TypeId) :
    FollowsStore (declareArguments id type) (declareArguments id type) := by
  refine Follows.got fun s m shows_ => ?_
  have types : (Keeper.frame s).types = (Keeper.frame m).types := shows_.types.symm
  rw [types]
  split
  · refine (follows_query fun shows_ => congrArg (TypeTable.chain · _) shows_.types.symm).seq fun types => ?_
    exact Follows.for_m fun entry => follows_set_output ⟨id, entry.2 + 1⟩ entry.1
  · exact Follows.pure rfl

end Steps

section Records
variable {held : StateOf Store} {shown : State} (states : ShowsState held shown)
include states

theorem agree_end_subgraph : Agree ShowsState (endSubgraph held) (endSubgraph shown) := by
  obtain ⟨s, scopes⟩ := held
  obtain ⟨m, _⟩ := shown
  obtain ⟨shows_, same⟩ := states
  cases same
  have steady : Agree ShowsState (.ok ⟨s, scopes⟩ : Reading (StateOf Store)) (.ok ⟨m, scopes⟩) :=
    .ok rfl rfl ⟨shows_, rfl⟩
  unfold endSubgraph
  cases scopes with
  | nil => exact steady
  | cons scope rest =>
      cases scope with
      | compound id header graphs => exact steady
      | graph id pending =>
          have role : (Keeper.frame s).nodes[id]?.map Node.role = (Keeper.frame m).nodes[id]?.map Node.role :=
            (shows_.role id).symm
          dsimp only
          rw [role]
          cases (Keeper.frame m).nodes[id]?.map Node.role with
          | none => exact steady
          | some role =>
              cases role with
              | subgraph compound => exact (agree_end_graph id pending shows_).bind fun left => .ok rfl rfl ⟨left, rfl⟩
              | function name => exact steady
              | node graph => exact steady

theorem agree_begin_function (labels : List Nat) (line : Record.Word) :
    Agree ShowsState (beginFunction labels line held) (beginFunction labels line shown) := by
  obtain ⟨shows_, same⟩ := states
  unfold beginFunction
  rw [same]
  refine (agree_end_all line shown.scopes shows_).bind fun ended => ?_
  refine Agree.seq fun record => ?_
  refine Agree.seq fun type => ?_
  refine (agree_apply line (follows_add_function .xGraph record.name) ended).bind fun {added other} left => ?_
  obtain ⟨id, s⟩ := added
  obtain ⟨_, m⟩ := other
  obtain ⟨same, left⟩ := left
  cases same
  refine (agree_apply line (follows_declare id type) ?_).bind fun declared => .ok rfl rfl ⟨declared.2, rfl⟩
  exact shows_map_frame (spares_node_pragmas id record.pragmas) left

theorem agree_add_node_at (line : Record.Word) (label : Nat) (op : Opcode) :
    Agree (fun added other => added.1 = other.1 ∧ Shows added.2 other.2) (addNodeAt line label op held)
      (addNodeAt line label op shown) := by
  obtain ⟨shows_, same⟩ := states
  unfold addNodeAt
  rw [same]
  cases shown.scopes with
  | nil => exact .error rfl rfl
  | cons scope rest =>
      cases scope with
      | compound id header graphs => exact .error rfl rfl
      | graph graph pending =>
          dsimp only
          rw [nodes_shown shows_]
          split
          · exact agree_apply line (follows_on_frame fun _ => framed_add_node graph op) shows_
          · exact .error rfl rfl

theorem agree_read_node (line : Record.Word) : Agree ShowsState (readNode line held) (readNode line shown) := by
  refine Agree.seq fun record => ?_
  refine (agree_add_node_at states line record.label record.opcode).bind fun {added other} left => ?_
  obtain ⟨id, s⟩ := added
  obtain ⟨_, m⟩ := other
  obtain ⟨same, left⟩ := left
  cases same
  exact .ok rfl rfl ⟨shows_map_frame (spares_node_pragmas id record.pragmas) left, states.2⟩

theorem agree_begin_compound (line : Record.Word) :
    Agree ShowsState (beginCompound line held) (beginCompound line shown) := by
  refine Agree.seq fun header => ?_
  refine (agree_add_node_at states line header.label header.opcode).bind fun {added other} left => ?_
  obtain ⟨id, s⟩ := added
  obtain ⟨_, m⟩ := other
  obtain ⟨same, left⟩ := left
  cases same
  exact .ok rfl rfl ⟨left, congrArg (Scope.compound id header [] :: ·) states.2⟩

theorem agree_begin_subgraph (line : Record.Word) :
    Agree ShowsState (beginSubgraph line held) (beginSubgraph line shown) := by
  refine Agree.seq fun pragmas => ?_
  refine (agree_end_subgraph states).bind fun {ended other} left => ?_
  obtain ⟨s, scopes⟩ := ended
  obtain ⟨m, _⟩ := other
  obtain ⟨shows_, same⟩ := left
  cases same
  cases scopes with
  | nil => exact .error rfl rfl
  | cons scope rest =>
      cases scope with
      | graph id pending => exact .error rfl rfl
      | compound compound header graphs =>
          refine (agree_apply line (follows_on_frame fun _ => framed_add_graph compound) shows_).bind
            fun {added other} left => ?_
          obtain ⟨id, s⟩ := added
          obtain ⟨_, m⟩ := other
          obtain ⟨same, left⟩ := left
          cases same
          exact .ok rfl rfl ⟨shows_map_frame (spares_node_pragmas id pragmas) left, rfl⟩

theorem agree_end_compound (line : Record.Word) :
    Agree ShowsState (endCompound line held) (endCompound line shown) := by
  refine (agree_end_subgraph states).bind fun {ended other} left => ?_
  obtain ⟨s, scopes⟩ := ended
  obtain ⟨m, _⟩ := other
  obtain ⟨shows_, same⟩ := left
  cases same
  cases scopes with
  | nil => exact .error rfl rfl
  | cons scope rest =>
      cases scope with
      | graph id pending => exact .error rfl rfl
      | compound id header graphs =>
          refine Agree.seq fun trailer => ?_
          refine .ok rfl rfl ⟨shows_map_frame (spares_modify ?_ ?_ ?_) shows_, rfl⟩
          · exact fun _ => rfl
          · exact fun _ _ => rfl
          · exact fun _ => rfl

theorem agree_add_pending (pending : Pending) : Agree ShowsState (addPending pending held) (addPending pending shown) := by
  obtain ⟨shows_, same⟩ := states
  unfold addPending
  rw [same]
  cases shown.scopes with
  | nil => exact .error rfl rfl
  | cons scope rest =>
      cases scope with
      | compound id header graphs => exact .error rfl rfl
      | graph id earlier => exact .ok rfl rfl ⟨shows_, rfl⟩

theorem agree_step (labels : List Nat) (entry : Kind × Record.Word) :
    Agree ShowsState (step labels held entry) (step labels shown entry) := by
  obtain ⟨kind, line⟩ := entry
  cases kind with
  | function => exact agree_begin_function states labels line
  | node => exact agree_read_node states line
  | compound => exact agree_begin_compound states line
  | graph => exact agree_begin_subgraph states line
  | trailer => exact agree_end_compound states line
  | edge =>
      exact Agree.seq fun record => Agree.seq fun type => agree_add_pending states _
  | literal =>
      exact Agree.seq fun record => Agree.seq fun type => agree_add_pending states _

end Records

theorem agree_construct (document : Document) :
    Agree Shows (construct document : Reading Store) (construct document : Reading Module) := by
  refine Agree.seq fun _ => Agree.seq fun _ => ?_
  have each : ∀ {held shown} (entry : Kind × Record.Word), ShowsState held shown →
      Agree ShowsState (step (typeLabels document.types) held entry) (step (typeLabels document.types) shown entry) :=
    fun entry states => agree_step states _ entry
  refine Agree.bind (Agree.fold_m each ⟨shows_start _ document.pragmas, rfl⟩) fun {held shown} states => ?_
  rw [states.2]
  exact agree_end_all endLine _ states.1

-- From every origin a store starts exactly when a module does.
theorem agree_start (origin : Origin) :
    Agree Shows (origin.start : Except ReadError Store) (origin.start : Except ReadError Module) := by
  cases origin with
  | initial => exact .ok rfl rfl (shows_start _ .empty)
  | empty => exact .ok rfl rfl (shows_start [] .empty)
  | text source =>
      exact Agree.seq fun document => agree_construct document

end Dataflow.Store
