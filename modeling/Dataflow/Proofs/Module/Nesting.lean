import Dataflow.Proofs.Module.TypeList
import Dataflow.Proofs.Type.Grounded
set_option autoImplicit false

-- No type of a module is part of itself, whatever was read, added and deleted.
namespace Dataflow.Module
open TypeTable

theorem regular_of_origin {origin : Origin} {start : Module} (started : origin.start = .ok start) :
    start.types.Regular := by
  cases origin with
  | initial =>
      cases started
      exact neat_builtin.regular
  | empty =>
      cases started
      exact neat_empty.regular
  | text text => exact (Read.accepted started).sane.regular

theorem grounded_step {m : Module} (orderly : m.types.Orderly) (grounded : m.types.Grounded) (request : Request) :
    (request.after m).types.Grounded := by
  have revised := revised_request request m
  generalize (request.after m).types = changed at revised ⊢
  cases revised with
  | added _ added => exact grounded_added orderly grounded added
  | refused => exact grounded
  | deleted => exact grounded_deleted _ _ grounded

theorem grounded_of_requests {m : Module} (orderly : m.types.Orderly) (grounded : m.types.Grounded)
    (requests : List Request) : (run m requests).types.Grounded := by
  induction requests generalizing m with
  | nil => exact grounded
  | cons request rest ih => exact ih (types_step orderly request).1 (grounded_step orderly grounded request)

theorem grounded_of_run {origin : Origin} {start : Module} (started : origin.start = .ok start)
    (requests : List Request) : (run start requests).types.Grounded :=
  grounded_of_requests (orderly_of_origin started) (grounded_of_regular (regular_of_origin started)) requests

theorem no_type_holds_itself {origin : Origin} {start : Module} (started : origin.start = .ok start)
    (requests : List Request) :
    let table := (run start requests).types
    (∀ id, ¬ Relation.TransGen table.Contains id id) ∧
      (∀ id text, table.Shows (some id) text ↔ text = table.display id) ∧
      (∀ head start, table.walk head (table.arena.size + 1) start ≠ .error (.invalidChain head)) ∧
      ∀ head error, (table.chain head = .error error ↔ table.Blocked head error) ∧
        (table.chainNames head = .error error ↔ table.Blocked head error) := by
  intro table
  have grounded := grounded_of_run started requests
  exact ⟨grounded.acyclic, fun _ => shows_iff_display grounded, fun _ => walk_never_long grounded,
    fun _ _ => ⟨chain_error_iff grounded, chain_names_error_iff grounded⟩⟩

-- The fields of a record, which a text gives before their types, without the second of them.
theorem record_without_a_field : ∃ start, ofText "T 1 5 2\nT 2 2 4 3\nT 3 2 5 0\nT 4 1 3\nT 5 0 4" = .ok start ∧
    let table := (run start [.deleteType 2, .addType .array (some 0) none]).types
    table.Contains 1 2 ∧ ¬ Relation.TransGen table.Contains 1 1 ∧
      table.display 0 = "record[Basic(3)-><TypeId(2)>]" ∧ table.chain 0 = .error (.typeNotFound 2) ∧
      table.chainNames 5 = .error (.invalidChain 5) := by
  have shown : (ofText "T 1 5 2\nT 2 2 4 3\nT 3 2 5 0\nT 4 1 3\nT 5 0 4").toOption.any (fun start =>
      let table := (run start [.deleteType 2, .addType .array (some 0) none]).types
      decide (table.get? 0 = some ⟨.container .record 1, .empty⟩ ∧ table.get? 1 = some ⟨.link .field 3 (some 2), .empty⟩ ∧
        table.get? 2 = none ∧ table.get? 3 = some ⟨.basic .integer, .empty⟩ ∧
        table.get? 5 = some ⟨.container .array 0, .empty⟩)) = true := by
    decide +kernel
  cases read : ofText "T 1 5 2\nT 2 2 4 3\nT 3 2 5 0\nT 4 1 3\nT 5 0 4" with
  | error error =>
      rw [read] at shown
      cases shown
  | ok start =>
      rw [read] at shown
      obtain ⟨record, first, gone, integer, array⟩ := of_decide_eq_true shown
      obtain ⟨acyclic, display, _, chains⟩ :=
        no_type_holds_itself (show (Origin.text _).start = .ok start from read)
          [.deleteType 2, .addType .array (some 0) none]
      have linked : Linked _ 0 2 := .next (.start record rfl) first rfl
      refine ⟨start, rfl, contains_of_get first (by decide), acyclic 1, ?_, ?_, ?_⟩
      · exact ((display 0 _).mp (.container record rfl rfl
          (.link first rfl (.basic integer rfl rfl) (.missing gone)))).symm
      · exact (chains 0 _).1.mpr (.lost linked gone)
      · exact (chains 5 _).2.mpr (.kind array (by decide))

end Dataflow.Module
