import Dataflow.Proofs.Module.Bindings
import Dataflow.Proofs.Module.Made
import Dataflow.Proofs.Module.Readable
import Dataflow.Proofs.Type.Orderly
set_option autoImplicit false

-- The types of a module over a whole run: an id stands for one signature for good, and the list holds
-- the ids that were not deleted, in the order in which they were made.
namespace Dataflow.Module
open TypeTable

def Request.deletes : Request → Module → List TypeId
  | .deleteType type, m =>
      match (Request.deleteType type).perform m with
      | .ok _ _ => [type]
      | .error _ _ => []
  | _, _ => []

theorem deletes_of_spares {request : Request} (spares : request.deletes? = none) (m : Module) :
    request.deletes m = [] := by
  cases request with
  | deleteType type => cases spares
  | _ => rfl

theorem deletes_type (m : Module) (type : TypeId) :
    (Request.deleteType type).deletes m = if (m.types.get? type).isSome then [type] else [] := by
  unfold Request.deletes
  change (match onTypes (delete type) m with | .ok _ _ => [type] | .error _ _ => []) = _
  unfold onTypes Edit.within
  cases found : m.types.get? type with
  | none => rw [delete_refused found]; rfl
  | some definition => rw [delete_run found]; rfl

theorem types_step {m : Module} (orderly : m.types.Orderly) (request : Request) :
    (request.after m).types.Orderly ∧ Course m.types (request.deletes m) (request.after m).types := by
  have revised := revised_request request m
  generalize (request.after m).types = changed at revised ⊢
  cases revised with
  | added spares added =>
      rw [deletes_of_spares spares]
      exact ⟨orderly_added added orderly, .of_added added⟩
  | refused asked missing =>
      rw [asked, deletes_type, missing]
      exact ⟨orderly, .refl m.types⟩
  | @deleted type definition asked found =>
      obtain ⟨member, here⟩ := get_eq_some_iff.mp found
      have signature : m.types.signature? type = some definition.signature := by
        rw [signature?, here]
        rfl
      rw [asked, deletes_type, found]
      exact ⟨orderly.deleted signature, .of_deleted orderly _ member⟩

theorem types_of_origin {origin : Origin} {start : Module} (started : origin.start = .ok start) :
    ∃ definitions, start.types = ofList definitions := by
  cases origin with
  | initial =>
      cases started
      exact ⟨_, builtin_eq⟩
  | empty =>
      cases started
      exact ⟨[], rfl⟩
  | text text => exact (Read.accepted started).types

theorem orderly_of_origin {origin : Origin} {start : Module} (started : origin.start = .ok start) :
    start.types.Orderly := by
  obtain ⟨definitions, listed⟩ := types_of_origin started
  rw [listed]
  exact orderly_of_list definitions

end Dataflow.Module
