import Dataflow.Proofs.Literal.Spelling
import Dataflow.Proofs.Module.Requested
set_option autoImplicit false

-- Modules that are made by requests alone. Each literal text keeps to one line, or it is the name of a
-- function, and names stay with their functions.
namespace Dataflow.Module
open Touches

def Spells (m : Module) (literal : Literal) : Prop :=
  '\n' ∉ literal.text.toList ∨ ∃ id, m.role? id = some (.function literal.text)

theorem spells_of_reshaped {m changed : Module} {literal : Literal} (reshaped : Reshaped m changed)
    (spells : m.Spells literal) : changed.Spells literal := by
  rcases spells with single | ⟨id, role⟩
  · exact .inl single
  · exact .inr ⟨id, role_of_reshaped reshaped role⟩

theorem spells_literal_of {m changed : Module} {value : HostValue} {literal : Literal}
    (made : literalOf value m = .ok literal changed) : m.Spells literal := by
  obtain ⟨spelling, _, read, made⟩ := Edit.bind_ok made
  obtain ⟨spelled, rfl⟩ := Edit.of_except_ok read
  cases spelling with
  | text text kind =>
      obtain ⟨type, _, _, made⟩ := Edit.bind_ok made
      obtain ⟨same, _⟩ := Edit.pure_ok made
      rw [← same]
      exact .inl (single_host spelled)
  | function id =>
      obtain ⟨name, _, query, made⟩ := Edit.bind_ok made
      obtain ⟨found, rfl⟩ := Edit.query_ok query
      obtain ⟨type, _, _, made⟩ := Edit.bind_ok made
      cases type with
      | none => cases made
      | some type =>
          obtain ⟨same, _⟩ := Edit.pure_ok made
          rw [← same]
          exact .inr ⟨id, function_name_ok_iff.mp found⟩

theorem wire_of_path {source : Outlet} {path : List Port} {inlet : Inlet} {supply : Supply}
    (member : (inlet, supply) ∈ pathTouches source path) : ∃ outlet, supply = .wire outlet := by
  induction path generalizing source with
  | nil => cases member
  | cons port rest ih =>
      cases port with
      | inlet target =>
          rcases List.mem_cons.mp member with same | later
          · cases same
            exact ⟨source, rfl⟩
          · exact ih later
      | outlet next => exact ih member

theorem spells_touch {m : Module} (request : Request) (inlet : Inlet) {literal : Literal}
    (touched : (inlet, .literal literal) ∈ request.touches m) : m.Spells literal := by
  cases request with
  | wire target source =>
      simp only [Request.touches] at touched
      split at touched
      · obtain ⟨_, wire⟩ := wire_of_path touched
        cases wire
      · cases touched
  | setLiteral target value =>
      simp only [Request.touches] at touched
      split at touched
      · rename_i found
        cases List.mem_singleton.mp touched
        exact spells_literal_of found
      · cases touched
  | _ => cases touched

structure Made (m : Module) (history : Touches Binding) : Prop extends Sound m history where
  complete : m.Complete
  tidy : m.Tidy
  spelled : ∀ {inlet literal}, (inlet, .literal literal) ∈ history → m.Spells literal

theorem made_request {m : Module} {history : Touches Binding} (request : Request) (made : Made m history) :
    ∃ later, Made (request.after m) (history ++ later) := by
  have reshaped := reshaped_request made.toSound request
  obtain ⟨later, sound, touched⟩ := sound_request request made.toSound
  refine ⟨later, sound, complete_of_reshaped reshaped made.complete, tidy_request request made.tidy, ?_⟩
  intro inlet literal member
  refine spells_of_reshaped reshaped ?_
  rcases List.mem_append.mp member with before | new
  · exact made.spelled before
  · refine spells_touch request inlet ?_
    rw [← touched]
    exact List.mem_map.mpr ⟨_, new, rfl⟩

theorem made_run {m : Module} {history : Touches Binding} (requests : List Request) (made : Made m history) :
    ∃ later, Made (run m requests) (history ++ later) := by
  induction requests generalizing m history with
  | nil =>
      refine ⟨[], ?_⟩
      rw [List.append_nil]
      exact made
  | cons request rest ih =>
      obtain ⟨first, here⟩ := made_request request made
      obtain ⟨others, there⟩ := ih here
      refine ⟨first ++ others, ?_⟩
      rw [← List.append_assoc]
      exact there

theorem made_with_types {types : TypeTable} (neat : types.Neat) : Made (withTypes types) [] := by
  refine ⟨sound_with_types types .empty, fun found => ?_, ⟨neat, ⟨fun found => ?_⟩⟩, fun member => ?_⟩
  · cases found
  · cases found
  · cases member

theorem made_start {start : Module} (blank : start = .initial ∨ start = .empty) : Made start [] := by
  rcases blank with rfl | rfl
  · exact made_with_types TypeTable.neat_builtin
  · exact made_with_types TypeTable.neat_empty

theorem spells_of_binding {m : Module} {history : Touches Binding} (made : Made m history) {inlet : Inlet}
    {literal : Literal} (bound : m.binding? inlet = some (.literal literal)) : m.Spells literal := by
  rw [made.records.binding, ← mem_settled_iff] at bound
  exact made.spelled ((settled_sublist history).subset bound)

end Dataflow.Module
