import Mathlib.Data.List.Forall2
import Dataflow.Error
set_option autoImplicit false

-- Results that may be refusals, step by step: sequences, walks over lists, and folds.
namespace Dataflow.Outcome

variable {ε σ α β γ : Type}

theorem bind_ok {first : Except ε α} {next : α → Except ε β} {result : β}
    (done : (first >>= next) = .ok result) :
    ∃ value, first = .ok value ∧ next value = .ok result := by
  cases first with
  | ok value => exact ⟨value, rfl, done⟩
  | error error => cases done

theorem bind_of_ok {first : Except ε α} {next : α → Except ε β} {value : α}
    (step : first = .ok value) : (first >>= next) = next value := by
  rw [step]
  rfl

theorem pure_ok {value result : α} (done : (pure value : Except ε α) = .ok result) :
    value = result := by
  cases done
  rfl

theorem mem_to_option {outcome : Except ε α} {value : α} : value ∈ outcome.toOption ↔ outcome = .ok value := by
  cases outcome <;> simp [Except.toOption]

theorem map_ok {first : Except ε α} {change : α → β} {result : β} (done : first.map change = .ok result) :
    ∃ value, first = .ok value ∧ change value = result := by
  cases first with
  | error error => cases done
  | ok value =>
      cases done
      exact ⟨value, rfl, rfl⟩

theorem bind_error {first : Except ε α} {next : α → Except ε β} {error : ε}
    (failed : (first >>= next) = .error error) :
    first = .error error ∨ ∃ value, first = .ok value ∧ next value = .error error := by
  cases first with
  | error other =>
      cases failed
      exact .inl rfl
  | ok value => exact .inr ⟨value, rfl, failed⟩

theorem bind_pure_error_iff {first : Except ε α} {change : α → β} {error : ε} :
    (first >>= fun value => pure (change value)) = .error error ↔ first = .error error := by
  cases first <;> simp [Bind.bind, Except.bind, pure, Except.pure]

theorem guard_ok {refused : Prop} [Decidable refused] {error : ε} {next : Except ε β} {result : β}
    (done : (if refused then (throw error >>= fun _ : PUnit => next) else next) = .ok result) :
    ¬ refused ∧ next = .ok result := by
  by_cases here : refused
  · rw [if_pos here] at done
    cases done
  · rw [if_neg here] at done
    exact ⟨here, done⟩

theorem map_m_ok {change : α → Except ε β} {values : List α} {results : List β}
    (done : values.mapM change = .ok results) :
    List.Forall₂ (fun value result => change value = .ok result) values results := by
  induction values generalizing results with
  | nil =>
      rw [List.mapM_nil] at done
      rw [← pure_ok done]
      exact .nil
  | cons value rest ih =>
      rw [List.mapM_cons] at done
      obtain ⟨result, here, done⟩ := bind_ok done
      obtain ⟨later, there, done⟩ := bind_ok done
      rw [← pure_ok done]
      exact .cons here (ih there)

theorem map_m_of_forall {change : α → Except ε β} {values : List α} {results : List β}
    (each : List.Forall₂ (fun value result => change value = .ok result) values results) :
    values.mapM change = .ok results := by
  induction each with
  | nil => rfl
  | cons here _ ih =>
      rw [List.mapM_cons, bind_of_ok here, bind_of_ok ih]
      rfl

theorem map_m_ok_iff {change : α → Except ε β} {values : List α} {results : List β} :
    values.mapM change = .ok results ↔ (∀ value ∈ values, ∃ result, change value = .ok result) ∧
      values.filterMap (fun value => (change value).toOption) = results := by
  constructor
  · intro done
    have each := map_m_ok done
    clear done
    induction each with
    | nil => exact ⟨fun _ member => (by cases member), rfl⟩
    | cons here _ ih =>
        refine ⟨List.forall_mem_cons.mpr ⟨⟨_, here⟩, ih.1⟩, ?_⟩
        rw [List.filterMap_cons, here, ← ih.2]
        rfl
  · rintro ⟨each, rfl⟩
    induction values with
    | nil => rfl
    | cons value rest ih =>
        obtain ⟨⟨result, here⟩, later⟩ := List.forall_mem_cons.mp each
        rw [List.mapM_cons, bind_of_ok here, bind_of_ok (ih later), List.filterMap_cons, here]
        rfl

theorem exists_related {related : α → β → Prop} {values : List α} {twins : List β}
    (each : List.Forall₂ related values twins) {value : α} (member : value ∈ values) :
    ∃ twin ∈ twins, related value twin := by
  induction each with
  | nil => cases member
  | cons here _ ih =>
      rcases List.mem_cons.mp member with rfl | member
      · exact ⟨_, List.mem_cons_self, here⟩
      · obtain ⟨twin, inside, there⟩ := ih member
        exact ⟨twin, List.mem_cons_of_mem _ inside, there⟩

-- A walk that follows another one, value by value.
theorem map_m_related {δ : Type} {change : α → Except ε β} {other : γ → Except ε δ} {rename : β → δ}
    {values : List α} {twins : List γ} {results : List β}
    (each : List.Forall₂ (fun value twin => ∀ result, change value = .ok result → other twin = .ok (rename result))
      values twins)
    (done : values.mapM change = .ok results) : twins.mapM other = .ok (results.map rename) := by
  induction each generalizing results with
  | nil =>
      cases done
      rfl
  | cons first _ ih =>
      rw [List.mapM_cons] at done ⊢
      obtain ⟨result, here, done⟩ := bind_ok done
      obtain ⟨later, rest, done⟩ := bind_ok done
      cases done
      rw [bind_of_ok (first result here), bind_of_ok (ih rest)]
      rfl

theorem map_m_each {change : α → Except ε β} {values : List α} {results : List β}
    (done : values.mapM change = .ok results) {value : α} (member : value ∈ values) :
    ∃ result, change value = .ok result := by
  obtain ⟨place, inside, rfl⟩ := List.getElem_of_mem member
  have each := map_m_ok done
  exact ⟨_, each.get inside (by rw [← each.length_eq]; exact inside)⟩

theorem map_m_error {change : α → Except ε β} {values : List α} {error : ε}
    (failed : values.mapM change = .error error) : ∃ value ∈ values, change value = .error error := by
  induction values with
  | nil => cases failed
  | cons value rest ih =>
      rw [List.mapM_cons] at failed
      rcases bind_error failed with here | ⟨result, _, later⟩
      · exact ⟨value, List.mem_cons_self, here⟩
      · obtain ⟨other, member, there⟩ := ih (bind_pure_error_iff.mp later)
        exact ⟨other, List.mem_cons_of_mem _ member, there⟩

theorem fold_m_cons {step : σ → α → Except ε σ} {state : σ} {value : α} {rest : List α} {final : σ}
    (done : (value :: rest).foldlM step state = .ok final) :
    ∃ middle, step state value = .ok middle ∧ rest.foldlM step middle = .ok final := by
  rw [List.foldlM_cons] at done
  exact bind_ok done

theorem fold_m_append {step : σ → α → Except ε σ} {state middle : σ} {first second : List α}
    (here : first.foldlM step state = .ok middle) :
    (first ++ second).foldlM step state = second.foldlM step middle := by
  rw [List.foldlM_append]
  exact bind_of_ok here

theorem fold_m_exists {step : σ → α → Except ε σ} {values : List α} (state : σ)
    (each : ∀ state value, value ∈ values → ∃ next, step state value = .ok next) :
    ∃ final, values.foldlM step state = .ok final := by
  induction values generalizing state with
  | nil => exact ⟨state, rfl⟩
  | cons value rest ih =>
      obtain ⟨middle, here⟩ := each state value List.mem_cons_self
      obtain ⟨final, later⟩ := ih middle fun state other member =>
        each state other (List.mem_cons_of_mem _ member)
      refine ⟨final, ?_⟩
      rw [List.foldlM_cons, bind_of_ok here]
      exact later

theorem fold_m_keeps {step : σ → α → Except ε σ} (holds : σ → Prop) {values : List α} {state final : σ}
    (kept : ∀ state value next, value ∈ values → holds state → step state value = .ok next → holds next)
    (start : holds state) (done : values.foldlM step state = .ok final) : holds final := by
  induction values generalizing state with
  | nil =>
      cases done
      exact start
  | cons value rest ih =>
      obtain ⟨middle, here, later⟩ := fold_m_cons done
      refine ih (fun state other next member => kept state other next (List.mem_cons_of_mem _ member)) ?_ later
      exact kept state value middle List.mem_cons_self start here

theorem fold_m_member {step : σ → α → Except ε σ} {values : List α} {state final : σ}
    (done : values.foldlM step state = .ok final) {value : α} (member : value ∈ values) :
    ∃ before after, step before value = .ok after := by
  induction values generalizing state with
  | nil => cases member
  | cons head rest ih =>
      obtain ⟨middle, here, later⟩ := fold_m_cons done
      rcases List.mem_cons.mp member with rfl | member
      · exact ⟨state, middle, here⟩
      · exact ih later member

end Dataflow.Outcome
