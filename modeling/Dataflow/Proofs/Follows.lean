import Dataflow.Proofs.Edit
import Dataflow.Proofs.Outcome
set_option autoImplicit false

-- Changes of two kinds of states that go alike: from corresponding states they give corresponding
-- results, or the same error, and leave corresponding states behind.
namespace Dataflow

variable {ε σ μ α β γ δ : Type}

inductive Agree (values : α → β → Prop) (first : Except ε α) (second : Except ε β) : Prop
  | ok {value : α} {other : β} (here : first = .ok value) (there : second = .ok other) (same : values value other)
  | error {error : ε} (here : first = .error error) (there : second = .error error)

namespace Agree

variable {values : α → β → Prop} {results : γ → δ → Prop}

theorem of_eq {first second : Except ε α} (same : first = second) : Agree Eq first second := by
  subst same
  cases first with
  | ok value => exact .ok rfl rfl rfl
  | error error => exact .error rfl rfl

theorem eq {first second : Except ε α} (agree : Agree Eq first second) : first = second := by
  cases agree with
  | ok here there same => rw [here, there, same]
  | error here there => rw [here, there]

theorem bind {first : Except ε α} {second : Except ε β} {next : α → Except ε γ} {other : β → Except ε δ}
    (here : Agree values first second)
    (later : ∀ {value twin}, values value twin → Agree results (next value) (other twin)) :
    Agree results (first >>= next) (second >>= other) := by
  cases here with
  | ok here there same =>
      rw [here, there]
      exact later same
  | error here there =>
      rw [here, there]
      exact .error rfl rfl

theorem seq {first : Except ε α} {next : α → Except ε γ} {other : α → Except ε δ}
    (later : ∀ value, Agree results (next value) (other value)) : Agree results (first >>= next) (first >>= other) := by
  refine (of_eq rfl : Agree Eq first first).bind fun {value twin} same => ?_
  subst same
  exact later value

theorem fold_m {states : σ → μ → Prop} {entries : List α} {step : σ → α → Except ε σ} {model : μ → α → Except ε μ}
    (each : ∀ {s m} entry, states s m → Agree states (step s entry) (model m entry)) {s : σ} {m : μ}
    (start : states s m) : Agree states (entries.foldlM step s) (entries.foldlM model m) := by
  induction entries generalizing s m with
  | nil => exact .ok rfl rfl start
  | cons entry rest ih =>
      rw [List.foldlM_cons, List.foldlM_cons]
      exact (each entry start).bind ih

end Agree

inductive Alike (states : σ → μ → Prop) (values : α → β → Prop) (first : EStateM.Result Error σ α)
    (second : EStateM.Result Error μ β) : Prop
  | ok {value : α} {other : β} {s : σ} {m : μ} (here : first = .ok value s) (there : second = .ok other m)
      (same : values value other) (left : states s m)
  | error {error : Error} {s : σ} {m : μ} (here : first = .error error s) (there : second = .error error m)
      (left : states s m)

namespace Edit

def Follows (states : σ → μ → Prop) (values : α → β → Prop) (change : Edit σ α) (model : Edit μ β) : Prop :=
  ∀ ⦃s m⦄, states s m → Alike states values (change s) (model m)

namespace Follows

variable {states : σ → μ → Prop} {values : α → β → Prop} {results : γ → δ → Prop}

theorem pure {value : α} {other : β} (same : values value other) :
    Follows states values (Pure.pure value) (Pure.pure other) :=
  fun _ _ shown => .ok rfl rfl same shown

theorem throw (error : Error) :
    Follows states values (MonadExcept.throw error) (MonadExcept.throw error) :=
  fun _ _ shown => .error rfl rfl shown

theorem bind {first : Edit σ α} {second : Edit μ β} {next : α → Edit σ γ} {other : β → Edit μ δ}
    (here : Follows states values first second)
    (later : ∀ {value twin}, values value twin → Follows states results (next value) (other twin)) :
    Follows states results (first >>= next) (second >>= other) := by
  intro s m shown
  cases here shown with
  | ok here there same left =>
      rw [bind_of_ok here, bind_of_ok there]
      exact later same left
  | error here there left => exact .error (bind_of_error here) (bind_of_error there) left

theorem seq {first : Edit σ α} {second : Edit μ α} {next : α → Edit σ γ} {other : α → Edit μ δ}
    (here : Follows states Eq first second) (later : ∀ value, Follows states results (next value) (other value)) :
    Follows states results (first >>= next) (second >>= other) := by
  refine here.bind fun {value twin} same => ?_
  subst same
  exact later value

theorem of_except (outcome : Except Error α) : Follows states Eq (ofExcept outcome) (ofExcept outcome) := by
  cases outcome with
  | ok value => exact Follows.pure rfl
  | error error => exact Follows.throw error

theorem query {find : σ → Except Error α} {model : μ → Except Error β}
    (agree : ∀ ⦃s m⦄, states s m → Agree values (find s) (model m)) :
    Follows states values (query find) (query model) := by
  intro s m shown
  cases agree shown with
  | ok here there same => exact .ok (query_of_ok here) (query_of_ok there) same shown
  | error here there => exact .error (query_of_error here) (query_of_error there) shown

-- What is found in the state from which the change goes on.
theorem found {find : σ → Except Error α} {model : μ → Except Error α} {next : α → Edit σ γ} {other : α → Edit μ δ}
    {s : σ} {m : μ} (same : find s = model m) (shown : states s m)
    (later : ∀ value, model m = .ok value → Alike states results (next value s) (other value m)) :
    Alike states results ((Edit.query find >>= next) s) ((Edit.query model >>= other) m) := by
  cases there : model m with
  | error error =>
      rw [there] at same
      exact .error (bind_query_of_error same) (bind_query_of_error there) shown
  | ok value =>
      rw [there] at same
      rw [bind_query_of_ok same, bind_query_of_ok there]
      exact later value there

theorem modify {change : σ → σ} {model : μ → μ} (kept : ∀ ⦃s m⦄, states s m → states (change s) (model m)) :
    Follows states Eq (modify change : Edit σ PUnit) (modify model) :=
  fun _ _ shown => .ok rfl rfl rfl (kept shown)

theorem got {next : σ → Edit σ γ} {other : μ → Edit μ δ}
    (later : ∀ ⦃s m⦄, states s m → Follows states results (next s) (other m)) :
    Follows states results (get >>= next) (get >>= other) :=
  fun _ _ shown => later shown shown

theorem within {τ υ : Type} {parts : τ → υ → Prop} {part : σ → τ} {replace : τ → σ → σ} {model : μ → υ}
    {restore : υ → μ → μ} {edit : Edit τ α} {inner : Edit υ β} (follows : Follows parts values edit inner)
    (inside : ∀ ⦃s m⦄, states s m → parts (part s) (model m))
    (kept : ∀ ⦃s m p q⦄, states s m → parts p q → states (replace p s) (restore q m)) :
    Follows states values (within part replace edit) (within model restore inner) := by
  intro s m shown
  cases follows (inside shown) with
  | ok here there same left =>
      exact .ok (within_of_ok here) (within_of_ok there) same (kept shown left)
  | error here there left => exact .error (within_of_error here) (within_of_error there) (kept shown left)

theorem for_m {entries : List α} {step : α → Edit σ PUnit} {model : α → Edit μ PUnit}
    (each : ∀ entry, Follows states Eq (step entry) (model entry)) :
    Follows states Eq (entries.forM step) (entries.forM model) := by
  induction entries with
  | nil => exact Follows.pure rfl
  | cons entry rest ih => exact (each entry).seq fun _ => ih

theorem map_m {entries : List α} {step : α → Edit σ β} {model : α → Edit μ β}
    (each : ∀ entry, Follows states Eq (step entry) (model entry)) :
    Follows states Eq (entries.mapM step) (entries.mapM model) := by
  induction entries with
  | nil => exact Follows.pure rfl
  | cons entry rest ih =>
      rw [List.mapM_cons, List.mapM_cons]
      exact (each entry).seq fun _ => ih.seq fun _ => Follows.pure rfl

theorem after {change : Edit σ α} {model : Edit μ β} (follows : Follows states values change model) {s : σ} {m : μ}
    (shown : states s m) : states (change.after s) (model.after m) := by
  cases follows shown with
  | ok here there _ left =>
      rw [after_of_ok here, after_of_ok there]
      exact left
  | error here there left =>
      rw [after_of_error here, after_of_error there]
      exact left

theorem result {change : Edit σ α} {model : Edit μ β} (follows : Follows states values change model) {s : σ} {m : μ}
    (shown : states s m) :
    Agree (fun done other => values done.1 other.1 ∧ states done.2 other.2) (change.result s) (model.result m) := by
  unfold Edit.result
  cases follows shown with
  | ok here there same left =>
      rw [here, there]
      exact .ok rfl rfl ⟨same, left⟩
  | error here there _ =>
      rw [here, there]
      exact .error rfl rfl

end Follows

end Edit

end Dataflow
