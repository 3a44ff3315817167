import Dataflow.Proofs.Module.Room
set_option autoImplicit false

-- The wires and literals of a module are one map from inputs to what feeds them: the outcome of the
-- touches since the module was made or read, the consumers of an output being its inverse image.
namespace Dataflow.Module
open Touches

theorem origin_of_blank {start : Module} (blank : start = .initial ∨ start = .empty) :
    ∃ origin : Origin, origin.start = .ok start := by
  rcases blank with rfl | rfl
  · exact ⟨.initial, rfl⟩
  · exact ⟨.empty, rfl⟩

-- Only a text feeds ports before the first request.
def Origin.touches : Origin → Touches Supply
  | .initial | .empty => []
  | .text source =>
      match Read.document source with
      | .ok document => Read.documentTouches document
      | .error _ => []

theorem sound_origin {origin : Origin} {m : Module} (started : origin.start = .ok m) :
    ∃ history, m.Sound history ∧ relabel Binding.supply history = origin.touches := by
  cases origin with
  | initial =>
      cases started
      exact ⟨[], sound_with_types _ .empty, rfl⟩
  | empty =>
      cases started
      exact ⟨[], sound_with_types _ .empty, rfl⟩
  | text text =>
      change Read.document text >>= Read.build = .ok m at started
      obtain ⟨document, parsed, built⟩ := Outcome.bind_ok started
      obtain ⟨history, sound, touched⟩ := Read.sound_build (Read.gathered_document parsed).single built
      refine ⟨history, sound, ?_⟩
      rw [touched, Origin.touches, parsed]

theorem positive_origin {origin : Origin} {m : Module} (started : origin.start = .ok m) : m.Positive := by
  cases origin with
  | initial | empty =>
      cases started
      exact fun _ => .of_size (Nat.zero_le _)
  | text text =>
      change Read.document text >>= Read.build = .ok m at started
      obtain ⟨document, parsed, built⟩ := Outcome.bind_ok started
      exact Read.positive_build (Read.gathered_document parsed).single built

theorem positive_of_run {origin : Origin} {m : Module} (started : origin.start = .ok m) {requests : List Request}
    (room : Roomy m requests) : (run m requests).Positive := by
  obtain ⟨_, sound, _⟩ := sound_origin started
  exact fun id => positive_run sound (.inl room) (positive_origin started id)

-- A wire enters compounds and their child graphs, and never a function.
theorem function_positive {origin : Origin} {m : Module} (started : origin.start = .ok m) {requests : List Request}
    {id : NodeId} {name : String} (role : (run m requests).role? id = some (.function name)) :
    (run m requests).PositiveAt id := by
  obtain ⟨_, sound, _⟩ := sound_origin started
  refine positive_run sound (.inr fun other found => ⟨name, ?_⟩) (positive_origin started id)
  exact Option.some.inj (found.symm.trans role)

structure OneMap (m : Module) (log : Touches Supply) : Prop where
  binding : ∀ inlet, (m.binding? inlet).map Binding.supply = latest? log inlet
  order : ∀ outlet, m.consumers outlet =
    ((settled log).filter fun touch => touch.2 = .wire outlet).map (·.1)
  listed : ∀ outlet inlet, inlet ∈ m.consumers outlet ↔ m.source? inlet = some outlet
  once : ∀ outlet, (m.consumers outlet).Nodup
  exclusive : ∀ {outlet inlet}, inlet ∈ m.consumers outlet →
    m.literal? inlet = none ∧ ∀ other, inlet ∈ m.consumers other → other = outlet
  inside : ∀ {outlet inlet}, inlet ∈ m.consumers outlet →
    (m.output? outlet).isSome ∧ (m.input? inlet).isSome ∧
      ∃ scope, m.scopeOf outlet.node = .ok scope ∧ m.scopeOf inlet.node = .ok scope

theorem source_eq_some_iff {m : Module} {inlet : Inlet} {outlet : Outlet} :
    m.source? inlet = some outlet ↔ ∃ stamp, m.binding? inlet = some (.wire outlet stamp) := by
  unfold source? binding? Input.source?
  cases m.input? inlet with
  | none => simp
  | some input =>
      obtain ⟨pragmas, bound⟩ := input
      rcases bound with _ | ⟨literal⟩ | ⟨source, stamp⟩ <;> simp

theorem literal_of_source {m : Module} {inlet : Inlet} {outlet : Outlet}
    (wired : m.source? inlet = some outlet) : m.literal? inlet = none := by
  obtain ⟨stamp, bound⟩ := source_eq_some_iff.mp wired
  unfold binding? at bound
  unfold literal? Input.literal?
  obtain ⟨input, found, wire⟩ := Option.bind_eq_some_iff.mp bound
  rw [found]
  simp [wire]

theorem one_map_of_sound {m : Module} {history : Touches Binding} (sound : m.Sound history) :
    m.OneMap (relabel Binding.supply history) := by
  have order := consumers_of_history sound.records
  have listed : ∀ outlet inlet, inlet ∈ m.consumers outlet ↔ m.source? inlet = some outlet := by
    intro outlet inlet
    rw [order, source_eq_some_iff, sound.records.binding, List.mem_map]
    constructor
    · rintro ⟨⟨other, supply⟩, member, rfl⟩
      obtain ⟨member, same⟩ := List.mem_filter.mp member
      have same := of_decide_eq_true same
      change supply = _ at same
      rw [same, mem_settled_iff, latest_relabel, Option.map_eq_some_iff] at member
      obtain ⟨binding, latest, same⟩ := member
      cases binding with
      | literal literal => cases same
      | wire source stamp =>
          cases same
          exact ⟨stamp, latest⟩
    · rintro ⟨stamp, latest⟩
      refine ⟨(inlet, .wire outlet), List.mem_filter.mpr ⟨?_, by simp⟩, rfl⟩
      rw [mem_settled_iff, latest_relabel, latest]
      rfl
  refine ⟨?_, order, listed, ?_, ?_, ?_⟩
  · intro inlet
    rw [latest_relabel, sound.records.binding]
  · intro outlet
    rw [order]
    exact List.pairwise_map.mpr ((settled_once _).filter _)
  · intro outlet inlet member
    have wired := (listed outlet inlet).mp member
    refine ⟨literal_of_source wired, fun other there => ?_⟩
    have same := (listed other inlet).mp there
    rw [wired] at same
    cases same
    rfl
  · intro outlet inlet member
    obtain ⟨stamp, bound⟩ := source_eq_some_iff.mp ((listed outlet inlet).mp member)
    obtain ⟨declared, scope, here, there⟩ := sound.wired.wires bound
    exact ⟨declared, input_isSome_of_binding bound, scope, here, there⟩

theorem one_map_of_run {origin : Origin} {m : Module} (started : origin.start = .ok m)
    (requests : List Request) :
    (run m requests).OneMap (origin.touches ++ runTouches m requests) ∧
      (Roomy m requests → (run m requests).Positive) := by
  obtain ⟨history, sound, before⟩ := sound_origin started
  obtain ⟨made, final, later⟩ := sound_run requests sound
  have one := one_map_of_sound final
  rw [relabel_append, before, later] at one
  exact ⟨one, positive_of_run started⟩

end Dataflow.Module
