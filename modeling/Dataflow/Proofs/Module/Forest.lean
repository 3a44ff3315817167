import Dataflow.Proofs.Module.Preorder
import Dataflow.Proofs.Module.Refeeding
import Dataflow.Proofs.Module.Registered
set_option autoImplicit false

-- The forest of nodes: lists and roles mirror each other, the functions are the roots, and from every
-- node the owners lead to one of them.
namespace Dataflow.Module
open Relation (ReflTransGen)

structure Forest (m : Module) (names : List String) : Prop where
  listed : ∀ {id graph}, id ∈ m.nodesOf graph ↔ m.role? id = some (.node graph)
  node : ∀ {id graph}, m.role? id = some (.node graph) → graph < id ∧ m.IsGraph graph ∧
    (m.nodesOf graph).count id = 1 ∧ (∀ other, id ∈ m.nodesOf other → other = graph) ∧
      ∃ place, (m.nodesOf graph)[place]? = some id ∧ m.label id = .ok (place + 1)
  subgraph : ∀ {id compound}, m.role? id = some (.subgraph compound) → compound < id ∧
    (∃ graph, m.role? compound = some (.node graph)) ∧ ∀ other, id ∈ m.childrenOf other → other = compound
  functions : ∀ id, id ∈ m.functions ↔ ∃ name, m.role? id = some (.function name)
  ascending : m.functions.Pairwise (· < ·)
  registered : m.Registered names
  latest : ∀ {name id}, m.function? name = some id ↔ ∃ before after, names = before ++ name :: after ∧
    name ∉ after ∧ m.functions[before.length]? = some id
  root : ∀ id < m.nodes.size, ∃! top,
    ReflTransGen (fun inner outer => m.owner inner = .ok (some outer)) id top ∧ m.owner top = .ok none
  roots : ∀ id, m.owner id = .ok none ↔ id ∈ m.functions
  label : ∀ id < m.nodes.size, ∃ label, m.label id = .ok label

section Owner
variable {m : Module} {id : NodeId}

theorem owner_of_role {role : Role} (found : m.role? id = some role) : m.owner id = .ok (match role with
    | .node graph => some graph
    | .subgraph compound => some compound
    | .function _ => none) := by
  obtain ⟨node, here, same⟩ := node_of_role found
  unfold owner
  rw [Outcome.bind_of_ok (node_ok_iff.mpr here), same]
  cases role <;> rfl

theorem role_of_owner {result : Option NodeId} (done : m.owner id = .ok result) : ∃ role, m.role? id = some role := by
  obtain ⟨node, found, _⟩ := Outcome.bind_ok done
  exact ⟨node.role, role_eq_some_of_node (node_ok_iff.mp found)⟩

theorem owner_some_iff {outer : NodeId} : m.owner id = .ok (some outer) ↔ m.Owns id outer := by
  constructor
  · intro done
    obtain ⟨role, found⟩ := role_of_owner done
    rw [owner_of_role found] at done
    cases role with
    | node graph =>
        cases done
        exact .inl found
    | subgraph compound =>
        cases done
        exact .inr found
    | function name => cases done
  · rintro (found | found)
    · exact owner_of_role found
    · exact owner_of_role found

theorem owner_none_iff : m.owner id = .ok none ↔ ∃ name, m.role? id = some (.function name) := by
  constructor
  · intro done
    obtain ⟨role, found⟩ := role_of_owner done
    rw [owner_of_role found] at done
    cases role with
    | function name => exact ⟨name, found⟩
    | node graph => cases done
    | subgraph compound => cases done
  · rintro ⟨name, found⟩
    exact owner_of_role found

theorem role_of_size (inside : id < m.nodes.size) : ∃ role, m.role? id = some role := by
  obtain ⟨node, found⟩ := exists_node_iff.mpr inside
  exact ⟨node.role, role_eq_some_of_node found⟩

-- Owners come before what they own, so climbing ends.
theorem root_exists (owned : m.Owned) (inside : id < m.nodes.size) :
    ∃ top name, m.Under id top ∧ m.role? top = some (.function name) := by
  induction id using Nat.strongRecOn with
  | _ id ih =>
      obtain ⟨role, found⟩ := role_of_size inside
      have climb : ∀ {outer}, m.Owns id outer → ∃ top name, m.Under id top ∧ m.role? top = some (.function name) := by
        intro outer owns
        have below := owns_lt owned owns
        obtain ⟨top, name, under, last⟩ := ih outer below (Nat.lt_trans below inside)
        exact ⟨top, name, .head owns under, last⟩
      cases role with
      | function name => exact ⟨id, name, .refl, found⟩
      | node graph => exact climb (.inl found)
      | subgraph compound => exact climb (.inr found)

theorem root_unique {first second : NodeId} {name other : String} (underFirst : m.Under id first)
    (underSecond : m.Under id second) (here : m.role? first = some (.function name))
    (there : m.role? second = some (.function other)) : first = second := by
  rcases under_total underFirst underSecond with under | under
  · exact not_under_function here under
  · exact (not_under_function there under).symm

theorem one_root (owned : m.Owned) (inside : id < m.nodes.size) : ∃! top,
    ReflTransGen (fun inner outer => m.owner inner = .ok (some outer)) id top ∧ m.owner top = .ok none := by
  have climbs : (fun inner outer => m.owner inner = .ok (some outer)) = m.Owns := by
    funext inner outer
    exact propext owner_some_iff
  rw [climbs]
  obtain ⟨top, name, under, root⟩ := root_exists owned inside
  refine ⟨top, ⟨under, owner_none_iff.mpr ⟨name, root⟩⟩, ?_⟩
  rintro other ⟨underToo, last⟩
  obtain ⟨otherName, rootToo⟩ := owner_none_iff.mp last
  exact root_unique underToo under rootToo root

end Owner

theorem forest_of_owned {m : Module} {names : List String} (owned : m.Owned) (registered : m.Registered names) :
    m.Forest names := by
  have listed : ∀ {id graph}, id ∈ m.nodesOf graph ↔ m.role? id = some (.node graph) :=
    ⟨owned.listed, fun role => (owned.held role).2.2⟩
  refine ⟨listed, fun {id graph} role => ?_, fun {id compound} role => ?_, fun id => owned.registered, owned.inOrder,
    registered, function_iff_last registered, fun id inside => one_root owned inside,
    fun id => owner_none_iff.trans owned.registered.symm, fun id inside => label_exists owned inside⟩
  · obtain ⟨before, isGraph, member⟩ := owned.held role
    refine ⟨before, isGraph, List.count_eq_one_of_mem (owned.once graph) member, fun other inside => ?_,
      (m.nodesOf graph).idxOf id, List.getElem?_idxOf member, label_node owned role⟩
    have roleToo := owned.listed inside
    rw [role] at roleToo
    cases roleToo
    rfl
  · obtain ⟨before, graph, plain⟩ := owned.inside role
    refine ⟨before, ⟨graph, plain⟩, fun other inside => ?_⟩
    have roleToo := owned.child inside
    rw [role] at roleToo
    cases roleToo
    rfl

theorem forest_of_run {origin : Origin} {start : Module} (started : origin.start = .ok start)
    (requests : List Request) :
    (run start requests).Forest (origin.registers ++ requests.flatMap Request.registers) := by
  obtain ⟨_, sound, _⟩ := sound_origin started
  obtain ⟨_, kept, _⟩ := sound_run requests sound
  exact forest_of_owned kept.owned (registered_run started requests)

-- A function that a text gives, and another of its name with a loop.
theorem loop_in_second_function : ∃ start, ofText "X 0 \"f\"\nN 1 141" = .ok start ∧
    let m := run start [.addFunction "f", .addNode 2 .iterate, .addGraph 3, .addNode 4 .plus, .addNode 2 .noOp]
    m.Forest ["f", "f"] ∧ m.function? "f" = some 2 ∧ m.role? 4 = some (.subgraph 3) ∧ m.label 6 = .ok 2 := by
  have shown : (ofText "X 0 \"f\"\nN 1 141").toOption.any (fun start =>
      let m := run start [.addFunction "f", .addNode 2 .iterate, .addGraph 3, .addNode 4 .plus, .addNode 2 .noOp]
      decide (m.functions = [0, 2] ∧ m.role? 4 = some (.subgraph 3) ∧ m.role? 6 = some (.node 2) ∧
        m.nodesOf 2 = [3, 6])) = true := by
    decide +kernel
  have names : Origin.registers (.text "X 0 \"f\"\nN 1 141") = ["f"] := by
    decide +kernel
  cases read : ofText "X 0 \"f\"\nN 1 141" with
  | error error =>
      rw [read] at shown
      cases shown
  | ok start =>
      rw [read] at shown
      obtain ⟨functions, child, last, nodes⟩ := of_decide_eq_true shown
      have forest := forest_of_run (show (Origin.text _).start = .ok start from read)
        [.addFunction "f", .addNode 2 .iterate, .addGraph 3, .addNode 4 .plus, .addNode 2 .noOp]
      rw [names] at forest
      refine ⟨start, rfl, forest, ?_, child, ?_⟩
      · exact forest.latest.mpr ⟨["f"], [], rfl, List.not_mem_nil, by rw [functions]; rfl⟩
      · obtain ⟨_, _, _, _, place, there, label⟩ := forest.node last
        rw [nodes] at there
        match place, there with
        | 1, _ => exact label

end Dataflow.Module
