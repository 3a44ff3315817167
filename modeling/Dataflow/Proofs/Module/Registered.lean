import Dataflow.Proofs.Module.Bindings
import Dataflow.Proofs.Module.Requested
set_option autoImplicit false

-- The functions of a module are those that were registered, in that order, and a name stands for the
-- last one that it was given to.
namespace Dataflow

namespace Module
open Edit

def Read.registers (entry : Read.Kind × Record.Word) : List String :=
  match entry.1, Record.parseFunction entry.2 with
  | .function, .ok record => [record.name]
  | _, _ => []

def Origin.registers : Origin → List String
  | .initial | .empty => []
  | .text source =>
      match Read.document source with
      | .ok document => document.body.flatMap Read.registers
      | .error _ => []

-- Functions of these names are added, and what is there stays what it is.
structure Enrolls (m : Module) (names : List String) (changed : Module) : Prop where
  role : ∀ {id role}, m.role? id = some role → changed.role? id = some role
  functions : ∃ added, changed.functions = m.functions ++ added ∧
    List.Forall₂ (fun id name => changed.role? id = some (.function name)) added names

namespace Enrolls
variable {m middle changed : Module} {names more : List String}

theorem of_kept (role : ∀ {id role}, m.role? id = some role → changed.role? id = some role)
    (functions : changed.functions = m.functions) : Enrolls m [] changed :=
  ⟨role, [], by rw [functions, List.append_nil], .nil⟩

theorem of_shape (shape : SameShape m changed) : Enrolls m [] changed :=
  of_kept (fun {id} _ found => (shape.role id).trans found) shape.functions

theorem refl (m : Module) : Enrolls m [] m :=
  of_shape (.refl m)

theorem trans (here : Enrolls m names middle) (later : Enrolls middle more changed) :
    Enrolls m (names ++ more) changed := by
  obtain ⟨first, same, each⟩ := here.functions
  obtain ⟨second, sameToo, eachToo⟩ := later.functions
  refine ⟨fun found => later.role (here.role found), first ++ second, ?_, ?_⟩
  · rw [sameToo, same, List.append_assoc]
  · exact List.rel_append (each.imp fun _ _ found => later.role found) eachToo

theorem of_function (op : Opcode) (name : String) (m : Module) : Enrolls m [name] (withFunction op name m) := by
  refine ⟨(Extends.of_function op name).role, [m.nodes.size], rfl, .cons ?_ .nil⟩
  rw [role_with_function, if_pos rfl]

theorem of_node (graph : NodeId) (op : Opcode) (m : Module) : Enrolls m [] (withNode graph op m) :=
  of_kept (Extends.of_node graph op).role rfl

theorem of_graph (compound : NodeId) (m : Module) : Enrolls m [] (withGraph compound m) :=
  of_kept (Extends.of_graph compound).role rfl

theorem then_shape (here : Enrolls m names middle) (shape : SameShape middle changed) : Enrolls m names changed := by
  have both := here.trans (of_shape shape)
  rw [List.append_nil] at both
  exact both

end Enrolls

/-! ### Requests -/

theorem enrolls_request {m : Module} {history : Touches Binding} (sound : m.Sound history) (request : Request) :
    Enrolls m request.registers (request.after m) := by
  have answered := answered_request m request
  generalize request.after m = changed at answered ⊢
  cases answered with
  | quiet _ none quiet =>
      rw [none]
      exact .of_shape quiet.shape
  | function op name _ named =>
      rw [named]
      exact .of_function op name m
  | node op _ => exact .of_node _ op m
  | graph _ => exact .of_graph _ m
  | child _ => exact .of_kept (Extends.of_child _ _).role rfl
  | wire done => exact .of_shape (wire_touches (wire_ok done) sound.wired sound.records).1
  | literal _ _ quiet _ _ => exact .of_shape (quiet.shape.trans (same_shape_bind _ _ _))

theorem enrolls_run {m : Module} {history : Touches Binding} (sound : m.Sound history) (requests : List Request) :
    Enrolls m (requests.flatMap Request.registers) (run m requests) := by
  induction requests generalizing m history with
  | nil => exact .refl m
  | cons request rest ih =>
      obtain ⟨_, kept, _⟩ := sound_request request sound
      exact (enrolls_request sound request).trans (ih kept)

/-! ### Texts -/

namespace Read

variable {labels : List Nat} {state next : State} {history : Touches Binding}

theorem enrolls_end_graph {m changed : Module} {id : NodeId} {pending : List Pending} (owned : m.Owned)
    (isGraph : m.IsGraph id) (done : endGraph id pending m = .ok changed) : Enrolls m [] changed :=
  .of_shape (end_graph_keeps (fun _ => True) owned isGraph trivial (fun _ _ _ _ _ _ _ => trivial) done).2.1

theorem enrolls_end_all {line : Record.Word} {m changed : Module} {scopes : List Scope}
    (sound : StateSound ⟨m, scopes⟩ history) (done : endAll line m scopes = .ok changed) : Enrolls m [] changed := by
  induction scopes generalizing m history with
  | nil =>
      cases done
      exact .refl _
  | cons scope scopes ih =>
      cases scope with
      | compound => cases done
      | graph id pending =>
          obtain ⟨middle, here, later⟩ := Outcome.bind_ok done
          have closing : Action [] ⟨m, .graph id pending :: scopes⟩ _ ⟨middle, scopes⟩ := .close here
          obtain ⟨_, kept, _⟩ := sound_action sound closing
          exact (enrolls_end_graph sound.sound.owned (sound.scopes _ List.mem_cons_self) here).trans (ih kept later)

theorem enrolls_end_subgraph (sound : StateSound state history) (done : endSubgraph state = .ok next) :
    Enrolls state.m [] next.m := by
  rcases end_subgraph_ok done with ⟨id, pending, scopes, m, scope, here, rfl⟩ | rfl
  · have isGraph : state.m.IsGraph id := sound.scopes (.graph id pending) (by rw [scope]; exact List.mem_cons_self)
    exact enrolls_end_graph sound.sound.owned isGraph here
  · exact .refl _

theorem enrolls_function {line : Record.Word} (sound : StateSound state history)
    (done : beginFunction labels line state = .ok next) : Enrolls state.m (registers (.function, line)) next.m := by
  obtain ⟨m, ended, done⟩ := Outcome.bind_ok done
  obtain ⟨record, parsed, done⟩ := Outcome.bind_ok done
  obtain ⟨type, _, done⟩ := Outcome.bind_ok done
  obtain ⟨⟨id, added⟩, adding, done⟩ := Outcome.bind_ok done
  cases apply_ok adding
  obtain ⟨⟨_, declared⟩, declaring, done⟩ := Outcome.bind_ok done
  cases done
  have named : registers (.function, line) = [record.name] := by
    unfold registers
    rw [on_line_ok parsed]
  have declares := quiet_declare_arguments m.nodes.size type
    (setNodePragmas m.nodes.size record.pragmas (withFunction .xGraph record.name m))
  have declaring : declareArguments m.nodes.size type
    (setNodePragmas m.nodes.size record.pragmas (withFunction .xGraph record.name m)) = _ := apply_ok declaring
  rw [Edit.after_of_ok declaring] at declares
  rw [named]
  refine ((enrolls_end_all sound ended).trans (.of_function .xGraph record.name m)).then_shape ?_
  exact (Quiet.of_node_pragmas _ _ _).shape.trans declares.shape

theorem enrolls_node {line : Record.Word} {label : Nat} {op : Opcode} {id : NodeId} {changed : Module}
    (done : addNodeAt line label op state = .ok (id, changed)) : Enrolls state.m [] changed := by
  obtain ⟨graph, _, _, _, _, _, _, rfl⟩ := add_node_at_ok done
  exact .of_node graph op state.m

theorem enrolls_step {entry : Kind × Record.Word} (sound : StateSound state history)
    (done : step labels state entry = .ok next) : Enrolls state.m (registers entry) next.m := by
  obtain ⟨kind, line⟩ := entry
  cases kind with
  | function => exact enrolls_function sound done
  | node =>
      obtain ⟨record, _, done⟩ := Outcome.bind_ok done
      obtain ⟨⟨id, m⟩, adding, done⟩ := Outcome.bind_ok done
      cases done
      exact (enrolls_node adding).then_shape (Quiet.of_node_pragmas _ _ _).shape
  | compound =>
      obtain ⟨header, _, done⟩ := Outcome.bind_ok done
      obtain ⟨⟨id, m⟩, adding, done⟩ := Outcome.bind_ok done
      cases done
      exact enrolls_node adding
  | graph =>
      obtain ⟨pragmas, _, done⟩ := Outcome.bind_ok done
      obtain ⟨⟨m, scopes⟩, ended, done⟩ := Outcome.bind_ok done
      have before := enrolls_end_subgraph sound ended
      rcases scopes with _ | ⟨scope | ⟨compound, header, graphs⟩, scopes⟩
      · cases done
      · cases done
      obtain ⟨⟨id, changed⟩, adding, done⟩ := Outcome.bind_ok done
      cases done
      obtain ⟨_, rfl, rfl⟩ := add_graph_ok (apply_ok adding)
      exact (before.trans (.of_graph compound m)).then_shape (Quiet.of_node_pragmas _ _ _).shape
  | trailer =>
      obtain ⟨⟨m, scopes⟩, ended, done⟩ := Outcome.bind_ok done
      have before := enrolls_end_subgraph sound ended
      rcases scopes with _ | ⟨scope | ⟨id, header, graphs⟩, scopes⟩
      · cases done
      · cases done
      obtain ⟨⟨children, pragmas⟩, _, done⟩ := Outcome.bind_ok done
      cases done
      exact before.trans (.of_kept
        (fun {query} _ found => (role_closed m id children pragmas query).trans found) rfl)
  | edge =>
      obtain ⟨record, _, done⟩ := Outcome.bind_ok done
      obtain ⟨type, _, done⟩ := Outcome.bind_ok done
      obtain ⟨_, _, _, _, rfl⟩ := add_pending_ok done
      exact .refl _
  | literal =>
      obtain ⟨record, _, done⟩ := Outcome.bind_ok done
      obtain ⟨type, _, done⟩ := Outcome.bind_ok done
      obtain ⟨_, _, _, _, rfl⟩ := add_pending_ok done
      exact .refl _

theorem enrolls_body {line : Record.Word} {body : List (Kind × Record.Word)} {final : State} {m : Module}
    (single : ∀ entry ∈ body, '\n' ∉ entry.2) (sound : StateSound state history)
    (done : body.foldlM (step labels) state = .ok final) (ended : endAll line final.m final.scopes = .ok m) :
    Enrolls state.m (body.flatMap registers) m := by
  induction body generalizing state history with
  | nil =>
      cases done
      exact enrolls_end_all sound ended
  | cons entry rest ih =>
      obtain ⟨middle, here, later⟩ := Outcome.fold_m_cons done
      obtain ⟨_, kept, _⟩ := sound_actions sound (step_actions (single entry List.mem_cons_self) here)
      exact (enrolls_step sound here).trans
        (ih (fun other member => single other (List.mem_cons_of_mem _ member)) kept later)

theorem enrolls_build {document : Document} {m : Module} (single : ∀ entry ∈ document.body, '\n' ∉ entry.2)
    (done : build document = .ok m) : Enrolls (startModule document) (document.body.flatMap registers) m := by
  obtain ⟨_, _, done⟩ := Outcome.bind_ok done
  obtain ⟨_, _, done⟩ := Outcome.bind_ok done
  obtain ⟨final, folded, ended⟩ := Outcome.bind_ok done
  exact enrolls_body single (start_sound document) folded ended

end Read

/-! ### Runs -/

def Registered (m : Module) (names : List String) : Prop :=
  List.Forall₂ (fun id name => m.role? id = some (.function name)) m.functions names

theorem registered_of_enrolls {m changed : Module} {names : List String} (none : m.functions = [])
    (enrolls : Enrolls m names changed) : changed.Registered names := by
  obtain ⟨added, same, each⟩ := enrolls.functions
  rw [Registered, same, none]
  exact each

theorem registered_origin {origin : Origin} {m : Module} (started : origin.start = .ok m) :
    m.Registered origin.registers := by
  cases origin with
  | initial =>
      cases started
      exact .nil
  | empty =>
      cases started
      exact .nil
  | text text =>
      change Read.document text >>= Read.build = .ok m at started
      obtain ⟨document, parsed, built⟩ := Outcome.bind_ok started
      have enrolls := Read.enrolls_build (Read.gathered_document parsed).single built
      rw [Origin.registers, parsed]
      exact registered_of_enrolls rfl enrolls

theorem registered_run {origin : Origin} {start : Module} (started : origin.start = .ok start)
    (requests : List Request) :
    (run start requests).Registered (origin.registers ++ requests.flatMap Request.registers) := by
  obtain ⟨_, sound, _⟩ := sound_origin started
  have enrolls := enrolls_run sound requests
  obtain ⟨added, same, each⟩ := enrolls.functions
  rw [Registered, same]
  exact List.rel_append ((registered_origin started).imp fun _ _ found => enrolls.role found) each

/-! ### Names -/

theorem find_named_iff {named : NodeId → Option String} {ids : List NodeId} {names : List String}
    (each : List.Forall₂ (fun id name => named id = some name) ids names) {name : String} {id : NodeId} :
    (ids.find? fun id => named id == some name) = some id ↔
      ∃ before after, names = before ++ name :: after ∧ name ∉ before ∧ ids[before.length]? = some id := by
  induction each with
  | nil => simp
  | cons here _ ih =>
      rename_i first firstName ids names _
      by_cases same : firstName = name
      · subst same
        rw [List.find?_cons_of_pos (by simp [here])]
        constructor
        · intro found
          exact ⟨[], names, rfl, List.not_mem_nil, found⟩
        · rintro ⟨before, after, split, absent, found⟩
          cases before with
          | nil => exact found
          | cons other before =>
              cases split
              exact absurd List.mem_cons_self absent
      · rw [List.find?_cons_of_neg (by simp [here, same]), ih]
        constructor
        · rintro ⟨before, after, rfl, absent, found⟩
          refine ⟨firstName :: before, after, rfl, ?_, found⟩
          simp [absent, Ne.symm same]
        · rintro ⟨before, after, split, absent, found⟩
          cases before with
          | nil =>
              cases split
              exact absurd rfl same
          | cons other before =>
              cases split
              exact ⟨before, after, rfl, fun member => absent (List.mem_cons_of_mem _ member), found⟩

theorem function_name_of_role {m : Module} {id : NodeId} {name : String} (role : m.role? id = some (.function name)) :
    m.nodes[id]?.bind Node.functionName? = some name := by
  obtain ⟨node, found, shape⟩ := node_of_role role
  simp [found, Node.functionName?, shape]

-- The last function that was given a name is the one that it stands for.
theorem function_iff_last {m : Module} {names : List String} (registered : m.Registered names) {name : String}
    {id : NodeId} : m.function? name = some id ↔ ∃ before after, names = before ++ name :: after ∧ name ∉ after ∧
      m.functions[before.length]? = some id := by
  have each : List.Forall₂ (fun id name => m.nodes[id]?.bind Node.functionName? = some name)
      m.functions.reverse names.reverse := List.rel_reverse (registered.imp fun _ _ => function_name_of_role)
  have length : m.functions.length = names.length := registered.length_eq
  unfold function?
  rw [find_named_iff each]
  constructor
  · rintro ⟨before, after, split, absent, found⟩
    have turned : names = after.reverse ++ name :: before.reverse := by
      rw [← List.reverse_reverse names, split]
      simp
    refine ⟨after.reverse, before.reverse, turned, by simpa using absent, ?_⟩
    rw [turned] at length
    simp only [List.length_append, List.length_reverse, List.length_cons] at length
    rw [List.getElem?_reverse (by omega), length] at found
    rw [← found, List.length_reverse]
    congr 1
    omega
  · rintro ⟨before, after, rfl, absent, found⟩
    refine ⟨after.reverse, before.reverse, by simp, by simpa using absent, ?_⟩
    rw [← found]
    simp only [List.length_append, List.length_cons] at length
    rw [List.getElem?_reverse (by rw [List.length_reverse]; omega), List.length_reverse, length]
    congr 1
    omega

end Module

end Dataflow
