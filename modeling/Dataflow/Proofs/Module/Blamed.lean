import Dataflow.Proofs.Module.Unmissed
set_option autoImplicit false

-- A text that is refused is refused for one of its lines, or for its end where a compound is still open.
namespace Dataflow.Module.Read
open Record (Word)

def Names (lines : List Word) (error : ReadError) : Prop :=
  ∃ line ∈ lines, error.line = String.ofList line

def Blames {α : Type} (lines : List Word) (outcome : Reading α) : Prop :=
  ∀ error, outcome = .error error → Names lines error

section Outcomes
variable {α β : Type} {lines : List Word} {line : Word}

theorem blames_ok (value : α) : Blames lines (.ok value : Reading α) :=
  fun _ failed => by cases failed

theorem blames_on_line (member : line ∈ lines) (outcome : Record.Parsed α) : Blames lines (onLine line outcome) := by
  intro error failed
  cases outcome with
  | ok value => cases failed
  | error fault =>
      cases failed
      exact ⟨line, member, rfl⟩

theorem blames_apply (member : line ∈ lines) (change : Change α) (m : Module) : Blames lines (apply line change m) := by
  unfold apply
  split
  · exact blames_ok _
  · exact blames_on_line member _

theorem blames_bind {first : Reading α} {next : α → Reading β} (here : Blames lines first)
    (later : ∀ value, first = .ok value → Blames lines (next value)) : Blames lines (first >>= next) := by
  intro error failed
  rcases Outcome.bind_error failed with first | ⟨value, done, next⟩
  · exact here error first
  · exact later value done error next

theorem blames_fold {σ : Type} (holds : σ → Prop) {step : σ → α → Reading σ} {values : List α} {state : σ}
    (each : ∀ state value, value ∈ values → holds state → Blames lines (step state value))
    (kept : ∀ state value next, value ∈ values → holds state → step state value = .ok next → holds next)
    (start : holds state) : Blames lines (values.foldlM step state) := by
  induction values generalizing state with
  | nil => exact blames_ok state
  | cons value rest ih =>
      rw [List.foldlM_cons]
      refine blames_bind (each state value List.mem_cons_self start) fun middle done => ?_
      exact ih (fun state other member => each state other (List.mem_cons_of_mem _ member))
        (fun state other next member => kept state other next (List.mem_cons_of_mem _ member))
        (kept state value middle List.mem_cons_self start done)

theorem blames_walk {step : α → Reading Unit} {values : List α} (each : ∀ value ∈ values, Blames lines (step value)) :
    Blames lines (values.forM step) := by
  induction values with
  | nil => exact blames_ok ()
  | cons value rest ih =>
      obtain ⟨here, later⟩ := List.forall_mem_cons.mp each
      exact blames_bind here fun _ _ => ih later

end Outcomes

/-! ### Types -/

-- Lines are kept as they stand in the text.
structure Sourced (lines : List Word) (document : Document) : Prop where
  types : ∀ {label entry}, document.types.get? label = some entry → entry.line ∈ lines
  body : ∀ entry ∈ document.body, entry.2 ∈ lines

section Types
variable {lines : List Word}

theorem blames_part {line : Word} (member : line ∈ lines) : Blames lines (part line) := by
  unfold part
  split
  · exact blames_bind (blames_on_line member _) fun _ _ => blames_ok _
  · split
    · exact blames_bind (blames_on_line member _) fun _ _ => blames_ok _
    · split
      · exact blames_ok _
      · exact blames_on_line member _

theorem blames_document (text : String) : Blames (Text.lines text.toList) (document text) := by
  refine blames_fold (fun _ => True) (fun state line member _ => ?_) (fun _ _ _ _ _ _ => trivial) trivial
  rw [add_line_part]
  refine blames_bind (blames_part member) fun found given => ?_
  cases part_ok_iff.mp given with
  | type plain head parsed =>
      unfold place
      dsimp only
      split
      · exact blames_on_line member _
      · exact blames_ok _
  | pragma | body => exact blames_ok _

theorem sourced_of_document {text : String} {found : Document} (done : document text = .ok found) :
    Sourced (Text.lines text.toList) found := by
  obtain ⟨parts, read, once, rfl⟩ := document_ok_iff.mp done
  have given : ∀ found ∈ parts, ∃ line ∈ Text.lines text.toList, Gives line found := by
    intro found member
    obtain ⟨line, inside, gives⟩ := Outcome.exists_related (Outcome.map_m_ok read).flip member
    exact ⟨line, inside, part_ok_iff.mp gives⟩
  refine ⟨fun {label entry} found => ?_, fun entry member => ?_⟩
  · obtain ⟨other, member, same⟩ := List.mem_map.mp ((SortedMap.get?_of_list once).mp found)
    cases same
    obtain ⟨part, inside, typed⟩ := List.mem_filterMap.mp member
    obtain ⟨line, listed, gives⟩ := given part inside
    cases gives with
    | type plain head parsed =>
        cases typed
        exact listed
    | pragma | body => cases typed
  · obtain ⟨part, inside, ordered⟩ := List.mem_filterMap.mp member
    obtain ⟨line, listed, gives⟩ := given part inside
    cases gives with
    | body plain known =>
        cases ordered
        exact listed
    | pragma | type => cases ordered

theorem blames_visit {types : TypeLines} (inside : ∀ {label entry}, types.get? label = some entry → entry.line ∈ lines)
    (steps : Nat) (path done : List Nat) (label : Nat) : Blames lines (visit types steps path done label) := by
  induction steps generalizing path done label with
  | zero =>
      unfold visit
      split
      · exact blames_ok _
      · split <;> first | exact blames_ok _ | contradiction
  | succ steps ih =>
      by_cases old : label ∈ done
      · rw [visit_closed _ path (.inl old)]
        exact blames_ok _
      cases found : types.get? label with
      | none =>
          rw [visit_closed _ path (.inr found)]
          exact blames_ok _
      | some entry =>
          rw [visit_open steps path old found]
          split
          · exact blames_on_line (inside found) _
          · refine blames_bind ?_ fun _ _ => blames_ok _
            exact blames_fold (fun _ => True) (fun done reference _ _ => ih _ done reference)
              (fun _ _ _ _ _ _ => trivial) trivial

theorem blames_check {types : TypeLines} (inside : ∀ {label entry}, types.get? label = some entry → entry.line ∈ lines) :
    Blames lines (checkAcyclic types) :=
  blames_bind (blames_fold (fun _ => True) (fun done label _ _ => blames_visit inside _ [] done label)
    (fun _ _ _ _ _ _ => trivial) trivial) fun _ _ => blames_ok _

theorem blames_chain {types : TypeLines} {entry : TypeLine} (member : entry.line ∈ lines) :
    Blames lines (checkChain types entry) := by
  by_cases linked : ∃ kind element rest, entry.record.signature = .link kind element (some rest)
  · obtain ⟨kind, element, rest, shape⟩ := linked
    rw [check_chain_link shape]
    split
    · exact blames_ok _
    · exact blames_on_line member _
  · rw [check_chain_iff.mpr fun shape => absurd ⟨_, _, _, shape⟩ linked]
    exact blames_ok _

end Types

/-! ### Graphs that end -/

section Ends
variable {lines : List Word}

-- The lines of the inputs that are fed when a graph ends.
def Noted (lines : List Word) (scopes : List Scope) : Prop :=
  ∀ id pendings, .graph id pendings ∈ scopes → ∀ pending ∈ pendings, pending.line ∈ lines

theorem noted_of_subset {scopes fewer : List Scope} (noted : Noted lines scopes) (inside : fewer ⊆ scopes) :
    Noted lines fewer :=
  fun id pendings member => noted id pendings (inside member)

theorem noted_graph {scopes : List Scope} (noted : Noted lines scopes) (id : NodeId) :
    Noted lines (.graph id [] :: scopes) := by
  intro other pendings member pending listed
  rcases List.mem_cons.mp member with same | member
  · cases same
    cases listed
  · exact noted other pendings member pending listed

theorem noted_compound {scopes : List Scope} (noted : Noted lines scopes) (id : NodeId) (header : CompoundRecord)
    (graphs : List NodeId) : Noted lines (.compound id header graphs :: scopes) := by
  intro other pendings member
  rcases List.mem_cons.mp member with same | member
  · cases same
  · exact noted other pendings member

theorem blames_resolve {graph : NodeId} {nodes : List NodeId} {m : Module} {pending : Pending}
    (member : pending.line ∈ lines) : Blames lines (resolve graph nodes m pending) := by
  unfold resolve
  split
  · refine blames_bind (blames_on_line member _) fun source _ => blames_bind (blames_on_line member _) fun target _ => ?_
    exact blames_bind (blames_apply member _ m) fun _ _ => blames_ok _
  · refine blames_bind (blames_on_line member _) fun target _ => ?_
    exact blames_bind (blames_apply member _ m) fun _ _ => blames_ok _

theorem blames_end_graph {id : NodeId} {pendings : List Pending} (noted : ∀ pending ∈ pendings, pending.line ∈ lines)
    (m : Module) : Blames lines (endGraph id pendings m) :=
  blames_fold (fun _ => True) (fun _ pending member _ => blames_resolve (noted pending member))
    (fun _ _ _ _ _ _ => trivial) trivial

theorem blames_end_subgraph {state : State} (noted : Noted lines state.scopes) : Blames lines (endSubgraph state) := by
  unfold endSubgraph
  split
  · rename_i id pendings scopes scope
    split
    · refine blames_bind (blames_end_graph (noted id pendings ?_) state.m) fun _ _ => blames_ok _
      rw [scope]
      exact List.mem_cons_self
    · exact blames_ok _
  · exact blames_ok _

theorem noted_end_subgraph {state next : State} (noted : Noted lines state.scopes) (done : endSubgraph state = .ok next) :
    Noted lines next.scopes := by
  rcases end_subgraph_ok done with ⟨id, pending, scopes, m, scope, _, rfl⟩ | rfl
  · refine noted_of_subset noted ?_
    rw [scope]
    exact List.subset_cons_self _ _
  · exact noted

def Scope.isCompound : Scope → Bool
  | .graph _ _ => false
  | .compound _ _ _ => true

theorem end_all_error {line : Word} {m : Module} {scopes : List Scope} {error : ReadError} (noted : Noted lines scopes)
    (failed : endAll line m scopes = .error error) :
    Names lines error ∨ error = ⟨String.ofList line, .unterminated⟩ ∧ scopes.any Scope.isCompound = true := by
  induction scopes generalizing m with
  | nil => cases failed
  | cons scope scopes ih =>
      cases scope with
      | compound id header graphs =>
          cases failed
          exact .inr ⟨rfl, rfl⟩
      | graph id pendings =>
          rcases Outcome.bind_error failed with here | ⟨changed, _, later⟩
          · exact .inl (blames_end_graph (noted id pendings List.mem_cons_self) m error here)
          · exact ih (noted_of_subset noted (List.subset_cons_self _ _)) later

theorem blames_end_all {line : Word} (member : line ∈ lines) {m : Module} {scopes : List Scope}
    (noted : Noted lines scopes) : Blames lines (endAll line m scopes) := by
  intro error failed
  rcases end_all_error noted failed with names | ⟨rfl, _⟩
  · exact names
  · exact ⟨line, member, rfl⟩

theorem end_all_open {line : Word} {m changed : Module} {scopes : List Scope} (done : endAll line m scopes = .ok changed) :
    scopes.any Scope.isCompound = false := by
  induction scopes generalizing m with
  | nil => rfl
  | cons scope scopes ih =>
      cases scope with
      | compound => cases done
      | graph id pendings =>
          obtain ⟨middle, _, later⟩ := Outcome.bind_ok done
          exact ih later

end Ends

/-! ### Steps -/

section Steps
variable {lines : List Word} {labels : List Nat} {state : State} {line : Word}

theorem blames_add_node_at (member : line ∈ lines) (label : Nat) (op : Opcode) (state : State) :
    Blames lines (addNodeAt line label op state) := by
  unfold addNodeAt
  split
  · dsimp only
    split
    · exact blames_apply member _ _
    · exact blames_on_line member _
  · exact blames_on_line member _

theorem blames_add_pending {pending : Pending} (member : pending.line ∈ lines) (state : State) :
    Blames lines (addPending pending state) := by
  unfold addPending
  split
  · exact blames_ok _
  · exact blames_on_line member _

theorem noted_add_pending {pending : Pending} {next : State} (member : pending.line ∈ lines)
    (noted : Noted lines state.scopes) (done : addPending pending state = .ok next) : Noted lines next.scopes := by
  obtain ⟨id, earlier, scopes, scope, rfl⟩ := add_pending_ok done
  rw [scope] at noted
  intro other pendings listed late inside
  rcases List.mem_cons.mp listed with same | listed
  · cases same
    rcases List.mem_append.mp inside with inside | last
    · exact noted id earlier List.mem_cons_self late inside
    · rw [List.mem_singleton.mp last]
      exact member
  · exact noted other pendings (List.mem_cons_of_mem _ listed) late inside

theorem blames_step {kind : Kind} (member : line ∈ lines) (noted : Noted lines state.scopes) :
    Blames lines (step labels state (kind, line)) := by
  cases kind with
  | function =>
      refine blames_bind (blames_end_all member noted) fun m _ => ?_
      refine blames_bind (blames_on_line member _) fun record _ => blames_bind (blames_on_line member _) fun type _ => ?_
      exact blames_bind (blames_apply member _ _) fun _ _ =>
        blames_bind (blames_apply member _ _) fun _ _ => blames_ok _
  | node =>
      exact blames_bind (blames_on_line member _) fun record _ =>
        blames_bind (blames_add_node_at member _ _ state) fun _ _ => blames_ok _
  | compound =>
      exact blames_bind (blames_on_line member _) fun record _ =>
        blames_bind (blames_add_node_at member _ _ state) fun _ _ => blames_ok _
  | graph =>
      refine blames_bind (blames_on_line member _) fun pragmas _ =>
        blames_bind (blames_end_subgraph noted) fun ended _ => ?_
      dsimp only
      split
      · exact blames_bind (blames_apply member _ _) fun _ _ => blames_ok _
      · exact blames_on_line member _
  | trailer =>
      refine blames_bind (blames_end_subgraph noted) fun ended _ => ?_
      dsimp only
      split
      · exact blames_bind (blames_on_line member _) fun _ _ => blames_ok _
      · exact blames_on_line member _
  | edge | literal =>
      exact blames_bind (blames_on_line member _) fun record _ =>
        blames_bind (blames_on_line member _) fun type _ => blames_add_pending member state

theorem noted_step {kind : Kind} {next : State} (member : line ∈ lines) (noted : Noted lines state.scopes)
    (done : step labels state (kind, line) = .ok next) : Noted lines next.scopes := by
  cases kind with
  | function =>
      obtain ⟨m, _, done⟩ := Outcome.bind_ok done
      obtain ⟨record, _, done⟩ := Outcome.bind_ok done
      obtain ⟨type, _, done⟩ := Outcome.bind_ok done
      obtain ⟨added, _, done⟩ := Outcome.bind_ok done
      obtain ⟨declared, _, done⟩ := Outcome.bind_ok done
      cases done
      exact noted_graph (fun _ _ inside => by cases inside) _
  | node =>
      obtain ⟨record, _, done⟩ := Outcome.bind_ok done
      obtain ⟨added, _, done⟩ := Outcome.bind_ok done
      cases done
      exact noted
  | compound =>
      obtain ⟨record, _, done⟩ := Outcome.bind_ok done
      obtain ⟨added, _, done⟩ := Outcome.bind_ok done
      cases done
      exact noted_compound noted _ _ _
  | graph =>
      obtain ⟨_, _, _, _, _, _, _, ended, _, rfl⟩ := begin_subgraph_ok done
      have kept := noted_end_subgraph noted ended
      exact noted_graph (noted_compound (noted_of_subset kept (List.subset_cons_self _ _)) _ _ _) _
  | trailer =>
      obtain ⟨_, _, _, _, _, _, _, ended, _, rfl⟩ := end_compound_ok done
      exact noted_of_subset (noted_end_subgraph noted ended) (List.subset_cons_self _ _)
  | edge =>
      obtain ⟨record, _, done⟩ := Outcome.bind_ok done
      obtain ⟨type, _, done⟩ := Outcome.bind_ok done
      exact noted_add_pending (by exact member) noted done
  | literal =>
      obtain ⟨record, _, done⟩ := Outcome.bind_ok done
      obtain ⟨type, _, done⟩ := Outcome.bind_ok done
      exact noted_add_pending (by exact member) noted done

end Steps

/-! ### Texts -/

-- All records are accepted, up to the state after the last one.
structure Accepts (text : String) (document : Document) (state : State) : Prop where
  read : Read.document text = .ok document
  acyclic : checkAcyclic document.types = .ok ()
  chains : (document.types.entries.forM fun (_, entry) => checkChain document.types entry) = .ok ()
  body : document.body.foldlM (step (typeLabels document.types)) ⟨startModule document, []⟩ = .ok state

-- The text ends inside a compound.
def Unfinished (text : String) : Prop :=
  ∃ document state, Accepts text document state ∧ state.scopes.any Scope.isCompound = true

theorem of_text_accepts {text : String} {document : Document} {state : State} (accepts : Accepts text document state) :
    ofText text = endAll endLine state.m state.scopes :=
  (Outcome.bind_of_ok accepts.read).trans ((Outcome.bind_of_ok accepts.acyclic).trans
    ((Outcome.bind_of_ok accepts.chains).trans (Outcome.bind_of_ok accepts.body)))

theorem of_text_error {text : String} {error : ReadError} (failed : ofText text = .error error) :
    Names (Text.lines text.toList) error ∨ error = ⟨"<end of input>", .unterminated⟩ ∧ Unfinished text := by
  rcases Outcome.bind_error failed with unread | ⟨found, read, failed⟩
  · exact .inl (blames_document text error unread)
  have sourced := sourced_of_document read
  rcases Outcome.bind_error failed with cyclic | ⟨_, acyclic, failed⟩
  · exact .inl (blames_check sourced.types error cyclic)
  rcases Outcome.bind_error failed with mixed | ⟨_, chains, failed⟩
  · refine .inl (blames_walk (fun entry member => blames_chain ?_) error mixed)
    exact sourced.types (SortedMap.get?_of_mem_entries member)
  have kept : ∀ (state : State) (entry : Kind × Word) (next : State), entry ∈ found.body →
      Noted (Text.lines text.toList) state.scopes → step (typeLabels found.types) state entry = .ok next →
        Noted (Text.lines text.toList) next.scopes :=
    fun state entry next member noted done => noted_step (sourced.body entry member) noted done
  have start : Noted (Text.lines text.toList) (⟨startModule found, []⟩ : State).scopes :=
    fun _ _ member => by cases member
  rcases Outcome.bind_error failed with refused | ⟨state, folded, failed⟩
  · refine .inl (blames_fold (fun state : State => Noted (Text.lines text.toList) state.scopes)
      (fun state entry member noted => ?_) kept start error refused)
    exact blames_step (sourced.body entry member) noted
  · have noted := Outcome.fold_m_keeps (fun state : State => Noted (Text.lines text.toList) state.scopes) kept start folded
    rcases end_all_error noted failed with names | ⟨rfl, unfinished⟩
    · exact .inl names
    · exact .inr ⟨rfl, found, state, ⟨read, acyclic, chains, folded⟩, unfinished⟩

theorem refusals_name_lines (text : String) :
    ((∃ m, Strict.read text = .ok m ∧ ofText text = .ok m) ∨
      ∃ error, Strict.read text = .error (.parse error) ∧ ofText text = .error error ∧
        ((∃ line ∈ Text.lines text.toList, error.line = String.ofList line) ∨
          error = ⟨"<end of input>", .unterminated⟩ ∧ Unfinished text)) ∧
      (Unfinished text → ∀ m, ofText text ≠ .ok m) := by
  refine ⟨?_, ?_⟩
  · rw [Strict.read_strict]
    cases read : ofText text with
    | ok m => exact .inl ⟨m, rfl, rfl⟩
    | error error => exact .inr ⟨error, rfl, rfl, of_text_error read⟩
  · rintro ⟨document, state, accepts, unfinished⟩ m done
    rw [of_text_accepts accepts] at done
    rw [end_all_open done] at unfinished
    cases unfinished

-- The child graph ends with the text, and the compound does not.
example : (match ofText "X 0 \"f\"\n\x7b Compound 1 130\nG 0" with
    | .error error => decide (error.line = "<end of input>" ∧ error.fault = .unterminated)
    | .ok _ => false) = true := by
  decide +kernel

end Dataflow.Module.Read
