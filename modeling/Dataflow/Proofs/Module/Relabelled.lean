import Dataflow.Proofs.Module.Retyped
import Dataflow.Proofs.Module.Reworded
set_option autoImplicit false

-- Texts in which types go by other labels. Only the order of the labels counts: it puts the types in their
-- places, and all that is read later are the places.
namespace Dataflow.Module.Read
open Record (Word Relabelling Relabelled)

/-! ### Records with labels of types -/

def letterOf : Kind → Char
  | .function => 'X'
  | .node => 'N'
  | .edge => 'E'
  | .literal => 'L'
  | .compound => '\x7b'
  | .graph => 'G'
  | .trailer => '\x7d'

theorem head_of_kind {head : Word} {kind : Kind} (known : kind? head = some kind) : head = [letterOf kind] := by
  unfold kind? at known
  split at known <;> cases known <;> rfl

section Relabelled
variable {phi : Nat → Nat} {labels : List Nat} {state stateTwin next : State} {line twin : Word}

variable {types twins : TypeLines} (retyped : Retyped phi labels types twins) (relabelling : Relabelling phi labels)
include retyped relabelling

theorem begin_function_relabelled (reworded : state.Reworded stateTwin) (relabelled : Relabelled phi line twin)
    (inside : Record.labels line ⊆ labels) (start : Record.head line = ['X'])
    (done : beginFunction (typeLabels types) line state = .ok next) :
    ∃ nextTwin, beginFunction (typeLabels twins) twin stateTwin = .ok nextTwin ∧ next.Reworded nextTwin := by
  obtain ⟨m, ended, done⟩ := Outcome.bind_ok done
  obtain ⟨record, parsed, done⟩ := Outcome.bind_ok done
  obtain ⟨type, typed, done⟩ := Outcome.bind_ok done
  obtain ⟨⟨id, added⟩, adding, done⟩ := Outcome.bind_ok done
  obtain ⟨⟨_, declared⟩, declaring, done⟩ := Outcome.bind_ok done
  cases done
  have endedToo := end_all_reworded twin reworded.scopes ended
  rw [← reworded.m] at endedToo
  obtain ⟨parsedToo, member⟩ := Record.parse_function_relabelled relabelled start (on_line_ok parsed)
  have typedToo := retyped.type_at relabelling (inside member) (on_line_ok typed)
  exact ⟨_, (Outcome.bind_of_ok endedToo).trans ((Outcome.bind_of_ok (on_line_of_ok twin parsedToo)).trans
    ((Outcome.bind_of_ok (on_line_of_ok twin typedToo)).trans ((Outcome.bind_of_ok (apply_again twin adding)).trans
      ((Outcome.bind_of_ok (apply_again twin declaring)).trans rfl)))), rfl, .cons (.graph id .nil) .nil⟩

theorem read_edge_relabelled (reworded : state.Reworded stateTwin) (relabelled : Relabelled phi line twin)
    (inside : Record.labels line ⊆ labels) (start : Record.head line = ['E'])
    (done : readEdge (typeLabels types) line state = .ok next) :
    ∃ nextTwin, readEdge (typeLabels twins) twin stateTwin = .ok nextTwin ∧ next.Reworded nextTwin := by
  obtain ⟨record, parsed, done⟩ := Outcome.bind_ok done
  obtain ⟨type, typed, done⟩ := Outcome.bind_ok done
  obtain ⟨parsedToo, member⟩ := Record.parse_edge_relabelled relabelled start (on_line_ok parsed)
  have typedToo := retyped.type_at relabelling (inside member) (on_line_ok typed)
  have pair : (edgePending line record type).Reworded (edgePending twin record type) := ⟨twin, rfl⟩
  obtain ⟨nextTwin, added, same⟩ := add_pending_reworded reworded pair done
  exact ⟨nextTwin, (Outcome.bind_of_ok (on_line_of_ok twin parsedToo)).trans
    ((Outcome.bind_of_ok (on_line_of_ok twin typedToo)).trans added), same⟩

theorem read_literal_relabelled (reworded : state.Reworded stateTwin) (relabelled : Relabelled phi line twin)
    (inside : Record.labels line ⊆ labels) (start : Record.head line = ['L'])
    (done : readLiteral (typeLabels types) line state = .ok next) :
    ∃ nextTwin, readLiteral (typeLabels twins) twin stateTwin = .ok nextTwin ∧ next.Reworded nextTwin := by
  obtain ⟨record, parsed, done⟩ := Outcome.bind_ok done
  obtain ⟨type, typed, done⟩ := Outcome.bind_ok done
  obtain ⟨parsedToo, member⟩ := Record.parse_literal_relabelled relabelled start (on_line_ok parsed)
  have typedToo := retyped.type_at relabelling (inside member) (on_line_ok typed)
  have pair : (literalPending line record type).Reworded (literalPending twin record type) := ⟨twin, rfl⟩
  obtain ⟨nextTwin, added, same⟩ := add_pending_reworded reworded pair done
  exact ⟨nextTwin, (Outcome.bind_of_ok (on_line_of_ok twin parsedToo)).trans
    ((Outcome.bind_of_ok (on_line_of_ok twin typedToo)).trans added), same⟩

theorem step_relabelled {entry entryTwin : Kind × Word} (reworded : state.Reworded stateTwin)
    (same : BodyTwin phi labels entry entryTwin) (done : step (typeLabels types) state entry = .ok next) :
    ∃ nextTwin, step (typeLabels twins) stateTwin entryTwin = .ok nextTwin ∧ next.Reworded nextTwin := by
  obtain ⟨_, line⟩ := entry
  obtain ⟨kind, twin⟩ := entryTwin
  obtain ⟨rfl, relabelled, inside, known⟩ := same
  have start := head_of_kind known
  have plain : letterOf kind ∉ ['T', 'X', 'E', 'L'] → twin = line := by
    intro other
    refine relabelled.other ?_
    rw [start]
    simpa using other
  cases kind with
  | function => exact begin_function_relabelled retyped relabelling reworded relabelled inside start done
  | edge => exact read_edge_relabelled retyped relabelling reworded relabelled inside start done
  | literal => exact read_literal_relabelled retyped relabelling reworded relabelled inside start done
  | node =>
      rw [plain (by decide)]
      exact read_node_reworded reworded done
  | compound =>
      rw [plain (by decide)]
      exact begin_compound_reworded reworded done
  | graph =>
      rw [plain (by decide)]
      exact begin_subgraph_reworded reworded done
  | trailer =>
      rw [plain (by decide)]
      exact end_compound_reworded reworded done

theorem body_relabelled {body bodyTwin : List (Kind × Word)} (reworded : state.Reworded stateTwin)
    (each : List.Forall₂ (BodyTwin phi labels) body bodyTwin)
    (done : body.foldlM (step (typeLabels types)) state = .ok next) :
    ∃ nextTwin, bodyTwin.foldlM (step (typeLabels twins)) stateTwin = .ok nextTwin ∧ next.Reworded nextTwin := by
  induction each generalizing state stateTwin with
  | nil =>
      cases done
      exact ⟨_, rfl, reworded⟩
  | cons same _ ih =>
      obtain ⟨middle, here, later⟩ := Outcome.fold_m_cons done
      obtain ⟨middleTwin, there, between⟩ := step_relabelled retyped relabelling reworded same here
      rw [List.foldlM_cons, Outcome.bind_of_ok there]
      exact ih between later

omit retyped in
theorem build_relabelled {document documentTwin : Document} {m : Module}
    (twin : Document.Twin phi labels document documentTwin) (done : build document = .ok m) :
    build documentTwin = .ok m := by
  obtain ⟨_, acyclic, done⟩ := Outcome.bind_ok done
  obtain ⟨_, chains, done⟩ := Outcome.bind_ok done
  obtain ⟨final, folded, ended⟩ := Outcome.bind_ok done
  have acyclicToo := twin.types.acyclic relabelling acyclic
  have chainsToo := check_chains_iff.mpr (twin.types.chains (check_chains_iff.mp chains))
  have start : State.Reworded ⟨startModule document, []⟩ ⟨startModule documentTwin, []⟩ := by
    refine ⟨?_, .nil⟩
    unfold startModule
    rw [twin.types.type_table relabelling, twin.pragmas]
  obtain ⟨finalTwin, foldedToo, reworded⟩ := body_relabelled twin.types relabelling start twin.body folded
  have endedToo := end_all_reworded endLine reworded.scopes ended
  rw [← reworded.m] at endedToo
  exact (Outcome.bind_of_ok acyclicToo).trans ((Outcome.bind_of_ok chainsToo).trans
    ((Outcome.bind_of_ok foldedToo).trans endedToo))

end Relabelled

/-! ### Texts -/

def labelsOf (text : String) : List Nat :=
  (Text.lines text.toList).flatMap Record.labels

structure RelabelledText (phi : Nat → Nat) (first second : String) : Prop where
  labels : Relabelling phi (labelsOf first)
  lines : List.Forall₂ (Relabelled phi) (Text.lines first.toList) (Text.lines second.toList)

namespace RelabelledText
variable {phi : Nat → Nat} {first second : String}

theorem back (relabelled : RelabelledText phi first second) : ∃ psi, RelabelledText psi second first := by
  obtain ⟨psi, relabelling, undone⟩ := relabelled.labels.back
  refine ⟨psi, ?_, Record.relabelled_back relabelled.lines fun label member => ?_⟩
  · unfold labelsOf
    rw [Record.labels_of_twins relabelled.lines]
    exact relabelling
  · exact undone label (List.mem_cons_of_mem 0 member)

theorem carried (relabelled : RelabelledText phi first second) {m : Module} (done : ofText first = .ok m) :
    ofText second = .ok m := by
  obtain ⟨found, read, built⟩ := Outcome.bind_ok done
  obtain ⟨parts, parsed, once, rfl⟩ := document_ok_iff.mp read
  have inside : ∀ line ∈ Text.lines first.toList, Record.labels line ⊆ labelsOf first :=
    fun line member label known => List.mem_flatMap.mpr ⟨line, member, known⟩
  obtain ⟨others, parsedToo, twins⟩ := parts_relabelled relabelled.labels relabelled.lines inside parsed
  obtain ⟨onceToo, twin⟩ := collected_twin relabelled.labels twins once
  have readToo : document second = .ok (collect others) := document_ok_iff.mpr ⟨others, parsedToo, onceToo, rfl⟩
  exact (Outcome.bind_of_ok readToo).trans (build_relabelled relabelled.labels twin built)

end RelabelledText

theorem of_text_relabelled {phi : Nat → Nat} {first second : String} (relabelled : RelabelledText phi first second)
    (m : Module) : ofText first = .ok m ↔ ofText second = .ok m := by
  obtain ⟨psi, back⟩ := relabelled.back
  exact ⟨relabelled.carried, back.carried⟩

-- The label 7 is referred to and not defined, and stays below the type of the literal.
theorem labels_without_gaps :
    let first := "T 5 0 7\nT 9 1 3\nT 4294967295 8 9 0\nX 0 \"f\"\nE 0 1 1 1 5\nN 1 141\nL 1 2 9 \"9 9\" %na=x"
    let second := "T 1 0 2\nT 3 1 3\nT 4 8 03 0\nX 0 \"f\"\nE 0 1 1 1 1\nN 1 141\nL 1 2 +3 \"9 9\" %na=x"
    let phi (label : Nat) : Nat := [0, 5, 7, 9, 4294967295].idxOf label
    RelabelledText phi first second ∧ first ≠ second ∧ (ofText first).isOk = true ∧
      ∀ m, ofText first = .ok m ↔ ofText second = .ok m := by
  intro first second phi
  have relabelled : RelabelledText phi first second := ⟨by decide +kernel, by decide +kernel⟩
  exact ⟨relabelled, by decide, by decide +kernel, of_text_relabelled relabelled⟩

end Dataflow.Module.Read
