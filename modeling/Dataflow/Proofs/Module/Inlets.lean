import Dataflow.Proofs.Module.Labels
import Dataflow.Proofs.Module.Reading
import Dataflow.Proofs.Module.Written
set_option autoImplicit false

-- The inputs of a node that are fed: one record is written for each, and it is read back as what is
-- to be fed when the graph ends.
namespace Dataflow.Module
open TypeTable

def boundPorts (m : Module) (id : NodeId) : List Nat :=
  ((m.inputsOf id).walk fun _ input => input.binding).map (·.1)

def boundInlets (m : Module) (id : NodeId) : List Inlet :=
  (m.boundPorts id).map fun port => ⟨id, port⟩

section Inlets
variable {m : Module} {id : NodeId}

theorem mem_bound_ports {port : Nat} : port ∈ m.boundPorts id ↔ (m.binding? ⟨id, port⟩).isSome := by
  unfold boundPorts
  rw [List.mem_map, Option.isSome_iff_exists]
  constructor
  · rintro ⟨⟨other, binding⟩, member, rfl⟩
    have found := SortedMap.mem_walk.mp member
    rw [get_inputs] at found
    exact ⟨binding, found⟩
  · rintro ⟨binding, found⟩
    refine ⟨(port, binding), SortedMap.mem_walk.mpr ?_, rfl⟩
    rw [get_inputs]
    exact found

theorem mem_bound_inlets {inlet : Inlet} :
    inlet ∈ m.boundInlets id ↔ inlet.node = id ∧ (m.binding? inlet).isSome := by
  unfold boundInlets
  rw [List.mem_map]
  constructor
  · rintro ⟨port, member, rfl⟩
    exact ⟨rfl, mem_bound_ports.mp member⟩
  · rintro ⟨rfl, bound⟩
    exact ⟨inlet.port, mem_bound_ports.mpr bound, rfl⟩

theorem bound_ports_ascending : (m.boundPorts id).Pairwise (· < ·) :=
  List.pairwise_map.mpr ((SortedMap.walk_ascending _ _).imp fun less => Nat.compare_eq_lt.mp less)

theorem bound_inlets_once : (m.boundInlets id).Nodup := by
  refine List.pairwise_map.mpr (bound_ports_ascending.imp ?_)
  intro first second less same
  have equal : first = second := congrArg Inlet.port same
  omega

theorem bound_inlets_eq {node : Node} (found : m.nodes[id]? = some node) :
    m.boundInlets id = node.inputs.entries.filterMap fun entry => entry.2.binding.map fun _ => ⟨id, entry.1⟩ := by
  unfold boundInlets boundPorts inputsOf SortedMap.walk
  rw [found, List.map_map, Option.map_some, Option.getD_some, List.map_filterMap]
  congr 1
  funext entry
  cases bound : entry.2.binding <;> simp [bound]

end Inlets

/-! ### Records of bindings -/

-- The record that is written for a binding.
structure Binds (m : Module) (label : Nat) (inlet : Inlet) (record : Record) : Prop where
  written : ∃ input, m.input? inlet = some input ∧ m.bindingRecord label inlet.port input = .ok (some record)

theorem binding_record_bare {m : Module} {label port : Nat} {input : Input} (bare : input.binding = none) :
    m.bindingRecord label port input = .ok none := by
  unfold bindingRecord
  rw [bare]

theorem binding_record_bound {m : Module} {label port : Nat} {input : Input} {binding : Binding}
    {record : Option Record} (bound : input.binding = some binding)
    (done : m.bindingRecord label port input = .ok record) : ∃ found, record = some found := by
  unfold bindingRecord at done
  rw [bound] at done
  cases binding with
  | literal literal =>
      obtain ⟨_, _, done⟩ := Outcome.bind_ok done
      cases done
      exact ⟨_, rfl⟩
  | wire source stamp =>
      obtain ⟨_, _, done⟩ := Outcome.bind_ok done
      obtain ⟨_, _, done⟩ := Outcome.bind_ok done
      cases done
      exact ⟨_, rfl⟩

section Entries
variable {m : Module} {id : NodeId} {label : Nat} {entries : List (Nat × Input)}
  (known : ∀ entry ∈ entries, m.input? ⟨id, entry.1⟩ = some entry.2)
include known

theorem binds_of_entries {all : List (Option Record)}
    (done : entries.mapM (fun entry => m.bindingRecord label entry.1 entry.2) = .ok all) :
    List.Forall₂ (Binds m label)
      (entries.filterMap fun entry => entry.2.binding.map fun _ => (⟨id, entry.1⟩ : Inlet))
      (all.filterMap fun record => record) := by
  have each := Outcome.map_m_ok done
  clear done
  induction each with
  | nil => exact .nil
  | @cons entry record rest records here _ ih =>
      have later := ih fun other member => known other (List.mem_cons_of_mem _ member)
      cases bound : entry.2.binding with
      | none =>
          rw [binding_record_bare bound] at here
          cases here
          rw [List.filterMap_cons, List.filterMap_cons, bound]
          exact later
      | some binding =>
          obtain ⟨written, rfl⟩ := binding_record_bound bound here
          rw [List.filterMap_cons, List.filterMap_cons, bound]
          exact .cons ⟨entry.2, known entry List.mem_cons_self, here⟩ later

theorem entries_of_binds {records : List Record}
    (each : List.Forall₂ (Binds m label)
      (entries.filterMap fun entry => entry.2.binding.map fun _ => (⟨id, entry.1⟩ : Inlet)) records) :
    ∃ all, entries.mapM (fun entry => m.bindingRecord label entry.1 entry.2) = .ok all ∧
      (all.filterMap fun record => record) = records := by
  induction entries generalizing records with
  | nil =>
      cases each
      exact ⟨[], rfl, rfl⟩
  | cons entry rest ih =>
      have knownLater : ∀ other ∈ rest, m.input? ⟨id, other.1⟩ = some other.2 :=
        fun other member => known other (List.mem_cons_of_mem _ member)
      rw [List.filterMap_cons] at each
      cases bound : entry.2.binding with
      | none =>
          rw [bound] at each
          obtain ⟨all, walked, same⟩ := ih knownLater each
          exact ⟨none :: all, map_m_cons_ok (binding_record_bare bound) walked, same⟩
      | some binding =>
          rw [bound] at each
          cases each with
          | @cons _ record _ records here others =>
              obtain ⟨input, held, written⟩ := here
              rw [known entry List.mem_cons_self] at held
              cases held
              obtain ⟨all, walked, same⟩ := ih knownLater others
              refine ⟨some record :: all, map_m_cons_ok written walked, ?_⟩
              rw [List.filterMap_cons, same]

end Entries

-- Inputs that nothing feeds are left out.
theorem binding_records_iff {m : Module} {id : NodeId} {node : Node} {label : Nat} {records : List Record}
    (found : m.nodes[id]? = some node) :
    m.bindingRecords label node = .ok records ↔ List.Forall₂ (Binds m label) (m.boundInlets id) records := by
  have known : ∀ entry ∈ node.inputs.entries, m.input? ⟨id, entry.1⟩ = some entry.2 := by
    intro entry member
    rw [input_eq_of_node found]
    exact SortedMap.get?_of_mem_entries member
  rw [bound_inlets_eq found]
  constructor
  · intro done
    obtain ⟨all, walked, done⟩ := Outcome.bind_ok done
    rw [← Outcome.pure_ok done]
    exact binds_of_entries known walked
  · intro each
    obtain ⟨all, walked, rfl⟩ := entries_of_binds known each
    exact (Outcome.bind_of_ok walked).trans rfl

/-! ### What is asked for -/

-- The pragmas that are written with a binding: those of a wire are merged.
def fedPragmas (m : Module) (inlet : Inlet) : Pragmas :=
  match m.binding? inlet with
  | some (.wire source _) => ((m.output? source).getD {}).pragmas.merge ((m.input? inlet).getD {}).pragmas
  | _ => ((m.input? inlet).getD {}).pragmas

inductive FeedFor (m : Module) : Supply → Read.Feed → Prop
  | literal (literal : Literal) : FeedFor m (.literal literal) (.text literal.text)
  | wire {source : Outlet} {label : Nat} (labelled : m.label source.node = .ok label) (low : 1 ≤ source.port) :
      FeedFor m (.wire source) (.wire label source.port)

-- What is read for an input before its graph ends.
structure Asked (m : Module) (inlet : Inlet) (pending : Read.Pending) : Prop where
  target : m.label inlet.node = .ok pending.target
  port : pending.port = inlet.port
  low : 1 ≤ inlet.port
  live : LiveOption m.types (m.inputType? inlet)
  type : pending.type = (m.inputType? inlet).map m.types.place
  pragmas : pending.pragmas = (m.fedPragmas inlet).normalize
  feed : ∃ binding, m.binding? inlet = some binding ∧ FeedFor m binding.supply pending.feed

-- The two kinds of records, spelled out.
theorem binds_cases {m : Module} {label : Nat} {inlet : Inlet} {record : Record} (binds : Binds m label inlet record) :
    ∃ type, m.typeLabel (m.inputType? inlet) = .ok type ∧
      ((∃ literal, m.binding? inlet = some (.literal literal) ∧
          record = .literal ⟨label, inlet.port, type, literal.text, m.fedPragmas inlet⟩) ∨
        ∃ source stamp sourceLabel, m.binding? inlet = some (.wire source stamp) ∧
          m.label source.node = .ok sourceLabel ∧
          record = .edge ⟨sourceLabel, source.port, label, inlet.port, type, m.fedPragmas inlet⟩) := by
  obtain ⟨input, held, done⟩ := binds.written
  have bound : m.binding? inlet = input.binding := by simp [binding?, held]
  unfold inputType? fedPragmas
  simp only [bound, held, Option.getD_some]
  unfold bindingRecord at done
  cases fed : input.binding with
  | none =>
      rw [fed] at done
      cases done
  | some binding =>
      rw [fed] at done
      cases binding with
      | literal literal =>
          obtain ⟨type, typed, done⟩ := Outcome.bind_ok done
          cases done
          exact ⟨type, typed, .inl ⟨literal, rfl, rfl⟩⟩
      | wire source stamp =>
          obtain ⟨sourceLabel, labelled, done⟩ := Outcome.bind_ok done
          obtain ⟨type, typed, done⟩ := Outcome.bind_ok done
          cases done
          exact ⟨type, typed, .inr ⟨source, stamp, sourceLabel, rfl, labelled, rfl⟩⟩

theorem binds_of_literal {m : Module} (label : Nat) {type : Nat} {inlet : Inlet} {literal : Literal}
    (bound : m.binding? inlet = some (.literal literal)) (typed : m.typeLabel (m.inputType? inlet) = .ok type) :
    Binds m label inlet (.literal ⟨label, inlet.port, type, literal.text, m.fedPragmas inlet⟩) := by
  obtain ⟨input, held, fed⟩ := Option.bind_eq_some_iff.mp bound
  refine ⟨input, held, ?_⟩
  simp only [inputType?, bound] at typed
  unfold bindingRecord fedPragmas
  rw [fed, bound]
  simp only [held, Option.getD_some]
  exact (Outcome.bind_of_ok typed).trans rfl

theorem binds_of_wire {m : Module} (label : Nat) {sourceLabel type : Nat} {inlet : Inlet} {source : Outlet} {stamp : Nat}
    (bound : m.binding? inlet = some (.wire source stamp)) (labelled : m.label source.node = .ok sourceLabel)
    (typed : m.typeLabel (m.inputType? inlet) = .ok type) :
    Binds m label inlet (.edge ⟨sourceLabel, source.port, label, inlet.port, type, m.fedPragmas inlet⟩) := by
  obtain ⟨input, held, fed⟩ := Option.bind_eq_some_iff.mp bound
  refine ⟨input, held, ?_⟩
  simp only [inputType?, bound] at typed
  unfold bindingRecord fedPragmas
  rw [fed, bound]
  simp only [held, Option.getD_some]
  exact (Outcome.bind_of_ok labelled).trans ((Outcome.bind_of_ok typed).trans rfl)

/-! ### Reading records of bindings -/

section Reading
variable {m : Module} {labels : List Nat}

-- A record of a binding waits in the innermost graph.
def Waits (labels : List Nat) (records : List Record) (pendings : List Read.Pending) : Prop :=
  ∀ (copy : Module) (id : NodeId) (earlier : List Read.Pending) (scopes : List Read.Scope),
    (records.filterMap Read.bodyLine).foldlM (Read.step labels) ⟨copy, .graph id earlier :: scopes⟩ =
      .ok ⟨copy, .graph id (earlier ++ pendings) :: scopes⟩

theorem waits_literal {record : LiteralRecord} {type : Option TypeId} (clear : (Record.literal record).Clear)
    (known : Read.typeAt labels record.type = .ok type) :
    Waits labels [.literal record] [Read.literalPending (Record.line (.literal record))
      { record with pragmas := record.pragmas.normalize } type] := by
  intro copy id earlier scopes
  refine (Outcome.bind_of_ok ?_).trans rfl
  change Read.readLiteral labels _ _ = _
  unfold Read.readLiteral
  rw [Record.parse_literal_line clear]
  refine (Read.on_line_bind _ _ _).trans ?_
  simp only [known]
  exact Read.on_line_bind _ _ _

theorem waits_edge {record : EdgeRecord} {type : Option TypeId} (clear : (Record.edge record).Clear)
    (known : Read.typeAt labels record.type = .ok type) :
    Waits labels [.edge record] [Read.edgePending (Record.line (.edge record))
      { record with pragmas := record.pragmas.normalize } type] := by
  intro copy id earlier scopes
  refine (Outcome.bind_of_ok ?_).trans rfl
  change Read.readEdge labels _ _ = _
  unfold Read.readEdge
  rw [Record.parse_edge_line clear]
  refine (Read.on_line_bind _ _ _).trans ?_
  simp only [known]
  exact Read.on_line_bind _ _ _

theorem asked_of_binds {label : Nat} {inlet : Inlet} {record : Record}
    (read : labels = List.range' 1 m.types.order.length) (binds : Binds m label inlet record)
    (labelled : m.label inlet.node = .ok label) (readable : record.Readable) :
    ∃ pending, Asked m inlet pending ∧ Waits labels [record] [pending] := by
  obtain ⟨type, typed, shape⟩ := binds_cases binds
  obtain ⟨live, rfl⟩ := type_label_ok typed
  have known := type_at_label live
  rw [← read] at known
  rcases shape with ⟨literal, bound, rfl⟩ | ⟨source, stamp, sourceLabel, bound, sourceLabelled, rfl⟩
  · refine ⟨_, ?_, waits_literal readable.clear known⟩
    exact ⟨labelled, rfl, readable.ported, live, rfl, rfl, _, bound, .literal literal⟩
  · obtain ⟨sourceLow, targetLow⟩ := readable.ported
    refine ⟨_, ?_, waits_edge readable.clear known⟩
    exact ⟨labelled, rfl, targetLow, live, rfl, rfl, _, bound, .wire sourceLabelled sourceLow⟩

theorem waits_append {first second : List Record} {here later : List Read.Pending}
    (waits : Waits labels first here) (others : Waits labels second later) :
    Waits labels (first ++ second) (here ++ later) := by
  intro copy id earlier scopes
  rw [List.filterMap_append, Outcome.fold_m_append (waits copy id earlier scopes), others, List.append_assoc]

theorem asked_of_bindings {label : Nat} {inlets : List Inlet} {records : List Record}
    (read : labels = List.range' 1 m.types.order.length) (each : List.Forall₂ (Binds m label) inlets records)
    (labelled : ∀ inlet ∈ inlets, m.label inlet.node = .ok label)
    (readable : ∀ record ∈ records, record.Readable) :
    ∃ pendings, List.Forall₂ (Asked m) inlets pendings ∧ Waits labels records pendings := by
  induction each with
  | nil =>
      refine ⟨[], .nil, fun copy id earlier scopes => ?_⟩
      rw [List.append_nil]
      rfl
  | cons here _ ih =>
      obtain ⟨pending, asked, waits⟩ := asked_of_binds read here (labelled _ List.mem_cons_self)
        (readable _ List.mem_cons_self)
      obtain ⟨pendings, others, later⟩ := ih (fun inlet member => labelled inlet (List.mem_cons_of_mem _ member))
        fun record member => readable record (List.mem_cons_of_mem _ member)
      exact ⟨pending :: pendings, .cons asked others, waits_append waits later⟩

end Reading

end Dataflow.Module
