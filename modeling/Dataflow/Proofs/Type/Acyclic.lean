import Mathlib.Data.List.Perm.Subperm
import Dataflow.Module.Read
import Dataflow.Proofs.Outcome
import Dataflow.Proofs.Places
import Dataflow.Proofs.SortedMap
set_option autoImplicit false

-- The checks on the types of a text. They pass exactly when types rank above what they refer to and
-- chains are of one kind.
namespace Dataflow.Module.Read

def Ranked (types : TypeLines) (rank : Nat → Nat) : Prop :=
  ∀ {label entry}, types.get? label = some entry →
    ∀ reference ∈ entry.references, rank reference < rank label

/-! ### One visit -/

-- A type that is done, or not defined, is not opened.
theorem visit_closed {types : TypeLines} (steps : Nat) (path : List Nat) {done : List Nat} {label : Nat}
    (shut : label ∈ done ∨ types.get? label = none) :
    visit types steps path done label = .ok (if label ∈ done then done else label :: done) := by
  have same : (done.contains label = true) = (label ∈ done) := propext List.contains_iff_mem
  by_cases old : label ∈ done
  · cases steps <;> (unfold visit; rw [if_pos (same ▸ old), if_pos old])
  · have missing := shut.resolve_left old
    cases steps <;> (unfold visit; rw [if_neg (same ▸ old), if_neg old, missing])

theorem visit_open {types : TypeLines} (steps : Nat) (path : List Nat) {done : List Nat} {label : Nat}
    {entry : TypeLine} (new : label ∉ done) (found : types.get? label = some entry) :
    visit types (steps + 1) path done label =
      if entry.references.any (label :: path).contains then refuse entry.line .cyclicType
      else entry.references.reverse.foldlM (visit types steps (label :: path)) done >>= fun done =>
        pure (label :: done) := by
  have same : (done.contains label = true) = (label ∈ done) := propext List.contains_iff_mem
  conv => lhs; unfold visit
  rw [if_neg (same ▸ new), found]

/-! ### Ranked types pass -/

theorem visit_run {types : TypeLines} {rank : Nat → Nat} (ranked : Ranked types rank) {steps : Nat}
    {path done : List Nat} {label : Nat} (above : ∀ outer ∈ path, rank label < rank outer) :
    ∃ next, visit types steps path done label = .ok next := by
  induction steps generalizing path done label with
  | zero =>
      unfold visit
      split
      · exact ⟨done, rfl⟩
      · cases types.get? label with
        | none => exact ⟨label :: done, rfl⟩
        | some entry => exact ⟨done, rfl⟩
  | succ steps ih =>
      by_cases old : label ∈ done
      · exact ⟨_, visit_closed (steps + 1) path (.inl old)⟩
      cases found : types.get? label with
      | none => exact ⟨_, visit_closed (steps + 1) path (.inr found)⟩
      | some entry =>
          have lower : ∀ reference ∈ entry.references, ∀ outer ∈ label :: path, rank reference < rank outer := by
            intro reference member outer inside
            have here := ranked found reference member
            rcases List.mem_cons.mp inside with rfl | inside
            · exact here
            · exact Nat.lt_trans here (above outer inside)
          have apart : ¬ entry.references.any (label :: path).contains = true := by
            intro some_
            obtain ⟨reference, member, inside⟩ := List.any_eq_true.mp some_
            have less := lower reference member reference (List.contains_iff_mem.mp inside)
            exact Nat.lt_irrefl _ less
          obtain ⟨next, folded⟩ := Outcome.fold_m_exists
            done
            fun done reference member => ih (lower reference (List.mem_reverse.mp member))
          refine ⟨label :: next, ?_⟩
          rw [visit_open steps path old found, if_neg apart, Outcome.bind_of_ok folded]
          rfl

theorem check_acyclic_run {types : TypeLines} (rank : Nat → Nat) (ranked : Ranked types rank) :
    checkAcyclic types = .ok () := by
  obtain ⟨final, folded⟩ : ∃ final, types.keys.foldlM (visit types (types.size + 1) []) [] = .ok final :=
    Outcome.fold_m_exists [] fun done label _ => visit_run ranked fun outer member => by cases member
  unfold checkAcyclic
  rw [Outcome.bind_of_ok folded]
  rfl

/-! ### Types that pass are ranked -/

-- What a type that is done refers to was done before it.
def Finished (types : TypeLines) (done : List Nat) : Prop :=
  ∀ before label after entry, done = before ++ label :: after → types.get? label = some entry →
    ∀ reference ∈ entry.references, reference ∈ after

theorem finished_cons {types : TypeLines} {done : List Nat} {label : Nat} (finished : Finished types done)
    (known : ∀ entry, types.get? label = some entry → ∀ reference ∈ entry.references, reference ∈ done) :
    Finished types (label :: done) := by
  intro before other after entry split found
  cases before with
  | nil =>
      cases split
      exact known entry found
  | cons first rest =>
      cases split
      exact finished rest other after entry rfl found

structure Visited (types : TypeLines) (done : List Nat) (labels : List Nat) (next : List Nat) : Prop where
  kept : ∀ label ∈ done, label ∈ next
  reached : ∀ label ∈ labels, label ∈ next
  finished : Finished types next

theorem visited_fold {types : TypeLines} {step : List Nat → Nat → Reading (List Nat)} {labels done next : List Nat}
    (each : ∀ done label next, label ∈ labels → Finished types done → step done label = .ok next →
      Visited types done [label] next)
    (finished : Finished types done) (folded : labels.foldlM step done = .ok next) :
    Visited types done labels next := by
  induction labels generalizing done with
  | nil =>
      cases folded
      exact ⟨fun _ member => member, fun _ member => (by cases member), finished⟩
  | cons label rest ih =>
      obtain ⟨middle, here, later⟩ := Outcome.fold_m_cons folded
      have first := each done label middle List.mem_cons_self finished here
      have others := ih (fun done other next member => each done other next (List.mem_cons_of_mem _ member))
        first.finished later
      refine ⟨fun old member => others.kept old (first.kept old member), ?_, others.finished⟩
      intro other member
      rcases List.mem_cons.mp member with rfl | member
      · exact others.kept other (first.reached other List.mem_cons_self)
      · exact others.reached other member

theorem visited_of_closed {types : TypeLines} {steps : Nat} {path done next : List Nat} {label : Nat}
    (shut : label ∈ done ∨ types.get? label = none) (finished : Finished types done)
    (ok : visit types steps path done label = .ok next) : Visited types done [label] next := by
  rw [visit_closed steps path shut] at ok
  by_cases old : label ∈ done
  · rw [if_pos old] at ok
    cases ok
    refine ⟨fun _ member => member, fun other member => ?_, finished⟩
    rw [List.mem_singleton.mp member]
    exact old
  · rw [if_neg old] at ok
    cases ok
    have missing := shut.resolve_left old
    refine ⟨fun _ => List.mem_cons_of_mem _, fun other member => ?_, finished_cons finished ?_⟩
    · rw [List.mem_singleton.mp member]
      exact List.mem_cons_self
    · intro entry here
      rw [missing] at here
      cases here

theorem path_lt_size {types : TypeLines} {path : List Nat} {label : Nat} (once : (label :: path).Nodup)
    (defined : ∀ outer ∈ label :: path, (types.get? outer).isSome) : path.length < types.size := by
  have inside : label :: path ⊆ types.keys := fun outer member => SortedMap.mem_keys_iff.mpr (defined outer member)
  have bound := (List.subperm_of_subset once inside).length_le
  have size : types.keys.length = types.size := by simp [SortedMap.keys, SortedMap.size]
  rw [List.length_cons, size] at bound
  omega

-- The steps suffice, since a path holds no type twice.
theorem visited_of_visit {types : TypeLines} {steps : Nat} {path done next : List Nat} {label : Nat}
    (once : (label :: path).Nodup) (defined : ∀ outer ∈ path, (types.get? outer).isSome)
    (enough : path.length + steps = types.size + 1) (finished : Finished types done)
    (ok : visit types steps path done label = .ok next) : Visited types done [label] next := by
  induction steps generalizing path done label next with
  | zero =>
      cases found : types.get? label with
      | none => exact visited_of_closed (.inr found) finished ok
      | some entry =>
          have bound := path_lt_size once (List.forall_mem_cons.mpr ⟨by rw [found]; rfl, defined⟩)
          omega
  | succ steps ih =>
      by_cases old : label ∈ done
      · exact visited_of_closed (.inl old) finished ok
      cases found : types.get? label with
      | none => exact visited_of_closed (.inr found) finished ok
      | some entry =>
          rw [visit_open steps path old found] at ok
          by_cases cyclic : entry.references.any (label :: path).contains = true
          · rw [if_pos cyclic] at ok
            cases ok
          rw [if_neg cyclic] at ok
          obtain ⟨final, folded, ok⟩ := Outcome.bind_ok ok
          cases ok
          have apart : ∀ reference ∈ entry.references.reverse, reference ∉ label :: path := by
            intro reference member inside
            refine cyclic (List.any_eq_true.mpr ⟨reference, List.mem_reverse.mp member, ?_⟩)
            exact List.contains_iff_mem.mpr inside
          have known : ∀ outer ∈ label :: path, (types.get? outer).isSome := by
            intro outer inside
            rcases List.mem_cons.mp inside with rfl | inside
            · rw [found]
              rfl
            · exact defined outer inside
          have below := visited_fold (fun done reference next member finished here =>
            ih (List.nodup_cons.mpr ⟨apart reference member, once⟩) known (by rw [List.length_cons]; omega)
              finished here) finished folded
          refine ⟨fun other member => List.mem_cons_of_mem _ (below.kept other member), fun other member => ?_,
            finished_cons below.finished ?_⟩
          · rw [List.mem_singleton.mp member]
            exact List.mem_cons_self
          · intro same here reference member
            rw [found] at here
            cases here
            exact below.reached reference (List.mem_reverse.mpr member)

theorem finished_of_check {types : TypeLines} (ok : checkAcyclic types = .ok ()) :
    ∃ done, Finished types done ∧ ∀ label ∈ types.keys, label ∈ done := by
  obtain ⟨final, folded, _⟩ := Outcome.bind_ok ok
  have start : Finished types [] := fun before label after entry split => by cases before <;> cases split
  have visited := visited_fold (fun done label next _ finished here =>
    visited_of_visit (by simp) (fun _ member => by cases member) (by simp) finished here) start folded
  exact ⟨final, visited.finished, visited.reached⟩

-- A type ranks by its last place among those that are done.
theorem ranked_of_check {types : TypeLines} (ok : checkAcyclic types = .ok ()) :
    ∃ rank, Ranked types rank := by
  obtain ⟨done, finished, reached⟩ := finished_of_check ok
  refine ⟨fun label => done.reverse.idxOf label, ?_⟩
  intro label entry found reference member
  have inside : label ∈ done.reverse :=
    List.mem_reverse.mpr (reached label (SortedMap.mem_keys_iff.mpr (by rw [found]; rfl)))
  obtain ⟨after, before, split, last⟩ := List.eq_append_cons_of_mem inside
  have turned : done = before.reverse ++ label :: after.reverse := by
    rw [← List.reverse_reverse done, split]
    simp
  have below : reference ∈ after :=
    List.mem_reverse.mp (finished _ _ _ _ turned found reference member)
  have first : (after ++ label :: before).idxOf label = after.length := by
    rw [List.idxOf_append_of_notMem last]
    simp
  have lower : (after ++ label :: before).idxOf reference < after.length := by
    rw [List.idxOf_append_of_mem below]
    exact List.idxOf_lt_length_iff.mpr below
  simp only [split, first]
  exact lower

/-! ### Types that pass lead to no type twice -/

section Cycles
open Relation (TransGen)

def RefersTo (types : TypeLines) (outer inner : Nat) : Prop :=
  ∃ entry, types.get? outer = some entry ∧ inner ∈ entry.references

theorem ranked_of_acyclic {types : TypeLines} (acyclic : ∀ label, ¬ TransGen (RefersTo types) label label) :
    ∃ rank, Ranked types rank := by
  classical
  let known := (types.entries.flatMap fun entry => entry.2.references).toFinset
  refine ⟨fun label => (known.filter (TransGen (RefersTo types) label)).card, ?_⟩
  intro label entry found reference member
  have inside : reference ∈ known :=
    List.mem_toFinset.mpr (List.mem_flatMap.mpr ⟨_, SortedMap.mem_entries_of_get? found, member⟩)
  convert Places.reached_lt inside ⟨entry, found, member⟩ (acyclic reference)

theorem check_acyclic_iff {types : TypeLines} :
    checkAcyclic types = .ok () ↔ ∀ label, ¬ TransGen (RefersTo types) label label := by
  constructor
  · intro passed
    obtain ⟨rank, ranked⟩ := ranked_of_check passed
    exact Places.not_reached_of_ranks fun ⟨_, found, member⟩ => ranked found _ member
  · intro acyclic
    obtain ⟨rank, ranked⟩ := ranked_of_acyclic acyclic
    exact check_acyclic_run rank ranked

end Cycles

/-! ### Chains -/

def MixedFree (types : TypeLines) : Prop :=
  ∀ {label entry kind element rest}, types.get? label = some entry →
    entry.record.signature = .link kind element (some rest) →
      (types.get? rest).map (·.record.signature.code) = some kind.code

theorem code_of_link (kind : LinkKind) : kind.code ≠ .wild := by
  cases kind <;> decide

def codeAt (types : TypeLines) (label : Nat) : TypeCode :=
  match types.get? label with
  | some other => other.record.signature.code
  | none => .wild

theorem check_chain_link {types : TypeLines} {entry : TypeLine} {kind : LinkKind} {element rest : Nat}
    (shape : entry.record.signature = .link kind element (some rest)) :
    checkChain types entry = if codeAt types rest = kind.code then .ok () else refuse entry.line .mixedChain := by
  unfold checkChain
  rw [shape]
  rfl

-- An undefined type is wild, and no link.
theorem code_at_iff {types : TypeLines} {label : Nat} {kind : LinkKind} :
    codeAt types label = kind.code ↔ (types.get? label).map (·.record.signature.code) = some kind.code := by
  unfold codeAt
  cases types.get? label with
  | none => simp [(code_of_link kind).symm]
  | some other => simp

theorem check_chain_iff {types : TypeLines} {entry : TypeLine} :
    checkChain types entry = .ok () ↔ ∀ {kind element rest},
      entry.record.signature = .link kind element (some rest) →
        (types.get? rest).map (·.record.signature.code) = some kind.code := by
  by_cases linked : ∃ kind element rest, entry.record.signature = .link kind element (some rest)
  · obtain ⟨kind, element, rest, shape⟩ := linked
    rw [check_chain_link shape]
    by_cases same : codeAt types rest = kind.code
    · rw [if_pos same]
      refine ⟨fun _ => ?_, fun _ => rfl⟩
      intro otherKind otherElement otherRest equal
      rw [shape] at equal
      cases equal
      exact code_at_iff.mp same
    · rw [if_neg same]
      refine ⟨fun refused => (by cases refused), fun all => ?_⟩
      exact absurd (code_at_iff.mpr (all shape)) same
  · have passed : checkChain types entry = .ok () := by
      unfold checkChain
      dsimp only
      split
      · rename_i kind element rest shape
        exact absurd ⟨kind, element, rest, shape⟩ linked
      · rfl
    refine ⟨fun _ => ?_, fun _ => passed⟩
    intro kind element rest shape
    exact absurd ⟨kind, element, rest, shape⟩ linked

theorem check_chains_iff {types : TypeLines} :
    (types.entries.forM fun (_, entry) => checkChain types entry) = .ok () ↔ MixedFree types := by
  have walked : ∀ entries : List (Nat × TypeLine),
      (entries.forM fun (_, entry) => checkChain types entry) = .ok () ↔
        ∀ entry ∈ entries, checkChain types entry.2 = .ok () := by
    intro entries
    induction entries with
    | nil => exact ⟨fun _ _ member => (by cases member), fun _ => rfl⟩
    | cons entry rest ih =>
        have step : ((entry :: rest).forM fun (_, entry) => checkChain types entry) =
            (checkChain types entry.2 >>= fun _ => rest.forM fun (_, entry) => checkChain types entry) := rfl
        rw [List.forall_mem_cons, ← ih, step]
        constructor
        · intro done
          obtain ⟨_, here, later⟩ := Outcome.bind_ok done
          exact ⟨here, later⟩
        · rintro ⟨here, later⟩
          rw [Outcome.bind_of_ok here]
          exact later
  rw [walked]
  constructor
  · intro all label entry kind element rest found shape
    exact check_chain_iff.mp (all _ (SortedMap.mem_entries_of_get? found)) shape
  · intro free entry member
    exact check_chain_iff.mpr fun shape => free (SortedMap.get?_of_mem_entries member) shape

end Dataflow.Module.Read
