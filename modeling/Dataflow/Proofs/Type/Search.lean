import Mathlib.Algebra.Order.BigOperators.Group.List
import Mathlib.Algebra.Order.Group.Nat
import Dataflow.Proofs.Module.Labels
import Dataflow.Proofs.Module.Strict
set_option autoImplicit false

-- The search with a stack of its own does what the visits do: it ends, it refuses the same types with the same
-- line, and no label comes up while it is on the way to itself.
namespace Dataflow.Module.Read.Strict
open Record (Word)

variable {types : TypeLines}

/-! ### What is left to do -/

-- Turns for all labels that were not entered.
def work (types : TypeLines) (seen : List Nat) : Nat :=
  (((typeLabels types).filter fun label => !seen.contains label).map (turnsOf types)).sum

theorem work_congr {first second : List Nat} (same : ∀ label, label ∈ first ↔ label ∈ second) :
    work types first = work types second := by
  have contained : ∀ label, first.contains label = second.contains label := by
    intro label
    rw [Bool.eq_iff_iff, List.contains_iff_mem, List.contains_iff_mem]
    exact same label
  unfold work
  simp only [contained]

theorem work_cons {label : Nat} (known : label ∈ typeLabels types) (seen : List Nat) (new : label ∉ seen) :
    turnsOf types label + work types (label :: seen) = work types seen := by
  have once : (typeLabels types).Nodup := (type_labels_ascending types).imp Nat.ne_of_lt
  have unseen : label ∈ (typeLabels types).filter fun other => !seen.contains other :=
    List.mem_filter.mpr ⟨known, by simpa using new⟩
  have erased : ((typeLabels types).filter fun other => !seen.contains other).erase label =
      (typeLabels types).filter fun other => !(label :: seen).contains other := by
    rw [(once.filter _).erase_eq_filter, List.filter_filter]
    refine List.filter_congr fun other _ => ?_
    rw [List.contains_cons, Bool.not_or]
    rfl
  unfold work
  rw [← erased]
  exact List.sum_map_erase (turnsOf types) unseen

theorem work_le (seen : List Nat) : 1 + work types seen ≤ budget types := by
  have all : budget types = 1 + ((typeLabels types).map (turnsOf types)).sum := by
    unfold budget
    induction typeLabels types with
    | nil => rfl
    | cons label rest ih =>
        rw [List.foldr_cons, ih, List.map_cons, List.sum_cons]
        omega
  rw [all]
  exact Nat.add_le_add_left ((List.filter_sublist.map _).sum_le_sum fun _ _ => Nat.zero_le _) 1

theorem turns_of_undefined {label : Nat} (missing : types.get? label = none) : turnsOf types label = 1 := by
  unfold turnsOf
  rw [missing]
  rfl

theorem turns_of_defined {label : Nat} {entry : TypeLine} (found : types.get? label = some entry) :
    turnsOf types label = 1 + entry.references.length := by
  unfold turnsOf
  rw [found]
  rfl

/-! ### Marks -/

def Marked (marks : Marks) (path done : List Nat) : Prop :=
  ∀ label, marks.get? label = if label ∈ path then some .entered else if label ∈ done then some .finished else none

theorem marked_enter {marks : Marks} {path done : List Nat} (marked : Marked marks path done) (label : Nat) :
    Marked (marks.insert label .entered) (label :: path) done := by
  intro other
  rw [SortedMap.get?_insert, marked]
  by_cases same : other = label <;> simp [same]

theorem marked_finish {marks : Marks} {path done : List Nat} {label : Nat} (apart : label ∉ path)
    (marked : Marked marks (label :: path) done) : Marked (marks.insert label .finished) path (label :: done) := by
  intro other
  rw [SortedMap.get?_insert, marked]
  by_cases same : other = label
  · simp [same, apart]
  · simp [same]

theorem push_references {marks : Marks} {path done : List Nat} (marked : Marked marks path done) (line : Word)
    (references : List Nat) (stack : Stack) :
    references.foldlM (pushReference marks line) stack =
      if references.any path.contains then parsed (refuse line .cyclicType)
      else .ok (references.reverse.map (·, false) ++ stack) := by
  have entered : ∀ label, marks.get? label = some .entered ↔ label ∈ path := by
    intro label
    rw [marked]
    by_cases inside : label ∈ path
    · simp [inside]
    · by_cases old : label ∈ done <;> simp [inside, old]
  induction references generalizing stack with
  | nil => rfl
  | cons label rest ih =>
      rw [List.foldlM_cons, List.any_cons]
      by_cases inside : label ∈ path
      · have pushed : pushReference marks line stack label = parsed (refuse line .cyclicType) :=
          if_pos ((entered label).mpr inside)
        rw [pushed, List.contains_iff_mem.mpr inside]
        rfl
      · have pushed : pushReference marks line stack label = .ok ((label, false) :: stack) :=
          if_neg (mt (entered label).mp inside)
        have other : path.contains label = false := by simpa using inside
        rw [Outcome.bind_of_ok pushed, ih, other, Bool.false_or, List.reverse_cons, List.map_append, List.append_assoc]
        rfl

/-! ### Turns that follow a visit -/

-- What the turns make of some labels on top of the stack, where a visit to them has this outcome.
inductive Follows (types : TypeLines) (path done : List Nat) (count steps : Nat) (stack : Stack)
    (run : Checked Marks) : Reading (List Nat) → Prop
  | ok {next : List Nat} {marks : Marks} {left : Nat} (marked : Marked marks path next)
      (spent : steps + work types (path ++ next) ≤ left + (count + work types (path ++ done)))
      (rest : run = turns types left marks stack) : Follows types path done count steps stack run (.ok next)
  | error {error : ReadError} (failed : run = .error (.parse error)) :
      Follows types path done count steps stack run (.error error)

section Turns
variable {path done : List Nat} {label steps : Nat} {marks : Marks} {stack : Stack}

theorem turns_nil (steps : Nat) (marks : Marks) : turns types steps marks [] = .ok marks := by
  cases steps <;> rfl

theorem turns_cons {top : Nat × Bool} {next : Marks × Stack} (done : turn types marks stack top = .ok next) :
    turns types (steps + 1) marks (top :: stack) = turns types steps next.1 next.2 := by
  change (turn types marks stack top >>= fun next => turns types steps next.1 next.2) = _
  exact Outcome.bind_of_ok done

theorem follows_closed {depth : Nat} (marked : Marked marks path done) (apart : label ∉ path)
    (known : label ∈ typeLabels types) (shut : label ∈ done ∨ types.get? label = none)
    (enough : 1 + work types (path ++ done) ≤ steps) :
    Follows types path done 1 steps stack (turns types steps marks ((label, false) :: stack))
      (visit types depth path done label) := by
  rw [visit_closed depth path shut]
  obtain ⟨steps, rfl⟩ : ∃ less, steps = less + 1 := ⟨steps - 1, by omega⟩
  have mark := marked label
  rw [if_neg apart] at mark
  by_cases old : label ∈ done
  · rw [if_pos old] at mark
    have here : turn types marks stack (label, false) = .ok (marks, stack) := by
      unfold turn
      dsimp only
      rw [mark]
    rw [if_pos old, turns_cons here]
    exact .ok marked (by omega) rfl
  · rw [if_neg old] at mark
    have missing := shut.resolve_left old
    have here : turn types marks stack (label, false) =
        .ok (marks.insert label .entered, (label, true) :: stack) := by
      unfold turn
      dsimp only
      rw [mark, missing]
    have counted := work_cons known (path ++ done) (by simp [apart, old])
    rw [turns_of_undefined missing] at counted
    obtain ⟨steps, rfl⟩ : ∃ less, steps = less + 1 := ⟨steps - 1, by omega⟩
    have same : work types (path ++ label :: done) = work types (label :: (path ++ done)) :=
      work_congr fun other => by simp only [List.mem_append, List.mem_cons]; tauto
    rw [if_neg old, turns_cons here, turns_cons (show turn types _ stack (label, true) = _ from rfl)]
    exact .ok (marked_finish apart (marked_enter marked label)) (by omega) rfl

theorem follows_fold {labels : List Nat} {look : List Nat → Nat → Reading (List Nat)}
    (each : ∀ {done label marks steps stack}, label ∈ labels → Marked marks path done →
      1 + work types (path ++ done) ≤ steps →
        Follows types path done 1 steps stack (turns types steps marks ((label, false) :: stack)) (look done label))
    (marked : Marked marks path done) (enough : labels.length + work types (path ++ done) ≤ steps) :
    Follows types path done labels.length steps stack (turns types steps marks (labels.map (·, false) ++ stack))
      (labels.foldlM look done) := by
  induction labels generalizing done marks steps with
  | nil => exact .ok marked (by simp) rfl
  | cons label rest ih =>
      rw [List.length_cons] at enough
      have first : 1 + work types (path ++ done) ≤ steps := by omega
      have here : Follows types path done 1 steps (rest.map (·, false) ++ stack) _ (look done label) :=
        each List.mem_cons_self marked first
      rw [List.foldlM_cons, List.map_cons, List.cons_append, List.length_cons]
      cases visited : look done label with
      | error error =>
          rw [visited] at here
          cases here with
          | error failed => exact .error failed
      | ok next =>
          rw [visited] at here
          cases here with
          | @ok _ _ left markedToo spent ended =>
              have enoughToo : rest.length + work types (path ++ next) ≤ left := by omega
              have later := ih (fun member => each (List.mem_cons_of_mem _ member)) markedToo enoughToo
              rw [← ended] at later
              change Follows _ _ _ _ _ _ _ (rest.foldlM look next)
              cases final : rest.foldlM look next with
              | error error =>
                  rw [final] at later
                  cases later with
                  | error failed => exact .error failed
              | ok last =>
                  rw [final] at later
                  cases later with
                  | ok markedLast spentToo ended => exact .ok markedLast (by omega) ended

-- What is counted for the label pays for looking at its references.
theorem follows_open {depth : Nat} {entry : TypeLine} (marked : Marked marks path done) (apart : label ∉ path)
    (new : label ∉ done) (found : types.get? label = some entry)
    (below : ∀ {reference done marks steps stack}, reference ∈ entry.references → reference ∉ label :: path →
      Marked marks (label :: path) done → 1 + work types (label :: path ++ done) ≤ steps →
        Follows types (label :: path) done 1 steps stack (turns types steps marks ((reference, false) :: stack))
          (visit types depth (label :: path) done reference))
    (enough : 1 + work types (path ++ done) ≤ steps) :
    Follows types path done 1 steps stack (turns types steps marks ((label, false) :: stack))
      (visit types (depth + 1) path done label) := by
  have known : label ∈ typeLabels types := mem_type_labels.mpr ⟨label, entry, found, .inl rfl⟩
  have counted := work_cons known (path ++ done) (by simp [apart, new])
  rw [turns_of_defined found, ← List.cons_append] at counted
  obtain ⟨steps, rfl⟩ : ∃ less, steps = less + 1 := ⟨steps - 1, by omega⟩
  have mark := marked label
  rw [if_neg apart, if_neg new] at mark
  have entered := marked_enter marked label
  have here : turn types marks stack (label, false) =
      (entry.references.foldlM (pushReference (marks.insert label .entered) entry.line)
        ((label, true) :: stack)).map (marks.insert label .entered, ·) := by
    unfold turn
    dsimp only
    rw [mark, found]
  rw [push_references entered] at here
  rw [visit_open depth path new found]
  by_cases cyclic : entry.references.any (label :: path).contains = true
  · rw [if_pos cyclic] at here ⊢
    refine .error ?_
    change (turn types marks stack (label, false) >>= fun next => turns types steps next.1 next.2) = _
    rw [here]
    rfl
  rw [if_neg cyclic] at here ⊢
  rw [turns_cons here]
  have apartToo : ∀ reference ∈ entry.references, reference ∉ label :: path := fun reference member inside =>
    cyclic (List.any_eq_true.mpr ⟨reference, member, List.contains_iff_mem.mpr inside⟩)
  have left : entry.references.reverse.length + work types (label :: path ++ done) ≤ steps := by
    rw [List.length_reverse]
    omega
  have walked : Follows types (label :: path) done _ steps ((label, true) :: stack) _
      (entry.references.reverse.foldlM (visit types depth (label :: path)) done) :=
    follows_fold (fun member => below (List.mem_reverse.mp member) (apartToo _ (List.mem_reverse.mp member)))
      entered left
  rw [List.length_reverse] at walked
  cases folded : entry.references.reverse.foldlM (visit types depth (label :: path)) done with
  | error error =>
      rw [folded] at walked
      cases walked with
      | error failed => exact .error failed
  | ok next =>
      rw [folded] at walked
      cases walked with
      | @ok _ _ left markedToo spent rest =>
          obtain ⟨left, rfl⟩ : ∃ less, left = less + 1 := ⟨left - 1, by omega⟩
          rw [turns_cons (show turn types _ stack (label, true) = _ from rfl)] at rest
          have same : work types (path ++ label :: next) = work types (label :: path ++ next) :=
            work_congr fun other => by simp only [List.mem_append, List.mem_cons]; tauto
          exact .ok (marked_finish apart markedToo) (by rw [same]; omega) rest

-- A path holds no label twice, so it does not run out of steps either.
theorem follows_visit {depth : Nat} (marked : Marked marks path done) (once : (label :: path).Nodup)
    (defined : ∀ outer ∈ path, (types.get? outer).isSome) (deep : path.length + depth = types.size + 1)
    (known : label ∈ typeLabels types) (enough : 1 + work types (path ++ done) ≤ steps) :
    Follows types path done 1 steps stack (turns types steps marks ((label, false) :: stack))
      (visit types depth path done label) := by
  induction depth generalizing path done label steps marks stack with
  | zero =>
      cases found : types.get? label with
      | none => exact follows_closed marked (List.nodup_cons.mp once).1 known (.inr found) enough
      | some entry =>
          have bound := path_lt_size once (List.forall_mem_cons.mpr ⟨by rw [found]; rfl, defined⟩)
          omega
  | succ depth ih =>
      have apart := (List.nodup_cons.mp once).1
      by_cases old : label ∈ done
      · exact follows_closed marked apart known (.inl old) enough
      cases found : types.get? label with
      | none => exact follows_closed marked apart known (.inr found) enough
      | some entry =>
          refine follows_open marked apart old found (fun member apartToo markedToo enoughToo => ?_) enough
          refine ih markedToo (List.nodup_cons.mpr ⟨apartToo, once⟩)
            (List.forall_mem_cons.mpr ⟨by rw [found]; rfl, defined⟩) ?_ ?_ enoughToo
          · rw [List.length_cons]
            omega
          · exact mem_type_labels.mpr ⟨label, entry, found, .inr member⟩

end Turns

/-! ### The whole search -/

theorem follows_check {labels : List Nat} (inside : ∀ label ∈ labels, label ∈ typeLabels types) {done : List Nat}
    {marks : Marks} (marked : Marked marks [] done) :
    ((labels.foldlM (fun marks label => turns types (budget types) marks [(label, false)]) marks).map fun _ => ()) =
      parsed ((labels.foldlM (visit types (types.size + 1) []) done).map fun _ => ()) := by
  induction labels generalizing done marks with
  | nil => rfl
  | cons label rest ih =>
      rw [List.foldlM_cons, List.foldlM_cons]
      have here : Follows types [] done 1 (budget types) [] _ (visit types (types.size + 1) [] done label) :=
        follows_visit marked (List.nodup_singleton label) (fun _ member => by cases member) (by simp)
          (inside label List.mem_cons_self) (work_le _)
      cases visited : visit types (types.size + 1) [] done label with
      | error error =>
          rw [visited] at here
          cases here with
          | error failed =>
              rw [failed]
              rfl
      | ok next =>
          rw [visited] at here
          cases here with
          | ok markedToo _ ended =>
              rw [Outcome.bind_of_ok (ended.trans (turns_nil _ _))]
              exact ih (fun other member => inside other (List.mem_cons_of_mem _ member)) markedToo

theorem search_eq (types : TypeLines) : search types = parsed (checkAcyclic types) := by
  have known : ∀ label ∈ types.keys, label ∈ typeLabels types := by
    intro label member
    obtain ⟨entry, found⟩ := Option.isSome_iff_exists.mp (SortedMap.mem_keys_iff.mp member)
    exact mem_type_labels.mpr ⟨label, entry, found, .inl rfl⟩
  have start : Marked .empty [] [] := fun label => rfl
  have same := follows_check known start
  unfold search checkAcyclic
  generalize types.keys.foldlM (visit types (types.size + 1) []) [] = first at same ⊢
  generalize types.keys.foldlM (fun marks label => turns types (budget types) marks [(label, false)])
    SortedMap.empty = second at same ⊢
  cases first <;> cases second <;> exact same

end Dataflow.Module.Read.Strict
