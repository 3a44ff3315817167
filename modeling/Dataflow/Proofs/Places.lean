import Mathlib.Data.Finset.Card
import Mathlib.Data.List.Nodup
import Mathlib.Logic.Relation
set_option autoImplicit false

-- Places in lists without repetition, as labels and as new names, and ranks of numbers that lead to others.
namespace Dataflow.Places

variable {α : Type} [DecidableEq α]

theorem idx_of_iff {values : List α} {value : α} {place : Nat} :
    values.idxOf? value = some place ↔ value ∈ values ∧ place = values.idxOf value := by
  by_cases member : value ∈ values
  · rw [List.idxOf_eq_getD_idxOf?]
    obtain ⟨found, here⟩ := Option.isSome_iff_exists.mp (List.isSome_idxOf?.mpr member)
    simp [here, member, eq_comm]
  · have missing : values.idxOf? value = none := List.idxOf?_eq_none_iff.mpr member
    simp [missing, member]

theorem idx_of_at {values : List α} (once : values.Nodup) {place : Nat} {value : α}
    (found : values[place]? = some value) : values.idxOf value = place := by
  obtain ⟨bound, rfl⟩ := List.getElem?_eq_some_iff.mp found
  exact once.idxOf_getElem place bound

-- The places of what comes first are below the place of what comes after it.
theorem mem_of_idx_lt {before after : List α} {value other : α} (once : (before ++ value :: after).Nodup)
    (below : (before ++ value :: after).idxOf other < (before ++ value :: after).idxOf value) : other ∈ before := by
  have place : (before ++ value :: after).idxOf value = before.length := idx_of_at once (by simp)
  rw [place, List.idxOf_append] at below
  split at below
  · assumption
  · omega

theorem idx_of_range {place count : Nat} (bound : place < count) :
    (List.range' 1 count).idxOf (place + 1) = place := by
  refine idx_of_at List.nodup_range' ?_
  rw [List.getElem?_range' bound]
  congr 1
  omega

theorem idx_of_map {β : Type} [DecidableEq β] {rename : α → β} {values : List α} {value : α}
    (apart : ∀ other ∈ values, rename other = rename value → other = value) :
    (values.map rename).idxOf (rename value) = values.idxOf value := by
  induction values with
  | nil => rfl
  | cons first rest ih =>
      have later := ih fun other member => apart other (List.mem_cons_of_mem first member)
      by_cases same : first = value
      · rw [same, List.map_cons, List.idxOf_cons_self, List.idxOf_cons_self]
      · have different : rename first ≠ rename value := fun clash => same (apart first List.mem_cons_self clash)
        rw [List.map_cons, List.idxOf_cons_ne _ different, List.idxOf_cons_ne _ same, later]

theorem nodup_erase_dups (values : List α) : values.eraseDups.Nodup := by
  induction length : values.length using Nat.strongRecOn generalizing values with
  | ind count ih =>
      cases values with
      | nil => simp
      | cons value rest =>
          rw [List.eraseDups_cons]
          have shorter : (rest.filter fun other => !other == value).length < count := by
            have := List.length_filter_le (fun other => !other == value) rest
            rw [List.length_cons] at length
            omega
          refine List.nodup_cons.mpr ⟨fun member => ?_, ih _ shorter _ rfl⟩
          have kept := (List.mem_filter.mp (List.mem_eraseDups.mp member)).2
          simp at kept

theorem erase_dups_map {β : Type} [DecidableEq β] {rename : α → β} (values : List α)
    (apart : ∀ first ∈ values, ∀ second ∈ values, rename first = rename second → first = second) :
    (values.map rename).eraseDups = values.eraseDups.map rename := by
  induction length : values.length using Nat.strongRecOn generalizing values with
  | ind count ih =>
      cases values with
      | nil => simp
      | cons value rest =>
          rw [List.map_cons, List.eraseDups_cons, List.eraseDups_cons, List.map_cons]
          have shorter : (rest.filter fun other => !other == value).length < count := by
            have := List.length_filter_le (fun other => !other == value) rest
            rw [List.length_cons] at length
            omega
          have same : (rest.map rename).filter (fun other => !other == rename value) =
              (rest.filter fun other => !other == value).map rename := by
            rw [List.filter_map]
            refine congrArg (List.map rename) (List.filter_congr fun other member => ?_)
            by_cases equal : other = value
            · simp [equal]
            · have different : rename other ≠ rename value := fun clash =>
                equal (apart other (List.mem_cons_of_mem _ member) value List.mem_cons_self clash)
              simp [equal, different]
          rw [same, ih _ shorter _ (fun first inFirst second inSecond => apart first
            (List.mem_cons_of_mem _ (List.mem_filter.mp inFirst).1) second
            (List.mem_cons_of_mem _ (List.mem_filter.mp inSecond).1)) rfl]

-- Ascending rows with the same members are the same row.
theorem eq_of_ascending {first second : List Nat} (ordered : first.Pairwise (· < ·))
    (orderedToo : second.Pairwise (· < ·)) (same : ∀ number, number ∈ first ↔ number ∈ second) :
    first = second := by
  refine List.Perm.eq_of_pairwise ?_ ordered orderedToo ?_
  · intro a b _ _ less greater
    exact absurd (Nat.lt_trans less greater) (Nat.lt_irrefl _)
  · exact (List.perm_ext_iff_of_nodup (ordered.imp Nat.ne_of_lt) (orderedToo.imp Nat.ne_of_lt)).mpr same

/-! ### Ranks -/

section Ranks
open Relation (TransGen)

open Classical in
-- What a number leads to leads to fewer numbers, unless it leads back to itself.
theorem reached_lt {leads : Nat → Nat → Prop} {known : Finset Nat} {outer inner : Nat} (inside : inner ∈ known)
    (here : leads outer inner) (acyclic : ¬ TransGen leads inner inner) :
    (known.filter (TransGen leads inner)).card < (known.filter (TransGen leads outer)).card := by
  refine Finset.card_lt_card (Finset.ssubset_iff_of_subset ?_ |>.mpr ⟨inner, ?_, ?_⟩)
  · intro number member
    obtain ⟨among, below⟩ := Finset.mem_filter.mp member
    exact Finset.mem_filter.mpr ⟨among, .head here below⟩
  · exact Finset.mem_filter.mpr ⟨inside, .single here⟩
  · intro member
    exact acyclic (Finset.mem_filter.mp member).2

theorem not_reached_of_ranks {leads : Nat → Nat → Prop} {rank : Nat → Nat}
    (downwards : ∀ {outer inner}, leads outer inner → rank inner < rank outer) (number : Nat) :
    ¬ TransGen leads number number := by
  have below : ∀ {outer inner}, TransGen leads outer inner → rank inner < rank outer := by
    intro outer inner reached
    induction reached with
    | single here => exact downwards here
    | tail _ here ih => exact Nat.lt_trans (downwards here) ih
  exact fun cycle => Nat.lt_irrefl _ (below cycle)

end Ranks

end Dataflow.Places
