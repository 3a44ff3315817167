import Dataflow.Proofs.Places
import Dataflow.Proofs.Type.Requests
set_option autoImplicit false

-- The list of types ascends, so labels are places in it, and what is handed out for a signature is in
-- the list and has it. Types are only added at the end and taken out.
namespace Dataflow.TypeTable
open Edit

structure Orderly (table : TypeTable) : Prop where
  ascending : table.order.Pairwise (· < ·)
  inside : ∀ id ∈ table.order, id < table.arena.size
  keys : (table.index.map Prod.fst).Nodup
  leads : ∀ entry ∈ table.index, entry.2 ∈ table.order ∧ table.signature? entry.2 = some entry.1

-- What happens to the types while those of `gone` are deleted.
structure Course (table : TypeTable) (gone : List TypeId) (changed : TypeTable) : Prop where
  size : table.arena.size ≤ changed.arena.size
  order : changed.order = (table.order ++
    List.range' table.arena.size (changed.arena.size - table.arena.size)).filter (· ∉ gone)
  signature : ∀ {id signature}, table.signature? id = some signature → changed.signature? id = some signature
  past : ∀ id ∈ gone, id < changed.arena.size

/-! ### The index -/

theorem lookup_of_entry {index : List (Signature × TypeId)} (keys : (index.map Prod.fst).Nodup)
    {signature : Signature} {id : TypeId} (member : (signature, id) ∈ index) : index.lookup signature = some id := by
  induction index with
  | nil => cases member
  | cons entry rest ih =>
      obtain ⟨other, first⟩ := entry
      rw [List.map_cons, List.nodup_cons] at keys
      rw [lookup_cons]
      rcases List.mem_cons.mp member with same | later
      · cases same
        exact if_pos rfl
      · rw [if_neg, ih keys.2 later]
        rintro rfl
        exact keys.1 (List.mem_map.mpr ⟨_, later, rfl⟩)

theorem key_of_lookup_none {index : List (Signature × TypeId)} {signature : Signature}
    (missing : index.lookup signature = none) : signature ∉ index.map Prod.fst := by
  induction index with
  | nil => exact List.not_mem_nil
  | cons entry rest ih =>
      obtain ⟨other, first⟩ := entry
      rw [lookup_cons] at missing
      split at missing
      · cases missing
      · rename_i different
        exact List.not_mem_cons_of_ne_of_not_mem different (ih missing)

namespace Orderly
variable {table : TypeTable}

theorem once (orderly : table.Orderly) : table.order.Nodup :=
  orderly.ascending.imp fun less => Nat.ne_of_lt less

theorem interned (orderly : table.Orderly) {signature : Signature} (missing : table.index.lookup signature = none) :
    (interned signature table).Orderly := by
  have size : (TypeTable.interned signature table).arena.size = table.arena.size + 1 := by simp [TypeTable.interned]
  refine ⟨?_, ?_, ?_, ?_⟩
  · refine List.pairwise_append.mpr ⟨orderly.ascending, List.pairwise_singleton _ _, fun id member last same => ?_⟩
    rw [List.mem_singleton.mp same]
    exact orderly.inside id member
  · intro id member
    rw [size]
    rcases mem_order_interned.mp member with old | rfl
    · exact Nat.lt_succ_of_lt (orderly.inside id old)
    · exact Nat.lt_succ_self _
  · exact List.nodup_cons.mpr ⟨key_of_lookup_none missing, orderly.keys⟩
  · intro entry member
    rw [signature_interned]
    rcases List.mem_cons.mp member with rfl | old
    · exact ⟨mem_order_interned.mpr (.inr rfl), if_pos rfl⟩
    · obtain ⟨live, found⟩ := orderly.leads entry old
      rw [if_neg (Nat.ne_of_lt (orderly.inside _ live))]
      exact ⟨mem_order_interned.mpr (.inl live), found⟩

theorem modify (orderly : table.Orderly) (change : Pragmas → Pragmas) (id : TypeId) :
    (modifyPragmas change id table).Orderly := by
  have size : (modifyPragmas change id table).arena.size = table.arena.size := by simp [modifyPragmas]
  refine ⟨orderly.ascending, ?_, orderly.keys, ?_⟩
  · rw [size]
    exact orderly.inside
  · simp only [signature_modify]
    exact orderly.leads

-- An entry for the type that goes is the only one for its signature, so it goes along.
theorem deleted (orderly : table.Orderly) {id : TypeId} {signature : Signature}
    (found : table.signature? id = some signature) : (deleted id signature table).Orderly := by
  have kept : ∀ {query}, query ∈ table.order.erase id → query ∈ table.order := fun inside => List.mem_of_mem_erase inside
  have entries : ∀ entry ∈ (TypeTable.deleted id signature table).index, entry ∈ table.index ∧ entry.2 ≠ id := by
    intro entry member
    change entry ∈ if table.index.lookup signature = some id then
      table.index.filter (·.1 ≠ signature) else table.index at member
    split at member
    · obtain ⟨old, different⟩ := List.mem_filter.mp member
      refine ⟨old, fun same => of_decide_eq_true different ?_⟩
      have own := (orderly.leads entry old).2
      rw [same, found] at own
      exact (Option.some.inj own).symm
    · rename_i other
      refine ⟨member, fun same => other ?_⟩
      have own := (orderly.leads entry member).2
      rw [same, found] at own
      cases own
      exact lookup_of_entry orderly.keys (by rw [← same]; exact member)
  refine ⟨orderly.ascending.sublist List.erase_sublist, fun query member => orderly.inside query (kept member), ?_, ?_⟩
  · change ((if table.index.lookup signature = some id then
      table.index.filter (·.1 ≠ signature) else table.index).map Prod.fst).Nodup
    split
    · exact orderly.keys.sublist (List.filter_sublist.map _)
    · exact orderly.keys
  · intro entry member
    obtain ⟨old, different⟩ := entries entry member
    obtain ⟨live, own⟩ := orderly.leads entry old
    exact ⟨(List.Nodup.mem_erase_iff orderly.once).mpr ⟨different, live⟩, own⟩

end Orderly

theorem mem_fold_index {entries index : List (Signature × TypeId)} {entry : Signature × TypeId}
    (member : entry ∈ entries.foldl (fun index entry =>
      if (index.lookup entry.1).isSome then index else entry :: index) index) : entry ∈ index ∨ entry ∈ entries := by
  induction entries generalizing index with
  | nil => exact .inl member
  | cons first rest ih =>
      rcases ih member with old | later
      · dsimp only at old
        split at old
        · exact .inl old
        · rcases List.mem_cons.mp old with rfl | old
          · exact .inr List.mem_cons_self
          · exact .inl old
      · exact .inr (List.mem_cons_of_mem _ later)

theorem fold_index_keys {entries index : List (Signature × TypeId)} (keys : (index.map Prod.fst).Nodup) :
    ((entries.foldl (fun index entry =>
      if (index.lookup entry.1).isSome then index else entry :: index) index).map Prod.fst).Nodup := by
  induction entries generalizing index with
  | nil => exact keys
  | cons first rest ih =>
      refine ih ?_
      dsimp only
      split
      · exact keys
      · rename_i missing
        exact List.nodup_cons.mpr ⟨key_of_lookup_none (Option.not_isSome_iff_eq_none.mp missing), keys⟩

theorem orderly_of_list (definitions : List TypeDef) : (ofList definitions).Orderly := by
  refine ⟨List.pairwise_lt_range, ?_, fold_index_keys List.nodup_nil, ?_⟩
  · intro id member
    have bound := List.mem_range.mp member
    simpa [ofList] using bound
  · intro entry member
    rcases mem_fold_index member with none | listed
    · cases none
    · obtain ⟨position, inside, rfl⟩ := List.getElem_of_mem listed
      simp only [List.length_zip, List.length_map, List.length_range, Nat.min_self] at inside
      simp [ofList, signature?, inside]

/-! ### Courses -/

namespace Course
variable {table middle changed : TypeTable} {gone more : List TypeId}

theorem refl (table : TypeTable) : Course table [] table :=
  ⟨Nat.le_refl _, by simp, id, fun _ member => by cases member⟩

theorem trans (here : Course table gone middle) (later : Course middle more changed) :
    Course table (gone ++ more) changed := by
  have grown := here.size
  have grownToo := later.size
  refine ⟨Nat.le_trans grown grownToo, ?_, fun found => later.signature (here.signature found), ?_⟩
  · -- No type that is already gone is among those that come later.
    have fresh : (List.range' middle.arena.size (changed.arena.size - middle.arena.size)).filter (· ∉ gone) =
        List.range' middle.arena.size (changed.arena.size - middle.arena.size) := by
      refine List.filter_eq_self.mpr fun id member => decide_eq_true fun inside => ?_
      have low := (List.mem_range'_1.mp member).1
      exact Nat.lt_irrefl _ (Nat.lt_of_lt_of_le (here.past id inside) low)
    have split : List.range' table.arena.size (changed.arena.size - table.arena.size) =
        List.range' table.arena.size (middle.arena.size - table.arena.size) ++
          List.range' middle.arena.size (changed.arena.size - middle.arena.size) := by
      rw [show middle.arena.size = table.arena.size + (middle.arena.size - table.arena.size) by omega,
        Nat.add_sub_cancel_left, List.range'_append_1]
      congr 1
      omega
    rw [later.order, here.order, ← fresh, ← List.filter_append, List.filter_filter, split, List.append_assoc]
    refine List.filter_congr fun id _ => ?_
    simp only [List.mem_append, not_or, Bool.decide_and, Bool.and_comm]
  · intro id member
    rcases List.mem_append.mp member with old | new
    · exact Nat.lt_of_lt_of_le (here.past id old) grownToo
    · exact later.past id new

theorem of_addition (addition : Addition table changed) : Course table [] changed := by
  cases addition with
  | @type signature live missing =>
      have size : (interned signature table).arena.size = table.arena.size + 1 := by simp [interned]
      refine ⟨by omega, ?_, ?_, fun _ member => by cases member⟩
      · simp [interned]
      · intro id other found
        rw [signature_interned, if_neg (Nat.ne_of_lt (signature_lt_size found))]
        exact found
  | pragmas sized =>
      refine ⟨?_, ?_, ?_, fun _ member => by cases member⟩
      · simp [modifyPragmas]
      · simp [modifyPragmas]
      · intro id other found
        rw [signature_modify]
        exact found

theorem of_added (added : Added table changed) : Course table [] changed := by
  induction added with
  | refl => exact .refl table
  | tail _ addition ih => exact ih.trans (of_addition addition)

theorem of_deleted (orderly : table.Orderly) {id : TypeId} (signature : Signature) (member : id ∈ table.order) :
    Course table [id] (deleted id signature table) := by
  refine ⟨Nat.le_refl _, ?_, fun found => found, ?_⟩
  · change table.order.erase id = _
    rw [List.Nodup.erase_eq_filter orderly.once]
    simp only [deleted, Nat.sub_self, List.range'_zero, List.append_nil, List.mem_singleton]
    refine List.filter_congr fun other _ => ?_
    by_cases same : other = id <;> simp [same]
  · intro other only
    rw [List.mem_singleton.mp only]
    exact orderly.inside id member

end Course

theorem orderly_added {table changed : TypeTable} (added : Added table changed) (orderly : table.Orderly) :
    changed.Orderly := by
  induction added with
  | refl => exact orderly
  | tail _ addition ih =>
      cases addition with
      | type live missing => exact ih.interned missing
      | pragmas sized => exact ih.modify _ _

/-! ### Labels -/

theorem label_eq_none_iff {table : TypeTable} {id : TypeId} : table.label? id = none ↔ id ∉ table.order := by
  unfold label?
  rw [Option.map_eq_none_iff, List.idxOf?_eq_none_iff]

end Dataflow.TypeTable
