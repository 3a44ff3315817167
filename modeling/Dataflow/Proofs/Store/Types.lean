import Dataflow.Proofs.Follows
import Dataflow.Proofs.Type.Requests
import Dataflow.Store
set_option autoImplicit false

-- The marks of live types: a type is marked exactly when it is in the list of labels.
namespace Dataflow.LiveTable
open Edit

structure Marks (types : LiveTable) (table : TypeTable) : Prop where
  same : types.table = table
  live : ∀ id, types.isLive id = table.isLive id
  size : types.live.size = table.arena.size
  once : table.order.Nodup

abbrev FollowsTypes {α : Type} (change : Edit LiveTable α) (model : Edit TypeTable α) : Prop :=
  Follows Marks Eq change model

section Table
variable {types : LiveTable} {table : TypeTable}

theorem Marks.listed (marks : Marks types table) {id : TypeId} (member : id ∈ table.order) : id < table.arena.size := by
  have live := marks.live id
  rw [TypeTable.isLive, List.contains_iff_mem.mpr member] at live
  rw [← marks.size]
  refine Nat.lt_of_not_le fun beyond => ?_
  rw [isLive, Array.getElem?_eq_none beyond] at live
  cases live

theorem Marks.find (marks : Marks types table) (id : TypeId) : types.find id = table.find id := by
  unfold LiveTable.find TypeTable.find TypeTable.get?
  rw [marks.live, marks.same]
  split <;> rfl

theorem marks_of_table (table : TypeTable) (once : table.order.Nodup)
    (all : ∀ id, id ∈ table.order ↔ id < table.arena.size) :
    Marks ⟨table, Array.replicate table.arena.size true⟩ table := by
  refine ⟨rfl, fun id => ?_, Array.size_replicate, once⟩
  rw [Bool.eq_iff_iff, TypeTable.isLive, List.contains_iff_mem, all, isLive, Array.getElem?_replicate]
  by_cases inside : id < table.arena.size <;> simp [inside]

theorem marks_modify (change : Pragmas → Pragmas) (id : TypeId) (marks : Marks types table) :
    Marks { types with table := types.table.modifyPragmas change id } (table.modifyPragmas change id) :=
  ⟨by rw [marks.same], marks.live, by rw [marks.size, TypeTable.modifyPragmas, Array.size_modify], marks.once⟩

theorem marks_intern (signature : Signature) (marks : Marks types table) :
    (types.intern signature).1 = (table.intern signature).1 ∧
      Marks (types.intern signature).2 (table.intern signature).2 := by
  unfold LiveTable.intern TypeTable.intern
  rw [marks.same]
  cases table.index.lookup signature with
  | some id => exact ⟨rfl, marks⟩
  | none =>
      refine ⟨rfl, rfl, fun id => ?_, ?_, ?_⟩
      · have before := marks.live id
        rw [Bool.eq_iff_iff, TypeTable.isLive, List.contains_iff_mem] at before ⊢
        rw [isLive, Array.getElem?_push, marks.size, List.mem_append, List.mem_singleton, ← before]
        by_cases new : id = table.arena.size <;> simp [new, isLive]
      · rw [Array.size_push, Array.size_push, marks.size]
      · refine List.nodup_append.mpr ⟨marks.once, List.pairwise_singleton _ _, fun id member other new => ?_⟩
        rw [List.mem_singleton.mp new]
        exact Nat.ne_of_lt (marks.listed member)

theorem marks_deleted (id : TypeId) (signature : Signature) (marks : Marks types table) :
    Marks ⟨TypeTable.deleted id signature table, types.live.setIfInBounds id false⟩
      (TypeTable.deleted id signature table) := by
  refine ⟨rfl, fun other => ?_, Array.size_setIfInBounds.trans marks.size, marks.once.erase id⟩
  have before := marks.live other
  rw [Bool.eq_iff_iff, TypeTable.isLive, List.contains_iff_mem] at before ⊢
  rw [TypeTable.deleted, isLive, Array.getElem?_setIfInBounds, marks.once.mem_erase_iff, ← before]
  by_cases same : id = other
  · subst same
    by_cases inside : id < types.live.size <;> simp [inside]
  · simp [same, Ne.symm same, isLive]

end Table

/-! ### Changes -/

theorem follows_query (id : TypeId) :
    FollowsTypes (query (TypeTable.Keeper.find · id)) (query (TypeTable.Keeper.find · id)) :=
  .query fun _ _ marks => .of_eq (marks.find id)

theorem follows_modify (change : Pragmas → Pragmas) (id : TypeId) :
    FollowsTypes (modify (TypeTable.Keeper.modifyPragmas change id))
      (modify (TypeTable.Keeper.modifyPragmas change id)) :=
  .modify fun _ _ marks => marks_modify change id marks

theorem follows_intern (signature : Signature) :
    FollowsTypes (TypeTable.internType signature) (TypeTable.internType signature) := by
  intro types table marks
  obtain ⟨same, kept⟩ := marks_intern signature marks
  exact .ok rfl rfl same kept

theorem follows_require (type : Option TypeId) :
    FollowsTypes (TypeTable.requireLive type) (TypeTable.requireLive type) := by
  cases type with
  | none => exact Follows.pure rfl
  | some id => exact (follows_query id).bind fun _ => Follows.pure rfl

theorem follows_add (code : TypeCode) (first second : Option TypeId) :
    FollowsTypes (TypeTable.add code first second) (TypeTable.add code first second) := by
  unfold TypeTable.add
  cases Signature.ofParameters code first second with
  | error fault => exact Follows.throw _
  | ok signature =>
      exact (follows_require first).bind fun _ => (follows_require second).bind fun _ => follows_intern signature

theorem follows_links (code : TypeCode) (elements : List (TypeId × Option String)) :
    FollowsTypes (TypeTable.addLinks code elements) (TypeTable.addLinks code elements) := by
  induction elements with
  | nil => exact Follows.pure rfl
  | cons element rest ih =>
      obtain ⟨type, name⟩ := element
      refine ih.seq fun tail => ?_
      refine (follows_add code (some type) tail).seq fun link => ?_
      split
      · exact (follows_modify _ link).bind fun _ => Follows.pure rfl
      · exact Follows.pure rfl

theorem follows_chain (types : List TypeId) (code : TypeCode) (names : Option (List String)) :
    FollowsTypes (TypeTable.addChain types code names) (TypeTable.addChain types code names) := by
  unfold TypeTable.addChain
  split
  · cases names with
    | none => exact follows_links code _
    | some names =>
        dsimp only
        split
        · exact follows_links code _
        · exact Follows.throw _
  · exact Follows.throw _

theorem follows_delete (id : TypeId) :
    FollowsTypes (TypeTable.Keeper.delete id) (TypeTable.Keeper.delete id) := by
  rintro ⟨table, live⟩ _ marks
  cases marks.same
  cases found : table.get? id with
  | none =>
      have refused := TypeTable.delete_refused found
      exact .error (bind_of_error (within_of_error refused)) refused marks
  | some definition =>
      have done := TypeTable.delete_run found
      have kept := marks_deleted id definition.signature marks
      exact .ok (bind_of_ok (within_of_ok done)) done rfl kept

theorem follows_set_name (id : TypeId) (name : Option String) :
    FollowsTypes (TypeTable.setName id name) (TypeTable.setName id name) :=
  (follows_query id).bind fun _ => follows_modify _ id

theorem follows_set_pragma (id : TypeId) (key : String) (value : PragmaValue) :
    FollowsTypes (TypeTable.setPragma id key value) (TypeTable.setPragma id key value) := by
  refine (follows_query id).seq fun definition => ?_
  refine (Follows.of_except _).seq fun pragmas => ?_
  exact follows_modify _ id

theorem follows_remove_pragma (id : TypeId) (key : String) :
    FollowsTypes (TypeTable.removePragma id key) (TypeTable.removePragma id key) := by
  refine (follows_query id).seq fun definition => ?_
  refine (Follows.of_except _).seq fun removed => ?_
  exact (follows_modify _ id).bind fun _ => Follows.pure rfl

theorem follows_literal_type (kind : LiteralKind) :
    FollowsTypes (Module.literalType kind) (Module.literalType kind) := by
  unfold Module.literalType
  cases kind.basic? with
  | some basic => exact follows_intern _
  | none =>
      refine (follows_intern _).seq fun character => ?_
      exact follows_add .array (some character) none

end Dataflow.LiveTable
