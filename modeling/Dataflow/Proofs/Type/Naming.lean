import Dataflow.Proofs.Type.Chains
import Dataflow.Proofs.Type.Grounded
set_option autoImplicit false

-- A chain with names is the chain without, whose links are named afterwards: the links are interned by their
-- parts alone, so a name does not come between. No link comes twice, and each keeps the name it is given.
namespace Dataflow.TypeTable

def withNames (names : List (TypeId × String)) (table : TypeTable) : TypeTable :=
  names.foldr (fun entry table => modifyPragmas (·.setName (some entry.2)) entry.1 table) table

def pragma? (table : TypeTable) (id : TypeId) (key : String) : Option PragmaValue :=
  table.arena[id]?.bind (·.pragmas.get? key)

section Named
variable {names : List (TypeId × String)} {table : TypeTable}

@[simp] theorem with_names_nil (table : TypeTable) : withNames [] table = table := rfl

@[simp] theorem with_names_cons (id : TypeId) (name : String) (names : List (TypeId × String)) (table : TypeTable) :
    withNames ((id, name) :: names) table = modifyPragmas (·.setName (some name)) id (withNames names table) := rfl

@[simp] theorem order_with_names : (withNames names table).order = table.order := by
  induction names with
  | nil => rfl
  | cons _ _ ih => exact ih

@[simp] theorem index_with_names : (withNames names table).index = table.index := by
  induction names with
  | nil => rfl
  | cons _ _ ih => exact ih

@[simp] theorem size_with_names : (withNames names table).arena.size = table.arena.size := by
  induction names with
  | nil => rfl
  | cons _ _ ih => simpa [withNames, modifyPragmas] using ih

@[simp] theorem signature_with_names (id : TypeId) : (withNames names table).signature? id = table.signature? id := by
  induction names with
  | nil => rfl
  | cons _ _ ih => rw [with_names_cons, signature_modify, ih]

theorem arena_with_names {id : TypeId} (other : id ∉ names.map Prod.fst) :
    (withNames names table).arena[id]? = table.arena[id]? := by
  induction names with
  | nil => rfl
  | cons entry rest ih =>
      rw [List.map_cons, List.mem_cons, not_or] at other
      rw [with_names_cons, arena_modify, if_neg other.1, ih other.2]

theorem get?_set_name (pragmas : Pragmas) (name key : String) : (pragmas.setName (some name)).get? key =
    if key = Pragmas.nameKey then some (.text name) else pragmas.get? key :=
  SortedMap.get?_insert pragmas.entries Pragmas.nameKey (.text name) key

theorem pragma_modify (id query : TypeId) (name key : String) (table : TypeTable) :
    (modifyPragmas (·.setName (some name)) id table).pragma? query key =
      if query = id ∧ key = Pragmas.nameKey then table.arena[query]?.map fun _ => .text name
      else table.pragma? query key := by
  unfold pragma?
  rw [arena_modify]
  by_cases same : query = id <;> by_cases called : key = Pragmas.nameKey <;>
    cases table.arena[query]? <;> simp [same, called, get?_set_name]

theorem pragma_with_names {id : TypeId} {key : String} (other : key ≠ Pragmas.nameKey) :
    (withNames names table).pragma? id key = table.pragma? id key := by
  induction names with
  | nil => rfl
  | cons entry rest ih => rw [with_names_cons, pragma_modify, if_neg (by simp [other]), ih]

end Named

/-! ### Chains with names -/

section Chains
variable {table changed : TypeTable} {kind : LinkKind} {types : List TypeId}

end Chains

/-! ### What a chain leaves of the types before it -/

structure Undisturbed (table : TypeTable) (renamed : List TypeId) (changed : TypeTable) : Prop where
  signature : ∀ id < table.arena.size, changed.signature? id = table.signature? id
  label : ∀ id < table.arena.size, changed.label? id = table.label? id
  definition : ∀ id < table.arena.size, id ∉ renamed → changed.arena[id]? = table.arena[id]?
  pragma : ∀ id < table.arena.size, ∀ key, key ≠ Pragmas.nameKey → changed.pragma? id key = table.pragma? id key

section Undisturbed
variable {table changed : TypeTable}

theorem Undisturbed.renamed (undisturbed : Undisturbed table [] changed) (names : List (TypeId × String)) :
    Undisturbed table (names.map Prod.fst) (withNames names changed) := by
  refine ⟨?_, ?_, ?_, ?_⟩
  · intro id inside
    rw [signature_with_names, undisturbed.signature id inside]
  · intro id inside
    rw [← undisturbed.label id inside, label?, order_with_names, label?]
  · intro id inside other
    rw [arena_with_names other, undisturbed.definition id inside List.not_mem_nil]
  · intro id inside key other
    rw [pragma_with_names other, undisturbed.pragma id inside key other]

end Undisturbed

/-! ### Chains that are built -/

section Built
variable {table : TypeTable} {kind : LinkKind} {types : List TypeId}

theorem Strung.once (grounded : table.Grounded) (reliable : table.Reliable) {links : List TypeId}
    (strung : Strung table kind types links) : links.Nodup :=
  strung.nodup reliable fun found _ member => rank_lt grounded (contains_iff.mpr ⟨_, found, member⟩)

end Built

end Dataflow.TypeTable
