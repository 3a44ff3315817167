import Mathlib.Data.List.Perm.Subperm
import Dataflow.Proofs.Outcome
import Dataflow.Proofs.Type.Canonical
set_option autoImplicit false

-- Chains of links of one kind. A chain is interned from its end, each link for its element and the
-- link after it, so a chain that is in a table is found again and nothing changes.
namespace Dataflow.TypeTable

inductive Strung (table : TypeTable) (kind : LinkKind) : List TypeId → List TypeId → Prop
  | nil : Strung table kind [] []
  | cons {element link : TypeId} {types links : List TypeId}
      (found : table.index.lookup (.link kind element links.head?) = some link)
      (rest : Strung table kind types links) : Strung table kind (element :: types) (link :: links)

theorem link_parameters (kind : LinkKind) (element : TypeId) (tail : Option TypeId) :
    Signature.ofParameters kind.code (some element) tail = .ok (.link kind element tail) := by
  cases kind <;> cases tail <;> rfl

section Strung
variable {table changed : TypeTable} {kind : LinkKind} {types links : List TypeId}

theorem Strung.mono (strung : Strung table kind types links)
    (kept : ∀ {signature id}, table.index.lookup signature = some id → changed.index.lookup signature = some id) :
    Strung changed kind types links := by
  induction strung with
  | nil => exact .nil
  | cons found _ ih => exact .cons (kept found) ih

theorem Strung.length (strung : Strung table kind types links) : links.length = types.length := by
  induction strung with
  | nil => rfl
  | cons _ _ ih => simp [ih]

theorem Strung.unique {others : List TypeId} (strung : Strung table kind types links)
    (twin : Strung table kind types others) : links = others := by
  induction strung generalizing others with
  | nil =>
      cases twin
      rfl
  | cons found _ ih =>
      cases twin with
      | cons foundToo rest =>
          obtain rfl := ih rest
          rw [found] at foundToo
          cases foundToo
          rfl

theorem Strung.live (reliable : table.Reliable) (strung : Strung table kind types links) :
    ∀ link ∈ links, link ∈ table.order := by
  induction strung with
  | nil => simp
  | cons found _ ih => exact List.forall_mem_cons.mpr ⟨(reliable.leads found).1, ih⟩

theorem Strung.linked (reliable : table.Reliable) (strung : Strung table kind types links) :
    ∀ link ∈ links, ∃ element tail, table.signature? link = some (.link kind element tail) := by
  induction strung with
  | nil => simp
  | cons found _ ih => exact List.forall_mem_cons.mpr ⟨⟨_, _, (reliable.leads found).2⟩, ih⟩

theorem Strung.head_live (reliable : table.Reliable) (strung : Strung table kind types links) :
    LiveOption table links.head? :=
  fun _ first => strung.live reliable _ (List.mem_of_head? first)

theorem Strung.continues (reliable : table.Reliable) (strung : Strung table kind types links) (element : TypeId) :
    table.Continues (.link kind element links.head?) := by
  intro _ _ _ same
  injection same with sameKind _ first
  cases strung with
  | nil => cases first
  | cons found _ =>
      cases first
      rw [(reliable.leads found).2, ← sameKind]
      rfl

theorem live_option {type : TypeId} (live : type ∈ table.order) : LiveOption table (some type) := by
  rintro _ ⟨⟩
  exact live

-- The next link of a chain only needs its element.
theorem add_link_run (reliable : table.Reliable) (strung : Strung table kind types links) {element : TypeId}
    (live : element ∈ table.order) :
    add kind.code (some element) links.head? table = internType (.link kind element links.head?) table :=
  add_run reliable.bounded (link_parameters kind element links.head?) (live_option live) (strung.head_live reliable)

/-! ### Chains that are added -/

-- One more link in front of a chain.
theorem Strung.added (reliable : table.Reliable) (strung : Strung table kind types links) {element link : TypeId}
    (adding : add kind.code (some element) links.head? table = .ok link changed) :
    element ∈ table.order ∧ Grown table changed ∧ Strung changed kind (element :: types) (link :: links) := by
  obtain ⟨_, _, live, _, _⟩ := add_ok adding
  obtain ⟨signature, made, linked⟩ := interned_of_add reliable adding fun {signature} made => by
    rw [link_parameters] at made
    cases made
    exact strung.continues reliable element
  rw [link_parameters] at made
  cases made
  exact ⟨live element rfl, linked.grown, .cons linked.found (strung.mono linked.grown.grows.index)⟩

theorem add_links_ok {chain : Option TypeId} (reliable : table.Reliable)
    (done : addLinks kind.code (types.map (·, none)) table = .ok chain changed) :
    Grown table changed ∧ (∃ links, Strung changed kind types links ∧ chain = links.head?) ∧
      ∀ type ∈ types, type ∈ changed.order := by
  induction types generalizing chain changed with
  | nil =>
      obtain ⟨rfl, rfl⟩ := Edit.pure_ok done
      exact ⟨.refl table, ⟨[], .nil, rfl⟩, by simp⟩
  | cons element rest ih =>
      obtain ⟨tail, middle, here, done⟩ := Edit.bind_ok done
      obtain ⟨grown, ⟨links, strung, rfl⟩, live⟩ := ih here
      obtain ⟨link, final, adding, done⟩ := Edit.bind_ok done
      obtain ⟨rfl, rfl⟩ := Edit.pure_ok done
      obtain ⟨elementLive, linked, longer⟩ := strung.added (grown.reliable reliable) adding
      refine ⟨grown.trans linked, ⟨link :: links, longer, rfl⟩, ?_⟩
      exact List.forall_mem_cons.mpr ⟨linked.grows.live elementLive, fun type member => linked.grows.live (live type member)⟩

/-! ### Chains that are refused -/

section Refused
variable {entries : List (TypeId × Option String)}

theorem reliable_of_add {code : TypeCode} {first second : Option TypeId} {id : TypeId} (reliable : table.Reliable)
    (adding : add code first second table = .ok id changed) : changed.Reliable ∧ id ∈ changed.order := by
  obtain ⟨signature, _, live, interning⟩ := live_of_parameters adding
  rw [intern_type_run] at interning
  rcases intern_cases table signature with ⟨old, found, same⟩ | ⟨_, same⟩
  · rw [same] at interning
    cases interning
    exact ⟨reliable, (reliable.leads found).1⟩
  · rw [same] at interning
    cases interning
    have known := fun reference member => reliable.bounded reference (live reference member)
    exact ⟨reliable_interned reliable known, mem_order_interned.mpr (.inr rfl)⟩

theorem reliable_of_links {chain : Option TypeId} (reliable : table.Reliable)
    (done : addLinks kind.code entries table = .ok chain changed) : changed.Reliable ∧ LiveOption changed chain := by
  induction entries generalizing chain changed with
  | nil =>
      obtain ⟨rfl, rfl⟩ := Edit.pure_ok done
      exact ⟨reliable, by rintro _ ⟨⟩⟩
  | cons entry rest ih =>
      obtain ⟨element, name⟩ := entry
      obtain ⟨tail, middle, here, done⟩ := Edit.bind_ok done
      obtain ⟨link, linked, adding, done⟩ := Edit.bind_ok done
      obtain ⟨linkedReliable, live⟩ := reliable_of_add (ih here).1 adding
      cases name with
      | none =>
          cases done
          exact ⟨linkedReliable, live_option live⟩
      | some name =>
          cases done
          exact ⟨reliable_modify _ _ linkedReliable, live_option live⟩

-- The link after it is live when a link is added, so only its element can be missing.
theorem add_links_refused (reliable : table.Reliable) {error : Error}
    (refused : addLinks kind.code entries table = .error error changed) :
    ∃ before missing name behind chain, entries = before ++ (missing, name) :: behind ∧
      addLinks kind.code behind table = .ok chain changed ∧ missing ∉ changed.order ∧ error = .typeNotFound missing := by
  induction entries with
  | nil => cases refused
  | cons entry rest ih =>
      obtain ⟨element, name⟩ := entry
      rcases Edit.bind_error refused with here | ⟨tail, middle, here, refused⟩
      · obtain ⟨before, missing, called, behind, chain, rfl, built⟩ := ih here
        exact ⟨(element, name) :: before, missing, called, behind, chain, rfl, built⟩
      obtain ⟨middleReliable, tailLive⟩ := reliable_of_links reliable here
      rcases Edit.bind_error refused with adding | ⟨_, _, _, named⟩
      · obtain ⟨rfl, ⟨fault, none⟩ | ⟨type, same | tail, missing, reason⟩⟩ := add_error adding
        · rw [link_parameters] at none
          cases none
        · cases same
          exact ⟨[], element, name, rest, _, rfl, here, not_mem_of_get_none middleReliable missing, reason⟩
        · exact absurd (tailLive type tail) (not_mem_of_get_none middleReliable missing)
      · cases name <;> cases named

end Refused

theorem add_links_error {error : Error} (reliable : table.Reliable)
    (refused : addLinks kind.code (types.map (·, none)) table = .error error changed) :
    ∃ type ∈ types, type ∉ table.order ∧ error = .typeNotFound type := by
  obtain ⟨before, missing, name, behind, chain, split, done, absent, reason⟩ := add_links_refused reliable refused
  obtain ⟨front, _, rfl, _, split⟩ := List.map_eq_append_iff.mp split
  obtain ⟨_, rest, rfl, same, rfl⟩ := List.map_eq_cons_iff.mp split
  cases same
  have grown := (add_links_ok reliable done).1
  exact ⟨missing, List.mem_append_right _ List.mem_cons_self, fun live => absent (grown.grows.live live), reason⟩

theorem add_links_run (reliable : table.Reliable) (strung : Strung table kind types links)
    (live : ∀ type ∈ types, type ∈ table.order) :
    addLinks kind.code (types.map (·, none)) table = .ok links.head? table := by
  induction strung with
  | nil => rfl
  | cons found strung ih =>
      obtain ⟨elementLive, restLive⟩ := List.forall_mem_cons.mp live
      have added := (add_link_run reliable strung elementLive).trans (intern_known found)
      exact (Edit.bind_of_ok (ih restLive)).trans (Edit.bind_of_ok added)

/-! ### Walks along chains -/

theorem Strung.firsts (reliable : table.Reliable) (strung : Strung table kind types links) :
    links.filterMap (fun link => (table.get? link).bind (·.signature.first?)) = types := by
  induction strung with
  | nil => rfl
  | cons found _ ih =>
      obtain ⟨definition, held, shape⟩ := reliable.held found
      rw [List.filterMap_cons, held, ih]
      simp [shape, Signature.first?]

theorem Strung.walk (reliable : table.Reliable) (strung : Strung table kind types links) (head : TypeId) {steps : Nat}
    (enough : links.length ≤ steps) : walk table head steps links.head? = .ok links := by
  induction strung generalizing steps with
  | nil => cases steps <;> rfl
  | cons found _ ih =>
      obtain ⟨definition, held, shape⟩ := reliable.held found
      cases steps with
      | zero => cases enough
      | succ steps =>
          refine (Outcome.bind_of_ok (find_ok_iff.mpr held)).trans ?_
          rw [shape]
          exact (Outcome.bind_of_ok (ih (Nat.le_of_succ_le_succ enough))).trans rfl

section Ranked
variable {rank : TypeId → Nat}

-- Every link ranks above those after it, so none comes twice.
theorem Strung.downwards (reliable : table.Reliable)
    (grounded : ∀ {id signature}, table.signature? id = some signature →
      ∀ reference ∈ signature.references, rank reference < rank id)
    (strung : Strung table kind types links) : links.Pairwise fun first second => rank second < rank first := by
  induction strung with
  | nil => exact .nil
  | cons found strung ih =>
      refine List.pairwise_cons.mpr ⟨?_, ih⟩
      cases strung with
      | nil => simp
      | cons _ _ =>
          have step := grounded (reliable.leads found).2 _ (by simp [Signature.references, Signature.second?]; exact .inr rfl)
          obtain ⟨below, _⟩ := List.pairwise_cons.mp ih
          exact List.forall_mem_cons.mpr ⟨step, fun other member => Nat.lt_trans (below other member) step⟩

theorem Strung.nodup (reliable : table.Reliable)
    (grounded : ∀ {id signature}, table.signature? id = some signature →
      ∀ reference ∈ signature.references, rank reference < rank id)
    (strung : Strung table kind types links) : links.Nodup := by
  refine (strung.downwards reliable grounded).imp ?_
  rintro first _ less rfl
  exact Nat.lt_irrefl _ less

end Ranked

theorem Strung.few (reliable : table.Reliable) (strung : Strung table kind types links) (once : links.Nodup) :
    links.length ≤ table.arena.size := by
  have inside : links ⊆ List.range table.arena.size := fun link member =>
    List.mem_range.mpr (reliable.bounded link (strung.live reliable link member))
  simpa using (List.subperm_of_subset once inside).length_le

-- A chain can be read from its first link, and from a record or a union over that link.
theorem Strung.links_eq (reliable : table.Reliable) (strung : Strung table kind types links) (once : links.Nodup)
    {head : TypeId} (first : links.head? = some head) : table.links head = .ok links := by
  have walked := strung.walk reliable head (Nat.le_succ_of_le (strung.few reliable once))
  cases strung with
  | nil => cases first
  | cons found _ =>
      cases first
      obtain ⟨definition, held, shape⟩ := reliable.held found
      unfold TypeTable.links
      rw [Outcome.bind_of_ok (find_ok_iff.mpr held), shape]
      exact walked

theorem Strung.chain_eq (reliable : table.Reliable) (strung : Strung table kind types links) {id : TypeId}
    (read : table.links id = .ok links) : table.chain id = .ok types := by
  unfold TypeTable.chain
  rw [Outcome.bind_of_ok read, strung.firsts reliable]
  rfl

end Strung

end Dataflow.TypeTable
