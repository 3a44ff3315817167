import Dataflow.Proofs.Pragma.Suffix
set_option autoImplicit false

-- The lines of records: what is written for a record is one line, and it is read back as the record
-- with its pragmas reread.
namespace Dataflow
open Text (Solid isBlank wordBound)

namespace Record

def digits (number : Nat) : Word :=
  Nat.toDigits 10 number

def Signature.Legible (signature : Signature) : Prop :=
  ∀ reference ∈ signature.references, 1 ≤ reference ∧ reference < wordBound

-- Texts keep to their lines, the labels of types start from 1, and of pragmas there is as much to know as asked.
def Spelled (asked : Pragmas → Prop) : Record → Prop
  | pragma key text => isBlank key = false ∧ '\n' ∉ text.toList ∧ Text.trim text.toList = text.toList
  | function record => '\n' ∉ record.name.toList ∧ asked record.pragmas ∧ record.pragmas.Quoteless
  | literal record => '\n' ∉ record.text.toList ∧ asked record.pragmas ∧ record.pragmas.Quoteless
  | compound _ => True
  | type record =>
      1 ≤ record.label ∧ (∀ reference ∈ record.signature.references, 1 ≤ reference) ∧ asked record.pragmas
  | node record => asked record.pragmas
  | graph pragmas => asked pragmas
  | trailer record => asked record.pragmas
  | edge record => asked record.pragmas

-- Numbers are words of 32 bits.
def Counted : Record → Prop
  | type record => record.label < wordBound ∧ ∀ reference ∈ record.signature.references, reference < wordBound
  | pragma _ _ | graph _ => True
  | function record => record.type < wordBound
  | node record => record.label < wordBound
  | compound record => record.label < wordBound
  | trailer record =>
      record.label < wordBound ∧ record.offsets.length < wordBound ∧ ∀ offset ∈ record.offsets, offset < wordBound
  | edge record =>
      record.source < wordBound ∧ record.sourcePort < wordBound ∧ record.target < wordBound ∧
        record.targetPort < wordBound ∧ record.type < wordBound
  | literal record => record.target < wordBound ∧ record.targetPort < wordBound ∧ record.type < wordBound

-- Ports are numbered from 1.
def Ported : Record → Prop
  | edge record => 1 ≤ record.sourcePort ∧ 1 ≤ record.targetPort
  | literal record => 1 ≤ record.targetPort
  | _ => True

def Wordy (record : Record) : Prop :=
  record.Spelled Pragmas.Wordy

structure Fits (asked : Pragmas → Prop) (record : Record) : Prop where
  spelled : record.Spelled asked
  counted : record.Counted

def Legible (record : Record) : Prop :=
  record.Fits Pragmas.Plain

def Clear (record : Record) : Prop :=
  record.Fits Pragmas.Clear

structure Readable (record : Record) : Prop where
  clear : record.Clear
  ported : record.Ported

def pragmas : Record → Pragmas
  | type record => record.pragmas
  | function record => record.pragmas
  | node record => record.pragmas
  | graph pragmas => pragmas
  | trailer record => record.pragmas
  | edge record => record.pragmas
  | literal record => record.pragmas
  | pragma _ _ | compound _ => .empty

theorem Spelled.change {asked other : Pragmas → Prop} {record : Record} (spelled : record.Spelled asked)
    (holds : other record.pragmas) : record.Spelled other := by
  cases record with
  | pragma | compound => exact spelled
  | function | literal => exact ⟨spelled.1, holds, spelled.2.2⟩
  | type => exact ⟨spelled.1, spelled.2.1, holds⟩
  | node | graph | trailer | edge => exact holds

theorem Spelled.holds {asked : Pragmas → Prop} {record : Record} (spelled : record.Spelled asked)
    (empty : asked .empty) : asked record.pragmas := by
  cases record with
  | pragma | compound => exact empty
  | function | literal => exact spelled.2.1
  | type => exact spelled.2.2
  | node | graph | trailer | edge => exact spelled

theorem Clear.wordy {record : Record} (clear : record.Clear) : record.Wordy :=
  clear.spelled.change (clear.spelled.holds Pragmas.plain_empty.toClear).toWordy

theorem Legible.clear {record : Record} (legible : record.Legible) : record.Clear :=
  ⟨legible.spelled.change (legible.spelled.holds Pragmas.plain_empty).toClear, legible.counted⟩

def line (record : Record) : Word :=
  Text.trim record.render.toList

/-! ### Numbers and words -/

theorem toList_numbers (numbers : List Nat) :
    (renderNumbers numbers).toList = Text.spread (numbers.map digits) := by
  unfold renderNumbers Text.spread
  rw [String.toList_join, List.flatMap_map, List.flatMap_map]
  congr 1
  funext number
  simp [digits]

theorem solid_numbers (numbers : List Nat) : ∀ word ∈ numbers.map digits, Solid word := by
  intro word member
  obtain ⟨number, _, rfl⟩ := List.mem_map.mp member
  exact Text.solid_digits number

theorem numbers_are_fields (numbers : List Nat) :
    ∀ word ∈ numbers.map digits, word.head? ≠ some '%' := by
  intro word member same
  obtain ⟨number, _, rfl⟩ := List.mem_map.mp member
  exact Text.percent_not_mem_digits number (List.mem_of_head? same)

theorem number_digits (field : Field) {value : Nat} (bound : value < wordBound) :
    number field (some (digits value)) = .ok value := by
  have read : Text.word? (digits value) = some value := Text.word_digits bound
  simp only [number, read]

theorem number_at (field : Field) {numbers : List Nat} {place value : Nat}
    (found : numbers[place]? = some value) (bound : value < wordBound) :
    number field (numbers.map digits)[place]? = .ok value := by
  rw [List.getElem?_map, found]
  exact number_digits field bound

-- The lines of types, nodes, graphs, trailers and edges: a head, numbers and pragmas.
def row (head : String) (numbers : List Nat) (pragmas : Pragmas) : String :=
  head ++ renderNumbers numbers ++ pragmas.render

section Row
variable {head : String} {numbers : List Nat} {pragmas : Pragmas}

theorem toList_row :
    (row head numbers pragmas).toList =
      head.toList ++ Text.spread (numbers.map digits ++ pragmas.words) := by
  unfold row
  rw [String.toList_append, String.toList_append, toList_numbers, Pragmas.toList_render,
    Text.spread_append, List.append_assoc]

theorem words_row (solid : Solid head.toList) (wordy : pragmas.Wordy) :
    Text.words (Text.trim (row head numbers pragmas).toList) =
      head.toList :: (numbers.map digits ++ pragmas.words) := by
  have pieces : ∀ word ∈ numbers.map digits ++ pragmas.words, Solid word := by
    intro word member
    rcases List.mem_append.mp member with member | member
    · exact solid_numbers numbers word member
    · exact wordy.solid word member
  rw [Text.words_trim, toList_row, Text.words_append_spread _ pieces, Text.words_of_solid solid]
  rfl

theorem fields_row (clear : pragmas.Clear) :
    fields (numbers.map digits ++ pragmas.words) = .ok (numbers.map digits, pragmas.normalize) :=
  fields_of_words (numbers_are_fields numbers) clear

theorem newline_not_mem_spread {pieces : List Word} (solid : ∀ word ∈ pieces, Solid word) :
    '\n' ∉ Text.spread pieces := by
  intro member
  obtain ⟨word, inside, here⟩ := List.mem_flatMap.mp member
  rcases List.mem_cons.mp here with same | here
  · exact absurd same (by decide)
  · exact absurd ((solid word inside).2 _ here) (by decide)

theorem newline_not_mem_row (solid : Solid head.toList) (wordy : pragmas.Wordy) :
    '\n' ∉ (row head numbers pragmas).toList := by
  rw [toList_row]
  intro member
  rcases List.mem_append.mp member with member | member
  · exact absurd (solid.2 _ member) (by decide)
  · refine newline_not_mem_spread ?_ member
    intro word inside
    rcases List.mem_append.mp inside with inside | inside
    · exact solid_numbers numbers word inside
    · exact wordy.solid word inside

end Row

theorem solid_letter {c : Char} (solid : isBlank c = false) : Solid [c] :=
  ⟨by simp, fun other member => by rw [List.mem_singleton.mp member]; exact solid⟩

/-! ### Types -/

theorem basic_of_code (kind : BasicKind) : BasicKind.ofCode? kind.code = some kind := by
  cases kind <;> rfl

theorem type_code_of_code (code : TypeCode) : TypeCode.ofCode? code.code = some code := by
  cases code <;> rfl

theorem opcode_of_code (op : Opcode) : Opcode.ofCode? op.code = some op := by
  cases op <;> rfl

theorem opcode_lt (op : Opcode) : op.code < wordBound := by
  cases op <;> decide

theorem label_of_pos {number : Nat} (positive : 1 ≤ number) : label? number = some number :=
  if_neg (Nat.one_le_iff_ne_zero.mp positive)

theorem label_getD {reference : Option Nat} (positive : ∀ number, reference = some number → 1 ≤ number) :
    label? (reference.getD 0) = reference := by
  cases reference with
  | none => rfl
  | some number => exact label_of_pos (positive number rfl)

theorem getD_lt {reference : Option Nat} (bounded : ∀ number, reference = some number → number < wordBound) :
    reference.getD 0 < wordBound := by
  cases reference with
  | none => decide
  | some number => exact bounded number rfl

theorem length_fields (signature : Signature) :
    signature.fields.length = parameterCount signature.code := by
  cases signature with
  | basic kind => rfl
  | wild => rfl
  | container kind base => cases kind <;> rfl
  | link kind element rest => cases kind <;> rfl
  | function arguments results => rfl

theorem parse_signature_fields {signature : Signature} (legible : Signature.Legible signature) :
    parseSignature signature.code (signature.fields.map digits) = .ok signature := by
  cases signature with
  | basic kind =>
      have bound : kind.code < wordBound := by cases kind <;> decide
      have read := number_digits .basicKind bound
      change (number .basicKind (some (digits kind.code)) >>= _) = _
      rw [Outcome.bind_of_ok read, basic_of_code]
      rfl
  | wild => rfl
  | container kind base =>
      obtain ⟨positive, bound⟩ := legible base (by simp [Signature.references, Signature.first?])
      have read := number_digits .typeParameter bound
      have parsed : (number .typeParameter (some (digits base)) >>= fun base =>
          require .noBase (label? base) >>= fun base => pure (.container kind base)) =
            (.ok (.container kind base) : Parsed Signature) := by
        rw [Outcome.bind_of_ok read, label_of_pos positive]
        rfl
      cases kind <;> exact parsed
  | link kind element rest =>
      obtain ⟨positive, bound⟩ := legible element (by simp [Signature.references, Signature.first?])
      have others : ∀ number, rest = some number → 1 ≤ number ∧ number < wordBound := by
        rintro number rfl
        exact legible number (by simp [Signature.references, Signature.second?])
      have first := number_digits .typeParameter bound
      have second := number_digits .typeParameter (getD_lt fun number same => (others number same).2)
      have parsed : (number .typeParameter (some (digits element)) >>= fun element =>
          number .typeParameter (some (digits (rest.getD 0))) >>= fun rest =>
          require .noBase (label? element) >>= fun element => pure (.link kind element (label? rest))) =
            (.ok (.link kind element rest) : Parsed Signature) := by
        rw [Outcome.bind_of_ok first, Outcome.bind_of_ok second, label_of_pos positive,
          label_getD fun number same => (others number same).1]
        rfl
      cases kind <;> exact parsed
  | function arguments results =>
      obtain ⟨positive, bound⟩ := legible results (by simp [Signature.references, Signature.second?])
      have others : ∀ number, arguments = some number → 1 ≤ number ∧ number < wordBound := by
        rintro number rfl
        exact legible number (by simp [Signature.references, Signature.first?])
      have first := number_digits .typeParameter (getD_lt fun number same => (others number same).2)
      have second := number_digits .typeParameter bound
      change (number .typeParameter (some (digits (arguments.getD 0))) >>= fun arguments =>
          number .typeParameter (some (digits results)) >>= fun results =>
          require .noOutput (label? results) >>= fun results =>
          pure (Signature.function (label? arguments) results)) = _
      rw [Outcome.bind_of_ok first, Outcome.bind_of_ok second, label_of_pos positive,
        label_getD fun number same => (others number same).1]
      rfl

theorem guard_passes {refused : Prop} [Decidable refused] {α : Type} {fault : Fault} {next : Parsed α}
    (accepted : ¬ refused) : (if refused then (throw fault >>= fun _ : PUnit => next) else next) = next :=
  if_neg accepted

theorem parse_type_line {record : TypeRecord} (fits : (type record).Clear) :
    parseType (line (type record)) = .ok { record with pragmas := record.pragmas.normalize } := by
  obtain ⟨⟨positive, labelled, clear⟩, bound, counted⟩ := fits
  have references : Signature.Legible record.signature := fun reference member =>
    ⟨labelled reference member, counted reference member⟩
  let numbers := record.label :: record.signature.code.code :: record.signature.fields
  have words : Text.words (line (type record)) = "T".toList :: (numbers.map digits ++ record.pragmas.words) :=
    words_row (solid_letter (by decide)) clear.toWordy
  have codeBound : record.signature.code.code < wordBound := by cases record.signature.code <;> decide
  have label : number .typeLabel (numbers.map digits)[0]? = .ok record.label := number_at _ rfl bound
  have code : number .typeCode (numbers.map digits)[1]? = .ok record.signature.code.code :=
    number_at _ rfl codeBound
  have length : (numbers.map digits).length = 2 + parameterCount record.signature.code := by
    rw [List.length_map, ← length_fields]
    simp only [numbers, List.length_cons]
    omega
  unfold parseType
  rw [words, List.drop_one, List.tail_cons]
  refine (Outcome.bind_of_ok (fields_row clear)).trans ?_
  refine (Outcome.bind_of_ok label).trans ?_
  rw [label_of_pos positive]
  refine (Outcome.bind_of_ok (rfl : require .typeLabelZero (some record.label) = .ok record.label)).trans ?_
  refine (Outcome.bind_of_ok code).trans ?_
  rw [type_code_of_code]
  refine (Outcome.bind_of_ok (rfl : require .unknownTypeCode (some record.signature.code) =
    .ok record.signature.code)).trans ?_
  refine (guard_passes (not_not.mpr length)).trans ?_
  exact (Outcome.bind_of_ok (parse_signature_fields references)).trans rfl

/-! ### Nodes, graphs and compounds -/

theorem opcode_digits (op : Opcode) : opcode (some (digits op.code)) = .ok op := by
  unfold opcode
  rw [Outcome.bind_of_ok (number_digits .opcode (opcode_lt op)), opcode_of_code]
  rfl

theorem parse_node_line {record : NodeRecord} (fits : (node record).Clear) :
    parseNode (line (node record)) = .ok { record with pragmas := record.pragmas.normalize } := by
  obtain ⟨clear, bound⟩ := fits
  change record.pragmas.Clear at clear
  have words : Text.words (line (node record)) =
      "N".toList :: ([record.label, record.opcode.code].map digits ++ record.pragmas.words) :=
    words_row (solid_letter (by decide)) clear.toWordy
  unfold parseNode
  rw [words, List.drop_one, List.tail_cons]
  refine (Outcome.bind_of_ok (fields_row clear)).trans ?_
  refine (Outcome.bind_of_ok (number_digits .nodeLabel bound)).trans ?_
  exact (Outcome.bind_of_ok (opcode_digits record.opcode)).trans rfl

theorem words_compound (record : CompoundRecord) :
    Text.words (line (compound record)) =
      ["\x7b".toList, "Compound".toList, digits record.label, digits record.opcode.code] := by
  have shown : (compound record).render.toList =
      "\x7b".toList ++ Text.spread ["Compound".toList, digits record.label, digits record.opcode.code]
        ++ [' '] := by
    change ("\x7b Compound" ++ renderNumbers [record.label, record.opcode.code] ++ " ").toList = _
    rw [String.toList_append, String.toList_append, toList_numbers]
    rfl
  have solid : ∀ word ∈ ["Compound".toList, digits record.label, digits record.opcode.code], Solid word := by
    intro word member
    simp only [List.mem_cons, List.not_mem_nil, or_false] at member
    rcases member with rfl | rfl | rfl
    · decide
    · exact Text.solid_digits _
    · exact Text.solid_digits _
  unfold line
  rw [Text.words_trim, shown, Text.words_append_only_blank (by decide),
    Text.words_append_spread _ solid, Text.words_of_solid (by decide)]
  rfl

theorem parse_compound_line {record : CompoundRecord} (fits : (compound record).Clear) :
    parseCompound (line (compound record)) = .ok record := by
  unfold parseCompound
  rw [words_compound]
  refine (guard_passes (by simp)).trans ?_
  refine (Outcome.bind_of_ok (number_digits .nodeLabel fits.counted)).trans ?_
  exact (Outcome.bind_of_ok (opcode_digits record.opcode)).trans rfl

theorem render_graph (pragmas : Pragmas) : (graph pragmas).render = row "G" [0] pragmas := by
  have head : "G 0" = "G" ++ renderNumbers [0] := by decide
  rw [row, ← head]
  rfl

theorem words_graph {pragmas : Pragmas} (wordy : pragmas.Wordy) :
    Text.words (line (graph pragmas)) = "G".toList :: ([0].map digits ++ pragmas.words) := by
  unfold line
  rw [render_graph]
  exact words_row (solid_letter (by decide)) wordy

theorem parse_graph_line {pragmas : Pragmas} (clear : (graph pragmas).Clear) :
    parseGraph (line (graph pragmas)) = .ok pragmas.normalize := by
  have none : ∀ word ∈ ([] : List Word), word.head? ≠ some '%' := fun _ member => by cases member
  unfold parseGraph
  rw [words_graph (Pragmas.Clear.toWordy clear.spelled)]
  exact (Outcome.bind_of_ok (fields_of_words none clear.spelled)).trans rfl

theorem parse_children_digits {graphs children : List NodeId} {offsets : List Nat}
    (bounded : ∀ offset ∈ offsets, offset < wordBound)
    (found : List.Forall₂ (fun offset child => graphs[offset]? = some child) offsets children) :
    parseChildren graphs (offsets.map digits) = .ok children := by
  refine Outcome.map_m_of_forall ?_
  induction found with
  | nil => exact .nil
  | cons here _ ih =>
      rename_i offset child offsets children _
      refine .cons ?_ (ih fun other member => bounded other (List.mem_cons_of_mem _ member))
      rw [Outcome.bind_of_ok (number_digits .childOffset (bounded offset List.mem_cons_self)), here]
      rfl

theorem parse_trailer_line {record : TrailerRecord} {graphs children : List NodeId}
    (fits : (trailer record).Clear)
    (found : List.Forall₂ (fun offset child => graphs[offset]? = some child) record.offsets children) :
    parseTrailer ⟨record.label, record.opcode⟩ graphs (line (trailer record)) =
      .ok (children, record.pragmas.normalize) := by
  obtain ⟨clear, bound, lengthBound, offsets⟩ := fits
  change record.pragmas.Clear at clear
  let numbers := record.label :: record.opcode.code :: record.offsets.length :: record.offsets
  have words : Text.words (line (trailer record)) =
      "\x7d".toList :: (numbers.map digits ++ record.pragmas.words) :=
    words_row (solid_letter (by decide)) clear.toWordy
  have label : number .nodeLabel (numbers.map digits)[0]? = .ok record.label := number_at _ rfl bound
  have code : number .opcode (numbers.map digits)[1]? = .ok record.opcode.code :=
    number_at _ rfl (opcode_lt record.opcode)
  have count : number .childCount (numbers.map digits)[2]? = .ok record.offsets.length :=
    number_at _ rfl lengthBound
  have length : (numbers.map digits).length = 3 + record.offsets.length := by
    simp only [numbers, List.length_map, List.length_cons]
    omega
  unfold parseTrailer
  rw [words, List.drop_one, List.tail_cons]
  refine (Outcome.bind_of_ok (fields_row clear)).trans ?_
  refine (Outcome.bind_of_ok label).trans ?_
  refine (guard_passes (by simp)).trans ?_
  refine (Outcome.bind_of_ok code).trans ?_
  refine (guard_passes (by simp)).trans ?_
  refine (Outcome.bind_of_ok count).trans ?_
  refine (guard_passes (not_not.mpr length)).trans ?_
  exact (Outcome.bind_of_ok (parse_children_digits offsets found)).trans rfl

/-! ### Edges -/

theorem parse_edge_line {record : EdgeRecord} (fits : (edge record).Clear) :
    parseEdge (line (edge record)) = .ok { record with pragmas := record.pragmas.normalize } := by
  obtain ⟨clear, source, sourcePort, target, targetPort, type⟩ := fits
  change record.pragmas.Clear at clear
  have words : Text.words (line (edge record)) = "E".toList ::
      ([record.source, record.sourcePort, record.target, record.targetPort, record.type].map digits
        ++ record.pragmas.words) :=
    words_row (solid_letter (by decide)) clear.toWordy
  unfold parseEdge
  rw [words, List.drop_one, List.tail_cons]
  refine (Outcome.bind_of_ok (fields_row clear)).trans ?_
  refine (guard_passes (by simp)).trans ?_
  refine (Outcome.bind_of_ok (number_digits .sourceLabel source)).trans ?_
  refine (Outcome.bind_of_ok (number_digits .sourcePort sourcePort)).trans ?_
  refine (Outcome.bind_of_ok (number_digits .targetLabel target)).trans ?_
  refine (Outcome.bind_of_ok (number_digits .targetPort targetPort)).trans ?_
  exact (Outcome.bind_of_ok (number_digits .typeLabel type)).trans rfl

end Record

end Dataflow
