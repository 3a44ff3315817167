import Dataflow.Proofs.Record.Respelled
set_option autoImplicit false

-- Records in which types go by other labels. Such a record is read as the old one with its labels replaced;
-- blanks between its words do not count.
namespace Dataflow.Record

/-! ### Labels in a line -/

def head (line : Word) : Word :=
  (Text.words line).headD []

def hasQuotes (line : Word) : Bool :=
  head line = ['X'] || head line = ['L']

-- Of a line with quotes only the words before them have places.
def front (line : Word) : Word :=
  if hasQuotes line then line.takeWhile (· ≠ '"') else line

def back (line : Word) : Word :=
  if hasQuotes line then line.dropWhile (· ≠ '"') else []

-- The parameter of a scalar type is its kind. All other types have labels of types for parameters.
def namesKind (words : List Word) : Bool :=
  words[2]?.bind Text.word? = some TypeCode.basic.code

def isLabel (head : Word) (words : List Word) (place : Nat) : Bool :=
  match head with
  | ['T'] => place = 1 || (3 ≤ place && !namesKind words)
  | ['X'] => place = 1
  | ['E'] => place = 5
  | ['L'] => place = 3
  | _ => false

def placed (line : Word) : List Word :=
  Text.words (front line)

def labelAt (line : Word) : Nat → Bool :=
  isLabel (head line) (placed line)

def labels (line : Word) : List Nat :=
  ((List.range (placed line).length).filter (labelAt line)).filterMap fun place =>
    (placed line)[place]?.bind Text.word?

structure Relabelled (phi : Nat → Nat) (line twin : Word) : Prop where
  start : head twin = head line
  words : Respelled phi (labelAt line) (placed line) (placed twin)
  rest : back twin = back line
  other : head line ∉ [['T'], ['X'], ['E'], ['L']] → twin = line

instance (phi : Nat → Nat) (line twin : Word) : Decidable (Relabelled phi line twin) :=
  decidable_of_iff (Record.head twin = Record.head line ∧
      Respelled phi (labelAt line) (placed line) (placed twin) ∧ Record.back twin = Record.back line ∧
      (Record.head line ∉ [['T'], ['X'], ['E'], ['L']] → twin = line))
    ⟨fun ⟨start, words, rest, other⟩ => ⟨start, words, rest, other⟩,
      fun ⟨start, words, rest, other⟩ => ⟨start, words, rest, other⟩⟩

theorem has_quotes_of_head {line first : Word} (start : head line = first) :
    hasQuotes line = (first = ['X'] || first = ['L']) := by
  unfold hasQuotes
  rw [start]

theorem label_at_of_head {line first : Word} (start : head line = first) (place : Nat) :
    labelAt line place = isLabel first (placed line) place := by
  unfold labelAt
  rw [start]

theorem placed_of_unquoted {line : Word} (plain : hasQuotes line = false) : placed line = Text.words line := by
  unfold placed front
  rw [plain]
  rfl

theorem mem_labels {line : Word} {number : Nat} : number ∈ labels line ↔
    ∃ place, labelAt line place = true ∧ (placed line)[place]?.bind Text.word? = some number := by
  unfold labels
  rw [List.mem_filterMap]
  constructor
  · rintro ⟨place, member, found⟩
    exact ⟨place, (List.mem_filter.mp member).2, found⟩
  · rintro ⟨place, label, found⟩
    obtain ⟨word, here, _⟩ := Option.bind_eq_some_iff.mp found
    have inside := (List.getElem?_eq_some_iff.mp here).1
    exact ⟨place, List.mem_filter.mpr ⟨List.mem_range.mpr inside, label⟩, found⟩

namespace Relabelled
variable {phi : Nat → Nat} {line twin : Word}

theorem has_quotes (relabelled : Relabelled phi line twin) : hasQuotes twin = hasQuotes line :=
  has_quotes_of_head relabelled.start

-- What says which words are labels is no label itself.
theorem label_at (relabelled : Relabelled phi line twin) : labelAt twin = labelAt line := by
  have code : labelAt line 2 = false := by
    unfold labelAt isLabel
    split <;> rfl
  have same : namesKind (placed twin) = namesKind (placed line) := by
    unfold namesKind
    rw [relabelled.words.unchanged code]
  funext place
  unfold labelAt isLabel
  rw [relabelled.start, same]

theorem labels_twin (relabelled : Relabelled phi line twin) : labels twin = (labels line).map phi := by
  unfold labels
  rw [relabelled.label_at, relabelled.words.length, List.map_filterMap]
  refine List.filterMap_congr fun place member => ?_
  exact relabelled.words.word_at (List.mem_filter.mp member).2

theorem symm {psi : Nat → Nat} (relabelled : Relabelled phi line twin)
    (undone : ∀ label ∈ labels line, psi (phi label) = label) : Relabelled psi twin line := by
  refine ⟨relabelled.start.symm, ?_, relabelled.rest.symm, fun other => ?_⟩
  · rw [relabelled.label_at]
    refine .of_places relabelled.words.length.symm fun {place twin word} there here => ?_
    obtain ⟨other, thereToo, respells⟩ := relabelled.words.at_place here
    cases there.symm.trans thereToo
    refine respells.symm fun label number read => undone number (mem_labels.mpr ⟨place, label, ?_⟩)
    rw [here, Option.bind_some, read]
  · rw [relabelled.start] at other
    exact (relabelled.other other).symm

end Relabelled

section Lines
variable {phi : Nat → Nat} {lines twins : List Word}

theorem labels_of_twins (each : List.Forall₂ (Relabelled phi) lines twins) :
    twins.flatMap labels = (lines.flatMap labels).map phi := by
  induction each with
  | nil => rfl
  | cons here _ ih => rw [List.flatMap_cons, List.flatMap_cons, List.map_append, ih, here.labels_twin]

theorem relabelled_back {psi : Nat → Nat} (each : List.Forall₂ (Relabelled phi) lines twins)
    (undone : ∀ label ∈ lines.flatMap labels, psi (phi label) = label) :
    List.Forall₂ (Relabelled psi) twins lines := by
  induction each with
  | nil => exact .nil
  | cons here _ ih =>
      rw [List.flatMap_cons] at undone
      exact .cons (here.symm fun label member => undone label (List.mem_append_left _ member))
        (ih fun label member => undone label (List.mem_append_right _ member))

end Lines

/-! ### Signatures -/

section Parsed
variable {phi : Nat → Nat} {labels : List Nat}

theorem basic_code_iff {number : Nat} {code : TypeCode} (found : TypeCode.ofCode? number = some code) :
    number = TypeCode.basic.code ↔ code = .basic := by
  have once : TypeCode.all.Nodup := by decide
  have same : TypeCode.all[TypeCode.basic.code]? = some .basic := rfl
  constructor
  · rintro rfl
    exact Option.some.inj (found.symm.trans same)
  · rintro rfl
    exact (List.getElem?_inj (List.getElem?_eq_some_iff.mp found).1 once).mp (found.trans same.symm)

theorem require_label {fault : Fault} {number label : Nat} (relabelling : Relabelling phi labels)
    (known : number ∈ labels) (done : require fault (label? number) = .ok label) :
    require fault (label? (phi number)) = .ok (phi label) ∧ label ∈ labels := by
  have found := require_ok done
  rw [relabelling.label_of known, found, (label_some found).2]
  exact ⟨rfl, known⟩

theorem parse_signature_relabelled {code : TypeCode} {words twins : List Word} {signature : Signature}
    (relabelling : Relabelling phi labels) (kind : code = .basic → twins[0]? = words[0]?)
    (parameter : code ≠ .basic → ∀ {place : Nat} {value : Nat}, number .typeParameter words[place]? = .ok value →
      value ∈ labels ∧ number .typeParameter twins[place]? = .ok (phi value))
    (done : parseSignature code words = .ok signature) :
    parseSignature code twins = .ok (signature.map phi) ∧ signature.references ⊆ labels := by
  have optional : ∀ {number : Nat}, number ∈ labels → (label? number).toList ⊆ labels := by
    intro number known label member
    rw [(label_some (Option.mem_toList.mp member)).2]
    exact known
  cases code with
  | basic =>
      obtain ⟨number, read, done⟩ := Outcome.bind_ok done
      obtain ⟨found, required, done⟩ := Outcome.bind_ok done
      cases done
      rw [← kind rfl] at read
      refine ⟨(Outcome.bind_of_ok read).trans ?_, List.nil_subset _⟩
      exact Outcome.bind_of_ok required
  | function =>
      obtain ⟨arguments, read, done⟩ := Outcome.bind_ok done
      obtain ⟨results, readToo, done⟩ := Outcome.bind_ok done
      obtain ⟨found, required, done⟩ := Outcome.bind_ok done
      cases done
      obtain ⟨known, there⟩ := parameter (by decide) read
      obtain ⟨knownToo, thereToo⟩ := parameter (by decide) readToo
      obtain ⟨again, inside⟩ := require_label relabelling knownToo required
      refine ⟨(Outcome.bind_of_ok there).trans ((Outcome.bind_of_ok thereToo).trans
        ((Outcome.bind_of_ok again).trans ?_)), List.append_subset.mpr ⟨optional known, ?_⟩⟩
      · rw [relabelling.label_of known]
        rfl
      · exact List.cons_subset.mpr ⟨inside, List.nil_subset _⟩
  | field | tag | tuple =>
      obtain ⟨element, read, done⟩ := Outcome.bind_ok done
      obtain ⟨rest, readToo, done⟩ := Outcome.bind_ok done
      obtain ⟨found, required, done⟩ := Outcome.bind_ok done
      cases done
      obtain ⟨known, there⟩ := parameter (by decide) read
      obtain ⟨knownToo, thereToo⟩ := parameter (by decide) readToo
      obtain ⟨again, inside⟩ := require_label relabelling known required
      refine ⟨(Outcome.bind_of_ok there).trans ((Outcome.bind_of_ok thereToo).trans
        ((Outcome.bind_of_ok again).trans ?_)), List.append_subset.mpr ⟨?_, optional knownToo⟩⟩
      · rw [relabelling.label_of knownToo]
        rfl
      · exact List.cons_subset.mpr ⟨inside, List.nil_subset _⟩
  | array | multiple | record | stream | union =>
      obtain ⟨base, read, done⟩ := Outcome.bind_ok done
      obtain ⟨found, required, done⟩ := Outcome.bind_ok done
      cases done
      obtain ⟨known, there⟩ := parameter (by decide) read
      obtain ⟨again, inside⟩ := require_label relabelling known required
      refine ⟨(Outcome.bind_of_ok there).trans ((Outcome.bind_of_ok again).trans rfl),
        List.append_subset.mpr ⟨?_, List.nil_subset _⟩⟩
      exact List.cons_subset.mpr ⟨inside, List.nil_subset _⟩
  | wild =>
      cases done
      exact ⟨rfl, List.nil_subset _⟩

end Parsed

/-! ### Rows of a line -/

-- Words that follow the first word of a line, and those that stand for them.
structure Row (phi : Nat → Nat) (line : Word) (words twins : List Word) : Prop where
  respelled : Respelled phi (fun place => labelAt line (1 + place)) words twins
  given : ∀ {place : Nat} {word : Word}, words[place]? = some word → (placed line)[1 + place]? = some word

namespace Row
variable {phi : Nat → Nat} {line : Word} {words twins : List Word} {place value : Nat} {field : Field}

theorem read (row : Row phi line words twins) (done : number field words[place]? = .ok value) :
    (placed line)[1 + place]?.bind Text.word? = some value := by
  obtain ⟨word, here, number⟩ := Option.bind_eq_some_iff.mp (number_ok_iff.mp done)
  rw [row.given here]
  exact number

theorem label (row : Row phi line words twins) (label : labelAt line (1 + place) = true)
    (done : number field words[place]? = .ok value) :
    value ∈ labels line ∧ number field twins[place]? = .ok (phi value) :=
  ⟨mem_labels.mpr ⟨_, label, row.read done⟩, row.respelled.number label done⟩

theorem other (row : Row phi line words twins) (other : labelAt line (1 + place) = false)
    (done : number field words[place]? = .ok value) : number field twins[place]? = .ok value := by
  rw [row.respelled.unchanged other]
  exact done

end Row

theorem Relabelled.row {phi : Nat → Nat} {line twin : Word} (relabelled : Relabelled phi line twin) :
    Row phi line ((placed line).drop 1) ((placed twin).drop 1) := by
  refine ⟨relabelled.words.drop 1, fun {place word} found => ?_⟩
  rw [List.getElem?_drop] at found
  exact found

theorem Relabelled.fields {phi : Nat → Nat} {line twin : Word} {found : List Word} {pragmas : Pragmas}
    (relabelled : Relabelled phi line twin) (plain : hasQuotes line = false)
    (done : fields ((Text.words line).drop 1) = .ok (found, pragmas)) :
    ∃ twins, fields ((Text.words twin).drop 1) = .ok (twins, pragmas) ∧ Row phi line found twins := by
  have shown := placed_of_unquoted plain
  have shownToo := placed_of_unquoted (relabelled.has_quotes.trans plain)
  rw [← shown] at done
  obtain ⟨count, rfl, there⟩ := relabelled.row.respelled.fields done
  refine ⟨((placed twin).drop 1).take count, ?_, relabelled.row.respelled.take count, fun {place word} found => ?_⟩
  · rw [← shownToo]
    exact there
  · rw [List.getElem?_take] at found
    split at found
    · exact relabelled.row.given found
    · cases found

/-! ### Records -/

section Records
variable {phi : Nat → Nat} {line twin : Word}

def relabel (phi : Nat → Nat) (record : TypeRecord) : TypeRecord :=
  { record with label := phi record.label, signature := record.signature.map phi }

theorem parse_type_relabelled {record : TypeRecord} (relabelled : Relabelled phi line twin)
    (relabelling : Relabelling phi (labels line)) (start : head line = ['T']) (done : parseType line = .ok record) :
    parseType twin = .ok (relabel phi record) ∧ record.label ∈ labels line ∧
      record.signature.references ⊆ labels line := by
  have shown : ∀ place, labelAt line place = (place = 1 || (3 ≤ place && !namesKind (placed line))) :=
    label_at_of_head start
  obtain ⟨⟨fields, pragmas⟩, read, done⟩ := Outcome.bind_ok done
  obtain ⟨label, number, done⟩ := Outcome.bind_ok done
  obtain ⟨found, required, done⟩ := Outcome.bind_ok done
  obtain ⟨code, coded, done⟩ := Outcome.bind_ok done
  obtain ⟨known, requiredCode, done⟩ := Outcome.bind_ok done
  obtain ⟨counted, done⟩ := Outcome.guard_ok done
  obtain ⟨signature, parsed, done⟩ := Outcome.bind_ok done
  cases done
  obtain ⟨twins, readToo, row⟩ := relabelled.fields (has_quotes_of_head start) read
  obtain ⟨first, numberToo⟩ := row.label (shown 1) number
  obtain ⟨requiredToo, labelled⟩ := require_label relabelling first required
  have codedToo := row.other (shown 2) coded
  have scalar : namesKind (placed line) = true ↔ known = .basic := by
    unfold namesKind
    rw [row.read coded, ← basic_code_iff (require_ok requiredCode)]
    simp
  have kind : known = .basic → (twins.drop 2)[0]? = (fields.drop 2)[0]? := by
    intro basic
    rw [List.getElem?_drop, List.getElem?_drop]
    refine row.respelled.unchanged ((shown 3).trans ?_)
    rw [scalar.mpr basic]
    rfl
  have parameter : known ≠ .basic → ∀ {place value : Nat}, Record.number .typeParameter (fields.drop 2)[place]? = .ok value →
      value ∈ labels line ∧ Record.number .typeParameter (twins.drop 2)[place]? = .ok (phi value) := by
    intro other place value done
    rw [List.getElem?_drop] at done ⊢
    refine row.label ?_ done
    rw [shown, Bool.eq_false_iff.mpr (mt scalar.mp other), decide_eq_true (show 3 ≤ 1 + (2 + place) by omega)]
    simp
  obtain ⟨parsedToo, parts⟩ := parse_signature_relabelled relabelling kind parameter parsed
  refine ⟨?_, labelled, parts⟩
  unfold parseType
  rw [Outcome.bind_of_ok readToo]
  dsimp only
  rw [Outcome.bind_of_ok numberToo, Outcome.bind_of_ok requiredToo, Outcome.bind_of_ok codedToo,
    Outcome.bind_of_ok requiredCode, row.respelled.length, guard_passes counted, Outcome.bind_of_ok parsedToo]
  rfl

theorem parse_edge_relabelled {record : EdgeRecord} (relabelled : Relabelled phi line twin)
    (start : head line = ['E']) (done : parseEdge line = .ok record) :
    parseEdge twin = .ok { record with type := phi record.type } ∧ record.type ∈ labels line := by
  have shown : ∀ place, labelAt line place = decide (place = 5) := label_at_of_head start
  obtain ⟨⟨fields, pragmas⟩, read, done⟩ := Outcome.bind_ok done
  obtain ⟨counted, done⟩ := Outcome.guard_ok done
  obtain ⟨source, first, done⟩ := Outcome.bind_ok done
  obtain ⟨sourcePort, second, done⟩ := Outcome.bind_ok done
  obtain ⟨target, third, done⟩ := Outcome.bind_ok done
  obtain ⟨targetPort, fourth, done⟩ := Outcome.bind_ok done
  obtain ⟨type, fifth, done⟩ := Outcome.bind_ok done
  cases done
  obtain ⟨twins, readToo, row⟩ := relabelled.fields (has_quotes_of_head start) read
  obtain ⟨member, typed⟩ := row.label (shown 5) fifth
  refine ⟨?_, member⟩
  unfold parseEdge
  rw [Outcome.bind_of_ok readToo]
  dsimp only
  rw [row.respelled.length, guard_passes counted, Outcome.bind_of_ok (row.other (shown 1) first),
    Outcome.bind_of_ok (row.other (shown 2) second), Outcome.bind_of_ok (row.other (shown 3) third),
    Outcome.bind_of_ok (row.other (shown 4) fourth), Outcome.bind_of_ok typed]
  rfl

theorem split_first_eq (separator : Char) (text : Word) : splitFirst separator text =
    match text.dropWhile (· ≠ separator) with
    | [] => none
    | _ :: after => some (text.takeWhile (· ≠ separator), after) := by
  unfold splitFirst
  rw [List.span_eq_takeWhile_dropWhile]
  cases text.dropWhile (· ≠ separator) <;> rfl

-- Quotes are found alike where the lines agree from the first quote on.
theorem split_quoted_relabelled {before text after : Word} (relabelled : Relabelled phi line twin)
    (quoted : hasQuotes line = true) (done : splitQuoted line = some (before, text, after)) :
    before = front line ∧ splitQuoted twin = some (front twin, text, after) := by
  have quotedToo : hasQuotes twin = true := relabelled.has_quotes.trans quoted
  have rest := relabelled.rest
  unfold back at rest
  rw [quoted, quotedToo, if_pos rfl, if_pos rfl] at rest
  unfold front
  rw [quoted, quotedToo, if_pos rfl, if_pos rfl]
  unfold splitQuoted at done ⊢
  rw [split_first_eq] at done ⊢
  rw [rest]
  cases tail : line.dropWhile (· ≠ '"') with
  | nil =>
      rw [tail] at done
      cases done
  | cons c others =>
      rw [tail] at done
      simp only [Option.bind_eq_bind, Option.bind_some] at done ⊢
      obtain ⟨⟨last, body⟩, cut, found⟩ := Option.bind_eq_some_iff.mp done
      cases found
      rw [cut]
      exact ⟨rfl, rfl⟩

theorem parse_function_relabelled {record : FunctionRecord} (relabelled : Relabelled phi line twin)
    (start : head line = ['X']) (done : parseFunction line = .ok record) :
    parseFunction twin = .ok { record with type := phi record.type } ∧ record.type ∈ labels line := by
  obtain ⟨⟨before, name, after⟩, split, done⟩ := Outcome.bind_ok done
  obtain ⟨⟨fields, pragmas⟩, read, done⟩ := Outcome.bind_ok done
  obtain ⟨type, number, done⟩ := Outcome.bind_ok done
  cases done
  obtain ⟨rfl, there⟩ := split_quoted_relabelled relabelled (has_quotes_of_head start) (require_ok split)
  obtain ⟨member, typed⟩ := relabelled.row.label (label_at_of_head start 1) number
  refine ⟨?_, member⟩
  unfold parseFunction
  rw [there]
  refine (require_bind _ _ _).trans ?_
  exact (Outcome.bind_of_ok read).trans (Outcome.bind_of_ok typed)

theorem parse_literal_relabelled {record : LiteralRecord} (relabelled : Relabelled phi line twin)
    (start : head line = ['L']) (done : parseLiteral line = .ok record) :
    parseLiteral twin = .ok { record with type := phi record.type } ∧ record.type ∈ labels line := by
  have shown : ∀ place, labelAt line place = decide (place = 3) := label_at_of_head start
  obtain ⟨⟨before, text, after⟩, split, done⟩ := Outcome.bind_ok done
  obtain ⟨counted, done⟩ := Outcome.guard_ok done
  obtain ⟨⟨fields, pragmas⟩, read, done⟩ := Outcome.bind_ok done
  obtain ⟨target, first, done⟩ := Outcome.bind_ok done
  obtain ⟨targetPort, second, done⟩ := Outcome.bind_ok done
  obtain ⟨type, third, done⟩ := Outcome.bind_ok done
  cases done
  obtain ⟨rfl, there⟩ := split_quoted_relabelled relabelled (has_quotes_of_head start) (require_ok split)
  have row := relabelled.row
  obtain ⟨member, typed⟩ := row.label (shown 3) third
  have length : ¬ ((placed twin).drop 1).length ≠ 3 := by
    rw [row.respelled.length]
    exact counted
  refine ⟨?_, member⟩
  unfold parseLiteral
  rw [there]
  refine (require_bind _ _ _).trans ?_
  refine (guard_passes length).trans ?_
  refine (Outcome.bind_of_ok read).trans ?_
  refine (Outcome.bind_of_ok (row.other (shown 1) first)).trans ?_
  refine (Outcome.bind_of_ok (row.other (shown 2) second)).trans ?_
  exact Outcome.bind_of_ok typed

end Records

end Dataflow.Record
