import Dataflow.Literal.Kind
set_option autoImplicit false

-- The grammar of literals, and what may follow each state of the automaton. The automaton accepts exactly the
-- texts of the grammar, so a text has at most one kind.
namespace Dataflow.Literal

/-! ### The grammar -/

def Digits (text : List Char) : Prop :=
  ∀ c ∈ text, c.isDigit = true

def Numeral (text : List Char) : Prop :=
  text ≠ [] ∧ Digits text

def Sign (text : List Char) : Prop :=
  text = [] ∨ text = ['+'] ∨ text = ['-']

inductive Marks : Char → LiteralKind → Prop
  | real {mark : Char} (letter : mark = 'e' ∨ mark = 'E') : Marks mark .real
  | double {mark : Char} (letter : mark = 'd' ∨ mark = 'D') : Marks mark .doubleReal

-- A sign has to be followed by a digit.
inductive Exponent : List Char → Prop
  | empty : Exponent []
  | digits {sign digits : List Char} (signed : Sign sign) (numeral : Numeral digits) : Exponent (sign ++ digits)

inductive Scaled (kind : LiteralKind) : List Char → Prop
  | mark {mark : Char} {exponent : List Char} (marks : Marks mark kind) (scale : Exponent exponent) :
      Scaled kind (mark :: exponent)

-- What stands behind the digits that a number begins with.
inductive Ending : LiteralKind → List Char → Prop
  | whole : Ending .integer []
  | decimal {digits : List Char} (fraction : Digits digits) : Ending .real ('.' :: digits)
  | scaled {kind : LiteralKind} {scale : List Char} (scaled : Scaled kind scale) : Ending kind scale
  | decimalScaled {kind : LiteralKind} {digits scale : List Char} (fraction : Digits digits)
      (scaled : Scaled kind scale) : Ending kind ('.' :: (digits ++ scale))

-- Any printable character may follow a backslash.
inductive Single : List Char → Prop
  | plain {c : Char} (visible : isPrintable c = true) (noQuote : c ≠ '\'') (noEscape : c ≠ '\\') : Single [c]
  | escaped {c : Char} (visible : isPrintable c = true) : Single ['\\', c]

inductive Body : List Char → Prop
  | empty : Body []
  | plain {c : Char} {rest : List Char} (visible : isPrintable c = true) (noQuote : c ≠ '"') (noEscape : c ≠ '\\')
      (body : Body rest) : Body (c :: rest)
  | escaped {c : Char} {rest : List Char} (visible : isPrintable c = true) (body : Body rest) : Body ('\\' :: c :: rest)

inductive Spells : LiteralKind → List Char → Prop
  | boolean {text : List Char} (word : text.map Char.toLower = ['t', 'r', 'u', 'e'] ∨
      text.map Char.toLower = ['f', 'a', 'l', 's', 'e']) : Spells .boolean text
  | null {text : List Char} (word : text.map Char.toLower = ['n', 'i', 'l']) : Spells .null text
  | number {kind : LiteralKind} {sign digits ending : List Char} (signed : Sign sign) (numeral : Numeral digits)
      (ends : Ending kind ending) : Spells kind (sign ++ (digits ++ ending))
  | character {body : List Char} (single : Single body) : Spells .character ('\'' :: (body ++ ['\'']))
  | string {body : List Char} (escaped : Body body) : Spells .string ('"' :: (body ++ ['"']))

/-! ### Characters -/

theorem val_lower (c : Char) :
    c.toLower.val = if 'A'.val ≤ c.val ∧ c.val ≤ 'Z'.val then c.val + ('a'.val - 'A'.val) else c.val := by
  delta Char.toLower
  split <;> rfl

theorem lower_e (c : Char) : c.toLower = 'e' ↔ c = 'e' ∨ c = 'E' := by
  simp only [Char.ext_iff, val_lower]
  grind

theorem lower_d (c : Char) : c.toLower = 'd' ↔ c = 'd' ∨ c = 'D' := by
  simp only [Char.ext_iff, val_lower]
  grind

theorem lower_digit {c : Char} (digit : c.isDigit = true) : c.toLower = c := by
  simp only [Char.isDigit, Bool.and_eq_true, decide_eq_true_eq] at digit
  simp only [Char.ext_iff, val_lower]
  grind

theorem mark_kind_iff {c : Char} {kind : LiteralKind} : markKind? c = some kind ↔ Marks c kind := by
  constructor
  · intro found
    by_cases real : c.toLower = 'e'
    · simp only [markKind?, if_pos real, Option.some.injEq] at found
      rw [← found]
      exact .real ((lower_e c).mp real)
    · by_cases double : c.toLower = 'd'
      · simp only [markKind?, if_neg real, if_pos double, Option.some.injEq] at found
        rw [← found]
        exact .double ((lower_d c).mp double)
      · simp [markKind?, real, double] at found
  · intro marks
    cases marks with
    | real letter => rcases letter with rfl | rfl <;> rfl
    | double letter => rcases letter with rfl | rfl <;> rfl

theorem mark_kind_digit {c : Char} (digit : c.isDigit = true) : markKind? c = none := by
  have same := lower_digit digit
  have notReal : c ≠ 'e' := by rintro rfl; cases digit
  have notDouble : c ≠ 'd' := by rintro rfl; cases digit
  simp [markKind?, same, notReal, notDouble]

/-! ### Digits and what follows them -/

section Digits
variable {tail : List Char → Prop} {c : Char} {text : List Char}

def Behind (tail : List Char → Prop) (text : List Char) : Prop :=
  ∃ digits rest, text = digits ++ rest ∧ Digits digits ∧ tail rest

theorem digits_nil : Digits [] := by simp [Digits]

theorem digits_cons : Digits (c :: text) ↔ c.isDigit = true ∧ Digits text := by
  simp [Digits]

theorem behind_nil : Behind tail [] ↔ tail [] := by
  constructor
  · rintro ⟨digits, rest, same, _, holds⟩
    obtain ⟨_, rfl⟩ := List.append_eq_nil_iff.mp same.symm
    exact holds
  · exact fun holds => ⟨[], [], rfl, digits_nil, holds⟩

theorem behind_cons : Behind tail (c :: text) ↔ c.isDigit = true ∧ Behind tail text ∨ tail (c :: text) := by
  constructor
  · rintro ⟨digits, rest, same, all, holds⟩
    cases digits with
    | nil =>
        rw [List.nil_append] at same
        exact .inr (same ▸ holds)
    | cons first digits =>
        cases same
        obtain ⟨digit, all⟩ := digits_cons.mp all
        exact .inl ⟨digit, digits, rest, rfl, all, holds⟩
  · rintro (⟨digit, digits, rest, rfl, all, holds⟩ | holds)
    · exact ⟨c :: digits, rest, rfl, digits_cons.mpr ⟨digit, all⟩, holds⟩
    · exact ⟨[], c :: text, rfl, digits_nil, holds⟩

def Counted (tail : List Char → Prop) (text : List Char) : Prop :=
  ∃ digits rest, text = digits ++ rest ∧ Numeral digits ∧ tail rest

theorem counted_nil : ¬ Counted tail [] := by
  rintro ⟨digits, rest, same, numeral, _⟩
  exact numeral.1 (List.append_eq_nil_iff.mp same.symm).1

theorem counted_cons : Counted tail (c :: text) ↔ c.isDigit = true ∧ Behind tail text := by
  constructor
  · rintro ⟨digits, rest, same, numeral, holds⟩
    cases digits with
    | nil => exact absurd rfl numeral.1
    | cons first digits =>
        cases same
        obtain ⟨digit, all⟩ := digits_cons.mp numeral.2
        exact ⟨digit, digits, rest, rfl, all, holds⟩
  · rintro ⟨digit, digits, rest, rfl, all, holds⟩
    exact ⟨c :: digits, rest, rfl, ⟨List.cons_ne_nil _ _, digits_cons.mpr ⟨digit, all⟩⟩, holds⟩

theorem numeral_nil : ¬ Numeral [] := fun numeral => numeral.1 rfl

theorem numeral_cons : Numeral (c :: text) ↔ c.isDigit = true ∧ Digits text := by
  simp [Numeral, digits_cons]

end Digits

theorem exponent_cons {c : Char} {text : List Char} :
    Exponent (c :: text) ↔ isSign c = true ∧ Numeral text ∨ c.isDigit = true ∧ Digits text := by
  constructor
  · intro exponent
    generalize same : c :: text = whole at exponent
    cases exponent with
    | empty => cases same
    | digits signed numeral =>
        rcases signed with rfl | rfl | rfl
        · rw [List.nil_append] at same
          subst same
          exact .inr (numeral_cons.mp numeral)
        · cases same
          exact .inl ⟨rfl, numeral⟩
        · cases same
          exact .inl ⟨rfl, numeral⟩
  · rintro (⟨sign, numeral⟩ | ⟨digit, digits⟩)
    · simp only [isSign, Bool.or_eq_true, decide_eq_true_eq] at sign
      rcases sign with rfl | rfl
      · exact .digits (.inr (.inl rfl)) numeral
      · exact .digits (.inr (.inr rfl)) numeral
    · exact .digits (.inl rfl) (numeral_cons.mpr ⟨digit, digits⟩)

theorem scaled_nil {kind : LiteralKind} : ¬ Scaled kind [] := by
  rintro ⟨⟩

theorem scaled_cons {kind : LiteralKind} {c : Char} {text : List Char} :
    Scaled kind (c :: text) ↔ markKind? c = some kind ∧ Exponent text := by
  rw [mark_kind_iff]
  exact ⟨fun ⟨marks, exponent⟩ => ⟨marks, exponent⟩, fun ⟨marks, exponent⟩ => .mark marks exponent⟩

-- What may stand behind a point and its digits.
def Trailing (kind : LiteralKind) (text : List Char) : Prop :=
  kind = .real ∧ text = [] ∨ Scaled kind text

theorem ending_nil {kind : LiteralKind} : Ending kind [] ↔ kind = .integer := by
  constructor
  · intro ending
    cases ending with
    | whole => rfl
    | scaled scaled => exact absurd scaled scaled_nil
  · rintro rfl
    exact .whole

theorem ending_cons {kind : LiteralKind} {c : Char} {text : List Char} :
    Ending kind (c :: text) ↔ c = '.' ∧ Behind (Trailing kind) text ∨ Scaled kind (c :: text) := by
  constructor
  · intro ending
    cases ending with
    | decimal fraction => exact .inl ⟨rfl, text, [], by simp, fraction, .inl ⟨rfl, rfl⟩⟩
    | scaled scaled => exact .inr scaled
    | decimalScaled fraction scaled => exact .inl ⟨rfl, _, _, rfl, fraction, .inr scaled⟩
  · rintro (⟨rfl, digits, rest, rfl, fraction, ⟨rfl, rfl⟩ | scaled⟩ | scaled)
    · rw [List.append_nil]
      exact .decimal fraction
    · exact .decimalScaled fraction scaled
    · exact .scaled scaled

/-! ### What may follow a state -/

def Follows : State → LiteralKind → List Char → Prop
  | .start, kind, text => Spells kind text
  | .sign, kind, text => Counted (Ending kind) text
  | .word letters word, kind, text => kind = word ∧ text.map Char.toLower = letters
  | .integer, kind, text => Behind (Ending kind) text
  | .fraction, kind, text => Behind (Trailing kind) text
  | .mark marked, kind, text => kind = marked ∧ Exponent text
  | .markSign marked, kind, text => kind = marked ∧ Numeral text
  | .exponent marked, kind, text => kind = marked ∧ Digits text
  | .characterOpen, kind, text => kind = .character ∧ ∃ body, Single body ∧ text = body ++ ['\'']
  | .characterEscape, kind, text => kind = .character ∧ ∃ c, isPrintable c = true ∧ text = [c, '\'']
  | .characterEnd, kind, text => kind = .character ∧ text = ['\'']
  | .stringBody, kind, text => kind = .string ∧ ∃ body, Body body ∧ text = body ++ ['"']
  | .stringEscape, kind, text => kind = .string ∧ ∃ body, Body ('\\' :: body) ∧ text = body ++ ['"']
  | .closed closed, kind, text => kind = closed ∧ text = []

theorem spells_nil (kind : LiteralKind) : ¬ Spells kind [] := by
  intro spelled
  generalize same : ([] : List Char) = text at spelled
  cases spelled with
  | boolean word =>
      subst same
      simp at word
  | null word =>
      subst same
      simp at word
  | number signed numeral ends =>
      obtain ⟨rfl, rest⟩ := List.append_eq_nil_iff.mp same.symm
      exact numeral.1 (List.append_eq_nil_iff.mp rest).1
  | character | string => cases same

theorem step_digit {c : Char} (digit : c.isDigit = true) : step .start c = some .integer := by
  have same := lower_digit digit
  have others : c ≠ 't' ∧ c ≠ 'f' ∧ c ≠ 'n' ∧ c ≠ '+' ∧ c ≠ '-' := by
    refine ⟨?_, ?_, ?_, ?_, ?_⟩ <;> (rintro rfl; cases digit)
  simp [step, same, others, isSign, digit]

theorem number_cons {kind : LiteralKind} {sign digits ending text : List Char} {c : Char}
    (signed : Sign sign) (numeral : Numeral digits) (ends : Ending kind ending)
    (same : c :: text = sign ++ (digits ++ ending)) :
    ∃ next, step .start c = some next ∧ Follows next kind text := by
  rcases signed with rfl | rfl | rfl
  · have counted : Counted (Ending kind) (c :: text) := ⟨digits, ending, same, numeral, ends⟩
    obtain ⟨digit, behind⟩ := counted_cons.mp counted
    exact ⟨.integer, step_digit digit, behind⟩
  · cases same
    exact ⟨.sign, rfl, digits, ending, rfl, numeral, ends⟩
  · cases same
    exact ⟨.sign, rfl, digits, ending, rfl, numeral, ends⟩

theorem spells_next {kind : LiteralKind} {c : Char} {text : List Char} (spelled : Spells kind (c :: text)) :
    ∃ next, step .start c = some next ∧ Follows next kind text := by
  generalize same : c :: text = whole at spelled
  cases spelled with
  | boolean word =>
      subst same
      rcases word with word | word
      · obtain ⟨first, rest⟩ := List.cons.inj word
        exact ⟨.word ['r', 'u', 'e'] .boolean, by simp [step, first], rfl, rest⟩
      · obtain ⟨first, rest⟩ := List.cons.inj word
        exact ⟨.word ['a', 'l', 's', 'e'] .boolean, by simp [step, first], rfl, rest⟩
  | null word =>
      subst same
      obtain ⟨first, rest⟩ := List.cons.inj word
      exact ⟨.word ['i', 'l'] .null, by simp [step, first], rfl, rest⟩
  | number signed numeral ends => exact number_cons signed numeral ends same
  | character single =>
      cases same
      exact ⟨.characterOpen, rfl, rfl, _, single, rfl⟩
  | string escaped =>
      cases same
      exact ⟨.stringBody, rfl, rfl, _, escaped, rfl⟩

theorem spells_of_next {kind : LiteralKind} {c : Char} {text : List Char} {next : State}
    (stepped : step .start c = some next) (follows : Follows next kind text) : Spells kind (c :: text) := by
  simp only [step] at stepped
  split at stepped
  · rename_i first
    cases stepped
    obtain ⟨rfl, rest⟩ := follows
    exact .boolean (.inl (by rw [List.map_cons, first, rest]))
  split at stepped
  · rename_i first
    cases stepped
    obtain ⟨rfl, rest⟩ := follows
    exact .boolean (.inr (by rw [List.map_cons, first, rest]))
  split at stepped
  · rename_i first
    cases stepped
    obtain ⟨rfl, rest⟩ := follows
    exact .null (by rw [List.map_cons, first, rest])
  split at stepped
  · rename_i sign
    cases stepped
    obtain ⟨digits, ending, rfl, numeral, ends⟩ := follows
    simp only [isSign, Bool.or_eq_true, decide_eq_true_eq] at sign
    rcases sign with rfl | rfl
    · exact .number (.inr (.inl rfl)) numeral ends
    · exact .number (.inr (.inr rfl)) numeral ends
  split at stepped
  · rename_i digit
    cases stepped
    obtain ⟨digits, ending, same, numeral, ends⟩ := counted_cons.mpr ⟨digit, follows⟩
    rw [same]
    exact .number (.inl rfl) numeral ends
  split at stepped
  · rename_i same
    cases stepped
    obtain ⟨rfl, body, single, rfl⟩ := follows
    rw [same]
    exact .character single
  split at stepped
  · rename_i same
    cases stepped
    obtain ⟨rfl, body, escaped, rfl⟩ := follows
    rw [same]
    exact .string escaped
  · cases stepped

/-! ### Quoted texts -/

section Quoted
variable {kind : LiteralKind} {c : Char} {text : List Char}

theorem single_cons : (∃ body, Single body ∧ c :: text = body ++ ['\'']) ↔
    c = '\\' ∧ (∃ escaped, isPrintable escaped = true ∧ text = [escaped, '\'']) ∨
      c ≠ '\\' ∧ c ≠ '\'' ∧ isPrintable c = true ∧ text = ['\''] := by
  constructor
  · rintro ⟨body, single, same⟩
    cases single with
    | plain visible noQuote noEscape =>
        cases same
        exact .inr ⟨noEscape, noQuote, visible, rfl⟩
    | escaped visible =>
        cases same
        exact .inl ⟨rfl, _, visible, rfl⟩
  · rintro (⟨rfl, escaped, visible, rfl⟩ | ⟨noEscape, noQuote, visible, rfl⟩)
    · exact ⟨_, .escaped visible, rfl⟩
    · exact ⟨_, .plain visible noQuote noEscape, rfl⟩

theorem escaped_cons : (∃ escaped, isPrintable escaped = true ∧ c :: text = [escaped, '\'']) ↔
    isPrintable c = true ∧ text = ['\''] := by
  constructor
  · rintro ⟨escaped, visible, same⟩
    cases same
    exact ⟨visible, rfl⟩
  · rintro ⟨visible, rfl⟩
    exact ⟨c, visible, rfl⟩

theorem body_cons : (∃ body, Body body ∧ c :: text = body ++ ['"']) ↔
    c = '\\' ∧ (∃ body, Body ('\\' :: body) ∧ text = body ++ ['"']) ∨
      c = '"' ∧ text = [] ∨
        c ≠ '\\' ∧ c ≠ '"' ∧ isPrintable c = true ∧ ∃ body, Body body ∧ text = body ++ ['"'] := by
  constructor
  · rintro ⟨body, escaped, same⟩
    cases escaped with
    | empty =>
        cases same
        exact .inr (.inl ⟨rfl, rfl⟩)
    | plain visible noQuote noEscape body =>
        cases same
        exact .inr (.inr ⟨noEscape, noQuote, visible, _, body, rfl⟩)
    | escaped visible body =>
        cases same
        exact .inl ⟨rfl, _, .escaped visible body, rfl⟩
  · rintro (⟨rfl, body, escaped, rfl⟩ | ⟨rfl, rfl⟩ | ⟨noEscape, noQuote, visible, body, escaped, rfl⟩)
    · exact ⟨_, escaped, rfl⟩
    · exact ⟨[], .empty, rfl⟩
    · exact ⟨_, .plain visible noQuote noEscape escaped, rfl⟩

theorem escape_cons : (∃ body, Body ('\\' :: body) ∧ c :: text = body ++ ['"']) ↔
    isPrintable c = true ∧ ∃ body, Body body ∧ text = body ++ ['"'] := by
  constructor
  · rintro ⟨body, escaped, same⟩
    cases escaped with
    | plain _ _ noEscape _ => exact absurd rfl noEscape
    | escaped visible body =>
        cases same
        exact ⟨visible, _, body, rfl⟩
  · rintro ⟨visible, body, escaped, rfl⟩
    exact ⟨_, .escaped visible escaped, rfl⟩

end Quoted

/-! ### The automaton -/

theorem follows_nil (state : State) (kind : LiteralKind) : Follows state kind [] ↔ accept? state = some kind := by
  cases state with
  | start => simp [Follows, spells_nil, accept?]
  | sign => simp [Follows, counted_nil, accept?]
  | word letters word => cases letters <;> simp [Follows, accept?, eq_comm]
  | integer => simp [Follows, behind_nil, ending_nil, accept?, eq_comm]
  | fraction => simp [Follows, behind_nil, Trailing, scaled_nil, accept?, eq_comm]
  | mark marked => simp [Follows, Exponent.empty, accept?, eq_comm]
  | markSign marked => simp [Follows, numeral_nil, accept?]
  | exponent marked => simp [Follows, digits_nil, accept?, eq_comm]
  | characterOpen | characterEscape | characterEnd | stringBody | stringEscape => simp [Follows, accept?]
  | closed closed => simp [Follows, accept?, eq_comm]

theorem follows_mark {kind : LiteralKind} {c : Char} {text : List Char} :
    (∃ next, (markKind? c).map State.mark = some next ∧ Follows next kind text) ↔
      markKind? c = some kind ∧ Exponent text := by
  cases markKind? c with
  | none => simp
  | some marked =>
      simp only [Option.map_some, Option.some.injEq, exists_eq_left', Follows]
      rw [eq_comm]

theorem follows_cons (state : State) (kind : LiteralKind) (c : Char) (text : List Char) :
    Follows state kind (c :: text) ↔ ∃ next, step state c = some next ∧ Follows next kind text := by
  cases state with
  | start => exact ⟨spells_next, fun ⟨_, stepped, follows⟩ => spells_of_next stepped follows⟩
  | sign => by_cases digit : c.isDigit = true <;> simp [Follows, step, counted_cons, digit]
  | word letters word =>
      cases letters with
      | nil => simp [Follows, step]
      | cons letter letters => by_cases same : c.toLower = letter <;> simp [Follows, step, same]
  | integer =>
      by_cases digit : c.isDigit = true
      · have notPoint : c ≠ '.' := by rintro rfl; cases digit
        simp [Follows, step, behind_cons, ending_cons, scaled_cons, mark_kind_digit, digit, notPoint]
      by_cases point : c = '.'
      · have noMark : markKind? '.' = none := rfl
        simp [Follows, step, behind_cons, ending_cons, scaled_cons, point, noMark]
      · simp only [step, digit, point, Bool.false_eq_true, ↓reduceIte, follows_mark]
        simp [Follows, behind_cons, ending_cons, scaled_cons, digit, point]
  | fraction =>
      by_cases digit : c.isDigit = true
      · simp [Follows, step, behind_cons, Trailing, scaled_cons, mark_kind_digit, digit]
      · simp only [step, digit, Bool.false_eq_true, ↓reduceIte, follows_mark]
        simp [Follows, behind_cons, Trailing, scaled_cons, digit]
  | mark marked =>
      by_cases sign : isSign c = true
      · have notDigit : c.isDigit = false := by
          simp only [isSign, Bool.or_eq_true, decide_eq_true_eq] at sign
          rcases sign with rfl | rfl <;> rfl
        simp [Follows, step, exponent_cons, sign, notDigit]
      · by_cases digit : c.isDigit = true <;> simp [Follows, step, exponent_cons, sign, digit]
  | markSign marked => by_cases digit : c.isDigit = true <;> simp [Follows, step, numeral_cons, digit]
  | exponent marked => by_cases digit : c.isDigit = true <;> simp [Follows, step, digits_cons, digit]
  | characterOpen =>
      by_cases escape : c = '\\'
      · simp [Follows, step, single_cons, escape]
      by_cases quote : c = '\''
      · simp [Follows, step, single_cons, quote]
      · by_cases visible : isPrintable c = true <;> simp [Follows, step, single_cons, escape, quote, visible]
  | characterEscape =>
      simp only [Follows, escaped_cons, step]
      by_cases visible : isPrintable c = true <;> simp [visible]
  | characterEnd => by_cases quote : c = '\'' <;> simp [Follows, step, quote]
  | stringBody =>
      by_cases escape : c = '\\'
      · simp [Follows, step, body_cons, escape]
      by_cases quote : c = '"'
      · simp [Follows, step, body_cons, quote]
      · by_cases visible : isPrintable c = true <;> simp [Follows, step, body_cons, escape, quote, visible]
  | stringEscape => by_cases visible : isPrintable c = true <;> simp [Follows, step, escape_cons, visible]
  | closed closed => simp [Follows, step]

theorem accepts_iff (state : State) (kind : LiteralKind) (text : List Char) :
    (text.foldlM step state).bind accept? = some kind ↔ Follows state kind text := by
  induction text generalizing state with
  | nil => exact (follows_nil state kind).symm
  | cons c rest ih =>
      rw [follows_cons, List.foldlM_cons]
      cases stepped : step state c with
      | none => simp
      | some next => simpa using ih next

theorem kind_iff {text : List Char} {kind : LiteralKind} : kind? text = some kind ↔ Spells kind text :=
  accepts_iff .start kind text

theorem classify_ok_iff {text : String} {kind : LiteralKind} : classify text = .ok kind ↔ Spells kind text.toList := by
  rw [← kind_iff]
  unfold classify
  cases kind? text.toList <;> simp

theorem classify_error_iff {text : String} {error : Error} :
    classify text = .error error ↔ error = .literalFormat text ∧ ∀ kind, ¬ Spells kind text.toList := by
  simp only [← kind_iff, classify]
  cases kind? text.toList <;> simp [eq_comm]

/-! ### Numbers -/

theorem printable_of_lower {c : Char} (visible : isPrintable c.toLower = true) : isPrintable c = true := by
  simp only [isPrintable, Bool.and_eq_true, decide_eq_true_eq, Char.le_def, val_lower] at visible ⊢
  grind

theorem printable_of_digit {c : Char} (digit : c.isDigit = true) : isPrintable c = true := by
  simp only [isPrintable, Char.isDigit, Bool.and_eq_true, decide_eq_true_eq, Char.le_def] at digit ⊢
  grind

theorem printable_of_word {text letters : List Char} (word : text.map Char.toLower = letters)
    (visible : ∀ c ∈ letters, isPrintable c = true) : ∀ c ∈ text, isPrintable c = true := by
  intro c member
  refine printable_of_lower (visible c.toLower ?_)
  rw [← word]
  exact List.mem_map_of_mem member

def Printable (text : List Char) : Prop :=
  ∀ c ∈ text, isPrintable c = true

theorem printable_append {first second : List Char} (here : Printable first) (later : Printable second) :
    Printable (first ++ second) :=
  List.forall_mem_append.mpr ⟨here, later⟩

theorem printable_cons {c : Char} {text : List Char} (here : isPrintable c = true) (later : Printable text) :
    Printable (c :: text) :=
  List.forall_mem_cons.mpr ⟨here, later⟩

theorem small_of_printable {c : Char} (visible : isPrintable c = true) : c.toNat ≤ 126 := by
  simp only [isPrintable, Bool.and_eq_true, decide_eq_true_eq] at visible
  exact visible.2

theorem printable_digits {text : List Char} (digits : Digits text) : Printable text :=
  fun c member => printable_of_digit (digits c member)

theorem printable_sign {text : List Char} (sign : Sign text) : Printable text := by
  rcases sign with rfl | rfl | rfl <;> simp [Printable, isPrintable]

theorem printable_scaled {kind : LiteralKind} {text : List Char} (scaled : Scaled kind text) : Printable text := by
  cases scaled with
  | mark marks scale =>
      refine printable_cons ?_ ?_
      · cases marks with
        | real letter => rcases letter with rfl | rfl <;> rfl
        | double letter => rcases letter with rfl | rfl <;> rfl
      · cases scale with
        | empty => simp [Printable]
        | digits signed numeral => exact printable_append (printable_sign signed) (printable_digits numeral.2)

theorem printable_ending {kind : LiteralKind} {text : List Char} (ending : Ending kind text) : Printable text := by
  cases ending with
  | whole => simp [Printable]
  | decimal fraction => exact printable_cons rfl (printable_digits fraction)
  | scaled scaled => exact printable_scaled scaled
  | decimalScaled fraction scaled =>
      exact printable_cons rfl (printable_append (printable_digits fraction) (printable_scaled scaled))

theorem printable_body {text : List Char} (body : Body text) : Printable text := by
  induction body with
  | empty => simp [Printable]
  | plain visible _ _ _ ih => exact printable_cons visible ih
  | escaped visible _ ih => exact printable_cons rfl (printable_cons visible ih)

theorem printable_of_spells {kind : LiteralKind} {text : List Char} (spelled : Spells kind text) : Printable text := by
  cases spelled with
  | boolean word =>
      rcases word with word | word
      · exact printable_of_word word (by simp [isPrintable])
      · exact printable_of_word word (by simp [isPrintable])
  | null word => exact printable_of_word word (by simp [isPrintable])
  | number signed numeral ends =>
      exact printable_append (printable_sign signed) (printable_append (printable_digits numeral.2) (printable_ending ends))
  | character single =>
      refine printable_cons rfl (printable_append ?_ (printable_cons rfl (by simp [Printable])))
      cases single with
      | plain visible => exact printable_cons visible (by simp [Printable])
      | escaped visible => exact printable_cons rfl (printable_cons visible (by simp [Printable]))
  | string escaped =>
      exact printable_cons rfl (printable_append (printable_body escaped) (printable_cons rfl (by simp [Printable])))

theorem literals_are_the_grammar (text : String) :
    (∀ kind, classify text = .ok kind ↔ Spells kind text.toList) ∧
    (∀ error, classify text = .error error ↔ error = .literalFormat text ∧ ∀ kind, ¬ Spells kind text.toList) ∧
    ((∃ c ∈ text.toList, 127 < c.toNat) → classify text = .error (.literalFormat text)) := by
  refine ⟨fun kind => classify_ok_iff, fun error => classify_error_iff, ?_⟩
  rintro ⟨c, member, beyond⟩
  refine classify_error_iff.mpr ⟨rfl, fun kind spelled => ?_⟩
  have low := small_of_printable (printable_of_spells spelled c member)
  omega

-- Between quotes too, only ASCII can be written.
theorem accented_string_is_refused : (∃ c ∈ "\"é\"".toList, 127 < c.toNat) ∧
    classify "\"é\"" = .error (.literalFormat "\"é\"") := by
  have beyond : ∃ c ∈ "\"é\"".toList, 127 < c.toNat := ⟨'é', by simp, by decide⟩
  obtain ⟨_, _, refused⟩ := literals_are_the_grammar "\"é\""
  exact ⟨beyond, refused beyond⟩

end Dataflow.Literal
