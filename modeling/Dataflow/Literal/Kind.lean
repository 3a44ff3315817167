import Dataflow.Error
set_option autoImplicit false

namespace Dataflow

inductive LiteralKind where
  | boolean | character | doubleReal | integer | null | real | string
deriving DecidableEq

namespace LiteralKind

def basic? : LiteralKind → Option BasicKind
  | .boolean => some .boolean
  | .character => some .character
  | .doubleReal => some .doubleReal
  | .integer => some .integer
  | .null => some .null
  | .real => some .real
  | .string => none

def typeName (kind : LiteralKind) : String :=
  match kind.basic? with
  | some basic => basic.typeName
  | none => "string"

def name : LiteralKind → String
  | .boolean => "Boolean"
  | .character => "Character"
  | .doubleReal => "DoubleReal"
  | .integer => "Integer"
  | .null => "Null"
  | .real => "Real"
  | .string => "String"

end LiteralKind

namespace Literal

inductive State where
  | start
  | sign
  /-- A word with these letters still to come. -/
  | word (rest : List Char) (kind : LiteralKind)
  | integer
  | fraction
  | mark (kind : LiteralKind)
  | markSign (kind : LiteralKind)
  | exponent (kind : LiteralKind)
  | characterOpen
  | characterEscape
  | characterEnd
  | stringBody
  | stringEscape
  | closed (kind : LiteralKind)
deriving DecidableEq

def isPrintable (c : Char) : Bool :=
  ' ' ≤ c && c ≤ '~'

def markKind? (c : Char) : Option LiteralKind :=
  if c.toLower = 'e' then some .real else if c.toLower = 'd' then some .doubleReal else none

def isSign (c : Char) : Bool :=
  c = '+' || c = '-'

def step (state : State) (c : Char) : Option State :=
  match state with
  | .start =>
      if c.toLower = 't' then some (.word ['r', 'u', 'e'] .boolean)
      else if c.toLower = 'f' then some (.word ['a', 'l', 's', 'e'] .boolean)
      else if c.toLower = 'n' then some (.word ['i', 'l'] .null)
      else if isSign c then some .sign
      else if c.isDigit then some .integer
      else if c = '\'' then some .characterOpen
      else if c = '"' then some .stringBody
      else none
  | .sign => if c.isDigit then some .integer else none
  | .word (letter :: rest) kind => if c.toLower = letter then some (.word rest kind) else none
  | .integer =>
      if c.isDigit then some .integer
      else if c = '.' then some .fraction
      else (markKind? c).map .mark
  | .fraction => if c.isDigit then some .fraction else (markKind? c).map .mark
  | .mark kind =>
      if isSign c then some (.markSign kind)
      else if c.isDigit then some (.exponent kind)
      else none
  | .markSign kind => if c.isDigit then some (.exponent kind) else none
  | .exponent kind => if c.isDigit then some (.exponent kind) else none
  | .characterOpen =>
      if c = '\\' then some .characterEscape
      else if c = '\'' then none
      else if isPrintable c then some .characterEnd
      else none
  | .characterEscape => if isPrintable c then some .characterEnd else none
  | .characterEnd => if c = '\'' then some (.closed .character) else none
  | .stringBody =>
      if c = '\\' then some .stringEscape
      else if c = '"' then some (.closed .string)
      else if isPrintable c then some .stringBody
      else none
  | .stringEscape => if isPrintable c then some .stringBody else none
  | .word [] _ | .closed _ => none

def accept? : State → Option LiteralKind
  | .word [] kind => some kind
  | .integer => some .integer
  | .fraction => some .real
  | .mark kind | .exponent kind | .closed kind => some kind
  | _ => none

def kind? (text : List Char) : Option LiteralKind :=
  (text.foldlM step .start).bind accept?

def classify (text : String) : Except Error LiteralKind :=
  match kind? text.toList with
  | some kind => .ok kind
  | none => .error (.literalFormat text)

end Literal

end Dataflow
