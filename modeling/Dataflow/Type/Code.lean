set_option autoImplicit false

namespace Dataflow

inductive BasicKind where
  | boolean | character | doubleReal | integer | null | real | wildBasic
deriving DecidableEq

namespace BasicKind

def all : List BasicKind :=
  [.boolean, .character, .doubleReal, .integer, .null, .real, .wildBasic]

def code : BasicKind → Nat
  | .boolean => 0
  | .character => 1
  | .doubleReal => 2
  | .integer => 3
  | .null => 4
  | .real => 5
  | .wildBasic => 6

def ofCode? (code : Nat) : Option BasicKind :=
  all[code]?

def typeName : BasicKind → String
  | .boolean => "boolean"
  | .character => "character"
  | .doubleReal => "doublereal"
  | .integer => "integer"
  | .null => "null"
  | .real => "real"
  | .wildBasic => "wildbasic"

def name : BasicKind → String
  | .boolean => "Boolean"
  | .character => "Character"
  | .doubleReal => "DoubleReal"
  | .integer => "Integer"
  | .null => "Null"
  | .real => "Real"
  | .wildBasic => "WildBasic"

end BasicKind

inductive TypeCode where
  | array | basic | field | function | multiple | record | stream | tag | tuple | union | wild
deriving DecidableEq

namespace TypeCode

def all : List TypeCode :=
  [.array, .basic, .field, .function, .multiple, .record, .stream, .tag, .tuple, .union, .wild]

def code : TypeCode → Nat
  | .array => 0
  | .basic => 1
  | .field => 2
  | .function => 3
  | .multiple => 4
  | .record => 5
  | .stream => 6
  | .tag => 7
  | .tuple => 8
  | .union => 9
  | .wild => 10

def ofCode? (code : Nat) : Option TypeCode :=
  all[code]?

def keyword : TypeCode → String
  | .array => "array"
  | .basic => "basic"
  | .field => "field"
  | .function => "function"
  | .multiple => "multiple"
  | .record => "record"
  | .stream => "stream"
  | .tag => "tag"
  | .tuple => "tuple"
  | .union => "union"
  | .wild => "wild"

def name : TypeCode → String
  | .array => "Array"
  | .basic => "Basic"
  | .field => "Field"
  | .function => "Function"
  | .multiple => "Multiple"
  | .record => "Record"
  | .stream => "Stream"
  | .tag => "Tag"
  | .tuple => "Tuple"
  | .union => "Union"
  | .wild => "Wild"

end TypeCode

end Dataflow
