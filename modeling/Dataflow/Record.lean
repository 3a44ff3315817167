import Dataflow.Type.Signature
set_option autoImplicit false

/- The records of the text format, one to a line. Types, nodes and graphs are referred to by labels;
the label 0 stands for an absent type or for the graph itself. -/
namespace Dataflow

structure TypeRecord where
  label : Nat
  signature : Signature
  pragmas : Pragmas
deriving DecidableEq

structure FunctionRecord where
  type : Nat
  name : String
  pragmas : Pragmas
deriving DecidableEq

structure NodeRecord where
  label : Nat
  opcode : Opcode
  pragmas : Pragmas
deriving DecidableEq

structure CompoundRecord where
  label : Nat
  opcode : Opcode
deriving DecidableEq

/-- Closes a compound. The offsets say which of its graphs each child is. -/
structure TrailerRecord where
  label : Nat
  opcode : Opcode
  offsets : List Nat
  pragmas : Pragmas
deriving DecidableEq

structure EdgeRecord where
  source : Nat
  sourcePort : Nat
  target : Nat
  targetPort : Nat
  type : Nat
  pragmas : Pragmas
deriving DecidableEq

structure LiteralRecord where
  target : Nat
  targetPort : Nat
  type : Nat
  text : String
  pragmas : Pragmas
deriving DecidableEq

inductive Record where
  | type (record : TypeRecord)
  | pragma (key : Char) (text : String)
  | function (record : FunctionRecord)
  | node (record : NodeRecord)
  | compound (record : CompoundRecord)
  | graph (pragmas : Pragmas)
  | trailer (record : TrailerRecord)
  | edge (record : EdgeRecord)
  | literal (record : LiteralRecord)
deriving DecidableEq

def renderNumbers (numbers : List Nat) : String :=
  String.join (numbers.map fun number => " " ++ toString number)

def Signature.fields : Signature → List Nat
  | basic kind => [kind.code]
  | wild => []
  | container _ base => [base]
  | link _ element rest => [element, rest.getD 0]
  | function arguments results => [arguments.getD 0, results]

namespace Record

def render : Record → String
  | type record =>
      "T" ++ renderNumbers (record.label :: record.signature.code.code :: record.signature.fields)
        ++ record.pragmas.render
  | pragma key text => "C$  " ++ key.toString ++ " " ++ text
  | function record =>
      "X" ++ renderNumbers [record.type] ++ " \"" ++ record.name ++ "\"" ++ record.pragmas.render
  | node record =>
      "N" ++ renderNumbers [record.label, record.opcode.code] ++ record.pragmas.render
  | compound record => "\x7b Compound" ++ renderNumbers [record.label, record.opcode.code] ++ " "
  | graph pragmas => "G 0" ++ pragmas.render
  | trailer record =>
      "\x7d" ++ renderNumbers
          (record.label :: record.opcode.code :: record.offsets.length :: record.offsets)
        ++ record.pragmas.render
  | edge record =>
      "E" ++ renderNumbers
          [record.source, record.sourcePort, record.target, record.targetPort, record.type]
        ++ record.pragmas.render
  | literal record =>
      "L    " ++ renderNumbers [record.target, record.targetPort, record.type]
        ++ " \"" ++ record.text ++ "\"" ++ record.pragmas.render

end Record

end Dataflow
