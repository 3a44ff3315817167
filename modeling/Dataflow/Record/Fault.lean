import Dataflow.Error
set_option autoImplicit false

namespace Dataflow

inductive Field where
  | typeLabel | typeCode | basicKind | typeParameter | nodeLabel | opcode | childCount | childOffset
  | sourceLabel | sourcePort | targetLabel | targetPort
deriving DecidableEq

def Field.title : Field → String
  | .typeLabel => "type label"
  | .typeCode => "type code"
  | .basicKind => "basic kind"
  | .typeParameter => "type parameter"
  | .nodeLabel => "node label"
  | .opcode => "opcode"
  | .childCount => "child count"
  | .childOffset => "child offset"
  | .sourceLabel => "source label"
  | .sourcePort => "source port"
  | .targetLabel => "destination label"
  | .targetPort => "destination port"

inductive Fault where
  | unknownRecord
  | missing (field : Field)
  | invalid (field : Field) (token : String)
  | malformedPragma (token : String)
  | unexpectedField (token : String)
  | noPragmaKey
  | typeLabelZero
  | unknownTypeCode
  | parameterCount (code : TypeCode) (count : Nat)
  | unknownBasicKind
  | noBase
  | noOutput
  | duplicateType
  | cyclicType
  | mixedChain
  | unknownType (label : Nat)
  | noFunctionName
  | outsideGraph
  | outOfSequence (label expected : Nat)
  | noCompound
  | strayGraph
  | strayTrailer
  | trailerMismatch
  | offsetCount
  | noSubgraph (offset : Nat)
  | unterminated
  | edgeFields
  | noLiteralText
  | literalFields
  | unknownNode (label : Nat)
  | refused (error : Error)
deriving DecidableEq

def Fault.message : Fault → String
  | .unknownRecord => "unknown record"
  | .missing field => "missing " ++ field.title
  | .invalid field token => "invalid " ++ field.title ++ " '" ++ token ++ "'"
  | .malformedPragma token => "malformed pragma '" ++ token ++ "'"
  | .unexpectedField token => "unexpected field '" ++ token ++ "'"
  | .noPragmaKey => "missing pragma key"
  | .typeLabelZero => "type labels start at 1"
  | .unknownTypeCode => "unknown typecode"
  | .parameterCount code count => code.keyword ++ s!" types take {count} parameters"
  | .unknownBasicKind => "unknown basic type"
  | .noBase => "missing base type"
  | .noOutput => "missing output type"
  | .duplicateType => "duplicate type label"
  | .cyclicType => "cyclic type"
  | .mixedChain => "Invalid chain type label"
  | .unknownType label => s!"unknown type label {label}"
  | .noFunctionName => "missing function name"
  | .outsideGraph => "record outside of a graph"
  | .outOfSequence label expected => s!"node label {label} out of sequence, expected {expected}"
  | .noCompound => "expected '\x7b Compound'"
  | .strayGraph => "subgraph outside of a compound"
  | .strayTrailer => "'\x7d' without a compound"
  | .trailerMismatch => "compound trailer does not match its header"
  | .offsetCount => "child count does not match offsets"
  | .noSubgraph offset => s!"no subgraph {offset}"
  | .unterminated => "unterminated compound"
  | .edgeFields => "edge records have five fields"
  | .noLiteralText => "missing literal text"
  | .literalFields => "literal records have three fields"
  | .unknownNode label => s!"unknown node label {label}"
  | .refused error => error.message

structure ReadError where
  line : String
  fault : Fault
deriving DecidableEq

def ReadError.message (error : ReadError) : String :=
  error.fault.message ++ ": " ++ error.line

end Dataflow
