import Dataflow.Record
import Dataflow.Record.Fault
import Dataflow.Text.Blank
set_option autoImplicit false

namespace Dataflow.Record

abbrev Word := List Char

abbrev Parsed (α : Type) := Except Fault α

def require {α : Type} (fault : Fault) : Option α → Parsed α
  | some value => .ok value
  | none => .error fault

def splitFirst (separator : Char) (text : Word) : Option (Word × Word) :=
  match text.span (· ≠ separator) with
  | (before, _ :: after) => some (before, after)
  | (_, []) => none

def splitQuoted (line : Word) : Option (Word × Word × Word) := do
  let (before, rest) ← splitFirst '"' line
  let (after, text) ← splitFirst '"' rest.reverse
  pure (before, text.reverse, after.reverse)

/-- Adds a word to the fields and pragmas before it. Only pragmas may follow a pragma. -/
def addWord (read : List Word × Pragmas) (word : Word) : Parsed (List Word × Pragmas) :=
  match word with
  | '%' :: entry =>
      match splitFirst '=' entry with
      | none => .error (.malformedPragma (String.ofList word))
      | some (key, value) =>
          match read.2.set (String.ofList key) (PragmaValue.ofText (String.ofList value)) with
          | .ok pragmas => .ok (read.1, pragmas)
          | .error error => .error (.refused error)
  | _ =>
      if read.2.isEmpty then .ok (read.1 ++ [word], read.2)
      else .error (.unexpectedField (String.ofList word))

def fields (words : List Word) : Parsed (List Word × Pragmas) :=
  words.foldlM addWord ([], .empty)

def number (field : Field) : Option Word → Parsed Nat
  | none => .error (.missing field)
  | some word =>
      match Text.word? word with
      | some value => .ok value
      | none => .error (.invalid field (String.ofList word))

def parameterCount : TypeCode → Nat
  | .wild => 0
  | .basic | .array | .multiple | .record | .stream | .union => 1
  | .field | .tag | .tuple | .function => 2

def label? (label : Nat) : Option Nat :=
  if label = 0 then none else some label

def parseSignature (code : TypeCode) (parameters : List Word) : Parsed Signature :=
  match code, code.linkKind?, code.container? with
  | .basic, _, _ => do
      let kind ← number .basicKind parameters[0]?
      let kind ← require .unknownBasicKind (BasicKind.ofCode? kind)
      pure (.basic kind)
  | .function, _, _ => do
      let arguments ← number .typeParameter parameters[0]?
      let results ← number .typeParameter parameters[1]?
      let results ← require .noOutput (label? results)
      pure (.function (label? arguments) results)
  | _, some kind, _ => do
      let element ← number .typeParameter parameters[0]?
      let rest ← number .typeParameter parameters[1]?
      let element ← require .noBase (label? element)
      pure (.link kind element (label? rest))
  | _, none, some kind => do
      let base ← number .typeParameter parameters[0]?
      let base ← require .noBase (label? base)
      pure (.container kind base)
  | _, none, none => pure .wild

def parseType (line : Word) : Parsed TypeRecord := do
  let (fields, pragmas) ← fields ((Text.words line).drop 1)
  let label ← number .typeLabel fields[0]?
  let label ← require .typeLabelZero (label? label)
  let code ← number .typeCode fields[1]?
  let code ← require .unknownTypeCode (TypeCode.ofCode? code)
  if fields.length ≠ 2 + parameterCount code then throw (.parameterCount code (parameterCount code))
  let signature ← parseSignature code (fields.drop 2)
  pure ⟨label, signature, pragmas⟩

def parsePragma (text : Word) : Parsed (Char × String) :=
  match Text.trimLeft text with
  | [] => .error .noPragmaKey
  | key :: value => .ok (key, String.ofList (Text.trim value))

def parseFunction (line : Word) : Parsed FunctionRecord := do
  let (before, name, after) ← require .noFunctionName (splitQuoted line)
  let (_, pragmas) ← fields (Text.words after)
  let type ← number .typeLabel ((Text.words before).drop 1)[0]?
  pure ⟨type, String.ofList name, pragmas⟩

def opcode (word : Option Word) : Parsed Opcode := do
  let code ← number .opcode word
  require (.refused (.unknownOpcode (toString code))) (Opcode.ofCode? code)

def parseNode (line : Word) : Parsed NodeRecord := do
  let (fields, pragmas) ← fields ((Text.words line).drop 1)
  let label ← number .nodeLabel fields[0]?
  let opcode ← opcode fields[1]?
  pure ⟨label, opcode, pragmas⟩

/-- What follows the label and the operation of a compound's first line is not read. -/
def parseCompound (line : Word) : Parsed CompoundRecord := do
  let words := Text.words line
  if words[1]? ≠ some "Compound".toList then throw .noCompound
  let label ← number .nodeLabel words[2]?
  let opcode ← opcode words[3]?
  pure ⟨label, opcode⟩

def parseGraph (line : Word) : Parsed Pragmas := do
  let (_, pragmas) ← fields ((Text.words line).drop 2)
  pure pragmas

def parseChildren (graphs : List NodeId) (offsets : List Word) : Parsed (List NodeId) :=
  offsets.mapM fun word => do
    let offset ← number .childOffset (some word)
    require (.noSubgraph offset) graphs[offset]?

def parseTrailer (header : CompoundRecord) (graphs : List NodeId) (line : Word) :
    Parsed (List NodeId × Pragmas) := do
  let (fields, pragmas) ← fields ((Text.words line).drop 1)
  let label ← number .nodeLabel fields[0]?
  if label ≠ header.label then throw .trailerMismatch
  let code ← number .opcode fields[1]?
  if code ≠ header.opcode.code then throw .trailerMismatch
  let count ← number .childCount fields[2]?
  if fields.length ≠ 3 + count then throw .offsetCount
  let children ← parseChildren graphs (fields.drop 3)
  pure (children, pragmas)

def parseEdge (line : Word) : Parsed EdgeRecord := do
  let (fields, pragmas) ← fields ((Text.words line).drop 1)
  if fields.length ≠ 5 then throw .edgeFields
  let source ← number .sourceLabel fields[0]?
  let sourcePort ← number .sourcePort fields[1]?
  let target ← number .targetLabel fields[2]?
  let targetPort ← number .targetPort fields[3]?
  let type ← number .typeLabel fields[4]?
  pure ⟨source, sourcePort, target, targetPort, type, pragmas⟩

def parseLiteral (line : Word) : Parsed LiteralRecord := do
  let (before, text, after) ← require .noLiteralText (splitQuoted line)
  let numbers := (Text.words before).drop 1
  if numbers.length ≠ 3 then throw .literalFields
  let (_, pragmas) ← fields (Text.words after)
  let target ← number .targetLabel numbers[0]?
  let targetPort ← number .targetPort numbers[1]?
  let type ← number .typeLabel numbers[2]?
  pure ⟨target, targetPort, type, String.ofList text, pragmas⟩

end Dataflow.Record
