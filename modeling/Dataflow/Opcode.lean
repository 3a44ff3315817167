set_option autoImplicit false

namespace Dataflow

inductive Opcode where
  -- compound
  | forAll | select | tagCase | loopA | loopB | ifThenElse | iterate | whileLoop | repeatLoop
  | seqForall | uReduce
  -- simple
  | aAddH | aAddL | aAdjust | aBuild | aCatenate | aElement | aFill | aGather | aIsEmpty | aLimH
  | aLimL | aRemH | aRemL | aReplace | aScatter | aSetL | aSize | abs | bindArguments | bool
  | call | char | div | double | equal | exp | firstValue | finalValue | floor | int | isError
  | less | lessEqual | max | min | minus | mod | neg | noOp | not | notEqual | plus
  | rangeGenerate | rBuild | rElements | rReplace | redLeft | redRight | redTree | reduce
  | restValues | single | times | trunc | prefixSize | error | replaceMulti | convert
  | callForeign | aElementN | aElementP | aElementM
  -- simple, beyond the standard numbers
  | great | greatEqual | and | or
  -- graphs
  | sGraph | lGraph | iGraph | xGraph | lpGraph | rlGraph
deriving DecidableEq

namespace Opcode

def entry : Opcode → Nat × String
  | .forAll => (0, "Forall")
  | .select => (1, "Select")
  | .tagCase => (2, "TagCase")
  | .loopA => (3, "LoopA")
  | .loopB => (4, "LoopB")
  | .ifThenElse => (5, "IfThenElse")
  | .iterate => (6, "Iterate")
  | .whileLoop => (7, "WhileLoop")
  | .repeatLoop => (8, "RepeatLoop")
  | .seqForall => (9, "SeqForall")
  | .uReduce => (10, "UReduce")
  | .aAddH => (100, "AAddH")
  | .aAddL => (101, "AAddL")
  | .aAdjust => (102, "AAdjust")
  | .aBuild => (103, "ABuild")
  | .aCatenate => (104, "ACatenate")
  | .aElement => (105, "AElement")
  | .aFill => (106, "AFill")
  | .aGather => (107, "AGather")
  | .aIsEmpty => (108, "AIsEmpty")
  | .aLimH => (109, "ALimH")
  | .aLimL => (110, "ALimL")
  | .aRemH => (111, "ARemH")
  | .aRemL => (112, "ARemL")
  | .aReplace => (113, "AReplace")
  | .aScatter => (114, "AScatter")
  | .aSetL => (115, "ASetL")
  | .aSize => (116, "ASize")
  | .abs => (117, "Abs")
  | .bindArguments => (118, "BindArguments")
  | .bool => (119, "Bool")
  | .call => (120, "Call")
  | .char => (121, "Char")
  | .div => (122, "Div")
  | .double => (123, "Double")
  | .equal => (124, "Equal")
  | .exp => (125, "Exp")
  | .firstValue => (126, "FirstValue")
  | .finalValue => (127, "FinalValue")
  | .floor => (128, "Floor")
  | .int => (129, "Int")
  | .isError => (130, "IsError")
  | .less => (131, "Less")
  | .lessEqual => (132, "LessEqual")
  | .max => (133, "Max")
  | .min => (134, "Min")
  | .minus => (135, "Minus")
  | .mod => (136, "Mod")
  | .neg => (137, "Neg")
  | .noOp => (138, "NoOp")
  | .not => (139, "Not")
  | .notEqual => (140, "NotEqual")
  | .plus => (141, "Plus")
  | .rangeGenerate => (142, "RangeGenerate")
  | .rBuild => (143, "RBuild")
  | .rElements => (144, "RElements")
  | .rReplace => (145, "RReplace")
  | .redLeft => (146, "RedLeft")
  | .redRight => (147, "RedRight")
  | .redTree => (148, "RedTree")
  | .reduce => (149, "Reduce")
  | .restValues => (150, "RestValues")
  | .single => (151, "Single")
  | .times => (152, "Times")
  | .trunc => (153, "Trunc")
  | .prefixSize => (154, "PrefixSize")
  | .error => (155, "Error")
  | .replaceMulti => (156, "ReplaceMulti")
  | .convert => (157, "Convert")
  | .callForeign => (158, "CallForeign")
  | .aElementN => (159, "AElementN")
  | .aElementP => (160, "AElementP")
  | .aElementM => (161, "AElementM")
  | .great => (162, "Great")
  | .greatEqual => (163, "GreatEqual")
  | .and => (164, "And")
  | .or => (165, "Or")
  | .sGraph => (1000, "SGraph")
  | .lGraph => (1001, "LGraph")
  | .iGraph => (1002, "IGraph")
  | .xGraph => (1003, "XGraph")
  | .lpGraph => (1004, "LPGraph")
  | .rlGraph => (1005, "RLGraph")

def code (op : Opcode) : Nat :=
  op.entry.1

def name (op : Opcode) : String :=
  op.entry.2

def title (op : Opcode) : String :=
  "IF" ++ op.name

def all : List Opcode :=
  [.forAll, .select, .tagCase, .loopA, .loopB, .ifThenElse, .iterate, .whileLoop, .repeatLoop,
    .seqForall, .uReduce, .aAddH, .aAddL, .aAdjust, .aBuild, .aCatenate, .aElement, .aFill,
    .aGather, .aIsEmpty, .aLimH, .aLimL, .aRemH, .aRemL, .aReplace, .aScatter, .aSetL, .aSize,
    .abs, .bindArguments, .bool, .call, .char, .div, .double, .equal, .exp, .firstValue,
    .finalValue, .floor, .int, .isError, .less, .lessEqual, .max, .min, .minus, .mod, .neg, .noOp,
    .not, .notEqual, .plus, .rangeGenerate, .rBuild, .rElements, .rReplace, .redLeft, .redRight,
    .redTree, .reduce, .restValues, .single, .times, .trunc, .prefixSize, .error, .replaceMulti,
    .convert, .callForeign, .aElementN, .aElementP, .aElementM, .great, .greatEqual, .and, .or,
    .sGraph, .lGraph, .iGraph, .xGraph, .lpGraph, .rlGraph]

def ofCode? (code : Nat) : Option Opcode :=
  all.find? fun op => op.code = code

/-- A mnemonic is found with or without the letters in front of it. -/
def ofName? (name : String) : Option Opcode :=
  let bare := match name.toList with
    | 'I' :: 'F' :: rest => String.ofList rest
    | _ => name
  all.find? fun op => op.name = bare || op.name = name

inductive Kind where
  | simple
  | compound
  | graph
deriving DecidableEq

def kind (op : Opcode) : Kind :=
  if op.code ≤ 10 then .compound else if 1000 ≤ op.code then .graph else .simple

def isCompound (op : Opcode) : Bool :=
  op.kind = .compound

def isGraph (op : Opcode) : Bool :=
  op.kind = .graph

end Opcode

end Dataflow
