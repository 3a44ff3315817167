import Dataflow.Error
import Dataflow.Pragma
set_option autoImplicit false

namespace Dataflow

inductive Container where
  | array | multiple | record | stream | union
deriving DecidableEq

inductive LinkKind where
  | field | tag | tuple
deriving DecidableEq

def Container.code : Container → TypeCode
  | .array => .array
  | .multiple => .multiple
  | .record => .record
  | .stream => .stream
  | .union => .union

def LinkKind.code : LinkKind → TypeCode
  | .field => .field
  | .tag => .tag
  | .tuple => .tuple

inductive Signature where
  | basic (kind : BasicKind)
  | wild
  | container (kind : Container) (base : Nat)
  | link (kind : LinkKind) (element : Nat) (rest : Option Nat)
  | function (arguments : Option Nat) (results : Nat)
deriving DecidableEq

namespace TypeCode

def linkKind? : TypeCode → Option LinkKind
  | .field => some .field
  | .tag => some .tag
  | .tuple => some .tuple
  | _ => none

def container? : TypeCode → Option Container
  | .array => some .array
  | .multiple => some .multiple
  | .record => some .record
  | .stream => some .stream
  | .union => some .union
  | _ => none

def isLink (code : TypeCode) : Bool :=
  code.linkKind?.isSome

end TypeCode

namespace Signature

def code : Signature → TypeCode
  | basic _ => .basic
  | wild => .wild
  | container kind _ => kind.code
  | link kind _ _ => kind.code
  | function _ _ => .function

def first? : Signature → Option Nat
  | basic _ | wild => none
  | container _ base => some base
  | link _ element _ => some element
  | function arguments _ => arguments

def second? : Signature → Option Nat
  | basic _ | wild | container _ _ => none
  | link _ _ rest => rest
  | function _ results => some results

def basic? : Signature → Option BasicKind
  | basic kind => some kind
  | _ => none

/-- The number that tells scalar kinds apart, and zero for all other types. -/
def selector : Signature → Nat
  | basic kind => kind.code
  | _ => 0

def references (signature : Signature) : List Nat :=
  signature.first?.toList ++ signature.second?.toList

def map (number : Nat → Nat) : Signature → Signature
  | basic kind => basic kind
  | wild => wild
  | container kind base => container kind (number base)
  | link kind element rest => link kind (number element) (rest.map number)
  | function arguments results => function (arguments.map number) (number results)

/-- The signature with these parameters. Scalars are asked for by their kind instead. -/
def ofParameters (code : TypeCode) (first second : Option Nat) : Except ConstructionFault Signature :=
  match code, first, second with
  | .basic, _, _ => .error .basicHasKind
  | .wild, none, none => .ok wild
  | .wild, _, _ => .error .wildHasParameter
  | .function, _, none => .error .noOutput
  | .function, arguments, some results => .ok (function arguments results)
  | code, first, second =>
      match code.linkKind?, code.container?, first with
      | some kind, _, some element => .ok (link kind element second)
      | some _, _, none => .error .noElement
      | none, some kind, some base =>
          if second.isSome then .error .secondParameter else .ok (container kind base)
      | none, _, _ => .error .noBase

end Signature

structure TypeDef where
  signature : Signature
  pragmas : Pragmas
deriving DecidableEq

def TypeDef.name? (definition : TypeDef) : Option String :=
  definition.pragmas.name?

end Dataflow
