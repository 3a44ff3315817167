import Dataflow.Type.Signature
set_option autoImplicit false

namespace Dataflow

structure TypeDescription where
  code : TypeCode
  selector : Nat
  first : Option TypeId
  second : Option TypeId
  pragmas : Pragmas
deriving DecidableEq

def TypeDef.describe (definition : TypeDef) : TypeDescription :=
  let signature := definition.signature
  ⟨signature.code, signature.selector, signature.first?, signature.second?, definition.pragmas⟩

end Dataflow
