import Dataflow.Text.Utf8
set_option autoImplicit false

-- Bytes that encode a text are decoded to that text.
namespace Dataflow.Text.Utf8

section Follow
variable {bits value : Nat} {ranges : List Range} {rest : List UInt8}

end Follow

/-! ### Characters -/

section Next
variable {value : Nat} {rest : List UInt8}

end Next

end Dataflow.Text.Utf8
