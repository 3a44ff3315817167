import Dataflow.Literal.Escape
import Dataflow.Proofs.Literal.Grammar
import Dataflow.Proofs.Text.Utf8
set_option autoImplicit false

-- A quoted text is a string literal, and its escapes are resolved to the text.
namespace Dataflow.Literal
open Text.Utf8 (encode)

/-! ### Bytes and characters -/

end Dataflow.Literal
