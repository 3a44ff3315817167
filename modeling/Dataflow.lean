import Dataflow.Json.Forms
import Dataflow.Json.Read
import Dataflow.Json.Render
import Dataflow.Module.Read
import Dataflow.Module.Write
import Dataflow.Proofs.Store.Bindings
import Dataflow.Type.Display
import Dataflow.Proofs.Interpreter.Renaming
import Dataflow.Proofs.Literal.Spelling
import Dataflow.Proofs.Module.Copy
import Dataflow.Proofs.Module.Made
import Dataflow.Proofs.Module.Readable
import Dataflow.Proofs.Module.Renamed
import Dataflow.Proofs.Interpreter.Activations
import Dataflow.Proofs.Interpreter.Limits
import Dataflow.Proofs.Interpreter.Captured
import Dataflow.Proofs.Interpreter.Mimicry
import Dataflow.Proofs.Interpreter.Mirrored
import Dataflow.Proofs.Interpreter.Reread
import Dataflow.Proofs.Module.Forgotten
import Dataflow.Proofs.Module.Nesting
import Dataflow.Proofs.Module.Forest
import Dataflow.Proofs.Module.Reordered
import Dataflow.Proofs.Interpreter.Schedule
import Dataflow.Proofs.Interpreter.Supplied
import Dataflow.Proofs.Interpreter.Logged
import Dataflow.Proofs.Module.Relabelled
import Dataflow.Proofs.Module.Shuffled
import Dataflow.Proofs.Module.Blamed
import Dataflow.Proofs.Module.TypeText
import Dataflow.Proofs.Module.Entrances
import Dataflow.Proofs.Module.Arity
import Dataflow.Proofs.Interpreter.Conditional
import Dataflow.Proofs.Interpreter.Loops
import Dataflow.Proofs.Interpreter.Isolated
import Dataflow.Proofs.Module.Faithful
import Dataflow.Proofs.Literal.Grammar
import Dataflow.Proofs.Operation.Exact
import Dataflow.Proofs.Interpreter.Literals
import Dataflow.Proofs.Operation.Comparison
import Dataflow.Proofs.Module.Unfinished
import Dataflow.Proofs.Module.Unchanged
import Dataflow.Proofs.Pragma.Verbatim
