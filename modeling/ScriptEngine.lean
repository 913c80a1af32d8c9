import ScriptEngine.Session.Basic
import ScriptEngine.Proofs.Stacks
import ScriptEngine.Proofs.Returns
import ScriptEngine.Proofs.Termination
import ScriptEngine.Proofs.DepthLimit
import ScriptEngine.Proofs.Writes
import ScriptEngine.Proofs.ErrorLocation
import ScriptEngine.Proofs.LaterBindings
import ScriptEngine.Proofs.Chronicle
import ScriptEngine.Proofs.Reports
import ScriptEngine.Proofs.RefusedCalls
import ScriptEngine.Proofs.Construction
import ScriptEngine.Proofs.CallCounts
import ScriptEngine.Proofs.HostCalls
import ScriptEngine.Proofs.CallbackState
import ScriptEngine.Proofs.ObjectCalls
import ScriptEngine.Proofs.Teardown
import ScriptEngine.Proofs.Interference
import ScriptEngine.Proofs.Numbering
import ScriptEngine.Proofs.Slots
import ScriptEngine.Proofs.ClassTables
import ScriptEngine.Proofs.StorageTiers
import ScriptEngine.Proofs.LazyCalls
import ScriptEngine.Proofs.Acyclicity
import ScriptEngine.Proofs.Panels
import ScriptEngine.Proofs.Loops
import ScriptEngine.Proofs.CompoundAssignment
import ScriptEngine.Proofs.SnippetBridge
import ScriptEngine.Proofs.ObjectReads
import ScriptEngine.Proofs.Doubles
import ScriptEngine.Proofs.Rounding
import ScriptEngine.Proofs.Comparisons
import ScriptEngine.Proofs.Bitwise
import ScriptEngine.Proofs.Decimals
import ScriptEngine.Proofs.Indexing
import ScriptEngine.Proofs.CallOrigins
