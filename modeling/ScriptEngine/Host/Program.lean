import ScriptEngine.CallFrame
import ScriptEngine.Error
import ScriptEngine.Memory
import ScriptEngine.Tree

/-!
# Host functions

A host function is a program that works on the shared memory and then ends with a value or an error.
Of the engine that called it, it sees only what it asks for: the text of a value, the frame of a
function, and the result of entering the engine again.  Every such program ends, since it is a
well-founded tree of its steps; it can run forever only by what it asks the engine for.
-/

namespace ScriptEngine.Host

/-- What the engine shows of a function: whether it runs, and the call frame. -/
abbrev FrameView := Option CallFrame

/-- A host function at work. -/
inductive Program where
  /-- End with a result. -/
  | finish (result : Except EvalError Value)
  /-- Look at the memory. -/
  | read (next : Memory → Program)
  /-- Change the memory. -/
  | write (change : Memory → Memory) (next : Program)
  /-- Make a new array or object. -/
  | allocate (make : Memory → Value × Memory) (next : Value → Program)
  /-- Ask for the text of a value. -/
  | display (value : Value) (next : String → Program)
  /-- Enter the calling engine again, by a script.  The function keeps the scripts that it may
  execute. -/
  | execute (script : Stmt) (next : Except EvalError Value → Program)
  /-- Enter the calling engine again, by a function that it defines. -/
  | callFunction (name : String) (args : List Value) (next : Except EvalError Value → Program)
  /-- Enter the calling engine again, by a callback that it defines. -/
  | invokeCallback (name : String) (args : List Value) (next : Except EvalError Value → Program)
  /-- Look at the call frame of a function that the calling engine defines. -/
  | inspectFrame (name : String) (next : FrameView → Program)

namespace Program

/-- End with a value. -/
def succeed (v : Value) : Program := .finish (.ok v)

/-- End with an error. -/
def fail (e : EvalError) : Program := .finish (.error e)

/-- End with a new array or object. -/
def succeedWith (make : Memory → Value × Memory) : Program :=
  .allocate make succeed

/-- Ask for the texts of several values, in order. -/
def displayAll (values : List Value) (next : List String → Program) : Program :=
  match values with
  | [] => next []
  | v :: rest => .display v fun s => displayAll rest fun ss => next (s :: ss)

/-- The program never enters the engine again and never looks at a call frame. -/
def StaysOutside : Program → Prop
  | finish _ => True
  | read next => ∀ m, (next m).StaysOutside
  | write _ next => next.StaysOutside
  | allocate _ next => ∀ v, (next v).StaysOutside
  | display _ next => ∀ s, (next s).StaysOutside
  | execute .. | callFunction .. | invokeCallback .. | inspectFrame .. => False

/-- All scripts that the program may execute satisfy `P`, whatever it finds and is told on its
way. -/
def Executes (P : Stmt → Prop) : Program → Prop
  | finish _ => True
  | read next => ∀ m, (next m).Executes P
  | write _ next => next.Executes P
  | allocate _ next => ∀ v, (next v).Executes P
  | display _ next => ∀ s, (next s).Executes P
  | execute script next => P script ∧ ∀ result, (next result).Executes P
  | callFunction _ _ next | invokeCallback _ _ next => ∀ result, (next result).Executes P
  | inspectFrame _ next => ∀ view, (next view).Executes P

end Program

/-- A host function: what it does with its arguments. -/
abbrev Function := List Value → Program

end ScriptEngine.Host
