import ScriptEngine.Error
import ScriptEngine.Memory
import ScriptEngine.Text.Blank

/-!
# Native snippets

A script may declare a function whose body is C code.  The declaration is compiled once, when it is
made, and the outcome is never revisited: a snippet that failed to compile fails every call.  A
compiled snippet gets its arguments as slots, which it may overwrite, and it gives nothing back.
-/

namespace ScriptEngine

/-- What a script declares. -/
structure SnippetDeclaration where
  name : String
  arguments : List String
  /-- The C function returns something. -/
  returnsValue : Bool
  comment : String
  /-- The C source, signature included. -/
  code : String
deriving DecidableEq, Repr, Inhabited

/-- Machine code: what it does to its slots and to the memory. -/
abbrev MachineCode := List Value → Memory → List Value × Memory

/-- The largest number of arguments of a snippet. -/
def maxSnippetArgs : Nat := 4

/-- The supported argument counts. -/
inductive Arity where
  | zero | one | two | three | four
deriving DecidableEq, Repr, Inhabited

namespace Arity

/-- The arity for a number of arguments. -/
def ofCount? : Nat → Option Arity
  | 0 => some zero
  | 1 => some one
  | 2 => some two
  | 3 => some three
  | 4 => some four
  | _ => none

/-- The number of arguments. -/
def count : Arity → Nat
  | zero => 0
  | one => 1
  | two => 2
  | three => 3
  | four => 4

/-- The slots that machine code gets pointers to, in the order of its arguments. -/
def pointers : Arity → List Nat
  | zero => []
  | one => [0]
  | two => [0, 1]
  | three => [0, 1, 2]
  | four => [0, 1, 2, 3]

/-- Run machine code with a pointer for each of its arguments.  What it writes goes to the slots that
it has pointers to. -/
def invoke (arity : Arity) (code : MachineCode) (slots : List Value) (m : Memory) :
    List Value × Memory :=
  let (written, m) := code (arity.pointers.map fun i => slots.getD i .undefined) m
  ((arity.pointers.zip written).foldl (fun slots (i, v) => slots.set i v) slots, m)

end Arity

/-- Why a declaration was not compiled. -/
inductive CompileError where
  /-- The compiler could not be started. -/
  | compilerUnavailable (program : String)
  /-- The compiled code has no such symbol. -/
  | symbolMissing (symbol : String)
  /-- The declaration has too many arguments. -/
  | unsupportedArity (symbol : String) (count max : Nat)
deriving DecidableEq, Repr, Inhabited

/-- The wording of a compile error.  What the operating system says about a compiler that it cannot
start is not known here. -/
def CompileError.message? : CompileError → Option String
  | compilerUnavailable _ => none
  | symbolMissing symbol => some s!"the function {symbol} couldn't be found in the compiled code"
  | unsupportedArity symbol count max =>
    some s!"native functions take at most {max} arguments, {symbol} declares {count}"

/-- Code that is linked into the host already, by symbol. -/
structure SymbolTable where
  entries : List (String × MachineCode)

namespace SymbolTable

/-- The table without symbols. -/
def empty : SymbolTable := ⟨[]⟩

instance : Inhabited SymbolTable := ⟨empty⟩

/-- Register code under a symbol, in the place of older code. -/
def insert (t : SymbolTable) (symbol : String) (code : MachineCode) : SymbolTable :=
  ⟨(symbol, code) :: t.entries.filter (·.1 != symbol)⟩

/-- The code of a symbol. -/
def get? (t : SymbolTable) (symbol : String) : Option MachineCode :=
  t.entries.lookup symbol

/-- The number of symbols. -/
def size (t : SymbolTable) : Nat :=
  t.entries.length

/-- The table has no symbols. -/
def isEmpty (t : SymbolTable) : Bool :=
  t.entries.isEmpty

end SymbolTable

/-- How snippets are compiled. -/
inductive SnippetCompiler where
  /-- By looking their symbol up. -/
  | table (symbols : SymbolTable)
  /-- By a program that cannot be started. -/
  | unavailable (program : String)
deriving Inhabited

/-- Compile the code of one symbol. -/
def SnippetCompiler.compile (c : SnippetCompiler) (symbol : String) :
    Except CompileError MachineCode :=
  match c with
  | table symbols =>
    match symbols.get? symbol with
    | some code => .ok code
    | none => .error (.symbolMissing symbol)
  | unavailable program => .error (.compilerUnavailable program)

/-- The signature that the C source begins with: what follows the return type, up to the first
closing parenthesis.  A source without one counts as declaring no arguments. -/
def signatureOf (code name : String) : String :=
  let trimmed := Text.trimStart code.toList
  let rest := match Text.afterBlank? trimmed with
    | some rest => Text.trimStart rest
    | none => trimmed
  if ')' ∈ rest then String.ofList (rest.takeWhile (· != ')') ++ [')'])
  else name ++ "()"

/-- A declared snippet, compiled or not. -/
structure Snippet where
  declaration : SnippetDeclaration
  signature : String
  arity : Option Arity
  state : Except CompileError MachineCode

namespace Snippet

/-- Compile a declaration; too many arguments are refused before the compiler is asked. -/
def compile (c : SnippetCompiler) (d : SnippetDeclaration) : Snippet :=
  let arity := Arity.ofCount? d.arguments.length
  { declaration := d
    signature := signatureOf d.code d.name
    arity
    state :=
      if arity.isNone then
        .error (.unsupportedArity d.name d.arguments.length maxSnippetArgs)
      else c.compile d.name }

instance : Inhabited Snippet := ⟨compile default default⟩

/-- The name in the declaration. -/
def name (s : Snippet) : String :=
  s.declaration.name

/-- The names of the arguments. -/
def argumentNames (s : Snippet) : List String :=
  s.declaration.arguments

/-- The compiler succeeded. -/
def isCompiled (s : Snippet) : Bool :=
  match s.state with
  | .ok _ => true
  | .error _ => false

/-- Everything that a call needs, apart from the arguments. -/
def callable (s : Snippet) : Except EvalError (Arity × MachineCode) :=
  match s.state with
  | .error _ => .error (.of (.uncompiledFunction s.name))
  | .ok code =>
    if s.declaration.returnsValue then .error (.of (.unsupportedNativeReturn s.name))
    else match s.arity with
      | some arity => .ok (arity, code)
      | none => .error (.of (.uncompiledFunction s.name))

/-- The code of a snippet, if it can be called with `n` arguments. -/
def codeFor (s : Snippet) (n : Nat) : Except EvalError MachineCode := do
  let (arity, code) ← s.callable
  if n ≠ arity.count then
    throw (.of (.arityMismatch s.name arity.count n))
  return code

/-- What keeps a snippet from being called has no location. -/
theorem exists_cause_of_callable {s : Snippet} {e : EvalError} (h : s.callable = .error e) :
    ∃ cause, e = .of cause := by
  unfold callable at h
  split at h
  · exact ⟨_, (Except.error.inj h).symm⟩
  · split at h
    · exact ⟨_, (Except.error.inj h).symm⟩
    · split at h
      · exact nomatch h
      · exact ⟨_, (Except.error.inj h).symm⟩

/-- What keeps a snippet from being called with some arguments has no location. -/
theorem exists_cause_of_codeFor {s : Snippet} {n : Nat} {e : EvalError}
    (h : s.codeFor n = .error e) : ∃ cause, e = .of cause := by
  unfold codeFor at h
  cases hcallable : s.callable with
  | error e' =>
    rw [hcallable] at h
    obtain rfl := Except.error.inj h
    exact exists_cause_of_callable hcallable
  | ok found =>
    rw [hcallable] at h
    by_cases hn : n ≠ found.1.count
    · simp only [bind, Except.bind, if_pos hn] at h
      exact ⟨_, (Except.error.inj h).symm⟩
    · simp only [bind, Except.bind, if_neg hn] at h
      exact nomatch h

/-- The code of a snippet is the one that was compiled. -/
theorem state_of_codeFor {s : Snippet} {n : Nat} {code : MachineCode}
    (h : s.codeFor n = .ok code) : s.state = .ok code := by
  unfold codeFor callable at h
  cases hstate : s.state with
  | error e =>
    rw [hstate] at h
    exact nomatch h
  | ok compiled =>
    rw [hstate] at h
    dsimp only at h
    split at h
    · exact nomatch h
    · split at h
      · rename_i arity _
        by_cases hn : n ≠ arity.count
        · simp only [bind, Except.bind, if_pos hn] at h
          exact nomatch h
        · simp only [bind, Except.bind, if_neg hn] at h
          rw [Except.ok.inj h]
      · exact nomatch h

/-- Call a snippet: its slots afterwards, and the memory. -/
def call (s : Snippet) (slots : List Value) (m : Memory) :
    Except EvalError (List Value × Memory) := do
  let (arity, code) ← s.callable
  if slots.length ≠ arity.count then
    throw (.of (.arityMismatch s.name arity.count slots.length))
  return arity.invoke code slots m

end Snippet

end ScriptEngine
