import ScriptEngine.Value.Basic

/-!
# Call frames

An inline function has one call frame for all of its invocations.  The frame holds the arguments of
the invocation that was started last and the call site that started it, and it counts the invocations
that are running.  A nested invocation of the same function overwrites the arguments, and the outer
one reads the inner arguments from then on; the frame is cleared when the outermost one ends.
-/

namespace ScriptEngine

/-- The identity of a call expression among those that target one function.  The numbers wrap around
after `2 ^ 32`, and zero stands for the host. -/
structure CallSiteId where
  raw : UInt32
deriving DecidableEq, Repr, Inhabited

namespace CallSiteId

/-- A call by the host. -/
def host : CallSiteId := ⟨0⟩

/-- The identity of the first call expression. -/
def first : CallSiteId := ⟨1⟩

/-- The identity of the call expression after this one; the number of the host is skipped. -/
def next (site : CallSiteId) : CallSiteId :=
  if site.raw + 1 = 0 then first else ⟨site.raw + 1⟩

/-- The text for developers. -/
def debugText (site : CallSiteId) : String :=
  s!"CallSiteId({site.raw})"

end CallSiteId

/-- The call frame of a function. -/
structure CallFrame where
  /-- One argument for each parameter. -/
  arguments : List Value
  /-- The call site whose arguments the frame holds, while the function runs. -/
  activeCall : Option CallSiteId
  /-- The number of running invocations. -/
  depth : Nat
deriving DecidableEq, Inhabited

namespace CallFrame

/-- The frame of a function with `n` parameters that does not run. -/
def idle (n : Nat) : CallFrame :=
  ⟨List.replicate n .undefined, none, 0⟩

/-- Start an invocation: its arguments overwrite those in the frame. -/
def enter (site : CallSiteId) (args : List Value) (frame : CallFrame) : CallFrame where
  arguments := args.take frame.arguments.length ++ frame.arguments.drop args.length
  activeCall := some site
  depth := frame.depth + 1

/-- End an invocation: the outermost one clears the frame. -/
def leave (frame : CallFrame) : CallFrame :=
  if frame.depth ≤ 1 then idle frame.arguments.length
  else { frame with depth := frame.depth - 1 }

/-- The argument of parameter `i`, while the function runs. -/
def argument? (frame : CallFrame) (i : Nat) : Option Value :=
  frame.activeCall.map fun _ => frame.arguments[i]?.getD .undefined

/-- An invocation is running. -/
def isActive (frame : CallFrame) : Bool :=
  0 < frame.depth

/-- The active call, as developers see it. -/
def activeCallText (frame : CallFrame) : String :=
  match frame.activeCall with
  | some site => s!"Some({site.debugText})"
  | none => "None"

end CallFrame

end ScriptEngine
