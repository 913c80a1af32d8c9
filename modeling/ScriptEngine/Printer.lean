/-!
# Where printed lines go

Scripts print through a `Printer`.  Only a capturing one remembers what was printed; on the console
the lines are gone for the engine, and a silent one drops them.
-/

namespace ScriptEngine

/-- The destination of printed lines. -/
inductive Printer where
  /-- The console of the host program. -/
  | console
  /-- A text that grows by each line. -/
  | capture (text : String)
  /-- Nowhere. -/
  | silent
deriving DecidableEq, Repr, Inhabited

namespace Printer

/-- Print one line. -/
def println (p : Printer) (line : String) : Printer :=
  match p with
  | capture text => capture (text ++ line ++ "\n")
  | console => console
  | silent => silent

/-- What was captured so far. -/
def output : Printer → String
  | capture text => text
  | console | silent => ""

/-- Forget what was captured. -/
def clear : Printer → Printer
  | capture _ => capture ""
  | console => console
  | silent => silent

end Printer

end ScriptEngine
