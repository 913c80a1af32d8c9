import ScriptEngine.Error

/-!
# Reports of failed entries

An engine hands each error that leaves one of its entries to its `Reporter`.  Only a collecting one
keeps the texts for the host.
-/

namespace ScriptEngine

/-- The receiver of error reports. -/
inductive Reporter where
  /-- The log of the host program. -/
  | log
  /-- The texts reported so far, oldest first. -/
  | collect (texts : List String)
  /-- Nobody. -/
  | silent
deriving DecidableEq, Repr, Inhabited

namespace Reporter

/-- Report an error. -/
def report (r : Reporter) (e : EvalError) : Reporter :=
  match r with
  | collect texts => collect (texts ++ [e.text])
  | log => log
  | silent => silent

/-- The texts collected so far, oldest first. -/
def reports : Reporter → List String
  | collect texts => texts
  | log | silent => []

/-- Forget the collected texts. -/
def clear : Reporter → Reporter
  | collect _ => collect []
  | log => log
  | silent => silent

end Reporter

end ScriptEngine
