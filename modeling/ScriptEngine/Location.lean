/-!
# Places in a script

Every node of a tree carries the line and the column of the construct that it was built from.
-/

namespace ScriptEngine

/-- A line and a column of a script, both counted from one.  Line zero marks a node that the host
made up, which has no place. -/
structure Location where
  line : Nat
  column : Nat
deriving DecidableEq, Repr, Inhabited

namespace Location

/-- The location of a node that the host made up. -/
def unknown : Location := ⟨0, 0⟩

/-- A location points into a script when its line is not zero. -/
def isKnown (l : Location) : Bool :=
  l.line != 0

/-- The text that error messages show. -/
def text (l : Location) : String :=
  s!"Line {l.line}, column {l.column}"

/-- The short text for developers. -/
def shortText (l : Location) : String :=
  s!"{l.line}:{l.column}"

end Location

end ScriptEngine
