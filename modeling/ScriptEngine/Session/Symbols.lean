import ScriptEngine.Snippet.Basic
import ScriptEngine.Value.Conversion

/-!
# Machine code that a session links in

The symbols that the snippets of a session can be compiled to.  Such code overwrites its slots, and
works on the arrays that it finds there.
-/

namespace ScriptEngine.Session

/-- Append values to an array. -/
def append (target : Value) (values : List Value) (m : Memory) : Memory :=
  match target with
  | .array a => m.modifyItems a (· ++ values.toArray)
  | _ => m

/-- Put a value into an array, at a position that it has. -/
def storeAt (target index v : Value) (m : Memory) : Memory :=
  match target with
  | .array a =>
    let i := index.toInt32.toInt
    if 0 ≤ i then m.modifyItems a (·.setIfInBounds i.toNat v) else m
  | _ => m

/-- The number that answers are made of. -/
def answer : Value := .number 42

/-- Count a tick. -/
def tick (ticks : Id .counter) : MachineCode := fun slots m => (slots, m.count ticks)

/-- Append the answer to the array in the slot. -/
def pushAnswer : MachineCode
  | target :: rest, m => (target :: rest, append target [answer] m)
  | [], m => ([], m)

/-- Put the answer into the slot. -/
def storeAnswer : MachineCode
  | _ :: rest, m => (answer :: rest, m)
  | [], m => ([], m)

/-- Add the first slot to the second one. -/
def accumulate : MachineCode
  | a :: b :: rest, m => (a :: .number (b.toNumber + a.toNumber) :: rest, m)
  | slots, m => (slots, m)

/-- Put the third slot into the array in the first one, at the position in the second one. -/
def storeItem : MachineCode
  | target :: index :: v :: rest, m => (target :: index :: v :: rest, storeAt target index v m)
  | slots, m => (slots, m)

/-- Append the other slots to the array in the first one. -/
def collect : MachineCode
  | target :: rest, m => (target :: rest, append target rest m)
  | [], m => ([], m)

/-- All symbols; ticks are counted by a counter of the session. -/
def symbols (ticks : Id .counter) : List (String × MachineCode) :=
  [("tick", tick ticks), ("push_answer", pushAnswer), ("store_answer", storeAnswer),
    ("accumulate", accumulate), ("store_at", storeItem), ("collect", collect)]

/-- A table of the symbols with the given names. -/
def linked (ticks : Id .counter) (names : List String) : SymbolTable :=
  names.foldl
    (fun table name =>
      match (symbols ticks).lookup name with
      | some code => table.insert name code
      | none => table)
    .empty

/-- A table of all symbols. -/
def allLinked (ticks : Id .counter) : SymbolTable :=
  linked ticks ((symbols ticks).map Prod.fst)

end ScriptEngine.Session
