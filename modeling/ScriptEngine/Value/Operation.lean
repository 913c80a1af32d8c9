import ScriptEngine.Memory
import ScriptEngine.Operator
import ScriptEngine.Value.Conversion

/-!
# What operators compute

Operators never fail: operands are converted as needed.  The one operation that may give nothing is
`+` with a string and an array that holds itself, which has no text.
-/

namespace ScriptEngine

/-- A 32-bit result as a number. -/
def Value.ofInt32 (n : Int32) : Value :=
  .number (Number.ofInt n.toInt)

/-- The number of places to shift by: the lowest five bits of the count. -/
def Value.shiftAmount (count : Value) : Int32 :=
  count.toInt32 &&& 31

/-- Joins texts as soon as one side is a string, and adds numbers otherwise. -/
def Memory.add? (m : Memory) (left right : Value) : Option Value :=
  match left, right with
  | .string _, _ | _, .string _ => do
    let l ← m.display? left
    let r ← m.display? right
    return .string (l ++ r)
  | _, _ => some (.number (left.toNumber + right.toNumber))

/-- Apply a binary operator. -/
def BinaryOp.compute? (op : BinaryOp) (m : Memory) (left right : Value) : Option Value :=
  match op with
  | .add => m.add? left right
  | .sub => some (.number (left.toNumber - right.toNumber))
  | .mul => some (.number (left.toNumber * right.toNumber))
  | .div => some (.number (left.toNumber / right.toNumber))
  | .mod => some (.number (Number.remainder left.toNumber right.toNumber))
  | .eq => some (.bool (left.looselyEquals right))
  | .notEq => some (.bool (!left.looselyEquals right))
  | .strictEq => some (.bool (left.strictlyEquals right))
  | .strictNotEq => some (.bool (!left.strictlyEquals right))
  | .lt => some (.bool (left.order right == some .lt))
  | .ltEq => some (.bool ((left.order right).any (·.isLE)))
  | .gt => some (.bool (left.order right == some .gt))
  | .gtEq => some (.bool ((left.order right).any (·.isGE)))
  | .bitAnd => some (.ofInt32 (left.toInt32 &&& right.toInt32))
  | .bitOr => some (.ofInt32 (left.toInt32 ||| right.toInt32))
  | .bitXor => some (.ofInt32 (left.toInt32 ^^^ right.toInt32))
  | .shl => some (.ofInt32 (left.toInt32 <<< right.shiftAmount))
  | .shr => some (.ofInt32 (left.toInt32 >>> right.shiftAmount))

/-- Apply a unary operator. -/
def UnaryOp.apply (op : UnaryOp) (operand : Value) : Value :=
  match op with
  | .neg => .number (-operand.toNumber)
  | .not => .bool (!operand.isTruthy)
  | .bitNot => .ofInt32 (~~~operand.toInt32)

/-- The left operand of a logical operator already decides. -/
def LogicalOp.decides (op : LogicalOp) (left : Value) : Bool :=
  match op with
  | .and => !left.isTruthy
  | .or => left.isTruthy

end ScriptEngine
