import ScriptEngine.Host.ApiClass
import ScriptEngine.Location
import ScriptEngine.Operator

/-!
# Unbound forms

Values, references, expressions, statements and API classes as a host writes them down: by names and
handles.  Binding such a form to an engine gives a tree.
-/

namespace ScriptEngine.Session

/-- A value, written down. -/
inductive ValueForm where
  | undefined
  | bool (b : Bool)
  | number (x : Float)
  | string (s : String)
  /-- A new array. -/
  | array (items : List ValueForm)
  /-- A new object; of two pairs with one name the later one counts. -/
  | object (properties : List (String × ValueForm))
  /-- A new native object without functions and constants. -/
  | newNative (className : String)
  /-- The API class that the engine has under a name. -/
  | apiClass (name : String)
  /-- A value that the session keeps. -/
  | kept (id : String)
deriving Inhabited

/-- A variable, written down. -/
inductive RefForm where
  | register (name : String)
  | global (name : String)
  | functionLocal (handle name : String)
  | callbackLocal (handle name : String)
  | parameter (handle : String) (index : Nat)
  | callbackParameter (handle : String) (index : Nat)
deriving DecidableEq, Repr, Inhabited

/-- An expression, written down. -/
inductive ExprForm where
  | literal (value : ValueForm)
  | var (target : RefForm)
  /-- The expression with a location, with which it is bound as well. -/
  | located (location : Location) (e : ExprForm)
  | assign (target : RefForm) (op : Option BinaryOp) (value : ExprForm)
  | binary (op : BinaryOp) (left right : ExprForm)
  | logical (op : LogicalOp) (left right : ExprForm)
  | unary (op : UnaryOp) (operand : ExprForm)
  | conditional (condition consequent alternative : ExprForm)
  | array (items : List ExprForm)
  | object (properties : List (String × ExprForm))
  | member (object : ExprForm) (property : String)
  | index (object index : ExprForm)
  | call (handle : String) (args : List ExprForm)
  | apiCall (className function : String) (args : List ExprForm)
  | constant (className name : String)
  | objectCall (target : RefForm) (function : String) (args : List ExprForm)
  | snippetCall (handle : String) (args : List ExprForm)
deriving Inhabited

/-- A statement, written down. -/
inductive StmtForm where
  /-- The statement with a location. -/
  | located (location : Location) (s : StmtForm)
  | expr (e : ExprForm)
  | declare (target : RefForm) (init : Option ExprForm)
  | block (statements : List StmtForm)
  | branch (condition : ExprForm) (consequent : StmtForm) (alternative : Option StmtForm)
  | whileLoop (condition : ExprForm) (body : StmtForm)
  | forLoop (init : Option StmtForm) (condition step : Option ExprForm) (body : StmtForm)
  | returnValue (value : Option ExprForm)
  | breakLoop
  | continueLoop
deriving Inhabited

/-- What a function of an API class has been given when it was made. -/
structure Captures where
  /-- The interner of the engine, for the properties that the function names. -/
  interner : Id .interner
  /-- A counter of its own. -/
  counter : Id .counter
  values : List Value
  scripts : List Stmt

/-- What a function of an API class does. -/
inductive Behaviour where
  /-- Give `undefined`. -/
  | undefined
  /-- Add up the arguments. -/
  | sum
  /-- A new array of the arguments. -/
  | list
  /-- The first argument. -/
  | first
  /-- Fail as a host function does. -/
  | fail
  /-- Fail with a message alone. -/
  | custom
  /-- Fail with an error that has a location and a context already. -/
  | locatedFail
  /-- How often the function has been called. -/
  | count
  /-- Append arguments to an array. -/
  | push
  /-- Set a property, given the object, the key and the value. -/
  | setProperty
  /-- Remove a property, given the object and the key. -/
  | removeProperty
  /-- Enter the engine by a function. -/
  | callFunction
  /-- Enter the engine by a callback. -/
  | invokeCallback
  /-- Look at the call frame of a function. -/
  | frame
  /-- Anything else that a host can program, with values and kept scripts at hand. -/
  | closure (values : List ValueForm) (scripts : List String) (run : Captures → Host.Function)
deriving Inhabited

/-- An API class, written down. -/
structure ClassForm where
  name : String
  /-- The name, the number of arguments and the behaviour of each function. -/
  functions : List (String × Nat × Behaviour)
  constants : List (String × ValueForm)
deriving Inhabited

end ScriptEngine.Session
