import ScriptEngine.Evaluation.Entry

/-!
# Expressions

What each form of expression does.  Parts are evaluated in the order of the source.  A call checks
what it can before it evaluates an argument: the number of arguments of an API call, the object of an
object call, and whether a native snippet can be called at all.
-/

namespace ScriptEngine.Evaluator

variable {σ : Type} (r : Evaluator σ)

/-! ### Calls -/

/-- Evaluate several expressions in order. -/
def evaluateAll (scope : Scope) : List Expr → Action σ (List Value)
  | [] => pure []
  | e :: rest => do
    let v ← r.evaluate scope e
    let vs ← evaluateAll scope rest
    return v :: vs

/-- Call a function of a native object by its position. -/
def callApi (scope : Scope) (object : NativeRef) (index : Nat) (args : List Value) :
    Action σ Value := do
  let c ← r.machine.exec (.apiClass object)
  r.runHost scope.engine (c.call index args)

/-- The object and the function that an object call is resolved to; only a success is kept. -/
def resolve (scope : Scope) (site : Id .callSite) (target : VarRef) (function : Name)
    (argCount : Nat) : Action σ Resolution := do
  match ← r.machine.exec (.resolution site) with
  | some resolution => return resolution
  | none =>
    let v ← r.machine.get scope target
    let resolution ← r.machine.exec (.findMethod scope.engine target v function argCount)
    r.machine.exec (.keepResolution site resolution)
    return resolution

/-! ### Expressions -/

/-- Evaluate the properties of an object in order and put them into a bag. -/
def evaluateProperties (scope : Scope) (bag : PropertyBag) :
    List (Name × Expr) → Action σ PropertyBag
  | [] => pure bag
  | (n, e) :: rest => do
    let v ← r.evaluate scope e
    evaluateProperties scope (bag.insert n v) rest

/-- Evaluate a form of expression. -/
def evaluateNode (scope : Scope) : ExprNode → Action σ Value
  | .literal v | .apiConstant v => pure v
  | .var target => r.machine.get scope target
  | .assign target none value => do
    let v ← r.evaluate scope value
    r.machine.exec (.set scope target v)
    return v
  | .assign target (some op) value => do
    let current ← r.machine.get scope target
    let operand ← r.evaluate scope value
    let v ← r.machine.exec (.compute op current operand)
    r.machine.exec (.set scope target v)
    return v
  | .binary op left right => do
    let l ← r.evaluate scope left
    let v ← r.evaluate scope right
    r.machine.exec (.compute op l v)
  | .logical op left right => do
    let v ← r.evaluate scope left
    if op.decides v then return v else r.evaluate scope right
  | .unary op operand => do
    return op.apply (← r.evaluate scope operand)
  | .conditional condition consequent alternative => do
    if (← r.evaluate scope condition).isTruthy then r.evaluate scope consequent
    else r.evaluate scope alternative
  | .array items => do
    let vs ← r.evaluateAll scope items
    r.machine.exec (.newArray vs)
  | .object properties => do
    let bag ← r.evaluateProperties scope ∅ properties
    r.machine.exec (.newObject bag)
  | .member object property => do
    let v ← r.evaluate scope object
    r.machine.exec (.readMember scope.engine v property)
  | .index object index => do
    let v ← r.evaluate scope object
    let i ← r.evaluate scope index
    r.machine.exec (.readIndex scope.engine v i)
  | .call f site args => do
    let vs ← r.evaluateAll scope args
    r.invokeFunction scope f site vs
  | .apiCall object function slot args => do
    r.machine.exec (.checkApiCall scope.engine object function slot args.length)
    let vs ← r.evaluateAll scope args
    r.callApi scope object slot.index vs
  | .objectCall site target function args => do
    let (object, slot) ← r.resolve scope site target function args.length
    let vs ← r.evaluateAll scope args
    r.callApi scope object slot.index vs
  | .snippetCall snippet args => do
    let _ ← Action.ofResult snippet.callable
    let vs ← r.evaluateAll scope args
    let code ← Action.ofResult (snippet.codeFor vs.length)
    r.machine.exec (.runCode code vs)
    return .undefined

end ScriptEngine.Evaluator
