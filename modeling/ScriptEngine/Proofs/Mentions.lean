import ScriptEngine.Session.Basic

/-!
# What an operation mentions

A host refers to what it has by handles.  The forms of an operation mention handles of functions,
callbacks, snippets and values, and of the statements that the functions of a class keep; the
operation itself may use further ones, and may give a handle to something new.

A session holds the handles that it has given out and that have not been dropped.
-/

namespace ScriptEngine.Session

/-- A handle of the host. -/
inductive Handle where
  | function (name : String)
  | callback (name : String)
  | snippet (name : String)
  | statement (name : String)
  | value (name : String)
deriving DecidableEq

mutual

/-- The handles that a form of a value mentions. -/
def ValueForm.handles : ValueForm → List Handle
  | .array items => handlesOfValues items
  | .object properties => handlesOfValueProperties properties
  | .kept id => [.value id]
  | .undefined | .bool _ | .number _ | .string _ | .newNative _ | .apiClass _ => []

/-- The handles that several forms of values mention. -/
def handlesOfValues : List ValueForm → List Handle
  | [] => []
  | form :: rest => form.handles ++ handlesOfValues rest

/-- The handles that the properties of an object mention. -/
def handlesOfValueProperties : List (String × ValueForm) → List Handle
  | [] => []
  | (_, form) :: rest => form.handles ++ handlesOfValueProperties rest

end

/-- The handles that a form of a variable mentions. -/
def RefForm.handles : RefForm → List Handle
  | .functionLocal handle _ | .parameter handle _ => [.function handle]
  | .callbackLocal handle _ | .callbackParameter handle _ => [.callback handle]
  | .register _ | .global _ => []

mutual

/-- The handles that a form of an expression mentions. -/
def ExprForm.handles : ExprForm → List Handle
  | .literal value => value.handles
  | .var target => target.handles
  | .located _ e | .unary _ e | .member e _ => e.handles
  | .assign target _ value => target.handles ++ value.handles
  | .binary _ left right | .logical _ left right | .index left right =>
    left.handles ++ right.handles
  | .conditional condition consequent alternative =>
    condition.handles ++ consequent.handles ++ alternative.handles
  | .array items | .apiCall _ _ items => handlesOfExprs items
  | .object properties => handlesOfProperties properties
  | .call handle args => .function handle :: handlesOfExprs args
  | .constant _ _ => []
  | .objectCall target _ args => target.handles ++ handlesOfExprs args
  | .snippetCall handle args => .snippet handle :: handlesOfExprs args

/-- The handles that several forms of expressions mention. -/
def handlesOfExprs : List ExprForm → List Handle
  | [] => []
  | form :: rest => form.handles ++ handlesOfExprs rest

/-- The handles that the properties of an object mention. -/
def handlesOfProperties : List (String × ExprForm) → List Handle
  | [] => []
  | (_, form) :: rest => form.handles ++ handlesOfProperties rest

end

/-- The handles that a form of an expression mentions, if there is one. -/
def handlesOfOption : Option ExprForm → List Handle
  | some form => form.handles
  | none => []

mutual

/-- The handles that a form of a statement mentions. -/
def StmtForm.handles : StmtForm → List Handle
  | .located _ s => s.handles
  | .expr e => e.handles
  | .declare target init => target.handles ++ handlesOfOption init
  | .block statements => handlesOfStatements statements
  | .branch condition consequent none => condition.handles ++ consequent.handles
  | .branch condition consequent (some alternative) =>
    condition.handles ++ consequent.handles ++ alternative.handles
  | .whileLoop condition body => condition.handles ++ body.handles
  | .forLoop none condition step body =>
    handlesOfOption condition ++ handlesOfOption step ++ body.handles
  | .forLoop (some init) condition step body =>
    init.handles ++ handlesOfOption condition ++ handlesOfOption step ++ body.handles
  | .returnValue value => handlesOfOption value
  | .breakLoop | .continueLoop => []

/-- The handles that several forms of statements mention. -/
def handlesOfStatements : List StmtForm → List Handle
  | [] => []
  | form :: rest => form.handles ++ handlesOfStatements rest

end

/-- The handles of what a function of this behaviour captures. -/
def Behaviour.handles (b : Behaviour) : List Handle :=
  handlesOfValues b.values ++ b.scripts.map .statement

/-- The handles that a form of a class mentions. -/
def ClassForm.handles (form : ClassForm) : List Handle :=
  form.functions.flatMap (·.2.2.handles) ++ handlesOfValueProperties form.constants

/-- The handles that an operation uses. -/
def Operation.uses : Operation → List Handle
  | .registerClass form => form.handles
  | .keep _ form | .writeRegister _ form | .writeGlobal _ form => form.handles
  | .setFunctionBody handle body => .function handle :: body.handles
  | .setComment handle _ | .dropFunction handle | .functionInfo handle _ => [.function handle]
  | .setCallbackBody handle body => .callback handle :: body.handles
  | .dropCallback handle | .callbackInfo handle _ => [.callback handle]
  | .execute script | .store _ script | .perform script => script.handles
  | .run id | .dropStatement id | .isResolved id => [.statement id]
  | .evaluate e => e.handles
  | .call _ args | .invoke _ args => handlesOfValues args
  | .useReference target value => target.handles ++ (value.map (·.handles)).getD []
  | .newEngine .. | .dropEngine | .defineFunction .. | .defineCallback .. | .declareSnippet ..
  | .declareRegister _ | .readRegister _ | .readGlobal _ | .output | .clearOutput | .reports
  | .drainReports | .ticks | .debug | .engineInfo | .snippetInfo _ => []

/-- The handle that an operation gives to something new. -/
def Operation.gives : Operation → Option Handle
  | .keep id _ => some (.value id)
  | .defineFunction handle _ _ => some (.function handle)
  | .defineCallback handle _ _ => some (.callback handle)
  | .declareSnippet handle _ => some (.snippet handle)
  | .store id _ => some (.statement id)
  | _ => none

/-- The operation is about the engine alone: it starts and drops no engine, and does not ask for the
counter that all engines of a session share. -/
def Operation.isLocal : Operation → Bool
  | .newEngine .. | .dropEngine | .ticks => false
  | _ => true

/-- The session has the handle. -/
def Holds (s : Session) : Handle → Bool
  | .function name => (s.handles.functions.get? name).isSome
  | .callback name => (s.handles.callbacks.get? name).isSome
  | .snippet name => (s.handles.snippets.get? name).isSome
  | .statement name => (s.handles.statements.get? name).isSome
  | .value name => (s.handles.values.get? name).isSome

end ScriptEngine.Session
