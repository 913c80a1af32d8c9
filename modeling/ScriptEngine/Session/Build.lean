import ScriptEngine.Binding
import ScriptEngine.Session.Behaviour

/-!
# From forms to trees

A form is bound from the inside out and from left to right: what a construct is made of is there
before the construct itself.  Building stops at the first construct that cannot be bound; what it has
interned, declared and numbered until then stays.
-/

namespace ScriptEngine.Session

/-- What a session has under a name. -/
abbrev Table (α : Type) := List (String × α)

namespace Table

variable {α : Type}

/-- The thing under a name. -/
def get? (t : Table α) (name : String) : Option α :=
  t.lookup name

/-- Forget a name. -/
def erase (t : Table α) (name : String) : Table α :=
  t.filter (·.1 != name)

/-- Put a thing under a name, in the place of an older one. -/
def insert (t : Table α) (name : String) (a : α) : Table α :=
  t.erase name ++ [(name, a)]

/-- The things, without their names. -/
def values (t : Table α) : List α :=
  t.map Prod.snd

end Table

/-- What the handles of the host refer to. -/
structure Handles where
  engines : Table (Id .engine) := []
  functions : Table (Id .function) := []
  callbacks : Table (Id .callback) := []
  snippets : Table Snippet := []
  statements : Table Stmt := []
  values : Table Value := []
  /-- The scripts that the functions of the classes of an engine have captured. -/
  captured : Table (List Stmt) := []
deriving Inhabited

/-- Why a tree is not built. -/
inductive BuildError where
  | unbound (error : EvalError)
  /-- A function or callback has fewer parameters. -/
  | noSuchParameter
deriving DecidableEq, Repr, Inhabited

/-- The building of a part of a tree. -/
abbrev Build := ExceptT BuildError (StateM World)

namespace Build

/-- Bind something that cannot be refused. -/
def always {α : Type} (f : World → α × World) : Build α :=
  ExceptT.lift f

/-- Bind something that may be refused. -/
def binding {α : Type} (f : World → Except EvalError α × World) : Build α := do
  match ← always f with
  | .ok a => return a
  | .error e => throw (.unbound e)

/-- Find a parameter that may not be there. -/
def parameter (f : World → Option VarRef) : Build VarRef := do
  match f (← get) with
  | some target => return target
  | none => throw .noSuchParameter

end Build

/-! ### Values -/

/-- Where a form of a value finds what it names. -/
structure ValueScope where
  interner : Id .interner
  apiClass? : String → Option NativeRef
  kept? : String → Option Value

mutual

/-- Make the value of a form. -/
def ValueForm.make (scope : ValueScope) (w : World) : ValueForm → Value × World
  | .undefined => (.undefined, w)
  | .bool b => (.bool b, w)
  | .number x => (.number x, w)
  | .string s => (.string s, w)
  | .array items =>
    let (vs, w) := makeValues scope w items
    w.allocate (·.newArray vs.toArray)
  | .object properties =>
    let (bag, w) := makeProperties scope w ∅ properties
    w.allocate (·.newObject bag)
  | .newNative className =>
    let (object, w) := w.addNative (.named className)
    (.native object, w)
  | .apiClass name => (((scope.apiClass? name).map .native).getD .undefined, w)
  | .kept id => ((scope.kept? id).getD .undefined, w)

/-- Make several values, in order. -/
def makeValues (scope : ValueScope) (w : World) : List ValueForm → List Value × World
  | [] => ([], w)
  | form :: rest =>
    let (v, w) := form.make scope w
    let (vs, w) := makeValues scope w rest
    (v :: vs, w)

/-- Make properties, in order; each name is interned in front of its value. -/
def makeProperties (scope : ValueScope) (w : World) (bag : PropertyBag) :
    List (String × ValueForm) → PropertyBag × World
  | [] => (bag, w)
  | (name, form) :: rest =>
    let (n, memory) := w.memory.intern scope.interner name
    let (v, w) := form.make scope { w with memory }
    makeProperties scope w (bag.insert n v) rest

end

/-- Where a value that is made for an engine finds what it names. -/
def Handles.valueScope (h : Handles) (w : World) (e : Id .engine) : ValueScope where
  interner := (w.engine e).interner
  apiClass? := w.apiClassNamed? e
  kept? := h.values.get?

/-- Make a value for an engine. -/
def Handles.make (h : Handles) (e : Id .engine) (form : ValueForm) (w : World) : Value × World :=
  form.make (h.valueScope w e) w

/-- Make several values for an engine. -/
def Handles.makeAll (h : Handles) (e : Id .engine) (forms : List ValueForm) (w : World) :
    List Value × World :=
  makeValues (h.valueScope w e) w forms

/-- The scripts that a function of this behaviour captures, out of those at hand. -/
def Behaviour.scriptsIn (b : Behaviour) (statements : Table Stmt) : List Stmt :=
  b.scripts.map fun id => (statements.get? id).getD default

/-- Make an API class: its functions are interned first, then its constants. -/
def ClassForm.make (scope : ValueScope) (form : ClassForm) (w : World)
    (statements : Table Stmt := []) : Host.ApiClass × World :=
  let acc := form.functions.foldl
    (fun (c, w) (name, numArgs, behaviour) =>
      let (n, memory) := w.memory.intern scope.interner name
      let (counter, memory) := memory.newCounter
      let (values, w) := makeValues scope { w with memory } behaviour.values
      let captures := ⟨scope.interner, counter, values, behaviour.scriptsIn statements⟩
      (c.addFunction n numArgs (behaviour.body captures), w))
    (Host.ApiClass.named form.name, w)
  form.constants.foldl
    (fun (c, w) (name, value) =>
      let (v, w) := value.make scope w
      let (n, memory) := w.memory.intern scope.interner name
      (c.addConstant n v, { w with memory }))
    acc

/-- The scripts that the functions of a class capture. -/
def ClassForm.captured (form : ClassForm) (statements : Table Stmt) : List Stmt :=
  form.functions.flatMap fun (_, _, behaviour) => behaviour.scriptsIn statements

/-! ### Trees -/

section Trees

variable (h : Handles) (e : Id .engine)

/-- Bind a variable. -/
def RefForm.bind : RefForm → Build VarRef
  | .register name => .always (·.registerRef e name)
  | .global name => .always (·.globalRef e name)
  | .functionLocal handle name => do
    let n ← Build.always (·.intern e name)
    return .functionLocal ((h.functions.get? handle).getD default) n
  | .callbackLocal handle name => do
    let n ← Build.always (·.intern e name)
    return .callbackLocal ((h.callbacks.get? handle).getD default) n
  | .parameter handle index =>
    .parameter (·.parameterRef? ((h.functions.get? handle).getD default) index)
  | .callbackParameter handle index =>
    .parameter (·.callbackParameterRef? ((h.callbacks.get? handle).getD default) index)

mutual

/-- Bind an expression.  The location is that of the form directly around it, which the binding
itself carries. -/
def ExprForm.bind (l : Location) : ExprForm → Build Expr
  | .literal form => do
    let v ← Build.always (h.make e form)
    return .unlocated (.literal v)
  | .var form => do
    let target ← form.bind h e
    return .unlocated (.var target)
  | .located l form => do
    let inner ← form.bind l
    return inner.atLocation l
  | .assign form op value => do
    let target ← form.bind h e
    let v ← value.bind .unknown
    return .unlocated (.assign target op v)
  | .binary op left right => do
    let a ← left.bind .unknown
    let b ← right.bind .unknown
    return .unlocated (.binary op a b)
  | .logical op left right => do
    let a ← left.bind .unknown
    let b ← right.bind .unknown
    return .unlocated (.logical op a b)
  | .unary op operand => do
    let a ← operand.bind .unknown
    return .unlocated (.unary op a)
  | .conditional condition consequent alternative => do
    let c ← condition.bind .unknown
    let a ← consequent.bind .unknown
    let b ← alternative.bind .unknown
    return .unlocated (.conditional c a b)
  | .array items => do
    let es ← bindAll items
    return .unlocated (.array es)
  | .object properties => do
    let ps ← bindProperties properties
    return .unlocated (.object ps)
  | .member object property => do
    let o ← object.bind .unknown
    let n ← Build.always (·.intern e property)
    return .unlocated (.member o n)
  | .index object index => do
    let o ← object.bind .unknown
    let i ← index.bind .unknown
    return .unlocated (.index o i)
  | .call handle args => do
    let es ← bindAll args
    Build.binding (·.bindCall e ((h.functions.get? handle).getD default) es l)
  | .apiCall className function args => do
    let es ← bindAll args
    Build.binding (·.bindApiCall e className function es l)
  | .constant className name => Build.binding (·.bindConstant e className name l)
  | .objectCall form function args => do
    let target ← form.bind h e
    let es ← bindAll args
    Build.binding (·.bindObjectCall e target function es l)
  | .snippetCall handle args => do
    let es ← bindAll args
    Build.binding (·.bindSnippetCall ((h.snippets.get? handle).getD default) es l)

/-- Bind several expressions, in order. -/
def bindAll : List ExprForm → Build (List Expr)
  | [] => return []
  | form :: rest => do
    let a ← form.bind .unknown
    let es ← bindAll rest
    return a :: es

/-- Bind the properties of an object, in order; each name is interned in front of its value. -/
def bindProperties : List (String × ExprForm) → Build (List (Name × Expr))
  | [] => return []
  | (name, form) :: rest => do
    let n ← Build.always (·.intern e name)
    let a ← form.bind .unknown
    let ps ← bindProperties rest
    return (n, a) :: ps

end

/-- Bind an expression that may be missing. -/
def bindOption : Option ExprForm → Build (Option Expr)
  | some form => some <$> form.bind h e .unknown
  | none => return none

mutual

/-- Bind a statement. -/
def StmtForm.bind : StmtForm → Build Stmt
  | .located l form => do
    let s ← form.bind
    return s.atLocation l
  | .expr form => do
    let a ← form.bind h e .unknown
    return .ofExpr a
  | .declare form init => do
    let target ← form.bind h e
    let v ← bindOption h e init
    return .unlocated (.declare target v)
  | .block statements => do
    let ss ← bindStatements statements
    return .unlocated (.block ss)
  | .branch condition consequent none => do
    let c ← condition.bind h e .unknown
    let s ← consequent.bind
    return .unlocated (.branch c s none)
  | .branch condition consequent (some alternative) => do
    let c ← condition.bind h e .unknown
    let s ← consequent.bind
    let t ← alternative.bind
    return .unlocated (.branch c s (some t))
  | .whileLoop condition body => do
    let c ← condition.bind h e .unknown
    let s ← body.bind
    return .unlocated (.whileLoop c s)
  | .forLoop none condition step body => do
    let c ← bindOption h e condition
    let d ← bindOption h e step
    let s ← body.bind
    return .unlocated (.forLoop none c d s)
  | .forLoop (some init) condition step body => do
    let t ← init.bind
    let c ← bindOption h e condition
    let d ← bindOption h e step
    let s ← body.bind
    return .unlocated (.forLoop (some t) c d s)
  | .returnValue value => do
    let v ← bindOption h e value
    return .unlocated (.returnValue v)
  | .breakLoop => return .unlocated .breakLoop
  | .continueLoop => return .unlocated .continueLoop

/-- Bind several statements, in order. -/
def bindStatements : List StmtForm → Build (List Stmt)
  | [] => return []
  | form :: rest => do
    let s ← form.bind
    let ss ← bindStatements rest
    return s :: ss

end

end Trees

end ScriptEngine.Session
