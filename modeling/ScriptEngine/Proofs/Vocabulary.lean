import ScriptEngine.Proofs.Reach

/-!
# What an evaluation mentions

An evaluation mentions trees, variables, functions, native objects and values.  A `Vocabulary` says
which of them it may mention.  If all that a tree mentions itself is in the vocabulary, `Fits`, then so
is all that a command mentions which the tree gives, as long as the commands before it have given only
what is in the vocabulary: `Allows` is what a command may mention, and `Yields` what it has to give.

The commands of host functions are not among those that are allowed, and no more are reports.  A host
function is taken as a whole, and so is the end of an entry, which reports an error.
-/

namespace ScriptEngine

/-- The value refers to nothing. -/
def Value.IsPlain : Value → Prop
  | .array _ | .object _ | .native _ => False
  | .undefined | .number _ | .bool _ | .string _ => True

/-- A prefix operator gives no references. -/
lemma UnaryOp.isPlain_apply (op : UnaryOp) (operand : Value) : (op.apply operand).IsPlain := by
  cases op <;> trivial

/-- An operator gives no references. -/
lemma BinaryOp.isPlain_of_compute? {op : BinaryOp} {m : Memory} {left right v : Value}
    (h : op.compute? m left right = some v) : v.IsPlain := by
  cases op with
  | add =>
    change m.add? left right = some v at h
    unfold Memory.add? at h
    split at h
    · obtain ⟨l, -, h⟩ := Option.bind_eq_some_iff.1 h
      obtain ⟨r, -, h⟩ := Option.bind_eq_some_iff.1 h
      obtain rfl := Option.some.inj h
      trivial
    · obtain ⟨l, -, h⟩ := Option.bind_eq_some_iff.1 h
      obtain ⟨r, -, h⟩ := Option.bind_eq_some_iff.1 h
      obtain rfl := Option.some.inj h
      trivial
    · obtain rfl := Option.some.inj h
      trivial
  | _ =>
    obtain rfl := Option.some.inj h
    trivial

/-- What an evaluation may mention. -/
structure Vocabulary where
  /-- The trees that are evaluated. -/
  tree : Tree → Prop
  /-- The engines in whose scopes they are evaluated. -/
  engine : Id .engine → Prop
  /-- The values that occur. -/
  value : Value → Prop
  /-- The variables that are read. -/
  reads : VarRef → Prop
  /-- The variables that are written. -/
  writes : VarRef → Prop
  /-- The functions that are called. -/
  calls : Id .function → Prop
  /-- The names of properties and of functions of native objects. -/
  names : Name → Prop
  /-- The native objects whose functions are called. -/
  hosts : NativeRef → Prop
  /-- The calls on the object in a variable: where the resolution is kept, the variable, and the
  name of the function. -/
  objectCalls : Id .callSite → VarRef → Name → Prop
  /-- The machine code that runs. -/
  codes : MachineCode → Prop
  /-- Functions and callbacks are looked up by name. -/
  byName : Prop
  value_of_isPlain : ∀ {v : Value}, v.IsPlain → value v

namespace Vocabulary

variable (D : Vocabulary)

/-- Everything. -/
def all : Vocabulary where
  tree _ := True
  engine _ := True
  value _ := True
  reads _ := True
  writes _ := True
  calls _ := True
  names _ := True
  hosts _ := True
  objectCalls _ _ _ := True
  codes _ := True
  byName := True
  value_of_isPlain _ := trivial

/-- All values are in the vocabulary. -/
def Values (vs : List Value) : Prop :=
  ∀ v ∈ vs, D.value v

/-- All properties of the bag are in the vocabulary. -/
def Bag (bag : PropertyBag) : Prop :=
  ∀ n v, bag.get? n = some v → D.names n ∧ D.value v

/-! ### Trees -/

/-- What the form of expression mentions itself is in the vocabulary. -/
def FitsExpr : ExprNode → Prop
  | .literal v | .apiConstant v => D.value v
  | .var target => D.reads target
  | .assign target none _ => D.writes target
  | .assign target (some _) _ => D.reads target ∧ D.writes target
  | .object properties => ∀ n ∈ properties.map Prod.fst, D.names n
  | .member _ property => D.names property
  | .call f _ _ => D.calls f
  | .apiCall object function _ _ => D.hosts object ∧ D.names function
  | .objectCall site target function _ => D.reads target ∧ D.objectCalls site target function
  | .snippetCall snippet _ => ∀ code, snippet.state = .ok code → D.codes code
  | .binary .. | .logical .. | .unary .. | .conditional .. | .array .. | .index .. => True

/-- What the form of statement mentions itself is in the vocabulary. -/
def FitsStmt : StmtNode → Prop
  | .declare target _ => D.writes target
  | _ => True

/-- What the tree mentions itself is in the vocabulary. -/
def Fits : Tree → Prop
  | .expr e => D.FitsExpr e.node
  | .stmt s => D.FitsStmt s.node

/-- What the trees of the vocabulary mention is in it, and so are their parts. -/
structure Closed : Prop where
  fits : ∀ {t}, D.tree t → D.Fits t
  part : ∀ {t u}, D.tree t → u ∈ t.parts → D.tree u

/-! ### Commands -/

/-- What the command mentions is in the vocabulary. -/
def Allows : {α : Type} → Command α → Prop
  | _, .get scope target => D.engine scope.engine ∧ D.reads target
  | _, .requireFunction scope target f =>
    D.engine scope.engine ∧ ∃ i n, target = .parameter f i n ∧ D.reads target
  | _, .deliver scope n argument =>
    D.engine scope.engine ∧ (∃ f i, D.reads (.parameter f i n)) ∧ ∀ v ∈ argument, D.value v
  | _, .set scope target v => D.engine scope.engine ∧ D.writes target ∧ D.value v
  | _, .deeper scope => D.engine scope.engine
  | _, .functionBody f => D.calls f
  | _, .callbackBody _ => D.byName
  | _, .keepResult f v => D.calls f ∧ D.value v
  | _, .findFunction e _ _ | _, .findCallback e _ _ => D.engine e ∧ D.byName
  | _, .checkApiCall e _ function _ _ => D.engine e ∧ D.names function
  | _, .resolution site => ∃ target function, D.objectCalls site target function
  | _, .findMethod e target v function _ =>
    D.engine e ∧ D.value v ∧ D.reads target ∧ ∃ site, D.objectCalls site target function
  | _, .keepResolution site r =>
    (∃ target function, D.objectCalls site target function) ∧ D.hosts r.1
  | _, .compute _ left right => D.value left ∧ D.value right
  | _, .newArray items => D.Values items
  | _, .newObject properties => D.Bag properties
  | _, .readMember e object property => D.engine e ∧ D.value object ∧ D.names property
  | _, .readIndex e object index => D.engine e ∧ D.value object ∧ D.value index
  | _, .runCode code slots => D.codes code ∧ D.Values slots
  | _, .report _ _ | _, .apiClass _ | _, .memory | _, .modifyMemory _ | _, .allocate _
  | _, .display _ | _, .inspectFrame _ _ => False

/-- What the command gives is in the vocabulary. -/
def Yields : {α : Type} → Command α → α → Prop
  | _, .get _ _, v | _, .deliver _ _ _, v | _, .compute _ _ _, v | _, .newArray _, v
  | _, .newObject _, v | _, .readMember _ _ _, v | _, .readIndex _ _ _, v => D.value v
  | _, .deeper _, inner => D.engine inner.engine
  | _, .functionBody _, body | _, .callbackBody _, body => ∀ s ∈ body, D.tree (.stmt s)
  | _, .findFunction _ _ _, (f, _) => D.calls f
  | _, .resolution _, known => ∀ r ∈ known, D.hosts r.1
  | _, .findMethod _ _ _ _ _, r => D.hosts r.1
  | _, _, _ => True

/-- What the activity mentions is in the vocabulary. -/
def Begins : Activity → Prop
  | .script => True
  | .function f _ args => D.calls f ∧ D.Values args
  | .callback _ args => D.byName ∧ D.Values args

/-- What the host mentions on entering an engine is in the vocabulary. -/
def Enters : Entry → Prop
  | .execute script => D.tree (.stmt script)
  | .call _ args | .invoke _ args => D.byName ∧ D.Values args

/-! ### Everything is in the largest vocabulary -/

/-- All trees fit. -/
lemma fits_all (t : Tree) : all.Fits t := by
  cases t with
  | expr e =>
    change all.FitsExpr e.node
    cases e.node with
    | assign target op value => cases op <;> simp [FitsExpr, all]
    | _ => simp [FitsExpr, all]
  | stmt s =>
    change all.FitsStmt s.node
    cases s.node <;> trivial

/-- The largest vocabulary is closed. -/
lemma closed_all : all.Closed :=
  ⟨fun _ => fits_all _, fun _ _ => trivial⟩

/-- The host may enter by anything. -/
lemma enters_all (entry : Entry) : all.Enters entry := by
  cases entry with
  | execute script => trivial
  | call name args | invoke name args => exact ⟨trivial, fun _ _ => trivial⟩

/-- All commands give what is in the largest vocabulary. -/
lemma yields_all {α : Type} (k : Command α) (a : α) : all.Yields k a := by
  cases k <;> simp [Yields, all]

end Vocabulary

end ScriptEngine
