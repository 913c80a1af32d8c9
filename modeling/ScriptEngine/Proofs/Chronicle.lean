import ScriptEngine.Proofs.Charts
import ScriptEngine.Proofs.Refusals

/-!
# Chronicles of calls and entries

A chronicle tells the course of an evaluation by its calls and its entries: which body begins and with
what arguments, which call is refused, which host function is called and what it returns, which machine
code runs, when an engine is entered, and with what result it is left.  `chronicleExpr` and
`chronicleStmt` do what the engine does and write the chronicle, newest first, together with the world
after each occurrence.

What is claimed of the course of evaluations has two parts: an invariant of the world and the chronicle,
and what is known of an error while it is on its way out, its `Blame`.  If each occurrence keeps the
invariant, `Account.Kept`, then so do whole evaluations, and apart from the chronicle they are the
evaluations of the engine (`Account.Kept.visitAll`).
-/

namespace ScriptEngine

/-! ### What is written down -/

/-- What happens in the course of an evaluation. -/
inductive Occurrence where
  /-- The host, or a host function, enters an engine. -/
  | entering (e : Id .engine) (entry : Entry)
  /-- An entry ends with a result; an error has been reported. -/
  | left (e : Id .engine) (entry : Entry) (result : Except EvalError Value)
  /-- An error leaves the body by which a function or a callback was entered. -/
  | crossed (label : String) (err : EvalError)
  /-- The evaluation of an expression begins. -/
  | evaluating (e : Expr)
  /-- A script or a body begins. -/
  | began (a : Activity)
  /-- The checks of a call refuse it. -/
  | refused (node : ExprNode) (err : EvalError)
  /-- A function of a native object is called by its position. -/
  | called (object : NativeRef) (index : ℕ) (args : List Value)
  /-- The function of the native object returns. -/
  | returned (result : Except EvalError Value)
  /-- The code of a snippet runs on slots. -/
  | ran (snippet : Snippet) (slots : List Value)

/-- An occurrence, and the world right after it. -/
structure Occasion where
  occurrence : Occurrence
  world : World

/-- All that has been written down, newest first. -/
abbrev Chronicle := List Occasion

/-- A world with its chronicle. -/
abbrev Chronicled := Recorded Chronicle

/-- A claim holds of every occasion and of what had been written before. -/
def Chronicle.Always (p : Occasion → Chronicle → Prop) : Chronicle → Prop
  | [] => True
  | now :: past => p now past ∧ Always p past

/-- An engine that has been entered, and the world when that was done. -/
structure Visit where
  engine : Id .engine
  entry : Entry
  world : World

/-- The occurrence is neither the beginning nor the end of an entry. -/
def Occurrence.IsInner : Occurrence → Prop
  | entering .. | left .. => False
  | _ => True

/-- Entries end in the reverse of the order in which they began, and the visits `c` are going on. -/
inductive Chronicle.Nested : Chronicle → List Visit → Prop
  | nil : Nested [] []
  | entering {past c} (e entry w) (h : Nested past c) :
    Nested (⟨.entering e entry, w⟩ :: past) (⟨e, entry, w⟩ :: c)
  | left {past v c} (result w) (h : Nested past (v :: c)) :
    Nested (⟨.left v.engine v.entry result, w⟩ :: past) c
  | inner {past c o} (w) (ho : o.IsInner) (h : Nested past c) : Nested (⟨o, w⟩ :: past) c

namespace Recorded

/-- Write down what happens in the world as it is. -/
def write (s : Chronicled) (o : Occurrence) : Chronicled :=
  ⟨s.world, ⟨o, s.world⟩ :: s.record⟩

@[simp] lemma world_write (s : Chronicled) (o : Occurrence) : (s.write o).world = s.world := rfl

/-- Another world, with what is recorded. -/
def withWorld {γ : Type} (s : Recorded γ) (w : World) : Recorded γ :=
  { s with world := w }

@[simp] lemma world_withWorld {γ : Type} (s : Recorded γ) (w : World) :
    (s.withWorld w).world = w := rfl

end Recorded

/-! ### The evaluator that writes -/

/-- The engine, which writes down what it evaluates and which bodies begin. -/
def Machine.chronicled : Machine Chronicled where
  exec k := Recorded.aside k.run
  enter a s := (s.withWorld (a.enter s.world)).write (.began a)
  leave a s := s.withWorld (a.leave s.world)
  argument? f i := Recorded.aside (shared.argument? f i)
  note
    | .evaluating _ e, s => s.write (.evaluating e)
    | .performing _ _, s | .returned _, s | .initEnded _, s => s

namespace Action

variable {α : Type}

/-- Write down an occurrence. -/
def record (o : Occurrence) : Action Chronicled Unit :=
  Action.change (·.write o)

/-- Write down the error with which the check of a call fails. -/
def refusing (node : ExprNode) (x : Action Chronicled α) : Action Chronicled α :=
  x.onError fun err s => s.write (.refused node err)

/-- Write down an error that leaves an entry by a name, and give it a context. -/
def crossing (label : String) (x : Action Chronicled α) : Action Chronicled α :=
  (x.onError fun err s => s.write (.crossed label err)).mapError (·.withContext label)

end Action

namespace Evaluator

variable (r : Evaluator Chronicled)

/-- Enter an engine and leave it. -/
def visiting (e : Id .engine) (entry : Entry) (x : Action Chronicled Value) :
    Action Chronicled Value := do
  Action.record (.entering e entry)
  match ← x.attempt with
  | .ok v =>
    Action.record (.left e entry (.ok v))
    return v
  | .error err =>
    r.machine.exec (.report e err)
    Action.record (.left e entry (.error err))
    Action.fail err

/-- Enter an engine. -/
def visit (e : Id .engine) : Entry → Action Chronicled Value
  | .execute script =>
    r.visiting e (.execute script) (r.machine.during .script (r.run (.top e) script))
  | .call name args => r.visiting e (.call name args) do
    let (f, signature) ← r.machine.exec (.findFunction e name args.length)
    (r.invokeFunction (.top e) f .host args).crossing signature
  | .invoke name args => r.visiting e (.invoke name args) do
    let c ← r.machine.exec (.findCallback e name args.length)
    (r.invokeCallback (.top e) c args).crossing name

/-- Enter engines one after another, whether the entries fail or not. -/
def visitAll : List (Id .engine × Entry) → Action Chronicled (List (Except EvalError Value))
  | [] => pure []
  | (e, entry) :: rest => do
    let result ← (r.visit e entry).attempt
    let results ← visitAll rest
    return result :: results

/-- Run a host function that a tree of an engine calls. -/
def serve (e : Id .engine) : Host.Program → Action Chronicled Value
  | .finish result => .ofResult result
  | .read next => do
    let memory ← r.machine.exec .memory
    serve e (next memory)
  | .write change next => do
    r.machine.exec (.modifyMemory change)
    serve e next
  | .allocate make next => do
    let v ← r.machine.exec (.allocate make)
    serve e (next v)
  | .display v next => do
    let text ← r.machine.exec (.display v)
    serve e (next text)
  | .execute script next => do
    let result ← (r.visit e (.execute script)).attempt
    serve e (next result)
  | .callFunction name args next => do
    let result ← (r.visit e (.call name args)).attempt
    serve e (next result)
  | .invokeCallback name args next => do
    let result ← (r.visit e (.invoke name args)).attempt
    serve e (next result)
  | .inspectFrame name next => do
    let view ← r.machine.exec (.inspectFrame e name)
    serve e (next view)

/-- Call a function of a native object by its position. -/
def callHost (scope : Scope) (object : NativeRef) (index : ℕ) (args : List Value) :
    Action Chronicled Value := do
  let c ← r.machine.exec (.apiClass object)
  Action.record (.called object index args)
  let result ← (r.serve scope.engine (c.call index args)).attempt
  Action.record (.returned result)
  Action.ofResult result

/-- Evaluate a form of expression. -/
def chronicleNode (scope : Scope) : ExprNode → Action Chronicled Value
  | .apiCall object function slot args => do
    (r.machine.exec (.checkApiCall scope.engine object function slot args.length)).refusing
      (.apiCall object function slot args)
    let vs ← r.evaluateAll scope args
    r.callHost scope object slot.index vs
  | .objectCall site target function args => do
    let (object, slot) ← (r.resolve scope site target function args.length).refusing
      (.objectCall site target function args)
    let vs ← r.evaluateAll scope args
    r.callHost scope object slot.index vs
  | .snippetCall snippet args => do
    let _ ← (Action.ofResult snippet.callable).refusing (.snippetCall snippet args)
    let vs ← r.evaluateAll scope args
    let code ← (Action.ofResult (snippet.codeFor vs.length)).refusing (.snippetCall snippet args)
    Action.record (.ran snippet vs)
    r.machine.exec (.runCode code vs)
    return .undefined
  | node => r.evaluateNode scope node

end Evaluator

mutual

/-- Evaluate an expression. -/
def chronicleExpr : (bound : ℕ) → Scope → Expr → Action Chronicled Value
  | 0, _, _ => Action.diverge
  | bound + 1, scope, e => fun s =>
    (Evaluator.chronicleNode ⟨.chronicled, chronicleExpr bound, chronicleStmt bound, bound⟩ scope
      e.node).locate e.location (s.write (.evaluating e))

/-- Perform a statement. -/
def chronicleStmt : (bound : ℕ) → Scope → Stmt → Action (Activation Chronicled) Signal
  | 0, _, _ => Action.diverge
  | bound + 1, scope, s =>
    (Evaluator.performNode ⟨.chronicled, chronicleExpr bound, chronicleStmt bound, bound⟩ scope
      s.node).locate s.location

end

/-- The evaluator that writes a chronicle, within a bound. -/
def Evaluator.chronicled (bound : ℕ) : Evaluator Chronicled :=
  ⟨.chronicled, chronicleExpr bound, chronicleStmt bound, bound⟩

/-! ### What is known of errors -/

/-- What is known of an error on its way out, and of what has been written until then.  Of an error
without location and context nothing need be known. -/
structure Blame where
  holds : EvalError → Chronicle → Prop
  plain : ∀ cause past, holds (.of cause) past

namespace Blame

/-- Nothing is known. -/
def nothing : Blame := ⟨fun _ _ => True, fun _ _ => trivial⟩

end Blame

/-- The visit is one by a function or a callback, which gives errors this context. -/
def Visit.Names (v : Visit) (label : String) : Prop :=
  match v.entry with
  | .execute _ => False
  | .call name _ => ∃ f, v.world.functionNamed? v.engine name = some f ∧
    label = ((v.world.function? f).getD default).signature
  | .invoke name _ => label = name

/-- What is looked up for the visit is not there, or takes another number of arguments. -/
def Visit.Misses (v : Visit) (cause : Cause) : Prop :=
  match v.entry with
  | .execute _ => False
  | .call name args =>
    (v.world.functionNamed? v.engine name = none ∧ cause = .undefinedFunction name) ∨
      ∃ f, v.world.functionNamed? v.engine name = some f ∧
        ((v.world.function? f).getD default).parameterCount ≠ args.length ∧
        cause = .arityMismatch name ((v.world.function? f).getD default).parameterCount args.length
  | .invoke name args =>
    (v.world.callbackNamed? v.engine name = none ∧ cause = .undefinedCallback name) ∨
      ∃ callback, v.world.callbackNamed? v.engine name = some callback ∧
        ((v.world.callback? callback).getD default).parameterCount ≠ args.length ∧
        cause = .arityMismatch name ((v.world.callback? callback).getD default).parameterCount
          args.length

/-- How an error comes to leave an engine: a script fails with it; or there is no function or
callback to enter by; or it leaves the body by which the engine was entered, and gets its
context. -/
inductive Visit.Leaves (v : Visit) (B : Blame) : EvalError → Chronicle → Prop
  | script {err past} (hentry : ∃ script, v.entry = .execute script) (herr : B.holds err past) :
    Leaves v B err past
  | missed {cause past} (hcause : v.Misses cause) : Leaves v B (.of cause) past
  | crossed {label err err' w past} (hlabel : v.Names label) (herr : B.holds err past)
    (hcontext : err.InContext label err') :
    Leaves v B err' (⟨.crossed label err, w⟩ :: past)

/-! ### Accounts -/

/-- The command is neither a report nor does it keep what an object call was resolved to. -/
def Command.IsOrdinary {α : Type} : Command α → Prop
  | .report .. | .keepResolution .. => False
  | _ => True

/-- An ordinary command touches no reporter, and nothing that object calls were resolved to. -/
lemma Command.keeps_of_isOrdinary {α : Type} {k : Command α} (hk : k.IsOrdinary) (w : World) :
    (∀ d, ((k.run w).state.engine d).reporter = (w.engine d).reporter) ∧
      (k.run w).state.objectCalls = w.objectCalls := by
  by_cases hquery : k.IsQuery
  · rw [Command.readsOnly_of_isQuery hquery w]
    exact ⟨fun _ => rfl, rfl⟩
  cases k with
  | set scope target v =>
    rcases VarRef.state_set scope target v w with hstate | hstate
    · rw [run, hstate]
      exact ⟨fun _ => rfl, rfl⟩
    · rw [run, hstate]
      cases target with
      | register | global =>
        exact ⟨fun d => w.reporter_modifyEngine scope.engine d fun _ => rfl, rfl⟩
      | functionLocal | callbackLocal | parameter | callbackParameter =>
        exact ⟨fun _ => rfl, rfl⟩
  | report e err | keepResolution site r => exact hk.elim
  | keepResult | newArray | newObject | runCode | modifyMemory | allocate =>
    exact ⟨fun _ => rfl, rfl⟩
  | _ => exact absurd trivial hquery

/-- What is claimed of the course of evaluations: an invariant while visits are going on, and what
is known of errors. -/
structure Account where
  holds : List Visit → Chronicled → Prop
  blame : Blame

/-- Each occurrence keeps the account, as far as `D` leads from the world `w₀`, and functions of
native objects are called only as `serves` says. -/
structure Account.Kept (A : Account) (w₀ : World) (D : Coverage)
    (serves : NativeRef → ℕ → ℕ → Prop) : Prop where
  closed : D.Closed w₀
  code : ∀ {c s}, A.holds c s → s.world.code = w₀.code
  acted : ∀ {c s} {α : Type} (k : Command α), k.IsOrdinary → A.holds c s →
    A.holds c (s.withWorld (k.run s.world).state)
  evaluating : ∀ {c s} e, A.holds c s → A.holds c (s.write (.evaluating e))
  began : ∀ {c s} (a : Activity), D.CoversActivity a → A.holds c s →
    A.holds c ((s.withWorld (a.enter s.world)).write (.began a))
  ended : ∀ {c s} (a : Activity), A.holds c s → A.holds c (s.withWorld (a.leave s.world))
  refused : ∀ {c s e scope err past}, s.record = ⟨.evaluating e, s.world⟩ :: past →
    s.world.Refuses scope e.node err → A.holds c s → A.holds c (s.write (.refused e.node err))
  uncoded : ∀ {c s snippet args err}, D.expression (.snippetCall snippet args) →
    (∃ code, snippet.callable = .ok code) → snippet.codeFor args.length = .error err →
    A.holds c s → A.holds c (s.write (.refused (.snippetCall snippet args) err))
  ran : ∀ {c s snippet args slots code}, D.expression (.snippetCall snippet args) →
    slots.length = args.length → snippet.codeFor args.length = .ok code → A.holds c s →
    A.holds c (s.write (.ran snippet slots))
  bound : ∀ {object function slot args}, D.expression (.apiCall object function slot args) →
    args.length = slot.numArgs → serves object slot.index args.length
  resolved : ∀ {c s site target function args resolution}, A.holds c s →
    D.expression (.objectCall site target function args) →
    s.world.resolution? site = some resolution →
    serves resolution.1 resolution.2.index args.length
  found : ∀ {w e target v function count resolution}, w.code = w₀.code →
    World.findMethod e target v function count w = .done resolution w →
    serves resolution.1 resolution.2.index count
  kept : ∀ {c s site target function args resolution}, A.holds c s →
    D.expression (.objectCall site target function args) →
    serves resolution.1 resolution.2.index args.length →
    A.holds c (s.withWorld (s.world.setResolution site resolution))
  called : ∀ {c s object index args}, serves object index args.length → A.holds c s →
    A.holds c (s.write (.called object index args))
  returned : ∀ {c s} result, A.holds c s → A.holds c (s.write (.returned result))
  entering : ∀ {c s} e entry, A.holds c s →
    A.holds (⟨e, entry, s.world⟩ :: c) (s.write (.entering e entry))
  crossed : ∀ {v c s label err}, v.Names label → A.blame.holds err s.record → A.holds (v :: c) s →
    A.holds (v :: c) (s.write (.crossed label err))
  succeeded : ∀ {v c s} value, A.holds (v :: c) s →
    A.holds c (s.write (.left v.engine v.entry (.ok value)))
  failed : ∀ {v c s err}, v.Leaves A.blame err s.record → A.holds (v :: c) s →
    A.holds c ((s.withWorld (s.world.report v.engine err)).write
      (.left v.engine v.entry (.error err)))
  located : ∀ {err past} l, A.blame.holds err past → A.blame.holds (err.locate l) past
  blamed : ∀ err w past, A.blame.holds err (⟨.returned (.error err), w⟩ :: past)

/-! ### Outcomes and their chronicles -/

/-- The second outcome is the first one without the chronicle.  The invariant `I` holds at the end,
and of an error that is known which `B` says. -/
inductive Outcome.Recounts (I : List Visit → Chronicled → Prop) (B : EvalError → Chronicle → Prop)
    (c : List Visit) {α : Type} (Q : α → Prop) : Outcome Chronicled α → Outcome World α → Prop
  | done {a s} (ha : Q a) (hs : I c s) : Recounts I B c Q (.done a s) (.done a s.world)
  | failed {err s} (herr : B err s.record) (hs : I c s) :
    Recounts I B c Q (.failed err s) (.failed err s.world)
  | unfinished {s d} (hs : I d s) : Recounts I B c Q (.unfinished s) (.unfinished s.world)

namespace Outcome.Recounts

variable {I : List Visit → Chronicled → Prop} {B : EvalError → Chronicle → Prop}
  {c : List Visit} {α β : Type}
  {Q : α → Prop} {R : β → Prop} {o : Outcome Chronicled α} {o' : Outcome World α}

/-- Apart from the chronicle the outcomes are the same. -/
lemma mapState_eq (h : o.Recounts I B c Q o') : o.mapState (·.world) = o' := by
  cases h <;> rfl

/-- The invariant holds at the end. -/
lemma exists_state (h : o.Recounts I B c Q o') : ∃ d, I d o.state := by
  cases h with
  | done ha hs => exact ⟨c, hs⟩
  | failed herr hs => exact ⟨c, hs⟩
  | unfinished hs => exact ⟨_, hs⟩

/-- The invariant holds at the end, and as many visits are going on as before. -/
lemma state_of_finished (h : o.Recounts I B c Q o') (ho : o.Finished) : I c o.state := by
  cases h with
  | done ha hs => exact hs
  | failed herr hs => exact hs
  | unfinished hs => exact absurd ho (not_finished _)

/-- What ends without the chronicle has a state in which the invariant holds. -/
lemma exists_of_finished (h : o.Recounts I B c Q o') (ho' : o'.Finished) :
    ∃ s, I c s ∧ o'.state = s.world := by
  cases h with
  | done ha hs => exact ⟨_, hs, rfl⟩
  | failed herr hs => exact ⟨_, hs, rfl⟩
  | unfinished hs => exact absurd ho' (not_finished _)

/-- One action after another. -/
lemma bind {x : Action Chronicled α} {y : Action World α} {s : Chronicled}
    (h : (x s).Recounts I B c Q (y s.world)) {f : α → Action Chronicled β} {g : α → Action World β}
    (hfg : ∀ a, Q a → ∀ s, I c s → (f a s).Recounts I B c R (g a s.world)) :
    ((x >>= f) s).Recounts I B c R ((y >>= g) s.world) := by
  rw [Action.bind_apply, Action.bind_apply]
  generalize x s = o, y s.world = o' at h
  cases h with
  | done ha hs => exact hfg _ ha _ hs
  | failed herr hs => exact .failed herr hs
  | unfinished hs => exact .unfinished hs

/-- A change of the error that keeps what is known of it. -/
lemma mapError {x : Action Chronicled α} {y : Action World α} {s : Chronicled}
    (h : (x s).Recounts I B c Q (y s.world)) {change : EvalError → EvalError}
    (hchange : ∀ err past, B err past → B (change err) past) :
    (x.mapError change s).Recounts I B c Q (y.mapError change s.world) := by
  unfold Action.mapError
  generalize x s = o, y s.world = o' at h
  cases h with
  | done ha hs => exact .done ha hs
  | failed herr hs => exact .failed (hchange _ _ herr) hs
  | unfinished hs => exact .unfinished hs

end Outcome.Recounts

/-- Actions of which the first one writes what the second one does. -/
def Pairing.recounting (I : List Visit → Chronicled → Prop) (B : Blame) (c : List Visit) :
    Pairing Chronicled World where
  Pairs Q x y := ∀ s, I c s → (x s).Recounts I B.holds c Q (y s.world)
  pure ha _ hs := .done ha hs
  fail cause s hs := .failed (B.plain cause s.record) hs
  diverge _ hs := .unfinished hs
  bind hxy hfg s hs := (hxy s hs).bind hfg

namespace Pairing

variable {I : List Visit → Chronicled → Prop} {B B' : Blame} {c : List Visit} {α : Type}
  {Q : α → Prop} {x : Action Chronicled α} {y : Action World α}

/-- An error becomes a result, and nothing need be known of it any more. -/
lemma recounting_attempt (h : (recounting I B c).Pairs Q x y) :
    (recounting I B' c).Pairs Anything x.attempt y.attempt := by
  intro s hs
  have hrecounts := h s hs
  unfold Action.attempt
  generalize x s = o, y s.world = o' at hrecounts
  cases hrecounts with
  | done ha hs => exact .done trivial hs
  | failed herr hs => exact .done trivial hs
  | unfinished hs => exact .unfinished hs

/-- The first action writes something down before it does what the second one does. -/
lemma recounting_written {o : Occurrence} (ho : ∀ s, I c s → I c (s.write o))
    (h : (recounting I B c).Pairs Q x y) :
    (recounting I B c).Pairs Q (Action.record o >>= fun _ => x) y :=
  fun s hs => h (s.write o) (ho s hs)

end Pairing

/-! ### Single steps -/

/-- The form of expression is a call. -/
def ExprNode.isCall : ExprNode → Bool
  | .call .. | .apiCall .. | .objectCall .. | .snippetCall .. => true
  | _ => false

/-- Everything but calls. -/
def Vocabulary.callless : Vocabulary where
  tree _ := True
  engine _ := True
  value _ := True
  reads _ := True
  writes _ := True
  calls _ := False
  names _ := True
  hosts _ := False
  objectCalls _ _ _ := False
  codes _ := False
  byName := False
  value_of_isPlain _ := trivial

namespace Vocabulary

/-- What is no call itself does not mention a call. -/
lemma fits_callless {node : ExprNode} (h : node.isCall = false) : callless.FitsExpr node := by
  cases node with
  | call | apiCall | objectCall | snippetCall => exact nomatch h
  | assign target op value => cases op <;> simp [FitsExpr, callless]
  | _ => simp [FitsExpr, callless]

/-- No statement mentions a call itself. -/
lemma fitsStmt_callless (node : StmtNode) : callless.FitsStmt node := by
  cases node <;> trivial

/-- Commands outside of calls are ordinary, and give nothing that is not in the vocabulary. -/
lemma ordinary_of_allows_callless {α : Type} {k : Command α} (hk : callless.Allows k) :
    k.IsOrdinary ∧ ∀ a, callless.Yields k a := by
  cases k with
  | resolution site => exact hk.choose_spec.choose_spec.elim
  | keepResolution site r => exact hk.1.choose_spec.choose_spec.elim
  | findMethod e target v function count => exact hk.2.2.2.choose_spec.elim
  | functionBody f => exact hk.elim
  | callbackBody c => exact hk.elim
  | findFunction e name count => exact hk.2.elim
  | report e err => exact hk.elim
  | _ => exact ⟨trivial, fun _ => by simp [Yields, callless]⟩

end Vocabulary

namespace Action

variable {α : Type} {x : Action Chronicled α} {node : ExprNode} {s s' : Chronicled}

/-- A check that succeeds writes nothing down. -/
lemma refusing_done {a : α} (h : x s = .done a s') : x.refusing node s = .done a s' := by
  unfold refusing onError
  rw [h]

/-- A check that fails is written down. -/
lemma refusing_failed {err : EvalError} (h : x s = .failed err s') :
    x.refusing node s = .failed err (s'.write (.refused node err)) := by
  unfold refusing onError
  rw [h]

end Action

/-- What acts on the world alone acts alike beside a chronicle. -/
lemma Recorded.aside_of_eq {α : Type} {x : Action World α} {s : Chronicled} {o : Outcome World α}
    (h : x s.world = o) : Recorded.aside x s = o.mapState s.withWorld := by
  unfold Recorded.aside
  rw [h]
  rfl

namespace Recorded

variable {γ α β : Type}

/-- Two actions on the world alone, one after the other. -/
lemma aside_bind (x : Action World α) (f : α → Action World β) :
    aside (γ := γ) (x >>= f) = aside x >>= fun a => aside (f a) := by
  funext s
  rw [Action.bind_apply]
  unfold aside
  rw [Action.bind_apply]
  cases x s.world <;> rfl

end Recorded

section

variable {γ : Type} {m : Machine (Recorded γ)}
  (hexec : ∀ {α : Type} (k : Command α), m.exec k = Recorded.aside k.run)
  (hargument : ∀ f i, m.argument? f i = Recorded.aside (Machine.shared.argument? f i))

include hexec hargument

/-- A machine that only remembers something beside the world reads variables as the engine does. -/
lemma Machine.get_aside (scope : Scope) (target : VarRef) :
    m.get scope target = Recorded.aside (Machine.shared.get scope target) := by
  cases target with
  | parameter f i n =>
    unfold Machine.get
    simp only [hexec, hargument, Recorded.aside_bind]
    rfl
  | _ => exact hexec _

/-- A machine that only remembers something beside the world resolves object calls as the engine
does. -/
lemma Evaluator.resolve_aside {r : Evaluator (Recorded γ)} (hr : r.machine = m)
    {r' : Evaluator World} (hr' : r'.machine = .shared) (scope : Scope) (site : Id .callSite)
    (target : VarRef) (function : Name) (count : ℕ) :
    r.resolve scope site target function count =
      Recorded.aside (r'.resolve scope site target function count) := by
  have hget := Machine.get_aside hexec hargument scope target
  unfold Evaluator.resolve
  rw [hr, hr', hexec, Recorded.aside_bind]
  refine congrArg _ (funext fun known => ?_)
  cases known with
  | some resolution => rfl
  | none =>
    simp only [hexec, hget, Recorded.aside_bind]
    rfl

end

namespace Evaluator

/-- The chronicled machine resolves object calls as the engine does. -/
lemma chronicled_resolve (bound : ℕ) (scope : Scope) (site : Id .callSite) (target : VarRef)
    (function : Name) (count : ℕ) :
    (chronicled bound).resolve scope site target function count =
      Recorded.aside ((shared bound).resolve scope site target function count) :=
  resolve_aside (fun _ => rfl) (fun _ _ => rfl) rfl rfl scope site target function count

/-- An entry is left with the result of what was entered, and an error is reported before that. -/
lemma visiting_apply {r : Evaluator Chronicled} (hr : r.machine = .chronicled) (e : Id .engine)
    (entry : Entry) (x : Action Chronicled Value) (s : Chronicled) :
    r.visiting e entry x s = (x (s.write (.entering e entry))).follow
      (fun v s => .done v (s.write (.left e entry (.ok v))))
      (fun err s => .failed err
        ((s.withWorld (s.world.report e err)).write (.left e entry (.error err)))) id := by
  unfold visiting
  rw [hr]
  simp only [Action.bind_apply, Action.record, Action.change, Action.attempt]
  cases x (s.write (.entering e entry)) <;> rfl

end Evaluator

/-! ### Whole evaluations -/

/-- The account holds of all statements that are covered, within a bound. -/
def Account.Performs (A : Account) (D : Coverage) (bound : ℕ) : Prop :=
  ∀ {c scope s}, D.CoversStmt s →
    ((Pairing.recounting A.holds A.blame c).activation Pairing.Anything).Pairs Pairing.Anything
      (chronicleStmt bound scope s) (perform .shared bound scope s)

namespace Account.Kept

open Pairing

variable {A : Account} {w₀ : World} {D : Coverage} {serves : NativeRef → ℕ → ℕ → Prop}
  (h : A.Kept w₀ D serves) {B : Blame} {c : List Visit}

include h

/-- A command is carried out, and leads to nothing that is not covered. -/
lemma exec {α : Type} (k : Command α) (hk : k.IsOrdinary) :
    (recounting A.holds B c).Pairs (D.Yields k) (Machine.chronicled.exec k)
      (Machine.shared.exec k) := by
  intro s hs
  have hclosed := h.closed.of_code_eq (h.code hs)
  have hacted := h.acted k hk hs
  change (Recorded.aside k.run s).Recounts _ _ _ _ (k.run s.world)
  unfold Recorded.aside
  cases hrun : k.run s.world with
  | done a w =>
    rw [hrun] at hacted
    exact .done (hclosed.yields hrun) hacted
  | failed err w =>
    rw [hrun] at hacted
    obtain ⟨cause, rfl, -⟩ := k.failsBy s.world err w hrun
    exact .failed (B.plain cause _) hacted
  | @diverged w =>
    rw [hrun] at hacted
    exact .unfinished hacted

/-- An activity begins and ends. -/
lemma during {a : Activity} (ha : D.CoversActivity a) {Q : Value → Prop}
    {x : Action Chronicled Value} {y : Action World Value} (hxy : (recounting A.holds B c).Pairs Q x y) :
    (recounting A.holds B c).Pairs Q (Machine.chronicled.during a x) (Machine.shared.during a y) := by
  intro s hs
  have hrecounts := hxy _ (h.began a ha hs)
  change Outcome.Recounts _ _ _ _
    (x.ensuring (Machine.chronicled.leave a) ((s.withWorld (a.enter s.world)).write (.began a)))
    (y.ensuring a.leave (a.enter s.world))
  unfold Action.ensuring
  rw [Recorded.world_write, Recorded.world_withWorld] at hrecounts
  generalize x ((s.withWorld (a.enter s.world)).write (.began a)) = o,
    y (a.enter s.world) = o' at hrecounts
  cases hrecounts with
  | done hv hs' => exact .done hv (h.ended a hs')
  | failed herr hs' => exact .failed herr (h.ended a hs')
  | unfinished hs' => exact .unfinished hs'

omit h in
/-- Several expressions give as many values. -/
lemma evaluateAll {r : Evaluator Chronicled} {r' : Evaluator World} {scope : Scope} {es : List Expr}
    (hparts : ∀ e ∈ es,
      (recounting A.holds B c).Pairs Anything (r.evaluate scope e) (r'.evaluate scope e)) :
    (recounting A.holds B c).Pairs (fun vs => vs.length = es.length) (r.evaluateAll scope es)
      (r'.evaluateAll scope es) := by
  induction es with
  | nil => exact (recounting A.holds B c).pure rfl
  | cons e rest ih =>
    refine (recounting A.holds B c).bind (hparts e (by simp)) fun v _ => ?_
    refine (recounting A.holds B c).bind (ih fun a ha => hparts a (by simp [ha])) fun vs hvs => ?_
    exact (recounting A.holds B c).pure (by simp [hvs])

/-- The account holds of what forms of expressions and statements do that are no calls. -/
lemma supports (bound : ℕ) :
    Evaluator.Supports (recounting A.holds B c) Vocabulary.callless (Evaluator.chronicled bound)
      (Evaluator.shared bound) where
  exec k hk := by
    obtain ⟨hordinary, hyields⟩ := Vocabulary.ordinary_of_allows_callless hk
    exact mono (h.exec k hordinary) fun a _ => hyields a
  argument _ _ hs := .done (fun _ _ => trivial) hs
  note mark hmark s hs := by
    cases mark with
    | evaluating | performing => exact hmark.elim
    | returned | initEnded => exact .done trivial hs
  call _ _ hf _ := hf.elim
  host _ _ hobject _ := hobject.elim
  rounds := rfl

variable {bound : ℕ} (hperform : A.Performs D bound)

include hperform

omit h in
/-- The account holds of bodies that are covered. -/
lemma runBody (scope : Scope) {body : Option Stmt} (hbody : ∀ s ∈ body, D.CoversStmt s) :
    (recounting A.holds A.blame c).Pairs Anything ((Evaluator.chronicled bound).runBody scope body)
      ((Evaluator.shared bound).runBody scope body) := by
  cases body with
  | none => exact (recounting A.holds A.blame c).pure trivial
  | some s => exact Steps.run (D := Vocabulary.all) (hperform (hbody s rfl))

/-- The account holds of invocations of functions. -/
lemma invokeFunction (scope : Scope) {f : Id .function} (site : CallSiteId) {args : List Value}
    (hfits : D.fits f args.length) :
    (recounting A.holds A.blame c).Pairs Anything
      ((Evaluator.chronicled bound).invokeFunction scope f site args)
      ((Evaluator.shared bound).invokeFunction scope f site args) := by
  refine (recounting A.holds A.blame c).bind (h.exec (.deeper scope) trivial) fun inner _ => ?_
  refine (recounting A.holds A.blame c).bind (h.exec (.functionBody f) trivial) fun body hbody => ?_
  have hrun := h.during (c := c) (a := .function f site args) hfits
    (runBody hperform inner hbody)
  refine (recounting A.holds A.blame c).bind hrun fun v _ => ?_
  exact (recounting A.holds A.blame c).bind (h.exec (.keepResult f v) trivial) fun _ _ =>
    (recounting A.holds A.blame c).pure trivial

/-- The account holds of invocations of callbacks. -/
lemma invokeCallback (scope : Scope) (callback : Id .callback) (args : List Value) :
    (recounting A.holds A.blame c).Pairs Anything
      ((Evaluator.chronicled bound).invokeCallback scope callback args)
      ((Evaluator.shared bound).invokeCallback scope callback args) := by
  refine (recounting A.holds A.blame c).bind (h.exec (.deeper scope) trivial) fun inner _ => ?_
  refine (recounting A.holds A.blame c).bind (h.exec (.callbackBody callback) trivial)
    fun body hbody => ?_
  exact h.during (a := .callback callback args) trivial
    (runBody hperform inner hbody)

/-! ### Visits -/

omit hperform

/-- The function under a name is found, with the context that it gives to errors; or there is none
to call. -/
lemma findFunction {v : Visit} {name : String} {args : List Value} (hv : v.entry = .call name args)
    {s : Chronicled} (hs : A.holds c s) (hworld : s.world = v.world) :
    (Machine.chronicled.exec (.findFunction v.engine name args.length) s).Recounts A.holds
      (v.Leaves A.blame) c (fun found => D.fits found.1 args.length ∧ v.Names found.2)
      (Machine.shared.exec (.findFunction v.engine name args.length) s.world) := by
  change (Recorded.aside (Command.findFunction v.engine name args.length).run s).Recounts _ _ _ _
    ((Command.findFunction v.engine name args.length).run s.world)
  rcases Command.run_findFunction s.world v.engine name args.length with
    ⟨hname, hrun⟩ | ⟨f, hname, ⟨hcount, hrun⟩ | ⟨hcount, hrun⟩⟩
  · rw [Recorded.aside_of_eq hrun, hrun]
    refine .failed (.missed ?_) hs
    unfold Visit.Misses
    rw [hv, ← hworld]
    exact .inl ⟨hname, rfl⟩
  · rw [Recorded.aside_of_eq hrun, hrun]
    refine .failed (.missed ?_) hs
    unfold Visit.Misses
    rw [hv, ← hworld]
    exact .inr ⟨f, hname, hcount, rfl⟩
  · rw [Recorded.aside_of_eq hrun, hrun]
    have hfits := (h.closed.of_code_eq (h.code hs)).fits f
    rw [hcount] at hfits
    refine .done ⟨hfits, ?_⟩ hs
    unfold Visit.Names
    rw [hv, ← hworld]
    exact ⟨f, hname, rfl⟩

omit h in
/-- The callback under a name is found, or there is none to invoke. -/
lemma findCallback {v : Visit} {name : String} {args : List Value} (hv : v.entry = .invoke name args)
    {s : Chronicled} (hs : A.holds c s) (hworld : s.world = v.world) :
    (Machine.chronicled.exec (.findCallback v.engine name args.length) s).Recounts A.holds
      (v.Leaves A.blame) c Anything
      (Machine.shared.exec (.findCallback v.engine name args.length) s.world) := by
  change (Recorded.aside (Command.findCallback v.engine name args.length).run s).Recounts _ _ _ _
    ((Command.findCallback v.engine name args.length).run s.world)
  rcases Command.run_findCallback s.world v.engine name args.length with
    ⟨hname, hrun⟩ | ⟨callback, hname, ⟨hcount, hrun⟩ | ⟨hcount, hrun⟩⟩
  · rw [Recorded.aside_of_eq hrun, hrun]
    refine .failed (.missed ?_) hs
    unfold Visit.Misses
    rw [hv, ← hworld]
    exact .inl ⟨hname, rfl⟩
  · rw [Recorded.aside_of_eq hrun, hrun]
    refine .failed (.missed ?_) hs
    unfold Visit.Misses
    rw [hv, ← hworld]
    exact .inr ⟨callback, hname, hcount, rfl⟩
  · rw [Recorded.aside_of_eq hrun, hrun]
    exact .done trivial hs

/-- An error that leaves the body by which an engine was entered gets its context. -/
lemma crossing {v : Visit} {label : String} (hlabel : v.Names label) {Q : Value → Prop}
    {x : Action Chronicled Value} {y : Action World Value}
    (hxy : (recounting A.holds A.blame (v :: c)).Pairs Q x y) {s : Chronicled}
    (hs : A.holds (v :: c) s) :
    (x.crossing label s).Recounts A.holds (v.Leaves A.blame) (v :: c) Q
      (y.mapError (·.withContext label) s.world) := by
  have hrecounts := hxy s hs
  unfold Action.crossing Action.onError Action.mapError
  dsimp only
  generalize x s = o, y s.world = o' at hrecounts
  cases hrecounts with
  | done hv hs' => exact .done hv hs'
  | failed herr hs' =>
    exact .failed (.crossed hlabel herr (EvalError.inContext_withContext label _))
      (h.crossed hlabel herr hs')
  | unfinished hs' => exact .unfinished hs'

/-- An engine is entered and left. -/
lemma visiting {e : Id .engine} {entry : Entry} {x : Action Chronicled Value}
    {y : Action World Value}
    (hxy : ∀ w s, A.holds (⟨e, entry, w⟩ :: c) s → s.world = w →
      (x s).Recounts A.holds (Visit.Leaves ⟨e, entry, w⟩ A.blame) (⟨e, entry, w⟩ :: c) Anything
        (y s.world)) :
    (recounting A.holds .nothing c).Pairs Anything ((Evaluator.chronicled bound).visiting e entry x)
      ((Evaluator.shared bound).reported e y) := by
  intro s hs
  have hrecounts := hxy s.world _ (h.entering e entry hs) rfl
  rw [Evaluator.visiting_apply rfl, Evaluator.shared_reported_apply rfl]
  rw [Recorded.world_write] at hrecounts
  generalize x (s.write (.entering e entry)) = o, y s.world = o' at hrecounts
  cases hrecounts with
  | done hv hs' => exact .done trivial (h.succeeded _ hs')
  | failed herr hs' => exact .failed trivial (h.failed herr hs')
  | unfinished hs' => exact .unfinished hs'

include hperform

/-- An engine is entered, and the account holds of what happens there. -/
theorem visit (e : Id .engine) (entry : Entry) (hentry : D.CoversEntry entry) :
    (recounting A.holds .nothing c).Pairs Anything ((Evaluator.chronicled bound).visit e entry)
      ((Evaluator.shared bound).enter e entry) := by
  cases entry with
  | execute script =>
    refine h.visiting fun w s hs _ => ?_
    have hrun : (recounting A.holds A.blame (⟨e, .execute script, w⟩ :: c)).Pairs Anything
        ((Evaluator.chronicled bound).run (.top e) script)
        ((Evaluator.shared bound).run (.top e) script) :=
      Steps.run (D := Vocabulary.all) (hperform hentry)
    have hrecounts := h.during (a := .script) trivial hrun s hs
    change (Machine.chronicled.during .script ((Evaluator.chronicled bound).run (.top e) script)
      s).Recounts _ _ _ _ (Machine.shared.during .script ((Evaluator.shared bound).run (.top e) script)
      s.world)
    generalize Machine.chronicled.during .script
      ((Evaluator.chronicled bound).run (.top e) script) s = o, Machine.shared.during .script
      ((Evaluator.shared bound).run (.top e) script) s.world = o' at hrecounts
    cases hrecounts with
    | done hv hs' => exact .done hv hs'
    | failed herr hs' => exact .failed (.script ⟨script, rfl⟩ herr) hs'
    | unfinished hs' => exact .unfinished hs'
  | call name args =>
    refine h.visiting fun w s hs hworld => ?_
    refine (h.findFunction (v := ⟨e, .call name args, w⟩) rfl hs hworld).bind
      fun found hfound s hs => ?_
    exact h.crossing hfound.2 (h.invokeFunction hperform (.top e) .host hfound.1) hs
  | invoke name args =>
    refine h.visiting fun w s hs hworld => ?_
    refine (findCallback (v := ⟨e, .invoke name args, w⟩) rfl hs hworld).bind
      fun callback _ s hs => ?_
    exact h.crossing (v := ⟨e, .invoke name args, w⟩) rfl
      (h.invokeCallback hperform (.top e) callback args) hs

/-- A host function runs, and the account holds of what it makes the engine do. -/
lemma serve (e : Id .engine) {program : Host.Program} (hprogram : program.Executes D.CoversStmt) :
    (recounting A.holds .nothing c).Pairs Anything
      ((Evaluator.chronicled bound).serve e program)
      ((Evaluator.shared bound).runHost e program) := by
  induction program with
  | finish result =>
    cases result with
    | ok v => exact (recounting A.holds .nothing c).pure trivial
    | error err => exact fun s hs => .failed trivial hs
  | read next ih =>
    exact (recounting A.holds .nothing c).bind (h.exec .memory trivial) fun m _ =>
      ih m (hprogram m)
  | write change next ih =>
    exact (recounting A.holds .nothing c).bind (h.exec (.modifyMemory change) trivial) fun _ _ =>
      ih hprogram
  | allocate make next ih =>
    exact (recounting A.holds .nothing c).bind (h.exec (.allocate make) trivial) fun v _ =>
      ih v (hprogram v)
  | display v next ih =>
    exact (recounting A.holds .nothing c).bind (h.exec (.display v) trivial) fun text _ =>
      ih text (hprogram text)
  | execute script next ih =>
    have hvisit := h.visit (c := c) hperform e (.execute script) hprogram.1
    exact (recounting A.holds .nothing c).bind (recounting_attempt hvisit) fun result _ =>
      ih result (hprogram.2 result)
  | callFunction name args next ih =>
    have hvisit := h.visit (c := c) hperform e (.call name args) trivial
    exact (recounting A.holds .nothing c).bind (recounting_attempt hvisit) fun result _ =>
      ih result (hprogram result)
  | invokeCallback name args next ih =>
    have hvisit := h.visit (c := c) hperform e (.invoke name args) trivial
    exact (recounting A.holds .nothing c).bind (recounting_attempt hvisit) fun result _ =>
      ih result (hprogram result)
  | inspectFrame name next ih =>
    exact (recounting A.holds .nothing c).bind (h.exec (.inspectFrame e name) trivial)
      fun view _ => ih view (hprogram view)

/-- A function of a native object is called and returns. -/
lemma callHost (scope : Scope) {object : NativeRef} {index : ℕ} {args : List Value}
    (hserves : serves object index args.length) :
    (recounting A.holds A.blame c).Pairs Anything
      ((Evaluator.chronicled bound).callHost scope object index args)
      ((Evaluator.shared bound).callApi scope object index args) := by
  refine (recounting A.holds A.blame c).bind (h.exec (.apiClass object) trivial) fun class' hclass => ?_
  refine recounting_written (fun s hs => h.called hserves hs) fun s hs => ?_
  have hrecounts := h.serve (c := c) hperform scope.engine (hclass index args) s hs
  rw [Action.bind_apply]
  unfold Action.attempt
  generalize (Evaluator.chronicled bound).serve scope.engine (class'.call index args) s = o,
    (Evaluator.shared bound).runHost scope.engine (class'.call index args) s.world = o' at hrecounts
  cases hrecounts with
  | done _ hs' => exact .done trivial (h.returned _ hs')
  | failed _ hs' => exact .failed (h.blamed _ _ _) (h.returned _ hs')
  | unfinished hs' => exact .unfinished hs'

/-! ### Trees -/

omit hperform

/-- A check of a call that has just been written down: the call is refused, or it goes on in the
world in which the check ends. -/
lemma checked {α : Type} {e : Expr} (scope : Scope) {s : Chronicled} {past : Chronicle}
    (hs : A.holds c s) (hrecord : s.record = ⟨.evaluating e, s.world⟩ :: past)
    {check : Action World α} {f : α → Action Chronicled Value} {g : α → Action World Value}
    (hcheck : (∃ a w, check s.world = .done a w ∧
        (f a (s.withWorld w)).Recounts A.holds A.blame.holds c Anything (g a w)) ∨
      ∃ err, s.world.Refuses scope e.node err ∧ check s.world = .failed err s.world) :
    (((Recorded.aside check).refusing e.node >>= f) s).Recounts A.holds A.blame.holds c Anything
      ((check >>= g) s.world) := by
  rw [Action.bind_apply, Action.bind_apply]
  rcases hcheck with ⟨a, w, hdone, hrest⟩ | ⟨err, hrefuses, hfailed⟩
  · rw [Action.refusing_done (Recorded.aside_of_eq hdone), hdone]
    exact hrest
  · rw [Action.refusing_failed (Recorded.aside_of_eq hfailed), hfailed]
    obtain ⟨cause, rfl⟩ := hrefuses.exists_cause
    exact .failed (A.blame.plain cause _) (h.refused hrecord hrefuses hs)

include hperform

/-- An expression is evaluated that has just been written down. -/
lemma chronicleNode (scope : Scope) {e : Expr} (he : D.expression e.node)
    (hparts : ∀ a ∈ e.node.parts, ∀ {c}, (recounting A.holds A.blame c).Pairs Anything
      (chronicleExpr bound scope a) (evaluate .shared bound scope a))
    {s : Chronicled} {past : Chronicle} (hs : A.holds c s)
    (hrecord : s.record = ⟨.evaluating e, s.world⟩ :: past) :
    ((Evaluator.chronicled bound).chronicleNode scope e.node s).Recounts A.holds A.blame.holds c Anything
      ((Evaluator.shared bound).evaluateNode scope e.node s.world) := by
  have hplain : e.node.isCall = false →
      ((Evaluator.chronicled bound).evaluateNode scope e.node s).Recounts A.holds A.blame.holds c Anything
        ((Evaluator.shared bound).evaluateNode scope e.node s.world) := fun hcall =>
    (h.supports bound).evaluateNode trivial (Vocabulary.fits_callless hcall)
      (fun a ha => hparts a ha) s hs
  have hall : ∀ args : List Expr, e.node.parts = args →
      (recounting A.holds A.blame c).Pairs (fun vs => vs.length = args.length)
        ((Evaluator.chronicled bound).evaluateAll scope args)
        ((Evaluator.shared bound).evaluateAll scope args) := by
    rintro _ rfl
    exact evaluateAll fun a ha => hparts a ha
  obtain ⟨node, l⟩ := e
  cases node with
  | call f site args =>
    have hargs := hall args rfl
    refine (hargs s hs).bind fun vs hvs s hs => ?_
    have hfits : D.fits f vs.length := by
      rw [hvs]
      exact D.fits_of_call he
    exact h.invokeFunction hperform scope site hfits s hs
  | apiCall object function slot args =>
    have hargs := hall args rfl
    refine h.checked scope hs hrecord ?_
    rcases Command.run_checkApiCall s.world scope object function slot args with
      ⟨hcount, hrun⟩ | ⟨err, hrefuses, hrun⟩
    · refine .inl ⟨(), s.world, hrun, (hargs s hs).bind fun vs hvs s hs => ?_⟩
      have hserves : serves object slot.index vs.length := by
        rw [hvs]
        exact h.bound he hcount
      exact h.callHost hperform scope hserves s hs
    · exact .inr ⟨err, hrefuses, hrun⟩
  | objectCall site target function args =>
    have hargs := hall args rfl
    have hrest : ∀ (resolution : Resolution) s, A.holds c s →
        serves resolution.1 resolution.2.index args.length →
        (((Evaluator.chronicled bound).evaluateAll scope args >>= fun vs =>
          (Evaluator.chronicled bound).callHost scope resolution.1 resolution.2.index vs) s).Recounts
          A.holds A.blame.holds c Anything
          (((Evaluator.shared bound).evaluateAll scope args >>= fun vs =>
            (Evaluator.shared bound).callApi scope resolution.1 resolution.2.index vs) s.world) := by
      intro resolution s hs hserves
      refine (hargs s hs).bind fun vs hvs s hs => ?_
      exact h.callHost hperform scope (hvs ▸ hserves) s hs
    change ((((Evaluator.chronicled bound).resolve scope site target function args.length).refusing
      (.objectCall site target function args) >>= _) s).Recounts _ _ _ _ _
    rw [Evaluator.chronicled_resolve bound]
    refine h.checked scope hs hrecord ?_
    rcases Evaluator.resolve_cases (r := .shared bound) rfl s.world scope site target function
      args with ⟨err, hrefuses, hrun⟩ | ⟨resolution, hknown, hrun⟩ | ⟨resolution, v, hfound, hrun⟩
    · exact .inr ⟨err, hrefuses, hrun⟩
    · exact .inl ⟨resolution, s.world, hrun, hrest resolution s hs (h.resolved hs he hknown)⟩
    · have hserves := h.found (h.code hs) hfound
      exact .inl ⟨resolution, _, hrun, hrest resolution _ (h.kept hs he hserves) hserves⟩
  | snippetCall snippet args =>
    have hargs := hall args rfl
    have hresult : ∀ {α : Type} (result : Except EvalError α),
        (Action.ofResult result : Action Chronicled α) =
          Recorded.aside (Action.ofResult result) := fun result => by cases result <;> rfl
    change (((Action.ofResult snippet.callable).refusing (.snippetCall snippet args) >>= _) s).Recounts
      _ _ _ _ _
    rw [hresult]
    refine h.checked scope hs hrecord ?_
    rcases s.world.callable_or_refuses scope snippet args with
      ⟨code, hcallable⟩ | ⟨err, hrefuses, hcallable⟩
    · refine .inl ⟨code, s.world, by rw [hcallable]; rfl, (hargs s hs).bind fun vs hvs s hs => ?_⟩
      rw [hvs, Action.bind_apply, Action.bind_apply]
      cases hcode : snippet.codeFor args.length with
      | error err =>
        obtain ⟨cause, rfl⟩ := Snippet.exists_cause_of_codeFor hcode
        exact .failed (A.blame.plain cause _) (h.uncoded he ⟨code, hcallable⟩ hcode hs)
      | ok code =>
        have hran := h.ran he hvs hcode hs
        have hexec := h.exec (B := A.blame) (c := c) (.runCode code vs) trivial
        exact (recounting A.holds A.blame c).bind hexec (fun _ _ =>
          (recounting A.holds A.blame c).pure trivial) (s.write (.ran snippet vs)) hran
    · exact .inr ⟨err, hrefuses, by rw [hcallable]; rfl⟩
  | _ => exact hplain rfl

omit hperform

/-- Whole expressions and statements are evaluated. -/
theorem trees (bound : ℕ) :
    (∀ {c scope e}, D.Covers e → (recounting A.holds A.blame c).Pairs Anything
      (chronicleExpr bound scope e) (evaluate .shared bound scope e)) ∧ A.Performs D bound := by
  induction bound with
  | zero =>
    exact ⟨fun {c _ _} _ => (recounting A.holds A.blame c).diverge,
      fun {c _ _} _ => ((recounting A.holds A.blame c).activation Anything).diverge⟩
  | succ bound ih =>
    obtain ⟨hevaluate, hperform⟩ := ih
    refine ⟨fun {c scope e} he => ?_, fun {c scope s} hs v _ => ?_⟩
    · intro s hs
      have hnode := h.chronicleNode hperform scope he.node
        (fun a ha => hevaluate (he.parts a ha)) (h.evaluating e hs) rfl
      exact hnode.mapError fun err past => h.located e.location
    · have hnode : ((recounting A.holds A.blame c).activation Anything).Pairs Anything
          ((Evaluator.chronicled bound).performNode scope s.node)
          ((Evaluator.shared bound).performNode scope s.node) :=
        (h.supports bound).performNode trivial (Vocabulary.fitsStmt_callless s.node)
          (fun a ha => hevaluate (hs.expressions a ha)) fun t ht => hperform (hs.statements t ht)
      intro state hstate
      have hpeel : Activation.peel (chronicleStmt (bound + 1) scope s) v =
          (Activation.peel ((Evaluator.chronicled bound).performNode scope s.node) v).locate
            s.location := Activation.peel_locate _ _ _
      rw [hpeel, peel_perform_succ]
      exact (hnode v trivial state hstate).mapError fun err past => h.located s.location

/-- The evaluation of a tree keeps the account, and is what the engine does but for the
chronicle. -/
theorem evaluateTree (bound : ℕ) (scope : Scope) {t : Tree} (ht : D.CoversTree t) :
    (recounting A.holds A.blame c).Pairs Anything ((Evaluator.chronicled bound).evaluateTree scope t)
      ((Evaluator.shared bound).evaluateTree scope t) := by
  cases t with
  | expr e =>
    exact (recounting A.holds A.blame c).bind ((h.trees bound).1 ht) fun _ _ =>
      (recounting A.holds A.blame c).pure trivial
  | stmt s =>
    change (recounting A.holds A.blame c).Pairs _ ((Evaluator.chronicled bound).signalOf scope s)
      ((Evaluator.shared bound).signalOf scope s)
    rw [Evaluator.signalOf_eq_peel, Evaluator.signalOf_eq_peel]
    exact mono ((h.trees bound).2 ht .undefined trivial) fun _ _ => trivial

/-- A series of entries keeps the account, and is what the engine does but for the chronicle. -/
theorem visitAll (bound : ℕ) {entries : List (Id .engine × Entry)}
    (hentries : ∀ x ∈ entries, D.CoversEntry x.2) :
    (recounting A.holds .nothing c).Pairs Anything ((Evaluator.chronicled bound).visitAll entries)
      ((Evaluator.shared bound).enterAll entries) := by
  induction entries with
  | nil => exact (recounting A.holds .nothing c).pure trivial
  | cons x rest ih =>
    obtain ⟨e, entry⟩ := x
    have hvisit := h.visit (c := c) (h.trees bound).2 e entry (hentries (e, entry) (by simp))
    refine (recounting A.holds .nothing c).bind (recounting_attempt hvisit) fun result _ => ?_
    refine (recounting A.holds .nothing c).bind (ih fun y hy => hentries y (by simp [hy]))
      fun results _ => ?_
    exact (recounting A.holds .nothing c).pure trivial

end Account.Kept

/-! ### The chronicle makes no difference -/

/-- Nothing is claimed but that the code stays as it is. -/
def Account.plain (w₀ : World) : Account :=
  ⟨fun _ s => s.world.code = w₀.code, .nothing⟩

/-- The code stays as it is. -/
lemma Account.plain_kept (w₀ : World) :
    (Account.plain w₀).Kept w₀ Coverage.all fun _ _ _ => True where
  closed := Coverage.closed_all w₀
  code h := h
  acted {_ s _} k _ h := (k.change s.world).code_eq.trans h
  evaluating _ h := h
  began {_ s} a _ h := (a.code_enter s.world).trans h
  ended {_ s} a h := (a.code_leave s.world).trans h
  refused _ _ h := h
  uncoded _ _ _ h := h
  ran _ _ _ h := h
  bound _ _ := trivial
  resolved _ _ _ := trivial
  found _ _ := trivial
  kept {_ _ site _ _ _ resolution} h _ _ := (World.Change.resolution site resolution).code_eq.trans h
  called _ h := h
  returned _ h := h
  entering _ _ h := h
  crossed _ _ h := h
  succeeded _ h := h
  failed {v _ _ err} _ h := (World.Change.report v.engine err).code_eq.trans h
  located _ _ := trivial
  blamed _ _ _ := trivial

/-- Without the chronicle, an expression is evaluated as the engine does. -/
theorem chronicleExpr_erases (bound : ℕ) (scope : Scope) (e : Expr) (s : Chronicled) :
    (chronicleExpr bound scope e s).mapState (·.world) = evaluate .shared bound scope e s.world := by
  have hcovers : Coverage.all.Covers e := e.everywhere_of_forall fun _ => trivial
  have htrees : (Pairing.recounting (Account.plain s.world).holds .nothing []).Pairs
      Pairing.Anything (chronicleExpr bound scope e) (evaluate .shared bound scope e) :=
    ((Account.plain_kept s.world).trees bound).1 hcovers
  exact (htrees s rfl).mapState_eq

end ScriptEngine
