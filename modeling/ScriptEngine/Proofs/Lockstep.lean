import ScriptEngine.Proofs.Simulation
import ScriptEngine.Proofs.TreeParts

/-!
# Evaluation in lockstep

If two machines correspond in each single step, they correspond in whole evaluations: in every
expression and statement, every call, every host function and every entry of the host.  A single step
is a command, the beginning or the end of an activity, the read of a parameter, or a mark.

An evaluation may be confined to trees of some kind, a `Coverage`; the steps are then asked to
correspond only where such trees lead, and have to lead to bodies, and to scripts that host functions
execute, of that kind again.

The second evaluation may have a larger bound than the first one.

Main statement: `Evaluator.Simulates.within`.
-/

namespace ScriptEngine

/-! ### Scripts of host functions -/

namespace Host

variable {P Q : Stmt → Prop}

/-- What holds of all statements holds of those that a program executes. -/
lemma Program.executes_of_forall (h : ∀ s, P s) (program : Program) : program.Executes P := by
  induction program with
  | finish result => trivial
  | read next ih | allocate make next ih | display v next ih | inspectFrame name next ih =>
    exact fun a => ih a
  | write change next ih => exact ih
  | execute script next ih => exact ⟨h script, ih⟩
  | callFunction name args next ih | invokeCallback name args next ih => exact ih

/-- A program that executes less than what it may executes what it may. -/
lemma Program.Executes.mono {program : Program} (h : program.Executes P) (hPQ : ∀ s, P s → Q s) :
    program.Executes Q := by
  induction program with
  | finish result => trivial
  | read next ih | allocate make next ih | display v next ih | inspectFrame name next ih =>
    exact fun a => ih a (h a)
  | write change next ih => exact ih h
  | execute script next ih => exact ⟨hPQ script h.1, fun result => ih result (h.2 result)⟩
  | callFunction name args next ih | invokeCallback name args next ih =>
    exact fun result => ih result (h result)

/-- A program that stays outside the engine executes nothing. -/
lemma Program.StaysOutside.executes {program : Program} (h : program.StaysOutside) :
    program.Executes P := by
  induction program with
  | finish result => trivial
  | read next ih | allocate make next ih | display v next ih => exact fun a => ih a (h a)
  | write change next ih => exact ih h
  | execute | callFunction | invokeCallback | inspectFrame => exact h.elim

/-- What holds of all statements holds of those that the functions of a class execute. -/
lemma ApiClass.executes_of_forall (h : ∀ s, P s) (c : ApiClass) : c.Executes P :=
  fun _ _ => Program.executes_of_forall h _

lemma ApiClass.Executes.mono {c : ApiClass} (h : c.Executes P) (hPQ : ∀ s, P s → Q s) :
    c.Executes Q :=
  fun index args => (h index args).mono hPQ

/-- A class executes what its functions execute. -/
lemma ApiClass.executes_of_functions {c : ApiClass}
    (h : ∀ f ∈ c.functions, ∀ args, (f.body args).Executes P) : c.Executes P := by
  intro index args
  unfold call
  cases hfunction : c.functions[index]? with
  | none => trivial
  | some f => exact h f (Array.mem_of_getElem? hfunction) args

end Host

/-! ### What is covered -/

/-- What an evaluation comes across. -/
structure Coverage where
  /-- The forms of expressions. -/
  expression : ExprNode → Prop
  /-- The forms of statements. -/
  statement : StmtNode → Prop
  /-- A function may be called with that many arguments. -/
  fits : Id .function → ℕ → Prop
  /-- The scopes. -/
  reaches : Scope → Prop
  /-- Statements may be performed while these activities are open. -/
  performs : List Activity → Prop
  reaches_top : ∀ e, reaches (.top e)
  fits_of_call : ∀ {f site args}, expression (.call f site args) → fits f args.length
  performs_cons : ∀ a c, performs (a :: c)

namespace Coverage

variable (D : Coverage)

/-- Everything. -/
def all : Coverage where
  expression _ := True
  statement _ := True
  fits _ _ := True
  reaches _ := True
  performs _ := True
  reaches_top _ := trivial
  fits_of_call _ := trivial
  performs_cons _ _ := trivial

/-- The expression is covered. -/
def Covers (e : Expr) : Prop :=
  e.Everywhere D.expression

/-- The statement is covered. -/
def CoversStmt (s : Stmt) : Prop :=
  s.Everywhere D.expression D.statement

/-- The activity is covered. -/
def CoversActivity : Activity → Prop
  | .function f _ args => D.fits f args.length
  | .script | .callback _ _ => True

/-- The mark is made in a scope that is covered. -/
def CoversMark : Mark → Prop
  | .evaluating scope _ | .performing scope _ => D.reaches scope
  | .returned _ | .initEnded _ => True

/-- What the command gives does not lead out of what is covered. -/
def Yields : {α : Type} → Command α → α → Prop
  | _, .deeper _, inner => D.reaches inner
  | _, .functionBody _, body | _, .callbackBody _, body => ∀ s ∈ body, D.CoversStmt s
  | _, .findFunction _ _ count, (f, _) => D.fits f count
  | _, .apiClass _, c => c.Executes D.CoversStmt
  | _, _, _ => True

/-- Everything is covered by all. -/
lemma yields_all {α : Type} (k : Command α) (a : α) : all.Yields k a := by
  have hstmt : ∀ s, all.CoversStmt s := fun s =>
    s.everywhere_of_forall (fun _ => trivial) fun _ => trivial
  cases k with
  | functionBody f | callbackBody callback => exact fun s _ => hstmt s
  | apiClass object => exact Host.ApiClass.executes_of_forall hstmt a
  | _ => trivial

end Coverage

/-- Two machines correspond in each single step, as far as `D` leads. -/
structure Simulation.Respects {σ τ : Type} (S : Simulation σ τ) (m : Machine σ) (n : Machine τ)
    (D : Coverage) : Prop where
  exec : ∀ c {α : Type} (k : Command α), S.Matches c (D.Yields k) (m.exec k) (n.exec k)
  enter : ∀ c a, D.CoversActivity a → ∀ s t, S.Tied c s t →
    S.Tied (a :: c) (m.enter a s) (t.map (n.enter a))
  leave : ∀ c a s t, S.Tied (a :: c) s t → S.Tied c (m.leave a s) (t.map (n.leave a))
  argument : ∀ c f i, S.Matches c Anything (m.argument? f i) (n.argument? f i)
  evaluating : ∀ c scope e, D.reaches scope → ∀ s t, S.Tied c s t →
    S.Tied c (m.note (.evaluating scope e) s) (t.map (n.note (.evaluating scope e)))
  note : ∀ c mark, D.performs c → D.CoversMark mark → ∀ s t, S.Tied c s t →
    S.Tied c (m.note mark s) (t.map (n.note mark))

namespace Evaluator

variable {σ τ : Type}

/-- Perform a statement as a body of its own, and read something off its signal and the value that a
`return` has set. -/
def readOff {β : Type} (r : Evaluator σ) (scope : Scope) (body : Stmt) (read : Signal → Value → β) :
    Action σ β := fun s =>
  (r.perform scope body ⟨s, .undefined⟩).follow
    (fun signal a => .done (read signal a.returned) a.state) (fun e a => .failed e a.state)
    Activation.state

/-- The result of a body is read off its signal and the value that a `return` has set. -/
lemma run_eq_readOff (r : Evaluator σ) (scope : Scope) (body : Stmt) :
    r.run scope body = r.readOff scope body fun signal v =>
      if signal = .returning then v else .undefined := by
  funext s
  unfold run readOff
  cases r.perform scope body ⟨s, .undefined⟩ <;> rfl

/-- Two evaluators correspond in the parts that `D` covers. -/
structure Simulates (S : Simulation σ τ) (D : Coverage) (r : Evaluator σ) (r' : Evaluator τ) :
    Prop where
  machine : S.Respects r.machine r'.machine D
  evaluate : ∀ c {scope}, D.reaches scope → ∀ {e}, D.Covers e →
    S.Matches c Simulation.Anything (r.evaluate scope e) (r'.evaluate scope e)
  perform : ∀ c {scope}, D.reaches scope → D.performs c → ∀ {s}, D.CoversStmt s →
    S.activation.Matches c Simulation.Anything (r.perform scope s) (r'.perform scope s)
  rounds : r.rounds ≤ r'.rounds
  rounds_eq : S.abreast → r.rounds = r'.rounds

/-- A failure is reported on both sides, if its report is the same. -/
lemma reported_matches {S : Simulation σ τ} {c : List Activity} {r : Evaluator σ} {r' : Evaluator τ}
    {e : Id .engine} {Q : EvalError → Unit → Prop}
    (hreport : ∀ err, S.Matches c (Q err) (r.machine.exec (.report e err))
      (r'.machine.exec (.report e err)))
    {P : Value → Prop} {x : Action σ Value} {y : Action τ Value} (hxy : S.Matches c P x y) :
    S.Matches c P (r.reported e x) (r'.reported e y) := by
  refine hxy.attempt_result.bind fun result hresult => ?_
  cases result with
  | ok v => exact Simulation.Matches.pure (hresult v rfl)
  | error err => exact (hreport err).bind fun _ _ => Simulation.Matches.fail err

namespace Simulates

open Simulation

variable {S : Simulation σ τ} {D : Coverage} {r : Evaluator σ} {r' : Evaluator τ}
  (h : Simulates S D r r') (c : List Activity)

include h

/-! ### Calls -/

/-- The variables read alike. -/
lemma get (scope : Scope) (target : VarRef) :
    S.Matches c Anything (r.machine.get scope target) (r'.machine.get scope target) := by
  cases target with
  | parameter f i n =>
    refine (h.machine.exec c _).bind fun _ _ => ?_
    refine (h.machine.argument c f i).bind fun _ _ => ?_
    exact h.machine.exec c _
  | _ => exact h.machine.exec c _

/-- What is read off a statement that is performed as a body of its own is the same on both
sides. -/
lemma readOff {scope : Scope} (hscope : D.reaches scope) (hc : D.performs c) {body : Stmt}
    (hbody : D.CoversStmt body) {β : Type} (read : Signal → Value → β) :
    S.Matches c Anything (r.readOff scope body read) (r'.readOff scope body read) := by
  intro s t hst
  have hperform := h.perform c hscope hc hbody _ _ (hst.activation .undefined)
  have hxy := hperform.follow Carries.state c Anything
    (fun signal a => .done (read signal a.returned) a.state)
    (fun signal a => .done (read signal a.returned) a.state)
    (fun e a => .failed e a.state) (fun e a => .failed e a.state)
    (fun signal a b _ hab => by
      obtain ⟨t, hst, rfl⟩ := hab.exists_state
      rw [Option.map_map]
      exact Agrees.done trivial hst)
    (fun e a b hab => by
      obtain ⟨t, hst, rfl⟩ := hab.exists_state
      rw [Option.map_map]
      exact Agrees.failed e hst)
  rwa [Option.map_map, Option.map_map] at hxy

/-- A body gives the same result on both sides. -/
lemma run {scope : Scope} (hscope : D.reaches scope) (hc : D.performs c) {body : Stmt}
    (hbody : D.CoversStmt body) :
    S.Matches c Anything (r.run scope body) (r'.run scope body) := by
  rw [run_eq_readOff, run_eq_readOff]
  exact h.readOff c hscope hc hbody _

/-- A body that may be missing gives the same result on both sides. -/
lemma runBody {scope : Scope} (hscope : D.reaches scope) (hc : D.performs c) {body : Option Stmt}
    (hbody : ∀ s ∈ body, D.CoversStmt s) :
    S.Matches c Anything (r.runBody scope body) (r'.runBody scope body) := by
  cases body with
  | none => exact Matches.pure trivial
  | some body => exact h.run c hscope hc (hbody body rfl)

/-- An activity begins and ends on both sides. -/
lemma during (a : Activity) (ha : D.CoversActivity a) {x : Action σ Value} {y : Action τ Value}
    (hxy : S.Matches (a :: c) Anything x y) :
    S.Matches c Anything (r.machine.during a x) (r'.machine.during a y) :=
  Matches.during (h.machine.enter c a ha) (h.machine.leave c a) hxy

/-- The invocations of a function give the same result. -/
lemma invokeFunction (scope : Scope) {f : Id .function} (site : CallSiteId) {args : List Value}
    (hfit : D.fits f args.length) :
    S.Matches c Anything (r.invokeFunction scope f site args)
      (r'.invokeFunction scope f site args) := by
  refine (h.machine.exec c (.deeper scope)).bind fun inner hinner => ?_
  refine (h.machine.exec c (.functionBody f)).bind fun body hbody => ?_
  have hrun := h.runBody _ hinner (D.performs_cons (.function f site args) c) hbody
  refine (h.during c (.function f site args) hfit hrun).bind fun v _ => ?_
  exact (h.machine.exec c (.keepResult f v)).bind fun _ _ => Matches.pure trivial

/-- The invocations of a callback give the same result. -/
lemma invokeCallback (scope : Scope) (callback : Id .callback) (args : List Value) :
    S.Matches c Anything (r.invokeCallback scope callback args)
      (r'.invokeCallback scope callback args) := by
  refine (h.machine.exec c (.deeper scope)).bind fun inner hinner => ?_
  refine (h.machine.exec c (.callbackBody callback)).bind fun body hbody => ?_
  have hrun := h.runBody _ hinner (D.performs_cons (.callback callback args) c) hbody
  exact h.during c (.callback callback args) trivial hrun

/-! ### Entries of the host -/

/-- A failure is reported on both sides. -/
lemma reported (e : Id .engine) {x : Action σ Value} {y : Action τ Value}
    (hxy : S.Matches c Anything x y) :
    S.Matches c Anything (r.reported e x) (r'.reported e y) :=
  reported_matches (fun error => h.machine.exec c (.report e error)) hxy

/-- A script gives the same result on both sides. -/
lemma execute (e : Id .engine) {script : Stmt} (hscript : D.CoversStmt script) :
    S.Matches c Anything (r.execute e script) (r'.execute e script) := by
  have hrun := h.run _ (D.reaches_top e) (D.performs_cons .script c) hscript
  exact h.reported c e (h.during c .script trivial hrun)

/-- The entries by a function give the same result. -/
lemma callNamed (e : Id .engine) (name : String) (args : List Value) :
    S.Matches c Anything (r.callNamed e name args) (r'.callNamed e name args) := by
  refine h.reported c e ?_
  refine (h.machine.exec c (.findFunction e name args.length)).bind fun found hfit => ?_
  exact (h.invokeFunction c _ _ hfit).mapError _

/-- The entries by a callback give the same result. -/
lemma invokeNamed (e : Id .engine) (name : String) (args : List Value) :
    S.Matches c Anything (r.invokeNamed e name args) (r'.invokeNamed e name args) := by
  refine h.reported c e ?_
  refine (h.machine.exec c (.findCallback e name args.length)).bind fun callback _ => ?_
  exact (h.invokeCallback c _ _ _).mapError _

/-- A host function that executes what is covered gives the same result on both sides. -/
lemma runHost (e : Id .engine) {program : Host.Program} (hprogram : program.Executes D.CoversStmt) :
    S.Matches c Anything (r.runHost e program) (r'.runHost e program) := by
  induction program with
  | finish result => exact Matches.ofResult result
  | read next ih => exact (h.machine.exec c .memory).bind fun m _ => ih m (hprogram m)
  | write change next ih =>
    exact (h.machine.exec c (.modifyMemory change)).bind fun _ _ => ih hprogram
  | allocate make next ih =>
    exact (h.machine.exec c (.allocate make)).bind fun v _ => ih v (hprogram v)
  | display v next ih =>
    exact (h.machine.exec c (.display v)).bind fun text _ => ih text (hprogram text)
  | execute script next ih =>
    exact (h.execute c e hprogram.1).attempt.bind fun result _ => ih result (hprogram.2 result)
  | callFunction name args next ih =>
    exact (h.callNamed c e name args).attempt.bind fun result _ => ih result (hprogram result)
  | invokeCallback name args next ih =>
    exact (h.invokeNamed c e name args).attempt.bind fun result _ => ih result (hprogram result)
  | inspectFrame name next ih =>
    exact (h.machine.exec c (.inspectFrame e name)).bind fun view _ => ih view (hprogram view)

/-! ### Expressions -/

/-- A call of a native object gives the same result on both sides. -/
lemma callApi (scope : Scope) (object : NativeRef) (index : ℕ) (args : List Value) :
    S.Matches c Anything (r.callApi scope object index args)
      (r'.callApi scope object index args) :=
  (h.machine.exec c (.apiClass object)).bind fun _ hclass => h.runHost c _ (hclass index args)

/-- An object call is resolved in the same way on both sides. -/
lemma resolve (scope : Scope) (site : Id .callSite) (target : VarRef) (function : Name) (count : ℕ) :
    S.Matches c Anything (r.resolve scope site target function count)
      (r'.resolve scope site target function count) := by
  refine (h.machine.exec c (.resolution site)).bind fun known _ => ?_
  cases known with
  | some resolution => exact Matches.pure trivial
  | none =>
    refine (h.get c scope target).bind fun v _ => ?_
    refine (h.machine.exec c _).bind fun resolution _ => ?_
    exact (h.machine.exec c _).bind fun _ _ => Matches.pure trivial

variable {scope : Scope} (hscope : D.reaches scope)

include hscope

/-- Several expressions give the same values, one each. -/
lemma evaluateAll {es : List Expr} (hes : ∀ e ∈ es, D.Covers e) :
    S.Matches c (fun vs => vs.length = es.length) (r.evaluateAll scope es)
      (r'.evaluateAll scope es) := by
  induction es with
  | nil => exact Matches.pure rfl
  | cons e rest ih =>
    refine (h.evaluate c hscope (hes e (by simp))).bind fun v _ => ?_
    refine (ih fun a ha => hes a (by simp [ha])).bind fun vs hvs => ?_
    exact Matches.pure (by simp [hvs])

/-- The properties of an object get the same values. -/
lemma evaluateProperties {properties : List (Name × Expr)}
    (hes : ∀ e ∈ properties.map Prod.snd, D.Covers e) (bag : PropertyBag) :
    S.Matches c Anything (r.evaluateProperties scope bag properties)
      (r'.evaluateProperties scope bag properties) := by
  induction properties generalizing bag with
  | nil => exact Matches.pure trivial
  | cons property rest ih =>
    obtain ⟨n, e⟩ := property
    refine (h.evaluate c hscope (hes e (by simp))).bind fun v _ => ?_
    exact ih (fun a ha => hes a (by simp [ha])) _

/-- A form of expression gives the same value on both sides. -/
lemma evaluateNode {node : ExprNode} (hnode : D.expression node)
    (hparts : ∀ e ∈ node.parts, D.Covers e) :
    S.Matches c Anything (r.evaluateNode scope node) (r'.evaluateNode scope node) := by
  have hpart : ∀ e ∈ node.parts,
      S.Matches c Anything (r.evaluate scope e) (r'.evaluate scope e) :=
    fun e he => h.evaluate c hscope (hparts e he)
  cases node with
  | literal v | apiConstant v => exact Matches.pure trivial
  | var target => exact h.get c scope target
  | assign target op value =>
    cases op with
    | none =>
      refine (hpart value (by simp [ExprNode.parts])).bind fun v _ => ?_
      exact (h.machine.exec c _).bind fun _ _ => Matches.pure trivial
    | some op =>
      refine (h.get c scope target).bind fun current _ => ?_
      refine (hpart value (by simp [ExprNode.parts])).bind fun operand _ => ?_
      refine (h.machine.exec c _).bind fun v _ => ?_
      exact (h.machine.exec c _).bind fun _ _ => Matches.pure trivial
  | binary op left right =>
    refine (hpart left (by simp [ExprNode.parts])).bind fun l _ => ?_
    refine (hpart right (by simp [ExprNode.parts])).bind fun v _ => ?_
    exact (h.machine.exec c (.compute op l v)).mono fun _ _ => trivial
  | logical op left right =>
    refine (hpart left (by simp [ExprNode.parts])).bind fun v _ => ?_
    split
    · exact Matches.pure trivial
    · exact hpart right (by simp [ExprNode.parts])
  | unary op operand =>
    exact (hpart operand (by simp [ExprNode.parts])).bind fun _ _ => Matches.pure trivial
  | conditional condition consequent alternative =>
    refine (hpart condition (by simp [ExprNode.parts])).bind fun v _ => ?_
    split
    · exact hpart consequent (by simp [ExprNode.parts])
    · exact hpart alternative (by simp [ExprNode.parts])
  | array items =>
    exact (h.evaluateAll c hscope hparts).bind fun vs _ => h.machine.exec c (.newArray vs)
  | object properties =>
    exact (h.evaluateProperties c hscope hparts ∅).bind fun bag _ =>
      h.machine.exec c (.newObject bag)
  | member object property =>
    exact (hpart object (by simp [ExprNode.parts])).bind fun v _ =>
      h.machine.exec c (.readMember scope.engine v property)
  | index object index =>
    refine (hpart object (by simp [ExprNode.parts])).bind fun v _ => ?_
    exact (hpart index (by simp [ExprNode.parts])).bind fun i _ =>
      h.machine.exec c (.readIndex scope.engine v i)
  | call f site args =>
    refine (h.evaluateAll c hscope hparts).bind fun vs hvs => ?_
    have hfit : D.fits f vs.length := by
      rw [hvs]
      exact D.fits_of_call hnode
    exact h.invokeFunction c scope site hfit
  | apiCall object function slot args =>
    refine (h.machine.exec c _).bind fun _ _ => ?_
    exact (h.evaluateAll c hscope hparts).bind fun vs _ => h.callApi c scope object _ vs
  | objectCall site target function args =>
    refine (h.resolve c scope site target function _).bind fun resolution _ => ?_
    exact (h.evaluateAll c hscope hparts).bind fun vs _ => h.callApi c scope _ _ vs
  | snippetCall snippet args =>
    refine (Matches.ofResult _).bind fun _ _ => ?_
    refine (h.evaluateAll c hscope hparts).bind fun vs _ => ?_
    refine (Matches.ofResult _).bind fun code _ => ?_
    exact (h.machine.exec c (.runCode code vs)).bind fun _ _ => Matches.pure trivial

/-! ### Statements -/

/-- An expression in a statement gives the same value on both sides. -/
lemma valueOf {e : Expr} (he : D.Covers e) :
    S.activation.Matches c Anything (r.valueOf scope e) (r'.valueOf scope e) :=
  (h.evaluate c hscope he).within

omit hscope in
/-- Both machines are told the same. -/
lemma note (hc : D.performs c) {mark : Mark} (hmark : D.CoversMark mark) :
    S.activation.Matches c Anything (r.note mark) (r'.note mark) :=
  Matches.within (Matches.of_done trivial (h.machine.note c mark hc hmark))

/-- A condition holds on both sides or on neither. -/
lemma holds {condition : Option Expr} (hcondition : ∀ e ∈ condition, D.Covers e) :
    S.activation.Matches c Anything (r.holds scope condition) (r'.holds scope condition) := by
  cases condition with
  | none => exact Matches.pure trivial
  | some e => exact (h.valueOf c hscope (hcondition e rfl)).bind fun _ _ => Matches.pure trivial

/-- The value of an expression that may be missing is the same on both sides. -/
lemma valueOrUndefined {value : Option Expr} (hvalue : ∀ e ∈ value, D.Covers e) :
    S.activation.Matches c Anything (r.valueOrUndefined scope value)
      (r'.valueOrUndefined scope value) := by
  cases value with
  | none => exact Matches.pure trivial
  | some e => exact h.valueOf c hscope (hvalue e rfl)

/-- Several statements end with the same signal. -/
lemma performAll (hc : D.performs c) {ss : List Stmt} (hss : ∀ s ∈ ss, D.CoversStmt s) :
    S.activation.Matches c Anything (r.performAll scope ss) (r'.performAll scope ss) := by
  induction ss with
  | nil => exact Matches.pure trivial
  | cons s rest ih =>
    refine (h.perform c hscope hc (hss s (by simp))).bind fun signal _ => ?_
    cases signal with
    | normal => exact ih fun t ht => hss t (by simp [ht])
    | returning | breaking | continuing => exact Matches.pure trivial

/-- A loop advances in the same way on both sides. -/
lemma advance {step : Option Expr} (hstep : ∀ e ∈ step, D.Covers e) :
    S.activation.Matches c Anything (r.advance scope step) (r'.advance scope step) := by
  cases step with
  | none => exact Matches.pure trivial
  | some e => exact (h.valueOf c hscope (hstep e rfl)).bind fun _ _ => Matches.pure trivial

/-- A round of a loop goes the same way on both sides. -/
lemma round (hc : D.performs c) {condition step : Option Expr} {body : Stmt}
    (hcondition : ∀ e ∈ condition, D.Covers e) (hstep : ∀ e ∈ step, D.Covers e)
    (hbody : D.CoversStmt body) :
    S.activation.Matches c Anything (r.round scope condition step body)
      (r'.round scope condition step body) := by
  refine (h.holds c hscope hcondition).bind fun holds _ => ?_
  cases holds with
  | false => exact Matches.pure trivial
  | true =>
    refine (h.perform c hscope hc hbody).bind fun signal _ => ?_
    cases signal with
    | breaking | returning => exact Matches.pure trivial
    | normal | continuing =>
      exact (h.advance c hscope hstep).bind fun _ _ => Matches.pure trivial

/-- A `for` loop is initialised in the same way on both sides. -/
lemma initialise (hc : D.performs c) {init : Option Stmt} (hinit : ∀ s ∈ init, D.CoversStmt s) :
    S.activation.Matches c Anything (r.initialise scope init) (r'.initialise scope init) := by
  cases init with
  | none => exact Matches.pure trivial
  | some s =>
    exact (h.perform c hscope hc (hinit s rfl)).bind fun signal _ => h.note c hc trivial

/-- A form of statement ends with the same signal on both sides. -/
lemma performNode (hc : D.performs c) {node : StmtNode}
    (hexpressions : ∀ e ∈ node.expressions, D.Covers e)
    (hstatements : ∀ s ∈ node.statements, D.CoversStmt s) :
    S.activation.Matches c Anything (r.performNode scope node) (r'.performNode scope node) := by
  cases node with
  | expr e =>
    have he := hexpressions e (by simp [StmtNode.expressions])
    exact (h.valueOf c hscope he).bind fun _ _ => Matches.pure trivial
  | declare target init =>
    have hinit : ∀ e ∈ init, D.Covers e := by simpa [StmtNode.expressions] using hexpressions
    refine (h.valueOrUndefined c hscope hinit).bind fun v _ => ?_
    exact (h.machine.exec c _).within.bind fun _ _ => Matches.pure trivial
  | block statements => exact h.performAll c hscope hc hstatements
  | branch condition consequent alternative =>
    have hcondition := hexpressions condition (by simp [StmtNode.expressions])
    refine (h.valueOf c hscope hcondition).bind fun v _ => ?_
    split
    · exact h.perform c hscope hc (hstatements _ (by simp [StmtNode.statements]))
    · cases alternative with
      | none => exact Matches.pure trivial
      | some s => exact h.perform c hscope hc (hstatements _ (by simp [StmtNode.statements]))
  | whileLoop condition body =>
    refine Matches.repeatUpTo ?_ h.rounds h.rounds_eq
    refine h.round c hscope hc ?_ (by simp) (hstatements _ (by simp [StmtNode.statements]))
    simpa [StmtNode.expressions] using hexpressions
  | forLoop init condition step body =>
    have hinit : ∀ s ∈ init, D.CoversStmt s := fun s hs =>
      hstatements s (by simp [StmtNode.statements, Option.mem_def.1 hs])
    have hcondition : ∀ e ∈ condition, D.Covers e := fun e he =>
      hexpressions e (by simp [StmtNode.expressions, Option.mem_def.1 he])
    have hstep : ∀ e ∈ step, D.Covers e := fun e he =>
      hexpressions e (by simp [StmtNode.expressions, Option.mem_def.1 he])
    refine (h.initialise c hscope hc hinit).bind fun _ _ => ?_
    refine Matches.repeatUpTo ?_ h.rounds h.rounds_eq
    exact h.round c hscope hc hcondition hstep (hstatements _ (by simp [StmtNode.statements]))
  | returnValue value =>
    have hvalue : ∀ e ∈ value, D.Covers e := by simpa [StmtNode.expressions] using hexpressions
    refine (h.valueOrUndefined c hscope hvalue).bind fun v _ => ?_
    refine (Matches.setReturned v).bind fun _ _ => ?_
    have hmark : D.CoversMark (.returned v) := trivial
    exact (h.note c hc hmark).bind fun _ _ => Matches.pure trivial
  | breakLoop | continueLoop => exact Matches.pure trivial

end Simulates

end Evaluator

/-! ### Whole trees -/

section

open Simulation

variable {σ τ : Type} {S : Simulation σ τ} {m : Machine σ} {n : Machine τ} {D : Coverage}
  (h : S.Respects m n D)

include h

/-- Evaluators within bounds correspond if the machines do. -/
theorem Evaluator.Simulates.within {bound bound' : ℕ} (hb : bound ≤ bound')
    (habreast : S.abreast → bound = bound') :
    Evaluator.Simulates S D (Evaluator.within m bound) (Evaluator.within n bound') := by
  induction bound generalizing bound' with
  | zero =>
    have hzero : S.abreast → bound' = 0 := fun hS => (habreast hS).symm
    refine ⟨h, fun c scope _ e _ => ?_, fun c scope _ _ s _ => ?_, hb, habreast⟩
    · refine Matches.diverge fun hS => ?_
      rw [hzero hS]
      rfl
    · refine Matches.diverge fun hS => ?_
      rw [hzero hS]
      rfl
  | succ bound ih =>
    obtain ⟨bound', rfl⟩ : ∃ k, bound' = k + 1 := ⟨bound' - 1, by omega⟩
    have ih := ih (Nat.le_of_succ_le_succ hb) fun hS => Nat.succ.inj (habreast hS)
    refine ⟨h, ?_, ?_, hb, habreast⟩
    · intro c scope hscope e he s t hst
      have hnode := (ih.evaluateNode c hscope he.node he.parts).mapError (·.locate e.location)
      have hxy := hnode _ _ (h.evaluating c scope e hscope s t hst)
      rwa [Option.map_map] at hxy
    · intro c scope hscope hc s hs a b hab
      obtain ⟨t, hst, rfl⟩ := hab.exists_state
      have hnode := (ih.performNode c hscope hc hs.expressions hs.statements).mapError
        (·.locate s.location)
      have hmarked := h.note c (.performing scope s) hc hscope _ _ hst
      have hxy := hnode _ _ (hmarked.activation a.returned)
      rw [Option.map_map, Option.map_map] at hxy
      rw [Option.map_map]
      exact hxy

end

end ScriptEngine
