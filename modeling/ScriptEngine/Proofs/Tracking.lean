import Mathlib.Order.Basic
import ScriptEngine.Proofs.LoopFree
import ScriptEngine.Proofs.Pairing

/-!
# The values that an evaluation hands on

An evaluation takes values from one place and puts them into another one.  What may be said of a
value depends on what there is: a reference is to an array that is there by the time, and arrays are
added all the while.  A `Tracking` is a claim about actions that begin at some stage, of which it
says something about the values at the stage where they end; and it composes.  Whether an action
that never ends makes the claim true or false is its own affair.

If the claim holds of all single steps that are given no values but those that there are, and of
calls, then it holds of each form of expression and statement, provided that it holds of the parts
at all later stages.

Main statements: `Evaluator.Tracked.evaluateNode` and `Evaluator.Tracked.performNode`.
-/

namespace ScriptEngine

/-! ### Claims about actions -/

/-- What may occur and what may be called.  Which values there are depends on the stage. -/
structure Trust (ι : Type) [Preorder ι] where
  /-- The values that there are at a stage. -/
  value : ι → Value → Prop
  /-- The functions of native objects, by their positions. -/
  host : NativeRef → ℕ → Prop
  /-- The names under which an object call may look for a function. -/
  method : Name → Prop
  code : MachineCode → Prop
  value_of_isPlain : ∀ i {v : Value}, v.IsPlain → value i v
  value_mono : ∀ {i j v}, value i v → i ≤ j → value j v

/-- A claim about actions that depends on the stage at which they begin, and that composes. -/
structure Tracking (ι σ : Type) [Preorder ι] where
  /-- The claim about an action, whose value satisfies `Q` for the stage at which it ends. -/
  Tracks : {α : Type} → ι → (Q : ι → α → Prop) → Action σ α → Prop
  pure : ∀ {α : Type} {i} {Q : ι → α → Prop} {a : α}, Q i a → Tracks i Q (Pure.pure a)
  fail : ∀ {α : Type} {i} {Q : ι → α → Prop} (e : EvalError), Tracks i Q (Action.fail e)
  bind : ∀ {α β : Type} {i} {Q : ι → α → Prop} {R : ι → β → Prop} {x : Action σ α}
    {f : α → Action σ β}, Tracks i Q x → (∀ j a, i ≤ j → Q j a → Tracks j R (f a)) →
    Tracks i R (x >>= f)

namespace Tracking

variable {ι σ α : Type} [Preorder ι] {T : Tracking ι σ} {D : Trust ι} {i : ι} {Q R : ι → α → Prop}
  {x : Action σ α}

/-- What is said of the value may be weakened. -/
lemma mono (h : T.Tracks i Q x) (hQR : ∀ j a, Q j a → R j a) : T.Tracks i R x := by
  have hpure := T.bind h fun j a _ ha => T.pure (hQR j a ha)
  rwa [Action.bind_pure] at hpure

/-- A result that is known already. -/
lemma ofResult {result : Except EvalError α} (h : ∀ a, result = .ok a → Q i a) :
    T.Tracks i Q (Action.ofResult result) := by
  cases result with
  | ok a => exact T.pure (h a rfl)
  | error e => exact T.fail e

variable (T) in
/-- The claim holds of actions that never end. -/
def Lenient : Prop :=
  ∀ (α : Type) i (Q : ι → α → Prop), T.Tracks i Q Action.diverge

/-- A loop, as long as the claim holds of its rounds. -/
lemma repeatUpTo (hlenient : T.Lenient) {body : Action σ (Option α)}
    (h : ∀ j, i ≤ j → T.Tracks j (fun k o => ∀ a ∈ o, Q k a) body) (bound : ℕ) :
    T.Tracks i Q (Action.repeatUpTo bound body) := by
  induction bound generalizing i with
  | zero => exact hlenient α i Q
  | succ bound ih =>
    rw [Action.repeatUpTo_succ]
    refine T.bind (h i le_rfl) fun j o hj ho => ?_
    cases o with
    | none => exact ih fun k hk => h k (hj.trans hk)
    | some a => exact T.pure (ho a rfl)

variable (T D) in
/-- The claim about actions in a body, whose value to return is one that there is, before and
after. -/
def activation : Tracking ι (Activation σ) where
  Tracks i Q x := ∀ v, D.value i v →
    T.Tracks i (fun j p => Q j p.1 ∧ D.value j p.2) (Activation.peel x v)
  pure ha _ hv := by
    rw [Activation.peel_pure]
    exact T.pure ⟨ha, hv⟩
  fail e _ _ := T.fail e
  bind hx hf v hv := by
    rw [Activation.peel_bind]
    exact T.bind (hx v hv) fun j p hj hp => hf j p.1 hj hp.1 p.2 hp.2

variable (T D) in
/-- The claim `A` about actions in a body holds of those that act on the state alone if `T` does,
and as long as the value to return is one that there is. -/
structure InBody (A : Tracking ι (Activation σ)) : Prop where
  within : ∀ {α : Type} {i} {Q : ι → α → Prop} {x : Action σ α}, T.Tracks i Q x →
    A.Tracks i Q (Activation.within x)
  setReturned : ∀ {i v}, D.value i v → A.Tracks i (fun _ _ => True) (Activation.setReturned v)

variable (T D) in
lemma inBody_activation : T.InBody D (T.activation D) where
  within h v hv := by
    rw [Activation.peel_within]
    exact T.bind h fun j a hj ha => T.pure ⟨ha, D.value_mono hv hj⟩
  setReturned hv w _ := by
    rw [Activation.peel_setReturned]
    exact T.pure ⟨trivial, hv⟩

end Tracking

/-! ### Trees and commands -/

namespace Trust

variable {ι : Type} [Preorder ι] (D : Trust ι) (i : ι)

/-- All values are there. -/
abbrev Values (vs : List Value) : Prop :=
  ∀ v ∈ vs, D.value i v

/-- All properties are there. -/
abbrev Bag (bag : PropertyBag) : Prop :=
  ∀ n, D.value i (bag.read n)

/-- The literals of the form of expression are there, and what it calls may be called. -/
def Permits : ExprNode → Prop
  | .literal v | .apiConstant v => D.value i v
  | .apiCall object _ slot _ => D.host object slot.index
  | .objectCall _ _ function _ => D.method function
  | .snippetCall snippet _ => ∀ code, snippet.state = .ok code → D.code code
  | _ => True

/-- The command is given nothing but what there is.  Host functions are dealt with apart. -/
def Allows : {α : Type} → Command α → Prop
  | _, .deliver _ _ argument => ∀ v ∈ argument, D.value i v
  | _, .set _ _ v => D.value i v
  | _, .findMethod _ _ _ function _ => D.method function
  | _, .keepResolution _ r => D.host r.1 r.2.index
  | _, .newArray items => D.Values i items
  | _, .newObject properties => D.Bag i properties
  | _, .runCode code slots => D.code code ∧ D.Values i slots
  | _, .memory | _, .modifyMemory _ | _, .allocate _ | _, .display _ | _, .inspectFrame _ _ => False
  | _, _ => True

/-- The command gives nothing but what there is. -/
def Yields : {α : Type} → Command α → α → Prop
  | _, .get _ _, v | _, .deliver _ _ _, v | _, .compute _ _ _, v | _, .newArray _, v
  | _, .newObject _, v | _, .readMember _ _ _, v | _, .readIndex _ _ _, v => D.value i v
  | _, .resolution _, known => ∀ r ∈ known, D.host r.1 r.2.index
  | _, .findMethod _ _ _ _ _, r => D.host r.1 r.2.index
  | _, _, _ => True

variable {D} {i j : ι}

/-- What is permitted stays so. -/
lemma Permits.mono {node : ExprNode} (h : D.Permits i node) (hij : i ≤ j) : D.Permits j node := by
  cases node with
  | literal v | apiConstant v => exact D.value_mono h hij
  | apiCall | objectCall | snippetCall => exact h
  | _ => trivial

/-- What is allowed stays so. -/
lemma Allows.mono {α : Type} {k : Command α} (h : D.Allows i k) (hij : i ≤ j) : D.Allows j k := by
  cases k with
  | deliver scope n argument => exact fun v hv => D.value_mono (h v hv) hij
  | set scope target v => exact D.value_mono h hij
  | findMethod | keepResolution => exact h
  | newArray items => exact fun v hv => D.value_mono (h v hv) hij
  | newObject properties => exact fun n => D.value_mono (h n) hij
  | runCode code slots => exact ⟨h.1, fun v hv => D.value_mono (h.2 v hv) hij⟩
  | memory | modifyMemory | allocate | display | inspectFrame => exact h.elim
  | _ => trivial

end Trust

/-! ### Parts of statements -/

namespace Tracking

open Evaluator

variable {ι σ : Type} [Preorder ι] {T : Tracking ι σ} {D : Trust ι} {A : Tracking ι (Activation σ)}
  {r : Evaluator σ} {scope : Scope} {i : ι}

/-- Several statements are performed in order. -/
lemma performAll {ss : List Stmt}
    (hss : ∀ s ∈ ss, ∀ j, i ≤ j → A.Tracks j (fun _ _ => True) (r.perform scope s)) :
    A.Tracks i (fun _ _ => True) (r.performAll scope ss) := by
  induction ss generalizing i with
  | nil => exact A.pure trivial
  | cons s rest ih =>
    refine A.bind (hss s (by simp) i le_rfl) fun j signal hj _ => ?_
    cases signal with
    | normal => exact ih fun t ht k hk => hss t (by simp [ht]) k (hj.trans hk)
    | returning | breaking | continuing => exact A.pure trivial

namespace InBody

variable (hA : T.InBody D A)

include hA

/-- An expression in a statement is evaluated. -/
lemma valueOf {e : Expr} (he : T.Tracks i D.value (r.evaluate scope e)) :
    A.Tracks i D.value (r.valueOf scope e) :=
  hA.within he

/-- A condition is tested, if there is one. -/
lemma holds {condition : Option Expr}
    (hcondition : ∀ e ∈ condition, T.Tracks i D.value (r.evaluate scope e)) :
    A.Tracks i (fun _ _ => True) (r.holds scope condition) := by
  cases condition with
  | none => exact A.pure trivial
  | some e => exact A.bind (hA.valueOf (hcondition e rfl)) fun _ _ _ _ => A.pure trivial

/-- An expression is evaluated, if there is one. -/
lemma valueOrUndefined {value : Option Expr}
    (hvalue : ∀ e ∈ value, T.Tracks i D.value (r.evaluate scope e)) :
    A.Tracks i D.value (r.valueOrUndefined scope value) := by
  cases value with
  | none => exact A.pure (D.value_of_isPlain i trivial)
  | some e => exact hA.valueOf (hvalue e rfl)

/-- A loop advances, if it has a step. -/
lemma advance {step : Option Expr}
    (hstep : ∀ e ∈ step, T.Tracks i D.value (r.evaluate scope e)) :
    A.Tracks i (fun _ _ => True) (r.advance scope step) := by
  cases step with
  | none => exact A.pure trivial
  | some e => exact A.bind (hA.valueOf (hstep e rfl)) fun _ _ _ _ => A.pure trivial

/-- A loop goes round. -/
lemma round {condition step : Option Expr} {body : Stmt}
    (hexpressions : ∀ e, e ∈ condition ∨ e ∈ step → ∀ j, i ≤ j →
      T.Tracks j D.value (r.evaluate scope e))
    (hbody : ∀ j, i ≤ j → A.Tracks j (fun _ _ => True) (r.perform scope body)) :
    A.Tracks i (fun _ o => ∀ signal ∈ o, True) (r.round scope condition step body) := by
  have hcondition := hA.holds fun e he => hexpressions e (.inl he) i le_rfl
  refine A.bind hcondition fun j holds hj _ => ?_
  cases holds with
  | false => exact A.pure fun _ _ => trivial
  | true =>
    refine A.bind (hbody j hj) fun k signal hk _ => ?_
    cases signal with
    | breaking | returning => exact A.pure fun _ _ => trivial
    | normal | continuing =>
      have hstep := hA.advance fun e he => hexpressions e (.inr he) k (hj.trans hk)
      exact A.bind hstep fun _ _ _ _ => A.pure fun _ _ => trivial

end InBody

end Tracking

/-! ### Forms of expressions and statements -/

namespace Evaluator

variable {ι σ : Type} [Preorder ι]

/-- The claim holds of the single steps of an evaluator in a scope, and of what it calls there. -/
structure Tracked (T : Tracking ι σ) (D : Trust ι) (r : Evaluator σ) (scope : Scope) : Prop where
  exec : ∀ {α : Type} {i} (k : Command α), D.Allows i k →
    T.Tracks i (fun j => D.Yields j k) (r.machine.exec k)
  argument : ∀ {i} f n, T.Tracks i (fun j argument => ∀ v ∈ argument, D.value j v)
    (r.machine.argument? f n)
  note : ∀ {i} mark, mark.IsInner →
    T.Tracks i (fun _ _ => True) (Action.change (r.machine.note mark))
  call : ∀ {i args} f site, D.Values i args →
    T.Tracks i D.value (r.invokeFunction scope f site args)
  host : ∀ {i object index args}, D.host object index → D.Values i args →
    T.Tracks i D.value (r.callApi scope object index args)

namespace Tracked

variable {T : Tracking ι σ} {D : Trust ι} {r : Evaluator σ} {scope : Scope} {i : ι}

/-- Several expressions are evaluated in order. -/
lemma evaluateAll {es : List Expr}
    (hparts : ∀ e ∈ es, ∀ j, i ≤ j → T.Tracks j D.value (r.evaluate scope e)) :
    T.Tracks i D.Values (r.evaluateAll scope es) := by
  induction es generalizing i with
  | nil => exact T.pure fun v hv => absurd hv List.not_mem_nil
  | cons e rest ih =>
    refine T.bind (hparts e (by simp) i le_rfl) fun j v hj hv => ?_
    have hrest : ∀ a ∈ rest, ∀ k, j ≤ k → T.Tracks k D.value (r.evaluate scope a) :=
      fun a ha k hk => hparts a (by simp [ha]) k (hj.trans hk)
    refine T.bind (ih hrest) fun k vs hk hvs => T.pure ?_
    -- the first value waits for the others, and is there when they have been evaluated
    exact List.forall_mem_cons.2 ⟨D.value_mono hv hk, hvs⟩

/-- The properties of an object are evaluated in order. -/
lemma evaluateProperties {properties : List (Name × Expr)}
    (hparts : ∀ e ∈ properties.map Prod.snd, ∀ j, i ≤ j → T.Tracks j D.value (r.evaluate scope e))
    {bag : PropertyBag} (hbag : D.Bag i bag) :
    T.Tracks i D.Bag (r.evaluateProperties scope bag properties) := by
  induction properties generalizing i bag with
  | nil => exact T.pure hbag
  | cons property rest ih =>
    obtain ⟨name, e⟩ := property
    refine T.bind (hparts e (by simp) i le_rfl) fun j v hj hv => ?_
    refine ih (fun a ha k hk => hparts a (by simp [ha]) k (hj.trans hk)) ?_
    exact PropertyBag.forall_read_insert (fun n => D.value_mono (hbag n) hj) hv name

variable (h : Tracked T D r scope)

include h

/-- A variable is read. -/
lemma get (target : VarRef) : T.Tracks i D.value (r.machine.get scope target) := by
  cases target with
  | parameter f n name =>
    refine T.bind (h.exec (.requireFunction scope (.parameter f n name) f) trivial)
      fun j _ _ _ => ?_
    refine T.bind (h.argument f n) fun k argument _ hargument => ?_
    exact h.exec (.deliver scope name argument) hargument
  | register n => exact h.exec (.get scope (.register n)) trivial
  | global name => exact h.exec (.get scope (.global name)) trivial
  | functionLocal f name => exact h.exec (.get scope (.functionLocal f name)) trivial
  | callbackLocal c name => exact h.exec (.get scope (.callbackLocal c name)) trivial
  | callbackParameter c n name => exact h.exec (.get scope (.callbackParameter c n name)) trivial

/-- An object call is resolved. -/
lemma resolve (site : Id .callSite) (target : VarRef) {function : Name}
    (hmethod : D.method function) (count : ℕ) :
    T.Tracks i (fun _ resolution => D.host resolution.1 resolution.2.index)
      (r.resolve scope site target function count) := by
  refine T.bind (h.exec (.resolution site) trivial) fun j known _ hknown => ?_
  cases known with
  | some resolution => exact T.pure (hknown resolution rfl)
  | none =>
    refine T.bind (h.get target) fun k v _ _ => ?_
    have hfind := h.exec (i := k) (.findMethod scope.engine target v function count) hmethod
    refine T.bind hfind fun l resolution _ hresolution => ?_
    have hkeep := h.exec (i := l) (.keepResolution site resolution) hresolution
    exact T.bind hkeep fun _ _ _ _ => T.pure hresolution

/-- The claim holds of a form of expression if it holds of the parts at all later stages. -/
theorem evaluateNode {node : ExprNode} (hnode : D.Permits i node)
    (hparts : ∀ e ∈ node.parts, ∀ j, i ≤ j → T.Tracks j D.value (r.evaluate scope e)) :
    T.Tracks i D.value (r.evaluateNode scope node) := by
  cases node with
  | literal v | apiConstant v => exact T.pure hnode
  | var target => exact h.get target
  | assign target op value =>
    have hvalue := hparts value (by simp [ExprNode.parts])
    cases op with
    | none =>
      refine T.bind (hvalue i le_rfl) fun j v _ hv => ?_
      refine T.bind (h.exec (.set scope target v) hv) fun k _ hk _ => ?_
      exact T.pure (D.value_mono hv hk)
    | some op =>
      -- the variable is read before the operand is evaluated
      refine T.bind (h.get target) fun j current hj _ => ?_
      refine T.bind (hvalue j hj) fun k operand _ _ => ?_
      refine T.bind (h.exec (.compute op current operand) trivial) fun l v _ hv => ?_
      refine T.bind (h.exec (i := l) (.set scope target v) hv) fun _ _ hlast _ => ?_
      exact T.pure (D.value_mono hv hlast)
  | binary op left right =>
    refine T.bind (hparts left (by simp [ExprNode.parts]) i le_rfl) fun j l hj _ => ?_
    refine T.bind (hparts right (by simp [ExprNode.parts]) j hj) fun k v _ _ => ?_
    exact h.exec (.compute op l v) trivial
  | logical op left right =>
    refine T.bind (hparts left (by simp [ExprNode.parts]) i le_rfl) fun j v hj hv => ?_
    split
    · exact T.pure hv
    · exact hparts right (by simp [ExprNode.parts]) j hj
  | unary op operand =>
    refine T.bind (hparts operand (by simp [ExprNode.parts]) i le_rfl) fun j v _ _ => ?_
    exact T.pure (D.value_of_isPlain j (op.isPlain_apply v))
  | conditional condition consequent alternative =>
    refine T.bind (hparts condition (by simp [ExprNode.parts]) i le_rfl) fun j v hj _ => ?_
    split
    · exact hparts consequent (by simp [ExprNode.parts]) j hj
    · exact hparts alternative (by simp [ExprNode.parts]) j hj
  | array items =>
    exact T.bind (evaluateAll hparts) fun j vs _ hvs => h.exec (.newArray vs) hvs
  | object properties =>
    have hempty : D.Bag i ∅ := fun _ => D.value_of_isPlain i trivial
    exact T.bind (evaluateProperties hparts hempty) fun j bag _ hbag => h.exec (.newObject bag) hbag
  | member object property =>
    refine T.bind (hparts object (by simp [ExprNode.parts]) i le_rfl) fun j v _ _ => ?_
    exact h.exec (.readMember scope.engine v property) trivial
  | index object index =>
    refine T.bind (hparts object (by simp [ExprNode.parts]) i le_rfl) fun j v hj _ => ?_
    refine T.bind (hparts index (by simp [ExprNode.parts]) j hj) fun k n _ _ => ?_
    exact h.exec (.readIndex scope.engine v n) trivial
  | call f site args =>
    exact T.bind (evaluateAll hparts) fun j vs _ hvs => h.call f site hvs
  | apiCall object function slot args =>
    have hcheck := h.exec (i := i)
      (.checkApiCall scope.engine object function slot args.length) trivial
    refine T.bind hcheck fun j _ hj _ => ?_
    refine T.bind (evaluateAll fun e he k hk => hparts e he k (hj.trans hk)) fun k vs _ hvs => ?_
    exact h.host hnode hvs
  | objectCall site target function args =>
    refine T.bind (h.resolve site target hnode args.length) fun j resolution hj hhost => ?_
    refine T.bind (evaluateAll fun e he k hk => hparts e he k (hj.trans hk)) fun k vs _ hvs => ?_
    exact h.host hhost hvs
  | snippetCall snippet args =>
    have hcallable : T.Tracks i (fun _ _ => True) (Action.ofResult snippet.callable) :=
      Tracking.ofResult fun _ _ => trivial
    refine T.bind hcallable fun j _ hj _ => ?_
    refine T.bind (evaluateAll fun e he k hk => hparts e he k (hj.trans hk)) fun k vs _ hvs => ?_
    have hcode : T.Tracks k (fun _ code => D.code code)
        (Action.ofResult (snippet.codeFor vs.length)) :=
      Tracking.ofResult fun code hcode => hnode code (Snippet.state_of_codeFor hcode)
    refine T.bind hcode fun l code hl hcode => ?_
    have hrun := h.exec (i := l) (.runCode code vs) ⟨hcode, fun v hv => D.value_mono (hvs v hv) hl⟩
    exact T.bind hrun fun j _ _ _ => T.pure (D.value_of_isPlain j trivial)

/-! ### Statements -/

variable {A : Tracking ι (Activation σ)} (hA : T.InBody D A)

include hA

/-- The machine is told what is done. -/
lemma noted (mark : Mark) (hmark : mark.IsInner) : A.Tracks i (fun _ _ => True) (r.note mark) :=
  hA.within (h.note mark hmark)

/-- A `for` loop is initialised, if it has a first statement. -/
lemma initialise {init : Option Stmt}
    (hinit : ∀ s ∈ init, A.Tracks i (fun _ _ => True) (r.perform scope s)) :
    A.Tracks i (fun _ _ => True) (r.initialise scope init) := by
  cases init with
  | none => exact A.pure trivial
  | some s =>
    exact A.bind (hinit s rfl) fun _ signal _ _ => h.noted hA (.initEnded signal) trivial

/-- The claim holds of a form of statement if it holds of the parts at all later stages.  Of a loop
it holds only if it may hold of actions that never end. -/
theorem performNode {node : StmtNode} (hloop : node.LoopFree ∨ A.Lenient)
    (hexpressions : ∀ e ∈ node.expressions, ∀ j, i ≤ j → T.Tracks j D.value (r.evaluate scope e))
    (hstatements : ∀ s ∈ node.statements, ∀ j, i ≤ j →
      A.Tracks j (fun _ _ => True) (r.perform scope s)) :
    A.Tracks i (fun _ _ => True) (r.performNode scope node) := by
  cases node with
  | expr e =>
    have he := hexpressions e (by simp [StmtNode.expressions]) i le_rfl
    exact A.bind (hA.valueOf he) fun _ _ _ _ => A.pure trivial
  | declare target init =>
    have hinit : ∀ e ∈ init, T.Tracks i D.value (r.evaluate scope e) :=
      fun e he => hexpressions e (by simp [StmtNode.expressions, Option.mem_def.1 he]) i le_rfl
    refine A.bind (hA.valueOrUndefined hinit) fun j v _ hv => ?_
    have hset := h.exec (i := j) (.set scope target v) hv
    exact A.bind (hA.within hset) fun _ _ _ _ => A.pure trivial
  | block statements => exact Tracking.performAll hstatements
  | branch condition consequent alternative =>
    have hcondition := hexpressions condition (by simp [StmtNode.expressions]) i le_rfl
    refine A.bind (hA.valueOf hcondition) fun j v hj _ => ?_
    split
    · exact hstatements consequent (by simp [StmtNode.statements]) j hj
    · cases alternative with
      | none => exact A.pure trivial
      | some s => exact hstatements s (by simp [StmtNode.statements]) j hj
  | whileLoop condition body =>
    have hlenient := hloop.resolve_left id
    refine Tracking.repeatUpTo hlenient
      (fun j hj => hA.round (fun e he k hk => ?_) fun k hk => ?_) _
    · have hcondition : e = condition := by simpa [eq_comm] using he
      exact hexpressions e (by simp [StmtNode.expressions, hcondition]) k (hj.trans hk)
    · exact hstatements body (by simp [StmtNode.statements]) k (hj.trans hk)
  | forLoop init condition step body =>
    have hlenient := hloop.resolve_left id
    have hinit : ∀ s ∈ init, A.Tracks i (fun _ _ => True) (r.perform scope s) :=
      fun s hs => hstatements s (by simp [StmtNode.statements, Option.mem_def.1 hs]) i le_rfl
    refine A.bind (h.initialise hA hinit) fun l _ hl _ => ?_
    refine Tracking.repeatUpTo hlenient
      (fun j hj => hA.round (fun e he k hk => ?_) fun k hk => ?_) _
    · refine hexpressions e ?_ k (hl.trans (hj.trans hk))
      rcases he with he | he <;> simp [StmtNode.expressions, Option.mem_def.1 he]
    · exact hstatements body (by simp [StmtNode.statements]) k (hl.trans (hj.trans hk))
  | returnValue value =>
    have hvalue : ∀ e ∈ value, T.Tracks i D.value (r.evaluate scope e) :=
      fun e he => hexpressions e (by simp [StmtNode.expressions, Option.mem_def.1 he]) i le_rfl
    refine A.bind (hA.valueOrUndefined hvalue) fun j v _ hv => ?_
    refine A.bind (hA.setReturned hv) fun k _ _ _ => ?_
    exact A.bind (h.noted hA (.returned v) trivial) fun _ _ _ _ => A.pure trivial
  | breakLoop | continueLoop => exact A.pure trivial

end Tracked

end Evaluator

end ScriptEngine
