import ScriptEngine.Proofs.Vocabulary

/-!
# Pairs of actions

A `Pairing` is a claim about two actions, one on each of two machines, that composes: it holds of equal
values, of equal failures of the engine itself, and of one action after another.  What the claim says
about outcomes is its own affair.  It may depend on the error of a failure, or say nothing at all of
some outcomes; and it may track the values that occur, by what they satisfy.

If the claim holds of all commands that a vocabulary allows, of calls and of host functions, then it
holds of each form of expression and statement, provided that it holds of the parts.  For the
evaluators within a bound it then holds of whole trees.  Of entries of the host it holds as soon as it
holds of single steps and of bodies, so that a claim about host functions that enter the engine again may
rely on it.

Statements are claimed of on the state of the machine alone: `Activation.peel` takes the value to
return out of the state and hands it on as a value.

Main statements: `Evaluator.Supports.evaluateNode`, `Evaluator.Supports.performNode` and
`Pairing.Runs.trees`.
-/

namespace ScriptEngine

/-! ### The value to return as a value -/

namespace Activation

variable {σ α β : Type}

/-- An action in a body, as an action on the state of the machine that is given the value to return
and gives it back. -/
def peel (x : Action (Activation σ) α) (v : Value) : Action σ (α × Value) := fun s =>
  match x ⟨s, v⟩ with
  | .done a b => .done (a, b.returned) b.state
  | .failed e b => .failed e b.state
  | .unfinished b => .unfinished b.state

/-- A value leaves the value to return as it is. -/
lemma peel_pure (a : α) (v : Value) : peel (pure a : Action (Activation σ) α) v = pure (a, v) := rfl

/-- Setting the value to return gives it back. -/
lemma peel_setReturned (v w : Value) :
    peel (setReturned w : Action (Activation σ) Unit) v = pure ((), w) := rfl

/-- One action after another, peeled. -/
lemma peel_bind (x : Action (Activation σ) α) (f : α → Action (Activation σ) β) (v : Value) :
    peel (x >>= f) v = peel x v >>= fun p => peel (f p.1) p.2 := by
  funext s
  simp only [peel, Action.bind_apply]
  cases x ⟨s, v⟩ <;> rfl

/-- What acts on the state of the machine alone hands on the value to return. -/
lemma peel_within (x : Action σ α) (v : Value) :
    peel (within x) v = x >>= fun a => pure (a, v) := by
  funext s
  simp only [peel, within, Action.bind_apply]
  cases x s <;> rfl

/-- The location of an error has nothing to do with the value to return. -/
lemma peel_locate (x : Action (Activation σ) α) (l : Location) (v : Value) :
    peel (x.locate l) v = (peel x v).locate l := by
  funext s
  simp only [peel, Action.locate, Action.mapError]
  cases x ⟨s, v⟩ <;> rfl

end Activation

/-- The result of a body is read off the signal and the value to return. -/
lemma Evaluator.run_eq_peel {σ : Type} (r : Evaluator σ) (scope : Scope) (body : Stmt) :
    r.run scope body = Activation.peel (r.perform scope body) .undefined >>= fun p =>
      pure (if p.1 = .returning then p.2 else .undefined) := by
  funext s
  simp only [Evaluator.run, Activation.peel, Action.bind_apply]
  cases r.perform scope body ⟨s, .undefined⟩ <;> rfl

/-- The signal and the value to return of a statement that is performed outside of all bodies. -/
lemma Evaluator.signalOf_eq_peel {σ : Type} (r : Evaluator σ) (scope : Scope) (s : Stmt) :
    r.signalOf scope s = Activation.peel (r.perform scope s) .undefined := by
  funext state
  unfold Evaluator.signalOf Activation.peel
  cases r.perform scope s ⟨state, .undefined⟩ <;> rfl

/-- An error is reported at the end of an entry. -/
lemma Evaluator.shared_reported_apply {r : Evaluator World} (hr : r.machine = .shared) (e : Id .engine)
    (x : Action World Value) (w : World) :
    r.reported e x w = (x w).follow .done (fun err w => .failed err (w.report e err)) id := by
  unfold Evaluator.reported
  rw [hr]
  simp only [Action.bind_apply, Action.attempt]
  cases x w <;> rfl

/-! ### Pairings -/

/-- A claim about two actions and the values that they give, which composes. -/
structure Pairing (σ τ : Type) where
  /-- The claim about two actions, of which each value satisfies `Q`. -/
  Pairs : {α : Type} → (Q : α → Prop) → Action σ α → Action τ α → Prop
  pure : ∀ {α : Type} {Q : α → Prop} {a : α}, Q a → Pairs Q (Pure.pure a) (Pure.pure a)
  fail : ∀ {α : Type} {Q : α → Prop} (cause : Cause),
    Pairs Q (Action.fail (.of cause)) (Action.fail (.of cause))
  diverge : ∀ {α : Type} {Q : α → Prop}, Pairs Q Action.diverge Action.diverge
  bind : ∀ {α β : Type} {Q : α → Prop} {R : β → Prop} {x : Action σ α} {y : Action τ α}
    {f : α → Action σ β} {g : α → Action τ β},
    Pairs Q x y → (∀ a, Q a → Pairs R (f a) (g a)) → Pairs R (x >>= f) (y >>= g)

namespace Pairing

variable {σ τ α : Type} (P : Pairing σ τ) {Q R : α → Prop} {x : Action σ α} {y : Action τ α}

/-- No claim about a value. -/
abbrev Anything : α → Prop := fun _ => True

variable {P}

/-- The claim about values may be weakened. -/
lemma mono (h : P.Pairs Q x y) (hQR : ∀ a, Q a → R a) : P.Pairs R x y := by
  have hpure := P.bind h fun a ha => P.pure (hQR a ha)
  rwa [Action.bind_pure, Action.bind_pure] at hpure

/-- A result that is known already, and is no error but one of the engine itself. -/
lemma ofResult {result : Except EvalError α} (hok : ∀ a, result = .ok a → Q a)
    (herror : ∀ e, result = .error e → ∃ cause, e = .of cause) :
    P.Pairs Q (Action.ofResult result) (Action.ofResult result) := by
  cases result with
  | ok a => exact P.pure (hok a rfl)
  | error e =>
    obtain ⟨cause, rfl⟩ := herror e rfl
    exact P.fail cause

/-- A loop, as long as the claim holds of its rounds. -/
lemma repeatUpTo {body : Action σ (Option α)} {body' : Action τ (Option α)}
    (h : P.Pairs (fun o => ∀ a ∈ o, Q a) body body') {bound bound' : ℕ} (hb : bound = bound') :
    P.Pairs Q (Action.repeatUpTo bound body) (Action.repeatUpTo bound' body') := by
  subst hb
  induction bound with
  | zero => exact P.diverge
  | succ bound ih =>
    rw [Action.repeatUpTo_succ, Action.repeatUpTo_succ]
    refine P.bind h fun o ho => ?_
    cases o with
    | none => exact ih
    | some a => exact P.pure (ho a rfl)

variable (P)

/-- The claim about actions in a body, whose value to return satisfies `V` before and after. -/
def activation (V : Value → Prop) : Pairing (Activation σ) (Activation τ) where
  Pairs Q x y := ∀ v, V v →
    P.Pairs (fun p => Q p.1 ∧ V p.2) (Activation.peel x v) (Activation.peel y v)
  pure ha _ hv := by
    rw [Activation.peel_pure, Activation.peel_pure]
    exact P.pure ⟨ha, hv⟩
  fail cause _ _ := P.fail cause
  diverge _ _ := P.diverge
  bind hxy hfg v hv := by
    rw [Activation.peel_bind, Activation.peel_bind]
    exact P.bind (hxy v hv) fun p hp => hfg p.1 hp.1 p.2 hp.2

variable {P} {V : Value → Prop}

/-- What is claimed of two actions on the states holds of them in a body. -/
lemma inBody (h : P.Pairs Q x y) :
    (P.activation V).Pairs Q (Activation.within x) (Activation.within y) := by
  intro v hv
  rw [Activation.peel_within, Activation.peel_within]
  exact P.bind h fun a ha => P.pure ⟨ha, hv⟩

/-- The value to return is set. -/
lemma setReturned {v : Value} (hv : V v) :
    (P.activation V).Pairs Anything (Activation.setReturned v) (Activation.setReturned v) := by
  intro w _
  rw [Activation.peel_setReturned, Activation.peel_setReturned]
  exact P.pure ⟨trivial, hv⟩

end Pairing

/-- Actions that keep a correspondence between states, as a pairing. -/
def Simulation.pairing {σ τ : Type} (S : Simulation σ τ) (c : List Activity) : Pairing σ τ where
  Pairs := S.Matches c
  pure := Simulation.Matches.pure
  fail cause := Simulation.Matches.fail (.of cause)
  diverge := Simulation.Matches.diverge fun _ => rfl
  bind := Simulation.Matches.bind

/-- Actions that keep a correspondence between states, whatever activities are open, as a
pairing. -/
def Simulation.pairingThroughout {σ τ : Type} (S : Simulation σ τ) : Pairing σ τ where
  Pairs Q x y := ∀ c, S.Matches c Q x y
  pure ha _ := Simulation.Matches.pure ha
  fail cause _ := Simulation.Matches.fail (.of cause)
  diverge _ := Simulation.Matches.diverge fun _ => rfl
  bind hxy hfg c := (hxy c).bind fun a ha => hfg a ha c

/-! ### Forms of expressions and statements -/

/-- The mark is about a `return`, and not about a tree whose evaluation begins. -/
def Mark.IsInner : Mark → Prop
  | .returned _ | .initEnded _ => True
  | .evaluating _ _ | .performing _ _ => False

namespace Evaluator

variable {σ τ : Type}

/-- The claim holds of the single steps of two evaluators and of what they call. -/
structure Supports (P : Pairing σ τ) (D : Vocabulary) (r : Evaluator σ) (r' : Evaluator τ) :
    Prop where
  exec : ∀ {α : Type} (k : Command α), D.Allows k →
    P.Pairs (D.Yields k) (r.machine.exec k) (r'.machine.exec k)
  argument : ∀ {f i n}, D.reads (.parameter f i n) →
    P.Pairs (fun argument => ∀ v ∈ argument, D.value v) (r.machine.argument? f i)
      (r'.machine.argument? f i)
  note : ∀ mark, mark.IsInner → P.Pairs Pairing.Anything (Action.change (r.machine.note mark))
    (Action.change (r'.machine.note mark))
  call : ∀ {scope f args} site, D.engine scope.engine → D.calls f → D.Values args →
    P.Pairs D.value (r.invokeFunction scope f site args) (r'.invokeFunction scope f site args)
  host : ∀ {scope object args} index, D.engine scope.engine → D.hosts object → D.Values args →
    P.Pairs D.value (r.callApi scope object index args) (r'.callApi scope object index args)
  rounds : r.rounds = r'.rounds

namespace Supports

open Pairing

variable {P : Pairing σ τ} {D : Vocabulary} {r : Evaluator σ} {r' : Evaluator τ}
  (h : Supports P D r r') {scope : Scope} (hscope : D.engine scope.engine)

include h hscope

/-- Variables are read. -/
lemma get {target : VarRef} (htarget : D.reads target) :
    P.Pairs D.value (r.machine.get scope target) (r'.machine.get scope target) := by
  have hget : D.Allows (.get scope target) := ⟨hscope, htarget⟩
  cases target with
  | parameter f i n =>
    refine P.bind (h.exec (.requireFunction scope (.parameter f i n) f) ?_) fun _ _ => ?_
    · exact ⟨hscope, i, n, rfl, htarget⟩
    refine P.bind (h.argument htarget) fun argument hargument => ?_
    exact h.exec (.deliver scope n argument) ⟨hscope, ⟨f, i, htarget⟩, hargument⟩
  | _ => exact h.exec _ hget

/-- Object calls are resolved. -/
lemma resolve {site : Id .callSite} {target : VarRef} {function : Name} (htarget : D.reads target)
    (hcall : D.objectCalls site target function) (count : ℕ) :
    P.Pairs (fun resolution => D.hosts resolution.1)
      (r.resolve scope site target function count)
      (r'.resolve scope site target function count) := by
  refine P.bind (h.exec (.resolution site) ⟨target, function, hcall⟩) fun known hknown => ?_
  cases known with
  | some resolution => exact P.pure (hknown resolution rfl)
  | none =>
    refine P.bind (h.get hscope htarget) fun v hv => ?_
    have hmethod := h.exec (.findMethod scope.engine target v function count)
      ⟨hscope, hv, htarget, site, hcall⟩
    refine P.bind hmethod fun resolution hresolution => ?_
    have hkeep := h.exec (.keepResolution site resolution) ⟨⟨target, function, hcall⟩, hresolution⟩
    exact P.bind hkeep fun _ _ => P.pure hresolution

omit h hscope in
/-- Several expressions are evaluated in order. -/
lemma evaluateAll {es : List Expr}
    (hparts : ∀ e ∈ es, P.Pairs D.value (r.evaluate scope e) (r'.evaluate scope e)) :
    P.Pairs D.Values (r.evaluateAll scope es) (r'.evaluateAll scope es) := by
  induction es with
  | nil => exact P.pure fun v hv => nomatch hv
  | cons e rest ih =>
    refine P.bind (hparts e (by simp)) fun v hv => ?_
    refine P.bind (ih fun a ha => hparts a (by simp [ha])) fun vs hvs => ?_
    exact P.pure (List.forall_mem_cons.2 ⟨hv, hvs⟩)

omit h hscope in
/-- The properties of an object are evaluated in order. -/
lemma evaluateProperties {properties : List (Name × Expr)}
    (hnames : ∀ n ∈ properties.map Prod.fst, D.names n)
    (hparts : ∀ e ∈ properties.map Prod.snd,
      P.Pairs D.value (r.evaluate scope e) (r'.evaluate scope e))
    {bag : PropertyBag} (hbag : D.Bag bag) :
    P.Pairs D.Bag (r.evaluateProperties scope bag properties)
      (r'.evaluateProperties scope bag properties) := by
  induction properties generalizing bag with
  | nil => exact P.pure hbag
  | cons property rest ih =>
    obtain ⟨n, e⟩ := property
    refine P.bind (hparts e (by simp)) fun v hv => ?_
    refine ih (fun k hk => hnames k (List.mem_cons_of_mem n hk))
      (fun a ha => hparts a (List.mem_cons_of_mem e ha)) fun k u hku => ?_
    rw [NameMap.get?_insert] at hku
    split at hku
    · rename_i hkn
      obtain rfl := Option.some.inj hku
      exact ⟨hkn ▸ hnames n (by simp), hv⟩
    · exact hbag k u hku

/-- The claim holds of a form of expression if it holds of the parts. -/
theorem evaluateNode {node : ExprNode} (hnode : D.FitsExpr node)
    (hparts : ∀ e ∈ node.parts, P.Pairs D.value (r.evaluate scope e) (r'.evaluate scope e)) :
    P.Pairs D.value (r.evaluateNode scope node) (r'.evaluateNode scope node) := by
  cases node with
  | literal v | apiConstant v => exact P.pure hnode
  | var target => exact h.get hscope hnode
  | assign target op value =>
    have hvalue := hparts value (by simp [ExprNode.parts])
    cases op with
    | none =>
      refine P.bind hvalue fun v hv => ?_
      exact P.bind (h.exec (.set scope target v) ⟨hscope, hnode, hv⟩) fun _ _ => P.pure hv
    | some op =>
      refine P.bind (h.get hscope hnode.1) fun current hcurrent => ?_
      refine P.bind hvalue fun operand hoperand => ?_
      refine P.bind (h.exec (.compute op current operand) ⟨hcurrent, hoperand⟩) fun v hv => ?_
      exact P.bind (h.exec (.set scope target v) ⟨hscope, hnode.2, hv⟩) fun _ _ => P.pure hv
  | binary op left right =>
    refine P.bind (hparts left (by simp [ExprNode.parts])) fun l hl => ?_
    refine P.bind (hparts right (by simp [ExprNode.parts])) fun v hv => ?_
    exact h.exec (.compute op l v) ⟨hl, hv⟩
  | logical op left right =>
    refine P.bind (hparts left (by simp [ExprNode.parts])) fun v hv => ?_
    split
    · exact P.pure hv
    · exact hparts right (by simp [ExprNode.parts])
  | unary op operand =>
    refine P.bind (hparts operand (by simp [ExprNode.parts])) fun v _ => ?_
    exact P.pure (D.value_of_isPlain (op.isPlain_apply v))
  | conditional condition consequent alternative =>
    refine P.bind (hparts condition (by simp [ExprNode.parts])) fun v _ => ?_
    split
    · exact hparts consequent (by simp [ExprNode.parts])
    · exact hparts alternative (by simp [ExprNode.parts])
  | array items =>
    exact P.bind (evaluateAll hparts) fun vs hvs => h.exec (.newArray vs) hvs
  | object properties =>
    have hempty : D.Bag ∅ := by
      rintro n v ⟨⟩
    exact P.bind (evaluateProperties hnode hparts hempty) fun bag hbag =>
      h.exec (.newObject bag) hbag
  | member object property =>
    refine P.bind (hparts object (by simp [ExprNode.parts])) fun v hv => ?_
    exact h.exec (.readMember scope.engine v property) ⟨hscope, hv, hnode⟩
  | index object index =>
    refine P.bind (hparts object (by simp [ExprNode.parts])) fun v hv => ?_
    refine P.bind (hparts index (by simp [ExprNode.parts])) fun i hi => ?_
    exact h.exec (.readIndex scope.engine v i) ⟨hscope, hv, hi⟩
  | call f site args =>
    exact P.bind (evaluateAll hparts) fun vs hvs => h.call site hscope hnode hvs
  | apiCall object function slot args =>
    have hcheck := h.exec (.checkApiCall scope.engine object function slot args.length)
      ⟨hscope, hnode.2⟩
    refine P.bind hcheck fun _ _ => ?_
    exact P.bind (evaluateAll hparts) fun vs hvs => h.host slot.index hscope hnode.1 hvs
  | objectCall site target function args =>
    refine P.bind (h.resolve hscope hnode.1 hnode.2 args.length) fun resolution hobject => ?_
    exact P.bind (evaluateAll hparts) fun vs hvs => h.host resolution.2.index hscope hobject hvs
  | snippetCall snippet args =>
    have hcallable : P.Pairs Anything (Action.ofResult snippet.callable)
        (Action.ofResult snippet.callable) :=
      ofResult (fun _ _ => trivial) fun _ => Snippet.exists_cause_of_callable
    have hcode : ∀ n, P.Pairs D.codes (Action.ofResult (snippet.codeFor n))
        (Action.ofResult (snippet.codeFor n)) := fun n =>
      ofResult (fun code hcode => hnode code (Snippet.state_of_codeFor hcode))
        fun _ => Snippet.exists_cause_of_codeFor
    refine P.bind hcallable fun _ _ => ?_
    refine P.bind (evaluateAll hparts) fun vs hvs => ?_
    refine P.bind (hcode vs.length) fun code hcode => ?_
    exact P.bind (h.exec (.runCode code vs) ⟨hcode, hvs⟩) fun _ _ =>
      P.pure (D.value_of_isPlain trivial)

omit hscope in
/-- Both machines are told the same. -/
lemma noted (mark : Mark) (hmark : mark.IsInner) :
    (P.activation D.value).Pairs Anything (r.note mark) (r'.note mark) :=
  inBody (h.note mark hmark)

/-! ### Statements -/

omit h hscope

/-- An expression in a statement is evaluated. -/
lemma valueOf {e : Expr} (he : P.Pairs D.value (r.evaluate scope e) (r'.evaluate scope e)) :
    (P.activation D.value).Pairs D.value (r.valueOf scope e) (r'.valueOf scope e) :=
  inBody he

/-- A condition is tested, if there is one. -/
lemma holds {condition : Option Expr}
    (hcondition : ∀ e ∈ condition, P.Pairs D.value (r.evaluate scope e) (r'.evaluate scope e)) :
    (P.activation D.value).Pairs Anything (r.holds scope condition) (r'.holds scope condition) := by
  cases condition with
  | none => exact (P.activation D.value).pure trivial
  | some e =>
    exact (P.activation D.value).bind (valueOf (hcondition e rfl)) fun _ _ =>
      (P.activation D.value).pure trivial

/-- An expression is evaluated, if there is one. -/
lemma valueOrUndefined {value : Option Expr}
    (hvalue : ∀ e ∈ value, P.Pairs D.value (r.evaluate scope e) (r'.evaluate scope e)) :
    (P.activation D.value).Pairs D.value (r.valueOrUndefined scope value)
      (r'.valueOrUndefined scope value) := by
  cases value with
  | none => exact (P.activation D.value).pure (D.value_of_isPlain trivial)
  | some e => exact valueOf (hvalue e rfl)

/-- Several statements are performed in order. -/
lemma performAll {ss : List Stmt}
    (hss : ∀ s ∈ ss,
      (P.activation D.value).Pairs Anything (r.perform scope s) (r'.perform scope s)) :
    (P.activation D.value).Pairs Anything (r.performAll scope ss) (r'.performAll scope ss) := by
  induction ss with
  | nil => exact (P.activation D.value).pure trivial
  | cons s rest ih =>
    refine (P.activation D.value).bind (hss s (by simp)) fun signal _ => ?_
    cases signal with
    | normal => exact ih fun t ht => hss t (by simp [ht])
    | returning | breaking | continuing => exact (P.activation D.value).pure trivial

/-- A loop advances, if it has a step. -/
lemma advance {step : Option Expr}
    (hstep : ∀ e ∈ step, P.Pairs D.value (r.evaluate scope e) (r'.evaluate scope e)) :
    (P.activation D.value).Pairs Anything (r.advance scope step) (r'.advance scope step) := by
  cases step with
  | none => exact (P.activation D.value).pure trivial
  | some e =>
    exact (P.activation D.value).bind (valueOf (hstep e rfl)) fun _ _ =>
      (P.activation D.value).pure trivial

/-- A loop goes round. -/
lemma round {condition step : Option Expr} {body : Stmt}
    (hcondition : ∀ e ∈ condition, P.Pairs D.value (r.evaluate scope e) (r'.evaluate scope e))
    (hstep : ∀ e ∈ step, P.Pairs D.value (r.evaluate scope e) (r'.evaluate scope e))
    (hbody : (P.activation D.value).Pairs Anything (r.perform scope body) (r'.perform scope body)) :
    (P.activation D.value).Pairs (fun o => ∀ signal ∈ o, Anything signal)
      (r.round scope condition step body) (r'.round scope condition step body) := by
  refine (P.activation D.value).bind (holds hcondition) fun holds _ => ?_
  cases holds with
  | false => exact (P.activation D.value).pure fun _ _ => trivial
  | true =>
    refine (P.activation D.value).bind hbody fun signal _ => ?_
    cases signal with
    | breaking | returning => exact (P.activation D.value).pure fun _ _ => trivial
    | normal | continuing =>
      exact (P.activation D.value).bind (advance hstep) fun _ _ =>
        (P.activation D.value).pure fun _ _ => trivial

include h

/-- A `for` loop is initialised, if it has a first statement. -/
lemma initialise {init : Option Stmt}
    (hinit : ∀ s ∈ init,
      (P.activation D.value).Pairs Anything (r.perform scope s) (r'.perform scope s)) :
    (P.activation D.value).Pairs Anything (r.initialise scope init) (r'.initialise scope init) := by
  cases init with
  | none => exact (P.activation D.value).pure trivial
  | some s =>
    exact (P.activation D.value).bind (hinit s rfl) fun signal _ =>
      h.noted (.initEnded signal) trivial

/-- The claim holds of a form of statement if it holds of the parts. -/
theorem performNode (hscope : D.engine scope.engine) {node : StmtNode} (hnode : D.FitsStmt node)
    (hexpressions : ∀ e ∈ node.expressions,
      P.Pairs D.value (r.evaluate scope e) (r'.evaluate scope e))
    (hstatements : ∀ s ∈ node.statements,
      (P.activation D.value).Pairs Anything (r.perform scope s) (r'.perform scope s)) :
    (P.activation D.value).Pairs Anything (r.performNode scope node)
      (r'.performNode scope node) := by
  cases node with
  | expr e =>
    have he := hexpressions e (by simp [StmtNode.expressions])
    exact (P.activation D.value).bind (valueOf he) fun _ _ => (P.activation D.value).pure trivial
  | declare target init =>
    have hinit : ∀ e ∈ init, P.Pairs D.value (r.evaluate scope e) (r'.evaluate scope e) := by
      simpa [StmtNode.expressions] using hexpressions
    refine (P.activation D.value).bind (valueOrUndefined hinit) fun v hv => ?_
    have hset := h.exec (.set scope target v) ⟨hscope, hnode, hv⟩
    exact (P.activation D.value).bind (inBody hset) fun _ _ =>
      (P.activation D.value).pure trivial
  | block statements => exact performAll hstatements
  | branch condition consequent alternative =>
    have hcondition := hexpressions condition (by simp [StmtNode.expressions])
    refine (P.activation D.value).bind (valueOf hcondition) fun v _ => ?_
    split
    · exact hstatements _ (by simp [StmtNode.statements])
    · cases alternative with
      | none => exact (P.activation D.value).pure trivial
      | some s => exact hstatements _ (by simp [StmtNode.statements])
  | whileLoop condition body =>
    have hcondition : ∀ e ∈ some condition,
        P.Pairs D.value (r.evaluate scope e) (r'.evaluate scope e) := by
      simpa [StmtNode.expressions] using hexpressions
    have hbody := hstatements body (by simp [StmtNode.statements])
    have hstep : ∀ e ∈ (none : Option Expr),
        P.Pairs D.value (r.evaluate scope e) (r'.evaluate scope e) := by
      rintro e ⟨⟩
    exact repeatUpTo (round hcondition hstep hbody) h.rounds
  | forLoop init condition step body =>
    have hinit : ∀ s ∈ init,
        (P.activation D.value).Pairs Anything (r.perform scope s) (r'.perform scope s) :=
      fun s hs => hstatements s (by simp [StmtNode.statements, Option.mem_def.1 hs])
    have hcondition : ∀ e ∈ condition,
        P.Pairs D.value (r.evaluate scope e) (r'.evaluate scope e) :=
      fun e he => hexpressions e (by simp [StmtNode.expressions, Option.mem_def.1 he])
    have hstep : ∀ e ∈ step, P.Pairs D.value (r.evaluate scope e) (r'.evaluate scope e) :=
      fun e he => hexpressions e (by simp [StmtNode.expressions, Option.mem_def.1 he])
    have hbody := hstatements body (by simp [StmtNode.statements])
    refine (P.activation D.value).bind (h.initialise hinit) fun _ _ => ?_
    exact repeatUpTo (round hcondition hstep hbody) h.rounds
  | returnValue value =>
    have hvalue : ∀ e ∈ value, P.Pairs D.value (r.evaluate scope e) (r'.evaluate scope e) := by
      simpa [StmtNode.expressions] using hexpressions
    refine (P.activation D.value).bind (valueOrUndefined hvalue) fun v hv => ?_
    refine (P.activation D.value).bind (setReturned hv) fun _ _ => ?_
    exact (P.activation D.value).bind (h.noted (.returned v) trivial) fun _ _ =>
      (P.activation D.value).pure trivial
  | breakLoop | continueLoop => exact (P.activation D.value).pure trivial

end Supports

/-! ### Entries of the host -/

/-- The claim holds of all that an entry of the host consists of. -/
structure EntersBy (P : Pairing σ τ) (D : Vocabulary) (r : Evaluator σ) (r' : Evaluator τ) :
    Prop where
  exec : ∀ {α : Type} (k : Command α), D.Allows k →
    P.Pairs (D.Yields k) (r.machine.exec k) (r'.machine.exec k)
  script : ∀ {e s}, D.engine e → D.tree (.stmt s) →
    P.Pairs D.value (r.machine.during .script (r.run (.top e) s))
      (r'.machine.during .script (r'.run (.top e) s))
  call : ∀ {scope f args} site, D.engine scope.engine → D.calls f → D.Values args →
    P.Pairs D.value (r.invokeFunction scope f site args) (r'.invokeFunction scope f site args)
  invoke : ∀ {scope args} c, D.engine scope.engine → D.byName → D.Values args →
    P.Pairs D.value (r.invokeCallback scope c args) (r'.invokeCallback scope c args)
  reported : ∀ {e x y}, D.engine e → P.Pairs D.value x y →
    P.Pairs D.value (r.reported e x) (r'.reported e y)
  context : ∀ text {x y}, P.Pairs D.value x y →
    P.Pairs D.value (x.mapError (·.withContext text)) (y.mapError (·.withContext text))

/-- The claim holds of whole entries. -/
theorem EntersBy.enter {P : Pairing σ τ} {D : Vocabulary} {r : Evaluator σ} {r' : Evaluator τ}
    (h : EntersBy P D r r') {e : Id .engine} (he : D.engine e) {entry : Entry}
    (hentry : D.Enters entry) : P.Pairs D.value (r.enter e entry) (r'.enter e entry) := by
  cases entry with
  | execute script => exact h.reported he (h.script he hentry)
  | call name args =>
    refine h.reported he ?_
    have hfind := h.exec (.findFunction e name args.length) ⟨he, hentry.1⟩
    refine P.bind hfind fun found hfound => ?_
    exact h.context found.2 (h.call .host he hfound hentry.2)
  | invoke name args =>
    refine h.reported he ?_
    have hfind := h.exec (.findCallback e name args.length) ⟨he, hentry.1⟩
    refine P.bind hfind fun c _ => ?_
    exact h.context name (h.invoke c he hentry.1 hentry.2)

end Evaluator

/-! ### Whole trees -/

section

variable {σ τ : Type}

/-- The claim holds of all statements of the vocabulary, within a bound. -/
def Pairing.Performs (P : Pairing σ τ) (D : Vocabulary) (m : Machine σ) (n : Machine τ) (bound : ℕ) :
    Prop :=
  ∀ {scope s}, D.engine scope.engine → D.tree (.stmt s) →
    (P.activation D.value).Pairs Anything (perform m bound scope s) (perform n bound scope s)

/-- The claim holds of the single steps of two machines. -/
structure Pairing.Steps (P : Pairing σ τ) (D : Vocabulary) (m : Machine σ) (n : Machine τ) :
    Prop where
  closed : D.Closed
  exec : ∀ {α : Type} (k : Command α), D.Allows k → P.Pairs (D.Yields k) (m.exec k) (n.exec k)
  argument : ∀ {f i n'}, D.reads (.parameter f i n') →
    P.Pairs (fun argument => ∀ v ∈ argument, D.value v) (m.argument? f i) (n.argument? f i)
  note : ∀ mark, P.Pairs Pairing.Anything (Action.change (m.note mark))
    (Action.change (n.note mark))
  during : ∀ {a}, D.Begins a → ∀ {x y}, P.Pairs D.value x y →
    P.Pairs D.value (m.during a x) (n.during a y)
  locate : ∀ l {α : Type} {Q : α → Prop} {x y}, P.Pairs Q x y →
    P.Pairs Q (x.locate l) (y.locate l)

/-- The claim holds of the single steps of two machines, and of the host functions that they run if
it holds of the bodies within the bound. -/
structure Pairing.Runs (P : Pairing σ τ) (D : Vocabulary) (m : Machine σ) (n : Machine τ) : Prop
    extends Steps P D m n where
  host : ∀ bound, P.Performs D m n bound → ∀ {scope object args} index, D.engine scope.engine →
    D.hosts object → D.Values args →
    P.Pairs D.value ((Evaluator.within m bound).callApi scope object index args)
      ((Evaluator.within n bound).callApi scope object index args)

/-- An expression is evaluated after the machine has been told. -/
lemma evaluate_succ (m : Machine σ) (bound : ℕ) (scope : Scope) (e : Expr) :
    evaluate m (bound + 1) scope e = Action.change (m.note (.evaluating scope e)) >>= fun _ =>
      ((Evaluator.within m bound).evaluateNode scope e.node).locate e.location := by
  rfl

/-- A statement is performed after the machine has been told. -/
lemma peel_perform_succ (m : Machine σ) (bound : ℕ) (scope : Scope) (s : Stmt) (v : Value) :
    Activation.peel (perform m (bound + 1) scope s) v =
      Action.change (m.note (.performing scope s)) >>= fun _ =>
        (Activation.peel ((Evaluator.within m bound).performNode scope s.node) v).locate
          s.location := by
  funext state
  rw [← Activation.peel_locate]
  rfl

section

open Evaluator

variable {P : Pairing σ τ} {D : Vocabulary} {m : Machine σ} {n : Machine τ}

/-! ### Bodies -/

namespace Pairing.Steps

/-- The claim holds of a body if it holds of the statement. -/
lemma run {r : Evaluator σ} {r' : Evaluator τ} {scope : Scope} {body : Stmt}
    (hbody : (P.activation D.value).Pairs Anything (r.perform scope body)
      (r'.perform scope body)) : P.Pairs D.value (r.run scope body) (r'.run scope body) := by
  rw [run_eq_peel, run_eq_peel]
  refine P.bind (hbody .undefined (D.value_of_isPlain trivial)) fun p hp => P.pure ?_
  split
  · exact hp.2
  · exact D.value_of_isPlain trivial

variable {bound : ℕ} (hperform : Performs P D m n bound)

include hperform in
/-- The claim holds of bodies, which may be missing. -/
lemma runBody {scope : Scope} (hscope : D.engine scope.engine) {body : Option Stmt}
    (hbody : ∀ s ∈ body, D.tree (.stmt s)) :
    P.Pairs D.value ((within m bound).runBody scope body) ((within n bound).runBody scope body) := by
  cases body with
  | none => exact P.pure (D.value_of_isPlain trivial)
  | some s => exact run (hperform hscope (hbody s rfl))

variable (h : P.Steps D m n)

include h hperform

/-- The claim holds of invocations of functions. -/
lemma invokeFunction {scope : Scope} {f : Id .function} {args : List Value} (site : CallSiteId)
    (hscope : D.engine scope.engine) (hf : D.calls f) (hargs : D.Values args) :
    P.Pairs D.value ((within m bound).invokeFunction scope f site args)
      ((within n bound).invokeFunction scope f site args) := by
  refine P.bind (h.exec (.deeper scope) hscope) fun inner hinner => ?_
  refine P.bind (h.exec (.functionBody f) hf) fun body hbody => ?_
  have hrun := h.during (a := .function f site args) ⟨hf, hargs⟩ (runBody hperform hinner hbody)
  refine P.bind hrun fun v hv => ?_
  exact P.bind (h.exec (.keepResult f v) ⟨hf, hv⟩) fun _ _ => P.pure hv

/-- The claim holds of invocations of callbacks. -/
lemma invokeCallback {scope : Scope} {args : List Value} (c : Id .callback)
    (hscope : D.engine scope.engine) (hname : D.byName) (hargs : D.Values args) :
    P.Pairs D.value ((within m bound).invokeCallback scope c args)
      ((within n bound).invokeCallback scope c args) := by
  refine P.bind (h.exec (.deeper scope) hscope) fun inner hinner => ?_
  refine P.bind (h.exec (.callbackBody c) hname) fun body hbody => ?_
  exact h.during (a := .callback c args) ⟨hname, hargs⟩ (runBody hperform hinner hbody)

/-- The claim holds of all that entries of the host consist of, if it holds of bodies, when an error
is reported and when it is given a context. -/
theorem entersBy
    (hreported : ∀ {e x y}, D.engine e → P.Pairs D.value x y →
      P.Pairs D.value ((within m bound).reported e x) ((within n bound).reported e y))
    (hcontext : ∀ text {x y}, P.Pairs D.value x y →
      P.Pairs D.value (x.mapError (·.withContext text)) (y.mapError (·.withContext text))) :
    EntersBy P D (within m bound) (within n bound) where
  exec := h.exec
  script he hs := h.during (a := .script) trivial (run (hperform he hs))
  call := h.invokeFunction hperform
  invoke := h.invokeCallback hperform
  reported := hreported
  context := hcontext

end Pairing.Steps

/-! ### Trees within a bound -/

namespace Pairing.Runs

variable (h : P.Runs D m n)

include h

/-- The claim holds of the single steps of the evaluators within a bound, and of calls, if it holds
of bodies. -/
lemma supports {bound : ℕ} (hperform : Performs P D m n bound) :
    Supports P D (within m bound) (within n bound) where
  exec := h.exec
  argument := h.argument
  note mark _ := h.note mark
  call := h.invokeFunction hperform
  host index := h.host bound hperform index
  rounds := rfl

/-- The claim holds of all expressions and statements of the vocabulary. -/
theorem trees (bound : ℕ) :
    (∀ {scope e}, D.engine scope.engine → D.tree (.expr e) →
      P.Pairs D.value (evaluate m bound scope e) (evaluate n bound scope e)) ∧
    Performs P D m n bound := by
  induction bound with
  | zero => exact ⟨fun _ _ => P.diverge, fun _ _ => (P.activation D.value).diverge⟩
  | succ bound ih =>
    obtain ⟨hevaluate, hperform⟩ := ih
    have hsupports := h.supports hperform
    refine ⟨fun {scope e} hscope he => ?_, fun {scope s} hscope hs v hv => ?_⟩
    · rw [evaluate_succ, evaluate_succ]
      refine P.bind (h.note _) fun _ _ => h.locate e.location ?_
      refine hsupports.evaluateNode hscope (h.closed.fits he) fun a ha => ?_
      exact hevaluate hscope (h.closed.part he (Tree.expr_mem_parts ha))
    · rw [peel_perform_succ, peel_perform_succ]
      refine P.bind (h.note _) fun _ _ => h.locate s.location ?_
      refine hsupports.performNode hscope (h.closed.fits hs) (fun a ha => ?_) (fun t ht => ?_) v hv
      · exact hevaluate hscope (h.closed.part hs (Tree.expr_mem_parts_stmt ha))
      · exact hperform hscope (h.closed.part hs (Tree.stmt_mem_parts ht))

/-- The claim holds of evaluations of trees. -/
theorem evaluateTree (bound : ℕ) {scope : Scope} (hscope : D.engine scope.engine) {t : Tree}
    (ht : D.tree t) :
    P.Pairs (fun p => D.value p.2) ((within m bound).evaluateTree scope t)
      ((within n bound).evaluateTree scope t) := by
  cases t with
  | expr e => exact P.bind ((h.trees bound).1 hscope ht) fun v hv => P.pure hv
  | stmt s =>
    change P.Pairs _ ((within m bound).signalOf scope s) ((within n bound).signalOf scope s)
    rw [signalOf_eq_peel, signalOf_eq_peel]
    have hs := (h.trees bound).2 hscope ht .undefined (D.value_of_isPlain trivial)
    exact P.mono hs fun p hp => hp.2

end Pairing.Runs

end

end

end ScriptEngine
