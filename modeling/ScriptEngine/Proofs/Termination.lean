import ScriptEngine.Proofs.Frames
import ScriptEngine.Proofs.LoopFree

/-!
# Loop-free scripts end

Without loops an evaluation can go on forever only by calls.  A call leads to a body one level
deeper, which may be larger than the tree that it is called from and may call again any number of
times; but the limit on nested calls leaves fewer and fewer levels.  So the size of the tree at hand,
plus the size of the largest body for each level that is left, decreases from a node to its parts and
from a call to the body.  This measure is enough as a bound on the nesting of nodes.

The limit itself is kept by all scripts, with and without loops: no scope in which anything is
evaluated is deeper.

Main statement: `loop_free_ends`.
-/

namespace ScriptEngine

/-! ### The measure -/

/-- The size of the largest bodies for each level of calls that is left in a scope. -/
def World.reserve (w : World) (size : ℕ) (scope : Scope) : ℕ :=
  ((w.engine scope.engine).maxCallDepth - scope.depth) * (size + 1)

/-- A body fits into what is left for a scope one level deeper. -/
lemma World.reserve_deeper (w : World) (size : ℕ) {scope inner : Scope}
    (hengine : inner.engine = scope.engine) (hdepth : inner.depth = scope.depth + 1)
    (hlimit : inner.depth ≤ (w.engine scope.engine).maxCallDepth) :
    size + 1 + w.reserve size inner = w.reserve size scope := by
  have hlevels : (w.engine scope.engine).maxCallDepth - scope.depth =
      (w.engine scope.engine).maxCallDepth - inner.depth + 1 := by
    omega
  rw [reserve, reserve, hengine, hlevels, Nat.succ_mul]
  omega

/-- A thing in a pool is smaller than the pool. -/
lemma Pool.sizeOf_lt_of_get? {kind : Kind} {α : Type} [SizeOf α] {p : Pool kind α} {i : Id kind}
    {a : α} (h : p.get? i = some a) : sizeOf a < sizeOf p := by
  have hitem : p.items[i.index]? = some (some a) := Option.join_eq_some_iff.1 h
  have hmem : sizeOf (some a) < sizeOf p.items :=
    Array.sizeOf_lt_of_mem (Array.mem_of_getElem? hitem)
  obtain ⟨items⟩ := p
  simp only [mk.sizeOf_spec, Option.some.sizeOf_spec] at hmem ⊢
  omega

/-- There is a largest body. -/
lemma World.exists_sizeOf_body_le (w : World) :
    ∃ size, ∀ body, w.IsBody body → sizeOf body ≤ size := by
  refine ⟨sizeOf w.functions + sizeOf w.callbacks, fun body hbody => ?_⟩
  cases hbody with
  | @function f x _ hx hbody =>
    have hpool := Pool.sizeOf_lt_of_get? hx
    have hlt : sizeOf body < sizeOf x := by
      obtain ⟨name, parameters, parameterNames, signature, comment, body', frame⟩ := x
      obtain rfl : body' = some body := hbody
      simp only [FunctionInstance.mk.sizeOf_spec, Option.some.sizeOf_spec]
      omega
    omega
  | @callback c x _ hx hbody =>
    have hpool := Pool.sizeOf_lt_of_get? hx
    have hlt : sizeOf body < sizeOf x := by
      obtain ⟨name, displayName, parameters, arguments, locals, body'⟩ := x
      obtain rfl : body' = some body := hbody
      simp only [CallbackInstance.mk.sizeOf_spec, Option.some.sizeOf_spec]
      omega
    omega

/-! ### Evaluators within a measure -/

/-- The values that the host passes. -/
def Entry.arguments : Entry → List Value
  | .execute _ => []
  | .call _ args | .invoke _ args => args

namespace Evaluator

section

variable {w₀ : World} {r : Evaluator World} {n : ℕ} {scope : Scope}

/-- Several expressions that end. -/
lemma ends_evaluateAll {es : List Expr}
    (hes : ∀ e ∈ es, ∀ k, n ≤ k → (r.evaluate scope e).Ends w₀.Continues k Value.Within) :
    (r.evaluateAll scope es).Ends w₀.Continues n fun k vs => ∀ v ∈ vs, v.Within k := by
  induction es generalizing n with
  | nil => exact Action.Ends.pure fun v hv => absurd hv List.not_mem_nil
  | cons e rest ih =>
    refine (hes e (by simp) n (Nat.le_refl n)).bind fun k v hk hv => ?_
    have hrest : ∀ a ∈ rest, ∀ j, k ≤ j →
        (r.evaluate scope a).Ends w₀.Continues j Value.Within :=
      fun a ha j hj => hes a (by simp [ha]) j (Nat.le_trans hk hj)
    refine (ih hrest).bind fun j vs hj hvs => Action.Ends.pure fun u hu => ?_
    rcases List.mem_cons.1 hu with rfl | hu
    · exact hv.mono hj
    · exact hvs u hu

/-- The properties of an object end. -/
lemma ends_evaluateProperties {properties : List (Name × Expr)}
    (hes : ∀ e ∈ properties.map Prod.snd, ∀ k, n ≤ k →
      (r.evaluate scope e).Ends w₀.Continues k Value.Within)
    {bag : PropertyBag} (hbag : ∀ name, (bag.read name).Within n) :
    (r.evaluateProperties scope bag properties).Ends w₀.Continues n
      fun k bag => ∀ name, (bag.read name).Within k := by
  induction properties generalizing n bag with
  | nil => exact Action.Ends.pure hbag
  | cons property rest ih =>
    obtain ⟨name, e⟩ := property
    refine (hes e (by simp) n (Nat.le_refl n)).bind fun k v hk hv => ?_
    refine ih (fun a ha j hj => hes a (by simp [ha]) j (Nat.le_trans hk hj)) ?_
    exact PropertyBag.forall_read_insert (fun m => (hbag m).mono hk) hv name

/-- The value of an expression that may be missing ends. -/
lemma ends_valueOrUndefined {value : Option Expr}
    (hvalue : ∀ e ∈ value.toList, ∀ k, n ≤ k →
      (r.valueOf scope e).Ends (Activation.Satisfies w₀.Continues Value.Within) k Value.Within) :
    (r.valueOrUndefined scope value).Ends (Activation.Satisfies w₀.Continues Value.Within) n
      Value.Within := by
  cases value with
  | none => exact Action.Ends.pure trivial
  | some e => exact hvalue e (by simp) n (Nat.le_refl n)

/-- Several statements that end. -/
lemma ends_performAll {ss : List Stmt}
    (hss : ∀ s ∈ ss, ∀ k, n ≤ k →
      (r.perform scope s).Ends (Activation.Satisfies w₀.Continues Value.Within) k
        fun _ _ => True) :
    (r.performAll scope ss).Ends (Activation.Satisfies w₀.Continues Value.Within) n
      fun _ _ => True := by
  induction ss generalizing n with
  | nil => exact Action.Ends.pure trivial
  | cons s rest ih =>
    refine (hss s (by simp) n (Nat.le_refl n)).bind fun k signal hk _ => ?_
    cases signal with
    | normal => exact ih fun t ht j hj => hss t (by simp [ht]) j (Nat.le_trans hk hj)
    | returning | breaking | continuing => exact Action.Ends.pure trivial

end

/-- The evaluator brings each loop-free tree to an end whose measure is at most `fuel`. -/
structure Settles (w₀ : World) (size fuel : ℕ) (r : Evaluator World) : Prop where
  machine : r.machine = .shared
  body : ∀ {body}, w₀.IsBody body → (Coverage.loopFree w₀).CoversStmt body ∧ sizeOf body ≤ size
  evaluate : ∀ {scope e n}, (Coverage.loopFree w₀).reaches scope →
    (Coverage.loopFree w₀).Covers e → w₀.memory.arrays.size ≤ n →
    sizeOf e + w₀.reserve size scope ≤ fuel →
    (r.evaluate scope e).Ends w₀.Continues n Value.Within
  perform : ∀ {scope s n}, (Coverage.loopFree w₀).reaches scope →
    (Coverage.loopFree w₀).CoversStmt s → w₀.memory.arrays.size ≤ n →
    sizeOf s + w₀.reserve size scope ≤ fuel →
    (r.perform scope s).Ends (Activation.Satisfies w₀.Continues Value.Within) n fun _ _ => True

namespace Settles

variable {w₀ : World} {size fuel : ℕ} {r : Evaluator World} (h : r.Settles w₀ size fuel) {n : ℕ}

include h

/-! ### Variables -/

/-- A command that is given what it asks for ends. -/
lemma exec {α : Type} {k : Command α} (hk : k.Asks w₀ n) :
    (r.machine.exec k).Ends w₀.Continues n (k.Gives w₀ ·) := by
  rw [h.machine]
  exact fun w hw => Command.ends hw hk

/-- Asking for the argument of a parameter ends. -/
lemma argument? (f : Id .function) (i : ℕ) :
    (r.machine.argument? f i).Ends w₀.Continues n fun k argument => ∀ v ∈ argument, v.Within k := by
  rw [h.machine]
  intro w hw
  refine hw.done fun v hv => ?_
  obtain ⟨x, hx, hargument⟩ := Option.bind_eq_some_iff.1 hv
  exact (hw.sound.stores.function hx).argument? trivial hargument

/-- Reading a variable ends. -/
lemma get (scope : Scope) (target : VarRef) :
    (r.machine.get scope target).Ends w₀.Continues n Value.Within := by
  cases target with
  | parameter f i name =>
    have hrequire := h.exec (n := n) (k := .requireFunction scope (.parameter f i name) f) trivial
    refine hrequire.bind fun k _ _ _ => ?_
    refine (h.argument? f i).bind fun k argument _ hargument => ?_
    exact h.exec (k := .deliver scope name argument) hargument
  | register i => exact h.exec (k := .get scope (.register i)) trivial
  | global name => exact h.exec (k := .get scope (.global name)) trivial
  | functionLocal f name => exact h.exec (k := .get scope (.functionLocal f name)) trivial
  | callbackLocal c name => exact h.exec (k := .get scope (.callbackLocal c name)) trivial
  | callbackParameter c i name =>
    exact h.exec (k := .get scope (.callbackParameter c i name)) trivial

/-! ### Calls -/

/-- A body ends one level deeper. -/
lemma runBody {scope inner : Scope} {m : ℕ} (hinner : (Command.deeper scope).Gives w₀ m inner)
    {body : Option Stmt} (hbody : ∀ s ∈ body, w₀.IsBody s) (hn : w₀.memory.arrays.size ≤ n)
    (hfuel : w₀.reserve size scope ≤ fuel) :
    (r.runBody inner body).Ends w₀.Continues n Value.Within := by
  obtain ⟨hengine, hdepth, hlimit⟩ := hinner
  cases body with
  | none => exact Action.Ends.pure trivial
  | some body =>
    obtain ⟨hcovered, hsize⟩ := h.body (hbody body rfl)
    have hreaches : (Coverage.loopFree w₀).reaches inner := by
      change inner.depth ≤ (w₀.engine inner.engine).maxCallDepth
      rw [hengine]
      exact hlimit
    have hreserve := w₀.reserve_deeper size hengine hdepth hlimit
    refine Action.Ends.run (h.perform hreaches hcovered hn ?_) fun _ => trivial
    omega

/-- An activity with arguments that are there ends. -/
lemma during {a : Activity} {x : Action World Value} (hx : x.Ends w₀.Continues n Value.Within)
    (hfunction : ∀ f site args, a = .function f site args → ∀ v ∈ args, v.Within n)
    (hcallback : ∀ c args, a = .callback c args → ∀ v ∈ args, v.Within n) :
    (r.machine.during a x).Ends w₀.Continues n Value.Within := by
  rw [h.machine]
  refine hx.during (fun w hw => ?_) fun k w hw => ?_
  · refine hw.of_stores (a.code_enter w) ?_ ?_ ?_
    · cases a <;> rfl
    · cases a <;> rfl
    · refine hw.sound.stores.enter trivial a ?_ ?_
      · exact fun f site args ha v hv => hw.within (hfunction f site args ha v hv)
      · exact fun c args ha v hv => hw.within (hcallback c args ha v hv)
  · refine hw.of_stores (a.code_leave w) ?_ ?_ (hw.sound.stores.leave trivial a)
    · cases a <;> rfl
    · cases a <;> rfl

/-- An invocation of a function ends. -/
lemma invokeFunction (scope : Scope) (f : Id .function) (site : CallSiteId) {args : List Value}
    (hargs : ∀ v ∈ args, v.Within n) (hn : w₀.memory.arrays.size ≤ n)
    (hfuel : w₀.reserve size scope ≤ fuel) :
    (r.invokeFunction scope f site args).Ends w₀.Continues n Value.Within := by
  refine (h.exec (k := .deeper scope) trivial).bind fun k inner hk hinner => ?_
  refine (h.exec (k := .functionBody f) trivial).bind fun j body hj hbody => ?_
  have hrun := h.runBody hinner hbody (Nat.le_trans hn (Nat.le_trans hk hj)) hfuel
  refine (h.during hrun ?_ ?_).bind fun i v _ hv => ?_
  · rintro _ _ _ ⟨⟩ v hv
    exact (hargs v hv).mono (Nat.le_trans hk hj)
  · rintro _ _ ⟨⟩
  · refine (h.exec (k := .keepResult f v) trivial).bind fun l _ hl _ => ?_
    exact Action.Ends.pure (hv.mono hl)

/-- An invocation of a callback ends. -/
lemma invokeCallback (scope : Scope) (c : Id .callback) {args : List Value}
    (hargs : ∀ v ∈ args, v.Within n) (hn : w₀.memory.arrays.size ≤ n)
    (hfuel : w₀.reserve size scope ≤ fuel) :
    (r.invokeCallback scope c args).Ends w₀.Continues n Value.Within := by
  refine (h.exec (k := .deeper scope) trivial).bind fun k inner hk hinner => ?_
  refine (h.exec (k := .callbackBody c) trivial).bind fun j body hj hbody => ?_
  have hrun := h.runBody hinner hbody (Nat.le_trans hn (Nat.le_trans hk hj)) hfuel
  refine h.during hrun ?_ ?_
  · rintro _ _ _ ⟨⟩
  · rintro _ _ ⟨⟩ v hv
    exact (hargs v hv).mono (Nat.le_trans hk hj)

/-- The engine takes no notice of what is done. -/
lemma note (mark : Mark) :
    (r.note mark).Ends (Activation.Satisfies w₀.Continues Value.Within) n fun _ _ => True := by
  have hnote : (Action.change (r.machine.note mark)).Ends w₀.Continues n fun _ _ => True := by
    rw [h.machine]
    exact fun w hw => ⟨n, Nat.le_refl n, hw, trivial⟩
  exact hnote.within Value.Within.mono

/-! ### Entries and host functions -/

/-- The report of a failure ends. -/
lemma reported (e : Id .engine) {x : Action World Value}
    (hx : x.Ends w₀.Continues n Value.Within) :
    (r.reported e x).Ends w₀.Continues n Value.Within := by
  refine hx.attempt.bind fun k result _ hresult => ?_
  cases result with
  | ok v => exact Action.Ends.pure (hresult v rfl)
  | error error =>
    exact (h.exec (k := .report e error) trivial).bind fun _ _ _ _ => Action.Ends.fail error

/-- A host function that returns and keeps arrays acyclic ends.  What it makes of the memory before
it returns is its own business. -/
lemma runHost (e : Id .engine) (program : Host.Program) {w : World} (hw : w₀.Continues n w)
    {m : Memory} (hprogram : program.KeepsAcyclic w.memory m) :
    (r.runHost e program { w with memory := m }).Ends w₀.Continues n Value.Within := by
  induction program generalizing m with
  | finish result =>
    obtain ⟨hgrows, hresult⟩ := hprogram
    exact ((hw.of_grows hgrows).ofResult hresult).of_le (Nat.le_trans hw.size hgrows.size)
  | read next ih =>
    unfold Evaluator.runHost
    rw [h.machine]
    exact ih m hprogram
  | write change next ih =>
    unfold Evaluator.runHost
    rw [h.machine]
    exact ih hprogram
  | allocate make next ih =>
    unfold Evaluator.runHost
    rw [h.machine]
    exact ih (make m).1 hprogram
  | display v next ih =>
    obtain ⟨text, htext, hnext⟩ := hprogram
    have hexec : Machine.shared.exec (.display v) { w with memory := m } =
        .done text { w with memory := m } := by
      simp [Machine.shared, Command.run, Action.bind_apply, Action.state, htext, Action.ofOption]
    unfold Evaluator.runHost
    rw [h.machine, Action.bind_apply, hexec]
    exact ih text hnext
  | execute | callFunction | invokeCallback => exact hprogram.elim
  | inspectFrame name next ih =>
    unfold Evaluator.runHost
    rw [h.machine]
    refine ih _ (hprogram _ fun frame hframe v hv => ?_)
    obtain ⟨x, hx, rfl⟩ := Option.map_eq_some_iff.1 hframe
    obtain ⟨f, -, hf⟩ := Option.bind_eq_some_iff.1 hx
    exact (hw.sound.stores.function hf).arguments v hv

/-- A call of a harmless function of a native object ends. -/
lemma callApi (scope : Scope) {object : NativeRef} {index : ℕ}
    (hharmless : w₀.Harmless object index) {args : List Value} (hargs : ∀ v ∈ args, v.Within n) :
    (r.callApi scope object index args).Ends w₀.Continues n Value.Within := by
  refine (h.exec (k := .apiClass object) trivial).bind fun k c hk hc => ?_
  obtain rfl : c = w₀.apiClass object := hc
  intro w hw
  have hthere : ∀ v ∈ args, v.Within w.memory.arrays.size :=
    fun v hv => hw.within ((hargs v hv).mono hk)
  exact h.runHost _ _ hw (hharmless args w.memory hw.sound.memory hthere)

/-- The resolution of an object call ends. -/
lemma resolve (scope : Scope) (site : Id .callSite) (target : VarRef) {function : Name} (count : ℕ)
    (hmethod : ∀ object, ∀ slot ∈ (w₀.apiClass object).slot? function,
      w₀.Harmless object slot.index) :
    (r.resolve scope site target function count).Ends w₀.Continues n
      fun _ resolution => w₀.Harmless resolution.1 resolution.2.index := by
  refine (h.exec (k := .resolution site) trivial).bind fun k known _ hknown => ?_
  cases known with
  | some resolution => exact Action.Ends.pure (hknown _ _ rfl)
  | none =>
    refine (h.get scope target).bind fun j v _ _ => ?_
    have hfind := h.exec (n := j) (k := .findMethod scope.engine target v function count) hmethod
    refine hfind.bind fun i resolution _ hresolution => ?_
    have hkeep := h.exec (n := i) (k := .keepResolution site resolution) hresolution
    exact hkeep.bind fun _ _ _ _ => Action.Ends.pure hresolution

/-! ### Expressions -/

variable {scope : Scope}

/-- A form of expression ends when its parts do. -/
lemma evaluateNode {node : ExprNode} (hnode : node.Harmless w₀)
    (hparts : ∀ e ∈ node.parts, ∀ k, n ≤ k →
      (r.evaluate scope e).Ends w₀.Continues k Value.Within)
    (hn : w₀.memory.arrays.size ≤ n) (hfuel : w₀.reserve size scope ≤ fuel) :
    (r.evaluateNode scope node).Ends w₀.Continues n Value.Within := by
  cases node with
  | literal v | apiConstant v => exact Action.Ends.pure (Value.Within.mono hnode hn)
  | var target => exact h.get scope target
  | assign target op value =>
    have hvalue := hparts value (by simp [ExprNode.parts])
    cases op with
    | none =>
      refine (hvalue n (Nat.le_refl n)).bind fun k v _ hv => ?_
      refine (h.exec (k := .set scope target v) hv).bind fun j _ hj _ => ?_
      exact Action.Ends.pure (hv.mono hj)
    | some op =>
      refine (h.get scope target).bind fun k current hk _ => ?_
      refine (hvalue k hk).bind fun j operand _ _ => ?_
      refine (h.exec (k := .compute op current operand) trivial).bind fun i v _ hv => ?_
      refine (h.exec (k := .set scope target v) hv).bind fun l _ hl _ => ?_
      exact Action.Ends.pure (Value.Within.mono hv hl)
  | binary op left right =>
    refine (hparts left (by simp [ExprNode.parts]) n (Nat.le_refl n)).bind fun k l hk _ => ?_
    refine (hparts right (by simp [ExprNode.parts]) k hk).bind fun j v _ _ => ?_
    exact h.exec (k := .compute op l v) trivial
  | logical op left right =>
    refine (hparts left (by simp [ExprNode.parts]) n (Nat.le_refl n)).bind fun k v hk hv => ?_
    split
    · exact Action.Ends.pure hv
    · exact hparts right (by simp [ExprNode.parts]) k hk
  | unary op operand =>
    refine (hparts operand (by simp [ExprNode.parts]) n (Nat.le_refl n)).bind fun k v _ _ => ?_
    exact Action.Ends.pure (op.within_apply v k)
  | conditional condition consequent alternative =>
    refine (hparts condition (by simp [ExprNode.parts]) n (Nat.le_refl n)).bind fun k v hk _ => ?_
    split
    · exact hparts consequent (by simp [ExprNode.parts]) k hk
    · exact hparts alternative (by simp [ExprNode.parts]) k hk
  | array items =>
    refine (ends_evaluateAll hparts).bind fun k vs _ hvs => ?_
    exact h.exec (k := .newArray vs) hvs
  | object properties =>
    have hempty : ∀ name, (PropertyBag.read ∅ name).Within n := fun _ => trivial
    refine (ends_evaluateProperties hparts hempty).bind fun k bag _ hbag => ?_
    exact h.exec (k := .newObject bag) hbag
  | member object property =>
    refine (hparts object (by simp [ExprNode.parts]) n (Nat.le_refl n)).bind fun k v _ _ => ?_
    exact h.exec (k := .readMember scope.engine v property) trivial
  | index object index =>
    refine (hparts object (by simp [ExprNode.parts]) n (Nat.le_refl n)).bind fun k v hk _ => ?_
    refine (hparts index (by simp [ExprNode.parts]) k hk).bind fun j i _ _ => ?_
    exact h.exec (k := .readIndex scope.engine v i) trivial
  | call f site args =>
    refine (ends_evaluateAll hparts).bind fun k vs hk hvs => ?_
    exact h.invokeFunction scope f site hvs (Nat.le_trans hn hk) hfuel
  | apiCall object function slot args =>
    have hcheck := h.exec (n := n)
      (k := .checkApiCall scope.engine object function slot args.length) trivial
    refine hcheck.bind fun k _ hk _ => ?_
    refine (ends_evaluateAll fun e he j hj => hparts e he j (Nat.le_trans hk hj)).bind
      fun j vs _ hvs => ?_
    exact h.callApi scope hnode hvs
  | objectCall site target function args =>
    refine (h.resolve scope site target args.length hnode).bind fun k resolution hk hharmless => ?_
    refine (ends_evaluateAll fun e he j hj => hparts e he j (Nat.le_trans hk hj)).bind
      fun j vs _ hvs => ?_
    exact h.callApi scope hharmless hvs
  | snippetCall snippet args =>
    refine (Action.Ends.ofResult (Q := fun _ _ => True) fun _ _ => trivial).bind fun k _ hk _ => ?_
    refine (ends_evaluateAll fun e he j hj => hparts e he j (Nat.le_trans hk hj)).bind
      fun j vs _ hvs => ?_
    have hcode : (Action.ofResult (snippet.codeFor vs.length)).Ends w₀.Continues j
        fun _ code => MachineCode.KeepsAcyclic code :=
      Action.Ends.ofResult fun code hcode => hnode code (Snippet.state_of_codeFor hcode)
    refine hcode.bind fun i code hi hkeeps => ?_
    have hrun := h.exec (n := i) (k := .runCode code vs) ⟨hkeeps, fun v hv => (hvs v hv).mono hi⟩
    exact hrun.bind fun _ _ _ _ => Action.Ends.pure trivial

/-! ### Statements -/

/-- A form of statement that is no loop ends when its parts do. -/
lemma performNode {node : StmtNode} (hnode : node.LoopFree)
    (hexpressions : ∀ e ∈ node.expressions, ∀ k, n ≤ k →
      (r.evaluate scope e).Ends w₀.Continues k Value.Within)
    (hstatements : ∀ s ∈ node.statements, ∀ k, n ≤ k →
      (r.perform scope s).Ends (Activation.Satisfies w₀.Continues Value.Within) k
        fun _ _ => True) :
    (r.performNode scope node).Ends (Activation.Satisfies w₀.Continues Value.Within) n
      fun _ _ => True := by
  have hvalueOf : ∀ e ∈ node.expressions, ∀ k, n ≤ k →
      (r.valueOf scope e).Ends (Activation.Satisfies w₀.Continues Value.Within) k Value.Within :=
    fun e he k hk => (hexpressions e he k hk).within Value.Within.mono
  cases node with
  | expr e =>
    refine (hvalueOf e (by simp [StmtNode.expressions]) n (Nat.le_refl n)).bind fun k v _ _ => ?_
    exact Action.Ends.pure trivial
  | declare target init =>
    refine (ends_valueOrUndefined hvalueOf).bind fun k v _ hv => ?_
    have hset := h.exec (k := .set scope target v) hv
    refine (hset.within (V := Value.Within) Value.Within.mono).bind fun _ _ _ _ => ?_
    exact Action.Ends.pure trivial
  | block statements => exact ends_performAll hstatements
  | branch condition consequent alternative =>
    have hcondition := hvalueOf condition (by simp [StmtNode.expressions])
    refine (hcondition n (Nat.le_refl n)).bind fun k v hk _ => ?_
    split
    · exact hstatements consequent (by simp [StmtNode.statements]) k hk
    · cases alternative with
      | none => exact Action.Ends.pure trivial
      | some s => exact hstatements s (by simp [StmtNode.statements]) k hk
  | whileLoop condition body | forLoop init condition step body => exact hnode.elim
  | returnValue value =>
    refine (ends_valueOrUndefined hvalueOf).bind fun k v _ hv => ?_
    refine (Action.Ends.setReturned hv).bind fun j _ _ _ => ?_
    exact (h.note _).bind fun _ _ _ _ => Action.Ends.pure trivial
  | breakLoop | continueLoop => exact Action.Ends.pure trivial

/-! ### Entries -/

/-- An entry ends. -/
lemma enter (e : Id .engine) {entry : Entry} (hentry : (Coverage.loopFree w₀).CoversEntry entry)
    (hargs : ∀ v ∈ entry.arguments, v.Within n) (hn : w₀.memory.arrays.size ≤ n)
    (hfuel : sizeOf entry + w₀.reserve size (.top e) ≤ fuel) :
    (r.enter e entry).Ends w₀.Continues n Value.Within := by
  have hreserve : w₀.reserve size (.top e) ≤ fuel := by omega
  cases entry with
  | execute script =>
    have hscript : sizeOf script + w₀.reserve size (.top e) ≤ fuel := by
      rw [Entry.execute.sizeOf_spec] at hfuel
      omega
    have hperform := h.perform ((Coverage.loopFree w₀).reaches_top e) hentry hn hscript
    refine h.reported e (h.during (Action.Ends.run hperform fun _ => trivial) ?_ ?_)
    · rintro _ _ _ ⟨⟩
    · rintro _ _ ⟨⟩
  | call name args =>
    refine h.reported e ?_
    refine (h.exec (k := .findFunction e name args.length) trivial).bind fun k found hk _ => ?_
    refine (h.invokeFunction _ _ _ ?_ (Nat.le_trans hn hk) hreserve).mapError _
    exact fun v hv => (hargs v hv).mono hk
  | invoke name args =>
    refine h.reported e ?_
    refine (h.exec (k := .findCallback e name args.length) trivial).bind fun k c hk _ => ?_
    refine (h.invokeCallback _ _ ?_ (Nat.le_trans hn hk) hreserve).mapError _
    exact fun v hv => (hargs v hv).mono hk

end Settles

/-! ### The measure is enough -/

variable {w₀ : World} {size : ℕ}

/-- The evaluator of the engine brings each loop-free tree to an end whose measure is at most the
bound. -/
theorem settles_shared (hbodies : w₀.LoopFree) (hsize : ∀ body, w₀.IsBody body → sizeOf body ≤ size)
    (bound : ℕ) : (Evaluator.shared bound).Settles w₀ size bound := by
  have hbody : ∀ {body}, w₀.IsBody body →
      (Coverage.loopFree w₀).CoversStmt body ∧ sizeOf body ≤ size :=
    fun hbody => ⟨hbodies.body hbody, hsize _ hbody⟩
  induction bound with
  | zero =>
    refine ⟨rfl, hbody, fun {scope e n} _ _ _ hfuel => ?_, fun {scope s n} _ _ _ hfuel => ?_⟩
    · obtain ⟨node, location⟩ := e
      rw [Expr.mk.sizeOf_spec] at hfuel
      omega
    · obtain ⟨node, location⟩ := s
      rw [Stmt.mk.sizeOf_spec] at hfuel
      omega
  | succ bound ih =>
    refine ⟨rfl, hbody, fun {scope e n} hscope he hn hfuel => ?_,
      fun {scope s n} hscope hs hn hfuel => ?_⟩
    · have hpart : ∀ a ∈ e.node.parts, ∀ k, n ≤ k →
          ((Evaluator.shared bound).evaluate scope a).Ends w₀.Continues k Value.Within := by
        intro a ha k hk
        have hlt := Expr.sizeOf_lt_of_mem_parts ha
        exact ih.evaluate hscope (he.parts a ha) (Nat.le_trans hn hk) (by omega)
      have hreserve : w₀.reserve size scope ≤ bound := by
        obtain ⟨node, location⟩ := e
        rw [Expr.mk.sizeOf_spec] at hfuel
        omega
      have hnode := ih.evaluateNode he.node hpart hn hreserve
      exact fun w hw => hnode.mapError _ w hw
    · have hexpression : ∀ e ∈ s.node.expressions, ∀ k, n ≤ k →
          ((Evaluator.shared bound).evaluate scope e).Ends w₀.Continues k Value.Within := by
        intro e he k hk
        have hlt := Stmt.sizeOf_lt_of_mem_expressions he
        exact ih.evaluate hscope (hs.expressions e he) (Nat.le_trans hn hk) (by omega)
      have hstatement : ∀ t ∈ s.node.statements, ∀ k, n ≤ k →
          ((Evaluator.shared bound).perform scope t).Ends
            (Activation.Satisfies w₀.Continues Value.Within) k fun _ _ => True := by
        intro t ht k hk
        have hlt := Stmt.sizeOf_lt_of_mem_statements ht
        exact ih.perform hscope (hs.statements t ht) (Nat.le_trans hn hk) (by omega)
      have hnode := ih.performNode hs.node hexpression hstatement
      exact fun a ha => hnode.mapError _ a ha

end Evaluator

/-! ### A function that calls itself without end -/

namespace Runaway

/-- The class `Console`, which is the first native object of its world. -/
def console : NativeRef := ⟨⟨0⟩, "Console"⟩

/-- The call `Console.print(x)`. -/
def printing : Expr :=
  .unlocated (.apiCall console .empty ⟨0, 1⟩ [SelfCalling.parameter])

/-- The call of the function with an expression. -/
def call (argument : Expr) : Expr :=
  .unlocated (.call SelfCalling.function .first [argument])

/-- The body `Console.print(x); return f(x)`. -/
def body : Stmt :=
  .unlocated (.block
    [.ofExpr printing, .unlocated (.returnValue (some (call SelfCalling.parameter)))])

/-- The script `return f([])`. -/
def script : Stmt :=
  .unlocated (.returnValue (some (call (.unlocated (.array [])))))

/-- One engine, in which calls may nest twice, with the class `Console` and the function. -/
def world : World :=
  { SelfCalling.world with
    natives := (Pool.empty.add (Host.consoleClass .empty ⟨0⟩ ⟨0⟩).1).2
    functions := SelfCalling.world.functions.update SelfCalling.function fun f =>
      { f with body := some body } }

/-- There is one function. -/
lemma eq_of_function? {f : Id .function} {x : FunctionInstance} (h : world.function? f = some x) :
    x = { FunctionInstance.define .empty "f" [.empty] ["x"] with body := some body } := by
  have h : (SelfCalling.world.functions.update SelfCalling.function _).get? f = some x := h
  rw [Pool.get?_update] at h
  split at h
  · obtain ⟨original, horiginal, rfl⟩ := Option.map_eq_some_iff.1 h
    rw [SelfCalling.eq_of_function? horiginal]
  · rename_i hne
    obtain ⟨_ | n⟩ := f
    · exact absurd rfl hne
    · exact absurd h (by simp [SelfCalling.world, Pool.get?, Pool.add, Pool.empty])

/-- Printing does no harm. -/
lemma harmless : world.Harmless console 0 := by
  refine World.harmless_of_forall (fun f hf => ?_) 0
  exact Host.consoleClass_keepsAcyclic .empty ⟨0⟩ ⟨0⟩ f hf

/-- No native object has constants. -/
lemma constant?_eq_none (object : NativeRef) (n : Name) :
    (world.apiClass object).constant? n = none := by
  obtain ⟨⟨_ | k⟩, className⟩ := object
  · rfl
  · simp [World.apiClass, world, Pool.get?, Pool.add, Pool.empty, Host.ApiClass.constant?,
      Host.ApiClass.named]
    rfl

/-- There are no arrays. -/
lemma sound : world.Sound where
  memory := by
    refine ⟨fun a v hv => ?_, fun o n => trivial, fun a ha => ?_⟩
    · exact absurd hv (Array.not_mem_empty v)
    · exact absurd (Memory.index_lt_of_transGen ha) (Nat.not_lt_zero _)
  stores := by
    refine ⟨fun e => ?_, fun hx => ?_, fun hx => ?_, fun object n v hv => ?_⟩
    · obtain ⟨_ | k⟩ := e
      · exact ⟨fun _ => trivial, fun _ => trivial⟩
      · have hengine : world.engine ⟨k + 1⟩ = default := by
          simp [World.engine, world, SelfCalling.world, Pool.get?, Pool.add, Pool.empty]
        rw [hengine]
        exact ⟨fun _ => trivial, fun _ => trivial⟩
    · rw [eq_of_function? hx]
      refine ⟨fun _ => trivial, fun v hv => ?_⟩
      rw [List.eq_of_mem_replicate hv]
      trivial
    · exact absurd (hx.symm.trans (SelfCalling.callback?_eq_none _)) (by simp)
    · rw [constant?_eq_none object n] at hv
      exact absurd hv (by simp)

/-- A parameter has nothing in it that does harm. -/
lemma parameter_covered : (Coverage.loopFree world).Covers SelfCalling.parameter :=
  .intro trivial fun _ ha => absurd ha List.not_mem_nil

/-- A call has no loop if its argument does no harm. -/
lemma call_covered {argument : Expr} (h : (Coverage.loopFree world).Covers argument) :
    (Coverage.loopFree world).Covers (call argument) := by
  refine .intro trivial fun a ha => ?_
  obtain rfl := List.mem_singleton.1 ha
  exact h

/-- Printing is covered. -/
lemma printing_covered : (Coverage.loopFree world).Covers printing := by
  refine .intro harmless fun a ha => ?_
  obtain rfl := List.mem_singleton.1 ha
  exact parameter_covered

/-- A statement that returns an expression has no loop. -/
lemma return_covered {e : Expr} (h : (Coverage.loopFree world).Covers e) :
    (Coverage.loopFree world).CoversStmt (.unlocated (.returnValue (some e))) := by
  refine .intro trivial (fun a ha => ?_) fun t ht => absurd ht List.not_mem_nil
  obtain rfl : a = e := List.mem_singleton.1 ha
  exact h

/-- The script has no loop. -/
lemma script_covered : (Coverage.loopFree world).CoversStmt script :=
  return_covered (call_covered (.intro trivial fun _ ha => absurd ha List.not_mem_nil))

/-- The world has no loop. -/
lemma loopFree : world.LoopFree where
  body {s} hs := by
    cases hs with
    | function hx hbody =>
      rw [eq_of_function? hx] at hbody
      obtain rfl := Option.some.inj hbody
      refine .intro trivial (fun e he => absurd he List.not_mem_nil) fun t ht => ?_
      obtain rfl | rfl : t = .ofExpr printing ∨
          t = .unlocated (.returnValue (some (call SelfCalling.parameter))) := by
        simpa [body, Stmt.unlocated, Stmt.node, StmtNode.statements] using ht
      · refine .intro trivial (fun e he => ?_) fun t ht => absurd ht List.not_mem_nil
        obtain rfl : e = printing := List.mem_singleton.1 he
        exact printing_covered
      · exact return_covered (call_covered parameter_covered)
    | callback hx _ => exact absurd (hx.symm.trans (SelfCalling.callback?_eq_none _)) (by simp)
  resolved hr := by
    simp [World.resolution?, world, SelfCalling.world, World.empty] at hr

end Runaway

/-! ### Loop-free scripts -/

/-- Loop-free scripts end.  In a world in which no array holds itself and no body has a loop, each
entry ends with a value or an error, and always in the same way however large the bound on the
nesting of nodes is from then on; the world is such a one again afterwards.  At every moment the
current scope is no deeper than its engine allows. -/
theorem loop_free_ends (e : Id .engine) (entry : Entry) {w : World} (hsound : w.Sound)
    (hloopFree : w.LoopFree) (hentry : (Coverage.loopFree w).CoversEntry entry)
    (hargs : ∀ v ∈ entry.arguments, v.Within w.memory.arrays.size) :
    (∃ o bound₀, o.Finished ∧ o.state.Sound ∧ o.state.LoopFree ∧
      ∀ bound, bound₀ ≤ bound → (Evaluator.shared bound).enter e entry w = o) ∧
    ∀ bound, let o := (Evaluator.within .traced bound).enter e entry ⟨w, []⟩
      o.mapState (·.world) = (Evaluator.shared bound).enter e entry w ∧
      History.Always (fun moment _ => moment.WithinLimit) o.state.record := by
  refine ⟨?_, fun bound => ⟨?_, depth_le_maxCallDepth bound e entry w⟩⟩
  · obtain ⟨size, hsize⟩ := w.exists_sizeOf_body_le
    let enough := sizeOf entry + w.reserve size (.top e)
    have hsettles := Evaluator.settles_shared hloopFree hsize enough
    have hends := hsettles.enter e hentry hargs (Nat.le_refl _) (Nat.le_refl _) w
      ⟨rfl, hsound, hloopFree.resolved, Nat.le_refl _⟩
    have hsame : ∀ bound, enough ≤ bound → ((Evaluator.shared enough).enter e entry w).Finished →
        (Evaluator.shared bound).enter e entry w = (Evaluator.shared enough).enter e entry w :=
      fun bound hbound => Evaluator.enter_eq_of_le .shared hbound e entry
    rcases hends.eq_done_or_failed with
      ⟨k, v, w', ho, hk, hw', -⟩ | ⟨k, error, w', ho, hk, hw'⟩
    · rw [ho] at hsame
      exact ⟨_, enough, .done v w', hw'.sound, hw'.loopFree hk hloopFree,
        fun bound hbound => hsame bound hbound (.done v w')⟩
    · rw [ho] at hsame
      exact ⟨_, enough, .failed error w', hw'.sound, hw'.loopFree hk hloopFree,
        fun bound hbound => hsame bound hbound (.failed error w')⟩
  · have herase := (Evaluator.traced_simulates bound).enter [] e (Coverage.coversEntry_all entry)
    exact herase.erases ⟨w, []⟩

/-- A function that calls itself without end is stopped by the limit on nested calls. -/
theorem runaway_hits_limit :
    ∃ bound₀ w, w.Sound ∧ ∀ bound, bound₀ ≤ bound →
      (Evaluator.shared bound).enter ⟨0⟩ (.execute Runaway.script) Runaway.world =
        .failed (.of (.recursionLimit 2)) w := by
  have hargs : ∀ v ∈ (Entry.execute Runaway.script).arguments,
      v.Within Runaway.world.memory.arrays.size := fun v hv => absurd hv List.not_mem_nil
  obtain ⟨⟨o, bound₀, -, hsound, -, hsame⟩, -⟩ :=
    loop_free_ends ⟨0⟩ (.execute Runaway.script) Runaway.sound Runaway.loopFree
      Runaway.script_covered hargs
  have hlimit : ((Evaluator.shared 20).enter ⟨0⟩ (.execute Runaway.script)
      Runaway.world).mapState (fun _ => ()) = .failed (.of (.recursionLimit 2)) () := rfl
  have ho : (Evaluator.shared 20).enter ⟨0⟩ (.execute Runaway.script) Runaway.world = o := by
    rw [← hsame (max bound₀ 20) (Nat.le_max_left _ _)]
    exact (Evaluator.enter_eq_of_le .shared (Nat.le_max_right _ _) ⟨0⟩ _ (by decide +kernel)).symm
  rw [ho] at hlimit
  cases o with
  | done v w => exact nomatch hlimit
  | failed error w =>
    obtain rfl : error = .of (.recursionLimit 2) := (Outcome.failed.inj hlimit).1
    exact ⟨bound₀, w, hsound, hsame⟩
  | @diverged w => exact nomatch hlimit

end ScriptEngine
