import ScriptEngine.Evaluation.Basic
import ScriptEngine.Proofs.MirroredCommands

/-!
# Mirrored evaluations

Trees that mirror each other evaluate in the same way: in worlds that mirror each other, they give
values that mirror each other, or fail with the same error, and leave worlds behind that mirror each
other.  The same holds for bodies, for host functions that enter the engine again, and for the
entries of the host.

The induction is on the bound of the evaluation.  Each form of a tree is treated once, for an
evaluator whose parts respect mirror images (`Evaluator.RespectsMirrors`).

Main statement: `Evaluator.respectsMirrors_shared`.
-/

namespace ScriptEngine

variable {Γ : Surroundings} {ρ ρ' : Renaming}

/-! ### Activities -/

/-- The activities are of the same kind, and differ in numbers alone. -/
inductive Activity.Mirrors (ρ : Renaming) : Activity → Activity → Prop
  | script : Mirrors ρ .script .script
  | function {f f' args args'} (hf : f.Mirrors ρ f') (site : CallSiteId)
    (hargs : Values.Mirrors ρ args args') :
    Mirrors ρ (.function f site args) (.function f' site args')
  | callback {c c' args args'} (hc : c.Mirrors ρ c') (hargs : Values.Mirrors ρ args args') :
    Mirrors ρ (.callback c args) (.callback c' args')

namespace Activity.Mirrors

variable {a a' : Activity} {w w' : World}

lemma mono (ha : a.Mirrors ρ a') (hle : ρ ≤ ρ') : a.Mirrors ρ' a' := by
  cases ha with
  | script => exact .script
  | function hf site hargs => exact .function (hf.mono hle) site (hargs.mono hle)
  | callback hc hargs => exact .callback (hc.mono hle) (hargs.mono hle)

lemma enter (ha : a.Mirrors ρ a') (h : w.Mirrors Γ ρ w') :
    (a.enter w).Mirrors Γ ρ (a'.enter w') := by
  cases ha with
  | script => exact h
  | function hf site hargs =>
    exact h.modifyFunction hf fun _ _ hx => { hx with frame := hx.frame.enter site hargs }
  | callback hc hargs => exact h.modifyCallback hc fun _ _ hx => hx.enter hargs

lemma leave (ha : a.Mirrors ρ a') (h : w.Mirrors Γ ρ w') :
    (a.leave w).Mirrors Γ ρ (a'.leave w') := by
  cases ha with
  | script => exact h
  | function hf =>
    exact h.modifyFunction hf fun _ _ hx => { hx with frame := hx.frame.leave }
  | callback hc => exact h

end Activity.Mirrors

/-! ### Evaluators -/

/-- The activations differ in numbers alone. -/
structure Activation.Mirrors (Γ : Surroundings) (ρ : Renaming) (a a' : Activation World) :
    Prop where
  state : a.state.Mirrors Γ ρ a'.state
  returned : a.returned.Mirrors ρ a'.returned

/-- Actions on worlds that mirror each other. -/
abbrev Action.WorldMirrors (Γ : Surroundings) {α α' : Type} (R : Renaming → α → α' → Prop) :
    Renaming → Action World α → Action World α' → Prop :=
  Action.Mirrors (World.Mirrors Γ) R

/-- Actions on activations that mirror each other. -/
abbrev Action.BodyMirrors (Γ : Surroundings) {α α' : Type} (R : Renaming → α → α' → Prop) :
    Renaming → Action (Activation World) α → Action (Activation World) α' → Prop :=
  Action.Mirrors (Activation.Mirrors Γ) R

/-- The evaluator of an engine evaluates trees that mirror each other in the same way. -/
structure Evaluator.RespectsMirrors (Γ : Surroundings) (r : Evaluator World) : Prop where
  machine : r.machine = .shared
  evaluate : ∀ {ρ scope scope' e e'}, scope.Mirrors ρ scope' → e.Mirrors ρ e' →
    Action.WorldMirrors Γ Value.Mirrors ρ (r.evaluate scope e) (r.evaluate scope' e')
  perform : ∀ {ρ scope scope' s s'}, scope.Mirrors ρ scope' → s.Mirrors ρ s' →
    Action.BodyMirrors Γ (fun _ => Eq) ρ (r.perform scope s) (r.perform scope' s')

namespace Evaluator.RespectsMirrors

open ScriptEngine.Action

variable {r : Evaluator World} (hr : r.RespectsMirrors Γ) {scope scope' : Scope}
  (hscope : scope.Mirrors ρ scope')

/-! ### Bodies -/

lemma during {α : Type} {R : Renaming → α → α → Prop} {a a' : Activity} (ha : a.Mirrors ρ a')
    {x x' : Action World α} (hx : Action.WorldMirrors Γ R ρ x x') :
    Action.WorldMirrors Γ R ρ (Machine.shared.during a x) (Machine.shared.during a' x') := by
  refine Mirrors.bind (.change fun hle hw => (ha.mono hle).enter hw) fun hle _ => ?_
  exact (hx.mono hle).ensuring fun hle' hw => (ha.mono (hle.trans hle')).leave hw

include hr

lemma run (hscope : scope.Mirrors ρ scope') {s s' : Stmt} (hs : s.Mirrors ρ s') :
    Action.WorldMirrors Γ Value.Mirrors ρ (r.run scope s) (r.run scope' s') := by
  refine ⟨fun {ρ₁ w w'} hle hw => ?_⟩
  have hout := (hr.perform (hscope.mono hle) (hs.mono hle)).run le_rfl
    (⟨hw, .undefined⟩ : Activation.Mirrors Γ ρ₁ ⟨w, .undefined⟩ ⟨w', .undefined⟩)
  unfold Evaluator.run
  generalize r.perform scope s ⟨w, .undefined⟩ = out, r.perform scope' s' ⟨w', .undefined⟩ = out'
    at hout
  cases hout with
  | @done _ signal signal' _ _ hle₂ hsignal ha =>
    subst hsignal
    refine .done hle₂ ?_ ha.state
    split
    · exact ha.returned
    · exact .undefined
  | failed hle₂ e ha => exact .failed hle₂ e ha.state
  | unfinished a a' => exact .unfinished _ _

lemma runBody (hscope : scope.Mirrors ρ scope') {s s' : Option Stmt}
    (hs : OptionStmt.Mirrors ρ s s') :
    Action.WorldMirrors Γ Value.Mirrors ρ (r.runBody scope s) (r.runBody scope' s') := by
  cases hs with
  | none => exact .pure fun _ => .undefined
  | some hs => exact hr.run hscope hs

lemma invokeFunction (hscope : scope.Mirrors ρ scope') {f f' : Id .function} (hf : f.Mirrors ρ f')
    (site : CallSiteId) {args args' : List Value} (hargs : Values.Mirrors ρ args args') :
    Action.WorldMirrors Γ Value.Mirrors ρ (r.invokeFunction scope f site args)
      (r.invokeFunction scope' f' site args') := by
  unfold Evaluator.invokeFunction
  rw [hr.machine]
  refine Mirrors.bind ⟨fun hle hw => hw.deeper (hscope.mono hle)⟩ fun hle hinner => ?_
  refine Mirrors.bind ⟨fun hle' hw => hw.functionBody ((hf.mono hle).mono hle')⟩
    fun hle' hbody => ?_
  have hle := hle.trans hle'
  refine Mirrors.bind (during (.function (hf.mono hle) site (hargs.mono hle))
    (hr.runBody (hinner.mono hle') hbody)) fun hle' hv => ?_
  have hle := hle.trans hle'
  exact Mirrors.bind (R := Renaming.Anything)
    ⟨fun hle' hw =>
      .done le_rfl trivial (hw.setLastResult ((hf.mono hle).mono hle') (hv.mono hle'))⟩
    fun hle' _ => .pure fun hle'' => (hv.mono hle').mono hle''

lemma invokeCallback (hscope : scope.Mirrors ρ scope') {c c' : Id .callback} (hc : c.Mirrors ρ c')
    {args args' : List Value} (hargs : Values.Mirrors ρ args args') :
    Action.WorldMirrors Γ Value.Mirrors ρ (r.invokeCallback scope c args)
      (r.invokeCallback scope' c' args') := by
  unfold Evaluator.invokeCallback
  rw [hr.machine]
  refine Mirrors.bind ⟨fun hle hw => hw.deeper (hscope.mono hle)⟩ fun hle hinner => ?_
  refine Mirrors.bind ⟨fun hle' hw => hw.callbackBody ((hc.mono hle).mono hle')⟩
    fun hle' hbody => ?_
  have hle := hle.trans hle'
  exact during (.callback (hc.mono hle) (hargs.mono hle)) (hr.runBody (hinner.mono hle') hbody)

/-! ### Entries -/

/-- An entry of the host, which reports its error. -/
lemma reported {e e' : Id .engine} (he : e.Mirrors ρ e') {x x' : Action World Value}
    (hx : Action.WorldMirrors Γ Value.Mirrors ρ x x') :
    Action.WorldMirrors Γ Value.Mirrors ρ (r.reported e x) (r.reported e' x') := by
  unfold Evaluator.reported
  rw [hr.machine]
  refine Mirrors.bind hx.attempt fun hle hresult => ?_
  cases hresult with
  | ok hv => exact .pure fun hle' => hv.mono hle'
  | error error =>
    exact Mirrors.bind (R := Renaming.Anything)
      ⟨fun hle' hw => .done le_rfl trivial (hw.report ((he.mono hle).mono hle') error)⟩
      fun _ _ => .fail error

/-- A script is executed in the same way. -/
theorem execute {e e' : Id .engine} (he : e.Mirrors ρ e') {s s' : Stmt} (hs : s.Mirrors ρ s') :
    Action.WorldMirrors Γ Value.Mirrors ρ (r.execute e s) (r.execute e' s') := by
  refine hr.reported he ?_
  rw [hr.machine]
  exact during .script (hr.run (.top he) hs)

/-- A function is called by its name in the same way. -/
theorem callNamed {e e' : Id .engine} (he : e.Mirrors ρ e') (name : String)
    {args args' : List Value} (hargs : Values.Mirrors ρ args args') :
    Action.WorldMirrors Γ Value.Mirrors ρ (r.callNamed e name args)
      (r.callNamed e' name args') := by
  refine hr.reported he ?_
  rw [hr.machine, hargs.length_eq]
  refine Mirrors.bind ⟨fun hle hw => hw.findFunction (he.mono hle) name args'.length⟩
    fun hle hf => ?_
  dsimp only
  rw [hf.2]
  exact (hr.invokeFunction (.top (he.mono hle)) hf.1 .host (hargs.mono hle)).mapError _

/-- A callback is invoked by its name in the same way. -/
theorem invokeNamed {e e' : Id .engine} (he : e.Mirrors ρ e') (name : String)
    {args args' : List Value} (hargs : Values.Mirrors ρ args args') :
    Action.WorldMirrors Γ Value.Mirrors ρ (r.invokeNamed e name args)
      (r.invokeNamed e' name args') := by
  refine hr.reported he ?_
  rw [hr.machine, hargs.length_eq]
  refine Mirrors.bind ⟨fun hle hw => hw.findCallback (he.mono hle) name args'.length⟩
    fun hle hc => ?_
  exact (hr.invokeCallback (.top (he.mono hle)) hc (hargs.mono hle)).mapError _

/-- Host functions that mirror each other run in the same way, step by step. -/
lemma runHost {m m' : Memory} {p p' : Host.Program} (hp : p.Mirrors Γ ρ m m' p') {e e' : Id .engine}
    (he : e.Mirrors ρ e') {w w' : World} (hw : w.Mirrors Γ ρ w') (hm : w.memory = m)
    (hm' : w'.memory = m') :
    Outcome.WorldMirrors Γ Value.Mirrors ρ (r.runHost e p w) (r.runHost e' p' w') := by
  have hmachine := hr.machine
  induction hp generalizing w w' with
  | finish hresult => exact .ofResult hresult hw
  | read _ ih =>
    subst hm hm'
    simp only [Evaluator.runHost, hmachine]
    exact ih he hw rfl rfl
  | write hgrows hchange _ ih =>
    subst hm hm'
    simp only [Evaluator.runHost, hmachine]
    exact (ih (he.mono hgrows.le) (hw.withMemory hgrows hchange) rfl rfl).of_le hgrows.le
  | allocate hgrows hmake _ ih =>
    subst hm hm'
    simp only [Evaluator.runHost, hmachine]
    exact (ih (he.mono hgrows.le) (hw.withMemory hgrows hmake) rfl rfl).of_le hgrows.le
  | @display _ _ _ v v' _ _ hv _ ih =>
    simp only [Evaluator.runHost, hmachine, Machine.shared, Command.run, Action.bind_apply,
      Action.state]
    rw [hw.memory.display? hv]
    cases w.memory.display? v with
    | none => exact .unfinished _ _
    | some text => exact ih text he hw hm hm'
  | execute hscript _ ih =>
    have hout := (hr.execute he hscript).attempt.run le_rfl hw
    exact hout.bind fun hle hresult hw' => ih hle hw'.memory hresult (he.mono hle) hw' rfl rfl
  | callFunction name hargs _ ih =>
    have hout := (hr.callNamed he name hargs).attempt.run le_rfl hw
    exact hout.bind fun hle hresult hw' => ih hle hw'.memory hresult (he.mono hle) hw' rfl rfl
  | invokeCallback name hargs _ ih =>
    have hout := (hr.invokeNamed he name hargs).attempt.run le_rfl hw
    exact hout.bind fun hle hresult hw' => ih hle hw'.memory hresult (he.mono hle) hw' rfl rfl
  | inspectFrame name _ ih =>
    simp only [Evaluator.runHost, hmachine]
    exact ih (hw.frameNamed? he name) he hw hm hm'

/-! ### Expressions -/

lemma evaluateAll (hscope : scope.Mirrors ρ scope') {es es' : List Expr}
    (hes : Exprs.Mirrors ρ es es') :
    Action.WorldMirrors Γ Values.Mirrors ρ (r.evaluateAll scope es) (r.evaluateAll scope' es') := by
  induction hes with
  | nil => exact .pure fun _ => .nil
  | cons he hes ih =>
    refine Mirrors.bind (hr.evaluate hscope he) fun hle hv => ?_
    refine Mirrors.bind (ih.mono hle) fun hle' hvs => ?_
    exact .pure fun hle'' => .cons ((hv.mono hle').mono hle'') (hvs.mono hle'')

lemma evaluateProperties (hscope : scope.Mirrors ρ scope') {ps ps' : List (Name × Expr)}
    (hps : Properties.Mirrors ρ ps ps') {bag bag' : PropertyBag}
    (hbag : PropertyBag.Mirrors ρ bag bag') :
    Action.WorldMirrors Γ PropertyBag.Mirrors ρ (r.evaluateProperties scope bag ps)
      (r.evaluateProperties scope' bag' ps') := by
  induction ps generalizing ρ ps' bag bag' with
  | nil =>
    cases hps
    exact .pure fun hle => hbag.mono hle
  | cons p rest ih =>
    obtain _ | ⟨⟨hn, he⟩, hrest⟩ := hps
    refine Mirrors.bind (hr.evaluate hscope he) fun hle hv => ?_
    exact ih (hscope.mono hle) (Properties.Mirrors.mono hle hrest)
      ((hbag.mono hle).insert (hn.mono hle) hv)

/-- A function of a native object is called by its position. -/
lemma callApi (hscope : scope.Mirrors ρ scope') {o o' : NativeRef} (ho : o.Mirrors ρ o')
    (index : ℕ) {args args' : List Value} (hargs : Values.Mirrors ρ args args') :
    Action.WorldMirrors Γ Value.Mirrors ρ (r.callApi scope o index args)
      (r.callApi scope' o' index args') := by
  unfold Evaluator.callApi
  rw [hr.machine]
  refine Mirrors.bind (R := Host.ApiClass.Mirrors)
    ⟨fun hle hw => .done le_rfl (hw.apiClass (ho.mono hle)) hw⟩ fun hle hc => ?_
  refine ⟨fun hle' hw => ?_⟩
  have hargs := (hargs.mono hle).mono hle'
  exact hr.runHost ((hc.mono hle').call index hw.memory hargs) ((hscope.engine.mono hle).mono hle')
    hw rfl rfl

/-- A variable is read; a parameter needs its function first. -/
lemma get (hscope : scope.Mirrors ρ scope') {target target' : VarRef}
    (htarget : target.Mirrors ρ target') :
    Action.WorldMirrors Γ Value.Mirrors ρ (r.machine.get scope target)
      (r.machine.get scope' target') := by
  rw [hr.machine]
  have hread {target target' : VarRef} (htarget : target.Mirrors ρ target') :
      Action.WorldMirrors Γ Value.Mirrors ρ (Machine.shared.exec (.get scope target))
        (Machine.shared.exec (.get scope' target')) :=
    ⟨fun hle hw => hw.get (hscope.mono hle) (htarget.mono hle)⟩
  cases htarget with
  | parameter hf i hn =>
    refine Mirrors.bind ⟨fun hle hw => hw.requireFunction (hscope.mono hle)
      (.parameter (hf.mono hle) i (hn.mono hle)) (hf.mono hle)⟩ fun hle _ => ?_
    refine Mirrors.bind (R := fun ρ => Option.Rel (Value.Mirrors ρ))
      ⟨fun hle' hw => .done le_rfl (hw.argument? ((hf.mono hle).mono hle') i) hw⟩ fun hle' ho => ?_
    have hle := hle.trans hle'
    exact ⟨fun hle' hw => hw.deliver ((hscope.mono hle).mono hle') ((hn.mono hle).mono hle')
      (optionRel_imp ho fun _ _ hv => hv.mono hle')⟩
  | register i => exact hread (.register i)
  | global hn => exact hread (.global hn)
  | functionLocal hf hn => exact hread (.functionLocal hf hn)
  | callbackLocal hc hn => exact hread (.callbackLocal hc hn)
  | callbackParameter hc i hn => exact hread (.callbackParameter hc i hn)

/-- An object call is resolved, unless it was resolved before. -/
lemma resolve (hscope : scope.Mirrors ρ scope') {i i' : Id .callSite} (hi : i.Mirrors ρ i')
    {target target' : VarRef} (htarget : target.Mirrors ρ target') {n n' : Name}
    (hn : n.Mirrors ρ n') (count : ℕ) :
    Action.WorldMirrors Γ Resolution.Mirrors ρ (r.resolve scope i target n count)
      (r.resolve scope' i' target' n' count) := by
  have hget {ρ' : Renaming} (hle : ρ ≤ ρ') := hr.get (hscope.mono hle) (htarget.mono hle)
  unfold Evaluator.resolve
  rw [hr.machine] at hget ⊢
  refine Mirrors.bind (R := fun ρ => Option.Rel (Resolution.Mirrors ρ))
    ⟨fun hle hw => .done le_rfl (hw.resolution? (hi.mono hle)) hw⟩ fun hle ho => ?_
  cases ho with
  | some hresolution => exact .pure fun hle' => hresolution.mono hle'
  | none =>
    refine Mirrors.bind (hget hle) fun hle' hv => ?_
    have hle := hle.trans hle'
    refine Mirrors.bind ⟨fun hle' hw => hw.findMethod ((hscope.engine.mono hle).mono hle')
      ((htarget.mono hle).mono hle') (hv.mono hle') ((hn.mono hle).mono hle') count⟩
      fun hle' hresolution => ?_
    have hle := hle.trans hle'
    exact Mirrors.bind (R := Renaming.Anything) ⟨fun hle' hw => .done le_rfl trivial
      (hw.setResolution ((hi.mono hle).mono hle') (hresolution.mono hle'))⟩
      fun hle' _ => .pure fun hle'' => (hresolution.mono hle').mono hle''

/-- A value is stored, and given back. -/
lemma store (hscope : scope.Mirrors ρ scope') {target target' : VarRef}
    (htarget : target.Mirrors ρ target') {v v' : Value} (hv : v.Mirrors ρ v') :
    Action.WorldMirrors Γ Value.Mirrors ρ
      (do
        r.machine.exec (.set scope target v)
        return v)
      (do
        r.machine.exec (.set scope' target' v')
        return v') := by
  rw [hr.machine]
  exact Mirrors.bind
    ⟨fun hle hw => hw.set (hscope.mono hle) (htarget.mono hle) (hv.mono hle)⟩
    fun hle _ => .pure fun hle' => (hv.mono hle).mono hle'

/-- An operator is applied. -/
lemma compute (op : BinaryOp) {v v' u u' : Value} (hv : v.Mirrors ρ v') (hu : u.Mirrors ρ u') :
    Action.WorldMirrors Γ Value.Mirrors ρ (r.machine.exec (.compute op v u))
      (r.machine.exec (.compute op v' u')) := by
  rw [hr.machine]
  exact ⟨fun hle hw => .ofOption (hw.memory.compute? (hv.mono hle) (hu.mono hle) op) hw⟩

/-- Forms of expressions that mirror each other are evaluated in the same way. -/
theorem evaluateNode (hscope : scope.Mirrors ρ scope') {node node' : ExprNode}
    (hnode : node.Mirrors ρ node') :
    Action.WorldMirrors Γ Value.Mirrors ρ (r.evaluateNode scope node)
      (r.evaluateNode scope' node') := by
  cases hnode with
  | literal hv | apiConstant hv => exact .pure fun hle => hv.mono hle
  | var htarget => exact hr.get hscope htarget
  | assign htarget op he =>
    cases op with
    | none =>
      refine Mirrors.bind (hr.evaluate hscope he) fun hle hv => ?_
      exact hr.store (hscope.mono hle) (htarget.mono hle) hv
    | some op =>
      refine Mirrors.bind (hr.get hscope htarget) fun hle hcurrent => ?_
      refine Mirrors.bind ((hr.evaluate hscope he).mono hle) fun hle' hoperand => ?_
      have hle := hle.trans hle'
      refine Mirrors.bind (hr.compute op (hcurrent.mono hle') hoperand) fun hle' hv => ?_
      have hle := hle.trans hle'
      exact hr.store (hscope.mono hle) (htarget.mono hle) hv
  | binary op ha hb =>
    refine Mirrors.bind (hr.evaluate hscope ha) fun hle hleft => ?_
    refine Mirrors.bind ((hr.evaluate hscope hb).mono hle) fun hle' hright => ?_
    exact hr.compute op (hleft.mono hle') hright
  | logical op ha hb =>
    refine Mirrors.bind (hr.evaluate hscope ha) fun hle hv => ?_
    rw [hv.decides op]
    split
    · exact .pure fun hle' => hv.mono hle'
    · exact (hr.evaluate hscope hb).mono hle
  | unary op ha =>
    refine Mirrors.bind (hr.evaluate hscope ha) fun hle hv => ?_
    exact .pure fun hle' => (hv.mono hle').apply op
  | conditional ha hb hc =>
    refine Mirrors.bind (hr.evaluate hscope ha) fun hle hv => ?_
    rw [hv.isTruthy]
    split
    · exact (hr.evaluate hscope hb).mono hle
    · exact (hr.evaluate hscope hc).mono hle
  | array hes =>
    refine Mirrors.bind (hr.evaluateAll hscope hes) fun hle hvs => ?_
    rw [hr.machine]
    exact ⟨fun hle' hw => hw.runNewArray (hvs.mono hle')⟩
  | object hps =>
    refine Mirrors.bind (hr.evaluateProperties hscope hps .empty) fun hle hbag => ?_
    rw [hr.machine]
    exact ⟨fun hle' hw => hw.runNewObject (hbag.mono hle')⟩
  | member ha hn =>
    refine Mirrors.bind (hr.evaluate hscope ha) fun hle hv => ?_
    rw [hr.machine]
    exact ⟨fun hle' hw => .ofResult (hw.readMember ((hscope.engine.mono hle).mono hle')
      (hv.mono hle') ((hn.mono hle).mono hle')) hw⟩
  | index ha hb =>
    refine Mirrors.bind (hr.evaluate hscope ha) fun hle hv => ?_
    refine Mirrors.bind ((hr.evaluate hscope hb).mono hle) fun hle' hi => ?_
    have hle := hle.trans hle'
    rw [hr.machine]
    exact ⟨fun hle'' hw => hw.runReadIndex ((hscope.engine.mono hle).mono hle'')
      ((hv.mono hle').mono hle'') (hi.mono hle'')⟩
  | call hf site hes =>
    refine Mirrors.bind (hr.evaluateAll hscope hes) fun hle hvs => ?_
    exact hr.invokeFunction (hscope.mono hle) (hf.mono hle) site hvs
  | @apiCall _ _ _ _ _ es' ho hn slot hes =>
    simp only [Evaluator.evaluateNode]
    rw [hr.machine, hes.length_eq]
    refine Mirrors.bind ⟨fun hle hw => hw.checkApiCall (hscope.engine.mono hle) (ho.mono hle)
      (hn.mono hle) slot es'.length⟩ fun hle _ => ?_
    refine Mirrors.bind ((hr.evaluateAll hscope hes).mono hle) fun hle' hvs => ?_
    have hle := hle.trans hle'
    exact hr.callApi (hscope.mono hle) (ho.mono hle) slot.index hvs
  | objectCall hi htarget hn hes =>
    simp only [Evaluator.evaluateNode]
    rw [hes.length_eq]
    refine Mirrors.bind (hr.resolve hscope hi htarget hn _) fun hle hresolution => ?_
    refine Mirrors.bind ((hr.evaluateAll hscope hes).mono hle) fun hle' hvs => ?_
    have hslot := hresolution.slot
    rw [hslot]
    exact hr.callApi (hscope.mono (hle.trans hle')) (hresolution.object.mono hle') _ hvs
  | @snippetCall s _ _ hs hes =>
    simp only [Evaluator.evaluateNode]
    refine Mirrors.bind (R := fun _ => Eq) ⟨fun _ hw => .ofResult ?_ hw⟩ fun hle _ => ?_
    · cases s.callable with
      | ok _ => exact .ok rfl
      | error e => exact .error e
    refine Mirrors.bind ((hr.evaluateAll hscope hes).mono hle) fun hle' hvs => ?_
    have hle := hle.trans hle'
    rw [hvs.length_eq]
    refine Mirrors.bind (R := fun ρ code code' => code' = code ∧ code.IsUniform ρ.clock)
      ⟨fun hle' hw => .ofResult ?_ hw⟩ fun hle' hcode => ?_
    · cases hcode : s.codeFor _ with
      | error e => exact .error e
      | ok code =>
        have huniform := hs code (Snippet.state_of_codeFor hcode)
        exact .ok ⟨rfl, huniform.mono (hle.trans hle')⟩
    · rw [hcode.1, hr.machine]
      exact Mirrors.bind
        ⟨fun hle hw => hw.runCode (hcode.2.mono hle) ((hvs.mono hle').mono hle)⟩
        fun _ _ => .pure fun _ => .undefined

/-! ### Statements -/

omit hr in
/-- An action on the worlds of activations. -/
lemma within {α α' : Type} {R : Renaming → α → α' → Prop} {x : Action World α}
    {x' : Action World α'}
    (hx : Action.WorldMirrors Γ R ρ x x') :
    Action.BodyMirrors Γ R ρ (Activation.within x) (Activation.within x') := by
  refine ⟨fun {ρ₁ a a'} hle ha => ?_⟩
  obtain ⟨w, v⟩ := a
  obtain ⟨w', v'⟩ := a'
  have hout := hx.run hle ha.state
  unfold Activation.within
  dsimp only at hout ⊢
  generalize x w = out, x' w' = out' at hout
  cases hout with
  | done hle₂ hresult hw => exact .done hle₂ hresult ⟨hw, ha.returned.mono hle₂⟩
  | failed hle₂ e hw => exact .failed hle₂ e ⟨hw, ha.returned.mono hle₂⟩
  | unfinished w w' => exact .unfinished _ _

omit hr in
/-- The engine takes no notice of marks. -/
lemma note (mark mark' : Mark) (hmachine : r.machine = .shared) :
    Action.BodyMirrors Γ Renaming.Anything ρ (r.note mark) (r.note mark') := by
  unfold Evaluator.note
  rw [hmachine]
  exact within (.change fun _ hw => hw)

lemma valueOf (hscope : scope.Mirrors ρ scope') {e e' : Expr} (he : e.Mirrors ρ e') :
    Action.BodyMirrors Γ Value.Mirrors ρ (r.valueOf scope e) (r.valueOf scope' e') :=
  within (hr.evaluate hscope he)

lemma valueOrUndefined (hscope : scope.Mirrors ρ scope') {e e' : Option Expr}
    (he : OptionExpr.Mirrors ρ e e') :
    Action.BodyMirrors Γ Value.Mirrors ρ (r.valueOrUndefined scope e)
      (r.valueOrUndefined scope' e') := by
  cases he with
  | none => exact .pure fun _ => .undefined
  | some he => exact hr.valueOf hscope he

lemma holds (hscope : scope.Mirrors ρ scope') {e e' : Option Expr}
    (he : OptionExpr.Mirrors ρ e e') :
    Action.BodyMirrors Γ (fun _ => Eq) ρ (r.holds scope e) (r.holds scope' e') := by
  cases he with
  | none => exact .pure fun _ => rfl
  | some he =>
    exact Mirrors.bind (hr.valueOf hscope he) fun _ hv => .pure fun _ => hv.isTruthy.symm

lemma performAll (hscope : scope.Mirrors ρ scope') {ss ss' : List Stmt}
    (hss : Stmts.Mirrors ρ ss ss') :
    Action.BodyMirrors Γ (fun _ => Eq) ρ (r.performAll scope ss) (r.performAll scope' ss') := by
  induction hss with
  | nil => exact .pure fun _ => rfl
  | cons hs _ ih =>
    refine Mirrors.bind (hr.perform hscope hs) fun {_ signal signal'} hle hsignal => ?_
    subst hsignal
    cases signal with
    | normal => exact ih.mono hle
    | returning | breaking | continuing => exact .pure fun _ => rfl

lemma advance (hscope : scope.Mirrors ρ scope') {e e' : Option Expr}
    (he : OptionExpr.Mirrors ρ e e') :
    Action.BodyMirrors Γ Renaming.Anything ρ (r.advance scope e) (r.advance scope' e') := by
  cases he with
  | none => exact .pure fun _ => trivial
  | some he => exact Mirrors.bind (hr.valueOf hscope he) fun _ _ => .pure fun _ => trivial

/-- One round of a loop. -/
lemma round (hscope : scope.Mirrors ρ scope') {c c' d d' : Option Expr}
    (hc : OptionExpr.Mirrors ρ c c') (hd : OptionExpr.Mirrors ρ d d') {s s' : Stmt}
    (hs : s.Mirrors ρ s') :
    Action.BodyMirrors Γ (fun _ => Eq) ρ (r.round scope c d s) (r.round scope' c' d' s') := by
  refine Mirrors.bind (hr.holds hscope hc) fun {_ b b'} hle hb => ?_
  subst hb
  split
  · refine Mirrors.bind ((hr.perform hscope hs).mono hle) fun {_ signal signal'} hle' hsignal => ?_
    subst hsignal
    have hstep := (hr.advance hscope hd).mono (hle.trans hle')
    cases signal with
    | breaking | returning => exact .pure fun _ => rfl
    | normal | continuing => exact Mirrors.bind hstep fun _ _ => .pure fun _ => rfl
  · exact .pure fun _ => rfl

lemma initialise (hscope : scope.Mirrors ρ scope') {s s' : Option Stmt}
    (hs : OptionStmt.Mirrors ρ s s') :
    Action.BodyMirrors Γ Renaming.Anything ρ (r.initialise scope s) (r.initialise scope' s') := by
  cases hs with
  | none => exact .pure fun _ => trivial
  | some hs => exact Mirrors.bind (hr.perform hscope hs) fun _ _ => note _ _ hr.machine

/-- Forms of statements that mirror each other are performed in the same way. -/
theorem performNode (hscope : scope.Mirrors ρ scope') {node node' : StmtNode}
    (hnode : node.Mirrors ρ node') :
    Action.BodyMirrors Γ (fun _ => Eq) ρ (r.performNode scope node)
      (r.performNode scope' node') := by
  cases hnode with
  | expr he => exact Mirrors.bind (hr.valueOf hscope he) fun _ _ => .pure fun _ => rfl
  | declare htarget he =>
    refine Mirrors.bind (hr.valueOrUndefined hscope he) fun hle hv => ?_
    rw [hr.machine]
    refine Mirrors.bind (within ⟨fun hle' hw => hw.set ((hscope.mono hle).mono hle')
      ((htarget.mono hle).mono hle') (hv.mono hle')⟩) fun _ _ => .pure fun _ => rfl
  | block hss => exact hr.performAll hscope hss
  | branch he hs ht =>
    refine Mirrors.bind (hr.valueOf hscope he) fun hle hv => ?_
    rw [hv.isTruthy]
    split
    · exact (hr.perform hscope hs).mono hle
    · cases ht with
      | none => exact .pure fun _ => rfl
      | some ht => exact (hr.perform hscope ht).mono hle
  | whileLoop he hs => exact .repeatUpTo _ (hr.round hscope (.some he) .none hs)
  | forLoop ht hc hd hs =>
    refine Mirrors.bind (hr.initialise hscope ht) fun hle _ => ?_
    exact .repeatUpTo _ ((hr.round hscope hc hd hs).mono hle)
  | returnValue he =>
    refine Mirrors.bind (hr.valueOrUndefined hscope he) fun hle hv => ?_
    refine Mirrors.bind (.change fun hle' ha => ⟨ha.state, hv.mono hle'⟩) fun _ _ => ?_
    exact Mirrors.bind (note _ _ hr.machine) fun _ _ => .pure fun _ => rfl
  | breakLoop | continueLoop => exact .pure fun _ => rfl

end Evaluator.RespectsMirrors

/-! ### Whole trees -/

/-- The engine evaluates trees that mirror each other in the same way, under every bound. -/
theorem Evaluator.respectsMirrors_shared (bound : ℕ) :
    (Evaluator.shared bound).RespectsMirrors Γ := by
  induction bound with
  | zero => exact ⟨rfl, fun _ _ => .diverge, fun _ _ => .diverge⟩
  | succ bound ih =>
    refine ⟨rfl, fun hscope he => ?_, fun hscope hs => ?_⟩
    · obtain ⟨location, hnode⟩ := he
      exact (ih.evaluateNode hscope hnode).mapError _
    · obtain ⟨location, hnode⟩ := hs
      exact (ih.performNode hscope hnode).mapError _

end ScriptEngine
