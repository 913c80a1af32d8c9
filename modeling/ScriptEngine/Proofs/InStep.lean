import ScriptEngine.Proofs.Alike
import ScriptEngine.Proofs.LoopFree

/-!
# Evaluations side by side

From two worlds that are alike, the same tree is evaluated.  Each command finds the same in both worlds,
and changes both in the same way, so that they stay alike; host functions do so by what is asked of
them.  The two evaluations therefore end alike, and also go on alike for as long as they do not end.

Main statement: `World.Provides.runs`.
-/

namespace ScriptEngine

open Simulation

namespace World.InStep

variable {w₀ : World} {e : Id .engine} {D : Vocabulary} {w w' : World} (h : w₀.InStep e D w w')

include h

/-! ### Changes on both sides -/

/-- The memories are exchanged. -/
lemma withMemory {m m' : Memory} (hm : w₀.AlikeMemories e D m m') :
    w₀.InStep e D { w with memory := m } { w' with memory := m' } where
  provides := h.provides
  code := h.code
  shows := { h.shows with }
  alike := { h.alike with memory := hm }

/-- The engines are changed. -/
lemma modifyEngine {change : Engine → Engine} (hcode : ∀ x, (change x).code = x.code)
    (halike : ∀ {slots x x'}, Engine.Alike slots x x' → Engine.Alike slots (change x) (change x'))
    (hnames : ∀ x i, (change x).register.name? i = x.register.name? i)
    (hstores : ∀ x, x.Stores D.value → (change x).Stores D.value) :
    w₀.InStep e D (w.modifyEngine e change) (w'.modifyEngine e change) where
  provides := h.provides
  code := (w.code_modifyEngine e hcode).trans h.code
  shows := by
    have hengine := w.engine_modifyEngine e e change
    refine { h.shows with slots := fun i hi => ?_, engine := ?_ }
    · rcases hengine with hsame | ⟨-, hchange⟩
      · rw [hsame]
        exact h.shows.slots i hi
      · rw [hchange, hnames]
        exact h.shows.slots i hi
    · rcases hengine with hsame | ⟨-, hchange⟩
      · rw [hsame]
        exact h.shows.engine
      · rw [hchange]
        exact hstores _ h.shows.engine
  alike := by
    refine { h.alike with engine := ?_, engines := fun d hd => ?_ }
    · have hengine := h.alike.engine
      unfold World.modifyEngine
      dsimp only
      rw [Pool.get?_update_self, Pool.get?_update_self]
      generalize w.engines.get? e = x, w'.engines.get? e = x' at hengine
      cases hengine with
      | some hx => exact .some (halike hx)
      | none => exact .none
    · unfold World.modifyEngine
      dsimp only
      rw [Pool.get?_update_of_ne _ _ hd.symm, Pool.get?_update_of_ne _ _ hd.symm]
      exact h.alike.engines d hd

/-- A function that is referred to is changed. -/
lemma modifyFunction {f : Id .function} (hf : D.RefersTo f)
    {change : FunctionInstance → FunctionInstance} (hcode : ∀ x, (change x).code = x.code)
    (hunnumbered : ∀ x, (change x).unnumbered = change x.unnumbered)
    (hstores : ∀ x, x.Stores D.value → (change x).Stores D.value) :
    w₀.InStep e D (w.modifyFunction f change) (w'.modifyFunction f change) where
  provides := h.provides
  code := (w.code_modifyFunction f hcode).trans h.code
  shows := by
    refine { h.shows with function := fun {g x} hg hx => ?_ }
    rcases function?_modifyFunction_cases hx with ⟨-, original, horiginal, rfl⟩ | ⟨-, hx⟩
    · exact hstores original (h.shows.function hg horiginal)
    · exact h.shows.function hg hx
  alike := by
    refine { h.alike with functions := fun g hg => ?_ }
    have hmap : ∀ o : Option FunctionInstance,
        (o.map change).map (·.unnumbered) = (o.map (·.unnumbered)).map change := by
      intro o
      rw [Option.map_map, Option.map_map]
      exact Option.map_congr fun x _ => hunnumbered x
    rw [function?_modifyFunction, function?_modifyFunction]
    by_cases hfg : f = g
    · subst hfg
      rw [if_pos rfl, if_pos rfl, hmap, hmap, h.function? hf]
      exact Or.inl rfl
    · rw [if_neg hfg, if_neg hfg]
      exact h.alike.functions g hg

/-- A callback that is referred to is changed. -/
lemma modifyCallback {c : Id .callback} (hc : D.RefersToCallback c)
    {change : CallbackInstance → CallbackInstance} (hcode : ∀ x, (change x).code = x.code)
    (hstores : ∀ x, x.Stores D.value → (change x).Stores D.value) :
    w₀.InStep e D (w.modifyCallback c change) (w'.modifyCallback c change) where
  provides := h.provides
  code := (w.code_modifyCallback c hcode).trans h.code
  shows := by
    refine { h.shows with callback := fun {d x} hd hx => ?_ }
    rcases callback?_modifyCallback_cases hx with ⟨-, original, horiginal, rfl⟩ | ⟨-, hx⟩
    · exact hstores original (h.shows.callback hd horiginal)
    · exact h.shows.callback hd hx
  alike := by
    refine { h.alike with callbacks := fun d hd => ?_ }
    rw [callback?_modifyCallback, callback?_modifyCallback]
    by_cases hcd : c = d
    · subst hcd
      rw [if_pos rfl, if_pos rfl, h.callback? hc]
      exact Or.inl rfl
    · rw [if_neg hcd, if_neg hcd]
      exact h.alike.callbacks d hd

/-- The resolution of an object call is kept. -/
lemma setResolution {r : Resolution} (hr : D.hosts r.1) (site : Id .callSite) :
    w₀.InStep e D (w.setResolution site r) (w'.setResolution site r) where
  provides := h.provides
  code := h.code
  shows := by
    refine { h.shows with resolution := fun {site' target function r'} hsite hr' => ?_ }
    rcases resolution?_setResolution hr' with hold | ⟨-, rfl⟩
    · exact h.shows.resolution hsite hold
    · exact hr
  alike := by
    refine { h.alike with sites := fun site' hsite => ?_ }
    unfold World.setResolution Pool.set
    dsimp only
    rw [Pool.get?_update, Pool.get?_update, h.alike.sites site' hsite]

/-! ### Commands -/

/-- A variable is written on both sides, or on neither. -/
lemma set {scope : Scope} (he : scope.engine = e) {target : VarRef} (htarget : D.writes target)
    {v : Value} (hv : D.value v) :
    ∃ u, target.set scope v w' = (target.set scope v w).mapState (fun _ => u) ∧
      w₀.InStep e D (target.set scope v w).state u := by
  subst he
  have huses : D.Uses target := Or.inr htarget
  have hdeclares := h.provides.grounds.uses huses
  have hdangling := h.danglingError huses
  cases target with
  | register i =>
    refine ⟨w'.setRegister scope.engine i v, rfl, ?_⟩
    refine h.modifyEngine (fun _ => rfl) (fun hx => ⟨?_, fun j hj => ?_⟩) (fun x j => ?_)
      fun _ hx => hx.setRegister hv i
    · exact hx.rest
    · simp only [Register.set, Array.getElem?_modify, hx.slots j hj]
    · simp only [Register.name?, Register.set, Array.getElem?_modify]
      split <;> cases x.register.slots[j]? <;> rfl
  | global n =>
    refine ⟨w'.setGlobal scope.engine n v, rfl, ?_⟩
    refine h.modifyEngine (fun _ => rfl) (fun {_ x x'} hx => ⟨?_, hx.slots⟩) (fun _ _ => rfl)
      fun _ hx => hx.setGlobal hv n
    have hrest := congrArg (fun y : Engine => { y with globals := y.globals.insert n v }) hx.rest
    exact hrest
  | functionLocal f n =>
    have hf : D.RefersTo f := Or.inr ⟨_, huses, rfl⟩
    simp only [VarRef.set, Action.bind_apply, Action.state]
    rcases h.function_cases hf with ⟨hx, hx'⟩ | ⟨x, x', hx, hx', -⟩
    · rw [hx, hx', hdangling]
      exact ⟨w', rfl, h⟩
    · rw [hx, hx']
      refine ⟨w'.setLocal f n v, rfl, ?_⟩
      exact h.modifyFunction hf (fun _ => rfl) (fun _ => rfl) fun _ hx => hx.setLocal hv n
  | callbackLocal c n =>
    have hc : D.RefersToCallback c := ⟨_, huses, rfl⟩
    simp only [VarRef.set, Action.bind_apply, Action.state]
    rw [h.callback? hc, hdangling]
    cases w.callback? c with
    | none => exact ⟨w', rfl, h⟩
    | some x =>
      refine ⟨w'.setCallbackLocal c n v, rfl, ?_⟩
      exact h.modifyCallback hc (fun _ => rfl) fun _ hx => hx.setLocal hv n
  | parameter f i n | callbackParameter c i n =>
    refine ⟨w', ?_, h⟩
    simp only [VarRef.set, Action.bind_apply, Action.state]
    rw [h.lookup hdeclares.2]
    rfl

/-- A command of the vocabulary ends alike in both worlds, and leaves them in step. -/
theorem exec {α : Type} {k : Command α} (hk : D.Allows k) :
    ∃ u, k.run w' = (k.run w).mapState (fun _ => u) ∧ w₀.InStep e D (k.run w).state u := by
  by_cases hquery : k.IsQuery
  · refine ⟨w', h.query hk hquery, ?_⟩
    rw [Command.readsOnly_of_isQuery hquery w]
    exact h
  cases k with
  | set scope target v => exact h.set (h.provides.grounds.engine.1 hk.1) hk.2.1 hk.2.2
  | keepResult f v =>
    refine ⟨w'.setLastResult f v, rfl, ?_⟩
    exact h.modifyFunction (.inl hk.1) (fun _ => rfl) (fun _ => rfl)
      fun x hx => ⟨hx.locals, hx.arguments⟩
  | keepResolution site r => exact ⟨w'.setResolution site r, rfl, h.setResolution hk.2 site⟩
  | newArray items =>
    have hvalue : (w'.memory.newArray items.toArray).1 = (w.memory.newArray items.toArray).1 := by
      unfold Memory.newArray
      rw [h.alike.memory.arrays]
    refine ⟨_, congrArg (Outcome.done · _) hvalue, h.withMemory (h.alike.memory.newArray hk)⟩
  | newObject properties =>
    have hvalue : (w'.memory.newObject properties).1 = (w.memory.newObject properties).1 :=
      congrArg (fun i => Value.object ⟨i⟩) h.alike.memory.objectCount
    refine ⟨_, congrArg (Outcome.done · _) hvalue, h.withMemory ?_⟩
    exact h.alike.memory.newObject hk h.provides.grounds.names
  | runCode code slots =>
    exact ⟨_, rfl, h.withMemory (h.provides.hosts.code hk.1 hk.2 h.alike.memory)⟩
  | report d error | modifyMemory change | allocate make => exact hk.elim
  | _ => exact absurd trivial hquery

/-- An invocation of a function begins. -/
lemma enter {a : Activity} (ha : D.Begins a) : w₀.InStep e D (a.enter w) (a.enter w') := by
  cases a with
  | script => exact h
  | function f site args =>
    exact h.modifyFunction (.inl ha.1) (fun _ => rfl) (fun _ => rfl) fun _ hx => hx.enter site ha.2
  | callback c args => exact absurd ha.1 h.provides.grounds.byName

/-- An invocation of a function ends. -/
lemma leave {a : Activity} (ha : D.Begins a) : w₀.InStep e D (a.leave w) (a.leave w') := by
  cases a with
  | script => exact h
  | function f site args =>
    exact h.modifyFunction (.inl ha.1) (fun _ => rfl) (fun _ => rfl)
      fun _ hx => hx.leave (D.value_of_isPlain trivial)
  | callback c args => exact absurd ha.1 h.provides.grounds.byName

end World.InStep

/-! ### Evaluations -/

namespace World

variable {w₀ : World} {e : Id .engine} {D : Vocabulary}

/-- Evaluations side by side, from a world and from a later one. -/
def inStep (w₀ : World) (e : Id .engine) (D : Vocabulary) : Simulation World World where
  rel _ w w' := w₀.InStep e D w w'
  lost _ := False
  cut _ := True
  abreast := True
  cut_of_lost _ := trivial
  cut_of_rel _ := trivial

/-- Actions match if they end alike in worlds that are in step. -/
lemma inStep_matches {α : Type} {Q : α → Prop} {x y : Action World α}
    (h : ∀ w w', w₀.InStep e D w w' → (∀ a ∈ (x w).value?, Q a) ∧
      ∃ u, y w' = (x w).mapState (fun _ => u) ∧ w₀.InStep e D (x w).state u) :
    (w₀.inStep e D).Matches [] Q x y := by
  intro w w' hww'
  cases w' with
  | none => exact hww'.elim
  | some w' =>
    obtain ⟨hQ, u, hy, hu⟩ := h w w' hww'
    rw [Option.map_some, hy]
    cases hx : x w with
    | done a v =>
      rw [hx] at hQ hu
      exact ⟨hQ a rfl, Or.inr ⟨u, rfl, hu⟩⟩
    | failed err v =>
      rw [hx] at hu
      exact Or.inr ⟨u, rfl, hu⟩
    | @diverged v =>
      rw [hx] at hu
      exact ⟨trivial, fun _ => Or.inr ⟨[], u, rfl, hu⟩⟩

/-- Actions that match end alike in worlds that are in step. -/
lemma mapState_of_inStep_matches {α : Type} {Q : α → Prop} {x y : Action World α}
    (h : (w₀.inStep e D).Matches [] Q x y) {w w' : World} (hww' : w₀.InStep e D w w') :
    ∃ u, y w' = (x w).mapState (fun _ => u) ∧ w₀.InStep e D (x w).state u := by
  have hxy : (w₀.inStep e D).Agrees [] Q (x w) (some (y w')) := h w (some w') hww'
  cases hx : x w with
  | done a v =>
    rw [hx] at hxy
    obtain ⟨-, hlost | ⟨u, hy, hu⟩⟩ := hxy
    · exact hlost.elim
    · exact ⟨u, Option.some.inj hy, hu⟩
  | failed err v =>
    rw [hx] at hxy
    obtain hlost | ⟨u, hy, hu⟩ := hxy
    · exact hlost.elim
    · exact ⟨u, Option.some.inj hy, hu⟩
  | @diverged v =>
    rw [hx] at hxy
    obtain hlost | ⟨_, u, hy, hu⟩ := hxy.2 trivial
    · exact hlost.elim
    · exact ⟨u, Option.some.inj hy, hu⟩

/-- A host function that asks for a text gets it, if there is one. -/
lemma runHost_display (bound : ℕ) (e : Id .engine) (v : Value) (next : String → Host.Program)
    (w : World) :
    (Evaluator.shared bound).runHost e (.display v next) w =
      match w.memory.display? v with
      | some text => (Evaluator.shared bound).runHost e (next text) w
      | none => .unfinished w := by
  have hexec : (Evaluator.shared bound).machine.exec (.display v) w =
      Action.ofOption (w.memory.display? v) w := rfl
  change ((Evaluator.shared bound).machine.exec (.display v) >>= fun text =>
    (Evaluator.shared bound).runHost e (next text)) w = _
  rw [Action.bind_apply, hexec]
  cases w.memory.display? v <;> rfl

/-- A report is made in both worlds. -/
lemma inStep_report (d : Id .engine) (hd : d = e) (err : EvalError) :
    (w₀.inStep e D).Matches [] Anything (Command.report d err).run (Command.report d err).run := by
  subst hd
  refine inStep_matches fun w w' hww' => ⟨fun _ _ => trivial, w'.report d err, rfl, ?_⟩
  refine hww'.modifyEngine (fun _ => rfl) (fun {_ x x'} hx => ⟨?_, hx.slots⟩) (fun _ _ => rfl)
    fun _ hx => ⟨hx.register, hx.globals⟩
  have hrest := congrArg (fun y : Engine => { y with reporter := y.reporter.report err }) hx.rest
  exact hrest

/-- The single steps of the engine are the same in worlds that are in step. -/
lemma Provides.steps (h : w₀.Provides e D) :
    ((w₀.inStep e D).pairing []).Steps D Machine.shared Machine.shared where
  closed := h.grounds.closed
  exec k hk := inStep_matches fun w w' hww' =>
    ⟨fun _ ha => hww'.yields hk ha, hww'.exec hk⟩
  argument {f i n} htarget := by
    have hf : D.RefersTo f := Or.inr ⟨_, Or.inl htarget, rfl⟩
    refine inStep_matches fun w w' hww' => ⟨fun argument hargument v hv => ?_, w',
      hww'.argument? hf i, hww'⟩
    obtain rfl := Option.some.inj hargument
    obtain ⟨x, hx, hv⟩ := Option.bind_eq_some_iff.1 hv
    exact (hww'.shows.function hf hx).argument? (D.value_of_isPlain trivial) hv
  note mark := inStep_matches fun w w' hww' => ⟨fun _ _ => trivial, w', rfl, hww'⟩
  during ha x y hxy := by
    refine Matches.during (fun w w' hww' => ?_) (fun w w' hww' => ?_) hxy
    · cases w' with
      | none => exact hww'.elim
      | some w' => exact InStep.enter hww' ha
    · cases w' with
      | none => exact hww'.elim
      | some w' => exact InStep.leave hww' ha
  locate l _ _ _ _ hxy := hxy.mapError _

/-- Programs that act alike end alike, if bodies do.  What they make of the memories in between is
their own business. -/
lemma Provides.inStep_runHost (h : w₀.Provides e D) {bound : ℕ}
    (hperform : ((w₀.inStep e D).pairing []).Performs D .shared .shared bound)
    {program program' : Host.Program} {m m' : Memory}
    (hprogram : program.ActsAlike (fun s => D.tree (.stmt s)) (w₀.AlikeMemories e D) D.value m
      program' m')
    {w w' : World} (hww' : w₀.InStep e D w w') :
    (w₀.inStep e D).Agrees [] D.value
      ((Evaluator.shared bound).runHost e program { w with memory := m })
      (some ((Evaluator.shared bound).runHost e program' { w' with memory := m' })) := by
  have henters : Evaluator.EntersBy ((w₀.inStep e D).pairing []) D (.shared bound) (.shared bound) :=
    h.steps.entersBy hperform
      (fun hd hxy => Evaluator.reported_matches (inStep_report _ (h.grounds.engine.1 hd)) hxy)
      fun _ _ _ hxy => hxy.mapError _
  induction hprogram generalizing w w' with
  | @finish result m m' hm hresult =>
    have hends := hww'.withMemory hm
    cases result with
    | ok v => exact ⟨hresult v rfl, Or.inr ⟨_, rfl, hends⟩⟩
    | error err => exact Or.inr ⟨_, rfl, hends⟩
  | read _ ih => exact @ih w w' hww'
  | write _ ih => exact @ih w w' hww'
  | @allocate make make' next next' m m' hsame _ ih =>
    change (w₀.inStep e D).Agrees [] D.value
      ((Evaluator.shared bound).runHost e (next (make m).1) { w with memory := (make m).2 })
      (some ((Evaluator.shared bound).runHost e (next' (make' m').1)
        { w' with memory := (make' m').2 }))
    rw [hsame]
    exact @ih w w' hww'
  | @display v next next' m m' hm _ ih =>
    rw [runHost_display, runHost_display, hm.display?]
    cases htext : m.display? v with
    | none => exact ⟨trivial, fun _ => Or.inr ⟨[], _, rfl, hww'.withMemory hm⟩⟩
    | some text => exact @ih text htext w w' hww'
  | @execute script next next' m m' hscript hm _ ih =>
    have hentry : D.Enters (.execute script) := hscript
    have henter := henters.enter (h.grounds.engine.2 rfl) hentry
    refine henter.attempt_result.bind (fun result hresult u u' huu' => ?_) _ (some _) (hww'.withMemory hm)
    cases u' with
    | none => exact huu'.elim
    | some u' => exact ih result hresult _ _ (InStep.alike huu').memory huu'

/-- Evaluations of trees of the vocabulary go on side by side. -/
theorem Provides.runs (h : w₀.Provides e D) :
    ((w₀.inStep e D).pairing []).Runs D Machine.shared Machine.shared where
  toSteps := h.steps
  host bound hperform scope object args index hscope hobject hargs := by
    obtain rfl := h.grounds.engine.1 hscope
    have hclass : (w₀.inStep scope.engine D).Matches [] (fun c => c = w₀.apiClass object)
        (Command.apiClass object).run (Command.apiClass object).run := by
      refine inStep_matches fun w w' hww' => ⟨fun c hc => ?_, w', ?_, hww'⟩
      · obtain rfl := Option.some.inj hc
        exact apiClass_eq_of_code_eq hww'.code object
      · exact congrArg (Outcome.done · w') (hww'.apiClass hobject)
    refine hclass.bind fun c hc => ?_
    rw [hc]
    intro w w' hww'
    cases w' with
    | none => exact hww'.elim
    | some w' =>
      have hprogram := h.hosts.api index hobject args hargs w.memory w'.memory
        (InStep.alike hww').memory
      exact h.inStep_runHost hperform hprogram hww'

end World

end ScriptEngine
