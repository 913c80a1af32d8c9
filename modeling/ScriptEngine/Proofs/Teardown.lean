import ScriptEngine.Proofs.Alike
import ScriptEngine.Proofs.Release
import ScriptEngine.Proofs.Runs

/-!
# What is left of an engine that was dropped

An engine that is dropped takes the bodies of all that is in its tables with it, so that calls
between functions of the table keep nothing alive, whatever cycles they form.  A function that was
replaced by another one of its name is in no table, and keeps its body.  If calls lead from it back
to itself through functions that were replaced as well, these hold each other for ever, together
with all that they call.

Main statement: `teardown_leaves_replaced_cycles`.
-/

namespace ScriptEngine

open Relation

/-! ### References into functions and callbacks -/

namespace VarRef

variable {target : VarRef} {w : World}

/-- Every read of the variable fails, whatever engine reads it, since its function or callback is
gone. -/
def Dangles (target : VarRef) (w : World) : Prop :=
  ∀ scope, target.get scope w = .failed (target.danglingError w scope.engine) w

lemma dangles_of_callback {c : Id .callback} (hc : target.callback? = some c)
    (hgone : w.callback? c = none) : target.Dangles w := by
  intro scope
  cases target with
  | callbackLocal d n | callbackParameter d i n =>
    obtain rfl := Option.some.inj hc
    simp only [get, Action.bind_apply, Action.state, hgone]
    rfl
  | _ => cases hc

lemma dangles_of_function {f : Id .function} (hf : target.function? = some f)
    (hgone : w.function? f = none) : target.Dangles w := by
  intro scope
  cases target with
  | functionLocal g n | parameter g i n =>
    obtain rfl := Option.some.inj hf
    simp only [get, functionOf, Action.bind_apply, Action.state, hgone]
    rfl
  | _ => cases hf

/-- A reference into a function dangles exactly if the function is gone. -/
lemma dangles_iff {f : Id .function} (hf : target.function? = some f) :
    target.Dangles w ↔ w.function? f = none := by
  refine ⟨fun hdangles => ?_, dangles_of_function hf⟩
  have hget := hdangles (.top ⟨0⟩)
  by_contra hthere
  obtain ⟨x, hx⟩ := Option.ne_none_iff_exists'.1 hthere
  cases target with
  | functionLocal g n =>
    obtain rfl := Option.some.inj hf
    simp only [get, Action.bind_apply, Action.state, hx] at hget
    cases hget
  | parameter g i n =>
    obtain rfl := Option.some.inj hf
    simp only [get, functionOf, Action.bind_apply, Action.state, hx] at hget
    change deliver _ n (x.frame.argument? i) w = _ at hget
    cases hargument : x.frame.argument? i <;> rw [hargument] at hget <;> cases hget
  | _ => cases hf

end VarRef

/-! ### Dropped engines -/

namespace World

variable {w w' : World} {e : Id .engine} {f g : Id .function}

lemma function?_foldl_modifyFunction {change : FunctionInstance → FunctionInstance}
    (hchange : ∀ x, change (change x) = change x) (fs : List (Id .function)) (w : World)
    (f : Id .function) :
    (fs.foldl (fun w f => w.modifyFunction f change) w).function? f =
      if f ∈ fs then (w.function? f).map change else w.function? f := by
  induction fs generalizing w with
  | nil => simp
  | cons g rest ih =>
    rw [List.foldl_cons, ih, function?_modifyFunction]
    by_cases hg : g = f
    · subst hg
      have hcomp : change ∘ change = change := funext hchange
      by_cases hrest : g ∈ rest <;> simp [hrest, hcomp]
    · by_cases hrest : f ∈ rest <;> simp [hrest, hg, Ne.symm hg]

lemma engines_foldl_modifyFunction (change : FunctionInstance → FunctionInstance)
    (fs : List (Id .function)) (w : World) :
    (fs.foldl (fun w f => w.modifyFunction f change) w).engines = w.engines := by
  induction fs generalizing w with
  | nil => rfl
  | cons f rest ih => exact ih _

lemma functions_foldl_modifyCallback (change : CallbackInstance → CallbackInstance)
    (cs : List (Id .callback)) (w : World) :
    (cs.foldl (fun w c => w.modifyCallback c change) w).functions = w.functions ∧
      (cs.foldl (fun w c => w.modifyCallback c change) w).engines = w.engines := by
  induction cs generalizing w with
  | nil => exact ⟨rfl, rfl⟩
  | cons c rest ih => exact ih _

lemma engines_dropEngine (w : World) (e : Id .engine) :
    (w.dropEngine e).engines = w.engines.release e := by
  refine congrArg (Pool.release · e) ?_
  exact (functions_foldl_modifyCallback _ _ _).2.trans (engines_foldl_modifyFunction _ _ w)

/-- The functions in the table of the engine lose their bodies. -/
lemma function?_dropEngine (w : World) (e : Id .engine) (f : Id .function) :
    (w.dropEngine e).function? f =
      if f ∈ (w.engine e).functions.values
      then (w.function? f).map fun function => { function with body := none }
      else w.function? f := by
  let unbody (function : FunctionInstance) : FunctionInstance := { function with body := none }
  have hunbody : ∀ x, unbody (unbody x) = unbody x := fun _ => rfl
  refine Eq.trans ?_ (function?_foldl_modifyFunction hunbody _ w f)
  exact congrArg (·.get? f) (functions_foldl_modifyCallback _ _ _).1

/-- The first function, which is not in the table of the engine, calls the second one. -/
def CallsUnlisted (w : World) (e : Id .engine) (g f : Id .function) : Prop :=
  g ∉ (w.engine e).functions.values ∧ w.Calls g f

/-- The function is there, and calls lead to it from one that calls lead back to, all of them from
functions that are not in the table of the engine. -/
def LeftOver (w : World) (e : Id .engine) (f : Id .function) : Prop :=
  (w.function? f).isSome ∧
    ∃ g, TransGen (w.CallsUnlisted e) g g ∧ ReflTransGen (w.CallsUnlisted e) g f

/-- Nothing is left over of an engine that has all functions with bodies in its table. -/
lemma not_leftOver (hlisted : ∀ g x, w.function? g = some x → x.body.isSome →
    g ∈ (w.engine e).functions.values) : ¬w.LeftOver e f := by
  rintro ⟨-, g, hcycle, -⟩
  obtain ⟨k, ⟨hunlisted, x, body, hx, hbody, -⟩, -⟩ := TransGen.head'_iff.1 hcycle
  exact hunlisted (hlisted g x hx (hbody ▸ rfl))

lemma calls_dropEngine (w : World) (e : Id .engine) :
    (w.dropEngine e).Calls = w.CallsUnlisted e := by
  funext g f
  refine propext ?_
  by_cases hlisted : g ∈ (w.engine e).functions.values
  · refine iff_of_false ?_ fun hcalls => hcalls.1 hlisted
    rintro ⟨x, body, hx, hbody, -⟩
    rw [function?_dropEngine, if_pos hlisted] at hx
    obtain ⟨y, -, rfl⟩ := Option.map_eq_some_iff.1 hx
    exact nomatch hbody
  · rw [CallsUnlisted, Calls, Calls, function?_dropEngine, if_neg hlisted]
    exact (and_iff_right hlisted).symm

lemma reachedFrom_onCycle_dropEngine :
    (w.dropEngine e).ReachedFrom (w.dropEngine e).OnCycle f ↔ w.LeftOver e f := by
  have hsome : ((w.dropEngine e).function? f).isSome ↔ (w.function? f).isSome := by
    rw [function?_dropEngine]
    split
    · rw [Option.isSome_map]
    · rfl
  unfold ReachedFrom OnCycle LeftOver
  rw [calls_dropEngine, hsome]

end World

/-! ### Engines without definitions -/

/-- There is nothing in the tables of functions and callbacks. -/
def Engine.Undefining (x : Engine) : Prop :=
  x.functions.values = [] ∧ x.callbacks.values = []

/-- Only operations on the engine define anything. -/
def Arrangement.DefinesOn (e : Id .engine) : Arrangement → Prop
  | bind d _ => d = e
  | _ => True

namespace World

variable {w w' : World} {e : Id .engine}

/-- Only the engine has anything in its tables of functions and callbacks. -/
def DefinesOn (w : World) (e : Id .engine) : Prop :=
  ∀ d ≠ e, ∀ x, w.engines.get? d = some x → x.Undefining

namespace DefinesOn

lemma of_engines (h : w.DefinesOn e)
    (hengines : ∀ d ≠ e, w'.engines.get? d = w.engines.get? d) : w'.DefinesOn e := by
  intro d hd x hx
  exact h d hd x (hengines d hd ▸ hx)

/-- Another engine is changed elsewhere than in these tables. -/
lemma modifyEngine (h : w.DefinesOn e) (d : Id .engine) {change : Engine → Engine}
    (hchange : ∀ x, x.Undefining → (change x).Undefining) :
    (w.modifyEngine d change).DefinesOn e := by
  intro d' hd' x' hx'
  rcases Pool.get?_update_cases hx' with ⟨-, x, hx, rfl⟩ | ⟨-, hx⟩
  · exact hchange x (h d' hd' x hx)
  · exact h d' hd' x' hx

/-- A new engine has nothing in its tables. -/
lemma newEngine (h : w.DefinesOn e) (config : EngineConfig) (shared : Option (Id .interner)) :
    (w.newEngine config shared).2.DefinesOn e := by
  have hadd : ∀ (x : Engine) (memory : Memory), x.Undefining →
      World.DefinesOn { w with memory, engines := (w.engines.add x).2 } e := by
    intro x memory hundefining d hd y hy
    rcases Pool.get?_add_cases hy with hold | ⟨-, rfl⟩
    · exact h d hd y hold
    · exact hundefining
  have hclass : ∀ (w : World) (d : Id .engine) (c : Host.ApiClass), w.DefinesOn e →
      (w.registerApiClass d c).2.DefinesOn e := by
    intro w d c hw
    have hnative : ((w.intern d c.name).2.addNative c).2.DefinesOn e := hw
    exact hnative.modifyEngine d fun _ => id
  have hmemory : ∀ (w : World) (memory : Memory), w.DefinesOn e →
      World.DefinesOn { w with memory } e := fun _ _ => id
  exact hclass _ _ _ (hmemory _ _ (hclass _ _ _ (hadd _ _ ⟨rfl, rfl⟩)))

end DefinesOn

/-- An operation on an engine leaves the other engines as they are. -/
lemma engines_bind (w : World) (e : Id .engine) (b : Binding) {d : Id .engine} (hd : d ≠ e) :
    (b.run e w).engines.get? d = w.engines.get? d := by
  have hmodify : ∀ (w : World) (change : Engine → Engine),
      (w.modifyEngine e change).engines.get? d = w.engines.get? d :=
    fun w change => Pool.get?_update_of_ne w.engines change hd.symm
  cases b with
  | declareRegister | registerApiClass | declareSnippet => exact hmodify _ _
  | defineFunction name parameters | defineCallback name parameters =>
    refine (hmodify _ _).trans ?_
    rw [internAll_eq]
  | bindCall f args l =>
    rcases Binding.run_bindCall e w args l f with hrun | hrun
    · rw [hrun]
    · rw [hrun]
      rfl
  | bindApiCall className function args l =>
    rcases Binding.run_bindApiCall e w args l className function with hrun | hrun
    · rw [hrun]
    · rw [hrun]
      rfl
  | bindConstant className constant l =>
    rcases Binding.run_bindConstant e w l className constant with hrun | hrun
    · rw [hrun]
    · rw [hrun]
      rfl
  | bindObjectCall target function args l =>
    rcases Binding.run_bindObjectCall e w args l target function with hrun | hrun
    · rw [hrun]
    · rw [hrun]
      rfl
  | bindSnippetCall snippet args l => rw [Binding.run_bindSnippetCall]
  | intern | attachBody | attachCallbackBody | releaseFunction | releaseCallback => rfl

/-- An arrangement that defines nothing on other engines. -/
lemma DefinesOn.run (h : w.DefinesOn e) {a : Arrangement} (ha : a.DefinesOn e) :
    (a.run w).DefinesOn e := by
  cases a with
  | bind d b =>
    obtain rfl : d = e := ha
    exact h.of_engines fun d' hd' => engines_bind w d b hd'
  | newEngine config shared => exact h.newEngine config shared
  | dropEngine d =>
    intro d' hd' x hx
    rw [Arrangement.run, engines_dropEngine] at hx
    exact h d' hd' x (Pool.get?_release_eq_some hx).2
  | settle held =>
    have hengines : (w.settle held).engines = w.engines := (w.loses_settle held).engines
    exact h.of_engines fun d _ => congrArg (·.get? d) hengines
  | drainReports d => exact h.modifyEngine d fun _ => id
  | addNative | comment | changeMemory => exact h

/-! ### Releases without engines -/

/-- No engine has anything in its tables of functions and callbacks. -/
def Undefining (w : World) : Prop :=
  ∀ d x, w.engines.get? d = some x → x.Undefining

lemma DefinesOn.dropEngine (h : w.DefinesOn e) : (w.dropEngine e).Undefining := by
  intro d x hx
  rw [engines_dropEngine] at hx
  obtain ⟨hd, hx⟩ := Pool.get?_release_eq_some hx
  exact h d hd.symm x hx

namespace Undefining

variable (h : w.Undefining)

include h

lemma settle (held : Holdings) : (w.settle held).Undefining := by
  intro d x hx
  rw [(w.loses_settle held).engines] at hx
  exact h d x hx

lemma of_liveEngines {x : Engine} (hx : x ∈ w.liveEngines) : x.Undefining := by
  obtain ⟨d, -, hd⟩ := List.mem_filterMap.1 hx
  exact h d x hd

/-- What the host does not hold is not held by engines. -/
lemma heldCallbacks : w.heldCallbacks ⟨[], [], []⟩ = [] := by
  rw [World.heldCallbacks, List.nil_append, List.flatMap_eq_nil_iff]
  exact fun x hx => (h.of_liveEngines hx).2

lemma callback?_settle (c : Id .callback) : (w.settle ⟨[], [], []⟩).callback? c = none := by
  rw [World.callback?_settle, h.heldCallbacks, if_neg List.not_mem_nil]

/-- Once the callbacks are gone there are no roots. -/
lemma not_roots (f : Id .function) : ¬(w.releaseCallbacks ⟨[], [], []⟩).Roots ⟨[], [], []⟩ f := by
  rintro (hf | ⟨x, hx, hf⟩ | ⟨s, hs, -⟩)
  · exact List.not_mem_nil hf
  · rw [(h.of_liveEngines hx).1] at hf
    exact List.not_mem_nil hf
  · obtain ⟨x, hx, -⟩ := List.mem_filterMap.1 hs
    obtain ⟨c, -, hc⟩ := List.mem_filterMap.1 hx
    have hgone := w.callback?_releaseCallbacks ⟨[], [], []⟩ c
    rw [h.heldCallbacks, if_neg List.not_mem_nil] at hgone
    exact nomatch hgone.symm.trans hc

/-- What is left then is what is reached from cycles. -/
lemma isSome_function?_settle (f : Id .function) :
    ((w.settle ⟨[], [], []⟩).function? f).isSome ↔ w.ReachedFrom w.OnCycle f := by
  rw [World.isSome_function?_settle, Sustained]
  have hcycles : (fun g => (w.releaseCallbacks ⟨[], [], []⟩).Roots ⟨[], [], []⟩ g ∨
      (w.releaseCallbacks ⟨[], [], []⟩).OnCycle g) = w.OnCycle :=
    funext fun g => propext (or_iff_right (h.not_roots g))
  rw [hcycles]
  rfl

end Undefining

/-! ### Teardown -/

/-- The world after operations, in their order. -/
def arrangeAll (w : World) (arrangements : List Arrangement) : World :=
  arrangements.foldl (fun w a => a.run w) w

/-- The world after the engine is dropped, and after the host has let go of what it held, step by
step, until it holds nothing. -/
def afterTeardown (w : World) (e : Id .engine) (held : List Holdings) : World :=
  (held.foldl settle (w.dropEngine e)).settle ⟨[], [], []⟩

lemma DefinesOn.arrangeAll (hw : w.DefinesOn e) {arrangements : List Arrangement}
    (h : ∀ a ∈ arrangements, a.DefinesOn e) : (w.arrangeAll arrangements).DefinesOn e := by
  induction arrangements generalizing w with
  | nil => exact hw
  | cons a rest ih =>
    obtain ⟨ha, hrest⟩ := List.forall_mem_cons.1 h
    exact ih (hw.run ha) hrest

/-- Whatever the host lets go of, the same functions are reached from cycles. -/
lemma Undefining.foldl_settle (hw : w.Undefining) (held : List Holdings) :
    (held.foldl World.settle w).Undefining ∧ ∀ f,
      (held.foldl World.settle w).ReachedFrom (held.foldl World.settle w).OnCycle f ↔
        w.ReachedFrom w.OnCycle f := by
  induction held generalizing w with
  | nil => exact ⟨hw, fun _ => Iff.rfl⟩
  | cons h rest ih =>
    obtain ⟨hundefining, hreached⟩ := ih (hw.settle h)
    exact ⟨hundefining, fun f => (hreached f).trans reachedFrom_onCycle_settle⟩

namespace DefinesOn

variable (h : w.DefinesOn e) (held : List Holdings)

include h

/-- No callback is left. -/
lemma callback?_afterTeardown (c : Id .callback) :
    (w.afterTeardown e held).callback? c = none :=
  (h.dropEngine.foldl_settle held).1.callback?_settle c

/-- Of the functions, those are left that calls lead to from a cycle. -/
lemma isSome_function?_afterTeardown (f : Id .function) :
    ((w.afterTeardown e held).function? f).isSome ↔ w.LeftOver e f := by
  obtain ⟨hundefining, hreached⟩ := h.dropEngine.foldl_settle held
  exact (hundefining.isSome_function?_settle f).trans
    ((hreached f).trans reachedFrom_onCycle_dropEngine)

end DefinesOn

lemma definesOn_empty (e : Id .engine) : empty.DefinesOn e := fun _ _ _ hx => nomatch hx

end World

/-- After any operations that define functions and callbacks on one engine only, among them calls
that are bound, bodies that are attached and handles that are released, the engine is dropped, and
the host lets go of everything.  Then all references into callbacks dangle.  A reference into a
function dangles exactly if, when the engine was dropped, no cycle of calls between functions
outside of its table led to the function. -/
theorem teardown_leaves_replaced_cycles (e : Id .engine) (arrangements : List Arrangement)
    (h : ∀ a ∈ arrangements, a.DefinesOn e) (held : List Holdings) :
    let w := World.empty.arrangeAll arrangements
    (∀ (target : VarRef) c, target.callback? = some c → target.Dangles (w.afterTeardown e held)) ∧
      ∀ (target : VarRef) f, target.function? = some f →
        (target.Dangles (w.afterTeardown e held) ↔ ¬w.LeftOver e f) := by
  intro w
  have hdefines : w.DefinesOn e := (World.definesOn_empty e).arrangeAll h
  refine ⟨fun target c hc => ?_, fun target f hf => ?_⟩
  · exact VarRef.dangles_of_callback hc (hdefines.callback?_afterTeardown held c)
  · rw [VarRef.dangles_iff hf, ← hdefines.isSome_function?_afterTeardown held f,
      Option.not_isSome_iff_eq_none]

namespace Teardown

/-- The engine that is dropped. -/
def engine : Id .engine := ⟨0⟩

/-- Performing the statement calls the function. -/
def calling (f : Id .function) : Stmt :=
  .mk (.returnValue (some (.mk (.call f .first []) default))) default

/-- Two functions are defined, and call each other. -/
def recursion : List Arrangement :=
  [.newEngine {} none,
    .bind engine (.defineFunction "ping" []),
    .bind engine (.defineFunction "pong" []),
    .bind engine (.bindCall ⟨1⟩ [] default),
    .bind engine (.attachBody ⟨0⟩ (calling ⟨1⟩)),
    .bind engine (.bindCall ⟨0⟩ [] default),
    .bind engine (.attachBody ⟨1⟩ (calling ⟨0⟩))]

/-- A function is defined, and calls itself; another function is defined in its place; the host lets
go of both. -/
def redefinition : List Arrangement :=
  [.newEngine {} none,
    .bind engine (.defineFunction "f" []),
    .bind engine (.bindCall ⟨0⟩ [] default),
    .bind engine (.attachBody ⟨0⟩ (calling ⟨0⟩)),
    .bind engine (.defineFunction "f" []),
    .settle ⟨[⟨1⟩], [], []⟩,
    .settle ⟨[], [], []⟩]

/-- What is left of the redefinition. -/
def remnants : World :=
  (World.empty.arrangeAll redefinition).afterTeardown engine []

lemma definesOn_recursion : ∀ a ∈ recursion, a.DefinesOn engine := by
  simp [recursion, Arrangement.DefinesOn]

lemma definesOn_redefinition : ∀ a ∈ redefinition, a.DefinesOn engine := by
  simp [redefinition, Arrangement.DefinesOn]

end Teardown

open Teardown

/-- Functions that call each other are gone with the engine, although one of them is still held when
it is dropped. -/
theorem mutual_recursion_is_torn_down :
    (∀ a ∈ recursion, a.DefinesOn engine) ∧
      let w := World.empty.arrangeAll recursion
      ∀ (target : VarRef) f, target.function? = some f →
        target.Dangles (w.afterTeardown engine [⟨[⟨1⟩], [], []⟩]) := by
  refine ⟨definesOn_recursion, ?_⟩
  intro w target f hf
  obtain ⟨-, hfunctions⟩ :=
    teardown_leaves_replaced_cycles engine recursion definesOn_recursion [⟨[⟨1⟩], [], []⟩]
  refine (hfunctions target f hf).2 (World.not_leftOver fun g x hx _ => ?_)
  have hids : w.functions.ids ⊆ (w.engine engine).functions.values := by decide +kernel
  exact hids (Pool.mem_ids.2 (Option.isSome_iff_exists.2 ⟨x, hx⟩))

/-- A function that calls itself is left over after it was replaced. -/
theorem replaced_recursion_outlives_teardown :
    ¬∀ (e : Id .engine) (arrangements : List Arrangement) (held : List Holdings),
      (∀ a ∈ arrangements, a.DefinesOn e) → ∀ target : VarRef,
        target.function?.isSome ∨ target.callback?.isSome →
          target.Dangles ((World.empty.arrangeAll arrangements).afterTeardown e held) := by
  intro hclaim
  have hdangles := hclaim engine redefinition [] definesOn_redefinition (.functionLocal ⟨0⟩ .empty)
    (.inl rfl)
  have hgone : remnants.function? ⟨0⟩ = none := (VarRef.dangles_iff rfl).1 hdangles
  have hleft : (remnants.function? ⟨0⟩).isSome := by decide +kernel
  rw [hgone] at hleft
  exact Bool.false_ne_true hleft

end ScriptEngine
