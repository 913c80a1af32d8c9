import Mathlib.Logic.Relation
import Mathlib.Tactic.Common
import ScriptEngine.Binding
import ScriptEngine.Ownership

/-!
# What arrangements are made of

Between evaluations, front ends bind names and calls, and hosts make and drop engines, release what
nothing holds, and set things up.  All of this is an `Arrangement`.

Whatever front ends and hosts arrange, they do it by small edits: names get texts, something is
added to a pool, an entry of a table is exchanged, a body is attached or taken away, or something is
released.  An edit invents nothing.  Classes and bodies come from the host, and a `Supply` is what
is known of them; instances start without arguments and variables, and keep what they hold.

So what each edit keeps, each arrangement keeps.

Main statement: `Arrangement.edits`.
-/

namespace ScriptEngine

open Relation (ReflTransGen)

/-! ### Operations of the front end -/

/-- What a front end does on an engine, without running anything. -/
inductive Binding where
  | intern (text : String)
  | declareRegister (name : String)
  | registerApiClass (c : Host.ApiClass)
  | defineFunction (name : String) (parameters : List String)
  | defineCallback (name : String) (parameters : List String)
  | declareSnippet (d : SnippetDeclaration)
  | bindCall (f : Id .function) (args : List Expr) (l : Location)
  | bindApiCall (className function : String) (args : List Expr) (l : Location)
  | bindConstant (className constant : String) (l : Location)
  | bindObjectCall (target : VarRef) (function : String) (args : List Expr) (l : Location)
  | bindSnippetCall (snippet : Snippet) (args : List Expr) (l : Location)
  | attachBody (f : Id .function) (body : Stmt)
  | attachCallbackBody (c : Id .callback) (body : Stmt)
  | releaseFunction (f : Id .function)
  | releaseCallback (c : Id .callback)

namespace Binding

/-- The world after an operation on an engine, which may have been refused. -/
def run (e : Id .engine) (w : World) : Binding → World
  | intern text => (w.intern e text).2
  | declareRegister name => (w.declareRegister e name).2
  | registerApiClass c => (w.registerApiClass e c).2
  | defineFunction name parameters => (w.defineFunction e name parameters).2
  | defineCallback name parameters => (w.defineCallback e name parameters).2
  | declareSnippet d => (w.declareSnippet e d).2
  | bindCall f args l => (w.bindCall e f args l).2
  | bindApiCall className function args l => (w.bindApiCall e className function args l).2
  | bindConstant className constant l => (w.bindConstant e className constant l).2
  | bindObjectCall target function args l => (w.bindObjectCall e target function args l).2
  | bindSnippetCall snippet args l => (w.bindSnippetCall snippet args l).2
  | attachBody f body => w.modifyFunction f fun function => { function with body := some body }
  | attachCallbackBody c body =>
    w.modifyCallback c fun callback => { callback with body := some body }
  | releaseFunction f => { w with functions := w.functions.release f }
  | releaseCallback c => { w with callbacks := w.callbacks.release c }

/-- The world after several operations, in their order. -/
def runAll (e : Id .engine) (w : World) (bindings : List Binding) : World :=
  bindings.foldl (run e) w

/-! ### What is left of a refusable operation -/

variable (e : Id .engine) (w : World) (args : List Expr) (l : Location)

/-- A call of a function is refused, or the function goes on to its next call site. -/
lemma run_bindCall (f : Id .function) :
    run e w (bindCall f args l) = w ∨
      run e w (bindCall f args l) = w.modifyFunction f fun function =>
        { function with nextCallSite := function.nextCallSite.next } := by
  simp only [run, World.bindCall]
  split
  · exact .inl rfl
  · exact .inr rfl

/-- A call of an API class is refused, or the name of its function gets a text. -/
lemma run_bindApiCall (className function : String) :
    run e w (bindApiCall className function args l) = w ∨
      run e w (bindApiCall className function args l) = (w.intern e function).2 := by
  simp only [run, World.bindApiCall]
  split
  · exact .inl rfl
  · split
    · exact .inl rfl
    · split <;> exact .inr rfl

/-- A constant of an API class is refused, or its name gets a text. -/
lemma run_bindConstant (className constant : String) :
    run e w (bindConstant className constant l) = w ∨
      run e w (bindConstant className constant l) = (w.intern e constant).2 := by
  simp only [run, World.bindConstant]
  split
  · exact .inl rfl
  · split <;> exact .inr rfl

/-- A call on an object is refused, or the name of its function gets a text and the call a number. -/
lemma run_bindObjectCall (target : VarRef) (function : String) :
    run e w (bindObjectCall target function args l) = w ∨
      run e w (bindObjectCall target function args l) =
        { (w.intern e function).2 with objectCalls := (w.objectCalls.add none).2 } := by
  simp only [run, World.bindObjectCall]
  split
  · exact .inl rfl
  · exact .inr rfl

/-- A call of a snippet leaves nothing behind. -/
lemma run_bindSnippetCall (snippet : Snippet) : run e w (bindSnippetCall snippet args l) = w := by
  simp only [run, World.bindSnippetCall]
  split
  · rfl
  · split <;> rfl

end Binding

/-- Interning changes nothing but the memory. -/
lemma World.internAll_eq (w : World) (e : Id .engine) (texts : List String) :
    (w.internAll e texts).2 = { w with memory := (w.internAll e texts).2.memory } := by
  induction texts generalizing w with
  | nil => rfl
  | cons text rest ih => exact ih _

/-- A new engine brings no functions and no callbacks. -/
lemma World.same_newEngine (w : World) (config : EngineConfig) (shared : Option (Id .interner)) :
    (w.newEngine config shared).2.functions = w.functions ∧
      (w.newEngine config shared).2.callbacks = w.callbacks := by
  let Same (w w' : World) : Prop := w'.functions = w.functions ∧ w'.callbacks = w.callbacks
  have htrans {w₁ w₂ w₃ : World} (h : Same w₁ w₂) (h' : Same w₂ w₃) : Same w₁ w₃ :=
    ⟨h'.1.trans h.1, h'.2.trans h.2⟩
  have hregister (w : World) (e : Id .engine) (c : Host.ApiClass) :
      Same w (w.registerApiClass e c).2 := ⟨rfl, rfl⟩
  have hmemory (w : World) (memory : Memory) : Same w { w with memory } := ⟨rfl, rfl⟩
  have hengine (w : World) (memory : Memory) (engines : Pool .engine Engine) :
      Same w { w with memory, engines } := ⟨rfl, rfl⟩
  exact htrans (hengine w _ _) (htrans (hregister _ _ _) (htrans (hmemory _ _) (hregister _ _ _)))

/-! ### Arrangements -/

/-- What front ends and hosts do to a world without an evaluation. -/
inductive Arrangement where
  /-- An operation on an engine. -/
  | bind (e : Id .engine) (b : Binding)
  /-- Make a native object. -/
  | addNative (c : Host.ApiClass)
  | newEngine (config : EngineConfig) (shared : Option (Id .interner))
  | dropEngine (e : Id .engine)
  /-- Release what nothing holds. -/
  | settle (h : Holdings)
  | comment (f : Id .function) (text : String)
  /-- Take the reports of an engine. -/
  | drainReports (e : Id .engine)
  | changeMemory (change : Memory → Memory)

/-- The world after an arrangement. -/
def Arrangement.run (w : World) : Arrangement → World
  | bind e b => b.run e w
  | addNative c => (w.addNative c).2
  | newEngine config shared => (w.newEngine config shared).2
  | dropEngine e => w.dropEngine e
  | settle h => w.settle h
  | comment f text => w.modifyFunction f fun function => { function with comment := text }
  | drainReports e =>
    w.modifyEngine e fun engine => { engine with reporter := engine.reporter.clear }
  | changeMemory change => w.modifyMemory change

/-! ### Edits -/

/-- What is known of the classes and the bodies that a host brings in, and of its changes of the
memory.  The classes of every engine are among them. -/
structure Supply where
  native : Host.ApiClass → Prop
  body : Stmt → Prop
  memory : Memory → Memory → Prop
  console : ∀ m i p, native (Host.consoleClass m i p).1
  math : ∀ m i, native (Host.mathClass m i).1

/-- Nothing is known. -/
def Supply.unknown : Supply where
  native _ := True
  body _ := True
  memory _ _ := True
  console _ _ _ := trivial
  math _ _ := trivial

/-- The operation brings in only classes and bodies that are supplied. -/
def Binding.Brings (S : Supply) : Binding → Prop
  | registerApiClass c => S.native c
  | attachBody _ body | attachCallbackBody _ body => S.body body
  | _ => True

/-- The arrangement brings in only what is supplied. -/
def Arrangement.Brings (S : Supply) : Arrangement → Prop
  | bind _ b => b.Brings S
  | addNative c => S.native c
  | changeMemory change => ∀ m, S.memory m (change m)
  | _ => True

/-- Of what is brought in, nothing has to be known. -/
lemma Supply.brings_unknown (a : Arrangement) : a.Brings .unknown := by
  cases a with
  | bind e b => cases b <;> exact trivial
  | changeMemory change => exact fun _ => trivial
  | _ => exact trivial

/-- Two states of a callback that hold the same. -/
structure CallbackInstance.HoldsLike (x' x : CallbackInstance) : Prop where
  parameters : x'.parameters = x.parameters
  arguments : x'.arguments = x.arguments
  locals : x'.locals = x.locals

/-- The function holds the same after the change, and its body is what it was, or one that was
brought in, or none. -/
structure FunctionInstance.EditedTo (S : Supply) (x x' : FunctionInstance) : Prop where
  parameters : x'.parameters = x.parameters
  frame : x'.frame = x.frame
  locals : x'.locals = x.locals
  body : ∀ s ∈ x'.body, S.body s ∨ s ∈ x.body

/-- The callback holds the same after the change, and its body is what it was, or one that was
brought in, or none. -/
structure CallbackInstance.EditedTo (S : Supply) (x x' : CallbackInstance) : Prop
    extends x'.HoldsLike x where
  body : ∀ s ∈ x'.body, S.body s ∨ s ∈ x.body

namespace World

/-- The world after a small change. -/
inductive Edit (S : Supply) (w : World) : World → Prop
  /-- Names get texts, or there is a new interner, printer or counter. -/
  | names (m : Memory) (harrays : m.arrays = w.memory.arrays)
    (hobjects : m.objects = w.memory.objects) : Edit S w { w with memory := m }
  | memory (m : Memory) (h : S.memory w.memory m) : Edit S w { w with memory := m }
  | addEngine (x : Engine) (hregister : x.register = .empty) (hglobals : x.globals = ∅) :
    Edit S w { w with engines := (w.engines.add x).2 }
  | addNative {c : Host.ApiClass} (hc : S.native c) : Edit S w (w.addNative c).2
  | addFunction (n : Name) (name : String) (parameters : List Name) (parameterNames : List String) :
    Edit S w
      { w with functions := (w.functions.add (.define n name parameters parameterNames)).2 }
  | addCallback (n : Name) (name : String) (parameters : List Name) :
    Edit S w { w with callbacks := (w.callbacks.add (.define n name parameters)).2 }
  | addSite : Edit S w { w with objectCalls := (w.objectCalls.add none).2 }
  | declare (e : Id .engine) (n : Name) :
    Edit S w (w.modifyEngine e fun x =>
      { x with register := ((w.engine e).register.declare n).2 })
  /-- Something other than a variable is changed in an engine. -/
  | table (e : Id .engine) (change : Engine → Engine)
    (hregister : ∀ x, (change x).register = x.register)
    (hglobals : ∀ x, (change x).globals = x.globals) : Edit S w (w.modifyEngine e change)
  | function (f : Id .function) (change : FunctionInstance → FunctionInstance)
    (h : ∀ x : FunctionInstance, x.EditedTo S (change x)) : Edit S w (w.modifyFunction f change)
  | callback (c : Id .callback) (change : CallbackInstance → CallbackInstance)
    (h : ∀ x : CallbackInstance, x.EditedTo S (change x)) : Edit S w (w.modifyCallback c change)
  | releaseFunction (f : Id .function) : Edit S w { w with functions := w.functions.release f }
  | releaseCallback (c : Id .callback) : Edit S w { w with callbacks := w.callbacks.release c }
  | releaseEngine (e : Id .engine) : Edit S w { w with engines := w.engines.release e }

/-- The world after several edits. -/
abbrev Edits (S : Supply) : World → World → Prop :=
  ReflTransGen (Edit S)

/-- By edits come no classes but supplied ones. -/
lemma Edits.native {S : Supply} {w w' : World} (h : w.Edits S w')
    (hw : ∀ i c, w.natives.get? i = some c → S.native c) {i : Id .native} {c : Host.ApiClass}
    (hc : w'.natives.get? i = some c) : S.native c := by
  induction h generalizing i c with
  | refl => exact hw i c hc
  | tail _ hlast ih =>
    cases hlast with
    | addNative hnew =>
      rcases Pool.get?_add_cases hc with hold | ⟨-, rfl⟩
      · exact ih hold
      · exact hnew
    | _ => exact ih hc

namespace Edits

variable {S : Supply}

/-! ### What front ends do -/

/-- A text is interned. -/
lemma intern (w : World) (e : Id .engine) (text : String) : Edits S w (w.intern e text).2 :=
  .single (.names _ rfl rfl)

/-- Several texts are interned. -/
lemma internAll (w : World) (e : Id .engine) (texts : List String) :
    Edits S w (w.internAll e texts).2 := by
  induction texts generalizing w with
  | nil => exact .refl
  | cons text rest ih => exact (intern w e text).trans (ih _)

/-- What is done with edits to one thing after another is done with edits. -/
lemma foldl {α : Type} {change : World → α → World} (h : ∀ w a, Edits S w (change w a))
    (as : List α) (w : World) : Edits S w (as.foldl change w) := by
  induction as generalizing w with
  | nil => exact .refl
  | cons a rest ih => exact (h w a).trans (ih _)

/-- A table of an engine is changed. -/
lemma table (w : World) (e : Id .engine) {change : Engine → Engine}
    (hregister : ∀ x, (change x).register = x.register)
    (hglobals : ∀ x, (change x).globals = x.globals) : Edits S w (w.modifyEngine e change) :=
  .single (.table e change hregister hglobals)

/-- The body of a function is exchanged. -/
lemma functionBody (w : World) (f : Id .function) {body : Option Stmt} (h : ∀ s ∈ body, S.body s) :
    Edits S w (w.modifyFunction f fun function => { function with body }) :=
  .single (.function f _ fun _ => ⟨rfl, rfl, rfl, fun s hs => .inl (h s hs)⟩)

/-- The body of a callback is exchanged. -/
lemma callbackBody (w : World) (c : Id .callback) {body : Option Stmt} (h : ∀ s ∈ body, S.body s) :
    Edits S w (w.modifyCallback c fun callback => { callback with body }) :=
  .single (.callback c _ fun _ => ⟨⟨rfl, rfl, rfl⟩, fun s hs => .inl (h s hs)⟩)

/-- A slot is declared. -/
lemma declareRegister (w : World) (e : Id .engine) (name : String) :
    Edits S w (w.declareRegister e name).2 :=
  (intern w e name).tail (.declare e _)

/-- A class is registered. -/
lemma registerApiClass (w : World) (e : Id .engine) {c : Host.ApiClass} (hc : S.native c) :
    Edits S w (w.registerApiClass e c).2 :=
  ((intern w e c.name).tail (.addNative hc)).trans (table _ e (fun _ => rfl) fun _ => rfl)

/-- A function is defined. -/
lemma defineFunction (w : World) (e : Id .engine) (name : String) (parameters : List String) :
    Edits S w (w.defineFunction e name parameters).2 :=
  (((intern w e name).trans (internAll _ e parameters)).tail
    (.addFunction _ name _ parameters)).trans (table _ e (fun _ => rfl) fun _ => rfl)

/-- A callback is defined. -/
lemma defineCallback (w : World) (e : Id .engine) (name : String) (parameters : List String) :
    Edits S w (w.defineCallback e name parameters).2 :=
  (((intern w e name).trans (internAll _ e parameters)).tail (.addCallback _ name _)).trans
    (table _ e (fun _ => rfl) fun _ => rfl)

/-- Making the class `Math` gives texts to names, and does nothing else to the memory. -/
lemma same_mathClass (m : Memory) (i : Id .interner) :
    (Host.mathClass m i).2.arrays = m.arrays ∧ (Host.mathClass m i).2.objects = m.objects := by
  have hconstants : ∀ (cs : List (String × Value)) (acc : Host.ApiClass × Memory),
      (cs.foldl (Host.ApiClass.withConstant i) acc).2.arrays = acc.2.arrays ∧
        (cs.foldl (Host.ApiClass.withConstant i) acc).2.objects = acc.2.objects := by
    intro cs
    induction cs with
    | nil => exact fun _ => ⟨rfl, rfl⟩
    | cons c rest ih => exact fun acc => ih (Host.ApiClass.withConstant i acc c)
  have hfunctions : ∀ (fs : List Host.FunctionEntry) (acc : Host.ApiClass × Memory),
      (fs.foldl (Host.ApiClass.withFunction i) acc).2.arrays = acc.2.arrays ∧
        (fs.foldl (Host.ApiClass.withFunction i) acc).2.objects = acc.2.objects := by
    intro fs
    induction fs with
    | nil => exact fun _ => ⟨rfl, rfl⟩
    | cons f rest ih => exact fun acc => ih (Host.ApiClass.withFunction i acc f)
  obtain ⟨harrays, hobjects⟩ := hconstants Host.Math.constants (.named "Math", m)
  obtain ⟨harrays', hobjects'⟩ := hfunctions Host.Math.functions
    (Host.Math.constants.foldl (Host.ApiClass.withConstant i) (.named "Math", m))
  exact ⟨harrays'.trans harrays, hobjects'.trans hobjects⟩

/-- An engine is made, with its classes. -/
lemma newEngine (w : World) (config : EngineConfig) (shared : Option (Id .interner)) :
    Edits S w (w.newEngine config shared).2 := by
  have hmemory : ∀ (w : World) (m : Memory), m.arrays = w.memory.arrays →
      m.objects = w.memory.objects → Edits S w { w with memory := m } :=
    fun w m harrays hobjects => .single (.names m harrays hobjects)
  have hengine : ∀ (w : World) (m : Memory) (x : Engine), m.arrays = w.memory.arrays →
      m.objects = w.memory.objects → x.register = .empty → x.globals = ∅ →
      Edits S w { w with memory := m, engines := (w.engines.add x).2 } :=
    fun w m x harrays hobjects hregister hglobals =>
      (hmemory w m harrays hobjects).tail (.addEngine x hregister hglobals)
  -- the engine is there before its classes, and `Console` before the names of `Math` are interned
  refine ((hengine w _ _ ?_ ?_ rfl rfl).trans (registerApiClass _ _ (S.console _ _ _))).trans
    ((hmemory _ _ ?_ ?_).trans (registerApiClass _ _ (S.math _ _)))
  · cases shared <;> rfl
  · cases shared <;> rfl
  · exact (same_mathClass _ _).1
  · exact (same_mathClass _ _).2

/-- An operation of a front end. -/
lemma bind (e : Id .engine) {b : Binding} (hb : b.Brings S) (w : World) :
    Edits S w (b.run e w) := by
  cases b with
  | intern text => exact intern w e text
  | declareRegister name => exact declareRegister w e name
  | registerApiClass c => exact registerApiClass w e hb
  | defineFunction name parameters => exact defineFunction w e name parameters
  | defineCallback name parameters => exact defineCallback w e name parameters
  | declareSnippet d => exact (intern w e d.name).trans (table _ e (fun _ => rfl) fun _ => rfl)
  | bindCall f args l =>
    rcases Binding.run_bindCall e w args l f with h | h
    · rw [h]
    · rw [h]
      exact .single (.function f _ fun _ => ⟨rfl, rfl, rfl, fun _ => .inr⟩)
  | bindApiCall className function args l =>
    rcases Binding.run_bindApiCall e w args l className function with h | h
    · rw [h]
    · rw [h]
      exact intern w e function
  | bindConstant className constant l =>
    rcases Binding.run_bindConstant e w l className constant with h | h
    · rw [h]
    · rw [h]
      exact intern w e constant
  | bindObjectCall target function args l =>
    rcases Binding.run_bindObjectCall e w args l target function with h | h
    · rw [h]
    · rw [h]
      exact (intern w e function).tail .addSite
  | bindSnippetCall snippet args l =>
    rw [Binding.run_bindSnippetCall]
  | attachBody f body =>
    refine functionBody w f fun s hs => ?_
    obtain rfl := Option.some.inj hs
    exact hb
  | attachCallbackBody c body =>
    refine callbackBody w c fun s hs => ?_
    obtain rfl := Option.some.inj hs
    exact hb
  | releaseFunction f => exact .single (.releaseFunction f)
  | releaseCallback c => exact .single (.releaseCallback c)

/-! ### What is released -/

/-- Callbacks are released. -/
lemma releaseCallbacks (w : World) (free : List (Id .callback)) :
    Edits S w { w with callbacks := free.foldl Pool.release w.callbacks } := by
  induction free generalizing w with
  | nil => exact .refl
  | cons c rest ih => exact .head (.releaseCallback c) (ih _)

/-- Functions are released. -/
lemma releaseFunctions (w : World) (free : List (Id .function)) :
    Edits S w (w.releaseFunctions free) := by
  induction free generalizing w with
  | nil => exact .refl
  | cons f rest ih => exact .head (.releaseFunction f) (ih _)

/-- Functions are released, in rounds. -/
lemma releaseFunctionsUpTo (held : Holdings) (rounds : ℕ) (w : World) :
    Edits S w (w.releaseFunctionsUpTo held rounds) := by
  induction rounds generalizing w with
  | zero => exact .refl
  | succ rounds ih =>
    unfold World.releaseFunctionsUpTo
    split
    · exact .refl
    · exact (releaseFunctions w _).trans (ih _)

/-- What nothing holds is released. -/
lemma settle (w : World) (held : Holdings) : Edits S w (w.settle held) :=
  (releaseCallbacks w _).trans (releaseFunctionsUpTo held _ _)

/-- An engine is dropped, and takes bodies with it. -/
lemma dropEngine (w : World) (e : Id .engine) : Edits S w (w.dropEngine e) := by
  have hnone : ∀ s ∈ (none : Option Stmt), S.body s := fun s hs => by cases hs
  have hfunctions := foldl (fun w f => functionBody w f hnone) (w.engine e).functions.values w
  have hcallbacks := foldl (fun w c => callbackBody w c hnone) (w.engine e).callbacks.values
  exact (hfunctions.trans (hcallbacks _)).tail (.releaseEngine e)

end Edits

end World

/-- Arrangements are made of edits. -/
theorem Arrangement.edits {S : Supply} (a : Arrangement) (ha : a.Brings S) (w : World) :
    w.Edits S (a.run w) := by
  cases a with
  | bind e b => exact .bind e ha w
  | addNative c => exact .single (.addNative ha)
  | newEngine config shared => exact .newEngine w config shared
  | dropEngine e => exact .dropEngine w e
  | settle held => exact .settle w held
  | comment f text => exact .single (.function f _ fun _ => ⟨rfl, rfl, rfl, fun _ => .inr⟩)
  | drainReports e => exact .table w e (fun _ => rfl) fun _ => rfl
  | changeMemory change => exact .single (.memory _ (ha w.memory))

end ScriptEngine
