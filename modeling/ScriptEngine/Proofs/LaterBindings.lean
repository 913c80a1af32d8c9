import ScriptEngine.Proofs.Edits
import ScriptEngine.Proofs.HostsAlike

/-!
# Bindings that come later

Between the building of a tree and its evaluation, the front end may go on: it interns names, declares
slots, registers classes, defines functions and callbacks, and binds calls.  Each of these operations
adds something, or exchanges an entry in a table; none touches what a tree was bound to.  A tree that
was there before therefore evaluates as if nothing had been added, whatever the names of the new things
are.

What a table loses may be released, unless the tree refers to it.  Property bags are compared by the
texts of their names, and so a bag must not hold a name that the interner of the engine has not given
out: with the next text that name would get a meaning.

Main statement: `bindings_change_nothing`.
-/

namespace ScriptEngine

/-! ### What is spared -/

namespace Binding

/-- The operation gives no body to what was there in the world, and releases nothing to which the
vocabulary refers. -/
def Spares (w : World) (D : Vocabulary) : Binding → Prop
  | attachBody f _ => w.functions.size ≤ f.index
  | attachCallbackBody c _ => w.callbacks.size ≤ c.index
  | releaseFunction f => ¬D.RefersTo f
  | releaseCallback c => ¬D.RefersToCallback c
  | _ => True

end Binding

/-! ### What only grows -/

namespace World

/-- The second world has come from one that is in step, and has at least as many things as `w₀`. -/
structure Follows (w₀ : World) (e : Id .engine) (D : Vocabulary) (w w' : World) : Prop
    extends w₀.InStep e D w w' where
  natives : w₀.natives.size ≤ w'.natives.size
  functions : w₀.functions.size ≤ w'.functions.size
  callbacks : w₀.callbacks.size ≤ w'.callbacks.size
  sites : w₀.objectCalls.size ≤ w'.objectCalls.size

namespace Follows

variable {w₀ : World} {e : Id .engine} {D : Vocabulary} {w w' : World} (h : w₀.Follows e D w w')

include h

/-! ### Single additions -/

/-- A text is interned. -/
lemma intern (s : String) : w₀.Follows e D w (w'.intern e s).2 := by
  have hmemory := h.alike.memory.internLater s
  rw [← h.toInStep.internerId'] at hmemory
  exact { h with alike := { h.alike with memory := hmemory } }

/-- Several texts are interned. -/
lemma internAll (texts : List String) : w₀.Follows e D w (w'.internAll e texts).2 := by
  induction texts generalizing w' with
  | nil => exact h
  | cons s rest ih => exact ih (h.intern s)

/-- The engine is changed, except for the slots that are there. -/
lemma modifyEngine {change : Engine → Engine}
    (hrest : (change (w'.engine e)).untabled = (w'.engine e).untabled)
    (hslots : ∀ i, i < (w'.engine e).register.size →
      (change (w'.engine e)).register.slots[i]? = (w'.engine e).register.slots[i]?) :
    w₀.Follows e D w (w'.modifyEngine e change) := by
  refine { h with alike := { h.alike with engine := ?_, engines := fun d hd => ?_ } }
  · have halike := h.toInStep.engine
    have hthere : ∀ i, i < (w₀.engine e).register.size → i < (w'.engine e).register.size := by
      intro i hi
      obtain ⟨n, hn, -⟩ := h.shows.slots i hi
      obtain ⟨slot, hslot, -⟩ := Option.map_eq_some_iff.1 hn
      rw [← halike.slots i hi] at hslot
      exact (Array.getElem?_eq_some_iff.1 hslot).1
    have hchanged : Engine.Alike (w₀.engine e).register.size (w.engine e) (change (w'.engine e)) :=
      ⟨hrest.trans halike.rest, fun i hi => (hslots i (hthere i hi)).trans (halike.slots i hi)⟩
    have hengine := h.alike.engine
    change Option.Rel _ (w.engines.get? e) ((w'.engines.update e change).get? e)
    rw [Pool.get?_update_self]
    unfold World.engine at hchanged
    generalize w.engines.get? e = x, w'.engines.get? e = x' at hengine hchanged
    cases hengine with
    | some hx => exact .some hchanged
    | none => exact .none
  · rw [← h.alike.engines d hd]
    exact Pool.get?_update_of_ne _ _ hd.symm

/-- A native object is added. -/
lemma addNative (c : Host.ApiClass) : w₀.Follows e D w (w'.addNative c).2 := by
  refine { h with alike := { h.alike with natives := fun o ho => ?_ }, natives := ?_ }
  · rw [← h.alike.natives o ho]
    change (w'.natives.add c).2.get? o = _
    rw [Pool.get?_add, if_neg (Nat.ne_of_lt (Nat.lt_of_lt_of_le ho h.natives))]
  · change _ ≤ (w'.natives.add c).2.size
    rw [Pool.size_add]
    exact Nat.le_succ_of_le h.natives

/-- A function is added. -/
lemma addFunction (x : FunctionInstance) :
    w₀.Follows e D w { w' with functions := (w'.functions.add x).2 } := by
  refine { h with alike := { h.alike with functions := fun f hf => ?_ }, functions := ?_ }
  · have hsame : (w'.functions.add x).2.get? f = w'.function? f := by
      rw [Pool.get?_add, if_neg (Nat.ne_of_lt (Nat.lt_of_lt_of_le hf h.functions))]
      rfl
    change ((w'.functions.add x).2.get? f).map _ = _ ∨ _ ∧ (w'.functions.add x).2.get? f = _
    rw [hsame]
    exact h.alike.functions f hf
  · rw [Pool.size_add]
    exact Nat.le_succ_of_le h.functions

/-- A callback is added. -/
lemma addCallback (x : CallbackInstance) :
    w₀.Follows e D w { w' with callbacks := (w'.callbacks.add x).2 } := by
  refine { h with alike := { h.alike with callbacks := fun c hc => ?_ }, callbacks := ?_ }
  · have hsame : (w'.callbacks.add x).2.get? c = w'.callback? c := by
      rw [Pool.get?_add, if_neg (Nat.ne_of_lt (Nat.lt_of_lt_of_le hc h.callbacks))]
      rfl
    change (w'.callbacks.add x).2.get? c = _ ∨ _ ∧ (w'.callbacks.add x).2.get? c = _
    rw [hsame]
    exact h.alike.callbacks c hc
  · rw [Pool.size_add]
    exact Nat.le_succ_of_le h.callbacks

/-- A place for the resolution of an object call is added. -/
lemma addSite : w₀.Follows e D w { w' with objectCalls := (w'.objectCalls.add none).2 } := by
  refine { h with alike := { h.alike with sites := fun site hsite => ?_ }, sites := ?_ }
  · rw [← h.alike.sites site hsite, Pool.get?_add,
      if_neg (Nat.ne_of_lt (Nat.lt_of_lt_of_le hsite h.sites))]
  · rw [Pool.size_add]
    exact Nat.le_succ_of_le h.sites

/-! ### Single changes -/

/-- A function is changed that is new, or only in the number of its next call. -/
lemma modifyFunction {f : Id .function} {change : FunctionInstance → FunctionInstance}
    (hchange : w₀.functions.size ≤ f.index ∨ ∀ x, (change x).unnumbered = x.unnumbered) :
    w₀.Follows e D w (w'.modifyFunction f change) := by
  refine { h with alike := { h.alike with functions := fun g hg => ?_ }, functions := ?_ }
  · rw [function?_modifyFunction]
    split
    · rename_i hfg
      subst hfg
      rcases hchange with hnew | hsame
      · exact absurd hg (Nat.not_lt.2 hnew)
      · have hunnumbered : ((w'.function? f).map change).map (·.unnumbered) =
            (w'.function? f).map (·.unnumbered) := by
          rw [Option.map_map]
          exact Option.map_congr fun x _ => hsame x
        rw [hunnumbered, Option.map_eq_none_iff]
        exact h.alike.functions f hg
    · exact h.alike.functions g hg
  · change _ ≤ (w'.functions.update f change).size
    rw [Pool.size_update]
    exact h.functions

/-- A new callback is changed. -/
lemma modifyCallback {c : Id .callback} (hc : w₀.callbacks.size ≤ c.index)
    (change : CallbackInstance → CallbackInstance) :
    w₀.Follows e D w (w'.modifyCallback c change) := by
  refine { h with alike := { h.alike with callbacks := fun d hd => ?_ }, callbacks := ?_ }
  · have hne : c ≠ d := fun hcd => Nat.not_lt.2 hc (hcd ▸ hd)
    rw [callback?_modifyCallback, if_neg hne]
    exact h.alike.callbacks d hd
  · change _ ≤ (w'.callbacks.update c change).size
    rw [Pool.size_update]
    exact h.callbacks

/-- A function is released to which nothing refers. -/
lemma releaseFunction {f : Id .function} (hf : ¬D.RefersTo f) :
    w₀.Follows e D w { w' with functions := w'.functions.release f } := by
  refine { h with alike := { h.alike with functions := fun g hg => ?_ }, functions := ?_ }
  · change ((w'.functions.release f).get? g).map _ = _ ∨ _ ∧ (w'.functions.release f).get? g = _
    rw [Pool.get?_release]
    split
    · rename_i hfg
      exact Or.inr ⟨hfg ▸ hf, rfl⟩
    · exact h.alike.functions g hg
  · rw [Pool.size_release]
    exact h.functions

/-- A callback is released to which nothing refers. -/
lemma releaseCallback {c : Id .callback} (hc : ¬D.RefersToCallback c) :
    w₀.Follows e D w { w' with callbacks := w'.callbacks.release c } := by
  refine { h with alike := { h.alike with callbacks := fun d hd => ?_ }, callbacks := ?_ }
  · change (w'.callbacks.release c).get? d = _ ∨ _ ∧ (w'.callbacks.release c).get? d = _
    rw [Pool.get?_release]
    split
    · rename_i hcd
      exact Or.inr ⟨hcd ▸ hc, rfl⟩
    · exact h.alike.callbacks d hd
  · rw [Pool.size_release]
    exact h.callbacks

/-! ### Operations -/

/-- A slot is declared. -/
lemma declareRegister (name : String) : w₀.Follows e D w (w'.declareRegister e name).2 :=
  (h.intern name).modifyEngine rfl fun _ hi => Register.slots_declare _ _ hi

/-- A class is registered. -/
lemma registerApiClass (c : Host.ApiClass) : w₀.Follows e D w (w'.registerApiClass e c).2 :=
  ((h.intern c.name).addNative c).modifyEngine rfl fun _ _ => rfl

/-- A function is defined. -/
lemma defineFunction (name : String) (parameters : List String) :
    w₀.Follows e D w (w'.defineFunction e name parameters).2 :=
  (((h.intern name).internAll parameters).addFunction _).modifyEngine rfl fun _ _ => rfl

/-- A callback is defined. -/
lemma defineCallback (name : String) (parameters : List String) :
    w₀.Follows e D w (w'.defineCallback e name parameters).2 :=
  (((h.intern name).internAll parameters).addCallback _).modifyEngine rfl fun _ _ => rfl

/-- A snippet is declared. -/
lemma declareSnippet (d : SnippetDeclaration) : w₀.Follows e D w (w'.declareSnippet e d).2 :=
  (h.intern d.name).modifyEngine rfl fun _ _ => rfl

/-- Each operation leaves the worlds in step. -/
theorem run {binding : Binding} (hbinding : binding.Spares w₀ D) :
    w₀.Follows e D w (Binding.run e w' binding) := by
  cases binding with
  | intern text => exact h.intern text
  | declareRegister name => exact h.declareRegister name
  | registerApiClass c => exact h.registerApiClass c
  | defineFunction name parameters => exact h.defineFunction name parameters
  | defineCallback name parameters => exact h.defineCallback name parameters
  | declareSnippet d => exact h.declareSnippet d
  | bindCall f args l =>
    rcases Binding.run_bindCall e w' args l f with hrun | hrun <;> rw [hrun]
    · exact h
    · exact h.modifyFunction (.inr fun _ => rfl)
  | bindApiCall className function args l =>
    rcases Binding.run_bindApiCall e w' args l className function with hrun | hrun <;> rw [hrun]
    · exact h
    · exact h.intern function
  | bindConstant className constant l =>
    rcases Binding.run_bindConstant e w' l className constant with hrun | hrun <;> rw [hrun]
    · exact h
    · exact h.intern constant
  | bindObjectCall target function args l =>
    rcases Binding.run_bindObjectCall e w' args l target function with hrun | hrun <;> rw [hrun]
    · exact h
    · exact (h.intern function).addSite
  | bindSnippetCall snippet args l =>
    rw [Binding.run_bindSnippetCall]
    exact h
  | attachBody f body => exact h.modifyFunction (.inl hbinding)
  | attachCallbackBody c body => exact h.modifyCallback hbinding _
  | releaseFunction f => exact h.releaseFunction hbinding
  | releaseCallback c => exact h.releaseCallback hbinding

/-- Any number of operations leave the worlds in step. -/
theorem runAll {bindings : List Binding} (hbindings : ∀ b ∈ bindings, b.Spares w₀ D) :
    w₀.Follows e D w (Binding.runAll e w' bindings) := by
  induction bindings generalizing w' with
  | nil => exact h
  | cons b rest ih =>
    have hb := h.run (hbindings b (by simp))
    exact ih hb fun c hc => hbindings c (by simp [hc])

end Follows

/-- A world follows itself. -/
lemma Provides.follows {w : World} {e : Id .engine} {D : Vocabulary} (h : w.Provides e D) :
    w.Follows e D w w where
  provides := h
  code := rfl
  shows := h.shows
  alike := by
    refine ⟨h.memory, fun _ _ => rfl, fun _ _ => Or.inl rfl, fun _ _ => Or.inl rfl, fun _ _ => rfl,
      ?_, fun _ _ => rfl⟩
    cases w.engines.get? e with
    | none => exact .none
    | some x => exact .some ⟨rfl, fun _ _ => rfl⟩
  natives := Nat.le_refl _
  functions := Nat.le_refl _
  callbacks := Nat.le_refl _
  sites := Nat.le_refl _

end World

/-! ### Evaluations -/

/-- A tree that was there before evaluates in the same way when the front end has gone on, with the
same value, signal or error, and with the same effects on all that was there. -/
theorem bindings_change_nothing (bound : ℕ) (scope : Scope) {w : World} {D : Vocabulary}
    (h : w.Provides scope.engine D) {t : Tree} (ht : D.tree t) {bindings : List Binding}
    (hbindings : ∀ b ∈ bindings, b.Spares w D) :
    ∃ u, (Evaluator.shared bound).evaluateTree scope t (Binding.runAll scope.engine w bindings) =
        ((Evaluator.shared bound).evaluateTree scope t w).mapState (fun _ => u) ∧
      w.Alike scope.engine D ((Evaluator.shared bound).evaluateTree scope t w).state u := by
  have hmatches := h.runs.evaluateTree bound (h.grounds.engine.2 rfl) ht
  have hfollows := h.follows.runAll hbindings
  obtain ⟨u, hsame, hu⟩ := World.mapState_of_inStep_matches hmatches hfollows.toInStep
  exact ⟨u, hsame, hu.alike⟩

/-! ### A key that is interned later -/

namespace LaterKey

/-- The class `Console`, which is the first native object of its world. -/
def console : NativeRef := ⟨⟨0⟩, "Console"⟩

/-- The function without parameters. -/
def function : Id .function := ⟨0⟩

/-- The first slot of the register, which holds an object. -/
def variableRead : Expr :=
  .unlocated (.var (.register 0))

/-- The text that is no key of the object. -/
def key : Expr :=
  .unlocated (.literal (.string "late"))

/-- The expression `x["late"]`. -/
def reading : Expr :=
  .unlocated (.index variableRead key)

/-- The body `return x["late"]`. -/
def body : Stmt :=
  .unlocated (.returnValue (some reading))

/-- The call `f()`. -/
def call : Expr :=
  .unlocated (.call function .first [])

/-- The tree `Console.print(f())`. -/
def printing : Tree :=
  .expr (.unlocated (.apiCall console .empty ⟨0, 1⟩ [call]))

/-- The interner, which has seen the names of the variable, of the function and of printing. -/
def interner : Interner :=
  ⟨#["", "x", "f", "print"], by decide⟩

/-- The object, which has a property `x`. -/
def bag : PropertyBag :=
  NameMap.insert ∅ ⟨1⟩ (.bool true)

/-- The register, whose slot holds the object. -/
def register : Register :=
  (Register.empty.declare ⟨1⟩).2.set 0 (.object ⟨0⟩)

/-- The function before any call. -/
def definition : FunctionInstance :=
  { FunctionInstance.define ⟨2⟩ "f" [] [] with body := some body }

/-- The object, the interner, and a printer that remembers what it prints. -/
def memory : Memory :=
  { Memory.empty with
    objects := (Pool.empty.add bag).2
    interners := (Pool.empty.add interner).2
    printers := (Pool.empty.add (.capture "")).2 }

/-- One engine with the function and the class. -/
def world : World :=
  { World.empty with
    memory
    natives := (Pool.empty.add (Host.consoleClass memory ⟨0⟩ ⟨0⟩).1).2
    functions := (Pool.empty.add definition).2
    engines := (Pool.empty.add { (default : Engine) with maxCallDepth := 1, register }).2 }

/-- What the tree mentions: no native objects but the class. -/
def vocabulary : Vocabulary where
  tree t := t ∈ [printing, .expr call, .stmt body, .expr reading, .expr variableRead, .expr key]
  engine e := e = ⟨0⟩
  value v := ∀ object, v = .native object → object = console
  reads target := target = .register 0
  writes _ := False
  calls f := f = function
  names n := n = .empty
  hosts object := object = console
  objectCalls _ _ _ := False
  codes _ := False
  byName := False
  value_of_isPlain hv object hobject := by
    subst hobject
    exact hv.elim

/-- The front end goes on: it interns the key, and defines a slot and a function of the names that
are there already. -/
def bindings : List Binding :=
  [.intern "late", .declareRegister "late", .defineFunction "f" ["late"],
    .defineCallback "late" [], .bindObjectCall (.register 0) "late" [] .unknown]

/-- The tree mentions nothing but what is in the vocabulary. -/
lemma closed : vocabulary.Closed where
  fits {t} ht := by
    simp only [vocabulary, List.mem_cons, List.not_mem_nil, or_false] at ht
    rcases ht with rfl | rfl | rfl | rfl | rfl | rfl
    · exact ⟨rfl, rfl⟩
    · exact rfl
    · trivial
    · trivial
    · exact rfl
    · rintro object ⟨⟩
  part {t u} ht hu := by
    simp only [vocabulary, List.mem_cons, List.not_mem_nil, or_false] at ht
    rcases ht with rfl | rfl | rfl | rfl | rfl | rfl
    · obtain rfl := List.mem_singleton.1 hu
      simp [vocabulary]
    · cases hu
    · obtain rfl := List.mem_singleton.1 hu
      simp [vocabulary]
    · rcases List.mem_pair.1 hu with rfl | rfl <;> simp [vocabulary]
    · cases hu
    · cases hu

/-- All that the tree mentions is there. -/
lemma grounds : world.Grounds ⟨0⟩ vocabulary where
  closed := closed
  body {f s} hf hs := by
    subst hf
    obtain rfl := Option.some.inj hs
    simp [vocabulary]
  engine := Iff.rfl
  byName h := h
  names {n} hn := by
    subst hn
    exact (by decide : 0 < interner.size)
  uses {target} htarget := by
    rcases htarget with htarget | htarget
    · subst htarget
      change 0 < (world.engine ⟨0⟩).register.size
      decide +kernel
    · exact htarget.elim
  calls {f} hf := by
    subst hf
    exact Nat.zero_lt_one
  objectCalls h := h.elim
  hosts {object} := ⟨fun h _ heq => Value.native.inj heq ▸ h, fun h => h object rfl⟩
  natives {object} h := by
    subst h
    exact Nat.zero_lt_one
  constant {object n v} h hv := by
    subst h
    cases hv
  newArray _ _ h := nomatch h
  newObject _ _ h := nomatch h

/-- A value that is no native object may occur. -/
lemma value_of_ne_native {v : Value} (hv : ∀ object, v ≠ .native object) : vocabulary.value v :=
  fun object h => absurd h (hv object)

/-- The object holds nothing but what is known. -/
lemma alikeMemories : world.AlikeMemories ⟨0⟩ vocabulary world.memory world.memory := by
  have hproperty : ∀ {n v}, bag.get? n = some v → n = ⟨1⟩ ∧ v = .bool true := by
    intro n v hn
    unfold bag at hn
    rw [NameMap.get?_insert] at hn
    split at hn
    · exact ⟨‹_›, (Option.some.inj hn).symm⟩
    · exact nomatch hn
  have hobject : ∀ {o known}, world.memory.objects.get? o = some known → known = bag := by
    intro o known ho
    rcases Pool.get?_add_cases ho with hold | ⟨-, hnew⟩
    · exact nomatch hold
    · exact hnew
  refine .self (fun o known _ ho n v hn => ?_) (fun _ hv => ?_) (fun {o n v} _ hn => ?_)
  · rw [hobject ho] at hn
    rw [(hproperty hn).1]
    exact (by decide : 1 < interner.size)
  · exact absurd hv (Array.not_mem_empty _)
  · unfold Memory.properties at hn
    cases ho : world.memory.objects.get? o with
    | none =>
      rw [ho] at hn
      exact nomatch hn
    | some known =>
      rw [ho, hobject ho] at hn
      rw [(hproperty hn).2]
      exact value_of_ne_native fun _ h => nomatch h

/-- Nothing that is found leads to another native object. -/
lemma shows : world.Shows ⟨0⟩ vocabulary world where
  slots i hi := by
    have hsize : (world.engine ⟨0⟩).register.size = 1 := by decide +kernel
    obtain rfl : i = 0 := by omega
    exact ⟨⟨1⟩, by decide +kernel, (by decide : 1 < interner.size)⟩
  engine := by
    have hundefined : vocabulary.value .undefined := value_of_ne_native fun _ h => nomatch h
    have hdeclared : ∀ i, vocabulary.value ((Register.empty.declare ⟨1⟩).2.get i) := by
      intro i
      have hget : (Register.empty.declare ⟨1⟩).2.slots = #[(⟨1⟩, .undefined)] := by decide +kernel
      unfold Register.get
      rw [hget]
      cases i with
      | zero => exact hundefined
      | succ i => exact hundefined
    have hobject : vocabulary.value (.object ⟨0⟩) := value_of_ne_native fun _ h => nomatch h
    exact ⟨Register.forall_get_set hdeclared hobject 0, fun _ => hundefined⟩
  function {f x} hf hx := by
    have hx : (Pool.empty.add definition).2.get? f = some x := hx
    rcases Pool.get?_add_cases hx with hold | ⟨-, rfl⟩
    · exact nomatch hold
    · have hundefined : vocabulary.value .undefined := value_of_ne_native fun _ h => nomatch h
      exact ⟨fun _ => hundefined, fun v hv => nomatch hv⟩
  callback hc hx := nomatch hx
  resolution hsite := hsite.elim

/-- The world has all that the tree mentions. -/
lemma provides : world.Provides ⟨0⟩ vocabulary where
  grounds := grounds
  memory := alikeMemories
  shows := shows
  hosts := by
    refine ⟨fun {object} index hobject => ?_, fun h => h.elim⟩
    subst hobject
    exact Host.ApiClass.call_actsAlike (Host.consoleClass_actsAlike memory ⟨0⟩ ⟨0⟩) index

end LaterKey

/-- A function that reads a key prints that there is no such property, also when the key is interned
and another function has its name meanwhile. -/
theorem later_key_changes_nothing :
    ∃ u, (Evaluator.shared 9).evaluateTree (.top ⟨0⟩) LaterKey.printing
        (Binding.runAll ⟨0⟩ LaterKey.world LaterKey.bindings) = .done (.normal, .undefined) u ∧
      (u.memory.printer ⟨0⟩).output = "undefined\n" := by
  have hprinting : LaterKey.vocabulary.tree LaterKey.printing := by simp [LaterKey.vocabulary]
  have hbindings : ∀ b ∈ LaterKey.bindings, b.Spares LaterKey.world LaterKey.vocabulary := by
    simp [LaterKey.bindings, Binding.Spares]
  obtain ⟨u, hsame, halike⟩ :=
    bindings_change_nothing 9 (.top ⟨0⟩) LaterKey.provides hprinting hbindings
  have hvalue : ((Evaluator.shared 9).evaluateTree (.top ⟨0⟩) LaterKey.printing
      LaterKey.world).value? = some (.normal, .undefined) := by decide +kernel
  have houtput : (((Evaluator.shared 9).evaluateTree (.top ⟨0⟩) LaterKey.printing
      LaterKey.world).state.memory.printer ⟨0⟩).output = "undefined\n" := by decide +kernel
  refine ⟨u, hsame.trans ?_, ?_⟩
  · generalize (Evaluator.shared 9).evaluateTree (.top ⟨0⟩) LaterKey.printing LaterKey.world = o
      at hvalue
    cases o with
    | done p s =>
      obtain rfl := Option.some.inj hvalue
      rfl
    | failed err s => cases hvalue
    | diverged => cases hvalue
  · rw [← houtput]
    unfold Memory.printer
    rw [halike.memory.printers]

/-! ### What later bindings can change -/

namespace Telltale

/-- An object whose property has a name that the interner of the engine has yet to give out. -/
def bag : PropertyBag :=
  NameMap.insert ∅ ⟨4⟩ (.bool true)

/-- A class whose functions tell whether the engine has a function `f`, and whether the interner has
given out four names. -/
def observer : Host.ApiClass :=
  ((Host.ApiClass.named "Observer").addFunction ⟨1⟩ 0 fun _ =>
      .inspectFrame "f" fun view => .succeed (.bool view.isSome)).addFunction ⟨2⟩ 0 fun _ =>
    .read fun m => .succeed (.bool ((m.interner ⟨0⟩).size == 4))

/-- One engine with the class and the object. -/
def world : World :=
  { LaterKey.world with
    memory := { LaterKey.world.memory with objects := (Pool.empty.add bag).2 }
    natives := (Pool.empty.add observer).2 }

/-- The call of the function of the class at a position. -/
def observation (index : ℕ) : Tree :=
  .expr (.unlocated (.apiCall ⟨⟨0⟩, "Observer"⟩ .empty ⟨index, 0⟩ []))

/-- The expression `x["late"]`, and the calls of both functions. -/
def trees : List Tree :=
  [.expr LaterKey.reading, observation 0, observation 1]

/-- The values of the trees. -/
def values (w : World) : List (Option Value) :=
  trees.map fun t => ((Evaluator.shared 3).evaluateTree (.top ⟨0⟩) t w).value?.map Prod.snd

end Telltale

/-- When a text is interned and a function is defined, a property under a name of another
interner appears, and host functions that ask for functions or for the number of names tell
something else. -/
theorem later_bindings_can_be_told :
    Telltale.values Telltale.world = [some .undefined, some (.bool false), some (.bool true)] ∧
      Telltale.values (Binding.runAll ⟨0⟩ Telltale.world [.intern "late", .defineFunction "f" []]) =
        [some (.bool true), some (.bool true), some (.bool false)] := by
  decide +kernel

end ScriptEngine
