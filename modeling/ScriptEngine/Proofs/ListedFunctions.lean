import ScriptEngine.Proofs.Teardown

/-!
# The functions in the tables of engines

An engine refers to its functions by number.  A number that is in the table of an engine always
refers to a function that exists: a function comes into a table when it is defined, and a release
leaves what an engine holds.  This is an invariant of all worlds that steps of evaluations and
arrangements of a host lead to, as long as the host leaves it to the release to find out what nothing
holds any more.

Main statement: `World.Attained.listed`.
-/

namespace ScriptEngine

open Pairing (Anything)

/-- A value of a table after an insertion is the new one or was there before. -/
lemma NameMap.mem_values_insert {α : Type} {m : NameMap α} {n : Name} {a b : α}
    (h : b ∈ (m.insert n a).values) : b = a ∨ b ∈ m.values := by
  have hentries : ∀ es : List (Name × α), b ∈ (insertEntry n a es).map Prod.snd →
      b = a ∨ b ∈ es.map Prod.snd := by
    intro es hb
    induction es with
    | nil => exact .inl (List.mem_singleton.1 hb)
    | cons entry rest ih =>
      unfold insertEntry at hb
      split at hb
      · exact (List.mem_cons.1 hb).imp_right (List.mem_cons_of_mem _)
      · rcases List.mem_cons.1 hb with rfl | hb
        · exact .inr List.mem_cons_self
        · exact (ih hb).imp_right (List.mem_cons_of_mem _)
  exact hentries m.entries h

/-! ### Attained worlds -/

/-- A function is released only as one of those that nothing holds. -/
def Arrangement.SparesHeld : Arrangement → Prop
  | bind _ (.releaseFunction _) => False
  | _ => True

namespace World

/-- The world comes from the empty one by steps of evaluations and by arrangements. -/
inductive Attained : World → Prop
  | empty : Attained .empty
  | change {w w' : World} (h : Attained w) (hchange : w.Change w') : Attained w'
  | enter {w : World} (h : Attained w) (a : Activity) : Attained (a.enter w)
  | leave {w : World} (h : Attained w) (a : Activity) : Attained (a.leave w)
  | arrange {w : World} (h : Attained w) {a : Arrangement} (ha : a.SparesHeld) : Attained (a.run w)

/-- Each function in the table of an engine exists. -/
def Listed (w : World) : Prop :=
  ∀ d x, w.engines.get? d = some x → ∀ f ∈ x.functions.values, (w.function? f).isSome

variable {w w' : World}

/-- The live engines are those that were made and not dropped. -/
lemma mem_liveEngines {x : Engine} : x ∈ w.liveEngines ↔ ∃ d, w.engines.get? d = some x := by
  simp only [liveEngines, List.mem_filterMap, Pool.mem_ids]
  constructor
  · rintro ⟨d, -, hd⟩
    exact ⟨d, hd⟩
  · rintro ⟨d, hd⟩
    exact ⟨d, Option.isSome_iff_exists.2 ⟨x, hd⟩, hd⟩

/-! ### What keeps the tables -/

namespace Listed

/-- The second world lists nothing new, and nothing is gone in it. -/
lemma of_fewer (h : w.Listed)
    (hengines : ∀ d x', w'.engines.get? d = some x' →
      ∃ x, w.engines.get? d = some x ∧ x'.functions.values ⊆ x.functions.values)
    (hfunctions : ∀ f, (w.function? f).isSome → (w'.function? f).isSome) : w'.Listed := by
  intro d x' hx' f hf
  obtain ⟨x, hx, hsubset⟩ := hengines d x' hx'
  exact hfunctions f (h d x hx f (hsubset hf))

/-- The engines are the same. -/
lemma of_engines (h : w.Listed) (hengines : w'.engines = w.engines)
    (hfunctions : ∀ f, (w.function? f).isSome → (w'.function? f).isSome) : w'.Listed :=
  h.of_fewer (fun _ x' hx' => ⟨x', hengines ▸ hx', List.Subset.refl _⟩) hfunctions

/-- Nothing is changed but what evaluations change. -/
lemma of_code (h : w.Listed) (hcode : w'.code = w.code) : w'.Listed := by
  have hengine (d) : (w'.engines.get? d).map (·.code) = (w.engines.get? d).map (·.code) :=
    congrFun (congrArg Code.engine? hcode) d
  have hfunction (f) : (w'.function? f).map (·.code) = (w.function? f).map (·.code) :=
    congrFun (congrArg Code.function? hcode) f
  refine h.of_fewer (fun d x' hx' => ?_) fun f hf => ?_
  · obtain ⟨x, hx, hxx'⟩ : ∃ x, w.engines.get? d = some x ∧ x.code = x'.code := by
      rw [← Option.map_eq_some_iff, ← hengine, hx', Option.map_some]
    have htable : x.functions = x'.functions := congrArg (·.functions) hxx'
    exact ⟨x, hx, htable ▸ List.Subset.refl _⟩
  · rwa [← Option.isSome_map, hfunction, Option.isSome_map]

/-- Something other than its functions is changed in an engine. -/
lemma modifyEngine (h : w.Listed) (d : Id .engine) {change : Engine → Engine}
    (hchange : ∀ x, (change x).functions = x.functions) : (w.modifyEngine d change).Listed := by
  refine h.of_fewer (fun d' x' hx' => ?_) fun _ => id
  rcases Pool.get?_update_cases hx' with ⟨-, x, hx, rfl⟩ | ⟨-, hx⟩
  · exact ⟨x, hx, hchange x ▸ List.Subset.refl _⟩
  · exact ⟨x', hx, List.Subset.refl _⟩

/-- A function is changed. -/
lemma modifyFunction (h : w.Listed) (f : Id .function)
    (change : FunctionInstance → FunctionInstance) : (w.modifyFunction f change).Listed := by
  refine h.of_engines rfl fun g hg => ?_
  rw [function?_modifyFunction]
  split
  · rwa [Option.isSome_map]
  · exact hg

/-- Texts are interned. -/
lemma internAll (h : w.Listed) (e : Id .engine) (texts : List String) :
    (w.internAll e texts).2.Listed := by
  rw [internAll_eq]
  exact h.of_engines rfl fun _ => id

/-- A function that exists comes into the table of an engine. -/
lemma insertFunction (h : w.Listed) (e : Id .engine) (n : Name) {f : Id .function}
    (hf : (w.function? f).isSome) :
    (w.modifyEngine e fun x => { x with functions := x.functions.insert n f }).Listed := by
  intro d x' hx' g hg
  rcases Pool.get?_update_cases hx' with ⟨-, x, hx, rfl⟩ | ⟨-, hx⟩
  · rcases NameMap.mem_values_insert hg with rfl | hg
    · exact hf
    · exact h d x hx g hg
  · exact h d x' hx g hg

/-- A function is defined, and comes into the table when it exists. -/
lemma defineFunction (h : w.Listed) (e : Id .engine) (name : String) (parameters : List String) :
    (w.defineFunction e name parameters).2.Listed := by
  have hadd : ∀ (w : World) (x : FunctionInstance), w.Listed →
      World.Listed { w with functions := (w.functions.add x).2 } := by
    refine fun w x hw => hw.of_engines rfl fun f hf => ?_
    obtain ⟨y, hy⟩ := Option.isSome_iff_exists.1 hf
    change ((w.functions.add x).2.get? f).isSome
    rwa [Pool.get?_add, if_neg (Nat.ne_of_lt (Pool.index_lt_of_get? hy))]
  have hnames := internAll (w := (w.intern e name).2) (h.of_engines rfl fun _ => id) e parameters
  have hnew : ∀ (p : Pool .function FunctionInstance) (x : FunctionInstance),
      ((p.add x).2.get? (p.add x).1).isSome :=
    fun p x => Option.isSome_iff_exists.2 ⟨x, p.get?_add_self x⟩
  exact (hadd _ _ hnames).insertFunction e _ (hnew _ _)

/-- An engine is made, with an empty table. -/
lemma newEngine (h : w.Listed) (config : EngineConfig) (shared : Option (Id .interner)) :
    (w.newEngine config shared).2.Listed := by
  have hadd : ∀ (x : Engine) (memory : Memory), x.functions = ∅ →
      World.Listed { w with memory, engines := (w.engines.add x).2 } := by
    intro x memory hempty d x' hx'
    rcases Pool.get?_add_cases hx' with hold | ⟨-, rfl⟩
    · exact h d x' hold
    · rw [hempty]
      exact fun _ hf => absurd hf List.not_mem_nil
  have hclass : ∀ (w : World) (d : Id .engine) (c : Host.ApiClass), w.Listed →
      (w.registerApiClass d c).2.Listed := by
    intro w d c hw
    have hnative : ((w.intern d c.name).2.addNative c).2.Listed := hw
    exact hnative.modifyEngine d fun _ => rfl
  have hmemory : ∀ (w : World) (memory : Memory), w.Listed → World.Listed { w with memory } :=
    fun _ _ hw => hw.of_engines rfl fun _ => id
  exact hclass _ _ _ (hmemory _ _ (hclass _ _ _ (hadd _ _ rfl)))

/-- An operation of a front end, which destroys no function. -/
lemma bind (h : w.Listed) (e : Id .engine) {b : Binding}
    (hb : (Arrangement.bind e b).SparesHeld) : (b.run e w).Listed := by
  have hintern (text : String) : (w.intern e text).2.Listed := h.of_engines rfl fun _ => id
  cases b with
  | intern text => exact hintern text
  | declareRegister name => exact (hintern name).modifyEngine e fun _ => rfl
  | registerApiClass c =>
    have hnative : ((w.intern e c.name).2.addNative c).2.Listed := hintern c.name
    exact hnative.modifyEngine e fun _ => rfl
  | defineFunction name parameters => exact h.defineFunction e name parameters
  | defineCallback name parameters =>
    have hnames := internAll (hintern name) e parameters
    have hcallback : ∀ (w : World) (x : CallbackInstance), w.Listed →
        World.Listed { w with callbacks := (w.callbacks.add x).2 } :=
      fun _ _ hw => hw.of_engines rfl fun _ => id
    exact (hcallback _ _ hnames).modifyEngine e fun _ => rfl
  | declareSnippet d => exact (hintern d.name).modifyEngine e fun _ => rfl
  | bindCall f args l =>
    rcases Binding.run_bindCall e w args l f with hrun | hrun <;> rw [hrun]
    · exact h
    · exact h.modifyFunction f _
  | bindApiCall className function args l =>
    rcases Binding.run_bindApiCall e w args l className function with hrun | hrun <;> rw [hrun]
    · exact h
    · exact hintern function
  | bindConstant className constant l =>
    rcases Binding.run_bindConstant e w l className constant with hrun | hrun <;> rw [hrun]
    · exact h
    · exact hintern constant
  | bindObjectCall target function args l =>
    rcases Binding.run_bindObjectCall e w args l target function with hrun | hrun <;> rw [hrun]
    · exact h
    · exact (hintern function).of_engines rfl fun _ => id
  | bindSnippetCall snippet args l =>
    rw [Binding.run_bindSnippetCall]
    exact h
  | attachBody f body => exact h.modifyFunction f _
  | attachCallbackBody | releaseCallback => exact h.of_engines rfl fun _ => id
  | releaseFunction => exact hb.elim

/-- A release leaves what engines hold. -/
lemma settle (h : w.Listed) (held : Holdings) : (w.settle held).Listed := by
  intro d x hx f hf
  rw [(w.loses_settle held).engines] at hx
  have hroot : (w.releaseCallbacks held).Roots held f :=
    .inr (.inl ⟨x, mem_liveEngines.2 ⟨d, hx⟩, hf⟩)
  exact isSome_function?_settle.2 ⟨h d x hx f hf, f, .inl hroot, .refl⟩

/-- An engine is dropped, and its table with it. -/
lemma dropEngine (h : w.Listed) (e : Id .engine) : (w.dropEngine e).Listed := by
  refine h.of_fewer (fun d x' hx' => ?_) fun f hf => ?_
  · rw [engines_dropEngine] at hx'
    exact ⟨x', (Pool.get?_release_eq_some hx').2, List.Subset.refl _⟩
  · rw [function?_dropEngine]
    split
    · rwa [Option.isSome_map]
    · exact hf

/-- An arrangement that spares what is held. -/
lemma arrange (h : w.Listed) {a : Arrangement} (ha : a.SparesHeld) : (a.run w).Listed := by
  cases a with
  | bind e b => exact h.bind e ha
  | newEngine config shared => exact h.newEngine config shared
  | dropEngine e => exact h.dropEngine e
  | settle held => exact h.settle held
  | comment f text => exact h.modifyFunction f _
  | drainReports e => exact h.modifyEngine e fun _ => rfl
  | addNative | changeMemory => exact h.of_engines rfl fun _ => id

end Listed

namespace Attained

/-- In all worlds that are attained, each function in the table of an engine exists. -/
theorem listed (h : w.Attained) : w.Listed := by
  induction h with
  | empty => exact fun _ _ hx => nomatch hx
  | change _ hchange ih => exact ih.of_code hchange.code_eq
  | enter _ a ih => exact ih.of_code (a.code_enter _)
  | leave _ a ih => exact ih.of_code (a.code_leave _)
  | arrange _ ha ih => exact ih.arrange ha

/-- Operations that spare what is held lead to worlds that are attained. -/
lemma arrangeAll (h : w.Attained) {arrangements : List Arrangement}
    (harrangements : ∀ a ∈ arrangements, a.SparesHeld) :
    (w.arrangeAll arrangements).Attained := by
  induction arrangements generalizing w with
  | nil => exact h
  | cons a rest ih =>
    obtain ⟨ha, hrest⟩ := List.forall_mem_cons.1 harrangements
    exact ih (h.arrange ha) hrest

/-- Runs of a host that spares what is held lead to worlds that are attained. -/
theorem takeAll (h : w.Attained) (bound : ℕ) {turns : List Turn}
    (hturns : ∀ a, .arrange a ∈ turns → a.SparesHeld) :
    ((Evaluator.shared bound).takeAll id turns w).state.Attained := by
  have hsteps : Machine.shared.Upkeep (fun _ _ => True) Attained :=
    .of_steps (fun k _ hw => hw.change (k.change _)) (fun _ _ _ _ _ _ _ => trivial)
      (fun _ _ _ hw => hw) (fun _ _ hw => hw) (fun a _ _ hw => hw.enter a) fun a _ hw => hw.leave a
  have hturn : ∀ turn ∈ turns, ((Evaluator.shared bound).take id turn).KeepsUp Attained Anything :=
    fun turn hmem => hsteps.take bound id fun a ha _ hw => hw.arrange (hturns a (ha ▸ hmem))
  exact (Evaluator.takeAll_keepsUp_of_mem hturn w h).1

end Attained

/-- The engine of a world that is attained refers to functions that exist. -/
lemma Listed.engine (h : w.Listed) (e : Id .engine) {f : Id .function}
    (hf : f ∈ (w.engine e).functions.values) : (w.function? f).isSome := by
  unfold World.engine at hf
  cases hx : w.engines.get? e with
  | none =>
    rw [hx] at hf
    exact absurd hf List.not_mem_nil
  | some x =>
    rw [hx] at hf
    exact h e x hx f hf

end World

end ScriptEngine
