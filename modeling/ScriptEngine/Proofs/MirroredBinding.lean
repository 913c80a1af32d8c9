import ScriptEngine.Binding
import ScriptEngine.Proofs.MirroredEvaluation

/-!
# Mirrored binding

What a front end asks of two engines that mirror each other has the same answers, up to numbers: the
same slots, snippets and refusals, and references and calls that mirror each other.  The renaming
grows by what is defined, and by the names that are interned.

Main statements: one lemma for each request, in the namespace `World.Mirrors`.
-/

namespace ScriptEngine

variable {Γ : Surroundings} {ρ ρ' : Renaming}

/-- What is given is related, and the worlds mirror each other, under a renaming that may have
grown. -/
def World.Agree (Γ : Surroundings) {α α' : Type} (R : Renaming → α → α' → Prop) (ρ : Renaming)
    (x : α × World) (x' : α' × World) : Prop :=
  ∃ ρ', ρ ≤ ρ' ∧ R ρ' x.1 x'.1 ∧ x.2.Mirrors Γ ρ' x'.2

/-- The renaming may have grown before. -/
lemma World.Agree.of_le {α α' : Type} {R : Renaming → α → α' → Prop} {x : α × World}
    {x' : α' × World}
    (hle : ρ ≤ ρ') (h : Agree Γ R ρ' x x') : Agree Γ R ρ x x' := by
  obtain ⟨ρ₂, hle₂, hx, hw⟩ := h
  exact ⟨ρ₂, hle.trans hle₂, hx, hw⟩

/-- At one position, there are names that mirror each other. -/
lemma Names.Mirrors.getElem? {ns ns' : List Name} (hns : Names.Mirrors ρ ns ns') (i : ℕ) :
    Option.Rel (Name.Mirrors ρ) ns[i]? ns'[i]? := by
  induction hns generalizing i with
  | nil => exact .none
  | cons hn _ ih =>
    cases i with
    | zero => exact .some hn
    | succ i => exact ih i

/-- Engines that have just been started on the interners of the renaming. -/
lemma Engine.Mirrors.blank {config : EngineConfig} {i i' : Id .interner} (hi : i = ρ.own)
    (hi' : i' = ρ.shared) (hcompiler : config.compiler.IsUniform ρ.clock) {p p' : Id .printer}
    (hp : p.Mirrors ρ p') {n n' : Name} (hn : n.Mirrors ρ n') :
    Engine.Mirrors ρ
      ⟨i, config.maxCallDepth, config.reporter, p, config.compiler, .empty, ∅, ∅, ∅, ∅, ∅, n⟩
      ⟨i', config.maxCallDepth, config.reporter, p', config.compiler, .empty, ∅, ∅, ∅, ∅, ∅,
        n'⟩ where
  interner := hi
  interner' := hi'
  maxCallDepth := rfl
  reporter := rfl
  printer := hp
  compiler := rfl
  uniform := hcompiler
  register := .nil
  globals := .empty
  functions := .empty
  callbacks := .empty
  snippets := .empty
  apiClasses := .empty
  lengthName := hn

namespace World.Mirrors

variable {w w' : World} (h : w.Mirrors Γ ρ w')

include h

/-! ### New things -/

/-- A class is added on both sides. -/
lemma addNative {c c' : Host.ApiClass} (hc : c.Mirrors ρ c') :
    Agree Γ NativeRef.Mirrors ρ (w.addNative c) (w'.addNative c') := by
  obtain ⟨hnatives, hnew⟩ := h.natives.add _ _ hc
  refine ⟨_, Renaming.le_addId, ⟨hnew, hc.name⟩, ?_⟩
  exact h.regrow Renaming.le_addId (h.memory_addId id) hnatives (h.functions.elsewhere nofun)
    (h.callbacks.elsewhere nofun) (h.objectCalls.elsewhere nofun)
    (Renaming.ids_addId_of_ne nofun) rfl rfl

/-- A function is added on both sides. -/
lemma addFunction {f f' : FunctionInstance} (hf : f.Mirrors ρ f') :
    Agree Γ (fun ρ => Id.Mirrors ρ) ρ
      ((w.functions.add f).1, { w with functions := (w.functions.add f).2 })
      ((w'.functions.add f').1, { w' with functions := (w'.functions.add f').2 }) := by
  obtain ⟨hfunctions, hnew⟩ := h.functions.add _ _ hf
  refine ⟨_, Renaming.le_addId, hnew, ?_⟩
  exact h.regrow Renaming.le_addId (h.memory_addId id) (h.natives.elsewhere nofun) hfunctions
    (h.callbacks.elsewhere nofun) (h.objectCalls.elsewhere nofun)
    (Renaming.ids_addId_of_ne nofun) rfl rfl

/-- A callback is added on both sides. -/
lemma addCallback {c c' : CallbackInstance} (hc : c.Mirrors ρ c') :
    Agree Γ (fun ρ => Id.Mirrors ρ) ρ
      ((w.callbacks.add c).1, { w with callbacks := (w.callbacks.add c).2 })
      ((w'.callbacks.add c').1, { w' with callbacks := (w'.callbacks.add c').2 }) := by
  obtain ⟨hcallbacks, hnew⟩ := h.callbacks.add _ _ hc
  refine ⟨_, Renaming.le_addId, hnew, ?_⟩
  exact h.regrow Renaming.le_addId (h.memory_addId id) (h.natives.elsewhere nofun)
    (h.functions.elsewhere nofun) hcallbacks (h.objectCalls.elsewhere nofun)
    (Renaming.ids_addId_of_ne nofun) rfl rfl

/-- An object call is added on both sides; it is not resolved yet. -/
lemma addObjectCall :
    Agree Γ (fun ρ => Id.Mirrors ρ) ρ
      ((w.objectCalls.add none).1, { w with objectCalls := (w.objectCalls.add none).2 })
      ((w'.objectCalls.add none).1, { w' with objectCalls := (w'.objectCalls.add none).2 }) := by
  obtain ⟨hobjectCalls, hnew⟩ := h.objectCalls.add none none .none
  refine ⟨_, Renaming.le_addId, hnew, ?_⟩
  exact h.regrow Renaming.le_addId (h.memory_addId id) (h.natives.elsewhere nofun)
    (h.functions.elsewhere nofun) (h.callbacks.elsewhere nofun) hobjectCalls
    (Renaming.ids_addId_of_ne nofun) rfl rfl

/-- An engine is added on both sides. -/
lemma addEngine {e e' : Engine} (he : e.Mirrors ρ e') :
    Agree Γ (fun ρ => Id.Mirrors ρ) ρ
      ((w.engines.add e).1, { w with engines := (w.engines.add e).2 })
      ((w'.engines.add e').1, { w' with engines := (w'.engines.add e').2 }) := by
  obtain ⟨hengines, hnew⟩ := h.engines.add _ _ he
  refine ⟨_, Renaming.le_addId, hnew, ?_⟩
  exact {
    memory := h.memory_addId id
    natives := h.natives.imp (Renaming.ids_addId_of_ne nofun) fun _ _ _ hc =>
      hc.mono Renaming.le_addId
    functions := h.functions.imp (Renaming.ids_addId_of_ne nofun) fun _ _ _ hf =>
      hf.mono Renaming.le_addId
    callbacks := h.callbacks.imp (Renaming.ids_addId_of_ne nofun) fun _ _ _ hc =>
      hc.mono Renaming.le_addId
    engines := hengines.imp rfl fun _ _ _ he => he.mono Renaming.le_addId
    objectCalls := h.objectCalls.imp (Renaming.ids_addId_of_ne nofun) fun _ _ _ hr =>
      optionRel_imp hr fun _ _ hr => hr.mono Renaming.le_addId
    alive := fun {i i'} hi => by
      change (Pool.get? (Pool.add _ _).2 _).isSome
      rcases Renaming.mirrors_addId_cases hi with hold | ⟨hindex, -⟩
      · rw [Pool.get?_add]
        split
        · rfl
        · exact h.alive hold
      · rw [Pool.get?_add, if_pos (hindex.trans h.engines.size.symm)]
        rfl }

/-! ### Names -/

variable {e e' : Id .engine} (he : e.Mirrors ρ e')

include he

lemma intern (s : String) : Agree Γ Name.Mirrors ρ (w.intern e s) (w'.intern e' s) := by
  obtain ⟨ρ', hgrows, hn, hm⟩ := h.memory.intern s
  unfold World.intern
  rw [(h.engine he).interner, (h.engine he).interner']
  exact ⟨ρ', hgrows.le, hn, h.withMemory hgrows hm⟩

lemma internAll (ss : List String) :
    Agree Γ Names.Mirrors ρ (w.internAll e ss) (w'.internAll e' ss) := by
  induction ss generalizing ρ w w' with
  | nil => exact ⟨ρ, le_rfl, .nil, h⟩
  | cons s rest ih =>
    obtain ⟨ρ₁, hle₁, hn, h₁⟩ := h.intern he s
    obtain ⟨ρ₂, hle₂, hns, h₂⟩ := ih h₁ (he.mono hle₁)
    exact ⟨ρ₂, hle₁.trans hle₂, .cons (hn.mono hle₂) hns, h₂⟩

/-! ### Definitions -/

lemma declareRegister (name : String) :
    Agree Γ (fun _ => Eq) ρ (w.declareRegister e name) (w'.declareRegister e' name) := by
  obtain ⟨ρ₁, hle₁, hn, h₁⟩ := h.intern he name
  have he₁ := he.mono hle₁
  obtain ⟨hslot, hregister⟩ := (h₁.engine he₁).register.declare hn
  exact ⟨ρ₁, hle₁, hslot.symm, h₁.modifyEngine he₁ fun _ _ hx => { hx with register := hregister }⟩

lemma registerApiClass {c c' : Host.ApiClass} (hc : c.Mirrors ρ c') :
    Agree Γ NativeRef.Mirrors ρ (w.registerApiClass e c) (w'.registerApiClass e' c') := by
  obtain ⟨ρ₁, hle₁, hn, h₁⟩ := h.intern he c.name
  obtain ⟨ρ₂, hle₂, ho, h₂⟩ := h₁.addNative (hc.mono hle₁)
  have hle := hle₁.trans hle₂
  unfold World.registerApiClass
  rw [hc.name]
  exact ⟨ρ₂, hle, ho, h₂.modifyEngine (he.mono hle) fun _ _ hx =>
    { hx with apiClasses := hx.apiClasses.insert (hn.mono hle₂) ho }⟩

lemma defineFunction (name : String) (parameters : List String) :
    Agree Γ (fun ρ => Id.Mirrors ρ) ρ (w.defineFunction e name parameters)
      (w'.defineFunction e' name parameters) := by
  obtain ⟨ρ₁, hle₁, hn, h₁⟩ := h.intern he name
  obtain ⟨ρ₂, hle₂, hps, h₂⟩ := h₁.internAll (he.mono hle₁) parameters
  obtain ⟨ρ₃, hle₃, hf, h₃⟩ := h₂.addFunction (.define (hn.mono hle₂) name hps parameters)
  have hle := (hle₁.trans hle₂).trans hle₃
  exact ⟨ρ₃, hle, hf, h₃.modifyEngine (he.mono hle) fun _ _ hx =>
    { hx with functions := hx.functions.insert (hn.mono (hle₂.trans hle₃)) hf }⟩

lemma defineCallback (name : String) (parameters : List String) :
    Agree Γ (fun ρ => Id.Mirrors ρ) ρ (w.defineCallback e name parameters)
      (w'.defineCallback e' name parameters) := by
  obtain ⟨ρ₁, hle₁, hn, h₁⟩ := h.intern he name
  obtain ⟨ρ₂, hle₂, hps, h₂⟩ := h₁.internAll (he.mono hle₁) parameters
  obtain ⟨ρ₃, hle₃, hc, h₃⟩ := h₂.addCallback (.define (hn.mono hle₂) name hps)
  have hle := (hle₁.trans hle₂).trans hle₃
  exact ⟨ρ₃, hle, hc, h₃.modifyEngine (he.mono hle) fun _ _ hx =>
    { hx with callbacks := hx.callbacks.insert (hn.mono (hle₂.trans hle₃)) hc }⟩

/-- A snippet is compiled to the same code on both sides. -/
lemma declareSnippet (d : SnippetDeclaration) :
    Agree Γ (fun ρ s s' => s' = s ∧ s.IsUniform ρ.clock) ρ (w.declareSnippet e d)
      (w'.declareSnippet e' d) := by
  obtain ⟨ρ₁, hle₁, hn, h₁⟩ := h.intern he d.name
  have he₁ := he.mono hle₁
  have hengine := h₁.engine he₁
  have hsnippet : Snippet.compile ((w'.intern e' d.name).2.engine e').compiler d =
      Snippet.compile ((w.intern e d.name).2.engine e).compiler d := by
    rw [hengine.compiler]
  have huniform := hengine.uniform.compile d
  exact ⟨ρ₁, hle₁, ⟨hsnippet, huniform⟩, h₁.modifyEngine he₁ fun _ _ hx =>
    { hx with snippets := hx.snippets.insert hn ⟨hsnippet, huniform⟩ }⟩

/-! ### References -/

lemma registerRef (name : String) :
    Agree Γ VarRef.Mirrors ρ (w.registerRef e name) (w'.registerRef e' name) := by
  obtain ⟨ρ₁, hle₁, hslot, h₁⟩ := h.declareRegister he name
  unfold World.registerRef
  dsimp only
  rw [← hslot]
  exact ⟨ρ₁, hle₁, .register _, h₁⟩

lemma globalRef (name : String) :
    Agree Γ VarRef.Mirrors ρ (w.globalRef e name) (w'.globalRef e' name) := by
  obtain ⟨ρ₁, hle₁, hn, h₁⟩ := h.intern he name
  exact ⟨ρ₁, hle₁, .global hn, h₁⟩

omit he in
lemma parameterRef? {f f' : Id .function} (hf : f.Mirrors ρ f') (index : ℕ) :
    Option.Rel (VarRef.Mirrors ρ) (w.parameterRef? f index) (w'.parameterRef? f' index) := by
  refine optionRel_bind (h.function? hf) fun x x' hx => ?_
  exact optionRel_bind (hx.parameters.getElem? index) fun n n' hn =>
    .some (.parameter hf index hn)

omit he in
lemma callbackParameterRef? {c c' : Id .callback} (hc : c.Mirrors ρ c') (index : ℕ) :
    Option.Rel (VarRef.Mirrors ρ) (w.callbackParameterRef? c index)
      (w'.callbackParameterRef? c' index) := by
  refine optionRel_bind (h.callback? hc) fun x x' hx => ?_
  exact optionRel_bind (hx.parameters.getElem? index) fun n n' hn =>
    .some (.callbackParameter hc index hn)

/-! ### Calls -/

/-- Calls that mirror each other, or the same refusal. -/
abbrev AgreeOnCall (Γ : Surroundings) :
    Renaming → Except EvalError Expr × World → Except EvalError Expr × World → Prop :=
  Agree Γ fun ρ => ExceptRel (Expr.Mirrors ρ)

omit he in
lemma refuse (l : Location) (cause : Cause) :
    AgreeOnCall Γ ρ (w.refuse l cause) (w'.refuse l cause) :=
  ⟨ρ, le_rfl, .error _, h⟩

lemma bindCall {f f' : Id .function} (hf : f.Mirrors ρ f') {es es' : List Expr}
    (hes : Exprs.Mirrors ρ es es') (l : Location) :
    AgreeOnCall Γ ρ (w.bindCall e f es l) (w'.bindCall e' f' es' l) := by
  have hx := h.functionOrDefault hf
  unfold World.bindCall
  dsimp only
  rw [hx.parameterCount, hes.length_eq, h.lookup he hx.name, hx.nextCallSite]
  split
  · exact h.refuse l _
  · exact ⟨ρ, le_rfl, .ok (.mk l (.call hf _ hes)), h.modifyFunction hf fun _ _ hx =>
      { hx with nextCallSite := congrArg CallSiteId.next hx.nextCallSite }⟩

lemma bindApiCall (className function : String) {es es' : List Expr}
    (hes : Exprs.Mirrors ρ es es') (l : Location) :
    AgreeOnCall Γ ρ (w.bindApiCall e className function es l)
      (w'.bindApiCall e' className function es' l) := by
  have hclass := h.apiClassNamed? he className
  obtain ⟨ρ₁, hle₁, hn, h₁⟩ := h.intern he function
  unfold World.bindApiCall
  rw [hes.length_eq]
  split
  · exact h.refuse l _
  · generalize w.apiClassNamed? e className = o, w'.apiClassNamed? e' className = o' at hclass
    cases hclass with
    | none => exact h.refuse l _
    | @some o o' ho =>
      have hslot := (h₁.apiClass (ho.mono hle₁)).slot? hn
      dsimp only
      rw [hslot]
      cases Host.ApiClass.slot? _ _ with
      | none => exact Agree.of_le hle₁ (h₁.refuse l _)
      | some slot =>
        exact ⟨ρ₁, hle₁, .ok (.mk l (.apiCall (ho.mono hle₁) hn slot
          (Exprs.Mirrors.mono hle₁ hes))), h₁⟩

lemma bindConstant (className constant : String) (l : Location) :
    AgreeOnCall Γ ρ (w.bindConstant e className constant l)
      (w'.bindConstant e' className constant l) := by
  have hclass := h.apiClassNamed? he className
  obtain ⟨ρ₁, hle₁, hn, h₁⟩ := h.intern he constant
  unfold World.bindConstant
  generalize w.apiClassNamed? e className = o, w'.apiClassNamed? e' className = o' at hclass
  cases hclass with
  | none => exact h.refuse l _
  | @some o o' ho =>
    have hconstant := (h₁.apiClass (ho.mono hle₁)).constants.get? hn
    dsimp only [Host.ApiClass.constant?]
    generalize NameMap.get? _ (w.intern e constant).1 = v,
      NameMap.get? _ (w'.intern e' constant).1 = v' at hconstant
    cases hconstant with
    | none => exact Agree.of_le hle₁ (h₁.refuse l _)
    | some hv => exact ⟨ρ₁, hle₁, .ok (.mk l (.apiConstant hv)), h₁⟩

lemma bindObjectCall {target target' : VarRef} (htarget : target.Mirrors ρ target')
    (function : String) {es es' : List Expr} (hes : Exprs.Mirrors ρ es es') (l : Location) :
    AgreeOnCall Γ ρ (w.bindObjectCall e target function es l)
      (w'.bindObjectCall e' target' function es' l) := by
  obtain ⟨ρ₁, hle₁, hn, h₁⟩ := h.intern he function
  obtain ⟨ρ₂, hle₂, hi, h₂⟩ := h₁.addObjectCall
  have hle := hle₁.trans hle₂
  unfold World.bindObjectCall
  rw [hes.length_eq]
  split
  · exact h.refuse l _
  · exact ⟨ρ₂, hle, .ok (.mk l (.objectCall hi (htarget.mono hle) (hn.mono hle₂)
      (Exprs.Mirrors.mono hle hes))), h₂⟩

omit he in
lemma bindSnippetCall {s : Snippet} (hs : s.IsUniform ρ.clock) {es es' : List Expr}
    (hes : Exprs.Mirrors ρ es es') (l : Location) :
    AgreeOnCall Γ ρ (w.bindSnippetCall s es l) (w'.bindSnippetCall s es' l) := by
  unfold World.bindSnippetCall
  rw [hes.length_eq]
  split
  · exact h.refuse l _
  · split
    · exact h.refuse l _
    · exact ⟨ρ, le_rfl, .ok (.mk l (.snippetCall hs hes)), h⟩

/-! ### Engines -/

omit he in
/-- Engines are started on both sides, on the interners of the renaming. -/
lemma newEngine {config : EngineConfig} (hcompiler : config.compiler.IsUniform ρ.clock) :
    Agree Γ (fun ρ => Id.Mirrors ρ) ρ (w.newEngine config (some ρ.own))
      (w'.newEngine config (some ρ.shared)) := by
  obtain ⟨ρ₁, hgrows₁, hprinter, hm₁⟩ := h.memory.newPrinter config.printer
  obtain ⟨ρ₂, hgrows₂, hlength, hm₂⟩ := hm₁.intern "length"
  rw [hgrows₁.le.1.1, hgrows₁.le.1.2.1] at hlength hm₂
  have hgrows := hgrows₁.trans hgrows₂
  obtain ⟨hown, hshared, hclock⟩ := hgrows.le.1
  obtain ⟨ρ₃, hle₃, he, h₃⟩ := (h.withMemory hgrows hm₂).addEngine
    (.blank hown.symm hshared.symm (hclock.symm ▸ hcompiler) (hprinter.mono hgrows₂.le) hlength)
  have hprinter₃ := (hprinter.mono hgrows₂.le).mono hle₃
  obtain ⟨ρ₄, hgrows₄, hconsole, hm₄⟩ := h₃.memory.consoleClass hprinter₃
  obtain ⟨ρ₅, hle₅, -, h₅⟩ :=
    (h₃.withMemory hgrows₄ hm₄).registerApiClass (he.mono hgrows₄.le) hconsole
  have hle₃₅ := hgrows₄.le.trans hle₅
  obtain ⟨ρ₆, hgrows₆, hmath, hm₆⟩ := h₅.memory.mathClass
  obtain ⟨ρ₇, hle₇, -, h₇⟩ := (h₅.withMemory hgrows₆ hm₆).registerApiClass
    ((he.mono hle₃₅).mono hgrows₆.le) hmath
  have hle₃₇ := hle₃₅.trans (hgrows₆.le.trans hle₇)
  have hle := hgrows.le.trans hle₃
  rw [(hle.trans hle₃₅).1.1, (hle.trans hle₃₅).1.2.1, hle.1.1, hle.1.2.1] at h₇
  exact ⟨ρ₇, hle.trans hle₃₇, he.mono hle₃₇, h₇⟩

end World.Mirrors

end ScriptEngine
