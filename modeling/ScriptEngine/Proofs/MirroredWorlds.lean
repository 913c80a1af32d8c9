import ScriptEngine.Proofs.MirroredHosts
import ScriptEngine.World

/-!
# Mirrored worlds

A world is mirrored by a second one if its memory, its API classes, its functions and callbacks, its
engines and the resolutions of its object calls are.  The first world has one interner, and no
engine of it has been dropped; the engines that mirror its engines all use the interner of the
images.

What the engine looks up in the first world, it looks up in the second one, and finds what mirrors
it: a text that only others have interned names nothing in the tables of an image
(`World.Mirrors.functionNamed?` and its like).  What it changes in the first world, it changes in
the second one; nothing foreign changes.
-/

namespace ScriptEngine

variable {ρ ρ' : Renaming}

/-! ### Parts of a world -/

/-- The names of two lists mirror each other. -/
abbrev Names.Mirrors (ρ : Renaming) : List Name → List Name → Prop :=
  List.Forall₂ (Name.Mirrors ρ)

/-- The functions differ in numbers alone. -/
structure FunctionInstance.Mirrors (ρ : Renaming) (f f' : FunctionInstance) : Prop where
  name : f.name.Mirrors ρ f'.name
  parameters : Names.Mirrors ρ f.parameters f'.parameters
  parameterNames : f'.parameterNames = f.parameterNames
  signature : f'.signature = f.signature
  comment : f'.comment = f.comment
  body : OptionStmt.Mirrors ρ f.body f'.body
  frame : f.frame.Mirrors ρ f'.frame
  nextCallSite : f'.nextCallSite = f.nextCallSite
  locals : PropertyBag.Mirrors ρ f.locals f'.locals
  lastResult : f.lastResult.Mirrors ρ f'.lastResult

/-- The callbacks differ in numbers alone. -/
structure CallbackInstance.Mirrors (ρ : Renaming) (c c' : CallbackInstance) : Prop where
  name : c.name.Mirrors ρ c'.name
  displayName : c'.displayName = c.displayName
  parameters : Names.Mirrors ρ c.parameters c'.parameters
  arguments : Values.Mirrors ρ c.arguments c'.arguments
  locals : PropertyBag.Mirrors ρ c.locals c'.locals
  body : OptionStmt.Mirrors ρ c.body c'.body

/-- The registers have, at the same slots, names and values that mirror each other. -/
def Register.Mirrors (ρ : Renaming) (r r' : Register) : Prop :=
  List.Forall₂ (fun e e' => e.1.Mirrors ρ e'.1 ∧ e.2.Mirrors ρ e'.2) r.entries r'.entries

/-- The engines use the interners of the renaming, and their tables mirror each other. -/
structure Engine.Mirrors (ρ : Renaming) (e e' : Engine) : Prop where
  interner : e.interner = ρ.own
  interner' : e'.interner = ρ.shared
  maxCallDepth : e'.maxCallDepth = e.maxCallDepth
  reporter : e'.reporter = e.reporter
  printer : e.printer.Mirrors ρ e'.printer
  compiler : e'.compiler = e.compiler
  uniform : e.compiler.IsUniform ρ.clock
  register : e.register.Mirrors ρ e'.register
  globals : PropertyBag.Mirrors ρ e.globals e'.globals
  functions : NameMap.Mirrors ρ (Id.Mirrors ρ) e.functions e'.functions
  callbacks : NameMap.Mirrors ρ (Id.Mirrors ρ) e.callbacks e'.callbacks
  snippets : NameMap.Mirrors ρ (fun s s' => s' = s ∧ s.IsUniform ρ.clock) e.snippets e'.snippets
  apiClasses : NameMap.Mirrors ρ (NativeRef.Mirrors ρ) e.apiClasses e'.apiClasses
  lengthName : e.lengthName.Mirrors ρ e'.lengthName

/-- The object calls are resolved to the same slot of objects that mirror each other. -/
structure Resolution.Mirrors (ρ : Renaming) (r r' : Resolution) : Prop where
  object : r.1.Mirrors ρ r'.1
  slot : r'.2 = r.2

lemma Names.Mirrors.mono {ns ns' : List Name} (h : Names.Mirrors ρ ns ns') (hle : ρ ≤ ρ') :
    Names.Mirrors ρ' ns ns' :=
  h.imp fun _ _ hn => hn.mono hle

lemma FunctionInstance.Mirrors.mono {f f' : FunctionInstance} (h : f.Mirrors ρ f') (hle : ρ ≤ ρ') :
    f.Mirrors ρ' f' :=
  { h with
    name := h.name.mono hle
    parameters := h.parameters.mono hle
    body := OptionStmt.Mirrors.mono hle h.body
    frame := h.frame.mono hle
    locals := h.locals.mono hle
    lastResult := h.lastResult.mono hle }

lemma CallbackInstance.Mirrors.mono {c c' : CallbackInstance} (h : c.Mirrors ρ c') (hle : ρ ≤ ρ') :
    c.Mirrors ρ' c' :=
  { h with
    name := h.name.mono hle
    parameters := h.parameters.mono hle
    arguments := h.arguments.mono hle
    locals := h.locals.mono hle
    body := OptionStmt.Mirrors.mono hle h.body }

lemma Engine.Mirrors.mono {e e' : Engine} (h : e.Mirrors ρ e') (hle : ρ ≤ ρ') :
    e.Mirrors ρ' e' := by
  obtain ⟨hown, hshared, hclock⟩ := hle.1
  exact { h with
    interner := h.interner.trans hown.symm
    interner' := h.interner'.trans hshared.symm
    printer := h.printer.mono hle
    uniform := hclock.symm ▸ h.uniform
    register := List.Forall₂.imp (fun _ _ he => ⟨he.1.mono hle, he.2.mono hle⟩) h.register
    globals := h.globals.mono hle
    functions := h.functions.imp hle fun _ _ hf => hf.mono hle
    callbacks := h.callbacks.imp hle fun _ _ hc => hc.mono hle
    snippets := h.snippets.imp hle fun _ _ hs => ⟨hs.1, hclock.symm ▸ hs.2⟩
    apiClasses := h.apiClasses.imp hle fun _ _ ho => ho.mono hle
    lengthName := h.lengthName.mono hle }

lemma Resolution.Mirrors.mono {r r' : Resolution} (h : Resolution.Mirrors ρ r r') (hle : ρ ≤ ρ') :
    Resolution.Mirrors ρ' r r' :=
  ⟨h.object.mono hle, h.slot⟩

namespace FunctionInstance.Mirrors

variable {f f' : FunctionInstance}

lemma parameterCount (h : f.Mirrors ρ f') : f'.parameterCount = f.parameterCount :=
  h.parameters.length_eq.symm

lemma define {n n' : Name} (hn : n.Mirrors ρ n') (name : String) {ps ps' : List Name}
    (hps : Names.Mirrors ρ ps ps') (parameters : List String) :
    (FunctionInstance.define n name ps parameters).Mirrors ρ (.define n' name ps' parameters) where
  name := hn
  parameters := hps
  parameterNames := rfl
  signature := rfl
  comment := rfl
  body := .none
  frame := by
    rw [FunctionInstance.define, FunctionInstance.define, hps.length_eq]
    exact .idle _
  nextCallSite := rfl
  locals := .empty
  lastResult := .undefined

/-- What stands for a function that is missing. -/
lemma default (h : Name.empty.Mirrors ρ Name.empty) :
    (Inhabited.default : FunctionInstance).Mirrors ρ Inhabited.default where
  name := h
  parameters := .nil
  parameterNames := rfl
  signature := rfl
  comment := rfl
  body := .none
  frame := ⟨.nil, rfl, rfl⟩
  nextCallSite := rfl
  locals := .empty
  lastResult := .undefined

end FunctionInstance.Mirrors

namespace CallbackInstance.Mirrors

variable {c c' : CallbackInstance}

lemma parameterCount (h : c.Mirrors ρ c') : c'.parameterCount = c.parameterCount :=
  h.parameters.length_eq.symm

lemma define {n n' : Name} (hn : n.Mirrors ρ n') (name : String) {ps ps' : List Name}
    (hps : Names.Mirrors ρ ps ps') :
    (CallbackInstance.define n name ps).Mirrors ρ (.define n' name ps') where
  name := hn
  displayName := rfl
  parameters := hps
  arguments := by
    rw [CallbackInstance.define, CallbackInstance.define, hps.length_eq]
    exact (CallFrame.Mirrors.idle _).arguments
  locals := .empty
  body := .none

/-- What stands for a callback that is missing. -/
lemma default (h : Name.empty.Mirrors ρ Name.empty) :
    (Inhabited.default : CallbackInstance).Mirrors ρ Inhabited.default :=
  ⟨h, rfl, .nil, .nil, .empty, .none⟩

/-- An invocation starts on both sides. -/
lemma enter (h : c.Mirrors ρ c') {args args' : List Value} (hargs : Values.Mirrors ρ args args') :
    (c.enter args).Mirrors ρ (c'.enter args') where
  name := h.name
  displayName := h.displayName
  parameters := h.parameters
  arguments := by
    rw [CallbackInstance.enter, CallbackInstance.enter, h.arguments.length_eq, hargs.length_eq]
    exact List.rel_append (List.forall₂_take _ hargs) (CallFrame.Mirrors.idle _).arguments
  locals := .empty
  body := h.body

end CallbackInstance.Mirrors

namespace Register.Mirrors

variable {r r' : Register}

lemma size (h : r.Mirrors ρ r') : r'.size = r.size := by
  have hlength := h.length_eq
  exact hlength.symm

/-- At one slot, there are entries that mirror each other. -/
lemma slot? (h : r.Mirrors ρ r') (i : ℕ) :
    Option.Rel (fun e e' => e.1.Mirrors ρ e'.1 ∧ e.2.Mirrors ρ e'.2) r.slots[i]? r'.slots[i]? := by
  rw [← Array.getElem?_toList, ← Array.getElem?_toList]
  unfold Mirrors entries at h
  generalize r.slots.toList = es, r'.slots.toList = es' at h
  induction h generalizing i with
  | nil => exact .none
  | cons he _ ih =>
    cases i with
    | zero => exact .some he
    | succ i => exact ih i

lemma get (h : r.Mirrors ρ r') (i : ℕ) : (r.get i).Mirrors ρ (r'.get i) := by
  have hslot := h.slot? i
  unfold Register.get
  generalize r.slots[i]? = e, r'.slots[i]? = e' at hslot
  cases hslot with
  | none => exact .undefined
  | some he => exact he.2

lemma name? (h : r.Mirrors ρ r') (i : ℕ) :
    Option.Rel (Name.Mirrors ρ) (r.name? i) (r'.name? i) := by
  have hslot := h.slot? i
  unfold Register.name?
  generalize r.slots[i]? = e, r'.slots[i]? = e' at hslot
  cases hslot with
  | none => exact .none
  | some he => exact .some he.1

/-- Names that mirror each other have the same slot. -/
lemma index? (h : r.Mirrors ρ r') {n n' : Name} (hn : n.Mirrors ρ n') :
    r'.index? n' = r.index? n := by
  rw [Register.index?_eq, Register.index?_eq]
  unfold Mirrors at h
  generalize r.entries = es, r'.entries = es' at h
  induction h with
  | nil => rfl
  | @cons e e' _ _ he _ ih =>
    have hsame : (e'.1 == n') = (e.1 == n) :=
      Bool.eq_iff_iff.2 (beq_iff_eq.trans ((he.1.eq_iff hn).trans beq_iff_eq.symm))
    rw [List.findIdx?_cons, List.findIdx?_cons, hsame, ih]

lemma set (h : r.Mirrors ρ r') (i : ℕ) {v v' : Value} (hv : v.Mirrors ρ v') :
    (r.set i v).Mirrors ρ (r'.set i v') := by
  unfold Mirrors entries Register.set at *
  rw [Array.toList_modify, Array.toList_modify]
  generalize r.slots.toList = es, r'.slots.toList = es' at h
  induction h generalizing i with
  | nil =>
    rw [List.modify_nil, List.modify_nil]
    exact .nil
  | cons he hes ih =>
    cases i with
    | zero => exact .cons ⟨he.1, hv⟩ hes
    | succ i => exact .cons he (ih i)

/-- A name is declared on both sides, at the same slot. -/
lemma declare (h : r.Mirrors ρ r') {n n' : Name} (hn : n.Mirrors ρ n') :
    (r'.declare n').1 = (r.declare n).1 ∧ (r.declare n).2.Mirrors ρ (r'.declare n').2 := by
  have hindex := h.index? hn
  cases hi : r.index? n with
  | some i =>
    rw [Register.declare_of_some hi, Register.declare_of_some (hindex.trans hi)]
    exact ⟨rfl, h⟩
  | none =>
    obtain ⟨hslot, hentries⟩ := Register.declare_of_none hi
    obtain ⟨hslot', hentries'⟩ := Register.declare_of_none (hindex.trans hi)
    rw [hslot, hslot', Register.Mirrors, hentries, hentries']
    exact ⟨h.size, List.rel_append h (.cons ⟨hn, .undefined⟩ .nil)⟩

end Register.Mirrors

/-! ### Worlds -/

/-- The second world holds the same things as the first one, up to numbers, and what is foreign
beside. -/
structure World.Mirrors (Γ : Surroundings) (ρ : Renaming) (w w' : World) : Prop where
  memory : w.memory.Mirrors Γ ρ w'.memory
  natives : w.natives.Mirrors ρ (Γ.foreign .native) Γ.base.natives
    (fun _ => Host.ApiClass.Mirrors ρ) w'.natives
  functions : w.functions.Mirrors ρ (Γ.foreign .function) Γ.base.functions
    (fun _ => FunctionInstance.Mirrors ρ) w'.functions
  callbacks : w.callbacks.Mirrors ρ (Γ.foreign .callback) Γ.base.callbacks
    (fun _ => CallbackInstance.Mirrors ρ) w'.callbacks
  engines : w.engines.Mirrors ρ (Γ.foreign .engine) Γ.base.engines
    (fun _ => Engine.Mirrors ρ) w'.engines
  objectCalls : w.objectCalls.Mirrors ρ (Γ.foreign .callSite) Γ.base.objectCalls
    (fun _ => Option.Rel (Resolution.Mirrors ρ)) w'.objectCalls
  alive : ∀ {e e' : Id .engine}, e.Mirrors ρ e' → (w.engines.get? e).isSome

namespace World.Mirrors

variable {Γ : Surroundings} {w w' : World} (h : w.Mirrors Γ ρ w')

include h

/-! ### Looking things up -/

lemma engine {e e' : Id .engine} (he : e.Mirrors ρ e') : (w.engine e).Mirrors ρ (w'.engine e') := by
  have hcontent := h.engines.content he
  have halive := h.alive he
  unfold World.engine
  generalize w.engines.get? e = x, w'.engines.get? e' = x' at hcontent halive
  cases hcontent with
  | none => exact nomatch halive
  | some hx => exact hx

lemma function? {f f' : Id .function} (hf : f.Mirrors ρ f') :
    Option.Rel (FunctionInstance.Mirrors ρ) (w.function? f) (w'.function? f') :=
  h.functions.content hf

lemma callback? {c c' : Id .callback} (hc : c.Mirrors ρ c') :
    Option.Rel (CallbackInstance.Mirrors ρ) (w.callback? c) (w'.callback? c') :=
  h.callbacks.content hc

/-- The function, or what stands for a missing one. -/
lemma functionOrDefault {f f' : Id .function} (hf : f.Mirrors ρ f') :
    ((w.function? f).getD default).Mirrors ρ ((w'.function? f').getD default) := by
  have hfunction := h.function? hf
  generalize w.function? f = x, w'.function? f' = x' at hfunction
  cases hfunction with
  | none => exact .default h.memory.empty
  | some hx => exact hx

/-- The callback, or what stands for a missing one. -/
lemma callbackOrDefault {c c' : Id .callback} (hc : c.Mirrors ρ c') :
    ((w.callback? c).getD default).Mirrors ρ ((w'.callback? c').getD default) := by
  have hcallback := h.callback? hc
  generalize w.callback? c = x, w'.callback? c' = x' at hcallback
  cases hcallback with
  | none => exact .default h.memory.empty
  | some hx => exact hx

lemma apiClass {o o' : NativeRef} (ho : o.Mirrors ρ o') :
    (w.apiClass o).Mirrors ρ (w'.apiClass o') := by
  have hcontent := h.natives.content ho.id
  unfold World.apiClass
  rw [ho.className]
  generalize w.natives.get? o.id = c, w'.natives.get? o'.id = c' at hcontent
  cases hcontent with
  | none => exact .named _
  | some hc => exact hc

lemma resolution? {i i' : Id .callSite} (hi : i.Mirrors ρ i') :
    Option.Rel (Resolution.Mirrors ρ) (w.resolution? i) (w'.resolution? i') := by
  have hcontent := h.objectCalls.content hi
  unfold World.resolution?
  generalize w.objectCalls.get? i = r, w'.objectCalls.get? i' = r' at hcontent
  cases hcontent with
  | none => exact .none
  | some hr => exact hr

lemma interner {e e' : Id .engine} (he : e.Mirrors ρ e') :
    (w.interner e).Mirrors ρ (w'.interner e') := by
  rw [World.interner, World.interner, (h.engine he).interner, (h.engine he).interner']
  exact h.memory.names

lemma lookup {e e' : Id .engine} (he : e.Mirrors ρ e') {n n' : Name} (hn : n.Mirrors ρ n') :
    w'.lookup e' n' = w.lookup e n :=
  (h.interner he).lookup hn

/-- Engines find functions that mirror each other under one text. -/
theorem functionNamed? {e e' : Id .engine} (he : e.Mirrors ρ e') (name : String) :
    Option.Rel (Id.Mirrors ρ) (w.functionNamed? e name) (w'.functionNamed? e' name) :=
  (h.interner he).bind_get? (h.engine he).functions name

theorem callbackNamed? {e e' : Id .engine} (he : e.Mirrors ρ e') (name : String) :
    Option.Rel (Id.Mirrors ρ) (w.callbackNamed? e name) (w'.callbackNamed? e' name) :=
  (h.interner he).bind_get? (h.engine he).callbacks name

theorem apiClassNamed? {e e' : Id .engine} (he : e.Mirrors ρ e') (name : String) :
    Option.Rel (NativeRef.Mirrors ρ) (w.apiClassNamed? e name) (w'.apiClassNamed? e' name) :=
  (h.interner he).bind_get? (h.engine he).apiClasses name

theorem snippetNamed? {e e' : Id .engine} (he : e.Mirrors ρ e') (name : String) :
    w'.snippetNamed? e' name = w.snippetNamed? e name := by
  have hfound := (h.interner he).bind_get? (h.engine he).snippets name
  change ((w'.interner e').get? name).bind _ = ((w.interner e).get? name).bind _
  generalize ((w.interner e).get? name).bind _ = s, ((w'.interner e').get? name).bind _ = s'
    at hfound ⊢
  cases hfound with
  | none => rfl
  | some hs => rw [hs.1]

/-! ### Changing things -/

/-- The renaming may grow together with the parts of the world. -/
lemma regrow (hle : ρ ≤ ρ') {w₁ w₁' : World} (hmemory : w₁.memory.Mirrors Γ ρ' w₁'.memory)
    (hnatives : w₁.natives.Mirrors ρ' (Γ.foreign .native) Γ.base.natives
      (fun _ => Host.ApiClass.Mirrors ρ) w₁'.natives)
    (hfunctions : w₁.functions.Mirrors ρ' (Γ.foreign .function) Γ.base.functions
      (fun _ => FunctionInstance.Mirrors ρ) w₁'.functions)
    (hcallbacks : w₁.callbacks.Mirrors ρ' (Γ.foreign .callback) Γ.base.callbacks
      (fun _ => CallbackInstance.Mirrors ρ) w₁'.callbacks)
    (hobjectCalls : w₁.objectCalls.Mirrors ρ' (Γ.foreign .callSite) Γ.base.objectCalls
      (fun _ => Option.Rel (Resolution.Mirrors ρ)) w₁'.objectCalls)
    (hids : ρ'.ids .engine = ρ.ids .engine) (hengines : w₁.engines = w.engines)
    (hengines' : w₁'.engines = w'.engines) : w₁.Mirrors Γ ρ' w₁' where
  memory := hmemory
  natives := hnatives.imp rfl fun _ _ _ hc => hc.mono hle
  functions := hfunctions.imp rfl fun _ _ _ hf => hf.mono hle
  callbacks := hcallbacks.imp rfl fun _ _ _ hc => hc.mono hle
  engines := by
    rw [hengines, hengines']
    exact h.engines.imp hids fun _ _ _ he => he.mono hle
  objectCalls := hobjectCalls.imp rfl fun _ _ _ hr => optionRel_imp hr fun _ _ hr => hr.mono hle
  alive he := by
    rw [Id.Mirrors, hids] at he
    rw [hengines]
    exact h.alive he

/-- Things come into being that are not in the memory. -/
lemma memory_addId {kind : Kind} (hkind : ¬kind.IsMemory) {i' : Id kind} {hi' : i' ∉ ρ.ids kind} :
    w.memory.Mirrors Γ (ρ.addId i' hi') w'.memory :=
  h.memory.mono Renaming.le_addId rfl fun _ hk =>
    Renaming.ids_addId_of_ne fun heq => hkind (heq ▸ hk)

/-- The memories change together. -/
lemma withMemory (hgrows : ρ.GrowsInMemory ρ') {m m' : Memory} (hm : m.Mirrors Γ ρ' m') :
    World.Mirrors Γ ρ' { w with memory := m } { w' with memory := m' } :=
  h.regrow hgrows.le hm (h.natives.imp (hgrows.ids _ id) fun _ _ _ => id)
    (h.functions.imp (hgrows.ids _ id) fun _ _ _ => id)
    (h.callbacks.imp (hgrows.ids _ id) fun _ _ _ => id)
    (h.objectCalls.imp (hgrows.ids _ id) fun _ _ _ => id) (hgrows.ids _ id) rfl rfl

lemma modifyEngine {e e' : Id .engine} (he : e.Mirrors ρ e') {f f' : Engine → Engine}
    (hf : ∀ x x' : Engine, x.Mirrors ρ x' → (f x).Mirrors ρ (f' x')) :
    (w.modifyEngine e f).Mirrors Γ ρ (w'.modifyEngine e' f') :=
  { h with
    engines := h.engines.update he hf
    alive := fun {i _} hi => by
      rw [World.modifyEngine, Pool.get?_update]
      split
      · rw [Option.isSome_map]
        exact h.alive hi
      · exact h.alive hi }

lemma modifyFunction {i i' : Id .function} (hi : i.Mirrors ρ i')
    {f f' : FunctionInstance → FunctionInstance}
    (hf : ∀ x x' : FunctionInstance, x.Mirrors ρ x' → (f x).Mirrors ρ (f' x')) :
    (w.modifyFunction i f).Mirrors Γ ρ (w'.modifyFunction i' f') :=
  { h with functions := h.functions.update hi hf }

lemma modifyCallback {i i' : Id .callback} (hi : i.Mirrors ρ i')
    {f f' : CallbackInstance → CallbackInstance}
    (hf : ∀ x x' : CallbackInstance, x.Mirrors ρ x' → (f x).Mirrors ρ (f' x')) :
    (w.modifyCallback i f).Mirrors Γ ρ (w'.modifyCallback i' f') :=
  { h with callbacks := h.callbacks.update hi hf }

lemma report {e e' : Id .engine} (he : e.Mirrors ρ e') (error : EvalError) :
    (w.report e error).Mirrors Γ ρ (w'.report e' error) :=
  h.modifyEngine he fun _ _ hx =>
    { hx with reporter := congrArg (fun r => Reporter.report r error) hx.reporter }

lemma setRegister {e e' : Id .engine} (he : e.Mirrors ρ e') (i : ℕ) {v v' : Value}
    (hv : v.Mirrors ρ v') : (w.setRegister e i v).Mirrors Γ ρ (w'.setRegister e' i v') :=
  h.modifyEngine he fun _ _ hx => { hx with register := hx.register.set i hv }

lemma setGlobal {e e' : Id .engine} (he : e.Mirrors ρ e') {n n' : Name} (hn : n.Mirrors ρ n')
    {v v' : Value} (hv : v.Mirrors ρ v') :
    (w.setGlobal e n v).Mirrors Γ ρ (w'.setGlobal e' n' v') :=
  h.modifyEngine he fun _ _ hx => { hx with globals := hx.globals.insert hn hv }

lemma setLocal {f f' : Id .function} (hf : f.Mirrors ρ f') {n n' : Name} (hn : n.Mirrors ρ n')
    {v v' : Value} (hv : v.Mirrors ρ v') :
    (w.setLocal f n v).Mirrors Γ ρ (w'.setLocal f' n' v') :=
  h.modifyFunction hf fun _ _ hx => { hx with locals := hx.locals.insert hn hv }

lemma setCallbackLocal {c c' : Id .callback} (hc : c.Mirrors ρ c') {n n' : Name}
    (hn : n.Mirrors ρ n') {v v' : Value} (hv : v.Mirrors ρ v') :
    (w.setCallbackLocal c n v).Mirrors Γ ρ (w'.setCallbackLocal c' n' v') :=
  h.modifyCallback hc fun _ _ hx => { hx with locals := hx.locals.insert hn hv }

lemma setLastResult {f f' : Id .function} (hf : f.Mirrors ρ f') {v v' : Value}
    (hv : v.Mirrors ρ v') : (w.setLastResult f v).Mirrors Γ ρ (w'.setLastResult f' v') :=
  h.modifyFunction hf fun _ _ hx => { hx with lastResult := hv }

lemma setResolution {i i' : Id .callSite} (hi : i.Mirrors ρ i') {r r' : Resolution}
    (hr : Resolution.Mirrors ρ r r') :
    (w.setResolution i r).Mirrors Γ ρ (w'.setResolution i' r') :=
  { h with objectCalls := h.objectCalls.update hi fun _ _ _ => .some hr }

end World.Mirrors

end ScriptEngine
