import ScriptEngine.Proofs.Additions
import ScriptEngine.Proofs.Edits
import ScriptEngine.Proofs.Tracking

/-!
# Orderly worlds

In an orderly world no array holds itself, all that is stored anywhere refers to arrays that are
there, and so do the literals in all bodies; and all host functions and snippets that can be called
only add to the memory.

A world stays orderly by each command that is given nothing but what is there, by the beginning and
the end of activities, and by what front ends and hosts arrange.  Nothing depends on which arrays
there are, but on how many: a host may change arrays of its own between two entries, as long as
there are no fewer of them and the memory stays sound.

Main statements: `Command.adds` and `World.Orderly.adds_arrange`.
-/

namespace ScriptEngine

/-! ### Pools -/

namespace Pool

variable {kind : Kind} {α : Type} {P Q : α → Prop} {p : Pool kind α}

/-- All things that have not been released satisfy `P`. -/
def All (P : α → Prop) (p : Pool kind α) : Prop :=
  ∀ i, ∀ a ∈ p.get? i, P a

namespace All

lemma empty : (Pool.empty : Pool kind α).All P :=
  fun _ _ ha => by cases ha

lemma mono (h : p.All P) (hPQ : ∀ a, P a → Q a) : p.All Q :=
  fun i a ha => hPQ a (h i a ha)

lemma add (h : p.All P) {a : α} (ha : P a) : (p.add a).2.All P := by
  intro i b hb
  rcases get?_add_cases hb with hold | ⟨-, rfl⟩
  · exact h i b hold
  · exact ha

lemma update (h : p.All P) (i : Id kind) {f : α → α} (hf : ∀ a, P a → P (f a)) :
    (p.update i f).All P := by
  intro j b hb
  rcases get?_update_cases hb with ⟨-, a, ha, rfl⟩ | ⟨-, hb⟩
  · exact hf a (h j a ha)
  · exact h j b hb

lemma release (h : p.All P) (i : Id kind) : (p.release i).All P :=
  fun j a ha => h j a (get?_release_eq_some ha).2

end All

end Pool

/-! ### What may be stored and called -/

/-- Classes and bodies that only add. -/
def Supply.adding (m : Memory) : Supply where
  native := Host.ApiClass.Adds m
  body := Stmt.Adds m
  memory := Memory.Adds
  console m₀ i p := Host.consoleClass_adds m₀ m i p
  math m₀ i := Host.mathClass_adds m₀ m i

/-- All that the function stores is there, and its body only adds. -/
structure FunctionInstance.Orderly (m : Memory) (x : FunctionInstance) : Prop
    extends x.Stores m.Has where
  body : ∀ s ∈ x.body, s.Adds m

/-- All that the callback stores is there, and its body only adds. -/
structure CallbackInstance.Orderly (m : Memory) (x : CallbackInstance) : Prop
    extends x.Stores m.Has where
  body : ∀ s ∈ x.body, s.Adds m

/-- No array holds itself, all that is stored is there, and all that can be called only adds. -/
structure World.Orderly (w : World) : Prop where
  memory : w.memory.Sound
  natives : w.natives.All (Host.ApiClass.Adds w.memory)
  functions : w.functions.All (FunctionInstance.Orderly w.memory)
  callbacks : w.callbacks.All (CallbackInstance.Orderly w.memory)
  engines : w.engines.All (Engine.Stores w.memory.Has)

/-- The second world is orderly, and its memory is later than that of the first one. -/
structure World.Adds (w₀ w : World) : Prop where
  orderly : w.Orderly
  le : w₀.memory ≤ w.memory

/-- A function without a body is orderly. -/
lemma FunctionInstance.Orderly.define (m : Memory) (n : Name) (name : String)
    (parameters : List Name) (parameterNames : List String) :
    (FunctionInstance.define n name parameters parameterNames).Orderly m where
  locals _ := trivial
  arguments v hv := by
    rw [List.eq_of_mem_replicate hv]
    trivial
  body s hs := by cases hs

/-- A callback without a body is orderly. -/
lemma CallbackInstance.Orderly.define (m : Memory) (n : Name) (name : String)
    (parameters : List Name) : (CallbackInstance.define n name parameters).Orderly m where
  locals _ := trivial
  arguments v hv := by
    rw [List.eq_of_mem_replicate hv]
    trivial
  body s hs := by cases hs

/-- The values with which an activity begins. -/
def Activity.arguments : Activity → List Value
  | script => []
  | function _ _ args | callback _ args => args

namespace World

/-- Nothing is stored in the empty world. -/
lemma orderly_empty : World.empty.Orderly where
  memory := by
    refine ⟨fun a v hv => ?_, fun o n => trivial, fun a ha => ?_⟩
    · exact absurd hv (Array.not_mem_empty v)
    · exact absurd (Memory.index_lt_of_transGen ha) (Nat.not_lt_zero _)
  natives := .empty
  functions := .empty
  callbacks := .empty
  engines := .empty

namespace Orderly

variable {w : World} (h : w.Orderly)

include h

/-! ### What there is -/

/-- All stored values are there. -/
lemma stores : w.Stores w.memory.Has where
  engine e := by
    unfold World.engine
    cases hx : w.engines.get? e with
    | none => exact ⟨fun _ => trivial, fun _ => trivial⟩
    | some x => exact h.engines e x hx
  function hx := (h.functions _ _ hx).toStores
  callback hx := (h.callbacks _ _ hx).toStores
  constant object n v hv := by
    unfold World.apiClass at hv
    cases hx : w.natives.get? object.id with
    | none =>
      rw [hx] at hv
      cases hv
    | some c =>
      rw [hx] at hv
      exact (h.natives _ c hx).constants n v hv

/-- All references are to arrays that are there. -/
lemma sound : w.Sound := ⟨h.memory, h.stores⟩

/-- All classes only add. -/
lemma apiClass (object : NativeRef) : (w.apiClass object).Adds w.memory := by
  unfold World.apiClass
  cases hx : w.natives.get? object.id with
  | none => exact Host.ApiClass.adds_named w.memory object.className
  | some c => exact h.natives _ c hx

/-! ### Single changes -/

/-- The memory becomes another one with no fewer arrays. -/
lemma withMemory {m : Memory} (hm : m.Sound) (hsize : w.memory.arrays.size ≤ m.arrays.size) :
    { w with memory := m }.Orderly := by
  have hvalue : ∀ v, w.memory.Has v → m.Has v := fun v hv => Memory.Has.mono hv hsize
  refine ⟨hm, h.natives.mono fun c hc => hc.mono hsize, h.functions.mono fun x hx => ?_,
    h.callbacks.mono fun x hx => ?_, h.engines.mono fun x hx => ?_⟩
  · exact ⟨⟨fun n => hvalue _ (hx.locals n), fun v hv => hvalue v (hx.arguments v hv)⟩,
      fun s hs => (hx.body s hs).mono hsize⟩
  · exact ⟨⟨fun n => hvalue _ (hx.locals n), fun v hv => hvalue v (hx.arguments v hv)⟩,
      fun s hs => (hx.body s hs).mono hsize⟩
  · exact ⟨fun i => hvalue _ (hx.register i), fun n => hvalue _ (hx.globals n)⟩

/-- Nothing is done. -/
lemma adds : w.Adds w := ⟨h, le_rfl⟩

end Orderly

namespace Adds

variable {w₀ w : World} (h : w₀.Adds w)

include h

/-- Something is added to the memory. -/
lemma memory {m : Memory} (hm : w.memory.Adds m) : w₀.Adds { w with memory := m } :=
  ⟨h.orderly.withMemory hm.sound hm.le.size, h.le.trans hm.le⟩

/-- A function is changed. -/
lemma modifyFunction (f : Id .function) {change : FunctionInstance → FunctionInstance}
    (hchange : ∀ x : FunctionInstance, x.Orderly w.memory → (change x).Orderly w.memory) :
    w₀.Adds (w.modifyFunction f change) :=
  ⟨{ h.orderly with functions := h.orderly.functions.update f hchange }, h.le⟩

/-- A callback is changed. -/
lemma modifyCallback (c : Id .callback) {change : CallbackInstance → CallbackInstance}
    (hchange : ∀ x : CallbackInstance, x.Orderly w.memory → (change x).Orderly w.memory) :
    w₀.Adds (w.modifyCallback c change) :=
  ⟨{ h.orderly with callbacks := h.orderly.callbacks.update c hchange }, h.le⟩

/-- An engine is changed. -/
lemma modifyEngine (e : Id .engine) {change : Engine → Engine}
    (hchange : ∀ x, x.Stores w.memory.Has → (change x).Stores w.memory.Has) :
    w₀.Adds (w.modifyEngine e change) :=
  ⟨{ h.orderly with engines := h.orderly.engines.update e hchange }, h.le⟩

/-- An engine is changed, and not in what it stores. -/
lemma modifyTables (e : Id .engine) {change : Engine → Engine}
    (hregister : ∀ x, (change x).register = x.register)
    (hglobals : ∀ x, (change x).globals = x.globals) : w₀.Adds (w.modifyEngine e change) := by
  refine h.modifyEngine e fun x hx => ⟨fun i => ?_, fun n => ?_⟩
  · rw [hregister]
    exact hx.register i
  · rw [hglobals]
    exact hx.globals n

/-- An error is reported. -/
lemma report (e : Id .engine) (error : EvalError) : w₀.Adds (w.report e error) :=
  h.modifyTables e (fun _ => rfl) fun _ => rfl

/-- The result of a function is remembered. -/
lemma setLastResult (f : Id .function) (v : Value) : w₀.Adds (w.setLastResult f v) :=
  h.modifyFunction f fun _ hx => ⟨⟨hx.locals, hx.arguments⟩, hx.body⟩

/-- Object calls are added or resolved. -/
lemma sites (objectCalls : Pool .callSite (Option Resolution)) :
    w₀.Adds { w with objectCalls } :=
  ⟨{ h.orderly with }, h.le⟩

/-- A variable is written. -/
lemma set (scope : Scope) (target : VarRef) {v : Value} (hv : w.memory.Has v) :
    w₀.Adds (target.set scope v w).state := by
  rcases VarRef.state_set scope target v w with hstate | hstate
  · rwa [hstate]
  · rw [hstate]
    cases target with
    | register i => exact h.modifyEngine scope.engine fun _ hx => hx.setRegister hv i
    | global n => exact h.modifyEngine scope.engine fun _ hx => hx.setGlobal hv n
    | functionLocal f n =>
      exact h.modifyFunction f fun _ hx => ⟨hx.toStores.setLocal hv n, hx.body⟩
    | callbackLocal c n =>
      exact h.modifyCallback c fun _ hx => ⟨hx.toStores.setLocal hv n, hx.body⟩
    | parameter | callbackParameter => exact h

/-- An activity begins with arguments that are there. -/
lemma enter {a : Activity} (ha : ∀ v ∈ a.arguments, w.memory.Has v) : w₀.Adds (a.enter w) := by
  cases a with
  | script => exact h
  | function f site args =>
    exact h.modifyFunction f fun _ hx => ⟨hx.toStores.enter site ha, hx.body⟩
  | callback c args =>
    refine h.modifyCallback c fun x hx => ⟨⟨fun _ => trivial, fun v hv => ?_⟩, hx.body⟩
    rcases List.mem_append.1 hv with hv | hv
    · exact ha v (List.mem_of_mem_take hv)
    · rw [List.eq_of_mem_replicate hv]
      trivial

/-- An activity ends. -/
lemma leave (a : Activity) : w₀.Adds (a.leave w) := by
  cases a with
  | script | callback => exact h
  | function f site args =>
    exact h.modifyFunction f fun _ hx => ⟨hx.toStores.leave trivial, hx.body⟩

end Adds

end World

/-! ### Commands -/

/-- The action leads from `w` to an orderly world with a later memory, and a value satisfies `Q`. -/
structure Outcome.Adds {α : Type} (w : World) (Q : Memory → α → Prop) (o : Outcome World α) : Prop
    extends w.Adds o.state where
  value : ∀ a ∈ o.value?, Q o.state.memory a

namespace Command

variable {α : Type} {w : World}

/-- A query of an orderly world gives nothing but what is there. -/
lemma yields_of_isQuery (h : w.Orderly) {k : Command α} (hk : Trust.adding.Allows w.memory k)
    (hquery : k.IsQuery) : ∀ a ∈ (k.run w).value?, Trust.adding.Yields w.memory k a := by
  intro a ha
  cases k with
  | get scope target => exact h.stores.of_holds trivial (VarRef.holds_of_get ha)
  | deliver scope n argument =>
    cases argument with
    | none => cases ha
    | some v => exact hk a ha
  | compute op left right =>
    simp only [run, Action.bind_apply, Action.state] at ha
    cases hv : op.compute? w.memory left right with
    | none =>
      rw [hv] at ha
      cases ha
    | some v =>
      rw [hv] at ha
      obtain rfl := Option.some.inj ha
      exact Trust.adding.value_of_isPlain w.memory (BinaryOp.isPlain_of_compute? hv)
  | readMember e object property =>
    simp only [run, Action.bind_apply, Action.state] at ha
    cases hv : w.readMember e object property with
    | error error =>
      rw [hv] at ha
      cases ha
    | ok v =>
      rw [hv] at ha
      obtain rfl := Option.some.inj ha
      exact h.sound.readMember hv
  | readIndex e object index =>
    obtain ⟨result, hresult, hthere⟩ := h.sound.exists_readIndex? e object index
    simp only [run, Action.bind_apply, Action.state, hresult] at ha
    cases result with
    | error error => cases ha
    | ok v =>
      obtain rfl := Option.some.inj ha
      exact hthere _ rfl
  | resolution site => exact fun _ _ => trivial
  | set | keepResult | report | keepResolution | newArray | newObject | runCode | modifyMemory
  | allocate => exact hquery.elim
  | _ => trivial

/-- A command that is given nothing but what there is keeps a world orderly, only adds to the
memory, and gives nothing but what there is. -/
theorem adds (h : w.Orderly) {k : Command α} (hk : Trust.adding.Allows w.memory k) :
    (k.run w).Adds w fun m a => Trust.adding.Yields m k a := by
  by_cases hquery : k.IsQuery
  · have hstate : (k.run w).state = w := readsOnly_of_isQuery hquery w
    refine ⟨?_, ?_⟩
    · rw [hstate]
      exact h.adds
    · rw [hstate]
      exact yields_of_isQuery h hk hquery
  -- the commands that change the world, of which only two give a reference
  cases k with
  | set scope target v => exact ⟨h.adds.set scope target hk, fun _ _ => trivial⟩
  | keepResult f v => exact ⟨h.adds.setLastResult f v, fun _ _ => trivial⟩
  | report e error => exact ⟨h.adds.report e error, fun _ _ => trivial⟩
  | keepResolution site r => exact ⟨h.adds.sites _, fun _ _ => trivial⟩
  | newArray items =>
    have hadds := h.memory.adds_newArray fun v hv => hk v (List.mem_toArray.1 hv)
    refine ⟨h.adds.memory hadds, fun v hv => ?_⟩
    obtain rfl := Option.some.inj hv
    exact w.memory.within_newArray items.toArray
  | newObject properties =>
    refine ⟨h.adds.memory (h.memory.adds_newObject hk), fun v hv => ?_⟩
    obtain rfl := Option.some.inj hv
    exact trivial
  | runCode code slots =>
    exact ⟨h.adds.memory (hk.1 slots w.memory h.memory hk.2), fun _ _ => trivial⟩
  | modifyMemory change | allocate make => exact hk.elim
  | _ => exact absurd trivial hquery

end Command

/-! ### Arrangements -/

namespace World

variable {w₀ w w' : World}

/-- An edit that brings in what only adds. -/
lemma Adds.edit (h : w₀.Adds w) (hedit : Edit (.adding w₀.memory) w w') : w₀.Adds w' := by
  cases hedit with
  | names m harrays hobjects => exact h.memory (.of_same h.orderly.memory harrays hobjects)
  | memory m hm => exact h.memory hm
  | addEngine x hregister hglobals =>
    have hx : x.Stores w.memory.Has := by
      refine ⟨fun i => ?_, fun n => ?_⟩
      · rw [hregister]
        exact trivial
      · rw [hglobals]
        exact trivial
    exact ⟨{ h.orderly with engines := h.orderly.engines.add hx }, h.le⟩
  | addNative hc =>
    -- what was known of the class in the first memory is true in all later ones
    exact ⟨{ h.orderly with natives := h.orderly.natives.add (hc.mono h.le.size) }, h.le⟩
  | addFunction n name parameters parameterNames =>
    have hx := FunctionInstance.Orderly.define w.memory n name parameters parameterNames
    exact ⟨{ h.orderly with functions := h.orderly.functions.add hx }, h.le⟩
  | addCallback n name parameters =>
    have hx := CallbackInstance.Orderly.define w.memory n name parameters
    exact ⟨{ h.orderly with callbacks := h.orderly.callbacks.add hx }, h.le⟩
  | addSite => exact h.sites _
  | declare e n =>
    refine h.modifyEngine e fun x hx => ⟨?_, hx.globals⟩
    exact Register.forall_get_declare (h.orderly.stores.engine e).register n
  | table e change hregister hglobals => exact h.modifyTables e hregister hglobals
  | function f change hchange =>
    refine h.modifyFunction f fun x hx => ⟨⟨?_, ?_⟩, fun s hs => ?_⟩
    · rw [(hchange x).locals]
      exact hx.locals
    · rw [(hchange x).frame]
      exact hx.arguments
    · exact ((hchange x).body s hs).elim (fun hnew => hnew.mono h.le.size) (hx.body s)
  | callback c change hchange =>
    refine h.modifyCallback c fun x hx => ⟨⟨?_, ?_⟩, fun s hs => ?_⟩
    · rw [(hchange x).locals]
      exact hx.locals
    · rw [(hchange x).arguments]
      exact hx.arguments
    · exact ((hchange x).body s hs).elim (fun hnew => hnew.mono h.le.size) (hx.body s)
  | releaseFunction f =>
    exact ⟨{ h.orderly with functions := h.orderly.functions.release f }, h.le⟩
  | releaseCallback c =>
    exact ⟨{ h.orderly with callbacks := h.orderly.callbacks.release c }, h.le⟩
  | releaseEngine e =>
    exact ⟨{ h.orderly with engines := h.orderly.engines.release e }, h.le⟩

/-- Edits that bring in what only adds. -/
lemma Orderly.adds_edits (h : w.Orderly) (hedits : Edits (.adding w.memory) w w') : w.Adds w' := by
  induction hedits with
  | refl => exact h.adds
  | tail _ hedit ih => exact ih.edit hedit

/-- An arrangement that brings in what only adds keeps a world orderly, and only adds to the
memory. -/
theorem Orderly.adds_arrange (h : w.Orderly) (a : Arrangement) (ha : a.Brings (.adding w.memory)) :
    w.Adds (a.run w) :=
  h.adds_edits (a.edits ha w)

end World

end ScriptEngine
