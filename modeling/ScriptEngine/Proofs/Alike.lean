import ScriptEngine.Proofs.Invariant
import ScriptEngine.Proofs.Names
import ScriptEngine.Proofs.Pairing
import ScriptEngine.Proofs.Stored

/-!
# Worlds that differ in what an evaluation does not mention

An evaluation mentions a part of the world: its trees, the functions and variables that they refer to,
the values that it comes across, and the names that were interned when the trees were built.  Two worlds
are alike if they agree on that part.  They may differ in everything that was defined later: in further
names, slots, functions and native objects, in the tables by which things are found under their names,
and in the numbers that the next calls will get.

In such worlds an evaluation does the same.  Property bags are compared by the texts of their names,
because a host function may intern a text on the way, and the two interners may number it differently.
Host functions and machine code have to act alike on memories that are alike.

Main statements: `World.InStep.query` and `World.InStep.yields`.
-/

namespace ScriptEngine

/-! ### What is compared -/

/-- A function without the number of the next call. -/
def FunctionInstance.unnumbered (x : FunctionInstance) : FunctionInstance :=
  { x with nextCallSite := .first }

/-- An engine without its register and its tables. -/
def Engine.untabled (x : Engine) : Engine :=
  { x with register := .empty, functions := ∅, callbacks := ∅, snippets := ∅, apiClasses := ∅ }

/-- The engines differ in their tables alone, and in the slots of the register from `slots` on. -/
structure Engine.Alike (slots : ℕ) (x x' : Engine) : Prop where
  rest : x'.untabled = x.untabled
  slots : ∀ i, i < slots → x'.register.slots[i]? = x.register.slots[i]?

namespace Engine.Alike

variable {slots : ℕ} {x x' : Engine} (h : Engine.Alike slots x x')

include h

lemma interner : x'.interner = x.interner := by
  have hrest : x'.untabled.interner = x.untabled.interner := congrArg Engine.interner h.rest
  exact hrest

lemma lengthName : x'.lengthName = x.lengthName := by
  have hrest : x'.untabled.lengthName = x.untabled.lengthName := congrArg Engine.lengthName h.rest
  exact hrest

lemma maxCallDepth : x'.maxCallDepth = x.maxCallDepth := by
  have hrest : x'.untabled.maxCallDepth = x.untabled.maxCallDepth :=
    congrArg Engine.maxCallDepth h.rest
  exact hrest

lemma globals : x'.globals = x.globals := by
  have hrest : x'.untabled.globals = x.untabled.globals := congrArg Engine.globals h.rest
  exact hrest

end Engine.Alike

/-- The function that a variable belongs to. -/
def VarRef.function? : VarRef → Option (Id .function)
  | .functionLocal f _ | .parameter f _ _ => some f
  | .register _ | .global _ | .callbackLocal .. | .callbackParameter .. => none

/-- The callback that a variable belongs to. -/
def VarRef.callback? : VarRef → Option (Id .callback)
  | .callbackLocal c _ | .callbackParameter c _ _ => some c
  | .register _ | .global _ | .functionLocal .. | .parameter .. => none

namespace Vocabulary

variable (D : Vocabulary)

/-- The variable is read or written. -/
def Uses (target : VarRef) : Prop :=
  D.reads target ∨ D.writes target

/-- The function is called, or one of its variables is used. -/
def RefersTo (f : Id .function) : Prop :=
  D.calls f ∨ ∃ target, D.Uses target ∧ target.function? = some f

/-- A variable of the callback is used. -/
def RefersToCallback (c : Id .callback) : Prop :=
  ∃ target, D.Uses target ∧ target.callback? = some c

end Vocabulary

namespace World

section

variable (w₀ : World) (e : Id .engine) (D : Vocabulary)

/-- The memories differ in the interner of the engine alone, and so in the names of properties that
were interned later. -/
structure AlikeMemories (m m' : Memory) : Prop where
  arrays : m'.arrays = m.arrays
  printers : m'.printers = m.printers
  counters : m'.counters = m.counters
  interners : ∀ i, i ≠ (w₀.engine e).interner → m'.interners.get? i = m.interners.get? i
  /-- The interner of the engine is there if it was from the start. -/
  held : (m.interners.get? (w₀.engine e).interner).isSome =
    (w₀.memory.interners.get? (w₀.engine e).interner).isSome
  held' : (m'.interners.get? (w₀.engine e).interner).isSome =
    (w₀.memory.interners.get? (w₀.engine e).interner).isSome
  names : (w₀.interner e).Extends (m.interner (w₀.engine e).interner)
  names' : (w₀.interner e).Extends (m'.interner (w₀.engine e).interner)
  objectCount : m'.objects.size = m.objects.size
  /-- Objects that the evaluation does not come across may have names of other interners. -/
  unseen : ∀ o, ¬D.value (.object o) → m'.objects.get? o = m.objects.get? o
  seen : ∀ o, D.value (.object o) →
    Option.Rel (PropertyBag.Alike (m.interner (w₀.engine e).interner)
      (m'.interner (w₀.engine e).interner)) (m.objects.get? o) (m'.objects.get? o)
  grownArrays : w₀.memory.arrays.size ≤ m.arrays.size
  grownObjects : w₀.memory.objects.size ≤ m.objects.size
  item : ∀ {a v}, D.value (.array a) → v ∈ m.items a → D.value v
  property : ∀ {o n v}, D.value (.object o) → (m.properties o).get? n = some v → D.value v

/-- The worlds agree on all that was there in `w₀` and that the vocabulary may mention.  A function
or a callback that it does not mention may have been released in the second world. -/
structure Alike (w w' : World) : Prop where
  memory : w₀.AlikeMemories e D w.memory w'.memory
  natives : ∀ o, o.index < w₀.natives.size → w'.natives.get? o = w.natives.get? o
  functions : ∀ f, f.index < w₀.functions.size →
    (w'.function? f).map (·.unnumbered) = (w.function? f).map (·.unnumbered) ∨
      ¬D.RefersTo f ∧ w'.function? f = none
  callbacks : ∀ c, c.index < w₀.callbacks.size →
    w'.callback? c = w.callback? c ∨ ¬D.RefersToCallback c ∧ w'.callback? c = none
  sites : ∀ site, site.index < w₀.objectCalls.size →
    w'.objectCalls.get? site = w.objectCalls.get? site
  engine : Option.Rel (Engine.Alike (w₀.engine e).register.size) (w.engines.get? e)
    (w'.engines.get? e)
  engines : ∀ d, d ≠ e → w'.engines.get? d = w.engines.get? d

/-- All values that the evaluation may find in variables and resolutions are in the vocabulary, and
the slots that were there have names that were known. -/
structure Shows (w : World) : Prop where
  slots : ∀ i, i < (w₀.engine e).register.size →
    ∃ n, (w.engine e).register.name? i = some n ∧ (w₀.interner e).Knows n
  engine : (w.engine e).Stores D.value
  function : ∀ {f x}, D.RefersTo f → w.function? f = some x → x.Stores D.value
  callback : ∀ {c x}, D.RefersToCallback c → w.callback? c = some x → x.Stores D.value
  resolution : ∀ {site target function r}, D.objectCalls site target function →
    w.resolution? site = some r → D.hosts r.1

end

/-- The storage that a variable refers to is there. -/
def Declares (w : World) (e : Id .engine) : VarRef → Prop
  | .register i => i < (w.engine e).register.size
  | .global n => (w.interner e).Knows n
  | .functionLocal f n | .parameter f _ n =>
    f.index < w.functions.size ∧ (w.interner e).Knows n
  | .callbackLocal c n | .callbackParameter c _ n =>
    c.index < w.callbacks.size ∧ (w.interner e).Knows n

/-- All that the vocabulary may mention is there, on one engine. -/
structure Grounds (w : World) (e : Id .engine) (D : Vocabulary) : Prop where
  closed : D.Closed
  body : ∀ {f s}, D.calls f → w.body? f = some s → D.tree (.stmt s)
  engine : ∀ {d}, D.engine d ↔ d = e
  /-- No host function enters the engine by a name. -/
  byName : ¬D.byName
  names : ∀ {n}, D.names n → (w.interner e).Knows n
  uses : ∀ {target}, D.Uses target → w.Declares e target
  calls : ∀ {f}, D.calls f → f.index < w.functions.size
  objectCalls : ∀ {site target function}, D.objectCalls site target function →
    site.index < w.objectCalls.size ∧ (w.interner e).Knows function
  /-- The functions of a native object can be called wherever it occurs. -/
  hosts : ∀ {o}, D.hosts o ↔ D.value (.native o)
  natives : ∀ {o}, D.hosts o → o.id.index < w.natives.size
  constant : ∀ {o n v}, D.hosts o → (w.apiClass o).constant? n = some v → D.value v
  /-- The evaluation may come across the arrays and objects that it makes. -/
  newArray : ∀ {a : Id .array}, w.memory.arrays.size ≤ a.index → D.value (.array a)
  newObject : ∀ {o : Id .object}, w.memory.objects.size ≤ o.index → D.value (.object o)

end World

/-! ### Host functions -/

/-- From two memories, two programs do the same side by side, and enter the engine only by scripts
that satisfy `T`.  They end alike, with a value that satisfies `V`, and then the memories are related
by `R`; so they are where the search for a text may not end, and where a script is executed. -/
inductive Host.Program.ActsAlike (T : Stmt → Prop) (R : Memory → Memory → Prop) (V : Value → Prop) :
    Host.Program → Memory → Host.Program → Memory → Prop
  | finish {result m m'} (hm : R m m') (h : ∀ v, result = .ok v → V v) :
    ActsAlike T R V (.finish result) m (.finish result) m'
  | read {next next' m m'} (h : ActsAlike T R V (next m) m (next' m') m') :
    ActsAlike T R V (.read next) m (.read next') m'
  | write {change change' next next' m m'}
      (h : ActsAlike T R V next (change m) next' (change' m')) :
    ActsAlike T R V (.write change next) m (.write change' next') m'
  | allocate {make make' next next' m m'} (hsame : (make' m').1 = (make m).1)
      (h : ActsAlike T R V (next (make m).1) (make m).2 (next' (make m).1) (make' m').2) :
    ActsAlike T R V (.allocate make next) m (.allocate make' next') m'
  | display {v next next' m m'} (hm : R m m')
      (h : ∀ text, m.display? v = some text → ActsAlike T R V (next text) m (next' text) m') :
    ActsAlike T R V (.display v next) m (.display v next') m'
  | execute {script next next' m m'} (hscript : T script) (hm : R m m')
      (h : ∀ result, (∀ v, result = .ok v → V v) → ∀ n n', R n n' →
        ActsAlike T R V (next result) n (next' result) n') :
    ActsAlike T R V (.execute script next) m (.execute script next') m'

/-- On arguments that satisfy `V`, the function does the same from memories that are related by
`R`. -/
def Host.Function.ActsAlike (T : Stmt → Prop) (R : Memory → Memory → Prop) (V : Value → Prop)
    (f : Host.Function) : Prop :=
  ∀ args, (∀ v ∈ args, V v) → ∀ m m', R m m' → (f args).ActsAlike T R V m (f args) m'

/-- The host functions and the machine code that the vocabulary may mention act alike on memories
that are alike. -/
structure World.HostsActAlike (w : World) (e : Id .engine) (D : Vocabulary) : Prop where
  api : ∀ {o} index, D.hosts o →
    Host.Function.ActsAlike (fun s => D.tree (.stmt s)) (w.AlikeMemories e D) D.value
      ((w.apiClass o).call index)
  code : ∀ {code slots m m'}, D.codes code → D.Values slots → w.AlikeMemories e D m m' →
    w.AlikeMemories e D (code slots m).2 (code slots m').2

/-- The world has all that an evaluation may mention on one engine, and nothing that the evaluation
may find leads out of it. -/
structure World.Provides (w : World) (e : Id .engine) (D : Vocabulary) : Prop where
  grounds : w.Grounds e D
  memory : w.AlikeMemories e D w.memory w.memory
  shows : w.Shows e D w
  hosts : w.HostsActAlike e D

/-- Two worlds that evaluations from a world and from a later one have come to. -/
structure World.InStep (w₀ : World) (e : Id .engine) (D : Vocabulary) (w w' : World) : Prop where
  provides : w₀.Provides e D
  code : w.code = w₀.code
  shows : w₀.Shows e D w
  alike : w₀.Alike e D w w'

/-! ### Reading alike -/

/-- The text of a value depends on the arrays and on the sizes of the objects. -/
lemma Memory.display?_congr {m m' : Memory} (harrays : m'.arrays = m.arrays)
    (hsize : ∀ o, (m'.properties o).size = (m.properties o).size) : m'.display? = m.display? := by
  have hdepth : ∀ depth, m'.displayWithin? depth = m.displayWithin? depth := by
    intro depth
    induction depth with
    | zero =>
      funext v
      cases v with
      | object o => simp only [displayWithin?, hsize]
      | _ => simp only [displayWithin?]
    | succ depth ih =>
      funext v
      cases v with
      | object o => simp only [displayWithin?, hsize]
      | array a => simp only [displayWithin?, items, harrays, ih]
      | _ => simp only [displayWithin?]
  funext v
  rw [display?_eq, display?_eq, harrays, hdepth]

/-- A key of an object is the text of a property. -/
lemma World.readKey_eq (w : World) (e : Id .engine) (o : Id .object) (key : String) :
    w.readKey e o key = ((w.memory.properties o).ofText? (w.interner e) key).getD .undefined := by
  unfold readKey PropertyBag.ofText?
  cases (w.interner e).get? key <;> rfl

/-! ### Interning in a memory -/

namespace Memory

variable (m : Memory) (i : Id .interner) (s : String)

/-- The interner after a text was interned, if it is there. -/
lemma get?_interners_intern :
    (m.intern i s).2.interners.get? i =
      (m.interners.get? i).map fun _ => ((m.interner i).intern s).2 :=
  Pool.get?_update_self _ _ _

/-- Other interners stay as they are. -/
lemma interners_intern_of_ne {i j : Id .interner} (hij : i ≠ j) :
    (m.intern i s).2.interners.get? j = m.interners.get? j :=
  Pool.get?_update_of_ne _ _ hij

/-- No interner comes or goes. -/
lemma isSome_interners_intern :
    ((m.intern i s).2.interners.get? i).isSome = (m.interners.get? i).isSome := by
  rw [get?_interners_intern, Option.isSome_map]

/-- An interner only grows. -/
lemma extends_intern : (m.interner i).Extends ((m.intern i s).2.interner i) := by
  have hget := m.get?_interners_intern i s
  unfold Memory.interner at hget ⊢
  rw [hget]
  cases m.interners.get? i with
  | none => exact .refl _
  | some t => exact t.extends_intern s

/-- The interner after a text was interned, if it was there. -/
lemma interner_intern {i : Id .interner} (hi : (m.interners.get? i).isSome) :
    (m.intern i s).2.interner i = ((m.interner i).intern s).2 := by
  obtain ⟨t, ht⟩ := Option.isSome_iff_exists.1 hi
  rw [Memory.interner, get?_interners_intern, ht]
  rfl

/-- A text that was interned has its name, if the interner is there. -/
lemma get?_interner_intern {i : Id .interner} (hi : (m.interners.get? i).isSome) :
    ((m.intern i s).2.interner i).get? s = some (m.intern i s).1 := by
  rw [m.interner_intern s hi]
  exact Interner.get?_intern _ s

end Memory

namespace World.AlikeMemories

/-- A memory is alike itself, if the interner of the engine has given out the names of all
properties that the evaluation comes across. -/
lemma self {w : World} {e : Id .engine} {D : Vocabulary}
    (hknown : ∀ o bag, D.value (.object o) → w.memory.objects.get? o = some bag →
      bag.KnownTo (w.interner e))
    (hitem : ∀ {a v}, D.value (.array a) → v ∈ w.memory.items a → D.value v)
    (hproperty : ∀ {o n v}, D.value (.object o) → (w.memory.properties o).get? n = some v →
      D.value v) : w.AlikeMemories e D w.memory w.memory where
  arrays := rfl
  printers := rfl
  counters := rfl
  interners _ _ := rfl
  held := rfl
  held' := rfl
  names := .refl _
  names' := .refl _
  objectCount := rfl
  unseen _ _ := rfl
  seen o ho := by
    cases hbag : w.memory.objects.get? o with
    | none => exact .none
    | some bag => exact .some (.self (hknown o bag ho hbag) (.refl _))
  grownArrays := Nat.le_refl _
  grownObjects := Nat.le_refl _
  item := hitem
  property := hproperty

variable {w₀ : World} {e : Id .engine} {D : Vocabulary} {m m' : Memory}
  (h : w₀.AlikeMemories e D m m')

include h

/-- The properties of an object that the evaluation comes across are alike. -/
lemma properties {o : Id .object} (ho : D.value (.object o)) :
    PropertyBag.Alike (m.interner (w₀.engine e).interner) (m'.interner (w₀.engine e).interner)
      (m.properties o) (m'.properties o) := by
  have hobject := h.seen o ho
  unfold Memory.properties
  generalize m.objects.get? o = x, m'.objects.get? o = x' at hobject
  cases hobject with
  | some hbags => exact hbags
  | none => exact .empty

/-- Objects have as many properties. -/
lemma size_properties (o : Id .object) : (m'.properties o).size = (m.properties o).size := by
  by_cases ho : D.value (.object o)
  · exact (h.properties ho).size
  · unfold Memory.properties
    rw [h.unseen o ho]

/-- All values have the same texts. -/
lemma display? : m'.display? = m.display? :=
  Memory.display?_congr h.arrays h.size_properties

/-- All arrays have the same items. -/
lemma items (a : Id .array) : m'.items a = m.items a := by
  unfold Memory.items
  rw [h.arrays]

/-- A property under a name that was known is the same. -/
lemma read {o : Id .object} (ho : D.value (.object o)) {n : Name} (hn : (w₀.interner e).Knows n) :
    (m'.properties o).read n = (m.properties o).read n := by
  unfold PropertyBag.read
  rw [(h.properties ho).get?_eq h.names h.names' hn]

/-- What is read from an object is in the vocabulary, also if it is missing. -/
lemma value_of_read {o : Id .object} (ho : D.value (.object o)) (n : Name) :
    D.value ((m.properties o).read n) := by
  unfold PropertyBag.read
  cases hn : (m.properties o).get? n with
  | none => exact D.value_of_isPlain trivial
  | some v => exact h.property ho hn

/-- Further texts are interned. -/
lemma withInterners {p p' : Pool .interner Interner}
    (hothers : ∀ i, i ≠ (w₀.engine e).interner → p'.get? i = p.get? i)
    (hheld : (p.get? (w₀.engine e).interner).isSome =
      (m.interners.get? (w₀.engine e).interner).isSome)
    (hheld' : (p'.get? (w₀.engine e).interner).isSome =
      (m'.interners.get? (w₀.engine e).interner).isSome)
    (hextends : (m.interner (w₀.engine e).interner).Extends
      ({ m with interners := p }.interner (w₀.engine e).interner))
    (hextends' : (m'.interner (w₀.engine e).interner).Extends
      ({ m' with interners := p' }.interner (w₀.engine e).interner)) :
    w₀.AlikeMemories e D { m with interners := p } { m' with interners := p' } where
  __ := h
  interners := hothers
  held := hheld.trans h.held
  held' := hheld'.trans h.held'
  names := h.names.trans hextends
  names' := h.names'.trans hextends'
  seen o ho := by
    have hseen := h.seen o ho
    dsimp only
    generalize m.objects.get? o = bag, m'.objects.get? o = bag' at hseen
    cases hseen with
    | some hbags => exact .some (hbags.extends hextends hextends')
    | none => exact .none

/-- A text is interned in the second memory. -/
lemma internLater (s : String) :
    w₀.AlikeMemories e D m (m'.intern (w₀.engine e).interner s).2 :=
  h.withInterners
    (fun i hi => (m'.interners_intern_of_ne s hi.symm).trans (h.interners i hi)) rfl
    (m'.isSome_interners_intern _ s) (.refl _) (m'.extends_intern _ s)

/-- A text is interned in both memories. -/
lemma intern (s : String) :
    w₀.AlikeMemories e D (m.intern (w₀.engine e).interner s).2
      (m'.intern (w₀.engine e).interner s).2 :=
  h.withInterners
    (fun i hi => (m'.interners_intern_of_ne s hi.symm).trans
      ((h.interners i hi).trans (m.interners_intern_of_ne s hi.symm).symm))
    (m.isSome_interners_intern _ s) (m'.isSome_interners_intern _ s) (m.extends_intern _ s)
    (m'.extends_intern _ s)

/-- A new array is made in both memories. -/
lemma newArray {vs : List Value} (hvs : D.Values vs) :
    w₀.AlikeMemories e D (m.newArray vs.toArray).2 (m'.newArray vs.toArray).2 where
  arrays := by
    unfold Memory.newArray
    rw [h.arrays]
  printers := h.printers
  counters := h.counters
  interners := h.interners
  held := h.held
  held' := h.held'
  names := h.names
  names' := h.names'
  objectCount := h.objectCount
  unseen := h.unseen
  seen := h.seen
  grownArrays := Nat.le_trans h.grownArrays (by rw [Memory.size_newArray]; exact Nat.le_succ _)
  grownObjects := h.grownObjects
  item {a v} ha hv := by
    rw [Memory.items_newArray] at hv
    split at hv
    · exact hvs v (List.mem_toArray.1 hv)
    · exact h.item ha hv
  property := h.property

/-- A new object with names that were known is made in both memories. -/
lemma newObject {bag : PropertyBag} (hbag : D.Bag bag)
    (hknown : ∀ {n}, D.names n → (w₀.interner e).Knows n) :
    w₀.AlikeMemories e D (m.newObject bag).2 (m'.newObject bag).2 where
  arrays := h.arrays
  printers := h.printers
  counters := h.counters
  interners := h.interners
  held := h.held
  held' := h.held'
  names := h.names
  names' := h.names'
  objectCount := by
    unfold Memory.newObject
    rw [Pool.size_add, Pool.size_add, h.objectCount]
  unseen o ho := by
    unfold Memory.newObject
    rw [Pool.get?_add, Pool.get?_add, h.objectCount, h.unseen o ho]
  seen o ho := by
    change Option.Rel (PropertyBag.Alike (m.interner (w₀.engine e).interner)
      (m'.interner (w₀.engine e).interner)) ((m.objects.add bag).2.get? o)
      ((m'.objects.add bag).2.get? o)
    rw [Pool.get?_add, Pool.get?_add, h.objectCount]
    split
    · have hbag : bag.KnownTo (w₀.interner e) := fun n v hn => hknown (hbag n v hn).1
      exact .some ((PropertyBag.Alike.self hbag (.refl _)).extends h.names h.names')
    · exact h.seen o ho
  grownArrays := h.grownArrays
  grownObjects := by
    unfold Memory.newObject
    rw [Pool.size_add]
    exact Nat.le_succ_of_le h.grownObjects
  item := h.item
  property {o n v} ho hv := by
    unfold Memory.newObject Memory.properties at hv
    dsimp only at hv
    rw [Pool.get?_add] at hv
    split at hv
    · exact (hbag n v hv).2
    · exact h.property ho hv

end World.AlikeMemories

namespace World.Grounds

variable {w : World} {e : Id .engine} {D : Vocabulary} (h : w.Grounds e D)

include h

/-- The functions that are referred to are there. -/
lemma index_lt_of_refersTo {f : Id .function} (hf : D.RefersTo f) : f.index < w.functions.size := by
  rcases hf with hf | ⟨target, htarget, hf⟩
  · exact h.calls hf
  · have hdeclares := h.uses htarget
    cases target with
    | functionLocal g n | parameter g i n =>
      obtain rfl := Option.some.inj hf
      exact hdeclares.1
    | _ => exact nomatch hf

/-- The callbacks that are referred to are there. -/
lemma index_lt_of_refersToCallback {c : Id .callback} (hc : D.RefersToCallback c) :
    c.index < w.callbacks.size := by
  obtain ⟨target, htarget, hc⟩ := hc
  have hdeclares := h.uses htarget
  cases target with
  | callbackLocal d n | callbackParameter d i n =>
    obtain rfl := Option.some.inj hc
    exact hdeclares.1
  | _ => exact nomatch hc

end World.Grounds

namespace World.InStep

variable {w₀ : World} {e : Id .engine} {D : Vocabulary} {w w' : World} (h : w₀.InStep e D w w')

include h

/-- The engines are alike. -/
lemma engine : Engine.Alike (w₀.engine e).register.size (w.engine e) (w'.engine e) := by
  have hengine := h.alike.engine
  unfold World.engine
  generalize w.engines.get? e = x, w'.engines.get? e = x' at hengine
  cases hengine with
  | some hx => exact hx
  | none => exact ⟨rfl, fun _ _ => rfl⟩

/-- The engine keeps its interner. -/
lemma internerId : (w.engine e).interner = (w₀.engine e).interner :=
  internerId_eq_of_code_eq h.code e

/-- The engine has the same interner in both worlds. -/
lemma internerId' : (w'.engine e).interner = (w₀.engine e).interner :=
  h.engine.interner.trans h.internerId

/-- Names that were known have the same texts. -/
lemma lookup {n : Name} (hn : (w₀.interner e).Knows n) : w'.lookup e n = w.lookup e n := by
  unfold World.lookup World.interner
  rw [h.internerId, h.internerId', h.alike.memory.names.lookup hn, h.alike.memory.names'.lookup hn]

/-- The functions that are referred to are the same, but for the number of the next call. -/
lemma function? {f : Id .function} (hf : D.RefersTo f) :
    (w'.function? f).map (·.unnumbered) = (w.function? f).map (·.unnumbered) := by
  rcases h.alike.functions f (h.provides.grounds.index_lt_of_refersTo hf) with hsame | ⟨hnot, -⟩
  · exact hsame
  · exact absurd hf hnot

/-- A function that is referred to is missing in both worlds, or it is in both. -/
lemma function_cases {f : Id .function} (hf : D.RefersTo f) :
    w.function? f = none ∧ w'.function? f = none ∨
      ∃ x x', w.function? f = some x ∧ w'.function? f = some x' ∧ x'.unnumbered = x.unnumbered := by
  have hsame := h.function? hf
  cases hx : w.function? f with
  | none =>
    rw [hx, Option.map_none] at hsame
    exact Or.inl ⟨rfl, Option.map_eq_none_iff.1 hsame⟩
  | some x =>
    rw [hx, Option.map_some] at hsame
    obtain ⟨x', hx', hunnumbered⟩ := Option.map_eq_some_iff.1 hsame
    exact Or.inr ⟨x, x', rfl, hx', hunnumbered⟩

/-- The callbacks that are referred to are the same. -/
lemma callback? {c : Id .callback} (hc : D.RefersToCallback c) : w'.callback? c = w.callback? c := by
  have hindex := h.provides.grounds.index_lt_of_refersToCallback hc
  rcases h.alike.callbacks c hindex with hsame | ⟨hnot, -⟩
  · exact hsame
  · exact absurd hc hnot

/-- The classes of native objects that the evaluation comes across are the same. -/
lemma apiClass {o : NativeRef} (ho : D.hosts o) : w'.apiClass o = w.apiClass o := by
  unfold World.apiClass
  rw [h.alike.natives o.id (h.provides.grounds.natives ho)]

/-- The object calls are resolved to the same. -/
lemma resolution? {site : Id .callSite} {target : VarRef} {function : Name}
    (hsite : D.objectCalls site target function) : w'.resolution? site = w.resolution? site := by
  unfold World.resolution?
  rw [h.alike.sites site (h.provides.grounds.objectCalls hsite).1]

/-- The name of a variable has the same text. -/
lemma nameText {target : VarRef} (htarget : D.Uses target) :
    target.nameText w' e = target.nameText w e := by
  have hdeclares := h.provides.grounds.uses htarget
  cases target with
  | register i =>
    obtain ⟨n, hname, hn⟩ := h.shows.slots i hdeclares
    have hname' : (w'.engine e).register.name? i = some n := by
      rw [← hname, Register.name?, Register.name?, h.engine.slots i hdeclares]
    unfold VarRef.nameText VarRef.name
    dsimp only
    rw [hname, hname', Option.getD_some, h.lookup hn]
  | global n => exact h.lookup hdeclares
  | functionLocal f n | callbackLocal c n | parameter f i n | callbackParameter c i n =>
    exact h.lookup hdeclares.2

/-- A variable whose function or callback is gone fails in the same way. -/
lemma danglingError {target : VarRef} (htarget : D.Uses target) :
    target.danglingError w' e = target.danglingError w e := by
  unfold VarRef.danglingError
  rw [h.nameText htarget]

/-- The same member is read. -/
lemma readMember {object : Value} (hobject : D.value object) {property : Name}
    (hproperty : D.names property) :
    w'.readMember e object property = w.readMember e object property := by
  have hn := h.provides.grounds.names hproperty
  have hlength := h.engine.lengthName
  cases object with
  | undefined => rw [World.readMember, World.readMember, h.lookup hn]
  | object o => rw [World.readMember, World.readMember, h.alike.memory.read hobject hn]
  | array a => rw [World.readMember, World.readMember, hlength, h.alike.memory.items]
  | string s => rw [World.readMember, World.readMember, hlength]
  | native o =>
    rw [World.readMember, World.readMember, h.apiClass (h.provides.grounds.hosts.2 hobject)]
  | number x | bool b => rfl

/-- The same item is read, whichever texts have been interned meanwhile. -/
lemma readIndex? {object : Value} (hobject : D.value object) (index : Value) :
    w'.readIndex? e object index = w.readIndex? e object index := by
  cases object with
  | undefined => rw [World.readIndex?, World.readIndex?, h.alike.memory.display?]
  | object o =>
    have hread : ∀ key, w'.readKey e o key = w.readKey e o key := by
      intro key
      have hkey := (h.alike.memory.properties hobject).ofText? key
      rw [World.readKey_eq, World.readKey_eq, World.interner, World.interner, h.internerId,
        h.internerId', hkey]
    rw [World.readIndex?, World.readIndex?, h.alike.memory.display?]
    exact congrArg (Option.map · _) (funext fun key => congrArg Except.ok (hread key))
  | array a => rw [World.readIndex?, World.readIndex?, h.alike.memory.items]
  | string s | number x | bool b | native o => rfl

/-- The function of a parameter is found alike. -/
lemma requireFunction {scope : Scope} (he : scope.engine = e) {f : Id .function} {i : ℕ} {n : Name}
    (htarget : D.reads (.parameter f i n)) :
    (Command.requireFunction scope (.parameter f i n) f).run w' =
      ((Command.requireFunction scope (.parameter f i n) f).run w).mapState fun _ => w' := by
  subst he
  have huses : D.Uses (.parameter f i n) := Or.inl htarget
  simp only [Command.run, VarRef.functionOf, Action.bind_apply, Action.state]
  rcases h.function_cases (.inr ⟨_, huses, rfl⟩) with ⟨hx, hx'⟩ | ⟨x, x', hx, hx', -⟩
  · rw [hx, hx', h.danglingError huses]
    rfl
  · rw [hx, hx']
    rfl

/-- The argument of a parameter is the same. -/
lemma argument? {f : Id .function} (hf : D.RefersTo f) (i : ℕ) :
    Machine.shared.argument? f i w' = (Machine.shared.argument? f i w).mapState fun _ => w' := by
  simp only [Machine.shared]
  rcases h.function_cases hf with ⟨hx, hx'⟩ | ⟨x, x', hx, hx', hsame⟩
  · rw [hx, hx']
    rfl
  · have hframe : x'.unnumbered.frame = x.unnumbered.frame :=
      congrArg FunctionInstance.frame hsame
    rw [hx, hx']
    exact congrArg (fun frame => Outcome.done (CallFrame.argument? frame i) w') hframe

/-- An argument is handed over alike. -/
lemma deliver {scope : Scope} (he : scope.engine = e) {n : Name} (hn : (w₀.interner e).Knows n)
    (argument : Option Value) :
    VarRef.deliver scope n argument w' = (VarRef.deliver scope n argument w).mapState fun _ => w' := by
  subst he
  cases argument with
  | some v => rfl
  | none =>
    simp only [VarRef.deliver, Action.bind_apply, Action.state]
    rw [h.lookup hn]
    rfl

/-- A variable is read alike. -/
lemma get {scope : Scope} (he : scope.engine = e) {target : VarRef} (htarget : D.reads target) :
    target.get scope w' = (target.get scope w).mapState fun _ => w' := by
  subst he
  have huses : D.Uses target := Or.inl htarget
  have hdeclares := h.provides.grounds.uses huses
  have hdangling := h.danglingError huses
  cases target with
  | register i =>
    simp only [VarRef.get, Action.bind_apply, Action.state, Register.get]
    rw [h.engine.slots i hdeclares]
    rfl
  | global n =>
    simp only [VarRef.get, Action.bind_apply, Action.state]
    rw [h.engine.globals]
    rfl
  | functionLocal f n =>
    simp only [VarRef.get, Action.bind_apply, Action.state]
    rcases h.function_cases (.inr ⟨_, huses, rfl⟩) with ⟨hx, hx'⟩ | ⟨x, x', hx, hx', hsame⟩
    · rw [hx, hx', hdangling]
      rfl
    · have hlocals : x'.unnumbered.locals = x.unnumbered.locals :=
        congrArg FunctionInstance.locals hsame
      rw [hx, hx']
      exact congrArg (fun locals => Outcome.done (PropertyBag.read locals n) w') hlocals
  | callbackLocal c n =>
    simp only [VarRef.get, Action.bind_apply, Action.state]
    rw [h.callback? ⟨_, huses, rfl⟩, hdangling]
    cases w.callback? c <;> rfl
  | parameter f i n =>
    simp only [VarRef.get, VarRef.functionOf, Action.bind_apply, Action.state]
    rcases h.function_cases (.inr ⟨_, huses, rfl⟩) with ⟨hx, hx'⟩ | ⟨x, x', hx, hx', hsame⟩
    · rw [hx, hx', hdangling]
      rfl
    · have hframe : x'.unnumbered.frame = x.unnumbered.frame :=
        congrArg FunctionInstance.frame hsame
      have hargument : x'.frame.argument? i = x.frame.argument? i :=
        congrArg (CallFrame.argument? · i) hframe
      rw [hx, hx']
      simp only [Action.pure_apply]
      rw [hargument]
      exact h.deliver rfl hdeclares.2 _
  | callbackParameter c i n =>
    simp only [VarRef.get, Action.bind_apply, Action.state]
    rw [h.callback? ⟨_, huses, rfl⟩, hdangling]
    cases w.callback? c <;> rfl

/-- A command that only looks at the world finds the same in both. -/
theorem query {α : Type} {k : Command α} (hk : D.Allows k) (hquery : k.IsQuery) :
    k.run w' = (k.run w).mapState fun _ => w' := by
  cases k with
  | get scope target => exact h.get (h.provides.grounds.engine.1 hk.1) hk.2
  | requireFunction scope target f =>
    obtain ⟨hscope, i, n, rfl, htarget⟩ := hk
    exact h.requireFunction (h.provides.grounds.engine.1 hscope) htarget
  | deliver scope n argument =>
    obtain ⟨hscope, ⟨f, i, htarget⟩, -⟩ := hk
    exact h.deliver (h.provides.grounds.engine.1 hscope) (h.provides.grounds.uses (.inl htarget)).2 _
  | deeper scope =>
    have he := h.provides.grounds.engine.1 hk
    rw [Command.run_deeper, Command.run_deeper, he, h.engine.maxCallDepth]
    split <;> rfl
  | functionBody f =>
    simp only [Command.run, Action.bind_apply, Action.state]
    rcases h.function_cases (.inl hk) with ⟨hx, hx'⟩ | ⟨x, x', hx, hx', hsame⟩
    · rw [hx, hx']
      rfl
    · have hbody : x'.unnumbered.body = x.unnumbered.body := congrArg FunctionInstance.body hsame
      rw [hx, hx']
      exact congrArg (fun body => Outcome.done body w') hbody
  | callbackBody c => exact absurd hk h.provides.grounds.byName
  | findFunction d name count | findCallback d name count =>
    exact absurd hk.2 h.provides.grounds.byName
  | checkApiCall d object function slot count =>
    obtain rfl := h.provides.grounds.engine.1 hk.1
    simp only [Command.run, World.checkApiCall]
    split
    · simp only [Action.bind_apply, Action.state]
      rw [h.lookup (h.provides.grounds.names hk.2)]
      rfl
    · rfl
  | resolution site =>
    obtain ⟨target, function, hsite⟩ := hk
    simp only [Command.run, Action.bind_apply, Action.state]
    rw [h.resolution? hsite]
    rfl
  | findMethod d target v function count =>
    obtain ⟨hd, hv, htarget, site, hsite⟩ := hk
    obtain rfl := h.provides.grounds.engine.1 hd
    have hlookup := h.lookup (h.provides.grounds.objectCalls hsite).2
    simp only [Command.run, World.findMethod, Action.bind_apply, Action.state]
    cases v with
    | native object =>
      have hclass := h.apiClass (h.provides.grounds.hosts.2 hv)
      dsimp only
      rw [hclass, hlookup]
      cases (w.apiClass object).slot? function with
      | none => rfl
      | some slot =>
        dsimp only
        split <;> rfl
    | undefined =>
      dsimp only
      rw [h.nameText (.inl htarget)]
      rfl
    | _ => rfl
  | compute op left right =>
    have hcompute : op.compute? w'.memory left right = op.compute? w.memory left right := by
      cases op with
      | add =>
        change w'.memory.add? left right = w.memory.add? left right
        unfold Memory.add?
        rw [h.alike.memory.display?]
      | _ => rfl
    simp only [Command.run, Action.bind_apply, Action.state]
    rw [hcompute]
    cases op.compute? w.memory left right <;> rfl
  | readMember d object property =>
    obtain ⟨hd, hobject, hproperty⟩ := hk
    obtain rfl := h.provides.grounds.engine.1 hd
    simp only [Command.run, Action.bind_apply, Action.state]
    rw [h.readMember hobject hproperty]
    cases w.readMember d object property <;> rfl
  | readIndex d object index =>
    obtain ⟨hd, hobject, -⟩ := hk
    obtain rfl := h.provides.grounds.engine.1 hd
    simp only [Command.run, Action.bind_apply, Action.state]
    rw [h.readIndex? hobject index]
    cases w.readIndex? d object index with
    | none => rfl
    | some result => cases result <;> rfl
  | apiClass object | memory | display v | inspectFrame d name => exact hk.elim
  | set | keepResult | report | keepResolution | newArray | newObject | runCode | modifyMemory
  | allocate => exact hquery.elim

/-! ### What is found -/

/-- A variable holds a value of the vocabulary. -/
lemma value_of_get {scope : Scope} (he : scope.engine = e) {target : VarRef}
    (htarget : D.reads target) {v : Value} (hv : v ∈ (target.get scope w).value?) : D.value v := by
  subst he
  have huses : D.Uses target := Or.inl htarget
  have hundefined : D.value .undefined := D.value_of_isPlain trivial
  cases VarRef.holds_of_get hv with
  | register i => exact h.shows.engine.register i
  | global n => exact h.shows.engine.globals n
  | functionLocal hx n => exact (h.shows.function (.inr ⟨_, huses, rfl⟩) hx).locals n
  | callbackLocal hx n => exact (h.shows.callback ⟨_, huses, rfl⟩ hx).locals n
  | parameter hx hargument n =>
    exact (h.shows.function (.inr ⟨_, huses, rfl⟩) hx).argument? hundefined hargument
  | callbackParameter hx i n =>
    exact (h.shows.callback ⟨_, huses, rfl⟩ hx).argument hundefined i

/-- A member is in the vocabulary. -/
lemma value_of_readMember {object : Value} (hobject : D.value object) {property : Name} {v : Value}
    (hv : w.readMember e object property = .ok v) : D.value v := by
  cases object with
  | undefined => exact nomatch hv
  | object o =>
    obtain rfl := Except.ok.inj hv
    exact h.alike.memory.value_of_read hobject property
  | array a | string s =>
    obtain rfl := Except.ok.inj hv
    split <;> exact D.value_of_isPlain trivial
  | native o =>
    obtain rfl := Except.ok.inj hv
    have ho := h.provides.grounds.hosts.2 hobject
    cases hconstant : (w.apiClass o).constant? property with
    | none => exact D.value_of_isPlain trivial
    | some v =>
      rw [apiClass_eq_of_code_eq h.code] at hconstant
      exact h.provides.grounds.constant ho hconstant
  | number x | bool b =>
    obtain rfl := Except.ok.inj hv
    exact D.value_of_isPlain trivial

/-- An item is in the vocabulary. -/
lemma value_of_readIndex? {object index : Value} (hobject : D.value object) {v : Value}
    (hv : w.readIndex? e object index = some (.ok v)) : D.value v := by
  have hundefined : D.value .undefined := D.value_of_isPlain trivial
  cases object with
  | undefined =>
    obtain ⟨key, -, hkey⟩ := Option.map_eq_some_iff.1 hv
    exact nomatch hkey
  | object o =>
    obtain ⟨key, -, hkey⟩ := Option.map_eq_some_iff.1 hv
    obtain rfl := Except.ok.inj hkey
    unfold World.readKey
    split
    · exact h.alike.memory.value_of_read hobject _
    · exact hundefined
  | array a =>
    obtain rfl := Except.ok.inj (Option.some.inj hv)
    cases hitem : index.position?.bind fun i => (w.memory.items a)[i]? with
    | none => exact hundefined
    | some v =>
      obtain ⟨i, -, hi⟩ := Option.bind_eq_some_iff.1 hitem
      exact h.alike.memory.item hobject (Array.mem_of_getElem? hi)
  | string s =>
    obtain rfl := Except.ok.inj (Option.some.inj hv)
    cases index.position?.bind fun i => s.toList[i]? <;> exact D.value_of_isPlain trivial
  | number x | bool b | native o =>
    obtain rfl := Except.ok.inj (Option.some.inj hv)
    exact hundefined

/-- What a command gives is in the vocabulary. -/
theorem yields {α : Type} {k : Command α} (hk : D.Allows k) {a : α} (ha : a ∈ (k.run w).value?) :
    D.Yields k a := by
  cases k with
  | get scope target => exact h.value_of_get (h.provides.grounds.engine.1 hk.1) hk.2 ha
  | deliver scope n argument =>
    cases argument with
    | none => cases ha
    | some v =>
      obtain rfl := Option.some.inj ha
      exact hk.2.2 v rfl
  | deeper scope =>
    rw [Command.run_deeper] at ha
    split at ha
    · cases ha
    · obtain rfl := Option.some.inj ha
      exact hk
  | functionBody f =>
    intro s hs
    obtain rfl : w.body? f = a := Option.some.inj ha
    rw [body?_eq_of_code_eq h.code] at hs
    exact h.provides.grounds.body hk hs
  | callbackBody c => exact absurd hk h.provides.grounds.byName
  | findFunction d name count | findCallback d name count =>
    exact absurd hk.2 h.provides.grounds.byName
  | resolution site =>
    obtain ⟨target, function, hsite⟩ := hk
    obtain rfl := Option.some.inj ha
    exact fun r hr => h.shows.resolution hsite hr
  | findMethod d target v function count =>
    simp only [Command.run, World.findMethod, Action.bind_apply, Action.state] at ha
    cases v with
    | native object =>
      cases hslot : (w.apiClass object).slot? function with
      | none =>
        simp only [hslot] at ha
        cases ha
      | some slot =>
        simp only [hslot] at ha
        split at ha
        · cases ha
        · obtain rfl := Option.some.inj ha
          exact h.provides.grounds.hosts.2 hk.2.1
    | _ => cases ha
  | compute op left right =>
    simp only [Command.run, Action.bind_apply, Action.state] at ha
    cases hcompute : op.compute? w.memory left right with
    | none =>
      rw [hcompute] at ha
      cases ha
    | some v =>
      rw [hcompute] at ha
      obtain rfl := Option.some.inj ha
      exact D.value_of_isPlain (BinaryOp.isPlain_of_compute? hcompute)
  | newArray items =>
    obtain rfl := Option.some.inj ha
    exact h.provides.grounds.newArray h.alike.memory.grownArrays
  | newObject properties =>
    obtain rfl := Option.some.inj ha
    exact h.provides.grounds.newObject h.alike.memory.grownObjects
  | readMember d object property =>
    obtain rfl := h.provides.grounds.engine.1 hk.1
    simp only [Command.run, Action.bind_apply, Action.state] at ha
    cases hread : w.readMember d object property with
    | error err =>
      rw [hread] at ha
      cases ha
    | ok v =>
      rw [hread] at ha
      obtain rfl := Option.some.inj ha
      exact h.value_of_readMember hk.2.1 hread
  | readIndex d object index =>
    obtain rfl := h.provides.grounds.engine.1 hk.1
    simp only [Command.run, Action.bind_apply, Action.state] at ha
    cases hread : w.readIndex? d object index with
    | none =>
      rw [hread] at ha
      cases ha
    | some result =>
      rw [hread] at ha
      cases result with
      | error err => cases ha
      | ok v =>
        obtain rfl := Option.some.inj ha
        exact h.value_of_readIndex? hk.2.1 hread
  | _ => trivial

end World.InStep

end ScriptEngine
