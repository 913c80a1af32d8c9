import ScriptEngine.Proofs.InStep
import ScriptEngine.Proofs.LoopFree
import ScriptEngine.Session.Behaviour

/-!
# Host functions on memories that are alike

The classes of every engine act alike on memories that are alike, and so does any behaviour of a
session's class that has a name, unless it asks for something beyond the memory: it enters the engine
again, or looks at a call frame.  A behaviour that names properties does so by the interner of the
engine.  Interning a text may give it different names in the two memories; the bags stay alike, since
they are compared by texts.

Main statements: `Host.consoleClass_actsAlike`, `Host.mathClass_actsAlike` and
`Session.Behaviour.body_actsAlike`.
-/

namespace ScriptEngine

namespace World.AlikeMemories

variable {w₀ : World} {e : Id .engine} {D : Vocabulary} {m m' : Memory}
  (h : w₀.AlikeMemories e D m m')

include h

/-! ### Changes of both memories -/

/-- A line is printed in both memories. -/
lemma println (p : Id .printer) (line : String) :
    w₀.AlikeMemories e D (m.println p line) (m'.println p line) where
  __ := h
  printers := by
    unfold Memory.println
    rw [h.printers]

/-- Both memories count one up. -/
lemma count (c : Id .counter) : w₀.AlikeMemories e D (m.count c) (m'.count c) where
  __ := h
  counters := by
    unfold Memory.count
    rw [h.counters]

/-- The counters are the same. -/
lemma counter (c : Id .counter) : m'.counter c = m.counter c := by
  unfold Memory.counter
  rw [h.counters]

/-- The items of an array are changed in both memories, to values that the evaluation may come
across. -/
lemma modifyItems (a : Id .array) {change : Array Value → Array Value}
    (hchange : ∀ items, (∀ v ∈ items, D.value v) → ∀ v ∈ change items, D.value v) :
    w₀.AlikeMemories e D (m.modifyItems a change) (m'.modifyItems a change) where
  __ := h
  arrays := by
    unfold Memory.modifyItems
    rw [h.arrays]
  grownArrays := by
    unfold Memory.modifyItems
    rw [Pool.size_update]
    exact h.grownArrays
  item {b v} hb hv := by
    unfold Memory.modifyItems Memory.items at hv
    dsimp only at hv
    rw [Pool.get?_update] at hv
    split at hv
    · cases hitems : m.arrays.get? b with
      | none =>
        rw [hitems] at hv
        exact absurd hv (Array.not_mem_empty v)
      | some items =>
        rw [hitems] at hv
        refine hchange items (fun u hu => h.item hb ?_) v hv
        unfold Memory.items
        rwa [hitems]
    · exact h.item hb hv

/-- The properties of an object are changed in both memories, to bags that are alike. -/
lemma modifyProperties {o : Id .object} {change change' : PropertyBag → PropertyBag}
    (ho : D.value (.object o))
    (halike : ∀ {bag bag'}, PropertyBag.Alike (m.interner (w₀.engine e).interner)
        (m'.interner (w₀.engine e).interner) bag bag' →
      PropertyBag.Alike (m.interner (w₀.engine e).interner)
        (m'.interner (w₀.engine e).interner) (change bag) (change' bag'))
    (hvalue : ∀ {bag n v}, (change bag).get? n = some v → D.value v ∨ bag.get? n = some v) :
    w₀.AlikeMemories e D (m.modifyProperties o change) (m'.modifyProperties o change') where
  __ := h
  objectCount := by
    unfold Memory.modifyProperties
    rw [Pool.size_update, Pool.size_update, h.objectCount]
  unseen p hp := by
    have hne : o ≠ p := fun hop => hp (hop ▸ ho)
    unfold Memory.modifyProperties
    dsimp only
    rw [Pool.get?_update_of_ne _ _ hne, Pool.get?_update_of_ne _ _ hne, h.unseen p hp]
  seen p hp := by
    have hseen := h.seen p hp
    change Option.Rel (PropertyBag.Alike (m.interner _) (m'.interner _))
      ((m.objects.update o change).get? p) ((m'.objects.update o change').get? p)
    rw [Pool.get?_update, Pool.get?_update]
    split
    · generalize m.objects.get? p = bag, m'.objects.get? p = bag' at hseen
      cases hseen with
      | some hbags => exact .some (halike hbags)
      | none => exact .none
    · exact hseen
  grownObjects := by
    unfold Memory.modifyProperties
    rw [Pool.size_update]
    exact h.grownObjects
  property {p n v} hp hv := by
    unfold Memory.modifyProperties Memory.properties at hv
    dsimp only at hv
    rw [Pool.get?_update] at hv
    split at hv
    · cases hbag : m.objects.get? p with
      | none =>
        rw [hbag] at hv
        exact nomatch hv
      | some bag =>
        rw [hbag] at hv
        rcases hvalue hv with hv | hv
        · exact hv
        · have hproperties : (m.properties p).get? n = some v := by
            unfold Memory.properties
            rwa [hbag]
          exact h.property hp hproperties
    · exact h.property hp hv

/-! ### Properties that are named by texts -/

section

variable (hheld : (w₀.memory.interners.get? (w₀.engine e).interner).isSome)
  {o : Id .object} (ho : D.value (.object o)) (s : String)

include ho

/-- What an object has under a text, which may be interned for that. -/
lemma read_intern :
    (m'.properties o).read (m'.intern (w₀.engine e).interner s).1 =
      (m.properties o).read (m.intern (w₀.engine e).interner s).1 := by
  have hbags := h.properties ho
  unfold PropertyBag.read
  exact congrArg (Option.getD · .undefined) <|
    (hbags.known'.get?_intern s).trans ((hbags.ofText? s).trans (hbags.known.get?_intern s).symm)

include hheld

/-- A property is set in both memories, under the names that they give to a text. -/
lemma insert_intern {v : Value} (hv : D.value v) :
    w₀.AlikeMemories e D
      ((m.intern (w₀.engine e).interner s).2.modifyProperties o
        (·.insert (m.intern (w₀.engine e).interner s).1 v))
      ((m'.intern (w₀.engine e).interner s).2.modifyProperties o
        (·.insert (m'.intern (w₀.engine e).interner s).1 v)) := by
  have hn := m.get?_interner_intern s (h.held ▸ hheld)
  have hn' := m'.get?_interner_intern s (h.held' ▸ hheld)
  refine (h.intern s).modifyProperties ho (fun hbags => hbags.insert hn hn' v) ?_
  intro bag n u hu
  rw [NameMap.get?_insert] at hu
  split at hu
  · exact Or.inl (Option.some.inj hu ▸ hv)
  · exact Or.inr hu

/-- A property is removed in both memories, under the names that they give to a text. -/
lemma erase_intern :
    w₀.AlikeMemories e D
      ((m.intern (w₀.engine e).interner s).2.modifyProperties o
        (·.erase (m.intern (w₀.engine e).interner s).1))
      ((m'.intern (w₀.engine e).interner s).2.modifyProperties o
        (·.erase (m'.intern (w₀.engine e).interner s).1)) := by
  have hn := m.get?_interner_intern s (h.held ▸ hheld)
  have hn' := m'.get?_interner_intern s (h.held' ▸ hheld)
  refine (h.intern s).modifyProperties ho (fun hbags => hbags.erase hn hn') ?_
  intro bag n u hu
  rw [NameMap.get?_erase] at hu
  split at hu
  · exact nomatch hu
  · exact Or.inr hu

end

end World.AlikeMemories

/-! ### Programs -/

namespace Host

variable {T : Stmt → Prop} {R : Memory → Memory → Prop} {V : Value → Prop} {m m' : Memory}

/-- A program succeeds alike. -/
lemma Program.ActsAlike.succeed (hm : R m m') {v : Value} (hv : V v) :
    Program.ActsAlike T R V (.succeed v) m (.succeed v) m' :=
  .finish hm fun _ hu => Except.ok.inj hu ▸ hv

/-- A program fails alike. -/
lemma Program.ActsAlike.fail (hm : R m m') (err : EvalError) :
    Program.ActsAlike T R V (.fail err) m (.fail err) m' :=
  .finish hm fun _ hv => nomatch hv

/-- A program that asks for several texts acts alike if it does so with each of them. -/
lemma Program.ActsAlike.displayAll (hm : R m m') {next : List String → Program}
    (hnext : ∀ texts, Program.ActsAlike T R V (next texts) m (next texts) m') (vs : List Value) :
    Program.ActsAlike T R V (.displayAll vs next) m (.displayAll vs next) m' := by
  induction vs generalizing next with
  | nil => exact hnext []
  | cons v rest ih => exact .display hm fun text _ => ih fun texts => hnext (text :: texts)

/-- A call of a class acts alike when all its functions do. -/
lemma ApiClass.call_actsAlike {c : ApiClass} (h : ∀ f ∈ c.functions, Function.ActsAlike T R V f.body)
    (index : ℕ) : Function.ActsAlike T R V (c.call index) := by
  intro args hargs m m' hm
  unfold call
  cases hfunction : c.functions[index]? with
  | none => exact .fail hm _
  | some f => exact h f (Array.mem_of_getElem? hfunction) args hargs m m' hm

/-! ### The classes of every engine -/

variable {w : World} {e : Id .engine} {D : Vocabulary}

/-- Printing acts alike. -/
lemma print_actsAlike (p : Id .printer) :
    Function.ActsAlike T (w.AlikeMemories e D) D.value (print p) := by
  intro args _ m m' hm
  have hundefined : D.value .undefined := D.value_of_isPlain trivial
  cases args with
  | nil => exact .succeed hm hundefined
  | cons v rest =>
    exact .display hm fun line _ => .write (.succeed (hm.println p line) hundefined)

/-- A function that only computes a number acts alike. -/
lemma number_actsAlike (compute : List Value → Float) :
    Function.ActsAlike T (w.AlikeMemories e D) D.value
      fun args => .succeed (.number (compute args)) :=
  fun _ _ _ _ hm => .succeed hm (D.value_of_isPlain trivial)

/-- The functions of the class `Console` act alike. -/
theorem consoleClass_actsAlike (m : Memory) (i : Id .interner) (p : Id .printer) :
    ∀ f ∈ (consoleClass m i p).1.functions,
      Function.ActsAlike T (w.AlikeMemories e D) D.value f.body :=
  forall_functions_consoleClass (print_actsAlike p) m i

/-- The functions of the class `Math` act alike. -/
theorem mathClass_actsAlike (m : Memory) (i : Id .interner) :
    ∀ f ∈ (mathClass m i).1.functions, Function.ActsAlike T (w.AlikeMemories e D) D.value f.body :=
  forall_functions_mathClass number_actsAlike m i

end Host

/-! ### The classes of a session -/

namespace Session.Behaviour

/-- The function works on its arguments and on the memory alone. -/
def StaysInMemory : Behaviour → Prop
  | callFunction | invokeCallback | frame | closure .. => False
  | _ => True

variable {w : World} {e : Id .engine} {D : Vocabulary} {T : Stmt → Prop}

/-- An argument is in the vocabulary, also if it is missing. -/
lemma value_argument {args : List Value} (hargs : ∀ v ∈ args, D.value v) (i : ℕ) :
    D.value (argument args i) := by
  unfold argument
  cases hv : args[i]? with
  | none => exact D.value_of_isPlain trivial
  | some v => exact hargs v (List.mem_of_getElem? hv)

/-- A function of a session's class acts alike, if it stays in the memory and names properties by
the interner of the engine. -/
theorem body_actsAlike {b : Behaviour} (hb : b.StaysInMemory) (hgrounds : w.Grounds e D)
    (hheld : (w.memory.interners.get? (w.engine e).interner).isSome) {captures : Captures}
    (hinterner : captures.interner = (w.engine e).interner) :
    Host.Function.ActsAlike T (w.AlikeMemories e D) D.value (b.body captures) := by
  intro args hargs m m' hm
  have hplain : ∀ {v : Value}, v.IsPlain → D.value v := D.value_of_isPlain
  cases b with
  | undefined => exact .succeed hm (hplain trivial)
  | sum => exact .succeed hm (hplain trivial)
  | list =>
    have hvalue : (m'.newArray args.toArray).1 = (m.newArray args.toArray).1 := by
      unfold Memory.newArray
      rw [hm.arrays]
    exact .allocate hvalue (.succeed (hm.newArray hargs) (hgrounds.newArray hm.grownArrays))
  | first => exact .succeed hm (value_argument hargs 0)
  | fail | custom => exact .displayAll hm (fun _ => .fail hm _) args
  | locatedFail => exact .fail hm _
  | count =>
    refine .write (.read ?_)
    rw [(hm.count captures.counter).counter]
    exact .succeed (hm.count captures.counter) (hplain trivial)
  | push =>
    cases args with
    | nil => exact .succeed hm (hplain trivial)
    | cons v rest =>
      cases v with
      | array a =>
        have hchange : ∀ items : Array Value, (∀ u ∈ items, D.value u) →
            ∀ u ∈ items ++ rest.toArray, D.value u := by
          intro items hitems u hu
          rcases Array.mem_append.1 hu with hu | hu
          · exact hitems u hu
          · exact hargs u (List.mem_cons_of_mem _ (List.mem_toArray.1 hu))
        have hpushed := hm.modifyItems a hchange
        refine .write (.read ?_)
        rw [hpushed.items]
        exact .succeed hpushed (hplain trivial)
      | _ => exact .succeed hm (hplain trivial)
  | setProperty =>
    simp only [body, hinterner]
    split
    · rename_i o key v
      have ho : D.value (.object o) := hargs _ (by simp)
      have hv : D.value v := hargs _ (by simp)
      exact .display hm fun s _ => .write (.succeed (hm.insert_intern hheld ho s hv) hv)
    · exact .succeed hm (hplain trivial)
  | removeProperty =>
    simp only [body, hinterner]
    split
    · rename_i o key
      have ho : D.value (.object o) := hargs _ (by simp)
      refine .display hm fun s _ => .read (.write ?_)
      rw [hm.read_intern ho s]
      exact .succeed (hm.erase_intern hheld ho s) (hm.value_of_read ho _)
    · exact .succeed hm (hplain trivial)
  | callFunction | invokeCallback | frame | closure => exact hb.elim

end Session.Behaviour

end ScriptEngine
