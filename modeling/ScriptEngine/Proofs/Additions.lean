import Mathlib.Data.Fintype.Pigeonhole
import Mathlib.Order.WellFounded
import ScriptEngine.Proofs.LoopFree
import ScriptEngine.Proofs.Tracking

/-!
# Memories that are only added to

One memory is later than another one if it has all arrays of it, as they were.  This is an order on
memories, and what is there in one memory is there in all later ones.

A script makes arrays and objects and never changes one.  A host function may do more than that.  If
it only adds as well, and hands over no references to what is not there, then the memory is sound
after it as before.  It may enter the engine while it runs; what matters is what it does from the
memory on that it finds.  The functions of `Console` and `Math` only add.

Main statements: `Memory.Acyclic.wellFounded`, `Memory.Sound.adds_newArray`,
`Host.consoleClass_adds` and `Host.mathClass_adds`.
-/

namespace ScriptEngine

namespace Memory

/-! ### Later memories -/

/-- The second memory has the arrays of the first one, as they were. -/
structure Retains (m m' : Memory) : Prop where
  size : m.arrays.size ≤ m'.arrays.size
  items : ∀ a, a.index < m.arrays.size → m'.items a = m.items a

/-- Memories, in the order in which they come. -/
instance : Preorder Memory where
  le := Retains
  le_refl _ := ⟨Nat.le_refl _, fun _ _ => rfl⟩
  le_trans _ _ _ h h' := ⟨Nat.le_trans h.size h'.size,
    fun a ha => (h'.items a (Nat.lt_of_lt_of_le ha h.size)).trans (h.items a ha)⟩

/-- The value refers to an array that is there, if to any array. -/
abbrev Has (m : Memory) (v : Value) : Prop :=
  v.Within m.arrays.size

/-- The second memory is later than the first one, and sound. -/
structure Adds (m m' : Memory) : Prop where
  le : m ≤ m'
  sound : m'.Sound

variable {m m' : Memory}

/-- What is there is there later. -/
lemma Has.mono {v : Value} (h : m.Has v) (hm : m.arrays.size ≤ m'.arrays.size) : m'.Has v :=
  Value.Within.mono h hm

/-- Neither interners nor printers nor counters have anything to do with it. -/
lemma Adds.of_same (h : m.Sound) (harrays : m'.arrays = m.arrays)
    (hobjects : m'.objects = m.objects) : m.Adds m' := by
  have hitems : m'.items = m.items := funext fun a => by rw [items, items, harrays]
  have hproperties : m'.properties = m.properties :=
    funext fun o => by rw [properties, properties, hobjects]
  have hholds : m'.Holds = m.Holds := by
    unfold Holds
    rw [hitems]
  refine ⟨⟨?_, fun a _ => ?_⟩, fun a v hv => ?_, fun o n => ?_, ?_⟩
  · rw [harrays]
  · rw [hitems]
  · rw [hitems] at hv
    rw [harrays]
    exact h.items a v hv
  · rw [hproperties, harrays]
    exact h.properties o n
  · unfold Acyclic
    rw [hholds]
    exact h.acyclic

/-! ### Arrays hold no cycles -/

/-- Where no array holds itself, going from an array to one that it holds comes to an end. -/
theorem Acyclic.wellFounded (h : m.Acyclic) : WellFounded fun b a => m.Holds a b := by
  rw [wellFounded_iff_isEmpty_descending_chain]
  refine ⟨fun chain => ?_⟩
  obtain ⟨f, hf⟩ := chain
  have hchain : ∀ {i j}, i < j → Relation.TransGen m.Holds (f i) (f j) := by
    intro i j hij
    induction hij with
    | refl => exact .single (hf i)
    | step _ ih => exact ih.tail (hf _)
  -- each array of the chain holds the next one, so that there is one array twice
  let place (i : ℕ) : Fin m.arrays.size := ⟨(f i).index, index_lt_of_transGen (.single (hf i))⟩
  obtain ⟨i, j, hne, hplace⟩ := Finite.exists_ne_map_eq_of_infinite place
  have hsame : f i = f j := congrArg Id.mk (congrArg Fin.val hplace)
  rcases Nat.lt_or_gt_of_ne hne with hij | hji
  · have hcycle := hchain hij
    rw [hsame] at hcycle
    exact h _ hcycle
  · have hcycle := hchain hji
    rw [hsame] at hcycle
    exact h _ hcycle

/-! ### What scripts make -/

/-- A new array whose items are there is added. -/
theorem Sound.adds_newArray (h : m.Sound) {vs : Array Value} (hvs : ∀ v ∈ vs, m.Has v) :
    m.Adds (m.newArray vs).2 := by
  have hgrows := h.newArray hvs
  refine ⟨⟨hgrows.size, fun a ha => ?_⟩, hgrows.sound⟩
  rw [items_newArray, if_neg (Nat.ne_of_lt ha)]

/-- A new object whose properties are there is added. -/
theorem Sound.adds_newObject (h : m.Sound) {bag : PropertyBag} (hbag : ∀ n, m.Has (bag.read n)) :
    m.Adds (m.newObject bag).2 :=
  ⟨⟨Nat.le_refl _, fun _ _ => rfl⟩, (h.newObject hbag).sound⟩

end Memory

/-! ### Trees -/

/-- The machine code only adds, whatever it is given that is there. -/
def MachineCode.OnlyAdds (code : MachineCode) : Prop :=
  ∀ (slots : List Value) (m : Memory), m.Sound → (∀ v ∈ slots, m.Has v) → m.Adds (code slots m).2

/-- Values refer to arrays that are there, and machine code only adds.  Of native objects nothing is
asked here, as those of an orderly world only add anyway. -/
def Trust.adding : Trust Memory where
  value := Memory.Has
  host _ _ := True
  method _ := True
  code := MachineCode.OnlyAdds
  value_of_isPlain m v hv := by cases v <;> trivial
  value_mono h hm := h.mono hm.size

/-- The literals of the statement are there, and the snippets that it calls only add. -/
def Stmt.Adds (m : Memory) (s : Stmt) : Prop :=
  s.Everywhere (Trust.adding.Permits m) fun _ => True

/-- The literals of the tree are there, and the snippets that it calls only add. -/
def Tree.Adds (m : Memory) : Tree → Prop
  | .expr e => e.Everywhere (Trust.adding.Permits m)
  | .stmt s => s.Adds m

variable {m m' : Memory}

/-- What is there is there when there are more arrays. -/
lemma Trust.permits_adding_mono {node : ExprNode} (h : Trust.adding.Permits m node)
    (hm : m.arrays.size ≤ m'.arrays.size) : Trust.adding.Permits m' node := by
  cases node with
  | literal v | apiConstant v => exact Memory.Has.mono h hm
  | snippetCall snippet args => exact h
  | _ => trivial

/-- A statement is all right when there are more arrays. -/
lemma Stmt.Adds.mono {s : Stmt} (h : s.Adds m) (hm : m.arrays.size ≤ m'.arrays.size) : s.Adds m' :=
  Stmt.Everywhere.mono h (fun _ hnode => Trust.permits_adding_mono hnode hm) fun _ _ => trivial

/-! ### Host functions -/

/-- From the memory on, the program only adds, and hands over what is there.  What it does after it
has entered the engine it may do from any later memory on. -/
def Host.Program.OnlyAdds : Host.Program → Memory → Prop
  | finish result, m => ∀ v, result = .ok v → m.Has v
  | read next, m => (next m).OnlyAdds m
  | write change next, m => m.Adds (change m) ∧ next.OnlyAdds (change m)
  | allocate make next, m =>
    m.Adds (make m).2 ∧ (make m).2.Has (make m).1 ∧ (next (make m).1).OnlyAdds (make m).2
  | display v next, m => ∀ text, m.display? v = some text → (next text).OnlyAdds m
  | execute script next, m =>
    script.Adds m ∧ ∀ result m', m.Adds m' → (∀ v, result = .ok v → m'.Has v) →
      (next result).OnlyAdds m'
  | callFunction _ args next, m | invokeCallback _ args next, m =>
    (∀ v ∈ args, m.Has v) ∧ ∀ result m', m.Adds m' → (∀ v, result = .ok v → m'.Has v) →
      (next result).OnlyAdds m'
  | inspectFrame _ next, m =>
    ∀ view : Host.FrameView, (∀ frame ∈ view, ∀ v ∈ frame.arguments, m.Has v) →
      (next view).OnlyAdds m

/-- The function only adds, whatever it is given that is there.  What it holds itself is there in
`m₀`. -/
def Host.Function.OnlyAdds (m₀ : Memory) (f : Host.Function) : Prop :=
  ∀ args m, m₀.arrays.size ≤ m.arrays.size → m.Sound → (∀ v ∈ args, m.Has v) → (f args).OnlyAdds m

/-- The functions of the class only add, and its constants are there. -/
structure Host.ApiClass.Adds (m : Memory) (c : Host.ApiClass) : Prop where
  functions : ∀ f ∈ c.functions, Host.Function.OnlyAdds m f.body
  constants : ∀ n, ∀ v ∈ c.constant? n, m.Has v

namespace Host

variable {m m' : Memory}

/-- A class only adds later as well. -/
lemma ApiClass.Adds.mono {c : ApiClass} (h : c.Adds m) (hm : m.arrays.size ≤ m'.arrays.size) :
    c.Adds m' :=
  ⟨fun f hf args m'' hm'' => h.functions f hf args m'' (hm.trans hm''),
    fun n v hv => (h.constants n v hv).mono hm⟩

/-- A call of a function of a class only adds. -/
lemma ApiClass.Adds.call {c : ApiClass} (h : c.Adds m) (index : ℕ) {args : List Value}
    (hm : m.Sound) (hargs : ∀ v ∈ args, m.Has v) : (c.call index args).OnlyAdds m := by
  unfold ApiClass.call
  cases hfunction : c.functions[index]? with
  | none =>
    intro v hv
    cases hv
  | some f => exact h.functions f (Array.mem_of_getElem? hfunction) args m le_rfl hm hargs

/-- A class without entries has nothing to add. -/
lemma ApiClass.adds_named (m : Memory) (name : String) : (ApiClass.named name).Adds m where
  functions f hf := absurd hf (Array.not_mem_empty f)
  constants n v hv := by cases hv

/-- Printing only adds. -/
lemma print_onlyAdds (m₀ : Memory) (p : Id .printer) : Function.OnlyAdds m₀ (print p) := by
  intro args m _ hm _
  cases args with
  | nil =>
    intro v hv
    obtain rfl := Except.ok.inj hv
    exact trivial
  | cons v rest =>
    refine fun text _ => ⟨.of_same hm rfl rfl, fun u hu => ?_⟩
    obtain rfl := Except.ok.inj hu
    exact trivial

/-- A function that only computes a number adds nothing. -/
lemma number_onlyAdds (m₀ : Memory) (compute : List Value → Float) :
    Function.OnlyAdds m₀ fun args => .succeed (.number (compute args)) := by
  intro args m _ _ _ v hv
  obtain rfl := Except.ok.inj hv
  exact trivial

/-! ### The classes of every engine -/

/-- Functions are no constants. -/
lemma constants_foldl_withFunction (i : Id .interner) (fs : List FunctionEntry)
    (acc : ApiClass × Memory) :
    (fs.foldl (ApiClass.withFunction i) acc).1.constants = acc.1.constants := by
  induction fs generalizing acc with
  | nil => rfl
  | cons f rest ih =>
    rw [List.foldl_cons, ih]
    rfl

/-- All constants of a class have a property when those that were added have it. -/
lemma forall_constants_foldl {P : Value → Prop} (i : Id .interner) (cs : List (String × Value))
    (acc : ApiClass × Memory) (hacc : ∀ n, ∀ v ∈ acc.1.constant? n, P v) (hcs : ∀ c ∈ cs, P c.2) :
    ∀ n, ∀ v ∈ (cs.foldl (ApiClass.withConstant i) acc).1.constant? n, P v := by
  induction cs generalizing acc with
  | nil => exact hacc
  | cons c rest ih =>
    refine ih _ (fun n v hv => ?_) fun d hd => hcs d (by simp [hd])
    have hget : (acc.1.constants.insert (acc.2.intern i c.1).1 c.2).get? n = some v := hv
    rw [NameMap.get?_insert] at hget
    by_cases hn : n = (acc.2.intern i c.1).1
    · rw [if_pos hn] at hget
      obtain rfl := Option.some.inj hget
      exact hcs c (by simp)
    · rw [if_neg hn] at hget
      exact hacc n v hget

/-- The class `Console` only adds. -/
theorem consoleClass_adds (m₀ m : Memory) (i : Id .interner) (p : Id .printer) :
    (consoleClass m₀ i p).1.Adds m where
  functions := forall_functions_consoleClass (print_onlyAdds m p) m₀ i
  constants n v hv := by cases hv

/-- The class `Math` only adds. -/
theorem mathClass_adds (m₀ m : Memory) (i : Id .interner) : (mathClass m₀ i).1.Adds m where
  functions := forall_functions_mathClass (number_onlyAdds m) m₀ i
  constants n v hv := by
    unfold mathClass at hv
    rw [ApiClass.constant?, constants_foldl_withFunction] at hv
    have hnone : ∀ n, ∀ v ∈ (ApiClass.named "Math").constant? n, m.Has v := by
      intro n v hv
      cases hv
    refine forall_constants_foldl i Math.constants _ hnone (fun c hc => ?_) n v hv
    simp only [Math.constants, List.mem_cons, List.not_mem_nil, or_false] at hc
    rcases hc with rfl | rfl | rfl <;> trivial

end Host

end ScriptEngine
