import Mathlib.Data.List.Nodup
import Mathlib.Data.List.Perm.Subperm
import Mathlib.Logic.Relation
import ScriptEngine.Evaluation.Property
import ScriptEngine.Value.Operation

/-!
# Arrays that do not hold themselves

The text of a value goes through its arrays, and the search for it is given up where arrays nest
deeper than there are arrays.  A chain of arrays, each of which holds the next, never comes back to
an earlier one when no array holds itself; such a chain is no longer than the number of arrays, and
each value has a text.

A new array refers to older arrays alone.  So it closes no cycle, as long as no value refers to an
array that is not there yet.

Main statements: `Memory.Acyclic.isSome_display?` and `Memory.Sound.newArray`.
-/

namespace ScriptEngine

/-! ### Memories in which no array holds itself -/

/-- The value refers to one of the first `n` arrays, if to any array. -/
def Value.Within (n : ℕ) : Value → Prop
  | .array a => a.index < n
  | .undefined | .number _ | .bool _ | .string _ | .object _ | .native _ => True

/-- A value within fewer arrays is one within more of them. -/
lemma Value.Within.mono {n k : ℕ} {v : Value} (h : v.Within n) (hnk : n ≤ k) : v.Within k := by
  cases v with
  | array a => exact Nat.lt_of_lt_of_le h hnk
  | _ => trivial

namespace Memory

/-- The array `a` holds the array `b`. -/
def Holds (m : Memory) (a b : Id .array) : Prop :=
  Value.array b ∈ m.items a

/-- No array holds itself, directly or through other arrays. -/
def Acyclic (m : Memory) : Prop :=
  ∀ a, ¬Relation.TransGen m.Holds a a

/-- All references are to arrays that are there, since a reference keeps its array, and no array
holds itself. -/
structure Sound (m : Memory) : Prop where
  items : ∀ a, ∀ v ∈ m.items a, v.Within m.arrays.size
  properties : ∀ o n, ((m.properties o).read n).Within m.arrays.size
  acyclic : m.Acyclic

/-- The second memory is sound, and has all the arrays of the first one. -/
structure Grows (m m' : Memory) : Prop where
  sound : m'.Sound
  size : m.arrays.size ≤ m'.arrays.size

variable {m : Memory}

/-! ### Texts -/

/-- An array that holds something is there. -/
lemma index_lt_of_transGen {a b : Id .array} (h : Relation.TransGen m.Holds a b) :
    a.index < m.arrays.size := by
  obtain ⟨c, hac, -⟩ := Relation.TransGen.head'_iff.1 h
  by_contra hge
  have hnone : m.arrays.items[a.index]? = none :=
    Array.getElem?_eq_none (Nat.le_of_not_lt hge)
  simp [Holds, items, Pool.get?, hnone] at hac

/-- Pairwise distinct arrays that are there are no more than there are arrays. -/
lemma length_le_size {as : List (Id .array)} (hnodup : as.Nodup)
    (has : ∀ a ∈ as, a.index < m.arrays.size) : as.length ≤ m.arrays.size := by
  have hinjective : Function.Injective (@Id.index .array) := by
    rintro ⟨i⟩ ⟨j⟩ rfl
    rfl
  have hindices : (as.map Id.index).Nodup := List.Nodup.map hinjective hnodup
  have hsubset : as.map Id.index ⊆ List.range m.arrays.size := by
    intro i hi
    obtain ⟨a, ha, rfl⟩ := List.mem_map.1 hi
    exact List.mem_range.2 (has a ha)
  have hlength := (List.Nodup.subperm hindices hsubset).length_le
  rwa [List.length_map, List.length_range] at hlength

/-- All items have a result if each one has. -/
lemma isSome_mapM_of_forall {α β : Type} {f : α → Option β} {as : List α}
    (h : ∀ a ∈ as, (f a).isSome) : (as.mapM f).isSome := by
  induction as with
  | nil => rfl
  | cons a rest ih =>
    obtain ⟨b, hb⟩ := Option.isSome_iff_exists.1 (h a (by simp))
    obtain ⟨bs, hbs⟩ := Option.isSome_iff_exists.1 (ih fun c hc => h c (by simp [hc]))
    simp [List.mapM_cons, hb, hbs]

/-- A value has a text when it is reached through pairwise distinct arrays `above`, each of which
holds it, and the search may still go down by the number of all other arrays. -/
lemma Acyclic.isSome_displayWithin? (h : m.Acyclic) (depth : ℕ) (v : Value)
    (above : List (Id .array)) (hnodup : above.Nodup)
    (habove : ∀ b ∈ above, ∀ a, v = .array a → Relation.TransGen m.Holds b a)
    (hdepth : m.arrays.size < depth + above.length) : (m.displayWithin? depth v).isSome := by
  induction depth generalizing v above with
  | zero =>
    cases v with
    | array a =>
      have hlength : above.length ≤ m.arrays.size :=
        length_le_size hnodup fun b hb => index_lt_of_transGen (habove b hb a rfl)
      omega
    | _ => rfl
  | succ depth ih =>
    cases v with
    | array a =>
      rw [displayWithin?, Option.isSome_map]
      refine isSome_mapM_of_forall fun w hw => ?_
      have hnew : a ∉ above := fun ha => h a (habove a ha a rfl)
      refine ih w (a :: above) (List.nodup_cons.2 ⟨hnew, hnodup⟩) ?_ ?_
      · rintro b hb c rfl
        have hac : m.Holds a c := Array.mem_toList_iff.1 hw
        rcases List.mem_cons.1 hb with rfl | hb
        · exact .single hac
        · exact (habove b hb a rfl).tail hac
      · rw [List.length_cons]
        omega
    | _ => rfl

/-- Each value has a text where no array holds itself. -/
theorem Acyclic.isSome_display? (h : m.Acyclic) (v : Value) : (m.display? v).isSome := by
  rw [display?_eq]
  refine h.isSome_displayWithin? _ v [] List.nodup_nil ?_ ?_
  · intro b hb
    exact absurd hb List.not_mem_nil
  · rw [List.length_nil]
    omega

/-! ### New arrays and objects -/

/-- The items of the arrays after a new one was made. -/
lemma items_newArray (m : Memory) (vs : Array Value) (a : Id .array) :
    (m.newArray vs).2.items a = if a.index = m.arrays.size then vs else m.items a := by
  obtain ⟨i⟩ := a
  by_cases hi : i = m.arrays.size
  · simp only [hi, if_true]
    simp [newArray, items, Pool.get?, Pool.add, Pool.size]
  · have hne : (⟨i⟩ : Id .array) ≠ (m.arrays.add vs).1 := fun heq => hi (congrArg Id.index heq)
    simp only [newArray, items, if_neg hi]
    rw [Pool.get?_add_of_ne m.arrays vs hne]

/-- A new array is one more. -/
lemma size_newArray (m : Memory) (vs : Array Value) :
    (m.newArray vs).2.arrays.size = m.arrays.size + 1 := by
  simp [newArray, Pool.size, Pool.add]

/-- A new array is there. -/
lemma within_newArray (m : Memory) (vs : Array Value) :
    (m.newArray vs).1.Within (m.newArray vs).2.arrays.size := by
  rw [size_newArray]
  exact Nat.lt_succ_self m.arrays.size

/-- A new array whose items are there keeps a memory sound. -/
theorem Sound.newArray (h : m.Sound) {vs : Array Value} (hvs : ∀ v ∈ vs, v.Within m.arrays.size) :
    m.Grows (m.newArray vs).2 := by
  have hitems : ∀ a, ∀ v ∈ (m.newArray vs).2.items a, v.Within m.arrays.size := by
    intro a v hv
    rw [items_newArray] at hv
    split at hv
    · exact hvs v hv
    · exact h.items a v hv
  have hsize : m.arrays.size ≤ (m.newArray vs).2.arrays.size := by
    rw [size_newArray]
    omega
  -- nothing holds the new array, so that a chain which does not start there is an old one
  have hold : ∀ a b, Relation.TransGen (m.newArray vs).2.Holds a b → a.index < m.arrays.size →
      Relation.TransGen m.Holds a b := by
    intro a b hab ha
    have hstep : ∀ {c d}, c.index < m.arrays.size → (m.newArray vs).2.Holds c d → m.Holds c d := by
      intro c d hc hcd
      rw [Holds, items_newArray, if_neg (Nat.ne_of_lt hc)] at hcd
      exact hcd
    induction hab with
    | single hab => exact .single (hstep ha hab)
    | tail hab hbc ih =>
      obtain ⟨c, -, hcb⟩ := Relation.TransGen.tail'_iff.1 hab
      exact ih.tail (hstep (hitems c _ hcb) hbc)
  refine ⟨⟨fun a v hv => (hitems a v hv).mono hsize, fun o n => (h.properties o n).mono hsize, ?_⟩,
    hsize⟩
  intro a ha
  obtain ⟨b, -, hba⟩ := Relation.TransGen.tail'_iff.1 ha
  exact h.acyclic a (hold a a ha (hitems b _ hba))

/-- A new object whose properties are there keeps a memory sound. -/
lemma Sound.newObject (h : m.Sound) {bag : PropertyBag}
    (hbag : ∀ n, (bag.read n).Within m.arrays.size) : m.Grows (m.newObject bag).2 := by
  refine ⟨⟨h.items, fun o n => ?_, h.acyclic⟩, Nat.le_refl _⟩
  by_cases ho : o = (m.objects.add bag).1
  · have hproperties : (m.newObject bag).2.properties o = bag := by
      rw [ho, Memory.newObject, Memory.properties]
      dsimp only
      rw [Pool.get?_add_self, Option.getD_some]
    rw [hproperties]
    exact hbag n
  · have hproperties : (m.newObject bag).2.properties o = m.properties o := by
      rw [Memory.newObject, Memory.properties]
      dsimp only
      rw [Pool.get?_add_of_ne m.objects bag ho, Memory.properties]
    rw [hproperties]
    exact h.properties o n

end Memory

/-! ### Operators -/

/-- A sum has a value where no array holds itself, and is never an array. -/
lemma Memory.Acyclic.exists_add? {m : Memory} (h : m.Acyclic) (left right : Value) (n : ℕ) :
    ∃ v, m.add? left right = some v ∧ v.Within n := by
  obtain ⟨l, hl⟩ := Option.isSome_iff_exists.1 (h.isSome_display? left)
  obtain ⟨r, hr⟩ := Option.isSome_iff_exists.1 (h.isSome_display? right)
  have htext : (do
      let l ← m.display? left
      let r ← m.display? right
      return Value.string (l ++ r)) = some (.string (l ++ r)) := by
    simp [hl, hr]
  unfold Memory.add?
  split
  · exact ⟨_, htext, trivial⟩
  · exact ⟨_, htext, trivial⟩
  · exact ⟨_, rfl, trivial⟩

/-- An operator has a value where no array holds itself, and never gives an array. -/
lemma BinaryOp.exists_compute? (op : BinaryOp) {m : Memory} (h : m.Acyclic) (left right : Value)
    (n : ℕ) : ∃ v, op.compute? m left right = some v ∧ v.Within n := by
  cases op with
  | add => exact h.exists_add? left right n
  | _ => exact ⟨_, rfl, trivial⟩

/-- A prefix operator never gives an array. -/
lemma UnaryOp.within_apply (op : UnaryOp) (operand : Value) (n : ℕ) :
    (op.apply operand).Within n := by
  cases op <;> trivial

end ScriptEngine
