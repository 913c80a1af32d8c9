import ScriptEngine.Register
import ScriptEngine.Proofs.Names

/-!
# Single operations of a register

A register is a list of names without repetition, with a value for each.  Declaring a name leaves all
slots that are there, and setting a slot leaves all names and the other values.
-/

namespace ScriptEngine.Register

variable {r : Register} {n : Name}

/-! ### Names of slots -/

/-- A register is what its slots hold. -/
lemma eq_of_slots_eq {r' : Register} (h : r.slots = r'.slots) : r = r' := by
  cases r
  cases r'
  cases h
  rfl

/-- The names of the slots, in their order. -/
def names (r : Register) : List Name :=
  r.slots.toList.map Prod.fst

lemma length_names (r : Register) : r.names.length = r.size := by
  rw [names, List.length_map, Array.length_toList, size]

lemma name?_eq (r : Register) (i : ℕ) : r.name? i = r.names[i]? := by
  rw [name?, names, List.getElem?_map, Array.getElem?_toList]

/-- The slot of a name is its place in the list of entries. -/
lemma index?_eq (r : Register) (n : Name) :
    r.index? n = r.entries.findIdx? (·.1 == n) := by
  obtain ⟨⟨es⟩, _⟩ := r
  exact List.findIdx?_toArray _ _

/-- The slot of a name is its place in the list of names. -/
lemma idxOf?_names (r : Register) (n : Name) : r.names.idxOf? n = r.index? n := by
  rw [names, List.idxOf?, List.findIdx?_map, index?_eq]
  rfl

/-- A name has the slot that was declared for it. -/
lemma index?_eq_some_iff {i : ℕ} : r.index? n = some i ↔ r.name? i = some n := by
  rw [name?_eq, ← idxOf?_names]
  exact Interner.idxOf?_eq_some_iff_of_nodup r.nodup

/-- A name that has a slot keeps it. -/
lemma declare_of_some {i : ℕ} (h : r.index? n = some i) : r.declare n = (i, r) := by
  unfold declare
  split
  · rename_i j hj
    rw [Option.some.inj (hj.symm.trans h)]
  · rename_i hnone
    exact nomatch hnone.symm.trans h

/-- A new name has the next slot. -/
lemma declare_of_none (h : r.index? n = none) :
    (r.declare n).1 = r.size ∧ (r.declare n).2.entries = r.entries ++ [(n, .undefined)] := by
  unfold declare
  split
  · rename_i j hj
    exact nomatch hj.symm.trans h
  · exact ⟨rfl, Array.toList_push⟩

/-! ### Single operations -/

/-- The slots that are there keep their numbers. -/
lemma slots_declare (r : Register) (n : Name) {i : ℕ} (hi : i < r.size) :
    (r.declare n).2.slots[i]? = r.slots[i]? := by
  unfold declare
  split
  · rfl
  · have hne : i ≠ r.slots.size := Nat.ne_of_lt hi
    change (r.slots.push (n, .undefined))[i]? = r.slots[i]?
    rw [Array.getElem?_push, if_neg hne]

/-- A slot that was declared is there, and no other one is lost. -/
lemma index_lt_declare (r : Register) (n : Name) :
    (r.declare n).1 < (r.declare n).2.size ∧ r.size ≤ (r.declare n).2.size := by
  unfold declare
  split
  · rename_i i hi
    obtain ⟨hlt, -⟩ := Array.findIdx?_eq_some_iff_getElem.1 hi
    exact ⟨hlt, Nat.le_refl _⟩
  · simp [size]

/-- The slot of a name has this name. -/
lemma name?_declare (r : Register) (n : Name) :
    (r.declare n).2.name? (r.declare n).1 = some n := by
  cases hn : r.index? n with
  | some i =>
    rw [declare_of_some hn]
    exact index?_eq_some_iff.1 hn
  | none =>
    obtain ⟨hslot, hentries⟩ := declare_of_none hn
    have hlength : r.entries.length = r.size := Array.length_toList
    rw [hslot, name?, ← Array.getElem?_toList]
    change (r.declare n).2.entries[r.size]?.map Prod.fst = some n
    rw [hentries, ← hlength, List.getElem?_concat_length]
    rfl

/-- A slot that was not there holds `undefined` after the declaration, and the others hold what they
did. -/
lemma get_declare (r : Register) (n : Name) (i : ℕ) : (r.declare n).2.get i = r.get i := by
  unfold declare
  split
  · rfl
  · unfold get
    dsimp only
    rw [Array.getElem?_push]
    split
    · rename_i hi
      rw [hi, Array.getElem?_size]
      rfl
    · rfl

/-- Beyond the last slot there is `undefined`. -/
lemma get_of_size_le {i : ℕ} (h : r.size ≤ i) : r.get i = .undefined := by
  rw [get, Array.getElem?_eq_none h]
  rfl

/-- A register holds what it did after a slot was declared. -/
lemma forall_get_declare {p : Value → Prop} (h : ∀ i, p (r.get i)) (n : Name) (i : ℕ) :
    p ((r.declare n).2.get i) := by
  rw [get_declare]
  exact h i

/-- Setting a slot makes the register neither longer nor shorter. -/
lemma size_set (r : Register) (i : ℕ) (v : Value) : (r.set i v).size = r.size :=
  Array.size_modify

/-- The names of the slots never change. -/
lemma names_set (r : Register) (i : ℕ) (v : Value) : (r.set i v).names = r.names := by
  apply List.ext_getElem?
  intro j
  simp only [names, set, Array.toList_modify, List.getElem?_map, List.getElem?_modify]
  split <;> cases r.slots.toList[j]? <;> rfl

/-- A slot of the register after another one was set. -/
lemma get_set_of_ne (r : Register) {i j : ℕ} (h : i ≠ j) (v : Value) :
    (r.set i v).get j = r.get j := by
  simp only [get, set, Array.getElem?_modify, if_neg h]

/-- A slot of the register after it was set. -/
lemma get_set_self (r : Register) {i : ℕ} (h : i < r.size) (v : Value) :
    (r.set i v).get i = v := by
  have hslot : r.slots[i]? = some r.slots[i] := Array.getElem?_eq_getElem h
  simp only [get, set, Array.getElem?_modify, if_true, hslot]
  rfl

/-- Beyond the last slot, nothing is set. -/
lemma set_of_size_le {i : ℕ} (h : r.size ≤ i) (v : Value) : r.set i v = r := by
  refine eq_of_slots_eq (Array.ext_getElem? fun j => ?_)
  simp only [set, Array.getElem?_modify]
  split
  · rename_i hij
    rw [← hij, Array.getElem?_eq_none h]
    rfl
  · rfl

/-- A register holds values that satisfy `p` after one of them was set. -/
lemma forall_get_set {p : Value → Prop} (h : ∀ j, p (r.get j)) {v : Value} (hv : p v)
    (i j : ℕ) : p ((r.set i v).get j) := by
  by_cases hij : i = j
  · subst hij
    by_cases hi : i < r.size
    · rwa [r.get_set_self hi]
    · rw [set_of_size_le (Nat.le_of_not_lt hi)]
      exact h i
  · rw [r.get_set_of_ne hij]
    exact h j

end ScriptEngine.Register
