import ScriptEngine.Interner

/-!
# Maps keyed by names

Properties, globals and the tables of an engine are finite maps from names.  A map lists each of its
names once.  Here the names are listed in the order in which they came in, and a name that is set
again keeps its place; where a hash table is walked in another order, and the order can be seen, a
rank of the names gives that order (`NameMap.inOrder`).
-/

namespace ScriptEngine

/-- A finite map from names. -/
structure NameMap (α : Type) where
  entries : List (Name × α)
  nodup : (entries.map Prod.fst).Nodup

namespace NameMap

variable {α β : Type}

/-- The map without names. -/
def empty : NameMap α := ⟨[], by simp⟩

instance : EmptyCollection (NameMap α) := ⟨empty⟩

instance : Inhabited (NameMap α) := ⟨empty⟩

/-- What the map holds under `n`. -/
def get? (m : NameMap α) (n : Name) : Option α :=
  m.entries.lookup n

/-- The map holds something under `n`. -/
def contains (m : NameMap α) (n : Name) : Bool :=
  (m.get? n).isSome

/-- The number of names. -/
def size (m : NameMap α) : Nat :=
  m.entries.length

/-- The map has no names. -/
def isEmpty (m : NameMap α) : Bool :=
  m.entries.isEmpty

/-- The map, walked in the order of a rank; names of one rank come in the order in which they came
in. -/
def inOrder (m : NameMap α) (rank : Name → Nat) : NameMap α where
  entries := m.entries.mergeSort fun a b => rank a.1 ≤ rank b.1
  nodup := ((List.mergeSort_perm m.entries _).map Prod.fst).nodup_iff.2 m.nodup

/-- What the map holds, in the order of its names. -/
def values (m : NameMap α) : List α :=
  m.entries.map Prod.snd

/-- Put `a` under `n` in a list of pairs: in the place of the first pair with that name, or behind
all of them. -/
def insertEntry (n : Name) (a : α) : List (Name × α) → List (Name × α)
  | [] => [(n, a)]
  | (k, b) :: rest => if k = n then (n, a) :: rest else (k, b) :: insertEntry n a rest

theorem mem_keys_insertEntry {n k : Name} {a : α} {es : List (Name × α)} :
    k ∈ (insertEntry n a es).map Prod.fst ↔ k = n ∨ k ∈ es.map Prod.fst := by
  induction es with
  | nil => simp [insertEntry]
  | cons e rest ih =>
    obtain ⟨j, b⟩ := e
    simp only [insertEntry]
    split
    · simp_all
    · simp only [List.map_cons, List.mem_cons, ih]
      constructor <;> rintro (h | h | h) <;> simp [h]

theorem nodup_insertEntry {n : Name} {a : α} {es : List (Name × α)}
    (h : (es.map Prod.fst).Nodup) : ((insertEntry n a es).map Prod.fst).Nodup := by
  induction es with
  | nil => simp [insertEntry]
  | cons e rest ih =>
    obtain ⟨j, b⟩ := e
    simp only [insertEntry]
    split
    · rename_i hj
      subst hj
      simpa using h
    · rename_i hj
      rw [List.map_cons, List.nodup_cons] at h ⊢
      refine ⟨?_, ih h.2⟩
      rw [mem_keys_insertEntry]
      rintro (hk | hk)
      · exact hj hk
      · exact h.1 hk

/-- Put `a` under `n`. -/
def insert (m : NameMap α) (n : Name) (a : α) : NameMap α :=
  ⟨insertEntry n a m.entries, nodup_insertEntry m.nodup⟩

/-- Forget `n`. -/
def erase (m : NameMap α) (n : Name) : NameMap α :=
  ⟨m.entries.filter (·.1 != n), m.nodup.sublist (List.filter_sublist.map _)⟩

/-- The map of a list of pairs; of two pairs with one name the later one counts. -/
def ofList (es : List (Name × α)) : NameMap α :=
  es.foldl (fun m e => m.insert e.1 e.2) empty

@[simp] theorem get?_empty (n : Name) : (empty : NameMap α).get? n = none := rfl

theorem lookup_insertEntry (n k : Name) (a : α) (es : List (Name × α)) :
    (insertEntry n a es).lookup k = if k = n then some a else es.lookup k := by
  induction es with
  | nil =>
    by_cases h : k = n
    · simp [insertEntry, h]
    · simp [insertEntry, List.lookup_cons, h, beq_eq_false_iff_ne.2 h]
  | cons e rest ih =>
    obtain ⟨j, b⟩ := e
    simp only [insertEntry]
    split
    · rename_i hj
      subst hj
      by_cases h : k = j
      · simp [h]
      · simp [List.lookup_cons, h, beq_eq_false_iff_ne.2 h]
    · rename_i hj
      by_cases h : k = j
      · subst h
        simp [hj]
      · simp [List.lookup_cons, beq_eq_false_iff_ne.2 h, ih]

theorem get?_insert (m : NameMap α) (n k : Name) (a : α) :
    (m.insert n a).get? k = if k = n then some a else m.get? k :=
  lookup_insertEntry n k a m.entries

@[simp] theorem get?_insert_self (m : NameMap α) (n : Name) (a : α) :
    (m.insert n a).get? n = some a := by
  simp [get?_insert]

theorem get?_insert_of_ne (m : NameMap α) {n k : Name} (a : α) (h : k ≠ n) :
    (m.insert n a).get? k = m.get? k := by
  simp [get?_insert, h]

theorem lookup_cons_of_ne {n j : Name} (h : n ≠ j) (b : α) (rest : List (Name × α)) :
    List.lookup n ((j, b) :: rest) = rest.lookup n := by
  rw [List.lookup_cons, beq_eq_false_iff_ne.2 h]

theorem length_insertEntry (n : Name) (a : α) (es : List (Name × α)) :
    (insertEntry n a es).length = if (es.lookup n).isSome then es.length else es.length + 1 := by
  induction es with
  | nil => rfl
  | cons e rest ih =>
    obtain ⟨j, b⟩ := e
    simp only [insertEntry]
    split
    · rename_i hj
      subst hj
      simp
    · rename_i hj
      rw [lookup_cons_of_ne fun h => hj h.symm, List.length_cons, ih, List.length_cons]
      split <;> rfl

theorem size_insert (m : NameMap α) (n : Name) (a : α) :
    (m.insert n a).size = if (m.get? n).isSome then m.size else m.size + 1 :=
  length_insertEntry n a m.entries

theorem lookup_filter (n k : Name) (es : List (Name × α)) :
    (es.filter (·.1 != n)).lookup k = if k = n then none else es.lookup k := by
  induction es with
  | nil => simp
  | cons e rest ih =>
    obtain ⟨j, b⟩ := e
    rw [List.filter_cons]
    by_cases hj : j = n
    · subst hj
      rw [if_neg (by simp), ih]
      split
      · rfl
      · rename_i hk
        rw [lookup_cons_of_ne hk]
    · rw [if_pos (bne_iff_ne.2 hj)]
      by_cases hk : k = j
      · subst hk
        simp [hj]
      · rw [lookup_cons_of_ne hk, lookup_cons_of_ne hk, ih]

theorem get?_erase (m : NameMap α) (n k : Name) :
    (m.erase n).get? k = if k = n then none else m.get? k :=
  lookup_filter n k m.entries

/-- A name that is not there need not be taken out. -/
theorem filter_eq_self_of_not_mem {es : List (Name × α)} {n : Name} (h : n ∉ es.map Prod.fst) :
    es.filter (·.1 != n) = es := by
  refine List.filter_eq_self.2 fun e he => bne_iff_ne.2 fun hen => h ?_
  exact List.mem_map.2 ⟨e, he, hen⟩

theorem length_filter {es : List (Name × α)} (h : (es.map Prod.fst).Nodup) (n : Name) :
    (es.filter (·.1 != n)).length = if (es.lookup n).isSome then es.length - 1 else es.length := by
  induction es with
  | nil => rfl
  | cons e rest ih =>
    obtain ⟨j, b⟩ := e
    obtain ⟨hj, hrest⟩ := List.nodup_cons.1 h
    rw [List.filter_cons]
    by_cases hjn : j = n
    · subst hjn
      simp [filter_eq_self_of_not_mem hj]
    · rw [if_pos (bne_iff_ne.2 hjn), List.length_cons, ih hrest,
        lookup_cons_of_ne fun h => hjn h.symm]
      cases rest with
      | nil => rfl
      | cons e rest => split <;> rfl

theorem size_erase (m : NameMap α) (n : Name) :
    (m.erase n).size = if (m.get? n).isSome then m.size - 1 else m.size :=
  length_filter m.nodup n

/-! ### The order of the names -/

theorem lookup_eq_some_iff {es : List (Name × α)} (h : (es.map Prod.fst).Nodup) {n : Name} {a : α} :
    es.lookup n = some a ↔ (n, a) ∈ es := by
  induction es with
  | nil => simp
  | cons e rest ih =>
    obtain ⟨k, b⟩ := e
    rw [List.map_cons, List.nodup_cons] at h
    by_cases hk : n = k
    · subst hk
      have hnot : (n, a) ∉ rest := fun ha => h.1 (List.mem_map.2 ⟨_, ha, rfl⟩)
      simp [hnot, eq_comm]
    · rw [lookup_cons_of_ne hk, ih h.2]
      simp [hk]

/-- What a map holds under its names are its entries. -/
theorem get?_eq_some_iff {m : NameMap α} {n : Name} {a : α} :
    m.get? n = some a ↔ (n, a) ∈ m.entries :=
  lookup_eq_some_iff m.nodup

/-- It makes no difference to what a map holds in which order it lists its names. -/
theorem get?_eq_of_perm {m m' : NameMap α} (h : m.entries.Perm m'.entries) (n : Name) :
    m.get? n = m'.get? n := by
  refine Option.ext fun a => ?_
  rw [get?_eq_some_iff, get?_eq_some_iff, h.mem_iff]

theorem insertEntry_perm {es : List (Name × α)} (h : (es.map Prod.fst).Nodup) (n : Name) (a : α) :
    (insertEntry n a es).Perm ((n, a) :: es.filter (·.1 != n)) := by
  induction es with
  | nil => exact .refl _
  | cons e rest ih =>
    obtain ⟨k, b⟩ := e
    rw [List.map_cons, List.nodup_cons] at h
    simp only [insertEntry]
    split
    · rename_i hk
      subst hk
      rw [List.filter_cons, if_neg (by simp), filter_eq_self_of_not_mem h.1]
    · rename_i hk
      rw [List.filter_cons, if_pos (bne_iff_ne.2 hk)]
      exact ((ih h.2).cons _).trans (.swap ..)

/-- Maps that list the same in two orders list the same after an insertion. -/
theorem insert_perm {m m' : NameMap α} (h : m.entries.Perm m'.entries) (n : Name) (a : α) :
    (m.insert n a).entries.Perm (m'.insert n a).entries :=
  (insertEntry_perm m.nodup n a).trans
    (((h.filter _).cons _).trans (insertEntry_perm m'.nodup n a).symm)

theorem erase_perm {m m' : NameMap α} (h : m.entries.Perm m'.entries) (n : Name) :
    (m.erase n).entries.Perm (m'.erase n).entries :=
  h.filter _

end NameMap

end ScriptEngine
