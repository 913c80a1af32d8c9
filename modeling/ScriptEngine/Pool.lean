/-!
# Pools of shared things

Arrays, objects, function instances, engines and the like are shared: several places refer to one
thing and all see what happens to it.  A reference is an `Id`, a number that is typed by the kind of
thing, and the things themselves lie in a `Pool`.  A thing that nothing holds any more can be
released; its number is never used again.
-/

namespace ScriptEngine

/-- The kinds of shared things. -/
inductive Kind where
  | array | object | native | interner | printer | counter | function | callback | engine | callSite
deriving DecidableEq, Repr

/-- A reference to a shared thing of one kind. -/
structure Id (kind : Kind) where
  index : Nat
deriving DecidableEq, Repr, Inhabited

/-- The shared things of one kind, by number; a released one leaves `none` behind. -/
structure Pool (kind : Kind) (α : Type) where
  items : Array (Option α)

namespace Pool

variable {kind : Kind} {α : Type}

/-- The pool without things. -/
def empty : Pool kind α := ⟨#[]⟩

instance : Inhabited (Pool kind α) := ⟨empty⟩

/-- The thing that `i` refers to, unless it was released. -/
def get? (p : Pool kind α) (i : Id kind) : Option α :=
  p.items[i.index]?.join

/-- How many things were ever added. -/
def size (p : Pool kind α) : Nat :=
  p.items.size

/-- Add a thing under a new number. -/
def add (p : Pool kind α) (a : α) : Id kind × Pool kind α :=
  (⟨p.items.size⟩, ⟨p.items.push (some a)⟩)

/-- Change the thing that `i` refers to; a released one stays released. -/
def update (p : Pool kind α) (i : Id kind) (f : α → α) : Pool kind α :=
  ⟨p.items.modify i.index (Option.map f)⟩

/-- Put `a` in the place of the thing that `i` refers to. -/
def set (p : Pool kind α) (i : Id kind) (a : α) : Pool kind α :=
  p.update i fun _ => a

/-- Release the thing that `i` refers to. -/
def release (p : Pool kind α) (i : Id kind) : Pool kind α :=
  ⟨p.items.modify i.index fun _ => none⟩

/-- The numbers of the things that have not been released, in the order in which they were added. -/
def ids (p : Pool kind α) : List (Id kind) :=
  ((List.range p.items.size).map Id.mk).filter fun i => (p.get? i).isSome

@[simp] theorem get?_empty (i : Id kind) : (empty : Pool kind α).get? i = none := by
  simp [get?, empty]

@[simp] theorem get?_add_self (p : Pool kind α) (a : α) : (p.add a).2.get? (p.add a).1 = some a := by
  simp [get?, add]

theorem get?_add_of_ne (p : Pool kind α) (a : α) {i : Id kind} (h : i ≠ (p.add a).1) :
    (p.add a).2.get? i = p.get? i := by
  have : i.index ≠ p.items.size := fun e => h (by cases i; simp_all [add])
  simp [get?, add, Array.getElem?_push, this]

/-- The things of a pool after one more was added. -/
theorem get?_add (p : Pool kind α) (a : α) (i : Id kind) :
    (p.add a).2.get? i = if i.index = p.size then some a else p.get? i := by
  cases i with | mk i =>
  by_cases h : i = p.items.size <;> simp [get?, add, size, Array.getElem?_push, h]

theorem get?_update (p : Pool kind α) (i j : Id kind) (f : α → α) :
    (p.update i f).get? j = if i = j then (p.get? j).map f else p.get? j := by
  cases i with | mk i =>
  cases j with | mk j =>
  simp only [get?, update, Array.getElem?_modify, Id.mk.injEq]
  split
  · cases p.items[j]? with
    | none => rfl
    | some a => cases a <;> rfl
  · rfl

@[simp] theorem get?_update_self (p : Pool kind α) (i : Id kind) (f : α → α) :
    (p.update i f).get? i = (p.get? i).map f := by
  simp [get?_update]

theorem get?_update_of_ne (p : Pool kind α) {i j : Id kind} (f : α → α) (h : i ≠ j) :
    (p.update i f).get? j = p.get? j := by
  simp [get?_update, h]

theorem get?_release (p : Pool kind α) (i j : Id kind) :
    (p.release i).get? j = if i = j then none else p.get? j := by
  cases i with | mk i =>
  cases j with | mk j =>
  simp only [get?, release, Array.getElem?_modify, Id.mk.injEq]
  split
  · cases p.items[j]? <;> rfl
  · rfl

/-! ### Where the things of a changed pool come from -/

/-- Of a pool after one more was added, a thing was there before or is the new one. -/
theorem get?_add_cases {p : Pool kind α} {a b : α} {i : Id kind} (h : (p.add a).2.get? i = some b) :
    p.get? i = some b ∨ i.index = p.size ∧ b = a := by
  rw [get?_add] at h
  split at h
  · exact .inr ⟨‹_›, (Option.some.inj h).symm⟩
  · exact .inl h

/-- A pool to which one thing was added has no other one. -/
theorem eq_of_get?_add_empty {a b : α} {i : Id kind}
    (h : ((empty : Pool kind α).add a).2.get? i = some b) : b = a := by
  rcases get?_add_cases h with hold | ⟨-, hnew⟩
  · rw [get?_empty] at hold
    exact nomatch hold
  · exact hnew

/-- Of a pool after an update, a thing was changed or is what it was. -/
theorem get?_update_cases {p : Pool kind α} {i j : Id kind} {f : α → α} {b : α}
    (h : (p.update i f).get? j = some b) :
    (i = j ∧ ∃ a, p.get? j = some a ∧ b = f a) ∨ i ≠ j ∧ p.get? j = some b := by
  rw [get?_update] at h
  split at h
  · rw [Option.map_eq_some_iff] at h
    obtain ⟨a, ha, hb⟩ := h
    exact .inl ⟨‹_›, a, ha, hb.symm⟩
  · exact .inr ⟨‹_›, h⟩

/-- Of a pool after a release, a thing is another one than the one that was released. -/
theorem get?_release_eq_some {p : Pool kind α} {i j : Id kind} {a : α}
    (h : (p.release i).get? j = some a) : i ≠ j ∧ p.get? j = some a := by
  rw [get?_release] at h
  split at h
  · exact nomatch h
  · exact ⟨‹_›, h⟩

/-! ### How many things were ever added -/

/-- A thing that is there has been added. -/
theorem index_lt_of_get? {p : Pool kind α} {i : Id kind} {a : α} (h : p.get? i = some a) :
    i.index < p.size := by
  refine Nat.lt_of_not_le fun hsize => ?_
  unfold get? at h
  rw [Array.getElem?_eq_none hsize] at h
  exact nomatch h

theorem size_add (p : Pool kind α) (a : α) : (p.add a).2.size = p.size + 1 := by
  simp [size, add]

theorem size_update (p : Pool kind α) (i : Id kind) (f : α → α) : (p.update i f).size = p.size := by
  simp [size, update]

theorem size_release (p : Pool kind α) (i : Id kind) : (p.release i).size = p.size := by
  simp [size, release]

end Pool

end ScriptEngine
