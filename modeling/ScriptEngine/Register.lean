import ScriptEngine.Value.Basic

/-!
# The register

Variables that a script declares at its top level live in numbered slots.  A name is given a slot
when it is declared first, and keeps it; trees hold the number alone.  The names of the slots are
pairwise distinct.
-/

namespace ScriptEngine

/-- A table of slots, each with the name that it was declared for and its value. -/
structure Register where
  slots : Array (Name × Value)
  nodup : (slots.toList.map Prod.fst).Nodup

namespace Register

/-- The register without slots. -/
def empty : Register := ⟨#[], by simp⟩

instance : Inhabited Register := ⟨empty⟩

/-- The slot of a name, if it was declared. -/
def index? (r : Register) (n : Name) : Option Nat :=
  r.slots.findIdx? (·.1 == n)

theorem not_mem_of_index?_eq_none {r : Register} {n : Name} (h : r.index? n = none) :
    n ∉ r.slots.toList.map Prod.fst := by
  rw [index?, Array.findIdx?_eq_none_iff] at h
  intro hn
  obtain ⟨e, he, rfl⟩ := List.mem_map.1 hn
  simpa using h e (by simpa using he)

/-- The slot of a name; a new one, which holds `undefined`, if the name has none. -/
def declare (r : Register) (n : Name) : Nat × Register :=
  match h : r.index? n with
  | some i => (i, r)
  | none =>
    (r.slots.size,
      { slots := r.slots.push (n, .undefined)
        nodup := by
          have hn := not_mem_of_index?_eq_none h
          rw [Array.toList_push, List.map_append, List.nodup_append]
          refine ⟨r.nodup, by simp, ?_⟩
          intro a ha b hb hab
          simp only [List.map_cons, List.map_nil, List.mem_singleton] at hb
          exact hn (by rw [← hb, ← hab]; exact ha) })

/-- The value in a slot; beyond the last slot there is `undefined`. -/
def get (r : Register) (i : Nat) : Value :=
  (r.slots[i]?.map Prod.snd).getD .undefined

/-- Put a value into a slot; beyond the last slot this does nothing. -/
def set (r : Register) (i : Nat) (v : Value) : Register where
  slots := r.slots.modify i fun e => (e.1, v)
  nodup := by
    have : (r.slots.modify i fun e => (e.1, v)).toList.map Prod.fst =
        r.slots.toList.map Prod.fst := by
      apply List.ext_getElem?
      intro j
      simp only [Array.toList_modify, List.getElem?_map, List.getElem?_modify]
      split <;> cases r.slots.toList[j]? <;> rfl
    rw [this]
    exact r.nodup

/-- The name that a slot was declared for. -/
def name? (r : Register) (i : Nat) : Option Name :=
  r.slots[i]?.map Prod.fst

/-- The number of slots. -/
def size (r : Register) : Nat :=
  r.slots.size

/-- No slot is declared. -/
def isEmpty (r : Register) : Bool :=
  r.slots.isEmpty

/-- Names and values in the order of the slots. -/
def entries (r : Register) : List (Name × Value) :=
  r.slots.toList

end Register

end ScriptEngine
