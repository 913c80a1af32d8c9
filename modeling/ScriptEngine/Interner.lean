/-!
# Names

Identifiers are interned: an `Interner` numbers the texts that it has seen in the order in which it
saw them first, and a `Name` is such a number.  Within one interner two names are equal exactly when
their texts are; a name says nothing about any other interner.
-/

namespace ScriptEngine

/-- An interned identifier: a position in the table of the interner that handed it out. -/
structure Name where
  index : Nat
deriving DecidableEq, Repr, Inhabited

namespace Name

/-- The empty identifier, which every interner holds first. -/
def empty : Name := ⟨0⟩

/-- The text for developers, which shows the number and not the identifier. -/
def debugText (n : Name) : String :=
  s!"Name({n.index})"

end Name

/-- The table of interned texts: no text occurs twice. -/
structure Interner where
  strings : Array String
  nodup : strings.toList.Nodup

namespace Interner

/-- The name of `s`, if `s` has been interned. -/
def get? (t : Interner) (s : String) : Option Name :=
  (t.strings.idxOf? s).map Name.mk

/-- The text of a name.  A name of another interner may have none here, and reads as the empty
text. -/
def lookup (t : Interner) (n : Name) : String :=
  t.strings[n.index]?.getD ""

/-- The number of interned texts. -/
def size (t : Interner) : Nat :=
  t.strings.size

/-- Nothing but the empty text is interned. -/
def isEmpty (t : Interner) : Bool :=
  t.size ≤ 1

theorem not_mem_of_get?_eq_none {t : Interner} {s : String} (h : t.get? s = none) :
    s ∉ t.strings := by
  simpa [get?] using h

/-- Intern `s`: its name, and the table, longer by one if `s` is new. -/
def intern (t : Interner) (s : String) : Name × Interner :=
  match h : t.get? s with
  | some n => (n, t)
  | none =>
    (⟨t.strings.size⟩,
      { strings := t.strings.push s
        nodup := by
          have hs := not_mem_of_get?_eq_none h
          rw [Array.toList_push, List.nodup_append]
          refine ⟨t.nodup, by simp, ?_⟩
          intro a ha b hb hab
          rw [List.mem_singleton] at hb
          exact hs (by rw [← hb, ← hab]; simpa using ha) })

/-- Intern several texts, in order. -/
def internAll (t : Interner) : List String → List Name × Interner
  | [] => ([], t)
  | s :: rest =>
    let (n, t) := t.intern s
    let (ns, t) := t.internAll rest
    (n :: ns, t)

/-- The identifiers that every interner holds from the start, after the empty one: declarations,
control flow, literals, host callbacks, built-in classes and built-in properties. -/
def keywords : List String :=
  ["var", "reg", "const", "global", "local", "inline", "function",
    "if", "else", "while", "for", "break", "continue", "return",
    "true", "false", "undefined",
    "onInit", "onNoteOn", "onNoteOff", "onController", "onTimer", "onControl",
    "Console", "Math", "Engine",
    "length"]

/-- A new interner, which holds the empty text and the keywords. -/
def new : Interner :=
  (internAll ⟨#[""], by simp⟩ keywords).2

instance : Inhabited Interner := ⟨new⟩

/-- The text for developers. -/
def debugText (t : Interner) : String :=
  s!"StringInterner \x7b len: {t.size} \x7d"

end Interner

end ScriptEngine
