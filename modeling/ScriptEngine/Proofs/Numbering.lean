import Mathlib.Logic.Function.Basic
import ScriptEngine.Proofs.Names

/-!
# The numbering of texts

An interner numbers the texts that it is given, each where it comes first, and it never takes a
number back.  What it answers depends on the texts that have been interned before and on nothing
else: with the empty text and the keywords in front of them, and each text struck out where it is
repeated, the name of a text is the place where it stands.

`Enumerates` says this of one table.  Each request keeps it (`Enumerates.answer`), and so does a run
of requests (`Enumerates.serve`).

A table may keep the numbers of its texts in a map, so that no text is searched for.  Map and texts
then are inverse to each other at every moment, and all answers are the same
(`Indexed.Mirrors.serve`).

Main statement: `Interner.serve_numbers_texts`.
-/

namespace ScriptEngine.Interner

/-! ### Requests -/

/-- What an interner is asked for. -/
inductive Request where
  /-- The name of a text, which is interned if need be. -/
  | intern (s : String)
  /-- The name of a text, if it has one. -/
  | get (s : String)
  /-- The text of a name. -/
  | lookup (n : Name)

/-- What an interner answers. -/
inductive Answer where
  | name (n : Name)
  | found (n : Option Name)
  | text (s : String)
deriving DecidableEq

/-- Answer a request. -/
def answer (t : Interner) : Request → Answer × Interner
  | .intern s => (.name (t.intern s).1, (t.intern s).2)
  | .get s => (.found (t.get? s), t)
  | .lookup n => (.text (t.lookup n), t)

/-- Answer requests, one after another. -/
def serve (t : Interner) : List Request → List Answer × Interner
  | [] => ([], t)
  | request :: rest =>
    ((t.answer request).1 :: ((t.answer request).2.serve rest).1,
      ((t.answer request).2.serve rest).2)

/-- The texts that a request interns. -/
def Request.texts : Request → List String
  | intern s => [s]
  | get _ | lookup _ => []

variable {t : Interner} {texts : List String}

/-! ### Texts in the order in which they come first -/

/-- The table holds the texts in the order in which they come first. -/
def Enumerates (t : Interner) (texts : List String) : Prop :=
  t.strings.toList = texts.eraseDups

/-- A thing that came before is struck out, and a new one stands at the end. -/
lemma eraseDups_concat {α : Type} [DecidableEq α] (xs : List α) (x : α) :
    (xs ++ [x]).eraseDups = if x ∈ xs then xs.eraseDups else xs.eraseDups ++ [x] := by
  rw [List.eraseDups_append]
  by_cases hx : x ∈ xs <;> simp [List.removeAll, List.eraseDups_cons, hx]

namespace Enumerates

variable (h : t.Enumerates texts)

include h

/-- The number of texts that are interned. -/
lemma size_eq : t.size = texts.eraseDups.length := by
  rw [← h, Array.length_toList, size]

/-- The name of a text is the place where it stands. -/
lemma get?_eq_some_iff {s : String} {n : Name} :
    t.get? s = some n ↔ texts.eraseDups[n.index]? = some s := by
  rw [Interner.get?_eq_some_iff, ← h, Array.getElem?_toList]

/-- Exactly the texts that came before are found. -/
lemma get?_isSome_iff {s : String} : (t.get? s).isSome ↔ s ∈ texts := by
  rw [← List.mem_eraseDups, List.mem_iff_getElem?]
  constructor
  · intro hs
    obtain ⟨n, hn⟩ := Option.isSome_iff_exists.1 hs
    exact ⟨n.index, h.get?_eq_some_iff.1 hn⟩
  · rintro ⟨i, hi⟩
    exact Option.isSome_iff_exists.2 ⟨⟨i⟩, h.get?_eq_some_iff.2 hi⟩

/-- Interning puts one text behind the others. -/
lemma intern (s : String) : (t.intern s).2.Enumerates (texts ++ [s]) := by
  unfold Enumerates
  rw [eraseDups_concat]
  cases hs : t.get? s with
  | some n =>
    rw [if_pos (h.get?_isSome_iff.1 (by rw [hs]; rfl)), intern_of_get? hs]
    exact h
  | none =>
    have hnew : s ∉ texts := fun hmem => by
      have hsome := h.get?_isSome_iff.2 hmem
      rw [hs] at hsome
      cases hsome
    rw [if_neg hnew, strings_intern_of_none hs, Array.toList_push, h]

/-- Interning several texts puts them behind the others. -/
lemma internAll (ss : List String) : (t.internAll ss).2.Enumerates (texts ++ ss) := by
  induction ss generalizing t texts with
  | nil => rwa [List.append_nil]
  | cons s rest ih =>
    rw [List.append_cons]
    exact ih (h.intern s)

/-- A request adds the text that it interns, and no other one. -/
lemma answer (request : Request) : (t.answer request).2.Enumerates (texts ++ request.texts) := by
  cases request with
  | intern s => exact h.intern s
  | get | lookup => rwa [Request.texts, List.append_nil]

/-- A run adds the texts that it interns. -/
theorem serve (requests : List Request) :
    (t.serve requests).2.Enumerates (texts ++ requests.flatMap Request.texts) := by
  induction requests generalizing t texts with
  | nil => rwa [List.flatMap_nil, List.append_nil]
  | cons request rest ih =>
    rw [List.flatMap_cons, ← List.append_assoc]
    exact ih (h.answer request)

end Enumerates

/-- A new interner holds the empty text and the keywords. -/
lemma enumerates_new : new.Enumerates ("" :: keywords) := by
  have hempty : (⟨#[""], by simp⟩ : Interner).Enumerates [""] := by
    rw [Enumerates, List.eraseDups_cons]
    rfl
  exact hempty.internAll keywords

/-- A run keeps all names. -/
lemma extends_serve (t : Interner) (requests : List Request) :
    t.Extends (t.serve requests).2 := by
  induction requests generalizing t with
  | nil => exact .refl t
  | cons request rest ih =>
    have hfirst : t.Extends (t.answer request).2 := by
      cases request with
      | intern s => exact t.extends_intern s
      | get | lookup => exact .refl t
    exact hfirst.trans (ih _)

/-- The name of a text that came before is the one that interning it gives. -/
lemma get?_eq_some_iff_intern (h : t.Enumerates texts) {s : String} {n : Name} :
    t.get? s = some n ↔ s ∈ texts ∧ (t.intern s).1 = n := by
  rw [← h.get?_isSome_iff]
  constructor
  · intro hs
    rw [hs, intern_of_get? hs]
    exact ⟨rfl, rfl⟩
  · rintro ⟨hsome, rfl⟩
    obtain ⟨n, hs⟩ := Option.isSome_iff_exists.1 hsome
    rw [hs, intern_of_get? hs]

/-- A text is given the number of the place where it comes first. -/
lemma index_intern (h : t.Enumerates texts) (s : String) :
    (t.intern s).1.index = (texts ++ [s]).eraseDups.idxOf s := by
  have hnext := h.intern s
  have hnodup : (texts ++ [s]).eraseDups.Nodup := hnext ▸ (t.intern s).2.nodup
  obtain ⟨hindex, hs⟩ :=
    List.getElem?_eq_some_iff.1 (hnext.get?_eq_some_iff.1 (t.get?_intern s))
  have hplace := hnodup.idxOf_getElem (t.intern s).1.index hindex
  rwa [hs, eq_comm] at hplace

/-- The numbers that have been given out are those below the number of texts. -/
lemma index_lt_size_iff (h : t.Enumerates texts) {n : Name} :
    n.index < t.size ↔ ∃ s ∈ texts, (t.intern s).1 = n := by
  constructor
  · intro hn
    obtain ⟨s, hs⟩ := Knows.exists_text hn
    exact ⟨s, (get?_eq_some_iff_intern h).1 hs⟩
  · rintro ⟨s, hs, hn⟩
    exact knows_of_get? ((get?_eq_some_iff_intern h).2 ⟨hs, hn⟩)

/-- At a later moment, the name of a text still has it as its text. -/
lemma lookup_serve_intern (t : Interner) (s : String) (after : List Request) :
    ((t.intern s).2.serve after).2.lookup (t.intern s).1 = s :=
  lookup_of_get? ((extends_serve _ after).get? (t.get?_intern s))

/-- At a later moment, a text is given the same name again, and no other text is. -/
lemma intern_serve_intern_iff (t : Interner) (s s' : String) (after : List Request) :
    (((t.intern s).2.serve after).2.intern s').1 = (t.intern s).1 ↔ s' = s := by
  have hs := (extends_serve (t.intern s).2 after).get? (t.get?_intern s)
  have hs' := get?_intern ((t.intern s).2.serve after).2 s'
  exact name_eq_iff hs' ((extends_intern _ s').get? hs)

/-- A run leaves the table that interning its texts alone leaves. -/
lemma serve_eq_internAll (t : Interner) (requests : List Request) :
    (t.serve requests).2 = (t.internAll (requests.flatMap Request.texts)).2 := by
  induction requests generalizing t with
  | nil => rfl
  | cons request rest ih =>
    rw [List.flatMap_cons]
    cases request <;> exact ih _

/-! ### Numbers kept in a map -/

/-- Texts in the order of their numbers, and a map from each text to its number. -/
structure Indexed where
  numbers : String → Option ℕ
  strings : Array String

namespace Indexed

/-- Intern a text: the map is asked first, and a new text goes into both. -/
def intern (x : Indexed) (s : String) : Name × Indexed :=
  match x.numbers s with
  | some i => (⟨i⟩, x)
  | none =>
    (⟨x.strings.size⟩,
      ⟨Function.update x.numbers s (some x.strings.size), x.strings.push s⟩)

/-- The table with the empty text and the keywords. -/
def new : Indexed :=
  keywords.foldl (fun x s => (x.intern s).2)
    ⟨Function.update (fun _ => none) "" (some 0), #[""]⟩

/-- Answer a request: names are taken from the map, and texts from the array. -/
def answer (x : Indexed) : Request → Answer × Indexed
  | .intern s => (.name (x.intern s).1, (x.intern s).2)
  | .get s => (.found ((x.numbers s).map Name.mk), x)
  | .lookup n => (.text (x.strings[n.index]?.getD ""), x)

/-- Answer requests, one after another. -/
def serve (x : Indexed) : List Request → List Answer × Indexed
  | [] => ([], x)
  | request :: rest =>
    ((x.answer request).1 :: ((x.answer request).2.serve rest).1,
      ((x.answer request).2.serve rest).2)

/-- The texts are those of the interner, and the map finds them where a search does. -/
structure Mirrors (x : Indexed) (t : Interner) : Prop where
  strings : x.strings = t.strings
  numbers : ∀ s, (x.numbers s).map Name.mk = t.get? s

namespace Mirrors

variable {x : Indexed} (h : x.Mirrors t)

include h

/-- Map and texts are inverse to each other. -/
lemma inverse (s : String) (i : ℕ) : x.numbers s = some i ↔ x.strings[i]? = some s := by
  have hname := get?_eq_some_iff (t := t) (s := s) (n := ⟨i⟩)
  rw [← h.numbers, ← h.strings] at hname
  rw [← hname]
  cases x.numbers s <;> simp

/-- Interning does the same to both. -/
lemma intern (s : String) :
    (x.intern s).1 = (t.intern s).1 ∧ (x.intern s).2.Mirrors (t.intern s).2 := by
  have hs := h.numbers s
  cases hx : x.numbers s with
  | some i =>
    rw [hx] at hs
    have hx' : x.intern s = (⟨i⟩, x) := by simp only [Indexed.intern, hx]
    rw [hx', intern_of_get? hs.symm]
    exact ⟨rfl, h⟩
  | none =>
    rw [hx] at hs
    have hname := intern_of_none hs.symm
    have hstrings := strings_intern_of_none hs.symm
    have hget := t.get?_intern s
    have hx' : x.intern s = (⟨x.strings.size⟩,
        ⟨Function.update x.numbers s (some x.strings.size), x.strings.push s⟩) := by
      simp only [Indexed.intern, hx]
    rw [hx']
    refine ⟨by rw [hname, h.strings, size], by rw [hstrings, h.strings], fun r => ?_⟩
    dsimp only
    by_cases hr : r = s
    · rw [hr, hget, hname, Function.update_self, h.strings]
      rfl
    · rw [Function.update_of_ne hr, h.numbers]
      -- another text is found where it was found before
      refine Option.ext fun n => ?_
      rw [get?_eq_some_iff, get?_eq_some_iff, hstrings, Array.getElem?_push]
      split
      · rename_i hn
        rw [hn, Array.getElem?_size]
        simp [Ne.symm hr]
      · rfl

/-- Interning several texts does the same to both. -/
lemma internAll (ss : List String) :
    (ss.foldl (fun x s => (x.intern s).2) x).Mirrors (t.internAll ss).2 := by
  induction ss generalizing x t with
  | nil => exact h
  | cons s rest ih => exact ih (h.intern s).2

/-- A request has the same answer. -/
lemma answer (request : Request) :
    (x.answer request).1 = (t.answer request).1 ∧
      (x.answer request).2.Mirrors (t.answer request).2 := by
  cases request with
  | intern s => exact ⟨congrArg Answer.name (h.intern s).1, (h.intern s).2⟩
  | get s => exact ⟨congrArg Answer.found (h.numbers s), h⟩
  | lookup n =>
    refine ⟨?_, h⟩
    rw [Indexed.answer, Interner.answer, h.strings, Interner.lookup]

/-- A run has the same answers. -/
theorem serve (requests : List Request) :
    (x.serve requests).1 = (t.serve requests).1 ∧
      (x.serve requests).2.Mirrors (t.serve requests).2 := by
  induction requests generalizing x t with
  | nil => exact ⟨rfl, h⟩
  | cons request rest ih =>
    obtain ⟨hanswer, hnext⟩ := h.answer request
    obtain ⟨hanswers, hend⟩ := ih hnext
    refine ⟨?_, hend⟩
    rw [Indexed.serve, Interner.serve, hanswer, hanswers]

end Mirrors

/-- The two tables start alike. -/
lemma mirrors_new : Indexed.new.Mirrors Interner.new := by
  have hempty : (⟨Function.update (fun _ => none) "" (some 0), #[""]⟩ : Indexed).Mirrors
      ⟨#[""], by simp⟩ := by
    refine ⟨rfl, fun s => ?_⟩
    refine Option.ext fun n => ?_
    rw [get?_eq_some_iff]
    dsimp only
    by_cases hs : s = ""
    · rw [hs, Function.update_self]
      obtain ⟨_ | i⟩ := n <;> simp
    · rw [Function.update_of_ne hs]
      obtain ⟨_ | i⟩ := n <;> simp [Ne.symm hs]
  exact hempty.internAll keywords

end Indexed

/-! ### Runs of a new interner -/

/-- At every moment of every run of a new interner, after the requests `before` and before the
requests `after`, names and texts are in one-to-one correspondence:

* interning a text gives the number of the place where it comes first, behind the empty text and the
  keywords; the numbers that have been given out are those below the number of distinct texts, and
  the empty text has the number zero;
* a text is found exactly if it came before, under the name that interning it gives;
* at any later moment, the name of a text has it as its text, and interning gives that name to this
  text alone;
* a name reads as the text in its place, and as the empty text beyond the last place;
* searching and reading change nothing: the table is the one that interning the texts of the run
  alone leaves; and what happens later changes no text of a name that has been given out;
* a table that keeps the numbers in a map gives the same answers, and its map and its texts are
  inverse to each other. -/
theorem serve_numbers_texts (before after : List Request) :
    let texts := "" :: keywords ++ before.flatMap Request.texts
    let t := (new.serve before).2
    let x := (Indexed.new.serve before).2
    (∀ s, (t.intern s).1.index = (texts ++ [s]).eraseDups.idxOf s) ∧
    (∀ n : Name, n.index < t.size ↔ ∃ s ∈ texts, (t.intern s).1 = n) ∧
    t.size = texts.eraseDups.length ∧ (t.intern "").1 = ⟨0⟩ ∧
    (∀ s n, t.get? s = some n ↔ s ∈ texts ∧ (t.intern s).1 = n) ∧
    (∀ s, ((t.intern s).2.serve after).2.lookup (t.intern s).1 = s) ∧
    (∀ s s', (((t.intern s).2.serve after).2.intern s').1 = (t.intern s).1 ↔ s' = s) ∧
    (∀ n, t.lookup n = texts.eraseDups[n.index]?.getD "") ∧
    (∀ s n, (t.answer (.get s)).2 = t ∧ (t.answer (.lookup n)).2 = t) ∧
    t = (new.internAll (before.flatMap Request.texts)).2 ∧
    (∀ i : Fin t.size, (t.serve after).2.lookup ⟨i⟩ = t.lookup ⟨i⟩) ∧
    (Indexed.new.serve before).1 = (new.serve before).1 ∧
    (∀ s i, x.numbers s = some i ↔ x.strings[i]? = some s) := by
  intro texts t x
  have h : t.Enumerates texts := enumerates_new.serve before
  have hx := Indexed.mirrors_new.serve before
  have hempty : t.get? "" = some ⟨0⟩ := by
    rw [h.get?_eq_some_iff]
    change ("" :: (keywords ++ before.flatMap Request.texts)).eraseDups[0]? = some ""
    rw [List.eraseDups_cons, List.getElem?_cons_zero]
  refine ⟨index_intern h, fun n => index_lt_size_iff h, h.size_eq, ?_, fun s n =>
    get?_eq_some_iff_intern h, fun s => lookup_serve_intern t s after, fun s s' =>
    intern_serve_intern_iff t s s' after, fun n => ?_, fun s n => ⟨rfl, rfl⟩,
    serve_eq_internAll new before, fun i => ?_, hx.1, hx.2.inverse⟩
  · rw [intern_of_get? hempty]
  · rw [lookup, ← Array.getElem?_toList, h]
  · exact (extends_serve t after).lookup i.2

end ScriptEngine.Interner
