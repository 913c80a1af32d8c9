import Mathlib.Data.List.Induction
import ScriptEngine.Evaluation.Entry
import ScriptEngine.Host.Builtin
import ScriptEngine.Proofs.Alike

/-!
# The tables of an API class

A class is built from functions and constants, in any order, and with any repetition of names.  A call
that was resolved holds the position of a function for ever.  So each function keeps the position at
which it was registered, among the functions alone, while its name goes over to a later function of
the same name.  Constants are kept apart from functions: a constant and a function may have one name.

`Holds` says what the tables hold after a list of entries; each entry keeps it (`Holds.enter`), and so
does a list of entries (`Holds.enterAll`).  A class that is built from texts is the one that is built
from the names of the texts, by whatever interner has come from that of the class
(`registerAll_eq`), and there the texts have different names.

Main statement: `build_resolves`.
-/

namespace ScriptEngine.Host.ApiClass

/-! ### The last entry under a key -/

section Last

variable {κ κ' α : Type} [DecidableEq κ] [DecidableEq κ'] {entries : List (κ × α)} {key : κ}

/-- The last of the entries under a key, with its place among all entries. -/
def last? (entries : List (κ × α)) (key : κ) : Option (ℕ × α) :=
  (entries.zipIdx.filter fun e => e.1.1 = key).getLast?.map fun e => (e.2, e.1.2)

/-- A further entry is the last one under its key, and it leaves the other keys. -/
lemma last?_concat (entries : List (κ × α)) (key key' : κ) (a : α) :
    last? (entries ++ [(key', a)]) key =
      if key' = key then some (entries.length, a) else last? entries key := by
  rw [last?, List.zipIdx_append, List.filter_append]
  split
  · rename_i hkey
    simp [hkey]
  · rename_i hkey
    simp [hkey, last?]

/-- Entries under other keys leave what is the last under a key. -/
lemma last?_append_of_not_mem {further : List (κ × α)} (h : ∀ a, (key, a) ∉ further) :
    last? (entries ++ further) key = last? entries key := by
  induction further using List.reverseRecOn with
  | nil => rw [List.append_nil]
  | append_singleton further entry ih =>
    obtain ⟨key', a⟩ := entry
    have hne : key' ≠ key := fun hkey => h a (hkey ▸ List.mem_concat_self)
    rw [← List.append_assoc, last?_concat, if_neg hne]
    exact ih fun a' ha' => h a' (List.mem_append_left _ ha')

/-- There is no last entry under a key exactly if there is no entry under it. -/
lemma last?_eq_none_iff : last? entries key = none ↔ ∀ a, (key, a) ∉ entries := by
  induction entries using List.reverseRecOn with
  | nil => exact iff_of_true rfl fun _ => List.not_mem_nil
  | append_singleton entries entry ih =>
    obtain ⟨key', a⟩ := entry
    rw [last?_concat]
    split
    · rename_i hkey
      exact iff_of_false (Option.some_ne_none _) fun h => h a (hkey ▸ List.mem_concat_self)
    · rename_i hkey
      rw [ih]
      refine forall_congr' fun a' => not_congr ?_
      simp [Ne.symm hkey]

/-- The last entry under a key stands at its place. -/
lemma getElem?_of_last? {k : ℕ} {a : α} (h : last? entries key = some (k, a)) :
    entries[k]? = some (key, a) := by
  induction entries using List.reverseRecOn with
  | nil => cases h
  | append_singleton entries entry ih =>
    obtain ⟨key', a'⟩ := entry
    rw [last?_concat] at h
    split at h
    · rename_i hkey
      obtain ⟨rfl, rfl⟩ := Prod.mk.inj (Option.some.inj h)
      rw [hkey, List.getElem?_concat_length]
    · have hk := ih h
      rwa [List.getElem?_append_left (List.getElem?_eq_some_iff.1 hk).1]

/-- Other keys for the entries do not change which one is the last, if none of them is mixed up with
the key. -/
lemma last?_map {f : κ → κ'} (h : ∀ e ∈ entries, f e.1 = f key ↔ e.1 = key) :
    last? (entries.map fun e => (f e.1, e.2)) (f key) = last? entries key := by
  induction entries using List.reverseRecOn with
  | nil => rfl
  | append_singleton entries entry ih =>
    obtain ⟨key', a⟩ := entry
    rw [List.map_append, List.map_singleton, last?_concat, last?_concat, List.length_map,
      ih fun e he => h e (List.mem_append_left _ he)]
    exact if_congr (h _ List.mem_concat_self) rfl rfl

end Last

/-- No entry comes under a key from entries of which none has it. -/
lemma not_mem_map_iff {κ κ' α : Type} (entries : List (κ × α)) (f : κ → κ') (key : κ') :
    (∀ a, (key, a) ∉ entries.map fun e => (f e.1, e.2)) ↔ ∀ e ∈ entries, f e.1 ≠ key := by
  simp only [List.mem_map, Prod.mk.injEq]
  constructor
  · rintro h e he hkey
    exact h e.2 ⟨e, he, hkey, rfl⟩
  · rintro h a ⟨e, he, hkey, -⟩
    exact h e he hkey

/-! ### Registrations -/

/-- An entry for a class, under a key. -/
inductive Registration (κ : Type) where
  | function (key : κ) (numArgs : ℕ) (body : Function)
  | constant (key : κ) (value : Value)

section Registrations

variable {κ κ' : Type}

/-- The key of an entry. -/
def Registration.key : Registration κ → κ
  | function key _ _ | constant key _ => key

/-- The functions among the entries, in their order. -/
def functionsOf (rs : List (Registration κ)) : List (κ × ℕ × Function) :=
  rs.filterMap fun
    | .function key numArgs body => some (key, numArgs, body)
    | .constant .. => none

/-- The constants among the entries, in their order. -/
def constantsOf (rs : List (Registration κ)) : List (κ × Value) :=
  rs.filterMap fun
    | .function .. => none
    | .constant key value => some (key, value)

/-- The entry under another key. -/
def Registration.map (f : κ → κ') : Registration κ → Registration κ'
  | function key numArgs body => .function (f key) numArgs body
  | constant key value => .constant (f key) value

/-- What is selected from entries under other keys. -/
lemma filterMap_map_registration {α : Type} {select : Registration κ → Option (κ × α)}
    {select' : Registration κ' → Option (κ' × α)} {f : κ → κ'}
    (h : ∀ r : Registration κ, select' (r.map f) = (select r).map fun e => (f e.1, e.2))
    (rs : List (Registration κ)) :
    (rs.map (Registration.map f)).filterMap select' =
      (rs.filterMap select).map fun e => (f e.1, e.2) := by
  rw [List.filterMap_map, List.map_filterMap]
  exact congrArg (List.filterMap · rs) (funext h)

lemma functionsOf_map (f : κ → κ') (rs : List (Registration κ)) :
    functionsOf (rs.map (Registration.map f)) = (functionsOf rs).map fun e => (f e.1, e.2) :=
  filterMap_map_registration (by rintro (_ | _) <;> rfl) rs

lemma constantsOf_map (f : κ → κ') (rs : List (Registration κ)) :
    constantsOf (rs.map (Registration.map f)) = (constantsOf rs).map fun e => (f e.1, e.2) :=
  filterMap_map_registration (by rintro (_ | _) <;> rfl) rs

end Registrations

/-- Put an entry into a class. -/
def enter (c : ApiClass) : Registration Name → ApiClass
  | .function n numArgs body => c.addFunction n numArgs body
  | .constant n value => c.addConstant n value

/-- Intern the text of an entry and put it into a class. -/
def register (i : Id .interner) (acc : ApiClass × Memory) : Registration String → ApiClass × Memory
  | .function s numArgs body => withFunction i acc ⟨s, numArgs, body⟩
  | .constant s value => withConstant i acc (s, value)

/-- Put entries into a class, one after another. -/
def registerAll (i : Id .interner) (acc : ApiClass × Memory) (rs : List (Registration String)) :
    ApiClass × Memory :=
  rs.foldl (register i) acc

/-- A new class with entries. -/
def build (i : Id .interner) (name : String) (m : Memory) (rs : List (Registration String)) :
    ApiClass × Memory :=
  registerAll i (.named name, m) rs

/-! ### What the tables hold -/

/-- The functions of the class are those of the entries, and a name has the last of its entries. -/
structure Holds (c : ApiClass) (rs : List (Registration Name)) : Prop where
  functions : c.functions.toList = (functionsOf rs).map fun f => ⟨f.1, f.2.1, f.2.2⟩
  slots : ∀ n, c.slots.get? n = (last? (functionsOf rs) n).map Prod.fst
  constants : ∀ n, c.constants.get? n = (last? (constantsOf rs) n).map Prod.snd

/-- A new class is empty. -/
lemma holds_named (name : String) : (named name).Holds [] where
  functions := rfl
  slots _ := rfl
  constants _ := rfl

namespace Holds

variable {c : ApiClass} {rs : List (Registration Name)} (h : c.Holds rs)

include h

lemma functionCount : c.functionCount = (functionsOf rs).length := by
  rw [ApiClass.functionCount, ← Array.length_toList, h.functions, List.length_map]

/-- What is at a position of the table. -/
lemma function? (k : ℕ) :
    c.functions[k]? = (functionsOf rs)[k]?.map fun f => ⟨f.1, f.2.1, f.2.2⟩ := by
  rw [← Array.getElem?_toList, h.functions, List.getElem?_map]

/-- An entry goes behind the others. -/
lemma enter (r : Registration Name) : (c.enter r).Holds (rs ++ [r]) := by
  cases r with
  | function n numArgs body =>
    have hfunctions : functionsOf (rs ++ [.function n numArgs body]) =
        functionsOf rs ++ [(n, numArgs, body)] := List.filterMap_append
    have hconstants : constantsOf (rs ++ [.function n numArgs body]) =
        constantsOf rs := List.filterMap_append.trans (List.append_nil _)
    refine ⟨?_, fun k => ?_, fun k => ?_⟩
    · rw [hfunctions, List.map_append, ← h.functions]
      exact Array.toList_push
    · change (c.slots.insert n c.functions.size).get? k = _
      rw [hfunctions, last?_concat, NameMap.get?_insert, h.slots, ← h.functionCount]
      simp only [eq_comm]
      split <;> rfl
    · rw [hconstants]
      exact h.constants k
  | constant n value =>
    have hfunctions : functionsOf (rs ++ [.constant n value]) =
        functionsOf rs := List.filterMap_append.trans (List.append_nil _)
    have hconstants : constantsOf (rs ++ [.constant n value]) =
        constantsOf rs ++ [(n, value)] := List.filterMap_append
    refine ⟨?_, fun k => ?_, fun k => ?_⟩
    · rw [hfunctions]
      exact h.functions
    · rw [hfunctions]
      exact h.slots k
    · change (c.constants.insert n value).get? k = _
      rw [hconstants, last?_concat, NameMap.get?_insert, h.constants]
      simp only [eq_comm]
      split <;> rfl

/-- Entries go behind the others. -/
theorem enterAll (further : List (Registration Name)) :
    (further.foldl ApiClass.enter c).Holds (rs ++ further) := by
  induction further generalizing c rs with
  | nil => rwa [List.append_nil]
  | cons r further ih =>
    rw [List.append_cons]
    exact ih (h.enter r)

/-- A name refers to the last function that was registered under it. -/
lemma slot?_eq (n : Name) :
    c.slot? n = (last? (functionsOf rs) n).map fun f => ⟨f.1, f.2.1⟩ := by
  rw [slot?, h.slots]
  cases hlast : last? (functionsOf rs) n with
  | none => rfl
  | some f =>
    have hfunction := h.function? f.1
    rw [getElem?_of_last? hlast] at hfunction
    simp only [Option.map_some, Option.bind_eq_bind, Option.bind_some, hfunction]
    rfl

/-- A constant has the value that was registered last. -/
lemma constant?_eq (n : Name) :
    c.constant? n = (last? (constantsOf rs) n).map Prod.snd :=
  h.constants n

/-- A function is called at its position. -/
lemma call_eq {k : ℕ} {n : Name} {numArgs : ℕ} {body : Function}
    (hk : (functionsOf rs)[k]? = some (n, numArgs, body)) (args : List Value) :
    c.call k args = body args := by
  have hfunction := h.function? k
  rw [hk] at hfunction
  simp only [call, hfunction, Option.map_some]

end Holds

/-- Beyond the last function there is nothing to call. -/
lemma call_of_le {c : ApiClass} {k : ℕ} (hk : c.functionCount ≤ k) (args : List Value) :
    c.call k args = .fail (.of (.native s!"{c.name} has no function at index {k}")) := by
  rw [call, Array.getElem?_eq_none hk]

/-! ### Names of texts -/

section Names

variable {i : Id .interner} {acc : ApiClass × Memory} {t : Interner}

/-- An entry keeps the interner. -/
lemma isSome_register (h : (acc.2.interners.get? i).isSome) (r : Registration String) :
    ((register i acc r).2.interners.get? i).isSome := by
  cases r <;> exact (acc.2.isSome_interners_intern i _).trans h

/-- An entry keeps all names. -/
lemma extends_register (r : Registration String) :
    (acc.2.interner i).Extends ((register i acc r).2.interner i) := by
  cases r <;> exact acc.2.extends_intern i _

/-- Entries keep all names. -/
lemma extends_registerAll (rs : List (Registration String)) :
    (acc.2.interner i).Extends ((registerAll i acc rs).2.interner i) := by
  induction rs generalizing acc with
  | nil => exact .refl _
  | cons r rs ih => exact (extends_register r).trans ih

/-- A text that was interned before has the name that it was given then. -/
lemma intern_of_extends (h : (acc.2.interners.get? i).isSome) {s : String}
    (ht : ((acc.2.intern i s).2.interner i).Extends t) :
    (t.intern s).1 = (acc.2.intern i s).1 := by
  rw [Interner.intern_of_get? (ht.get? (acc.2.get?_interner_intern s h))]

/-- Registering texts puts the entries into the class under the names of the texts. -/
lemma registerAll_eq (h : (acc.2.interners.get? i).isSome) (rs : List (Registration String))
    (ht : ((registerAll i acc rs).2.interner i).Extends t) :
    (registerAll i acc rs).1 =
      (rs.map (Registration.map fun s => (t.intern s).1)).foldl enter acc.1 := by
  induction rs generalizing acc with
  | nil => rfl
  | cons r rs ih =>
    have hfirst : (register i acc r).1 =
        acc.1.enter (r.map fun s => (t.intern s).1) := by
      have hr := (extends_registerAll rs).trans ht
      cases r with
      | function s numArgs body =>
        exact (congrArg (acc.1.addFunction · numArgs body) (intern_of_extends h hr)).symm
      | constant s value =>
        exact (congrArg (acc.1.addConstant · value) (intern_of_extends h hr)).symm
    rw [List.map_cons, List.foldl_cons, ← hfirst]
    exact ih (isSome_register h r) ht

/-- The texts of entries are known afterwards. -/
lemma exists_get?_registerAll (h : (acc.2.interners.get? i).isSome)
    {rs : List (Registration String)} {r : Registration String} (hr : r ∈ rs) :
    ∃ n, ((registerAll i acc rs).2.interner i).get? r.key = some n := by
  induction rs generalizing acc with
  | nil => cases hr
  | cons r' rs ih =>
    obtain rfl | hr := List.mem_cons.1 hr
    · have hfirst : ((register i acc r).2.interner i).get? r.key =
          some (acc.2.intern i r.key).1 := by
        cases r <;> exact acc.2.get?_interner_intern _ h
      exact ⟨_, (extends_registerAll rs).get? hfirst⟩
    · exact ih (isSome_register h r') hr

/-- The name of a known text is the name of no other text. -/
lemma intern_eq_iff {s s' : String} {n : Name} (hs : t.get? s = some n) :
    (t.intern s).1 = (t.intern s').1 ↔ s = s' := by
  rw [Interner.intern_of_get? hs]
  exact Interner.name_eq_iff ((t.extends_intern s').get? hs) (t.get?_intern s')

lemma name_registerAll (rs : List (Registration String)) :
    (registerAll i acc rs).1.name = acc.1.name := by
  induction rs generalizing acc with
  | nil => rfl
  | cons r rs ih =>
    have hfirst : (register i acc r).1.name = acc.1.name := by cases r <;> rfl
    exact ih.trans hfirst

lemma exists_mem_of_mem_functionsOf {rs : List (Registration String)} {f : String × ℕ × Function}
    (hf : f ∈ functionsOf rs) : ∃ r ∈ rs, r.key = f.1 := by
  obtain ⟨_ | _, hr, hrf⟩ := List.mem_filterMap.1 hf
  · exact ⟨_, hr, congrArg Prod.fst (Option.some.inj hrf)⟩
  · cases hrf

lemma exists_mem_of_mem_constantsOf {rs : List (Registration String)} {v : String × Value}
    (hv : v ∈ constantsOf rs) : ∃ r ∈ rs, r.key = v.1 := by
  obtain ⟨_ | _, hr, hrv⟩ := List.mem_filterMap.1 hv
  · cases hrv
  · exact ⟨_, hr, congrArg Prod.fst (Option.some.inj hrv)⟩

/-- Entries have the names of their texts. -/
lemma last?_map_names {α : Type} (h : (acc.2.interners.get? i).isSome)
    {rs : List (Registration String)} (ht : ((registerAll i acc rs).2.interner i).Extends t)
    {entries : List (String × α)} (hentries : ∀ e ∈ entries, ∃ r ∈ rs, r.key = e.1) (s : String) :
    last? (entries.map fun e => ((t.intern e.1).1, e.2)) (t.intern s).1 = last? entries s := by
  refine last?_map (f := fun s => (t.intern s).1) fun e he => ?_
  obtain ⟨r, hr, hkey⟩ := hentries e he
  obtain ⟨n, hn⟩ := exists_get?_registerAll h hr
  rw [hkey] at hn
  exact intern_eq_iff (ht.get? hn)

end Names

/-! ### Classes that are built -/

section Build

variable {i : Id .interner} {m : Memory} (hheld : (m.interners.get? i).isSome) (name : String)
  {rs : List (Registration String)} {t : Interner}
  (ht : ((build i name m rs).2.interner i).Extends t)

include hheld ht

/-- The tables hold the entries under the names of their texts. -/
lemma holds_build :
    (build i name m rs).1.Holds (rs.map (Registration.map fun s => (t.intern s).1)) := by
  rw [build, registerAll_eq hheld rs ht]
  exact (holds_named name).enterAll _

lemma functionCount_build : (build i name m rs).1.functionCount = (functionsOf rs).length := by
  rw [(holds_build hheld name ht).functionCount, functionsOf_map, List.length_map]

lemma call_build {k : ℕ} {s : String} {f : ℕ × Function} (hk : (functionsOf rs)[k]? = some (s, f)) :
    (build i name m rs).1.call k = f.2 := by
  obtain ⟨numArgs, body⟩ := f
  have hentry : (functionsOf (rs.map (Registration.map fun s => (t.intern s).1)))[k]? =
      some ((t.intern s).1, numArgs, body) := by
    rw [functionsOf_map, List.getElem?_map, hk]
    rfl
  exact funext ((holds_build hheld name ht).call_eq hentry)

lemma slot?_build (s : String) :
    (build i name m rs).1.slot? (t.intern s).1 =
      (last? (functionsOf rs) s).map fun f => ⟨f.1, f.2.1⟩ := by
  rw [(holds_build hheld name ht).slot?_eq, functionsOf_map,
    last?_map_names hheld ht fun e => exists_mem_of_mem_functionsOf]

lemma constant?_build (s : String) :
    (build i name m rs).1.constant? (t.intern s).1 =
      (last? (constantsOf rs) s).map Prod.snd := by
  rw [(holds_build hheld name ht).constant?_eq, constantsOf_map,
    last?_map_names hheld ht fun e => exists_mem_of_mem_constantsOf]

lemma slot?_build_eq_none_iff (n : Name) :
    (build i name m rs).1.slot? n = none ↔ ∀ f ∈ functionsOf rs, (t.intern f.1).1 ≠ n := by
  rw [(holds_build hheld name ht).slot?_eq, functionsOf_map, Option.map_eq_none_iff,
    last?_eq_none_iff]
  exact not_mem_map_iff _ (fun s => (t.intern s).1) n

lemma constant?_build_eq_none_iff (n : Name) :
    (build i name m rs).1.constant? n = none ↔ ∀ v ∈ constantsOf rs, (t.intern v.1).1 ≠ n := by
  rw [(holds_build hheld name ht).constant?_eq, constantsOf_map, Option.map_eq_none_iff,
    last?_eq_none_iff]
  exact not_mem_map_iff _ (fun s => (t.intern s).1) n

end Build

/-- A class that was built from the entries `before` and `after`, with names from an interner that
has come from the one of the class at any later moment:

* it has as many functions as were registered, and at each position the one that was registered there;
  beyond the last one there is nothing to call: a call fails with an error of the host, and nothing
  runs;
* a text has the slot of the last function that was registered under it, with the number of its
  arguments, and this position is one of the table; a name that is of no registered function has none;
* a text has the constant that was registered last under it, whatever functions there are; a name that
  is of no registered constant has none;
* the entries `after` leave all positions that were there, with the functions at them, and the slots
  and constants of all texts that are not registered once more. -/
theorem build_resolves {i : Id .interner} {m : Memory} (hheld : (m.interners.get? i).isSome)
    (name : String) (before after : List (Registration String)) {t : Interner}
    (ht : ((build i name m (before ++ after)).2.interner i).Extends t) :
    let rs := before ++ after
    let c := (build i name m rs).1
    let earlier := (build i name m before).1
    let nameOf := fun s => (t.intern s).1
    c.functionCount = (functionsOf rs).length ∧
    (∀ k s f, (functionsOf rs)[k]? = some (s, f) → c.call k = f.2) ∧
    (∀ k args, c.functionCount ≤ k →
      c.call k args = .fail (.of (.native s!"{name} has no function at index {k}")) ∧
      ∀ (σ : Type) (r : Evaluator σ) (e : Id .engine), r.runHost e (c.call k args) =
        Action.fail (.of (.native s!"{name} has no function at index {k}"))) ∧
    (∀ s, c.slot? (nameOf s) = (last? (functionsOf rs) s).map fun f => ⟨f.1, f.2.1⟩) ∧
    (∀ s k f, last? (functionsOf rs) s = some (k, f) → k < c.functionCount ∧ c.call k = f.2) ∧
    (∀ n, c.slot? n = none ↔ ∀ f ∈ functionsOf rs, nameOf f.1 ≠ n) ∧
    (∀ s, c.constant? (nameOf s) = (last? (constantsOf rs) s).map Prod.snd) ∧
    (∀ n, c.constant? n = none ↔ ∀ v ∈ constantsOf rs, nameOf v.1 ≠ n) ∧
    (∀ k < earlier.functionCount, k < c.functionCount ∧ c.call k = earlier.call k) ∧
    (∀ s, (∀ f, (s, f) ∉ functionsOf after) → c.slot? (nameOf s) = earlier.slot? (nameOf s)) ∧
    (∀ s, (∀ v, (s, v) ∉ constantsOf after) →
      c.constant? (nameOf s) = earlier.constant? (nameOf s)) := by
  intro rs c earlier nameOf
  have hbuild : build i name m rs = registerAll i (build i name m before) after := List.foldl_append
  have ht' : ((build i name m before).2.interner i).Extends t :=
    (extends_registerAll after).trans (hbuild ▸ ht)
  have hcount : c.functionCount = (functionsOf rs).length := functionCount_build hheld name ht
  have hfunctions : functionsOf rs = functionsOf before ++ functionsOf after :=
    List.filterMap_append
  have hconstants : constantsOf rs = constantsOf before ++ constantsOf after :=
    List.filterMap_append
  have hcall : ∀ k s f, (functionsOf rs)[k]? = some (s, f) → c.call k = f.2 :=
    fun k s f => call_build hheld name ht
  refine ⟨hcount, hcall, fun k args hk => ?_, slot?_build hheld name ht, fun s k f hlast => ?_,
    slot?_build_eq_none_iff hheld name ht, constant?_build hheld name ht,
    constant?_build_eq_none_iff hheld name ht, fun k hk => ?_, fun s hs => ?_, fun s hs => ?_⟩
  · have hname : c.name = name := name_registerAll rs
    have hfails := call_of_le hk args
    rw [hname] at hfails
    rw [hfails]
    exact ⟨rfl, fun σ r e => rfl⟩
  · have hk := getElem?_of_last? hlast
    rw [hcount]
    exact ⟨(List.getElem?_eq_some_iff.1 hk).1, hcall k s f hk⟩
  · rw [functionCount_build hheld name ht'] at hk
    have hbefore := List.getElem?_eq_getElem hk
    have hrs : (functionsOf rs)[k]? = some (functionsOf before)[k] := by
      rw [hfunctions, List.getElem?_append_left hk, hbefore]
    rw [hcount, hcall k _ _ hrs, call_build hheld name ht' hbefore]
    exact ⟨(List.getElem?_eq_some_iff.1 hrs).1, rfl⟩
  · rw [slot?_build hheld name ht, slot?_build hheld name ht', hfunctions,
      last?_append_of_not_mem hs]
  · rw [constant?_build hheld name ht, constant?_build hheld name ht', hconstants,
      last?_append_of_not_mem hs]

/-- A function that is registered again, beside a constant of the same name: the first one keeps its
position, the name goes over to the second one, and the constant stays. -/
theorem build_resolves_of_repeated :
    let i : Id .interner := ⟨0⟩
    let m : Memory := { Memory.empty with interners := (Pool.empty.add .new).2 }
    let before : List (Registration String) :=
      [.function "f" 1 fun _ => .succeed (.bool true), .constant "f" (.string "x")]
    let after : List (Registration String) := [.function "f" 2 fun _ => .succeed (.bool false)]
    let c := (build i "Host" m (before ++ after)).1
    let earlier := (build i "Host" m before).1
    let t := (build i "Host" m (before ++ after)).2.interner i
    ((m.interners.get? i).isSome ∧ t.Extends t) ∧
    c.slot? (t.intern "f").1 = some ⟨1, 2⟩ ∧
    (∀ args, c.call 0 args = .succeed (.bool true)) ∧
    (1 < c.functionCount ∧ ∀ args, c.call 1 args = .succeed (.bool false)) ∧
    (c.functionCount ≤ 2 ∧ ∀ args,
      c.call 2 args = .fail (.of (.native "Host has no function at index 2"))) ∧
    (0 < earlier.functionCount ∧ c.call 0 = earlier.call 0) ∧
    (c.constant? (t.intern "f").1 = some (.string "x") ∧ (∀ v, ("f", v) ∉ constantsOf after) ∧
      c.constant? (t.intern "f").1 = earlier.constant? (t.intern "f").1) ∧
    ((∀ f, ("g", f) ∉ functionsOf after) ∧
      c.slot? (t.intern "g").1 = earlier.slot? (t.intern "g").1) := by
  intro i m before after c earlier t
  have hheld : (m.interners.get? i).isSome := by decide +kernel
  obtain ⟨hcount, hcall, hbeyond, hslot, hlast, -, hconstant, -, hkept, hslots, hconstants⟩ :=
    build_resolves hheld "Host" before after (.refl t)
  have hearlier : 0 < earlier.functionCount := by decide +kernel
  have hunlisted : ∀ f, ("g", f) ∉ functionsOf after := fun f hf => by
    obtain hf | hf := List.mem_cons.1 hf
    · exact absurd (congrArg Prod.fst hf) (show "g" ≠ "f" by decide)
    · cases hf
  refine ⟨⟨hheld, .refl t⟩, ?_, fun args => ?_, ?_, ?_, ?_, ?_, hunlisted, hslots "g" hunlisted⟩
  · rw [hslot]
    decide +kernel
  · rw [hcall 0 "f" (1, fun _ => .succeed (.bool true)) rfl]
  · obtain ⟨hrange, hsecond⟩ := hlast "f" 1 (2, fun _ => .succeed (.bool false)) rfl
    exact ⟨hrange, fun args => congrFun hsecond args⟩
  · have hle : c.functionCount ≤ 2 := Nat.le_of_eq hcount
    exact ⟨hle, fun args => (hbeyond 2 args hle).1⟩
  · exact ⟨hearlier, (hkept 0 hearlier).2⟩
  · refine ⟨?_, fun v => List.not_mem_nil, hconstants "f" fun v => List.not_mem_nil⟩
    rw [hconstant]
    decide +kernel

end ScriptEngine.Host.ApiClass
