import Mathlib.Data.List.Forall2
import Mathlib.Data.List.Nodup
import Mathlib.Data.Option.Defs
import Mathlib.Logic.Function.Basic
import Mathlib.Order.Basic
import ScriptEngine.Proofs.Names
import ScriptEngine.Register
import ScriptEngine.Value.Conversion

/-!
# Renamings

Two worlds may hold the same things under different numbers: one world may have handed out numbers,
and names, that the other one has not.  A `Renaming` lists, for each number of the first world, the
number of the second one that stands for the same thing.  Something of the first world is mirrored
by something of the second one if the two differ in such numbers alone.

A renaming grows as things are made, and what is mirrored stays mirrored.  No two numbers have the
same mirror image, so that two names are equal exactly when their images are; hence a table of the
first world and its mirror image hold corresponding things under corresponding names
(`NameMap.Mirrors.get?`).

The properties of an object are in a hash table, and the numbers of their names give the order in
which they are listed.  So two bags of properties may list theirs in two orders, and mirror each other
all the same (`PropertyBag.Mirrors`).
-/

namespace ScriptEngine

/-- A longer list has what a shorter one has, at the same places. -/
lemma getElem?_of_prefix {α : Type} {l l' : List α} (h : l <+: l') {i : ℕ} {a : α}
    (hi : l[i]? = some a) : l'[i]? = some a := by
  obtain ⟨hlt, rfl⟩ := List.getElem?_eq_some_iff.1 hi
  exact List.prefix_iff_getElem?.1 h i hlt

/-- What is in a list with one more thing is in the list, or is that thing. -/
lemma getElem?_concat_cases {α : Type} {l : List α} {a b : α} {i : ℕ}
    (h : (l ++ [a])[i]? = some b) : l[i]? = some b ∨ i = l.length ∧ b = a := by
  rw [List.getElem?_append] at h
  split at h
  · exact .inl h
  · obtain ⟨hlt, hb⟩ := List.getElem?_eq_some_iff.1 h
    rw [List.length_singleton] at hlt
    refine .inr ⟨by omega, ?_⟩
    rw [← hb, List.getElem_singleton]

/-- What is related is related by a weaker relation as well. -/
lemma optionRel_imp {α β : Type} {R Q : α → β → Prop} {a : Option α} {b : Option β}
    (h : Option.Rel R a b) (hRQ : ∀ a b, R a b → Q a b) : Option.Rel Q a b := by
  cases h with
  | none => exact .none
  | some hab => exact .some (hRQ _ _ hab)

/-- What related things lead to is related. -/
lemma optionRel_bind {α β α' β' : Type} {R : α → β → Prop} {Q : α' → β' → Prop} {a : Option α}
    {b : Option β} (h : Option.Rel R a b) {f : α → Option α'} {g : β → Option β'}
    (hfg : ∀ a b, R a b → Option.Rel Q (f a) (g b)) : Option.Rel Q (a.bind f) (b.bind g) := by
  cases h with
  | none => exact .none
  | some hab => exact hfg _ _ hab

/-- Related things are missing together. -/
lemma optionRel_isSome {α β : Type} {R : α → β → Prop} {a : Option α} {b : Option β}
    (h : Option.Rel R a b) : b.isSome = a.isSome := by
  cases h <;> rfl

/-- Both results are the same error, or they are values that are related. -/
inductive ExceptRel {ε α β : Type} (R : α → β → Prop) : Except ε α → Except ε β → Prop
  | ok {a : α} {b : β} (h : R a b) : ExceptRel R (.ok a) (.ok b)
  | error (e : ε) : ExceptRel R (.error e) (.error e)

/-! ### Renamings -/

/-- The numbers of a second world that stand for the numbers of a first one, in the order of the
latter. -/
structure Renaming where
  /-- The interner of the names in the first world. -/
  own : Id .interner
  /-- The interner of their images. -/
  shared : Id .interner
  /-- The counter that is the same in all worlds. -/
  clock : Id .counter
  names : List Name
  ids : (kind : Kind) → List (Id kind)
  names_nodup : names.Nodup
  ids_nodup : ∀ kind, (ids kind).Nodup

/-- The second name stands for the first one. -/
def Name.Mirrors (ρ : Renaming) (n n' : Name) : Prop :=
  ρ.names[n.index]? = some n'

/-- The second number stands for the first one. -/
def Id.Mirrors (ρ : Renaming) {kind : Kind} (i i' : Id kind) : Prop :=
  (ρ.ids kind)[i.index]? = some i'

/-- The things of a kind are in the memory. -/
def Kind.IsMemory : Kind → Prop
  | .array | .object | .printer | .counter => True
  | .native | .interner | .function | .callback | .engine | .callSite => False

namespace Renaming

variable {ρ ρ' ρ'' : Renaming}

/-- A renaming is continued by one that has more. -/
instance : Preorder Renaming where
  le ρ ρ' := (ρ'.own = ρ.own ∧ ρ'.shared = ρ.shared ∧ ρ'.clock = ρ.clock) ∧
    ρ.names <+: ρ'.names ∧ ∀ kind, ρ.ids kind <+: ρ'.ids kind
  le_refl _ := ⟨⟨rfl, rfl, rfl⟩, List.prefix_rfl, fun _ => List.prefix_rfl⟩
  le_trans _ _ _ h h' := ⟨⟨h'.1.1.trans h.1.1, h'.1.2.1.trans h.1.2.1, h'.1.2.2.trans h.1.2.2⟩,
    h.2.1.trans h'.2.1, fun kind => (h.2.2 kind).trans (h'.2.2 kind)⟩

/-- Only names and things of the memory have come in. -/
structure GrowsInMemory (ρ ρ' : Renaming) : Prop where
  le : ρ ≤ ρ'
  ids : ∀ kind : Kind, ¬kind.IsMemory → ρ'.ids kind = ρ.ids kind

lemma GrowsInMemory.refl (ρ : Renaming) : ρ.GrowsInMemory ρ :=
  ⟨le_rfl, fun _ _ => rfl⟩

lemma GrowsInMemory.trans (h : ρ.GrowsInMemory ρ') (h' : ρ'.GrowsInMemory ρ'') :
    ρ.GrowsInMemory ρ'' :=
  ⟨h.le.trans h'.le, fun kind hkind => (h'.ids kind hkind).trans (h.ids kind hkind)⟩

/-- One more thing. -/
def addId (ρ : Renaming) {kind : Kind} (i' : Id kind) (hi' : i' ∉ ρ.ids kind) : Renaming :=
  { ρ with
    ids := Function.update ρ.ids kind (ρ.ids kind ++ [i'])
    ids_nodup := by
      intro k
      by_cases hk : k = kind
      · subst hk
        rw [Function.update_self]
        exact List.nodup_append.2 ⟨ρ.ids_nodup k, List.nodup_singleton _, by
          rintro i hi _ hi'' rfl
          exact hi' (List.mem_singleton.1 hi'' ▸ hi)⟩
      · rw [Function.update_of_ne hk]
        exact ρ.ids_nodup k }

/-- One more name. -/
def addName (ρ : Renaming) (n' : Name) (hn' : n' ∉ ρ.names) : Renaming :=
  { ρ with
    names := ρ.names ++ [n']
    names_nodup := List.nodup_append.2 ⟨ρ.names_nodup, List.nodup_singleton _, by
      rintro n hn _ hn'' rfl
      exact hn' (List.mem_singleton.1 hn'' ▸ hn)⟩ }

variable {kind : Kind} {i' : Id kind} {hi' : i' ∉ ρ.ids kind}

lemma ids_addId_self : (ρ.addId i' hi').ids kind = ρ.ids kind ++ [i'] :=
  Function.update_self ..

lemma ids_addId_of_ne {k : Kind} (hk : k ≠ kind) : (ρ.addId i' hi').ids k = ρ.ids k :=
  Function.update_of_ne hk ..

lemma le_addId : ρ ≤ ρ.addId i' hi' := by
  refine ⟨⟨rfl, rfl, rfl⟩, List.prefix_rfl, fun k => ?_⟩
  by_cases hk : k = kind
  · subst hk
    rw [ids_addId_self]
    exact List.prefix_append _ _
  · exact (ids_addId_of_ne hk).symm ▸ List.prefix_rfl

lemma growsInMemory_addId (hkind : kind.IsMemory) : ρ.GrowsInMemory (ρ.addId i' hi') :=
  ⟨le_addId, fun _ hk => ids_addId_of_ne fun heq => hk (heq ▸ hkind)⟩

lemma mirrors_addId {i : Id kind} (hi : i.index = (ρ.ids kind).length) :
    i.Mirrors (ρ.addId i' hi') i' := by
  rw [Id.Mirrors, ids_addId_self, hi]
  exact List.getElem?_concat_length

lemma mirrors_addId_cases {i j' : Id kind} (hi : i.Mirrors (ρ.addId i' hi') j') :
    i.Mirrors ρ j' ∨ i.index = (ρ.ids kind).length ∧ j' = i' := by
  rw [Id.Mirrors, ids_addId_self] at hi
  exact getElem?_concat_cases hi

lemma growsInMemory_addName {n' : Name} {hn' : n' ∉ ρ.names} :
    ρ.GrowsInMemory (ρ.addName n' hn') :=
  ⟨⟨⟨rfl, rfl, rfl⟩, List.prefix_append _ _, fun _ => List.prefix_rfl⟩, fun _ _ => rfl⟩

lemma mirrors_addName {n n' : Name} {hn' : n' ∉ ρ.names} (hn : n.index = ρ.names.length) :
    n.Mirrors (ρ.addName n' hn') n' := by
  unfold Name.Mirrors
  rw [hn]
  exact List.getElem?_concat_length

lemma mirrors_addName_cases {n k' n' : Name} {hn' : n' ∉ ρ.names}
    (hn : n.Mirrors (ρ.addName n' hn') k') :
    n.Mirrors ρ k' ∨ n.index = ρ.names.length ∧ k' = n' :=
  getElem?_concat_cases hn

end Renaming

variable {ρ ρ' : Renaming}

/-! ### Numbers and names -/

namespace Name.Mirrors

variable {n n' k k' : Name}

lemma mono (hn : n.Mirrors ρ n') (h : ρ ≤ ρ') : n.Mirrors ρ' n' :=
  getElem?_of_prefix h.2.1 hn

lemma eq_iff (hn : n.Mirrors ρ n') (hk : k.Mirrors ρ k') : n' = k' ↔ n = k := by
  constructor
  · rintro rfl
    have hindex : n.index = k.index := by
      obtain ⟨hlt, -⟩ := List.getElem?_eq_some_iff.1 hn
      exact (List.getElem?_inj hlt ρ.names_nodup).1 (hn.trans hk.symm)
    cases n
    cases k
    exact congrArg Name.mk hindex
  · rintro rfl
    exact Option.some.inj (hn.symm.trans hk)

lemma mem (hn : n.Mirrors ρ n') : n' ∈ ρ.names :=
  List.mem_of_getElem? hn

end Name.Mirrors

lemma Renaming.exists_name_of_mem {n' : Name} (h : n' ∈ ρ.names) : ∃ n : Name, n.Mirrors ρ n' := by
  obtain ⟨i, hi⟩ := List.mem_iff_getElem?.1 h
  exact ⟨⟨i⟩, hi⟩

namespace Id.Mirrors

variable {kind : Kind} {i i' j j' : Id kind}

lemma mono (hi : i.Mirrors ρ i') (h : ρ ≤ ρ') : i.Mirrors ρ' i' :=
  getElem?_of_prefix (h.2.2 kind) hi

lemma eq_iff (hi : i.Mirrors ρ i') (hj : j.Mirrors ρ j') : i' = j' ↔ i = j := by
  constructor
  · rintro rfl
    have hindex : i.index = j.index := by
      obtain ⟨hlt, -⟩ := List.getElem?_eq_some_iff.1 hi
      exact (List.getElem?_inj hlt (ρ.ids_nodup kind)).1 (hi.trans hj.symm)
    cases i
    cases j
    exact congrArg Id.mk hindex
  · rintro rfl
    exact Option.some.inj (hi.symm.trans hj)

lemma mem (hi : i.Mirrors ρ i') : i' ∈ ρ.ids kind :=
  List.mem_of_getElem? hi

end Id.Mirrors

lemma Renaming.exists_id_of_mem {kind : Kind} {i' : Id kind} (h : i' ∈ ρ.ids kind) :
    ∃ i : Id kind, i.Mirrors ρ i' := by
  obtain ⟨i, hi⟩ := List.mem_iff_getElem?.1 h
  exact ⟨⟨i⟩, hi⟩

/-! ### Values -/

/-- The second reference is to what stands for the first object. -/
structure NativeRef.Mirrors (ρ : Renaming) (o o' : NativeRef) : Prop where
  id : o.id.Mirrors ρ o'.id
  className : o'.className = o.className

/-- The values differ in numbers alone. -/
inductive Value.Mirrors (ρ : Renaming) : Value → Value → Prop
  | undefined : Mirrors ρ .undefined .undefined
  | number (x : Float) : Mirrors ρ (.number x) (.number x)
  | bool (b : Bool) : Mirrors ρ (.bool b) (.bool b)
  | string (s : String) : Mirrors ρ (.string s) (.string s)
  | array {a a' : Id .array} (ha : a.Mirrors ρ a') : Mirrors ρ (.array a) (.array a')
  | object {o o' : Id .object} (ho : o.Mirrors ρ o') : Mirrors ρ (.object o) (.object o')
  | native {o o' : NativeRef} (ho : o.Mirrors ρ o') : Mirrors ρ (.native o) (.native o')

lemma NativeRef.Mirrors.mono {o o' : NativeRef} (ho : o.Mirrors ρ o') (h : ρ ≤ ρ') :
    o.Mirrors ρ' o' :=
  ⟨ho.id.mono h, ho.className⟩

namespace Value.Mirrors

variable {v v' u u' : Value}

lemma mono (hv : v.Mirrors ρ v') (h : ρ ≤ ρ') : v.Mirrors ρ' v' := by
  cases hv with
  | array ha => exact .array (ha.mono h)
  | object ho => exact .object (ho.mono h)
  | native ho => exact .native (ho.mono h)
  | undefined => exact .undefined
  | number x => exact .number x
  | bool b => exact .bool b
  | string s => exact .string s

lemma toNumber (hv : v.Mirrors ρ v') : v'.toNumber = v.toNumber := by
  cases hv <;> rfl

lemma isTruthy (hv : v.Mirrors ρ v') : v'.isTruthy = v.isTruthy := by
  cases hv <;> rfl

lemma typeName (hv : v.Mirrors ρ v') : v'.typeName = v.typeName := by
  cases hv with
  | native ho => exact ho.className
  | _ => rfl

lemma order (hv : v.Mirrors ρ v') (hu : u.Mirrors ρ u') : v'.order u' = v.order u := by
  cases hv <;> cases hu <;> rfl

/-- References are equal if their images are. -/
lemma beq_of_mirrors {kind : Kind} {i i' j j' : Id kind} (hi : i.Mirrors ρ i')
    (hj : j.Mirrors ρ j') : (i' == j') = (i == j) :=
  Bool.eq_iff_iff.2 (beq_iff_eq.trans ((hi.eq_iff hj).trans beq_iff_eq.symm))

lemma looselyEquals (hv : v.Mirrors ρ v') (hu : u.Mirrors ρ u') :
    v'.looselyEquals u' = v.looselyEquals u := by
  cases hv with
  | array ha =>
    cases hu with
    | array ha' => exact beq_of_mirrors ha ha'
    | _ => rfl
  | object ho =>
    cases hu with
    | object ho' => exact beq_of_mirrors ho ho'
    | _ => rfl
  | native ho =>
    cases hu with
    | native ho' => exact beq_of_mirrors ho.id ho'.id
    | _ => rfl
  | _ => cases hu <;> rfl

lemma strictlyEquals (hv : v.Mirrors ρ v') (hu : u.Mirrors ρ u') :
    v'.strictlyEquals u' = v.strictlyEquals u := by
  cases hv with
  | array ha =>
    cases hu with
    | array ha' => exact beq_of_mirrors ha ha'
    | _ => rfl
  | object ho =>
    cases hu with
    | object ho' => exact beq_of_mirrors ho ho'
    | _ => rfl
  | native ho =>
    cases hu with
    | native ho' => exact beq_of_mirrors ho.id ho'.id
    | _ => rfl
  | _ => cases hu <;> rfl

end Value.Mirrors

/-- The values of two lists differ in numbers alone. -/
abbrev Values.Mirrors (ρ : Renaming) : List Value → List Value → Prop :=
  List.Forall₂ (Value.Mirrors ρ)

namespace Values.Mirrors

variable {vs vs' : List Value}

lemma mono (hvs : Values.Mirrors ρ vs vs') (h : ρ ≤ ρ') : Values.Mirrors ρ' vs vs' :=
  hvs.imp fun _ _ hv => hv.mono h

/-- Where there is no value, there is `undefined` instead. -/
lemma getD (hvs : Values.Mirrors ρ vs vs') (i : ℕ) :
    (vs[i]?.getD .undefined).Mirrors ρ (vs'[i]?.getD .undefined) := by
  induction hvs generalizing i with
  | nil => exact .undefined
  | cons hv _ ih =>
    cases i with
    | zero => exact hv
    | succ i => exact ih i

lemma set (hvs : Values.Mirrors ρ vs vs') (i : ℕ) {v v' : Value} (hv : v.Mirrors ρ v') :
    Values.Mirrors ρ (vs.set i v) (vs'.set i v') := by
  induction hvs generalizing i with
  | nil => exact .nil
  | cons hu hrest ih =>
    cases i with
    | zero => exact .cons hv hrest
    | succ i => exact .cons hu (ih i)

end Values.Mirrors

/-! ### Tables of names -/

namespace NameMap

variable {α β : Type}

/-- The second table holds, under the names that stand for those of the first one and in the same
order, what `R` relates to what the first one holds. -/
def Mirrors (ρ : Renaming) (R : α → β → Prop) (m : NameMap α) (m' : NameMap β) : Prop :=
  List.Forall₂ (fun e e' => e.1.Mirrors ρ e'.1 ∧ R e.2 e'.2) m.entries m'.entries

namespace Mirrors

variable {R : α → β → Prop} {m : NameMap α} {m' : NameMap β} {n n' : Name}

lemma empty : Mirrors ρ R (∅ : NameMap α) (∅ : NameMap β) :=
  .nil

lemma imp (hm : Mirrors ρ R m m') (h : ρ ≤ ρ') {Q : α → β → Prop} (hRQ : ∀ a b, R a b → Q a b) :
    Mirrors ρ' Q m m' :=
  List.Forall₂.imp (fun _ _ he => ⟨he.1.mono h, hRQ _ _ he.2⟩) hm

lemma size (hm : Mirrors ρ R m m') : m'.size = m.size :=
  (List.Forall₂.length_eq hm).symm

lemma values (hm : Mirrors ρ R m m') : List.Forall₂ R m.values m'.values := by
  unfold NameMap.values
  rw [List.forall₂_map_left_iff, List.forall₂_map_right_iff]
  exact List.Forall₂.imp (fun _ _ he => he.2) hm

/-- The names in a table stand for names. -/
lemma exists_name (hm : Mirrors ρ R m m') {e : Name × α} (he : e ∈ m.entries) :
    ∃ n', e.1.Mirrors ρ n' := by
  unfold Mirrors at hm
  generalize m.entries = es, m'.entries = es' at hm he
  induction hm with
  | nil => exact absurd he List.not_mem_nil
  | @cons e₀ e' _ _ hhead _ ih =>
    rcases List.mem_cons.1 he with rfl | he
    · exact ⟨e'.1, hhead.1⟩
    · exact ih he

/-- What is held under names that stand for each other corresponds. -/
lemma get? (hm : Mirrors ρ R m m') (hn : n.Mirrors ρ n') :
    Option.Rel R (m.get? n) (m'.get? n') := by
  unfold NameMap.get?
  unfold Mirrors at hm
  generalize m.entries = es, m'.entries = es' at hm
  induction hm with
  | nil => exact .none
  | @cons e e' rest rest' he _ ih =>
    obtain ⟨k, a⟩ := e
    obtain ⟨k', a'⟩ := e'
    by_cases hk : n = k
    · subst hk
      obtain rfl : n' = k' := (hn.eq_iff he.1).2 rfl
      rw [List.lookup_cons_self, List.lookup_cons_self]
      exact .some he.2
    · have hk' : n' ≠ k' := fun heq => hk ((hn.eq_iff he.1).1 heq)
      rw [lookup_cons_of_ne hk, lookup_cons_of_ne hk']
      exact ih

/-- Under a name that stands for no other, there is nothing. -/
lemma get?_of_not_mem (hm : Mirrors ρ R m m') (hn' : n' ∉ ρ.names) : m'.get? n' = none := by
  unfold NameMap.get?
  unfold Mirrors at hm
  generalize m.entries = es, m'.entries = es' at hm
  induction hm with
  | nil => rfl
  | @cons e e' rest rest' he _ ih =>
    obtain ⟨k', a'⟩ := e'
    have hk' : n' ≠ k' := fun heq => hn' (heq ▸ he.1.mem)
    rw [lookup_cons_of_ne hk']
    exact ih

lemma insert (hm : Mirrors ρ R m m') (hn : n.Mirrors ρ n') {a : α} {b : β} (hab : R a b) :
    Mirrors ρ R (m.insert n a) (m'.insert n' b) := by
  unfold Mirrors NameMap.insert at *
  dsimp only
  generalize m.entries = es, m'.entries = es' at hm
  induction hm with
  | nil => exact .cons ⟨hn, hab⟩ .nil
  | @cons e e' rest rest' he hrest ih =>
    obtain ⟨k, c⟩ := e
    obtain ⟨k', c'⟩ := e'
    simp only [insertEntry, he.1.eq_iff hn]
    split
    · exact .cons ⟨hn, hab⟩ hrest
    · exact .cons he ih

lemma erase (hm : Mirrors ρ R m m') (hn : n.Mirrors ρ n') :
    Mirrors ρ R (m.erase n) (m'.erase n') := by
  unfold Mirrors NameMap.erase at *
  dsimp only
  generalize m.entries = es, m'.entries = es' at hm
  induction hm with
  | nil => exact .nil
  | @cons e e' rest rest' he hrest ih =>
    obtain ⟨k, c⟩ := e
    obtain ⟨k', c'⟩ := e'
    by_cases hk : k = n
    · have hk' : k' = n' := (he.1.eq_iff hn).2 hk
      simpa [List.filter_cons, hk, hk'] using ih
    · have hk' : k' ≠ n' := fun heq => hk ((he.1.eq_iff hn).1 heq)
      simpa [List.filter_cons, hk, hk'] using ⟨he, ih⟩

end Mirrors

end NameMap

/-- The bags hold corresponding values under corresponding names, whatever the orders in which they
list them. -/
def PropertyBag.Mirrors (ρ : Renaming) (bag bag' : PropertyBag) : Prop :=
  ∃ listed : PropertyBag, listed.entries.Perm bag'.entries ∧
    NameMap.Mirrors ρ (Value.Mirrors ρ) bag listed

namespace PropertyBag.Mirrors

variable {bag bag' : PropertyBag} {n n' : Name}

lemma empty : PropertyBag.Mirrors ρ ∅ ∅ :=
  ⟨∅, .refl _, .empty⟩

lemma mono (hbag : PropertyBag.Mirrors ρ bag bag') (h : ρ ≤ ρ') :
    PropertyBag.Mirrors ρ' bag bag' := by
  obtain ⟨listed, hperm, hlisted⟩ := hbag
  exact ⟨listed, hperm, hlisted.imp h fun _ _ hv => hv.mono h⟩

lemma size (hbag : PropertyBag.Mirrors ρ bag bag') : bag'.size = bag.size := by
  obtain ⟨listed, hperm, hlisted⟩ := hbag
  exact hperm.length_eq.symm.trans hlisted.size

/-- What the bags hold under names that stand for each other corresponds. -/
lemma get? (hbag : PropertyBag.Mirrors ρ bag bag') (hn : n.Mirrors ρ n') :
    Option.Rel (Value.Mirrors ρ) (bag.get? n) (bag'.get? n') := by
  obtain ⟨listed, hperm, hlisted⟩ := hbag
  rw [← NameMap.get?_eq_of_perm hperm]
  exact hlisted.get? hn

lemma insert (hbag : PropertyBag.Mirrors ρ bag bag') (hn : n.Mirrors ρ n') {v v' : Value}
    (hv : v.Mirrors ρ v') : PropertyBag.Mirrors ρ (bag.insert n v) (bag'.insert n' v') := by
  obtain ⟨listed, hperm, hlisted⟩ := hbag
  exact ⟨listed.insert n' v', NameMap.insert_perm hperm n' v', hlisted.insert hn hv⟩

lemma erase (hbag : PropertyBag.Mirrors ρ bag bag') (hn : n.Mirrors ρ n') :
    PropertyBag.Mirrors ρ (bag.erase n) (bag'.erase n') := by
  obtain ⟨listed, hperm, hlisted⟩ := hbag
  exact ⟨listed.erase n', NameMap.erase_perm hperm n', hlisted.erase hn⟩

lemma read (hbag : PropertyBag.Mirrors ρ bag bag') (hn : n.Mirrors ρ n') :
    (bag.read n).Mirrors ρ (PropertyBag.read bag' n') := by
  have hget := hbag.get? hn
  unfold PropertyBag.read
  generalize bag.get? n = found, bag'.get? n' = found' at hget
  cases hget with
  | none => exact .undefined
  | some hv => exact hv

end PropertyBag.Mirrors

/-! ### Interners -/

/-- A new text is one more. -/
lemma Interner.size_intern_of_none {t : Interner} {s : String} (h : t.get? s = none) :
    (t.intern s).2.size = t.size + 1 := by
  rw [size, strings_intern_of_none h]
  exact Array.size_push _

/-- The second interner has, under the names that stand for all names of the first one, the same
texts. -/
structure Interner.Mirrors (ρ : Renaming) (t t' : Interner) : Prop where
  size : t.size = ρ.names.length
  text : ∀ {n n' : Name}, n.Mirrors ρ n' → t'.strings[n'.index]? = t.strings[n.index]?

namespace Interner.Mirrors

variable {t t' : Interner} {n n' : Name} {s : String}

lemma lookup (h : t.Mirrors ρ t') (hn : n.Mirrors ρ n') : t'.lookup n' = t.lookup n := by
  rw [Interner.lookup, Interner.lookup, h.text hn]

/-- It is only the names that matter. -/
lemma of_names (h : t.Mirrors ρ t') (hnames : ρ'.names = ρ.names) : t.Mirrors ρ' t' where
  size := hnames ▸ h.size
  text hn := h.text (by rwa [Name.Mirrors, hnames] at hn)

/-- A name of the first interner has an image. -/
lemma exists_name (h : t.Mirrors ρ t') (hn : t.Knows n) : ∃ n', n.Mirrors ρ n' := by
  have hlt : n.index < ρ.names.length := h.size ▸ hn
  exact ⟨_, List.getElem?_eq_getElem hlt⟩

/-- The name of a text is mirrored by the name of that text. -/
lemma exists_get? (h : t.Mirrors ρ t') (hs : t.get? s = some n) :
    ∃ n', n.Mirrors ρ n' ∧ t'.get? s = some n' := by
  obtain ⟨n', hn⟩ := h.exists_name (knows_of_get? hs)
  exact ⟨n', hn, get?_eq_some_iff.2 ((h.text hn).trans (get?_eq_some_iff.1 hs))⟩

/-- The name of a text that the first interner does not have stands for no name. -/
lemma not_mem_of_get? (h : t.Mirrors ρ t') (hs : t.get? s = none) (hs' : t'.get? s = some n') :
    n' ∉ ρ.names := by
  intro hmem
  obtain ⟨n, hn⟩ := Renaming.exists_name_of_mem hmem
  have htext : t.get? s = some n :=
    get?_eq_some_iff.2 ((h.text hn).symm.trans (get?_eq_some_iff.1 hs'))
  exact nomatch hs.symm.trans htext

/-- Under the name of a text, tables hold what corresponds, if the text has a name. -/
lemma bind_get? (h : t.Mirrors ρ t') {α β : Type} {R : α → β → Prop} {m : NameMap α}
    {m' : NameMap β} (hm : NameMap.Mirrors ρ R m m') (s : String) :
    Option.Rel R ((t.get? s).bind m.get?) ((t'.get? s).bind m'.get?) := by
  cases hs : t.get? s with
  | some n =>
    obtain ⟨n', hn, hs'⟩ := h.exists_get? hs
    rw [hs']
    exact hm.get? hn
  | none =>
    cases hs' : t'.get? s with
    | none => exact .none
    | some n' =>
      rw [Option.bind_none, Option.bind_some, hm.get?_of_not_mem (h.not_mem_of_get? hs hs')]
      exact .none

/-- Under the name of a text, bags hold what corresponds, if the text has a name. -/
lemma bind_property (h : t.Mirrors ρ t') {bag bag' : PropertyBag}
    (hbag : PropertyBag.Mirrors ρ bag bag') (s : String) :
    Option.Rel (Value.Mirrors ρ) ((t.get? s).bind bag.get?) ((t'.get? s).bind bag'.get?) := by
  obtain ⟨listed, hperm, hlisted⟩ := hbag
  rw [← funext (NameMap.get?_eq_of_perm hperm)]
  exact h.bind_get? hlisted s

/-- The second interner may have more texts. -/
lemma extends_right (h : t.Mirrors ρ t') (hknown : ∀ n' ∈ ρ.names, t'.Knows n')
    {t'' : Interner} (ht : t'.Extends t'') : t.Mirrors ρ t'' := by
  refine ⟨h.size, fun {n n'} hn => ?_⟩
  obtain ⟨s, hs⟩ := (hknown n' hn.mem).exists_text
  have hs' := get?_eq_some_iff.1 hs
  rw [ht n'.index s hs', ← h.text hn, hs']

/-- What has an image is known. -/
lemma knows_of_mirrors (h : t.Mirrors ρ t') (hn : n.Mirrors ρ n') : t.Knows n := by
  change n.index < t.size
  rw [h.size]
  exact (List.getElem?_eq_some_iff.1 hn).1

/-- Images are known. -/
lemma knows (h : t.Mirrors ρ t') {n' : Name} (hn' : n' ∈ ρ.names) : t'.Knows n' := by
  obtain ⟨n, hn⟩ := Renaming.exists_name_of_mem hn'
  have htext := (h.text hn).trans (Array.getElem?_eq_getElem (h.knows_of_mirrors hn))
  exact (Array.getElem?_eq_some_iff.1 htext).1

/-- Both interners intern a text; the second one may have had it already. -/
lemma intern (h : t.Mirrors ρ t') (s : String) :
    ∃ ρ', (ρ.GrowsInMemory ρ' ∧ ρ'.ids = ρ.ids) ∧ (t.intern s).2.Mirrors ρ' (t'.intern s).2 ∧
      (t.intern s).1.Mirrors ρ' (t'.intern s).1 := by
  cases hs : t.get? s with
  | some n =>
    obtain ⟨n', hn, hs'⟩ := h.exists_get? hs
    rw [intern_of_get? hs, intern_of_get? hs']
    exact ⟨ρ, ⟨.refl ρ, rfl⟩, h, hn⟩
  | none =>
    have hnew : (t'.intern s).1 ∉ ρ.names := by
      cases hs' : t'.get? s with
      | some n' =>
        rw [intern_of_get? hs']
        exact h.not_mem_of_get? hs hs'
      | none =>
        intro hmem
        have hknown := h.knows hmem
        rw [intern_of_none hs'] at hknown
        exact Nat.lt_irrefl _ hknown
    refine ⟨ρ.addName _ hnew, ⟨Renaming.growsInMemory_addName, rfl⟩, ⟨?_, ?_⟩, ?_⟩
    · rw [size_intern_of_none hs, h.size]
      change ρ.names.length + 1 = (ρ.names ++ [(t'.intern s).1]).length
      rw [List.length_append, List.length_singleton]
    · intro n n' hn
      rcases Renaming.mirrors_addName_cases hn with hold | ⟨hindex, rfl⟩
      · have hknown : n.index < t.size := by
          rw [h.size]
          exact (List.getElem?_eq_some_iff.1 hold).1
        have htext : t.strings[n.index]? = some t.strings[n.index] :=
          Array.getElem?_eq_getElem hknown
        have htext' := (h.text hold).trans htext
        rw [t.extends_intern s _ _ htext, t'.extends_intern s _ _ htext']
      · have hname : n = (t.intern s).1 := by
          rw [intern_of_none hs]
          cases n
          exact congrArg Name.mk (hindex.trans h.size.symm)
        rw [hname, get?_eq_some_iff.1 (t.get?_intern s), get?_eq_some_iff.1 (t'.get?_intern s)]
    · refine Renaming.mirrors_addName ?_
      rw [intern_of_none hs]
      exact h.size

end Interner.Mirrors

end ScriptEngine
