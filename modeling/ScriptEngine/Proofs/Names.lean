import Mathlib.Data.List.Nodup
import Mathlib.Tactic.Common
import ScriptEngine.Value.Basic

/-!
# Names that come in later

An interner only grows: it keeps the names that it has given out, with their texts.  A name that comes
in later is one that no property bag can hold yet, if all names of the bag are known.  So what a bag
holds under a text does not depend on which further texts have been interned.

Two bags are alike under two interners if they hold the same under the same texts, whatever the numbers
of the names are.

Main statement: `PropertyBag.Alike.self`.
-/

namespace ScriptEngine

namespace Interner

/-- The interner has given out the name. -/
def Knows (t : Interner) (n : Name) : Prop :=
  n.index < t.size

/-- The names of the first interner have the same texts in the second one. -/
def Extends (t t' : Interner) : Prop :=
  ∀ (i : ℕ) (s : String), t.strings[i]? = some s → t'.strings[i]? = some s

variable {t t' t'' : Interner} {n : Name} {s : String}

/-- Where nothing stands twice, a thing is found at the one place where it stands. -/
lemma idxOf?_eq_some_iff_of_nodup {α : Type} [BEq α] [LawfulBEq α] {xs : List α} (h : xs.Nodup)
    {x : α} {i : ℕ} : xs.idxOf? x = some i ↔ xs[i]? = some x := by
  rw [List.idxOf?_eq_some_iff]
  constructor
  · rintro ⟨hi, hx, -⟩
    rw [List.getElem?_eq_getElem hi, hx]
  · intro hx
    obtain ⟨hi, hget⟩ := List.getElem?_eq_some_iff.1 hx
    refine ⟨hi, hget, fun j hj hsame => ?_⟩
    have hij : xs[j]? = xs[i]? := by
      rw [hx, List.getElem?_eq_getElem (Nat.lt_trans hj hi), hsame]
    exact Nat.ne_of_lt hj ((List.getElem?_inj (Nat.lt_trans hj hi) h).1 hij)

/-- A text has the name of the place where it stands. -/
lemma get?_eq_some_iff : t.get? s = some n ↔ t.strings[n.index]? = some s := by
  obtain ⟨⟨strings⟩, hnodup⟩ := t
  obtain ⟨i⟩ := n
  have hidx : get? ⟨strings.toArray, hnodup⟩ s = some ⟨i⟩ ↔ strings.idxOf? s = some i := by
    unfold get?
    rw [List.idxOf?_toArray]
    constructor
    · intro h
      obtain ⟨j, hj, hji⟩ := Option.map_eq_some_iff.1 h
      rwa [Name.mk.inj hji] at hj
    · intro h
      rw [h, Option.map_some]
  rw [hidx, List.getElem?_toArray]
  exact idxOf?_eq_some_iff_of_nodup hnodup

/-- Names are equal exactly when their texts are. -/
lemma name_eq_iff {s' : String} {n' : Name} (hn : t.get? s = some n) (hn' : t.get? s' = some n') :
    n = n' ↔ s = s' := by
  constructor
  · rintro rfl
    exact Option.some.inj ((get?_eq_some_iff.1 hn).symm.trans (get?_eq_some_iff.1 hn'))
  · rintro rfl
    exact Option.some.inj (hn.symm.trans hn')

/-- A name that was given out has a text, of which it is the name. -/
lemma Knows.exists_text (h : t.Knows n) : ∃ s, t.get? s = some n := by
  obtain ⟨s, hs⟩ : ∃ s, t.strings[n.index]? = some s := ⟨_, Array.getElem?_eq_getElem h⟩
  exact ⟨s, get?_eq_some_iff.2 hs⟩

/-- The name of a text was given out. -/
lemma knows_of_get? (h : t.get? s = some n) : t.Knows n := by
  obtain ⟨hn, -⟩ := Array.getElem?_eq_some_iff.1 (get?_eq_some_iff.1 h)
  exact hn

/-- A text that has a name reads back from it. -/
lemma lookup_of_get? (hs : t.get? s = some n) : t.lookup n = s := by
  rw [lookup, get?_eq_some_iff.1 hs, Option.getD_some]

/-- Known names with the same text are the same. -/
lemma Knows.eq_of_lookup {k : Name} (hn : t.Knows n) (hk : t.Knows k)
    (h : t.lookup n = t.lookup k) : n = k := by
  obtain ⟨s, hs⟩ := hn.exists_text
  obtain ⟨s', hs'⟩ := hk.exists_text
  rw [lookup_of_get? hs, lookup_of_get? hs'] at h
  exact (name_eq_iff hs hs').2 h

namespace Extends

lemma refl (t : Interner) : t.Extends t := fun _ _ h => h

lemma trans (h : t.Extends t') (h' : t'.Extends t'') : t.Extends t'' :=
  fun i s hs => h' i s (h i s hs)

variable (h : t.Extends t')

include h

/-- Texts keep their names. -/
lemma get? (hs : t.get? s = some n) : t'.get? s = some n :=
  get?_eq_some_iff.2 (h n.index s (get?_eq_some_iff.1 hs))

/-- Names stay known. -/
lemma knows (hn : t.Knows n) : t'.Knows n := by
  obtain ⟨s, hs⟩ := hn.exists_text
  exact knows_of_get? (h.get? hs)

/-- Names keep their texts. -/
lemma lookup (hn : t.Knows n) : t'.lookup n = t.lookup n := by
  obtain ⟨s, hs⟩ := hn.exists_text
  have hs := get?_eq_some_iff.1 hs
  unfold Interner.lookup
  rw [h n.index s hs, hs]

/-- A name that was known before is the name of the same text. -/
lemma get?_of_knows (hn : t.Knows n) (hs : t'.get? s = some n) : t.get? s = some n := by
  obtain ⟨s', hs'⟩ := hn.exists_text
  have hsame : some s' = some s :=
    (get?_eq_some_iff.1 (h.get? hs')).symm.trans (get?_eq_some_iff.1 hs)
  rwa [← Option.some.inj hsame]

end Extends

/-- Interning a text keeps all names. -/
lemma extends_intern (t : Interner) (s : String) : t.Extends (t.intern s).2 := by
  intro i s' hs'
  unfold intern
  split
  · exact hs'
  · obtain ⟨hi, -⟩ := Array.getElem?_eq_some_iff.1 hs'
    change (t.strings.push s)[i]? = some s'
    rw [Array.getElem?_push, if_neg (Nat.ne_of_lt hi)]
    exact hs'

/-- The name of a text that was interned. -/
lemma get?_intern (t : Interner) (s : String) : (t.intern s).2.get? s = some (t.intern s).1 := by
  unfold intern
  split
  · assumption
  · refine get?_eq_some_iff.2 ?_
    change (t.strings.push s)[t.strings.size]? = some s
    exact Array.getElem?_push_size

/-- What is there already is not interned again. -/
lemma intern_of_get? (hs : t.get? s = some n) : t.intern s = (n, t) := by
  unfold intern
  split
  · rename_i k hk
    rw [Option.some.inj (hk.symm.trans hs)]
  · rename_i hnone
    cases hnone.symm.trans hs

/-- A new text has the next number. -/
lemma intern_of_none (hs : t.get? s = none) : (t.intern s).1 = ⟨t.size⟩ := by
  unfold intern
  split
  · rename_i k hk
    cases hs.symm.trans hk
  · rfl

/-- A new text is put behind all others. -/
lemma strings_intern_of_none (hs : t.get? s = none) :
    (t.intern s).2.strings = t.strings.push s := by
  unfold intern
  split
  · rename_i k hk
    cases hs.symm.trans hk
  · rfl

end Interner

namespace PropertyBag

/-- The property that a text names, if it names one. -/
def ofText? (bag : PropertyBag) (t : Interner) (s : String) : Option Value :=
  (t.get? s).bind bag.get?

/-- All names of the bag were given out by the interner. -/
def KnownTo (bag : PropertyBag) (t : Interner) : Prop :=
  ∀ n v, bag.get? n = some v → t.Knows n

/-- The second bag holds under the texts of the second interner what the first one holds under those
of the first. -/
structure Alike (t t' : Interner) (bag bag' : PropertyBag) : Prop where
  size : bag'.size = bag.size
  known : bag.KnownTo t
  known' : bag'.KnownTo t'
  ofText? : ∀ s, bag'.ofText? t' s = bag.ofText? t s

variable {t t' u u' : Interner} {bag bag' : PropertyBag}

/-- What a bag holds under a text does not depend on further texts, since no bag can hold their
names yet. -/
lemma KnownTo.ofText? (h : bag.KnownTo t) (ht : t.Extends t') (s : String) :
    bag.ofText? t' s = bag.ofText? t s := by
  unfold PropertyBag.ofText?
  cases hs : t.get? s with
  | some n => rw [ht.get? hs]
  | none =>
    cases hs' : t'.get? s with
    | none => rfl
    | some n =>
      cases hn : bag.get? n with
      | none => exact hn
      | some v =>
        rw [ht.get?_of_knows (h n v hn) hs'] at hs
        exact nomatch hs

/-- The bag stays known. -/
lemma KnownTo.extends (h : bag.KnownTo t) (ht : t.Extends t') : bag.KnownTo t' :=
  fun n v hn => ht.knows (h n v hn)

/-- A bag is alike itself under an interner with further names. -/
theorem Alike.self (h : bag.KnownTo t) (ht : t.Extends t') : Alike t t' bag bag :=
  ⟨rfl, h, h.extends ht, h.ofText? ht⟩

/-- Empty bags are alike. -/
lemma Alike.empty : Alike t t' ∅ ∅ := by
  refine ⟨rfl, fun n v hn => (nomatch hn), fun n v hn => (nomatch hn), fun s => ?_⟩
  unfold PropertyBag.ofText?
  cases t.get? s <;> cases t'.get? s <;> rfl

/-- Bags stay alike when further texts are interned. -/
lemma Alike.extends (h : Alike t t' bag bag') (ht : t.Extends u) (ht' : t'.Extends u') :
    Alike u u' bag bag' := by
  refine ⟨h.size, h.known.extends ht, h.known'.extends ht', fun s => ?_⟩
  rw [h.known'.ofText? ht', h.known.ofText? ht, h.ofText?]

/-- What a bag holds under the texts after a property was set. -/
lemma ofText?_insert {s : String} {n : Name} (hn : t.get? s = some n) (v : Value) (r : String) :
    PropertyBag.ofText? (bag.insert n v) t r = if r = s then some v else bag.ofText? t r := by
  unfold PropertyBag.ofText?
  cases hr : t.get? r with
  | none =>
    have hne : r ≠ s := by
      rintro rfl
      exact nomatch hn.symm.trans hr
    rw [if_neg hne]
    rfl
  | some k =>
    change NameMap.get? (bag.insert n v) k = if r = s then some v else bag.get? k
    rw [NameMap.get?_insert]
    exact if_congr (Interner.name_eq_iff hr hn) rfl rfl

/-- What a bag holds under the texts after a property was removed. -/
lemma ofText?_erase {s : String} {n : Name} (hn : t.get? s = some n) (r : String) :
    PropertyBag.ofText? (bag.erase n) t r = if r = s then none else bag.ofText? t r := by
  unfold PropertyBag.ofText?
  cases hr : t.get? r with
  | none => exact (ite_self none).symm
  | some k =>
    change NameMap.get? (bag.erase n) k = if r = s then none else bag.get? k
    rw [NameMap.get?_erase]
    exact if_congr (Interner.name_eq_iff hr hn) rfl rfl

section

variable (h : Alike t t' bag bag') {s : String} {n n' : Name} (hn : t.get? s = some n)
  (hn' : t'.get? s = some n')

include h hn hn'

/-- Bags that are alike hold the same under the names of a text. -/
lemma Alike.get?_names : bag'.get? n' = bag.get? n := by
  have htext := h.ofText? s
  unfold PropertyBag.ofText? at htext
  rwa [hn, hn'] at htext

/-- Bags stay alike when a property is set. -/
lemma Alike.insert (v : Value) : Alike t t' (bag.insert n v) (bag'.insert n' v) where
  size := by
    rw [NameMap.size_insert, NameMap.size_insert, h.get?_names hn hn', h.size]
  known k u hk := by
    rw [NameMap.get?_insert] at hk
    split at hk
    · rename_i hkn
      exact hkn ▸ Interner.knows_of_get? hn
    · exact h.known k u hk
  known' k u hk := by
    rw [NameMap.get?_insert] at hk
    split at hk
    · rename_i hkn
      exact hkn ▸ Interner.knows_of_get? hn'
    · exact h.known' k u hk
  ofText? r := by
    rw [ofText?_insert hn', ofText?_insert hn, h.ofText? r]

/-- Bags stay alike when a property is removed. -/
lemma Alike.erase : Alike t t' (bag.erase n) (bag'.erase n') where
  size := by
    rw [NameMap.size_erase, NameMap.size_erase, h.get?_names hn hn', h.size]
  known k u hk := by
    rw [NameMap.get?_erase] at hk
    split at hk
    · exact nomatch hk
    · exact h.known k u hk
  known' k u hk := by
    rw [NameMap.get?_erase] at hk
    split at hk
    · exact nomatch hk
    · exact h.known' k u hk
  ofText? r := by
    rw [ofText?_erase hn', ofText?_erase hn, h.ofText? r]

end

/-- Bags that are alike hold the same under a name that both interners had from the start. -/
lemma Alike.get?_eq {t₀ : Interner} {n : Name} (h : Alike t t' bag bag') (ht : t₀.Extends t)
    (ht' : t₀.Extends t') (hn : t₀.Knows n) : bag'.get? n = bag.get? n := by
  obtain ⟨s, hs⟩ := hn.exists_text
  exact h.get?_names (ht.get? hs) (ht'.get? hs)

/-- What a bag holds under the name of a text, which may be interned for that. -/
lemma KnownTo.get?_intern (h : bag.KnownTo t) (s : String) :
    bag.get? (t.intern s).1 = bag.ofText? t s := by
  rw [← h.ofText? (t.extends_intern s) s]
  unfold PropertyBag.ofText?
  rw [t.get?_intern s]
  rfl

end PropertyBag

end ScriptEngine
