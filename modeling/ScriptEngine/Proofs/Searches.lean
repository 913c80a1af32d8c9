import Mathlib.Data.Finset.Card
import Mathlib.Data.Finset.Image
import Mathlib.Data.Fintype.Card
import ScriptEngine.Proofs.Arrays
import ScriptEngine.Session.Snapshot

/-!
# Bounded searches

The text of a value and its snapshot are searched for down to a depth, which is given by the number
of things that may lie on the way.  A deeper search finds nothing else: whatever is found at the
last moment only lies below something that is found one moment earlier only, and so on; all these
things are different.  So the bound does not matter: a value has a text, and a snapshot, if it has
one at any depth (`Memory.display?_eq_some_iff` and `Session.Snapshot.ofValue?_eq_some_iff`).
-/

namespace ScriptEngine

/-! ### Searches in general -/

section Searches

variable {α β : Type} {found : α → ℕ → Option β}

/-- What a search finds, a deeper one finds as well. -/
lemma found_of_le (hmono : ∀ a k b, found a k = some b → found a (k + 1) = some b) {a : α}
    {j k : ℕ} (hjk : j ≤ k) {b : β} (h : found a j = some b) : found a k = some b := by
  induction hjk with
  | refl => exact h
  | step _ ih => exact hmono _ _ _ ih

/-- A search as deep as the number of things that can delay it finds all that is found at any depth:
`hbelow` says that what is found late is such a thing, and lies above something that is found one
moment earlier. -/
theorem found_iff_exists (hmono : ∀ a k b, found a k = some b → found a (k + 1) = some b)
    {things : Finset α}
    (hbelow : ∀ a k, ¬(found a (k + 1)).isSome → (found a (k + 2)).isSome →
      a ∈ things ∧ ∃ b, ¬(found b k).isSome ∧ (found b (k + 1)).isSome)
    {bound : ℕ} (hbound : things.card < bound) {a : α} {b : β} :
    found a bound = some b ↔ ∃ k, found a k = some b := by
  classical
  refine ⟨fun h => ⟨bound, h⟩, fun ⟨k, hk⟩ => ?_⟩
  have hle {a : α} {j k : ℕ} (hjk : j ≤ k) (h : (found a j).isSome) : (found a k).isSome := by
    obtain ⟨b, hb⟩ := Option.isSome_iff_exists.1 h
    exact Option.isSome_iff_exists.2 ⟨b, found_of_le hmono hjk hb⟩
  by_cases hdone : (found a bound).isSome
  · obtain ⟨c, hc⟩ := Option.isSome_iff_exists.1 hdone
    have hmax := found_of_le hmono (Nat.le_max_left k bound) hk
    rw [hc, ← found_of_le hmono (Nat.le_max_right k bound) hc, hmax]
  exfalso
  let Last (a : α) (k : ℕ) : Prop := ¬(found a k).isSome ∧ (found a (k + 1)).isSome
  -- the last moment at which the value is not found
  obtain ⟨last, hlast, hlastBound⟩ : ∃ last, Last a last ∧ bound ≤ last := by
    have hfound := Option.isSome_iff_exists.2 ⟨b, hk⟩
    clear hk
    induction k with
    | zero => exact absurd (hle (Nat.zero_le bound) hfound) hdone
    | succ k ih =>
      by_cases hk : (found a k).isSome
      · exact ih hk
      · refine ⟨k, ⟨hk, hfound⟩, ?_⟩
        by_contra hlt
        exact hdone (hle (Nat.lt_of_not_le hlt) hfound)
  have hunique {b : α} {j k : ℕ} (hj : Last b j) (hk : Last b k) : j ≤ k := by
    by_contra hlt
    exact hj.1 (hle (Nat.lt_of_not_le hlt) hk.2)
  have hchain : ∀ n b, Last b n → ∀ k < n, ∃ c ∈ things, Last c (k + 1) := by
    intro n
    induction n with
    | zero => exact fun _ _ k hk => absurd hk (Nat.not_lt_zero k)
    | succ n ih =>
      intro b hb k hk
      obtain ⟨hthing, c, hc⟩ := hbelow b n hb.1 hb.2
      rcases Nat.lt_succ_iff_lt_or_eq.1 hk with hlt | rfl
      · exact ih c hc k hlt
      · exact ⟨b, hthing, hb⟩
  choose thing hthing hthingLast using fun k : Fin last => hchain last a hlast k k.2
  have hinjective : Function.Injective thing := by
    intro j k hjk
    have hj := hthingLast j
    rw [hjk] at hj
    have hjle := hunique hj (hthingLast k)
    have hkle := hunique (hthingLast k) hj
    exact Fin.ext (by omega)
  have hcard : (Finset.univ.image thing).card = last := by
    rw [Finset.card_image_of_injective _ hinjective, Finset.card_univ, Fintype.card_fin]
  have hsubset : Finset.univ.image thing ⊆ things := by
    intro b hb
    obtain ⟨k, -, rfl⟩ := Finset.mem_image.1 hb
    exact hthing k
  have hfew := Finset.card_le_card hsubset
  omega

/-- What all items give with a search, they give with a search that finds more. -/
lemma mapM_eq_some_of_forall {f g : α → Option β} {as : List α} {bs : List β}
    (h : ∀ a ∈ as, ∀ b, f a = some b → g a = some b) (hf : as.mapM f = some bs) :
    as.mapM g = some bs := by
  induction as generalizing bs with
  | nil => exact hf
  | cons a rest ih =>
    rw [List.mapM_cons] at hf ⊢
    obtain ⟨b, hb, hf⟩ := Option.bind_eq_some_iff.1 hf
    obtain ⟨cs, hcs, hf⟩ := Option.bind_eq_some_iff.1 hf
    rw [h a List.mem_cons_self b hb]
    rw [ih (fun c hc => h c (List.mem_cons_of_mem a hc)) hcs]
    exact hf

/-- If all items together are found later only, one of them is. -/
lemma exists_of_mapM {f g : α → Option β} {as : List α} (hf : ¬(as.mapM f).isSome)
    (hg : (as.mapM g).isSome) : ∃ a ∈ as, ¬(f a).isSome ∧ (g a).isSome := by
  by_contra hnone
  refine hf (Memory.isSome_mapM_of_forall fun a ha => ?_)
  by_contra hfa
  refine hnone ⟨a, ha, hfa, ?_⟩
  clear hnone hfa hf
  induction as with
  | nil => exact absurd ha List.not_mem_nil
  | cons b rest ih =>
    obtain ⟨bs, hbs⟩ := Option.isSome_iff_exists.1 hg
    rw [List.mapM_cons] at hbs
    obtain ⟨c, hc, hbs⟩ := Option.bind_eq_some_iff.1 hbs
    obtain ⟨cs, hcs, -⟩ := Option.bind_eq_some_iff.1 hbs
    rcases List.mem_cons.1 ha with rfl | ha
    · rw [hc]
      rfl
    · exact ih (Option.isSome_iff_exists.2 ⟨cs, hcs⟩) ha

end Searches

/-! ### Texts -/

namespace Memory

variable (m : Memory)

/-- An array that holds something is there. -/
lemma index_lt_of_mem_items {m : Memory} {a : Id .array} {v : Value}
    (hv : v ∈ (m.items a).toList) : a.index < m.arrays.size := by
  by_contra hsize
  have hnone : m.arrays.items[a.index]? = none :=
    Array.getElem?_eq_none (Nat.le_of_not_lt hsize)
  simp [items, Pool.get?, hnone] at hv

/-- An object that has properties is there. -/
lemma index_lt_of_mem_properties {m : Memory} {o : Id .object} {e : Name × Value}
    (he : e ∈ (m.properties o).entries) : o.index < m.objects.size := by
  by_contra hsize
  have hnone : m.objects.items[o.index]? = none :=
    Array.getElem?_eq_none (Nat.le_of_not_lt hsize)
  have hempty : m.properties o = NameMap.empty := by
    rw [properties, Pool.get?, hnone]
    rfl
  rw [hempty] at he
  exact List.not_mem_nil he

lemma displayWithin?_succ {k : ℕ} {v : Value} {s : String} (h : m.displayWithin? k v = some s) :
    m.displayWithin? (k + 1) v = some s := by
  induction k generalizing v s with
  | zero =>
    cases v with
    | array a => exact nomatch h
    | _ => simpa only [displayWithin?] using h
  | succ k ih =>
    cases v with
    | array a =>
      rw [displayWithin?] at h ⊢
      obtain ⟨texts, htexts, rfl⟩ := Option.map_eq_some_iff.1 h
      rw [mapM_eq_some_of_forall (fun v _ b hb => ih hb) htexts]
      rfl
    | _ => simpa only [displayWithin?] using h

/-- The arrays, as values. -/
def arrayValues : Finset Value :=
  (Finset.range m.arrays.size).image fun i => .array ⟨i⟩

/-- The objects, as values. -/
def objectValues : Finset Value :=
  (Finset.range m.objects.size).image fun i => .object ⟨i⟩

lemma card_arrayValues_le : m.arrayValues.card ≤ m.arrays.size :=
  Finset.card_image_le.trans_eq (Finset.card_range _)

lemma card_objectValues_le : m.objectValues.card ≤ m.objects.size :=
  Finset.card_image_le.trans_eq (Finset.card_range _)

lemma mem_arrayValues {m : Memory} {a : Id .array} {v : Value} (hv : v ∈ (m.items a).toList) :
    .array a ∈ m.arrayValues :=
  Finset.mem_image.2 ⟨a.index, Finset.mem_range.2 (index_lt_of_mem_items hv), rfl⟩

lemma mem_objectValues {m : Memory} {o : Id .object} {e : Name × Value}
    (he : e ∈ (m.properties o).entries) : .object o ∈ m.objectValues :=
  Finset.mem_image.2 ⟨o.index, Finset.mem_range.2 (index_lt_of_mem_properties he), rfl⟩

/-- A value has the text that a search finds at any depth. -/
theorem display?_eq_some_iff {m : Memory} {v : Value} {s : String} :
    m.display? v = some s ↔ ∃ k, m.displayWithin? k v = some s := by
  rw [display?_eq]
  have hbelow : ∀ v k, ¬(m.displayWithin? (k + 1) v).isSome →
      (m.displayWithin? (k + 2) v).isSome → v ∈ m.arrayValues ∧
        ∃ u, ¬(m.displayWithin? k u).isSome ∧ (m.displayWithin? (k + 1) u).isSome := by
    intro v k hnot hfound
    cases v with
    | array a =>
      rw [displayWithin?, Option.isSome_map] at hnot hfound
      obtain ⟨u, hu, hunfound, hufound⟩ := exists_of_mapM hnot hfound
      exact ⟨mem_arrayValues hu, u, hunfound, hufound⟩
    | _ => exact absurd rfl hnot
  have hmono : ∀ v k s, m.displayWithin? k v = some s → m.displayWithin? (k + 1) v = some s :=
    fun _ _ _ => m.displayWithin?_succ
  exact found_iff_exists hmono hbelow (Nat.lt_succ_of_le m.card_arrayValues_le)

end Memory

/-! ### Snapshots -/

namespace Session.Snapshot

variable {m : Memory} {i : Id .interner}

lemma ofValueWithin?_succ {k : ℕ} {v : Value} {x : Snapshot}
    (h : ofValueWithin? m i k v = some x) : ofValueWithin? m i (k + 1) v = some x := by
  induction k generalizing v x with
  | zero =>
    cases v with
    | array a => exact nomatch h
    | object o => exact nomatch h
    | _ => simpa only [ofValueWithin?] using h
  | succ k ih =>
    cases v with
    | array a =>
      rw [ofValueWithin?] at h ⊢
      obtain ⟨items, hitems, rfl⟩ := Option.map_eq_some_iff.1 h
      rw [mapM_eq_some_of_forall (fun v _ b hb => ih hb) hitems]
      rfl
    | object o =>
      rw [ofValueWithin?] at h ⊢
      obtain ⟨properties, hproperties, hx⟩ := Option.bind_eq_some_iff.1 h
      refine Option.bind_eq_some_iff.2 ⟨properties, ?_, hx⟩
      refine mapM_eq_some_of_forall (fun e _ b hb => ?_) hproperties
      obtain ⟨y, hy, hb⟩ := Option.bind_eq_some_iff.1 hb
      exact Option.bind_eq_some_iff.2 ⟨y, ih hy, hb⟩
    | _ => simpa only [ofValueWithin?] using h

/-- A value has the snapshot that a search finds at any depth. -/
theorem ofValue?_eq_some_iff {v : Value} {x : Snapshot} :
    ofValue? m i v = some x ↔ ∃ k, ofValueWithin? m i k v = some x := by
  have hbelow : ∀ v k, ¬(ofValueWithin? m i (k + 1) v).isSome →
      (ofValueWithin? m i (k + 2) v).isSome → v ∈ m.arrayValues ∪ m.objectValues ∧
        ∃ u, ¬(ofValueWithin? m i k u).isSome ∧ (ofValueWithin? m i (k + 1) u).isSome := by
    intro v k hnot hfound
    cases v with
    | array a =>
      rw [ofValueWithin?, Option.isSome_map] at hnot hfound
      obtain ⟨u, hu, hunfound, hufound⟩ := exists_of_mapM hnot hfound
      exact ⟨Finset.mem_union_left _ (Memory.mem_arrayValues hu), u, hunfound, hufound⟩
    | object o =>
      have hobject (x : Option (List (String × Snapshot))) :
          (do return .object (sortedByName (← x)) : Option Snapshot).isSome = x.isSome := by
        cases x <;> rfl
      have hentry (e : Name × Value) (k : ℕ) :
          (do return (m.lookup i e.1, ← ofValueWithin? m i k e.2) :
            Option (String × Snapshot)).isSome = (ofValueWithin? m i k e.2).isSome := by
        cases ofValueWithin? m i k e.2 <;> rfl
      rw [ofValueWithin?, hobject] at hnot hfound
      obtain ⟨e, he, hunfound, hfound⟩ := exists_of_mapM hnot hfound
      rw [hentry] at hunfound hfound
      exact ⟨Finset.mem_union_right _ (Memory.mem_objectValues he), e.2, hunfound, hfound⟩
    | _ => exact absurd rfl hnot
  have hmono : ∀ v k x, ofValueWithin? m i k v = some x → ofValueWithin? m i (k + 1) v = some x :=
    fun _ _ _ => ofValueWithin?_succ
  refine found_iff_exists hmono hbelow ?_
  have hunion := Finset.card_union_le m.arrayValues m.objectValues
  have harrays := m.card_arrayValues_le
  have hobjects := m.card_objectValues_le
  omega

end Session.Snapshot

end ScriptEngine
