import ScriptEngine.Proofs.Alike
import ScriptEngine.Proofs.Renaming
import ScriptEngine.Proofs.Searches
import ScriptEngine.Proofs.SortedRows

/-!
# Mirrored memory

A memory is mirrored by a second one if the second one holds, under the numbers that stand for those
of the first, the same things up to numbers.  The second memory may hold other things beside; they
are foreign, and `Surroundings` says what they are and what they were like.  A correspondence keeps
track of them as well: everything in the second memory is either an image or foreign, and what is
foreign is as it was.

What the first memory does, the second one can do; new things get new numbers on both sides, and the
renaming grows.  Texts and snapshots of values are the same on both sides; an object may list its
properties in another order, but a snapshot has them in the order of their names.

Main statements: `Memory.Mirrors.display?`, `Memory.Mirrors.snapshot?`, and one lemma for each
operation on a memory.
-/

namespace ScriptEngine

/-! ### Pools -/

/-- What is foreign in a world, and a world in which it was as it has to be. -/
structure Surroundings where
  foreign : (kind : Kind) → Id kind → Prop
  base : World

/-- The second pool holds, under the numbers that stand for all numbers of the first one, what `R`
relates to what the first one holds.  All else in the second pool is foreign, and as in the pool
`base`. -/
structure Pool.Mirrors {kind : Kind} {α : Type} (ρ : Renaming) (foreign : Id kind → Prop)
    (p base : Pool kind α) (R : Id kind → α → α → Prop) (p' : Pool kind α) : Prop where
  size : p.size = (ρ.ids kind).length
  apart : ∀ i' ∈ ρ.ids kind, i'.index < p'.size ∧ ¬foreign i'
  content : ∀ {i i' : Id kind}, i.Mirrors ρ i' → Option.Rel (R i') (p.get? i) (p'.get? i')
  kept : ∀ {i' : Id kind}, foreign i' → i'.index < p'.size ∧ p'.get? i' = base.get? i'
  covered : ∀ {i' : Id kind}, i'.index < p'.size → i' ∈ ρ.ids kind ∨ foreign i'

namespace Pool.Mirrors

variable {kind : Kind} {α : Type} {ρ ρ' : Renaming} {foreign : Id kind → Prop} {base : Pool kind α}
  {R Q : Id kind → α → α → Prop} {p p' : Pool kind α} {i i' : Id kind}

/-- The renaming may grow elsewhere. -/
lemma imp (h : p.Mirrors ρ foreign base R p') (hids : ρ'.ids kind = ρ.ids kind)
    (hRQ : ∀ i a b, R i a b → Q i a b) : p.Mirrors ρ' foreign base Q p' where
  size := hids ▸ h.size
  apart := hids ▸ h.apart
  content {i i'} hi := by
    rw [Id.Mirrors, hids] at hi
    exact optionRel_imp (h.content hi) (hRQ i')
  kept := h.kept
  covered := hids ▸ h.covered

/-- A thing of another kind has come in. -/
lemma elsewhere (h : p.Mirrors ρ foreign base R p') {k : Kind} {j' : Id k} {hj' : j' ∉ ρ.ids k}
    (hk : kind ≠ k) : p.Mirrors (ρ.addId j' hj') foreign base R p' :=
  h.imp (Renaming.ids_addId_of_ne hk) fun _ _ _ hab => hab

/-- The next number of the second pool is no image. -/
lemma not_mem (h : p.Mirrors ρ foreign base R p') (a : α) : (p'.add a).1 ∉ ρ.ids kind :=
  fun hmem => Nat.lt_irrefl _ (h.apart _ hmem).1

/-- A thing is added on both sides. -/
lemma add (h : p.Mirrors ρ foreign base R p') (a a' : α) (ha : R (p'.add a').1 a a') :
    (p.add a).2.Mirrors (ρ.addId _ (h.not_mem a')) foreign base R (p'.add a').2 ∧
      (p.add a).1.Mirrors (ρ.addId _ (h.not_mem a')) (p'.add a').1 := by
  have hids : (ρ.addId _ (h.not_mem a')).ids kind = ρ.ids kind ++ [(p'.add a').1] :=
    Renaming.ids_addId_self
  refine ⟨⟨?_, ?_, ?_, ?_, ?_⟩, Renaming.mirrors_addId h.size⟩
  · rw [Pool.size_add, h.size, hids, List.length_append, List.length_singleton]
  · rw [hids, Pool.size_add]
    intro i' hi'
    rcases List.mem_append.1 hi' with hold | hnew
    · exact ⟨Nat.lt_succ_of_lt (h.apart i' hold).1, (h.apart i' hold).2⟩
    · obtain rfl := List.mem_singleton.1 hnew
      exact ⟨Nat.lt_succ_self _, fun hforeign => Nat.lt_irrefl _ (h.kept hforeign).1⟩
  · intro i i' hi
    rw [Pool.get?_add, Pool.get?_add]
    rcases Renaming.mirrors_addId_cases hi with hold | ⟨hindex, rfl⟩
    · have hlt : i.index < p.size := by
        rw [h.size]
        exact (List.getElem?_eq_some_iff.1 hold).1
      rw [if_neg (Nat.ne_of_lt hlt), if_neg (Nat.ne_of_lt (h.apart i' hold.mem).1)]
      exact h.content hold
    · have hnext : (p'.add a').1.index = p'.size := rfl
      rw [if_pos (hindex.trans h.size.symm), if_pos hnext]
      exact .some ha
  · intro i' hforeign
    obtain ⟨hlt, hsame⟩ := h.kept hforeign
    rw [Pool.size_add, Pool.get?_add, if_neg (Nat.ne_of_lt hlt)]
    exact ⟨Nat.lt_succ_of_lt hlt, hsame⟩
  · intro i' hlt
    rw [Pool.size_add] at hlt
    rw [hids, List.mem_append]
    rcases Nat.lt_succ_iff_lt_or_eq.1 hlt with hold | hnew
    · exact (h.covered hold).imp_left .inl
    · refine .inl (.inr (List.mem_singleton.2 ?_))
      cases i'
      exact congrArg Id.mk hnew

/-- What can be done to a thing and to its image can be done to the pools. -/
lemma of_get? (h : p.Mirrors ρ foreign base R p') (hi : i.Mirrors ρ i') {q q' : Pool kind α}
    (hsize : q.size = p.size) (hsize' : q'.size = p'.size)
    (hother : ∀ j, i ≠ j → q.get? j = p.get? j) (hother' : ∀ j, i' ≠ j → q'.get? j = p'.get? j)
    (hcontent : Option.Rel (R i') (q.get? i) (q'.get? i')) : q.Mirrors ρ foreign base R q' where
  size := hsize.trans h.size
  apart j hj := hsize' ▸ h.apart j hj
  content {j j'} hj := by
    by_cases heq : i = j
    · subst heq
      obtain rfl := (hi.eq_iff hj).2 rfl
      exact hcontent
    · rw [hother j heq, hother' j' fun heq' => heq ((hi.eq_iff hj).1 heq')]
      exact h.content hj
  kept {j'} hforeign := by
    obtain ⟨hlt, hsame⟩ := h.kept hforeign
    have hne : i' ≠ j' := fun heq => (h.apart i' hi.mem).2 (heq ▸ hforeign)
    exact ⟨hsize' ▸ hlt, (hother' j' hne).trans hsame⟩
  covered hlt := h.covered (hsize' ▸ hlt)

/-- A thing and its image are changed. -/
lemma update (h : p.Mirrors ρ foreign base R p') (hi : i.Mirrors ρ i') {f f' : α → α}
    (hf : ∀ a a', R i' a a' → R i' (f a) (f' a')) :
    (p.update i f).Mirrors ρ foreign base R (p'.update i' f') := by
  refine h.of_get? hi (p.size_update i f) (p'.size_update i' f')
    (fun j hj => p.get?_update_of_ne f hj) (fun j hj => p'.get?_update_of_ne f' hj) ?_
  rw [Pool.get?_update_self, Pool.get?_update_self]
  have hcontent := h.content hi
  generalize p.get? i = x, p'.get? i' = x' at hcontent
  cases hcontent with
  | none => exact .none
  | some ha => exact .some (hf _ _ ha)

end Pool.Mirrors

/-! ### Memories -/

/-- The second memory holds the same things as the first one, up to numbers, and what is foreign
beside; all names of the first memory have their images in one interner of the second, which others
may use as well.  Only the counter that is the same in all worlds may differ. -/
structure Memory.Mirrors (Γ : Surroundings) (ρ : Renaming) (m m' : Memory) : Prop where
  arrays : m.arrays.Mirrors ρ (Γ.foreign .array) Γ.base.memory.arrays
    (fun _ xs xs' => Values.Mirrors ρ xs.toList xs'.toList) m'.arrays
  objects : m.objects.Mirrors ρ (Γ.foreign .object) Γ.base.memory.objects
    (fun _ => PropertyBag.Mirrors ρ) m'.objects
  printers : m.printers.Mirrors ρ (Γ.foreign .printer) Γ.base.memory.printers
    (fun _ => Eq) m'.printers
  counters : m.counters.Mirrors ρ (Γ.foreign .counter) Γ.base.memory.counters
    (fun c n n' => c ≠ ρ.clock → n = n') m'.counters
  names : (m.interner ρ.own).Mirrors ρ (m'.interner ρ.shared)
  empty : Name.empty.Mirrors ρ Name.empty
  interner : (m.interners.get? ρ.own).isSome
  interner' : (m'.interners.get? ρ.shared).isSome
  grows : (Γ.base.memory.interner ρ.shared).Extends (m'.interner ρ.shared)
  clock : ρ.clock.Mirrors ρ ρ.clock
  clock_isSome : (m.counters.get? ρ.clock).isSome

/-- What is found for some things is found for the things that correspond to them. -/
lemma mapM_eq_of_forall₂ {α α' β : Type} {R : α → α' → Prop} {f : α → Option β}
    {f' : α' → Option β} {as : List α} {as' : List α'} (has : List.Forall₂ R as as')
    (hf : ∀ a a', R a a' → f' a' = f a) : as'.mapM f' = as.mapM f := by
  induction has with
  | nil => rfl
  | cons ha _ ih => rw [List.mapM_cons, List.mapM_cons, hf _ _ ha, ih]

namespace Memory.Mirrors

variable {Γ : Surroundings} {ρ ρ' : Renaming} {m m' : Memory} (h : m.Mirrors Γ ρ m')

include h

/-! ### Reading -/

lemma items {a a' : Id .array} (ha : a.Mirrors ρ a') :
    Values.Mirrors ρ (m.items a).toList (m'.items a').toList := by
  have hcontent := h.arrays.content ha
  unfold Memory.items
  generalize m.arrays.get? a = xs, m'.arrays.get? a' = xs' at hcontent
  cases hcontent with
  | none => exact .nil
  | some hxs => exact hxs

lemma size_items {a a' : Id .array} (ha : a.Mirrors ρ a') :
    (m'.items a').size = (m.items a).size := by
  rw [← Array.length_toList, ← Array.length_toList, (h.items ha).length_eq]

lemma properties {o o' : Id .object} (ho : o.Mirrors ρ o') :
    PropertyBag.Mirrors ρ (m.properties o) (m'.properties o') := by
  have hcontent := h.objects.content ho
  unfold Memory.properties
  generalize m.objects.get? o = bag, m'.objects.get? o' = bag' at hcontent
  cases hcontent with
  | none => exact .empty
  | some hbag => exact hbag

lemma lookup {n n' : Name} (hn : n.Mirrors ρ n') : m'.lookup ρ.shared n' = m.lookup ρ.own n :=
  h.names.lookup hn

lemma printer {p p' : Id .printer} (hp : p.Mirrors ρ p') : m'.printer p' = m.printer p := by
  have hcontent := h.printers.content hp
  unfold Memory.printer
  generalize m.printers.get? p = x, m'.printers.get? p' = x' at hcontent
  cases hcontent with
  | none => rfl
  | some hx => rw [hx]

lemma counter {c c' : Id .counter} (hc : c.Mirrors ρ c') (hne : c' ≠ ρ.clock) :
    m'.counter c' = m.counter c := by
  have hcontent := h.counters.content hc
  unfold Memory.counter
  generalize m.counters.get? c = x, m'.counters.get? c' = x' at hcontent
  cases hcontent with
  | none => rfl
  | some hx => rw [hx hne]

/-! ### Texts and snapshots -/

lemma displayWithin? (k : ℕ) {v v' : Value} (hv : v.Mirrors ρ v') :
    m'.displayWithin? k v' = m.displayWithin? k v := by
  induction k generalizing v v' with
  | zero =>
    cases hv with
    | object ho => simp only [Memory.displayWithin?, (h.properties ho).size]
    | native ho => simp only [Memory.displayWithin?, ho.className]
    | _ => simp only [Memory.displayWithin?]
  | succ k ih =>
    cases hv with
    | array ha =>
      simp only [Memory.displayWithin?]
      rw [mapM_eq_of_forall₂ (h.items ha) fun v v' hv => ih hv]
    | object ho => simp only [Memory.displayWithin?, (h.properties ho).size]
    | native ho => simp only [Memory.displayWithin?, ho.className]
    | _ => simp only [Memory.displayWithin?]

/-- A value and its image have the same text. -/
theorem display? {v v' : Value} (hv : v.Mirrors ρ v') : m'.display? v' = m.display? v := by
  refine Option.ext fun s => ?_
  rw [Memory.display?_eq_some_iff, Memory.display?_eq_some_iff]
  simp only [h.displayWithin? _ hv]

omit h in
/-- Properties under different names have one order. -/
lemma snapshot_eq_of_perm {properties properties' : Option (List (String × Session.Snapshot))}
    (h : Option.Rel (fun ps ps' => ps'.Perm ps) properties properties')
    (hnodup : ∀ ps ∈ properties, (ps.map Prod.fst).Nodup) :
    (do return .object (Session.sortedByName (← properties')) : Option Session.Snapshot) =
      do return .object (Session.sortedByName (← properties)) := by
  cases h with
  | none => rfl
  | some hperm =>
    have hsorted := mergeSort_key_eq_of_perm hperm (hnodup _ rfl)
    exact congrArg (fun ps => some (Session.Snapshot.object ps)) hsorted

/-- The properties of an object have different names. -/
lemma nodup_names {o o' : Id .object} (ho : o.Mirrors ρ o') {α : Type}
    {row? : Name × Value → Option (String × α)} {ps : List (String × α)}
    (hrow : ∀ e p, row? e = some p → p.1 = m.lookup ρ.own e.1)
    (hps : (m.properties o).entries.mapM row? = some ps) : (ps.map Prod.fst).Nodup := by
  obtain ⟨listed, -, hlisted⟩ := h.properties ho
  have hknown {e : Name × Value} (he : e ∈ (m.properties o).entries) :
      (m.interner ρ.own).Knows e.1 := by
    obtain ⟨n', hn⟩ := hlisted.exists_name he
    exact h.names.knows_of_mirrors hn
  have htexts : ((m.properties o).entries.map fun e => m.lookup ρ.own e.1).Nodup := by
    refine List.Nodup.map_on (fun e he e' he' hsame => ?_) (m.properties o).nodup.of_map
    exact List.inj_on_of_nodup_map (m.properties o).nodup he he'
      ((hknown he).eq_of_lookup (hknown he') hsame)
  have hnames : List.Forall₂ Eq ((m.properties o).entries.map fun e => m.lookup ρ.own e.1)
      (ps.map Prod.fst) := by
    rw [List.forall₂_map_left_iff, List.forall₂_map_right_iff]
    exact (mapM_eq_some_iff_forall₂.1 hps).imp fun e p hp => (hrow e p hp).symm
  rw [List.forall₂_eq_eq_eq] at hnames
  exact hnames ▸ htexts

lemma snapshotWithin? (k : ℕ) {v v' : Value} (hv : v.Mirrors ρ v') :
    Session.Snapshot.ofValueWithin? m' ρ.shared k v' =
      Session.Snapshot.ofValueWithin? m ρ.own k v := by
  induction k generalizing v v' with
  | zero =>
    cases hv with
    | native ho => simp only [Session.Snapshot.ofValueWithin?, ho.className]
    | _ => simp only [Session.Snapshot.ofValueWithin?]
  | succ k ih =>
    cases hv with
    | array ha =>
      simp only [Session.Snapshot.ofValueWithin?]
      rw [mapM_eq_of_forall₂ (h.items ha) fun v v' hv => ih hv]
    | object ho =>
      simp only [Session.Snapshot.ofValueWithin?]
      obtain ⟨listed, hperm, hlisted⟩ := h.properties ho
      refine snapshot_eq_of_perm (optionRel_mapM_of_perm (.refl _) hperm.symm
        (mapM_eq_of_forall₂ hlisted fun e e' he => ?_)) fun ps hps => h.nodup_names ho ?_ hps
      · rw [h.lookup he.1, ih he.2]
      · intro e p hp
        obtain ⟨x, -, hp⟩ := Option.bind_eq_some_iff.1 hp
        exact congrArg Prod.fst (Option.some.inj hp).symm
    | native ho => simp only [Session.Snapshot.ofValueWithin?, ho.className]
    | _ => simp only [Session.Snapshot.ofValueWithin?]

/-- A value and its image have the same snapshot. -/
theorem snapshot? {v v' : Value} (hv : v.Mirrors ρ v') :
    Session.Snapshot.ofValue? m' ρ.shared v' = Session.Snapshot.ofValue? m ρ.own v := by
  refine Option.ext fun x => ?_
  rw [Session.Snapshot.ofValue?_eq_some_iff, Session.Snapshot.ofValue?_eq_some_iff]
  simp only [h.snapshotWithin? _ hv]

/-! ### Changing -/

/-- The renaming may grow, by numbers alone, together with things of the memory. -/
lemma regrow (hle : ρ ≤ ρ') (hnames : ρ'.names = ρ.names) {m₁ m₁' : Memory}
    (hinterners : m₁.interners = m.interners) (hinterners' : m₁'.interners = m'.interners)
    (harrays : m₁.arrays.Mirrors ρ' (Γ.foreign .array) Γ.base.memory.arrays
      (fun _ xs xs' => Values.Mirrors ρ xs.toList xs'.toList) m₁'.arrays)
    (hobjects : m₁.objects.Mirrors ρ' (Γ.foreign .object) Γ.base.memory.objects
      (fun _ => PropertyBag.Mirrors ρ) m₁'.objects)
    (hprinters : m₁.printers.Mirrors ρ' (Γ.foreign .printer) Γ.base.memory.printers
      (fun _ => Eq) m₁'.printers)
    (hcounters : m₁.counters.Mirrors ρ' (Γ.foreign .counter) Γ.base.memory.counters
      (fun c n n' => c ≠ ρ.clock → n = n') m₁'.counters)
    (hclock : (m₁.counters.get? ρ.clock).isSome) : m₁.Mirrors Γ ρ' m₁' := by
  obtain ⟨hown, hshared, hsame⟩ := hle.1
  have hinterner (i : Id .interner) : m₁.interner i = m.interner i := by
    rw [Memory.interner, hinterners, Memory.interner]
  have hinterner' (i : Id .interner) : m₁'.interner i = m'.interner i := by
    rw [Memory.interner, hinterners', Memory.interner]
  exact {
    arrays := harrays.imp rfl fun _ _ _ hxs => hxs.mono hle
    objects := hobjects.imp rfl fun _ _ _ hbag => hbag.mono hle
    printers := hprinters
    counters := hsame.symm ▸ hcounters
    names := by
      rw [hown, hshared, hinterner, hinterner']
      exact h.names.of_names hnames
    empty := h.empty.mono hle
    interner := by rw [hown, hinterners]; exact h.interner
    interner' := by rw [hshared, hinterners']; exact h.interner'
    grows := by rw [hshared, hinterner']; exact h.grows
    clock := hsame.symm ▸ h.clock.mono hle
    clock_isSome := hsame.symm ▸ hclock }

/-- The renaming may grow by things that are not in the memory. -/
lemma mono (hle : ρ ≤ ρ') (hnames : ρ'.names = ρ.names)
    (hids : ∀ kind : Kind, kind.IsMemory → ρ'.ids kind = ρ.ids kind) : m.Mirrors Γ ρ' m' :=
  h.regrow hle hnames rfl rfl (h.arrays.imp (hids .array trivial) fun _ _ _ => id)
    (h.objects.imp (hids .object trivial) fun _ _ _ => id)
    (h.printers.imp (hids .printer trivial) fun _ _ _ => id)
    (h.counters.imp (hids .counter trivial) fun _ _ _ => id) h.clock_isSome

/-- Both sides make an array. -/
lemma newArray {vs vs' : List Value} (hvs : Values.Mirrors ρ vs vs') :
    ∃ ρ', ρ.GrowsInMemory ρ' ∧ (m.newArray vs.toArray).1.Mirrors ρ' (m'.newArray vs'.toArray).1 ∧
      (m.newArray vs.toArray).2.Mirrors Γ ρ' (m'.newArray vs'.toArray).2 := by
  obtain ⟨harrays, hnew⟩ := h.arrays.add vs.toArray vs'.toArray hvs
  refine ⟨_, Renaming.growsInMemory_addId ?_, .array hnew, ?_⟩
  · trivial
  exact h.regrow Renaming.le_addId rfl rfl rfl harrays (h.objects.elsewhere nofun)
    (h.printers.elsewhere nofun) (h.counters.elsewhere nofun) h.clock_isSome

/-- Both sides make an object. -/
lemma newObject {bag bag' : PropertyBag} (hbag : PropertyBag.Mirrors ρ bag bag') :
    ∃ ρ', ρ.GrowsInMemory ρ' ∧ (m.newObject bag).1.Mirrors ρ' (m'.newObject bag').1 ∧
      (m.newObject bag).2.Mirrors Γ ρ' (m'.newObject bag').2 := by
  obtain ⟨hobjects, hnew⟩ := h.objects.add _ _ hbag
  refine ⟨_, Renaming.growsInMemory_addId ?_, .object hnew, ?_⟩
  · trivial
  exact h.regrow Renaming.le_addId rfl rfl rfl (h.arrays.elsewhere nofun) hobjects
    (h.printers.elsewhere nofun) (h.counters.elsewhere nofun) h.clock_isSome

/-- Both sides make a printer. -/
lemma newPrinter (p : Printer) :
    ∃ ρ', ρ.GrowsInMemory ρ' ∧ (m.newPrinter p).1.Mirrors ρ' (m'.newPrinter p).1 ∧
      (m.newPrinter p).2.Mirrors Γ ρ' (m'.newPrinter p).2 := by
  obtain ⟨hprinters, hnew⟩ := h.printers.add p p rfl
  refine ⟨_, Renaming.growsInMemory_addId ?_, hnew, ?_⟩
  · trivial
  exact h.regrow Renaming.le_addId rfl rfl rfl (h.arrays.elsewhere nofun)
    (h.objects.elsewhere nofun) hprinters (h.counters.elsewhere nofun) h.clock_isSome

/-- Both sides make a counter; it is none that was there before. -/
lemma newCounter :
    ∃ ρ', ρ.GrowsInMemory ρ' ∧ m.newCounter.1.Mirrors ρ' m'.newCounter.1 ∧
      m'.newCounter.1 ≠ ρ.clock ∧ m.newCounter.2.Mirrors Γ ρ' m'.newCounter.2 := by
  obtain ⟨hcounters, hnew⟩ := h.counters.add 0 0 fun _ => rfl
  refine ⟨_, Renaming.growsInMemory_addId ?_, hnew, ?_, ?_⟩
  · trivial
  · exact fun heq => h.counters.not_mem 0 (heq ▸ h.clock.mem)
  · refine h.regrow Renaming.le_addId rfl rfl rfl (h.arrays.elsewhere nofun)
      (h.objects.elsewhere nofun) (h.printers.elsewhere nofun) hcounters ?_
    change (Pool.get? (Pool.add _ _).2 _).isSome
    rw [Pool.get?_add]
    split
    · rfl
    · exact h.clock_isSome

/-- Both sides change an array. -/
lemma modifyItems {a a' : Id .array} (ha : a.Mirrors ρ a') {f f' : Array Value → Array Value}
    (hf : ∀ xs xs' : Array Value, Values.Mirrors ρ xs.toList xs'.toList →
      Values.Mirrors ρ (f xs).toList (f' xs').toList) :
    (m.modifyItems a f).Mirrors Γ ρ (m'.modifyItems a' f') :=
  { h with arrays := h.arrays.update ha hf }

/-- Both sides append to an array. -/
lemma appendItems {a a' : Id .array} (ha : a.Mirrors ρ a') {vs vs' : List Value}
    (hvs : Values.Mirrors ρ vs vs') :
    (m.modifyItems a (· ++ vs.toArray)).Mirrors Γ ρ (m'.modifyItems a' (· ++ vs'.toArray)) := by
  refine h.modifyItems ha fun xs xs' hxs => ?_
  rw [Array.toList_append, Array.toList_append]
  exact List.rel_append hxs hvs

/-- Both sides change an object. -/
lemma modifyProperties {o o' : Id .object} (ho : o.Mirrors ρ o') {f f' : PropertyBag → PropertyBag}
    (hf : ∀ bag bag', PropertyBag.Mirrors ρ bag bag' → PropertyBag.Mirrors ρ (f bag) (f' bag')) :
    (m.modifyProperties o f).Mirrors Γ ρ (m'.modifyProperties o' f') :=
  { h with objects := h.objects.update ho hf }

/-- Both sides use a printer. -/
lemma usePrinter {p p' : Id .printer} (hp : p.Mirrors ρ p') (f : Printer → Printer) :
    Memory.Mirrors Γ ρ { m with printers := m.printers.update p f }
      { m' with printers := m'.printers.update p' f } :=
  { h with printers := h.printers.update hp fun _ _ hx => congrArg f hx }

/-- Both sides count. -/
lemma count {c c' : Id .counter} (hc : c.Mirrors ρ c') :
    (m.count c).Mirrors Γ ρ (m'.count c') :=
  { h with
    counters := h.counters.update hc fun _ _ hn hne => congrArg (· + 1) (hn hne)
    clock_isSome := by
      change (Pool.get? (Pool.update _ _ _) _).isSome
      rw [Pool.get?_update]
      split
      · rw [Option.isSome_map]
        exact h.clock_isSome
      · exact h.clock_isSome }

/-- Both sides intern a text. -/
lemma intern (s : String) :
    ∃ ρ', ρ.GrowsInMemory ρ' ∧ (m.intern ρ.own s).1.Mirrors ρ' (m'.intern ρ.shared s).1 ∧
      (m.intern ρ.own s).2.Mirrors Γ ρ' (m'.intern ρ.shared s).2 := by
  obtain ⟨ρ', ⟨hgrows, hids⟩, hnames, hn⟩ := h.names.intern s
  obtain ⟨hown, hshared, hclock⟩ := hgrows.le.1
  refine ⟨ρ', hgrows, hn, ?_⟩
  exact {
    arrays := h.arrays.imp (by rw [hids]) fun _ _ _ hxs => hxs.mono hgrows.le
    objects := h.objects.imp (by rw [hids]) fun _ _ _ hbag => hbag.mono hgrows.le
    printers := h.printers.imp (by rw [hids]) fun _ _ _ => id
    counters := hclock.symm ▸ h.counters.imp (by rw [hids]) fun _ _ _ => id
    names := by
      rw [hown, hshared, m.interner_intern s h.interner, m'.interner_intern s h.interner']
      exact hnames
    empty := h.empty.mono hgrows.le
    interner := by rw [hown, Memory.isSome_interners_intern]; exact h.interner
    interner' := by rw [hshared, Memory.isSome_interners_intern]; exact h.interner'
    grows := by rw [hshared]; exact h.grows.trans (m'.extends_intern _ s)
    clock := hclock.symm ▸ h.clock.mono hgrows.le
    clock_isSome := hclock.symm ▸ h.clock_isSome }

end Memory.Mirrors

end ScriptEngine
