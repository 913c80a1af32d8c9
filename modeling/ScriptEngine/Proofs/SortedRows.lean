import Mathlib.Data.List.Forall2
import ScriptEngine.DebugView
import ScriptEngine.Proofs.Arrays

/-!
# Rows in the order of their names

Rows of the debugger panel are sorted by the names that they show, and rows of one name stay in the
order in which they came.  So what sorting makes of a list is determined by the rows of each name, in
their order; and if no two different rows share a name, it is determined by the rows alone.

The rows are those of a table, which is walked in the order of a rank of its names.  Each order of
the entries is that of some rank, so if sorting gives the same for all ranks, no two different rows
share a name.

Main statements: `sortByName_eq_iff`, `eq_of_perm_of_untied`, `NameMap.exists_inOrder` and
`NameMap.untied_of_ranks`.
-/

namespace ScriptEngine

/-! ### Things with results -/

section

variable {α β : Type} {f : α → Option β} {as as' : List α} {bs : List β}

/-- All things have the results, each its own. -/
lemma mapM_eq_some_iff_forall₂ :
    as.mapM f = some bs ↔ List.Forall₂ (fun a b => f a = some b) as bs := by
  induction as generalizing bs with
  | nil =>
    rw [List.mapM_nil, List.forall₂_nil_left_iff]
    exact ⟨fun h => (Option.some.inj h).symm, fun h => h ▸ rfl⟩
  | cons a rest ih =>
    rw [List.mapM_cons, List.forall₂_cons_left_iff]
    constructor
    · intro h
      obtain ⟨b, hb, h⟩ := Option.bind_eq_some_iff.1 h
      obtain ⟨cs, hcs, h⟩ := Option.bind_eq_some_iff.1 h
      exact ⟨b, cs, hb, ih.1 hcs, (Option.some.inj h).symm⟩
    · rintro ⟨b, cs, hb, hcs, rfl⟩
      rw [hb, ih.2 hcs]
      rfl

/-- All things together have results exactly if each one has. -/
lemma isSome_mapM_iff : (as.mapM f).isSome ↔ ∀ a ∈ as, (f a).isSome := by
  refine ⟨fun h => ?_, Memory.isSome_mapM_of_forall⟩
  obtain ⟨bs, hbs⟩ := Option.isSome_iff_exists.1 h
  have hresults := mapM_eq_some_iff_forall₂.1 hbs
  clear h hbs
  induction hresults with
  | nil => exact fun a ha => absurd ha List.not_mem_nil
  | cons hb _ ih => exact List.forall_mem_cons.2 ⟨Option.isSome_iff_exists.2 ⟨_, hb⟩, ih⟩

/-- Each result is that of one of the things. -/
lemma exists_of_mem_mapM (h : as.mapM f = some bs) {b : β} (hb : b ∈ bs) :
    ∃ a ∈ as, f a = some b := by
  have hresults := mapM_eq_some_iff_forall₂.1 h
  clear h
  induction hresults with
  | nil => exact absurd hb List.not_mem_nil
  | @cons a b' _ _ ha _ ih =>
    rcases List.mem_cons.1 hb with rfl | hb
    · exact ⟨a, List.mem_cons_self, ha⟩
    · obtain ⟨a', ha', hresult⟩ := ih hb
      exact ⟨a', List.mem_cons_of_mem _ ha', hresult⟩

/-- The same things in another order have the same results in another order. -/
lemma exists_mapM_of_perm (h : as'.Perm as) (hbs : as.mapM f = some bs) :
    ∃ bs', as'.mapM f = some bs' ∧ bs'.Perm bs := by
  obtain ⟨bs', hbs', hperm⟩ := List.perm_comp_forall₂ h (mapM_eq_some_iff_forall₂.1 hbs)
  exact ⟨bs', mapM_eq_some_iff_forall₂.2 hbs', hperm⟩

/-- Things that have the same results have them in whatever orders they come. -/
lemma optionRel_mapM_of_perm {α α' β : Type} {f : α → Option β} {f' : α' → Option β}
    {as bs : List α} {as' bs' : List α'} (h : as.Perm bs) (h' : as'.Perm bs')
    (hsame : bs'.mapM f' = bs.mapM f) :
    Option.Rel (fun xs xs' => xs'.Perm xs) (as.mapM f) (as'.mapM f') := by
  cases hxs : as.mapM f with
  | some xs =>
    obtain ⟨ys, hys, hperm⟩ := exists_mapM_of_perm h.symm hxs
    obtain ⟨xs', hxs', hperm'⟩ := exists_mapM_of_perm h' (hsame.trans hys)
    rw [hxs']
    exact .some (hperm'.trans hperm)
  | none =>
    cases hxs' : as'.mapM f' with
    | none => exact .none
    | some xs' =>
      obtain ⟨ys, hys, -⟩ := exists_mapM_of_perm h'.symm hxs'
      obtain ⟨xs, hsome, -⟩ := exists_mapM_of_perm h (hsame.symm.trans hys)
      exact nomatch hxs.symm.trans hsome

end

/-! ### Sorting by a key -/

section

variable {α κ : Type} [LE κ] [DecidableLE κ]

lemma key_le_trans [Std.IsLinearPreorder κ] (key : α → κ) (a b c : α)
    (hab : decide (key a ≤ key b) = true) (hbc : decide (key b ≤ key c) = true) :
    decide (key a ≤ key c) = true :=
  decide_eq_true (Std.le_trans (of_decide_eq_true hab) (of_decide_eq_true hbc))

lemma key_le_total [Std.IsLinearPreorder κ] (key : α → κ) (a b : α) :
    (decide (key a ≤ key b) || decide (key b ≤ key a)) = true := by
  rw [Bool.or_eq_true]
  exact Std.le_total.imp decide_eq_true decide_eq_true

/-- What is sorted by a key is in ascending order of the keys. -/
lemma pairwise_mergeSort_key [Std.IsLinearPreorder κ] (key : α → κ) (as : List α) :
    (as.mergeSort fun a b => key a ≤ key b).Pairwise fun a b => key a ≤ key b :=
  (List.pairwise_mergeSort (key_le_trans key) (key_le_total key) as).imp of_decide_eq_true

/-- Things with different keys are sorted into one order. -/
lemma mergeSort_key_eq_of_perm [Std.IsLinearOrder κ] {key : α → κ} {as as' : List α}
    (h : as'.Perm as) (hnodup : (as.map key).Nodup) :
    (as'.mergeSort fun a b => key a ≤ key b) = as.mergeSort fun a b => key a ≤ key b := by
  have hperm (xs : List α) : (xs.mergeSort fun a b => key a ≤ key b).Perm xs :=
    List.mergeSort_perm xs _
  refine List.Perm.eq_of_pairwise (fun a b ha hb hab hba => ?_) (pairwise_mergeSort_key key as')
    (pairwise_mergeSort_key key as) (((hperm as').trans h).trans (hperm as).symm)
  have ha := h.mem_iff.1 ((hperm as').mem_iff.1 ha)
  have hb := (hperm as).mem_iff.1 hb
  exact List.inj_on_of_nodup_map hnodup ha hb (Std.le_antisymm hab hba)

end

/-! ### Rows in ascending order -/

/-- The rows are in ascending order of their names. -/
def Ascends (rows : List DebugInfo) : Prop :=
  rows.Pairwise fun a b => a.name ≤ b.name

/-- The rows that have the name. -/
def rowsNamed (s : String) (rows : List DebugInfo) : List DebugInfo :=
  rows.filter (·.name = s)

/-- Rows that share a name are the same. -/
def Untied (rows : List DebugInfo) : Prop :=
  ∀ a ∈ rows, ∀ b ∈ rows, a.name = b.name → a = b

section

variable {rows rows' : List DebugInfo}

lemma sortByName_perm (rows : List DebugInfo) : (sortByName rows).Perm rows :=
  List.mergeSort_perm rows _

lemma ascends_sortByName (rows : List DebugInfo) : Ascends (sortByName rows) :=
  pairwise_mergeSort_key DebugInfo.name rows

/-- Sorting leaves rows of one name in their order. -/
lemma rowsNamed_sortByName (s : String) (rows : List DebugInfo) :
    rowsNamed s (sortByName rows) = rowsNamed s rows := by
  have hname {a : DebugInfo} (ha : a ∈ rowsNamed s rows) : a.name = s :=
    of_decide_eq_true (List.mem_filter.1 ha).2
  have hsublist : (rowsNamed s rows).Sublist (sortByName rows) := by
    refine List.sublist_mergeSort (key_le_trans _) (key_le_total _) ?_ List.filter_sublist
    refine List.pairwise_of_forall_mem_list fun a ha b hb => decide_eq_true ?_
    have hab : a.name = b.name := (hname ha).trans (hname hb).symm
    exact hab ▸ String.le_refl a.name
  have hkept : (rowsNamed s rows).filter (·.name = s) = rowsNamed s rows :=
    List.filter_eq_self.2 fun a ha => decide_eq_true (hname ha)
  have hfilter := hsublist.filter fun a => a.name = s
  rw [hkept] at hfilter
  exact (hfilter.eq_of_length ((sortByName_perm rows).filter _).length_eq.symm).symm

lemma rowsNamed_cons (s : String) (a : DebugInfo) (rows : List DebugInfo) :
    rowsNamed s (a :: rows) = if a.name = s then a :: rowsNamed s rows else rowsNamed s rows := by
  simp only [rowsNamed, List.filter_cons, decide_eq_true_eq]

/-- Lists with the same rows of each name have the same rows. -/
lemma mem_of_rowsNamed {a : DebugInfo} (hsame : ∀ s, rowsNamed s rows' = rowsNamed s rows)
    (ha : a ∈ rows) : a ∈ rows' := by
  have hmem : a ∈ rowsNamed a.name rows := List.mem_filter.2 ⟨ha, decide_eq_true rfl⟩
  rw [← hsame] at hmem
  exact List.mem_of_mem_filter hmem

/-- No row of a list in ascending order comes before the first one. -/
lemma Ascends.head_le {a b : DebugInfo} (h : Ascends (a :: rows)) (hb : b ∈ a :: rows) :
    a.name ≤ b.name := by
  rcases List.mem_cons.1 hb with rfl | hb
  · exact String.le_refl b.name
  · exact List.rel_of_pairwise_cons h hb

/-- Lists in ascending order are the same if they have the same rows of each name. -/
lemma eq_of_rowsNamed (h : Ascends rows) (h' : Ascends rows')
    (hsame : ∀ s, rowsNamed s rows' = rowsNamed s rows) : rows' = rows := by
  induction rows generalizing rows' with
  | nil =>
    refine List.eq_nil_iff_forall_not_mem.2 fun a ha => ?_
    exact List.not_mem_nil (mem_of_rowsNamed (fun s => (hsame s).symm) ha)
  | cons a rest ih =>
    have ha := mem_of_rowsNamed hsame List.mem_cons_self
    cases rows' with
    | nil => exact absurd ha List.not_mem_nil
    | cons b rest' =>
      have hb := mem_of_rowsNamed (fun s => (hsame s).symm) List.mem_cons_self
      have hname : b.name = a.name := String.le_antisymm (h'.head_le ha) (h.head_le hb)
      -- so both rows come first among those of their name
      obtain rfl : b = a := by
        have hfirst := hsame a.name
        rw [rowsNamed_cons, rowsNamed_cons, if_pos hname, if_pos rfl] at hfirst
        exact (List.cons.inj hfirst).1
      refine congrArg (b :: ·) (ih h.tail h'.tail fun s => ?_)
      have hs := hsame s
      rw [rowsNamed_cons, rowsNamed_cons] at hs
      split at hs
      · exact (List.cons.inj hs).2
      · exact hs

/-- Sorting two lists gives the same exactly if rows of one name stand in the same order in both. -/
lemma sortByName_eq_iff :
    sortByName rows' = sortByName rows ↔ ∀ s, rowsNamed s rows' = rowsNamed s rows := by
  constructor
  · intro h s
    rw [← rowsNamed_sortByName, h, rowsNamed_sortByName]
  · intro h
    refine eq_of_rowsNamed (ascends_sortByName rows) (ascends_sortByName rows') fun s => ?_
    rw [rowsNamed_sortByName, rowsNamed_sortByName, h]

/-- Lists in ascending order are the same if they have the same rows and no ties. -/
lemma eq_of_perm_of_untied (h : Ascends rows) (h' : Ascends rows') (hperm : rows'.Perm rows)
    (huntied : Untied rows) : rows' = rows := by
  refine List.Perm.eq_of_pairwise (fun a b ha hb hab hba => ?_) h' h hperm
  exact huntied a (hperm.mem_iff.1 ha) b hb (String.le_antisymm hab hba)

/-- Lists in ascending order that have the same rows show the same names. -/
lemma map_name_eq_of_perm (h : Ascends rows) (h' : Ascends rows') (hperm : rows'.Perm rows) :
    rows'.map (·.name) = rows.map (·.name) := by
  refine List.Perm.eq_of_pairwise (fun _ _ _ _ => String.le_antisymm) ?_ ?_ (hperm.map _)
  · exact List.pairwise_map.2 h'
  · exact List.pairwise_map.2 h

end

/-! ### The order of a table -/

namespace NameMap

variable {α : Type} {m : NameMap α}

/-- A rank of the names changes the order of a table only. -/
lemma inOrder_perm (m : NameMap α) (rank : Name → Nat) :
    (m.inOrder rank).entries.Perm m.entries :=
  List.mergeSort_perm m.entries _

/-- The entries of a table come in the order of the rank. -/
lemma pairwise_inOrder (m : NameMap α) (rank : Name → Nat) :
    (m.inOrder rank).entries.Pairwise fun x y => rank x.1 ≤ rank y.1 :=
  pairwise_mergeSort_key (fun entry : Name × α => rank entry.1) m.entries

/-- A table of two entries comes in the one order or in the other. -/
lemma entries_inOrder_pair {x y : Name × α} (h : m.entries = [x, y]) (rank : Name → Nat) :
    (m.inOrder rank).entries = if rank x.1 ≤ rank y.1 then [x, y] else [y, x] := by
  simp [inOrder, h, List.mergeSort, List.MergeSort.Internal.splitInTwo, List.merge]

/-- A table can be walked in each order of its entries. -/
theorem exists_inOrder {es : List (Name × α)} (h : es.Perm m.entries) :
    ∃ rank, (m.inOrder rank).entries = es := by
  have hnodup : (es.map Prod.fst).Nodup := (h.map Prod.fst).nodup_iff.2 m.nodup
  -- the rank of a name is its place in the list
  refine ⟨(es.map Prod.fst).idxOf, List.Perm.eq_of_pairwise (fun x y hx hy hxy hyx => ?_)
    (m.pairwise_inOrder _) ?_ ((m.inOrder_perm _).trans h.symm)⟩
  · have hx : x ∈ es := h.mem_iff.2 ((m.inOrder_perm _).mem_iff.1 hx)
    exact List.inj_on_of_nodup_map hnodup hx hy
      ((List.idxOf_inj (List.mem_map_of_mem hx)).1 (Nat.le_antisymm hxy hyx))
  · refine List.pairwise_iff_getElem.2 fun i j hi hj hij => ?_
    have hplace (k : ℕ) (hk : k < es.length) : (es.map Prod.fst).idxOf es[k].1 = k := by
      have hname := hnodup.idxOf_getElem k (by rwa [List.length_map])
      rwa [List.getElem_map] at hname
    rw [hplace i hi, hplace j hj]
    exact Nat.le_of_lt hij

/-- If sorting the rows of a table gives the same for all ranks, no two different rows share a
name: each of them comes first in some order of the table. -/
lemma untied_of_ranks {row? : Name × α → Option DebugInfo} {group : List DebugInfo}
    (h : ∀ rank, ∃ rows, (m.inOrder rank).entries.mapM row? = some rows ∧
      sortByName rows = group) : Untied group := by
  have hfirst {a : DebugInfo} (ha : a ∈ group) : ∃ rest, rowsNamed a.name group = a :: rest := by
    obtain ⟨entry, hentry, hrow⟩ : ∃ entry ∈ m.entries, row? entry = some a := by
      obtain ⟨rows, hrows, rfl⟩ := h fun _ => 0
      obtain ⟨entry, hentry, hrow⟩ :=
        exists_of_mem_mapM hrows ((sortByName_perm rows).mem_iff.1 ha)
      exact ⟨entry, (m.inOrder_perm _).mem_iff.1 hentry, hrow⟩
    obtain ⟨before, after, hsplit⟩ := List.append_of_mem hentry
    have hfront : (entry :: (before ++ after)).Perm m.entries := hsplit ▸ List.perm_middle.symm
    obtain ⟨rank, hrank⟩ := exists_inOrder hfront
    obtain ⟨rows, hrows, rfl⟩ := h rank
    rw [hrank] at hrows
    obtain ⟨_, _, hb, -, rfl⟩ := List.forall₂_cons_left_iff.1 (mapM_eq_some_iff_forall₂.1 hrows)
    obtain rfl := Option.some.inj (hrow.symm.trans hb)
    exact ⟨_, by rw [rowsNamed_sortByName, rowsNamed_cons, if_pos rfl]⟩
  intro a ha b hb hname
  obtain ⟨_, hfirsta⟩ := hfirst ha
  obtain ⟨_, hfirstb⟩ := hfirst hb
  rw [hname, hfirstb] at hfirsta
  exact (List.cons.inj hfirsta).1.symm

end NameMap

end ScriptEngine
