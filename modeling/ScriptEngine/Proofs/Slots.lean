import ScriptEngine.Proofs.Numbering
import ScriptEngine.Proofs.Registers

/-!
# The slots of a register

Trees hold the numbers of slots for ever, so a number must stand for one variable whatever happens
to the register.  What a register answers depends on the names that were declared before and on the
values that were set, and on nothing else: a name has the number of the place where it is declared
first, and a slot holds what was last set in it while it was there.

`Enumerates` says the first of one register, and `Holds` the second.  Each request keeps both
(`Enumerates.answer`, `Holds.answer`), and so does a run of requests.

A register may keep names and values in tables of their own, and find the names through a map to
numbers of a machine word.  As long as the words are enough for the names, the three tables stay in
step, and all answers are the same (`Tables.Mirrors.serve`).

Main statement: `Register.serve_keeps_slots`.
-/

namespace ScriptEngine.Register

variable {r : Register} {n : Name}

/-! ### Requests -/

/-- What a register is asked for, where `Index` has the numbers of slots. -/
inductive Request (Index : Type) where
  /-- The slot of a name, which is declared if need be. -/
  | declare (n : Name)
  /-- The slot of a name, if it was declared. -/
  | lookup (n : Name)
  /-- The value in a slot. -/
  | get (i : Index)
  /-- Put a value into a slot. -/
  | set (i : Index) (v : Value)
  /-- The name that a slot was declared for. -/
  | name (i : Index)
  /-- All names and values. -/
  | entries
deriving DecidableEq

/-- What a register answers. -/
inductive Answer (Index : Type) where
  | slot (i : Index)
  | found (i : Option Index)
  | value (v : Value)
  | done
  | name (n : Option Name)
  | entries (es : List (Name × Value))
deriving DecidableEq

/-- Answer a request. -/
def answer (r : Register) : Request ℕ → Answer ℕ × Register
  | .declare n => (.slot (r.declare n).1, (r.declare n).2)
  | .lookup n => (.found (r.index? n), r)
  | .get i => (.value (r.get i), r)
  | .set i v => (.done, r.set i v)
  | .name i => (.name (r.name? i), r)
  | .entries => (.entries r.entries, r)

/-- Answer requests, one after another. -/
def serve (r : Register) : List (Request ℕ) → List (Answer ℕ) × Register
  | [] => ([], r)
  | request :: rest =>
    ((r.answer request).1 :: ((r.answer request).2.serve rest).1,
      ((r.answer request).2.serve rest).2)

/-- The name that a request declares. -/
def Request.names {Index : Type} : Request Index → List Name
  | declare n => [n]
  | lookup _ | get _ | set _ _ | name _ | entries => []

/-- The names that requests declare, in the order in which they come first. -/
def declared {Index : Type} (requests : List (Request Index)) : List Name :=
  (requests.flatMap Request.names).eraseDups

/-- The slot was there when the value was set in it, and nothing was set in it after that. -/
def LastSet (requests : List (Request ℕ)) (i : ℕ) (v : Value) : Prop :=
  ∃ before after, requests = before ++ .set i v :: after ∧ i < (declared before).length ∧
    ∀ v', .set i v' ∉ after

variable {requests : List (Request ℕ)} {request : Request ℕ} {i : ℕ} {v v' : Value}

/-- Only a declaration adds a name. -/
lemma declared_concat (requests : List (Request ℕ)) (request : Request ℕ)
    (h : ∀ n, request ≠ .declare n) : declared (requests ++ [request]) = declared requests := by
  rw [declared, declared, List.flatMap_append, List.flatMap_singleton]
  cases request with
  | declare n => exact absurd rfl (h n)
  | lookup | get | set | name | entries => rw [Request.names, List.append_nil]

/-- A name that was declared before is not added once more. -/
lemma declared_concat_declare (requests : List (Request ℕ)) (n : Name) :
    declared (requests ++ [.declare n]) =
      if n ∈ declared requests then declared requests else declared requests ++ [n] := by
  rw [declared, declared, List.flatMap_append, List.flatMap_singleton, Request.names,
    Interner.eraseDups_concat]
  simp only [List.mem_eraseDups]

/-- Further requests leave the names that were declared in their places. -/
lemma declared_prefix_append (requests after : List (Request ℕ)) :
    declared requests <+: declared (requests ++ after) := by
  rw [declared, declared, List.flatMap_append, List.eraseDups_append]
  exact List.prefix_append ..

/-- If a slot is there, what is set in it is the last that was set. -/
lemma lastSet_concat_set_iff :
    LastSet (requests ++ [.set i v']) i v ↔ i < (declared requests).length ∧ v = v' := by
  constructor
  · rintro ⟨before, after, hrequests, hi, hafter⟩
    obtain rfl | ⟨after, last, rfl⟩ := after.eq_nil_or_concat'
    · obtain ⟨rfl, hset⟩ := List.append_singleton_inj.1 hrequests
      obtain ⟨-, rfl⟩ := Request.set.inj hset
      exact ⟨hi, rfl⟩
    · rw [← List.cons_append, ← List.append_assoc] at hrequests
      obtain ⟨-, rfl⟩ := List.append_singleton_inj.1 hrequests
      exact absurd (List.mem_append_right _ (List.mem_singleton_self _)) (hafter v')
  · rintro ⟨hi, rfl⟩
    exact ⟨requests, [], rfl, hi, fun _ => List.not_mem_nil⟩

/-- Another request leaves what was set in a slot. -/
lemma lastSet_concat_iff (h : ∀ v', request ≠ .set i v') :
    LastSet (requests ++ [request]) i v ↔ LastSet requests i v := by
  constructor
  · rintro ⟨before, after, hrequests, hi, hafter⟩
    obtain rfl | ⟨after, last, rfl⟩ := after.eq_nil_or_concat'
    · obtain ⟨-, hset⟩ := List.append_singleton_inj.1 hrequests
      exact absurd hset (h v)
    · rw [← List.cons_append, ← List.append_assoc] at hrequests
      obtain ⟨rfl, -⟩ := List.append_singleton_inj.1 hrequests
      exact ⟨before, after, rfl, hi, fun v' hv' => hafter v' (List.mem_append_left _ hv')⟩
  · rintro ⟨before, after, rfl, hi, hafter⟩
    refine ⟨before, after ++ [request], by rw [← List.cons_append, List.append_assoc], hi,
      fun v' hv' => ?_⟩
    obtain hv' | hv' := List.mem_append.1 hv'
    · exact hafter v' hv'
    · exact h v' (List.mem_singleton.1 hv').symm

/-! ### What a register answers -/

/-- The register has the names that were declared, and its slots hold what was set in them. -/
structure Holds (r : Register) (requests : List (Request ℕ)) : Prop where
  names : r.names = declared requests
  last : ∀ {i v}, LastSet requests i v → r.get i = v
  fresh : ∀ {i}, (∀ v, ¬LastSet requests i v) → r.get i = .undefined

/-- A new register has no slot. -/
lemma holds_empty : empty.Holds [] where
  names := rfl
  last := by
    rintro i v ⟨before, after, hrequests, -⟩
    cases before <;> cases hrequests
  fresh _ := rfl

namespace Holds

variable (h : r.Holds requests)

include h

lemma size_eq : r.size = (declared requests).length := by
  rw [← length_names, h.names]

/-- Exactly the names that were declared have a slot. -/
lemma index?_eq_none_iff : r.index? n = none ↔ n ∉ declared requests := by
  rw [← h.names, ← idxOf?_names, List.idxOf?_eq_none_iff]

lemma mem_of_index? {i : ℕ} (hi : r.index? n = some i) : n ∈ declared requests := by
  by_contra hnot
  exact nomatch hi.symm.trans (h.index?_eq_none_iff.2 hnot)

lemma exists_index? (hn : n ∈ declared requests) : ∃ i, r.index? n = some i :=
  Option.ne_none_iff_exists'.1 fun hnone => h.index?_eq_none_iff.1 hnone hn

/-- A declaration adds a name behind the others, if it is new. -/
lemma names_declare (n : Name) :
    (r.declare n).2.names = declared (requests ++ [.declare n]) := by
  rw [declared_concat_declare]
  cases hn : r.index? n with
  | some i =>
    rw [declare_of_some hn, if_pos (h.mem_of_index? hn), h.names]
  | none =>
    obtain ⟨-, hentries⟩ := declare_of_none hn
    rw [if_neg (h.index?_eq_none_iff.1 hn), ← h.names]
    change (r.declare n).2.entries.map Prod.fst = r.entries.map Prod.fst ++ [n]
    rw [hentries, List.map_append, List.map_singleton]

/-- A request that changes no value leaves what the slots hold. -/
lemma congr {r' : Register} (hset : ∀ i v, request ≠ .set i v)
    (hnames : r'.names = declared (requests ++ [request])) (hget : ∀ i, r'.get i = r.get i) :
    r'.Holds (requests ++ [request]) where
  names := hnames
  last {i v} hlast := by
    rw [hget]
    exact h.last ((lastSet_concat_iff (hset i)).1 hlast)
  fresh {i} hfresh := by
    rw [hget]
    exact h.fresh fun v hlast => hfresh v ((lastSet_concat_iff (hset i)).2 hlast)

/-- A value is put into a slot, if it is there. -/
lemma set (i : ℕ) (v : Value) : (r.set i v).Holds (requests ++ [.set i v]) where
  names := by
    rw [names_set, h.names, declared_concat _ _ (by rintro n ⟨⟩)]
  last {j v'} hlast := by
    by_cases hij : i = j
    · subst hij
      obtain ⟨hi, rfl⟩ := lastSet_concat_set_iff.1 hlast
      exact r.get_set_self (h.size_eq ▸ hi) v'
    · rw [r.get_set_of_ne hij]
      exact h.last ((lastSet_concat_iff fun _ hset => hij (Request.set.inj hset).1).1 hlast)
  fresh {j} hfresh := by
    by_cases hij : i = j
    · subst hij
      have hi : r.size ≤ i :=
        Nat.le_of_not_lt fun hi => hfresh v (lastSet_concat_set_iff.2 ⟨h.size_eq ▸ hi, rfl⟩)
      rw [set_of_size_le hi, get_of_size_le hi]
    · rw [r.get_set_of_ne hij]
      exact h.fresh fun v' hlast =>
        hfresh v' ((lastSet_concat_iff fun _ hset => hij (Request.set.inj hset).1).2 hlast)

/-- A request does to the slots what it says. -/
lemma answer (request : Request ℕ) : (r.answer request).2.Holds (requests ++ [request]) := by
  cases request with
  | declare n => exact h.congr (by rintro i v ⟨⟩) (h.names_declare n) (r.get_declare n)
  | set i v => exact h.set i v
  | lookup | get | name | entries =>
    refine h.congr (by rintro i v ⟨⟩) ?_ fun i => rfl
    exact h.names.trans (declared_concat _ _ (by rintro n ⟨⟩)).symm

/-- A run does to the slots what its requests say. -/
theorem serve (after : List (Request ℕ)) : (r.serve after).2.Holds (requests ++ after) := by
  induction after generalizing r requests with
  | nil => rwa [List.append_nil]
  | cons request rest ih =>
    rw [List.append_cons]
    exact ih (h.answer request)

/-- A slot has the name that was declared in its place. -/
lemma name?_eq (i : ℕ) : r.name? i = (declared requests)[i]? := by
  rw [Register.name?_eq, h.names]

/-- Slots keep their names. -/
lemma name?_serve (after : List (Request ℕ)) (hi : r.name? i = some n) :
    (r.serve after).2.name? i = some n := by
  rw [h.name?_eq] at hi
  rw [(h.serve after).name?_eq]
  obtain ⟨later, hlater⟩ := declared_prefix_append requests after
  rw [← hlater, List.getElem?_append_left (List.getElem?_eq_some_iff.1 hi).1]
  exact hi

/-- A name is given the number of the place where it is declared first. -/
lemma declare_eq (n : Name) :
    (r.declare n).1 = (declared (requests ++ [.declare n])).idxOf n := by
  have hnext := h.answer (.declare n)
  have hnodup : (declared (requests ++ [.declare n])).Nodup :=
    hnext.names ▸ (r.declare n).2.nodup
  obtain ⟨hi, hn⟩ := List.getElem?_eq_some_iff.1 ((hnext.name?_eq _).symm.trans (r.name?_declare n))
  have hplace := hnodup.idxOf_getElem (r.declare n).1 hi
  rwa [hn, eq_comm] at hplace

/-- The slots are those of the names that were declared. -/
lemma index_lt_size_iff {i : ℕ} : i < r.size ↔ ∃ n ∈ declared requests, (r.declare n).1 = i := by
  constructor
  · intro hi
    rw [h.size_eq] at hi
    have hn : r.index? (declared requests)[i] = some i :=
      index?_eq_some_iff.2 ((h.name?_eq i).trans (List.getElem?_eq_getElem hi))
    refine ⟨_, List.getElem_mem hi, ?_⟩
    rw [declare_of_some hn]
  · rintro ⟨n, hn, rfl⟩
    obtain ⟨i, hi⟩ := h.exists_index? hn
    rw [declare_of_some hi]
    rw [index?_eq_some_iff, h.name?_eq] at hi
    rw [h.size_eq]
    exact (List.getElem?_eq_some_iff.1 hi).1

/-- The slot of a name that was declared is the one that declaring it gives. -/
lemma index?_eq_some_iff_declare {i : ℕ} :
    r.index? n = some i ↔ n ∈ declared requests ∧ (r.declare n).1 = i := by
  constructor
  · intro hi
    rw [declare_of_some hi]
    exact ⟨h.mem_of_index? hi, rfl⟩
  · rintro ⟨hn, rfl⟩
    obtain ⟨i, hi⟩ := h.exists_index? hn
    rw [declare_of_some hi, hi]

/-- A name keeps the slot that was declared for it, and no other name gets it. -/
lemma declare_serve_iff (n n' : Name) (after : List (Request ℕ)) :
    (((r.declare n).2.serve after).2.declare n').1 = (r.declare n).1 ↔ n' = n := by
  have hnext := h.answer (.declare n)
  have hlater : ((r.declare n).2.serve after).2.Holds (requests ++ [.declare n] ++ after) :=
    hnext.serve after
  have hname : ((r.declare n).2.serve after).2.name? (r.declare n).1 = some n :=
    hnext.name?_serve after (r.name?_declare n)
  constructor
  · intro hsame
    have hsame' := name?_declare ((r.declare n).2.serve after).2 n'
    have hkept := hlater.name?_serve [.declare n'] hname
    rw [hsame] at hsame'
    exact Option.some.inj (hsame'.symm.trans hkept)
  · rintro rfl
    rw [declare_of_some (index?_eq_some_iff.2 hname)]

end Holds

/-- Only setting it changes what is in a slot. -/
lemma get_serve (r : Register) {i : ℕ} {after : List (Request ℕ)}
    (h : ∀ v, .set i v ∉ after) : (r.serve after).2.get i = r.get i := by
  induction after generalizing r with
  | nil => rfl
  | cons request rest ih =>
    have hfirst : (r.answer request).2.get i = r.get i := by
      cases request with
      | declare n => exact r.get_declare n i
      | set j v =>
        have hij : j ≠ i := fun hij => h v (hij ▸ List.mem_cons_self)
        exact r.get_set_of_ne hij v
      | lookup | get | name | entries => rfl
    exact (ih _ fun v hv => h v (List.mem_cons_of_mem _ hv)).trans hfirst

/-- A run loses no slot. -/
lemma size_le_serve (r : Register) (after : List (Request ℕ)) :
    r.size ≤ (r.serve after).2.size := by
  induction after generalizing r with
  | nil => exact Nat.le_refl _
  | cons request rest ih =>
    have hfirst : r.size ≤ (r.answer request).2.size := by
      cases request with
      | declare n => exact (r.index_lt_declare n).2
      | set i v => exact Nat.le_of_eq (r.size_set i v).symm
      | lookup | get | name | entries => exact Nat.le_refl _
    exact Nat.le_trans hfirst (ih _)

/-- The entries are the names of the slots with what the slots hold. -/
lemma entries_getElem? (r : Register) (i : ℕ) :
    r.entries[i]? = (r.name? i).map fun n => (n, r.get i) := by
  rw [entries, name?, get, Array.getElem?_toList]
  cases r.slots[i]? <;> rfl

/-! ### Three tables -/

/-- Values and names in tables of their own, and a map from each name to the number of its slot in a
word of 32 bits. -/
structure Tables where
  values : Array Value
  names : Array Name
  byName : Name → Option UInt32

/-- The request with the number of the slot, without a bound. -/
def Request.widen : Request UInt32 → Request ℕ
  | declare n => .declare n
  | lookup n => .lookup n
  | get i => .get i.toNat
  | set i v => .set i.toNat v
  | name i => .name i.toNat
  | entries => .entries

/-- The answer with the number of the slot, without a bound. -/
def Answer.widen : Answer UInt32 → Answer ℕ
  | slot i => .slot i.toNat
  | found i => .found (i.map UInt32.toNat)
  | value v => .value v
  | done => .done
  | name n => .name n
  | entries es => .entries es

/-- Numbers without a bound do not change which names are declared. -/
lemma declared_map_widen (requests : List (Request UInt32)) :
    declared (requests.map Request.widen) = declared requests := by
  have hnames : ∀ request : Request UInt32, request.widen.names = request.names := by
    rintro (_ | _) <;> rfl
  rw [declared, declared, List.flatMap_map]
  simp only [hnames]

namespace Tables

/-- The tables without slots. -/
def new : Tables := ⟨#[], #[], fun _ => none⟩

/-- The slot of a name: the map is asked first, and a new name goes into all tables. -/
def declare (x : Tables) (n : Name) : UInt32 × Tables :=
  match x.byName n with
  | some i => (i, x)
  | none =>
    let i := UInt32.ofNat x.values.size
    (i, ⟨x.values.push .undefined, x.names.push n, Function.update x.byName n (some i)⟩)

/-- Answer a request. -/
def answer (x : Tables) : Request UInt32 → Answer UInt32 × Tables
  | .declare n => (.slot (x.declare n).1, (x.declare n).2)
  | .lookup n => (.found (x.byName n), x)
  | .get i => (.value (x.values[i.toNat]?.getD .undefined), x)
  | .set i v => (.done, { x with values := x.values.modify i.toNat fun _ => v })
  | .name i => (.name x.names[i.toNat]?, x)
  | .entries => (.entries (x.names.toList.zip x.values.toList), x)

/-- Answer requests, one after another. -/
def serve (x : Tables) : List (Request UInt32) → List (Answer UInt32) × Tables
  | [] => ([], x)
  | request :: rest =>
    ((x.answer request).1 :: ((x.answer request).2.serve rest).1,
      ((x.answer request).2.serve rest).2)

/-- The tables have the names and the values of the register, and the map finds the slots. -/
structure Mirrors (x : Tables) (r : Register) : Prop where
  values : x.values.toList = r.entries.map Prod.snd
  names : x.names.toList = r.names
  byName : ∀ n, (x.byName n).map UInt32.toNat = r.index? n

/-- The two start alike. -/
lemma mirrors_new : new.Mirrors empty where
  values := rfl
  names := rfl
  byName _ := by
    rw [← idxOf?_names]
    rfl

namespace Mirrors

variable {x : Tables} (h : x.Mirrors r)

include h

lemma value (i : ℕ) : x.values[i]?.getD .undefined = r.get i := by
  rw [← Array.getElem?_toList, h.values, List.getElem?_map, entries, Array.getElem?_toList]
  rfl

lemma name (i : ℕ) : x.names[i]? = r.name? i := by
  rw [← Array.getElem?_toList, h.names, name?_eq]

/-- Names and values belong together. -/
lemma entries : x.names.toList.zip x.values.toList = r.entries := by
  rw [h.names, h.values, Register.names]
  exact (List.zip_map' ..).trans (List.map_id _)

/-- A value is put into both. -/
lemma set (i : ℕ) (v : Value) :
    Mirrors { x with values := x.values.modify i fun _ => v } (r.set i v) where
  values := by
    refine List.ext_getElem? fun j => ?_
    have hj : x.values[j]? = r.slots[j]?.map Prod.snd := by
      rw [← Array.getElem?_toList, h.values, List.getElem?_map, Register.entries,
        Array.getElem?_toList]
    simp only [Register.entries, Register.set, List.getElem?_map, Array.getElem?_toList,
      Array.getElem?_modify, hj]
    split <;> cases r.slots[j]? <;> rfl
  names := by rw [names_set, h.names]
  byName m := by rw [h.byName, ← idxOf?_names, ← idxOf?_names, names_set]

/-- A name is declared in both, if a word has the number of its slot. -/
lemma declare (n : Name) (hsize : (r.declare n).2.size ≤ UInt32.size) :
    (x.declare n).1.toNat = (r.declare n).1 ∧ (x.declare n).2.Mirrors (r.declare n).2 := by
  have hn := h.byName n
  cases hx : x.byName n with
  | some i =>
    rw [hx] at hn
    have hdeclare : x.declare n = (i, x) := by simp only [Tables.declare, hx]
    rw [hdeclare, declare_of_some hn.symm]
    exact ⟨rfl, h⟩
  | none =>
    rw [hx] at hn
    obtain ⟨hslot, hentries⟩ := declare_of_none hn.symm
    have hlast := (r.index_lt_declare n).1
    rw [hslot] at hlast
    have hvalues : x.values.size = r.size := by
      rw [← Array.length_toList, h.values, List.length_map]
      exact Array.length_toList
    have hword : (UInt32.ofNat x.values.size).toNat = r.size := by
      rw [hvalues]
      exact UInt32.toNat_ofNat_of_lt' (Nat.lt_of_lt_of_le hlast hsize)
    have hdeclare : x.declare n = (UInt32.ofNat x.values.size, ⟨x.values.push .undefined,
        x.names.push n, Function.update x.byName n (some (UInt32.ofNat x.values.size))⟩) := by
      simp only [Tables.declare, hx]
    have hnames : (r.declare n).2.names = r.names ++ [n] := by
      change (r.declare n).2.entries.map Prod.fst = r.entries.map Prod.fst ++ [n]
      rw [hentries, List.map_append, List.map_singleton]
    rw [hdeclare]
    refine ⟨hword.trans hslot.symm, ?_, ?_, fun m => ?_⟩
    · rw [Array.toList_push, h.values, hentries, List.map_append, List.map_singleton]
    · rw [Array.toList_push, h.names, hnames]
    · dsimp only
      by_cases hm : m = n
      · rw [hm, Function.update_self, Option.map_some, hword, ← hslot]
        exact (index?_eq_some_iff.2 (r.name?_declare n)).symm
      · rw [Function.update_of_ne hm, h.byName]
        -- another name is found where it was found before
        refine Option.ext fun i => ?_
        rw [index?_eq_some_iff, index?_eq_some_iff, name?_eq, name?_eq, hnames,
          List.getElem?_append]
        split
        · rfl
        · rename_i hi
          rw [List.getElem?_eq_none (Nat.le_of_not_lt hi)]
          simp [List.getElem?_singleton, Ne.symm hm]

/-- A request has the same answer. -/
lemma answer (request : Request UInt32)
    (hsize : (r.answer request.widen).2.size ≤ UInt32.size) :
    (x.answer request).1.widen = (r.answer request.widen).1 ∧
      (x.answer request).2.Mirrors (r.answer request.widen).2 := by
  cases request with
  | declare n => exact ⟨congrArg Answer.slot (h.declare n hsize).1, (h.declare n hsize).2⟩
  | lookup n => exact ⟨congrArg Answer.found (h.byName n), h⟩
  | get i => exact ⟨congrArg Answer.value (h.value i.toNat), h⟩
  | set i v => exact ⟨rfl, h.set i.toNat v⟩
  | name i => exact ⟨congrArg Answer.name (h.name i.toNat), h⟩
  | entries => exact ⟨congrArg Answer.entries h.entries, h⟩

/-- A run has the same answers, if words have the numbers of all slots. -/
theorem serve (requests : List (Request UInt32))
    (hsize : (r.serve (requests.map Request.widen)).2.size ≤ UInt32.size) :
    (x.serve requests).1.map Answer.widen = (r.serve (requests.map Request.widen)).1 ∧
      (x.serve requests).2.Mirrors (r.serve (requests.map Request.widen)).2 := by
  induction requests generalizing x r with
  | nil => exact ⟨rfl, h⟩
  | cons request rest ih =>
    have hfirst := Nat.le_trans (size_le_serve _ (rest.map Request.widen)) hsize
    obtain ⟨hanswer, hnext⟩ := h.answer request hfirst
    obtain ⟨hanswers, hend⟩ := ih hnext hsize
    refine ⟨?_, hend⟩
    rw [Tables.serve, List.map_cons, hanswer, hanswers]
    rfl

end Mirrors

end Tables

/-! ### Runs of a new register -/

/-- At every moment of every run of a new register, after the requests `before` and before the
requests `after`:

* declaring a name gives the number of the place where it is declared first; at any later moment it
  gives this number again, and gives it to this name alone, and the slot is found under the name and
  has it as its name;
* the numbers that have been given out are those below the number of names that were declared, and
  exactly these names are found, each in the slot that declaring it gives;
* a slot holds what was last set in it while it was there, and `undefined` if nothing was; requests
  that do not set this slot leave what it holds;
* beyond the last slot nothing is set, and there is `undefined`;
* the entries are the names that were declared, each once, in the order of their slots, with what the
  slots hold;
* a register that keeps values and names in tables of their own, and the slots in a map to words of
  32 bits, gives the same answers, if words have the numbers of all slots. -/
theorem serve_keeps_slots (before after : List (Request ℕ)) (requests : List (Request UInt32)) :
    let r := (empty.serve before).2
    let later := fun n => ((r.declare n).2.serve after).2
    (∀ n, (r.declare n).1 = (declared (before ++ [.declare n])).idxOf n) ∧
    (∀ n n', ((later n).declare n').1 = (r.declare n).1 ↔ n' = n) ∧
    (∀ n, (later n).index? n = some (r.declare n).1 ∧ (later n).name? (r.declare n).1 = some n) ∧
    r.size = (declared before).length ∧
    (∀ i, i < r.size ↔ ∃ n ∈ declared before, (r.declare n).1 = i) ∧
    (∀ n i, r.index? n = some i ↔ n ∈ declared before ∧ (r.declare n).1 = i) ∧
    (∀ i v, LastSet before i v → r.get i = v) ∧
    (∀ i, (∀ v, ¬LastSet before i v) → r.get i = .undefined) ∧
    (∀ i, (∀ v, .set i v ∉ after) → (r.serve after).2.get i = r.get i) ∧
    (∀ i v, r.size ≤ i → r.set i v = r ∧ r.get i = .undefined) ∧
    r.entries.map Prod.fst = declared before ∧ (declared before).Nodup ∧
    (∀ i, r.entries[i]? = (r.name? i).map fun n => (n, r.get i)) ∧
    ((declared requests).length ≤ UInt32.size →
      (Tables.new.serve requests).1.map Answer.widen =
        (empty.serve (requests.map Request.widen)).1) := by
  intro r later
  have h : r.Holds before := holds_empty.serve before
  have hname : ∀ n, (later n).name? (r.declare n).1 = some n := fun n =>
    (h.answer (.declare n)).name?_serve after (r.name?_declare n)
  refine ⟨h.declare_eq, fun n n' => h.declare_serve_iff n n' after,
    fun n => ⟨index?_eq_some_iff.2 (hname n), hname n⟩, h.size_eq, fun i => h.index_lt_size_iff,
    fun n i => h.index?_eq_some_iff_declare, fun i v => h.last, fun i => h.fresh,
    fun i => r.get_serve, fun i v hi => ⟨set_of_size_le hi v, get_of_size_le hi⟩, h.names,
    h.names ▸ r.nodup, r.entries_getElem?, fun hsize => ?_⟩
  have hlast := holds_empty.serve (requests.map Request.widen)
  refine (Tables.mirrors_new.serve requests ?_).1
  rwa [hlast.size_eq, List.nil_append, declared_map_widen]

/-- A name is declared again between two writes: its slot holds the second value, also after another
name is declared, a slot that was set before it was there holds nothing, and tables answer the
same. -/
theorem serve_keeps_slots_of_repeated :
    let name : Name := ⟨50⟩
    let before : List (Request ℕ) :=
      [.declare name, .set 0 (.bool true), .declare name, .set 0 (.string "x"), .set 1 (.bool true)]
    let after : List (Request ℕ) := [.declare ⟨51⟩, .set 1 (.bool false)]
    let requests : List (Request UInt32) := [.declare name, .set 0 (.bool true), .entries]
    let r := (empty.serve before).2
    (LastSet before 0 (.string "x") ∧ r.get 0 = .string "x") ∧
    ((∀ v, ¬LastSet before 1 v) ∧ r.get 1 = .undefined) ∧
    ((∀ v, .set 0 v ∉ after) ∧ (r.serve after).2.get 0 = r.get 0) ∧
    (r.size ≤ 1 ∧ r.set 1 (.bool true) = r) ∧
    ((declared requests).length ≤ UInt32.size ∧
      (Tables.new.serve requests).1.map Answer.widen =
        (empty.serve (requests.map Request.widen)).1) := by
  intro name before after requests r
  obtain ⟨-, -, -, -, -, -, hlast, hfresh, hkept, hbeyond, -, -, -, htables⟩ :=
    serve_keeps_slots before after requests
  have hset : LastSet before 0 (.string "x") :=
    ⟨[.declare name, .set 0 (.bool true), .declare name], [.set 1 (.bool true)], rfl,
      by decide +kernel, fun v => by simp⟩
  have hnever : ∀ v, ¬LastSet before 1 v := fun v hv => by
    have hthere : 1 < (declared (before.take 4)).length := (lastSet_concat_set_iff.1 hv).1
    revert hthere
    decide +kernel
  have huntouched : ∀ v, .set 0 v ∉ after := fun v => by simp [after]
  have hsize : r.size ≤ 1 := by decide +kernel
  have hwords : (declared requests).length ≤ UInt32.size := by decide +kernel
  exact ⟨⟨hset, hlast 0 _ hset⟩, ⟨hnever, hfresh 1 hnever⟩, ⟨huntouched, hkept 0 huntouched⟩,
    ⟨hsize, (hbeyond 1 _ hsize).1⟩, hwords, htables hwords⟩

end ScriptEngine.Register
