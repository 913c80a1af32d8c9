import Mathlib.Data.Fintype.Card
import Mathlib.Data.Set.Finite.List
import Mathlib.Logic.Relation
import ScriptEngine.Ownership
import ScriptEngine.Proofs.Frames

/-!
# What a release leaves

What nothing holds is released, and its body with it.  Which functions are left can be said without
counting who holds them: a function is left if calls lead to it from a root, which is an engine, the
host or a callback, or from a function that calls lead back to.  A set of functions each of which is
called from the set, `Sustains`, keeps itself in every round of a release.  That nothing else is
left is an argument backwards: from a function that is held by functions alone one gets to callers
of callers, and since there are finitely many functions, to one of them twice.

Main statements: `World.isSome_function?_settle`, `World.callback?_settle` and
`World.reachedFrom_onCycle_settle`.
-/

namespace ScriptEngine

open Relation

/-! ### Pools -/

namespace Pool

variable {kind : Kind} {α : Type}

lemma mem_ids {p : Pool kind α} {i : Id kind} : i ∈ p.ids ↔ (p.get? i).isSome := by
  have hrange (h : (p.get? i).isSome) : i ∈ (List.range p.items.size).map Id.mk := by
    refine List.mem_map.2 ⟨i.index, List.mem_range.2 ?_, rfl⟩
    by_contra hsize
    rw [get?, Array.getElem?_eq_none (Nat.le_of_not_lt hsize)] at h
    exact Bool.false_ne_true h
  rw [ids, List.mem_filter]
  exact ⟨And.right, fun h => ⟨hrange h, h⟩⟩

lemma get?_foldl_release (free : List (Id kind)) (p : Pool kind α) (i : Id kind) :
    (free.foldl release p).get? i = if i ∈ free then none else p.get? i := by
  induction free generalizing p with
  | nil => simp
  | cons j rest ih =>
    rw [List.foldl_cons, ih, get?_release]
    by_cases hrest : i ∈ rest
    · simp [hrest]
    · by_cases hj : j = i
      · simp [hj]
      · simp [hrest, hj, Ne.symm hj]

lemma size_foldl_release (free : List (Id kind)) (p : Pool kind α) :
    (free.foldl release p).size = p.size := by
  induction free generalizing p with
  | nil => rfl
  | cons j rest ih => rw [List.foldl_cons, ih, size_release]

/-- A release of things that are there leaves fewer of them. -/
lemma length_ids_foldl_release_lt {free : List (Id kind)} {p : Pool kind α} {i : Id kind}
    (hi : i ∈ free) (hp : i ∈ p.ids) : (free.foldl release p).ids.length < p.ids.length := by
  have hids : (free.foldl release p).ids = p.ids.filter (· ∉ free) := by
    have hsize : (free.foldl release p).items.size = p.items.size := size_foldl_release free p
    rw [ids, ids, hsize, List.filter_filter]
    refine List.filter_congr fun j _ => ?_
    rw [get?_foldl_release]
    by_cases hj : j ∈ free <;> simp [hj]
  rw [hids]
  exact List.length_filter_lt_length_iff_exists.2 ⟨i, hp, by simpa using hi⟩

end Pool

/-! ### Who calls whom -/

lemma mem_calleesOfStatements {ss : List Stmt} {f : Id .function} :
    f ∈ calleesOfStatements ss ↔ ∃ s ∈ ss, f ∈ s.callees := by
  induction ss with
  | nil => simp [calleesOfStatements]
  | cons s rest ih => simp [calleesOfStatements, ih]

namespace World

variable {w w' : World} {h : Holdings} {f g : Id .function}

/-- The first function is there, and its body calls the second one. -/
def Calls (w : World) (g f : Id .function) : Prop :=
  ∃ x body, w.function? g = some x ∧ x.body = some body ∧ f ∈ body.callees

/-- An engine, the host or the body of a callback holds the function. -/
def Roots (w : World) (h : Holdings) (f : Id .function) : Prop :=
  f ∈ h.functions ∨ (∃ engine ∈ w.liveEngines, f ∈ engine.functions.values) ∨
    ∃ s ∈ h.trees ++ w.callbackBodies, f ∈ s.callees

/-- Calls lead back to the function. -/
def OnCycle (w : World) (f : Id .function) : Prop :=
  TransGen w.Calls f f

/-- The function is there, and calls lead to it from a function with the property. -/
def ReachedFrom (w : World) (P : Id .function → Prop) (f : Id .function) : Prop :=
  (w.function? f).isSome ∧ ∃ g, P g ∧ ReflTransGen w.Calls g f

/-- Calls lead to the function from a root or from a function on a cycle. -/
def Sustained (w : World) (h : Holdings) : Id .function → Prop :=
  w.ReachedFrom fun g => w.Roots h g ∨ w.OnCycle g

lemma Calls.isSome (hcalls : w.Calls g f) : (w.function? g).isSome := by
  obtain ⟨x, body, hx, -, -⟩ := hcalls
  rw [hx]
  rfl

lemma mem_functionBodies {body : Stmt} :
    body ∈ w.functionBodies ↔ ∃ g x, w.function? g = some x ∧ x.body = some body := by
  simp only [functionBodies, List.mem_filterMap, Pool.mem_ids]
  constructor
  · rintro ⟨x, ⟨g, -, hx⟩, hbody⟩
    exact ⟨g, x, hx, hbody⟩
  · rintro ⟨g, x, hx, hbody⟩
    exact ⟨x, ⟨g, Option.isSome_iff_exists.2 ⟨x, hx⟩, hx⟩, hbody⟩

/-- A function is held by a root or by a function that calls it. -/
lemma mem_heldFunctions : f ∈ w.heldFunctions h ↔ w.Roots h f ∨ ∃ g, w.Calls g f := by
  have hcalls : (∃ s ∈ w.functionBodies, f ∈ s.callees) ↔ ∃ g, w.Calls g f := by
    constructor
    · rintro ⟨s, hs, hf⟩
      obtain ⟨g, x, hx, hbody⟩ := mem_functionBodies.1 hs
      exact ⟨g, x, s, hx, hbody, hf⟩
    · rintro ⟨g, x, s, hx, hbody, hf⟩
      exact ⟨s, mem_functionBodies.2 ⟨g, x, hx, hbody⟩, hf⟩
  rw [← hcalls]
  simp only [heldFunctions, Roots, List.mem_append, List.mem_flatMap, mem_calleesOfStatements,
    or_and_right, exists_or, or_assoc, or_comm, or_left_comm]

lemma mem_freeFunctions :
    f ∈ w.freeFunctions h ↔ (w.function? f).isSome ∧ ¬(w.Roots h f ∨ ∃ g, w.Calls g f) := by
  rw [← mem_heldFunctions, freeFunctions, List.mem_filter, Pool.mem_ids]
  simp [function?]

/-! ### Rounds of a release -/

/-- Some functions have been released in the second world, and nothing else has happened. -/
structure Loses (w w' : World) : Prop where
  engines : w'.engines = w.engines
  callbacks : w'.callbacks = w.callbacks
  function : ∀ {f x}, w'.function? f = some x → w.function? f = some x

/-- Where fewer functions are, there are fewer calls. -/
lemma calls_mono (hfunction : ∀ {f x}, w'.function? f = some x → w.function? f = some x) :
    w'.Calls ≤ w.Calls := by
  rintro g f ⟨x, body, hx, hbody, hf⟩
  exact ⟨x, body, hfunction hx, hbody, hf⟩

/-- Where fewer functions are, fewer are reached. -/
lemma ReachedFrom.of_fewer {P Q : Id .function → Prop}
    (hfunction : ∀ {f x}, w'.function? f = some x → w.function? f = some x)
    (hPQ : ∀ g, P g → Q g) (hf : w'.ReachedFrom P f) : w.ReachedFrom Q f := by
  obtain ⟨hsome, g, hg, hpath⟩ := hf
  obtain ⟨x, hx⟩ := Option.isSome_iff_exists.1 hsome
  refine ⟨Option.isSome_iff_exists.2 ⟨x, hfunction hx⟩, g, hPQ g hg, ?_⟩
  exact ReflTransGen.mono (calls_mono hfunction) g f hpath

namespace Loses

lemma refl (w : World) : w.Loses w :=
  ⟨rfl, rfl, id⟩

lemma trans {w'' : World} (h : w.Loses w') (h' : w'.Loses w'') : w.Loses w'' :=
  ⟨h'.engines.trans h.engines, h'.callbacks.trans h.callbacks, h.function ∘ h'.function⟩

lemma roots (hloses : w.Loses w') : w'.Roots h f ↔ w.Roots h f := by
  rw [Roots, Roots, liveEngines, liveEngines, callbackBodies, callbackBodies, hloses.engines,
    hloses.callbacks]

lemma sustained (hloses : w.Loses w') (hf : w'.Sustained h f) : w.Sustained h f := by
  refine ReachedFrom.of_fewer hloses.function (fun g => ?_) hf
  exact Or.imp hloses.roots.1 (TransGen.mono (calls_mono hloses.function) g g)

end Loses

lemma function?_releaseFunctions (w : World) (free : List (Id .function)) (f : Id .function) :
    (w.releaseFunctions free).function? f = if f ∈ free then none else w.function? f :=
  Pool.get?_foldl_release free w.functions f

lemma loses_releaseFunctions (w : World) (free : List (Id .function)) :
    w.Loses (w.releaseFunctions free) := by
  refine ⟨rfl, rfl, fun {f x} hx => ?_⟩
  rw [function?_releaseFunctions] at hx
  split at hx
  · exact nomatch hx
  · exact hx

lemma loses_releaseFunctionsUpTo (h : Holdings) (rounds : ℕ) (w : World) :
    w.Loses (releaseFunctionsUpTo h rounds w) := by
  induction rounds generalizing w with
  | zero => exact .refl w
  | succ rounds ih =>
    unfold releaseFunctionsUpTo
    split
    · exact .refl w
    · exact (w.loses_releaseFunctions _).trans (ih _)

/-- There are enough rounds to release everything that is free. -/
lemma freeFunctions_releaseFunctionsUpTo {rounds : ℕ} (hrounds : w.functions.ids.length ≤ rounds) :
    (releaseFunctionsUpTo h rounds w).freeFunctions h = [] := by
  induction rounds generalizing w with
  | zero =>
    have hids : w.functions.ids = [] := List.length_eq_zero_iff.1 (Nat.le_zero.1 hrounds)
    rw [releaseFunctionsUpTo, freeFunctions, hids, List.filter_nil]
  | succ rounds ih =>
    rw [releaseFunctionsUpTo]
    cases hfree : w.freeFunctions h with
    | nil => exact hfree
    | cons f rest =>
      have hf : f ∈ w.functions.ids := by
        refine (List.mem_filter.1 (?_ : f ∈ w.freeFunctions h)).1
        exact hfree ▸ List.mem_cons_self
      have hfewer := Pool.length_ids_foldl_release_lt (List.mem_cons_self (l := rest)) hf
      exact ih (Nat.le_of_lt_succ (Nat.lt_of_lt_of_le hfewer hrounds))

/-! ### What keeps itself -/

/-- All functions of the set are there, and each is held by a root or by a function of the set. -/
def Sustains (w : World) (h : Holdings) (S : Set (Id .function)) : Prop :=
  ∀ f ∈ S, (w.function? f).isSome ∧ (w.Roots h f ∨ ∃ g ∈ S, w.Calls g f)

namespace Sustains

variable {S : Set (Id .function)} (hS : w.Sustains h S)

include hS

/-- A round of a release leaves the functions of the set as they are. -/
lemma releaseFunctions (hf : f ∈ S) :
    (w.releaseFunctions (w.freeFunctions h)).function? f = w.function? f := by
  rw [function?_releaseFunctions, if_neg]
  rw [mem_freeFunctions, not_and_not_right]
  exact fun _ => (hS f hf).2.imp_right fun ⟨g, _, hcalls⟩ => ⟨g, hcalls⟩

/-- The set keeps itself where its functions and the roots are the same. -/
lemma of_same (hroots : ∀ f ∈ S, w.Roots h f → w'.Roots h f)
    (hsame : ∀ f ∈ S, w'.function? f = w.function? f) : w'.Sustains h S := by
  intro f hf
  obtain ⟨hsome, hheld⟩ := hS f hf
  refine ⟨by rw [hsame f hf]; exact hsome, hheld.imp (hroots f hf) ?_⟩
  rintro ⟨g, hg, x, body, hx, hcalls⟩
  exact ⟨g, hg, x, body, (hsame g hg).trans hx, hcalls⟩

/-- The rounds of a release leave the functions of the set as they are. -/
lemma releaseFunctionsUpTo (rounds : ℕ) (hf : f ∈ S) :
    (releaseFunctionsUpTo h rounds w).function? f = w.function? f := by
  induction rounds generalizing w with
  | zero => rfl
  | succ rounds ih =>
    rw [World.releaseFunctionsUpTo]
    split
    · rfl
    · have hloses := w.loses_releaseFunctions (w.freeFunctions h)
      have hnext := hS.of_same (fun _ _ => hloses.roots.2) fun _ hg => hS.releaseFunctions hg
      exact (ih hnext).trans (hS.releaseFunctions hf)

end Sustains

/-- What is reached from roots and from cycles keeps itself: on the way to a function, the last call
is from such a function. -/
lemma sustains_reachedFrom {P : Id .function → Prop}
    (hP : ∀ g, P g → w.Roots h g ∨ w.OnCycle g) : w.Sustains h {f | w.ReachedFrom P f} := by
  rintro f ⟨hsome, g, hg, hpath⟩
  have hcaller {k : Id .function} (hpath : ReflTransGen w.Calls g k) (hcalls : w.Calls k f) :
      w.Roots h f ∨ ∃ k ∈ {f | w.ReachedFrom P f}, w.Calls k f :=
    .inr ⟨k, ⟨hcalls.isSome, g, hg, hpath⟩, hcalls⟩
  refine ⟨hsome, ?_⟩
  rcases hpath.cases_tail with rfl | ⟨k, hpath, hcalls⟩
  · rcases hP f hg with hroot | hcycle
    · exact .inl hroot
    · obtain ⟨k, hpath, hcalls⟩ := TransGen.tail'_iff.1 hcycle
      exact hcaller hpath hcalls
  · exact hcaller hpath hcalls

/-- Where nothing is free, everything is sustained. -/
lemma sustained_of_freeFunctions (hfree : w.freeFunctions h = []) (hf : (w.function? f).isSome) :
    w.Sustained h f := by
  by_contra hnot
  -- what leads to `f` is neither a root nor on a cycle, and so callers could be followed for ever
  let Before := {g // ReflTransGen w.Calls g f}
  have hroot (g : Before) : ¬w.Roots h g.1 := fun hg => hnot ⟨hf, g.1, .inl hg, g.2⟩
  have hcycle (g : Before) : ¬w.OnCycle g.1 := fun hg => hnot ⟨hf, g.1, .inr hg, g.2⟩
  have hsome (g : Before) : (w.function? g.1).isSome := by
    rcases g.2.cases_head with heq | ⟨_, hcalls, -⟩
    · rw [heq]
      exact hf
    · exact hcalls.isSome
  have hfinite : Finite Before := by
    refine Set.Finite.subset (List.finite_toSet w.functions.ids) fun g hg => ?_
    exact Pool.mem_ids.2 (hsome ⟨g, hg⟩)
  let Leads (a b : Before) : Prop := TransGen w.Calls a.1 b.1
  have : IsTrans Before Leads := ⟨fun _ _ _ => TransGen.trans⟩
  have : Std.Irrefl Leads := ⟨hcycle⟩
  obtain ⟨first, -, hfirst⟩ :=
    (Finite.wellFounded_of_trans_of_irrefl Leads).has_min Set.univ ⟨⟨f, .refl⟩, trivial⟩
  have hheld : w.Roots h first.1 ∨ ∃ g, w.Calls g first.1 := by
    by_contra hnone
    have hmem := mem_freeFunctions.2 ⟨hsome first, hnone⟩
    exact List.not_mem_nil (hfree ▸ hmem)
  obtain ⟨g, hcalls⟩ := hheld.resolve_left (hroot first)
  exact hfirst ⟨g, .head hcalls first.2⟩ trivial (.single hcalls)

/-! ### Releases -/

lemma callback?_releaseCallbacks (w : World) (h : Holdings) (c : Id .callback) :
    (w.releaseCallbacks h).callback? c =
      if c ∈ w.heldCallbacks h then w.callback? c else none := by
  change (List.foldl Pool.release _ _).get? c = _
  simp only [Pool.get?_foldl_release, List.mem_filter, Pool.mem_ids, List.contains_eq_mem]
  by_cases hheld : c ∈ w.heldCallbacks h
  · simp [hheld, callback?]
  · simp [hheld]

lemma loses_settle (w : World) (h : Holdings) : (w.releaseCallbacks h).Loses (w.settle h) :=
  loses_releaseFunctionsUpTo h _ _

/-- A release leaves the callbacks that something holds. -/
theorem callback?_settle (w : World) (h : Holdings) (c : Id .callback) :
    (w.settle h).callback? c = if c ∈ w.heldCallbacks h then w.callback? c else none := by
  rw [← w.callback?_releaseCallbacks h c, callback?, callback?, (w.loses_settle h).callbacks]

/-- What is reached from roots and from cycles is left as it was. -/
lemma ReachedFrom.settle {P : Id .function → Prop}
    (hP : ∀ g, P g → (w.releaseCallbacks h).Roots h g ∨ w.OnCycle g) (hf : w.ReachedFrom P f) :
    (w.settle h).function? f = w.function? f := by
  have hsustains : (w.releaseCallbacks h).Sustains h {f | w.ReachedFrom P f} :=
    sustains_reachedFrom hP
  exact hsustains.releaseFunctionsUpTo _ hf

/-- A release leaves exactly the functions that are sustained once the callbacks are gone. -/
theorem isSome_function?_settle :
    ((w.settle h).function? f).isSome ↔ (w.releaseCallbacks h).Sustained h f := by
  constructor
  · intro hsome
    have hfree : (w.settle h).freeFunctions h = [] :=
      freeFunctions_releaseFunctionsUpTo (Nat.le_refl _)
    exact (w.loses_settle h).sustained (sustained_of_freeFunctions hfree hsome)
  · intro hf
    have hsame := ReachedFrom.settle (w := w) (fun _ => id) hf
    rw [hsame]
    exact hf.1

/-- A release leaves the cycles, and all that is reached from them, whatever the host holds. -/
theorem reachedFrom_onCycle_settle :
    (w.settle h).ReachedFrom (w.settle h).OnCycle f ↔ w.ReachedFrom w.OnCycle f := by
  have hfewer : ∀ {f x}, (w.settle h).function? f = some x → w.function? f = some x :=
    (w.loses_settle h).function
  have hsame {f : Id .function} (hf : w.ReachedFrom w.OnCycle f) :
      (w.settle h).function? f = w.function? f := ReachedFrom.settle (fun _ => .inr) hf
  constructor
  · exact ReachedFrom.of_fewer hfewer fun g => TransGen.mono (calls_mono hfewer) g g
  · rintro ⟨hsome, g, hg, hpath⟩
    have hcalls {k l : Id .function} (hpath : ReflTransGen w.Calls g k) (hkl : w.Calls k l) :
        (w.settle h).Calls k l := by
      have hk := hsame ⟨hkl.isSome, g, hg, hpath⟩
      obtain ⟨x, body, hx, hbody, hl⟩ := hkl
      exact ⟨x, body, hk.trans hx, hbody, hl⟩
    have hpaths {k : Id .function} (hpath : ReflTransGen w.Calls g k) :
        ReflTransGen (w.settle h).Calls g k := by
      induction hpath with
      | refl => exact .refl
      | tail hpath hlast ih => exact ih.tail (hcalls hpath hlast)
    obtain ⟨k, hround, hlast⟩ := TransGen.tail'_iff.1 hg
    refine ⟨by rw [hsame ⟨hsome, g, hg, hpath⟩]; exact hsome, g, ?_, hpaths hpath⟩
    exact .tail' (hpaths hround) (hcalls hround hlast)

end World

end ScriptEngine
