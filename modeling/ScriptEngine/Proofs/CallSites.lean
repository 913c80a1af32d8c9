import Mathlib.Data.List.Nodup
import Mathlib.Logic.Function.Iterate
import ScriptEngine.Proofs.Teardown

/-!
# The numbers of call sites

Each function numbers the calls that are bound to it.  The numbers start with one and wrap around
after the largest one, where zero, the number of the host, is skipped.  So they go round in a cycle of
`2 ^ 32 - 1` numbers, `CallSiteId.nth`, and only calls that lie a whole cycle apart have the same one.

`World.Allots` says how many call sites a function has handed out from one world to another one.  A
call that is refused takes none, a call of another function takes none of these, and neither does
anything else that a run does.  The call sites that a function hands out in a run are therefore the
first ones of the cycle, whatever else happens in the run (`Evaluator.sites_eq`).
-/

namespace ScriptEngine

open Pairing (Anything)

/-! ### The cycle of numbers -/

namespace CallSiteId

/-- The call site that a function hands out after `k` others. -/
def nth (k : ℕ) : CallSiteId :=
  ⟨UInt32.ofNat (k % (2 ^ 32 - 1) + 1)⟩

/-- The numbers lie between one and the largest one. -/
lemma toNat_nth (k : ℕ) : (nth k).raw.toNat = k % (2 ^ 32 - 1) + 1 := by
  refine UInt32.toNat_ofNat_of_lt ?_
  have hk : k % (2 ^ 32 - 1) < 2 ^ 32 - 1 := Nat.mod_lt k (by decide)
  exact Nat.add_lt_of_lt_sub hk

/-- No call site has the number of the host. -/
lemma nth_ne_host (k : ℕ) : nth k ≠ host := by
  intro h
  have hzero : k % (2 ^ 32 - 1) + 1 = 0 := by
    rw [← toNat_nth, h]
    rfl
  exact Nat.succ_ne_zero _ hzero

/-- Call sites have the same number if they lie whole cycles apart. -/
lemma nth_eq_nth_iff {i j : ℕ} : nth i = nth j ↔ i % (2 ^ 32 - 1) = j % (2 ^ 32 - 1) := by
  constructor
  · intro h
    have hnumbers : (nth i).raw.toNat = (nth j).raw.toNat := by rw [h]
    rw [toNat_nth, toNat_nth] at hnumbers
    exact Nat.succ.inj hnumbers
  · intro h
    rw [nth, nth, h]

lemma nth_zero : nth 0 = first := rfl

/-- The number after that of a call site is that of the next one; after the largest number this is
the first one. -/
lemma next_nth (k : ℕ) : (nth k).next = nth (k + 1) := by
  have hk : k % (2 ^ 32 - 1) < 2 ^ 32 - 1 := Nat.mod_lt k (by decide)
  have hsucc : ((nth k).raw + 1).toNat = (k % (2 ^ 32 - 1) + 2) % 2 ^ 32 := by
    rw [UInt32.toNat_add, toNat_nth]
    rfl
  have hnext : (k + 1) % (2 ^ 32 - 1) =
      if k % (2 ^ 32 - 1) + 1 = 2 ^ 32 - 1 then 0 else k % (2 ^ 32 - 1) + 1 := by
    split <;> omega
  -- only after the largest number the successor is zero as a word
  unfold next
  split
  · rename_i hwraps
    have hlast : k % (2 ^ 32 - 1) + 1 = 2 ^ 32 - 1 := by
      rw [hwraps] at hsucc
      change 0 = _ at hsucc
      omega
    rw [← nth_zero, nth_eq_nth_iff, hnext, if_pos hlast]
    rfl
  · rename_i hwraps
    have hlast : k % (2 ^ 32 - 1) + 1 ≠ 2 ^ 32 - 1 := by
      intro hlast
      refine hwraps (UInt32.toNat.inj ?_)
      rw [hsucc, show k % (2 ^ 32 - 1) + 2 = 2 ^ 32 by omega]
      rfl
    have hnumbers : ((nth k).raw + 1).toNat = (nth (k + 1)).raw.toNat := by
      rw [hsucc, toNat_nth, hnext, if_neg hlast]
      omega
    exact congrArg mk (UInt32.toNat.inj hnumbers)

example : (nth (2 ^ 32 - 2)).raw = 2 ^ 32 - 1 ∧ (nth (2 ^ 32 - 2)).next = first := by decide

/-- The numbers are counted up from the first one. -/
lemma iterate_next_first (k : ℕ) : next^[k] first = nth k := by
  induction k with
  | zero => rfl
  | succ k ih => rw [Function.iterate_succ_apply', ih, next_nth]

/-- Of call sites that follow one another, as many as a cycle has are different. -/
lemma nodup_nth (start : ℕ) {n : ℕ} (hn : n ≤ 2 ^ 32 - 1) :
    ((List.range' start n).map nth).Nodup := by
  refine List.Nodup.map_on (fun i hi j hj h => ?_) List.nodup_range'
  rw [List.mem_range'_1] at hi hj
  have hmod := nth_eq_nth_iff.1 h
  omega

end CallSiteId

/-! ### What a call is bound with -/

namespace World

variable {w : World} {f : Id .function} {x : FunctionInstance} {args : List Expr}

/-- A call that passes the right number of arguments gets the next call site of its function. -/
lemma bindCall_of_count (hx : w.function? f = some x) (hcount : args.length = x.parameterCount)
    (e : Id .engine) (l : Location) :
    w.bindCall e f args l = (.ok (.mk (.call f x.nextCallSite args) l),
      w.modifyFunction f fun function =>
        { function with nextCallSite := function.nextCallSite.next }) := by
  unfold bindCall
  rw [hx, Option.getD_some, if_neg (not_not_intro hcount)]

/-- A call that passes another number of arguments is refused, and nothing changes. -/
lemma bindCall_of_ne_count (hx : w.function? f = some x) (hcount : args.length ≠ x.parameterCount)
    (e : Id .engine) (l : Location) :
    w.bindCall e f args l =
      w.refuse l (.arityMismatch (w.lookup e x.name) x.parameterCount args.length) := by
  unfold bindCall
  rw [hx, Option.getD_some, if_pos hcount]

end World

/-- The call site of a form of expression, if it calls a function. -/
def ExprNode.callSite? : ExprNode → Option CallSiteId
  | .call _ site _ => some site
  | _ => none

/-- The call site that the function `f` hands out in a turn, if the turn binds a call of it.  Where
the function is gone there is nothing to bind. -/
def Turn.site? (f : Id .function) (w : World) : Turn → Option CallSiteId
  | .arrange (.bind e (.bindCall g args l)) =>
    if g = f ∧ (w.function? f).isSome then
      (w.bindCall e g args l).1.toOption.bind (·.node.callSite?)
    else none
  | _ => none

/-! ### Call sites that are handed out -/

namespace World

/-- From the first world to the second one, the function `f` hands out `n` call sites.  A function
that is new begins with the first one. -/
structure Allots (f : Id .function) (n : ℕ) (w w' : World) : Prop where
  functions : w.functions.size ≤ w'.functions.size
  site : ∀ {x'}, w'.function? f = some x' →
    (∃ x, w.function? f = some x ∧ x'.nextCallSite = CallSiteId.next^[n] x.nextCallSite) ∨
      w.functions.size ≤ f.index ∧ x'.nextCallSite = CallSiteId.next^[n] .first
  /-- A function that is not there yet has handed out nothing. -/
  unborn : w'.functions.size ≤ f.index → n = 0

namespace Allots

variable {f : Id .function} {n k : ℕ} {w w' w'' : World}

lemma refl (f : Id .function) (w : World) : w.Allots f 0 w :=
  ⟨Nat.le_refl _, fun hx => .inl ⟨_, hx, rfl⟩, fun _ => rfl⟩

/-- Call sites that are handed out one after another add up. -/
lemma trans (h : w.Allots f n w') (h' : w'.Allots f k w'') : w.Allots f (n + k) w'' where
  functions := Nat.le_trans h.functions h'.functions
  site hx'' := by
    rw [Nat.add_comm]
    rcases h'.site hx'' with ⟨x', hx', heq'⟩ | ⟨hnew, heq'⟩
    · rcases h.site hx' with ⟨x, hx, heq⟩ | ⟨hnew, heq⟩
      · refine .inl ⟨x, hx, ?_⟩
        rw [heq', heq, Function.iterate_add_apply]
      · refine .inr ⟨hnew, ?_⟩
        rw [heq', heq, Function.iterate_add_apply]
    · rw [h.unborn hnew, Nat.add_zero]
      exact .inr ⟨Nat.le_trans h.functions hnew, heq'⟩
  unborn hnew := by
    rw [h'.unborn hnew, h.unborn (Nat.le_trans h'.functions hnew)]

/-- Memory, engines, callbacks and native objects have nothing to do with it. -/
lemma of_same (h : w'.functions = w.functions) : w.Allots f 0 w' where
  functions := Nat.le_of_eq (congrArg Pool.size h.symm)
  site {x'} hx' := .inl ⟨x', by rwa [function?, ← h], rfl⟩
  unborn _ := rfl

/-- What is no function may be different in the second world. -/
lemma with_same (h : w.Allots f n w') (hsame : w''.functions = w'.functions) : w.Allots f n w'' :=
  h.trans (of_same hsame)

/-- A function is changed, but for the call site that it hands out next. -/
lemma modifyFunction (w : World) (g : Id .function) {change : FunctionInstance → FunctionInstance}
    (h : ∀ x, (change x).nextCallSite = x.nextCallSite) :
    w.Allots f 0 (w.modifyFunction g change) where
  functions := Nat.le_of_eq (w.functions.size_update g change).symm
  site {x'} hx' := by
    rcases function?_modifyFunction_cases hx' with ⟨-, x, hx, rfl⟩ | ⟨-, hx⟩
    · exact .inl ⟨x, hx, h x⟩
    · exact .inl ⟨x', hx, rfl⟩
  unborn _ := rfl

/-- Another function is changed. -/
lemma modifyOther (w : World) {g : Id .function} (h : g = f → w.function? f = none)
    (change : FunctionInstance → FunctionInstance) : w.Allots f 0 (w.modifyFunction g change) where
  functions := Nat.le_of_eq (w.functions.size_update g change).symm
  site {x'} hx' := by
    rcases function?_modifyFunction_cases hx' with ⟨hgf, x, hx, -⟩ | ⟨-, hx⟩
    · exact nomatch (h hgf).symm.trans hx
    · exact .inl ⟨x', hx, rfl⟩
  unborn _ := rfl

/-- The function hands out a call site. -/
lemma handOut {x : FunctionInstance} (hx : w.function? f = some x) :
    w.Allots f 1 (w.modifyFunction f fun function =>
      { function with nextCallSite := function.nextCallSite.next }) where
  functions := Nat.le_of_eq (w.functions.size_update f _).symm
  site {x'} hx' := by
    rw [function?_modifyFunction, if_pos rfl, hx] at hx'
    obtain rfl := Option.some.inj hx'
    exact .inl ⟨x, hx, rfl⟩
  unborn hnew := by
    change (w.functions.update f _).size ≤ f.index at hnew
    rw [Pool.size_update] at hnew
    exact absurd (Pool.index_lt_of_get? hx) (Nat.not_lt_of_le hnew)

/-- A new function begins with the first call site. -/
lemma addFunction (w : World) (name : Name) (text : String) (parameters : List Name)
    (texts : List String) : w.Allots f 0
      { w with functions := (w.functions.add (.define name text parameters texts)).2 } where
  functions := by
    rw [Pool.size_add]
    exact Nat.le_succ _
  site {x'} hx' := by
    rcases Pool.get?_add_cases hx' with hold | ⟨hindex, rfl⟩
    · exact .inl ⟨x', hold, rfl⟩
    · exact .inr ⟨Nat.le_of_eq hindex.symm, rfl⟩
  unborn _ := rfl

/-- Functions are released. -/
lemma releaseFunctions (w : World) (free : List (Id .function)) :
    w.Allots f 0 (w.releaseFunctions free) := by
  induction free generalizing w with
  | nil => exact refl f w
  | cons g rest ih =>
    have hfirst : w.Allots f 0 { w with functions := w.functions.release g } :=
      ⟨Nat.le_of_eq (w.functions.size_release g).symm,
        fun {x'} hx' => .inl ⟨x', (Pool.get?_release_eq_some hx').2, rfl⟩, fun _ => rfl⟩
    exact hfirst.trans (ih _)

/-- Functions are released, in rounds. -/
lemma releaseFunctionsUpTo (h : Holdings) (rounds : ℕ) (w : World) :
    w.Allots f 0 (w.releaseFunctionsUpTo h rounds) := by
  induction rounds generalizing w with
  | zero => exact refl f w
  | succ rounds ih =>
    unfold World.releaseFunctionsUpTo
    split
    · exact refl f w
    · exact (releaseFunctions w _).trans (ih _)

/-- An engine is dropped, and takes bodies with it. -/
lemma dropEngine (w : World) (e : Id .engine) : w.Allots f 0 (w.dropEngine e) := by
  have hfunctions : ∀ (gs : List (Id .function)) (w : World), w.Allots f 0 (gs.foldl
      (fun w g => w.modifyFunction g fun function => { function with body := none }) w) := by
    intro gs
    induction gs with
    | nil => exact refl f
    | cons g rest ih =>
      intro w
      have hg : w.Allots f 0 (w.modifyFunction g fun function => { function with body := none }) :=
        modifyFunction w g fun _ => rfl
      exact hg.trans (ih _)
  exact (hfunctions (w.engine e).functions.values w).with_same
    (functions_foldl_modifyCallback _ _ _).1

/-- Interning has nothing to do with it. -/
lemma internAll (w : World) (e : Id .engine) (texts : List String) :
    w.Allots f 0 (w.internAll e texts).2 := by
  rw [internAll_eq]
  exact of_same rfl

/-- A command that changes the world hands out no call sites. -/
lemma of_change (h : w.Change w') : w.Allots f 0 w' := by
  cases h with
  | functionLocal g n v | lastResult g v => exact modifyFunction w g fun _ => rfl
  | _ => exact of_same rfl

/-- An activity that begins hands out no call sites. -/
lemma enter (a : Activity) (w : World) : w.Allots f 0 (a.enter w) := by
  cases a with
  | script | callback c args => exact of_same rfl
  | function g site args => exact modifyFunction w g fun _ => rfl

/-- An activity that ends hands out no call sites. -/
lemma leave (a : Activity) (w : World) : w.Allots f 0 (a.leave w) := by
  cases a with
  | script | callback c args => exact refl f w
  | function g site args => exact modifyFunction w g fun _ => rfl

end Allots

end World

/-- A call that is bound gets a call site of the function that it calls, unless it is refused. -/
lemma World.Allots.bindCall (e : Id .engine) (g : Id .function) (args : List Expr) (l : Location)
    (f : Id .function) (w : World) :
    w.Allots f ((Turn.arrange (.bind e (.bindCall g args l))).site? f w).toList.length
      (w.bindCall e g args l).2 := by
  rw [Turn.site?]
  by_cases hf : g = f ∧ (w.function? f).isSome
  · rw [if_pos hf]
    obtain ⟨rfl, hsome⟩ := hf
    obtain ⟨x, hx⟩ := Option.isSome_iff_exists.1 hsome
    by_cases hcount : args.length = x.parameterCount
    · rw [bindCall_of_count hx hcount]
      exact handOut hx
    · rw [bindCall_of_ne_count hx hcount]
      exact refl g w
  · rw [if_neg hf]
    rcases Binding.run_bindCall e w args l g with hrun | hrun
    · exact with_same (refl f w) (congrArg World.functions hrun)
    · refine (modifyOther w (fun hgf => ?_) _).with_same (congrArg World.functions hrun)
      rw [← Option.not_isSome_iff_eq_none]
      exact fun hsome => hf ⟨hgf, hsome⟩

open World.Allots in
/-- An operation of a front end hands out a call site of a function if it binds a call of it. -/
lemma Binding.allots (e : Id .engine) (b : Binding) (f : Id .function) (w : World) :
    w.Allots f ((Turn.arrange (.bind e b)).site? f w).toList.length (b.run e w) := by
  cases b with
  | intern | declareRegister | registerApiClass | declareSnippet | attachCallbackBody
  | releaseCallback => exact of_same rfl
  | attachBody g body => exact modifyFunction w g fun _ => rfl
  | releaseFunction g => exact releaseFunctions w [g]
  | defineFunction name parameters =>
    have hname : w.Allots f 0 (w.intern e name).2 := of_same rfl
    have hnames := hname.trans (internAll _ e parameters)
    exact (hnames.trans (addFunction _ _ name _ parameters)).with_same rfl
  | defineCallback name parameters =>
    have hname : w.Allots f 0 (w.intern e name).2 := of_same rfl
    exact (hname.trans (internAll _ e parameters)).with_same rfl
  | bindCall g args l => exact World.Allots.bindCall e g args l f w
  | bindApiCall className function args l =>
    rcases run_bindApiCall e w args l className function with hrun | hrun <;> rw [hrun] <;>
      exact of_same rfl
  | bindConstant className constant l =>
    rcases run_bindConstant e w l className constant with hrun | hrun <;> rw [hrun] <;>
      exact of_same rfl
  | bindObjectCall target function args l =>
    rcases run_bindObjectCall e w args l target function with hrun | hrun <;> rw [hrun] <;>
      exact of_same rfl
  | bindSnippetCall snippet args l =>
    rw [run_bindSnippetCall]
    exact refl f w

open World.Allots in
/-- What is done without an evaluation hands out a call site of a function if it binds a call of
it. -/
theorem Arrangement.allots (a : Arrangement) (f : Id .function) (w : World) :
    w.Allots f ((Turn.arrange a).site? f w).toList.length (a.run w) := by
  cases a with
  | bind e b => exact b.allots e f w
  | addNative | newEngine | drainReports | changeMemory => exact of_same rfl
  | dropEngine e => exact World.Allots.dropEngine w e
  | settle h =>
    have hcallbacks : w.Allots f 0 (w.releaseCallbacks h) := of_same rfl
    exact hcallbacks.trans (releaseFunctionsUpTo h _ _)
  | comment g text => exact modifyFunction w g fun _ => rfl

/-! ### Runs -/

/-- Evaluations hand out no call sites. -/
lemma Machine.upkeep_allots (f : Id .function) (w : World) :
    Machine.shared.Upkeep (fun _ _ => True) (w.Allots f 0) :=
  .of_steps (fun k s hs => hs.trans (.of_change (k.change s))) (fun _ _ _ _ _ _ _ => trivial)
    (fun _ _ _ hs => hs) (fun _ _ hs => hs) (fun a _ s hs => hs.trans (.enter a s))
    fun a s hs => hs.trans (.leave a s)

namespace Evaluator

/-- A turn hands out a call site of a function if it binds a call of it. -/
theorem allots_take (bound : ℕ) (turn : Turn) (f : Id .function) (w : World) :
    w.Allots f (turn.site? f w).toList.length ((Evaluator.shared bound).take id turn w).state := by
  have hkeeps : (∀ a, turn ≠ .arrange a) →
      w.Allots f 0 ((Evaluator.shared bound).take id turn w).state := fun hturn =>
    ((Machine.upkeep_allots f w).take bound id (fun a ha => absurd ha (hturn a)) w (.refl f w)).1
  cases turn with
  | arrange a => exact a.allots f w
  | enter | evaluate | write => exact hkeeps fun a ha => nomatch ha

/-- The call sites that the function `f` hands out in a run, in order. -/
def sites (bound : ℕ) (f : Id .function) : List Turn → World → List CallSiteId
  | [], _ => []
  | turn :: rest, w =>
    (turn.site? f w).toList ++ sites bound f rest ((Evaluator.shared bound).take id turn w).state

end Evaluator

/-- The call site that a function hands out in a turn is the one that it hands out next. -/
lemma Turn.eq_of_site? {f : Id .function} {w : World} {turn : Turn} {site : CallSiteId}
    (h : turn.site? f w = some site) : ∃ x, w.function? f = some x ∧ site = x.nextCallSite := by
  unfold Turn.site? at h
  split at h
  · split at h
    · rename_i e g args l hf
      obtain ⟨rfl, hsome⟩ := hf
      obtain ⟨x, hx⟩ := Option.isSome_iff_exists.1 hsome
      by_cases hcount : args.length = x.parameterCount
      · rw [World.bindCall_of_count hx hcount] at h
        exact ⟨x, hx, (Option.some.inj h).symm⟩
      · rw [World.bindCall_of_ne_count hx hcount] at h
        exact nomatch h
    · exact nomatch h
  · exact nomatch h

namespace World.Allots

variable {f : Id .function} {k : ℕ} {w : World}

/-- Where a function has handed out `k` call sites since there was nothing, the next one is number
`k`. -/
lemma nextCallSite (h : World.empty.Allots f k w) {x : FunctionInstance}
    (hx : w.function? f = some x) : x.nextCallSite = .nth k := by
  rcases h.site hx with ⟨x₀, hx₀, -⟩ | ⟨-, heq⟩
  · exact absurd (Pool.index_lt_of_get? hx₀) (Nat.not_lt_zero _)
  · rw [heq, CallSiteId.iterate_next_first]

end World.Allots

/-- The call sites that a function hands out in a run are those of the cycle, one after another. -/
theorem Evaluator.sites_eq (bound : ℕ) {f : Id .function} {k : ℕ} (turns : List Turn) {w : World}
    (h : World.empty.Allots f k w) :
    sites bound f turns w = (List.range' k (sites bound f turns w).length).map .nth := by
  -- on the turns; what was handed out before them is `k`, and each turn adds what it hands out
  induction turns generalizing k w with
  | nil => rfl
  | cons turn rest ih =>
    have hnext := h.trans (allots_take bound turn f w)
    rw [sites]
    cases hsite : turn.site? f w with
    | none =>
      rw [hsite] at hnext
      exact ih hnext
    | some site =>
      rw [hsite] at hnext
      obtain ⟨x, hx, rfl⟩ := Turn.eq_of_site? hsite
      rw [Option.toList_some, List.singleton_append, List.length_cons, List.range'_succ,
        List.map_cons, h.nextCallSite hx]
      exact congrArg (CallSiteId.nth k :: ·) (ih hnext)

/-- The call sites that a function hands out are the first ones of the cycle. -/
lemma Evaluator.sites_empty (bound : ℕ) (f : Id .function) (turns : List Turn) :
    ∃ n, sites bound f turns .empty = (List.range' 0 n).map .nth :=
  ⟨_, sites_eq bound turns (.refl f .empty)⟩

/-- No function hands out the call site of the host. -/
lemma Evaluator.host_notMem_sites (bound : ℕ) (f : Id .function) (turns : List Turn) :
    .host ∉ sites bound f turns .empty := by
  obtain ⟨n, hsites⟩ := sites_empty bound f turns
  rw [hsites]
  intro hmem
  obtain ⟨k, -, hk⟩ := List.mem_map.1 hmem
  exact CallSiteId.nth_ne_host k hk

/-- Of the call sites that a function hands out one after another, as many as a cycle has are
different. -/
lemma Evaluator.nodup_consecutive_sites (bound : ℕ) (f : Id .function) (turns : List Turn) (i : ℕ) :
    (((sites bound f turns .empty).drop i).take (2 ^ 32 - 1)).Nodup := by
  obtain ⟨n, hsites⟩ := sites_empty bound f turns
  rw [hsites, ← List.map_drop, List.drop_range', ← List.map_take]
  rcases Nat.le_total (n - i) (2 ^ 32 - 1) with hfew | hmany
  · rw [List.take_range'_of_length_le hfew]
    exact CallSiteId.nodup_nth _ hfew
  · rw [List.take_range'_of_length_ge hmany]
    exact CallSiteId.nodup_nth _ (Nat.le_refl _)

end ScriptEngine
