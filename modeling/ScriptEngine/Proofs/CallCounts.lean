import ScriptEngine.Proofs.Construction

/-!
# Numbers of arguments

Each call hands over as many arguments as what it calls was declared with.  Where that is checked depends
on the form of the call: on binding, for functions and snippets; on each evaluation, for API classes; once,
when it is resolved, for a call on an object; and on entry, for the host.  What is called itself checks
nothing.  That this suffices is an invariant of what has been built (`Workshop.Counted`), which
evaluations keep, since they change neither the code nor the numbers of arguments with which calls were
built.

Main statement: `calls_pass_declared_counts`.
-/

namespace ScriptEngine

/-! ### What an occasion tells of numbers of arguments -/

/-- What is called on the occasion gets as many arguments as it was declared with, and a call that
is refused is refused at once. -/
def Occasion.PassesCount (now : Occasion) (past : Chronicle) : Prop :=
  match now.occurrence with
  | .began (.function f _ args) => ∀ function, now.world.function? f = some function →
      args.length = function.parameterCount ∧ function.frame.arguments = args
  | .called object index args => ∃ function,
      (now.world.apiClass object).functions[index]? = some function ∧
      function.numArgs = args.length ∧ (now.world.apiClass object).call index args = function.body args
  | .ran snippet slots =>
      slots.length = snippet.argumentNames.length ∧ slots.length ≤ maxSnippetArgs
  | .refused node err => ∃ e scope rest, past = ⟨.evaluating e, now.world⟩ :: rest ∧ e.node = node ∧
      now.world.Refuses scope node err ∧ (err.cause.IsArityMismatch → now.world.Compares node)
  | _ => True

/-! ### Native snippets -/

/-- The arity for a number of arguments is that number. -/
lemma Arity.count_of_ofCount? {n : ℕ} {arity : Arity} (h : ofCount? n = some arity) :
    arity.count = n ∧ n ≤ maxSnippetArgs := by
  unfold ofCount? at h
  split at h
  case h_6 => exact nomatch h
  all_goals
    obtain rfl := Option.some.inj h
    decide

/-- A snippet that can be called takes as many slots as it has arguments. -/
lemma Snippet.count_of_callable {compiler : SnippetCompiler} {d : SnippetDeclaration}
    {found : Arity × MachineCode} (h : (compile compiler d).callable = .ok found) :
    found.1.count = d.arguments.length ∧ d.arguments.length ≤ maxSnippetArgs := by
  unfold callable at h
  split at h
  · exact nomatch h
  · split at h
    · exact nomatch h
    · split at h
      · rename_i arity harity
        obtain rfl := Except.ok.inj h
        exact Arity.count_of_ofCount? harity
      · exact nomatch h

/-- Only a snippet that can be called has code. -/
lemma Snippet.callable_of_codeFor {s : Snippet} {n : ℕ} {code : MachineCode}
    (h : s.codeFor n = .ok code) : ∃ found, s.callable = .ok found := by
  unfold codeFor at h
  cases hcallable : s.callable with
  | error err =>
    rw [hcallable] at h
    exact nomatch h
  | ok found => exact ⟨found, rfl⟩

/-- A snippet that can be called has code for as many slots as it has arguments. -/
lemma Snippet.codeFor_of_callable {compiler : SnippetCompiler} {d : SnippetDeclaration}
    {found : Arity × MachineCode} (h : (compile compiler d).callable = .ok found) :
    (compile compiler d).codeFor d.arguments.length = .ok found.2 := by
  unfold codeFor
  rw [h]
  simp only [bind, Except.bind]
  rw [if_neg (not_not_intro (count_of_callable h).1.symm)]
  rfl

/-! ### Functions of native objects -/

/-- What a call on an object is found to mean is a function with that number of arguments. -/
lemma World.serves_of_findMethod {w w' : World} {e : Id .engine} {target : VarRef} {v : Value}
    {function : Name} {count : ℕ} {resolution : Resolution}
    (h : World.findMethod e target v function count w = .done resolution w') :
    w.Serves resolution.1 resolution.2.index count := by
  unfold findMethod at h
  simp only [Action.bind_apply, Action.state] at h
  cases v with
  | native object =>
    dsimp only at h
    cases hslot : (w.apiClass object).slot? function with
    | none =>
      rw [hslot] at h
      cases h
    | some slot =>
      rw [hslot] at h
      dsimp only at h
      split at h
      · cases h
      · rename_i hcount
        obtain ⟨rfl, -⟩ := Outcome.done.inj h
        rw [← Classical.not_not.1 hcount]
        exact Binding.serves_of_slot? hslot
  | _ => cases h

/-- Which functions API classes have is part of the code. -/
lemma World.Serves.of_code_eq {w w' : World} (hcode : w'.code = w.code) {object : NativeRef}
    {index count : ℕ} (h : w'.Serves object index count) : w.Serves object index count := by
  obtain ⟨function, hfunction, hcount⟩ := h
  rw [World.apiClass_eq_of_code_eq hcode] at hfunction
  exact ⟨function, hfunction, hcount⟩

/-! ### The account -/

/-- In a run from the world `w₀`, calls have passed the right numbers of arguments so far. -/
structure Chronicled.PassesCounts (w₀ : World) (counts : Id .callSite → ℕ) (s : Chronicled) : Prop where
  code : s.world.code = w₀.code
  functions : s.world.functions.size = w₀.functions.size
  sites : s.world.objectCalls.size = w₀.objectCalls.size
  resolved : ∀ {site r}, s.world.resolution? site = some r → w₀.Serves r.1 r.2.index (counts site)
  frames : ∀ {f x}, s.world.function? f = some x → x.frame.arguments.length = x.parameterCount
  always : s.record.Always Occasion.PassesCount

namespace Chronicled.PassesCounts

variable {w₀ w : World} {counts : Id .callSite → ℕ} {s : Chronicled} (h : PassesCounts w₀ counts s)

include h

/-- Something is written down. -/
lemma write {o : Occurrence} (ho : Occasion.PassesCount ⟨o, s.world⟩ s.record) :
    PassesCounts w₀ counts (s.write o) :=
  { h with always := ⟨ho, h.always⟩ }

/-- The world changes, apart from frames and what object calls were resolved to. -/
lemma change (hchange : s.world.Change w) (hsites : w.objectCalls = s.world.objectCalls) :
    PassesCounts w₀ counts (s.withWorld w) where
  code := hchange.code_eq.trans h.code
  functions := by
    rw [← h.functions]
    cases hchange with
    | functionLocal f n v | lastResult f v => exact Pool.size_update ..
    | _ => rfl
  sites := (congrArg Pool.size hsites).trans h.sites
  resolved {site r} hr := by
    have hold : s.world.resolution? site = some r := by
      unfold World.resolution? at *
      rwa [← hsites]
    exact h.resolved hold
  frames {f x} hx := by
    obtain ⟨original, horiginal, hframe, hcount⟩ :=
      World.exists_function_of_frame?_eq hchange.code_eq hchange.frame?_eq hx
    rw [← hframe, ← hcount]
    exact h.frames horiginal
  always := h.always

/-- Frames change, and keep one slot for each parameter. -/
lemma modifyFunction (f : Id .function) {change : CallFrame → CallFrame}
    (hchange : ∀ x, s.world.function? f = some x →
      (change x.frame).arguments.length = x.frame.arguments.length) :
    PassesCounts w₀ counts (s.withWorld (s.world.modifyFunction f fun function =>
      { function with frame := change function.frame })) where
  code := by
    refine Eq.trans ?_ h.code
    exact s.world.code_modifyFunction f fun _ => rfl
  functions := (Pool.size_update ..).trans h.functions
  sites := h.sites
  resolved := h.resolved
  frames {g x} hx := by
    rw [Recorded.world_withWorld] at hx
    rcases World.function?_modifyFunction_cases hx with ⟨rfl, original, horiginal, rfl⟩ | ⟨-, hx⟩
    · exact (hchange original horiginal).trans (h.frames horiginal)
    · exact h.frames hx
  always := h.always

/-- An activity begins whose arguments are as many as its function takes. -/
lemma began (a : Activity) (ha : (Coverage.counted w₀ counts).CoversActivity a) :
    PassesCounts w₀ counts ((s.withWorld (a.enter s.world)).write (.began a)) := by
  cases a with
  | script => exact h.write trivial
  | callback c args =>
    have hcode := (Activity.code_enter (.callback c args) s.world).trans h.code
    have hentered : PassesCounts w₀ counts
        (s.withWorld ((Activity.callback c args).enter s.world)) := { h with code := hcode }
    exact hentered.write trivial
  | function f site args =>
    have hcount : ∀ {x}, s.world.function? f = some x → args.length = x.frame.arguments.length := by
      intro x hx
      obtain ⟨original, horiginal, hcode⟩ := World.exists_function_of_code_eq h.code hx
      rw [h.frames hx, ← x.parameterCount_code, ← hcode, original.parameterCount_code]
      exact (ha original horiginal).symm
    have hentered : PassesCounts w₀ counts
        (s.withWorld ((Activity.function f site args).enter s.world)) :=
      h.modifyFunction f fun x hx => by
        rw [CallFrame.arguments_enter site (hcount hx), hcount hx]
    refine hentered.write fun x hx => ?_
    change (s.world.modifyFunction f _).function? f = some x at hx
    rw [World.function?_modifyFunction, if_pos rfl] at hx
    obtain ⟨original, horiginal, rfl⟩ := Option.map_eq_some_iff.1 hx
    have harguments := CallFrame.arguments_enter site (hcount horiginal)
    exact ⟨(hcount horiginal).trans (h.frames horiginal), harguments⟩

/-- An activity ends. -/
lemma ended (a : Activity) : PassesCounts w₀ counts (s.withWorld (a.leave s.world)) := by
  cases a with
  | script | callback c args => exact h
  | function f site args =>
    refine h.modifyFunction f fun x _ => ?_
    unfold CallFrame.leave
    split
    · exact List.length_replicate
    · rfl

/-- A call on an object that passes the right number of arguments is resolved. -/
lemma setResolution {site : Id .callSite} {resolution : Resolution}
    (hserves : w₀.Serves resolution.1 resolution.2.index (counts site)) :
    PassesCounts w₀ counts (s.withWorld (s.world.setResolution site resolution)) where
  code := (World.Change.resolution site resolution).code_eq.trans h.code
  functions := h.functions
  sites := (Pool.size_update ..).trans h.sites
  resolved hr := by
    rcases World.resolution?_setResolution hr with hold | ⟨rfl, rfl⟩
    · exact h.resolved hold
    · exact hserves
  frames := h.frames
  always := h.always

/-- A function of a native object is called with as many arguments as it takes. -/
lemma called {object : NativeRef} {index : ℕ} {args : List Value}
    (hserves : w₀.Serves object index args.length) :
    PassesCounts w₀ counts (s.write (.called object index args)) := by
  obtain ⟨function, hfunction, hcount⟩ := World.Serves.of_code_eq h.code.symm hserves
  refine h.write ⟨function, hfunction, hcount, ?_⟩
  unfold Host.ApiClass.call
  rw [hfunction]

/-- The code of a snippet runs on as many slots as it has arguments. -/
lemma ran {snippet : Snippet} {args : List Expr} {slots : List Value} {code : MachineCode}
    (hcall : w₀.Counts counts (.snippetCall snippet args)) (hslots : slots.length = args.length)
    (hcode : snippet.codeFor args.length = .ok code) :
    PassesCounts w₀ counts (s.write (.ran snippet slots)) := by
  obtain ⟨⟨compiler, d, rfl⟩, hcount⟩ := hcall
  obtain ⟨found, hcallable⟩ := Snippet.callable_of_codeFor hcode
  have hlength : slots.length = d.arguments.length := hslots.trans hcount
  refine h.write ⟨hlength, ?_⟩
  rw [hlength]
  exact (Snippet.count_of_callable hcallable).2

end Chronicled.PassesCounts

/-- What is claimed of numbers of arguments. -/
def Account.passesCounts (w₀ : World) (counts : Id .callSite → ℕ) : Account :=
  ⟨fun _ s => s.PassesCounts w₀ counts, .nothing⟩

/-- Each occurrence keeps what is claimed of numbers of arguments. -/
lemma Account.passesCounts_kept {w₀ : World} {counts : Id .callSite → ℕ} (h : w₀.Counted counts)
    (hnative : ∀ object, (w₀.apiClass object).Executes (Coverage.counted w₀ counts).CoversStmt) :
    (Account.passesCounts w₀ counts).Kept w₀ (Coverage.counted w₀ counts) w₀.Serves where
  closed := h.closed hnative
  code h := h.code
  acted {_ s _} k hk h := h.change (k.change s.world) (k.keeps_of_isOrdinary hk s.world).2
  evaluating _ h := h.write trivial
  began a ha h := h.began a ha
  ended a h := h.ended a
  refused hrecord hrefuses h :=
    h.write ⟨_, _, _, hrecord, rfl, hrefuses, hrefuses.compares⟩
  uncoded {_ s snippet args err} hcall hcallable hcode h := by
    obtain ⟨⟨compiler, d, rfl⟩, hcount⟩ := hcall
    obtain ⟨found, hcallable⟩ := hcallable
    rw [hcount] at hcode
    exact nomatch hcode.symm.trans (Snippet.codeFor_of_callable hcallable)
  ran hcall hslots hcode h := h.ran hcall hslots hcode
  bound hcall hcount := hcount ▸ hcall
  resolved h hcall hr := hcall.2 ▸ h.resolved hr
  found hcode hfound := (World.serves_of_findMethod hfound).of_code_eq hcode
  kept h hcall hserves := h.setResolution (hcall.2 ▸ hserves)
  called hserves h := h.called hserves
  returned _ h := h.write trivial
  entering _ _ h := h.write trivial
  crossed _ _ h := h.write trivial
  succeeded _ h := h.write trivial
  failed {v _ s err} _ h := by
    have hreported : Chronicled.PassesCounts w₀ counts
        (s.withWorld (s.world.report v.engine err)) := h.change (.report v.engine err) rfl
    exact hreported.write trivial
  located _ _ := trivial
  blamed _ _ _ := trivial

/-! ### Workshops -/

namespace Workshop

variable {s : Workshop} {counts : Id .callSite → ℕ}

/-- At the start of a run nothing has happened yet. -/
lemma Counted.start (h : s.Counted counts) :
    Chronicled.PassesCounts s.world counts ⟨s.world, []⟩ :=
  ⟨rfl, rfl, rfl, h.world.resolved, h.world.frames, trivial⟩

/-- At the end of a run all trees and bodies pass the right numbers of arguments as before. -/
lemma Counted.of_run (h : s.Counted counts) {u : Chronicled} (hu : u.PassesCounts s.world counts) :
    Counted ⟨u.world, s.trees⟩ counts := by
  have hextends : s.world.Extends u.world := by
    refine ⟨fun {i c} hi => ?_, Nat.le_of_eq hu.functions.symm, Nat.le_of_eq hu.sites.symm,
      fun {f x'} _ hx' => ?_⟩
    · have hnatives : u.world.natives = s.world.natives := congrArg Code.natives hu.code
      rwa [hnatives]
    · obtain ⟨x, hx, hcode⟩ := World.exists_function_of_code_eq hu.code hx'
      rw [← x'.parameterCount_code, ← hcode]
      exact ⟨x, hx, rfl⟩
  have hcovers : ∀ {t}, (Coverage.counted s.world counts).CoversTree t →
      (Coverage.counted u.world counts).CoversTree t := hextends.coversTree fun _ _ => rfl
  refine ⟨⟨fun {f x' body} hx' hbody => ?_, fun {c x' body} hx' hbody => ?_, fun hr => ?_, hu.frames,
    fun {i c} hi => ?_⟩, fun t ht => hcovers (h.trees t ht)⟩
  · obtain ⟨x, hx, hcode⟩ := World.exists_function_of_code_eq hu.code hx'
    rw [← x'.body_code, ← hcode] at hbody
    exact hcovers (t := .stmt body) (h.world.function hx hbody)
  · obtain ⟨x, hx, hcode⟩ := World.exists_callback_of_code_eq hu.code hx'
    rw [← x'.body_code, ← hcode] at hbody
    exact hcovers (t := .stmt body) (h.world.callback hx hbody)
  · exact hextends.serves (hu.resolved hr)
  · have hnatives : u.world.natives = s.world.natives := congrArg Code.natives hu.code
    rw [hnatives] at hi
    exact h.world.classes hi

/-- In an entry, calls pass the right numbers of arguments. -/
lemma Counted.enter (h : s.Counted counts) (hhosts : s.HostsExecuteBuilt) (bound : ℕ)
    (e : Id .engine) {entry : Entry} (hentry : s.Offers entry) :
    ((Evaluator.chronicled bound).visit e entry ⟨s.world, []⟩).Recounts
      (Account.passesCounts s.world counts).holds Blame.nothing.holds [] Pairing.Anything
      ((Evaluator.shared bound).enter e entry s.world) := by
  have hkept := Account.passesCounts_kept h.world (hhosts.covers h.trees)
  have hcovers : (Coverage.counted s.world counts).CoversEntry entry := by
    cases entry with
    | execute script => exact h.trees _ (hentry script rfl)
    | call name args | invoke name args => trivial
  exact hkept.visit (hkept.trees bound).2 e entry hcovers _ h.start

/-- In the evaluation of a tree, calls pass the right numbers of arguments. -/
lemma Counted.evaluate (h : s.Counted counts) (hhosts : s.HostsExecuteBuilt) (bound : ℕ)
    (scope : Scope) {t : Tree} (ht : t ∈ s.trees) :
    ((Evaluator.chronicled bound).evaluateTree scope t ⟨s.world, []⟩).Recounts
      (Account.passesCounts s.world counts).holds Blame.nothing.holds [] Pairing.Anything
      ((Evaluator.shared bound).evaluateTree scope t s.world) :=
  (Account.passesCounts_kept h.world (hhosts.covers h.trees)).evaluateTree bound scope
    (h.trees t ht) _ h.start

/-- Each step of a front end or a host builds what passes the right numbers of arguments, and leaves
the rest as it is. -/
lemma Counted.step (h : s.Counted counts) {s' : Workshop} (hstep : s.Step s') :
    ∃ counts', s'.Counted counts' := by
  cases hstep with
  | compose hcall hparts => exact ⟨counts, h.cons (h.compose hcall hparts)⟩
  | relocate l ht => exact ⟨counts, h.cons (Coverage.coversTree_atLocation (h.trees _ ht) l)⟩
  | bind e hb huses => exact ⟨_, h.bind e hb huses⟩
  | addNative hc => exact ⟨counts, h.arrange (.addNative _) hc⟩
  | newEngine config shared => exact ⟨counts, h.arrange (.newEngine config shared) trivial⟩
  | dropEngine e => exact ⟨counts, h.arrange (.dropEngine e) trivial⟩
  | comment f text => exact ⟨counts, h.arrange (.comment f text) trivial⟩
  | drainReports e => exact ⟨counts, h.arrange (.drainReports e) trivial⟩
  | change hchange hsites => exact ⟨counts, h.grow_world (.of_change hchange hsites)⟩
  | enter bound e hentry hhosts hfinished =>
    obtain ⟨u, hu, hstate⟩ := (h.enter hhosts bound e hentry).exists_of_finished hfinished
    rw [hstate]
    exact ⟨counts, h.of_run hu⟩
  | evaluate bound scope ht hhosts hfinished =>
    obtain ⟨u, hu, hstate⟩ := (h.evaluate hhosts bound scope ht).exists_of_finished hfinished
    rw [hstate]
    exact ⟨counts, h.of_run hu⟩

/-- All trees and bodies of a workshop that comes about pass the right numbers of arguments. -/
theorem Reachable.exists_counted (h : s.Reachable) : ∃ counts, s.Counted counts := by
  induction h with
  | refl => exact ⟨fun _ => 0, counted_empty⟩
  | tail _ hstep ih =>
    obtain ⟨counts, hcounted⟩ := ih
    exact hcounted.step hstep

end Workshop

/-- What front ends have built passes as many arguments in each call as what is called was declared
with, in all runs, and a call that is refused for its number of arguments is refused before anything
is done for it. -/
theorem calls_pass_declared_counts {s : Workshop} (hs : s.Reachable) (hhosts : s.HostsExecuteBuilt)
    (bound : ℕ) :
    (∀ e entry, s.Offers entry →
      let o := (Evaluator.chronicled bound).visit e entry ⟨s.world, []⟩
      o.mapState (·.world) = (Evaluator.shared bound).enter e entry s.world ∧
        o.state.record.Always Occasion.PassesCount) ∧
    (∀ scope, ∀ t ∈ s.trees,
      let o := (Evaluator.chronicled bound).evaluateTree scope t ⟨s.world, []⟩
      o.mapState (·.world) = (Evaluator.shared bound).evaluateTree scope t s.world ∧
        o.state.record.Always Occasion.PassesCount) ∧
    (∀ object, (s.world.apiClass object).InRange) ∧
    ∀ {α : Type} (k : Command α) w w' err, k.run w = .failed err w' →
      err.cause.IsArityMismatch → k.Compares := by
  obtain ⟨counts, h⟩ := hs.exists_counted
  refine ⟨fun e entry hentry => ?_, fun scope t ht => ?_, fun object => ?_, fun k w w' err herr => ?_⟩
  · have hrun := h.enter hhosts bound e hentry
    obtain ⟨c, hc⟩ := hrun.exists_state
    exact ⟨hrun.mapState_eq, hc.always⟩
  · have hrun := h.evaluate hhosts bound scope ht
    obtain ⟨c, hc⟩ := hrun.exists_state
    exact ⟨hrun.mapState_eq, hc.always⟩
  · unfold World.apiClass
    cases hobject : s.world.natives.get? object.id with
    | none => exact (Host.ApiClass.Built.named _).inRange
    | some c => exact h.world.classes hobject
  · obtain ⟨cause, rfl, hcause⟩ := k.failsBy w err w' herr
    exact hcause

/-! ### A call that is built and run -/

namespace Passing

/-- The engine. -/
def engine : Id .engine := ⟨0⟩

/-- The function `f(x)`. -/
def function : Id .function := ⟨0⟩

/-- The parameter `x` of the function. -/
def parameter : Expr :=
  .unlocated (.var (.parameter function 0 .empty))

/-- The body `return x`. -/
def body : Stmt :=
  .unlocated (.returnValue (some parameter))

/-- The argument. -/
def argument : Expr :=
  .unlocated (.literal (.bool true))

variable (w : World)

/-- The function has been defined. -/
def defined : World :=
  Binding.run engine w (.defineFunction "f" ["x"])

/-- The function has got its body. -/
def attached : World :=
  Binding.run engine (defined w) (.attachBody function body)

/-- The call `f(true)`, as it is bound. -/
def call : Expr :=
  .unlocated (.call function (((attached w).function? function).getD default).nextCallSite [argument])

/-- The script `return f(true)`. -/
def script : Stmt :=
  .unlocated (.returnValue (some (call w)))

/-- The workshop in which the script has been built. -/
def workshop : Workshop where
  world := Binding.run engine (attached w) (.bindCall function [argument] .unknown)
  trees := [.stmt (script w), .expr (call w), .expr argument, .stmt body, .expr parameter]

variable {w}

/-- The function is there, and takes one argument. -/
lemma exists_function (hw : w.functions = .empty) :
    ∃ x, (attached w).function? function = some x ∧ x.parameterCount = 1 := by
  have hdefined : ∃ n m, (defined w).functions = (w.functions.add (.define n "f" [m] ["x"])).2 :=
    ⟨_, _, rfl⟩
  obtain ⟨n, m, hdefined⟩ := hdefined
  rw [hw] at hdefined
  change ∃ x, ((defined w).functions.update function _).get? function = some x ∧ _
  rw [Pool.get?_update_self, hdefined]
  exact ⟨_, rfl, rfl⟩

/-- The call is bound. -/
lemma built_call (hw : w.functions = .empty) :
    Binding.built engine (attached w) (.bindCall function [argument] .unknown) =
      [.expr (call w)] := by
  obtain ⟨x, hx, hcount⟩ := exists_function hw
  have hlength : [argument].length =
      (((attached w).function? function).getD default).parameterCount := by
    rw [hx]
    exact hcount.symm
  change Tree.bound ((attached w).bindCall engine function [argument] .unknown).1 = _
  unfold World.bindCall
  dsimp only
  rw [if_neg (not_not_intro hlength)]
  rfl

/-- The script is built step by step. -/
lemma reachable (hw : w.functions = .empty) (hreachable : Workshop.Reachable ⟨w, []⟩) :
    (workshop w).Reachable := by
  have hdefined : Workshop.Reachable ⟨defined w, []⟩ :=
    hreachable.tail (.bind engine (b := .defineFunction "f" ["x"]) trivial fun _ ht => nomatch ht)
  have hbody : Workshop.Reachable ⟨defined w, [.stmt body, .expr parameter]⟩ := by
    have hparameter := hdefined.tail (.compose (t := .expr parameter) rfl fun _ hu => nomatch hu)
    exact hparameter.tail (.compose (t := .stmt body) rfl fun _ hu => hu)
  have hargument : Workshop.Reachable
      ⟨attached w, [.expr argument, .stmt body, .expr parameter]⟩ := by
    have hattached : Workshop.Reachable ⟨attached w, [.stmt body, .expr parameter]⟩ := by
      refine hbody.tail (.bind engine (b := .attachBody function body) trivial fun t ht => ?_)
      exact List.mem_cons.2 (.inl (List.mem_singleton.1 ht))
    exact hattached.tail (.compose (t := .expr argument) rfl fun _ hu => nomatch hu)
  have hcall : Workshop.Reachable ⟨(workshop w).world,
      [.expr (call w), .expr argument, .stmt body, .expr parameter]⟩ := by
    obtain ⟨x, hx, -⟩ := exists_function hw
    have hstep := Workshop.Step.bind (s := ⟨attached w, [.expr argument, .stmt body, .expr parameter]⟩)
      engine (b := .bindCall function [argument] .unknown) (Option.isSome_of_eq_some hx) fun t ht =>
        List.mem_cons.2 (.inl (List.mem_singleton.1 ht))
    rw [built_call hw] at hstep
    exact hargument.tail hstep
  exact hcall.tail (.compose (t := .stmt (script w)) rfl fun u hu =>
    List.mem_cons.2 (.inl (List.mem_singleton.1 hu)))

/-- The script is built on a new engine. -/
lemma reachable_newEngine (config : EngineConfig) (shared : Option (Id .interner)) :
    (workshop (World.empty.newEngine config shared).2).Reachable :=
  reachable (World.same_newEngine _ config shared).1 (.single (.newEngine config shared))

/-- Classes whose functions never enter an engine again. -/
def outside : Supply where
  native c := ∀ f ∈ c.functions, ∀ args, (f.body args).StaysOutside
  body _ := True
  memory _ _ := True
  console := Host.consoleClass_staysOutside
  math := Host.mathClass_staysOutside

/-- The host functions of the new engine execute nothing. -/
lemma hostsExecuteBuilt (config : EngineConfig) (shared : Option (Id .interner)) :
    (workshop (World.empty.newEngine config shared).2).HostsExecuteBuilt := by
  let w := (World.empty.newEngine config shared).2
  have hnew : World.empty.Edits outside w := (Arrangement.newEngine config shared).edits trivial .empty
  have hdefined : w.Edits outside (defined w) :=
    .bind engine (b := .defineFunction "f" ["x"]) trivial w
  have hattached : (defined w).Edits outside (attached w) :=
    .bind (S := outside) engine (b := .attachBody function body) trivial (defined w)
  have hcall : (attached w).Edits outside (workshop w).world :=
    .bind engine (b := .bindCall function [argument] .unknown) trivial (attached w)
  have hempty : ∀ i c, World.empty.natives.get? i = some c → outside.native c :=
    fun i c hc => absurd (Pool.index_lt_of_get? hc) (Nat.not_lt_zero _)
  intro object
  refine Host.ApiClass.executes_of_functions fun f hf args => ?_
  unfold World.apiClass at hf
  cases hc : (workshop w).world.natives.get? object.id with
  | none =>
    rw [hc] at hf
    exact absurd hf (Array.not_mem_empty f)
  | some c =>
    rw [hc] at hf
    have hedits := hnew.trans (hdefined.trans (hattached.trans hcall))
    exact (World.Edits.native hedits hempty hc f hf args).executes

/-- The script is one of those that the host can execute. -/
lemma offers (w : World) : (workshop w).Offers (.execute (script w)) := by
  rintro _ hscript
  obtain rfl := Entry.execute.inj hscript
  exact List.mem_cons_self

end Passing

/-- A call that was bound hands over its argument, which the function returns. -/
theorem bound_call_passes_argument :
    let w := (World.empty.newEngine {} none).2
    (Passing.workshop w).Reachable ∧ (Passing.workshop w).HostsExecuteBuilt ∧
      ((Evaluator.shared 5).enter Passing.engine (.execute (Passing.script w))
        (Passing.workshop w).world).value? = some (.bool true) ∧
      ((Evaluator.chronicled 5).visit Passing.engine (.execute (Passing.script w))
        ⟨(Passing.workshop w).world, []⟩).state.record.Always Occasion.PassesCount := by
  have hreachable := Passing.reachable_newEngine {} none
  have hhosts := Passing.hostsExecuteBuilt {} none
  have hvalue : ((Evaluator.shared 5).enter Passing.engine
      (.execute (Passing.script (World.empty.newEngine {} none).2))
      (Passing.workshop (World.empty.newEngine {} none).2).world).value? = some (.bool true) := by
    decide +kernel
  refine ⟨hreachable, hhosts, hvalue, ?_⟩
  exact ((calls_pass_declared_counts hreachable hhosts 5).1 _ _ (Passing.offers _)).2

end ScriptEngine
