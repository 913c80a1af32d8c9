import ScriptEngine.Binding
import ScriptEngine.Proofs.Invariant

/-!
# The frames of functions that run

A function has one call frame for all of its invocations.  The frame counts the invocations that are
running, and it holds the arguments and the call site of the one that *began* last, whether or not
that one is still running; when none runs, it is cleared.

What runs and what began last is read off the history.  Each event keeps the correspondence between
frames and history, for all functions at once, so that it holds at every moment of every series of
entries: inside of nested calls, inside of entries that a host function makes, and after errors.

Calls have to pass as many arguments as the function takes.  Trees are bound that way, and the host is
checked at each entry.

Main statement: `frames_follow_history`.
-/

namespace ScriptEngine

/-! ### Invocations in a history -/

/-- The call site and the arguments, if the activity is an invocation of `f`. -/
def Activity.invocation? (f : Id .function) : Activity → Option (CallSiteId × List Value)
  | .function g site args => if g = f then some (site, args) else none
  | .script | .callback _ _ => none

/-- Only an invocation of `f` has a call site and arguments for `f`. -/
lemma Activity.eq_of_invocation? {f : Id .function} {a : Activity}
    {invocation : CallSiteId × List Value} (h : a.invocation? f = some invocation) :
    ∃ site args, a = .function f site args := by
  cases a with
  | script | callback c args => exact absurd h (by simp [invocation?])
  | function g site args =>
    by_cases hgf : g = f
    · exact ⟨site, args, by rw [hgf]⟩
    · simp [invocation?, hgf] at h

namespace History

/-- The invocations of `f` that are running, innermost first. -/
def running (f : Id .function) (h : History) : List (CallSiteId × List Value) :=
  (openActivities h).filterMap (Activity.invocation? f)

/-- The invocation of `f` that began last. -/
def latest? (f : Id .function) : History → Option (CallSiteId × List Value)
  | [] => none
  | ⟨.began a, _⟩ :: past => (a.invocation? f).or (latest? f past)
  | ⟨.ended _, _⟩ :: past | ⟨.acted, _⟩ :: past | ⟨.read _ _, _⟩ :: past | ⟨.marked _, _⟩ :: past =>
    latest? f past

variable {f : Id .function} {past : History}

/-- An invocation that begins runs. -/
lemma running_began (a : Activity) (w : World) :
    running f (⟨.began a, w⟩ :: past) = (a.invocation? f).toList ++ running f past := by
  unfold running
  rw [openActivities, List.filterMap_cons]
  cases a.invocation? f <;> rfl

/-- The invocations that were running before the innermost activity ended. -/
lemma Nested.running_ended {c : List Activity} {a : Activity} (h : Nested past (a :: c)) (w : World) :
    running f past = (a.invocation? f).toList ++ running f (⟨.ended a, w⟩ :: past) := by
  unfold running
  rw [openActivities, h.openActivities_eq, List.tail_cons, List.filterMap_cons]
  cases a.invocation? f <;> rfl

end History

/-! ### Frames -/

/-- As many arguments as there are slots take the places of all that were there. -/
lemma CallFrame.arguments_enter {frame : CallFrame} (site : CallSiteId) {args : List Value}
    (h : args.length = frame.arguments.length) : (frame.enter site args).arguments = args := by
  unfold enter
  rw [← h, List.take_length, h, List.drop_length, List.append_nil]

/-- The frame of a function with `parameters` parameters, of which `running` invocations run and
`latest` began last. -/
structure CallFrame.Tracks (frame : CallFrame) (parameters running : ℕ)
    (latest : Option (CallSiteId × List Value)) : Prop where
  /-- The frame counts the invocations that run. -/
  depth : frame.depth = running
  /-- There is a slot for each parameter. -/
  slots : frame.arguments.length = parameters
  /-- There is an active call as long as an invocation runs. -/
  active : frame.activeCall.isSome ↔ 0 < frame.depth
  /-- While the function runs, the frame holds the invocation that began last. -/
  current : 0 < running →
    ∃ site, frame.activeCall = some site ∧ latest = some (site, frame.arguments)
  /-- While the function does not run, all slots are cleared. -/
  cleared : running = 0 → ∀ v ∈ frame.arguments, v = .undefined

namespace CallFrame.Tracks

variable {frame : CallFrame} {parameters running : ℕ} {latest : Option (CallSiteId × List Value)}

/-- The frame of a function that does not run is idle. -/
lemma eq_idle (h : frame.Tracks parameters 0 latest) : frame = .idle parameters := by
  obtain ⟨arguments, activeCall, depth⟩ := frame
  have hdepth : depth = 0 := h.depth
  have harguments : arguments = List.replicate parameters .undefined :=
    List.eq_replicate_iff.2 ⟨h.slots, h.cleared rfl⟩
  have hactive : activeCall = none := by
    cases activeCall with
    | none => rfl
    | some site =>
      have hpos := h.active.1 rfl
      rw [h.depth] at hpos
      exact absurd hpos (Nat.lt_irrefl 0)
  rw [hdepth, harguments, hactive, idle]

/-- An idle frame is the frame of a function that does not run. -/
lemma of_idle (parameters : ℕ) (latest : Option (CallSiteId × List Value)) :
    (CallFrame.idle parameters).Tracks parameters 0 latest where
  depth := rfl
  slots := List.length_replicate
  active := by simp [idle]
  current h := absurd h (Nat.lt_irrefl 0)
  cleared _ _ hv := List.eq_of_mem_replicate hv

/-- An invocation begins. -/
lemma enter (h : frame.Tracks parameters running latest) (site : CallSiteId) {args : List Value}
    (hargs : args.length = parameters) :
    (frame.enter site args).Tracks parameters (running + 1) (some (site, args)) := by
  have harguments : (frame.enter site args).arguments = args :=
    CallFrame.arguments_enter site (hargs.trans h.slots.symm)
  refine ⟨congrArg (· + 1) h.depth, ?_, ?_, fun _ => ⟨site, rfl, ?_⟩, fun hzero => ?_⟩
  · rw [harguments, hargs]
  · exact ⟨fun _ => Nat.succ_pos _, fun _ => rfl⟩
  · rw [harguments]
  · exact absurd hzero (Nat.succ_ne_zero _)

/-- An invocation ends. -/
lemma leave (h : frame.Tracks parameters (running + 1) latest) :
    frame.leave.Tracks parameters running latest := by
  by_cases hlast : running = 0
  · have hdepth : frame.depth ≤ 1 := by
      have hcount := h.depth
      omega
    rw [CallFrame.leave, if_pos hdepth, h.slots, hlast]
    exact of_idle parameters latest
  · have hdepth : ¬frame.depth ≤ 1 := by
      rw [h.depth]
      omega
    obtain ⟨site, hsite, hlatest⟩ := h.current (Nat.succ_pos _)
    rw [CallFrame.leave, if_neg hdepth]
    refine ⟨?_, h.slots, ?_, fun _ => ⟨site, hsite, hlatest⟩, fun hzero => absurd hzero hlast⟩
    · change frame.depth - 1 = running
      rw [h.depth, Nat.add_sub_cancel]
    · change frame.activeCall.isSome ↔ 0 < frame.depth - 1
      rw [hsite, h.depth, Nat.add_sub_cancel]
      exact ⟨fun _ => Nat.pos_of_ne_zero hlast, fun _ => rfl⟩

end CallFrame.Tracks

namespace World

/-- All frames are as the history says. -/
def FramesTrack (w : World) (h : History) : Prop :=
  ∀ f function, w.function? f = some function →
    function.frame.Tracks function.parameterCount (History.running f h).length (History.latest? f h)

/-- No function runs. -/
def Idle (w : World) : Prop :=
  ∀ f function, w.function? f = some function →
    function.frame = .idle function.parameterCount

variable {w w' : World} {h h' : History}

/-- A function of one world is there in each world with the same code and frames, with its frame. -/
lemma exists_function_of_frame?_eq (hcode : w'.code = w.code) (hframe : w'.frame? = w.frame?)
    {f : Id .function} {function' : FunctionInstance} (hf' : w'.function? f = some function') :
    ∃ function, w.function? f = some function ∧ function.frame = function'.frame ∧
      function.parameterCount = function'.parameterCount := by
  obtain ⟨function, hf, hfunction⟩ := exists_function_of_code_eq hcode hf'
  have hsame : some function'.frame = some function.frame := by
    have hf'' := congrFun hframe f
    rwa [frame?, frame?, hf, hf', Option.map_some, Option.map_some] at hf''
  refine ⟨function, hf, (Option.some.inj hsame).symm, ?_⟩
  rw [← function.parameterCount_code, hfunction, function'.parameterCount_code]

/-- Frames do not tell worlds apart that differ elsewhere, nor histories with the same
invocations. -/
lemma FramesTrack.of_same (hw : w.FramesTrack h) (hcode : w'.code = w.code)
    (hframe : w'.frame? = w.frame?) (hrunning : ∀ f, History.running f h' = History.running f h)
    (hlatest : ∀ f, History.latest? f h' = History.latest? f h) : w'.FramesTrack h' := by
  intro f function' hf'
  obtain ⟨function, hf, hsame, hcount⟩ := exists_function_of_frame?_eq hcode hframe hf'
  rw [← hsame, ← hcount, hrunning f, hlatest f]
  exact hw f function hf

/-- Where no function runs, all frames are as the history says if nothing has happened. -/
lemma Idle.framesTrack (hw : w.Idle) : w.FramesTrack [] := by
  intro f function hf
  rw [hw f function hf]
  exact CallFrame.Tracks.of_idle _ _

/-- Where nothing is open, no function runs. -/
lemma FramesTrack.idle (hw : w.FramesTrack h) (hopen : History.openActivities h = []) :
    w.Idle := by
  intro f function hf
  have htracks := hw f function hf
  rw [History.running, hopen, List.filterMap_nil, List.length_nil] at htracks
  exact htracks.eq_idle

/-- An activity begins, and the frame of its function goes with it. -/
lemma FramesTrack.enter (hw : w.FramesTrack h) (a : Activity)
    (ha : ∀ f site args, a = .function f site args →
      ∀ function, w.function? f = some function → function.parameterCount = args.length) :
    (a.enter w).FramesTrack (⟨.began a, a.enter w⟩ :: h) := by
  cases a with
  | script => exact hw.of_same rfl rfl (fun _ => rfl) fun _ => rfl
  | callback c args =>
    exact hw.of_same (Activity.code_enter _ w) rfl (fun _ => rfl) fun _ => rfl
  | function g site args =>
    intro f function' hf'
    rw [History.running_began, History.latest?]
    rcases function?_modifyFunction_cases hf' with ⟨rfl, function, hf, rfl⟩ | ⟨hgf, hf⟩
    · have hargs := (ha g site args rfl function hf).symm
      rw [Activity.invocation?, if_pos rfl, Option.toList_some, List.singleton_append,
        List.length_cons, Option.some_or]
      exact (hw g function hf).enter site hargs
    · rw [Activity.invocation?, if_neg hgf, Option.toList_none, List.nil_append, Option.none_or]
      exact hw f function' hf

/-- An activity ends, and the frame of its function goes with it. -/
lemma FramesTrack.leave (hw : w.FramesTrack h) {a : Activity} {c : List Activity}
    (hnested : History.Nested h (a :: c)) :
    (a.leave w).FramesTrack (⟨.ended a, a.leave w⟩ :: h) := by
  have hrunning : ∀ f, History.running f h = (a.invocation? f).toList ++
      History.running f (⟨.ended a, a.leave w⟩ :: h) := fun f => hnested.running_ended _
  cases a with
  | script | callback c args =>
    exact hw.of_same rfl rfl (fun f => (hrunning f).symm) fun _ => rfl
  | function g site args =>
    intro f function' hf'
    have hrunning := hrunning f
    rw [History.latest?]
    rcases function?_modifyFunction_cases hf' with ⟨rfl, function, hf, rfl⟩ | ⟨hgf, hf⟩
    · have htracks := hw g function hf
      rw [hrunning, Activity.invocation?, if_pos rfl, Option.toList_some, List.singleton_append,
        List.length_cons] at htracks
      exact htracks.leave
    · rw [Activity.invocation?, if_neg hgf, Option.toList_none, List.nil_append] at hrunning
      rw [← hrunning]
      exact hw f function' hf

end World

/-! ### Trees that are bound -/

/-- A function of `w` takes that many arguments, if it is there. -/
def World.Takes (w : World) (f : Id .function) (n : ℕ) : Prop :=
  ∀ function, w.function? f = some function → function.parameterCount = n

/-- What is bound to the functions of `w`: each call passes as many arguments as its function
takes. -/
def Coverage.boundTo (w : World) : Coverage where
  expression
    | .call f _ args => w.Takes f args.length
    | _ => True
  statement _ := True
  fits := w.Takes
  reaches _ := True
  performs _ := True
  reaches_top _ := trivial
  fits_of_call h := h
  performs_cons _ _ := trivial

/-- All bodies are bound, and all scripts that host functions execute. -/
structure World.WellBound (w : World) : Prop where
  function : ∀ {f function body}, w.function? f = some function → function.body = some body →
    (Coverage.boundTo w).CoversStmt body
  callback : ∀ {c callback body}, w.callback? c = some callback → callback.body = some body →
    (Coverage.boundTo w).CoversStmt body
  native : ∀ object, (w.apiClass object).Executes (Coverage.boundTo w).CoversStmt

/-- From bound trees one gets to bound bodies only. -/
lemma World.WellBound.closed {w : World} (h : w.WellBound) : (Coverage.boundTo w).Closed w where
  function := h.function
  callback := h.callback
  native := h.native
  fits f function hf := by rw [hf, Option.getD_some]
  reaches _ _ _ := trivial

/-- Worlds with the same code are bound alike. -/
lemma Coverage.boundTo_eq_of_code_eq {w w' : World} (h : w'.code = w.code) :
    Coverage.boundTo w' = Coverage.boundTo w := by
  have htakes : w'.Takes = w.Takes := by
    funext f n
    refine propext ⟨fun ht function hf => ?_, fun ht function hf => ?_⟩
    · obtain ⟨function', hf', heq⟩ := World.exists_function_of_code_eq h.symm hf
      rw [← function.parameterCount_code, ← heq, function'.parameterCount_code]
      exact ht function' hf'
    · obtain ⟨function', hf', heq⟩ := World.exists_function_of_code_eq h hf
      rw [← function.parameterCount_code, ← heq, function'.parameterCount_code]
      exact ht function' hf'
  simp only [Coverage.boundTo, htakes]

/-- Worlds with the same code have bodies that are bound alike. -/
lemma World.WellBound.of_code_eq {w w' : World} (h : w.WellBound) (hcode : w'.code = w.code) :
    w'.WellBound := by
  have hclosed := h.closed.of_code_eq hcode
  rw [← Coverage.boundTo_eq_of_code_eq hcode] at hclosed
  exact ⟨hclosed.function, hclosed.callback, hclosed.native⟩

/-! ### Whole evaluations -/

/-- Frames and history correspond, now and at each moment so far. -/
structure Traced.FramesFollow (w₀ : World) (c : List Activity) (s : Traced) : Prop where
  code : s.world.code = w₀.code
  nested : History.Nested s.record c
  frames : s.world.FramesTrack s.record
  always : History.Always (fun moment h => moment.world.FramesTrack h) s.record

namespace Traced.FramesFollow

variable {w₀ w : World} {c d : List Activity} {s : Traced}

/-- The correspondence after an event for which the frames are as they should be. -/
lemma log (h : FramesFollow w₀ c s) {event : Event} (hcode : w.code = s.world.code)
    (hnested : History.Nested (⟨event, w⟩ :: s.record) d)
    (hframes : w.FramesTrack (⟨event, w⟩ :: s.record)) : FramesFollow w₀ d (s.log event w) where
  code := hcode.trans h.code
  nested := hnested
  frames := hframes
  always := h.always.cons hframes

/-- Each event keeps frames and history in correspondence. -/
lemma kept (hbound : w₀.WellBound) :
    Traced.Kept w₀ (Coverage.boundTo w₀) (FramesFollow w₀) where
  closed := hbound.closed
  code h := h.code
  acted h hchange := by
    refine h.log hchange.code_eq (.acted _ h.nested) ?_
    exact h.frames.of_same hchange.code_eq hchange.frame?_eq (fun _ => rfl) fun _ => rfl
  began a ha h := by
    refine h.log (a.code_enter _) (.began a _ h.nested) (h.frames.enter a ?_)
    rintro f site args rfl function hf
    obtain ⟨original, horiginal, heq⟩ := World.exists_function_of_code_eq h.code hf
    rw [← function.parameterCount_code, ← heq, original.parameterCount_code]
    exact ha original horiginal
  ended a h := h.log (a.code_leave _) (.ended a _ h.nested) (h.frames.leave h.nested)
  read f i h :=
    h.log rfl (.read f i _ h.nested) (h.frames.of_same rfl rfl (fun _ => rfl) fun _ => rfl)
  evaluating e _ h :=
    h.log rfl (.marked _ _ h.nested) (h.frames.of_same rfl rfl (fun _ => rfl) fun _ => rfl)
  marked mark _ _ h :=
    h.log rfl (.marked mark _ h.nested) (h.frames.of_same rfl rfl (fun _ => rfl) fun _ => rfl)

/-- Before the first entry the history is empty. -/
lemma start (hidle : w₀.Idle) : FramesFollow w₀ [] ⟨w₀, []⟩ where
  code := rfl
  nested := .nil
  frames := hidle.framesTrack
  always := .nil _

end Traced.FramesFollow

/-! ### Parameters -/

/-- A read of a parameter fails while the function does not run. -/
lemma World.FramesTrack.parameter_fails {w : World} {h : History} (hw : w.FramesTrack h)
    {f : Id .function} {function : FunctionInstance} (hf : w.function? f = some function)
    (hrunning : History.running f h = []) (scope : Scope) (i : ℕ) (n : Name) :
    Machine.shared.get scope (.parameter f i n) w =
      .failed (.of (.parameterOutsideCall (w.lookup scope.engine n))) w := by
  have htracks := hw f function hf
  rw [hrunning, List.length_nil] at htracks
  have hargument : Machine.shared.argument? f i w = .done none w := by
    change Outcome.done ((w.function? f).bind (·.frame.argument? i)) w = _
    rw [hf, Option.bind_some, htracks.eq_idle]
    rfl
  have hrequire : Machine.shared.exec (.requireFunction scope (.parameter f i n) f) w =
      .done () w := by
    simp [Machine.shared, Command.run, VarRef.functionOf, Action.bind_apply, Action.state, hf]
  rw [Machine.get, Action.bind_apply, hrequire]
  dsimp only
  rw [Action.bind_apply, hargument]
  rfl

/-! ### A function that calls itself -/

namespace SelfCalling

/-- The function, which is the first one of its world. -/
def function : Id .function := ⟨0⟩

/-- The parameter `x` of the function. -/
def parameter : Expr := .unlocated (.var (.parameter function 0 .empty))

/-- A call of the function with a truth value. -/
def call (b : Bool) : Expr :=
  .unlocated (.call function .first [.unlocated (.literal (.bool b))])

/-- The body `return x ? f(false) : x`. -/
def body : Stmt :=
  .unlocated (.returnValue (some (.unlocated (.conditional parameter (call false) parameter))))

/-- The script `return f(true)`. -/
def script : Stmt := .unlocated (.returnValue (some (call true)))

/-- One engine, in which calls may nest twice, and the function. -/
def world : World :=
  { World.empty with
    functions := (Pool.empty.add
      { FunctionInstance.define .empty "f" [.empty] ["x"] with body := some body }).2
    engines := (Pool.empty.add { (default : Engine) with maxCallDepth := 2 }).2 }

/-- There is one function. -/
lemma eq_of_function? {f : Id .function} {x : FunctionInstance} (h : world.function? f = some x) :
    x = { FunctionInstance.define .empty "f" [.empty] ["x"] with body := some body } :=
  Pool.eq_of_get?_add_empty h

/-- There is no callback. -/
lemma callback?_eq_none (c : Id .callback) : world.callback? c = none :=
  Pool.get?_empty c

/-- The function does not run. -/
lemma idle : world.Idle := by
  intro f x hx
  rw [eq_of_function? hx]
  rfl

/-- The parameter has no calls in it. -/
lemma parameter_bound (w : World) : (Coverage.boundTo w).Covers parameter :=
  .intro trivial fun _ ha => absurd ha List.not_mem_nil

/-- The call passes one argument. -/
lemma call_bound {w : World} (hw : ∀ x, w.function? function = some x → x.parameterCount = 1)
    (b : Bool) : (Coverage.boundTo w).Covers (call b) := by
  refine .intro hw fun a ha => ?_
  obtain rfl : a = .unlocated (.literal (.bool b)) := List.mem_singleton.1 ha
  exact .intro trivial fun a ha => absurd ha List.not_mem_nil

/-- A script that returns what the call gives is bound. -/
lemma returnCall_bound {w : World} (hw : ∀ x, w.function? function = some x → x.parameterCount = 1)
    (b : Bool) : (Coverage.boundTo w).CoversStmt (.unlocated (.returnValue (some (call b)))) := by
  refine .intro trivial (fun e he => ?_) fun s hs => absurd hs List.not_mem_nil
  obtain rfl : e = call b := List.mem_singleton.1 he
  exact call_bound hw b

/-- The function has one parameter. -/
lemma parameterCount {x : FunctionInstance} (hx : world.function? function = some x) :
    x.parameterCount = 1 := by
  rw [eq_of_function? hx]
  rfl

/-- The script is bound. -/
lemma script_bound : (Coverage.boundTo world).CoversStmt script :=
  returnCall_bound (fun _ => parameterCount) true

/-- The body is bound. -/
lemma wellBound : world.WellBound where
  function {f x s} hx hs := by
    rw [eq_of_function? hx] at hs
    obtain rfl : body = s := Option.some.inj hs
    refine .intro trivial (fun e he => ?_) fun t ht => absurd ht List.not_mem_nil
    obtain rfl : e = .unlocated (.conditional parameter (call false) parameter) :=
      List.mem_singleton.1 he
    refine .intro trivial fun a ha => ?_
    obtain rfl | rfl | rfl : a = parameter ∨ a = call false ∨ a = parameter := by
      simpa [Expr.unlocated, Expr.node, ExprNode.parts] using ha
    · exact parameter_bound world
    · exact call_bound (fun _ => parameterCount) false
    · exact parameter_bound world
  callback {c x s} hx _ := by
    rw [callback?_eq_none c] at hx
    exact absurd hx (by simp)
  native _ _ _ := trivial

end SelfCalling

/-! ### The correspondence -/

/-- The frames of all functions follow the history of every series of entries.  At each moment, a
frame counts the invocations that run and holds the arguments and the call site of the one that
began last; while none runs, the frame is cleared and its parameters cannot be read.  After each
series of entries that ends, no function runs.  The history itself makes no difference to the
engine. -/
theorem frames_follow_history (bound : ℕ) (entries : List (Id .engine × Entry)) {w : World}
    (hidle : w.Idle) (hbound : w.WellBound)
    (hentries : ∀ x ∈ entries, (Coverage.boundTo w).CoversEntry x.2) :
    let o := (Evaluator.within .traced bound).enterAll entries ⟨w, []⟩
    o.mapState (·.world) = (Evaluator.shared bound).enterAll entries w ∧
    History.Always (fun moment h => moment.world.FramesTrack h) o.state.record ∧
    History.Always (fun moment h => ∀ f function, moment.world.function? f = some function →
      History.running f h = [] → ∀ scope i n,
        Machine.shared.get scope (.parameter f i n) moment.world =
          .failed (.of (.parameterOutsideCall (moment.world.lookup scope.engine n))) moment.world)
      o.state.record ∧
    (o.Finished → o.state.world.Idle ∧ o.state.world.WellBound) := by
  intro o
  have hall : ∀ x ∈ entries, Coverage.all.CoversEntry x.2 :=
    fun x _ => Coverage.coversEntry_all x.2
  have herase := (Evaluator.traced_simulates bound).enterAll [] hall
  have hkept := (Traced.FramesFollow.kept hbound).simulates bound
  have hkeeps := (hkept.enterAll [] hentries).keeps (Traced.FramesFollow.start hidle)
  obtain ⟨c, hfollow⟩ := hkeeps.exists_state
  refine ⟨herase.erases ⟨w, []⟩, hfollow.always, ?_, fun hfinished => ?_⟩
  · intro moment past hsuffix f function hf hrunning scope i n
    exact (hfollow.always moment past hsuffix).parameter_fails hf hrunning scope i n
  · have hend := hkeeps.state_of_finished hfinished
    exact ⟨hend.frames.idle hend.nested.openActivities_eq, hbound.of_code_eq hend.code⟩

namespace ReenteredScript

/-- The class `C` with a function `rerun`, which enters the engine again by the script
`return f(false)`. -/
def rerunning : Host.ApiClass :=
  (Host.ApiClass.named "C").addFunction .empty 0 fun _ =>
    .execute (.unlocated (.returnValue (some (SelfCalling.call false)))) .finish

/-- The expression `C.rerun()`. -/
def rerun : Expr := .unlocated (.apiCall ⟨⟨0⟩, "C"⟩ .empty ⟨0, 0⟩ [])

/-- The body `return x ? C.rerun() : x`. -/
def body : Stmt :=
  .unlocated (.returnValue (some
    (.unlocated (.conditional SelfCalling.parameter rerun SelfCalling.parameter))))

/-- One engine, a function `f` of this body, and the class. -/
def world : World :=
  { SelfCalling.world with
    natives := (Pool.empty.add rerunning).2
    functions := (Pool.empty.add
      { FunctionInstance.define .empty "f" [.empty] ["x"] with body := some body }).2 }

/-- There is one function. -/
lemma eq_of_function? {f : Id .function} {x : FunctionInstance} (h : world.function? f = some x) :
    x = { FunctionInstance.define .empty "f" [.empty] ["x"] with body := some body } :=
  Pool.eq_of_get?_add_empty h

/-- The function does not run. -/
lemma idle : world.Idle := by
  intro f x hx
  rw [eq_of_function? hx]
  rfl

/-- The function has one parameter. -/
lemma parameterCount {x : FunctionInstance}
    (hx : world.function? SelfCalling.function = some x) : x.parameterCount = 1 := by
  rw [eq_of_function? hx]
  rfl

/-- The body and the script that the host function executes are bound. -/
lemma wellBound : world.WellBound where
  function {f x s} hx hs := by
    rw [eq_of_function? hx] at hs
    obtain rfl : body = s := Option.some.inj hs
    refine .intro trivial (fun e he => ?_) fun t ht => absurd ht List.not_mem_nil
    obtain rfl : e = .unlocated (.conditional SelfCalling.parameter rerun SelfCalling.parameter) :=
      List.mem_singleton.1 he
    refine .intro trivial fun a ha => ?_
    obtain rfl | rfl | rfl :
        a = SelfCalling.parameter ∨ a = rerun ∨ a = SelfCalling.parameter := by
      simpa [Expr.unlocated, Expr.node, ExprNode.parts] using ha
    · exact SelfCalling.parameter_bound world
    · exact .intro trivial fun a ha => absurd ha List.not_mem_nil
    · exact SelfCalling.parameter_bound world
  callback {c x s} hx _ := by
    rw [show world.callback? c = none from SelfCalling.callback?_eq_none c] at hx
    exact absurd hx (by simp)
  native object := by
    have hrerunning : rerunning.Executes (Coverage.boundTo world).CoversStmt := by
      refine Host.ApiClass.executes_of_functions fun f hf args => ?_
      obtain rfl := Array.mem_singleton.1 hf
      exact ⟨SelfCalling.returnCall_bound (fun _ => parameterCount) false, fun _ => trivial⟩
    obtain ⟨⟨_ | n⟩, className⟩ := object
    · exact hrerunning
    · exact Host.ApiClass.executes_of_functions fun f hf => absurd hf (Array.not_mem_empty f)

end ReenteredScript

/-- While a function runs, a host function that it calls enters the engine again by a script, which
calls the function once more.  The frame of the function follows the history all the time, and the
function does not run afterwards. -/
theorem reentering_idle_afterwards :
    let o := (Evaluator.within .traced 10).enterAll [(⟨0⟩, .execute SelfCalling.script)]
      ⟨ReenteredScript.world, []⟩
    (∃ past, past <:+ o.state.record ∧ History.openActivities past =
      [.function SelfCalling.function .first [.bool false], .script,
        .function SelfCalling.function .first [.bool true], .script]) ∧
    o.Finished ∧ o.state.world.Idle ∧
    History.Always (fun moment h => moment.world.FramesTrack h) o.state.record := by
  intro o
  have hentries : ∀ x ∈ [((⟨0⟩ : Id .engine), Entry.execute SelfCalling.script)],
      (Coverage.boundTo ReenteredScript.world).CoversEntry x.2 := by
    intro x hx
    obtain rfl := List.mem_singleton.1 hx
    exact SelfCalling.returnCall_bound (fun _ => ReenteredScript.parameterCount) true
  have hfollow := frames_follow_history 10 _ ReenteredScript.idle ReenteredScript.wellBound hentries
  have hfinished : o.Finished := by decide +kernel
  exact ⟨⟨o.state.record.drop 20, List.drop_suffix _ _, by decide +kernel⟩, hfinished,
    (hfollow.2.2.2 hfinished).1, hfollow.2.1⟩

end ScriptEngine
