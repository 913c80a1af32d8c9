import ScriptEngine.Proofs.Frames
import ScriptEngine.Proofs.LoopFree
import ScriptEngine.Proofs.Pairing
import ScriptEngine.Proofs.Refusals
import ScriptEngine.Proofs.Veils

/-!
# Calls by the host and calls in a script

The host may call a function by its name, or it may execute a script that returns what a call of the
function gives.  The two ways differ in two things: in the call site that the frame of the function tells
from then on, and in the context that the host gives to an error.  A script cannot look at call sites.
A host function can; if none does, then both ways do the same.

The two evaluations go on side by side, in worlds in which the function may tell different call sites.
The function is entered and left together in both worlds, so that its frame is cleared in both at the
same time.  A cleared frame tells no call site, and is the same again in both worlds.

Main statement: `host_call_agrees_with_script`.
-/

namespace ScriptEngine

open Simulation (Anything Matches upTo_tied)

/-! ### Host functions that do not look at call sites -/

/-- The program does the same whatever call site it is shown. -/
def Host.Program.IgnoresSites : Host.Program → Prop
  | finish _ => True
  | read next => ∀ m, (next m).IgnoresSites
  | write _ next => next.IgnoresSites
  | allocate _ next => ∀ v, (next v).IgnoresSites
  | display _ next => ∀ text, (next text).IgnoresSites
  | execute _ next | callFunction _ _ next | invokeCallback _ _ next =>
    ∀ result, (next result).IgnoresSites
  | inspectFrame _ next =>
    (∀ view view', view.map CallFrame.unsited = view'.map CallFrame.unsited →
      next view = next view') ∧
    ∀ view, (next view).IgnoresSites

/-- A program that keeps to the memory is shown no call sites. -/
lemma Host.Program.StaysOutside.ignoresSites {program : Host.Program} (h : program.StaysOutside) :
    program.IgnoresSites := by
  induction program with
  | finish result => trivial
  | write change next ih => exact ih h
  | read next ih | allocate make next ih | display v next ih => exact fun x => ih x (h x)
  | execute | callFunction | invokeCallback | inspectFrame => exact h.elim

/-- No host function of the world looks at call sites. -/
def World.HostsIgnoreSites (w : World) : Prop :=
  ∀ object index args, ((w.apiClass object).call index args).IgnoresSites

/-- No host function looks at call sites if none of those does that the classes of the world
have. -/
lemma World.hostsIgnoreSites_of_forall {w : World}
    (h : ∀ i c, w.natives.get? i = some c → ∀ f ∈ c.functions, ∀ args, (f.body args).IgnoresSites) :
    w.HostsIgnoreSites := by
  intro object index args
  have hclass : ∀ f ∈ (w.apiClass object).functions, ∀ args, (f.body args).IgnoresSites := by
    unfold apiClass
    cases hc : w.natives.get? object.id with
    | none => exact fun f hf => absurd hf (Array.not_mem_empty f)
    | some c => exact h object.id c hc
  unfold Host.ApiClass.call
  cases hfunction : (w.apiClass object).functions[index]? with
  | none => trivial
  | some f => exact hclass f (Array.mem_of_getElem? hfunction) args

/-- The class `Console` does not look at call sites. -/
theorem Host.consoleClass_ignoresSites (m : Memory) (i : Id .interner) (p : Id .printer) :
    ∀ f ∈ (consoleClass m i p).1.functions, ∀ args, (f.body args).IgnoresSites :=
  fun f hf args => (consoleClass_staysOutside m i p f hf args).ignoresSites

/-- The class `Math` does not look at call sites. -/
theorem Host.mathClass_ignoresSites (m : Memory) (i : Id .interner) :
    ∀ f ∈ (mathClass m i).1.functions, ∀ args, (f.body args).IgnoresSites :=
  fun f hf args => (mathClass_staysOutside m i f hf args).ignoresSites

/-! ### A world that does not tell call sites -/

/-- The world in which a function does not tell call sites. -/
def World.unsited (f : Id .function) (w : World) : World :=
  w.modifyFunction f FunctionInstance.unsited

@[simp] lemma CallFrame.unsited_unsited (frame : CallFrame) :
    frame.unsited.unsited = frame.unsited := by
  unfold unsited
  rw [Option.map_map]
  rfl

@[simp] lemma FunctionInstance.unsited_unsited (x : FunctionInstance) :
    x.unsited.unsited = x.unsited := by
  unfold unsited
  rw [CallFrame.unsited_unsited]

/-- An invocation that ends clears the frame whatever call site it tells. -/
lemma CallFrame.leave_unsited (frame : CallFrame) :
    frame.unsited.leave.unsited = frame.leave.unsited := by
  by_cases hlast : frame.depth ≤ 1
  · have hlast' : frame.unsited.depth ≤ 1 := hlast
    rw [leave, leave, if_pos hlast, if_pos hlast']
    rfl
  · have hlast' : ¬frame.unsited.depth ≤ 1 := hlast
    rw [leave, leave, if_neg hlast, if_neg hlast']
    unfold unsited
    rw [Option.map_map]
    rfl

namespace World

variable (f : Id .function)

/-- Nothing but a host function takes notice of call sites. -/
lemma veil_unsited : Veil (World.unsited f) :=
  .modifyFunction f FunctionInstance.unsited_unsited (fun _ _ _ => rfl) fun _ _ => rfl

/-- A command takes no notice of call sites, unless it shows a frame to a host function. -/
lemma unaffected_unsited {α : Type} {k : Command α} (hinspects : ¬k.Inspects) :
    k.run.Unaffected (World.unsited f) := by
  by_cases hdeeper : k.GoesDeeper
  · cases k with
    | deeper scope => exact Veil.unaffected_deeper (f := World.unsited f) (fun _ _ => rfl) scope
    | _ => exact hdeeper.elim
  · exact (veil_unsited f).unaffected hdeeper hinspects

/-- Call sites are of no account to a change that does the same whatever they are. -/
lemma unsited_modifyFunction (g : Id .function) {change change' : FunctionInstance → FunctionInstance}
    (hself : f = g → ∀ x, (change' x.unsited).unsited = (change x).unsited)
    (hother : f ≠ g → change' = change) (w : World) :
    ((w.unsited f).modifyFunction g change').unsited f = (w.modifyFunction g change).unsited f :=
  congrArg (fun functions => { w with functions })
    (w.functions.update_absorb f g FunctionInstance.unsited_unsited hself hother)

/-- A change of call sites is of no account. -/
lemma unsited_modifyFunction_self {change : FunctionInstance → FunctionInstance}
    (h : ∀ x, (change x).unsited = x.unsited) (w : World) :
    (w.modifyFunction f change).unsited f = w.unsited f :=
  congrArg (fun functions => { w with functions }) (w.functions.update_update f h)

/-- A world that does not tell call sites does not tell them. -/
@[simp] lemma unsited_unsited (w : World) : (w.unsited f).unsited f = w.unsited f :=
  unsited_modifyFunction_self f FunctionInstance.unsited_unsited w

/-- The call site of an invocation is of no account, nor are earlier ones. -/
lemma unsited_invoke (site site' : CallSiteId) (args : List Value) (w : World) :
    ((Activity.function f site' args).enter (w.unsited f)).unsited f =
      ((Activity.function f site args).enter w).unsited f := by
  refine unsited_modifyFunction f f ?_ (fun hne => absurd rfl hne) w
  exact fun _ _ => rfl

/-- Call sites are of no account when an activity begins. -/
lemma unsited_enter (a : Activity) (w : World) :
    (a.enter (w.unsited f)).unsited f = (a.enter w).unsited f := by
  cases a with
  | script => exact w.unsited_unsited f
  | callback c args => exact (w.modifyCallback c (·.enter args)).unsited_unsited f
  | function g site args =>
    refine unsited_modifyFunction f g ?_ (fun _ => rfl) w
    exact fun _ _ => rfl

/-- Call sites are of no account when an activity ends. -/
lemma unsited_leave (a : Activity) (w : World) :
    (a.leave (w.unsited f)).unsited f = (a.leave w).unsited f := by
  cases a with
  | script | callback c args => exact w.unsited_unsited f
  | function g site args =>
    refine unsited_modifyFunction f g (fun _ x => ?_) (fun _ => rfl) w
    change ({ x with frame := x.frame.unsited.leave, nextCallSite := .first } :
        FunctionInstance).unsited = ({ x with frame := x.frame.leave } : FunctionInstance).unsited
    unfold FunctionInstance.unsited
    rw [x.frame.leave_unsited]

end World

/-! ### Two worlds side by side -/

/-- The frames of a function in two worlds, which may tell different call sites while it runs.
There were `base` invocations running when the worlds parted, and there are `count` more now. -/
structure CallFrame.Beside (base count : ℕ) (x y : CallFrame) : Prop where
  unsited : x.unsited = y.unsited
  depth : x.depth = base + count
  same : x.depth = 0 → x = y

namespace CallFrame.Beside

variable {base count : ℕ} {x y : CallFrame}

/-- An invocation begins in both worlds. -/
lemma enter (h : Beside base count x y) (site site' : CallSiteId) (args : List Value) :
    Beside base (count + 1) (x.enter site args) (y.enter site' args) where
  unsited := by
    have harguments : x.arguments = y.arguments := (congrArg CallFrame.arguments h.unsited :)
    have hdepth : x.depth = y.depth := (congrArg CallFrame.depth h.unsited :)
    unfold CallFrame.enter CallFrame.unsited
    rw [harguments, hdepth]
    rfl
  depth := congrArg (· + 1) h.depth
  same hidle := nomatch hidle

/-- An invocation ends in both worlds. -/
lemma leave (h : Beside base (count + 1) x y) : Beside base count x.leave y.leave := by
  have harguments : x.arguments = y.arguments := (congrArg CallFrame.arguments h.unsited :)
  have hdepth : x.depth = y.depth := (congrArg CallFrame.depth h.unsited :)
  have hcount := h.depth
  refine ⟨?_, ?_, fun hidle => ?_⟩
  · rw [← x.leave_unsited, h.unsited, y.leave_unsited]
  · unfold CallFrame.leave
    split
    · change 0 = base + count
      omega
    · change x.depth - 1 = base + count
      omega
  · unfold CallFrame.leave at hidle ⊢
    split at hidle
    · rename_i hlast
      -- both frames are cleared, and only the number of arguments is left of them
      rw [if_pos hlast, if_pos (hdepth ▸ hlast), harguments]
    · change x.depth - 1 = 0 at hidle
      omega

end CallFrame.Beside

/-- How many of the activities are invocations of `f`. -/
def Activity.invocations (f : Id .function) (c : List Activity) : ℕ :=
  (c.filterMap (Activity.invocation? f)).length

/-- An invocation of `f` is one more. -/
lemma Activity.invocations_cons_self (f : Id .function) (site : CallSiteId) (args : List Value)
    (c : List Activity) :
    invocations f (.function f site args :: c) = invocations f c + 1 := by
  unfold invocations
  rw [List.filterMap_cons, invocation?, if_pos rfl, List.length_cons]

/-- An invocation of another function is none of `f`. -/
lemma Activity.invocations_cons_of_ne {f g : Id .function} (h : g ≠ f) (site : CallSiteId)
    (args : List Value) (c : List Activity) :
    invocations f (.function g site args :: c) = invocations f c := by
  unfold invocations
  rw [List.filterMap_cons, invocation?, if_neg h]

/-- Two worlds, the first one with the code of `w₀`, in which the frames of a function are side by
side while the activities are open. -/
structure World.Beside (w₀ : World) (f : Id .function) (base : ℕ) (c : List Activity)
    (s t : World) : Prop where
  code : s.code = w₀.code
  frame : Option.Rel (CallFrame.Beside base (Activity.invocations f c)) (s.frame? f) (t.frame? f)

namespace World.Beside

variable {w₀ s t : World} {f : Id .function} {base : ℕ} {c : List Activity}
  (h : w₀.Beside f base c s t)

include h

/-- Commands that are carried out in both worlds. -/
lemma command {s' t' : World} (hs : s.Change s') (ht : t.Change t') : w₀.Beside f base c s' t' where
  code := hs.code_eq.trans h.code
  frame := by
    rw [hs.frame?_eq, ht.frame?_eq]
    exact h.frame

/-- The function is invoked in both worlds. -/
lemma invoke (site site' : CallSiteId) (args : List Value) :
    w₀.Beside f base (.function f site args :: c) ((Activity.function f site args).enter s)
      ((Activity.function f site' args).enter t) := by
  refine ⟨(Activity.code_enter _ s).trans h.code, ?_⟩
  unfold Activity.enter
  rw [frame?_modifyFrame, frame?_modifyFrame, if_pos rfl, if_pos rfl, Activity.invocations_cons_self]
  have hframe := h.frame
  generalize s.frame? f = x, t.frame? f = y at hframe
  cases hframe with
  | none => exact .none
  | some hxy => exact .some (hxy.enter site site' args)

/-- An activity that begins in both worlds. -/
lemma enter (a : Activity) : w₀.Beside f base (a :: c) (a.enter s) (a.enter t) := by
  cases a with
  | script => exact ⟨h.code, h.frame⟩
  | callback d args => exact ⟨(Activity.code_enter _ s).trans h.code, h.frame⟩
  | function g site args =>
    by_cases hgf : g = f
    · subst hgf
      exact h.invoke site site args
    · refine ⟨(Activity.code_enter _ s).trans h.code, ?_⟩
      unfold Activity.enter
      rw [frame?_modifyFrame, frame?_modifyFrame, if_neg hgf, if_neg hgf,
        Activity.invocations_cons_of_ne hgf]
      exact h.frame

omit h in
/-- An activity that ends in both worlds. -/
lemma leave {a : Activity} (h : w₀.Beside f base (a :: c) s t) :
    w₀.Beside f base c (a.leave s) (a.leave t) := by
  refine ⟨(a.code_leave s).trans h.code, ?_⟩
  have hframe := h.frame
  cases a with
  | script | callback d args => exact hframe
  | function g site args =>
    unfold Activity.leave
    rw [frame?_modifyFrame, frame?_modifyFrame]
    by_cases hgf : g = f
    · subst hgf
      rw [if_pos rfl, if_pos rfl]
      rw [Activity.invocations_cons_self] at hframe
      generalize s.frame? g = x, t.frame? g = y at hframe
      cases hframe with
      | none => exact .none
      | some hxy => exact .some hxy.leave
    · rw [if_neg hgf, if_neg hgf]
      rwa [Activity.invocations_cons_of_ne hgf] at hframe

end World.Beside

/-! ### Evaluations side by side -/

/-- A world and one in which a function may tell other call sites. -/
def Simulation.upToSites (w₀ : World) (f : Id .function) (base : ℕ) : Simulation World World :=
  upTo (World.unsited f) (w₀.Beside f base)

namespace Simulation

variable {w₀ s : World} {t : Option World} {f : Id .function} {base : ℕ} {c : List Activity} {α : Type}

/-- A command does the same in both worlds, unless it shows a frame to a host function. -/
lemma upToSites_command {k : Command α} (hinspects : ¬k.Inspects) :
    (upToSites w₀ f base).Matches c Anything k.run k.run :=
  Matches.of_unaffected (World.unaffected_unsited f hinspects) fun s t h =>
    h.command (k.change s) (k.change t)

/-- An activity begins in both worlds. -/
lemma upToSites_enter (a : Activity) (h : (upToSites w₀ f base).Tied c s t) :
    (upToSites w₀ f base).Tied (a :: c) (a.enter s) (t.map a.enter) := by
  refine upTo_tied h fun t hst hbeside => ⟨?_, hbeside.enter a⟩
  rw [← World.unsited_enter, hst, World.unsited_enter]

/-- The function is invoked in both worlds. -/
lemma upToSites_invoke (site site' : CallSiteId) (args : List Value)
    (h : (upToSites w₀ f base).Tied c s t) :
    (upToSites w₀ f base).Tied (.function f site args :: c)
      ((Activity.function f site args).enter s) (t.map (Activity.function f site' args).enter) := by
  refine upTo_tied h fun t hst hbeside => ⟨?_, hbeside.invoke site site' args⟩
  rw [← World.unsited_invoke f site site', hst, World.unsited_invoke]

/-- An activity ends in both worlds. -/
lemma upToSites_leave {a : Activity} (h : (upToSites w₀ f base).Tied (a :: c) s t) :
    (upToSites w₀ f base).Tied c (a.leave s) (t.map a.leave) := by
  refine upTo_tied h fun t hst hbeside => ⟨?_, hbeside.leave⟩
  rw [← World.unsited_leave, hst, World.unsited_leave]

end Simulation

namespace Pairing

variable (w₀ : World) (f : Id .function) (base : ℕ)

/-- Actions that do the same in worlds in which a function may tell different call sites, whatever
activities are open. -/
def besides : Pairing World World :=
  (Simulation.upToSites w₀ f base).pairingThroughout

/-- A command does the same in both worlds, unless it shows a frame to a host function. -/
lemma besides_command {α : Type} {k : Command α} (hinspects : ¬k.Inspects) :
    (besides w₀ f base).Pairs Anything k.run k.run :=
  fun _ => Simulation.upToSites_command hinspects

/-- The single steps of the engine are the same in both worlds. -/
lemma besides_steps : (besides w₀ f base).Steps .all .shared .shared where
  closed := Vocabulary.closed_all
  exec {α} k hk := by
    have hinspects : ¬k.Inspects := by
      cases k with
      | inspectFrame d name => exact hk.elim
      | _ => exact not_false
    exact mono (besides_command w₀ f base hinspects) fun a _ => Vocabulary.yields_all k a
  argument {g i _} _ c := by
    have hargument : (Simulation.upToSites w₀ f base).Matches c Anything
        (Machine.shared.argument? g i) (Machine.shared.argument? g i) :=
      Matches.of_unaffected ((World.veil_unsited f).unaffected_argument? g i) fun _ _ h => h
    exact hargument.mono fun _ _ _ _ => trivial
  note _ _ := Matches.of_unaffected (fun _ => rfl) fun _ _ h => h
  during {a} _ x y hxy c :=
    Matches.during (fun _ _ => Simulation.upToSites_enter a) (fun _ _ => Simulation.upToSites_leave)
      (hxy (a :: c))
  locate l _ _ _ _ hxy c := (hxy c).mapError _

/-- An error is reported in both worlds. -/
lemma besides_reported {bound : ℕ} {e : Id .engine} {x y : Action World Value}
    (hxy : (besides w₀ f base).Pairs Anything x y) :
    (besides w₀ f base).Pairs Anything ((Evaluator.shared bound).reported e x)
      ((Evaluator.shared bound).reported e y) :=
  fun c => Evaluator.reported_matches
    (fun err => besides_command w₀ f base (k := .report e err) not_false c) (hxy c)

variable {w₀ f base}

/-- A host function that does not look at call sites does the same in both worlds, if bodies do. -/
lemma besides_runHost {bound : ℕ} (hperform : (besides w₀ f base).Performs .all .shared .shared bound)
    (e : Id .engine) {program : Host.Program} (hprogram : program.IgnoresSites) :
    (besides w₀ f base).Pairs Anything ((Evaluator.shared bound).runHost e program)
      ((Evaluator.shared bound).runHost e program) := by
  have hcommand : ∀ {β : Type} (k : Command β), ¬k.Inspects →
      (besides w₀ f base).Pairs Anything k.run k.run := fun _ => besides_command w₀ f base
  -- an entry that the function makes needs bodies within the same bound only
  have henters : Evaluator.EntersBy (besides w₀ f base) .all (.shared bound) (.shared bound) :=
    (besides_steps w₀ f base).entersBy hperform (fun _ => besides_reported w₀ f base)
      fun _ _ _ hxy c => (hxy c).mapError _
  induction program with
  | finish result => exact fun c => Matches.ofResult result
  | read next ih =>
    exact (besides w₀ f base).bind (hcommand .memory not_false) fun m _ => ih m (hprogram m)
  | write change next ih =>
    exact (besides w₀ f base).bind (hcommand (.modifyMemory change) not_false) fun _ _ =>
      ih hprogram
  | allocate make next ih =>
    exact (besides w₀ f base).bind (hcommand (.allocate make) not_false) fun v _ =>
      ih v (hprogram v)
  | display v next ih =>
    exact (besides w₀ f base).bind (hcommand (.display v) not_false) fun text _ =>
      ih text (hprogram text)
  | execute script next ih =>
    intro c
    have hexecute := henters.enter (e := e) trivial (Vocabulary.enters_all (.execute script)) c
    exact hexecute.attempt.bind fun result _ => ih result (hprogram result) c
  | callFunction name args next ih =>
    intro c
    have hcall := henters.enter (e := e) trivial (Vocabulary.enters_all (.call name args)) c
    exact hcall.attempt.bind fun result _ => ih result (hprogram result) c
  | invokeCallback name args next ih =>
    intro c
    have hinvoke := henters.enter (e := e) trivial (Vocabulary.enters_all (.invoke name args)) c
    exact hinvoke.attempt.bind fun result _ => ih result (hprogram result) c
  | inspectFrame name next ih =>
    refine fun c => Matches.of_agrees (fun s t hst => ?_) fun _ hlost => hlost.elim
    have hview : (s.frameView e name).map (·.unsited) = (t.frameView e name).map (·.unsited) := by
      rw [← (World.veil_unsited f).frameView s, hst.1, (World.veil_unsited f).frameView t]
    change (Simulation.upToSites w₀ f base).Agrees c Anything
      ((Evaluator.shared bound).runHost e (next (s.frameView e name)) s)
      (some ((Evaluator.shared bound).runHost e (next (t.frameView e name)) t))
    -- the two frames may differ in their call sites, and then the program goes on alike
    rw [← hprogram.1 _ _ hview]
    exact ih _ (hprogram.2 _) c s (some t) hst

/-- The engine does the same in both worlds, if no host function looks at call sites. -/
theorem besides_runs (hhosts : w₀.HostsIgnoreSites) :
    (besides w₀ f base).Runs .all .shared .shared where
  toSteps := besides_steps w₀ f base
  host bound hperform {scope object args} index _ _ _ := by
    have hclass : (besides w₀ f base).Pairs (fun c => c = w₀.apiClass object)
        (Command.apiClass object).run (Command.apiClass object).run := by
      refine fun c => Matches.of_agrees (fun s t hst => ?_) fun _ hlost => hlost.elim
      have hs : s.apiClass object = w₀.apiClass object :=
        World.apiClass_eq_of_code_eq hst.2.code object
      have ht : t.apiClass object = s.apiClass object := by
        rw [← (World.veil_unsited f).apiClass t, ← hst.1, (World.veil_unsited f).apiClass s]
      exact ⟨hs, .inr ⟨t, congrArg (fun found => some (Outcome.done found t)) ht, hst⟩⟩
    refine (besides w₀ f base).bind hclass fun c hc => ?_
    rw [hc]
    exact besides_runHost hperform scope.engine (hhosts object index args)

/-- An invocation of the function does the same from both call sites. -/
theorem besides_invokeFunction (hhosts : w₀.HostsIgnoreSites) (bound : ℕ) (scope : Scope)
    (site site' : CallSiteId) (args : List Value) :
    (besides w₀ f base).Pairs Anything ((Evaluator.shared bound).invokeFunction scope f site args)
      ((Evaluator.shared bound).invokeFunction scope f site' args) := by
  have hcommand : ∀ {β : Type} (k : Command β), ¬k.Inspects →
      (besides w₀ f base).Pairs Anything k.run k.run := fun _ => besides_command w₀ f base
  have hperform : (besides w₀ f base).Performs .all .shared .shared bound :=
    ((besides_runs hhosts).trees bound).2
  refine (besides w₀ f base).bind (hcommand (.deeper scope) not_false) fun inner _ => ?_
  refine (besides w₀ f base).bind (hcommand (.functionBody f) not_false) fun body _ => ?_
  have hbody : (besides w₀ f base).Pairs Anything ((Evaluator.shared bound).runBody inner body)
      ((Evaluator.shared bound).runBody inner body) :=
    Steps.runBody hperform trivial fun _ _ => trivial
  have hduring : (besides w₀ f base).Pairs Anything
      (Machine.shared.during (.function f site args) ((Evaluator.shared bound).runBody inner body))
      (Machine.shared.during (.function f site' args)
        ((Evaluator.shared bound).runBody inner body)) :=
    fun c => Matches.during (fun _ _ => Simulation.upToSites_invoke site site' args)
      (fun _ _ => Simulation.upToSites_leave) (hbody _)
  exact (besides w₀ f base).bind hduring fun v _ =>
    (besides w₀ f base).bind (hcommand (.keepResult f v) not_false) fun _ _ =>
      (besides w₀ f base).pure trivial

end Pairing

/-! ### A script that calls a function -/

/-- A node without a place in the script claims no errors. -/
lemma Action.locate_unknown {σ α : Type} (x : Action σ α) : x.locate .unknown = x := by
  funext s
  unfold Action.locate Action.mapError
  cases x s <;> rfl

/-- A script does nothing when it begins or ends. -/
lemma Machine.during_script {α : Type} (x : Action World α) : shared.during .script x = x := by
  funext w
  change x.ensuring id w = x w
  unfold Action.ensuring
  cases x w <;> rfl

/-- A `return` without a place gives the value of its expression. -/
lemma Evaluator.run_returnValue (bound : ℕ) (scope : Scope) (e : Expr) :
    (Evaluator.shared (bound + 1)).run scope (.unlocated (.returnValue (some e))) =
      ScriptEngine.evaluate .shared bound scope e := by
  have hpeel : Activation.peel
      ((Evaluator.shared bound).performNode scope (.returnValue (some e))) .undefined =
        ScriptEngine.evaluate .shared bound scope e >>= fun v => pure (.returning, v) := by
    change Activation.peel (Activation.within (ScriptEngine.evaluate .shared bound scope e) >>= _)
      .undefined = _
    rw [Activation.peel_bind, Activation.peel_within, Action.bind_assoc]
    rfl
  rw [run_eq_peel]
  change Activation.peel (ScriptEngine.perform .shared (bound + 1) scope _) .undefined >>= _ = _
  rw [peel_perform_succ]
  change (Activation.peel ((Evaluator.shared bound).performNode scope (.returnValue (some e)))
    .undefined).locate .unknown >>= _ = _
  rw [Action.locate_unknown, hpeel, Action.bind_assoc]
  exact Action.bind_pure _

/-- Values, as literals without a place. -/
def Expr.literals (values : List Value) : List Expr :=
  values.map fun v => .unlocated (.literal v)

/-- Literals are their values. -/
lemma Evaluator.evaluateAll_literals (bound : ℕ) (scope : Scope) (values : List Value) :
    (Evaluator.shared (bound + 1)).evaluateAll scope (Expr.literals values) = pure values := by
  induction values with
  | nil => rfl
  | cons v rest ih =>
    change (Action.locate .unknown (pure v) >>= fun u =>
      (Evaluator.shared (bound + 1)).evaluateAll scope (Expr.literals rest) >>= fun us =>
        pure (u :: us)) = _
    rw [ih]
    rfl

/-- A call without a place that passes literals is an invocation with the values. -/
lemma evaluate_call_literals (bound : ℕ) (scope : Scope) (f : Id .function) (site : CallSiteId)
    (values : List Value) :
    evaluate .shared (bound + 2) scope (.unlocated (.call f site (Expr.literals values))) =
      (Evaluator.shared (bound + 1)).invokeFunction scope f site values := by
  rw [evaluate_succ]
  change ((Evaluator.shared (bound + 1)).evaluateAll scope _ >>= fun vs =>
    (Evaluator.shared (bound + 1)).invokeFunction scope f site vs).locate .unknown = _
  rw [Action.locate_unknown, Evaluator.evaluateAll_literals]
  rfl

/-- A script that returns what a call of a function gives invokes the function. -/
lemma Evaluator.execute_call_literals (bound : ℕ) (e : Id .engine) (f : Id .function)
    (site : CallSiteId) (values : List Value) :
    (Evaluator.shared (bound + 3)).execute e (.unlocated (.returnValue (some
        (.unlocated (.call f site (Expr.literals values)))))) =
      (Evaluator.shared (bound + 3)).reported e
        ((Evaluator.shared (bound + 1)).invokeFunction (.top e) f site values) := by
  have hrun := Evaluator.run_returnValue (bound + 2) (.top e)
    (.unlocated (.call f site (Expr.literals values)))
  unfold Evaluator.execute
  change (Evaluator.shared (bound + 3)).reported e (Machine.shared.during .script _) = _
  rw [Machine.during_script, hrun, evaluate_call_literals]

/-- What follows an action with another error. -/
lemma Action.follow_mapError {σ τ α β : Type} (x : Action σ α) (change : EvalError → EvalError)
    (k : α → σ → Outcome τ β) (g : EvalError → σ → Outcome τ β) (up : σ → τ) (s : σ) :
    (x.mapError change s).follow k g up = (x s).follow k (fun err => g (change err)) up := by
  unfold Action.mapError
  cases x s <;> rfl

/-- A call by the host invokes the function that it finds, and names it as the context of an error,
which is reported. -/
lemma Evaluator.callNamed_apply (bound : ℕ) {e : Id .engine} {name : String} {f : Id .function}
    {function : FunctionInstance} {values : List Value} {w : World}
    (hname : w.functionNamed? e name = some f) (hf : w.function? f = some function)
    (hcount : values.length = function.parameterCount) :
    (Evaluator.shared bound).callNamed e name values w =
      ((Evaluator.shared bound).invokeFunction (.top e) f .host values w).follow .done
        (fun err u => .failed (err.withContext function.signature)
          (u.report e (err.withContext function.signature))) id := by
  have hfind : (Evaluator.shared bound).machine.exec (.findFunction e name values.length) w =
      .done (f, function.signature) w := by
    rcases Command.run_findFunction w e name values.length with
      ⟨hnone, -⟩ | ⟨g, hg, ⟨hne, -⟩ | ⟨-, hrun⟩⟩
    · rw [hname] at hnone
      exact nomatch hnone
    · obtain rfl : f = g := Option.some.inj (hname.symm.trans hg)
      rw [hf] at hne
      exact absurd hcount.symm hne
    · obtain rfl : f = g := Option.some.inj (hname.symm.trans hg)
      rw [hf] at hrun
      exact hrun
  unfold Evaluator.callNamed
  rw [shared_reported_apply rfl, Action.bind_apply, hfind]
  exact Action.follow_mapError _ _ _ _ _ w

/-! ### The two ways to call a function -/

/-- The function does not run. -/
def World.Rests (w : World) (f : Id .function) : Prop :=
  ∀ frame, w.frame? f = some frame → frame.depth = 0

/-- The worlds are the same, but if the function ran in `w` already, its frame may tell different
call sites.  How many calls of the function have been built does not count. -/
structure World.SameButSites (w : World) (f : Id .function) (u u' : World) : Prop where
  unsited : u.unsited f = u'.unsited f
  frame : w.Rests f → u.frame? f = u'.frame? f

/-- Two outcomes are the same but for call sites, for the context that the first one gives to an
error, and for the report of that error. -/
def Outcome.Answers (w : World) (e : Id .engine) (f : Id .function) (signature : String) :
    Outcome World Value → Outcome World Value → Prop
  | .done v u, .done v' u' => v = v' ∧ w.SameButSites f u u'
  | .failed err u, .failed err' u' => err'.InContext signature err ∧
    ∃ s s', w.SameButSites f s s' ∧ u = s.report e err ∧ u' = s'.report e err'
  | .unfinished u, .unfinished u' => u.unsited f = u'.unsited f
  | _, _ => False

/-- Of two outcomes that answer each other, both are ends or none is. -/
lemma Outcome.Answers.finished_iff {w : World} {e : Id .engine} {f : Id .function} {signature : String}
    {o o' : Outcome World Value} (h : o.Answers w e f signature o') : o.Finished ↔ o'.Finished := by
  cases o with
  | done v u =>
    cases o' with
    | done v' u' => exact ⟨fun _ => .done _ _, fun _ => .done _ _⟩
    | failed | diverged => exact h.elim
  | failed err u =>
    cases o' with
    | failed err' u' => exact ⟨fun _ => .failed _ _, fun _ => .failed _ _⟩
    | done | diverged => exact h.elim
  | @diverged u =>
    cases o' with
    | @diverged u' =>
      exact ⟨fun hends => (Outcome.not_finished u hends).elim,
        fun hends => (Outcome.not_finished u' hends).elim⟩
    | done | failed => exact h.elim

/-- Outcomes of two invocations that have gone on side by side, at the end of the entries. -/
lemma Simulation.Agrees.answers {w : World} {e : Id .engine} {f : Id .function} {base : ℕ}
    {signature : String} {o o' : Outcome World Value} {Q : Value → Prop}
    (hbase : w.Rests f → base = 0) (h : (upToSites w f base).Agrees [] Q o (some o')) :
    Outcome.Answers w e f signature
      (o.follow .done (fun err u => .failed (err.withContext signature)
        (u.report e (err.withContext signature))) id)
      (o'.follow .done (fun err u => .failed err (u.report e err)) id) := by
  have hends : ∀ {u u'}, (upToSites w f base).rel [] u u' → w.SameButSites f u u' := by
    intro u u' hu
    refine ⟨hu.1, fun hrests => ?_⟩
    have hframe := hu.2.frame
    rw [hbase hrests] at hframe
    generalize u.frame? f = x, u'.frame? f = y at hframe
    cases hframe with
    | none => rfl
    | some hxy => exact congrArg some (hxy.same hxy.depth)
  cases o with
  | done v u =>
    obtain ⟨-, hlost | ⟨u', ho, hu⟩⟩ := h
    · exact hlost.elim
    · obtain rfl := Option.some.inj ho
      exact ⟨rfl, hends hu⟩
  | failed err u =>
    obtain hlost | ⟨u', ho, hu⟩ := h
    · exact hlost.elim
    · obtain rfl := Option.some.inj ho
      exact ⟨EvalError.inContext_withContext signature err, u, u', hends hu, rfl, rfl⟩
  | @diverged u =>
    obtain hlost | ⟨_, u', ho, hu⟩ := h.2 trivial
    · exact hlost.elim
    · obtain rfl := Option.some.inj ho
      exact hu.1

/-- A call with as many literals as the function has parameters can be built, which changes nothing
but the call site of the next one. -/
lemma World.exists_bindCall {w : World} (e : Id .engine) {f : Id .function}
    {function : FunctionInstance} {values : List Value} (hf : w.function? f = some function)
    (hcount : values.length = function.parameterCount) :
    ∃ w', w.bindCall e f (Expr.literals values) .unknown =
        (.ok (.unlocated (.call f function.nextCallSite (Expr.literals values))), w') ∧
      w'.unsited f = w.unsited f ∧ w'.frame? = w.frame? := by
  refine ⟨w.modifyFunction f fun x => { x with nextCallSite := x.nextCallSite.next }, ?_, ?_, ?_⟩
  · have hlength : (Expr.literals values).length = function.parameterCount := by
      rw [Expr.literals, List.length_map, hcount]
    unfold bindCall
    rw [hf, Option.getD_some, if_neg (not_not_intro hlength)]
    rfl
  · refine unsited_modifyFunction_self f ?_ w
    exact fun _ => rfl
  · refine w.frame?_modifyFunction f ?_
    exact fun _ => rfl

/-- The two ways to call a function give outcomes that answer each other, within bounds that differ
by the nodes of the script. -/
lemma Evaluator.callNamed_answers (bound : ℕ) {e : Id .engine} {name : String} {f : Id .function}
    {function : FunctionInstance} {values : List Value} {w w' : World}
    (hname : w.functionNamed? e name = some f) (hf : w.function? f = some function)
    (hcount : values.length = function.parameterCount) (hhosts : w.HostsIgnoreSites)
    (hunsited : w'.unsited f = w.unsited f) (hframe : w'.frame? = w.frame?) (site : CallSiteId) :
    ((Evaluator.shared (bound + 1)).callNamed e name values w).Answers w e f function.signature
      ((Evaluator.shared (bound + 3)).execute e (.unlocated (.returnValue (some
        (.unlocated (.call f site (Expr.literals values)))))) w') := by
  have hfound : w.frame? f = some function.frame := by
    rw [World.frame?, hf, Option.map_some]
  have htied : (Simulation.upToSites w f function.frame.depth).Tied [] w (some w') := by
    refine ⟨hunsited.symm, rfl, ?_⟩
    rw [hframe, hfound]
    exact .some ⟨rfl, rfl, fun _ => rfl⟩
  have hinvoke := Pairing.besides_invokeFunction hhosts (bound + 1) (.top e) .host site values []
    w (some w') htied
  rw [callNamed_apply (bound + 1) hname hf hcount, execute_call_literals, shared_reported_apply rfl]
  exact hinvoke.answers fun hrests => hrests function.frame hfound

/-- A host that calls a function by its name gets what a script gives that returns a call of the
function with these values, at whatever depth calls are stopped: the same value, or an error of the
same cause and location, to which the host adds the signature of the function as the context unless
it has one.  Both leave the same world behind; only reports tell the context, and the frame of a
function that ran before may tell which way it was called.  If one of the two never ends, then
neither does the other one. -/
theorem host_call_agrees_with_script {e : Id .engine} {name : String} {f : Id .function}
    {function : FunctionInstance} {values : List Value} {w : World}
    (hname : w.functionNamed? e name = some f) (hf : w.function? f = some function)
    (hcount : values.length = function.parameterCount) (hhosts : w.HostsIgnoreSites) :
    ∃ call w', w.bindCall e f (Expr.literals values) .unknown = (.ok call, w') ∧
      let host := fun bound => (Evaluator.shared bound).callNamed e name values w
      let script := fun bound =>
        (Evaluator.shared bound).execute e (.unlocated (.returnValue (some call))) w'
      (∀ bound bound', (host bound).Finished → (script bound').Finished →
        (host bound).Answers w e f function.signature (script bound')) ∧
      ((∃ bound, (host bound).Finished) ↔ ∃ bound, (script bound).Finished) := by
  obtain ⟨w', hbind, hunsited, hframe⟩ := World.exists_bindCall e hf hcount
  refine ⟨_, w', hbind, ?_⟩
  intro host script
  -- the script has its `return` and its call around the body
  have hanswers : ∀ bound, (host (bound + 1)).Answers w e f function.signature
      (script (bound + 3)) := fun bound =>
    Evaluator.callNamed_answers bound hname hf hcount hhosts hunsited hframe function.nextCallSite
  have hhost : ∀ {bound bound'}, bound ≤ bound' → (host bound).Finished →
      host bound' = host bound := fun hle =>
    Evaluator.enter_eq_of_le .shared hle e (.call name values)
  have hscript : ∀ {bound bound'}, bound ≤ bound' → (script bound).Finished →
      script bound' = script bound := fun hle =>
    Evaluator.enter_eq_of_le .shared hle e (.execute _)
  refine ⟨fun bound bound' hends hends' => ?_, fun ⟨bound, hends⟩ => ⟨bound + 3, ?_⟩,
    fun ⟨bound, hends⟩ => ⟨bound + 1, ?_⟩⟩
  · have hsame := hanswers (max bound bound')
    rwa [hhost (by omega) hends, hscript (by omega) hends'] at hsame
  · rw [← (hanswers bound).finished_iff, hhost (by omega) hends]
    exact hends
  · rw [(hanswers bound).finished_iff, hscript (by omega) hends]
    exact hends

namespace SelfCalling

/-- The interner, which has seen the name of the function. -/
def interner : Interner :=
  ⟨#["", "f"], by decide⟩

/-- The class that prints. -/
def console : Host.ApiClass :=
  (Host.consoleClass Memory.empty ⟨0⟩ ⟨0⟩).1

/-- One engine, which has the function under its name and allows no nested calls. -/
def named : World :=
  { world with
    memory := { Memory.empty with interners := (Pool.empty.add interner).2 }
    natives := (Pool.empty.add console).2
    engines := (Pool.empty.add
      { (default : Engine) with maxCallDepth := 1, functions := NameMap.insert ∅ ⟨1⟩ function }).2 }

/-- The function as it was defined. -/
def defined : FunctionInstance :=
  { FunctionInstance.define .empty "f" [.empty] ["x"] with body := some body }

/-- The world after a call of the function has been built. -/
def built : World :=
  (named.bindCall ⟨0⟩ function (Expr.literals [.bool true]) .unknown).2

/-- The function is found under its name. -/
lemma functionNamed : named.functionNamed? ⟨0⟩ "f" = some function := by
  decide +kernel

/-- The class does not look at call sites. -/
lemma hostsIgnoreSites : named.HostsIgnoreSites := by
  refine World.hostsIgnoreSites_of_forall fun i c hc => ?_
  obtain rfl : c = console := Pool.eq_of_get?_add_empty hc
  exact Host.consoleClass_ignoresSites Memory.empty ⟨0⟩ ⟨0⟩

end SelfCalling

/-- A function that calls itself too often fails alike for the host and for a script, and only the
host gives the error a context. -/
theorem selfCalling_agrees_with_script :
    SelfCalling.named.functionNamed? ⟨0⟩ "f" = some SelfCalling.function ∧
      SelfCalling.named.HostsIgnoreSites ∧
      SelfCalling.named.bindCall ⟨0⟩ SelfCalling.function (Expr.literals [.bool true]) .unknown =
        (.ok (SelfCalling.call true), SelfCalling.built) ∧
      let host := (Evaluator.shared 8).callNamed ⟨0⟩ "f" [.bool true] SelfCalling.named
      let script := (Evaluator.shared 10).execute ⟨0⟩ SelfCalling.script SelfCalling.built
      host.error? = some ⟨.recursionLimit 1, none, some "f(x)"⟩ ∧
      script.error? = some ⟨.recursionLimit 1, none, none⟩ ∧
      host.Answers SelfCalling.named ⟨0⟩ SelfCalling.function "f(x)" script := by
  have hf : SelfCalling.named.function? SelfCalling.function = some SelfCalling.defined := rfl
  have hcount : [Value.bool true].length = SelfCalling.defined.parameterCount := rfl
  have hbuilt : SelfCalling.named.bindCall ⟨0⟩ SelfCalling.function (Expr.literals [.bool true])
      .unknown = (.ok (SelfCalling.call true), SelfCalling.built) := rfl
  have hsignature : SelfCalling.defined.signature = "f(x)" := by decide +kernel
  obtain ⟨call, w', hbind, hanswers, -⟩ :=
    host_call_agrees_with_script SelfCalling.functionNamed hf hcount SelfCalling.hostsIgnoreSites
  rw [hbuilt] at hbind
  cases hbind
  rw [hsignature] at hanswers
  exact ⟨SelfCalling.functionNamed, SelfCalling.hostsIgnoreSites, hbuilt, by decide +kernel,
    by decide +kernel, hanswers 8 10 (by decide +kernel) (by decide +kernel)⟩

end ScriptEngine
