import ScriptEngine.Proofs.OrderlyWorlds
import ScriptEngine.Proofs.Runs

/-!
# Evaluations step by step

The machine of this file writes down each step of a run: the world before and after it, and the
array that an array literal has made in it.  Each step is a single command, the beginning or the end
of an activity, or what a host arranges.

In a run from an orderly world all steps are proper.  A literal makes a new array of what is there
already, and each array that a literal has made is as it was made ever after.  For an evaluation
this follows from what its single commands do: values are handed on from where they are there to
where they are needed, and no command and no host function touches an array that is there.

Main statements: `Course.Leads.proper` and `Evaluator.stepwise_trees`.
-/

namespace ScriptEngine

/-! ### Steps -/

/-- A step of a run. -/
structure Transition where
  before : World
  after : World
  /-- The array that a literal has made, and its items. -/
  made : Option (Id .array × List Value)

/-- The steps of a run, newest first. -/
abbrev Course := List Transition

/-- The array that a literal has made, when the command has ended with a value. -/
def Command.made : {α : Type} → Command α → Option α → Option (Id .array × List Value)
  | _, .newArray items, some (.array a) => some (a, items)
  | _, _, _ => none

namespace Recorded

/-- One more step, which leads to a world. -/
def advance (s : Recorded Course) (made : Option (Id .array × List Value)) (w : World) :
    Recorded Course :=
  ⟨w, ⟨s.world, w, made⟩ :: s.record⟩

/-- Change the world, in one step. -/
def change (f : World → World) (s : Recorded Course) : Recorded Course :=
  s.advance none (f s.world)

end Recorded

/-- The engine, which writes down each step. -/
def Machine.stepwise : Machine (Recorded Course) where
  exec k s := (k.run s.world).mapState (s.advance (k.made (k.run s.world).value?))
  enter a := Recorded.change a.enter
  leave a := Recorded.change a.leave
  argument? f i s := (Machine.shared.argument? f i s.world).mapState fun w => ⟨w, s.record⟩
  note _ s := s

/-- Without the steps, the machine is the engine. -/
lemma Machine.stepwise_records : Machine.stepwise.Records where
  exec k s := by
    change ((k.run s.world).mapState _).mapState _ = _
    cases k.run s.world <;> rfl
  enter _ _ := rfl
  leave _ _ := rfl
  argument _ _ _ := rfl
  note _ _ := rfl

/-! ### Proper steps -/

/-- A literal makes a new array of what is there already. -/
structure Transition.Makes (t : Transition) (a : Id .array) (items : List Value) : Prop where
  older : ∀ v ∈ items, t.before.memory.Has v
  new : ¬t.before.memory.Has (.array a)
  there : t.after.memory.Has (.array a)

/-- In the memory, each array that a literal has made is as it was made. -/
def Course.KeptIn (past : Course) (m : Memory) : Prop :=
  ∀ t ∈ past, ∀ a items, t.made = some (a, items) → m.Has (.array a) ∧ m.items a = items.toArray

/-- The step leads to an orderly world, in which each array that a literal has made until then is as
it was made. -/
structure Transition.Proper (t : Transition) (past : Course) : Prop where
  orderly : t.after.Orderly
  makes : ∀ a items, t.made = some (a, items) → t.Makes a items
  kept : Course.KeptIn (t :: past) t.after.memory

/-- The steps lead from one world to the other one, each from where the one before it has led, and
they are proper. -/
inductive Course.Leads (w₀ : World) : Course → World → Prop
  | nil : Leads w₀ [] w₀
  | cons {past t} (h : Leads w₀ past t.before) (ht : t.Proper past) : Leads w₀ (t :: past) t.after

namespace Course

variable {w₀ w : World} {course : Course}

/-- What is as it was made stays so in a later memory. -/
lemma KeptIn.mono {m m' : Memory} (h : course.KeptIn m) (hm : m ≤ m') : course.KeptIn m' := by
  intro t ht a items hmade
  obtain ⟨hthere, hitems⟩ := h t ht a items hmade
  exact ⟨hthere.mono hm.size, (hm.items a hthere).trans hitems⟩

/-- Each step is proper. -/
lemma Leads.proper (h : Leads w₀ course w) {t : Transition} {past : Course}
    (ht : t :: past <:+ course) : t.Proper past := by
  induction h with
  | nil => exact absurd (List.suffix_nil.1 ht) (List.cons_ne_nil t past)
  | cons _ hproper ih =>
    rcases List.suffix_cons_iff.1 ht with heq | hsuffix
    · obtain ⟨rfl, rfl⟩ := List.cons.inj heq
      exact hproper
    · exact ih hsuffix

/-- In the world to which the steps lead, each array is as it was made. -/
lemma Leads.keptIn (h : Leads w₀ course w) : course.KeptIn w.memory := by
  cases h with
  | nil => exact fun t ht => absurd ht List.not_mem_nil
  | cons _ hproper => exact hproper.kept

/-- One more step that makes no array. -/
lemma Leads.step (h : Leads w₀ course w) {w' : World} (hw' : w'.Orderly)
    (hkept : course.KeptIn w'.memory) : Leads w₀ (⟨w, w', none⟩ :: course) w' := by
  refine .cons (t := ⟨w, w', none⟩) h ⟨hw', fun a items hmade => ?_, fun t ht => ?_⟩
  · cases hmade
  · rcases List.mem_cons.1 ht with rfl | ht
    · intro a items hmade
      cases hmade
    · exact hkept t ht

end Course

/-- A proper run has led from the first world to an orderly one, whose memory is later than `m`. -/
structure Recorded.Goes (w₀ : World) (m : Memory) (s : Recorded Course) : Prop where
  orderly : s.world.Orderly
  le : m ≤ s.world.memory
  leads : s.record.Leads w₀ s.world

/-- A proper run has led from the first world to where it is. -/
abbrev Recorded.IsProper (w₀ : World) (s : Recorded Course) : Prop :=
  s.Goes w₀ s.world.memory

namespace Recorded.Goes

variable {w₀ : World} {m m' : Memory} {s : Recorded Course} (h : s.Goes w₀ m)

include h

/-- It has gone on from every earlier memory. -/
lemma of_le (hm : m' ≤ m) : s.Goes w₀ m' :=
  ⟨h.orderly, hm.trans h.le, h.leads⟩

/-- It goes on from where it is. -/
lemma here : s.IsProper w₀ :=
  ⟨h.orderly, le_rfl, h.leads⟩

/-- A step that makes no array. -/
lemma advance {w : World} (hw : s.world.Adds w) : (s.advance none w).Goes w₀ w.memory :=
  ⟨hw.orderly, le_rfl, h.leads.step hw.orderly (h.leads.keptIn.mono hw.le)⟩

/-- An activity or a host makes a step. -/
lemma change {f : World → World} (hf : s.world.Adds (f s.world)) : (s.change f).Goes w₀ m :=
  (h.advance hf).of_le (h.le.trans hf.le)

end Recorded.Goes

/-- What is written down as made by a literal is a new array. -/
lemma Command.newArray_of_made {α : Type} {k : Command α} {w : World} {a : Id .array}
    {items : List Value} (h : k.made (k.run w).value? = some (a, items)) :
    a.index = w.memory.arrays.size ∧
      (k.run w).state.memory = (w.memory.newArray items.toArray).2 ∧
      ∀ m, Trust.adding.Allows m k → ∀ v ∈ items, m.Has v := by
  cases k with
  | newArray vs =>
    obtain ⟨rfl, rfl⟩ := Prod.mk.inj (Option.some.inj h)
    exact ⟨rfl, rfl, fun m hk => hk⟩
  | _ => cases h

/-- Proper steps have led on from the memory `m`, and a value satisfies `Q` for the memory that
there is in the end. -/
def Outcome.Goes {α : Type} (w₀ : World) (m : Memory) (Q : Memory → α → Prop)
    (o : Outcome (Recorded Course) α) : Prop :=
  ∃ m', m ≤ m' ∧ o.state.Goes w₀ m' ∧ ∀ a ∈ o.value?, Q m' a

namespace Outcome.Goes

variable {w₀ : World} {m m' : Memory} {α β : Type} {Q : Memory → α → Prop} {R : Memory → β → Prop}
  {s : Recorded Course}

/-- There is a value already. -/
lemma done (hs : s.Goes w₀ m) {a : α} (ha : Q m a) : (Outcome.done a s).Goes w₀ m Q :=
  ⟨m, le_rfl, hs, fun _ hb => Option.some.inj hb ▸ ha⟩

/-- A failure makes no step. -/
lemma failed (hs : s.Goes w₀ m) (e : EvalError) : (Outcome.failed e s).Goes w₀ m Q :=
  ⟨m, le_rfl, hs, fun a ha => by cases ha⟩

/-- Giving up makes no step. -/
lemma unfinished (hs : s.Goes w₀ m) : (Outcome.unfinished s).Goes w₀ m Q :=
  ⟨m, le_rfl, hs, fun a ha => by cases ha⟩

/-- The steps have led on from every earlier memory. -/
lemma of_le {o : Outcome (Recorded Course) α} (h : o.Goes w₀ m' Q) (hm : m ≤ m') :
    o.Goes w₀ m Q := by
  obtain ⟨m'', hm', hrest⟩ := h
  exact ⟨m'', hm.trans hm', hrest⟩

/-- One action after another. -/
lemma bind {x : Action (Recorded Course) α} {f : α → Action (Recorded Course) β}
    (hx : (x s).Goes w₀ m Q)
    (hf : ∀ m' a s', m ≤ m' → s'.Goes w₀ m' → Q m' a → (f a s').Goes w₀ m' R) :
    ((x >>= f) s).Goes w₀ m R := by
  obtain ⟨m', hm, hs', ha⟩ := hx
  rw [Action.bind_apply]
  cases hxs : x s with
  | done a s' =>
    rw [hxs] at hs' ha
    exact (hf m' a s' hm hs' (ha a rfl)).of_le hm
  | failed e s' =>
    rw [hxs] at hs'
    exact (failed hs' e).of_le hm
  | @diverged s' =>
    rw [hxs] at hs'
    exact (unfinished hs').of_le hm

end Outcome.Goes

/-- A command that is given nothing but what there is makes a proper step. -/
lemma Recorded.Goes.exec {w₀ : World} {m : Memory} {s : Recorded Course} (h : s.Goes w₀ m)
    {α : Type} {k : Command α} (hk : Trust.adding.Allows m k) :
    (Machine.stepwise.exec k s).Goes w₀ m fun m' a => Trust.adding.Yields m' k a := by
  have hadds := Command.adds h.orderly (Trust.Allows.mono hk h.le)
  refine ⟨(k.run s.world).state.memory, h.le.trans hadds.le, ?_, ?_⟩
  · change Recorded.Goes w₀ _ ((k.run s.world).mapState _).state
    rw [Outcome.state_mapState]
    cases hmade : k.made (k.run s.world).value? with
    | none => exact h.advance hadds.toAdds
    | some made =>
      -- the array has the next number, so that none of the earlier arrays is the new one
      obtain ⟨a, items⟩ := made
      obtain ⟨hindex, hmemory, hitems⟩ := Command.newArray_of_made hmade
      have hthere : (k.run s.world).state.memory.Has (.array a) := by
        rw [hmemory]
        exact (Nat.lt_succ_of_le (Nat.le_of_eq hindex)).trans_eq (Memory.size_newArray _ _).symm
      refine ⟨hadds.orderly, le_rfl, .cons h.leads ⟨hadds.orderly, ?_, fun t ht => ?_⟩⟩
      · rintro _ _ ⟨⟩
        exact ⟨hitems _ (Trust.Allows.mono hk h.le), Nat.not_lt_of_le hindex.ge, hthere⟩
      · rcases List.mem_cons.1 ht with rfl | ht
        · rintro _ _ ⟨⟩
          refine ⟨hthere, ?_⟩
          rw [hmemory, Memory.items_newArray, if_pos hindex]
        · exact h.leads.keptIn.mono hadds.le t ht
  · change ∀ a ∈ ((k.run s.world).mapState _).value?, _
    rw [Outcome.value?_mapState]
    exact hadds.value

/-! ### Evaluations -/

/-- From a proper run on, the action makes proper steps, and its value satisfies `Q` for the memory
that there is in the end. -/
def Tracking.proper (w₀ : World) : Tracking Memory (Recorded Course) where
  Tracks m Q x := ∀ s : Recorded Course, s.Goes w₀ m → (x s).Goes w₀ m Q
  pure ha _ hs := .done hs ha
  fail e _ hs := .failed hs e
  bind hx hf s hs := (hx s hs).bind fun m' a s' hm hs' ha => hf m' a hm ha s' hs'

namespace Tracking

variable {w₀ : World} {m : Memory} {α : Type} {Q : Memory → α → Prop}
  {x : Action (Recorded Course) α}

/-- An action that never ends makes no steps. -/
lemma lenient_proper (w₀ : World) : (proper w₀).Lenient :=
  fun _ _ _ _ hs => .unfinished hs

/-- Another error makes no difference. -/
lemma mapError_proper (h : (proper w₀).Tracks m Q x) (change : EvalError → EvalError) :
    (proper w₀).Tracks m Q (x.mapError change) := by
  intro s hs
  have hxs := h s hs
  unfold Action.mapError
  cases hx : x s <;> rw [hx] at hxs <;> exact hxs

/-- An error may become a result. -/
lemma attempt_proper (h : (proper w₀).Tracks m Q x) :
    (proper w₀).Tracks m (fun m' result => ∀ a, result = .ok a → Q m' a) x.attempt := by
  intro s hs
  obtain ⟨m', hm, hs', ha⟩ := h s hs
  unfold Action.attempt
  cases hx : x s with
  | done a s' =>
    rw [hx] at hs' ha
    refine (Outcome.Goes.done hs' fun b hb => ?_).of_le hm
    obtain rfl := Except.ok.inj hb
    exact ha a rfl
  | failed e s' =>
    rw [hx] at hs'
    exact (Outcome.Goes.done hs' fun b hb => by cases hb).of_le hm
  | @diverged s' =>
    rw [hx] at hs'
    exact (Outcome.Goes.unfinished hs').of_le hm

/-- An activity with arguments that are there. -/
lemma during_proper (h : (proper w₀).Tracks m Q x) {a : Activity}
    (ha : ∀ v ∈ a.arguments, m.Has v) : (proper w₀).Tracks m Q (Machine.stepwise.during a x) := by
  intro s hs
  have henter : (s.change a.enter).Goes w₀ m :=
    hs.change (hs.orderly.adds.enter fun v hv => (ha v hv).mono hs.le.size)
  obtain ⟨m', hm, hs', hv⟩ := h _ henter
  have hleave : ∀ s', s'.Goes w₀ m' → (Recorded.change a.leave s').Goes w₀ m' :=
    fun s' hs' => hs'.change (hs'.orderly.adds.leave a)
  change (Action.ensuring x (Recorded.change a.leave) (s.change a.enter)).Goes w₀ m Q
  unfold Action.ensuring
  cases hx : x (s.change a.enter) with
  | done v s' =>
    rw [hx] at hs' hv
    exact (Outcome.Goes.done (hleave s' hs') (hv v rfl)).of_le hm
  | failed e s' =>
    rw [hx] at hs'
    exact (Outcome.Goes.failed (hleave s' hs') e).of_le hm
  | @diverged s' =>
    rw [hx] at hs'
    exact (Outcome.Goes.unfinished hs').of_le hm

end Tracking

namespace Evaluator

open Tracking

/-- Bodies that only add make proper steps, within a bound. -/
abbrev StepwisePerforms (w₀ : World) (bound : ℕ) : Prop :=
  ∀ {scope s m}, Stmt.Adds m s → ((proper w₀).activation Trust.adding).Tracks m (fun _ _ => True)
    (ScriptEngine.perform .stepwise bound scope s)

section

variable {w₀ : World} {m : Memory} {bound : ℕ}

/-- A command that is given nothing but what there is. -/
lemma stepwise_exec {α : Type} {k : Command α} (hk : Trust.adding.Allows m k) :
    (proper w₀).Tracks m (fun m' => Trust.adding.Yields m' k) (Machine.stepwise.exec k) :=
  fun _ hs => hs.exec hk

/-- A body that is looked up only adds. -/
lemma stepwise_functionBody (f : Id .function) :
    (proper w₀).Tracks m (fun m' body => ∀ s ∈ body, s.Adds m')
      (Machine.stepwise.exec (.functionBody f)) := by
  intro s hs
  refine (Outcome.Goes.done (hs.advance hs.orderly.adds) fun t ht => ?_).of_le hs.le
  obtain ⟨x, hx, hxbody⟩ := Option.bind_eq_some_iff.1 ht
  exact (hs.orderly.functions f x hx).body t hxbody

/-- A body that is looked up only adds. -/
lemma stepwise_callbackBody (c : Id .callback) :
    (proper w₀).Tracks m (fun m' body => ∀ s ∈ body, s.Adds m')
      (Machine.stepwise.exec (.callbackBody c)) := by
  intro s hs
  refine (Outcome.Goes.done (hs.advance hs.orderly.adds) fun t ht => ?_).of_le hs.le
  obtain ⟨x, hx, hxbody⟩ := Option.bind_eq_some_iff.1 ht
  exact (hs.orderly.callbacks c x hx).body t hxbody

/-- An error is reported. -/
lemma stepwise_reported (e : Id .engine) {x : Action (Recorded Course) Value}
    (hx : (proper w₀).Tracks m Memory.Has x) :
    (proper w₀).Tracks m Memory.Has ((within .stepwise bound).reported e x) := by
  refine (proper w₀).bind (attempt_proper hx) fun m' result _ hresult => ?_
  cases result with
  | ok v => exact (proper w₀).pure (hresult v rfl)
  | error error =>
    exact (proper w₀).bind (stepwise_exec (k := .report e error) trivial) fun _ _ _ _ =>
      (proper w₀).fail error

variable (hperform : StepwisePerforms w₀ bound)

include hperform

/-- A body that only adds. -/
lemma stepwise_run (scope : Scope) {body : Stmt} (hbody : body.Adds m) :
    (proper w₀).Tracks m Memory.Has ((within .stepwise bound).run scope body) := by
  rw [run_eq_peel]
  refine (proper w₀).bind (hperform hbody .undefined trivial) fun m' p _ hp => (proper w₀).pure ?_
  split
  · exact hp.2
  · exact trivial

/-- A body that may be missing. -/
lemma stepwise_runBody (scope : Scope) {body : Option Stmt} (hbody : ∀ s ∈ body, s.Adds m) :
    (proper w₀).Tracks m Memory.Has ((within .stepwise bound).runBody scope body) := by
  cases body with
  | none => exact (proper w₀).pure trivial
  | some s => exact stepwise_run hperform scope (hbody s rfl)

/-- A function is invoked. -/
lemma stepwise_invokeFunction (scope : Scope) (f : Id .function) (site : CallSiteId)
    {args : List Value} (hargs : Trust.adding.Values m args) :
    (proper w₀).Tracks m Memory.Has
      ((within .stepwise bound).invokeFunction scope f site args) := by
  refine (proper w₀).bind (stepwise_exec (k := .deeper scope) trivial) fun m₁ inner hm₁ _ => ?_
  refine (proper w₀).bind (stepwise_functionBody f) fun m₂ body hm₂ hbody => ?_
  have hactivity := during_proper (stepwise_runBody hperform inner hbody)
    (a := .function f site args) fun v hv => (hargs v hv).mono (hm₁.trans hm₂).size
  refine (proper w₀).bind hactivity fun m₃ v _ hv => ?_
  refine (proper w₀).bind (stepwise_exec (k := .keepResult f v) trivial) fun m₄ _ hm₄ _ => ?_
  exact (proper w₀).pure (hv.mono hm₄.size)

/-- A callback is invoked. -/
lemma stepwise_invokeCallback (scope : Scope) (c : Id .callback) {args : List Value}
    (hargs : Trust.adding.Values m args) :
    (proper w₀).Tracks m Memory.Has ((within .stepwise bound).invokeCallback scope c args) := by
  refine (proper w₀).bind (stepwise_exec (k := .deeper scope) trivial) fun m₁ inner hm₁ _ => ?_
  refine (proper w₀).bind (stepwise_callbackBody c) fun m₂ body hm₂ hbody => ?_
  exact during_proper (stepwise_runBody hperform inner hbody)
    (a := .callback c args) fun v hv => (hargs v hv).mono (hm₁.trans hm₂).size

/-- A script that only adds is executed. -/
lemma stepwise_execute (e : Id .engine) {script : Stmt} (hscript : script.Adds m) :
    (proper w₀).Tracks m Memory.Has ((within .stepwise bound).execute e script) :=
  stepwise_reported e (during_proper (stepwise_run hperform (.top e) hscript) (a := .script)
    fun _ hv => absurd hv List.not_mem_nil)

/-- A function is called by its name. -/
lemma stepwise_callNamed (e : Id .engine) (name : String) {args : List Value}
    (hargs : Trust.adding.Values m args) :
    (proper w₀).Tracks m Memory.Has ((within .stepwise bound).callNamed e name args) := by
  refine stepwise_reported e ?_
  have hfind : (proper w₀).Tracks m _ (Machine.stepwise.exec (.findFunction e name args.length)) :=
    stepwise_exec trivial
  refine (proper w₀).bind hfind fun m' found hm _ => mapError_proper ?_ _
  exact stepwise_invokeFunction hperform _ _ _ fun v hv => (hargs v hv).mono hm.size

/-- A callback is invoked by its name. -/
lemma stepwise_invokeNamed (e : Id .engine) (name : String) {args : List Value}
    (hargs : Trust.adding.Values m args) :
    (proper w₀).Tracks m Memory.Has ((within .stepwise bound).invokeNamed e name args) := by
  refine stepwise_reported e ?_
  have hfind : (proper w₀).Tracks m _ (Machine.stepwise.exec (.findCallback e name args.length)) :=
    stepwise_exec trivial
  refine (proper w₀).bind hfind fun m' c hm _ => mapError_proper ?_ _
  exact stepwise_invokeCallback hperform _ _ fun v hv => (hargs v hv).mono hm.size

/-- A host function that only adds from the memory on that it finds. -/
lemma stepwise_runHost (e : Id .engine) (program : Host.Program) {s : Recorded Course}
    (hs : s.Goes w₀ m) (hprogram : program.OnlyAdds s.world.memory) :
    ((within .stepwise bound).runHost e program s).Goes w₀ m Memory.Has := by
  -- what the program may do is known from the memory on that is there, which may be later than `m`
  induction program generalizing s m with
  | finish result =>
    cases result with
    | ok v => exact (Outcome.Goes.done hs.here (hprogram v rfl)).of_le hs.le
    | error error => exact .failed hs error
  | read next ih => exact (ih _ (hs.advance hs.orderly.adds) hprogram).of_le hs.le
  | write change next ih =>
    obtain ⟨hadds, hnext⟩ := hprogram
    exact (ih (hs.advance (hs.orderly.adds.memory hadds)) hnext).of_le (hs.le.trans hadds.le)
  | allocate make next ih =>
    obtain ⟨hadds, -, hnext⟩ := hprogram
    exact (ih _ (hs.advance (hs.orderly.adds.memory hadds)) hnext).of_le (hs.le.trans hadds.le)
  | display v next ih =>
    obtain ⟨text, htext⟩ :=
      Option.isSome_iff_exists.1 (hs.orderly.memory.acyclic.isSome_display? v)
    have hexec : (within .stepwise bound).machine.exec (.display v) s =
        .done text (s.advance none s.world) := by
      simp [within, Machine.stepwise, Command.run, Action.bind_apply, Action.state, htext,
        Action.ofOption, Outcome.mapState, Command.made]
    unfold Evaluator.runHost
    rw [Action.bind_apply, hexec]
    exact (ih text (hs.advance hs.orderly.adds) (hprogram text htext)).of_le hs.le
  | execute script next ih =>
    obtain ⟨hscript, hnext⟩ := hprogram
    have hexecute := attempt_proper (stepwise_execute hperform e hscript) s hs.here
    refine (hexecute.bind fun m' result s' hm hs' hresult => ?_).of_le hs.le
    refine ih result hs' (hnext result _ ⟨hm.trans hs'.le, hs'.orderly.memory⟩ fun v hv => ?_)
    exact (hresult v hv).mono hs'.le.size
  | callFunction name args next ih =>
    obtain ⟨hargs, hnext⟩ := hprogram
    have hcall := attempt_proper (stepwise_callNamed hperform e name hargs) s hs.here
    refine (hcall.bind fun m' result s' hm hs' hresult => ?_).of_le hs.le
    refine ih result hs' (hnext result _ ⟨hm.trans hs'.le, hs'.orderly.memory⟩ fun v hv => ?_)
    exact (hresult v hv).mono hs'.le.size
  | invokeCallback name args next ih =>
    obtain ⟨hargs, hnext⟩ := hprogram
    have hcall := attempt_proper (stepwise_invokeNamed hperform e name hargs) s hs.here
    refine (hcall.bind fun m' result s' hm hs' hresult => ?_).of_le hs.le
    refine ih result hs' (hnext result _ ⟨hm.trans hs'.le, hs'.orderly.memory⟩ fun v hv => ?_)
    exact (hresult v hv).mono hs'.le.size
  | inspectFrame name next ih =>
    refine (ih _ (hs.advance hs.orderly.adds) (hprogram _ fun frame hframe v hv => ?_)).of_le hs.le
    obtain ⟨x, hx, rfl⟩ := Option.map_eq_some_iff.1 hframe
    obtain ⟨f, -, hf⟩ := Option.bind_eq_some_iff.1 hx
    exact (hs.orderly.functions f x hf).arguments v hv

/-- A function of a native object is called. -/
lemma stepwise_callApi (scope : Scope) (object : NativeRef) (index : ℕ) {args : List Value}
    (hargs : Trust.adding.Values m args) :
    (proper w₀).Tracks m Memory.Has ((within .stepwise bound).callApi scope object index args) := by
  intro s hs
  have hcall := (hs.orderly.apiClass object).call index hs.orderly.memory
    fun v hv => (hargs v hv).mono hs.le.size
  exact (stepwise_runHost hperform scope.engine _ (hs.advance hs.orderly.adds) hcall).of_le hs.le

/-- Single steps and calls are proper. -/
lemma stepwise_tracked (scope : Scope) :
    Tracked (proper w₀) Trust.adding (within .stepwise bound) scope where
  exec k hk := stepwise_exec hk
  argument f n s hs := by
    refine ⟨s.world.memory, hs.le, ?_, fun argument hargument v hv => ?_⟩
    · exact hs.here
    · obtain rfl := Option.some.inj hargument
      obtain ⟨x, hx, hxargument⟩ := Option.bind_eq_some_iff.1 hv
      exact (hs.orderly.stores.function hx).argument? trivial hxargument
  note mark _ s hs := .done hs trivial
  call f site hargs := stepwise_invokeFunction hperform scope f site hargs
  host _ hargs := stepwise_callApi hperform scope _ _ hargs

end

variable (w₀ : World)

/-- All evaluations of trees that only add make proper steps. -/
theorem stepwise_trees (bound : ℕ) :
    (∀ {scope e m}, e.Everywhere (Trust.adding.Permits m) →
      (proper w₀).Tracks m Memory.Has (ScriptEngine.evaluate .stepwise bound scope e)) ∧
    StepwisePerforms w₀ bound := by
  -- parts and called bodies are evaluated within the smaller bound
  induction bound with
  | zero =>
    exact ⟨fun _ => lenient_proper w₀ _ _ _, fun _ _ _ => lenient_proper w₀ _ _ _⟩
  | succ bound ih =>
    obtain ⟨hevaluate, hperform⟩ := ih
    have htracked : ∀ scope, Tracked (proper w₀) Trust.adding (within .stepwise bound) scope :=
      stepwise_tracked hperform
    refine ⟨fun {scope e m} he => ?_, fun {scope s m} hs v hv => ?_⟩
    · refine mapError_proper ((htracked scope).evaluateNode he.node fun a ha m' hm => ?_) _
      exact hevaluate ((he.parts a ha).mono fun _ h => Trust.Permits.mono h hm)
    · rw [peel_perform_succ]
      refine (proper w₀).bind (Q := fun _ _ => True) (fun _ hs => .done hs trivial)
        fun m' _ hm _ => ?_
      refine mapError_proper ?_ _
      refine (htracked scope).performNode (inBody_activation (proper w₀) Trust.adding) (.inr ?_)
        (fun e he m'' hm' => ?_) (fun t ht m'' hm' => ?_) v (hv.mono hm.size)
      · exact fun _ _ _ _ _ => lenient_proper w₀ _ _ _
      · refine hevaluate ((hs.expressions e he).mono fun _ h => ?_)
        exact Trust.Permits.mono h (hm.trans hm')
      · exact hperform (Stmt.Adds.mono (hs.statements t ht) (hm.trans hm').size)

end Evaluator

end ScriptEngine
