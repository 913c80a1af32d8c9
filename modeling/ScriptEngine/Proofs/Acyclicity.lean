import ScriptEngine.DebugView
import ScriptEngine.Proofs.Stepwise

/-!
# Script-made arrays hold no cycles

Scripts have no way to write into an array.  So if host functions and snippets have none either, and
hosts bring in no array that holds itself, then no array ever holds itself: a literal makes a new
array of older ones, and nothing touches it afterwards.  The host may change arrays of its own
between two turns, as long as it makes no cycle and leaves the arrays of scripts alone.

What is bounded by the nesting of arrays therefore ends in each state of a run: the text of a value,
sums, printing, reading with an index that has to become a text, and the debugger panel.

Main statement: `array_literals_stay_acyclic`.
-/

namespace ScriptEngine

/-! ### What ends where no array holds itself -/

/-- No array holds itself, and all that goes through the text of a value ends. -/
structure World.Displays (w : World) : Prop where
  wellFounded : WellFounded fun b a => w.memory.Holds a b
  text : ∀ v, (w.memory.display? v).isSome
  computed : ∀ (op : BinaryOp) left right, (op.compute? w.memory left right).isSome
  printed : ∀ bound e p args, ((Evaluator.shared bound).runHost e (Host.print p args) w).Finished
  read : ∀ e object index, (w.readIndex? e object index).isSome
  panel : ∀ order e, (w.debugEntries? order e).isSome

/-- Printing ends where each value has a text. -/
lemma Host.finished_print {w : World} (h : ∀ v, (w.memory.display? v).isSome) (bound : ℕ)
    (e : Id .engine) (p : Id .printer) (args : List Value) :
    ((Evaluator.shared bound).runHost e (Host.print p args) w).Finished := by
  cases args with
  | nil => exact .done _ _
  | cons v rest =>
    obtain ⟨text, htext⟩ := Option.isSome_iff_exists.1 (h v)
    have hexec : (Evaluator.shared bound).machine.exec (.display v) w = .done text w := by
      simp [Evaluator.within, Machine.shared, Command.run, Action.bind_apply, Action.state, htext,
        Action.ofOption]
    unfold Host.print Evaluator.runHost
    rw [Action.bind_apply, hexec]
    exact .done _ _

/-- The debugger panel is there where each value has a text. -/
lemma World.isSome_debugEntries? {w : World} (h : ∀ v, (w.memory.display? v).isSome)
    (order : TableOrder) (e : Id .engine) : (w.debugEntries? order e).isSome := by
  have hrow : ∀ entries : List (Name × Value), (entries.mapM fun entry =>
      DebugInfo.ofVariable? w.memory (w.lookup e entry.1) entry.2).isSome := by
    refine fun entries => Memory.isSome_mapM_of_forall fun entry _ => ?_
    obtain ⟨text, htext⟩ := Option.isSome_iff_exists.1 (h entry.2)
    simp [DebugInfo.ofVariable?, htext]
  have hfunction : ∀ fs : List FunctionInstance,
      (fs.mapM (DebugInfo.ofFunction? w.memory)).isSome := by
    refine fun fs => Memory.isSome_mapM_of_forall fun f _ => ?_
    obtain ⟨text, htext⟩ := Option.isSome_iff_exists.1 (h f.lastResult)
    simp [DebugInfo.ofFunction?, htext]
  obtain ⟨engine, hengine⟩ : ∃ engine, (w.engine e).inOrder order = engine := ⟨_, rfl⟩
  obtain ⟨registers, hregisters⟩ := Option.isSome_iff_exists.1 (hrow engine.register.entries)
  obtain ⟨globals, hglobals⟩ := Option.isSome_iff_exists.1 (hrow engine.globals.entries)
  obtain ⟨functions, hfunctions⟩ := Option.isSome_iff_exists.1
    (hfunction (engine.functions.values.filterMap w.function?))
  simp [World.debugEntries?, hengine, hregisters, hglobals, hfunctions]

/-- In an orderly world all that goes through the text of a value ends. -/
theorem World.Orderly.displays {w : World} (h : w.Orderly) : w.Displays where
  wellFounded := h.memory.acyclic.wellFounded
  text := h.memory.acyclic.isSome_display?
  computed op left right := by
    obtain ⟨v, hv, -⟩ := op.exists_compute? h.memory.acyclic left right 0
    exact Option.isSome_iff_exists.2 ⟨v, hv⟩
  printed := Host.finished_print h.memory.acyclic.isSome_display?
  read e object index := by
    obtain ⟨result, hresult, -⟩ := h.sound.exists_readIndex? e object index
    exact Option.isSome_iff_exists.2 ⟨result, hresult⟩
  panel := World.isSome_debugEntries? h.memory.acyclic.isSome_display?

/-! ### Hosts -/

/-- The host passes nothing but what is there, and a script that only adds. -/
def Entry.Adds (m : Memory) : Entry → Prop
  | execute script => script.Adds m
  | call _ args | invoke _ args => ∀ v ∈ args, m.Has v

/-- The host brings in nothing but what is there, and only such trees and classes as only add.  It
may change the memory, but makes no array that holds itself, and leaves those alone that literals
have made. -/
def Turn.Adds (s : Recorded Course) : Turn → Prop
  | enter _ entry => entry.Adds s.world.memory
  | evaluate _ t => t.Adds s.world.memory
  | write _ _ v => s.world.memory.Has v
  | arrange (.changeMemory change) =>
    (change s.world.memory).Sound ∧
      s.world.memory.arrays.size ≤ (change s.world.memory).arrays.size ∧
      s.record.KeptIn (change s.world.memory)
  | arrange a => a.Brings (.adding s.world.memory)

/-- All turns are such, each one in the state that the turns before it have led to. -/
def HostAdds (bound : ℕ) : List Turn → Recorded Course → Prop
  | [], _ => True
  | turn :: rest, s => turn.Adds s ∧ ∀ result s',
    (Evaluator.within .stepwise bound).take Recorded.change turn s = .done result s' →
      HostAdds bound rest s'

/-! ### Runs -/

namespace Evaluator

open Tracking

variable {w₀ : World} {m : Memory} (bound : ℕ)

/-- The host enters an engine. -/
lemma stepwise_enter (e : Id .engine) {entry : Entry} (hentry : entry.Adds m) :
    (proper w₀).Tracks m Memory.Has ((within .stepwise bound).enter e entry) := by
  have hperform : StepwisePerforms w₀ bound := (stepwise_trees w₀ bound).2
  cases entry with
  | execute script => exact stepwise_execute hperform e hentry
  | call name args => exact stepwise_callNamed hperform e name hentry
  | invoke name args => exact stepwise_invokeNamed hperform e name hentry

/-- The host evaluates a tree. -/
lemma stepwise_evaluateTree (scope : Scope) {t : Tree} (ht : t.Adds m) :
    (proper w₀).Tracks m (fun m' p => m'.Has p.2)
      ((within .stepwise bound).evaluateTree scope t) := by
  obtain ⟨hevaluate, hperform⟩ := stepwise_trees w₀ bound
  cases t with
  | expr e => exact (proper w₀).bind (hevaluate ht) fun _ _ _ hv => (proper w₀).pure hv
  | stmt s =>
    change (proper w₀).Tracks m _ ((within .stepwise bound).signalOf scope s)
    rw [signalOf_eq_peel]
    exact Tracking.mono (hperform ht .undefined trivial) fun _ _ hp => hp.2

/-- A turn of a host that only adds makes proper steps. -/
theorem stepwise_take {turn : Turn} {s : Recorded Course} (hs : s.IsProper w₀)
    (hturn : turn.Adds s) :
    ((within .stepwise bound).take Recorded.change turn s).state.IsProper w₀ := by
  have hhere : ∀ {α : Type} {Q : Memory → α → Prop} {o : Outcome (Recorded Course) α},
      o.Goes w₀ s.world.memory Q → o.state.IsProper w₀ := by
    rintro α Q o ⟨m', -, hs', -⟩
    exact hs'.here
  have harranged : ∀ a : Arrangement, a.Brings (.adding s.world.memory) →
      ((within .stepwise bound).take Recorded.change (.arrange a) s).state.IsProper w₀ :=
    fun a ha => hs.advance (hs.orderly.adds_arrange a ha)
  cases turn with
  | enter e entry => exact hhere (attempt_proper (stepwise_enter bound e hturn) s hs)
  | evaluate scope t =>
    have hvalue := (proper w₀).bind (stepwise_evaluateTree bound scope hturn) fun _ p _ hp =>
      (proper w₀).pure (Q := Memory.Has) (a := p.2) hp
    exact hhere (attempt_proper hvalue s hs)
  | write scope target v =>
    have hset : (proper w₀).Tracks s.world.memory (fun _ _ => True)
        (Machine.stepwise.exec (.set scope target v)) :=
      Tracking.mono (stepwise_exec (k := .set scope target v) hturn) fun _ _ _ => trivial
    have hvalue := (proper w₀).bind hset fun m' _ hm _ =>
      (proper w₀).pure (Q := Memory.Has) (a := v) (Memory.Has.mono hturn hm.size)
    exact hhere (attempt_proper hvalue s hs)
  | arrange a =>
    cases a with
    | changeMemory change =>
      -- the host need not leave its own arrays as they were, so this step may not only add
      obtain ⟨hsound, hsize, hkept⟩ := hturn
      have horderly := hs.orderly.withMemory hsound hsize
      exact ⟨horderly, le_rfl, hs.leads.step horderly hkept⟩
    | _ => exact harranged _ hturn

/-- A run of a host that only adds makes proper steps. -/
theorem stepwise_takeAll {turns : List Turn} {s : Recorded Course} (hs : s.IsProper w₀)
    (hturns : HostAdds bound turns s) :
    ((within .stepwise bound).takeAll Recorded.change turns s).state.IsProper w₀ := by
  induction turns generalizing s with
  | nil => exact hs
  | cons turn rest ih =>
    obtain ⟨hturn, hrest⟩ := hturns
    have htake := stepwise_take bound hs hturn
    unfold Evaluator.takeAll
    rw [Action.bind_apply]
    cases hresult : (within .stepwise bound).take Recorded.change turn s with
    | done result s' =>
      rw [hresult] at htake
      have hrests := ih (s := s') htake (hrest result s' hresult)
      dsimp only
      rw [Action.bind_apply]
      cases hresults : (within .stepwise bound).takeAll Recorded.change rest s' <;>
        rw [hresults] at hrests <;> exact hrests
    | failed e s' =>
      rw [hresult] at htake
      exact htake
    | @diverged s' =>
      rw [hresult] at htake
      exact htake

end Evaluator

/-- Arrays that scripts make hold no cycles, and so printing ends.  In a run of hosts that only add,
from the empty world on, each array literal makes a new array, which holds only what was there
before, and which is as it was made in all states after it; and in each state, holding is well
founded and all that goes through the text of a value ends. -/
theorem array_literals_stay_acyclic (bound : ℕ) (turns : List Turn)
    (h : HostAdds bound turns ⟨World.empty, []⟩) :
    let o := (Evaluator.within .stepwise bound).takeAll Recorded.change turns ⟨World.empty, []⟩
    o.mapState (·.world) = (Evaluator.shared bound).takeAll id turns World.empty ∧
      o.state.record.Leads World.empty o.state.world ∧
      (∀ t past, t :: past <:+ o.state.record →
        (∀ a items, t.made = some (a, items) → t.Makes a items) ∧
          Course.KeptIn (t :: past) t.after.memory) ∧
      ∀ w ∈ World.empty :: o.state.record.map Transition.after, w.Displays := by
  have hstart : Recorded.IsProper World.empty ⟨World.empty, []⟩ :=
    ⟨World.orderly_empty, le_rfl, .nil⟩
  have hrun := Evaluator.stepwise_takeAll bound hstart h
  refine ⟨Machine.stepwise_records.takeAll (fun _ _ => rfl) bound turns ⟨World.empty, []⟩,
    hrun.leads, fun t past ht => ?_, fun w hw => ?_⟩
  · have hproper := hrun.leads.proper ht
    exact ⟨hproper.makes, hproper.kept⟩
  · rcases List.mem_cons.1 hw with rfl | hw
    · exact World.orderly_empty.displays
    · obtain ⟨t, ht, rfl⟩ := List.mem_map.1 hw
      obtain ⟨later, past, hcourse⟩ := List.append_of_mem ht
      have hsuffix : t :: past <:+ _ := ⟨later, hcourse.symm⟩
      exact (hrun.leads.proper hsuffix).orderly.displays

/-! ### Literals that are nested again and again -/

namespace Nesting

/-- The global variable `x`. -/
def x : VarRef := .global ⟨30⟩

/-- The statement `x = [x, []]`. -/
def nest : Stmt :=
  .ofExpr (.unlocated (.assign x none
    (.unlocated (.array [.unlocated (.var x), .unlocated (.array [])]))))

/-- The statement `Console.print(x)`. -/
def print : Stmt :=
  .ofExpr (.unlocated (.apiCall ⟨⟨0⟩, "Console"⟩ .empty ⟨0, 1⟩ [.unlocated (.var x)]))

/-- The host starts an engine, makes an array, puts it into `x`, and performs the statements. -/
def turns : List Turn :=
  [.arrange (.newEngine {} none), .arrange (.changeMemory fun m => (m.newArray #[]).2),
    .write (.top ⟨0⟩) x (.array ⟨0⟩),
    .evaluate (.top ⟨0⟩) (.stmt (.unlocated (.block [nest, nest, print])))]

/-- The trees have no literals that refer to arrays, and call no snippets. -/
lemma tree_adds (m : Memory) : Tree.Adds m (.stmt (.unlocated (.block [nest, nest, print]))) := by
  have hx : Expr.Everywhere (Trust.adding.Permits m) (.unlocated (.var x)) :=
    .intro trivial fun a ha => absurd ha List.not_mem_nil
  have hempty : Expr.Everywhere (Trust.adding.Permits m) (.unlocated (.array [])) :=
    .intro trivial fun a ha => absurd ha List.not_mem_nil
  have hnest : nest.Adds m := by
    refine .intro trivial (fun e he => ?_) fun t ht => absurd ht List.not_mem_nil
    obtain rfl := List.mem_singleton.1 he
    refine .intro trivial fun a ha => ?_
    obtain rfl := List.mem_singleton.1 ha
    refine .intro trivial fun a ha => ?_
    rcases List.mem_pair.1 ha with rfl | rfl
    · exact hx
    · exact hempty
  have hprint : print.Adds m := by
    refine .intro trivial (fun e he => ?_) fun t ht => absurd ht List.not_mem_nil
    obtain rfl := List.mem_singleton.1 he
    refine .intro trivial fun a ha => ?_
    obtain rfl := List.mem_singleton.1 ha
    exact hx
  refine .intro trivial (fun e he => absurd he List.not_mem_nil) fun t ht => ?_
  have ht : t ∈ [nest, nest, print] := ht
  simp only [List.mem_cons, List.not_mem_nil, or_false] at ht
  rcases ht with rfl | rfl | rfl
  · exact hnest
  · exact hnest
  · exact hprint

/-- The host only adds. -/
lemma hostAdds (bound : ℕ) : HostAdds bound turns ⟨World.empty, []⟩ := by
  refine ⟨trivial, fun _ s₁ h₁ => ?_⟩
  obtain rfl : Recorded.change _ _ = s₁ := (Outcome.done.inj h₁).2
  have hengine := World.orderly_empty.adds_arrange (.newEngine {} none) trivial
  have hempty : ∀ v ∈ (#[] : Array Value), (World.empty.newEngine {} none).2.memory.Has v :=
    fun v hv => absurd hv (Array.not_mem_empty v)
  have hadds := hengine.orderly.memory.adds_newArray hempty
  refine ⟨⟨hadds.sound, hadds.le.size, fun t ht a items hmade => ?_⟩, fun _ s₂ h₂ => ?_⟩
  · obtain rfl := List.mem_singleton.1 ht
    cases hmade
  obtain rfl : Recorded.change _ _ = s₂ := (Outcome.done.inj h₂).2
  refine ⟨?_, fun _ _ _ => ⟨tree_adds _, fun _ _ _ => trivial⟩⟩
  exact (Nat.succ_pos _).trans_eq (Memory.size_newArray _ _).symm

end Nesting

/-- Two literals, the second of which holds what the first one has made. -/
theorem nested_literals_stay_acyclic :
    HostAdds 9 Nesting.turns ⟨World.empty, []⟩ ∧
      (let o := (Evaluator.within .stepwise 9).takeAll Recorded.change Nesting.turns
        ⟨World.empty, []⟩
      o.state.record.filterMap Transition.made =
          [(⟨4⟩, [.array ⟨2⟩, .array ⟨3⟩]), (⟨3⟩, []), (⟨2⟩, [.array ⟨0⟩, .array ⟨1⟩]), (⟨1⟩, [])] ∧
        ∀ w ∈ World.empty :: o.state.record.map Transition.after, w.Displays) := by
  obtain ⟨-, -, -, hdisplays⟩ :=
    array_literals_stay_acyclic 9 Nesting.turns (Nesting.hostAdds 9)
  exact ⟨Nesting.hostAdds 9, by decide +kernel, hdisplays⟩

end ScriptEngine
