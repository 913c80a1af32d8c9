import ScriptEngine.Proofs.Frames

/-!
# Shared frames against stacks of arguments

All invocations of a function share one frame, which a nested invocation overwrites.  The machine
`Machine.stacked` does it properly: each invocation pushes its arguments on a stack of its function,
pops them when it ends, and a parameter is an argument on top of the stack.

The two machines differ only where a parameter is read while the invocation that began last has ended
and an outer one still runs: such a read is *stale*.  In an evaluation without stale reads they give
the same values, signals and errors and leave the same world behind, and they are broken off at the
same place.  The proof lets the traced machine run beside the stacked one; the stack of a function
lists the arguments of its running invocations, and away from stale reads the invocation that began
last is the innermost one that runs.

Main statement: `shared_frames_suffice`.
-/

namespace ScriptEngine

/-! ### Stacks of arguments -/

/-- The arguments of the running invocations of each function, innermost first. -/
abbrev Stacks := Id .function → List (List Value)

/-- A world with stacks of arguments. -/
abbrev Stacked := Recorded Stacks

namespace Activity

/-- An invocation of a function pushes its arguments. -/
def push : Activity → Stacks → Stacks
  | function f _ args, stack => Function.update stack f (args :: stack f)
  | script, stack | callback _ _, stack => stack

/-- An invocation of a function pops its arguments. -/
def pop : Activity → Stacks → Stacks
  | function f _ _, stack => Function.update stack f (stack f).tail
  | script, stack | callback _ _, stack => stack

end Activity

/-- The machine that reads a parameter from the top of the stack of its function.  In all else it is
the engine; a host function that looks at the frame of a function sees the one of the engine. -/
def Machine.stacked : Machine Stacked where
  exec k := fun s => (k.run s.world).mapState fun w => ⟨w, s.record⟩
  enter a s := ⟨a.enter s.world, a.push s.record⟩
  leave a s := ⟨a.leave s.world, a.pop s.record⟩
  argument? f i := fun s =>
    .done ((s.world.function? f).bind fun _ =>
      (s.record f).head?.map fun args => args[i]?.getD .undefined) s
  note _ s := s

namespace History

/-! ### Stale reads -/

/-- The invocation of `f` that began last has ended. -/
def latestHasEnded (f : Id .function) : History → Bool
  | [] => false
  | ⟨.began a, _⟩ :: past => !(a.invocation? f).isSome && latestHasEnded f past
  | ⟨.ended a, _⟩ :: past => (a.invocation? f).isSome || latestHasEnded f past
  | ⟨.acted, _⟩ :: past | ⟨.read _ _, _⟩ :: past | ⟨.marked _, _⟩ :: past => latestHasEnded f past

/-- The frame of `f` is stale: the invocation that began last has ended, and an outer one runs. -/
def Stale (f : Id .function) (h : History) : Prop :=
  latestHasEnded f h = true ∧ running f h ≠ []

instance (f : Id .function) (h : History) : Decidable (Stale f h) :=
  inferInstanceAs (Decidable (_ ∧ _))

/-- If the moment is a read of a parameter, the frame is not stale. -/
def ReadsFresh : Moment → History → Prop
  | ⟨.read f _, _⟩, h => ¬Stale f h
  | _, _ => True

/-- If the moment is the beginning of an invocation, it is the only one of its function. -/
def EntersOnce : Moment → History → Prop
  | ⟨.began (.function f _ _), _⟩, h => (running f h).length = 1
  | _, _ => True

instance : (moment : Moment) → (h : History) → Decidable (ReadsFresh moment h)
  | ⟨.read f _, _⟩, h => inferInstanceAs (Decidable ¬Stale f h)
  | ⟨.began _, _⟩, _ | ⟨.ended _, _⟩, _ | ⟨.acted, _⟩, _ | ⟨.marked _, _⟩, _ => isTrue trivial

/-- No parameter is read from a stale frame. -/
abbrev NoStaleRead : History → Prop := Always ReadsFresh

/-- No function is entered while it runs. -/
abbrev NoReentry : History → Prop := Always EntersOnce

variable {f : Id .function} {h past : History} {c : List Activity}

/-- While the function runs and the invocation that began last has not ended, that one is the
innermost. -/
lemma Nested.latest?_eq_head? (hnested : Nested h c) (hended : latestHasEnded f h = false)
    (hrunning : running f h ≠ []) : latest? f h = (running f h).head? := by
  induction hnested with
  | nil => exact absurd rfl hrunning
  | began a w hpast ih =>
    rw [running_began] at hrunning ⊢
    rw [latest?]
    cases ha : a.invocation? f with
    | some invocation => rfl
    | none =>
      rw [latestHasEnded, ha] at hended
      rw [ha] at hrunning
      exact ih hended hrunning
  | ended a w hpast ih =>
    rw [latestHasEnded, Bool.or_eq_false_iff] at hended
    have ha : a.invocation? f = none := by simpa using hended.1
    have hsame := hpast.running_ended (f := f) w
    rw [ha, Option.toList_none, List.nil_append] at hsame
    rw [← hsame] at hrunning ⊢
    exact ih hended.2 hrunning
  | acted w hpast ih | read g i w hpast ih | marked mark w hpast ih => exact ih hended hrunning

/-- Where no function is entered while it runs, at most one invocation of it runs, and none once the
one that began last has ended. -/
lemma Nested.running_of_noReentry (hnested : Nested h c) (hentries : NoReentry h) :
    (running f h).length ≤ 1 ∧ (latestHasEnded f h = true → running f h = []) := by
  induction hnested with
  | nil => exact ⟨Nat.zero_le 1, fun _ => rfl⟩
  | @began older d a w hpast ih =>
    have hbefore := ih hentries.tail
    rw [latestHasEnded]
    cases ha : a.invocation? f with
    | none => rwa [running_began, ha]
    | some invocation =>
      have hlength : (running f (⟨.began a, w⟩ :: older)).length = 1 := by
        obtain ⟨site, args, rfl⟩ := Activity.eq_of_invocation? ha
        exact hentries.head
      exact ⟨Nat.le_of_eq hlength, fun hended => by simp at hended⟩
  | @ended older d a w hpast ih =>
    have hbefore := ih hentries.tail
    rw [hpast.running_ended w] at hbefore
    rw [latestHasEnded]
    cases ha : a.invocation? f with
    | none => rwa [ha] at hbefore
    | some invocation =>
      rw [ha] at hbefore
      have hnone : running f (⟨.ended a, w⟩ :: older) = [] := by
        have hlength := hbefore.1
        rw [Option.toList_some, List.singleton_append, List.length_cons] at hlength
        exact List.eq_nil_of_length_eq_zero (by omega)
      rw [hnone]
      exact ⟨Nat.zero_le 1, fun _ => rfl⟩
  | acted w hpast ih | read g i w hpast ih | marked mark w hpast ih => exact ih hentries.tail

/-- No read is stale where no function is entered while it runs. -/
lemma Nested.noStaleRead (hnested : Nested h c) (hentries : NoReentry h) : NoStaleRead h := by
  intro moment past hsuffix
  obtain ⟨d, hd⟩ := hnested.of_suffix hsuffix
  obtain ⟨event, w⟩ := moment
  cases event with
  | read f i =>
    intro hstale
    exact hstale.2 ((hd.running_of_noReentry (hentries.of_suffix hsuffix)).2 hstale.1)
  | began a | ended a | acted | marked mark => trivial

end History

/-! ### The two machines side by side -/

namespace Simulation

/-- The traced machine and the stacked one, up to the first stale read. -/
def stacking (w₀ : World) : Simulation Traced Stacked where
  rel c s t := s.world = t.world ∧ Traced.FramesFollow w₀ c s ∧
    ∀ f, t.record f = (History.running f s.record).map Prod.snd
  lost s := s.world.code = w₀.code ∧ ¬History.NoStaleRead s.record
  cut _ := True
  abreast := True
  cut_of_lost _ := trivial
  cut_of_rel _ := trivial

variable {w₀ : World} {c d : List Activity} {s : Traced} {t : Stacked}

/-- A stale read is never undone. -/
lemma stacking_lost_log (h : (stacking w₀).lost s) (event : Event) {w : World}
    (hcode : w.code = s.world.code) : (stacking w₀).lost (s.log event w) :=
  ⟨hcode.trans h.1, fun hall => h.2 hall.tail⟩

/-- Away from stale reads, both machines find the same argument. -/
lemma stacking_argument (h : (stacking w₀).rel c s t) (f : Id .function) (i : ℕ)
    (hstale : ¬History.Stale f s.record) :
    (s.world.function? f).bind (·.frame.argument? i) =
      (t.world.function? f).bind fun _ =>
        (t.record f).head?.map fun args => args[i]?.getD .undefined := by
  obtain ⟨hworld, hfollow, hstacks⟩ := h
  rw [← hworld, hstacks f]
  cases hf : s.world.function? f with
  | none => rfl
  | some function =>
    have htracks := hfollow.frames f function hf
    rw [Option.bind_some, Option.bind_some]
    by_cases hrunning : History.running f s.record = []
    · rw [hrunning, List.length_nil] at htracks
      rw [hrunning, htracks.eq_idle]
      rfl
    · have hended : History.latestHasEnded f s.record = false := by
        by_contra htrue
        exact hstale ⟨Bool.of_not_eq_false htrue, hrunning⟩
      have hhead := hfollow.nested.latest?_eq_head? hended hrunning
      obtain ⟨site, hsite, hlatest⟩ := htracks.current (List.length_pos_iff.2 hrunning)
      rw [List.head?_map, ← hhead, hlatest, CallFrame.argument?, hsite]
      rfl

/-- The stacks of the stacked machine go with what runs when an activity begins. -/
lemma stacking_push (a : Activity) {h : History} {stack : Stacks}
    (hstacks : ∀ f, stack f = (History.running f h).map Prod.snd) (w : World) (f : Id .function) :
    a.push stack f = (History.running f (⟨.began a, w⟩ :: h)).map Prod.snd := by
  rw [History.running_began, List.map_append, ← hstacks f]
  cases a with
  | script | callback callback args => rfl
  | function g site args =>
    rw [Activity.push, Activity.invocation?]
    by_cases hgf : g = f
    · subst hgf
      rw [Function.update_self, if_pos rfl]
      rfl
    · rw [Function.update_of_ne (Ne.symm hgf), if_neg hgf]
      rfl

/-- The stacks of the stacked machine go with what runs when an activity ends. -/
lemma stacking_pop {a : Activity} {h : History} (hnested : History.Nested h (a :: c))
    {stack : Stacks} (hstacks : ∀ f, stack f = (History.running f h).map Prod.snd) (w : World)
    (f : Id .function) :
    a.pop stack f = (History.running f (⟨.ended a, w⟩ :: h)).map Prod.snd := by
  have hbefore := hstacks f
  rw [hnested.running_ended w, List.map_append] at hbefore
  cases a with
  | script | callback callback args => exact hbefore
  | function g site args =>
    rw [Activity.invocation?] at hbefore
    rw [Activity.pop]
    by_cases hgf : g = f
    · subst hgf
      rw [if_pos rfl] at hbefore
      rw [Function.update_self, hbefore]
      rfl
    · rw [if_neg hgf] at hbefore
      rw [Function.update_of_ne (Ne.symm hgf), hbefore]
      rfl

/-- A command does the same on both machines. -/
lemma stacking_exec (hbound : w₀.WellBound) {α : Type} (k : Command α) :
    (stacking w₀).Matches c ((Coverage.boundTo w₀).Yields k) (Machine.traced.exec k)
      (Machine.stacked.exec k) := by
  refine Matches.of_agrees ?_ ?_
  · rintro s t hst
    obtain ⟨hworld, hfollow, hstacks⟩ := hst
    have hkeeps := (Traced.FramesFollow.kept hbound).keeps_exec hfollow k
    change (stacking w₀).Agrees c _ ((k.run s.world).mapState (s.log .acted))
      (some ((k.run t.world).mapState fun w => ⟨w, t.record⟩))
    change ((k.run s.world).mapState (s.log .acted)).Keeps _ c _ at hkeeps
    rw [← hworld]
    cases hk : k.run s.world with
    | done a w =>
      rw [hk] at hkeeps
      exact ⟨hkeeps.1, Or.inr ⟨⟨w, t.record⟩, rfl, rfl, hkeeps.2, hstacks⟩⟩
    | failed e w =>
      rw [hk] at hkeeps
      exact Or.inr ⟨⟨w, t.record⟩, rfl, rfl, hkeeps, hstacks⟩
    | @diverged w =>
      rw [hk] at hkeeps
      obtain ⟨d, hd⟩ := hkeeps
      exact ⟨trivial, fun _ => Or.inr ⟨d, ⟨w, t.record⟩, rfl, rfl, hd, hstacks⟩⟩
  · intro s hlost
    have hclosed := hbound.closed.of_code_eq hlost.1
    have hchange := k.change s.world
    change (stacking w₀).Agrees c _ ((k.run s.world).mapState (s.log .acted)) none
    cases hk : k.run s.world with
    | done a w =>
      rw [hk] at hchange
      exact ⟨hclosed.yields hk, Or.inl (stacking_lost_log hlost .acted hchange.code_eq)⟩
    | failed e w =>
      rw [hk] at hchange
      exact Or.inl (stacking_lost_log hlost .acted hchange.code_eq)
    | @diverged w =>
      rw [hk] at hchange
      exact ⟨trivial, fun _ => Or.inl (stacking_lost_log hlost .acted hchange.code_eq)⟩

/-- A read of a parameter gives the same on both machines, or is stale. -/
lemma stacking_read (hbound : w₀.WellBound) (f : Id .function) (i : ℕ) :
    (stacking w₀).Matches c Anything (Machine.traced.argument? f i)
      (Machine.stacked.argument? f i) := by
  refine Matches.of_agrees ?_ ?_
  · intro s t hst
    obtain ⟨hworld, hfollow, hstacks⟩ := hst
    refine ⟨trivial, ?_⟩
    by_cases hstale : History.Stale f s.record
    · refine Or.inl ⟨hfollow.code, fun hall => ?_⟩
      exact hall.head hstale
    · have hargument := stacking_argument ⟨hworld, hfollow, hstacks⟩ f i hstale
      have hread := (Traced.FramesFollow.kept hbound).read f i hfollow
      refine Or.inr ⟨t, ?_, hworld, hread, hstacks⟩
      rw [hargument]
      rfl
  · intro s hlost
    exact ⟨trivial, Or.inl (stacking_lost_log hlost _ rfl)⟩

/-- What neither machine takes notice of keeps them side by side. -/
lemma stacking_mark (hbound : w₀.WellBound) (mark : Mark) {t : Option Stacked}
    (hst : (stacking w₀).Tied c s t) :
    (stacking w₀).Tied c (s.log (.marked mark) s.world) (t.map id) := by
  cases t with
  | none => exact stacking_lost_log hst _ rfl
  | some t =>
    obtain ⟨hworld, hfollow, hstacks⟩ := hst
    have hmarked := (Traced.FramesFollow.kept hbound).marked mark trivial (by cases mark <;> trivial)
      hfollow
    exact ⟨hworld, hmarked, hstacks⟩

/-- The two machines stay side by side in each step. -/
lemma stacking_respects (hbound : w₀.WellBound) :
    (stacking w₀).Respects Machine.traced Machine.stacked (Coverage.boundTo w₀) where
  exec _ _ k := stacking_exec hbound k
  enter c a ha s t hst := by
    cases t with
    | none => exact stacking_lost_log hst _ (a.code_enter s.world)
    | some t =>
      obtain ⟨hworld, hfollow, hstacks⟩ := hst
      refine ⟨congrArg a.enter hworld, (Traced.FramesFollow.kept hbound).began a ha hfollow, ?_⟩
      exact stacking_push a hstacks _
  leave c a s t hst := by
    cases t with
    | none => exact stacking_lost_log hst _ (a.code_leave s.world)
    | some t =>
      obtain ⟨hworld, hfollow, hstacks⟩ := hst
      refine ⟨congrArg a.leave hworld, (Traced.FramesFollow.kept hbound).ended a hfollow, ?_⟩
      exact stacking_pop hfollow.nested hstacks _
  argument _ f i := stacking_read hbound f i
  evaluating _ scope e _ _ _ hst := stacking_mark hbound (.evaluating scope e) hst
  note _ mark _ _ _ _ hst := stacking_mark hbound mark hst

end Simulation

/-! ### The two machines give the same -/

/-- The evaluation `x` of the traced machine is the evaluation `z` of the engine, and that is the
evaluation `y` of the stacked machine unless a read was stale; no read is stale where no function is
entered while it runs. -/
structure World.SharedFramesSuffice {α : Type} (w : World) (x : Action Traced α)
    (y : Action Stacked α) (z : Action World α) : Prop where
  traced : (x ⟨w, []⟩).mapState (·.world) = z w
  stacked : History.NoStaleRead (x ⟨w, []⟩).state.record →
    (y ⟨w, fun _ => []⟩).mapState (·.world) = z w
  stale : History.NoReentry (x ⟨w, []⟩).state.record →
    History.NoStaleRead (x ⟨w, []⟩).state.record

namespace World

variable {w : World}

/-- Evaluations that correspond in both ways give the same. -/
lemma sharedFramesSuffice_of_matches (hidle : w.Idle) {α : Type} {x : Action Traced α}
    {y : Action Stacked α} {z : Action World α}
    (herase : Simulation.erasure.Matches [] Simulation.Anything x z)
    (hkept : (Simulation.invariant (Traced.FramesFollow w)).Matches [] Simulation.Anything x x)
    (hstack : (Simulation.stacking w).Matches [] Simulation.Anything x y) :
    w.SharedFramesSuffice x y z where
  traced := herase.erases ⟨w, []⟩
  stacked hstale := by
    have hstart : (Simulation.stacking w).rel [] ⟨w, []⟩ ⟨w, fun _ => []⟩ :=
      ⟨rfl, Traced.FramesFollow.start hidle, fun _ => rfl⟩
    have hworld : ∀ d (s : Traced) (t : Stacked), (Simulation.stacking w).rel d s t →
        s.world = t.world := fun _ _ _ hst => hst.1
    have hsame := hstack.mapState_eq trivial hworld hstart fun hlost => hlost.2 hstale
    exact hsame.symm.trans (herase.erases ⟨w, []⟩)
  stale hentries := by
    obtain ⟨c, hfollow⟩ := (hkept.keeps (Traced.FramesFollow.start hidle)).exists_state
    exact hfollow.nested.noStaleRead hentries

end World

/-- The shared frames of the engine give what stacks of arguments would give, in every evaluation
from an idle world in which no read of a parameter is stale: of an expression, of a statement, and
of a series of entries of the host. -/
theorem shared_frames_suffice (bound : ℕ) {w : World} (hidle : w.Idle) (hbound : w.WellBound) :
    (∀ scope e, (Coverage.boundTo w).Covers e →
      w.SharedFramesSuffice ((Evaluator.within .traced bound).evaluate scope e)
        ((Evaluator.within .stacked bound).evaluate scope e)
        ((Evaluator.shared bound).evaluate scope e)) ∧
    (∀ scope s, (Coverage.boundTo w).CoversStmt s →
      w.SharedFramesSuffice ((Evaluator.within .traced bound).signalOf scope s)
        ((Evaluator.within .stacked bound).signalOf scope s)
        ((Evaluator.shared bound).signalOf scope s)) ∧
    (∀ entries : List (Id .engine × Entry),
      (∀ x ∈ entries, (Coverage.boundTo w).CoversEntry x.2) →
      w.SharedFramesSuffice ((Evaluator.within .traced bound).enterAll entries)
        ((Evaluator.within .stacked bound).enterAll entries)
        ((Evaluator.shared bound).enterAll entries)) := by
  have herase := Evaluator.traced_simulates bound
  have hkept := (Traced.FramesFollow.kept hbound).simulates bound
  have hstack := Evaluator.Simulates.within (Simulation.stacking_respects hbound)
    (Nat.le_refl bound) fun _ => rfl
  refine ⟨fun scope e he => ?_, fun scope s hs => ?_, fun entries hentries => ?_⟩
  · refine World.sharedFramesSuffice_of_matches hidle ?_ (hkept.evaluate [] trivial he)
      (hstack.evaluate [] trivial he)
    exact herase.evaluate [] trivial (e.everywhere_of_forall fun _ => trivial)
  · refine World.sharedFramesSuffice_of_matches hidle ?_ (hkept.signalOf [] trivial trivial hs)
      (hstack.signalOf [] trivial trivial hs)
    exact herase.signalOf [] trivial trivial
      (s.everywhere_of_forall (fun _ => trivial) fun _ => trivial)
  · refine World.sharedFramesSuffice_of_matches hidle ?_ (hkept.enterAll [] hentries)
      (hstack.enterAll [] hentries)
    exact herase.enterAll [] fun x _ => Coverage.coversEntry_all x.2

/-- A function that reads its parameter before it calls itself does without a stack. -/
theorem selfCalling_needs_no_stack :
    let script := [((⟨0⟩ : Id .engine), Entry.execute SelfCalling.script)]
    History.NoStaleRead
      ((Evaluator.within .traced 10).enterAll script ⟨SelfCalling.world, []⟩).state.record ∧
    ((Evaluator.within .stacked 10).enterAll script ⟨SelfCalling.world, fun _ => []⟩).mapState
        (·.world) = (Evaluator.shared 10).enterAll script SelfCalling.world := by
  intro script
  have hentries : ∀ x ∈ script, (Coverage.boundTo SelfCalling.world).CoversEntry x.2 := by
    intro x hx
    obtain rfl := List.mem_singleton.1 hx
    exact SelfCalling.script_bound
  have hfresh : History.NoStaleRead
      ((Evaluator.within .traced 10).enterAll script ⟨SelfCalling.world, []⟩).state.record := by
    decide +kernel
  have hsuffice := shared_frames_suffice 10 SelfCalling.idle SelfCalling.wellBound
  exact ⟨hfresh, (hsuffice.2.2 script hentries).stacked hfresh⟩

end ScriptEngine
