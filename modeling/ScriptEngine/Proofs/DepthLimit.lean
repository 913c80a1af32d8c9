import ScriptEngine.Proofs.Frames
import ScriptEngine.Proofs.Pairing
import ScriptEngine.Proofs.Veils

/-!
# A higher limit on nested calls

The limit on nested calls is read by one command alone, the one that goes a call deeper.  All other
commands do the same under every limit.  So an evaluation under a higher limit runs beside the one
under the lower limit until the lower limit stops a call; and the error of that call is never caught
before it leaves the entry, unless a host function enters the engine again.

Main statement: `enter_raised_limit`.
-/

namespace ScriptEngine

/-! ### Host functions that do not enter the engine -/

/-- The program never enters the engine again. -/
def Host.Program.NeverEnters : Host.Program → Prop
  | finish _ => True
  | read next => ∀ m, (next m).NeverEnters
  | write _ next => next.NeverEnters
  | allocate _ next => ∀ v, (next v).NeverEnters
  | display _ next => ∀ text, (next text).NeverEnters
  | execute .. | callFunction .. | invokeCallback .. => False
  | inspectFrame _ next => ∀ view, (next view).NeverEnters

/-- No host function of the world enters an engine again. -/
def World.NeverReenters (w : World) : Prop :=
  ∀ object index args, ((w.apiClass object).call index args).NeverEnters

/-! ### Another limit -/

namespace World

/-- The world in which an engine allows calls to nest to another depth. -/
def withMaxCallDepth (w : World) (e : Id .engine) (limit : ℕ) : World :=
  w.modifyEngine e fun engine => { engine with maxCallDepth := limit }

variable (w : World) (e : Id .engine) (limit : ℕ)

/-- Of two limits that are set, the later one counts. -/
lemma withMaxCallDepth_withMaxCallDepth (limit' : ℕ) :
    (w.withMaxCallDepth e limit).withMaxCallDepth e limit' = w.withMaxCallDepth e limit' := by
  unfold withMaxCallDepth modifyEngine
  dsimp only
  rw [Pool.update_update]
  exact fun _ => rfl

/-- All but one of the commands take no notice of the limit. -/
lemma veil_withMaxCallDepth : Veil (·.withMaxCallDepth e limit) :=
  .modifyEngine e (fun _ => rfl) (fun _ _ _ => rfl) (fun _ _ _ => rfl) fun _ _ => rfl

/-- Under all limits, a command does the same unless it goes a call deeper. -/
lemma unaffected_withMaxCallDepth {α : Type} {k : Command α} (hk : ¬k.GoesDeeper) :
    k.run.Unaffected (·.withMaxCallDepth e limit) := by
  by_cases hinspects : k.Inspects
  · cases k with
    | inspectFrame d name =>
      exact (veil_withMaxCallDepth e limit).unaffected_inspectFrame (fun _ => rfl) d name
    | _ => exact hinspects.elim
  · exact (veil_withMaxCallDepth e limit).unaffected hk hinspects

end World

/-! ### Two limits side by side -/

/-- The action ended because calls were nested too deeply. -/
def Outcome.HitsLimit {σ α : Type} : Outcome σ α → Prop
  | .failed e _ => ∃ depth, e.cause = .recursionLimit depth
  | .done _ _ | .unfinished _ => False

/-- The second outcome is the first one under another limit, unless the first limit was hit.  Each
value satisfies `Q`, and the code is the one of `w₀`. -/
structure Outcome.Raised (w₀ : World) (e : Id .engine) (limit : ℕ) {α : Type} (Q : α → Prop)
    (o o' : Outcome World α) : Prop where
  code : o.state.code = w₀.code
  value : ∀ a ∈ o.value?, Q a
  same : o.HitsLimit ∨ o' = o.mapState (·.withMaxCallDepth e limit)

namespace Outcome.Raised

variable {w₀ : World} {e : Id .engine} {limit : ℕ} {α β : Type} {Q : α → Prop} {R : β → Prop}

/-- A value under both limits. -/
lemma done {a : α} (ha : Q a) {w : World} (hw : w.code = w₀.code) :
    Raised w₀ e limit Q (.done a w) (.done a (w.withMaxCallDepth e limit)) :=
  ⟨hw, fun _ hb => Option.some.inj hb ▸ ha, Or.inr rfl⟩

/-- An error under both limits. -/
lemma failed (err : EvalError) {w : World} (hw : w.code = w₀.code) :
    Raised w₀ e limit Q (.failed err w) (.failed err (w.withMaxCallDepth e limit)) :=
  ⟨hw, fun _ hb => (nomatch hb), Or.inr rfl⟩

/-- No end under both limits. -/
lemma unfinished {w : World} (hw : w.code = w₀.code) :
    Raised w₀ e limit Q (.unfinished w) (.unfinished (w.withMaxCallDepth e limit)) :=
  ⟨hw, fun _ hb => (nomatch hb), Or.inr rfl⟩

/-- What follows on both sides is the same under both limits if it is so after values and after
errors, and if nothing catches the error of the limit. -/
lemma follow {o o' : Outcome World α} (h : o.Raised w₀ e limit Q o')
    (f f' : α → World → Outcome World β) (g g' : EvalError → World → Outcome World β)
    (up : World → World)
    (hdone : ∀ a w, Q a → w.code = w₀.code →
      (f a w).Raised w₀ e limit R (f' a (w.withMaxCallDepth e limit)))
    (hfailed : ∀ err w, w.code = w₀.code →
      (g err w).Raised w₀ e limit R (g' err (w.withMaxCallDepth e limit)))
    (hhits : ∀ err w depth, err.cause = .recursionLimit depth → (g err w).HitsLimit)
    (hup : ∀ w, w.code = w₀.code → (up w).code = w₀.code ∧
      up (w.withMaxCallDepth e limit) = (up w).withMaxCallDepth e limit) :
    (o.follow f g up).Raised w₀ e limit R (o'.follow f' g' up) := by
  obtain ⟨hcode, hvalue, hsame⟩ := h
  cases o with
  | done a w =>
    rw [hsame.resolve_left not_false]
    exact hdone a w (hvalue a rfl) hcode
  | failed err w =>
    have herr := hfailed err w hcode
    rcases hsame with ⟨depth, hlimit⟩ | rfl
    · exact ⟨herr.code, herr.value, Or.inl (hhits err w depth hlimit)⟩
    · exact herr
  | @diverged w =>
    rw [hsame.resolve_left not_false]
    obtain ⟨hw, hraise⟩ := hup w hcode
    change Raised w₀ e limit R (.unfinished (up w))
      (.unfinished (up (w.withMaxCallDepth e limit)))
    rw [hraise]
    exact unfinished hw

end Outcome.Raised

/-- Actions in worlds with the code of `w₀` do the same under another limit of `e`, unless they hit
the limit. -/
def Pairing.raising (w₀ : World) (e : Id .engine) (limit : ℕ) : Pairing World World where
  Pairs Q x y := ∀ w, w.code = w₀.code → (x w).Raised w₀ e limit Q (y (w.withMaxCallDepth e limit))
  pure ha _ hw := .done ha hw
  fail cause _ hw := .failed (.of cause) hw
  diverge _ hw := .unfinished hw
  bind {_ _ _ _ _ _ f g} hxy hfg := by
    intro w hw
    exact (hxy w hw).follow f g .failed .failed id (fun a w ha hw => hfg a ha w hw)
      (fun err _ hw => .failed err hw) (fun _ _ depth hlimit => ⟨depth, hlimit⟩)
      fun _ hw => ⟨hw, rfl⟩

namespace Pairing

variable {w₀ : World} {e : Id .engine} {limit : ℕ} {α : Type} {Q : α → Prop} {x y : Action World α}

/-- A change of the error that leaves the cause alone. -/
lemma raising_mapError (h : (raising w₀ e limit).Pairs Q x y) {change : EvalError → EvalError}
    (hchange : ∀ err, (change err).cause = err.cause) :
    (raising w₀ e limit).Pairs Q (x.mapError change) (y.mapError change) :=
  fun w hw => (h w hw).follow .done .done (fun err => .failed (change err))
    (fun err => .failed (change err)) id (fun _ _ ha hw => .done ha hw)
    (fun err _ hw => .failed (change err) hw)
    (fun err _ depth hlimit => ⟨depth, (hchange err).trans hlimit⟩) fun _ hw => ⟨hw, rfl⟩

/-- An activity that begins and ends. -/
lemma raising_during (a : Activity) (h : (raising w₀ e limit).Pairs Q x y) :
    (raising w₀ e limit).Pairs Q (Machine.shared.during a x) (Machine.shared.during a y) := by
  intro w hw
  have hbegin : a.enter (w.withMaxCallDepth e limit) = (a.enter w).withMaxCallDepth e limit := by
    cases a <;> rfl
  have hend : ∀ w' : World,
      a.leave (w'.withMaxCallDepth e limit) = (a.leave w').withMaxCallDepth e limit := by
    intro w'
    cases a <;> rfl
  change Outcome.Raised w₀ e limit Q (x.ensuring a.leave (a.enter w))
    (y.ensuring a.leave (a.enter (w.withMaxCallDepth e limit)))
  rw [hbegin]
  refine (h _ ((a.code_enter w).trans hw)).follow (fun v w => .done v (a.leave w))
    (fun v w => .done v (a.leave w)) (fun err w => .failed err (a.leave w))
    (fun err w => .failed err (a.leave w)) id ?_ ?_ (fun _ _ depth hlimit => ⟨depth, hlimit⟩)
    fun _ hw => ⟨hw, rfl⟩
  · intro v w' hv hw'
    rw [hend]
    exact .done hv ((a.code_leave w').trans hw')
  · intro err w' hw'
    rw [hend]
    exact .failed err ((a.code_leave w').trans hw')

/-- An error is reported on its way out of an entry. -/
lemma raising_reported {bound : ℕ} {d : Id .engine} {Q : Value → Prop} {x y : Action World Value}
    (h : (raising w₀ e limit).Pairs Q x y) :
    (raising w₀ e limit).Pairs Q ((Evaluator.shared bound).reported d x)
      ((Evaluator.shared bound).reported d y) := by
  intro w hw
  rw [Evaluator.shared_reported_apply rfl, Evaluator.shared_reported_apply rfl]
  refine (h w hw).follow .done .done _ _ id (fun _ _ hv hw => .done hv hw) ?_
    (fun _ _ depth hlimit => ⟨depth, hlimit⟩) fun _ hw => ⟨hw, rfl⟩
  intro err w' hw'
  have hreport : (w'.withMaxCallDepth e limit).report d err =
      (w'.report d err).withMaxCallDepth e limit :=
    (World.veil_withMaxCallDepth e limit).comm (.report d err) w'
  rw [hreport]
  exact .failed err ((World.Change.report d err).code_eq.trans hw')

/-! ### Commands and host functions under two limits -/

/-- A command that does not go deeper does the same under another limit. -/
lemma raising_command {k : Command α} (hk : ¬k.GoesDeeper)
    (hvalue : ∀ w, w.code = w₀.code → ∀ a ∈ (k.run w).value?, Q a) :
    (raising w₀ e limit).Pairs Q k.run k.run :=
  fun w hw => ⟨(k.change w).code_eq.trans hw, hvalue w hw,
    Or.inr (World.unaffected_withMaxCallDepth e limit hk w)⟩

/-- Going a call deeper succeeds under the higher limit if it does under the lower one. -/
lemma raising_deeper (hlimit : ∀ x, w₀.engines.get? e = some x → x.maxCallDepth ≤ limit)
    (scope : Scope) :
    (raising w₀ e limit).Pairs Anything (Command.deeper scope).run (Command.deeper scope).run := by
  intro w hw
  have hhigher : (w.engine scope.engine).maxCallDepth ≤
      ((w.withMaxCallDepth e limit).engine scope.engine).maxCallDepth := by
    have hcode : (w.engines.get? e).map (·.code) = (w₀.engines.get? e).map (·.code) :=
      congrFun (congrArg Code.engine? hw) e
    unfold World.engine World.withMaxCallDepth World.modifyEngine
    rw [Pool.get?_update]
    split
    · rename_i he
      rw [← he]
      cases hx : w.engines.get? e with
      | none => exact Nat.le_refl _
      | some x =>
        rw [hx, Option.map_some] at hcode
        obtain ⟨x₀, hx₀, heq⟩ := Option.map_eq_some_iff.1 hcode.symm
        have hx₀limit := hlimit x₀ hx₀
        rwa [← x₀.maxCallDepth_code, heq, x.maxCallDepth_code] at hx₀limit
    · exact Nat.le_refl _
  rw [Command.run_deeper, Command.run_deeper]
  split
  · exact ⟨hw, fun _ hb => (nomatch hb), Or.inl ⟨_, rfl⟩⟩
  · rename_i hdepth
    rw [if_neg (fun hle => hdepth (Nat.le_trans hhigher hle))]
    exact .done trivial hw

/-- A host function that does not enter the engine again. -/
lemma raising_runHost (bound : ℕ) (d : Id .engine) {program : Host.Program}
    (hprogram : program.NeverEnters) :
    (raising w₀ e limit).Pairs Anything ((Evaluator.shared bound).runHost d program)
      ((Evaluator.shared bound).runHost d program) := by
  have hcommand : ∀ {β : Type} (k : Command β), ¬k.GoesDeeper →
      (raising w₀ e limit).Pairs Anything k.run k.run :=
    fun k hk => raising_command hk fun _ _ _ _ => trivial
  induction program with
  | finish result =>
    cases result with
    | ok v => exact (raising w₀ e limit).pure trivial
    | error err => exact fun w hw => .failed err hw
  | read next ih =>
    exact (raising w₀ e limit).bind (hcommand .memory not_false) fun m _ => ih m (hprogram m)
  | write change next ih =>
    exact (raising w₀ e limit).bind (hcommand (.modifyMemory change) not_false) fun _ _ =>
      ih hprogram
  | allocate make next ih =>
    exact (raising w₀ e limit).bind (hcommand (.allocate make) not_false) fun v _ =>
      ih v (hprogram v)
  | display v next ih =>
    exact (raising w₀ e limit).bind (hcommand (.display v) not_false) fun text _ =>
      ih text (hprogram text)
  | execute | callFunction | invokeCallback => exact hprogram.elim
  | inspectFrame name next ih =>
    exact (raising w₀ e limit).bind (hcommand (.inspectFrame d name) not_false) fun view _ =>
      ih view (hprogram view)

/-- The engine does the same under a higher limit, until the lower one is hit. -/
theorem raising_runs (hlimit : ∀ x, w₀.engines.get? e = some x → x.maxCallDepth ≤ limit)
    (hhost : w₀.NeverReenters) :
    (raising w₀ e limit).Runs Vocabulary.all Machine.shared Machine.shared where
  closed := Vocabulary.closed_all
  exec {α} k _ := by
    by_cases hk : k.GoesDeeper
    · cases k with
      | deeper scope => exact raising_deeper hlimit scope
      | _ => exact hk.elim
    · exact raising_command hk fun _ _ a _ => Vocabulary.yields_all k a
  argument _ w hw := .done (fun _ _ => trivial) hw
  note _ _ hw := .done trivial hw
  during {a} _ _ _ h := raising_during a h
  locate l {_ _ _ _} h := raising_mapError h fun err => by
    unfold EvalError.locate
    split <;> rfl
  host bound _ {scope object args} index _ _ _ := by
    have hclass : (raising w₀ e limit).Pairs (fun c => c = w₀.apiClass object)
        (Command.apiClass object).run (Command.apiClass object).run := by
      refine raising_command not_false fun w hw c hc => ?_
      obtain rfl := Option.some.inj hc
      exact World.apiClass_eq_of_code_eq hw object
    refine (raising w₀ e limit).bind hclass fun c hc => ?_
    rw [hc]
    exact raising_runHost bound scope.engine (hhost object index args)

end Pairing

/-- Raising the limit on nested calls changes no entry that does not hit the limit: under the higher
limit the entry ends in the same way, with the same value or error, and in the same world. -/
theorem enter_raised_limit (bound : ℕ) (e : Id .engine) (entry : Entry) (w : World) {low high : ℕ}
    (hle : low ≤ high) (hhost : w.NeverReenters)
    (hlimit : ¬((Evaluator.shared bound).enter e entry (w.withMaxCallDepth e low)).HitsLimit) :
    (Evaluator.shared bound).enter e entry (w.withMaxCallDepth e high) =
      ((Evaluator.shared bound).enter e entry (w.withMaxCallDepth e low)).mapState
        (·.withMaxCallDepth e high) := by
  have hhigher : ∀ x, (w.withMaxCallDepth e low).engines.get? e = some x →
      x.maxCallDepth ≤ high := by
    intro x hx
    have hx : (w.engines.update e _).get? e = some x := hx
    rw [Pool.get?_update_self] at hx
    obtain ⟨y, -, rfl⟩ := Option.map_eq_some_iff.1 hx
    exact hle
  have hruns : (Pairing.raising (w.withMaxCallDepth e low) e high).Runs .all .shared .shared :=
    Pairing.raising_runs hhigher hhost
  have henters := hruns.entersBy (hruns.trees bound).2 (fun _ h => Pairing.raising_reported h)
    fun text _ _ h => Pairing.raising_mapError h fun _ => rfl
  have hentry := henters.enter (e := e) trivial (Vocabulary.enters_all entry)
  have hraised := (hentry (w.withMaxCallDepth e low) rfl).same
  rw [World.withMaxCallDepth_withMaxCallDepth] at hraised
  exact hraised.resolve_left hlimit

/-- A function that calls itself once needs two levels, and does the same with seven. -/
theorem selfCalling_raised_limit :
    let enter := fun limit => (Evaluator.shared 10).enter ⟨0⟩ (.execute SelfCalling.script)
      (SelfCalling.world.withMaxCallDepth ⟨0⟩ limit)
    (enter 1).HitsLimit ∧ ¬(enter 2).HitsLimit ∧
      enter 7 = (enter 2).mapState (·.withMaxCallDepth ⟨0⟩ 7) := by
  intro enter
  have hlow : (enter 1).HitsLimit := ⟨1, rfl⟩
  have hhigh : ¬(enter 2).HitsLimit := not_false
  have hhost : SelfCalling.world.NeverReenters := fun object index args => trivial
  exact ⟨hlow, hhigh, enter_raised_limit 10 ⟨0⟩ _ SelfCalling.world (by decide) hhost hhigh⟩

end ScriptEngine
