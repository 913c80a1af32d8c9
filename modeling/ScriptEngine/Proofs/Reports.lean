import ScriptEngine.Proofs.Chronicle
import ScriptEngine.Proofs.Veils

/-!
# Reports of entries that fail

Entries nest: a host function that a script calls may enter the engine again.  Each entry that ends with
an error reports it before the error reaches whoever made the entry, so that the reports of an engine
are the errors with which its entries have ended so far, in the order in which they ended.  A collecting
reporter has the texts of these errors, and no other reporter has any.  For the evaluation it makes no
difference which reporter an engine has.

The context of an error is the function or the callback by which the engine had been entered when the
error left it.  An entry gives an error a context only if it has none.  So the innermost entry that an
error crosses gives the context, unless a host function has raised the error with a context of its own.

Main statement: `failures_reported_in_order`.
-/

namespace ScriptEngine

/-! ### The reports of an engine -/

namespace Reporter

/-- The reporter after some more errors, oldest first. -/
def after : Reporter → List EvalError → Reporter
  | collect texts, errs => collect (texts ++ errs.map (·.text))
  | log, _ => log
  | silent, _ => silent

@[simp] lemma after_nil (r : Reporter) : r.after [] = r := by
  cases r <;> simp [after]

/-- The last of some errors is reported last. -/
lemma after_concat (r : Reporter) (errs : List EvalError) (err : EvalError) :
    r.after (errs ++ [err]) = (r.after errs).report err := by
  cases r <;> simp [after, report]

end Reporter

/-- The error with which an entry to an engine ends, if it does so here. -/
def Occurrence.failure? (d : Id .engine) : Occurrence → Option EvalError
  | left e _ (.error err) => if e = d then some err else none
  | _ => none

/-- The errors with which entries to an engine have ended, oldest first. -/
def Chronicle.failures (d : Id .engine) : Chronicle → List EvalError
  | [] => []
  | now :: past => failures d past ++ (now.occurrence.failure? d).toList

namespace World

variable (w : World) (d : Id .engine)

/-- An engine that is asked for a report has one more. -/
lemma reporter_report (e : Id .engine) (err : EvalError) :
    ((w.report e err).engine d).reporter =
      if e = d then (w.engine d).reporter.report err else (w.engine d).reporter := by
  unfold report engine modifyEngine
  rw [Pool.get?_update]
  split
  · cases w.engines.get? d with
    | none => rfl
    | some x => rfl
  · rfl

end World

/-! ### The context of an error -/

/-- The error has no context, or it has the one with which a host function has just returned it. -/
def Blame.context : Blame where
  holds err past := err.context = none ∨ ∃ raised w rest,
    past = ⟨.returned (.error raised), w⟩ :: rest ∧ err.cause = raised.cause ∧
      err.context = raised.context
  plain _ _ := .inl rfl

/-- What occurs now is told of the innermost visit that is going on: an error that crosses a
function or a callback by which the engine was entered, or one that leaves the engine. -/
def Occasion.Attributed (now : Occasion) (past : Chronicle) : Prop :=
  match now.occurrence with
  | .crossed label err =>
    ∃ v c, past.Nested (v :: c) ∧ v.Names label ∧ Blame.context.holds err past
  | .left e entry (.error err) =>
    ∃ v c, past.Nested (v :: c) ∧ v.engine = e ∧ v.entry = entry ∧ v.Leaves .context err past
  | _ => True

/-! ### The account -/

/-- The reporters of a world are those of `w₀` after the errors with which entries have ended. -/
def World.ReportsFailures (w w₀ : World) (past : Chronicle) : Prop :=
  ∀ d, (w.engine d).reporter = (w₀.engine d).reporter.after (past.failures d)

/-- Entries are nested, what has failed has been reported at each moment, and errors are attributed
to the entries that they have left. -/
structure Chronicled.Reports (w₀ : World) (c : List Visit) (s : Chronicled) : Prop where
  code : s.world.code = w₀.code
  nested : s.record.Nested c
  reporters : s.world.ReportsFailures w₀ s.record
  always : s.record.Always fun now past => now.world.ReportsFailures w₀ (now :: past)
  attributed : s.record.Always Occasion.Attributed

namespace Chronicled.Reports

variable {w₀ w : World} {c c' : List Visit} {s : Chronicled} (h : Reports w₀ c s)

include h

/-- The world changes, but no reporter does. -/
lemma withWorld (hcode : w.code = s.world.code)
    (hreporter : ∀ d, (w.engine d).reporter = (s.world.engine d).reporter) :
    Reports w₀ c (s.withWorld w) where
  code := hcode.trans h.code
  nested := h.nested
  reporters d := (hreporter d).trans (h.reporters d)
  always := h.always
  attributed := h.attributed

/-- Something is written down that is no failure. -/
lemma write {o : Occurrence} (hfailure : ∀ d, o.failure? d = none)
    (hnested : Chronicle.Nested (⟨o, s.world⟩ :: s.record) c')
    (hattributed : Occasion.Attributed ⟨o, s.world⟩ s.record) : Reports w₀ c' (s.write o) := by
  have hreporters : s.world.ReportsFailures w₀ (⟨o, s.world⟩ :: s.record) := by
    intro d
    rw [Chronicle.failures, hfailure, Option.toList_none, List.append_nil]
    exact h.reporters d
  exact ⟨h.code, hnested, hreporters, ⟨hreporters, h.always⟩, hattributed, h.attributed⟩

/-- Something happens within an entry that has nothing to do with its end. -/
lemma inner {o : Occurrence} (hinner : o.IsInner) (hfailure : ∀ d, o.failure? d = none)
    (hattributed : Occasion.Attributed ⟨o, s.world⟩ s.record) : Reports w₀ c (s.write o) :=
  h.write hfailure (.inner _ hinner h.nested) hattributed

omit h in
/-- An entry ends with an error, which is reported. -/
lemma failed {v : Visit} {err : EvalError} (h : Reports w₀ (v :: c) s)
    (hleaves : v.Leaves .context err s.record) :
    Reports w₀ c ((s.withWorld (s.world.report v.engine err)).write
      (.left v.engine v.entry (.error err))) := by
  have hreporters : (s.world.report v.engine err).ReportsFailures w₀
      (⟨.left v.engine v.entry (.error err), s.world.report v.engine err⟩ :: s.record) := by
    intro d
    rw [World.reporter_report, Chronicle.failures, Occurrence.failure?, h.reporters d]
    split
    · exact ((w₀.engine d).reporter.after_concat _ err).symm
    · rw [Option.toList_none, List.append_nil]
  exact ⟨(World.Change.report v.engine err).code_eq.trans h.code, .left _ _ h.nested, hreporters,
    ⟨hreporters, h.always⟩, ⟨v, c, h.nested, rfl, rfl, hleaves⟩, h.attributed⟩

end Chronicled.Reports

/-- What is claimed of reports. -/
def Account.reports (w₀ : World) : Account :=
  ⟨Chronicled.Reports w₀, .context⟩

/-- Each occurrence keeps what is claimed of reports. -/
lemma Account.reports_kept (w₀ : World) :
    (Account.reports w₀).Kept w₀ Coverage.all fun _ _ _ => True where
  closed := Coverage.closed_all w₀
  code h := h.code
  acted {_ s _} k hk h := h.withWorld (k.change s.world).code_eq (k.keeps_of_isOrdinary hk s.world).1
  evaluating _ h := h.inner trivial (fun _ => rfl) trivial
  began {_ s} a _ h := by
    have hbegun : Chronicled.Reports w₀ _ (s.withWorld (a.enter s.world)) :=
      h.withWorld (a.code_enter s.world) fun d => by cases a <;> rfl
    exact hbegun.inner trivial (fun _ => rfl) trivial
  ended {_ s} a h := h.withWorld (a.code_leave s.world) fun d => by cases a <;> rfl
  refused _ _ h := h.inner trivial (fun _ => rfl) trivial
  uncoded _ _ _ h := h.inner trivial (fun _ => rfl) trivial
  ran _ _ _ h := h.inner trivial (fun _ => rfl) trivial
  bound _ _ := trivial
  resolved _ _ _ := trivial
  found _ _ := trivial
  kept {_ _ site _ _ _ resolution} h _ _ :=
    h.withWorld (World.Change.resolution site resolution).code_eq fun _ => rfl
  called _ h := h.inner trivial (fun _ => rfl) trivial
  returned _ h := h.inner trivial (fun _ => rfl) trivial
  entering e entry h := h.write (fun _ => rfl) (.entering e entry _ h.nested) trivial
  crossed {v c _ _ _} hlabel herr h :=
    h.inner trivial (fun _ => rfl) ⟨v, c, h.nested, hlabel, herr⟩
  succeeded value h := h.write (fun _ => rfl) (.left (.ok value) _ h.nested) trivial
  failed hleaves h := h.failed hleaves
  located {err _} l herr := by
    have hlocate : (err.locate l).cause = err.cause ∧ (err.locate l).context = err.context := by
      unfold EvalError.locate
      split <;> exact ⟨rfl, rfl⟩
    change (err.locate l).context = none ∨ _
    rw [hlocate.1, hlocate.2]
    exact herr
  blamed err w past := .inr ⟨err, w, past, rfl, rfl, rfl⟩

/-! ### Other reporters -/

/-- The world in which an engine has another reporter. -/
def World.withReporter (w : World) (d : Id .engine) (ρ : Reporter) : World :=
  w.modifyEngine d fun engine => { engine with reporter := ρ }

namespace World

variable (d : Id .engine)

/-- An engine whose reporter tells nobody may as well be told before as after a report. -/
lemma veil_silent : Veil (·.withReporter d .silent) :=
  .modifyEngine d (fun _ => rfl) (fun _ _ _ => rfl) (fun _ _ _ => rfl) fun _ _ => rfl

/-- Commands take no notice of reporters. -/
lemma unaffected_silent {α : Type} (k : Command α) :
    k.run.Unaffected (·.withReporter d .silent) := by
  have hlimit : ∀ (w : World) e,
      ((w.withReporter d .silent).engine e).maxCallDepth = (w.engine e).maxCallDepth := by
    intro w e
    unfold withReporter
    rcases w.engine_modifyEngine d e _ with hsame | ⟨-, hchange⟩
    · rw [hsame]
    · rw [hchange]
  cases k with
  | deeper scope => exact Veil.unaffected_deeper hlimit scope
  | inspectFrame e name => exact (veil_silent d).unaffected_inspectFrame (fun _ => rfl) e name
  | _ => exact (veil_silent d).unaffected not_false not_false

end World

namespace Simulation

/-- A world and one in which a reporter may differ. -/
def upToReporter (d : Id .engine) : Simulation World World :=
  upTo (·.withReporter d .silent) fun _ _ _ => True

/-- A change that leaves reporters alone leaves nothing but a reporter to differ. -/
lemma upToReporter_tied {d : Id .engine} {c c' : List Activity} {s : World} {t : Option World}
    (h : (upToReporter d).Tied c s t) {change : World → World}
    (hswap : ∀ w, change (w.withReporter d .silent) = (change w).withReporter d .silent) :
    (upToReporter d).Tied c' (change s) (t.map change) := by
  refine upTo_tied h fun t hst _ => ⟨?_, trivial⟩
  rw [← hswap, ← hswap]
  exact congrArg change hst

/-- The engine does in each step the same whatever a reporter is. -/
lemma upToReporter_respects (d : Id .engine) :
    (upToReporter d).Respects .shared .shared Coverage.all where
  exec c _ k := by
    have hcommand : (upToReporter d).Matches c Anything k.run k.run :=
      Matches.of_unaffected (World.unaffected_silent d k) fun _ _ _ => trivial
    exact hcommand.mono fun a _ => Coverage.yields_all k a
  enter _ a _ _ _ h := upToReporter_tied h fun _ => by cases a <;> rfl
  leave _ a _ _ h := upToReporter_tied h fun _ => by cases a <;> rfl
  argument _ _ _ := Matches.of_unaffected (fun _ => rfl) fun _ _ _ => trivial
  evaluating _ _ _ _ _ _ h := upToReporter_tied h fun _ => rfl
  note _ _ _ _ _ _ h := upToReporter_tied h fun _ => rfl

end Simulation

/-- Which reporter an engine has makes no difference to a series of entries, apart from the
reporter. -/
theorem Evaluator.enterAll_withReporter (bound : ℕ) (entries : List (Id .engine × Entry)) (w : World)
    (d : Id .engine) (ρ : Reporter) :
    ((Evaluator.shared bound).enterAll entries (w.withReporter d ρ)).mapState
        (·.withReporter d .silent) =
      ((Evaluator.shared bound).enterAll entries w).mapState (·.withReporter d .silent) := by
  have hsimulates : Evaluator.Simulates (Simulation.upToReporter d) Coverage.all
      (Evaluator.shared bound) (Evaluator.shared bound) :=
    Evaluator.Simulates.within (Simulation.upToReporter_respects d) (Nat.le_refl bound) fun _ => rfl
  have hall : ∀ x ∈ entries, Coverage.all.CoversEntry x.2 :=
    fun x _ => Coverage.coversEntry_all x.2
  have hsame : (w.withReporter d ρ).withReporter d .silent = w.withReporter d .silent := by
    unfold World.withReporter World.modifyEngine
    dsimp only
    rw [Pool.update_update]
    exact fun _ => rfl
  exact (hsimulates.enterAll [] hall).mapState_eq trivial (fun _ _ _ hw => hw.1) ⟨hsame, trivial⟩
    not_false

/-! ### Series of entries -/

/-- An entry has just been left with the result that the action gives. -/
def Outcome.LeavesWith (e : Id .engine) (entry : Entry) : Outcome Chronicled Value → Prop
  | done v s => ∃ past, s.record = ⟨.left e entry (.ok v), s.world⟩ :: past
  | failed err s => ∃ past, s.record = ⟨.left e entry (.error err), s.world⟩ :: past
  | unfinished _ => True

/-- What an entry gives to whoever makes it is what is written down at its end. -/
lemma Evaluator.visit_leavesWith (bound : ℕ) (e : Id .engine) (entry : Entry) (s : Chronicled) :
    ((Evaluator.chronicled bound).visit e entry s).LeavesWith e entry := by
  have hvisiting : ∀ entry x,
      ((Evaluator.chronicled bound).visiting e entry x s).LeavesWith e entry := by
    intro entry x
    rw [Evaluator.visiting_apply rfl]
    cases x (s.write (.entering e entry)) with
    | done v s' => exact ⟨_, rfl⟩
    | failed err s' => exact ⟨_, rfl⟩
    | diverged => trivial
  cases entry with
  | execute script => exact hvisiting _ _
  | call name args => exact hvisiting _ _
  | invoke name args => exact hvisiting _ _

/-- In a series of entries, each error with which an entry to an engine ends is reported there once,
and that is done before whoever made the entry gets the error, so that entries report in the order
in which they end.  Nothing else is reported.  An error has the context of the innermost function or
callback by which it has left an engine, except that a host function may have given it another one
before.  The results do not depend on the reporters. -/
theorem failures_reported_in_order (bound : ℕ) (entries : List (Id .engine × Entry)) (w : World) :
    let o := (Evaluator.chronicled bound).visitAll entries ⟨w, []⟩
    o.mapState (·.world) = (Evaluator.shared bound).enterAll entries w ∧
    (∃ c, o.state.record.Nested c ∧ (o.Finished → c = [])) ∧
    (∀ e entry s, ((Evaluator.chronicled bound).visit e entry s).LeavesWith e entry) ∧
    o.state.world.ReportsFailures w o.state.record ∧
    o.state.record.Always (fun now past => now.world.ReportsFailures w (now :: past)) ∧
    o.state.record.Always Occasion.Attributed ∧
    ∀ d ρ, ((Evaluator.shared bound).enterAll entries (w.withReporter d ρ)).mapState
        (·.withReporter d .silent) =
      ((Evaluator.shared bound).enterAll entries w).mapState (·.withReporter d .silent) := by
  intro o
  have hstart : Chronicled.Reports w [] ⟨w, []⟩ :=
    ⟨rfl, .nil, fun d => ((w.engine d).reporter.after_nil).symm, trivial, trivial⟩
  have hall : ∀ x ∈ entries, Coverage.all.CoversEntry x.2 :=
    fun x _ => Coverage.coversEntry_all x.2
  have hrecounts := (Account.reports_kept w).visitAll bound hall ⟨w, []⟩ hstart
  obtain ⟨c, hc⟩ := hrecounts.exists_state
  have hnested : ∃ c, o.state.record.Nested c ∧ (o.Finished → c = []) := by
    by_cases hfinished : o.Finished
    · exact ⟨[], (hrecounts.state_of_finished hfinished).nested, fun _ => rfl⟩
    · exact ⟨c, hc.nested, fun h => absurd h hfinished⟩
  exact ⟨hrecounts.mapState_eq, hnested, Evaluator.visit_leavesWith bound, hc.reporters, hc.always,
    hc.attributed, Evaluator.enterAll_withReporter bound entries w⟩

/-! ### A host function with a context of its own -/

/-- The functions and callbacks that errors have crossed, latest first. -/
def Chronicle.crossings (record : Chronicle) : List String :=
  record.filterMap fun now =>
    match now.occurrence with
    | .crossed label _ => some label
    | _ => none

namespace OwnContext

/-- A class `C` with a function `bad`, which fails with an error that has a context. -/
def failing : Host.ApiClass :=
  (Host.ApiClass.named "C").addFunction ⟨3⟩ 0 fun _ =>
    .fail (((EvalError.of (.native "located")).withLocation ⟨77, 7⟩).withContext "host")

/-- The body `return C.bad()`. -/
def body : Stmt :=
  .unlocated (.returnValue (some (.unlocated (.apiCall ⟨⟨0⟩, "C"⟩ ⟨3⟩ ⟨0, 0⟩ []))))

/-- The interner, which has seen the names of the function and of the class. -/
def interner : Interner :=
  ⟨#["", "f", "C", "bad"], by decide⟩

/-- One engine with a function `f` of this body. -/
def world : World :=
  { World.empty with
    memory := { Memory.empty with interners := (Pool.empty.add interner).2 }
    natives := (Pool.empty.add failing).2
    functions := (Pool.empty.add
      { FunctionInstance.define ⟨1⟩ "f" [] [] with body := some body }).2
    engines := (Pool.empty.add
      { (default : Engine) with maxCallDepth := 1, functions := NameMap.insert ∅ ⟨1⟩ ⟨0⟩ }).2 }

end OwnContext

/-- The only function that an error has crossed need not be its context. -/
theorem crossed_function_is_not_context :
    ¬∀ bound e entry w err s label,
      (Evaluator.chronicled bound).visit e entry ⟨w, []⟩ = .failed err s →
        s.record.crossings = [label] → err.context = some label := by
  intro h
  let o := (Evaluator.chronicled 6).visit ⟨0⟩ (.call "f" []) ⟨OwnContext.world, []⟩
  have hcrossings : o.state.record.crossings = ["f()"] := by decide +kernel
  have herror : o.error?.bind (·.context) = some "host" := by decide +kernel
  cases ho : o with
  | failed err s =>
    rw [ho] at hcrossings herror
    have hcontext := h 6 ⟨0⟩ (.call "f" []) OwnContext.world err s "f()" ho hcrossings
    exact absurd (hcontext.symm.trans herror) (by decide)
  | done | diverged =>
    rw [ho] at herror
    exact nomatch herror

end ScriptEngine
