import ScriptEngine.Proofs.Charts

/-!
# Where errors come from

The location with which an error leaves an entry can be read off its chart.  It is the one that the
error was raised with, if any; otherwise it is the location of the first tree of the chain that has
one.  The chain begins with the tree that raised the error and ends with the script, or with the body
of the function or the callback that the host entered by.

Main statement: `error_at_innermost_location`.
-/

namespace ScriptEngine

/-! ### Entries of the host -/

namespace World

/-- The entry of the host starts with the tree. -/
inductive Opens (w : World) (e : Id .engine) : Entry → Tree → Prop
  | execute {script} : Opens w e (.execute script) (.stmt script)
  | call {name args f body} (hf : w.functionNamed? e name = some f) (hbody : w.body? f = some body) :
    Opens w e (.call name args) (.stmt body)
  | invoke {name args c body} (hc : w.callbackNamed? e name = some c)
      (hbody : (w.callback? c).bind (·.body) = some body) : Opens w e (.invoke name args) (.stmt body)

/-- A function that is found has the name. -/
lemma functionNamed?_of_findFunction {w : World} {e : Id .engine} {name : String} {count : ℕ}
    {found : Id .function × String} (h : found ∈ (findFunction e name count w).value?) :
    w.functionNamed? e name = some found.1 := by
  simp only [findFunction, Action.bind_apply, Action.state] at h
  cases hname : w.functionNamed? e name with
  | none =>
    rw [hname] at h
    cases h
  | some f =>
    rw [hname] at h
    dsimp only at h
    split at h
    · cases h
    · rw [← Option.some.inj h]

/-- A callback that is found has the name. -/
lemma callbackNamed?_of_findCallback {w : World} {e : Id .engine} {name : String} {count : ℕ}
    {c : Id .callback} (h : c ∈ (findCallback e name count w).value?) :
    w.callbackNamed? e name = some c := by
  simp only [findCallback, Action.bind_apply, Action.state] at h
  cases hname : w.callbackNamed? e name with
  | none =>
    rw [hname] at h
    cases h
  | some d =>
    rw [hname] at h
    dsimp only at h
    split at h
    · cases h
    · rw [← Option.some.inj h]

end World

namespace Pairing

variable {w₀ : World} {root : Tree → Prop} {chain : List Tree} {α : Type} {Q : α → Prop}

/-- The context of an error has nothing to do with where it comes from. -/
lemma charting_withContext {x : Action Charted α} {y : Action World α}
    (h : (charting w₀ root chain).Pairs Q x y) (text : String) :
    (charting w₀ root chain).Pairs Q (x.mapError (·.withContext text))
      (y.mapError (·.withContext text)) := by
  intro w hw
  have hcharts := h w hw
  unfold Action.mapError
  generalize x ⟨w, none⟩ = o, y w = o' at hcharts
  cases hcharts with
  | done ha hw' => exact .done ha hw'
  | unfinished hw' => exact .unfinished hw'
  | raised he hw' => exact .raised he hw'
  | charted hchain he hw' => exact .charted hchain ⟨he.chain, he.host, he.cause, he.location⟩ hw'

end Pairing

/-- An error is reported on its way out, and comes from where it came from. -/
lemma Outcome.Charts.reported {w₀ w : World} {root : Tree → Prop} {chain : List Tree} {bound : ℕ}
    {e : Id .engine} {x : Action Charted Value} {y : Action World Value}
    (h : (x ⟨w, none⟩).Charts w₀ root chain Pairing.Anything (y w)) :
    ((Evaluator.charted bound).reported e x ⟨w, none⟩).Charts w₀ root chain Pairing.Anything
      ((Evaluator.shared bound).reported e y w) := by
  have hreport : ∀ {w'} err, World.code w' = w₀.code → (w'.report e err).code = w₀.code :=
    fun err hw' => (World.Change.report e err).code_eq.trans hw'
  unfold Evaluator.reported
  rw [Action.bind_apply, Action.bind_apply]
  unfold Action.attempt
  generalize x ⟨w, none⟩ = o, y w = o' at h
  cases h with
  | done ha hw' => exact .done ha hw'
  | unfinished hw' => exact .unfinished hw'
  | raised he hw' => exact .raised he (hreport _ hw')
  | charted hchain he hw' => exact .charted hchain he (hreport _ hw')

/-- The charted entries chart where their errors come from. -/
lemma Evaluator.charts_enter (bound : ℕ) (e : Id .engine) (entry : Entry) (w : World) :
    ((charted bound).enter e entry ⟨w, none⟩).Charts w (w.Opens e entry) [] Pairing.Anything
      ((shared bound).enter e entry w) := by
  have hperform : ∀ {s}, w.Opens e entry (.stmt s) → ∀ inner,
      ((Pairing.charting w (w.Opens e entry) []).activation Pairing.Anything).Pairs
        Pairing.Anything ((charted bound).perform inner s)
        (ScriptEngine.perform .shared bound inner s) :=
    fun h => (Pairing.charting_trees w _ bound).2 (.root h)
  cases entry with
  | execute script =>
    refine Outcome.Charts.reported (Pairing.charting_during .script ?_ w rfl)
    exact Pairing.Steps.run (D := Vocabulary.all) (hperform .execute (.top e))
  | call name args =>
    refine .reported (Outcome.Charts.bind (.exec rfl fun found hfound =>
      World.functionNamed?_of_findFunction hfound) fun found hfound w' hw' => ?_)
    refine Pairing.charting_withContext ?_ found.2 w' hw'
    exact Pairing.charting_invokeFunction rfl
      (fun inner body hbody => hperform (.call hfound hbody) inner) (.top e) .host args
  | invoke name args =>
    refine .reported (Outcome.Charts.bind (.exec rfl fun c hc =>
      World.callbackNamed?_of_findCallback hc) fun c hc w' hw' => ?_)
    refine Pairing.charting_withContext ?_ name w' hw'
    refine (Pairing.charting w _ []).bind (Pairing.charting_exec fun _ _ _ _ => trivial)
      fun inner _ => ?_
    refine (Pairing.charting w _ []).bind (Pairing.charting_callbackBody c) fun body hbody => ?_
    exact Pairing.charting_during _ (Pairing.charting_runBody fun s hs =>
      hperform (.invoke hc (hbody.symm.trans hs)) inner)

/-- Statements chart each error with which they fail. -/
lemma record_of_chartStmt {bound : ℕ} {outer : List Tree} {scope : Scope} {s : Stmt}
    {a a' : Activation Charted} {err : EvalError}
    (h : chartStmt bound outer scope s a = .failed err a') : a'.state.record ≠ none := by
  cases bound with
  | zero => exact nomatch h
  | succ bound =>
    unfold chartStmt Action.locate Action.mapError Action.onError at h
    generalize Evaluator.performNode ⟨.charted, chartExpr bound (.stmt s :: outer),
      chartStmt bound (.stmt s :: outer), bound⟩ scope s.node a = o at h
    cases o with
    | done signal b => exact nomatch h
    | failed e b =>
      obtain ⟨-, rfl⟩ := Outcome.failed.inj h
      exact fun hnone => nomatch (Option.or_eq_none_iff.1 hnone).2
    | @diverged b => exact nomatch h

/-- Scripts chart each error with which they fail. -/
lemma Evaluator.record_of_execute {bound : ℕ} {e : Id .engine} {script : Stmt} {s s' : Charted}
    {err : EvalError} (h : (charted bound).execute e script s = .failed err s') :
    s'.record ≠ none := by
  have hfollow : (charted bound).execute e script s = ((charted bound).run (.top e) script s).follow
      .done (fun err s => .failed err { s with world := s.world.report e err }) id := by
    change (charted bound).reported e
      (fun s => ((charted bound).run (.top e) script).ensuring id s) s = _
    simp only [reported, Action.bind_apply, Action.attempt, Action.ensuring]
    cases (charted bound).run (.top e) script s <;> rfl
  rw [hfollow] at h
  unfold run at h
  cases hperform : (charted bound).perform (.top e) script ⟨s, .undefined⟩ with
  | done signal a =>
    rw [hperform] at h
    cases h
  | failed e' a =>
    rw [hperform] at h
    obtain ⟨-, rfl⟩ := Outcome.failed.inj h
    exact record_of_chartStmt hperform
  | @diverged a =>
    rw [hperform] at h
    cases h

/-- The location of an error that leaves an entry is the one that it was raised with, or else the
location of the innermost tree that was being evaluated then and has one.  An error that was raised
outside of all trees, which no script is, has no location. -/
theorem error_at_innermost_location (bound : ℕ) (e : Id .engine) (entry : Entry) (w : World) :
    ((Evaluator.charted bound).enter e entry ⟨w, none⟩).mapState (·.world) =
        (Evaluator.shared bound).enter e entry w ∧
      ∀ err s, (Evaluator.charted bound).enter e entry ⟨w, none⟩ = .failed err s →
        (s.record = none → err.location = none ∧ ∀ script, entry ≠ .execute script) ∧
        ∀ origin, s.record = some origin → origin.ExplainsAll w (w.Opens e entry) err := by
  have hcharts := Evaluator.charts_enter bound e entry w
  have hscript : ∀ script, entry = .execute script → ∀ err s,
      (Evaluator.charted bound).enter e entry ⟨w, none⟩ = .failed err s → s.record ≠ none := by
    rintro script rfl err s h
    exact Evaluator.record_of_execute h
  generalize (Evaluator.charted bound).enter e entry ⟨w, none⟩ = o,
    (Evaluator.shared bound).enter e entry w = o' at hcharts hscript
  cases hcharts with
  | done ha hw => exact ⟨rfl, fun err s h => nomatch h⟩
  | unfinished hw => exact ⟨rfl, fun err s h => nomatch h⟩
  | @raised err w' he hw =>
    refine ⟨rfl, fun err' s h => ?_⟩
    obtain ⟨rfl, rfl⟩ := Outcome.failed.inj h
    refine ⟨fun _ => ⟨?_, fun script hentry => hscript script hentry _ _ rfl rfl⟩,
      fun origin horigin => nomatch horigin⟩
    cases hlocation : err.location with
    | none => rfl
    | some l =>
      rw [hlocation] at he
      obtain ⟨t, ht, -⟩ := he rfl
      exact nomatch ht
  | @charted err w' origin inner hchain he hw =>
    refine ⟨rfl, fun err' s h => ?_⟩
    obtain ⟨rfl, rfl⟩ := Outcome.failed.inj h
    refine ⟨(fun hnone => nomatch hnone), fun origin' horigin => ?_⟩
    obtain rfl := Option.some.inj horigin
    rw [List.append_nil] at hchain
    rw [← hchain] at he
    exact he

/-! ### A body that fails -/

namespace FailingBody

/-- The expression `undefined.p`, without a place in the script. -/
def member : Expr :=
  .unlocated (.member (.unlocated (.literal .undefined)) .empty)

/-- The body `return undefined.p` in the second line. -/
def body : Stmt := .mk (.returnValue (some member)) ⟨2, 3⟩

/-- The script `f()` in the first line. -/
def script : Stmt := .ofExpr (.mk (.call ⟨0⟩ .first []) ⟨1, 1⟩)

/-- One engine, and the function. -/
def world : World :=
  { World.empty with
    functions := (Pool.empty.add
      { FunctionInstance.define .empty "f" [] [] with body := some body }).2
    engines := (Pool.empty.add { (default : Engine) with maxCallDepth := 1 }).2 }

/-- The error is raised by the expression, in the statement, in the call, in the script. -/
def origin : Origin where
  raised := .of (.propertyOfUndefined (world.lookup ⟨0⟩ .empty))
  chain := [.expr member, .stmt body, .expr (.mk (.call ⟨0⟩ .first []) ⟨1, 1⟩), .stmt script]

end FailingBody

/-- The error of an expression without a location is claimed by the statement around it, and not by
the call in the script. -/
theorem failing_body_claims_error :
    ∃ err w, (Evaluator.shared 6).enter ⟨0⟩ (.execute FailingBody.script) FailingBody.world =
      .failed err w ∧ err.location = some ⟨2, 3⟩ := by
  obtain ⟨herased, hlocated⟩ :=
    error_at_innermost_location 6 ⟨0⟩ (.execute FailingBody.script) FailingBody.world
  cases houtcome : (Evaluator.charted 6).enter ⟨0⟩ (.execute FailingBody.script)
      ⟨FailingBody.world, none⟩ with
  | failed err s =>
    rw [houtcome] at herased
    have hrecord : s.record = some FailingBody.origin := by
      obtain ⟨-, rfl⟩ := Outcome.failed.inj houtcome
      rfl
    have hexplained := (hlocated err s houtcome).2 FailingBody.origin hrecord
    exact ⟨err, s.world, herased.symm, hexplained.location⟩
  | done v s => exact nomatch houtcome
  | @diverged s => exact nomatch houtcome

end ScriptEngine
