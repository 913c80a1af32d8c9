import ScriptEngine.Proofs.Failures
import ScriptEngine.Proofs.Invariant
import ScriptEngine.Proofs.Pairing

/-!
# Charts of errors

When an error is raised, some trees are being evaluated: the one that raises it, the trees around it,
the call that invoked the body they belong to, and so on out to the script or the body that the host
entered by.  This chain is charted by an evaluator that hands the open trees on from each tree to its
parts and from each call to the body, and that writes down an error where it is raised first, with the
chain.  Apart from the chart, the charted evaluation is the evaluation of the engine.

Commands fail without a location.  Only host functions raise errors that have a location already.  A
host function may enter the engine again.  What fails there is another entry, with a chain of its own;
for the tree that called the host function, the error is raised where the host function returns.

Main statement: `Pairing.charting_trees`.
-/

namespace ScriptEngine

/-! ### Charts -/

/-- The form of expression calls a host function. -/
def ExprNode.callsHost : ExprNode → Bool
  | .apiCall .. | .objectCall .. => true
  | _ => false

/-- The tree calls a host function itself. -/
def Tree.callsHost : Tree → Bool
  | .expr e => e.node.callsHost
  | .stmt _ => false

/-- Where an error comes from: the error as it was raised, and the trees that were being evaluated
then, innermost first. -/
structure Origin where
  raised : EvalError
  chain : List Tree

/-- A call of a function is no call of a host function. -/
lemma ExprNode.callsHost_of_callee? {node : ExprNode} {f : Id .function}
    (h : node.callee? = some f) : node.callsHost = false := by
  cases node with
  | apiCall object function slot args | objectCall site target function args => exact nomatch h
  | _ => rfl

/-- A world, and where the latest error comes from that nothing has caught. -/
abbrev Charted := Recorded (Option Origin)

/-- An error is raised while the trees of a chain are being evaluated, unless one of them has raised
it already. -/
def Charted.raise (chain : List Tree) (e : EvalError) (s : Charted) : Charted :=
  { s with record := s.record.or (some ⟨e, chain⟩) }

/-- Change the state where an action fails. -/
def Action.onError {σ α : Type} (f : EvalError → σ → σ) (x : Action σ α) : Action σ α := fun s =>
  match x s with
  | .done a s => .done a s
  | .failed e s => .failed e (f e s)
  | .unfinished s => .unfinished s

/-- Act on the world alone. -/
def Recorded.aside {γ α : Type} (x : Action World α) : Action (Recorded γ) α := fun s =>
  (x s.world).mapState fun w => ⟨w, s.record⟩

/-- The engine beside a chart. -/
def Machine.charted : Machine Charted where
  exec k := Recorded.aside k.run
  enter a s := { s with world := a.enter s.world }
  leave a s := { s with world := a.leave s.world }
  argument? f i := Recorded.aside (shared.argument? f i)
  note _ s := s

mutual

/-- Evaluate an expression while the trees `outer` are being evaluated, and chart its errors.  What
a host function makes the engine do is not charted. -/
def chartExpr : (bound : ℕ) → (outer : List Tree) → Scope → Expr → Action Charted Value
  | 0, _, _, _ => Action.diverge
  | bound + 1, outer, scope, e =>
    let body := fun inner s =>
      if e.node.callsHost then perform .charted bound inner s
      else chartStmt bound (.expr e :: outer) inner s
    ((Evaluator.evaluateNode ⟨.charted, chartExpr bound (.expr e :: outer), body, bound⟩ scope
      e.node).onError (Charted.raise (.expr e :: outer))).locate e.location

/-- Perform a statement while the trees `outer` are being evaluated, and chart its errors. -/
def chartStmt : (bound : ℕ) → (outer : List Tree) → Scope → Stmt → Action (Activation Charted) Signal
  | 0, _, _, _ => Action.diverge
  | bound + 1, outer, scope, s =>
    ((Evaluator.performNode ⟨.charted, chartExpr bound (.stmt s :: outer),
      chartStmt bound (.stmt s :: outer), bound⟩ scope s.node).onError fun e a =>
        { a with state := Charted.raise (.stmt s :: outer) e a.state }).locate s.location

end

/-- The evaluator of the engine, which charts its errors. -/
def Evaluator.charted (bound : ℕ) : Evaluator Charted :=
  ⟨.charted, chartExpr bound [], chartStmt bound [], bound⟩

/-! ### Chains -/

/-- Each tree of the chain may be evaluated by the next one, and the last one satisfies `root`. -/
inductive World.Chain (w : World) (root : Tree → Prop) : List Tree → Prop
  | root {t} (h : root t) : Chain w root [t]
  | cons {t u rest} (hlead : w.Leads u t) (h : Chain w root (u :: rest)) :
    Chain w root (t :: u :: rest)

/-- The first location of a chain that points into a script. -/
def firstKnown (chain : List Tree) : Option Location :=
  (chain.map Tree.location).find? Location.isKnown

/-- The error comes from `origin`, and has passed the trees `inner` of the chain. -/
structure Origin.Explains (w : World) (root : Tree → Prop) (origin : Origin) (inner : List Tree)
    (e : EvalError) : Prop where
  chain : w.Chain root origin.chain
  /-- Only a host function raises errors that have a location. -/
  host : origin.raised.location.isSome → ∃ t ∈ origin.chain.head?, t.callsHost
  cause : e.cause = origin.raised.cause
  location : e.location = origin.raised.location.or (firstKnown inner)

/-- The error comes from `origin`, and has passed all trees of the chain. -/
abbrev Origin.ExplainsAll (w : World) (root : Tree → Prop) (origin : Origin) (e : EvalError) :
    Prop :=
  origin.Explains w root origin.chain e

/-- A tree of the chain claims the error. -/
lemma Origin.Explains.locate {w : World} {root : Tree → Prop} {origin : Origin} {inner : List Tree}
    {e : EvalError} (h : origin.Explains w root inner e) (t : Tree) :
    origin.Explains w root (inner ++ [t]) (e.locate t.location) := by
  refine ⟨h.chain, h.host, ?_, ?_⟩
  · rw [← h.cause]
    unfold EvalError.locate
    split <;> rfl
  · have hfirst : firstKnown (inner ++ [t]) =
        (firstKnown inner).or (if t.location.isKnown then some t.location else none) := by
      unfold firstKnown
      rw [List.map_append, List.find?_append]
      cases hknown : t.location.isKnown <;> simp [hknown]
    rw [hfirst, ← Option.or_assoc, ← h.location]
    unfold EvalError.locate
    split
    · rfl
    · rw [Option.or_none]

/-! ### Charted outcomes -/

/-- The second outcome is the first one without the chart.  While the trees of `chain` are being
evaluated, an error is either raised by the first of them and not charted yet, or charted with a
chain that goes on with these trees. -/
inductive Outcome.Charts (w₀ : World) (root : Tree → Prop) (chain : List Tree) {α : Type}
    (Q : α → Prop) : Outcome Charted α → Outcome World α → Prop
  | done {a w} (ha : Q a) (hw : w.code = w₀.code) :
    Charts w₀ root chain Q (.done a ⟨w, none⟩) (.done a w)
  | unfinished {w} (hw : w.code = w₀.code) :
    Charts w₀ root chain Q (.unfinished ⟨w, none⟩) (.unfinished w)
  | raised {e w} (he : e.location.isSome → ∃ t ∈ chain.head?, t.callsHost)
      (hw : w.code = w₀.code) : Charts w₀ root chain Q (.failed e ⟨w, none⟩) (.failed e w)
  | charted {e w origin inner} (hchain : origin.chain = inner ++ chain)
      (he : origin.Explains w₀ root inner e) (hw : w.code = w₀.code) :
    Charts w₀ root chain Q (.failed e ⟨w, some origin⟩) (.failed e w)

namespace Outcome.Charts

variable {w₀ : World} {root : Tree → Prop} {chain : List Tree} {α β : Type} {Q : α → Prop}
  {R : β → Prop} {x : Action Charted α} {y : Action World α} {w : World}

/-- What acts on the world alone, and keeps the code, charts nothing. -/
lemma aside (hcode : (y w).state.code = w₀.code) (hQ : ∀ a ∈ (y w).value?, Q a)
    (herror : ∀ e w', y w = .failed e w' → e.location.isSome → ∃ t ∈ chain.head?, t.callsHost) :
    (Recorded.aside y ⟨w, none⟩).Charts w₀ root chain Q (y w) := by
  unfold Recorded.aside
  dsimp only
  cases hy : y w with
  | done a w' =>
    rw [hy] at hcode hQ
    exact .done (hQ a rfl) hcode
  | failed e w' =>
    rw [hy] at hcode
    exact .raised (herror e w' hy) hcode
  | @diverged w' =>
    rw [hy] at hcode
    exact .unfinished hcode

/-- A command charts nothing, and the first tree raises the error with which it fails. -/
lemma exec {k : Command α} (hw : w.code = w₀.code) (hQ : ∀ a ∈ (k.run w).value?, Q a) :
    (Machine.charted.exec k ⟨w, none⟩).Charts w₀ root chain Q (Machine.shared.exec k w) := by
  refine aside ((k.change w).code_eq.trans hw) hQ fun e w' hfailed hlocated => ?_
  obtain ⟨cause, rfl, -⟩ := k.failsBy w e w' hfailed
  exact nomatch hlocated

/-- One action after another. -/
lemma bind (h : (x ⟨w, none⟩).Charts w₀ root chain Q (y w)) {f : α → Action Charted β}
    {g : α → Action World β}
    (hfg : ∀ a, Q a → ∀ w, w.code = w₀.code → (f a ⟨w, none⟩).Charts w₀ root chain R (g a w)) :
    ((x >>= f) ⟨w, none⟩).Charts w₀ root chain R ((y >>= g) w) := by
  rw [Action.bind_apply, Action.bind_apply]
  generalize x ⟨w, none⟩ = o, y w = o' at h
  cases h with
  | done ha hw => exact hfg _ ha _ hw
  | unfinished hw => exact .unfinished hw
  | raised he hw => exact .raised he hw
  | charted hchain he hw => exact .charted hchain he hw

end Outcome.Charts

/-- Actions that start without an error, and chart those that they raise while the trees of `chain`
are being evaluated. -/
def Pairing.charting (w₀ : World) (root : Tree → Prop) (chain : List Tree) :
    Pairing Charted World where
  Pairs Q x y := ∀ w, w.code = w₀.code → (x ⟨w, none⟩).Charts w₀ root chain Q (y w)
  pure ha _ hw := .done ha hw
  fail _ _ hw := .raised (fun h => nomatch h) hw
  diverge _ hw := .unfinished hw
  bind hxy hfg w hw := (hxy w hw).bind hfg

namespace Pairing

variable {w₀ : World} {root : Tree → Prop} {chain outer : List Tree} {t : Tree} {α : Type}
  {Q : α → Prop}

/-- An activity that begins and ends. -/
lemma charting_during (a : Activity) {x : Action Charted α} {y : Action World α}
    (h : (charting w₀ root chain).Pairs Q x y) :
    (charting w₀ root chain).Pairs Q (Machine.charted.during a x) (Machine.shared.during a y) := by
  intro w hw
  have hcharts := h (a.enter w) ((a.code_enter w).trans hw)
  change Outcome.Charts w₀ root chain Q
    (x.ensuring (Machine.charted.leave a) ⟨a.enter w, none⟩) (y.ensuring a.leave (a.enter w))
  unfold Action.ensuring
  generalize x ⟨a.enter w, none⟩ = o, y (a.enter w) = o' at hcharts
  cases hcharts with
  | @done v w' hv hw' => exact .done hv ((a.code_leave w').trans hw')
  | unfinished hw' => exact .unfinished hw'
  | @raised e w' he hw' => exact .raised he ((a.code_leave w').trans hw')
  | @charted e w' origin inner hchain he hw' =>
    exact .charted hchain he ((a.code_leave w').trans hw')

/-- What is charted while the trees of a chain are being evaluated has been claimed by the first
tree when it is left. -/
lemma charting_leave (hchain : w₀.Chain root (t :: outer)) {x : Action Charted α}
    {y : Action World α} (h : (charting w₀ root (t :: outer)).Pairs Q x y) :
    (charting w₀ root outer).Pairs Q
      ((x.onError (Charted.raise (t :: outer))).locate t.location) (y.locate t.location) := by
  intro w hw
  have hcharts := h w hw
  unfold Action.locate Action.mapError Action.onError
  dsimp only
  generalize x ⟨w, none⟩ = o, y w = o' at hcharts
  cases hcharts with
  | done ha hw' => exact .done ha hw'
  | unfinished hw' => exact .unfinished hw'
  | @raised e w' he hw' =>
    have hraised : Origin.Explains w₀ root ⟨e, t :: outer⟩ [] e :=
      ⟨hchain, he, rfl, (Option.or_none).symm⟩
    exact .charted rfl (hraised.locate t) hw'
  | @charted e w' origin inner horigin he hw' =>
    refine .charted ?_ (he.locate t) hw'
    rw [horigin, List.append_assoc, List.singleton_append]

end Pairing

/-- Failures in a body leave the value to return as it is. -/
lemma Activation.peel_onError {σ α : Type} (x : Action (Activation σ) α) (f : EvalError → σ → σ)
    (v : Value) :
    Activation.peel (x.onError fun e a => { a with state := f e a.state }) v =
      (Activation.peel x v).onError f := by
  funext s
  simp only [Activation.peel, Action.onError]
  cases x ⟨s, v⟩ <;> rfl

/-! ### Host functions -/

/-- What a host function does to an evaluator depends on the machine and on the bodies alone. -/
lemma Evaluator.runHost_congr {σ : Type} {r r' : Evaluator σ} (hmachine : r.machine = r'.machine)
    (hperform : r.perform = r'.perform) (e : Id .engine) (program : Host.Program) :
    r.runHost e program = r'.runHost e program := by
  obtain ⟨m, evaluate, perform, rounds⟩ := r
  obtain ⟨m', evaluate', perform', rounds'⟩ := r'
  obtain rfl : m = m' := hmachine
  obtain rfl : perform = perform' := hperform
  induction program with
  | finish result => rfl
  | read next ih => exact congrArg _ (funext ih)
  | write change next ih => exact congrArg _ (funext fun _ => ih)
  | allocate make next ih => exact congrArg _ (funext ih)
  | display v next ih => exact congrArg _ (funext ih)
  | execute script next ih => exact congrArg _ (funext ih)
  | callFunction name args next ih => exact congrArg _ (funext ih)
  | invokeCallback name args next ih => exact congrArg _ (funext ih)
  | inspectFrame name next ih => exact congrArg _ (funext ih)

/-- The charted engine, which charts nothing, beside the engine. -/
def Simulation.uncharted (w₀ : World) : Simulation Charted World where
  rel _ s w := s = ⟨w, none⟩ ∧ w.code = w₀.code
  lost _ := False
  cut _ := True
  abreast := True
  cut_of_lost _ := trivial
  cut_of_rel _ := trivial

namespace Simulation

variable {w₀ : World} {c : List Activity} {α : Type} {Q : α → Prop}

/-- What acts on the world alone, and keeps the code, charts nothing. -/
lemma Matches.aside {y : Action World α} (hcode : ∀ w, (y w).state.code = w.code)
    (hQ : ∀ a, Q a) : (uncharted w₀).Matches c Q (Recorded.aside y) y := by
  refine Matches.of_agrees ?_ fun s hs => hs.elim
  rintro _ w ⟨rfl, hw⟩
  have hcode' := (hcode w).trans hw
  unfold Recorded.aside
  dsimp only
  cases hy : y w with
  | done a w' =>
    rw [hy] at hcode'
    exact ⟨hQ a, Or.inr ⟨w', rfl, rfl, hcode'⟩⟩
  | failed e w' =>
    rw [hy] at hcode'
    exact Or.inr ⟨w', rfl, rfl, hcode'⟩
  | @diverged w' =>
    rw [hy] at hcode'
    exact ⟨trivial, fun _ => Or.inr ⟨c, w', rfl, rfl, hcode'⟩⟩

/-- A change of the world that keeps the code charts nothing. -/
lemma uncharted_tied {d : List Activity} {s : Charted} {t : Option World}
    (h : (uncharted w₀).Tied c s t) {change : World → World}
    (hchange : ∀ w, (change w).code = w.code) :
    (uncharted w₀).Tied d { s with world := change s.world } (t.map change) := by
  cases t with
  | none => exact h.elim
  | some w =>
    obtain ⟨rfl, hw⟩ := h
    exact ⟨rfl, (hchange w).trans hw⟩

/-- The charted machine does in each step what the engine does. -/
lemma uncharted_respects : (uncharted w₀).Respects Machine.charted Machine.shared Coverage.all where
  exec _ _ k := Matches.aside (fun w => (k.change w).code_eq) (Coverage.yields_all k)
  enter _ a _ _ _ hst := uncharted_tied hst a.code_enter
  leave _ a _ _ hst := uncharted_tied hst a.code_leave
  argument _ f i := Matches.aside (y := Machine.shared.argument? f i) (fun _ => rfl) fun _ => trivial
  evaluating _ _ _ _ _ _ hst := uncharted_tied hst fun _ => rfl
  note _ _ _ _ _ _ hst := uncharted_tied hst fun _ => rfl

end Simulation

open Simulation in
/-- The errors of host functions are raised by the tree that calls them. -/
lemma Pairing.charting_callApi {w₀ : World} {root : Tree → Prop} {t : Tree} {outer : List Tree}
    (ht : t.callsHost) (bound : ℕ) {r : Evaluator Charted} (hmachine : r.machine = .charted)
    (hperform : r.perform = ScriptEngine.perform .charted bound) (scope : Scope) (object : NativeRef)
    (index : ℕ) (args : List Value) :
    (charting w₀ root (t :: outer)).Pairs Anything (r.callApi scope object index args)
      ((Evaluator.shared bound).callApi scope object index args) := by
  have hcall : r.callApi scope object index args =
      (Evaluator.within .charted bound).callApi scope object index args := by
    unfold Evaluator.callApi
    rw [hmachine]
    exact congrArg _ (funext fun c => Evaluator.runHost_congr hmachine hperform _ _)
  have hsimulates : Evaluator.Simulates (uncharted w₀) Coverage.all
      (Evaluator.within .charted bound) (Evaluator.shared bound) :=
    Evaluator.Simulates.within uncharted_respects (Nat.le_refl bound) fun _ => rfl
  intro w hw
  have hagrees : (uncharted w₀).Agrees [] Anything (r.callApi scope object index args ⟨w, none⟩)
      (some ((Evaluator.shared bound).callApi scope object index args w)) := by
    rw [hcall]
    exact hsimulates.callApi [] scope object index args ⟨w, none⟩ (some w) ⟨rfl, hw⟩
  generalize r.callApi scope object index args ⟨w, none⟩ = o,
    (Evaluator.shared bound).callApi scope object index args w = o' at hagrees
  cases o with
  | done v s =>
    obtain ⟨-, hlost | ⟨w', ho', rfl, hw'⟩⟩ := hagrees
    · exact hlost.elim
    · obtain rfl := Option.some.inj ho'
      exact .done trivial hw'
  | failed e s =>
    obtain hlost | ⟨w', ho', rfl, hw'⟩ := hagrees
    · exact hlost.elim
    · obtain rfl := Option.some.inj ho'
      exact .raised (fun _ => ⟨t, rfl, ht⟩) hw'
  | @diverged s =>
    obtain hlost | ⟨d, w', ho', rfl, hw'⟩ := hagrees.2 trivial
    · exact hlost.elim
    · obtain rfl := Option.some.inj ho'
      exact .unfinished hw'

/-! ### Trees -/

/-- What the evaluation of a tree mentions before it comes to another tree. -/
def Tree.vocabulary (t : Tree) : Vocabulary where
  tree _ := True
  engine _ := True
  value _ := True
  reads _ := True
  writes _ := True
  calls f := t.callee? = some f
  names _ := True
  hosts _ := t.callsHost
  objectCalls _ _ _ := t.callsHost
  codes _ := True
  byName := False
  value_of_isPlain _ := trivial

namespace Tree

/-- What a tree mentions itself is in its vocabulary. -/
lemma fits_vocabulary (t : Tree) : t.vocabulary.Fits t := by
  cases t with
  | expr e =>
    obtain ⟨node, l⟩ := e
    cases node with
    | assign target op value =>
      cases op <;> simp [Vocabulary.Fits, Vocabulary.FitsExpr, vocabulary, Expr.node]
    | _ =>
      simp [Vocabulary.Fits, Vocabulary.FitsExpr, vocabulary, callee?, ExprNode.callee?, callsHost,
        ExprNode.callsHost, Expr.node]
  | stmt s =>
    change (stmt s).vocabulary.FitsStmt s.node
    cases s.node <;> trivial

/-- The commands that a tree gives itself lead to nothing that is not in its vocabulary. -/
lemma yields_vocabulary (t : Tree) {α : Type} {k : Command α} (hk : t.vocabulary.Allows k) (a : α) :
    t.vocabulary.Yields k a := by
  cases k with
  | resolution site => exact fun _ _ => hk.choose_spec.choose_spec
  | findMethod e target v function count => exact hk.2.2.2.choose_spec
  | findFunction e name count => exact hk.2.elim
  | _ => simp [Vocabulary.Yields, vocabulary]

end Tree

namespace Pairing

variable {w₀ : World} {root : Tree → Prop} {outer : List Tree} {t : Tree}

/-- A command charts nothing, and the tree raises the error with which it fails. -/
lemma charting_exec {chain : List Tree} {α : Type} {k : Command α} {Q : α → Prop}
    (hQ : ∀ w, w.code = w₀.code → ∀ a ∈ (k.run w).value?, Q a) :
    (charting w₀ root chain).Pairs Q (Machine.charted.exec k) (Machine.shared.exec k) :=
  fun w hw => .exec hw (hQ w hw)

/-- The body of a function is the one that the world has. -/
lemma charting_functionBody {chain : List Tree} (f : Id .function) :
    (charting w₀ root chain).Pairs (fun body => body = w₀.body? f)
      (Machine.charted.exec (.functionBody f)) (Machine.shared.exec (.functionBody f)) := by
  refine charting_exec fun w hw body hbody => ?_
  obtain rfl : w.body? f = body := Option.some.inj hbody
  rw [World.body?_eq_of_code_eq hw]

/-- The body of a callback is the one that the world has. -/
lemma charting_callbackBody {chain : List Tree} (c : Id .callback) :
    (charting w₀ root chain).Pairs (fun body => body = (w₀.callback? c).bind (·.body))
      (Machine.charted.exec (.callbackBody c)) (Machine.shared.exec (.callbackBody c)) := by
  refine charting_exec fun w hw body hbody => ?_
  obtain rfl : (w.callback? c).bind (·.body) = body := Option.some.inj hbody
  have hcode : (w.callback? c).map (·.code) = (w₀.callback? c).map (·.code) :=
    congrFun (congrArg Code.callback? hw) c
  have hbody : ∀ o : Option CallbackInstance, o.bind (·.body) = (o.map (·.code)).bind (·.body) := by
    intro o
    cases o <;> rfl
  rw [hbody, hcode, ← hbody]

/-- The claim holds of a body, which may be missing, if it holds of the statement. -/
lemma charting_runBody {chain : List Tree} {r : Evaluator Charted} {bound : ℕ} {inner : Scope}
    {body : Option Stmt}
    (hbody : ∀ s ∈ body, ((charting w₀ root chain).activation Anything).Pairs Anything
      (r.perform inner s) (perform .shared bound inner s)) :
    (charting w₀ root chain).Pairs Anything (r.runBody inner body)
      ((Evaluator.shared bound).runBody inner body) := by
  cases body with
  | none => exact (charting w₀ root chain).pure trivial
  | some s => exact Steps.run (D := Vocabulary.all) (hbody s rfl)

/-- The claim holds of a call if it holds of the body. -/
lemma charting_invokeFunction {chain : List Tree} {r : Evaluator Charted}
    (hmachine : r.machine = .charted) {bound : ℕ} {f : Id .function}
    (hbody : ∀ inner body, w₀.body? f = some body →
      ((charting w₀ root chain).activation Anything).Pairs Anything (r.perform inner body)
        (perform .shared bound inner body))
    (scope : Scope) (site : CallSiteId) (args : List Value) :
    (charting w₀ root chain).Pairs Anything (r.invokeFunction scope f site args)
      ((Evaluator.shared bound).invokeFunction scope f site args) := by
  obtain ⟨m, evaluate, performBody, rounds⟩ := r
  obtain rfl : m = .charted := hmachine
  refine (charting w₀ root chain).bind (charting_exec fun _ _ _ _ => trivial) fun inner _ => ?_
  refine (charting w₀ root chain).bind (charting_functionBody f) fun body hfound => ?_
  have hrun := charting_runBody (r := ⟨.charted, evaluate, performBody, rounds⟩)
    fun s hs => hbody inner s (hfound.symm.trans hs)
  refine (charting w₀ root chain).bind (charting_during _ hrun) fun v _ => ?_
  exact (charting w₀ root chain).bind (charting_exec fun _ _ _ _ => trivial) fun _ _ =>
    (charting w₀ root chain).pure trivial

/-- The claim holds of what a tree does itself and of what it calls, if it holds of the body of the
function that it calls. -/
lemma charting_supports {r : Evaluator Charted} (hmachine : r.machine = .charted) {bound : ℕ}
    (hrounds : r.rounds = bound)
    (hbody : ∀ {f}, t.callee? = some f → ∀ inner body, w₀.body? f = some body →
      ((charting w₀ root (t :: outer)).activation Anything).Pairs Anything (r.perform inner body)
        (perform .shared bound inner body))
    (hhost : t.callsHost → r.perform = perform .charted bound) :
    Evaluator.Supports (charting w₀ root (t :: outer)) t.vocabulary r (Evaluator.shared bound) where
  exec k hk := by
    rw [hmachine]
    exact charting_exec fun _ _ a _ => t.yields_vocabulary hk a
  argument {f i n} _ := by
    rw [hmachine]
    exact fun w hw => .aside (y := Machine.shared.argument? f i) hw (fun _ _ _ _ => trivial)
      fun _ _ hfailed => nomatch hfailed
  note mark _ := by
    rw [hmachine]
    exact fun w hw => .done trivial hw
  call {scope f args} site _ hf _ := charting_invokeFunction hmachine (hbody hf) scope site args
  host {scope object args} index _ ht _ :=
    charting_callApi ht bound hmachine (hhost ht) scope object index args
  rounds := hrounds

/-- Charted evaluations of trees chart where their errors come from. -/
theorem charting_trees (w₀ : World) (root : Tree → Prop) (bound : ℕ) :
    (∀ {outer e}, w₀.Chain root (.expr e :: outer) → ∀ scope,
      (charting w₀ root outer).Pairs Anything (chartExpr bound outer scope e)
        (evaluate .shared bound scope e)) ∧
    ∀ {outer s}, w₀.Chain root (.stmt s :: outer) → ∀ scope,
      ((charting w₀ root outer).activation Anything).Pairs Anything (chartStmt bound outer scope s)
        (perform .shared bound scope s) := by
  induction bound with
  | zero =>
    exact ⟨fun {outer _} _ _ => (charting w₀ root outer).diverge,
      fun {outer _} _ _ => ((charting w₀ root outer).activation Anything).diverge⟩
  | succ bound ih =>
    obtain ⟨hevaluate, hperform⟩ := ih
    refine ⟨fun {outer e} hchain scope => ?_, fun {outer s} hchain scope v _ => ?_⟩
    · refine charting_leave hchain (Evaluator.Supports.evaluateNode
        (charting_supports rfl rfl (fun hf inner body hbody => ?_) fun hhost => ?_) trivial
        (Tree.fits_vocabulary (.expr e)) fun a ha => ?_)
      · have hnohost := ExprNode.callsHost_of_callee? hf
        dsimp only
        rw [hnohost]
        exact hperform (.cons (.call hf hbody) hchain) inner
      · have hhost : e.node.callsHost = true := hhost
        funext inner body
        dsimp only
        rw [if_pos hhost]
      · exact hevaluate (.cons (.part (Tree.expr_mem_parts ha)) hchain) scope
    · have hnode : ((charting w₀ root (.stmt s :: outer)).activation Anything).Pairs Anything
          (Evaluator.performNode ⟨.charted, chartExpr bound (.stmt s :: outer),
            chartStmt bound (.stmt s :: outer), bound⟩ scope s.node)
          ((Evaluator.shared bound).performNode scope s.node) := by
        refine Evaluator.Supports.performNode
          (charting_supports (t := .stmt s) rfl rfl (fun hf => nomatch hf) fun hhost => nomatch hhost)
          trivial (Tree.fits_vocabulary (.stmt s)) (fun e he => ?_) fun t ht => ?_
        · exact hevaluate (.cons (.part (Tree.expr_mem_parts_stmt he)) hchain) scope
        · exact hperform (.cons (.part (Tree.stmt_mem_parts ht)) hchain) scope
      have hcharted := charting_leave hchain (hnode v trivial)
      rw [← Activation.peel_onError, ← Activation.peel_locate, ← Activation.peel_locate] at hcharted
      exact hcharted

end Pairing

end ScriptEngine
