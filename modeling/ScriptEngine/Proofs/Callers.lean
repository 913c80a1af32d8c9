import ScriptEngine.Proofs.CallLogs

/-!
# Call sites tell where invocations come from

A call in a tree has a call site of its own, which is never that of the host; an entry by a name passes
the call site of the host.  So the call site of an invocation tells where the invocation comes from, as
the log of the run does.

The log says so by what comes right before the beginning of an invocation.  An evaluation therefore is
*quiet* where no function has been found just now, and all that an evaluation does leads from quiet
states to quiet ones.  Only an entry by a name is not quiet in between: it finds the function, and is
quiet again when the invocation has begun, or when calls turn out to be nested too deeply.

Main statement: `Attributed.always_tells`.
-/

namespace ScriptEngine

open Pairing (Anything)

/-! ### Trees -/

/-- Each call has a call site of its own, and not that of the host. -/
def Coverage.sited : Coverage where
  expression
    | .call _ site _ => site ≠ .host
    | _ => True
  statement _ := True
  fits _ _ := True
  reaches _ := True
  performs _ := True
  reaches_top _ := trivial
  fits_of_call _ := trivial
  performs_cons _ _ := trivial

/-- Everything in such trees but calls of functions, and no lookups by name. -/
def Vocabulary.sited : Vocabulary :=
  { Vocabulary.all with
    tree := Coverage.sited.CoversTree
    calls := fun _ => False
    byName := False }

namespace Vocabulary

/-- No other form of expression mentions the functions that are called. -/
lemma fits_sited {node : ExprNode} (h : node.callee? = none) : sited.FitsExpr node := by
  cases node with
  | call f site args => exact nomatch h
  | assign target op value => cases op <;> simp [FitsExpr, sited, all]
  | _ => simp [FitsExpr, sited, all]

/-- Statements mention no functions themselves. -/
lemma fitsStmt_sited (node : StmtNode) : sited.FitsStmt node := by
  cases node <;> trivial

/-- What is allowed finds no function, and what it gives is in the vocabulary. -/
lemma yields_sited {α : Type} {k : Command α} (hk : sited.Allows k) :
    ¬k.FindsFunction ∧ ∀ a, sited.Yields k a := by
  cases k with
  | functionBody f | callbackBody c => exact hk.elim
  | findFunction e name count => exact hk.2.elim
  | _ => exact ⟨id, fun a => by simp [Yields, sited, all]⟩

end Vocabulary

/-- The turn evaluates only trees whose calls have call sites of their own. -/
def Turn.IsSited : Turn → Prop
  | .enter _ entry => Coverage.sited.CoversEntry entry
  | .evaluate _ t => Coverage.sited.CoversTree t
  | .write _ _ _ => True
  | .arrange _ => False

/-! ### Logs -/

/-- An invocation that begins on the line has the call site of the host just if it comes from
there. -/
def CallLine.TellsCaller (line : CallLine) (past : CallLog) : Prop :=
  ∀ f site args, line.event.invocation? f = some (site, args) →
    (site = .host ↔ past.caller f = .host)

/-- The invocation that began last has the call site of the host just if it comes from there. -/
lemma CallLog.Always.latest? {log : CallLog} (h : log.Always CallLine.TellsCaller)
    {f : Id .function} {site : CallSiteId} {caller : Caller}
    (hlatest : log.latest? f = some (site, caller)) : site = .host ↔ caller = .host := by
  induction log with
  | nil => exact nomatch hlatest
  | cons line past ih =>
    have hpast : CallLog.Always CallLine.TellsCaller past :=
      fun l older hl => h l older (hl.trans (past.suffix_cons line))
    obtain ⟨event, w⟩ := line
    cases event with
    | began a =>
      rw [CallLog.latest?] at hlatest
      cases ha : a.invocation? f with
      | none =>
        rw [ha] at hlatest
        exact ih hpast hlatest
      | some invocation =>
        rw [ha] at hlatest
        obtain ⟨rfl, rfl⟩ := Prod.mk.inj (Option.some.inj hlatest)
        exact h _ past List.suffix_rfl f invocation.1 invocation.2 ha
    | ended | found | approached | other => exact ih hpast hlatest

namespace Attributed

/-- So far, call sites have told where invocations come from. -/
structure Tells (w₀ : World) (s : Attributed) : Prop where
  code : s.world.code = w₀.code
  always : s.record.Always CallLine.TellsCaller

/-- No function has been found just now. -/
structure Quiet (w₀ : World) (s : Attributed) : Prop extends s.Tells w₀ where
  caller : ∀ f, s.record.caller f = .script

/-- An invocation of `f` is about to begin that has the right call site. -/
structure Approaches (w₀ : World) (f : Id .function) (site : CallSiteId) (s : Attributed) : Prop
    extends s.Tells w₀ where
  caller : site = .host ↔ s.record.caller f = .host

variable {w₀ w : World} {f : Id .function} {site : CallSiteId} {s : Attributed}

/-- Where it is quiet, a call in a tree may begin. -/
lemma Quiet.approaches (h : s.Quiet w₀) (f : Id .function) (hsite : site ≠ .host) :
    s.Approaches w₀ f site := by
  refine ⟨h.toTells, fun hhost => absurd hhost hsite, fun hcaller => ?_⟩
  rw [h.caller f] at hcaller
  exact nomatch hcaller

namespace Tells

variable (h : s.Tells w₀)

include h

/-- One more line on which no invocation begins. -/
lemma enlog (hcode : w.code = s.world.code) {event : CallEvent}
    (hevent : ∀ f, event.invocation? f = none) : (s.enlog event w).Tells w₀ := by
  refine ⟨hcode.trans h.code, h.always.cons fun f site args hbegan => ?_⟩
  rw [hevent f] at hbegan
  exact nomatch hbegan

/-- After anything else it is quiet. -/
lemma other (hw : s.world.Change w) : (s.enlog .other w).Quiet w₀ :=
  ⟨h.enlog hw.code_eq fun _ => rfl, fun _ => rfl⟩

/-- A function is found. -/
lemma found (hw : s.world.Change w) (f : Id .function) :
    (s.enlog (.found f) w).Approaches w₀ f .host :=
  ⟨h.enlog hw.code_eq fun _ => rfl, fun _ => if_pos rfl, fun _ => rfl⟩

end Tells

/-- On the way to an invocation. -/
lemma Approaches.step (h : s.Approaches w₀ f site) (hw : s.world.Change w) :
    (s.enlog .approached w).Approaches w₀ f site :=
  ⟨h.enlog hw.code_eq fun _ => rfl, h.caller⟩

/-- The invocation begins. -/
lemma Approaches.enter (h : s.Approaches w₀ f site) (args : List Value) :
    (Machine.attributed.enter (.function f site args) s).Quiet w₀ := by
  have hcode := Activity.code_enter (.function f site args) s.world
  refine ⟨⟨hcode.trans h.code, h.always.cons fun g site' args' hbegan => ?_⟩, fun _ => rfl⟩
  change (if f = g then some (site, args) else none) = some (site', args') at hbegan
  split at hbegan
  · rename_i hfg
    obtain ⟨rfl, -⟩ := Prod.mk.inj (Option.some.inj hbegan)
    exact hfg ▸ h.caller
  · exact nomatch hbegan

/-- A script or a callback begins. -/
lemma Tells.enter (h : s.Tells w₀) {a : Activity} (ha : ∀ f, a.invocation? f = none) :
    (Machine.attributed.enter a s).Quiet w₀ :=
  ⟨h.enlog (a.code_enter s.world) ha, fun _ => rfl⟩

/-- An activity ends. -/
lemma Tells.leave (h : s.Tells w₀) (a : Activity) : (Machine.attributed.leave a s).Quiet w₀ :=
  ⟨h.enlog (a.code_leave s.world) fun _ => rfl, fun _ => rfl⟩

/-- A command that finds no function. -/
lemma Quiet.enlog (h : s.Quiet w₀) (hw : s.world.Change w) {event : CallEvent}
    (hboundary : ¬event.IsBoundary) (hfinding : ¬event.IsFinding) :
    (s.enlog event w).Quiet w₀ := by
  cases event with
  | found f => exact absurd trivial hfinding
  | began | ended => exact absurd trivial hboundary
  | approached => exact ⟨h.toTells.enlog hw.code_eq fun _ => rfl, h.caller⟩
  | other => exact h.other hw

end Attributed

/-! ### Actions that lead somewhere else -/

/-- From states in which `I` holds, the action leads to states in which `J` holds of its value, and it
fails or is given up only in states in which `K` holds. -/
def Action.Leads {σ α : Type} (I : σ → Prop) (J : α → σ → Prop) (K : σ → Prop)
    (x : Action σ α) : Prop :=
  ∀ s, I s → match x s with
    | .done a t => J a t
    | .failed _ t | .unfinished t => K t

namespace Action.Leads

variable {σ α β : Type} {I K : σ → Prop} {J : α → σ → Prop} {x : Action σ α}

/-- One action after another. -/
lemma bind {R : β → σ → Prop} {f : α → Action σ β} (hx : x.Leads I J K)
    (hf : ∀ a, (f a).Leads (J a) R K) : (x >>= f).Leads I R K := by
  intro s hs
  have hxs := hx s hs
  rw [Action.bind_apply]
  cases hx : x s with
  | done a t =>
    rw [hx] at hxs
    exact hf a t hxs
  | failed e t =>
    rw [hx] at hxs
    exact hxs
  | @diverged t =>
    rw [hx] at hxs
    exact hxs

/-- Another error makes no difference. -/
lemma mapError (hx : x.Leads I J K) (f : EvalError → EvalError) : (x.mapError f).Leads I J K := by
  intro s hs
  have hxs := hx s hs
  unfold Action.mapError
  cases hx : x s <;> rw [hx] at hxs <;> exact hxs

/-- The state is changed, and an invariant is kept up from there. -/
lemma of_change {f : σ → σ} {Q : α → Prop} (hf : ∀ s, I s → K (f s)) (hx : x.KeepsUp K Q) :
    (Action.change f >>= fun _ => x).Leads I (fun _ => K) K := by
  intro s hs
  have hxs := (hx (f s) (hf s hs)).1
  change match x (f s) with | .done _ t => K t | .failed _ t | .unfinished t => K t
  cases hx : x (f s) <;> rw [hx] at hxs <;> exact hxs

/-- An action that leads back to an invariant keeps it up. -/
lemma keepsUp (hx : x.Leads I (fun _ => I) I) : x.KeepsUp I Anything := by
  intro s hs
  have hxs := hx s hs
  refine ⟨?_, fun _ _ => trivial⟩
  cases hx : x s <;> rw [hx] at hxs <;> exact hxs

/-- A command leads to where it is quiet, unless it ends with a value. -/
lemma exec {w₀ : World} {I : Attributed → Prop} {J : α → Attributed → Prop}
    (htells : ∀ s, I s → s.Tells w₀) {k : Command α}
    (hdone : ∀ s, I s → ∀ a w, s.world.Change w → k.run s.world = .done a w →
      J a (s.enlog (k.callEvent a) w)) :
    (Machine.attributed.exec k).Leads I J (Attributed.Quiet w₀) := by
  intro s hs
  obtain ⟨w, hw, ⟨a, hrun, hexec⟩ | ⟨e, hexec⟩ | hexec⟩ := Machine.attributed_exec_cases k s
  · rw [hexec]
    exact hdone s hs a w hw hrun
  · rw [hexec]
    exact (htells s hs).other hw
  · rw [hexec]
    exact (htells s hs).other hw

end Action.Leads

/-! ### Evaluations -/

namespace Evaluator

open Attributed

variable {w₀ : World} {bound : ℕ}

/-- A function is found by its name, and is about to be invoked. -/
lemma leads_findFunction (e : Id .engine) (name : String) (count : ℕ) :
    (Machine.attributed.exec (.findFunction e name count)).Leads (Quiet w₀)
      (fun found => Approaches w₀ found.1 .host) (Quiet w₀) :=
  .exec (fun _ => Quiet.toTells) fun _ hs found _ hw _ => hs.found hw found.1

section

variable (hclosed : Coverage.sited.Closed w₀)

include hclosed

/-- What is done on the way to an invocation gives what is covered, or fails. -/
lemma leads_approached {α : Type} {k : Command α} (hk : ∀ a, k.callEvent a = .approached)
    (f : Id .function) (site : CallSiteId) :
    (Machine.attributed.exec k).Leads (Approaches w₀ f site)
      (fun a s => s.Approaches w₀ f site ∧ Coverage.sited.Yields k a) (Quiet w₀) := by
  refine .exec (fun _ => Approaches.toTells) fun s hs a w hw hrun => ?_
  rw [hk]
  exact ⟨hs.step hw, (hclosed.of_code_eq hs.code).yields hrun⟩

/-- A command that finds no function gives what is covered. -/
lemma quiet_exec {α : Type} {k : Command α} (hk : ¬k.FindsFunction) :
    (Machine.attributed.exec k).KeepsUp (Quiet w₀) (Coverage.sited.Yields k) := by
  intro s hs
  obtain ⟨w, hw, ⟨a, hrun, hexec⟩ | ⟨e, hexec⟩ | hexec⟩ := Machine.attributed_exec_cases k s
  · rw [hexec]
    refine ⟨hs.enlog hw (k.not_isBoundary_callEvent a) (k.not_isFinding_callEvent hk a), ?_⟩
    rintro _ ⟨⟩
    exact (hclosed.of_code_eq hs.code).yields hrun
  · rw [hexec]
    exact ⟨hs.other hw, fun _ ha => nomatch ha⟩
  · rw [hexec]
    exact ⟨hs.other hw, fun _ ha => nomatch ha⟩

end

/-- Quiet states lead to quiet ones, in all bodies within a bound. -/
abbrev QuietPerforms (w₀ : World) (bound : ℕ) : Prop :=
  (Pairing.upkeep (Quiet w₀)).Performs .sited .attributed .attributed bound

section

variable (hclosed : Coverage.sited.Closed w₀) (hperform : QuietPerforms w₀ bound)

include hperform

omit hclosed in
/-- A body is performed. -/
lemma quiet_runBody (scope : Scope) {body : Option Stmt}
    (hbody : ∀ s ∈ body, Coverage.sited.CoversStmt s) :
    ((within .attributed bound).runBody scope body).KeepsUp (Quiet w₀) Anything :=
  Pairing.Steps.runBody hperform trivial hbody

include hclosed

/-- An invocation that has the right call site leads to where it is quiet. -/
lemma leads_invokeFunction (scope : Scope) (f : Id .function) (site : CallSiteId)
    (args : List Value) :
    ((within .attributed bound).invokeFunction scope f site args).Leads (Approaches w₀ f site)
      (fun _ => Quiet w₀) (Quiet w₀) := by
  have hdeeper := leads_approached hclosed (k := .deeper scope) (fun _ => rfl) f site
  have hlookup := leads_approached hclosed (k := .functionBody f) (fun _ => rfl) f site
  refine hdeeper.bind fun inner s hs => ?_
  refine hlookup.bind (fun body s hs => ?_) s hs.1
  have hbody := (quiet_runBody hperform inner hs.2).ensuring
    fun s hs => hs.toTells.leave (.function f site args)
  have hrest := hbody.bind fun v _ =>
    (quiet_exec hclosed (k := .keepResult f v) id).bind fun _ _ =>
      (.pure trivial : (pure v : Action Attributed Value).KeepsUp (Quiet w₀) Anything)
  exact Action.Leads.of_change (fun s hs => hs.enter args) hrest s hs.1

/-- An invocation of a callback. -/
lemma quiet_invokeCallback (scope : Scope) (c : Id .callback) (args : List Value) :
    ((within .attributed bound).invokeCallback scope c args).KeepsUp (Quiet w₀) Anything := by
  refine (quiet_exec hclosed (k := .deeper scope) id).bind fun inner _ => ?_
  refine (quiet_exec hclosed (k := .callbackBody c) id).bind fun body hbody => ?_
  exact .during (fun s hs => hs.toTells.enter fun _ => rfl)
    (fun s hs => hs.toTells.leave (.callback c args)) (quiet_runBody hperform inner hbody)

omit hperform in
/-- An error is reported. -/
lemma quiet_reported (e : Id .engine) {x : Action Attributed Value}
    (hx : x.KeepsUp (Quiet w₀) Anything) :
    ((within .attributed bound).reported e x).KeepsUp (Quiet w₀) Anything := by
  refine hx.attempt.bind fun result _ => ?_
  cases result with
  | ok v => exact .pure trivial
  | error error =>
    exact (quiet_exec hclosed (k := .report e error) id).bind fun _ _ => .fail error

/-- A function is called by its name. -/
lemma quiet_callNamed (e : Id .engine) (name : String) (args : List Value) :
    ((within .attributed bound).callNamed e name args).KeepsUp (Quiet w₀) Anything := by
  refine quiet_reported hclosed e (Action.Leads.keepsUp ?_)
  refine (leads_findFunction e name args.length).bind fun found => ?_
  exact (leads_invokeFunction hclosed hperform (.top e) found.1 .host args).mapError _

/-- A callback is invoked by its name. -/
lemma quiet_invokeNamed (e : Id .engine) (name : String) (args : List Value) :
    ((within .attributed bound).invokeNamed e name args).KeepsUp (Quiet w₀) Anything := by
  refine quiet_reported hclosed e ?_
  refine (quiet_exec hclosed (k := .findCallback e name args.length) id).bind
    fun c _ => ?_
  exact (quiet_invokeCallback hclosed hperform (.top e) c args).mapError _

/-- The host enters an engine. -/
lemma quiet_enter (e : Id .engine) {entry : Entry} (hentry : Coverage.sited.CoversEntry entry) :
    ((within .attributed bound).enter e entry).KeepsUp (Quiet w₀) Anything := by
  cases entry with
  | execute script =>
    have hscript : ∀ s ∈ some script, Coverage.sited.CoversStmt s := by
      rintro _ ⟨⟩
      exact hentry
    exact quiet_reported hclosed e (.during (fun s hs => hs.toTells.enter fun _ => rfl)
      (fun s hs => hs.toTells.leave .script) (quiet_runBody hperform (.top e) hscript))
  | call name args => exact quiet_callNamed hclosed hperform e name args
  | invoke name args => exact quiet_invokeNamed hclosed hperform e name args

/-- A host function runs, which may enter the engine again. -/
lemma quiet_runHost (e : Id .engine) {program : Host.Program}
    (hprogram : program.Executes Coverage.sited.CoversStmt) :
    ((within .attributed bound).runHost e program).KeepsUp (Quiet w₀) Anything := by
  have hexec : ∀ {α : Type} {k : Command α}, ¬k.FindsFunction →
      (Machine.attributed.exec k).KeepsUp (Quiet w₀) Anything :=
    fun hk => (quiet_exec hclosed hk).mono fun _ _ => trivial
  induction program with
  | finish result => exact .ofResult result
  | read next ih => exact (hexec (k := .memory) id).bind fun x _ => ih x (hprogram x)
  | write change next ih =>
    exact (hexec (k := .modifyMemory change) id).bind fun _ _ => ih hprogram
  | allocate make next ih =>
    exact (hexec (k := .allocate make) id).bind fun x _ => ih x (hprogram x)
  | display v next ih => exact (hexec (k := .display v) id).bind fun x _ => ih x (hprogram x)
  | execute script next ih =>
    have hscript : Coverage.sited.CoversEntry (.execute script) := hprogram.1
    have hexecute := quiet_enter hclosed hperform e hscript
    exact hexecute.attempt.bind fun x _ => ih x (hprogram.2 x)
  | callFunction name args next ih =>
    have hcall := quiet_callNamed hclosed hperform e name args
    exact hcall.attempt.bind fun x _ => ih x (hprogram x)
  | invokeCallback name args next ih =>
    have hinvoke := quiet_invokeNamed hclosed hperform e name args
    exact hinvoke.attempt.bind fun x _ => ih x (hprogram x)
  | inspectFrame name next ih =>
    exact (hexec (k := .inspectFrame e name) id).bind fun x _ => ih x (hprogram x)

/-- A native object is called. -/
lemma quiet_callApi (scope : Scope) (object : NativeRef) (index : ℕ) (args : List Value) :
    ((within .attributed bound).callApi scope object index args).KeepsUp (Quiet w₀) Anything :=
  (quiet_exec hclosed (k := .apiClass object) id).bind fun _ hc =>
    quiet_runHost hclosed hperform scope.engine (hc index args)

/-- A call in a tree, which has a call site of its own. -/
lemma quiet_call {scope : Scope} {f : Id .function} {site : CallSiteId} {args : List Expr}
    (hsite : site ≠ .host)
    (hargs : ∀ a ∈ args, (Pairing.upkeep (Quiet w₀)).Pairs Vocabulary.sited.value
      ((within .attributed bound).evaluate scope a)
      ((within .attributed bound).evaluate scope a)) :
    ((within .attributed bound).evaluateNode scope (.call f site args)).KeepsUp (Quiet w₀)
      Anything := by
  have hall : ((within .attributed bound).evaluateAll scope args).KeepsUp (Quiet w₀)
      Vocabulary.sited.Values := Supports.evaluateAll hargs
  refine hall.bind fun vs _ => Action.Leads.keepsUp fun s hs => ?_
  exact leads_invokeFunction hclosed hperform scope f site vs s (hs.approaches f hsite)

/-- Single steps and calls of native objects. -/
lemma quiet_supports :
    Supports (Pairing.upkeep (Quiet w₀)) .sited (within .attributed bound)
      (within .attributed bound) where
  exec _ hk := (quiet_exec hclosed (Vocabulary.yields_sited hk).1).mono fun a _ =>
    (Vocabulary.yields_sited hk).2 a
  argument _ := fun _ hs => ⟨hs.other .nothing, fun _ _ _ _ => trivial⟩
  note _ _ := .change fun _ hs => hs.other .nothing
  call _ _ hcall _ := hcall.elim
  host index _ _ _ := quiet_callApi hclosed hperform _ _ index _
  rounds := rfl

end

/-- All trees whose calls have call sites of their own lead from quiet states to quiet ones. -/
theorem quiet_trees (hclosed : Coverage.sited.Closed w₀) (bound : ℕ) :
    (∀ scope {e}, Coverage.sited.Covers e →
      (ScriptEngine.evaluate .attributed bound scope e).KeepsUp (Quiet w₀) Anything) ∧
    QuietPerforms w₀ bound := by
  -- on the nesting of nodes: parts and called bodies are evaluated within the smaller bound
  induction bound with
  | zero => exact ⟨fun _ _ _ => .diverge, fun _ _ _ _ => .diverge⟩
  | succ bound ih =>
    obtain ⟨hevaluate, hperform⟩ := ih
    have hsupports := quiet_supports hclosed hperform
    have hnote : ∀ mark, (Action.change (Machine.attributed.note mark)).KeepsUp (Quiet w₀)
        Anything := fun _ => .change fun s hs => hs.other .nothing
    refine ⟨fun scope e he => ?_, fun {scope s} _ hs v _ => ?_⟩
    · rw [evaluate_succ]
      refine (hnote _).bind fun _ _ => Action.KeepsUp.mapError ?_ _
      have hparts : ∀ a ∈ e.node.parts, (Pairing.upkeep (Quiet w₀)).Pairs Vocabulary.sited.value
          ((within .attributed bound).evaluate scope a)
          ((within .attributed bound).evaluate scope a) :=
        fun a ha => hevaluate scope (he.parts a ha)
      obtain ⟨node, l⟩ := e
      cases hcall : node.callee? with
      | none => exact hsupports.evaluateNode trivial (Vocabulary.fits_sited hcall) hparts
      | some f =>
        cases node with
        | call f site args => exact quiet_call hclosed hperform he.node hparts
        | _ => exact nomatch hcall
    · rw [peel_perform_succ]
      refine (hnote _).bind fun _ _ => Action.KeepsUp.mapError ?_ _
      exact hsupports.performNode trivial (Vocabulary.fitsStmt_sited _)
        (fun a ha => hevaluate scope (hs.expressions a ha))
        (fun t ht => hperform trivial (hs.statements t ht)) v trivial

/-- Each turn leads from quiet states to quiet ones. -/
theorem quiet_take (hclosed : Coverage.sited.Closed w₀) (bound : ℕ) {turn : Turn}
    (hturn : turn.IsSited) :
    ((within .attributed bound).take Attributed.rearrange turn).KeepsUp (Quiet w₀) Anything := by
  obtain ⟨hevaluate, hperform⟩ := quiet_trees hclosed bound
  cases turn with
  | enter e entry => exact (quiet_enter hclosed hperform e hturn).attempt
  | evaluate scope t =>
    refine Action.KeepsUp.attempt (Q := Anything) ?_
    cases t with
    | expr e =>
      have hvalue := (hevaluate scope hturn).bind fun v _ =>
        (.pure trivial : (pure (Signal.normal, v) : Action Attributed _).KeepsUp (Quiet w₀) Anything)
      exact hvalue.bind fun _ _ => .pure trivial
    | stmt s =>
      have hsignal : ((within .attributed bound).signalOf scope s).KeepsUp (Quiet w₀) Anything := by
        rw [signalOf_eq_peel]
        exact (hperform trivial hturn .undefined trivial).mono fun _ _ => trivial
      exact hsignal.bind fun _ _ => .pure trivial
  | write scope target v =>
    refine Action.KeepsUp.attempt (Q := Anything) ?_
    exact (quiet_exec hclosed (k := .set scope target v) id).bind fun _ _ =>
      .pure trivial
  | arrange a => exact hturn.elim

end Evaluator

/-! ### Runs -/

/-- While an invocation of `f` runs, the active call of `f` is the call site of the invocation that
began last, and it is that of the host just if that one comes from there. -/
def CallLog.ActiveTells (line : CallLine) (past : CallLog) : Prop :=
  ∀ f x, line.world.function? f = some x → 0 < running f (line :: past) →
    ∃ site caller, latest? f (line :: past) = some (site, caller) ∧
      x.frame.activeCall = some site ∧ (site = .host ↔ caller = .host)

/-- In a run from an idle world in which all calls have call sites of their own, active calls tell
where invocations come from. -/
theorem Attributed.always_tells (bound : ℕ) {turns : List Turn} {w : World} (hidle : w.Idle)
    (hclosed : Coverage.sited.Closed w) (hturns : ∀ turn ∈ turns, turn.IsSited) :
    ((Evaluator.within .attributed bound).takeAll Attributed.rearrange turns
      ⟨w, []⟩).state.record.Always CallLog.ActiveTells := by
  have hquiet : Attributed.Quiet w ⟨w, []⟩ := ⟨⟨rfl, .nil _⟩, fun _ => rfl⟩
  have htells := (Evaluator.takeAll_keepsUp_of_mem fun turn hturn =>
    Evaluator.quiet_take hclosed bound (hturns turn hturn)) _ hquiet
  have hfollow := (Evaluator.takeAll_keepsUp_of_mem fun turn hturn =>
    Attributed.Follow.upkeep.take bound Attributed.rearrange fun a ha => by
      have hsited := hturns turn hturn
      rw [ha] at hsited
      exact hsited.elim) _ (Attributed.Follow.start hidle)
  intro line past hline f x hx hrunning
  obtain ⟨⟨site, caller⟩, hlatest, hactive⟩ :=
    (hfollow.1.always line past hline f x hx).active hrunning
  have hsofar : CallLog.Always CallLine.TellsCaller (line :: past) :=
    fun l older hl => htells.1.always l older (hl.trans hline)
  exact ⟨site, caller, hlatest, hactive, hsofar.latest? hlatest⟩

end ScriptEngine
