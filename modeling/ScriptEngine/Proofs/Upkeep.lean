import ScriptEngine.Proofs.Pairing

/-!
# Upkeep of invariants

An action keeps up an invariant of the state if it leads from states in which the invariant holds to
such states, however it ends.  A machine that keeps up an invariant in each single step keeps it up
in whole evaluations.

Two steps may take more than one command.  A callback is looked up before it is invoked, and what
the lookup has established is known when the invocation begins.  An object call begins and is
resolved before anything else is done, and the invariant need not hold in between.

Main statements: `Machine.Upkeep.trees` and `Machine.Upkeep.enterAll`.
-/

namespace ScriptEngine

open Pairing (Anything)

/-! ### Actions that keep up an invariant -/

/-- The action keeps up the invariant, however it ends, and its value satisfies `Q`. -/
def Action.KeepsUp {σ α : Type} (I : σ → Prop) (Q : α → Prop) (x : Action σ α) : Prop :=
  ∀ s, I s → I (x s).state ∧ ∀ a ∈ (x s).value?, Q a

namespace Action.KeepsUp

variable {σ α β : Type} {I : σ → Prop} {Q : α → Prop} {x : Action σ α}

lemma pure {a : α} (ha : Q a) : (Pure.pure a : Action σ α).KeepsUp I Q := by
  intro s hs
  exact ⟨hs, fun b hb => Option.some.inj hb ▸ ha⟩

lemma fail (e : EvalError) : (Action.fail e : Action σ α).KeepsUp I Q :=
  fun _ hs => ⟨hs, fun _ ha => nomatch ha⟩

lemma diverge : (Action.diverge : Action σ α).KeepsUp I Q :=
  fun _ hs => ⟨hs, fun _ ha => nomatch ha⟩

lemma ofResult (result : Except EvalError α) :
    (Action.ofResult result : Action σ α).KeepsUp I Anything := by
  cases result with
  | ok a => exact pure trivial
  | error e => exact fail e

lemma change {f : σ → σ} (h : ∀ s, I s → I (f s)) : (Action.change f).KeepsUp I Anything :=
  fun s hs => ⟨h s hs, fun _ _ => trivial⟩

/-- The claim about values may be weakened. -/
lemma mono {R : α → Prop} (hx : x.KeepsUp I Q) (hQR : ∀ a, Q a → R a) : x.KeepsUp I R :=
  fun s hs => ⟨(hx s hs).1, fun a ha => hQR a ((hx s hs).2 a ha)⟩

/-- One action after another keeps up what both keep up. -/
lemma bind {f : α → Action σ β} {R : β → Prop} (hx : x.KeepsUp I Q)
    (hf : ∀ a, Q a → (f a).KeepsUp I R) : (x >>= f).KeepsUp I R := by
  intro s hs
  have hxs := hx s hs
  rw [Action.bind_apply]
  cases hx : x s with
  | done a s' =>
    rw [hx] at hxs
    exact hf a (hxs.2 a rfl) s' hxs.1
  | failed e s' =>
    rw [hx] at hxs
    exact ⟨hxs.1, fun _ hb => nomatch hb⟩
  | @diverged s' =>
    rw [hx] at hxs
    exact ⟨hxs.1, fun _ hb => nomatch hb⟩

/-- An action with another error keeps up the same. -/
lemma mapError (hx : x.KeepsUp I Q) (f : EvalError → EvalError) : (x.mapError f).KeepsUp I Q := by
  intro s hs
  have hxs := hx s hs
  unfold Action.mapError
  cases hx : x s <;> rw [hx] at hxs <;> exact hxs

/-- An error that becomes a result makes no difference. -/
lemma attempt (hx : x.KeepsUp I Q) : x.attempt.KeepsUp I Anything := by
  intro s hs
  have hxs := (hx s hs).1
  unfold Action.attempt
  cases hx : x s <;> rw [hx] at hxs <;> exact ⟨hxs, fun _ _ => trivial⟩

/-- An action with a cleanup keeps up what both keep up. -/
lemma ensuring {cleanup : σ → σ} (hx : x.KeepsUp I Q) (hcleanup : ∀ s, I s → I (cleanup s)) :
    (x.ensuring cleanup).KeepsUp I Q := by
  intro s hs
  have hxs := hx s hs
  unfold Action.ensuring
  cases hx : x s with
  | done v s' =>
    rw [hx] at hxs
    exact ⟨hcleanup s' hxs.1, hxs.2⟩
  | failed e s' =>
    rw [hx] at hxs
    exact ⟨hcleanup s' hxs.1, hxs.2⟩
  | @diverged s' =>
    rw [hx] at hxs
    exact hxs

/-- An activity keeps up what its beginning, its end and its course keep up. -/
lemma during {m : Machine σ} {a : Activity} (henter : ∀ s, I s → I (m.enter a s))
    (hleave : ∀ s, I s → I (m.leave a s)) (hx : x.KeepsUp I Q) : (m.during a x).KeepsUp I Q :=
  bind (change henter) fun _ _ => hx.ensuring hleave

end Action.KeepsUp

/-- Keeping up an invariant, as a claim that composes. -/
def Pairing.upkeep {σ : Type} (I : σ → Prop) : Pairing σ σ where
  Pairs Q x _ := x.KeepsUp I Q
  pure ha := .pure ha
  fail cause := .fail (.of cause)
  diverge := .diverge
  bind hx hf := hx.bind hf

/-! ### Machines that keep up an invariant -/

/-- The form of expression is a call of the native object that a variable holds. -/
def ExprNode.IsObjectCall : ExprNode → Prop
  | .objectCall .. => True
  | _ => False

/-- The mark is about an object call that begins. -/
def Mark.BeginsObjectCall : Mark → Prop
  | .evaluating _ e => e.node.IsObjectCall
  | .performing _ _ | .returned _ | .initEnded _ => False

/-- The command keeps the resolution of an object call. -/
def Command.KeepsResolution {α : Type} : Command α → Prop
  | .keepResolution .. => True
  | _ => False

/-- All that can be evaluated, except for object calls. -/
def Vocabulary.withoutObjectCalls : Vocabulary :=
  { Vocabulary.all with objectCalls := fun _ _ _ => False }

namespace Vocabulary

/-- No other form of expression mentions object calls. -/
lemma fits_withoutObjectCalls {node : ExprNode} (h : ¬node.IsObjectCall) :
    withoutObjectCalls.FitsExpr node := by
  cases node with
  | objectCall site target function args => exact absurd trivial h
  | assign target op value => cases op <;> simp [FitsExpr, withoutObjectCalls, all]
  | _ => simp [FitsExpr, withoutObjectCalls, all]

/-- Statements mention no object calls themselves. -/
lemma fitsStmt_withoutObjectCalls (node : StmtNode) : withoutObjectCalls.FitsStmt node := by
  cases node <;> trivial

/-- What commands give is never an object call. -/
lemma yields_withoutObjectCalls {α : Type} (k : Command α) (a : α) :
    withoutObjectCalls.Yields k a := by
  cases k <;> simp [Yields, withoutObjectCalls, all]

end Vocabulary

/-- Each single step of the machine keeps up the invariant.  A callback that is found by its name
`accepts` the arguments that are passed. -/
structure Machine.Upkeep {σ : Type} (m : Machine σ) (accepts : Id .callback → ℕ → Prop)
    (I : σ → Prop) : Prop where
  exec : ∀ {α : Type} (k : Command α), ¬k.KeepsResolution → (m.exec k).KeepsUp I Anything
  findCallback : ∀ e name count,
    (m.exec (.findCallback e name count)).KeepsUp I fun c => accepts c count
  argument : ∀ f i, (m.argument? f i).KeepsUp I Anything
  note : ∀ mark, ¬mark.BeginsObjectCall → ∀ s, I s → I (m.note mark s)
  resolve : ∀ {r : Evaluator σ}, r.machine = m → ∀ scope site target function args l,
    (Action.change (m.note (.evaluating scope (.mk (.objectCall site target function args) l))) >>=
      fun _ => r.resolve scope site target function args.length).KeepsUp I Anything
  enter : ∀ a, (∀ c args, a = .callback c args → accepts c args.length) →
    ∀ s, I s → I (m.enter a s)
  leave : ∀ a s, I s → I (m.leave a s)

namespace Machine.Upkeep

open Evaluator
open Vocabulary (withoutObjectCalls)

variable {σ : Type} {m : Machine σ} {accepts : Id .callback → ℕ → Prop} {I : σ → Prop}

/-- A machine keeps up an invariant if each command and each mark does. -/
lemma of_steps (hexec : ∀ {α : Type} (k : Command α) s, I s → I (m.exec k s).state)
    (hfind : ∀ e name count s, I s →
      ∀ c ∈ (m.exec (.findCallback e name count) s).value?, accepts c count)
    (hargument : ∀ f i s, I s → I (m.argument? f i s).state)
    (hnote : ∀ mark s, I s → I (m.note mark s))
    (henter : ∀ a, (∀ c args, a = .callback c args → accepts c args.length) →
      ∀ s, I s → I (m.enter a s))
    (hleave : ∀ a s, I s → I (m.leave a s)) : m.Upkeep accepts I where
  exec k _ s hs := ⟨hexec k s hs, fun _ _ => trivial⟩
  findCallback e name count s hs := ⟨hexec _ s hs, hfind e name count s hs⟩
  argument f i s hs := ⟨hargument f i s hs, fun _ _ => trivial⟩
  note mark _ := hnote mark
  resolve {r} hr scope site target function args l := by
    have hkeeps : ∀ {α : Type} (k : Command α), (m.exec k).KeepsUp I Anything :=
      fun k s hs => ⟨hexec k s hs, fun _ _ => trivial⟩
    have hget : (m.get scope target).KeepsUp I Anything := by
      cases target with
      | parameter f i n =>
        refine (hkeeps (.requireFunction scope (.parameter f i n) f)).bind fun _ _ => ?_
        have hread : (m.argument? f i).KeepsUp I Anything :=
          fun s hs => ⟨hargument f i s hs, fun _ _ => trivial⟩
        exact hread.bind fun argument _ => hkeeps (.deliver scope n argument)
      | _ => exact hkeeps _
    refine (Action.KeepsUp.change (hnote _)).bind fun _ _ => ?_
    unfold Evaluator.resolve
    rw [hr]
    refine (hkeeps (.resolution site)).bind fun known _ => ?_
    cases known with
    | some resolution => exact .pure trivial
    | none =>
      refine hget.bind fun v _ => ?_
      refine (hkeeps (.findMethod scope.engine target v function args.length)).bind
        fun found _ => ?_
      exact (hkeeps (.keepResolution site found)).bind fun _ _ => .pure trivial
  enter := henter
  leave := hleave

/-- The invariant is kept up by all bodies within a bound. -/
abbrev Performs (I : σ → Prop) (m : Machine σ) (bound : ℕ) : Prop :=
  (Pairing.upkeep I).Performs withoutObjectCalls m m bound

section

variable (h : m.Upkeep accepts I) {bound : ℕ} (hperform : Performs I m bound)

include hperform

omit h in
/-- A body keeps up the invariant. -/
lemma run (scope : Scope) (body : Stmt) : ((within m bound).run scope body).KeepsUp I Anything := by
  rw [run_eq_peel]
  exact (hperform trivial trivial .undefined trivial).bind fun _ _ => .pure trivial

omit h in
/-- A body that may be missing keeps up the invariant. -/
lemma runBody (scope : Scope) (body : Option Stmt) :
    ((within m bound).runBody scope body).KeepsUp I Anything := by
  cases body with
  | none => exact .pure trivial
  | some s => exact run hperform scope s

include h

/-- An invocation of a function keeps up the invariant. -/
lemma invokeFunction (scope : Scope) (f : Id .function) (site : CallSiteId) (args : List Value) :
    ((within m bound).invokeFunction scope f site args).KeepsUp I Anything := by
  have henter : ∀ s, I s → I (m.enter (.function f site args) s) :=
    h.enter _ fun c args' ha => nomatch ha
  refine (h.exec (.deeper scope) id).bind fun inner _ => ?_
  refine (h.exec (.functionBody f) id).bind fun body _ => ?_
  refine (Action.KeepsUp.during henter (h.leave _) (runBody hperform inner body)).bind fun v _ => ?_
  exact (h.exec (.keepResult f v) id).bind fun _ _ => .pure trivial

/-- An invocation of a callback that accepts the arguments keeps up the invariant. -/
lemma invokeCallback (scope : Scope) {c : Id .callback} {args : List Value}
    (hc : accepts c args.length) :
    ((within m bound).invokeCallback scope c args).KeepsUp I Anything := by
  have henter : ∀ s, I s → I (m.enter (.callback c args) s) := by
    refine h.enter _ fun c' args' ha => ?_
    obtain ⟨rfl, rfl⟩ := Activity.callback.inj ha
    exact hc
  refine (h.exec (.deeper scope) id).bind fun inner _ => ?_
  refine (h.exec (.callbackBody c) id).bind fun body _ => ?_
  exact Action.KeepsUp.during henter (h.leave _) (runBody hperform inner body)

omit hperform in
/-- An error that is reported makes no difference. -/
lemma reported (e : Id .engine) {x : Action σ Value} (hx : x.KeepsUp I Anything) :
    ((within m bound).reported e x).KeepsUp I Anything := by
  refine hx.attempt.bind fun result _ => ?_
  cases result with
  | ok v => exact .pure trivial
  | error error => exact (h.exec (.report e error) id).bind fun _ _ => .fail error

/-- A call of a function by its name keeps up the invariant. -/
lemma callNamed (e : Id .engine) (name : String) (args : List Value) :
    ((within m bound).callNamed e name args).KeepsUp I Anything := by
  refine h.reported e ((h.exec (.findFunction e name args.length) id).bind fun found _ => ?_)
  exact (h.invokeFunction hperform (.top e) found.1 .host args).mapError _

/-- An invocation of a callback by its name keeps up the invariant. -/
lemma invokeNamed (e : Id .engine) (name : String) (args : List Value) :
    ((within m bound).invokeNamed e name args).KeepsUp I Anything := by
  refine h.reported e ((h.findCallback e name args.length).bind fun c hc => ?_)
  exact (h.invokeCallback hperform (.top e) hc).mapError _

/-- An entry of the host keeps up the invariant. -/
lemma enterWithin (e : Id .engine) (entry : Entry) :
    ((within m bound).enter e entry).KeepsUp I Anything := by
  cases entry with
  | execute script =>
    have henter : ∀ s, I s → I (m.enter .script s) := h.enter _ fun c args ha => nomatch ha
    exact h.reported e (.during henter (h.leave _) (run hperform (.top e) script))
  | call name args => exact h.callNamed hperform e name args
  | invoke name args => exact h.invokeNamed hperform e name args

/-- A host function keeps up the invariant, also where it enters the engine again. -/
lemma runHost (e : Id .engine) (program : Host.Program) :
    ((within m bound).runHost e program).KeepsUp I Anything := by
  induction program with
  | finish result => exact .ofResult result
  | read next ih => exact (h.exec .memory id).bind fun x _ => ih x
  | write change next ih => exact (h.exec (.modifyMemory change) id).bind fun _ _ => ih
  | allocate make next ih => exact (h.exec (.allocate make) id).bind fun x _ => ih x
  | display v next ih => exact (h.exec (.display v) id).bind fun x _ => ih x
  | execute script next ih =>
    exact (h.enterWithin hperform e (.execute script)).attempt.bind fun x _ => ih x
  | callFunction name args next ih =>
    exact (h.callNamed hperform e name args).attempt.bind fun x _ => ih x
  | invokeCallback name args next ih =>
    exact (h.invokeNamed hperform e name args).attempt.bind fun x _ => ih x
  | inspectFrame name next ih => exact (h.exec (.inspectFrame e name) id).bind fun x _ => ih x

/-- A call of a native object keeps up the invariant. -/
lemma callApi (scope : Scope) (object : NativeRef) (index : ℕ) (args : List Value) :
    ((within m bound).callApi scope object index args).KeepsUp I Anything :=
  (h.exec (.apiClass object) id).bind fun c _ =>
    h.runHost hperform scope.engine (c.call index args)

/-- Single steps and calls keep up the invariant. -/
lemma supports :
    Supports (Pairing.upkeep I) withoutObjectCalls (within m bound) (within m bound) where
  exec k hk := by
    have hkeeps : ¬k.KeepsResolution := by
      intro hkeeps
      cases k with
      | keepResolution site r =>
        obtain ⟨⟨target, function, hnone⟩, -⟩ := hk
        exact hnone
      | _ => exact hkeeps
    exact (h.exec k hkeeps).mono fun a _ => Vocabulary.yields_withoutObjectCalls k a
  argument {f i _} _ := (h.argument f i).mono fun _ _ _ _ => trivial
  note mark hmark := .change (h.note mark fun hbegins => by cases mark <;> contradiction)
  call site _ _ _ := h.invokeFunction hperform _ _ site _
  host index _ _ _ := h.callApi hperform _ _ index _
  rounds := rfl

end

variable (h : m.Upkeep accepts I)

include h

/-- An object call keeps up the invariant, as long as its arguments do. -/
lemma evaluateObjectCall {bound : ℕ} (hperform : Performs I m bound)
    (hevaluate : ∀ scope e, (evaluate m bound scope e).KeepsUp I Anything) (scope : Scope)
    (site : Id .callSite) (target : VarRef) (function : Name) (args : List Expr) (l : Location) :
    (evaluate m (bound + 1) scope (.mk (.objectCall site target function args) l)).KeepsUp I
      Anything := by
  let r := within m bound
  let begin' := Action.change
    (m.note (.evaluating scope (.mk (.objectCall site target function args) l)))
  -- The call begins and is resolved in one go; only then its arguments are evaluated.
  have hshape : evaluate m (bound + 1) scope (.mk (.objectCall site target function args) l) =
      ((begin' >>= fun _ => r.resolve scope site target function args.length) >>= fun resolution =>
        r.evaluateAll scope args >>= fun vs =>
          r.callApi scope resolution.1 resolution.2.index vs).locate l := by
    rw [Action.bind_assoc]
    rfl
  rw [hshape]
  have hparts : ∀ e ∈ args, (Pairing.upkeep I).Pairs withoutObjectCalls.value (r.evaluate scope e)
      (r.evaluate scope e) := fun e _ => hevaluate scope e
  have hargs : (r.evaluateAll scope args).KeepsUp I withoutObjectCalls.Values :=
    Supports.evaluateAll hparts
  refine ((h.resolve rfl scope site target function args l).bind fun resolution _ => ?_).mapError _
  exact hargs.bind fun vs _ => h.callApi hperform scope resolution.1 resolution.2.index vs

/-- All evaluations keep up the invariant. -/
theorem trees (bound : ℕ) :
    (∀ scope e, (evaluate m bound scope e).KeepsUp I Anything) ∧ Performs I m bound := by
  induction bound with
  | zero => exact ⟨fun _ _ => .diverge, fun _ _ _ _ => .diverge⟩
  | succ bound ih =>
    obtain ⟨hevaluate, hperform⟩ := ih
    have hsupports := h.supports hperform
    refine ⟨fun scope e => ?_, fun {scope s} _ _ v _ => ?_⟩
    · obtain ⟨node, l⟩ := e
      by_cases hcall : node.IsObjectCall
      · cases node with
        | objectCall site target function args =>
          exact h.evaluateObjectCall hperform hevaluate scope site target function args l
        | _ => exact hcall.elim
      · have hnote := h.note (.evaluating scope (.mk node l)) hcall
        rw [evaluate_succ]
        refine (Action.KeepsUp.change hnote).bind fun _ _ => ?_
        refine Action.KeepsUp.mapError ?_ _
        exact hsupports.evaluateNode trivial (Vocabulary.fits_withoutObjectCalls hcall)
          fun a _ => (hevaluate scope a).mono fun _ _ => trivial
    · have hnote := h.note (.performing scope s) id
      rw [peel_perform_succ]
      refine (Action.KeepsUp.change hnote).bind fun _ _ => ?_
      refine Action.KeepsUp.mapError ?_ _
      exact hsupports.performNode trivial (Vocabulary.fitsStmt_withoutObjectCalls _)
        (fun a _ => (hevaluate scope a).mono fun _ _ => trivial)
        (fun t _ => hperform trivial trivial) v trivial

/-- All entries of the host keep up the invariant. -/
theorem enterEngine (bound : ℕ) (e : Id .engine) (entry : Entry) :
    ((within m bound).enter e entry).KeepsUp I Anything :=
  h.enterWithin (h.trees bound).2 e entry

/-- All series of entries keep up the invariant. -/
theorem enterAll (bound : ℕ) (entries : List (Id .engine × Entry)) :
    ((within m bound).enterAll entries).KeepsUp I Anything := by
  induction entries with
  | nil => exact .pure trivial
  | cons x rest ih =>
    obtain ⟨e, entry⟩ := x
    refine (h.enterEngine bound e entry).attempt.bind fun result _ => ?_
    exact ih.bind fun results _ => .pure trivial

/-- All evaluations of trees by the host keep up the invariant. -/
theorem evaluateTree (bound : ℕ) (scope : Scope) (t : Tree) :
    ((within m bound).evaluateTree scope t).KeepsUp I Anything := by
  cases t with
  | expr e => exact ((h.trees bound).1 scope e).bind fun v _ => .pure trivial
  | stmt s =>
    change ((within m bound).signalOf scope s).KeepsUp I Anything
    rw [signalOf_eq_peel]
    exact ((h.trees bound).2 trivial trivial .undefined trivial).mono fun _ _ => trivial

end Machine.Upkeep

end ScriptEngine
