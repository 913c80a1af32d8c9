import ScriptEngine.Proofs.Chronicle

/-!
# Refused calls change nothing

A call may be refused at three points.  The checks that come before the arguments leave the world as it
is, whatever the arguments would have done; in particular, a call on an object stays unresolved.  The
limit on nested calls is asked for after the arguments of a call have been evaluated, and before
anything of the function is touched: what the arguments have done is done, and nothing else is.  The
host is turned away by name, by the number of arguments or by the limit, and then all that happens is
that the error is reported.

Main statement: `refused_calls_change_nothing`.
-/

namespace ScriptEngine

/-! ### Checks before the arguments -/

/-- A call that is refused fails, and nothing happens but that. -/
lemma Evaluator.chronicleNode_of_refuses (bound : ℕ) {scope : Scope} {node : ExprNode}
    {err : EvalError} {s : Chronicled} (h : s.world.Refuses scope node err) :
    (Evaluator.chronicled bound).chronicleNode scope node s =
      .failed err (s.write (.refused node err)) := by
  have hcheck : ∀ {α : Type} {check : Action World α} {f : α → Action Chronicled Value},
      check s.world = .failed err s.world →
        ((Recorded.aside check).refusing node >>= f) s = .failed err (s.write (.refused node err)) := by
    intro α check f hcheck
    rw [Action.bind_apply, Action.refusing_failed (Recorded.aside_of_eq hcheck)]
    rfl
  cases node with
  | apiCall object function slot args => exact hcheck h.checkApiCall
  | objectCall site target function args =>
    change ((((Evaluator.chronicled bound).resolve scope site target function
      args.length).refusing (.objectCall site target function args)) >>= _) s = _
    rw [Evaluator.chronicled_resolve]
    exact hcheck (h.resolve rfl)
  | snippetCall snippet args =>
    have haside : (Action.ofResult snippet.callable : Action Chronicled _) =
        Recorded.aside (Action.ofResult snippet.callable) := by
      rw [h.callable]
      rfl
    change ((Action.ofResult snippet.callable).refusing (.snippetCall snippet args) >>= _) s = _
    rw [haside]
    refine hcheck ?_
    rw [h.callable]
    rfl
  | _ => exact nomatch h

/-- A refused call is begun and refused, and leaves the world as it is. -/
lemma chronicleExpr_of_refuses (bound : ℕ) {scope : Scope} {e : Expr} {err : EvalError}
    {s : Chronicled} (h : s.world.Refuses scope e.node err) :
    chronicleExpr (bound + 1) scope e s =
      .failed (err.locate e.location) ((s.write (.evaluating e)).write (.refused e.node err)) := by
  have hnode := Evaluator.chronicleNode_of_refuses bound (s := s.write (.evaluating e)) h
  change ((Evaluator.chronicled bound).chronicleNode scope e.node).locate e.location
    (s.write (.evaluating e)) = _
  unfold Action.locate Action.mapError
  rw [hnode]

/-! ### The limit on nested calls -/

/-- At the limit, an invocation of a function fails before it does anything. -/
lemma Evaluator.invokeFunction_of_limit (bound : ℕ) {scope : Scope} {w : World}
    (hlimit : (w.engine scope.engine).maxCallDepth ≤ scope.depth) (f : Id .function)
    (site : CallSiteId) (args : List Value) :
    (Evaluator.shared bound).invokeFunction scope f site args w =
      .failed (.of (.recursionLimit (w.engine scope.engine).maxCallDepth)) w := by
  change ((Command.deeper scope).run >>= _) w = _
  rw [Action.bind_apply, Command.run_deeper, if_pos hlimit]

/-- At the limit, an invocation of a callback fails before it does anything. -/
lemma Evaluator.invokeCallback_of_limit (bound : ℕ) {scope : Scope} {w : World}
    (hlimit : (w.engine scope.engine).maxCallDepth ≤ scope.depth) (c : Id .callback)
    (args : List Value) :
    (Evaluator.shared bound).invokeCallback scope c args w =
      .failed (.of (.recursionLimit (w.engine scope.engine).maxCallDepth)) w := by
  change ((Command.deeper scope).run >>= _) w = _
  rw [Action.bind_apply, Command.run_deeper, if_pos hlimit]

/-- A call at the limit fails in the world that its arguments leave. -/
lemma evaluate_call_of_limit (bound : ℕ) {scope : Scope} {args : List Expr} {w u : World}
    {vs : List Value} (hargs : (Evaluator.shared bound).evaluateAll scope args w = .done vs u)
    (hlimit : (u.engine scope.engine).maxCallDepth ≤ scope.depth) (f : Id .function)
    (site : CallSiteId) (l : Location) :
    evaluate .shared (bound + 1) scope (.mk (.call f site args) l) w =
      .failed ((EvalError.of (.recursionLimit (u.engine scope.engine).maxCallDepth)).locate l) u := by
  change ((Evaluator.shared bound).evaluateAll scope args >>= fun vs =>
    (Evaluator.shared bound).invokeFunction scope f site vs).locate l w = _
  unfold Action.locate Action.mapError
  rw [Action.bind_apply, hargs]
  dsimp only
  rw [Evaluator.invokeFunction_of_limit bound hlimit]

/-! ### The host -/

/-- The worlds are the same but for what has been reported. -/
structure World.SameButReports (w w' : World) : Prop where
  memory : w'.memory = w.memory
  natives : w'.natives = w.natives
  functions : w'.functions = w.functions
  callbacks : w'.callbacks = w.callbacks
  objectCalls : w'.objectCalls = w.objectCalls
  engine : ∀ d, { w'.engine d with reporter := .silent } = { w.engine d with reporter := .silent }

/-- A report touches nothing else. -/
lemma World.sameButReports_report (w : World) (e : Id .engine) (err : EvalError) :
    w.SameButReports (w.report e err) where
  memory := rfl
  natives := rfl
  functions := rfl
  callbacks := rfl
  objectCalls := rfl
  engine d := by
    unfold World.report
    rcases w.engine_modifyEngine e d _ with hsame | ⟨-, hchange⟩
    · rw [hsame]
    · rw [hchange]

namespace Evaluator

variable (bound : ℕ) {e : Id .engine} {entry : Entry} {w : World}

/-- Where there is nothing to enter by, the error is reported, and that is all. -/
lemma enter_of_misses {cause : Cause} (h : Visit.Misses ⟨e, entry, w⟩ cause) :
    (Evaluator.shared bound).enter e entry w = .failed (.of cause) (w.report e (.of cause)) := by
  cases entry with
  | execute script => exact h.elim
  | call name args =>
    change (Evaluator.shared bound).reported e
      ((Command.findFunction e name args.length).run >>= _) w = _
    rw [shared_reported_apply rfl, Action.bind_apply]
    rcases Command.run_findFunction w e name args.length with
      ⟨hname, hrun⟩ | ⟨f, hname, ⟨hcount, hrun⟩ | ⟨hcount, hrun⟩⟩
    · rcases h with ⟨-, rfl⟩ | ⟨g, hg, -⟩
      · rw [hrun]
        rfl
      · exact nomatch hname.symm.trans hg
    · rcases h with ⟨hnone, -⟩ | ⟨g, hg, -, rfl⟩
      · exact nomatch hname.symm.trans hnone
      · obtain rfl := Option.some.inj (hname.symm.trans hg)
        rw [hrun]
        rfl
    · rcases h with ⟨hnone, -⟩ | ⟨g, hg, hother, -⟩
      · exact nomatch hname.symm.trans hnone
      · obtain rfl := Option.some.inj (hname.symm.trans hg)
        exact absurd hcount hother
  | invoke name args =>
    change (Evaluator.shared bound).reported e
      ((Command.findCallback e name args.length).run >>= _) w = _
    rw [shared_reported_apply rfl, Action.bind_apply]
    rcases Command.run_findCallback w e name args.length with
      ⟨hname, hrun⟩ | ⟨c, hname, ⟨hcount, hrun⟩ | ⟨hcount, hrun⟩⟩
    · rcases h with ⟨-, rfl⟩ | ⟨k, hk, -⟩
      · rw [hrun]
        rfl
      · exact nomatch hname.symm.trans hk
    · rcases h with ⟨hnone, -⟩ | ⟨k, hk, -, rfl⟩
      · exact nomatch hname.symm.trans hnone
      · obtain rfl := Option.some.inj (hname.symm.trans hk)
        rw [hrun]
        rfl
    · rcases h with ⟨hnone, -⟩ | ⟨k, hk, hother, -⟩
      · exact nomatch hname.symm.trans hnone
      · obtain rfl := Option.some.inj (hname.symm.trans hk)
        exact absurd hcount hother

/-- Where no calls are allowed at all, the error is reported, and that is all. -/
lemma enter_of_limit {label : String} (hfound : ∀ cause, ¬Visit.Misses ⟨e, entry, w⟩ cause)
    (hlabel : Visit.Names ⟨e, entry, w⟩ label) (hlimit : (w.engine e).maxCallDepth = 0) :
    (Evaluator.shared bound).enter e entry w =
      .failed ⟨.recursionLimit 0, none, some label⟩
        (w.report e ⟨.recursionLimit 0, none, some label⟩) := by
  have htop : (w.engine (Scope.top e).engine).maxCallDepth ≤ (Scope.top e).depth :=
    Nat.le_of_eq hlimit
  cases entry with
  | execute script => exact hlabel.elim
  | call name args =>
    change (Evaluator.shared bound).reported e
      ((Command.findFunction e name args.length).run >>= fun found =>
        ((Evaluator.shared bound).invokeFunction (.top e) found.1 .host args).mapError
          (·.withContext found.2)) w = _
    rw [shared_reported_apply rfl, Action.bind_apply]
    rcases Command.run_findFunction w e name args.length with
      ⟨hname, hrun⟩ | ⟨f, hname, ⟨hcount, hrun⟩ | ⟨hcount, hrun⟩⟩
    · exact absurd (.inl ⟨hname, rfl⟩) (hfound _)
    · exact absurd (.inr ⟨f, hname, hcount, rfl⟩) (hfound _)
    · obtain ⟨g, hg, rfl⟩ := hlabel
      obtain rfl := Option.some.inj (hname.symm.trans hg)
      rw [hrun]
      dsimp only
      unfold Action.mapError
      rw [invokeFunction_of_limit bound htop]
      change Outcome.failed _ _ = _
      rw [show (w.engine (Scope.top e).engine).maxCallDepth = 0 from hlimit]
      rfl
  | invoke name args =>
    change (Evaluator.shared bound).reported e
      ((Command.findCallback e name args.length).run >>= fun c =>
        ((Evaluator.shared bound).invokeCallback (.top e) c args).mapError
          (·.withContext name)) w = _
    rw [shared_reported_apply rfl, Action.bind_apply]
    rcases Command.run_findCallback w e name args.length with
      ⟨hname, hrun⟩ | ⟨c, hname, ⟨hcount, hrun⟩ | ⟨hcount, hrun⟩⟩
    · exact absurd (.inl ⟨hname, rfl⟩) (hfound _)
    · exact absurd (.inr ⟨c, hname, hcount, rfl⟩) (hfound _)
    · obtain rfl : label = name := hlabel
      rw [hrun]
      dsimp only
      unfold Action.mapError
      rw [invokeCallback_of_limit bound htop]
      change Outcome.failed _ _ = _
      rw [show (w.engine (Scope.top e).engine).maxCallDepth = 0 from hlimit]
      rfl

end Evaluator

/-! ### All refusals -/

/-- A call that is refused before its arguments are evaluated fails in the world as it was, and
nothing else happens; what happens can be told, since the chronicle makes no difference.  A call of
a function at the limit fails in the world that its arguments leave.  The host is turned away in the
world as it was, but for the report, and where it is the limit that turns it away, the error names
what the host has asked for. -/
theorem refused_calls_change_nothing (bound : ℕ) (w : World) :
    (∀ scope e err, w.Refuses scope e.node err →
      evaluate .shared (bound + 1) scope e w = .failed (err.locate e.location) w ∧
      ∀ past, chronicleExpr (bound + 1) scope e ⟨w, past⟩ = .failed (err.locate e.location)
        ⟨w, ⟨.refused e.node err, w⟩ :: ⟨.evaluating e, w⟩ :: past⟩) ∧
    (∀ scope e s, (chronicleExpr bound scope e s).mapState (·.world) =
      evaluate .shared bound scope e s.world) ∧
    (∀ scope f site args l vs u, (Evaluator.shared bound).evaluateAll scope args w = .done vs u →
      (u.engine scope.engine).maxCallDepth ≤ scope.depth →
      evaluate .shared (bound + 1) scope (.mk (.call f site args) l) w =
        .failed ((EvalError.of (.recursionLimit (u.engine scope.engine).maxCallDepth)).locate l) u) ∧
    (∀ e entry cause, Visit.Misses ⟨e, entry, w⟩ cause →
      (Evaluator.shared bound).enter e entry w = .failed (.of cause) (w.report e (.of cause))) ∧
    (∀ e entry label, (∀ cause, ¬Visit.Misses ⟨e, entry, w⟩ cause) →
      Visit.Names ⟨e, entry, w⟩ label → (w.engine e).maxCallDepth = 0 →
      (Evaluator.shared bound).enter e entry w =
        .failed ⟨.recursionLimit 0, none, some label⟩
          (w.report e ⟨.recursionLimit 0, none, some label⟩)) ∧
    ∀ e err, w.SameButReports (w.report e err) := by
  refine ⟨fun scope e err h => ⟨?_, fun past => ?_⟩, chronicleExpr_erases bound, ?_, ?_, ?_,
    w.sameButReports_report⟩
  · have herased := chronicleExpr_erases (bound + 1) scope e ⟨w, []⟩
    rw [chronicleExpr_of_refuses bound h] at herased
    exact herased.symm
  · exact chronicleExpr_of_refuses bound (s := ⟨w, past⟩) h
  · exact fun scope f site args l vs u hargs hlimit =>
      evaluate_call_of_limit bound hargs hlimit f site l
  · exact fun e entry cause h => Evaluator.enter_of_misses bound h
  · exact fun e entry label hfound hlabel hlimit =>
      Evaluator.enter_of_limit bound hfound hlabel hlimit

namespace Shut

/-- The expression `x = true`. -/
def assigning : Expr :=
  .unlocated (.assign (.global .empty) none (.unlocated (.literal (.bool true))))

/-- The call `C.g(x = true, x = true)` of a function with one parameter. -/
def apiCall : ExprNode :=
  .apiCall ⟨⟨0⟩, "C"⟩ .empty ⟨0, 1⟩ [assigning, assigning]

lemma nodup_texts : ["", "f"].Nodup := by
  decide

/-- The interner, which has seen the name of the function. -/
def interner : Interner :=
  ⟨#["", "f"], nodup_texts⟩

/-- One engine with a function `f`, in which no calls are allowed. -/
def world : World :=
  { World.empty with
    memory := { Memory.empty with interners := (Pool.empty.add interner).2 }
    functions := (Pool.empty.add (FunctionInstance.define ⟨1⟩ "f" [] [])).2
    engines := (Pool.empty.add
      { (default : Engine) with functions := NameMap.insert ∅ ⟨1⟩ ⟨0⟩ }).2 }

/-- The function is found under its name. -/
lemma functionNamed : world.functionNamed? ⟨0⟩ "f" = some ⟨0⟩ := by
  decide +kernel

/-- No other function is found. -/
lemma functionNamed_other : world.functionNamed? ⟨0⟩ "g" = none := by
  decide +kernel

end Shut

/-- In an engine that allows no calls, a call with too many arguments does not assign, a call that
could be made fails after its arguments, and the host can call neither a function that is there nor
one that is not. -/
theorem shut_engine_refuses :
    (∃ err, evaluate .shared 5 (.top ⟨0⟩) (.unlocated Shut.apiCall) Shut.world =
      .failed err Shut.world) ∧
    (∃ err u, evaluate .shared 5 (.top ⟨0⟩)
        (.unlocated (.call ⟨0⟩ .first [Shut.assigning])) Shut.world = .failed err u ∧
      (u.engine ⟨0⟩).globals.read .empty = .bool true) ∧
    (∃ err, (Evaluator.shared 4).enter ⟨0⟩ (.call "g" []) Shut.world =
      .failed err (Shut.world.report ⟨0⟩ err)) ∧
    ∃ err, (Evaluator.shared 4).enter ⟨0⟩ (.call "f" []) Shut.world =
      .failed err (Shut.world.report ⟨0⟩ err) := by
  obtain ⟨hchecks, -, hcall, hmisses, hlimit, -⟩ := refused_calls_change_nothing 4 Shut.world
  refine ⟨⟨_, (hchecks _ (.unlocated Shut.apiCall) _ (.count (by decide))).1⟩, ?_, ?_, ?_⟩
  · have hglobal : ((Shut.world.setGlobal ⟨0⟩ .empty (.bool true)).engine ⟨0⟩).globals.read .empty =
        .bool true := by decide +kernel
    exact ⟨_, _, hcall (.top ⟨0⟩) ⟨0⟩ .first [Shut.assigning] .unknown [.bool true]
      (Shut.world.setGlobal ⟨0⟩ .empty (.bool true)) rfl (Nat.le_refl 0), hglobal⟩
  · exact ⟨_, hmisses ⟨0⟩ (.call "g" []) _ (.inl ⟨Shut.functionNamed_other, rfl⟩)⟩
  · refine ⟨_, hlimit ⟨0⟩ (.call "f" []) "f()" ?_ ⟨⟨0⟩, Shut.functionNamed, by decide +kernel⟩ rfl⟩
    rintro cause (⟨hnone, -⟩ | ⟨f, hf, hcount, -⟩)
    · exact nomatch Shut.functionNamed.symm.trans hnone
    · obtain rfl := Option.some.inj (Shut.functionNamed.symm.trans hf)
      exact hcount rfl

end ScriptEngine
