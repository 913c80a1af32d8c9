import ScriptEngine.Proofs.Failures
import ScriptEngine.Proofs.Invariant

/-!
# Calls that are refused at once

Three forms of calls are checked before anything is done for them: a call of an API class, a call on an
object that is not resolved yet, and a call of a native snippet.  `World.Refuses` says which calls are
refused, and with which error.  The checks only look at the world and evaluate no argument.

A call on an object that is not refused is resolved, and keeps what it was resolved to
(`Evaluator.resolve_cases`).  The host is checked in the same way when it looks a function or a callback
up by its name.
-/

namespace ScriptEngine

namespace World

/-- A call of the form is refused in the world before anything is done for it. -/
inductive Refuses (w : World) (scope : Scope) : ExprNode → EvalError → Prop
  /-- The function of the API class takes another number of arguments. -/
  | count {object function slot args} (hcount : args.length ≠ slot.numArgs) :
    Refuses w scope (.apiCall object function slot args)
      (.of (.arityMismatch (object.className ++ "." ++ w.lookup scope.engine function) slot.numArgs
        args.length))
  /-- The variable cannot be read. -/
  | unreadable {site target function args err} (hsite : w.resolution? site = none)
    (htarget : VarRef.get scope target w = .failed err w) :
    Refuses w scope (.objectCall site target function args) err
  /-- The variable holds nothing. -/
  | missing {site target function args} (hsite : w.resolution? site = none)
    (htarget : VarRef.get scope target w = .done .undefined w) :
    Refuses w scope (.objectCall site target function args)
      (.of (.objectMissing (target.nameText w scope.engine)))
  /-- The variable holds something else than a native object. -/
  | foreign {site target function args v} (hsite : w.resolution? site = none)
    (htarget : VarRef.get scope target w = .done v w) (hv : v.isUndefined = false)
    (hnative : v.native? = none) :
    Refuses w scope (.objectCall site target function args) (.of (.notANativeObject v.typeName))
  /-- The native object has no such function. -/
  | lacking {site target function args object} (hsite : w.resolution? site = none)
    (htarget : VarRef.get scope target w = .done (.native object) w)
    (hslot : (w.apiClass object).slot? function = none) :
    Refuses w scope (.objectCall site target function args)
      (.of (.undefinedApiFunction object.className (w.lookup scope.engine function)))
  /-- The function of the native object takes another number of arguments. -/
  | otherCount {site target function args object slot} (hsite : w.resolution? site = none)
    (htarget : VarRef.get scope target w = .done (.native object) w)
    (hslot : (w.apiClass object).slot? function = some slot) (hcount : slot.numArgs ≠ args.length) :
    Refuses w scope (.objectCall site target function args)
      (.of (.arityMismatch (w.lookup scope.engine function) slot.numArgs args.length))
  /-- The snippet was not compiled. -/
  | uncompiled {snippet args error} (hstate : snippet.state = .error error) :
    Refuses w scope (.snippetCall snippet args) (.of (.uncompiledFunction snippet.name))
  /-- The snippet declares a return value. -/
  | returning {snippet args code} (hstate : snippet.state = .ok code)
    (hreturns : snippet.declaration.returnsValue = true) :
    Refuses w scope (.snippetCall snippet args) (.of (.unsupportedNativeReturn snippet.name))
  /-- The snippet has more arguments than are supported. -/
  | unsized {snippet args code} (hstate : snippet.state = .ok code)
    (hreturns : snippet.declaration.returnsValue = false) (harity : snippet.arity = none) :
    Refuses w scope (.snippetCall snippet args) (.of (.uncompiledFunction snippet.name))

/-- The form of expression is a call whose number of arguments would be compared now. -/
def Compares (w : World) : ExprNode → Prop
  | .apiCall .. => True
  | .objectCall site _ _ _ => w.resolution? site = none
  | _ => False

end World

/-! ### The checks -/

/-- The engine reads a parameter like any other variable. -/
lemma Machine.shared_get (scope : Scope) (target : VarRef) :
    Machine.shared.get scope target = target.get scope := by
  cases target with
  | parameter f i n =>
    funext w
    simp only [Machine.get, Machine.shared, Command.run, VarRef.get, VarRef.functionOf,
      Action.bind_apply, Action.state]
    cases hf : w.function? f with
    | none => rfl
    | some function =>
      change VarRef.deliver scope n ((w.function? f).bind (·.frame.argument? i)) w =
        VarRef.deliver scope n (function.frame.argument? i) w
      rw [hf, Option.bind_some]
  | _ => rfl

namespace World.Refuses

variable {w : World} {scope : Scope} {node : ExprNode} {err : EvalError}

/-- The error of a refused call has neither a location nor a context. -/
lemma exists_cause (h : w.Refuses scope node err) : ∃ cause, err = .of cause := by
  cases h with
  | @unreadable site target function args _ hsite htarget =>
    rcases VarRef.get_cases scope target w with ⟨v, -, hv⟩ | ⟨name, hname⟩ | ⟨name, hname⟩
    · exact nomatch htarget.symm.trans hv
    · exact ⟨_, (Outcome.failed.inj (htarget.symm.trans hname)).1⟩
    · exact ⟨_, (Outcome.failed.inj (htarget.symm.trans hname)).1⟩
  | _ => exact ⟨_, rfl⟩

/-- Only a call of an API class, or a call on an object that is not resolved yet, is refused for its
number of arguments. -/
lemma compares (h : w.Refuses scope node err) (herr : err.cause.IsArityMismatch) :
    w.Compares node := by
  cases h with
  | count hcount => trivial
  | unreadable hsite | missing hsite | foreign hsite | lacking hsite | otherCount hsite => exact hsite
  | uncompiled | returning | unsized => exact herr.elim

/-- The check of a call of an API class fails where the call is refused. -/
lemma checkApiCall {object : NativeRef} {function : Name} {slot : FunctionSlot} {args : List Expr}
    (h : w.Refuses scope (.apiCall object function slot args) err) :
    (Command.checkApiCall scope.engine object function slot args.length).run w = .failed err w := by
  cases h with
  | count hcount =>
    simp only [Command.run, World.checkApiCall]
    rw [if_pos hcount]
    rfl

/-- A call on an object cannot be resolved where it is refused. -/
lemma resolve {r : Evaluator World} (hmachine : r.machine = .shared) {site : Id .callSite}
    {target : VarRef} {function : Name} {args : List Expr}
    (h : w.Refuses scope (.objectCall site target function args) err) :
    r.resolve scope site target function args.length w = .failed err w := by
  have hresolve : w.resolution? site = none → r.resolve scope site target function args.length w =
      (target.get scope >>= fun v =>
        World.findMethod scope.engine target v function args.length >>= fun resolution =>
          Action.change (·.setResolution site resolution) >>= fun _ => pure resolution) w := by
    intro hsite
    have hexec : Machine.shared.exec (.resolution site) w = .done none w :=
      congrArg (Outcome.done · w) hsite
    unfold Evaluator.resolve
    rw [hmachine, Action.bind_apply, hexec]
    dsimp only
    rw [Machine.shared_get]
    rfl
  cases h with
  | unreadable hsite htarget =>
    rw [hresolve hsite, Action.bind_apply, htarget]
  | missing hsite htarget =>
    rw [hresolve hsite, Action.bind_apply, htarget]
    rfl
  | @foreign _ _ _ _ v hsite htarget hv hnative =>
    rw [hresolve hsite, Action.bind_apply, htarget]
    cases v with
    | undefined => exact nomatch hv
    | native object => exact nomatch hnative
    | number | bool | string | array | object => rfl
  | lacking hsite htarget hslot =>
    rw [hresolve hsite, Action.bind_apply, htarget]
    simp [World.findMethod, Action.bind_apply, Action.state, Action.fail, hslot]
  | otherCount hsite htarget hslot hcount =>
    rw [hresolve hsite, Action.bind_apply, htarget]
    simp [World.findMethod, Action.bind_apply, Action.state, Action.fail, hslot, hcount]

/-- A snippet cannot be called where its calls are refused. -/
lemma callable {snippet : Snippet} {args : List Expr}
    (h : w.Refuses scope (.snippetCall snippet args) err) : snippet.callable = .error err := by
  unfold Snippet.callable
  cases h with
  | uncompiled hstate => rw [hstate]
  | returning hstate hreturns => simp [hstate, hreturns]
  | unsized hstate hreturns harity => simp [hstate, hreturns, harity]

end World.Refuses

/-- The check of an API call refuses it, or does nothing. -/
lemma Command.run_checkApiCall (w : World) (scope : Scope) (object : NativeRef) (function : Name)
    (slot : FunctionSlot) (args : List Expr) :
    (args.length = slot.numArgs ∧
      (Command.checkApiCall scope.engine object function slot args.length).run w = .done () w) ∨
    ∃ err, w.Refuses scope (.apiCall object function slot args) err ∧
      (Command.checkApiCall scope.engine object function slot args.length).run w =
        .failed err w := by
  simp only [run, World.checkApiCall]
  by_cases hcount : args.length = slot.numArgs
  · rw [if_neg (not_not_intro hcount)]
    exact .inl ⟨hcount, rfl⟩
  · rw [if_pos hcount]
    exact .inr ⟨_, .count hcount, rfl⟩

/-- A function is looked up by its name: there is none, or it takes another number of arguments, or
it is found. -/
lemma Command.run_findFunction (w : World) (e : Id .engine) (name : String) (count : ℕ) :
    (w.functionNamed? e name = none ∧
      (Command.findFunction e name count).run w = .failed (.of (.undefinedFunction name)) w) ∨
    ∃ f, w.functionNamed? e name = some f ∧
      ((((w.function? f).getD default).parameterCount ≠ count ∧
        (Command.findFunction e name count).run w = .failed (.of (.arityMismatch name
          ((w.function? f).getD default).parameterCount count)) w) ∨
      (((w.function? f).getD default).parameterCount = count ∧
        (Command.findFunction e name count).run w =
          .done (f, ((w.function? f).getD default).signature) w)) := by
  simp only [run, World.findFunction, Action.bind_apply, Action.state]
  cases hname : w.functionNamed? e name with
  | none => exact .inl ⟨rfl, rfl⟩
  | some f =>
    refine .inr ⟨f, rfl, ?_⟩
    by_cases hcount : ((w.function? f).getD default).parameterCount = count
    · refine .inr ⟨hcount, ?_⟩
      dsimp only
      rw [if_neg (not_not_intro hcount)]
      rfl
    · refine .inl ⟨hcount, ?_⟩
      dsimp only
      rw [if_pos hcount]
      rfl

/-- A callback is looked up by its name: there is none, or it takes another number of arguments, or
it is found. -/
lemma Command.run_findCallback (w : World) (e : Id .engine) (name : String) (count : ℕ) :
    (w.callbackNamed? e name = none ∧
      (Command.findCallback e name count).run w = .failed (.of (.undefinedCallback name)) w) ∨
    ∃ callback, w.callbackNamed? e name = some callback ∧
      ((((w.callback? callback).getD default).parameterCount ≠ count ∧
        (Command.findCallback e name count).run w = .failed (.of (.arityMismatch name
          ((w.callback? callback).getD default).parameterCount count)) w) ∨
      (((w.callback? callback).getD default).parameterCount = count ∧
        (Command.findCallback e name count).run w = .done callback w)) := by
  simp only [run, World.findCallback, Action.bind_apply, Action.state]
  cases hname : w.callbackNamed? e name with
  | none => exact .inl ⟨rfl, rfl⟩
  | some callback =>
    refine .inr ⟨callback, rfl, ?_⟩
    by_cases hcount : ((w.callback? callback).getD default).parameterCount = count
    · refine .inr ⟨hcount, ?_⟩
      dsimp only
      rw [if_neg (not_not_intro hcount)]
      rfl
    · refine .inl ⟨hcount, ?_⟩
      dsimp only
      rw [if_pos hcount]
      rfl

/-- A snippet can be called, or each call of it is refused. -/
lemma World.callable_or_refuses (w : World) (scope : Scope) (snippet : Snippet) (args : List Expr) :
    (∃ code, snippet.callable = .ok code) ∨
      ∃ err, w.Refuses scope (.snippetCall snippet args) err ∧ snippet.callable = .error err := by
  unfold Snippet.callable
  cases hstate : snippet.state with
  | error error => exact .inr ⟨_, .uncompiled hstate, rfl⟩
  | ok code =>
    cases hreturns : snippet.declaration.returnsValue with
    | true => exact .inr ⟨_, .returning hstate hreturns, rfl⟩
    | false =>
      cases harity : snippet.arity with
      | none => exact .inr ⟨_, .unsized hstate hreturns harity, rfl⟩
      | some arity => exact .inl ⟨_, rfl⟩

/-- A call on an object that is not resolved yet is refused, or there is a function that it
means. -/
lemma World.findMethod_or_refuses {w : World} {scope : Scope} {site : Id .callSite}
    {target : VarRef} {v : Value} (hsite : w.resolution? site = none)
    (htarget : VarRef.get scope target w = .done v w) (function : Name) (args : List Expr) :
    (∃ resolution, World.findMethod scope.engine target v function args.length w =
      .done resolution w) ∨
    ∃ err, w.Refuses scope (.objectCall site target function args) err ∧
      World.findMethod scope.engine target v function args.length w = .failed err w := by
  cases v with
  | undefined => exact .inr ⟨_, .missing hsite htarget, rfl⟩
  | native object =>
    simp only [World.findMethod, Action.bind_apply, Action.state]
    cases hslot : (w.apiClass object).slot? function with
    | none => exact .inr ⟨_, .lacking hsite htarget hslot, rfl⟩
    | some slot =>
      by_cases hcount : slot.numArgs = args.length
      · dsimp only
        rw [if_neg (not_not_intro hcount)]
        exact .inl ⟨_, rfl⟩
      · dsimp only
        rw [if_pos hcount]
        exact .inr ⟨_, .otherCount hsite htarget hslot hcount, rfl⟩
  | number x | bool b | string s | array a | object o =>
    exact .inr ⟨_, .foreign hsite htarget rfl rfl, rfl⟩

namespace Evaluator

variable {r : Evaluator World} (hmachine : r.machine = .shared)

include hmachine

/-- An object call is refused, or it was resolved already, or it is resolved now and keeps what it
was resolved to. -/
lemma resolve_cases (w : World) (scope : Scope) (site : Id .callSite) (target : VarRef)
    (function : Name) (args : List Expr) :
    (∃ err, w.Refuses scope (.objectCall site target function args) err ∧
      r.resolve scope site target function args.length w = .failed err w) ∨
    (∃ resolution, w.resolution? site = some resolution ∧
      r.resolve scope site target function args.length w = .done resolution w) ∨
    ∃ resolution v, World.findMethod scope.engine target v function args.length w =
        .done resolution w ∧
      r.resolve scope site target function args.length w =
        .done resolution (w.setResolution site resolution) := by
  unfold resolve
  rw [hmachine, Action.bind_apply]
  cases hsite : w.resolution? site with
  | some resolution =>
    have hexec : Machine.shared.exec (.resolution site) w = .done (some resolution) w :=
      congrArg (Outcome.done · w) hsite
    rw [hexec]
    exact .inr (.inl ⟨resolution, rfl, rfl⟩)
  | none =>
    have hexec : Machine.shared.exec (.resolution site) w = .done none w :=
      congrArg (Outcome.done · w) hsite
    rw [hexec]
    dsimp only
    rw [Action.bind_apply, Machine.shared_get]
    have hfails : ∀ err, target.get scope w = .failed err w →
        ∃ err, w.Refuses scope (.objectCall site target function args) err ∧
          target.get scope w = .failed err w :=
      fun err herr => ⟨err, .unreadable hsite herr, herr⟩
    have hread : (∃ v, target.get scope w = .done v w) ∨
        ∃ err, w.Refuses scope (.objectCall site target function args) err ∧
          target.get scope w = .failed err w := by
      rcases VarRef.get_cases scope target w with ⟨v, -, hv⟩ | ⟨name, hname⟩ | ⟨name, hname⟩
      · exact .inl ⟨v, hv⟩
      · exact .inr (hfails _ hname)
      · exact .inr (hfails _ hname)
    rcases hread with ⟨v, hv⟩ | ⟨err, hrefuses, herr⟩
    · rw [hv]
      dsimp only
      rw [Action.bind_apply]
      rcases World.findMethod_or_refuses hsite hv function args with
        ⟨resolution, hfound⟩ | ⟨err, hrefuses, herr⟩
      · have hfind : Machine.shared.exec
            (.findMethod scope.engine target v function args.length) w = .done resolution w := hfound
        rw [hfind]
        exact .inr (.inr ⟨resolution, v, hfound, rfl⟩)
      · have hfind : Machine.shared.exec
            (.findMethod scope.engine target v function args.length) w = .failed err w := herr
        rw [hfind]
        exact .inl ⟨err, hrefuses, rfl⟩
    · rw [herr]
      exact .inl ⟨err, hrefuses, rfl⟩

end Evaluator

end ScriptEngine
