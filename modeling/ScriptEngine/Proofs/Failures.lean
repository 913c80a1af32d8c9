import ScriptEngine.Proofs.Changes

/-!
# How commands fail

Commands fail without a location and without a context; both are added further out.  Of their errors, only
those of commands that compare numbers of arguments are about numbers of arguments.

Main statement: `Command.failsBy`.
-/

namespace ScriptEngine

/-- The cause is a number of arguments. -/
def Cause.IsArityMismatch : Cause → Prop
  | arityMismatch .. => True
  | _ => False

/-- The command compares numbers of arguments. -/
def Command.Compares {α : Type} : Command α → Prop
  | .checkApiCall .. | .findMethod .. | .findFunction .. | .findCallback .. => True
  | _ => False

/-! ### Contexts -/

/-- The second error is the first one with a context: its own, or else the one by which it leaves. -/
structure EvalError.InContext (label : String) (err err' : EvalError) : Prop where
  cause : err'.cause = err.cause
  location : err'.location = err.location
  context : err'.context = some (err.context.getD label)

/-- Naming a context keeps the cause, the location and a context that is there already. -/
lemma EvalError.inContext_withContext (label : String) (err : EvalError) :
    err.InContext label (err.withContext label) where
  cause := rfl
  location := rfl
  context := by
    unfold withContext
    cases err.context <;> rfl

/-- The error with which an action fails. -/
def Outcome.error? {σ α : Type} : Outcome σ α → Option EvalError
  | failed err _ => some err
  | done _ _ | unfinished _ => none

/-! ### Plain failures -/

/-- The errors of the action have neither a location nor a context, and their causes are as `p`
says. -/
def Action.FailsBy {σ α : Type} (p : Cause → Prop) (x : Action σ α) : Prop :=
  ∀ s e s', x s = .failed e s' → ∃ cause, e = .of cause ∧ p cause

namespace Action.FailsBy

variable {σ α β : Type} {p : Cause → Prop}

lemma pure (a : α) : (Pure.pure a : Action σ α).FailsBy p := fun _ _ _ h => nomatch h

lemma fail {cause : Cause} (hcause : p cause) : (Action.fail (.of cause) : Action σ α).FailsBy p :=
  fun _ _ _ h => ⟨cause, (Outcome.failed.inj h).1.symm, hcause⟩

lemma state : (Action.state : Action σ σ).FailsBy p := fun _ _ _ h => nomatch h

lemma ofOption (o : Option α) : (Action.ofOption o : Action σ α).FailsBy p := by
  cases o with
  | none => exact fun _ _ _ h => nomatch h
  | some a => exact pure a

lemma ofResult {result : Except EvalError α}
    (h : ∀ e, result = .error e → ∃ cause, e = .of cause ∧ p cause) :
    (Action.ofResult result : Action σ α).FailsBy p := by
  cases result with
  | ok a => exact pure a
  | error e =>
    obtain ⟨cause, rfl, hcause⟩ := h e rfl
    exact fail hcause

/-- Two such actions, one after the other. -/
lemma bind {x : Action σ α} {f : α → Action σ β} (hx : x.FailsBy p) (hf : ∀ a, (f a).FailsBy p) :
    (x >>= f).FailsBy p := by
  intro s e s' h
  rw [Action.bind_apply] at h
  cases hxs : x s with
  | done a t =>
    rw [hxs] at h
    exact hf a t e s' h
  | failed e' t =>
    rw [hxs] at h
    obtain ⟨rfl, rfl⟩ := Outcome.failed.inj h
    exact hx s e' t hxs
  | @diverged t =>
    rw [hxs] at h
    exact nomatch h

end Action.FailsBy

/-! ### Variables and properties -/

section

open Action.FailsBy

variable {p : Cause → Prop} (hp : ∀ cause, ¬cause.IsArityMismatch → p cause)

include hp

/-- The function of a parameter is missing without a location. -/
lemma VarRef.functionOf_failsBy (scope : Scope) (target : VarRef) (f : Id .function) :
    (target.functionOf scope f).FailsBy p := by
  refine bind state fun w => ?_
  split
  · exact pure _
  · exact fail (hp _ id)

/-- A parameter is read outside of all invocations without a location. -/
lemma VarRef.deliver_failsBy (scope : Scope) (n : Name) (argument : Option Value) :
    (VarRef.deliver scope n argument).FailsBy p := by
  cases argument with
  | none => exact bind state fun w => fail (hp _ id)
  | some v => exact pure v

/-- A variable cannot be read without a location. -/
lemma VarRef.get_failsBy (scope : Scope) (target : VarRef) : (target.get scope).FailsBy p := by
  intro w err w' herr
  rcases VarRef.get_cases scope target w with ⟨v, -, hget⟩ | ⟨name, hget⟩ | ⟨name, hget⟩
  · exact nomatch herr.symm.trans hget
  · exact ⟨_, (Outcome.failed.inj (herr.symm.trans hget)).1, hp _ id⟩
  · exact ⟨_, (Outcome.failed.inj (herr.symm.trans hget)).1, hp _ id⟩

/-- A variable cannot be written without a location. -/
lemma VarRef.set_failsBy (scope : Scope) (target : VarRef) (v : Value) :
    (target.set scope v).FailsBy p := by
  intro w err w' herr
  rcases VarRef.set_cases scope target v w with hset | ⟨name, hset⟩ | ⟨name, hset⟩
  · exact nomatch herr.symm.trans hset
  · exact ⟨_, (Outcome.failed.inj (herr.symm.trans hset)).1, hp _ id⟩
  · exact ⟨_, (Outcome.failed.inj (herr.symm.trans hset)).1, hp _ id⟩

/-- A member cannot be read without a location. -/
lemma World.exists_cause_of_readMember {w : World} {e : Id .engine} {object : Value}
    {property : Name} {err : EvalError} (h : w.readMember e object property = .error err) :
    ∃ cause, err = .of cause ∧ p cause := by
  cases object with
  | undefined => exact ⟨_, (Except.error.inj h).symm, hp _ id⟩
  | _ => exact nomatch h

/-- An item cannot be read without a location. -/
lemma World.exists_cause_of_readIndex? {w : World} {e : Id .engine} {object index : Value}
    {result : Except EvalError Value} (hresult : w.readIndex? e object index = some result)
    {err : EvalError} (h : result = .error err) : ∃ cause, err = .of cause ∧ p cause := by
  subst h
  cases object with
  | undefined =>
    obtain ⟨key, -, hkey⟩ := Option.map_eq_some_iff.1 hresult
    exact ⟨_, (Except.error.inj hkey).symm, hp _ id⟩
  | object o =>
    obtain ⟨key, -, hkey⟩ := Option.map_eq_some_iff.1 hresult
    exact nomatch hkey
  | _ => exact nomatch hresult

end

/-! ### Commands -/

open Action.FailsBy in
/-- Commands fail without a location, and for a number of arguments only where they compare it. -/
theorem Command.failsBy {α : Type} (k : Command α) :
    k.run.FailsBy fun cause => cause.IsArityMismatch → k.Compares := by
  cases k with
  | get scope target => exact VarRef.get_failsBy (fun _ h => h) scope target
  | requireFunction scope target f =>
    exact bind (VarRef.functionOf_failsBy (fun _ h => h) scope target f) fun _ => pure ()
  | deliver scope n argument => exact VarRef.deliver_failsBy (fun _ h => h) scope n argument
  | set scope target v => exact VarRef.set_failsBy (fun _ h => h) scope target v
  | deeper scope =>
    refine bind state fun w => ?_
    dsimp only
    split
    · exact fail id
    · exact pure _
  | functionBody f | callbackBody callback | apiClass object | resolution site | memory
  | inspectFrame e name => exact fun _ _ _ h => nomatch h
  | keepResult | report | keepResolution | newArray | newObject | runCode | modifyMemory
  | allocate => exact fun _ _ _ h => nomatch h
  | findFunction e name count =>
    refine bind state fun w => ?_
    dsimp only
    split
    · exact fail fun _ => trivial
    · split
      · exact fail fun _ => trivial
      · exact pure _
  | findCallback e name count =>
    refine bind state fun w => ?_
    dsimp only
    split
    · exact fail fun _ => trivial
    · split
      · exact fail fun _ => trivial
      · exact pure _
  | checkApiCall e object function slot count =>
    simp only [Command.run, World.checkApiCall]
    split
    · exact bind state fun w => fail fun _ => trivial
    · exact pure _
  | findMethod e target v function count =>
    refine bind state fun w => ?_
    split
    · split
      · exact fail fun _ => trivial
      · split
        · exact fail fun _ => trivial
        · exact pure _
    · exact fail fun _ => trivial
    · exact fail fun _ => trivial
  | compute op left right => exact bind state fun w => ofOption _
  | readMember e object property =>
    exact bind state fun w => ofResult fun _ => World.exists_cause_of_readMember fun _ h => h
  | readIndex e object index =>
    refine bind state fun w => ?_
    cases hresult : w.readIndex? e object index with
    | none =>
      intro _ _ _ h
      cases h
    | some result => exact ofResult fun _ => World.exists_cause_of_readIndex? (fun _ h => h) hresult
  | display v => exact bind state fun w => ofOption _

end ScriptEngine
