import ScriptEngine.Error

/-!
# Actions

An evaluation changes a state and ends with a value or with an error; what it changed before an error
stays changed.  It may also not end at all.  An `Action` over a state type is such an evaluation, and
the same notion serves expressions, whose state is the world, and statements, whose state holds the
value to return as well.
-/

namespace ScriptEngine

/-- How an action ends. -/
inductive Outcome (σ α : Type) where
  /-- With a value. -/
  | done (value : α) (state : σ)
  /-- With an error; the state keeps what was done before. -/
  | failed (error : EvalError) (state : σ)
  /-- Not within the given bound; the state is the one in which it was given up. -/
  | diverged {state : σ}
deriving Inhabited

/-- The outcome of an action that was given up in state `s`. -/
@[match_pattern] def Outcome.unfinished {σ α : Type} (s : σ) : Outcome σ α :=
  @Outcome.diverged σ α s

/-- A computation that reads and changes a state, and that may fail. -/
def Action (σ α : Type) : Type := σ → Outcome σ α

namespace Action

variable {σ α β γ : Type}

/-- Run one action after another; an error ends both. -/
@[inline] protected def bind (x : Action σ α) (f : α → Action σ β) : Action σ β := fun s =>
  match x s with
  | .done a s => f a s
  | .failed e s => .failed e s
  | .unfinished s => .unfinished s

instance : Monad (Action σ) where
  pure a := fun s => .done a s
  bind := Action.bind

/-- The current state. -/
@[inline] def state : Action σ σ := fun s => .done s s

/-- Change the state. -/
@[inline] def change (f : σ → σ) : Action σ Unit := fun s => .done () (f s)

/-- Change the state and give a result. -/
@[inline] def update (f : σ → α × σ) : Action σ α := fun s =>
  let (a, s) := f s
  .done a s

/-- Fail with an error. -/
@[inline] def fail (e : EvalError) : Action σ α := fun s => .failed e s

/-- Give up. -/
@[inline] def diverge : Action σ α := fun s => .unfinished s

/-- Take the value that is there, or give up. -/
@[inline] def ofOption : Option α → Action σ α
  | some a => pure a
  | none => diverge

/-- End with a result that is already known. -/
@[inline] def ofResult : Except EvalError α → Action σ α
  | .ok a => pure a
  | .error e => fail e

/-- Turn an error into a result. -/
@[inline] def attempt (x : Action σ α) : Action σ (Except EvalError α) := fun s =>
  match x s with
  | .done a s => .done (.ok a) s
  | .failed e s => .done (.error e) s
  | .unfinished s => .unfinished s

/-- Change the error of a failing action. -/
@[inline] def mapError (f : EvalError → EvalError) (x : Action σ α) : Action σ α := fun s =>
  match x s with
  | .done a s => .done a s
  | .failed e s => .failed (f e) s
  | .unfinished s => .unfinished s

/-- Claim the errors of an action for a node at `l`. -/
@[inline] def locate (l : Location) (x : Action σ α) : Action σ α :=
  x.mapError (·.locate l)

/-- Run `x`, and then `cleanup` however `x` has ended. -/
@[inline] def ensuring (x : Action σ α) (cleanup : σ → σ) : Action σ α := fun s =>
  match x s with
  | .done a s => .done a (cleanup s)
  | .failed e s => .failed e (cleanup s)
  | .unfinished s => .unfinished s

/-- Run `x` again and again until it gives a result, at most `bound` times. -/
def repeatUpTo : (bound : Nat) → (x : Action σ (Option α)) → Action σ α
  | 0, _ => diverge
  | bound + 1, x => fun s =>
    match x s with
    | .done (some a) s => .done a s
    | .done none s => repeatUpTo bound x s
    | .failed e s => .failed e s
    | .unfinished s => .unfinished s

/-! ### Laws -/

@[simp] theorem pure_apply (a : α) (s : σ) : (pure a : Action σ α) s = .done a s := rfl

theorem bind_apply (x : Action σ α) (f : α → Action σ β) (s : σ) :
    (x >>= f) s = match x s with
      | .done a s => f a s
      | .failed e s => .failed e s
      | .unfinished s => .unfinished s := rfl

theorem bind_assoc (x : Action σ α) (f : α → Action σ β) (g : β → Action σ γ) :
    x >>= f >>= g = x >>= fun a => f a >>= g := by
  funext s
  simp only [bind_apply]
  cases x s <;> rfl

theorem bind_pure (x : Action σ α) : x >>= pure = x := by
  funext s
  simp only [bind_apply]
  cases x s <;> rfl

theorem repeatUpTo_succ (bound : Nat) (x : Action σ (Option α)) :
    repeatUpTo (bound + 1) x = x >>= fun
      | some a => pure a
      | none => repeatUpTo bound x := by
  funext s
  simp only [repeatUpTo, bind_apply]
  cases x s with
  | done o s => cases o <;> rfl
  | failed e s => rfl
  | diverged => rfl

instance : LawfulMonad (Action σ) where
  map_const := rfl
  id_map x := bind_pure x
  seqLeft_eq x y := by
    change x >>= (fun a => y >>= fun _ => pure a) =
      (x >>= fun a => pure (Function.const _ a)) >>= fun f => y >>= fun b => pure (f b)
    rw [bind_assoc]
    rfl
  seqRight_eq x y := by
    change x >>= (fun _ => y) =
      (x >>= fun a => pure (Function.const _ id a)) >>= fun f => y >>= fun b => pure (f b)
    rw [bind_assoc]
    exact congrArg (x >>= ·) (funext fun _ => (bind_pure y).symm)
  pure_seq _ _ := rfl
  bind_pure_comp _ _ := rfl
  bind_map _ _ := rfl
  pure_bind _ _ := rfl
  bind_assoc x f g := bind_assoc x f g

end Action

end ScriptEngine
