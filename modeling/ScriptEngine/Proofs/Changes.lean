import Mathlib.Tactic.Common
import ScriptEngine.Evaluation.Basic

/-!
# What evaluations change

A command makes at most one change to the world, and there are few kinds of changes: a variable, the
latest result of a function, the resolution of an object call, a report, the memory.  Activities
change the frame of a function or the arguments and locals of a callback.  All else is the *code* of a
world, and no step of an evaluation touches it.

Main statements: `Command.change`, `World.Change.code_eq` and `World.Change.frame?_eq`.
-/

namespace ScriptEngine

/-- The state with which an action ends or is given up. -/
def Outcome.state {σ α : Type} : Outcome σ α → σ
  | .done _ s | .failed _ s | .unfinished s => s

/-- The value with which an action ends, if it ends with one. -/
def Outcome.value? {σ α : Type} : Outcome σ α → Option α
  | .done a _ => some a
  | .failed _ _ | .unfinished _ => none

/-! ### Actions that only read -/

/-- An action leaves all states as they are. -/
def Action.ReadsOnly {σ α : Type} (x : Action σ α) : Prop :=
  ∀ s, (x s).state = s

namespace Action.ReadsOnly

variable {σ α β : Type}

lemma pure (a : α) : (Pure.pure a : Action σ α).ReadsOnly := fun _ => rfl

lemma fail (e : EvalError) : (Action.fail e : Action σ α).ReadsOnly := fun _ => rfl

lemma state : (Action.state : Action σ σ).ReadsOnly := fun _ => rfl

lemma ofOption (a : Option α) : (Action.ofOption a : Action σ α).ReadsOnly := by
  cases a with
  | none => exact fun _ => rfl
  | some a => exact pure a

lemma ofResult (result : Except EvalError α) : (Action.ofResult result : Action σ α).ReadsOnly := by
  cases result with
  | ok a => exact pure a
  | error e => exact fail e

/-- Two actions that only read, one after the other. -/
lemma bind {x : Action σ α} {f : α → Action σ β} (hx : x.ReadsOnly) (hf : ∀ a, (f a).ReadsOnly) :
    (x >>= f).ReadsOnly := by
  intro s
  have hs := hx s
  rw [Action.bind_apply]
  cases h : x s with
  | done a s' =>
    rw [h] at hs
    obtain rfl : s' = s := hs
    exact hf a s'
  | failed e s' => rwa [h] at hs
  | @diverged s' => rwa [h] at hs

end Action.ReadsOnly

open Action.ReadsOnly in
/-- Finding the function of a parameter changes nothing. -/
lemma VarRef.functionOf_readsOnly (scope : Scope) (target : VarRef) (f : Id .function) :
    (target.functionOf scope f).ReadsOnly := by
  refine bind state fun w => ?_
  split
  · exact pure _
  · exact fail _

open Action.ReadsOnly in
/-- Handing over an argument changes nothing. -/
lemma VarRef.deliver_readsOnly (scope : Scope) (n : Name) (argument : Option Value) :
    (VarRef.deliver scope n argument).ReadsOnly := by
  cases argument with
  | none => exact bind state fun w => fail _
  | some v => exact pure v

/-! ### Variables -/

/-- What a variable holds.  A reference to a function or callback that is gone holds nothing, and
neither does a parameter of a function that does not run. -/
inductive VarRef.Holds (w : World) (e : Id .engine) : VarRef → Value → Prop
  | register (i : ℕ) : Holds w e (.register i) ((w.engine e).register.get i)
  | global (n : Name) : Holds w e (.global n) ((w.engine e).globals.read n)
  | functionLocal {f : Id .function} {x : FunctionInstance} (hx : w.function? f = some x)
    (n : Name) : Holds w e (.functionLocal f n) (x.locals.read n)
  | callbackLocal {c : Id .callback} {x : CallbackInstance} (hx : w.callback? c = some x)
    (n : Name) : Holds w e (.callbackLocal c n) (x.locals.read n)
  | parameter {f : Id .function} {x : FunctionInstance} (hx : w.function? f = some x) {i : ℕ}
    {v : Value} (hv : x.frame.argument? i = some v) (n : Name) : Holds w e (.parameter f i n) v
  | callbackParameter {c : Id .callback} {x : CallbackInstance} (hx : w.callback? c = some x)
    (i : ℕ) (n : Name) :
    Holds w e (.callbackParameter c i n) (x.arguments[i]?.getD .undefined)

/-- A variable gives what it holds; or its function or callback is gone; or it is a parameter, and
its function does not run.  Nothing changes either way. -/
lemma VarRef.get_cases (scope : Scope) (target : VarRef) (w : World) :
    (∃ v, target.Holds w scope.engine v ∧ target.get scope w = .done v w) ∨
      (∃ name, target.get scope w = .failed (.of (.danglingFunction name)) w) ∨
      ∃ name, target.get scope w = .failed (.of (.parameterOutsideCall name)) w := by
  cases target with
  | register i => exact .inl ⟨_, .register i, rfl⟩
  | global n => exact .inl ⟨_, .global n, rfl⟩
  | functionLocal f n =>
    simp only [VarRef.get, Action.bind_apply, Action.state]
    cases hx : w.function? f with
    | none => exact .inr (.inl ⟨_, rfl⟩)
    | some x => exact .inl ⟨_, .functionLocal hx n, rfl⟩
  | callbackLocal c n =>
    simp only [VarRef.get, Action.bind_apply, Action.state]
    cases hx : w.callback? c with
    | none => exact .inr (.inl ⟨_, rfl⟩)
    | some x => exact .inl ⟨_, .callbackLocal hx n, rfl⟩
  | parameter f i n =>
    simp only [VarRef.get, functionOf, Action.bind_apply, Action.state]
    cases hx : w.function? f with
    | none => exact .inr (.inl ⟨_, rfl⟩)
    | some x =>
      dsimp only [Action.pure_apply]
      cases hv : x.frame.argument? i with
      | none => exact .inr (.inr ⟨_, rfl⟩)
      | some v => exact .inl ⟨v, .parameter hx hv n, rfl⟩
  | callbackParameter c i n =>
    simp only [VarRef.get, Action.bind_apply, Action.state]
    cases hx : w.callback? c with
    | none => exact .inr (.inl ⟨_, rfl⟩)
    | some x => exact .inl ⟨_, .callbackParameter hx i n, rfl⟩

/-- What is read is what the variable holds. -/
lemma VarRef.holds_of_get {scope : Scope} {target : VarRef} {w : World} {v : Value}
    (hv : v ∈ (target.get scope w).value?) : target.Holds w scope.engine v := by
  rcases VarRef.get_cases scope target w with ⟨u, hu, hget⟩ | ⟨name, hget⟩ | ⟨name, hget⟩ <;>
    rw [hget] at hv
  · obtain rfl := Option.some.inj hv
    exact hu
  · cases hv
  · cases hv

/-- Reading a variable changes nothing. -/
lemma VarRef.get_readsOnly (scope : Scope) (target : VarRef) :
    (target.get scope).ReadsOnly := by
  intro w
  rcases VarRef.get_cases scope target w with ⟨v, -, hget⟩ | ⟨name, hget⟩ | ⟨name, hget⟩ <;>
    rw [hget] <;> rfl

/-- The world after a write that does not fail. -/
def VarRef.written (target : VarRef) (e : Id .engine) (v : Value) (w : World) : World :=
  match target with
  | register i => w.setRegister e i v
  | global n => w.setGlobal e n v
  | functionLocal f n => w.setLocal f n v
  | callbackLocal c n => w.setCallbackLocal c n v
  | parameter .. | callbackParameter .. => w

/-- A variable is written; or its function or callback is gone; or it is a parameter.  Only the
first changes anything. -/
lemma VarRef.set_cases (scope : Scope) (target : VarRef) (v : Value) (w : World) :
    target.set scope v w = .done () (target.written scope.engine v w) ∨
      (∃ name, target.set scope v w = .failed (.of (.danglingFunction name)) w) ∨
      ∃ name, target.set scope v w = .failed (.of (.readOnlyReference name)) w := by
  cases target with
  | register i | global n => exact .inl rfl
  | functionLocal f n =>
    simp only [VarRef.set, Action.bind_apply, Action.state]
    cases w.function? f with
    | none => exact .inr (.inl ⟨_, rfl⟩)
    | some x => exact .inl rfl
  | callbackLocal c n =>
    simp only [VarRef.set, Action.bind_apply, Action.state]
    cases w.callback? c with
    | none => exact .inr (.inl ⟨_, rfl⟩)
    | some x => exact .inl rfl
  | parameter f i n | callbackParameter c i n => exact .inr (.inr ⟨_, rfl⟩)

/-- Either the variable is written, or nothing changes. -/
lemma VarRef.state_set (scope : Scope) (target : VarRef) (v : Value) (w : World) :
    (target.set scope v w).state = w ∨
      (target.set scope v w).state = target.written scope.engine v w := by
  rcases VarRef.set_cases scope target v w with hset | ⟨name, hset⟩ | ⟨name, hset⟩
  · exact .inr (congrArg Outcome.state hset)
  · exact .inl (congrArg Outcome.state hset)
  · exact .inl (congrArg Outcome.state hset)

/-! ### Changes -/

/-- What a command may change. -/
inductive World.Change (w : World) : World → Prop
  | nothing : Change w w
  | register (e : Id .engine) (i : ℕ) (v : Value) : Change w (w.setRegister e i v)
  | global (e : Id .engine) (n : Name) (v : Value) : Change w (w.setGlobal e n v)
  | functionLocal (f : Id .function) (n : Name) (v : Value) : Change w (w.setLocal f n v)
  | callbackLocal (c : Id .callback) (n : Name) (v : Value) : Change w (w.setCallbackLocal c n v)
  | lastResult (f : Id .function) (v : Value) : Change w (w.setLastResult f v)
  | resolution (site : Id .callSite) (r : Resolution) : Change w (w.setResolution site r)
  | report (e : Id .engine) (error : EvalError) : Change w (w.report e error)
  | memory (m : Memory) : Change w { w with memory := m }

/-- An action that only reads makes no change. -/
lemma Action.ReadsOnly.change {α : Type} {x : Action World α} (h : x.ReadsOnly) (w : World) :
    w.Change (x w).state := by
  rw [h w]
  exact .nothing

/-- A write is a change of that variable. -/
lemma VarRef.change_written (target : VarRef) (e : Id .engine) (v : Value) (w : World) :
    w.Change (target.written e v w) := by
  cases target with
  | register i => exact .register e i v
  | global n => exact .global e n v
  | functionLocal f n => exact .functionLocal f n v
  | callbackLocal c n => exact .callbackLocal c n v
  | parameter f i n | callbackParameter c i n => exact .nothing

/-- Writing a variable changes that variable at most. -/
lemma VarRef.set_change (scope : Scope) (target : VarRef) (v : Value) (w : World) :
    w.Change (target.set scope v w).state := by
  rcases VarRef.state_set scope target v w with hstate | hstate
  · rw [hstate]
    exact .nothing
  · rw [hstate]
    exact target.change_written scope.engine v w

/-- The command only looks at the world. -/
def Command.IsQuery {α : Type} : Command α → Prop
  | .set .. | .keepResult .. | .report .. | .keepResolution .. | .newArray _ | .newObject _
  | .runCode .. | .modifyMemory _ | .allocate _ => False
  | _ => True

open Action.ReadsOnly in
/-- Queries leave the world as it is. -/
theorem Command.readsOnly_of_isQuery {α : Type} {k : Command α} (hk : k.IsQuery) :
    k.run.ReadsOnly := by
  cases k with
  | get scope target => exact VarRef.get_readsOnly scope target
  | requireFunction scope target f =>
    exact bind (VarRef.functionOf_readsOnly scope target f) fun _ => pure ()
  | deliver scope n argument => exact VarRef.deliver_readsOnly scope n argument
  | deeper scope =>
    refine bind state fun w => ?_
    dsimp only
    split
    · exact fail _
    · exact pure _
  | functionBody f | callbackBody callback | apiClass object | resolution site | memory =>
    exact fun _ => rfl
  | findFunction e name count =>
    refine bind state fun w => ?_
    dsimp only
    split
    · exact fail _
    · split
      · exact fail _
      · exact pure _
  | findCallback e name count =>
    refine bind state fun w => ?_
    dsimp only
    split
    · exact fail _
    · split
      · exact fail _
      · exact pure _
  | checkApiCall e object function slot count =>
    simp only [Command.run, World.checkApiCall]
    split
    · exact bind state fun w => fail _
    · exact pure _
  | findMethod e target v function count =>
    refine bind state fun w => ?_
    split
    · split
      · exact fail _
      · split
        · exact fail _
        · exact pure _
    · exact fail _
    · exact fail _
  | compute op left right => exact bind state fun w => ofOption _
  | readMember e object property => exact bind state fun w => ofResult _
  | readIndex e object index =>
    exact bind state fun w => bind (ofOption _) fun result => ofResult result
  | display v => exact bind state fun w => ofOption _
  | inspectFrame e name => exact fun _ => rfl
  | set | keepResult | report | keepResolution | newArray | newObject | runCode | modifyMemory
  | allocate => exact hk.elim

/-- A command makes at most one change. -/
theorem Command.change {α : Type} (k : Command α) (w : World) : w.Change (k.run w).state := by
  by_cases hk : k.IsQuery
  · exact (readsOnly_of_isQuery hk).change w
  cases k with
  | set scope target v => exact VarRef.set_change scope target v w
  | keepResult f v => exact .lastResult f v
  | report e error => exact .report e error
  | keepResolution site r => exact .resolution site r
  | newArray items | newObject properties | runCode code slots | modifyMemory change
  | allocate make => exact .memory _
  | _ => exact absurd trivial hk

/-- Going a call deeper fails at the limit, and changes nothing. -/
lemma Command.run_deeper (scope : Scope) (w : World) :
    (Command.deeper scope).run w =
      if (w.engine scope.engine).maxCallDepth ≤ scope.depth then
        .failed (.of (.recursionLimit (w.engine scope.engine).maxCallDepth)) w
      else .done { scope with depth := scope.depth + 1 } w := by
  simp only [run, Scope.deeper, Action.bind_apply, Action.state]
  split <;> rfl

/-! ### What is never changed -/

/-- A function without what its invocations change. -/
def FunctionInstance.code (f : FunctionInstance) : FunctionInstance :=
  { f with frame := .idle 0, locals := ∅, lastResult := .undefined }

@[simp] lemma FunctionInstance.body_code (f : FunctionInstance) : f.code.body = f.body := rfl

@[simp] lemma FunctionInstance.parameterCount_code (f : FunctionInstance) :
    f.code.parameterCount = f.parameterCount := rfl

/-- A callback without what its invocations change. -/
def CallbackInstance.code (c : CallbackInstance) : CallbackInstance :=
  { c with arguments := [], locals := ∅ }

@[simp] lemma CallbackInstance.body_code (c : CallbackInstance) : c.code.body = c.body := rfl

/-- An engine without its variables and reports. -/
def Engine.code (e : Engine) : Engine :=
  { e with register := .empty, globals := ∅, reporter := .silent }

@[simp] lemma Engine.interner_code (e : Engine) : e.code.interner = e.interner := rfl

@[simp] lemma Engine.maxCallDepth_code (e : Engine) : e.code.maxCallDepth = e.maxCallDepth := rfl

/-- What no evaluation changes. -/
structure Code where
  natives : Pool .native Host.ApiClass
  function? : Id .function → Option FunctionInstance
  callback? : Id .callback → Option CallbackInstance
  engine? : Id .engine → Option Engine

namespace World

variable (w : World)

/-- The part of the world that no evaluation changes. -/
def code : Code where
  natives := w.natives
  function? f := (w.function? f).map (·.code)
  callback? c := (w.callback? c).map (·.code)
  engine? e := (w.engines.get? e).map (·.code)

/-- The call frame of a function, while the function exists. -/
def frame? (f : Id .function) : Option CallFrame :=
  (w.function? f).map (·.frame)

/-- The functions of a world after one of them was changed. -/
lemma function?_modifyFunction (f g : Id .function)
    (change : FunctionInstance → FunctionInstance) :
    (w.modifyFunction f change).function? g =
      if f = g then (w.function? g).map change else w.function? g :=
  w.functions.get?_update f g change

/-- The callbacks of a world after one of them was changed. -/
lemma callback?_modifyCallback (c d : Id .callback)
    (change : CallbackInstance → CallbackInstance) :
    (w.modifyCallback c change).callback? d =
      if c = d then (w.callback? d).map change else w.callback? d :=
  w.callbacks.get?_update c d change

variable {w} in
/-- A function of a world after one of them was changed is that one, or is as before. -/
lemma function?_modifyFunction_cases {f g : Id .function}
    {change : FunctionInstance → FunctionInstance} {x' : FunctionInstance}
    (h : (w.modifyFunction f change).function? g = some x') :
    (f = g ∧ ∃ x, w.function? g = some x ∧ x' = change x) ∨ f ≠ g ∧ w.function? g = some x' :=
  Pool.get?_update_cases h

variable {w} in
/-- A callback of a world after one of them was changed is that one, or is as before. -/
lemma callback?_modifyCallback_cases {c d : Id .callback}
    {change : CallbackInstance → CallbackInstance} {x' : CallbackInstance}
    (h : (w.modifyCallback c change).callback? d = some x') :
    (c = d ∧ ∃ x, w.callback? d = some x ∧ x' = change x) ∨ c ≠ d ∧ w.callback? d = some x' :=
  Pool.get?_update_cases h

omit w in
/-- A resolution is an earlier one or the one that was kept last. -/
lemma resolution?_setResolution {w : World} {site site' : Id .callSite} {r r' : Resolution}
    (h : (w.setResolution site r).resolution? site' = some r') :
    w.resolution? site' = some r' ∨ site = site' ∧ r' = r := by
  unfold resolution? setResolution Pool.set at *
  rw [Pool.get?_update] at h
  split at h
  · cases hsite : w.objectCalls.get? site' with
    | none =>
      rw [hsite] at h
      exact nomatch h
    | some known =>
      rw [hsite] at h
      exact Or.inr ⟨by assumption, (Option.some.inj h).symm⟩
  · exact Or.inl h

/-- A change of one function that keeps its code keeps the code of the world. -/
lemma code_modifyFunction (f : Id .function) {change : FunctionInstance → FunctionInstance}
    (h : ∀ x, (change x).code = x.code) : (w.modifyFunction f change).code = w.code := by
  have hfunction : ∀ g, ((w.modifyFunction f change).function? g).map (·.code) =
      (w.function? g).map (·.code) := by
    intro g
    rw [function?_modifyFunction]
    split
    · rw [Option.map_map]
      exact Option.map_congr fun x _ => h x
    · rfl
  simp only [code, hfunction]
  rfl

/-- A change of one callback that keeps its code keeps the code of the world. -/
lemma code_modifyCallback (c : Id .callback) {change : CallbackInstance → CallbackInstance}
    (h : ∀ x, (change x).code = x.code) : (w.modifyCallback c change).code = w.code := by
  have hcallback : ∀ d, ((w.modifyCallback c change).callback? d).map (·.code) =
      (w.callback? d).map (·.code) := by
    intro d
    rw [callback?_modifyCallback]
    split
    · rw [Option.map_map]
      exact Option.map_congr fun x _ => h x
    · rfl
  simp only [code, hcallback]
  rfl

/-- A change of one engine that keeps its code keeps the code of the world. -/
lemma code_modifyEngine (e : Id .engine) {change : Engine → Engine}
    (h : ∀ x, (change x).code = x.code) : (w.modifyEngine e change).code = w.code := by
  have hengine : ∀ d, ((w.modifyEngine e change).engines.get? d).map (·.code) =
      (w.engines.get? d).map (·.code) := by
    intro d
    simp only [modifyEngine, Pool.get?_update]
    split
    · simp [Function.comp_def, h]
    · rfl
  simp only [code, hengine]
  rfl

/-- An engine after a change of one engine. -/
lemma engine_modifyEngine (e d : Id .engine) (change : Engine → Engine) :
    (w.modifyEngine e change).engine d = w.engine d ∨
      e = d ∧ (w.modifyEngine e change).engine d = change (w.engine d) := by
  unfold engine modifyEngine
  rw [Pool.get?_update]
  split
  · cases w.engines.get? d with
    | none => exact Or.inl rfl
    | some x => exact Or.inr ⟨by assumption, rfl⟩
  · exact Or.inl rfl

/-- A change of an engine that leaves its reporter alone leaves all reporters alone. -/
lemma reporter_modifyEngine (e d : Id .engine) {change : Engine → Engine}
    (h : ∀ x, (change x).reporter = x.reporter) :
    ((w.modifyEngine e change).engine d).reporter = (w.engine d).reporter := by
  rcases w.engine_modifyEngine e d change with hsame | ⟨-, hchange⟩
  · rw [hsame]
  · rw [hchange, h]

/-- A change of one function that keeps its frame keeps all frames. -/
lemma frame?_modifyFunction (f : Id .function) {change : FunctionInstance → FunctionInstance}
    (h : ∀ x, (change x).frame = x.frame) : (w.modifyFunction f change).frame? = w.frame? := by
  funext g
  rw [frame?, function?_modifyFunction]
  split
  · rw [Option.map_map]
    exact Option.map_congr fun x _ => h x
  · rfl

/-- The frames of a world after one of them was changed. -/
lemma frame?_modifyFrame (f g : Id .function) (change : CallFrame → CallFrame) :
    (w.modifyFunction f fun x => { x with frame := change x.frame }).frame? g =
      if f = g then (w.frame? g).map change else w.frame? g := by
  rw [frame?, function?_modifyFunction]
  split
  · rw [Option.map_map, frame?, Option.map_map]
    rfl
  · rfl

variable {w} {w' : World}

/-- No command changes the code. -/
theorem Change.code_eq (h : w.Change w') : w'.code = w.code := by
  cases h with
  | nothing | resolution site r | memory m => rfl
  | register e i v | global e n v | report e error => exact code_modifyEngine w e fun _ => rfl
  | functionLocal f n v | lastResult f v => exact code_modifyFunction w f fun _ => rfl
  | callbackLocal c n v => exact code_modifyCallback w c fun _ => rfl

/-- No command changes a frame. -/
theorem Change.frame?_eq (h : w.Change w') : w'.frame? = w.frame? := by
  cases h with
  | functionLocal f n v | lastResult f v => exact frame?_modifyFunction w f fun _ => rfl
  | _ => rfl

end World

namespace Activity

/-- Activities begin without a change of the code. -/
lemma code_enter (a : Activity) (w : World) : (a.enter w).code = w.code := by
  cases a with
  | script => rfl
  | function f site args => exact w.code_modifyFunction f fun _ => rfl
  | callback c args => exact w.code_modifyCallback c fun _ => rfl

/-- Activities end without a change of the code. -/
lemma code_leave (a : Activity) (w : World) : (a.leave w).code = w.code := by
  cases a with
  | script | callback c args => rfl
  | function f site args => exact w.code_modifyFunction f fun _ => rfl

end Activity

end ScriptEngine
