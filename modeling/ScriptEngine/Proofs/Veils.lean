import ScriptEngine.Proofs.History

/-!
# Changes that commands do not see

Some parts of the world hardly any command looks at: the limit on nested calls, the reporters, and the
identities of the call sites of functions.  A `World.Veil` is a change of the world that touches such
parts at most.  Two commands do look there: the one that goes a call deeper asks for the limit, and the
one that shows a call frame to a host function shows the call site, too.  All other commands do the same
in the changed world, and then the world that they leave is the changed one of what they leave otherwise.

Main statement: `World.Veil.unaffected`.
-/

namespace ScriptEngine

/-! ### Actions in a changed state -/

/-- The action does the same in a state that was changed by `f`. -/
def Action.Unaffected {σ α : Type} (f : σ → σ) (x : Action σ α) : Prop :=
  ∀ s, x (f s) = (x s).mapState f

namespace Action.Unaffected

variable {σ α β : Type} {f : σ → σ}

lemma pure (a : α) : (Pure.pure a : Action σ α).Unaffected f := fun _ => rfl

lemma fail (e : EvalError) : (Action.fail e : Action σ α).Unaffected f := fun _ => rfl

lemma ofOption (o : Option α) : (Action.ofOption o : Action σ α).Unaffected f := by
  cases o with
  | none => exact fun _ => rfl
  | some a => exact pure a

lemma ofResult (result : Except EvalError α) : (Action.ofResult result : Action σ α).Unaffected f := by
  cases result with
  | ok a => exact pure a
  | error e => exact fail e

/-- The state is changed by something that may be swapped with `f`. -/
lemma change {g : σ → σ} (h : ∀ s, g (f s) = f (g s)) : (Action.change g).Unaffected f :=
  fun s => congrArg (Outcome.done ()) (h s)

/-- The state is looked at first, which shows the same. -/
lemma state_bind {g : σ → Action σ α} (hg : ∀ s, g (f s) = g s) (h : ∀ s, (g s).Unaffected f) :
    (Action.state >>= g).Unaffected f := by
  intro s
  change g (f s) (f s) = (g s s).mapState f
  rw [hg, h s s]

/-- Two such actions, one after the other. -/
lemma bind {x : Action σ α} {g : α → Action σ β} (hx : x.Unaffected f)
    (hg : ∀ a, (g a).Unaffected f) : (x >>= g).Unaffected f := by
  intro s
  rw [Action.bind_apply, Action.bind_apply, hx s]
  cases x s with
  | done a s' => exact hg a s'
  | failed e s' => rfl
  | @diverged s' => rfl

end Action.Unaffected

/-! ### Changes of different things -/

/-- Two changes of a pool may be swapped if they may be swapped at each thing. -/
lemma Pool.update_comm {kind : Kind} {α : Type} (p : Pool kind α) (i j : Id kind) {f g : α → α}
    (h : ∀ a, f (g a) = g (f a)) : (p.update i f).update j g = (p.update j g).update i f := by
  unfold Pool.update
  congr 1
  apply Array.ext_getElem?
  intro k
  simp only [Array.getElem?_modify]
  have hswap : Option.map g ∘ Option.map f = Option.map f ∘ Option.map g := by
    funext o
    cases o <;> simp [h]
  split <;> split <;> simp [hswap]

/-- Changes of different things may be swapped. -/
lemma Pool.update_comm_of_ne {kind : Kind} {α : Type} (p : Pool kind α) {i j : Id kind} (hij : i ≠ j)
    (f g : α → α) : (p.update i f).update j g = (p.update j g).update i f := by
  unfold Pool.update
  congr 1
  apply Array.ext_getElem?
  intro k
  simp only [Array.getElem?_modify]
  by_cases hik : i.index = k
  · have hjk : j.index ≠ k := fun hjk => hij (congrArg Id.mk (hik.trans hjk.symm))
    simp only [if_pos hik, if_neg hjk]
  · simp only [if_neg hik]

/-- Of two changes of the same thing, the later one counts if it takes no notice of the earlier
one. -/
lemma Pool.update_update {kind : Kind} {α : Type} (p : Pool kind α) (i : Id kind) {f g : α → α}
    (h : ∀ a, g (f a) = g a) : (p.update i f).update i g = p.update i g := by
  unfold Pool.update
  congr 1
  apply Array.ext_getElem?
  intro k
  simp only [Array.getElem?_modify]
  split
  · rw [Option.map_map]
    congr 1
    funext o
    cases o <;> simp [h]
  · rfl

/-- What is hidden after a change may be hidden before it as well. -/
lemma Pool.update_absorb {kind : Kind} {α : Type} (p : Pool kind α) (i j : Id kind)
    {hide change change' : α → α} (hhide : ∀ a, hide (hide a) = hide a)
    (hself : i = j → ∀ a, hide (change' (hide a)) = hide (change a))
    (hother : i ≠ j → change' = change) :
    ((p.update i hide).update j change').update i hide = (p.update j change).update i hide := by
  unfold Pool.update
  congr 1
  apply Array.ext_getElem?
  intro k
  simp only [Array.getElem?_modify]
  by_cases hik : i.index = k
  · by_cases hjk : j.index = k
    · have hij : i = j := congrArg Id.mk (hik.trans hjk.symm)
      cases p.items[k]? with
      | none => simp [hik, hjk]
      | some o => cases o <;> simp [hik, hjk, hself hij]
    · cases p.items[k]? with
      | none => simp [hik, hjk]
      | some o => cases o <;> simp [hik, hjk, hhide]
  · by_cases hjk : j.index = k
    · have hij : i ≠ j := fun h => hik (h ▸ hjk)
      simp [hik, hjk, hother hij]
    · simp [hik, hjk]

/-- What the commands do to the world. -/
inductive World.Alteration : (World → World) → Prop
  | register (e : Id .engine) (i : ℕ) (v : Value) : Alteration (·.setRegister e i v)
  | global (e : Id .engine) (n : Name) (v : Value) : Alteration (·.setGlobal e n v)
  | functionLocal (f : Id .function) (n : Name) (v : Value) : Alteration (·.setLocal f n v)
  | callbackLocal (c : Id .callback) (n : Name) (v : Value) : Alteration (·.setCallbackLocal c n v)
  | lastResult (f : Id .function) (v : Value) : Alteration (·.setLastResult f v)
  | resolution (site : Id .callSite) (r : Resolution) : Alteration (·.setResolution site r)
  | report (e : Id .engine) (error : EvalError) : Alteration (·.report e error)
  | memory (m : Memory) : Alteration fun w => { w with memory := m }

/-! ### Veils -/

/-- An engine without its limit on nested calls and its reporter. -/
def Engine.veiled (x : Engine) : Engine :=
  { x with maxCallDepth := 0, reporter := .silent }

/-- A call frame that does not tell the call site. -/
def CallFrame.unsited (frame : CallFrame) : CallFrame :=
  { frame with activeCall := frame.activeCall.map fun _ => .host }

/-- A function that does not tell call sites. -/
def FunctionInstance.unsited (f : FunctionInstance) : FunctionInstance :=
  { f with frame := f.frame.unsited, nextCallSite := .first }

/-- A frame has the same arguments without the call site. -/
@[simp] lemma CallFrame.argument?_unsited (frame : CallFrame) (i : ℕ) :
    frame.unsited.argument? i = frame.argument? i := by
  unfold unsited argument?
  rw [Option.map_map]
  rfl

/-- The frame of the function that an engine has under a name, as a host function is shown it. -/
def World.frameView (w : World) (d : Id .engine) (name : String) : Host.FrameView :=
  ((w.functionNamed? d name).bind w.function?).map (·.frame)

/-- A change of the world that touches nothing but limits, reporters and call sites, and that may be
swapped with what commands do. -/
structure World.Veil (f : World → World) : Prop where
  memory : ∀ w, (f w).memory = w.memory
  natives : ∀ w, (f w).natives = w.natives
  callbacks : ∀ w, (f w).callbacks = w.callbacks
  objectCalls : ∀ w, (f w).objectCalls = w.objectCalls
  engine : ∀ w d, ((f w).engine d).veiled = (w.engine d).veiled
  function : ∀ w g, ((f w).function? g).map (·.unsited) = (w.function? g).map (·.unsited)
  comm : ∀ {g : World → World}, World.Alteration g → ∀ w, g (f w) = f (g w)

/-- The command goes one call deeper. -/
def Command.GoesDeeper {α : Type} : Command α → Prop
  | .deeper _ => True
  | _ => False

/-- The command shows a call frame to a host function. -/
def Command.Inspects {α : Type} : Command α → Prop
  | .inspectFrame _ _ => True
  | _ => False

namespace World.Veil

variable {f : World → World} (h : Veil f)

include h

/-! ### What is read behind a veil -/

section

variable (w : World) (d : Id .engine)

lemma register : ((f w).engine d).register = (w.engine d).register :=
  (congrArg Engine.register (h.engine w d) :)

lemma globals : ((f w).engine d).globals = (w.engine d).globals :=
  (congrArg Engine.globals (h.engine w d) :)

lemma lengthName : ((f w).engine d).lengthName = (w.engine d).lengthName :=
  (congrArg Engine.lengthName (h.engine w d) :)

lemma interner : (f w).interner d = w.interner d := by
  have hid : ((f w).engine d).interner = (w.engine d).interner :=
    (congrArg Engine.interner (h.engine w d) :)
  rw [World.interner, World.interner, h.memory, hid]

lemma lookup (n : Name) : (f w).lookup d n = w.lookup d n := by
  rw [World.lookup, World.lookup, h.interner]

lemma functionNamed? (name : String) : (f w).functionNamed? d name = w.functionNamed? d name := by
  have hfunctions : ((f w).engine d).functions = (w.engine d).functions :=
    (congrArg Engine.functions (h.engine w d) :)
  rw [World.functionNamed?, World.functionNamed?, h.interner, hfunctions]

lemma callbackNamed? (name : String) : (f w).callbackNamed? d name = w.callbackNamed? d name := by
  have hcallbacks : ((f w).engine d).callbacks = (w.engine d).callbacks :=
    (congrArg Engine.callbacks (h.engine w d) :)
  rw [World.callbackNamed?, World.callbackNamed?, h.interner, hcallbacks]

lemma callback? (c : Id .callback) : (f w).callback? c = w.callback? c := by
  rw [World.callback?, World.callback?, h.callbacks]

lemma apiClass (object : NativeRef) : (f w).apiClass object = w.apiClass object := by
  rw [World.apiClass, World.apiClass, h.natives]

lemma resolution? (site : Id .callSite) : (f w).resolution? site = w.resolution? site := by
  rw [World.resolution?, World.resolution?, h.objectCalls]

lemma nameText (target : VarRef) : target.nameText (f w) d = target.nameText w d := by
  cases target <;> simp only [VarRef.nameText, VarRef.name, h.lookup, h.register]

lemma danglingError (target : VarRef) : target.danglingError (f w) d = target.danglingError w d := by
  rw [VarRef.danglingError, VarRef.danglingError, h.nameText]

lemma readMember (object : Value) (property : Name) :
    (f w).readMember d object property = w.readMember d object property := by
  cases object <;>
    simp only [World.readMember, h.lookup, h.memory, h.lengthName, h.apiClass]

lemma readIndex? (object index : Value) :
    (f w).readIndex? d object index = w.readIndex? d object index := by
  cases object <;> simp only [World.readIndex?, World.readKey, h.memory, h.interner]

end

/-- A function behind a veil is there if it is there otherwise, and is the same but for call
sites. -/
lemma function_cases (w : World) (g : Id .function) :
    ((f w).function? g = none ∧ w.function? g = none) ∨
      ∃ x y, (f w).function? g = some x ∧ w.function? g = some y ∧ x.unsited = y.unsited := by
  have hfunction := h.function w g
  cases hx : (f w).function? g with
  | none =>
    rw [hx, Option.map_none] at hfunction
    exact .inl ⟨rfl, Option.map_eq_none_iff.1 hfunction.symm⟩
  | some x =>
    rw [hx, Option.map_some] at hfunction
    obtain ⟨y, hy, hxy⟩ := Option.map_eq_some_iff.1 hfunction.symm
    exact .inr ⟨x, y, rfl, hy, hxy.symm⟩

/-- The number of arguments and the signature of a function are the same behind a veil. -/
lemma parameterCount_signature (w : World) (g : Id .function) :
    (((f w).function? g).getD default).parameterCount =
        ((w.function? g).getD default).parameterCount ∧
      (((f w).function? g).getD default).signature = ((w.function? g).getD default).signature := by
  rcases h.function_cases w g with ⟨hx, hy⟩ | ⟨x, y, hx, hy, hxy⟩
  · rw [hx, hy]
    exact ⟨rfl, rfl⟩
  · rw [hx, hy]
    exact ⟨(congrArg FunctionInstance.parameterCount hxy :),
      (congrArg FunctionInstance.signature hxy :)⟩

/-- The frame that a host function is shown is the same behind a veil but for the call site. -/
lemma frameView (w : World) (d : Id .engine) (name : String) :
    ((f w).frameView d name).map (·.unsited) = (w.frameView d name).map (·.unsited) := by
  unfold World.frameView
  rw [h.functionNamed?]
  cases w.functionNamed? d name with
  | none => rfl
  | some g =>
    rw [Option.bind_some, Option.bind_some]
    rcases h.function_cases w g with ⟨hx, hy⟩ | ⟨x, y, hx, hy, hxy⟩
    · rw [hx, hy]
    · rw [hx, hy]
      exact congrArg some (congrArg FunctionInstance.frame hxy :)

/-! ### Commands behind a veil -/

open Action.Unaffected

/-- A function is looked for, and what is done with it does not depend on call sites. -/
lemma unaffected_functionOf {α : Type} (scope : Scope) (target : VarRef) (g : Id .function)
    {k : FunctionInstance → Action World α} (hk : ∀ x, k x.unsited = k x)
    (hunaffected : ∀ x, (k x).Unaffected f) :
    (target.functionOf scope g >>= k).Unaffected f := by
  intro w
  simp only [VarRef.functionOf, Action.bind_apply, Action.state]
  rcases h.function_cases w g with ⟨hx, hy⟩ | ⟨x, y, hx, hy, hxy⟩
  · rw [hx, hy, h.danglingError]
    rfl
  · rw [hx, hy]
    change k x (f w) = (k y w).mapState f
    rw [← hk x, hxy, hk y]
    exact hunaffected y w

/-- An argument is handed over in the same way behind a veil. -/
lemma unaffected_deliver (scope : Scope) (n : Name) (argument : Option Value) :
    (VarRef.deliver scope n argument).Unaffected f := by
  cases argument with
  | none => exact state_bind (fun w => by rw [h.lookup]) fun w => fail _
  | some v => exact pure v

/-- A variable reads alike behind a veil. -/
lemma unaffected_get (scope : Scope) (target : VarRef) : (target.get scope).Unaffected f := by
  cases target with
  | register i => exact state_bind (fun w => by rw [h.register]) fun w => pure _
  | global n => exact state_bind (fun w => by rw [h.globals]) fun w => pure _
  | functionLocal g n =>
    intro w
    simp only [VarRef.get, Action.bind_apply, Action.state]
    rcases h.function_cases w g with ⟨hx, hy⟩ | ⟨x, y, hx, hy, hxy⟩
    · rw [hx, hy, h.danglingError]
      rfl
    · have hlocals : x.locals = y.locals := (congrArg FunctionInstance.locals hxy :)
      rw [hx, hy]
      change Outcome.done (x.locals.read n) (f w) = .done (y.locals.read n) (f w)
      rw [hlocals]
  | callbackLocal c n | callbackParameter c i n =>
    refine state_bind (fun w => by simp only [h.callback?, h.danglingError]) fun w => ?_
    dsimp only
    split
    · exact pure _
    · exact fail _
  | parameter g i n =>
    refine state_bind (fun w => rfl) fun w => ?_
    refine h.unaffected_functionOf scope _ g (fun x => ?_) fun x => h.unaffected_deliver scope n _
    exact congrArg (VarRef.deliver scope n) (x.frame.argument?_unsited i)

/-- A variable is written alike behind a veil. -/
lemma unaffected_set (scope : Scope) (target : VarRef) (v : Value) :
    (target.set scope v).Unaffected f := by
  cases target with
  | register i => exact fun w => congrArg (Outcome.done ()) (h.comm (.register scope.engine i v) w)
  | global n => exact fun w => congrArg (Outcome.done ()) (h.comm (.global scope.engine n v) w)
  | functionLocal g n =>
    intro w
    simp only [VarRef.set, Action.bind_apply, Action.state]
    rcases h.function_cases w g with ⟨hx, hy⟩ | ⟨x, y, hx, hy, -⟩
    · rw [hx, hy, h.danglingError]
      rfl
    · rw [hx, hy]
      exact congrArg (Outcome.done ()) (h.comm (.functionLocal g n v) w)
  | callbackLocal c n =>
    refine state_bind (fun w => by simp only [h.callback?, h.danglingError]) fun w => ?_
    dsimp only
    split
    · exact change (h.comm (.callbackLocal c n v))
    · exact fail _
  | parameter g i n | callbackParameter c i n =>
    exact state_bind (fun w => by simp only [h.lookup]) fun w => fail _

/-- Something is put into the memory, in the same way behind a veil. -/
lemma unaffected_allocate (make : Memory → Value × Memory) :
    (Action.update (·.allocate make)).Unaffected f := by
  intro w
  simp only [Action.update, World.allocate, h.memory]
  exact congrArg (Outcome.done _) (h.comm (.memory _) w)

/-- The memory is changed in the same way behind a veil. -/
lemma unaffected_modifyMemory (change : Memory → Memory) :
    (Action.change (·.modifyMemory change)).Unaffected f := by
  refine Action.Unaffected.change fun w => ?_
  simp only [World.modifyMemory, h.memory]
  exact h.comm (.memory _) w

/-- Behind a veil, a command does the same unless it asks for the limit on nested calls or for a
call frame. -/
theorem unaffected {α : Type} {k : Command α} (hdeeper : ¬k.GoesDeeper) (hinspects : ¬k.Inspects) :
    k.run.Unaffected f := by
  cases k with
  | get scope target => exact h.unaffected_get scope target
  | requireFunction scope target g =>
    exact h.unaffected_functionOf scope target g (fun _ => rfl) fun _ => pure ()
  | deliver scope n argument => exact h.unaffected_deliver scope n argument
  | set scope target v => exact h.unaffected_set scope target v
  | deeper scope => exact absurd trivial hdeeper
  | functionBody g =>
    refine state_bind (fun w => ?_) fun w => pure _
    rcases h.function_cases w g with ⟨hx, hy⟩ | ⟨x, y, hx, hy, hxy⟩
    · rw [hx, hy]
    · have hbody : x.body = y.body := (congrArg FunctionInstance.body hxy :)
      rw [hx, hy, Option.bind_some, Option.bind_some, hbody]
  | callbackBody c => exact state_bind (fun w => by rw [h.callback?]) fun w => pure _
  | keepResult g v => exact Action.Unaffected.change (h.comm (.lastResult g v))
  | findFunction d name count =>
    refine state_bind (fun w => ?_) fun w => ?_
    · rw [h.functionNamed?]
      cases w.functionNamed? d name with
      | none => rfl
      | some g =>
        obtain ⟨hcount, hsignature⟩ := h.parameterCount_signature w g
        simp only [hcount, hsignature]
    · split
      · exact fail _
      · dsimp only
        split
        · exact fail _
        · exact pure _
  | findCallback d name count =>
    refine state_bind (fun w => by simp only [h.callbackNamed?, h.callback?]) fun w => ?_
    split
    · exact fail _
    · dsimp only
      split
      · exact fail _
      · exact pure _
  | report d error => exact Action.Unaffected.change (h.comm (.report d error))
  | apiClass object => exact state_bind (fun w => by rw [h.apiClass]) fun w => pure _
  | checkApiCall d object function slot count =>
    simp only [Command.run, World.checkApiCall]
    split
    · exact state_bind (fun w => by simp only [h.lookup]) fun w => fail _
    · exact pure _
  | resolution site => exact state_bind (fun w => by rw [h.resolution?]) fun w => pure _
  | findMethod d target v function count =>
    refine state_bind (fun w => by simp only [h.apiClass, h.lookup, h.nameText]) fun w => ?_
    split
    · split
      · exact fail _
      · split
        · exact fail _
        · exact pure _
    · exact fail _
    · exact fail _
  | keepResolution site r => exact Action.Unaffected.change (h.comm (.resolution site r))
  | compute op left right =>
    exact state_bind (fun w => by rw [h.memory]) fun w => ofOption _
  | newArray items => exact h.unaffected_allocate (·.newArray items.toArray)
  | newObject properties => exact h.unaffected_allocate (·.newObject properties)
  | allocate make => exact h.unaffected_allocate make
  | readMember d object property =>
    exact state_bind (fun w => by rw [h.readMember]) fun w => ofResult _
  | readIndex d object index =>
    exact state_bind (fun w => by rw [h.readIndex?]) fun w => bind (ofOption _) fun result =>
      ofResult result
  | runCode code slots => exact h.unaffected_modifyMemory _
  | memory => exact state_bind (fun w => by rw [h.memory]) fun w => pure _
  | modifyMemory make => exact h.unaffected_modifyMemory make
  | display v => exact state_bind (fun w => by rw [h.memory]) fun w => ofOption _
  | inspectFrame d name => exact absurd trivial hinspects

/-- The argument of a parameter is the same behind a veil. -/
lemma unaffected_argument? (g : Id .function) (i : ℕ) :
    (Machine.shared.argument? g i).Unaffected f := by
  intro w
  have hargument : ((f w).function? g).bind (·.frame.argument? i) =
      (w.function? g).bind (·.frame.argument? i) := by
    rcases h.function_cases w g with ⟨hx, hy⟩ | ⟨x, y, hx, hy, hxy⟩
    · rw [hx, hy]
    · rw [hx, hy, Option.bind_some, Option.bind_some, ← x.frame.argument?_unsited,
        ← y.frame.argument?_unsited]
      exact (congrArg (fun x => x.frame.argument? i) hxy :)
  exact congrArg (Outcome.done · (f w)) hargument

omit h in
/-- Behind a veil that leaves limits alone, the command that goes a call deeper does the same. -/
lemma unaffected_deeper
    (hlimit : ∀ w d, ((f w).engine d).maxCallDepth = (w.engine d).maxCallDepth) (scope : Scope) :
    (Command.deeper scope).run.Unaffected f := by
  intro w
  rw [Command.run_deeper, Command.run_deeper, hlimit]
  split <;> rfl

/-- Behind a veil that leaves functions alone, a host function is shown the same call frame. -/
lemma unaffected_inspectFrame (hfunction : ∀ w, (f w).functions = w.functions) (d : Id .engine)
    (name : String) : (Command.inspectFrame d name).run.Unaffected f := by
  refine Action.Unaffected.state_bind (fun w => ?_) fun w => Action.Unaffected.pure _
  have hfunction? : (f w).function? = w.function? := by
    funext g
    rw [World.function?, World.function?, hfunction]
  rw [h.functionNamed?, hfunction?]

end World.Veil

/-! ### Two states behind a veil -/

namespace Simulation

variable {σ α : Type} {f : σ → σ} {J : List Activity → σ → σ → Prop} {c : List Activity}

/-- A machine in two states that differ in nothing but what `f` hides, and about which `J` holds. -/
def upTo (f : σ → σ) (J : List Activity → σ → σ → Prop) : Simulation σ σ where
  rel c s t := f s = f t ∧ J c s t
  lost _ := False
  cut _ := True
  abreast := True
  cut_of_lost _ := trivial
  cut_of_rel _ := trivial

/-- What takes no notice of what is hidden does the same in both states. -/
lemma Matches.of_unaffected {x : Action σ α} (hx : x.Unaffected f)
    (hJ : ∀ s t, J c s t → J c (x s).state (x t).state) :
    (upTo f J).Matches c Anything x x := by
  refine Matches.of_agrees (fun s t hst => ?_) fun _ hlost => hlost.elim
  obtain ⟨hst, hkept⟩ : f s = f t ∧ J c s t := hst
  have hkept' := hJ s t hkept
  have hsame : (x s).mapState f = (x t).mapState f := by
    rw [← hx s, ← hx t, hst]
  cases hxs : x s with
  | done a s' =>
    rw [hxs] at hsame hkept'
    cases hxt : x t with
    | done b t' =>
      rw [hxt] at hsame hkept'
      obtain ⟨rfl, hst'⟩ := Outcome.done.inj hsame
      exact ⟨trivial, .inr ⟨t', rfl, hst', hkept'⟩⟩
    | failed | diverged =>
      rw [hxt] at hsame
      exact nomatch hsame
  | failed e s' =>
    rw [hxs] at hsame hkept'
    cases hxt : x t with
    | failed e' t' =>
      rw [hxt] at hsame hkept'
      obtain ⟨rfl, hst'⟩ := Outcome.failed.inj hsame
      exact .inr ⟨t', rfl, hst', hkept'⟩
    | done | diverged =>
      rw [hxt] at hsame
      exact nomatch hsame
  | @diverged s' =>
    rw [hxs] at hsame hkept'
    cases hxt : x t with
    | @diverged t' =>
      rw [hxt] at hsame hkept'
      exact ⟨trivial, fun _ => .inr ⟨c, t', rfl, congrArg Outcome.state hsame, hkept'⟩⟩
    | done | failed =>
      rw [hxt] at hsame
      exact nomatch hsame

/-- States stay tied under changes that hide as much of them as before. -/
lemma upTo_tied {d : List Activity} {s : σ} {t : Option σ} (h : (upTo f J).Tied c s t)
    {change change' : σ → σ}
    (hchange : ∀ t, f s = f t → J c s t →
      f (change s) = f (change' t) ∧ J d (change s) (change' t)) :
    (upTo f J).Tied d (change s) (t.map change') := by
  cases t with
  | none => exact h.elim
  | some t => exact hchange t h.1 h.2

end Simulation

/-! ### Changes of one engine or one function -/

namespace World

/-- A change of the limit or the reporter of an engine is a veil, if it may be swapped with writing
variables and with reports. -/
lemma Veil.modifyEngine (e : Id .engine) {change : Engine → Engine}
    (hveiled : ∀ x, (change x).veiled = x.veiled)
    (hregister : ∀ x i v, change { x with register := x.register.set i v } =
      { change x with register := (change x).register.set i v })
    (hglobals : ∀ x n v, change { x with globals := x.globals.insert n v } =
      { change x with globals := (change x).globals.insert n v })
    (hreporter : ∀ x err, change { x with reporter := x.reporter.report err } =
      { change x with reporter := (change x).reporter.report err }) :
    Veil (·.modifyEngine e change) where
  memory _ := rfl
  natives _ := rfl
  callbacks _ := rfl
  objectCalls _ := rfl
  engine w d := by
    unfold World.engine World.modifyEngine
    rw [Pool.get?_update]
    split
    · cases w.engines.get? d with
      | none => rfl
      | some x => exact hveiled x
    · rfl
  function _ _ := rfl
  comm := by
    intro g hg w
    have hswap : ∀ d {change' : Engine → Engine}, (∀ x, change (change' x) = change' (change x)) →
        (w.modifyEngine e change).modifyEngine d change' =
          (w.modifyEngine d change').modifyEngine e change := fun d _ hcomm =>
      congrArg (fun engines => { w with engines }) (w.engines.update_comm e d hcomm)
    cases hg with
    | register d i v => exact hswap d fun x => hregister x i v
    | global d n v => exact hswap d fun x => hglobals x n v
    | report d err => exact hswap d fun x => hreporter x err
    | _ => rfl

/-- A change of the call sites of a function is a veil, if it may be swapped with writing locals and
results. -/
lemma Veil.modifyFunction (g : Id .function) {change : FunctionInstance → FunctionInstance}
    (hunsited : ∀ x, (change x).unsited = x.unsited)
    (hlocals : ∀ x n v, change { x with locals := x.locals.insert n v } =
      { change x with locals := (change x).locals.insert n v })
    (hresult : ∀ x v, change { x with lastResult := v } = { change x with lastResult := v }) :
    Veil (·.modifyFunction g change) where
  memory _ := rfl
  natives _ := rfl
  callbacks _ := rfl
  objectCalls _ := rfl
  engine _ _ := rfl
  function w i := by
    unfold World.function? World.modifyFunction
    rw [Pool.get?_update]
    split
    · rw [Option.map_map]
      exact congrArg (fun read => Option.map read (w.functions.get? i)) (funext hunsited)
    · rfl
  comm := by
    intro k hk w
    have hswap : ∀ i {change' : FunctionInstance → FunctionInstance},
        (∀ x, change (change' x) = change' (change x)) →
        (w.modifyFunction g change).modifyFunction i change' =
          (w.modifyFunction i change').modifyFunction g change := fun i _ hcomm =>
      congrArg (fun functions => { w with functions }) (w.functions.update_comm g i hcomm)
    cases hk with
    | functionLocal i n v => exact hswap i fun x => hlocals x n v
    | lastResult i v => exact hswap i fun x => hresult x v
    | _ => rfl

end World

end ScriptEngine
