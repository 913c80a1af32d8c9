import ScriptEngine.Proofs.Depth
import ScriptEngine.Proofs.Endings
import ScriptEngine.Proofs.Stored

/-!
# Worlds without loops

In a loop-free world no body has a loop, and each host function and each snippet that a tree can call
returns without entering an engine and keeps arrays acyclic.  Literals of trees refer to arrays that
are there, as all other references do.

In such a world every command ends.  Only texts of values are searched for by commands, and they are
found where no array holds itself.  What a command leaves behind is a world from which evaluations go
on in the same way: `World.Continues`.

Main statement: `Command.ends`.
-/

namespace ScriptEngine

/-! ### Host functions and snippets -/

/-- From the memory `m`, the program returns without entering an engine.  When it has returned, the
memory is sound and has all the arrays of `m₀`, and a value refers to an array only if the array is
there. -/
def Host.Program.KeepsAcyclic (m₀ : Memory) : Host.Program → Memory → Prop
  | finish result, m => m₀.Grows m ∧ ∀ v, result = .ok v → v.Within m.arrays.size
  | read next, m => (next m).KeepsAcyclic m₀ m
  | write change next, m => next.KeepsAcyclic m₀ (change m)
  | allocate make next, m => (next (make m).1).KeepsAcyclic m₀ (make m).2
  | display v next, m => ∃ text, m.display? v = some text ∧ (next text).KeepsAcyclic m₀ m
  | execute .., _ | callFunction .., _ | invokeCallback .., _ => False
  | inspectFrame _ next, m =>
    ∀ view : Host.FrameView, (∀ frame ∈ view, ∀ v ∈ frame.arguments, v.Within m₀.arrays.size) →
      (next view).KeepsAcyclic m₀ m

/-- The machine code keeps memories sound. -/
def MachineCode.KeepsAcyclic (code : MachineCode) : Prop :=
  ∀ (slots : List Value) (m : Memory), m.Sound → (∀ v ∈ slots, v.Within m.arrays.size) →
    m.Grows (code slots m).2

/-- The function at a position of a native object returns without entering an engine, and keeps
memories sound. -/
def World.Harmless (w : World) (object : NativeRef) (index : ℕ) : Prop :=
  ∀ args m, m.Sound → (∀ v ∈ args, v.Within m.arrays.size) →
    ((w.apiClass object).call index args).KeepsAcyclic m m

/-! ### The classes of every engine -/

section

open Host

/-- The host function returns without entering an engine, and keeps memories sound. -/
def Host.Function.KeepsAcyclic (f : Host.Function) : Prop :=
  ∀ args m, m.Sound → (∀ v ∈ args, v.Within m.arrays.size) → (f args).KeepsAcyclic m m

/-- A class does no harm when none of its functions does. -/
lemma World.harmless_of_forall {w : World} {object : NativeRef}
    (h : ∀ f ∈ (w.apiClass object).functions, Function.KeepsAcyclic f.body) (index : ℕ) :
    w.Harmless object index := by
  intro args m hm hargs
  unfold ApiClass.call
  cases hfunction : (w.apiClass object).functions[index]? with
  | none => exact ⟨⟨hm, Nat.le_refl _⟩, fun v hv => nomatch hv⟩
  | some f => exact h f (Array.mem_of_getElem? hfunction) args m hm hargs

/-- Printing keeps memories sound. -/
lemma Host.print_keepsAcyclic (p : Id .printer) : Function.KeepsAcyclic (print p) := by
  intro args m hm _
  cases args with
  | nil => exact ⟨⟨hm, Nat.le_refl _⟩, fun v hv => Except.ok.inj hv ▸ trivial⟩
  | cons v rest =>
    obtain ⟨text, htext⟩ := Option.isSome_iff_exists.1 (hm.acyclic.isSome_display? v)
    have hprinted : (m.println p text).Sound := ⟨hm.items, hm.properties, hm.acyclic⟩
    exact ⟨text, htext, ⟨hprinted, Nat.le_refl _⟩, fun v hv => Except.ok.inj hv ▸ trivial⟩

/-- A function that only computes a number keeps memories sound. -/
lemma Host.number_keepsAcyclic (compute : List Value → Float) :
    Function.KeepsAcyclic fun args => .succeed (.number (compute args)) :=
  fun _ _ hm _ => ⟨⟨hm, Nat.le_refl _⟩, fun _ hv => Except.ok.inj hv ▸ trivial⟩

/-- All functions of a class have a property when those that were added have it. -/
lemma Host.forall_functions_foldl {P : Host.Function → Prop} (i : Id .interner)
    (fs : List FunctionEntry) (acc : ApiClass × Memory) (hacc : ∀ f ∈ acc.1.functions, P f.body)
    (hfs : ∀ f ∈ fs, P f.body) :
    ∀ f ∈ (fs.foldl (ApiClass.withFunction i) acc).1.functions, P f.body := by
  induction fs generalizing acc with
  | nil => exact hacc
  | cons f rest ih =>
    refine ih _ (fun g hg => ?_) fun g hg => hfs g (by simp [hg])
    rcases Array.mem_push.1 hg with hg | rfl
    · exact hacc g hg
    · exact hfs f (by simp)

/-- Constants are no functions. -/
lemma Host.functions_foldl_withConstant (i : Id .interner) (cs : List (String × Value))
    (acc : ApiClass × Memory) :
    (cs.foldl (ApiClass.withConstant i) acc).1.functions = acc.1.functions := by
  induction cs generalizing acc with
  | nil => rfl
  | cons c rest ih =>
    rw [List.foldl_cons, ih]
    rfl

/-- All functions of the class `Console` have a property if printing has it. -/
lemma Host.forall_functions_consoleClass {P : Host.Function → Prop} {p : Id .printer} (h : P (print p))
    (m : Memory) (i : Id .interner) : ∀ f ∈ (consoleClass m i p).1.functions, P f.body := by
  intro f hf
  rcases Array.mem_push.1 hf with hf | rfl
  · exact absurd hf (Array.not_mem_empty f)
  · exact h

/-- All functions of the class `Math` have a property if those have it that only compute a
number. -/
lemma Host.forall_functions_mathClass {P : Host.Function → Prop}
    (h : ∀ compute : List Value → Float, P fun args => .succeed (.number (compute args)))
    (m : Memory) (i : Id .interner) : ∀ f ∈ (mathClass m i).1.functions, P f.body := by
  have hunary : ∀ f : Float → Float, P (Math.unary f) := fun _ => h _
  have hbinary : ∀ f : Float → Float → Float, P (Math.binary f) := fun _ => h _
  have hrange : P Math.range := h _
  unfold mathClass
  refine forall_functions_foldl i Math.functions _ (fun f hf => ?_) ?_
  · rw [functions_foldl_withConstant] at hf
    exact absurd hf (Array.not_mem_empty f)
  · simp only [Math.functions, List.forall_mem_cons]
    simp [hunary, hbinary, hrange]

/-- The class `Console` never enters the engine again. -/
theorem Host.consoleClass_staysOutside (m : Memory) (i : Id .interner) (p : Id .printer) :
    ∀ f ∈ (consoleClass m i p).1.functions, ∀ args, (f.body args).StaysOutside := by
  refine forall_functions_consoleClass (P := fun f => ∀ args, (f args).StaysOutside) ?_ m i
  intro args
  cases args with
  | nil => trivial
  | cons v rest => exact fun _ => trivial

/-- The class `Math` never enters the engine again. -/
theorem Host.mathClass_staysOutside (m : Memory) (i : Id .interner) :
    ∀ f ∈ (mathClass m i).1.functions, ∀ args, (f.body args).StaysOutside :=
  forall_functions_mathClass (P := fun f => ∀ args, (f args).StaysOutside) (fun _ _ => trivial) m i

/-- The class `Console` does no harm. -/
theorem Host.consoleClass_keepsAcyclic (m : Memory) (i : Id .interner) (p : Id .printer) :
    ∀ f ∈ (consoleClass m i p).1.functions, Function.KeepsAcyclic f.body :=
  forall_functions_consoleClass (print_keepsAcyclic p) m i

/-- The class `Math` does no harm. -/
theorem Host.mathClass_keepsAcyclic (m : Memory) (i : Id .interner) :
    ∀ f ∈ (mathClass m i).1.functions, Function.KeepsAcyclic f.body :=
  forall_functions_mathClass number_keepsAcyclic m i

end

/-! ### Trees -/

/-- The host functions and snippets that the form of expression calls are harmless, and its literals
refer to arrays that are there. -/
def ExprNode.Harmless (w : World) : ExprNode → Prop
  | .literal v | .apiConstant v => v.Within w.memory.arrays.size
  | .apiCall native _ slot _ => w.Harmless native slot.index
  | .objectCall _ _ function _ =>
    ∀ native, ∀ slot ∈ (w.apiClass native).slot? function, w.Harmless native slot.index
  | .snippetCall snippet _ => ∀ code, snippet.state = .ok code → MachineCode.KeepsAcyclic code
  | _ => True

/-- The form of statement is no loop. -/
def StmtNode.LoopFree : StmtNode → Prop
  | .whileLoop .. | .forLoop .. => False
  | _ => True

/-- Trees without loops, in scopes within the limit on nested calls. -/
def Coverage.loopFree (w : World) : Coverage where
  expression := ExprNode.Harmless w
  statement := StmtNode.LoopFree
  fits _ _ := True
  reaches := w.Admits
  performs _ := True
  reaches_top := w.admits_top
  fits_of_call _ := trivial
  performs_cons _ _ := trivial

/-- The statement is the body of a function or of a callback. -/
inductive World.IsBody (w : World) : Stmt → Prop
  | function {f x body} (hx : w.function? f = some x) (hbody : x.body = some body) : IsBody w body
  | callback {c x body} (hx : w.callback? c = some x) (hbody : x.body = some body) : IsBody w body

/-- No body has a loop, and no host function that is called does harm. -/
structure World.LoopFree (w : World) : Prop where
  body : ∀ {body}, w.IsBody body → (Coverage.loopFree w).CoversStmt body
  resolved : ∀ {site object slot}, w.resolution? site = some (object, slot) →
    w.Harmless object slot.index

/-! ### How a world goes on -/

/-- What may become of the world `w₀` once there are at least `n` arrays. -/
structure World.Continues (w₀ : World) (n : ℕ) (w : World) : Prop where
  code : w.code = w₀.code
  sound : w.Sound
  resolved : ∀ {site object slot}, w.resolution? site = some (object, slot) →
    w₀.Harmless object slot.index
  size : n ≤ w.memory.arrays.size

namespace World

variable {w w' : World}

/-- The bodies are part of the code. -/
lemma IsBody.of_code_eq {body : Stmt} (hbody : w'.IsBody body) (h : w'.code = w.code) :
    w.IsBody body := by
  cases hbody with
  | function hx hbody =>
    obtain ⟨original, horiginal, heq⟩ := exists_function_of_code_eq h hx
    rw [← FunctionInstance.body_code, ← heq, original.body_code] at hbody
    exact .function horiginal hbody
  | callback hx hbody =>
    obtain ⟨original, horiginal, heq⟩ := exists_callback_of_code_eq h hx
    rw [← CallbackInstance.body_code, ← heq, original.body_code] at hbody
    exact .callback horiginal hbody

namespace Continues

variable {w₀ : World} {n : ℕ} (h : w₀.Continues n w)

include h

/-- All arrays that are there count. -/
lemma all : w₀.Continues w.memory.arrays.size w :=
  ⟨h.code, h.sound, h.resolved, Nat.le_refl _⟩

/-- A value that is there after a step which changes nothing. -/
lemma done {α : Type} {Q : ℕ → α → Prop} {a : α} (ha : Q w.memory.arrays.size a) :
    (Outcome.done a w).Ends w₀.Continues n Q :=
  ⟨_, h.size, h.all, ha⟩

/-- A failure changes nothing. -/
lemma failed {α : Type} {Q : ℕ → α → Prop} (e : EvalError) :
    (Outcome.failed e w).Ends w₀.Continues n Q :=
  ⟨n, Nat.le_refl n, h⟩

/-- A result that was read off the world. -/
lemma ofResult {α : Type} {Q : ℕ → α → Prop} {result : Except EvalError α}
    (hresult : ∀ a, result = .ok a → Q w.memory.arrays.size a) :
    (Action.ofResult result w).Ends w₀.Continues n Q :=
  (Action.Ends.ofResult hresult w h.all).of_le h.size

/-- A change of the variables. -/
lemma of_stores (hcode : w'.code = w.code) (hmemory : w'.memory = w.memory)
    (hresolution : w'.resolution? = w.resolution?)
    (hstores : w'.Stores (Value.Within w.memory.arrays.size)) : w₀.Continues n w' where
  code := hcode.trans h.code
  sound := by
    refine ⟨?_, ?_⟩
    · rw [hmemory]
      exact h.sound.memory
    · rw [hmemory]
      exact hstores
  resolved hr := by
    rw [hresolution] at hr
    exact h.resolved hr
  size := by
    rw [hmemory]
    exact h.size

/-- Writing variables ends. -/
lemma writes (hchange : w.Change w') (hmemory : w'.memory = w.memory)
    (hresolution : w'.resolution? = w.resolution?)
    (hstores : w'.Stores (Value.Within w.memory.arrays.size)) :
    (Outcome.done () w').Ends w₀.Continues n fun _ _ => True :=
  ⟨n, Nat.le_refl n, h.of_stores hchange.code_eq hmemory hresolution hstores, trivial⟩

/-- A change of the memory. -/
lemma of_grows {m : Memory} (hm : w.memory.Grows m) :
    w₀.Continues m.arrays.size { w with memory := m } where
  code := h.code
  sound := by
    have hstores := h.sound.stores.mono fun v (hv : v.Within _) => hv.mono hm.size
    exact ⟨hm.sound, hstores.of_same rfl rfl rfl rfl⟩
  resolved hr := h.resolved hr
  size := Nat.le_refl _

/-- Host functions that do no harm in `w₀` do none later. -/
lemma harmless {object : NativeRef} {index : ℕ} (hobject : w₀.Harmless object index) :
    w.Harmless object index := by
  unfold World.Harmless
  rw [World.apiClass_eq_of_code_eq h.code]
  exact hobject

/-- Trees without loops in `w₀` are such later, when there are no fewer arrays. -/
lemma coversStmt (hn : w₀.memory.arrays.size ≤ n) {s : Stmt}
    (hs : (Coverage.loopFree w₀).CoversStmt s) : (Coverage.loopFree w).CoversStmt s := by
  refine hs.mono (fun node hnode => ?_) fun _ hnode => hnode
  cases node with
  | literal v | apiConstant v => exact Value.Within.mono hnode (Nat.le_trans hn h.size)
  | apiCall object function slot args => exact h.harmless hnode
  | objectCall site target function args =>
    intro object slot hslot
    rw [World.apiClass_eq_of_code_eq h.code] at hslot
    exact h.harmless (hnode object slot hslot)
  | snippetCall snippet args => exact hnode
  | _ => trivial

/-- A world without loops goes on without loops. -/
lemma loopFree (hn : w₀.memory.arrays.size ≤ n) (hloopFree : w₀.LoopFree) : w.LoopFree where
  body hbody := h.coversStmt hn (hloopFree.body (hbody.of_code_eq h.code))
  resolved hr := h.harmless (h.resolved hr)

/-- Values that are among the first arrays are there. -/
lemma within {v : Value} (hv : v.Within n) : v.Within w.memory.arrays.size :=
  hv.mono h.size

end Continues

end World

/-! ### Commands -/

namespace Command

/-- What a command has to be given when there are at least `n` arrays.  Host functions are dealt
with apart, since what they give depends on the memory. -/
def Asks (w₀ : World) (n : ℕ) : {α : Type} → Command α → Prop
  | _, .deliver _ _ argument => ∀ v ∈ argument, v.Within n
  | _, .set _ _ v => v.Within n
  | _, .findMethod _ _ _ function _ =>
    ∀ object, ∀ slot ∈ (w₀.apiClass object).slot? function, w₀.Harmless object slot.index
  | _, .keepResolution _ (object, slot) => w₀.Harmless object slot.index
  | _, .newArray items => ∀ v ∈ items, v.Within n
  | _, .newObject properties => ∀ name, (properties.read name).Within n
  | _, .runCode code slots => MachineCode.KeepsAcyclic code ∧ ∀ v ∈ slots, v.Within n
  | _, .modifyMemory _ | _, .allocate _ => False
  | _, _ => True

/-- What a command gives when there are `n` arrays. -/
def Gives (w₀ : World) (n : ℕ) : {α : Type} → Command α → α → Prop
  | _, .get _ _, v | _, .deliver _ _ _, v | _, .compute _ _ _, v | _, .newArray _, v
  | _, .newObject _, v | _, .readMember _ _ _, v | _, .readIndex _ _ _, v => v.Within n
  | _, .deeper scope, inner =>
    inner.engine = scope.engine ∧ inner.depth = scope.depth + 1 ∧
      inner.depth ≤ (w₀.engine scope.engine).maxCallDepth
  | _, .functionBody _, body | _, .callbackBody _, body => ∀ s ∈ body, w₀.IsBody s
  | _, .apiClass object, c => c = w₀.apiClass object
  | _, .resolution _, r => ∀ object slot, r = some (object, slot) → w₀.Harmless object slot.index
  | _, .findMethod _ _ _ _ _, (object, slot) => w₀.Harmless object slot.index
  | _, _, _ => True

variable {w₀ w : World} {n : ℕ} (h : w₀.Continues n w)

include h

/-- Reading a variable ends. -/
lemma ends_get (scope : Scope) (target : VarRef) :
    (target.get scope w).Ends w₀.Continues n (Gives w₀ · (.get scope target)) := by
  rcases VarRef.get_cases scope target w with ⟨v, hv, hget⟩ | ⟨name, hget⟩ | ⟨name, hget⟩
  · rw [hget]
    exact h.done (h.sound.stores.of_holds trivial hv)
  · rw [hget]
    exact h.failed _
  · rw [hget]
    exact h.failed _

/-- Writing a variable ends. -/
lemma ends_set (scope : Scope) (target : VarRef) {v : Value} (hv : v.Within n) :
    (target.set scope v w).Ends w₀.Continues n fun _ _ => True := by
  rcases VarRef.set_cases scope target v w with hset | ⟨name, hset⟩ | ⟨name, hset⟩
  · rw [hset]
    refine h.writes (target.change_written scope.engine v w) ?_ ?_
      (h.sound.stores.written (h.within hv) target scope.engine)
    · cases target <;> rfl
    · cases target <;> rfl
  · rw [hset]
    exact h.failed _
  · rw [hset]
    exact h.failed _

/-- Finding a method ends. -/
lemma ends_findMethod (e : Id .engine) (target : VarRef) (v : Value) (function : Name) (count : ℕ)
    (hasks : ∀ object, ∀ slot ∈ (w₀.apiClass object).slot? function,
      w₀.Harmless object slot.index) :
    (World.findMethod e target v function count w).Ends w₀.Continues n
      fun _ r => w₀.Harmless r.1 r.2.index := by
  refine Action.Ends.state_bind h ?_
  cases v with
  | native object =>
    dsimp only
    rw [World.apiClass_eq_of_code_eq h.code object]
    cases hslot : (w₀.apiClass object).slot? function with
    | none => exact Action.Ends.fail _
    | some slot =>
      dsimp only
      split
      · exact Action.Ends.fail _
      · exact Action.Ends.pure (hasks object slot hslot)
  | _ => exact Action.Ends.fail _

/-- Each command that is given what it asks for ends, and gives what it has to. -/
theorem ends {α : Type} {k : Command α} (hk : k.Asks w₀ n) :
    (k.run w).Ends w₀.Continues n (k.Gives w₀ ·) := by
  have hsound := h.sound
  cases k with
  | get scope target => exact ends_get h scope target
  | requireFunction scope target f =>
    simp only [run, VarRef.functionOf, Action.bind_apply, Action.state]
    cases w.function? f with
    | none => exact h.failed _
    | some x => exact h.done trivial
  | deliver scope name argument =>
    cases argument with
    | none => exact h.failed _
    | some v => exact h.done (h.within (hk v rfl))
  | set scope target v => exact ends_set h scope target hk
  | deeper scope =>
    simp only [run, Scope.deeper, Action.bind_apply, Action.state]
    split
    · exact h.failed _
    · rename_i hlimit
      rw [World.maxCallDepth_eq_of_code_eq h.code] at hlimit
      exact h.done ⟨rfl, rfl, Nat.lt_of_not_le hlimit⟩
  | functionBody f =>
    refine h.done fun body hbody => ?_
    obtain ⟨x, hx, hxbody⟩ := Option.bind_eq_some_iff.1 hbody
    exact (World.IsBody.function hx hxbody).of_code_eq h.code
  | callbackBody c =>
    refine h.done fun body hbody => ?_
    obtain ⟨x, hx, hxbody⟩ := Option.bind_eq_some_iff.1 hbody
    exact (World.IsBody.callback hx hxbody).of_code_eq h.code
  | keepResult f v =>
    exact h.writes (.lastResult f v) rfl rfl (hsound.stores.setLastResult f v)
  | findFunction e name count =>
    simp only [run, World.findFunction]
    refine Action.Ends.state_bind h ?_
    split
    · exact Action.Ends.fail _
    · split
      · exact Action.Ends.fail _
      · exact Action.Ends.pure trivial
  | findCallback e name count =>
    simp only [run, World.findCallback]
    refine Action.Ends.state_bind h ?_
    split
    · exact Action.Ends.fail _
    · split
      · exact Action.Ends.fail _
      · exact Action.Ends.pure trivial
  | report e error => exact h.writes (.report e error) rfl rfl (hsound.stores.report e error)
  | apiClass object => exact h.done (World.apiClass_eq_of_code_eq h.code object)
  | checkApiCall e object function slot count =>
    simp only [run, World.checkApiCall]
    split
    · exact h.failed _
    · exact h.done trivial
  | resolution site => exact h.done fun object slot hr => h.resolved hr
  | findMethod e target v function count => exact ends_findMethod h e target v function count hk
  | keepResolution site r =>
    refine ⟨n, Nat.le_refl n, ⟨h.code, ⟨hsound.memory, ?_⟩, ?_, h.size⟩, trivial⟩
    · exact hsound.stores.of_same rfl rfl rfl rfl
    · intro site' object slot hr
      rcases World.resolution?_setResolution hr with hr | ⟨-, hr⟩
      · exact h.resolved hr
      · rw [← hr] at hk
        exact hk
  | compute op left right =>
    obtain ⟨v, hv, hthere⟩ :=
      op.exists_compute? hsound.memory.acyclic left right w.memory.arrays.size
    simp only [run, Action.bind_apply, Action.state, hv]
    exact h.done hthere
  | newArray items =>
    have hitems : ∀ v ∈ items.toArray, v.Within w.memory.arrays.size :=
      fun v hv => h.within (hk v (List.mem_toArray.1 hv))
    have hgrows := hsound.memory.newArray hitems
    refine ⟨_, Nat.le_trans h.size hgrows.size, h.of_grows hgrows, ?_⟩
    exact w.memory.within_newArray items.toArray
  | newObject properties =>
    have hgrows := hsound.memory.newObject fun name => h.within (hk name)
    exact ⟨_, Nat.le_trans h.size hgrows.size, h.of_grows hgrows, trivial⟩
  | readMember e object property =>
    exact h.ofResult fun v hv => hsound.readMember hv
  | readIndex e object index =>
    obtain ⟨result, hresult, hthere⟩ := hsound.exists_readIndex? e object index
    simp only [run, Action.bind_apply, Action.state, hresult]
    exact h.ofResult hthere
  | runCode code slots =>
    have hgrows := hk.1 slots w.memory hsound.memory fun v hv => h.within (hk.2 v hv)
    exact ⟨_, Nat.le_trans h.size hgrows.size, h.of_grows hgrows, trivial⟩
  | memory => exact h.done trivial
  | modifyMemory change | allocate make => exact hk.elim
  | display v =>
    obtain ⟨text, htext⟩ := Option.isSome_iff_exists.1 (hsound.memory.acyclic.isSome_display? v)
    simp only [run, Action.bind_apply, Action.state, htext]
    exact h.done trivial
  | inspectFrame e name => exact h.done trivial

end Command

end ScriptEngine
