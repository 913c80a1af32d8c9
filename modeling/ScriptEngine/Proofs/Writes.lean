import ScriptEngine.Proofs.Invariant
import ScriptEngine.Proofs.Pairing
import ScriptEngine.Proofs.Registers

/-!
# What an evaluation can write

Which variables the evaluation of a tree may write can be read off the tree, and off the bodies of the
functions to which calls in it lead: they are the targets of the assignments and declarations there.
However the evaluation ends, all other variables keep their values.  Apart from variables, only the
latest results and the frames of functions that are called, the memory, and the resolutions of object
calls change.

Host functions and machine code are taken not to touch the engine: they do not enter it, and they
leave its interner alone.

Main statement: `evaluateTree_writes`.
-/

namespace ScriptEngine

/-! ### Variables and their contents -/

/-- A variable that can be written, on whichever engine. -/
inductive Cell where
  | register (e : Id .engine) (i : ℕ)
  | global (e : Id .engine) (n : Name)
  | functionLocal (f : Id .function) (n : Name)
  | callbackLocal (c : Id .callback) (n : Name)
deriving DecidableEq

/-- The variable that a reference stands for on an engine, if it can be written. -/
def VarRef.cell? (e : Id .engine) : VarRef → Option Cell
  | .register i => some (.register e i)
  | .global n => some (.global e n)
  | .functionLocal f n => some (.functionLocal f n)
  | .callbackLocal c n => some (.callbackLocal c n)
  | .parameter .. | .callbackParameter .. => none

namespace World

/-- The value in a variable, if one was ever stored there. -/
def content? (w : World) : Cell → Option Value
  | .register e i => (w.engine e).register.slots[i]?.map Prod.snd
  | .global e n => (w.engine e).globals.get? n
  | .functionLocal f n => (w.function? f).bind (·.locals.get? n)
  | .callbackLocal c n => (w.callback? c).bind (·.locals.get? n)

/-- The cell is the target of an assignment or a declaration that a tree may lead to. -/
def MayWrite (w : World) (e : Id .engine) (t : Tree) (cell : Cell) : Prop :=
  ∃ u target, w.Reaches t u ∧ u.target? = some target ∧ target.cell? e = some cell

/-- The function is called by a tree that a tree may lead to. -/
def MayCall (w : World) (t : Tree) (f : Id .function) : Prop :=
  ∃ u, w.Reaches t u ∧ u.callee? = some f

/-- The second world is the first one, except for the contents of some cells, the latest results of
some functions, frames, reports, resolutions of object calls, and the memory without the interner of
the engine `e`. -/
structure Spares (e : Id .engine) (writes : Cell → Prop) (calls : Id .function → Prop)
    (w w' : World) : Prop where
  cells : ∀ cell, ¬writes cell → w'.content? cell = w.content? cell
  /-- The slots of the registers, by their names. -/
  names : ∀ d, (w'.engine d).register.names = (w.engine d).register.names
  /-- The parameters of callbacks. -/
  arguments : ∀ c, (w'.callback? c).map (·.arguments) = (w.callback? c).map (·.arguments)
  lastResult : ∀ f, ¬calls f →
    (w'.function? f).map (·.lastResult) = (w.function? f).map (·.lastResult)
  interner : w'.interner e = w.interner e
  /-- The tables of engines, native objects, functions and callbacks, with bodies and the counters of
  call sites. -/
  code : w'.code = w.code

/-! ### Single changes -/

namespace Spares

variable {e : Id .engine} {writes : Cell → Prop} {calls : Id .function → Prop} {w₀ w w' : World}

/-- Nothing has changed yet. -/
lemma refl (w : World) : Spares e writes calls w w :=
  ⟨fun _ _ => rfl, fun _ => rfl, fun _ => rfl, fun _ _ => rfl, rfl, rfl⟩

variable (h : Spares e writes calls w₀ w)

include h

/-- One engine is changed. -/
lemma modifyEngine (d : Id .engine) {change : Engine → Engine}
    (hregister : ∀ x i, ¬writes (.register d i) →
      (change x).register.slots[i]?.map Prod.snd = x.register.slots[i]?.map Prod.snd)
    (hglobals : ∀ x n, ¬writes (.global d n) → (change x).globals.get? n = x.globals.get? n)
    (hnames : ∀ x, (change x).register.names = x.register.names)
    (hcode : ∀ x, (change x).code = x.code) :
    Spares e writes calls w₀ (w.modifyEngine d change) where
  cells cell hcell := by
    rw [← h.cells cell hcell]
    cases cell with
    | register d' i =>
      rcases w.engine_modifyEngine d d' change with hsame | ⟨rfl, hchange⟩
      · rw [content?, hsame, content?]
      · rw [content?, hchange, hregister _ i hcell, content?]
    | global d' n =>
      rcases w.engine_modifyEngine d d' change with hsame | ⟨rfl, hchange⟩
      · rw [content?, hsame, content?]
      · rw [content?, hchange, hglobals _ n hcell, content?]
    | functionLocal f n | callbackLocal c n => rfl
  names d' := by
    rw [← h.names d']
    rcases w.engine_modifyEngine d d' change with hsame | ⟨-, hchange⟩
    · rw [hsame]
    · rw [hchange, hnames]
  arguments := h.arguments
  lastResult := h.lastResult
  interner := by
    rw [← h.interner]
    have hinterner : ((w.modifyEngine d change).engine e).interner = (w.engine e).interner :=
      internerId_eq_of_code_eq (w.code_modifyEngine d hcode) e
    unfold World.interner
    rw [hinterner]
    rfl
  code := (w.code_modifyEngine d hcode).trans h.code

/-- One function is changed. -/
lemma modifyFunction (f : Id .function) {change : FunctionInstance → FunctionInstance}
    (hlocals : ∀ x n, ¬writes (.functionLocal f n) →
      (change x).locals.get? n = x.locals.get? n)
    (hresult : ¬calls f → ∀ x, (change x).lastResult = x.lastResult)
    (hcode : ∀ x, (change x).code = x.code) :
    Spares e writes calls w₀ (w.modifyFunction f change) where
  cells cell hcell := by
    rw [← h.cells cell hcell]
    cases cell with
    | functionLocal g n =>
      rw [content?, content?, function?_modifyFunction]
      split
      · rename_i hfg
        subst hfg
        rw [Option.bind_map]
        exact congrArg (Option.bind _) (funext fun x => hlocals x n hcell)
      · rfl
    | register d i | global d n | callbackLocal c n => rfl
  names := h.names
  arguments := h.arguments
  lastResult g hg := by
    rw [← h.lastResult g hg, function?_modifyFunction]
    split
    · rename_i hfg
      subst hfg
      rw [Option.map_map]
      exact Option.map_congr fun x _ => hresult hg x
    · rfl
  interner := h.interner
  code := (w.code_modifyFunction f hcode).trans h.code

/-- One callback is changed. -/
lemma modifyCallback (c : Id .callback) {change : CallbackInstance → CallbackInstance}
    (hlocals : ∀ x n, ¬writes (.callbackLocal c n) →
      (change x).locals.get? n = x.locals.get? n)
    (harguments : ∀ x, (change x).arguments = x.arguments)
    (hcode : ∀ x, (change x).code = x.code) :
    Spares e writes calls w₀ (w.modifyCallback c change) where
  cells cell hcell := by
    rw [← h.cells cell hcell]
    cases cell with
    | callbackLocal d n =>
      rw [content?, content?, callback?_modifyCallback]
      split
      · rename_i hcd
        subst hcd
        rw [Option.bind_map]
        exact congrArg (Option.bind _) (funext fun x => hlocals x n hcell)
      · rfl
    | register d i | global d n | functionLocal f n => rfl
  names := h.names
  arguments d := by
    rw [← h.arguments d, callback?_modifyCallback]
    split
    · rw [Option.map_map]
      exact Option.map_congr fun x _ => harguments x
    · rfl
  lastResult := h.lastResult
  interner := h.interner
  code := (w.code_modifyCallback c hcode).trans h.code

/-- The engine keeps its interner. -/
lemma internerId : (w.engine e).interner = (w₀.engine e).interner :=
  internerId_eq_of_code_eq h.code e

/-- The memory is changed, but for the interner. -/
lemma memory {m : Memory}
    (hm : m.interner (w.engine e).interner = w.memory.interner (w.engine e).interner) :
    Spares e writes calls w₀ { w with memory := m } :=
  ⟨h.cells, h.names, h.arguments, h.lastResult, hm.trans h.interner, h.code⟩

/-- A variable is written that may be written. -/
lemma set {scope : Scope} {target : VarRef} {v : Value}
    (htarget : ∀ cell ∈ target.cell? scope.engine, writes cell) :
    Spares e writes calls w₀ (target.set scope v w).state := by
  rcases VarRef.state_set scope target v w with hstate | hstate
  · rwa [hstate]
  rw [hstate]
  cases target with
  | register i =>
    have hi : writes (.register scope.engine i) := htarget _ rfl
    refine h.modifyEngine scope.engine (fun x j hj => ?_) (fun _ _ _ => rfl) (fun x => ?_)
      fun _ => rfl
    · have hij : i ≠ j := fun hij => hj (hij ▸ hi)
      simp only [Register.set, Array.getElem?_modify, if_neg hij]
    · exact x.register.names_set i v
  | global n =>
    have hn : writes (.global scope.engine n) := htarget _ rfl
    refine h.modifyEngine scope.engine (fun _ _ _ => rfl) (fun x k hk => ?_) (fun _ => rfl)
      fun _ => rfl
    exact NameMap.get?_insert_of_ne _ _ fun hkn => hk (hkn ▸ hn)
  | functionLocal f n =>
    have hn : writes (.functionLocal f n) := htarget _ rfl
    refine h.modifyFunction f (fun x k hk => ?_) (fun _ _ => rfl) fun _ => rfl
    exact NameMap.get?_insert_of_ne _ _ fun hkn => hk (hkn ▸ hn)
  | callbackLocal c n =>
    have hn : writes (.callbackLocal c n) := htarget _ rfl
    refine h.modifyCallback c (fun x k hk => ?_) (fun _ => rfl) fun _ => rfl
    exact NameMap.get?_insert_of_ne _ _ fun hkn => hk (hkn ▸ hn)
  | parameter | callbackParameter => exact h

/-- The result of a function is kept that may be called. -/
lemma setLastResult {f : Id .function} (hf : calls f) (v : Value) :
    Spares e writes calls w₀ (w.setLastResult f v) :=
  h.modifyFunction f (fun _ _ _ => rfl) (fun hnot => absurd hf hnot) fun _ => rfl

/-- An activity begins that is no invocation of a callback. -/
lemma enter {a : Activity} (ha : ∀ c args, a ≠ .callback c args) :
    Spares e writes calls w₀ (a.enter w) := by
  cases a with
  | script => exact h
  | function f site args =>
    exact h.modifyFunction f (fun _ _ _ => rfl) (fun _ _ => rfl) fun _ => rfl
  | callback c args => exact absurd rfl (ha c args)

/-- An activity ends. -/
lemma leave (a : Activity) : Spares e writes calls w₀ (a.leave w) := by
  cases a with
  | script | callback c args => exact h
  | function f site args =>
    exact h.modifyFunction f (fun _ _ _ => rfl) (fun _ _ => rfl) fun _ => rfl

end Spares

end World

/-! ### Host functions and machine code that leave an interner alone -/

/-- The program does not enter the engine, and leaves an interner alone. -/
def Host.Program.SparesInterner (i : Id .interner) : Host.Program → Prop
  | finish _ => True
  | read next => ∀ m, (next m).SparesInterner i
  | write change next => (∀ m, (change m).interner i = m.interner i) ∧ next.SparesInterner i
  | allocate make next =>
    (∀ m, (make m).2.interner i = m.interner i) ∧ ∀ v, (next v).SparesInterner i
  | display _ next => ∀ text, (next text).SparesInterner i
  | execute .. | callFunction .. | invokeCallback .. => False
  | inspectFrame _ next => ∀ view, (next view).SparesInterner i

/-- The machine code leaves an interner alone. -/
def MachineCode.SparesInterner (i : Id .interner) (code : MachineCode) : Prop :=
  ∀ slots m, (code slots m).2.interner i = m.interner i

/-- No host function, and no machine code that a tree may lead to, touches the engine. -/
structure World.SparedByHosts (w : World) (e : Id .engine) (t : Tree) : Prop where
  api : ∀ object index args,
    ((w.apiClass object).call index args).SparesInterner (w.engine e).interner
  snippet : ∀ {a snippet args code}, w.Reaches t (.expr a) → a.node = .snippetCall snippet args →
    snippet.state = .ok code → code.SparesInterner (w.engine e).interner

/-! ### Evaluations -/

/-- What the evaluation of a tree mentions on an engine: the variables that it may write, and the
functions that it may call. -/
def Vocabulary.ofTree (w : World) (e : Id .engine) (t : Tree) : Vocabulary where
  tree := w.Reaches t
  engine d := d = e
  value _ := True
  reads _ := True
  writes target := ∀ cell ∈ target.cell? e, w.MayWrite e t cell
  calls := w.MayCall t
  names _ := True
  hosts _ := True
  objectCalls _ _ _ := True
  codes := MachineCode.SparesInterner (w.engine e).interner
  byName := False
  value_of_isPlain _ := trivial

/-- What a tree may lead to mentions what the tree does. -/
lemma Vocabulary.ofTree_closed {w : World} {e : Id .engine} {t : Tree} (h : w.SparedByHosts e t) :
    (Vocabulary.ofTree w e t).Closed where
  fits {u} hu := by
    have hwrites : ∀ {target}, u.target? = some target →
        ∀ cell ∈ target.cell? e, w.MayWrite e t cell :=
      fun htarget cell hcell => ⟨u, _, hu, htarget, hcell⟩
    cases u with
    | expr a =>
      change FitsExpr _ a.node
      cases hnode : a.node with
      | assign target op value =>
        have htarget : (Tree.expr a).target? = some target := by rw [Tree.target?, hnode]; rfl
        cases op with
        | none => exact hwrites htarget
        | some _ => exact ⟨trivial, hwrites htarget⟩
      | call f site args =>
        have hcallee : (Tree.expr a).callee? = some f := by rw [Tree.callee?, hnode]; rfl
        exact ⟨.expr a, hu, hcallee⟩
      | snippetCall snippet args => exact fun code hcode => h.snippet hu hnode hcode
      | object properties => exact fun _ _ => trivial
      | apiCall | objectCall => exact ⟨trivial, trivial⟩
      | _ => trivial
    | stmt s =>
      change FitsStmt _ s.node
      cases hnode : s.node with
      | declare target init =>
        have htarget : (Tree.stmt s).target? = some target := by rw [Tree.target?, hnode]; rfl
        exact hwrites htarget
      | _ => trivial
  part hu hpart := World.Reaches.part hu hpart

section

open Simulation

variable {w₀ : World} {e : Id .engine} {t : Tree}

/-- A world that an evaluation of a tree comes to from `w₀`. -/
def World.SparedFrom (w₀ : World) (e : Id .engine) (t : Tree) (_c : List Activity) (w : World) :
    Prop :=
  w₀.Spares e (w₀.MayWrite e t) (w₀.MayCall t) w

/-- A command that the tree may give spares what the tree does not write. -/
lemma World.Spares.exec {w : World} (h : w₀.SparedFrom e t [] w) {α : Type} {k : Command α}
    (hk : (Vocabulary.ofTree w₀ e t).Allows k) : w₀.SparedFrom e t [] (k.run w).state := by
  by_cases hquery : k.IsQuery
  · rw [Command.readsOnly_of_isQuery hquery w]
    exact h
  cases k with
  | set scope target v => exact Spares.set h (hk.1 ▸ hk.2.1)
  | keepResult f v => exact Spares.setLastResult h hk.1 v
  | keepResolution site r => exact ⟨h.cells, h.names, h.arguments, h.lastResult, h.interner, h.code⟩
  | newArray items | newObject properties => exact Spares.memory h rfl
  | runCode code slots =>
    refine Spares.memory h ?_
    rw [h.internerId]
    exact hk.1 slots w.memory
  | report d error | modifyMemory change | allocate make => exact hk.elim
  | _ => exact absurd trivial hquery

/-- A command keeps the world spared if what it leaves is spared. -/
lemma World.SparedFrom.matches {α : Type} {Q : α → Prop} {k : Command α}
    (hk : ∀ w, w₀.SparedFrom e t [] w → w₀.SparedFrom e t [] (k.run w).state ∧
      ∀ a ∈ (k.run w).value?, Q a) :
    (invariant (w₀.SparedFrom e t)).Matches [] Q k.run k.run :=
  Matches.of_keeps fun w hw => .of_state (hk w hw).1 (hk w hw).2

/-- A command that the tree may give leads to nothing that the tree may not lead to. -/
lemma World.SparedFrom.yields {w : World} (hw : w₀.SparedFrom e t [] w) {α : Type} {k : Command α}
    (hk : (Vocabulary.ofTree w₀ e t).Allows k) {a : α} (ha : a ∈ (k.run w).value?) :
    (Vocabulary.ofTree w₀ e t).Yields k a := by
  cases k with
  | functionBody f =>
    intro s hs
    obtain ⟨u, hu, hf⟩ := hk
    obtain rfl : w.body? f = a := Option.some.inj ha
    rw [body?_eq_of_code_eq (Spares.code hw)] at hs
    exact hu.call hf hs
  | deeper scope =>
    rw [Command.run_deeper] at ha
    split at ha
    · exact nomatch ha
    · obtain rfl := Option.some.inj ha
      exact hk
  | callbackBody c => exact hk.elim
  | findFunction d name count => exact hk.2.elim
  | resolution site => exact fun _ _ => trivial
  | _ => trivial

/-- A host function that spares the interner spares what the tree does not write. -/
lemma World.SparedFrom.runHost (bound : ℕ) (d : Id .engine) {program : Host.Program}
    (hprogram : program.SparesInterner (w₀.engine e).interner) :
    (invariant (w₀.SparedFrom e t)).Matches [] Anything ((Evaluator.shared bound).runHost d program)
      ((Evaluator.shared bound).runHost d program) := by
  have hquery : ∀ {β : Type} {k : Command β}, k.IsQuery →
      (invariant (w₀.SparedFrom e t)).Matches [] Anything k.run k.run := by
    refine fun {β k} hk => SparedFrom.matches fun w hw => ⟨?_, fun _ _ => trivial⟩
    rwa [Command.readsOnly_of_isQuery hk w]
  induction program with
  | finish result => exact Matches.ofResult result
  | read next ih => exact (hquery (k := .memory) trivial).bind fun m _ => ih m (hprogram m)
  | write change next ih =>
    have hchange : (invariant (w₀.SparedFrom e t)).Matches [] Anything
        (Command.modifyMemory change).run (Command.modifyMemory change).run := by
      refine SparedFrom.matches fun w hw => ⟨Spares.memory hw ?_, fun _ _ => trivial⟩
      rw [Spares.internerId hw]
      exact hprogram.1 w.memory
    exact hchange.bind fun _ _ => ih hprogram.2
  | allocate make next ih =>
    have hmake : (invariant (w₀.SparedFrom e t)).Matches [] Anything
        (Command.allocate make).run (Command.allocate make).run := by
      refine SparedFrom.matches fun w hw => ⟨Spares.memory hw ?_, fun _ _ => trivial⟩
      rw [Spares.internerId hw]
      exact hprogram.1 w.memory
    exact hmake.bind fun v _ => ih v (hprogram.2 v)
  | display v next ih =>
    exact (hquery (k := .display v) trivial).bind fun text _ => ih text (hprogram text)
  | execute | callFunction | invokeCallback => exact hprogram.elim
  | inspectFrame name next ih =>
    exact (hquery (k := .inspectFrame d name) trivial).bind fun view _ => ih view (hprogram view)

/-- The engine spares what the tree does not write. -/
theorem World.SparedByHosts.runs (h : w₀.SparedByHosts e t) :
    ((invariant (w₀.SparedFrom e t)).pairing []).Runs (Vocabulary.ofTree w₀ e t) Machine.shared
      Machine.shared where
  closed := Vocabulary.ofTree_closed h
  exec k hk := SparedFrom.matches fun w hw => ⟨Spares.exec hw hk, fun a ha =>
    SparedFrom.yields hw hk ha⟩
  argument _ := Matches.of_keeps fun w hw => ⟨fun _ _ => trivial, hw⟩
  note mark := Matches.of_keeps fun w hw => ⟨trivial, hw⟩
  during {a} ha {x y} hxy := by
    have hno : ∀ c args, a ≠ .callback c args := by
      rintro c args rfl
      exact ha.1
    refine Matches.during (fun s t' hst => ?_) (fun s t' hst => ?_) hxy
    · exact invariant_tied hst fun hs => Spares.enter hs hno
    · exact invariant_tied hst fun hs => Spares.leave hs a
  locate l _ _ _ _ hxy := hxy.mapError _
  host bound _ scope object args index _ _ _ := by
    have hclass : (invariant (w₀.SparedFrom e t)).Matches [] (fun c => c = w₀.apiClass object)
        (Command.apiClass object).run (Command.apiClass object).run := by
      refine SparedFrom.matches fun w hw => ⟨hw, fun c hc => ?_⟩
      obtain rfl := Option.some.inj hc
      exact apiClass_eq_of_code_eq (Spares.code hw) object
    refine hclass.bind fun c hc => ?_
    rw [hc]
    exact SparedFrom.runHost bound scope.engine (h.api object index args)

/-- However the evaluation of a tree ends, or wherever it is given up, only variables have changed
that the tree may write, and only functions that it may call have another latest result.  The
parameters of callbacks, the slots of the register, the interner and the code are as they were. -/
theorem evaluateTree_writes (bound : ℕ) (scope : Scope) (t : Tree) {w : World}
    (h : w.SparedByHosts scope.engine t) :
    w.Spares scope.engine (w.MayWrite scope.engine t) (w.MayCall t)
      ((Evaluator.shared bound).evaluateTree scope t w).state := by
  have hscope : (Vocabulary.ofTree w scope.engine t).engine scope.engine := rfl
  have hmatches := h.runs.evaluateTree bound hscope .refl
  obtain ⟨c, hspared⟩ := (Matches.keeps hmatches (.refl w)).exists_state
  exact hspared

end

/-! ### An assignment -/

namespace Assigning

/-- The assignment `r = true` to the first slot of the register. -/
def tree : Tree :=
  .expr (.unlocated (.assign (.register 0) none (.unlocated (.literal (.bool true)))))

/-- One engine, whose register has two slots. -/
def world : World :=
  { World.empty with
    engines := (Pool.empty.add
      { (default : Engine) with register := ((Register.empty.declare ⟨1⟩).2.declare ⟨2⟩).2 }).2 }

/-- The assignment leads to its value alone. -/
lemma eq_of_reaches {u : Tree} (h : world.Reaches tree u) :
    u = tree ∨ u = .expr (.unlocated (.literal (.bool true))) := by
  induction h with
  | refl => exact Or.inl rfl
  | tail _ hlead ih =>
    cases hlead with
    | part hpart =>
      rcases ih with rfl | rfl
      · exact Or.inr (List.mem_singleton.1 hpart)
      · exact absurd hpart List.not_mem_nil
    | call hcallee hbody => rcases ih with rfl | rfl <;> exact nomatch hcallee

/-- There are no host functions, and the assignment runs no machine code. -/
lemma sparedByHosts : world.SparedByHosts ⟨0⟩ tree where
  api object index args := trivial
  snippet {a snippet args code} ha hnode _ := by
    rcases eq_of_reaches ha with h | h
    · obtain rfl := Tree.expr.inj h
      exact nomatch hnode
    · obtain rfl := Tree.expr.inj h
      exact nomatch hnode

/-- The assignment may not write the second slot. -/
lemma not_mayWrite : ¬world.MayWrite ⟨0⟩ tree (.register ⟨0⟩ 1) := by
  rintro ⟨u, target, hu, htarget, hcell⟩
  rcases eq_of_reaches hu with rfl | rfl
  · obtain rfl := Option.some.inj htarget
    have hindex : 0 = 1 := (Cell.register.inj (Option.some.inj hcell)).2
    exact absurd hindex (by decide)
  · exact nomatch htarget

end Assigning

/-- An assignment to the first slot of a register writes that slot, and leaves the second one as it
was. -/
theorem assigning_writes_first_slot :
    let w := ((Evaluator.shared 2).evaluateTree (.top ⟨0⟩) Assigning.tree Assigning.world).state
    w.content? (.register ⟨0⟩ 0) = some (.bool true) ∧
      w.content? (.register ⟨0⟩ 1) = Assigning.world.content? (.register ⟨0⟩ 1) := by
  intro w
  have hspares := evaluateTree_writes 2 (.top ⟨0⟩) Assigning.tree Assigning.sparedByHosts
  exact ⟨by decide +kernel, hspares.cells (.register ⟨0⟩ 1) Assigning.not_mayWrite⟩

end ScriptEngine
