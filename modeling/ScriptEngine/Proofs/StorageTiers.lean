import ScriptEngine.Proofs.Edits
import ScriptEngine.Proofs.Stored
import ScriptEngine.Proofs.Teardown

/-!
# Storage tiers

A variable that can be written is a cell of one storage tier: a slot of the register, a global, a
variable of one function or one of one callback.  A write goes to its cell and to nothing else, so
that each other variable reads as before, and fails as before where it failed.

A slot beyond the register holds nothing, and a write to it is lost.  But no reference to one is
ever bound: a reference to a slot is bound by declaring the slot, and registers never get shorter
(`World.Moves.retains`).  For the same reason a function that is defined is none of those to which
there are references, whether or not it takes the name of one of them.

Main statement: `VarRef.set_get_of_boundOn`.
-/

namespace ScriptEngine

open Relation (ReflTransGen)

/-! ### Cells -/

namespace VarRef

/-- Two references denote the same cell.  A parameter is no cell. -/
def SameCell : VarRef → VarRef → Prop
  | register i, register j => i = j
  | global n, global k => n = k
  | functionLocal f n, functionLocal g k => f = g ∧ n = k
  | callbackLocal c n, callbackLocal d k => c = d ∧ n = k
  | _, _ => False

/-- The function or callback of the reference is gone. -/
def Gone (target : VarRef) (w : World) : Prop :=
  (∃ f, target.function? = some f ∧ w.function? f = none) ∨
    ∃ c, target.callback? = some c ∧ w.callback? c = none

variable {target r r' : VarRef} {scope : Scope} {w w' : World}

/-! ### When a write fails -/

/-- A parameter is not written. -/
lemma set_of_readOnly (h : target.isWritable = false) (scope : Scope) (v : Value) (w : World) :
    target.set scope v w =
      .failed (.of (.readOnlyReference (target.nameText w scope.engine))) w := by
  cases target with
  | parameter | callbackParameter => rfl
  | _ => cases h

/-- A variable whose function or callback is gone is not written. -/
lemma set_of_gone (h : target.isWritable) (hgone : target.Gone w) (scope : Scope) (v : Value) :
    target.set scope v w = .failed (target.danglingError w scope.engine) w := by
  rcases hgone with ⟨f, hf, hnone⟩ | ⟨c, hc, hnone⟩
  · cases target with
    | functionLocal g n =>
      obtain rfl := Option.some.inj hf
      simp only [set, Action.bind_apply, Action.state, hnone]
      rfl
    | parameter => cases h
    | _ => cases hf
  · cases target with
    | callbackLocal d n =>
      obtain rfl := Option.some.inj hc
      simp only [set, Action.bind_apply, Action.state, hnone]
      rfl
    | callbackParameter => cases h
    | _ => cases hc

/-- All other variables are written. -/
lemma set_of_there (h : target.isWritable) (hthere : ¬target.Gone w) (scope : Scope) (v : Value) :
    target.set scope v w = .done () (target.written scope.engine v w) := by
  cases target with
  | register | global => rfl
  | functionLocal f n =>
    cases hf : w.function? f with
    | none => exact absurd (.inl ⟨f, rfl, hf⟩) hthere
    | some x =>
      simp only [set, Action.bind_apply, Action.state, hf]
      rfl
  | callbackLocal c n =>
    cases hc : w.callback? c with
    | none => exact absurd (.inr ⟨c, rfl, hc⟩) hthere
    | some x =>
      simp only [set, Action.bind_apply, Action.state, hc]
      rfl
  | parameter | callbackParameter => cases h

/-! ### What a reference sees -/

/-- The two worlds show the same to a reference on an engine. -/
def SeesAlike (target : VarRef) (e : Id .engine) (w w' : World) : Prop :=
  match target with
  | register i => (w'.engine e).register.get i = (w.engine e).register.get i
  | global n => (w'.engine e).globals.read n = (w.engine e).globals.read n
  | functionLocal f n =>
    (w'.function? f).map (·.locals.read n) = (w.function? f).map (·.locals.read n)
  | callbackLocal c n =>
    (w'.callback? c).map (·.locals.read n) = (w.callback? c).map (·.locals.read n)
  | parameter f _ _ => (w'.function? f).map (·.frame) = (w.function? f).map (·.frame)
  | callbackParameter c _ _ =>
    (w'.callback? c).map (·.arguments) = (w.callback? c).map (·.arguments)

/-- Two instances of which the same is seen are both gone, or both there. -/
lemma cases_of_map_eq {α β : Type} {look : α → β} {x? x'? : Option α}
    (h : x'?.map look = x?.map look) :
    x? = none ∧ x'? = none ∨ ∃ x x', x? = some x ∧ x'? = some x' ∧ look x' = look x := by
  cases x? with
  | none => exact .inl ⟨rfl, Option.map_eq_none_iff.1 h⟩
  | some x =>
    obtain ⟨x', hx', hlook⟩ := Option.map_eq_some_iff.1 h
    exact .inr ⟨x, x', rfl, hx', hlook⟩

/-- A reference reads alike where it sees alike, errors included. -/
lemma SeesAlike.get (h : target.SeesAlike scope.engine w w')
    (hnames : ∀ n, w'.lookup scope.engine n = w.lookup scope.engine n) :
    target.get scope w' = (target.get scope w).mapState fun _ => w' := by
  cases target with
  | register i => exact congrArg (Outcome.done · w') h
  | global n => exact congrArg (Outcome.done · w') h
  | functionLocal f n =>
    simp only [VarRef.get, danglingError, nameText, name, Action.bind_apply, Action.state]
    rcases cases_of_map_eq h with ⟨hx, hx'⟩ | ⟨x, x', hx, hx', hread⟩
    · rw [hx, hx', hnames]
      rfl
    · rw [hx, hx']
      exact congrArg (Outcome.done · w') hread
  | callbackLocal c n =>
    simp only [VarRef.get, danglingError, nameText, name, Action.bind_apply, Action.state]
    rcases cases_of_map_eq h with ⟨hx, hx'⟩ | ⟨x, x', hx, hx', hread⟩
    · rw [hx, hx', hnames]
      rfl
    · rw [hx, hx']
      exact congrArg (Outcome.done · w') hread
  | parameter f i n =>
    simp only [VarRef.get, functionOf, danglingError, nameText, name, Action.bind_apply,
      Action.state]
    rcases cases_of_map_eq h with ⟨hx, hx'⟩ | ⟨x, x', hx, hx', hframe⟩
    · rw [hx, hx', hnames]
      rfl
    · rw [hx, hx']
      simp only [Action.pure_apply, hframe]
      cases x.frame.argument? i with
      | some v => rfl
      | none =>
        simp only [deliver, Action.bind_apply, Action.state]
        rw [hnames]
        rfl
  | callbackParameter c i n =>
    simp only [VarRef.get, danglingError, nameText, name, Action.bind_apply, Action.state]
    rcases cases_of_map_eq h with ⟨hx, hx'⟩ | ⟨x, x', hx, hx', harguments⟩
    · rw [hx, hx', hnames]
      rfl
    · simp only [hx, hx', harguments]
      rfl

end VarRef

/-! ### Reading after a write -/

namespace World

/-- What a change of an engine leaves alone is seen as before. -/
lemma look_modifyEngine {α : Type} (w : World) (e d : Id .engine) {change : Engine → Engine}
    (look : Engine → α) (h : ∀ x, look (change x) = look x) :
    look ((w.modifyEngine e change).engine d) = look (w.engine d) := by
  rcases w.engine_modifyEngine e d change with hsame | ⟨-, hchanged⟩
  · rw [hsame]
  · rw [hchanged, h]

/-- What a change of a function leaves alone is seen as before. -/
lemma look_modifyFunction {α : Type} (w : World) (f g : Id .function)
    {change : FunctionInstance → FunctionInstance} (look : FunctionInstance → α)
    (h : f = g → ∀ x, look (change x) = look x) :
    ((w.modifyFunction f change).function? g).map look = (w.function? g).map look := by
  rw [function?_modifyFunction]
  split
  · rename_i hfg
    rw [Option.map_map]
    exact Option.map_congr fun x _ => h hfg x
  · rfl

/-- What a change of a callback leaves alone is seen as before. -/
lemma look_modifyCallback {α : Type} (w : World) (c d : Id .callback)
    {change : CallbackInstance → CallbackInstance} (look : CallbackInstance → α)
    (h : c = d → ∀ x, look (change x) = look x) :
    ((w.modifyCallback c change).callback? d).map look = (w.callback? d).map look := by
  rw [callback?_modifyCallback]
  split
  · rename_i hcd
    rw [Option.map_map]
    exact Option.map_congr fun x _ => h hcd x
  · rfl

end World

namespace VarRef

variable {r r' : VarRef} {scope : Scope} {w : World}

/-- A write changes no names. -/
lemma lookup_written (r : VarRef) (e : Id .engine) (v : Value) (w : World) (n : Name) :
    (r.written e v w).lookup e n = w.lookup e n := by
  have hmodify : ∀ change : Engine → Engine, (∀ x, (change x).interner = x.interner) →
      (w.modifyEngine e change).lookup e n = w.lookup e n :=
    fun _ h => congrArg (w.memory.lookup · n) (w.look_modifyEngine e e Engine.interner h)
  cases r with
  | register | global => exact hmodify _ fun _ => rfl
  | _ => rfl

/-- A write shows nothing to a reference to another cell. -/
lemma seesAlike_written (h : ¬r.SameCell r') (e : Id .engine) (v : Value) (w : World) :
    r'.SeesAlike e w (r.written e v w) := by
  cases r with
  | register i =>
    cases r' with
    | register j =>
      refine w.look_modifyEngine e e (·.register.get j) fun x => ?_
      exact x.register.get_set_of_ne h v
    | global n => exact w.look_modifyEngine e e (·.globals.read n) fun _ => rfl
    | _ => rfl
  | global n =>
    cases r' with
    | register j => exact w.look_modifyEngine e e (·.register.get j) fun _ => rfl
    | global k =>
      refine w.look_modifyEngine e e (·.globals.read k) fun x => ?_
      rw [PropertyBag.read_insert, if_neg (Ne.symm h)]
    | _ => rfl
  | functionLocal f n =>
    cases r' with
    | functionLocal g k =>
      refine w.look_modifyFunction f g (·.locals.read k) fun hfg x => ?_
      rw [PropertyBag.read_insert, if_neg fun hkn => h ⟨hfg, hkn.symm⟩]
    | parameter g i k => exact w.look_modifyFunction f g (·.frame) fun _ _ => rfl
    | _ => rfl
  | callbackLocal c n =>
    cases r' with
    | callbackLocal d k =>
      refine w.look_modifyCallback c d (·.locals.read k) fun hcd x => ?_
      rw [PropertyBag.read_insert, if_neg fun hkn => h ⟨hcd, hkn.symm⟩]
    | callbackParameter d i k => exact w.look_modifyCallback c d (·.arguments) fun _ _ => rfl
    | _ => rfl
  | parameter | callbackParameter => cases r' <;> rfl

/-- Another cell reads as before the write. -/
lemma get_written_of_not_sameCell (h : ¬r.SameCell r') (scope : Scope) (v : Value) (w : World) :
    r'.get scope (r.written scope.engine v w) =
      (r'.get scope w).mapState fun _ => r.written scope.engine v w :=
  (seesAlike_written h scope.engine v w).get (r.lookup_written scope.engine v w)

end VarRef

/-! ### What is not lost -/

namespace World

/-- The world after one step of an evaluation, or after an arrangement of the host. -/
inductive Moves (w : World) : World → Prop
  | change {w' : World} (h : w.Change w') : Moves w w'
  | enter (a : Activity) : Moves w (a.enter w)
  | leave (a : Activity) : Moves w (a.leave w)
  | arrange (a : Arrangement) : Moves w (a.run w)

/-- Numbers that were given out in the first world are not given out again in the second one, the
classes of native objects are the same, and the registers of its engines have got no shorter. -/
structure Retains (w w' : World) : Prop where
  native : ∀ {i c}, w.natives.get? i = some c → w'.natives.get? i = some c
  engines : w.engines.size ≤ w'.engines.size
  functions : w.functions.size ≤ w'.functions.size
  callbacks : w.callbacks.size ≤ w'.callbacks.size
  slots : ∀ {e x'}, e.index < w.engines.size → w'.engines.get? e = some x' →
    ∃ x, w.engines.get? e = some x ∧ x.register.size ≤ x'.register.size

variable {w w' w'' : World}

namespace Retains

lemma refl (w : World) : w.Retains w :=
  ⟨id, Nat.le_refl _, Nat.le_refl _, Nat.le_refl _, fun _ hx => ⟨_, hx, Nat.le_refl _⟩⟩

lemma trans (h : w.Retains w') (h' : w'.Retains w'') : w.Retains w'' where
  native hc := h'.native (h.native hc)
  engines := Nat.le_trans h.engines h'.engines
  functions := Nat.le_trans h.functions h'.functions
  callbacks := Nat.le_trans h.callbacks h'.callbacks
  slots he hx'' := by
    obtain ⟨x', hx', hsize'⟩ := h'.slots (Nat.lt_of_lt_of_le he h.engines) hx''
    obtain ⟨x, hx, hsize⟩ := h.slots he hx'
    exact ⟨x, hx, Nat.le_trans hsize hsize'⟩

/-- Neither memory nor what the instances hold has anything to do with it. -/
lemma of_sizes (hnatives : w'.natives = w.natives) (hengines : w'.engines = w.engines)
    (hfunctions : w.functions.size ≤ w'.functions.size)
    (hcallbacks : w.callbacks.size ≤ w'.callbacks.size) : w.Retains w' where
  native hc := hnatives ▸ hc
  engines := Nat.le_of_eq (congrArg Pool.size hengines.symm)
  functions := hfunctions
  callbacks := hcallbacks
  slots _ hx := ⟨_, hengines ▸ hx, Nat.le_refl _⟩

lemma memory (w : World) (m : Memory) : w.Retains { w with memory := m } :=
  of_sizes rfl rfl (Nat.le_refl _) (Nat.le_refl _)

lemma modifyFunction (w : World) (f : Id .function)
    (change : FunctionInstance → FunctionInstance) : w.Retains (w.modifyFunction f change) :=
  of_sizes rfl rfl (Nat.le_of_eq (w.functions.size_update f change).symm) (Nat.le_refl _)

lemma modifyCallback (w : World) (c : Id .callback)
    (change : CallbackInstance → CallbackInstance) : w.Retains (w.modifyCallback c change) :=
  of_sizes rfl rfl (Nat.le_refl _) (Nat.le_of_eq (w.callbacks.size_update c change).symm)

/-- An engine is changed, and its register gets no shorter. -/
lemma modifyEngine (w : World) (e : Id .engine) {change : Engine → Engine}
    (h : ∀ x, w.engines.get? e = some x → x.register.size ≤ (change x).register.size) :
    w.Retains (w.modifyEngine e change) where
  native hc := hc
  engines := Nat.le_of_eq (w.engines.size_update e change).symm
  functions := Nat.le_refl _
  callbacks := Nat.le_refl _
  slots {d x'} _ hx' := by
    rcases Pool.get?_update_cases hx' with ⟨rfl, x, hx, rfl⟩ | ⟨-, hx⟩
    · exact ⟨x, hx, h x hx⟩
    · exact ⟨x', hx, Nat.le_refl _⟩

end Retains

/-- No edit loses a number or a slot. -/
lemma Edit.retains {S : Supply} (h : Edit S w w') : w.Retains w' := by
  cases h with
  | names m | memory m => exact .memory w m
  | addEngine x =>
    refine ⟨id, ?_, Nat.le_refl _, Nat.le_refl _, fun {d x'} hd hx' => ?_⟩
    · rw [Pool.size_add]
      exact Nat.le_succ _
    · rw [Pool.get?_add, if_neg (Nat.ne_of_lt hd)] at hx'
      exact ⟨x', hx', Nat.le_refl _⟩
  | addNative =>
    refine ⟨fun {i c} hc => ?_, Nat.le_refl _, Nat.le_refl _, Nat.le_refl _,
      fun _ hx => ⟨_, hx, Nat.le_refl _⟩⟩
    change (w.natives.add _).2.get? i = some c
    rw [Pool.get?_add, if_neg (Nat.ne_of_lt (Pool.index_lt_of_get? hc))]
    exact hc
  | addFunction =>
    refine .of_sizes rfl rfl ?_ (Nat.le_refl _)
    rw [Pool.size_add]
    exact Nat.le_succ _
  | addCallback =>
    refine .of_sizes rfl rfl (Nat.le_refl _) ?_
    rw [Pool.size_add]
    exact Nat.le_succ _
  | addSite => exact .of_sizes rfl rfl (Nat.le_refl _) (Nat.le_refl _)
  | declare e n =>
    refine .modifyEngine w e fun x hx => ?_
    have hengine : w.engine e = x := Option.getD_eq_iff.2 (.inl hx)
    rw [hengine]
    exact (x.register.index_lt_declare n).2
  | table e change hregister => exact .modifyEngine w e fun x _ => by rw [hregister]
  | function f change => exact .modifyFunction w f change
  | callback c change => exact .modifyCallback w c change
  | releaseFunction f =>
    exact .of_sizes rfl rfl (Nat.le_of_eq (w.functions.size_release f).symm) (Nat.le_refl _)
  | releaseCallback c =>
    exact .of_sizes rfl rfl (Nat.le_refl _) (Nat.le_of_eq (w.callbacks.size_release c).symm)
  | releaseEngine e =>
    exact ⟨id, Nat.le_of_eq (w.engines.size_release e).symm, Nat.le_refl _, Nat.le_refl _,
      fun {_ x'} _ hx' => ⟨x', (Pool.get?_release_eq_some hx').2, Nat.le_refl _⟩⟩

/-- No edits lose a number or a slot. -/
lemma Edits.retains {S : Supply} (h : w.Edits S w') : w.Retains w' := by
  induction h with
  | refl => exact .refl w
  | tail _ hedit ih => exact ih.trans hedit.retains

/-- No step and no arrangement loses a number or a slot. -/
theorem Moves.retains (h : w.Moves w') : w.Retains w' := by
  cases h with
  | change h =>
    cases h with
    | nothing => exact .refl w
    | register e i v =>
      exact .modifyEngine w e fun x _ => Nat.le_of_eq (x.register.size_set i v).symm
    | global e n v | report e error => exact .modifyEngine w e fun _ _ => Nat.le_refl _
    | functionLocal f n v | lastResult f v => exact .modifyFunction w f _
    | callbackLocal c n v => exact .modifyCallback w c _
    | resolution site r => exact .of_sizes rfl rfl (Nat.le_refl _) (Nat.le_refl _)
    | memory m => exact .memory w m
  | enter a =>
    cases a with
    | script => exact .refl w
    | function f site args => exact .modifyFunction w f _
    | callback c args => exact .modifyCallback w c _
  | leave a =>
    cases a with
    | script | callback => exact .refl w
    | function f site args => exact .modifyFunction w f _
  | arrange a => exact (a.edits (Supply.brings_unknown a) w).retains

/-- Nothing that happens loses a number or a slot. -/
lemma retains_of_moves (h : ReflTransGen Moves w w') : w.Retains w' := by
  induction h with
  | refl => exact .refl w
  | tail _ hmove ih => exact ih.trans hmove.retains

/-- All that a run does is such steps. -/
theorem moves_takeAll (bound : ℕ) (turns : List Turn) (w : World) :
    ReflTransGen Moves w ((Evaluator.shared bound).takeAll id turns w).state := by
  have hsteps : Machine.shared.Upkeep (fun _ _ => True) (ReflTransGen Moves w) :=
    .of_steps (fun k w' hw => hw.tail (.change (k.change w'))) (fun _ _ _ _ _ _ _ => trivial)
      (fun _ _ _ hw => hw) (fun _ _ hw => hw) (fun a _ _ hw => hw.tail (.enter a))
      fun a _ hw => hw.tail (.leave a)
  have hturns : ∀ turn, ((Evaluator.shared bound).take id turn).KeepsUp (ReflTransGen Moves w)
      Pairing.Anything :=
    fun turn => hsteps.take bound id fun a _ _ hw => hw.tail (.arrange a)
  exact (Evaluator.takeAll_keepsUp hturns turns w .refl).1

end World

/-! ### Bound references -/

namespace VarRef

/-- In the first world the host gets the reference on the engine, and the second world is left. -/
inductive BoundIn (e : Id .engine) (w : World) : VarRef → World → Prop
  | register (he : (w.engines.get? e).isSome) (name : String) :
    BoundIn e w (w.registerRef e name).1 (w.registerRef e name).2
  | global (name : String) : BoundIn e w (w.globalRef e name).1 (w.globalRef e name).2
  | functionLocal {f : Id .function} (hf : (w.function? f).isSome) (n : Name) :
    BoundIn e w (.functionLocal f n) w
  | callbackLocal {c : Id .callback} (hc : (w.callback? c).isSome) (n : Name) :
    BoundIn e w (.callbackLocal c n) w
  | parameter {f : Id .function} {i : ℕ} {r : VarRef} (h : w.parameterRef? f i = some r) :
    BoundIn e w r w
  | callbackParameter {c : Id .callback} {i : ℕ} {r : VarRef}
    (h : w.callbackParameterRef? c i = some r) : BoundIn e w r w

/-- The reference was bound on the engine some time before, whatever has happened since. -/
def BoundOn (r : VarRef) (e : Id .engine) (w : World) : Prop :=
  ∃ w₀ w₁, BoundIn e w₀ r w₁ ∧ ReflTransGen World.Moves w₁ w

/-- The slot of the reference was declared, and its function or callback was defined. -/
def Placed (r : VarRef) (e : Id .engine) (w : World) : Prop :=
  match r with
  | register i => e.index < w.engines.size ∧ ∀ x, w.engines.get? e = some x → i < x.register.size
  | global _ => True
  | functionLocal f _ | parameter f _ _ => f.index < w.functions.size
  | callbackLocal c _ | callbackParameter c _ _ => c.index < w.callbacks.size

variable {r r' : VarRef} {e : Id .engine} {w w' : World}

lemma Placed.retains (h : r.Placed e w) (hw : w.Retains w') : r.Placed e w' := by
  cases r with
  | register i =>
    obtain ⟨he, hslots⟩ := h
    refine ⟨Nat.lt_of_lt_of_le he hw.engines, fun x' hx' => ?_⟩
    obtain ⟨x, hx, hsize⟩ := hw.slots he hx'
    exact Nat.lt_of_lt_of_le (hslots x hx) hsize
  | global => exact trivial
  | functionLocal | parameter => exact Nat.lt_of_lt_of_le h hw.functions
  | callbackLocal | callbackParameter => exact Nat.lt_of_lt_of_le h hw.callbacks

lemma BoundIn.placed (h : BoundIn e w r w') : r.Placed e w' := by
  cases h with
  | register he name =>
    obtain ⟨x, hx⟩ := Option.isSome_iff_exists.1 he
    have hretains := (World.Edits.declareRegister (S := .unknown) w e name).retains
    have hengine := Nat.lt_of_lt_of_le (Pool.index_lt_of_get? hx) hretains.engines
    change Placed (.register (w.declareRegister e name).1) e (w.declareRegister e name).2
    refine ⟨hengine, fun y hy => ?_⟩
    change ((w.intern e name).2.engines.update e _).get? e = some y at hy
    rw [Pool.get?_update_self] at hy
    obtain ⟨z, -, rfl⟩ := Option.map_eq_some_iff.1 hy
    exact (Register.index_lt_declare _ _).1
  | global => exact trivial
  | functionLocal hf n =>
    obtain ⟨x, hx⟩ := Option.isSome_iff_exists.1 hf
    exact Pool.index_lt_of_get? hx
  | callbackLocal hc n =>
    obtain ⟨x, hx⟩ := Option.isSome_iff_exists.1 hc
    exact Pool.index_lt_of_get? hx
  | parameter h =>
    obtain ⟨x, hx, h⟩ := Option.bind_eq_some_iff.1 h
    obtain ⟨n, -, h⟩ := Option.bind_eq_some_iff.1 h
    obtain rfl := Option.some.inj h
    exact Pool.index_lt_of_get? hx
  | callbackParameter h =>
    obtain ⟨x, hx, h⟩ := Option.bind_eq_some_iff.1 h
    obtain ⟨n, -, h⟩ := Option.bind_eq_some_iff.1 h
    obtain rfl := Option.some.inj h
    exact Pool.index_lt_of_get? hx

/-- What was bound is still declared or defined. -/
lemma BoundOn.placed (h : r.BoundOn e w) : r.Placed e w := by
  obtain ⟨w₀, w₁, hbound, hmoves⟩ := h
  exact hbound.placed.retains (World.retains_of_moves hmoves)

/-- What is bound before a run of the host is bound after it. -/
lemma BoundOn.takeAll (h : r.BoundOn e w) (bound : ℕ) (turns : List Turn) :
    r.BoundOn e ((Evaluator.shared bound).takeAll id turns w).state := by
  obtain ⟨w₀, w₁, hbound, hmoves⟩ := h
  exact ⟨w₀, w₁, hbound, hmoves.trans (World.moves_takeAll bound turns w)⟩

/-- The cell that was written reads as the value that was written. -/
lemma get_written_of_sameCell {scope : Scope} (he : (w.engines.get? scope.engine).isSome)
    (hplaced : r.Placed scope.engine w) (hthere : ¬r.Gone w) (h : r.SameCell r') (v : Value) :
    r'.get scope (r.written scope.engine v w) = .done v (r.written scope.engine v w) := by
  obtain ⟨x, hx⟩ := Option.isSome_iff_exists.1 he
  have hengine : ∀ change : Engine → Engine,
      (w.modifyEngine scope.engine change).engine scope.engine = change x := by
    intro change
    rw [World.engine, World.modifyEngine, Pool.get?_update_self, hx]
    rfl
  cases r with
  | register i =>
    cases r' with
    | register j =>
      obtain rfl : i = j := h
      refine congrArg (Outcome.done · _) ?_
      change ((w.modifyEngine scope.engine _).engine scope.engine).register.get i = v
      rw [hengine]
      -- beyond the register the value would be lost, but the slot has been declared
      exact x.register.get_set_self (hplaced.2 x hx) v
    | _ => exact h.elim
  | global n =>
    cases r' with
    | global k =>
      obtain rfl : n = k := h
      refine congrArg (Outcome.done · _) ?_
      change ((w.modifyEngine scope.engine _).engine scope.engine).globals.read n = v
      rw [hengine, PropertyBag.read_insert, if_pos rfl]
    | _ => exact h.elim
  | functionLocal f n =>
    cases r' with
    | functionLocal g k =>
      obtain ⟨rfl, rfl⟩ := h
      cases hf : w.function? f with
      | none => exact absurd (.inl ⟨f, rfl, hf⟩) hthere
      | some x =>
        simp only [get, written, World.setLocal, Action.bind_apply, Action.state,
          World.function?_modifyFunction, if_true, hf, Option.map_some, PropertyBag.read_insert]
        rfl
    | _ => exact h.elim
  | callbackLocal c n =>
    cases r' with
    | callbackLocal d k =>
      obtain ⟨rfl, rfl⟩ := h
      cases hc : w.callback? c with
      | none => exact absurd (.inr ⟨c, rfl, hc⟩) hthere
      | some x =>
        simp only [get, written, World.setCallbackLocal, Action.bind_apply, Action.state,
          World.callback?_modifyCallback, if_true, hc, Option.map_some, PropertyBag.read_insert]
        rfl
    | _ => exact h.elim
  | parameter | callbackParameter => cases r' <;> exact h.elim

/-- Two references denote the same cell exactly if they are one reference, which can be written. -/
lemma sameCell_iff : r.SameCell r' ↔ r = r' ∧ r.isWritable := by
  cases r <;> cases r' <;> simp [SameCell, isWritable]

/-- A function that is defined now is none to which there are references. -/
lemma Placed.not_sameCell_defineFunction (h : r.Placed e w) (name : String)
    (parameters : List String) (n : Name) :
    ¬SameCell (.functionLocal (w.defineFunction e name parameters).1 n) r := by
  have hnames := (World.Edits.intern (S := .unknown) w e name).retains.trans
    (World.Edits.internAll (S := .unknown) _ e parameters).retains
  cases r with
  | functionLocal f k =>
    rintro ⟨rfl, -⟩
    exact absurd h (Nat.not_lt.2 hnames.functions)
  | _ => exact id

/-- A callback that is defined now is none to which there are references. -/
lemma Placed.not_sameCell_defineCallback (h : r.Placed e w) (name : String)
    (parameters : List String) (n : Name) :
    ¬SameCell (.callbackLocal (w.defineCallback e name parameters).1 n) r := by
  have hnames := (World.Edits.intern (S := .unknown) w e name).retains.trans
    (World.Edits.internAll (S := .unknown) _ e parameters).retains
  cases r with
  | callbackLocal c k =>
    rintro ⟨rfl, -⟩
    exact absurd h (Nat.not_lt.2 hnames.callbacks)
  | _ => exact id

/-- Storage tiers never alias.  Let two references be bound on an engine, each at some time, and let
the engine be in any state that it has reached since.  A write through the first one

* fails if it is a parameter, and otherwise if its function or callback is gone; the world then is
  what it was;
* succeeds otherwise, and then the second one reads the value if it denotes the same cell, and what
  it has read before if it does not, errors included.

Two references denote the same cell only if they are one reference, with tier, instance and name or
slot; and a function or callback that is defined now, under a new name or an old one, shares no cell
with any reference that there is. -/
theorem set_get_of_boundOn (he : (w.engines.get? e).isSome) (h : r.BoundOn e w)
    (h' : r'.BoundOn e w) (depth depth' : ℕ) (v : Value) :
    (r.isWritable = false → r.set ⟨e, depth⟩ v w =
      .failed (.of (.readOnlyReference (r.nameText w e))) w) ∧
    (r.isWritable → r.Gone w → r.set ⟨e, depth⟩ v w =
      .failed (.of (.danglingFunction (r.nameText w e))) w) ∧
    (r.isWritable → ¬r.Gone w → ∃ w₁, r.set ⟨e, depth⟩ v w = .done () w₁ ∧
      (r.SameCell r' → r'.get ⟨e, depth'⟩ w₁ = .done v w₁) ∧
      (¬r.SameCell r' → r'.get ⟨e, depth'⟩ w₁ = (r'.get ⟨e, depth'⟩ w).mapState fun _ => w₁)) ∧
    (r.SameCell r' ↔ r = r' ∧ r.isWritable) ∧
    (∀ name parameters n,
      ¬SameCell (.functionLocal (w.defineFunction e name parameters).1 n) r' ∧
      ¬SameCell (.callbackLocal (w.defineCallback e name parameters).1 n) r') := by
  refine ⟨fun hparameter => set_of_readOnly hparameter ⟨e, depth⟩ v w,
    fun hwritable hgone => set_of_gone hwritable hgone ⟨e, depth⟩ v, fun hwritable hthere => ?_,
    sameCell_iff, fun name parameters n => ⟨?_, ?_⟩⟩
  · refine ⟨_, set_of_there hwritable hthere ⟨e, depth⟩ v, fun hsame => ?_, fun hother => ?_⟩
    · exact get_written_of_sameCell he h.placed hthere hsame v
    · exact get_written_of_not_sameCell hother ⟨e, depth'⟩ v w
  · exact h'.placed.not_sameCell_defineFunction name parameters n
  · exact h'.placed.not_sameCell_defineCallback name parameters n

/-- A register variable and a global of one name.  The host writes the global between the two
bindings and the end, and then the register variable. -/
theorem set_register_get_global :
    let w := (World.empty.newEngine {} none).2
    let gain := w.registerRef ⟨0⟩ "gain"
    let gain' := gain.2.globalRef ⟨0⟩ "gain"
    let w' := ((Evaluator.shared 1).takeAll id [.write (.top ⟨0⟩) gain'.1 (.bool false)] gain'.2).state
    (w'.engines.get? ⟨0⟩).isSome ∧ gain.1.BoundOn ⟨0⟩ w' ∧ gain'.1.BoundOn ⟨0⟩ w' ∧
      ∃ w₁, gain.1.set (.top ⟨0⟩) (.bool true) w' = .done () w₁ ∧
        gain'.1.get (.top ⟨0⟩) w₁ = .done (.bool false) w₁ := by
  intro w gain gain' w'
  have he : (w.engines.get? ⟨0⟩).isSome := by decide +kernel
  have he₁ : (gain'.2.engines.get? ⟨0⟩).isSome := by
    change ((w.engines.update ⟨0⟩ _).get? ⟨0⟩).isSome
    rwa [Pool.get?_update_self, Option.isSome_map]
  have he₂ : (w'.engines.get? ⟨0⟩).isSome := by
    change ((gain'.2.engines.update ⟨0⟩ _).get? ⟨0⟩).isSome
    rwa [Pool.get?_update_self, Option.isSome_map]
  have hgain : gain.1.BoundOn ⟨0⟩ gain'.2 :=
    ⟨w, gain.2, .register he "gain", .single (.arrange (.bind ⟨0⟩ (.intern "gain")))⟩
  have hgain' : gain'.1.BoundOn ⟨0⟩ gain'.2 := ⟨gain.2, gain'.2, .global "gain", .refl⟩
  have hbound : gain.1.BoundOn ⟨0⟩ w' := hgain.takeAll 1 _
  have hbound' : gain'.1.BoundOn ⟨0⟩ w' := hgain'.takeAll 1 _
  -- what the host has written is what the global holds
  have hread : gain'.1.get (.top ⟨0⟩) w' = .done (.bool false) w' := by
    have hthere : ¬gain'.1.Gone gain'.2 := by rintro (⟨f, hf, -⟩ | ⟨c, hc, -⟩) <;> contradiction
    have hsame : gain'.1.SameCell gain'.1 := by rfl
    exact get_written_of_sameCell he₁ hgain'.placed hthere hsame (.bool false)
  obtain ⟨-, -, hset, -⟩ := set_get_of_boundOn he₂ hbound hbound' 0 0 (.bool true)
  obtain ⟨w₁, hw₁, -, hother⟩ := hset rfl (by rintro (⟨f, hf, -⟩ | ⟨c, hc, -⟩) <;> contradiction)
  refine ⟨he₂, hbound, hbound', w₁, hw₁, (hother id).trans ?_⟩
  exact congrArg (Outcome.mapState fun _ => w₁) hread

end VarRef

end ScriptEngine
