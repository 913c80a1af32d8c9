import ScriptEngine.Proofs.Arrays
import ScriptEngine.Proofs.Changes
import ScriptEngine.Proofs.Registers

/-!
# The values that a world stores

Between two steps, a value is kept in a variable of an engine, of a function or of a callback, among
the arguments of a frame, as a constant of a native object, or in the memory.  A claim about all
stored values is kept by each step that writes only values of which it holds.

The claim that matters here is that every reference is to an array that is there.

Main statements: `World.Stores.enter`, `World.Stores.leave` and the lemmas about single writes.
-/

namespace ScriptEngine

variable {p q : Value → Prop}

/-- All variables of an engine hold values that satisfy `p`. -/
structure Engine.Stores (p : Value → Prop) (x : Engine) : Prop where
  register : ∀ i, p (x.register.get i)
  globals : ∀ n, p (x.globals.read n)

/-- All variables and arguments of a function satisfy `p`. -/
structure FunctionInstance.Stores (p : Value → Prop) (x : FunctionInstance) : Prop where
  locals : ∀ n, p (x.locals.read n)
  arguments : ∀ v ∈ x.frame.arguments, p v

/-- All variables and arguments of a callback satisfy `p`. -/
structure CallbackInstance.Stores (p : Value → Prop) (x : CallbackInstance) : Prop where
  locals : ∀ n, p (x.locals.read n)
  arguments : ∀ v ∈ x.arguments, p v

/-- All variables, arguments and constants of a world satisfy `p`. -/
structure World.Stores (p : Value → Prop) (w : World) : Prop where
  engine : ∀ e, (w.engine e).Stores p
  function : ∀ {f x}, w.function? f = some x → x.Stores p
  callback : ∀ {c x}, w.callback? c = some x → x.Stores p
  constant : ∀ object n, ∀ v ∈ (w.apiClass object).constant? n, p v

/-! ### Reading what was written -/

/-- A property bag after a property was set. -/
lemma PropertyBag.read_insert (bag : PropertyBag) (n k : Name) (v : Value) :
    PropertyBag.read (bag.insert n v) k = if k = n then v else bag.read k := by
  unfold PropertyBag.read
  rw [NameMap.get?_insert]
  split <;> rfl

/-- A bag holds values that satisfy `p` after one of them was set. -/
lemma PropertyBag.forall_read_insert {bag : PropertyBag} (h : ∀ k, p (bag.read k)) {v : Value}
    (hv : p v) (n k : Name) : p (PropertyBag.read (bag.insert n v) k) := by
  rw [PropertyBag.read_insert]
  split
  · exact hv
  · exact h k

/-- The argument of a parameter is one of those in the frame, or `undefined`. -/
lemma FunctionInstance.Stores.argument? {x : FunctionInstance} (h : x.Stores p)
    (hundefined : p .undefined) {i : ℕ} {v : Value} (hv : x.frame.argument? i = some v) : p v := by
  obtain ⟨site, -, rfl⟩ := Option.map_eq_some_iff.1 hv
  cases hargument : x.frame.arguments[i]? with
  | none => exact hundefined
  | some v => exact h.arguments v (List.mem_of_getElem? hargument)

/-- The argument of a callback is one of those that it was called with, or `undefined`. -/
lemma CallbackInstance.Stores.argument {x : CallbackInstance} (h : x.Stores p)
    (hundefined : p .undefined) (i : ℕ) : p (x.arguments[i]?.getD .undefined) := by
  cases hargument : x.arguments[i]? with
  | none => exact hundefined
  | some v => exact h.arguments v (List.mem_of_getElem? hargument)

/-! ### Instances after a single write -/

/-- A slot of the register is written. -/
lemma Engine.Stores.setRegister {x : Engine} (h : x.Stores p) {v : Value} (hv : p v) (i : ℕ) :
    Engine.Stores p { x with register := x.register.set i v } :=
  ⟨Register.forall_get_set h.register hv i, h.globals⟩

/-- A global is written. -/
lemma Engine.Stores.setGlobal {x : Engine} (h : x.Stores p) {v : Value} (hv : p v) (n : Name) :
    Engine.Stores p { x with globals := x.globals.insert n v } :=
  ⟨h.register, PropertyBag.forall_read_insert h.globals hv n⟩

/-- A local of a function is written. -/
lemma FunctionInstance.Stores.setLocal {x : FunctionInstance} (h : x.Stores p) {v : Value}
    (hv : p v) (n : Name) : FunctionInstance.Stores p { x with locals := x.locals.insert n v } :=
  ⟨PropertyBag.forall_read_insert h.locals hv n, h.arguments⟩

/-- An invocation of a function begins. -/
lemma FunctionInstance.Stores.enter {x : FunctionInstance} (h : x.Stores p) (site : CallSiteId)
    {args : List Value} (hargs : ∀ v ∈ args, p v) :
    FunctionInstance.Stores p { x with frame := x.frame.enter site args } := by
  refine ⟨h.locals, fun v hv => ?_⟩
  rcases List.mem_append.1 hv with hv | hv
  · exact hargs v (List.mem_of_mem_take hv)
  · exact h.arguments v (List.mem_of_mem_drop hv)

/-- An invocation of a function ends. -/
lemma FunctionInstance.Stores.leave {x : FunctionInstance} (h : x.Stores p)
    (hundefined : p .undefined) : FunctionInstance.Stores p { x with frame := x.frame.leave } := by
  refine ⟨h.locals, fun v hv => ?_⟩
  unfold CallFrame.leave at hv
  split at hv
  · rw [List.eq_of_mem_replicate hv]
    exact hundefined
  · exact h.arguments v hv

/-- A local of a callback is written. -/
lemma CallbackInstance.Stores.setLocal {x : CallbackInstance} (h : x.Stores p) {v : Value}
    (hv : p v) (n : Name) : CallbackInstance.Stores p { x with locals := x.locals.insert n v } :=
  ⟨PropertyBag.forall_read_insert h.locals hv n, h.arguments⟩

namespace World

variable {w : World}

namespace Stores

variable (h : w.Stores p)

include h

/-- The claim may be weakened. -/
lemma mono (hpq : ∀ v, p v → q v) : w.Stores q where
  engine e := ⟨fun i => hpq _ ((h.engine e).register i), fun n => hpq _ ((h.engine e).globals n)⟩
  function hx := ⟨fun n => hpq _ ((h.function hx).locals n),
    fun v hv => hpq v ((h.function hx).arguments v hv)⟩
  callback hx := ⟨fun n => hpq _ ((h.callback hx).locals n),
    fun v hv => hpq v ((h.callback hx).arguments v hv)⟩
  constant object n v hv := hpq v (h.constant object n v hv)

/-- Memory, resolutions and reports are no variables. -/
lemma of_same {w' : World} (hengine : w'.engine = w.engine) (hfunction : w'.function? = w.function?)
    (hcallback : w'.callback? = w.callback?) (hapi : w'.apiClass = w.apiClass) : w'.Stores p where
  engine e := by
    rw [hengine]
    exact h.engine e
  function hx := by
    rw [hfunction] at hx
    exact h.function hx
  callback hx := by
    rw [hcallback] at hx
    exact h.callback hx
  constant object n v hv := by
    rw [hapi] at hv
    exact h.constant object n v hv

/-- One engine is changed. -/
lemma modifyEngine (e : Id .engine) {change : Engine → Engine}
    (hchange : ∀ x, x.Stores p → (change x).Stores p) : (w.modifyEngine e change).Stores p where
  engine d := by
    have hd := h.engine d
    unfold World.engine World.modifyEngine at *
    rw [Pool.get?_update]
    split
    · cases hx : w.engines.get? d with
      | none => rwa [hx] at hd
      | some x =>
        rw [hx] at hd
        exact hchange x hd
    · exact hd
  function hx := h.function hx
  callback hx := h.callback hx
  constant := h.constant

/-- One function is changed. -/
lemma modifyFunction (f : Id .function) {change : FunctionInstance → FunctionInstance}
    (hchange : ∀ x, x.Stores p → (change x).Stores p) : (w.modifyFunction f change).Stores p where
  engine := h.engine
  function {g x} hx := by
    rcases function?_modifyFunction_cases hx with ⟨-, original, hg, rfl⟩ | ⟨-, hx⟩
    · exact hchange original (h.function hg)
    · exact h.function hx
  callback hx := h.callback hx
  constant := h.constant

/-- One callback is changed. -/
lemma modifyCallback (c : Id .callback) {change : CallbackInstance → CallbackInstance}
    (hchange : ∀ x, x.Stores p → (change x).Stores p) : (w.modifyCallback c change).Stores p where
  engine := h.engine
  function hx := h.function hx
  callback {d x} hx := by
    rcases callback?_modifyCallback_cases hx with ⟨-, original, hd, rfl⟩ | ⟨-, hx⟩
    · exact hchange original (h.callback hd)
    · exact h.callback hx
  constant := h.constant

/-! ### Single writes -/

/-- An error is reported. -/
lemma report (e : Id .engine) (error : EvalError) : (w.report e error).Stores p :=
  h.modifyEngine e fun _ hx => ⟨hx.register, hx.globals⟩

/-- The result of a function is remembered. -/
lemma setLastResult (f : Id .function) (v : Value) : (w.setLastResult f v).Stores p :=
  h.modifyFunction f fun _ hx => ⟨hx.locals, hx.arguments⟩

variable {v : Value} (hv : p v)

include hv

/-- A slot of the register is written. -/
lemma setRegister (e : Id .engine) (i : ℕ) : (w.setRegister e i v).Stores p :=
  h.modifyEngine e fun _ hx => hx.setRegister hv i

/-- A global is written. -/
lemma setGlobal (e : Id .engine) (n : Name) : (w.setGlobal e n v).Stores p :=
  h.modifyEngine e fun _ hx => hx.setGlobal hv n

/-- A local of a function is written. -/
lemma setLocal (f : Id .function) (n : Name) : (w.setLocal f n v).Stores p :=
  h.modifyFunction f fun _ hx => hx.setLocal hv n

/-- A local of a callback is written. -/
lemma setCallbackLocal (c : Id .callback) (n : Name) : (w.setCallbackLocal c n v).Stores p :=
  h.modifyCallback c fun _ hx => hx.setLocal hv n

/-- A variable is written. -/
lemma written (target : VarRef) (e : Id .engine) : (target.written e v w).Stores p := by
  cases target with
  | register i => exact h.setRegister hv e i
  | global n => exact h.setGlobal hv e n
  | functionLocal f n => exact h.setLocal hv f n
  | callbackLocal c n => exact h.setCallbackLocal hv c n
  | parameter f i n | callbackParameter c i n => exact h

end Stores

/-- What a variable holds is stored there, or `undefined`. -/
lemma Stores.of_holds (h : w.Stores p) (hundefined : p .undefined) {e : Id .engine}
    {target : VarRef} {v : Value} (hv : target.Holds w e v) : p v := by
  cases hv with
  | register i => exact (h.engine e).register i
  | global n => exact (h.engine e).globals n
  | functionLocal hx n => exact (h.function hx).locals n
  | callbackLocal hx n => exact (h.callback hx).locals n
  | parameter hx hv n => exact (h.function hx).argument? hundefined hv
  | callbackParameter hx i n => exact (h.callback hx).argument hundefined i

/-! ### Activities -/

/-- An activity begins with arguments that satisfy `p`. -/
lemma Stores.enter (h : w.Stores p) (hundefined : p .undefined) (a : Activity)
    (ha : ∀ f site args, a = .function f site args → ∀ v ∈ args, p v)
    (ha' : ∀ c args, a = .callback c args → ∀ v ∈ args, p v) : (a.enter w).Stores p := by
  cases a with
  | script => exact h
  | function f site args =>
    exact h.modifyFunction f fun _ hx => hx.enter site (ha f site args rfl)
  | callback c args =>
    refine h.modifyCallback c fun x _ => ⟨fun _ => hundefined, fun v hv => ?_⟩
    rcases List.mem_append.1 hv with hv | hv
    · exact ha' c args rfl v (List.mem_of_mem_take hv)
    · rw [List.eq_of_mem_replicate hv]
      exact hundefined

/-- An activity ends. -/
lemma Stores.leave (h : w.Stores p) (hundefined : p .undefined) (a : Activity) :
    (a.leave w).Stores p := by
  cases a with
  | script | callback c args => exact h
  | function f site args => exact h.modifyFunction f fun _ hx => hx.leave hundefined

end World

/-! ### Sound worlds -/

/-- All references in a world are to arrays that are there, and no array holds itself. -/
structure World.Sound (w : World) : Prop where
  memory : w.memory.Sound
  stores : w.Stores (Value.Within w.memory.arrays.size)

namespace World.Sound

variable {w : World} (h : w.Sound)

include h

/-- A member is there. -/
lemma readMember {e : Id .engine} {object v : Value} {property : Name}
    (hv : w.readMember e object property = .ok v) : v.Within w.memory.arrays.size := by
  cases object with
  | undefined => exact nomatch hv
  | object o =>
    obtain rfl := Except.ok.inj hv
    exact h.memory.properties o property
  | array a | string s =>
    obtain rfl := Except.ok.inj hv
    split <;> trivial
  | native o =>
    obtain rfl := Except.ok.inj hv
    cases hconstant : (w.apiClass o).constant? property with
    | none => trivial
    | some v => exact h.stores.constant o property v hconstant
  | number x | bool b =>
    obtain rfl := Except.ok.inj hv
    trivial

/-- The item at an index can be looked for, and is there. -/
lemma exists_readIndex? (e : Id .engine) (object index : Value) :
    ∃ result, w.readIndex? e object index = some result ∧
      ∀ v, result = .ok v → v.Within w.memory.arrays.size := by
  obtain ⟨key, hkey⟩ := Option.isSome_iff_exists.1 (h.memory.acyclic.isSome_display? index)
  cases object with
  | undefined =>
    refine ⟨.error (.of (.propertyOfUndefined key)), ?_, fun v hv => nomatch hv⟩
    rw [World.readIndex?, hkey, Option.map_some]
  | object o =>
    refine ⟨.ok (w.readKey e o key), ?_, fun v hv => ?_⟩
    · rw [World.readIndex?, hkey, Option.map_some]
    obtain rfl := Except.ok.inj hv
    unfold World.readKey
    split
    · exact h.memory.properties o _
    · trivial
  | array a =>
    refine ⟨_, rfl, fun v hv => ?_⟩
    obtain rfl := Except.ok.inj hv
    cases hitem : index.position?.bind fun i => (w.memory.items a)[i]? with
    | none => trivial
    | some v =>
      obtain ⟨i, -, hi⟩ := Option.bind_eq_some_iff.1 hitem
      exact h.memory.items a v (Array.mem_of_getElem? hi)
  | string s =>
    refine ⟨_, rfl, fun v hv => ?_⟩
    obtain rfl := Except.ok.inj hv
    cases index.position?.bind fun i => s.toList[i]? <;> trivial
  | number x | bool b | native o =>
    refine ⟨_, rfl, fun v hv => ?_⟩
    obtain rfl := Except.ok.inj hv
    trivial

end World.Sound

end ScriptEngine
