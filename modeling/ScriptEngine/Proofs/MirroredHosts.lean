import ScriptEngine.Host.Builtin
import ScriptEngine.Proofs.MirroredTrees

/-!
# Mirrored host functions

A host function sees the shared memory, and what it is given.  Two host functions mirror each other
if they do the same with memories, values and call frames that mirror each other; this has to hold for
whatever has come into being meanwhile, so that the renaming may have grown between two of their
steps.  Two API classes mirror each other if their functions and constants do.

The classes of every engine mirror themselves: they are built in two memories that mirror each
other, and come out so (`consoleClass` and `mathClass`, in the namespace `Memory.Mirrors`).
-/

namespace ScriptEngine

variable {ρ ρ' : Renaming}

/-! ### Call frames -/

/-- The frames differ in the numbers of their arguments alone. -/
structure CallFrame.Mirrors (ρ : Renaming) (frame frame' : CallFrame) : Prop where
  arguments : Values.Mirrors ρ frame.arguments frame'.arguments
  activeCall : frame'.activeCall = frame.activeCall
  depth : frame'.depth = frame.depth

namespace CallFrame.Mirrors

variable {frame frame' : CallFrame}

lemma mono (h : frame.Mirrors ρ frame') (hle : ρ ≤ ρ') : frame.Mirrors ρ' frame' :=
  ⟨h.arguments.mono hle, h.activeCall, h.depth⟩

lemma idle (n : ℕ) : (CallFrame.idle n).Mirrors ρ (.idle n) := by
  refine ⟨?_, rfl, rfl⟩
  change Values.Mirrors ρ (List.replicate n _) (List.replicate n _)
  induction n with
  | zero => exact .nil
  | succ n ih => exact .cons .undefined ih

lemma enter (h : frame.Mirrors ρ frame') (site : CallSiteId) {args args' : List Value}
    (hargs : Values.Mirrors ρ args args') :
    (frame.enter site args).Mirrors ρ (frame'.enter site args') := by
  refine ⟨?_, rfl, congrArg (· + 1) h.depth⟩
  rw [CallFrame.enter, CallFrame.enter, h.arguments.length_eq, hargs.length_eq]
  exact List.rel_append (List.forall₂_take _ hargs) (List.forall₂_drop _ h.arguments)

lemma leave (h : frame.Mirrors ρ frame') : frame.leave.Mirrors ρ frame'.leave := by
  unfold CallFrame.leave
  rw [h.depth, h.arguments.length_eq]
  split
  · exact idle _
  · exact ⟨h.arguments, h.activeCall, rfl⟩

/-- Parameters have arguments that mirror each other, if they have any. -/
lemma argument? (h : frame.Mirrors ρ frame') (i : ℕ) :
    Option.Rel (Value.Mirrors ρ) (frame.argument? i) (frame'.argument? i) := by
  unfold CallFrame.argument?
  rw [h.activeCall]
  cases frame.activeCall with
  | none => exact .none
  | some site => exact .some (h.arguments.getD i)

end CallFrame.Mirrors

namespace Host

/-! ### Programs -/

/-- The programs do the same with the two memories.  When a program has entered the engine again, it
goes on with whatever memories it finds. -/
inductive Program.Mirrors (Γ : Surroundings) :
    Renaming → Memory → Memory → Program → Program → Prop
  | finish {ρ m m' result result'} (hresult : ExceptRel (Value.Mirrors ρ) result result') :
    Mirrors Γ ρ m m' (.finish result) (.finish result')
  | read {ρ m m' next next'} (hnext : Mirrors Γ ρ m m' (next m) (next' m')) :
    Mirrors Γ ρ m m' (.read next) (.read next')
  | write {ρ ρ' m m' change change' next next'} (hgrows : ρ.GrowsInMemory ρ')
    (hm : (change m).Mirrors Γ ρ' (change' m'))
    (hnext : Mirrors Γ ρ' (change m) (change' m') next next') :
    Mirrors Γ ρ m m' (.write change next) (.write change' next')
  | allocate {ρ ρ' m m' make make' next next'} (hgrows : ρ.GrowsInMemory ρ')
    (hm : (make m).2.Mirrors Γ ρ' (make' m').2)
    (hnext : Mirrors Γ ρ' (make m).2 (make' m').2 (next (make m).1) (next' (make' m').1)) :
    Mirrors Γ ρ m m' (.allocate make next) (.allocate make' next')
  | display {ρ m m' v v' next next'} (hv : v.Mirrors ρ v')
    (hnext : ∀ text, Mirrors Γ ρ m m' (next text) (next' text)) :
    Mirrors Γ ρ m m' (.display v next) (.display v' next')
  | execute {ρ m m' script script' next next'} (hscript : script.Mirrors ρ script')
    (hnext : ∀ {ρ' m₁ m₁' result result'}, ρ ≤ ρ' → m₁.Mirrors Γ ρ' m₁' →
      ExceptRel (Value.Mirrors ρ') result result' →
      Mirrors Γ ρ' m₁ m₁' (next result) (next' result')) :
    Mirrors Γ ρ m m' (.execute script next) (.execute script' next')
  | callFunction {ρ m m' args args' next next'} (name : String)
    (hargs : Values.Mirrors ρ args args')
    (hnext : ∀ {ρ' m₁ m₁' result result'}, ρ ≤ ρ' → m₁.Mirrors Γ ρ' m₁' →
      ExceptRel (Value.Mirrors ρ') result result' →
      Mirrors Γ ρ' m₁ m₁' (next result) (next' result')) :
    Mirrors Γ ρ m m' (.callFunction name args next) (.callFunction name args' next')
  | invokeCallback {ρ m m' args args' next next'} (name : String)
    (hargs : Values.Mirrors ρ args args')
    (hnext : ∀ {ρ' m₁ m₁' result result'}, ρ ≤ ρ' → m₁.Mirrors Γ ρ' m₁' →
      ExceptRel (Value.Mirrors ρ') result result' →
      Mirrors Γ ρ' m₁ m₁' (next result) (next' result')) :
    Mirrors Γ ρ m m' (.invokeCallback name args next) (.invokeCallback name args' next')
  | inspectFrame {ρ m m' next next'} (name : String)
    (hnext : ∀ {view view'}, Option.Rel (CallFrame.Mirrors ρ) view view' →
      Mirrors Γ ρ m m' (next view) (next' view')) :
    Mirrors Γ ρ m m' (.inspectFrame name next) (.inspectFrame name next')

namespace Program.Mirrors

variable {Γ : Surroundings} {m m' : Memory}

lemma succeed {v v' : Value} (hv : v.Mirrors ρ v') : Mirrors Γ ρ m m' (.succeed v) (.succeed v') :=
  .finish (.ok hv)

lemma fail (e : EvalError) : Mirrors Γ ρ m m' (.fail e) (.fail e) :=
  .finish (.error e)

lemma displayAll {vs vs' : List Value} (hvs : Values.Mirrors ρ vs vs')
    {next next' : List String → Program}
    (hnext : ∀ texts, Mirrors Γ ρ m m' (next texts) (next' texts)) :
    Mirrors Γ ρ m m' (.displayAll vs next) (.displayAll vs' next') := by
  induction hvs generalizing next next' with
  | nil => exact hnext []
  | cons hv _ ih => exact .display hv fun text => ih fun texts => hnext (text :: texts)

end Program.Mirrors

/-- The functions do the same with memories and arguments that mirror each other, whatever has
come into being meanwhile. -/
structure Function.Mirrors (ρ : Renaming) (f f' : Function) : Prop where
  call : ∀ {Γ ρ' m m' args args'}, ρ ≤ ρ' → Memory.Mirrors Γ ρ' m m' →
    Values.Mirrors ρ' args args' → Program.Mirrors Γ ρ' m m' (f args) (f' args')

lemma Function.Mirrors.mono {f f' : Function} (h : Function.Mirrors ρ f f') (hle : ρ ≤ ρ') :
    Function.Mirrors ρ' f f' :=
  ⟨fun hle' hm hargs => h.call (hle.trans hle') hm hargs⟩

/-! ### Classes -/

/-- The functions of two tables do the same, and have names that mirror each other. -/
structure ApiFunction.Mirrors (ρ : Renaming) (f f' : ApiFunction) : Prop where
  name : f.name.Mirrors ρ f'.name
  numArgs : f'.numArgs = f.numArgs
  body : Function.Mirrors ρ f.body f'.body

/-- The tables have the same functions and constants at the same positions, under names that mirror
each other. -/
structure ApiClass.Mirrors (ρ : Renaming) (c c' : ApiClass) : Prop where
  name : c'.name = c.name
  functions : List.Forall₂ (ApiFunction.Mirrors ρ) c.functions.toList c'.functions.toList
  slots : NameMap.Mirrors ρ Eq c.slots c'.slots
  constants : PropertyBag.Mirrors ρ c.constants c'.constants

namespace ApiClass.Mirrors

variable {c c' : ApiClass} {n n' : Name}

lemma mono (h : c.Mirrors ρ c') (hle : ρ ≤ ρ') : c.Mirrors ρ' c' where
  name := h.name
  functions := h.functions.imp fun _ _ hf =>
    ⟨hf.name.mono hle, hf.numArgs, hf.body.mono hle⟩
  slots := h.slots.imp hle fun _ _ => id
  constants := h.constants.mono hle

lemma named (name : String) : (ApiClass.named name).Mirrors ρ (.named name) :=
  ⟨rfl, .nil, .empty, .empty⟩

lemma addFunction (h : c.Mirrors ρ c') (hn : n.Mirrors ρ n') (numArgs : ℕ) {f f' : Function}
    (hf : Function.Mirrors ρ f f') :
    (c.addFunction n numArgs f).Mirrors ρ (c'.addFunction n' numArgs f') where
  name := h.name
  functions := by
    unfold ApiClass.addFunction
    rw [Array.toList_push, Array.toList_push]
    exact List.rel_append h.functions (.cons ⟨hn, rfl, hf⟩ .nil)
  slots := by
    refine h.slots.insert hn ?_
    rw [← Array.length_toList, ← Array.length_toList, h.functions.length_eq]
  constants := h.constants

lemma addConstant (h : c.Mirrors ρ c') (hn : n.Mirrors ρ n') {v v' : Value}
    (hv : v.Mirrors ρ v') : (c.addConstant n v).Mirrors ρ (c'.addConstant n' v') :=
  { h with constants := h.constants.insert hn hv }

/-- At one position, there are functions that mirror each other. -/
lemma function? (h : c.Mirrors ρ c') (i : ℕ) :
    Option.Rel (ApiFunction.Mirrors ρ) c.functions[i]? c'.functions[i]? := by
  rw [← Array.getElem?_toList, ← Array.getElem?_toList]
  have hfunctions := h.functions
  generalize c.functions.toList = fs, c'.functions.toList = fs' at hfunctions
  induction hfunctions generalizing i with
  | nil => exact .none
  | cons hf _ ih =>
    cases i with
    | zero => exact .some hf
    | succ i => exact ih i

/-- Names that mirror each other have the same slot. -/
lemma slot? (h : c.Mirrors ρ c') (hn : n.Mirrors ρ n') : c'.slot? n' = c.slot? n := by
  have hslot := h.slots.get? hn
  unfold ApiClass.slot?
  generalize c.slots.get? n = i, c'.slots.get? n' = i' at hslot
  cases hslot with
  | none => rfl
  | @some i i' hi =>
    subst hi
    have hf := h.function? i
    simp only [Option.bind_eq_bind, Option.bind_some]
    generalize c.functions[i]? = f, c'.functions[i]? = f' at hf
    cases hf with
    | none => rfl
    | some hf => simp only [Option.bind_some, hf.numArgs]

/-- What is called at one position does the same. -/
lemma call (h : c.Mirrors ρ c') (i : ℕ) {Γ : Surroundings} {m m' : Memory} (hm : m.Mirrors Γ ρ m')
    {args args' : List Value} (hargs : Values.Mirrors ρ args args') :
    Program.Mirrors Γ ρ m m' (c.call i args) (c'.call i args') := by
  have hf := h.function? i
  unfold ApiClass.call
  generalize c.functions[i]? = f, c'.functions[i]? = f' at hf
  cases hf with
  | none =>
    rw [h.name]
    exact .fail _
  | some hf => exact hf.body.call le_rfl hm hargs

end ApiClass.Mirrors

/-! ### The classes of every engine -/

lemma Function.Mirrors.print {p p' : Id .printer} (hp : p.Mirrors ρ p') :
    Function.Mirrors ρ (print p) (print p') := by
  refine ⟨fun hle hm hargs => ?_⟩
  cases hargs with
  | nil => exact .succeed .undefined
  | cons hv _ =>
    refine .display hv fun line => ?_
    exact .write (.refl _) (hm.usePrinter (hp.mono hle) _) (.succeed .undefined)

namespace Math

lemma argument_eq {args args' : List Value} (hargs : Values.Mirrors ρ args args') (k : ℕ) :
    argument args' k = argument args k := by
  unfold argument
  induction hargs generalizing k with
  | nil => rfl
  | cons hv _ ih =>
    cases k with
    | zero => exact hv.toNumber
    | succ k => exact ih k

lemma mirrors_unary (f : Float → Float) : Function.Mirrors ρ (unary f) (unary f) := by
  refine ⟨fun _ _ hargs => ?_⟩
  unfold unary
  rw [argument_eq hargs]
  exact .succeed (.number _)

lemma mirrors_binary (f : Float → Float → Float) : Function.Mirrors ρ (binary f) (binary f) := by
  refine ⟨fun _ _ hargs => ?_⟩
  unfold binary
  rw [argument_eq hargs, argument_eq hargs]
  exact .succeed (.number _)

lemma mirrors_range : Function.Mirrors ρ range range := by
  refine ⟨fun _ _ hargs => ?_⟩
  unfold range
  rw [argument_eq hargs, argument_eq hargs, argument_eq hargs]
  exact .succeed (.number _)

/-- The functions of the class `Math` see nothing but numbers. -/
lemma mirrors_functions : ∀ f ∈ functions, Function.Mirrors ρ f.body f.body := by
  intro f hf
  simp only [functions, List.mem_cons, List.not_mem_nil, or_false] at hf
  rcases hf with rfl | rfl | rfl | rfl | rfl | rfl | rfl | rfl | rfl | rfl | rfl | rfl | rfl | rfl
  all_goals first | exact mirrors_unary _ | exact mirrors_binary _ | exact mirrors_range

/-- The constants of the class `Math` are numbers. -/
lemma mirrors_constants : ∀ c ∈ constants, Value.Mirrors ρ c.2 c.2 := by
  intro c hc
  simp only [constants, List.mem_cons, List.not_mem_nil, or_false] at hc
  rcases hc with rfl | rfl | rfl
  all_goals exact .number _

end Math

end Host

namespace Memory.Mirrors

open Host

variable {Γ : Surroundings} {m m' : Memory}

/-- A function is added to classes that mirror each other. -/
lemma withFunction (h : m.Mirrors Γ ρ m') {c c' : ApiClass} (hc : c.Mirrors ρ c') (name : String)
    (numArgs : ℕ) {f f' : Function} (hf : Function.Mirrors ρ f f') :
    let x := ApiClass.withFunction ρ.own (c, m) ⟨name, numArgs, f⟩
    let x' := ApiClass.withFunction ρ.shared (c', m') ⟨name, numArgs, f'⟩
    ∃ ρ', ρ.GrowsInMemory ρ' ∧ x.1.Mirrors ρ' x'.1 ∧ x.2.Mirrors Γ ρ' x'.2 := by
  obtain ⟨ρ', hgrows, hn, hm⟩ := h.intern name
  exact ⟨ρ', hgrows, (hc.mono hgrows.le).addFunction hn numArgs (hf.mono hgrows.le), hm⟩

/-- A constant is added to classes that mirror each other. -/
lemma withConstant (h : m.Mirrors Γ ρ m') {c c' : ApiClass} (hc : c.Mirrors ρ c') (name : String)
    {v v' : Value} (hv : v.Mirrors ρ v') :
    let x := ApiClass.withConstant ρ.own (c, m) (name, v)
    let x' := ApiClass.withConstant ρ.shared (c', m') (name, v')
    ∃ ρ', ρ.GrowsInMemory ρ' ∧ x.1.Mirrors ρ' x'.1 ∧ x.2.Mirrors Γ ρ' x'.2 := by
  obtain ⟨ρ', hgrows, hn, hm⟩ := h.intern name
  exact ⟨ρ', hgrows, (hc.mono hgrows.le).addConstant hn (hv.mono hgrows.le), hm⟩

/-- If one thing can be added to classes, a list of things can. -/
lemma foldl_class {α : Type} {step : Id .interner → ApiClass × Memory → α → ApiClass × Memory}
    {as : List α}
    (hstep : ∀ a ∈ as, ∀ {ρ : Renaming} {m m' : Memory} {c c' : ApiClass},
      m.Mirrors Γ ρ m' → c.Mirrors ρ c' → ∃ ρ', ρ.GrowsInMemory ρ' ∧
        (step ρ.own (c, m) a).1.Mirrors ρ' (step ρ.shared (c', m') a).1 ∧
        (step ρ.own (c, m) a).2.Mirrors Γ ρ' (step ρ.shared (c', m') a).2)
    (h : m.Mirrors Γ ρ m') {c c' : ApiClass} (hc : c.Mirrors ρ c') :
    let x := as.foldl (step ρ.own) (c, m)
    let x' := as.foldl (step ρ.shared) (c', m')
    ∃ ρ', ρ.GrowsInMemory ρ' ∧ x.1.Mirrors ρ' x'.1 ∧ x.2.Mirrors Γ ρ' x'.2 := by
  induction as generalizing ρ m m' c c' with
  | nil => exact ⟨ρ, .refl ρ, hc, h⟩
  | cons a rest ih =>
    obtain ⟨ρ₁, hgrows₁, hc₁, hm₁⟩ := hstep a List.mem_cons_self h hc
    obtain ⟨ρ₂, hgrows₂, hc₂, hm₂⟩ := ih (fun b hb => hstep b (List.mem_cons_of_mem a hb)) hm₁ hc₁
    rw [hgrows₁.le.1.1, hgrows₁.le.1.2.1] at hc₂ hm₂
    exact ⟨ρ₂, hgrows₁.trans hgrows₂, hc₂, hm₂⟩

/-- The class `Console` is built on both sides. -/
lemma consoleClass (h : m.Mirrors Γ ρ m') {p p' : Id .printer} (hp : p.Mirrors ρ p') :
    let x := Host.consoleClass m ρ.own p
    let x' := Host.consoleClass m' ρ.shared p'
    ∃ ρ', ρ.GrowsInMemory ρ' ∧ x.1.Mirrors ρ' x'.1 ∧ x.2.Mirrors Γ ρ' x'.2 :=
  h.withFunction (.named "Console") "print" 1 (.print hp)

/-- The class `Math` is built on both sides. -/
lemma mathClass (h : m.Mirrors Γ ρ m') :
    let x := Host.mathClass m ρ.own
    let x' := Host.mathClass m' ρ.shared
    ∃ ρ', ρ.GrowsInMemory ρ' ∧ x.1.Mirrors ρ' x'.1 ∧ x.2.Mirrors Γ ρ' x'.2 := by
  obtain ⟨ρ₁, hgrows₁, hc₁, hm₁⟩ := h.foldl_class (fun c hc _ _ _ _ _ hm hclass =>
    hm.withConstant hclass c.1 (Math.mirrors_constants c hc)) (.named "Math")
  obtain ⟨ρ₂, hgrows₂, hc₂, hm₂⟩ := hm₁.foldl_class (fun f hf _ _ _ _ _ hm hclass =>
    hm.withFunction hclass f.name f.numArgs (Math.mirrors_functions f hf)) hc₁
  rw [hgrows₁.le.1.1, hgrows₁.le.1.2.1] at hc₂ hm₂
  exact ⟨ρ₂, hgrows₁.trans hgrows₂, hc₂, hm₂⟩

end Memory.Mirrors

end ScriptEngine
