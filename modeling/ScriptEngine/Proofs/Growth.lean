import ScriptEngine.Proofs.Edits
import ScriptEngine.Proofs.Frames
import ScriptEngine.Proofs.Reach

/-!
# Worlds that grow

Where a call is bound, the engine sees to it that the number of arguments is the right one, or keeps what
it needs to see to it later: the slot of a function of an API class, or a number of its own for a call on
an object.  `World.Counts` says what is known of a call afterwards.

Much happens to a world between the building of a call and its evaluation.  Things are added, bodies are
attached, things are released, variables change.  But what has been declared never changes its number of
arguments (`World.Extends`), and as long as no evaluation runs, no frame is in use and no call gets
resolved (`World.Grows`).  So calls pass the right numbers of arguments afterwards as before
(`World.Grows.counted`).
-/

namespace ScriptEngine

/-! ### API classes -/

namespace Host.ApiClass

/-- A class that was built entry by entry. -/
inductive Built : ApiClass → Prop
  | named (name : String) : Built (.named name)
  | addFunction {c : ApiClass} (h : Built c) (name : Name) (numArgs : ℕ) (body : Function) :
    Built (c.addFunction name numArgs body)
  | addConstant {c : ApiClass} (h : Built c) (name : Name) (value : Value) :
    Built (c.addConstant name value)

/-- Each name that refers to a position refers to one of the table. -/
def InRange (c : ApiClass) : Prop :=
  ∀ name index, c.slots.get? name = some index → index < c.functions.size

/-- The names of a class that was built refer to positions of the table. -/
lemma Built.inRange {c : ApiClass} (h : c.Built) : c.InRange := by
  induction h with
  | named name => exact fun _ _ hindex => nomatch hindex
  | @addFunction c _ name numArgs body ih =>
    intro n index hindex
    change (c.slots.insert name c.functions.size).get? n = some index at hindex
    change index < (c.functions.push _).size
    rw [Array.size_push]
    rw [NameMap.get?_insert] at hindex
    split at hindex
    · obtain rfl := Option.some.inj hindex
      exact Nat.lt_succ_self _
    · exact Nat.lt_succ_of_lt (ih n index hindex)
  | addConstant _ name value ih => exact ih

/-- The class `Console` is built. -/
lemma built_consoleClass (m : Memory) (i : Id .interner) (p : Id .printer) :
    (consoleClass m i p).1.Built :=
  (Built.named "Console").addFunction _ _ _

/-- The class `Math` is built. -/
lemma built_mathClass (m : Memory) (i : Id .interner) : (mathClass m i).1.Built := by
  have hfunctions : ∀ (fs : List FunctionEntry) (acc : ApiClass × Memory), acc.1.Built →
      (fs.foldl (withFunction i) acc).1.Built := by
    intro fs
    induction fs with
    | nil => exact fun _ h => h
    | cons f rest ih => exact fun acc h => ih _ (h.addFunction _ _ _)
  have hconstants : ∀ (cs : List (String × Value)) (acc : ApiClass × Memory), acc.1.Built →
      (cs.foldl (withConstant i) acc).1.Built := by
    intro cs
    induction cs with
    | nil => exact fun _ h => h
    | cons c rest ih => exact fun acc h => ih _ (h.addConstant _ _)
  exact hfunctions _ _ (hconstants _ _ (.named "Math"))

end Host.ApiClass

/-- Classes that were built, and bodies that are new. -/
def Supply.built (new : Stmt → Prop) : Supply where
  native := Host.ApiClass.Built
  body := new
  memory _ _ := True
  console := Host.ApiClass.built_consoleClass
  math := Host.ApiClass.built_mathClass

/-! ### What calls pass -/

/-- The class of a native object has a function at the position, which takes that many arguments. -/
def World.Serves (w : World) (object : NativeRef) (index count : ℕ) : Prop :=
  ∃ function, (w.apiClass object).functions[index]? = some function ∧ function.numArgs = count

/-- What is called was declared with as many arguments as the call passes.  A call on an object
passes as many as `counts` says, and a call of an API class is compared with its slot on
evaluation. -/
def World.Counts (w : World) (counts : Id .callSite → ℕ) : ExprNode → Prop
  | .call f _ args => f.index < w.functions.size ∧ w.Takes f args.length
  | .apiCall object _ slot _ => w.Serves object slot.index slot.numArgs
  | .objectCall site _ _ args => site.index < w.objectCalls.size ∧ args.length = counts site
  | .snippetCall snippet args =>
    (∃ compiler d, snippet = .compile compiler d) ∧ args.length = snippet.argumentNames.length
  | _ => True

/-- What passes the right numbers of arguments. -/
def Coverage.counted (w : World) (counts : Id .callSite → ℕ) : Coverage where
  expression := w.Counts counts
  statement _ := True
  fits := w.Takes
  reaches _ := True
  performs _ := True
  reaches_top _ := trivial
  fits_of_call h := h.2
  performs_cons _ _ := trivial

/-- All bodies pass the right numbers of arguments, all calls that were resolved are served, all
frames have one slot for each parameter, and all names of API classes refer to positions of their
tables. -/
structure World.Counted (w : World) (counts : Id .callSite → ℕ) : Prop where
  function : ∀ {f x body}, w.function? f = some x → x.body = some body →
    (Coverage.counted w counts).CoversStmt body
  callback : ∀ {c x body}, w.callback? c = some x → x.body = some body →
    (Coverage.counted w counts).CoversStmt body
  resolved : ∀ {site r}, w.resolution? site = some r → w.Serves r.1 r.2.index (counts site)
  frames : ∀ {f x}, w.function? f = some x → x.frame.arguments.length = x.parameterCount
  classes : ∀ {i c}, w.natives.get? i = some c → c.InRange

/-- What passes the right numbers of arguments leads only to bodies that do, and to scripts that host
functions execute. -/
lemma World.Counted.closed {w : World} {counts : Id .callSite → ℕ} (h : w.Counted counts)
    (hnative : ∀ object, (w.apiClass object).Executes (Coverage.counted w counts).CoversStmt) :
    (Coverage.counted w counts).Closed w where
  function := h.function
  callback := h.callback
  native := hnative
  fits f function hf := by rw [hf, Option.getD_some]
  reaches _ _ _ := trivial

/-! ### Worlds that grow -/

namespace World

variable {w w' w'' : World} {counts counts' : Id .callSite → ℕ} {new : Stmt → Prop}

/-- What has been declared in the first world is still there in the second one, unless it was
released, and takes as many arguments. -/
structure Extends (w w' : World) : Prop where
  native : ∀ {i c}, w.natives.get? i = some c → w'.natives.get? i = some c
  functions : w.functions.size ≤ w'.functions.size
  sites : w.objectCalls.size ≤ w'.objectCalls.size
  function : ∀ {f x'}, f.index < w.functions.size → w'.function? f = some x' →
    ∃ x, w.function? f = some x ∧ x'.parameterCount = x.parameterCount

/-- No body but a new one, no frame in use and no resolution has come in, and only API classes that
are in order. -/
structure Grows (new : Stmt → Prop) (w w' : World) : Prop extends w.Extends w' where
  body : ∀ {f x' body}, w'.function? f = some x' → x'.body = some body →
    new body ∨ ∃ x, w.function? f = some x ∧ x.body = some body
  frame : ∀ {f x'}, w'.function? f = some x' → x'.frame = .idle x'.parameterCount ∨
    ∃ x, w.function? f = some x ∧ x'.frame = x.frame ∧ x'.parameterCount = x.parameterCount
  callback : ∀ {c x' body}, w'.callback? c = some x' → x'.body = some body →
    new body ∨ ∃ x, w.callback? c = some x ∧ x.body = some body
  resolution : ∀ {site r}, w'.resolution? site = some r → w.resolution? site = some r
  tables : ∀ {i c}, w'.natives.get? i = some c → w.natives.get? i = some c ∨ c.InRange

/-! ### What is counted stays counted -/

/-- A function of a class still takes as many arguments. -/
lemma Extends.serves (h : w.Extends w') {object : NativeRef} {index count : ℕ}
    (hserves : w.Serves object index count) : w'.Serves object index count := by
  obtain ⟨function, hfunction, hcount⟩ := hserves
  unfold apiClass at hfunction
  cases hnative : w.natives.get? object.id with
  | none =>
    rw [hnative] at hfunction
    exact absurd hfunction (by simp [Host.ApiClass.named])
  | some c =>
    rw [hnative] at hfunction
    refine ⟨function, ?_, hcount⟩
    rw [apiClass, h.native hnative]
    exact hfunction

/-- A form of expression still passes the right number of arguments. -/
lemma Extends.passes (h : w.Extends w')
    (hcounts : ∀ site : Id .callSite, site.index < w.objectCalls.size → counts' site = counts site)
    {node : ExprNode} (hnode : w.Counts counts node) : w'.Counts counts' node := by
  cases node with
  | call f site args =>
    refine ⟨Nat.lt_of_lt_of_le hnode.1 h.functions, fun x' hx' => ?_⟩
    obtain ⟨x, hx, hparameters⟩ := h.function hnode.1 hx'
    exact hparameters.trans (hnode.2 x hx)
  | apiCall object function slot args => exact h.serves hnode
  | objectCall site target function args =>
    exact ⟨Nat.lt_of_lt_of_le hnode.1 h.sites, hnode.2.trans (hcounts site hnode.1).symm⟩
  | snippetCall snippet args => exact hnode
  | _ => trivial

/-- A tree still passes the right numbers of arguments. -/
lemma Extends.coversTree (h : w.Extends w')
    (hcounts : ∀ site : Id .callSite, site.index < w.objectCalls.size → counts' site = counts site)
    {t : Tree} (ht : (Coverage.counted w counts).CoversTree t) :
    (Coverage.counted w' counts').CoversTree t := by
  cases t with
  | expr e => exact Expr.Everywhere.mono ht fun _ => h.passes hcounts
  | stmt s => exact Stmt.Everywhere.mono ht (fun _ => h.passes hcounts) fun _ _ => trivial

/-- A call that was resolved has been made. -/
lemma index_lt_of_resolution? {site : Id .callSite} {r : Resolution}
    (h : w.resolution? site = some r) : site.index < w.objectCalls.size := by
  unfold resolution? at h
  cases hsite : w.objectCalls.get? site with
  | none =>
    rw [hsite] at h
    exact nomatch h
  | some known => exact Pool.index_lt_of_get? hsite

/-- A world that has only grown is counted as before, if the new bodies are. -/
lemma Grows.counted (h : Grows new w w')
    (hcounts : ∀ site : Id .callSite, site.index < w.objectCalls.size → counts' site = counts site)
    (hnew : ∀ body, new body → (Coverage.counted w counts).CoversStmt body) (hw : w.Counted counts) :
    w'.Counted counts' where
  function {_ _ body} hf hbody := by
    refine h.coversTree (t := .stmt body) hcounts ?_
    rcases h.body hf hbody with hbody | ⟨x, hx, hxbody⟩
    · exact hnew body hbody
    · exact hw.function hx hxbody
  callback {_ _ body} hc hbody := by
    refine h.coversTree (t := .stmt body) hcounts ?_
    rcases h.callback hc hbody with hbody | ⟨x, hx, hxbody⟩
    · exact hnew body hbody
    · exact hw.callback hx hxbody
  resolved hr := by
    have hold := h.resolution hr
    rw [hcounts _ (index_lt_of_resolution? hold)]
    exact h.serves (hw.resolved hold)
  frames hf := by
    rcases h.frame hf with hidle | ⟨x, hx, hframe, hparameters⟩
    · rw [hidle]
      exact List.length_replicate
    · rw [hframe, hparameters]
      exact hw.frames hx
  classes hi := by
    rcases h.tables hi with hold | hnew
    · exact hw.classes hold
    · exact hnew

/-! ### Ways to grow -/

lemma Extends.refl (w : World) : w.Extends w :=
  ⟨id, Nat.le_refl _, Nat.le_refl _, fun _ hx => ⟨_, hx, rfl⟩⟩

namespace Grows

lemma refl (w : World) : Grows new w w :=
  ⟨.refl w, fun hx hbody => .inr ⟨_, hx, hbody⟩, fun hx => .inr ⟨_, hx, rfl, rfl⟩,
    fun hx hbody => .inr ⟨_, hx, hbody⟩, id, .inl⟩

lemma trans (h : Grows new w w') (h' : Grows new w' w'') : Grows new w w'' where
  native hi := h'.native (h.native hi)
  functions := Nat.le_trans h.functions h'.functions
  sites := Nat.le_trans h.sites h'.sites
  function hf hx'' := by
    obtain ⟨x', hx', heq'⟩ := h'.function (Nat.lt_of_lt_of_le hf h.functions) hx''
    obtain ⟨x, hx, heq⟩ := h.function hf hx'
    exact ⟨x, hx, heq'.trans heq⟩
  body hx'' hbody := by
    rcases h'.body hx'' hbody with hnew | ⟨x', hx', hbody'⟩
    · exact .inl hnew
    · exact h.body hx' hbody'
  frame hx'' := by
    rcases h'.frame hx'' with hidle | ⟨x', hx', hframe', heq'⟩
    · exact .inl hidle
    · rw [hframe', heq']
      rcases h.frame hx' with hidle | hold
      · exact .inl hidle
      · exact .inr hold
  callback hx'' hbody := by
    rcases h'.callback hx'' hbody with hnew | ⟨x', hx', hbody'⟩
    · exact .inl hnew
    · exact h.callback hx' hbody'
  resolution hr := h.resolution (h'.resolution hr)
  tables hi := by
    rcases h'.tables hi with hold | hnew
    · exact h.tables hold
    · exact .inr hnew

/-- Memory and engines have nothing to do with it. -/
lemma of_same (hnatives : w'.natives = w.natives) (hfunctions : w'.functions = w.functions)
    (hcallbacks : w'.callbacks = w.callbacks) (hsites : w'.objectCalls = w.objectCalls) :
    Grows new w w' := by
  have hfunction : w'.function? = w.function? := congrArg Pool.get? hfunctions
  have hcallback : w'.callback? = w.callback? := congrArg Pool.get? hcallbacks
  have hresolution : w'.resolution? = w.resolution? := by
    unfold resolution?
    rw [hsites]
  exact {
    native := fun hi => by rwa [hnatives]
    functions := Nat.le_of_eq (congrArg Pool.size hfunctions.symm)
    sites := Nat.le_of_eq (congrArg Pool.size hsites.symm)
    function := fun _ hx => ⟨_, hfunction ▸ hx, rfl⟩
    body := fun hx hbody => .inr ⟨_, hfunction ▸ hx, hbody⟩
    frame := fun hx => .inr ⟨_, hfunction ▸ hx, rfl, rfl⟩
    callback := fun hx hbody => .inr ⟨_, hcallback ▸ hx, hbody⟩
    resolution := fun hr => hresolution ▸ hr
    tables := fun hi => .inl (hnatives ▸ hi) }

/-- A native object is added. -/
lemma addNative (w : World) {c : Host.ApiClass} (hc : c.Built) : Grows new w (w.addNative c).2 where
  native {i c'} hi := by
    have hne : i ≠ (w.natives.add c).1 := by
      rintro rfl
      exact absurd (Pool.index_lt_of_get? hi) (Nat.lt_irrefl _)
    change (w.natives.add c).2.get? i = some c'
    rw [Pool.get?_add_of_ne _ _ hne, hi]
  functions := Nat.le_refl _
  sites := Nat.le_refl _
  function _ hx := ⟨_, hx, rfl⟩
  body hx hbody := .inr ⟨_, hx, hbody⟩
  frame hx := .inr ⟨_, hx, rfl, rfl⟩
  callback hx hbody := .inr ⟨_, hx, hbody⟩
  resolution hr := hr
  tables {i c'} hi := by
    rcases Pool.get?_add_cases hi with hold | ⟨-, rfl⟩
    · exact .inl hold
    · exact .inr hc.inRange

/-- Functions are added, or are changed apart from their parameters and their frames. -/
lemma of_functions {functions : Pool .function FunctionInstance}
    (hsize : w.functions.size ≤ functions.size)
    (h : ∀ f x', functions.get? f = some x' →
      (∃ x, w.function? f = some x ∧ x'.parameters = x.parameters ∧ x'.frame = x.frame ∧
        ∀ body, x'.body = some body → new body ∨ x.body = some body) ∨
      w.functions.size ≤ f.index ∧ x'.body = none ∧ x'.frame = .idle x'.parameterCount) :
    Grows new w { w with functions } where
  native := id
  functions := hsize
  sites := Nat.le_refl _
  function {f x'} hf hx' := by
    rcases h f x' hx' with ⟨x, hx, hparameters, -, -⟩ | ⟨hnew, -, -⟩
    · exact ⟨x, hx, congrArg List.length hparameters⟩
    · exact absurd hf (Nat.not_lt_of_le hnew)
  body {f x' body} hx' hsome := by
    rcases h f x' hx' with ⟨x, hx, -, -, hbody⟩ | ⟨-, hnone, -⟩
    · exact (hbody body hsome).imp_right fun hold => ⟨x, hx, hold⟩
    · exact nomatch hnone.symm.trans hsome
  frame {f x'} hx' := by
    rcases h f x' hx' with ⟨x, hx, hparameters, hframe, -⟩ | ⟨-, -, hidle⟩
    · exact .inr ⟨x, hx, hframe, congrArg List.length hparameters⟩
    · exact .inl hidle
  callback hx hsome := .inr ⟨_, hx, hsome⟩
  resolution := id
  tables := .inl

/-- Callbacks are added or changed, and no body comes in but a new one. -/
lemma of_callbacks {callbacks : Pool .callback CallbackInstance}
    (h : ∀ c x' body, callbacks.get? c = some x' → x'.body = some body →
      new body ∨ ∃ x, w.callback? c = some x ∧ x.body = some body) :
    Grows new w { w with callbacks } where
  native := id
  functions := Nat.le_refl _
  sites := Nat.le_refl _
  function _ hx := ⟨_, hx, rfl⟩
  body hx hsome := .inr ⟨_, hx, hsome⟩
  frame hx := .inr ⟨_, hx, rfl, rfl⟩
  callback hx hsome := h _ _ _ hx hsome
  resolution := id
  tables := .inl

/-- A function without a body is added. -/
lemma addFunction (w : World) (name : Name) (text : String) (parameters : List Name)
    (texts : List String) :
    Grows new w { w with functions := (w.functions.add (.define name text parameters texts)).2 } := by
  refine of_functions ?_ fun f x' hx' => ?_
  · rw [Pool.size_add]
    exact Nat.le_succ _
  · rcases Pool.get?_add_cases hx' with hold | ⟨hindex, rfl⟩
    · exact .inl ⟨x', hold, rfl, rfl, fun _ => .inr⟩
    · exact .inr ⟨Nat.le_of_eq hindex.symm, rfl, rfl⟩

/-- A callback without a body is added. -/
lemma addCallback (w : World) (name : Name) (text : String) (parameters : List Name) :
    Grows new w { w with callbacks := (w.callbacks.add (.define name text parameters)).2 } := by
  refine of_callbacks fun c x' body hx' hbody => ?_
  rcases Pool.get?_add_cases hx' with hold | ⟨-, rfl⟩
  · exact .inr ⟨x', hold, hbody⟩
  · exact nomatch hbody

/-- A call on an object gets its number, and is not resolved. -/
lemma addSite (w : World) : Grows new w { w with objectCalls := (w.objectCalls.add none).2 } where
  native := id
  functions := Nat.le_refl _
  sites := by
    rw [Pool.size_add]
    exact Nat.le_succ _
  function _ hx := ⟨_, hx, rfl⟩
  body hx hbody := .inr ⟨_, hx, hbody⟩
  frame hx := .inr ⟨_, hx, rfl, rfl⟩
  callback hx hbody := .inr ⟨_, hx, hbody⟩
  resolution {site r} hr := by
    change ((w.objectCalls.add none).2.get? site).join = some r at hr
    rw [Pool.get?_add] at hr
    split at hr
    · exact nomatch hr
    · exact hr
  tables := .inl

/-- A function is changed, apart from its parameters and its frame. -/
lemma modifyFunction (w : World) (f : Id .function) {change : FunctionInstance → FunctionInstance}
    (hparameters : ∀ x, (change x).parameters = x.parameters)
    (hframe : ∀ x, (change x).frame = x.frame)
    (hbody : ∀ x body, (change x).body = some body → new body ∨ x.body = some body) :
    Grows new w (w.modifyFunction f change) := by
  refine of_functions (Nat.le_of_eq (w.functions.size_update f change).symm) fun g x' hx' => ?_
  rcases function?_modifyFunction_cases hx' with ⟨-, x, hx, rfl⟩ | ⟨-, hx⟩
  · exact .inl ⟨x, hx, hparameters x, hframe x, hbody x⟩
  · exact .inl ⟨x', hx, rfl, rfl, fun _ => .inr⟩

/-- A callback is changed. -/
lemma modifyCallback (w : World) (c : Id .callback) {change : CallbackInstance → CallbackInstance}
    (hbody : ∀ x body, (change x).body = some body → new body ∨ x.body = some body) :
    Grows new w (w.modifyCallback c change) := by
  refine of_callbacks fun d x' body hx' hsome => ?_
  rcases callback?_modifyCallback_cases hx' with ⟨-, x, hx, rfl⟩ | ⟨-, hx⟩
  · exact (hbody x body hsome).imp_right fun hold => ⟨x, hx, hold⟩
  · exact .inr ⟨x', hx, hsome⟩

/-- A function is released. -/
lemma releaseFunction (w : World) (f : Id .function) :
    Grows new w { w with functions := w.functions.release f } :=
  of_functions (Nat.le_of_eq (w.functions.size_release f).symm) fun _ x' hx' =>
    .inl ⟨x', (Pool.get?_release_eq_some hx').2, rfl, rfl, fun _ => .inr⟩

/-- A callback is released. -/
lemma releaseCallback (w : World) (c : Id .callback) :
    Grows new w { w with callbacks := w.callbacks.release c } :=
  of_callbacks fun _ x' _ hx' hsome => .inr ⟨x', (Pool.get?_release_eq_some hx').2, hsome⟩

/-- A change that a command makes, other than keeping a resolution. -/
lemma of_change (h : w.Change w') (hsites : w'.objectCalls = w.objectCalls) : Grows new w w' := by
  cases h with
  | nothing => exact refl w
  | register | global | report | memory => exact of_same rfl rfl rfl rfl
  | functionLocal f n v | lastResult f v =>
    exact modifyFunction w f (fun _ => rfl) (fun _ => rfl) fun _ _ => .inr
  | callbackLocal c n v => exact modifyCallback w c fun _ _ => .inr
  | resolution site r => exact of_same rfl rfl rfl hsites

/-- By an edit the world grows, if the classes that it brings in were built. -/
lemma of_edit (h : w.Edit (.built new) w') : Grows new w w' := by
  cases h with
  | addNative hc => exact addNative w hc
  | addFunction n name parameters parameterNames =>
    exact addFunction w n name parameters parameterNames
  | addCallback n name parameters => exact addCallback w n name parameters
  | addSite => exact addSite w
  | function f change hchange =>
    exact modifyFunction w f (fun x => (hchange x).parameters) (fun x => (hchange x).frame)
      fun x => (hchange x).body
  | callback c change hchange => exact modifyCallback w c fun x => (hchange x).body
  | releaseFunction f => exact releaseFunction w f
  | releaseCallback c => exact releaseCallback w c
  | names | memory | addEngine | declare | table | releaseEngine => exact of_same rfl rfl rfl rfl

/-- So it does by several edits. -/
lemma of_edits (h : w.Edits (.built new) w') : Grows new w w' := by
  induction h with
  | refl => exact refl w
  | tail _ hlast ih => exact ih.trans (of_edit hlast)

end Grows

end World

/-- By an arrangement the world grows, if the classes that it brings in were built. -/
lemma Arrangement.grows {new : Stmt → Prop} (a : Arrangement) (ha : a.Brings (.built new))
    (w : World) : World.Grows new w (a.run w) :=
  .of_edits (a.edits ha w)

end ScriptEngine
