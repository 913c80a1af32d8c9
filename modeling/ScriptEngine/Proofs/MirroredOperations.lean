import ScriptEngine.Proofs.Changes
import ScriptEngine.Proofs.MirroredSessions
import ScriptEngine.Proofs.SortedRows

/-!
# Mirrored operations

An operation on an engine that uses own handles alone, and gives own handles alone, has the same
answer in a session and in one that mirrors it; the two mirror each other again afterwards, and what
is foreign stays as it was.  The operation neither starts nor drops an engine, and does not ask for
the counter that all engines of a session share.  A class that it registers has uniform functions.

The debugger panel is the one thing that may tell numbers, as it is taken out of hash tables: rows
that share a name may change places (`PanelsAlike`).

Main statement: `Session.Mirrors.carryOut`.
-/

namespace ScriptEngine

variable {Γ : Surroundings} {ρ ρ' : Renaming}

/-- What is the same of related things. -/
lemma optionRel_map_eq {α α' β : Type} {R : α → α' → Prop} {o : Option α} {o' : Option α'}
    (ho : Option.Rel R o o') {f : α → β} {f' : α' → β} (hf : ∀ a a', R a a' → f' a' = f a) :
    o'.map f' = o.map f := by
  cases ho with
  | none => rfl
  | some ha => exact congrArg some (hf _ _ ha)

/-- What is the same of all related things. -/
lemma map_eq_of_forall₂ {α α' β : Type} {R : α → α' → Prop} {as : List α} {as' : List α'}
    (has : List.Forall₂ R as as') {f : α → β} {f' : α' → β} (hf : ∀ a a', R a a' → f' a' = f a) :
    as'.map f' = as.map f := by
  induction has with
  | nil => rfl
  | cons ha _ ih => rw [List.map_cons, List.map_cons, hf _ _ ha, ih]

/-! ### What developers see -/

lemma CallFrame.Mirrors.isActive {frame frame' : CallFrame} (h : frame.Mirrors ρ frame') :
    frame'.isActive = frame.isActive := by
  rw [CallFrame.isActive, CallFrame.isActive, h.depth]

lemma CallFrame.Mirrors.activeCallText {frame frame' : CallFrame} (h : frame.Mirrors ρ frame') :
    frame'.activeCallText = frame.activeCallText := by
  rw [CallFrame.activeCallText, CallFrame.activeCallText, h.activeCall]

lemma FunctionInstance.Mirrors.debugText {f f' : FunctionInstance} (h : f.Mirrors ρ f') :
    f'.debugText = f.debugText := by
  unfold FunctionInstance.debugText
  rw [h.signature, h.frame.depth]

lemma CallbackInstance.Mirrors.debugText {c c' : CallbackInstance} (h : c.Mirrors ρ c') :
    c'.debugText = c.debugText := by
  unfold CallbackInstance.debugText
  rw [h.displayName, h.parameterCount]

lemma Engine.Mirrors.debugText {e e' : Engine} (h : e.Mirrors ρ e') :
    e'.debugText = e.debugText := by
  unfold Engine.debugText
  rw [h.register.size, h.globals.size, h.functions.size, h.callbacks.size, h.snippets.size]

lemma Engine.Mirrors.configText {e e' : Engine} (h : e.Mirrors ρ e') :
    e'.configText = e.configText := by
  unfold Engine.configText
  rw [h.maxCallDepth]

lemma Engine.Mirrors.snippetValues {e e' : Engine} (h : e.Mirrors ρ e') :
    e'.snippets.values = e.snippets.values := by
  have hsame : List.Forall₂ Eq e.snippets.values e'.snippets.values :=
    h.snippets.values.imp fun _ _ hs => hs.1.symm
  exact (List.forall₂_eq_eq_eq ▸ hsame).symm

namespace Memory.Mirrors

variable {m m' : Memory} (h : m.Mirrors Γ ρ m')

include h

lemma debugInfo_variable {v v' : Value} (hv : v.Mirrors ρ v') (name : String) :
    DebugInfo.ofVariable? m' name v' = DebugInfo.ofVariable? m name v := by
  rw [DebugInfo.ofVariable?, DebugInfo.ofVariable?, h.display? hv, hv.typeName]

lemma debugInfo_function {f f' : FunctionInstance} (hf : f.Mirrors ρ f') :
    DebugInfo.ofFunction? m' f' = DebugInfo.ofFunction? m f := by
  rw [DebugInfo.ofFunction?, DebugInfo.ofFunction?, h.display? hf.lastResult,
    hf.lastResult.typeName, hf.signature, hf.comment, hf.parameterNames]

end Memory.Mirrors

/-- The panels show the same rows under the same names.  Only rows of one kind that share a name may
have changed places. -/
structure PanelsAlike (panel panel' : List DebugEntry) : Prop where
  rows : panel'.Perm panel
  names : panel'.map (fun row => (row.kind, row.info.name)) =
    panel.map fun row => (row.kind, row.info.name)

namespace PanelsAlike

variable {panel panel' more more' : List DebugEntry}

lemma refl (panel : List DebugEntry) : PanelsAlike panel panel :=
  ⟨.refl _, rfl⟩

lemma append (h : PanelsAlike panel panel') (h' : PanelsAlike more more') :
    PanelsAlike (panel ++ more) (panel' ++ more') :=
  ⟨h.rows.append h'.rows, by rw [List.map_append, List.map_append, h.names, h'.names]⟩

/-- Rows in another order are sorted in the same way, up to ties. -/
lemma sortByName (kind : DebugKind) {rows rows' : List DebugInfo} (h : rows'.Perm rows) :
    PanelsAlike ((sortByName rows).map (⟨kind, ·⟩)) ((ScriptEngine.sortByName rows').map (⟨kind, ·⟩))
    where
  rows := (((sortByName_perm rows').trans h).trans (sortByName_perm rows).symm).map _
  names := by
    have hsorted := ((sortByName_perm rows').trans h).trans (sortByName_perm rows).symm
    have hnames :=
      map_name_eq_of_perm (ascends_sortByName rows) (ascends_sortByName rows') hsorted
    rw [List.map_map, List.map_map]
    have hmap := congrArg (List.map fun name => (kind, name)) hnames
    rwa [List.map_map, List.map_map] at hmap

end PanelsAlike

/-- The debugger panels of engines that mirror each other show the same, in whatever orders the
tables are walked. -/
theorem World.Mirrors.debugEntries? {w w' : World} (h : w.Mirrors Γ ρ w') {e e' : Id .engine}
    (he : e.Mirrors ρ e') (order order' : TableOrder) :
    Option.Rel PanelsAlike (w.debugEntries? order e) (w'.debugEntries? order' e') := by
  have hengine := h.engine he
  have hrow (entry entry' : Name × Value)
      (hentry : entry.1.Mirrors ρ entry'.1 ∧ entry.2.Mirrors ρ entry'.2) :
      DebugInfo.ofVariable? w'.memory (w'.lookup e' entry'.1) entry'.2 =
        DebugInfo.ofVariable? w.memory (w.lookup e entry.1) entry.2 := by
    rw [h.lookup he hentry.1, h.memory.debugInfo_variable hentry.2]
  have hregisters : Option.Rel Eq
      ((w.engine e).register.entries.mapM fun entry =>
        DebugInfo.ofVariable? w.memory (w.lookup e entry.1) entry.2)
      ((w'.engine e').register.entries.mapM fun entry =>
        DebugInfo.ofVariable? w'.memory (w'.lookup e' entry.1) entry.2) := by
    rw [mapM_eq_of_forall₂ hengine.register hrow]
    cases List.mapM (m := Option) _ (w.engine e).register.entries with
    | none => exact .none
    | some _ => exact .some rfl
  obtain ⟨listed, hperm, hlisted⟩ := hengine.globals
  have hglobals := optionRel_mapM_of_perm (NameMap.inOrder_perm _ order.globals)
    ((NameMap.inOrder_perm _ order'.globals).trans hperm.symm) (mapM_eq_of_forall₂ hlisted hrow)
  have hfunctions := optionRel_mapM_of_perm
    (((NameMap.inOrder_perm _ order.functions).map Prod.snd).filterMap w.function?)
    (((NameMap.inOrder_perm _ order'.functions).map Prod.snd).filterMap w'.function?)
    (mapM_eq_of_forall₂ (List.rel_filterMap (fun _ _ hf => h.function? hf) hengine.functions.values)
      fun _ _ hf => h.memory.debugInfo_function hf)
  have hsnippets : ((w'.engine e').snippets.inOrder order'.snippets).values.Perm
      ((w.engine e).snippets.inOrder order.snippets).values := by
    have hperm := (NameMap.inOrder_perm (w'.engine e').snippets order'.snippets).map Prod.snd
    have hperm' := (NameMap.inOrder_perm (w.engine e).snippets order.snippets).map Prod.snd
    exact (hperm.trans (.of_eq hengine.snippetValues)).trans hperm'.symm
  refine optionRel_bind hregisters fun registers registers' hr => ?_
  refine optionRel_bind hglobals fun globals globals' hg => ?_
  refine optionRel_bind hfunctions fun functions functions' hf => ?_
  subst hr
  exact .some ((((PanelsAlike.refl _).append (.sortByName _ hg)).append (.sortByName _ hf)).append
    (.sortByName _ (hsnippets.map _)))

/-- Functions that mirror each other are found under a name in the same cases. -/
lemma World.Mirrors.isCurrent {w w' : World} (h : w.Mirrors Γ ρ w') {e e' : Id .engine}
    (he : e.Mirrors ρ e') {f f' : Id .function} (hf : f.Mirrors ρ f') (name : String) :
    (w'.functionNamed? e' name == some f') = (w.functionNamed? e name == some f) := by
  have hnamed := h.functionNamed? he name
  generalize w.functionNamed? e name = g, w'.functionNamed? e' name = g' at hnamed
  cases hnamed with
  | none => rfl
  | some hg => exact Value.Mirrors.beq_of_mirrors hg hf

namespace Session

/-- The functions of the class, if one is registered, see nothing of numbers. -/
def Operation.IsUniform : Operation → Prop
  | registerClass form => form.IsUniform
  | _ => True

/-- The answers are the same, but that rows of a debugger panel that share a name may have changed
places. -/
inductive Answer.Agrees : Answer → Answer → Prop
  | same (answer : Answer) : Agrees answer answer
  | panels {panel panel' : List DebugEntry} (h : PanelsAlike panel panel') :
    Agrees (.debug panel) (.debug panel')

variable {κ : Setting} {s s' : Session}

namespace Mirrors

variable (h : s.Mirrors κ ρ s') {e e' : Id .engine} (he : e.Mirrors ρ e')

include h he

/-! ### Definitions -/

lemma defineFunction {handle : String} (hown : κ.own (.function handle)) (name : String)
    (parameters : List String) :
    Agreeing κ ρ (s.defineFunction e handle name parameters)
      (s'.defineFunction e' handle name parameters) := by
  obtain ⟨ρ₁, hle, hf, hw⟩ := h.world.defineFunction he name parameters
  have hsignature : ((s'.world.defineFunction e' name parameters).2.function? _).map (·.signature) =
      ((s.world.defineFunction e name parameters).2.function? _).map (·.signature) :=
    optionRel_map_eq (hw.function? hf) fun _ _ hx => hx.signature
  have h₁ := h.withWorld hle hw
  refine ⟨ρ₁, hle, congrArg (fun x : Option String => Answer.text (x.getD "")) hsignature.symm, ?_⟩
  exact { h₁ with handles := { h₁.handles with functions := h₁.handles.functions.insert hown hf } }

lemma defineCallback {handle : String} (hown : κ.own (.callback handle)) (name : String)
    (parameters : List String) :
    ∃ ρ', ρ ≤ ρ' ∧ (s.defineCallback e handle name parameters).Mirrors κ ρ'
      (s'.defineCallback e' handle name parameters) := by
  obtain ⟨ρ₁, hle, hc, hw⟩ := h.world.defineCallback he name parameters
  have h₁ := h.withWorld hle hw
  exact ⟨ρ₁, hle,
    { h₁ with handles := { h₁.handles with callbacks := h₁.handles.callbacks.insert hown hc } }⟩

lemma declareSnippet {handle : String} (hown : κ.own (.snippet handle)) (d : SnippetDeclaration) :
    Agreeing κ ρ (s.declareSnippet e handle d) (s'.declareSnippet e' handle d) := by
  obtain ⟨ρ₁, hle, hx, hw⟩ := h.world.declareSnippet he d
  have h₁ := h.withWorld hle hw
  refine ⟨ρ₁, hle, congrArg (fun x => Answer.snippet (some x)) hx.1.symm, ?_⟩
  exact { h₁ with handles := { h₁.handles with snippets := h₁.handles.snippets.insert hown hx } }

omit he in
/-- Scripts are kept for the engine on both sides. -/
lemma capture {scripts scripts' : List Stmt} (hscripts : Stmts.Mirrors ρ scripts scripts') :
    (s.capture κ.engine scripts).Mirrors κ ρ (s'.capture κ.engine scripts') := by
  have hname : (κ.engine == κ.engine) = true := beq_self_eq_true κ.engine
  have hcaptured : Stmts.Mirrors ρ ((s.handles.captured.get? κ.engine).getD [])
      ((s'.handles.captured.get? κ.engine).getD []) := by
    have hget := h.handles.captured.get? hname
    generalize s.handles.captured.get? κ.engine = x, s'.handles.captured.get? κ.engine = x' at hget
    cases hget with
    | none => exact .nil
    | some hx => exact hx
  exact { h with handles := { h.handles with
    captured := h.handles.captured.insert hname (List.rel_append hcaptured hscripts) } }

lemma registerClass {form : ClassForm} (hform : form.IsUniform)
    (hoffers : ∀ handle ∈ form.handles, s.Offers κ.own handle) :
    Agreeing κ ρ (s.registerClass e κ.engine form) (s'.registerClass e' κ.engine form) := by
  have ht : StatementsMirror (s.Offers κ.own) ρ s.handles.statements s'.handles.statements :=
    h.offers.statement
  obtain ⟨ρ₁, hle₁, hc, hw₁⟩ :=
    form.mirrors_make (h.offers.valueScope he h.world) ht h.world hform hoffers
  have h₁ := (h.withWorld hle₁ hw₁).capture (Stmts.Mirrors.mono hle₁ (ht.captured form hoffers))
  obtain ⟨ρ₂, hle₂, ho, hw₂⟩ := hw₁.registerApiClass (he.mono hle₁) hc
  have hle := hle₁.trans hle₂
  exact ((h₁.withWorld hle₂ hw₂).answerValue (he.mono hle) (.native ho)).of_le hle

/-! ### Variables -/

lemma readRegister (name : String) :
    Agreeing κ ρ (s.readRegister e name) (s'.readRegister e' name) := by
  obtain ⟨ρ₁, hle, hn, hw⟩ := h.world.intern he name
  have h₁ := h.withWorld hle hw
  have he₁ := he.mono hle
  have hregister := (hw.engine he₁).register
  have hindex := hregister.index? hn
  refine Agree.of_le hle ?_
  unfold Session.readRegister bindWorld
  dsimp only
  rw [hindex]
  cases Register.index? _ _ with
  | none => exact h₁.agree _
  | some i => exact h₁.answerOption _ (h₁.snapshot? he₁ (hregister.get i))

lemma writeRegister (name : String) (form : ValueForm)
    (hoffers : ∀ handle ∈ form.handles, s.Offers κ.own handle) :
    ∃ ρ', ρ ≤ ρ' ∧ (s.writeRegister e name form).Mirrors κ ρ' (s'.writeRegister e' name form) := by
  obtain ⟨ρ₁, hle₁, hv, hw₁⟩ := mirrors_make h.offers he h.world form hoffers
  obtain ⟨ρ₂, hle₂, hi, hw₂⟩ := hw₁.declareRegister (he.mono hle₁) name
  have hle := hle₁.trans hle₂
  have hw := fun i => hw₂.setRegister (he.mono hle) i (hv.mono hle₂)
  refine ⟨ρ₂, hle, ?_⟩
  unfold Session.writeRegister make bindWorld modify
  dsimp only
  rw [← hi]
  exact h.withWorld hle (hw _)

lemma readGlobal (name : String) : Agreeing κ ρ (s.readGlobal e name) (s'.readGlobal e' name) := by
  obtain ⟨ρ₁, hle, hn, hw⟩ := h.world.intern he name
  have he₁ := he.mono hle
  exact ((h.withWorld hle hw).answerValue he₁ ((hw.engine he₁).globals.read hn)).of_le hle

lemma writeGlobal (name : String) (form : ValueForm)
    (hoffers : ∀ handle ∈ form.handles, s.Offers κ.own handle) :
    ∃ ρ', ρ ≤ ρ' ∧ (s.writeGlobal e name form).Mirrors κ ρ' (s'.writeGlobal e' name form) := by
  obtain ⟨ρ₁, hle₁, hv, hw₁⟩ := mirrors_make h.offers he h.world form hoffers
  obtain ⟨ρ₂, hle₂, hn, hw₂⟩ := hw₁.intern (he.mono hle₁) name
  have hle := hle₁.trans hle₂
  exact ⟨ρ₂, hle, h.withWorld hle (hw₂.setGlobal (he.mono hle) hn (hv.mono hle₂))⟩

lemma readReference {target target' : VarRef} (htarget : target.Mirrors ρ target') :
    s'.readReference e' target' = s.readReference e target := by
  have hout : Outcome.WorldMirrors _ Value.Mirrors ρ (target.get (.top e) s.world)
      (target'.get (.top e') s'.world) := h.world.get (.top he) htarget
  have hstate := target.get_readsOnly (.top e) s.world
  have hstate' := target'.get_readsOnly (.top e') s'.world
  unfold Session.readReference Action.attempt
  generalize target.get (.top e) s.world = out, target'.get (.top e') s'.world = out'
    at hout hstate hstate'
  cases hout with
  | done hle hv hw =>
    dsimp only [Outcome.state] at hstate hstate'
    subst hstate hstate'
    exact congrArg (Option.map Except.ok) ((h.withWorld hle hw).snapshot? (he.mono hle) hv)
  | failed hle error hw => rfl
  | unfinished w w' => rfl

lemma writeReference {target target' : VarRef} (htarget : target.Mirrors ρ target')
    (form : ValueForm) (hoffers : ∀ handle ∈ form.handles, s.Offers κ.own handle) :
    Agree κ (fun _ => Eq) ρ (s.writeReference e target form)
      (s'.writeReference e' target' form) := by
  obtain ⟨ρ₁, hle₁, hv, hw₁⟩ := mirrors_make h.offers he h.world form hoffers
  have hout : Outcome.WorldMirrors _ Renaming.Anything ρ₁ (target.set (.top e) _ _)
      (target'.set (.top e') _ _) := hw₁.set (.top (he.mono hle₁)) (htarget.mono hle₁) hv
  unfold Session.writeReference make
  dsimp only
  generalize target.set _ _ _ = out, target'.set _ _ _ = out' at hout
  cases hout with
  | done hle _ hw => exact ⟨_, hle₁.trans hle, rfl, h.withWorld (hle₁.trans hle) hw⟩
  | failed hle error hw => exact ⟨_, hle₁.trans hle, rfl, h.withWorld (hle₁.trans hle) hw⟩
  | unfinished w w' => exact ⟨ρ₁, hle₁, rfl, h.withWorld hle₁ hw₁⟩

lemma useReference {target target' : VarRef} (htarget : target.Mirrors ρ target')
    (value : Option ValueForm)
    (hoffers : ∀ handle ∈ (value.map (·.handles)).getD [], s.Offers κ.own handle) :
    Agreeing κ ρ (s.useReference e target value) (s'.useReference e' target' value) := by
  have hread {ρ₁ : Renaming} {t t' : Session} (hle : ρ ≤ ρ₁) (h₁ : t.Mirrors κ ρ₁ t')
      (written : Option (Except EvalError Unit)) : Agreeing κ ρ₁
      (t.answerOption
        (fun read => .reference ⟨target.nameText t.world e, target.isWritable, written, read⟩)
        (t.readReference e target))
      (t'.answerOption
        (fun read => .reference ⟨target'.nameText t'.world e', target'.isWritable, written, read⟩)
        (t'.readReference e' target')) := by
    rw [h₁.world.nameText (he.mono hle) (htarget.mono hle), htarget.isWritable]
    exact h₁.answerOption _ (h₁.readReference (he.mono hle) (htarget.mono hle))
  cases value with
  | none => exact hread le_rfl h none
  | some form =>
    obtain ⟨ρ₁, hle, hsame, h₁⟩ := h.writeReference he htarget form hoffers
    refine Agree.of_le hle ?_
    unfold Session.useReference
    dsimp only
    rw [← hsame]
    exact hread hle h₁ _

/-! ### Inspections -/

/-- Locals are read under names that are interned on both sides. -/
lemma readLocals {bag bag' : PropertyBag} (hbag : PropertyBag.Mirrors ρ bag bag')
    (names : List String) :
    Agree κ (fun _ => Eq) ρ (s.readLocals e bag names) (s'.readLocals e' bag' names) := by
  induction names generalizing ρ s s' with
  | nil => exact ⟨ρ, le_rfl, rfl, h⟩
  | cons name rest ih =>
    obtain ⟨ρ₁, hle₁, hn, hw⟩ := h.world.intern he name
    have h₁ := h.withWorld hle₁ hw
    have hbag₁ := hbag.mono hle₁
    have hfirst := h₁.snapshot? (he.mono hle₁) (hbag₁.read hn)
    obtain ⟨ρ₂, hle₂, hrest, h₂⟩ := ih h₁ (he.mono hle₁) hbag₁
    refine ⟨ρ₂, hle₁.trans hle₂, ?_, h₂⟩
    unfold Session.readLocals bindWorld
    dsimp only
    rw [← hfirst, ← hrest]

lemma functionInfo {handle : String} (hoffers : s.Offers κ.own (.function handle))
    (names : List String) :
    Agreeing κ ρ (s.functionInfo e handle names) (s'.functionInfo e' handle names) := by
  have hid := h.offers.function hoffers
  have hx := h.world.functionOrDefault hid
  obtain ⟨ρ₁, hle, hlocals, h₁⟩ := h.readLocals he hx.locals names
  have hx₁ := hx.mono hle
  have he₁ := he.mono hle
  have hid₁ := hid.mono hle
  refine Agree.of_le hle ?_
  unfold Session.functionInfo functionOf
  dsimp only
  generalize s.readLocals e _ names = x, s'.readLocals e' _ names = x' at hlocals h₁
  refine h₁.answerOption _ ?_
  rw [hlocals, h₁.snapshot? he₁ hx₁.lastResult, h₁.world.memory.debugInfo_function hx₁,
    h₁.world.lookup he₁ hx₁.name, h₁.world.isCurrent he₁ hid₁, hx₁.parameterNames, hx₁.signature,
    hx₁.comment, optionRel_isSome hx₁.body, hx₁.frame.isActive, hx₁.frame.activeCallText,
    hx₁.debugText]

lemma callbackInfo {handle : String} (hoffers : s.Offers κ.own (.callback handle))
    (names : List String) :
    Agreeing κ ρ (s.callbackInfo e handle names) (s'.callbackInfo e' handle names) := by
  have hx := h.world.callbackOrDefault (h.offers.callback hoffers)
  have hparameters := map_eq_of_forall₂ hx.parameters fun _ _ hn => h.world.lookup he hn
  obtain ⟨ρ₁, hle, hlocals, h₁⟩ := h.readLocals he hx.locals names
  refine Agree.of_le hle (h₁.answerOption _ ?_)
  unfold callbackOf
  rw [hlocals, hparameters, hx.displayName, hx.debugText]

omit he in
/-- The object calls in statements that mirror each other are resolved in the same cases. -/
lemma resolutionState {script script' : Stmt} (hscript : script.Mirrors ρ script') :
    s'.resolutionState script' = s.resolutionState script := by
  have hcall {a a' : Expr} (ha : a.Mirrors ρ a') :
      s'.resolutionState (.unlocated (.expr a')) = s.resolutionState (.unlocated (.expr a)) := by
    obtain ⟨l, hnode⟩ := ha
    cases hnode with
    | @objectCall site site' _ _ _ _ _ _ hsite =>
      exact congrArg some (optionRel_isSome (h.world.resolution? hsite))
    | _ => rfl
  obtain ⟨l, hnode⟩ := hscript
  cases hnode with
  | expr ha => exact hcall ha
  | returnValue ha =>
    cases ha with
    | none => rfl
    | some ha => exact hcall ha
  | _ => rfl

omit he in
/-- What is told of a statement that may not be there is the same. -/
lemma bind_resolutionState {script script' : Option Stmt}
    (hscript : Option.Rel (Stmt.Mirrors ρ) script script') :
    script'.bind s'.resolutionState = script.bind s.resolutionState := by
  cases hscript with
  | none => rfl
  | some hscript => exact h.resolutionState hscript

/-- A statement is performed in the same way. -/
lemma performStatement (bound : ℕ) {script script' : Stmt} (hscript : script.Mirrors ρ script') :
    Agreeing κ ρ (s.performStatement e bound script) (s'.performStatement e' bound script') := by
  have hout := ((Evaluator.respectsMirrors_shared bound).perform (.top he) hscript).run le_rfl
    (⟨h.world, .undefined⟩ : Activation.Mirrors _ ρ ⟨s.world, .undefined⟩ ⟨s'.world, .undefined⟩)
  change Outcome.Mirrors _ _ ρ
    (ScriptEngine.perform .shared bound (.top e) script ⟨s.world, .undefined⟩)
    (ScriptEngine.perform .shared bound (.top e') script' ⟨s'.world, .undefined⟩) at hout
  unfold Session.performStatement
  dsimp only
  generalize ScriptEngine.perform .shared bound (.top e) script ⟨s.world, .undefined⟩ = out,
    ScriptEngine.perform .shared bound (.top e') script' ⟨s'.world, .undefined⟩ = out' at hout
  have hfinish {ρ₁ : Renaming} {a a' : Activation World} (hle : ρ ≤ ρ₁)
      (ha : a.Mirrors κ.surroundings ρ₁ a') (result : Except EvalError Signal) := by
    have h₁ := h.withWorld hle ha.state
    exact (h₁.answerOption (.performed result) (h₁.snapshot? (he.mono hle) ha.returned)).of_le hle
  cases hout with
  | @done _ signal signal' _ _ hle hsignal ha =>
    subst hsignal
    exact hfinish hle ha (.ok signal)
  | failed hle error ha => exact hfinish hle ha (.error error)
  | unfinished a a' => exact h.agree _

omit he in
/-- Panels that show the same are shown. -/
lemma answerPanel {panel panel' : Option (List DebugEntry)}
    (hpanel : Option.Rel PanelsAlike panel panel') :
    Agree κ (fun _ => Answer.Agrees) ρ (s.answerOption .debug panel)
      (s'.answerOption .debug panel') := by
  cases hpanel with
  | none => exact ⟨ρ, le_rfl, .same _, h⟩
  | some hpanel => exact ⟨ρ, le_rfl, .panels hpanel, h⟩

/-! ### All operations -/

omit he in
/-- An operation on the engine alone, which uses and gives own handles, has the same answer, unless
it asks for the debugger panel. -/
theorem carryOut_of_ne_debug (bound : ℕ) {op : Operation} (hop : op.IsUniform)
    (hlocal : op.isLocal) (huses : ∀ handle ∈ op.uses, s.Offers κ.own handle)
    (hgives : ∀ handle ∈ op.gives, κ.own handle) (hdebug : op ≠ .debug) :
    Agreeing κ ρ (s.carryOut bound κ.engine op) (s'.carryOut bound κ.engine op) := by
  have he := h.engine
  have hr := Evaluator.respectsMirrors_shared (Γ := κ.surroundings) bound
  have hdone {t t' : Session} (ht : ∃ ρ', ρ ≤ ρ' ∧ t.Mirrors κ ρ' t') :
      Agreeing κ ρ (.done, t) (.done, t') := by
    obtain ⟨ρ', hle, hmirrors⟩ := ht
    exact ⟨ρ', hle, rfl, hmirrors⟩
  unfold Session.carryOut
  cases op with
  | newEngine | dropEngine | ticks => exact nomatch hlocal
  | registerClass form => exact h.registerClass he hop huses
  | keep id form =>
    obtain ⟨ρ₁, hle, hv, hw⟩ := mirrors_make h.offers he h.world form huses
    have h₁ := h.withWorld hle hw
    exact hdone ⟨ρ₁, hle, { h₁ with
      handles := { h₁.handles with values := h₁.handles.values.insert (hgives _ rfl) hv } }⟩
  | defineFunction handle name parameters =>
    exact h.defineFunction he (hgives _ rfl) name parameters
  | setFunctionBody handle form =>
    obtain ⟨hhandle, hform⟩ := List.forall_mem_cons.1 huses
    refine h.build (form.mirrors_bind h.offers he hform) fun hle hbody hw => ?_
    have hf := (h.offers.function hhandle).mono hle
    refine agree ?_ _
    exact h.withWorld hle (hw.modifyFunction hf fun _ _ hx => { hx with body := .some hbody })
  | setComment handle text =>
    have hf := h.offers.function (huses _ List.mem_cons_self)
    refine agree ?_ _
    exact h.withWorld le_rfl (h.world.modifyFunction hf fun _ _ hx => { hx with comment := rfl })
  | dropFunction handle =>
    have hown := (huses _ List.mem_cons_self).1
    exact hdone ⟨ρ, le_rfl, { h with
      handles := { h.handles with functions := h.handles.functions.erase hown } }⟩
  | defineCallback handle name parameters =>
    exact hdone (h.defineCallback he (hgives _ rfl) name parameters)
  | setCallbackBody handle form =>
    obtain ⟨hhandle, hform⟩ := List.forall_mem_cons.1 huses
    refine h.build (form.mirrors_bind h.offers he hform) fun hle hbody hw => ?_
    have hc := (h.offers.callback hhandle).mono hle
    refine agree ?_ _
    exact h.withWorld hle (hw.modifyCallback hc fun _ _ hx => { hx with body := .some hbody })
  | dropCallback handle =>
    have hown := (huses _ List.mem_cons_self).1
    exact hdone ⟨ρ, le_rfl, { h with
      handles := { h.handles with callbacks := h.handles.callbacks.erase hown } }⟩
  | declareSnippet handle d => exact h.declareSnippet he (hgives _ rfl) d
  | execute form =>
    refine h.build (form.mirrors_bind h.offers he huses) fun hle hscript hw => ?_
    exact (h.withWorld hle hw).answerResult (he.mono hle) (hr.execute (he.mono hle) hscript)
  | store id form =>
    refine h.build (form.mirrors_bind h.offers he huses) fun hle hscript hw => ?_
    have h₁ := h.withWorld hle hw
    refine agree ?_ _
    exact { h₁ with
      handles := { h₁.handles with
        statements := h₁.handles.statements.insert (hgives _ rfl) hscript } }
  | run id =>
    obtain ⟨hown, hheld⟩ := huses _ List.mem_cons_self
    exact h.answerResult he (hr.execute he (h.handles.statements.getD hown hheld))
  | dropStatement id =>
    have hown := (huses _ List.mem_cons_self).1
    exact hdone ⟨ρ, le_rfl, { h with
      handles := { h.handles with statements := h.handles.statements.erase hown } }⟩
  | isResolved id =>
    have hscript := h.offers.statement (huses _ List.mem_cons_self)
    dsimp only
    rw [h.bind_resolutionState hscript]
    exact h.agree _
  | evaluate form =>
    refine h.build (form.mirrors_bind h.offers he .unknown huses) fun hle ha hw => ?_
    exact (h.withWorld hle hw).answerResult (he.mono hle)
      (hr.evaluate (.top (he.mono hle)) ha)
  | perform form =>
    refine h.build (form.mirrors_bind h.offers he huses) fun hle hscript hw => ?_
    exact (h.withWorld hle hw).performStatement (he.mono hle) bound hscript
  | call name forms =>
    obtain ⟨ρ₁, hle, hargs, hw⟩ := mirrors_makeAll h.offers he h.world forms huses
    exact ((h.withWorld hle hw).answerResult (he.mono hle)
      (hr.callNamed (he.mono hle) name hargs)).of_le hle
  | invoke name forms =>
    obtain ⟨ρ₁, hle, hargs, hw⟩ := mirrors_makeAll h.offers he h.world forms huses
    exact ((h.withWorld hle hw).answerResult (he.mono hle)
      (hr.invokeNamed (he.mono hle) name hargs)).of_le hle
  | declareRegister name =>
    obtain ⟨ρ₁, hle, hslot, hw⟩ := h.world.declareRegister he name
    exact ⟨ρ₁, hle, congrArg Answer.number hslot, h.withWorld hle hw⟩
  | readRegister name => exact h.readRegister he name
  | writeRegister name form => exact hdone (h.writeRegister he name form huses)
  | readGlobal name => exact h.readGlobal he name
  | writeGlobal name form => exact hdone (h.writeGlobal he name form huses)
  | useReference form value =>
    obtain ⟨hform, hvalue⟩ := List.forall_mem_append.1 huses
    refine h.build (form.mirrors_bind h.offers he hform) fun hle htarget hw => ?_
    exact (h.withWorld hle hw).useReference (he.mono hle) htarget value hvalue
  | output =>
    dsimp only
    rw [h.world.memory.printer (h.world.engine he).printer]
    exact h.agree _
  | clearOutput =>
    have hm := h.world.memory.usePrinter (h.world.engine he).printer (·.clear)
    refine agree ?_ _
    exact h.withWorld le_rfl (h.world.withMemory (.refl ρ) hm)
  | reports =>
    dsimp only
    rw [(h.world.engine he).reporter]
    exact h.agree _
  | drainReports =>
    dsimp only
    rw [(h.world.engine he).reporter]
    refine agree ?_ _
    exact h.withWorld le_rfl (h.world.modifyEngine he fun _ _ hx =>
      { hx with reporter := congrArg Reporter.clear hx.reporter })
  | debug => exact absurd rfl hdebug
  | engineInfo =>
    have hx := h.world.engine he
    dsimp only
    rw [hx.debugText, hx.configText, hx.maxCallDepth]
    exact h.agree _
  | functionInfo handle names => exact h.functionInfo he (huses _ List.mem_cons_self) names
  | callbackInfo handle names => exact h.callbackInfo he (huses _ List.mem_cons_self) names
  | snippetInfo name =>
    dsimp only
    rw [h.world.snippetNamed? he name]
    exact h.agree _

omit he in
/-- An operation on the engine alone, which uses and gives own handles, has answers that agree. -/
theorem carryOut (bound : ℕ) {op : Operation} (hop : op.IsUniform) (hlocal : op.isLocal)
    (huses : ∀ handle ∈ op.uses, s.Offers κ.own handle)
    (hgives : ∀ handle ∈ op.gives, κ.own handle) :
    Agree κ (fun _ => Answer.Agrees) ρ (s.carryOut bound κ.engine op)
      (s'.carryOut bound κ.engine op) := by
  by_cases hdebug : op = .debug
  · subst hdebug
    exact h.answerPanel (h.world.debugEntries? h.engine _ _)
  · obtain ⟨ρ₁, hle, hanswer, h₁⟩ := h.carryOut_of_ne_debug bound hop hlocal huses hgives hdebug
    exact ⟨ρ₁, hle, hanswer ▸ .same _, h₁⟩

end Mirrors

end Session

end ScriptEngine
