import ScriptEngine.Proofs.Mentions
import ScriptEngine.Proofs.MirroredBehaviours

/-!
# Mirrored forms

What a host writes down is made into values, classes and trees.  Two hosts that write down the same,
and whose handles refer to things that mirror each other, get values, classes and trees that mirror
each other, or the same refusal; the only handles that matter are those that the form mentions.

Main statements: `ValueForm.mirrors_make`, `ClassForm.mirrors_make` and `StmtForm.mirrors_bind`.
-/

namespace ScriptEngine.Session

variable {Γ : Surroundings} {ρ ρ' : Renaming} {P : Handle → Prop}

/-! ### Values -/

/-- The scopes find values and classes that mirror each other, as far as `P` allows. -/
structure ValueScope.Mirrors (P : Handle → Prop) (ρ : Renaming) (scope scope' : ValueScope) :
    Prop where
  interner : scope.interner = ρ.own
  interner' : scope'.interner = ρ.shared
  apiClass? : ∀ name,
    Option.Rel (NativeRef.Mirrors ρ) (scope.apiClass? name) (scope'.apiClass? name)
  kept : ∀ {id}, P (.value id) →
    ((scope.kept? id).getD .undefined).Mirrors ρ ((scope'.kept? id).getD .undefined)

lemma ValueScope.Mirrors.mono {scope scope' : ValueScope} (h : scope.Mirrors P ρ scope')
    (hle : ρ ≤ ρ') : scope.Mirrors P ρ' scope' where
  interner := h.interner.trans hle.1.1.symm
  interner' := h.interner'.trans hle.1.2.1.symm
  apiClass? name := optionRel_imp (h.apiClass? name) fun _ _ ho => ho.mono hle
  kept hid := (h.kept hid).mono hle

/-- A property is interned on both sides. -/
lemma ValueScope.Mirrors.intern {scope scope' : ValueScope} (h : scope.Mirrors P ρ scope')
    {w w' : World} (hw : w.Mirrors Γ ρ w') (name : String) :
    ∃ ρ', ρ ≤ ρ' ∧
      (w.memory.intern scope.interner name).1.Mirrors ρ' (w'.memory.intern scope'.interner name).1 ∧
      World.Mirrors Γ ρ' { w with memory := (w.memory.intern scope.interner name).2 }
        { w' with memory := (w'.memory.intern scope'.interner name).2 } := by
  obtain ⟨ρ', hgrows, hn, hm⟩ := hw.memory.intern name
  rw [h.interner, h.interner']
  exact ⟨ρ', hgrows.le, hn, hw.withMemory hgrows hm⟩

/-- An allocation on both sides. -/
lemma agree_allocate {w w' : World} (hw : w.Mirrors Γ ρ w') {make make' : Memory → Value × Memory}
    (hmake : ∃ ρ', ρ.GrowsInMemory ρ' ∧ (make w.memory).1.Mirrors ρ' (make' w'.memory).1 ∧
      (make w.memory).2.Mirrors Γ ρ' (make' w'.memory).2) :
    World.Agree Γ Value.Mirrors ρ (w.allocate make) (w'.allocate make') := by
  obtain ⟨ρ', hgrows, hv, hm⟩ := hmake
  exact ⟨ρ', hgrows.le, hv, hw.withMemory hgrows hm⟩

mutual

/-- Values that are written down in the same way mirror each other. -/
theorem ValueForm.mirrors_make {ρ : Renaming} {scope scope' : ValueScope}
    (hscope : scope.Mirrors P ρ scope') {w w' : World} (hw : w.Mirrors Γ ρ w') :
    ∀ form : ValueForm, (∀ handle ∈ form.handles, P handle) →
      World.Agree Γ Value.Mirrors ρ (form.make scope w) (form.make scope' w')
  | .undefined, _ => ⟨ρ, le_rfl, .undefined, hw⟩
  | .bool b, _ => ⟨ρ, le_rfl, .bool b, hw⟩
  | .number x, _ => ⟨ρ, le_rfl, .number x, hw⟩
  | .string s, _ => ⟨ρ, le_rfl, .string s, hw⟩
  | .array items, hP => by
    obtain ⟨ρ₁, hle₁, hvs, hw₁⟩ := mirrors_makeValues hscope hw items hP
    exact World.Agree.of_le hle₁ (agree_allocate hw₁ (hw₁.memory.newArray hvs))
  | .object properties, hP => by
    obtain ⟨ρ₁, hle₁, hbag, hw₁⟩ := mirrors_makeProperties hscope hw .empty properties hP
    exact World.Agree.of_le hle₁ (agree_allocate hw₁ (hw₁.memory.newObject hbag))
  | .newNative className, _ => by
    obtain ⟨ρ₁, hle₁, ho, hw₁⟩ := hw.addNative (.named className)
    exact ⟨ρ₁, hle₁, .native ho, hw₁⟩
  | .apiClass name, _ => by
    refine ⟨ρ, le_rfl, ?_, hw⟩
    have hclass := hscope.apiClass? name
    unfold ValueForm.make
    generalize scope.apiClass? name = o, scope'.apiClass? name = o' at hclass
    cases hclass with
    | none => exact .undefined
    | some ho => exact .native ho
  | .kept id, hP => ⟨ρ, le_rfl, hscope.kept (hP _ List.mem_cons_self), hw⟩

theorem mirrors_makeValues {ρ : Renaming} {scope scope' : ValueScope}
    (hscope : scope.Mirrors P ρ scope') {w w' : World} (hw : w.Mirrors Γ ρ w') :
    ∀ forms : List ValueForm, (∀ handle ∈ handlesOfValues forms, P handle) →
      World.Agree Γ Values.Mirrors ρ (makeValues scope w forms) (makeValues scope' w' forms)
  | [], _ => ⟨ρ, le_rfl, .nil, hw⟩
  | form :: rest, hP => by
    obtain ⟨hform, hrest⟩ := List.forall_mem_append.1 hP
    obtain ⟨ρ₁, hle₁, hv, hw₁⟩ := form.mirrors_make hscope hw hform
    obtain ⟨ρ₂, hle₂, hvs, hw₂⟩ := mirrors_makeValues (hscope.mono hle₁) hw₁ rest hrest
    exact ⟨ρ₂, hle₁.trans hle₂, .cons (hv.mono hle₂) hvs, hw₂⟩

theorem mirrors_makeProperties {ρ : Renaming} {scope scope' : ValueScope}
    (hscope : scope.Mirrors P ρ scope') {w w' : World} (hw : w.Mirrors Γ ρ w')
    {bag bag' : PropertyBag} (hbag : PropertyBag.Mirrors ρ bag bag') :
    ∀ forms : List (String × ValueForm), (∀ handle ∈ handlesOfValueProperties forms, P handle) →
      World.Agree Γ PropertyBag.Mirrors ρ (makeProperties scope w bag forms)
        (makeProperties scope' w' bag' forms)
  | [], _ => ⟨ρ, le_rfl, hbag, hw⟩
  | (name, form) :: rest, hP => by
    obtain ⟨hform, hrest⟩ := List.forall_mem_append.1 hP
    obtain ⟨ρ₁, hle₁, hn, hw₁⟩ := hscope.intern hw name
    obtain ⟨ρ₂, hle₂, hv, hw₂⟩ := form.mirrors_make (hscope.mono hle₁) hw₁ hform
    have hle := hle₁.trans hle₂
    exact World.Agree.of_le hle (mirrors_makeProperties (hscope.mono hle) hw₂
      ((hbag.mono hle).insert (hn.mono hle₂) hv) rest hrest)

end

/-! ### Classes -/

/-- The handles of a property are among those of the properties. -/
lemma mem_handlesOfValueProperties {forms : List (String × ValueForm)} {form : String × ValueForm}
    {handle : Handle} (hform : form ∈ forms) (h : handle ∈ form.2.handles) :
    handle ∈ handlesOfValueProperties forms := by
  induction forms with
  | nil => exact absurd hform List.not_mem_nil
  | cons first rest ih =>
    rcases List.mem_cons.1 hform with rfl | hrest
    · exact List.mem_append_left _ h
    · exact List.mem_append_right _ (ih hrest)

/-- If one thing can be added to classes, a list of things can. -/
lemma agree_foldl {α : Type} {step step' : Host.ApiClass × World → α → Host.ApiClass × World}
    {as : List α}
    (hstep : ∀ a ∈ as, ∀ {ρ' : Renaming} {x x' : Host.ApiClass × World}, ρ ≤ ρ' →
      x.1.Mirrors ρ' x'.1 → x.2.Mirrors Γ ρ' x'.2 →
      World.Agree Γ Host.ApiClass.Mirrors ρ' (step x a) (step' x' a))
    {x x' : Host.ApiClass × World} (hx : World.Agree Γ Host.ApiClass.Mirrors ρ x x') :
    World.Agree Γ Host.ApiClass.Mirrors ρ (as.foldl step x) (as.foldl step' x') := by
  induction as generalizing x x' with
  | nil => exact hx
  | cons a rest ih =>
    obtain ⟨ρ₁, hle₁, hc₁, hw₁⟩ := hx
    exact ih (fun b hb => hstep b (List.mem_cons_of_mem a hb))
      (World.Agree.of_le hle₁ (hstep a List.mem_cons_self hle₁ hc₁ hw₁))

/-- The functions of the class see nothing of numbers. -/
def ClassForm.IsUniform (form : ClassForm) : Prop :=
  ∀ f ∈ form.functions, f.2.2.IsUniform

/-- The statements that are kept under a name mirror each other, as far as `P` allows. -/
def StatementsMirror (P : Handle → Prop) (ρ : Renaming) (t t' : Table Stmt) : Prop :=
  ∀ {name}, P (.statement name) → OptionStmt.Mirrors ρ (t.get? name) (t'.get? name)

/-- Functions of the same behaviour capture scripts that mirror each other. -/
lemma StatementsMirror.scriptsIn {t t' : Table Stmt} (ht : StatementsMirror P ρ t t')
    (b : Behaviour) (hP : ∀ handle ∈ b.handles, P handle) :
    Stmts.Mirrors ρ (b.scriptsIn t) (b.scriptsIn t') := by
  refine List.forall₂_map_left_iff.2 (List.forall₂_map_right_iff.2 ?_)
  refine List.forall₂_same.2 fun id hid => ?_
  have hscript := ht (hP _ (List.mem_append_right _ (List.mem_map_of_mem hid)))
  generalize t.get? id = s, t'.get? id = s' at hscript
  cases hscript with
  | none => exact .mk .unknown .breakLoop
  | some hs => exact hs

/-- Classes of the same form capture scripts that mirror each other. -/
lemma StatementsMirror.captured {t t' : Table Stmt} (ht : StatementsMirror P ρ t t')
    (form : ClassForm) (hP : ∀ handle ∈ form.handles, P handle) :
    Stmts.Mirrors ρ (form.captured t) (form.captured t') := by
  have hfunctions (f) (hf : f ∈ form.functions) : ∀ handle ∈ f.2.2.handles, P handle :=
    fun handle hhandle => hP handle (List.mem_append_left _ (List.mem_flatMap.2 ⟨f, hf, hhandle⟩))
  unfold ClassForm.captured
  generalize form.functions = fs at hfunctions
  induction fs with
  | nil => exact .nil
  | cons f rest ih =>
    obtain ⟨hf, hrest⟩ := List.forall_mem_cons.1 hfunctions
    exact List.rel_append (ht.scriptsIn f.2.2 hf) (ih hrest)

/-- Classes that are written down in the same way mirror each other. -/
theorem ClassForm.mirrors_make {scope scope' : ValueScope} (hscope : scope.Mirrors P ρ scope')
    {t t' : Table Stmt} (ht : StatementsMirror P ρ t t') {w w' : World} (hw : w.Mirrors Γ ρ w')
    {form : ClassForm} (hform : form.IsUniform) (hP : ∀ handle ∈ form.handles, P handle) :
    World.Agree Γ Host.ApiClass.Mirrors ρ (form.make scope w t) (form.make scope' w' t') := by
  obtain ⟨hfunctions, hconstants⟩ := List.forall_mem_append.1 hP
  refine agree_foldl (fun c hmem _ x x' hle hc hw => ?_)
    (agree_foldl (fun f hmem _ x x' hle hc hw => ?_) ⟨ρ, le_rfl, .named form.name, hw⟩)
  · have hscope := hscope.mono hle
    obtain ⟨ρ₁, hle₁, hv, hw₁⟩ := c.2.mirrors_make hscope hw fun handle hhandle =>
      hconstants handle (mem_handlesOfValueProperties hmem hhandle)
    obtain ⟨ρ₂, hle₂, hn, hw₂⟩ := (hscope.mono hle₁).intern hw₁ c.1
    have hle := hle₁.trans hle₂
    exact ⟨ρ₂, hle, (hc.mono hle).addConstant hn (hv.mono hle₂), hw₂⟩
  · have hhandles (handle) (hhandle : handle ∈ f.2.2.handles) : P handle :=
      hfunctions handle (List.mem_flatMap.2 ⟨f, hmem, hhandle⟩)
    obtain ⟨ρ₁, hle₁, hn, hw₁⟩ := (hscope.mono hle).intern hw f.1
    obtain ⟨ρ₂, hgrows₂, hcounter, hne, hm₂⟩ := hw₁.memory.newCounter
    have hle₂ := hgrows₂.le
    have hscope₂ := hscope.mono (hle.trans (hle₁.trans hle₂))
    obtain ⟨ρ₃, hle₃, hvalues, hw₃⟩ := mirrors_makeValues hscope₂ (hw₁.withMemory hgrows₂ hm₂)
      f.2.2.values fun handle hhandle => hhandles handle (List.mem_append_left _ hhandle)
    have hscope₃ := hscope₂.mono hle₃
    have hscripts := Stmts.Mirrors.mono (hle.trans (hle₁.trans (hle₂.trans hle₃)))
      (ht.scriptsIn f.2.2 hhandles)
    have hcaptures : Captures.Mirrors ρ₃ ⟨scope.interner, _, _, f.2.2.scriptsIn t⟩
        ⟨scope'.interner, _, _, f.2.2.scriptsIn t'⟩ :=
      { interner := hscope₃.interner
        interner' := hscope₃.interner'
        counter := hcounter.mono hle₃
        counter_ne := (hle₂.trans hle₃).1.2.2.symm ▸ hne
        values := hvalues
        scripts := hscripts }
    have hle := hle₁.trans (hle₂.trans hle₃)
    exact ⟨ρ₃, hle, (hc.mono hle).addFunction (hn.mono (hle₂.trans hle₃)) f.2.1
      (Behaviour.mirrors_body hcaptures (hform f hmem)), hw₃⟩

/-! ### Building -/

/-- The parts of trees are built in the same way: they are related, or refused with the same
error. -/
structure Build.Mirrors (Γ : Surroundings) {α α' : Type} (R : Renaming → α → α' → Prop)
    (ρ : Renaming) (b : Build α) (b' : Build α') : Prop where
  run : ∀ {ρ' w w'}, ρ ≤ ρ' → World.Mirrors Γ ρ' w w' →
    World.Agree Γ (fun ρ => ExceptRel (R ρ)) ρ' (b w) (b' w')

namespace Build.Mirrors

variable {α α' β β' : Type} {R : Renaming → α → α' → Prop} {Q : Renaming → β → β' → Prop}

lemma mono {b : Build α} {b' : Build α'} (h : Mirrors Γ R ρ b b') (hle : ρ ≤ ρ') :
    Mirrors Γ R ρ' b b' :=
  ⟨fun hle' hw => h.run (hle.trans hle') hw⟩

lemma pure {a : α} {a' : α'} (ha : ∀ {ρ'}, ρ ≤ ρ' → R ρ' a a') :
    Mirrors Γ R ρ (Pure.pure a) (Pure.pure a') :=
  ⟨fun hle hw => ⟨_, le_rfl, .ok (ha hle), hw⟩⟩

/-- What is built later is built with what was built first. -/
lemma bind {b : Build α} {b' : Build α'} (hb : Mirrors Γ R ρ b b') {f : α → Build β}
    {f' : α' → Build β'}
    (hf : ∀ {ρ' a a'}, ρ ≤ ρ' → R ρ' a a' → Mirrors Γ Q ρ' (f a) (f' a')) :
    Mirrors Γ Q ρ (b >>= f) (b' >>= f') := by
  have happly {α β : Type} (b : Build α) (f : α → Build β) (w : World) :
      (b >>= f) w = (ExceptT.bindCont f (b w).1 : StateM World _) (b w).2 := rfl
  refine ⟨fun {ρ₁ w w'} hle hw => ?_⟩
  obtain ⟨ρ₂, hle₂, hresult, hw₂⟩ := hb.run hle hw
  rw [happly, happly]
  generalize b w = x, b' w' = x' at hresult hw₂
  obtain ⟨result, w₂⟩ := x
  obtain ⟨result', w₂'⟩ := x'
  cases hresult with
  | ok ha => exact World.Agree.of_le hle₂ ((hf (hle.trans hle₂) ha).run le_rfl hw₂)
  | error e => exact ⟨ρ₂, hle₂, .error e, hw₂⟩

lemma always {f : World → α × World} {f' : World → α' × World}
    (hf : ∀ {ρ' w w'}, ρ ≤ ρ' → World.Mirrors Γ ρ' w w' → World.Agree Γ R ρ' (f w) (f' w')) :
    Mirrors Γ R ρ (Build.always f) (Build.always f') := by
  refine ⟨fun hle hw => ?_⟩
  obtain ⟨ρ₂, hle₂, ha, hw₂⟩ := hf hle hw
  exact ⟨ρ₂, hle₂, .ok ha, hw₂⟩

lemma binding {f : World → Except EvalError α × World} {f' : World → Except EvalError α' × World}
    (hR : ∀ {ρ ρ' a a'}, R ρ a a' → ρ ≤ ρ' → R ρ' a a')
    (hf : ∀ {ρ' w w'}, ρ ≤ ρ' → World.Mirrors Γ ρ' w w' →
      World.Agree Γ (fun ρ => ExceptRel (R ρ)) ρ' (f w) (f' w')) :
    Mirrors Γ R ρ (Build.binding f) (Build.binding f') := by
  refine bind (always hf) fun _ hresult => ?_
  cases hresult with
  | ok ha => exact pure fun hle => hR ha hle
  | error e => exact ⟨fun _ hw => ⟨_, le_rfl, .error _, hw⟩⟩

lemma parameter {f f' : World → Option VarRef}
    (hf : ∀ {ρ' w w'}, ρ ≤ ρ' → World.Mirrors Γ ρ' w w' →
      Option.Rel (VarRef.Mirrors ρ') (f w) (f' w')) :
    Mirrors Γ VarRef.Mirrors ρ (Build.parameter f) (Build.parameter f') := by
  have happly (f : World → Option VarRef) (w : World) : Build.parameter f w =
      ((f w).elim (.error .noSuchParameter) .ok, w) := by
    have hget (k : World → Build VarRef) : (get >>= k) w = k w w := rfl
    rw [Build.parameter, hget]
    cases f w <;> rfl
  refine ⟨fun {ρ₁ w w'} hle hw => ?_⟩
  have hrel := hf hle hw
  rw [happly, happly]
  generalize f w = target, f' w' = target' at hrel
  cases hrel with
  | none => exact ⟨ρ₁, le_rfl, .error _, hw⟩
  | some htarget => exact ⟨ρ₁, le_rfl, .ok htarget, hw⟩

end Build.Mirrors

/-! ### Trees -/

/-- The handles refer to things that mirror each other, as far as `P` allows. -/
structure Handles.Mirrors (P : Handle → Prop) (ρ : Renaming) (h h' : Handles) : Prop where
  function : ∀ {name}, P (.function name) →
    ((h.functions.get? name).getD default).Mirrors ρ ((h'.functions.get? name).getD default)
  callback : ∀ {name}, P (.callback name) →
    ((h.callbacks.get? name).getD default).Mirrors ρ ((h'.callbacks.get? name).getD default)
  snippet : ∀ {name}, P (.snippet name) →
    (h'.snippets.get? name).getD default = (h.snippets.get? name).getD default ∧
      ((h.snippets.get? name).getD default).IsUniform ρ.clock
  statement : ∀ {name}, P (.statement name) →
    OptionStmt.Mirrors ρ (h.statements.get? name) (h'.statements.get? name)
  value : ∀ {name}, P (.value name) →
    ((h.values.get? name).getD .undefined).Mirrors ρ ((h'.values.get? name).getD .undefined)

lemma Handles.Mirrors.mono {h h' : Handles} (hh : h.Mirrors P ρ h') (hle : ρ ≤ ρ') :
    h.Mirrors P ρ' h' where
  function hP := (hh.function hP).mono hle
  callback hP := (hh.callback hP).mono hle
  snippet hP := ⟨(hh.snippet hP).1, hle.1.2.2.symm ▸ (hh.snippet hP).2⟩
  statement hP := OptionStmt.Mirrors.mono hle (hh.statement hP)
  value hP := (hh.value hP).mono hle

/-- What a value that is made for an engine is made from. -/
lemma Handles.Mirrors.valueScope {h h' : Handles} (hh : h.Mirrors P ρ h') {e e' : Id .engine}
    (he : e.Mirrors ρ e') {w w' : World} (hw : w.Mirrors Γ ρ w') :
    (h.valueScope w e).Mirrors P ρ (h'.valueScope w' e') where
  interner := (hw.engine he).interner
  interner' := (hw.engine he).interner'
  apiClass? := hw.apiClassNamed? he
  kept := hh.value

section Trees

variable {h h' : Handles} (hh : h.Mirrors P ρ h') {e e' : Id .engine} (he : e.Mirrors ρ e')

include hh he

/-- Values are made for engines that mirror each other. -/
lemma mirrors_make {w w' : World} (hw : w.Mirrors Γ ρ w') (form : ValueForm)
    (hP : ∀ handle ∈ form.handles, P handle) :
    World.Agree Γ Value.Mirrors ρ (h.make e form w) (h'.make e' form w') :=
  form.mirrors_make (hh.valueScope he hw) hw hP

lemma mirrors_makeAll {w w' : World} (hw : w.Mirrors Γ ρ w') (forms : List ValueForm)
    (hP : ∀ handle ∈ handlesOfValues forms, P handle) :
    World.Agree Γ Values.Mirrors ρ (h.makeAll e forms w) (h'.makeAll e' forms w') :=
  mirrors_makeValues (hh.valueScope he hw) hw forms hP

omit hh in
lemma mirrors_intern (name : String) :
    Build.Mirrors Γ Name.Mirrors ρ (.always (·.intern e name)) (.always (·.intern e' name)) :=
  .always fun hle hw => hw.intern (he.mono hle) name

/-- Variables that are written down in the same way mirror each other. -/
theorem RefForm.mirrors_bind (form : RefForm) (hP : ∀ handle ∈ form.handles, P handle) :
    Build.Mirrors Γ VarRef.Mirrors ρ (form.bind h e) (form.bind h' e') := by
  cases form with
  | register name => exact .always fun hle hw => hw.registerRef (he.mono hle) name
  | global name => exact .always fun hle hw => hw.globalRef (he.mono hle) name
  | functionLocal handle name =>
    have hf := hh.function (hP _ List.mem_cons_self)
    refine Build.Mirrors.bind (mirrors_intern he name) fun hle hn => ?_
    exact .pure fun hle' => .functionLocal ((hf.mono hle).mono hle') (hn.mono hle')
  | callbackLocal handle name =>
    have hc := hh.callback (hP _ List.mem_cons_self)
    refine Build.Mirrors.bind (mirrors_intern he name) fun hle hn => ?_
    exact .pure fun hle' => .callbackLocal ((hc.mono hle).mono hle') (hn.mono hle')
  | parameter handle index =>
    have hf := hh.function (hP _ List.mem_cons_self)
    exact .parameter fun hle hw => hw.parameterRef? (hf.mono hle) index
  | callbackParameter handle index =>
    have hc := hh.callback (hP _ List.mem_cons_self)
    exact .parameter fun hle hw => hw.callbackParameterRef? (hc.mono hle) index

end Trees

/-- An expression without a place in the script. -/
lemma mirrors_unlocated {node node' : ExprNode} (hnode : node.Mirrors ρ node') :
    (Expr.unlocated node).Mirrors ρ (.unlocated node') :=
  .mk _ hnode

/-- What binds a call. -/
lemma mirrors_binding {f f' : World → Except EvalError Expr × World}
    (hf : ∀ {ρ' w w'}, ρ ≤ ρ' → World.Mirrors Γ ρ' w w' →
      World.Mirrors.AgreeOnCall Γ ρ' (f w) (f' w')) :
    Build.Mirrors Γ Expr.Mirrors ρ (.binding f) (.binding f') :=
  .binding (fun he hle => he.mono hle) hf

mutual

/-- Expressions that are written down in the same way mirror each other. -/
theorem ExprForm.mirrors_bind {ρ : Renaming} {h h' : Handles} (hh : h.Mirrors P ρ h')
    {e e' : Id .engine} (he : e.Mirrors ρ e') (l : Location) :
    ∀ form : ExprForm, (∀ handle ∈ form.handles, P handle) →
      Build.Mirrors Γ Expr.Mirrors ρ (form.bind h e l) (form.bind h' e' l)
  | .literal value, hP => by
    refine Build.Mirrors.bind (.always fun hle hw =>
      mirrors_make (hh.mono hle) (he.mono hle) hw value hP) fun _ hv => ?_
    exact .pure fun hle => mirrors_unlocated (.literal (hv.mono hle))
  | .var target, hP => by
    refine Build.Mirrors.bind (target.mirrors_bind hh he hP) fun _ htarget => ?_
    exact .pure fun hle => mirrors_unlocated (.var (htarget.mono hle))
  | .located l form, hP => by
    refine Build.Mirrors.bind (form.mirrors_bind hh he l hP) fun _ ha => ?_
    exact .pure fun hle => by
      obtain ⟨_, hnode⟩ := ha.mono hle
      exact .mk l hnode
  | .assign target op value, hP => by
    obtain ⟨htarget, hvalue⟩ := List.forall_mem_append.1 hP
    refine Build.Mirrors.bind (target.mirrors_bind hh he htarget) fun hle htarget => ?_
    refine Build.Mirrors.bind ((value.mirrors_bind hh he .unknown hvalue).mono hle)
      fun hle' hv => ?_
    exact .pure fun hle'' =>
      mirrors_unlocated (.assign ((htarget.mono hle').mono hle'') op (hv.mono hle''))
  | .binary op left right, hP => by
    obtain ⟨hleft, hright⟩ := List.forall_mem_append.1 hP
    refine Build.Mirrors.bind (left.mirrors_bind hh he .unknown hleft) fun hle ha => ?_
    refine Build.Mirrors.bind ((right.mirrors_bind hh he .unknown hright).mono hle)
      fun hle' hb => ?_
    exact .pure fun hle'' =>
      mirrors_unlocated (.binary op ((ha.mono hle').mono hle'') (hb.mono hle''))
  | .logical op left right, hP => by
    obtain ⟨hleft, hright⟩ := List.forall_mem_append.1 hP
    refine Build.Mirrors.bind (left.mirrors_bind hh he .unknown hleft) fun hle ha => ?_
    refine Build.Mirrors.bind ((right.mirrors_bind hh he .unknown hright).mono hle)
      fun hle' hb => ?_
    exact .pure fun hle'' =>
      mirrors_unlocated (.logical op ((ha.mono hle').mono hle'') (hb.mono hle''))
  | .unary op operand, hP => by
    refine Build.Mirrors.bind (operand.mirrors_bind hh he .unknown hP) fun _ ha => ?_
    exact .pure fun hle => mirrors_unlocated (.unary op (ha.mono hle))
  | .conditional condition consequent alternative, hP => by
    obtain ⟨hfirst, halternative⟩ := List.forall_mem_append.1 hP
    obtain ⟨hcondition, hconsequent⟩ := List.forall_mem_append.1 hfirst
    refine Build.Mirrors.bind (condition.mirrors_bind hh he .unknown hcondition) fun hle ha => ?_
    refine Build.Mirrors.bind ((consequent.mirrors_bind hh he .unknown hconsequent).mono hle)
      fun hle' hb => ?_
    refine Build.Mirrors.bind
      ((alternative.mirrors_bind hh he .unknown halternative).mono (hle.trans hle'))
      fun hle'' hc => ?_
    exact .pure fun hle => mirrors_unlocated
      (.conditional (((ha.mono hle').mono hle'').mono hle) ((hb.mono hle'').mono hle) (hc.mono hle))
  | .array items, hP => by
    refine Build.Mirrors.bind (mirrors_bindAll hh he items hP) fun _ hes => ?_
    exact .pure fun hle => mirrors_unlocated (.array (Exprs.Mirrors.mono hle hes))
  | .object properties, hP => by
    refine Build.Mirrors.bind (mirrors_bindProperties hh he properties hP) fun _ hps => ?_
    exact .pure fun hle => mirrors_unlocated (.object (Properties.Mirrors.mono hle hps))
  | .member object property, hP => by
    refine Build.Mirrors.bind (object.mirrors_bind hh he .unknown hP) fun hle ho => ?_
    refine Build.Mirrors.bind ((mirrors_intern he property).mono hle) fun hle' hn => ?_
    exact .pure fun hle'' => mirrors_unlocated (.member ((ho.mono hle').mono hle'') (hn.mono hle''))
  | .index object index, hP => by
    obtain ⟨hobject, hindex⟩ := List.forall_mem_append.1 hP
    refine Build.Mirrors.bind (object.mirrors_bind hh he .unknown hobject) fun hle ho => ?_
    refine Build.Mirrors.bind ((index.mirrors_bind hh he .unknown hindex).mono hle)
      fun hle' hi => ?_
    exact .pure fun hle'' => mirrors_unlocated (.index ((ho.mono hle').mono hle'') (hi.mono hle''))
  | .call handle args, hP => by
    obtain ⟨hhandle, hargs⟩ := List.forall_mem_cons.1 hP
    refine Build.Mirrors.bind (mirrors_bindAll hh he args hargs) fun hle hes => ?_
    exact mirrors_binding fun hle' hw => hw.bindCall ((he.mono hle).mono hle')
      (((hh.function hhandle).mono hle).mono hle') (Exprs.Mirrors.mono hle' hes) l
  | .apiCall className function args, hP => by
    refine Build.Mirrors.bind (mirrors_bindAll hh he args hP) fun hle hes => ?_
    exact mirrors_binding fun hle' hw => hw.bindApiCall ((he.mono hle).mono hle') className function
      (Exprs.Mirrors.mono hle' hes) l
  | .constant className name, _ =>
    mirrors_binding fun hle hw => hw.bindConstant (he.mono hle) className name l
  | .objectCall target function args, hP => by
    obtain ⟨htarget, hargs⟩ := List.forall_mem_append.1 hP
    refine Build.Mirrors.bind (target.mirrors_bind hh he htarget) fun hle htarget => ?_
    refine Build.Mirrors.bind ((mirrors_bindAll hh he args hargs).mono hle) fun hle' hes => ?_
    exact mirrors_binding fun hle'' hw => hw.bindObjectCall ((he.mono (hle.trans hle')).mono hle'')
      ((htarget.mono hle').mono hle'') function (Exprs.Mirrors.mono hle'' hes) l
  | .snippetCall handle args, hP => by
    obtain ⟨hhandle, hargs⟩ := List.forall_mem_cons.1 hP
    refine Build.Mirrors.bind (mirrors_bindAll hh he args hargs) fun hle hes => ?_
    refine mirrors_binding fun hle' hw => ?_
    obtain ⟨hsame, huniform⟩ := (hh.mono (hle.trans hle')).snippet hhandle
    rw [hsame]
    exact hw.bindSnippetCall huniform (Exprs.Mirrors.mono hle' hes) l

theorem mirrors_bindAll {ρ : Renaming} {h h' : Handles} (hh : h.Mirrors P ρ h')
    {e e' : Id .engine} (he : e.Mirrors ρ e') :
    ∀ forms : List ExprForm, (∀ handle ∈ handlesOfExprs forms, P handle) →
      Build.Mirrors Γ Exprs.Mirrors ρ (bindAll h e forms) (bindAll h' e' forms)
  | [], _ => .pure fun _ => .nil
  | form :: rest, hP => by
    obtain ⟨hform, hrest⟩ := List.forall_mem_append.1 hP
    refine Build.Mirrors.bind (form.mirrors_bind hh he .unknown hform) fun hle ha => ?_
    refine Build.Mirrors.bind ((mirrors_bindAll hh he rest hrest).mono hle) fun hle' hes => ?_
    exact .pure fun hle'' => .cons ((ha.mono hle').mono hle'') (Exprs.Mirrors.mono hle'' hes)

theorem mirrors_bindProperties {ρ : Renaming} {h h' : Handles} (hh : h.Mirrors P ρ h')
    {e e' : Id .engine} (he : e.Mirrors ρ e') :
    ∀ forms : List (String × ExprForm), (∀ handle ∈ handlesOfProperties forms, P handle) →
      Build.Mirrors Γ Properties.Mirrors ρ (bindProperties h e forms) (bindProperties h' e' forms)
  | [], _ => .pure fun _ => .nil
  | (name, form) :: rest, hP => by
    obtain ⟨hform, hrest⟩ := List.forall_mem_append.1 hP
    refine Build.Mirrors.bind (mirrors_intern he name) fun hle hn => ?_
    refine Build.Mirrors.bind ((form.mirrors_bind hh he .unknown hform).mono hle) fun hle' ha => ?_
    refine Build.Mirrors.bind ((mirrors_bindProperties hh he rest hrest).mono (hle.trans hle'))
      fun hle'' hps => ?_
    exact .pure fun hle => .cons
      (.mk (((hn.mono hle').mono hle'').mono hle) ((ha.mono hle'').mono hle))
      (Properties.Mirrors.mono hle hps)

end

lemma mirrors_bindOption {h h' : Handles} (hh : h.Mirrors P ρ h') {e e' : Id .engine}
    (he : e.Mirrors ρ e') (form : Option ExprForm)
    (hP : ∀ handle ∈ handlesOfOption form, P handle) :
    Build.Mirrors Γ OptionExpr.Mirrors ρ (bindOption h e form) (bindOption h' e' form) := by
  cases form with
  | none => exact .pure fun _ => .none
  | some form =>
    simp only [bindOption, map_eq_pure_bind]
    refine Build.Mirrors.bind (form.mirrors_bind hh he .unknown hP) fun _ ha => ?_
    exact .pure fun hle => .some (ha.mono hle)

/-- A statement without a place in the script. -/
lemma mirrors_unlocatedStmt {node node' : StmtNode} (hnode : node.Mirrors ρ node') :
    (Stmt.unlocated node).Mirrors ρ (.unlocated node') :=
  .mk _ hnode

/-- An expression as a statement. -/
lemma mirrors_ofExpr {a a' : Expr} (ha : a.Mirrors ρ a') :
    (Stmt.ofExpr a).Mirrors ρ (.ofExpr a') := by
  obtain ⟨l, hnode⟩ := ha
  exact .mk l (.expr (.mk l hnode))

mutual

/-- Statements that are written down in the same way mirror each other. -/
theorem StmtForm.mirrors_bind {ρ : Renaming} {h h' : Handles} (hh : h.Mirrors P ρ h')
    {e e' : Id .engine} (he : e.Mirrors ρ e') :
    ∀ form : StmtForm, (∀ handle ∈ form.handles, P handle) →
      Build.Mirrors Γ Stmt.Mirrors ρ (form.bind h e) (form.bind h' e')
  | .located l form, hP => by
    refine Build.Mirrors.bind (form.mirrors_bind hh he hP) fun _ hs => ?_
    exact .pure fun hle => by
      obtain ⟨_, hnode⟩ := hs.mono hle
      exact .mk l hnode
  | .expr form, hP => by
    refine Build.Mirrors.bind (form.mirrors_bind hh he .unknown hP) fun _ ha => ?_
    exact .pure fun hle => mirrors_ofExpr (ha.mono hle)
  | .declare target init, hP => by
    obtain ⟨htarget, hinit⟩ := List.forall_mem_append.1 hP
    refine Build.Mirrors.bind (target.mirrors_bind hh he htarget) fun hle htarget => ?_
    refine Build.Mirrors.bind ((mirrors_bindOption hh he init hinit).mono hle) fun hle' hv => ?_
    exact .pure fun hle'' => mirrors_unlocatedStmt
      (.declare ((htarget.mono hle').mono hle'') (OptionExpr.Mirrors.mono hle'' hv))
  | .block statements, hP => by
    refine Build.Mirrors.bind (mirrors_bindStatements hh he statements hP) fun _ hss => ?_
    exact .pure fun hle => mirrors_unlocatedStmt (.block (Stmts.Mirrors.mono hle hss))
  | .branch condition consequent none, hP => by
    obtain ⟨hcondition, hconsequent⟩ := List.forall_mem_append.1 hP
    refine Build.Mirrors.bind (condition.mirrors_bind hh he .unknown hcondition) fun hle hc => ?_
    refine Build.Mirrors.bind ((consequent.mirrors_bind hh he hconsequent).mono hle)
      fun hle' hs => ?_
    exact .pure fun hle'' => mirrors_unlocatedStmt
      (.branch ((hc.mono hle').mono hle'') (hs.mono hle'') .none)
  | .branch condition consequent (some alternative), hP => by
    obtain ⟨hfirst, halternative⟩ := List.forall_mem_append.1 hP
    obtain ⟨hcondition, hconsequent⟩ := List.forall_mem_append.1 hfirst
    refine Build.Mirrors.bind (condition.mirrors_bind hh he .unknown hcondition) fun hle hc => ?_
    refine Build.Mirrors.bind ((consequent.mirrors_bind hh he hconsequent).mono hle)
      fun hle' hs => ?_
    refine Build.Mirrors.bind ((alternative.mirrors_bind hh he halternative).mono (hle.trans hle'))
      fun hle'' ht => ?_
    exact .pure fun hle => mirrors_unlocatedStmt (.branch (((hc.mono hle').mono hle'').mono hle)
      ((hs.mono hle'').mono hle) (.some (ht.mono hle)))
  | .whileLoop condition body, hP => by
    obtain ⟨hcondition, hbody⟩ := List.forall_mem_append.1 hP
    refine Build.Mirrors.bind (condition.mirrors_bind hh he .unknown hcondition) fun hle hc => ?_
    refine Build.Mirrors.bind ((body.mirrors_bind hh he hbody).mono hle) fun hle' hs => ?_
    exact .pure fun hle'' => mirrors_unlocatedStmt
      (.whileLoop ((hc.mono hle').mono hle'') (hs.mono hle''))
  | .forLoop none condition step body, hP => by
    obtain ⟨hfirst, hbody⟩ := List.forall_mem_append.1 hP
    obtain ⟨hcondition, hstep⟩ := List.forall_mem_append.1 hfirst
    refine Build.Mirrors.bind (mirrors_bindOption hh he condition hcondition) fun hle hc => ?_
    refine Build.Mirrors.bind ((mirrors_bindOption hh he step hstep).mono hle) fun hle' hd => ?_
    refine Build.Mirrors.bind ((body.mirrors_bind hh he hbody).mono (hle.trans hle'))
      fun hle'' hs => ?_
    exact .pure fun hle => mirrors_unlocatedStmt (.forLoop .none
      (OptionExpr.Mirrors.mono ((hle'.trans hle'').trans hle) hc)
      (OptionExpr.Mirrors.mono (hle''.trans hle) hd) (hs.mono hle))
  | .forLoop (some init) condition step body, hP => by
    obtain ⟨hrest, hbody⟩ := List.forall_mem_append.1 hP
    obtain ⟨hfirst, hstep⟩ := List.forall_mem_append.1 hrest
    obtain ⟨hinit, hcondition⟩ := List.forall_mem_append.1 hfirst
    refine Build.Mirrors.bind (init.mirrors_bind hh he hinit) fun hle₁ ht => ?_
    refine Build.Mirrors.bind ((mirrors_bindOption hh he condition hcondition).mono hle₁)
      fun hle₂ hc => ?_
    refine Build.Mirrors.bind ((mirrors_bindOption hh he step hstep).mono (hle₁.trans hle₂))
      fun hle₃ hd => ?_
    refine Build.Mirrors.bind
      ((body.mirrors_bind hh he hbody).mono ((hle₁.trans hle₂).trans hle₃)) fun hle₄ hs => ?_
    exact .pure fun hle => mirrors_unlocatedStmt (.forLoop
      (.some (ht.mono (((hle₂.trans hle₃).trans hle₄).trans hle)))
      (OptionExpr.Mirrors.mono ((hle₃.trans hle₄).trans hle) hc)
      (OptionExpr.Mirrors.mono (hle₄.trans hle) hd) (hs.mono hle))
  | .returnValue value, hP => by
    refine Build.Mirrors.bind (mirrors_bindOption hh he value hP) fun _ hv => ?_
    exact .pure fun hle => mirrors_unlocatedStmt (.returnValue (OptionExpr.Mirrors.mono hle hv))
  | .breakLoop, _ => .pure fun _ => mirrors_unlocatedStmt .breakLoop
  | .continueLoop, _ => .pure fun _ => mirrors_unlocatedStmt .continueLoop

theorem mirrors_bindStatements {ρ : Renaming} {h h' : Handles} (hh : h.Mirrors P ρ h')
    {e e' : Id .engine} (he : e.Mirrors ρ e') :
    ∀ forms : List StmtForm, (∀ handle ∈ handlesOfStatements forms, P handle) →
      Build.Mirrors Γ Stmts.Mirrors ρ (bindStatements h e forms) (bindStatements h' e' forms)
  | [], _ => .pure fun _ => .nil
  | form :: rest, hP => by
    obtain ⟨hform, hrest⟩ := List.forall_mem_append.1 hP
    refine Build.Mirrors.bind (form.mirrors_bind hh he hform) fun hle hs => ?_
    refine Build.Mirrors.bind ((mirrors_bindStatements hh he rest hrest).mono hle)
      fun hle' hss => ?_
    exact .pure fun hle'' => .cons ((hs.mono hle').mono hle'') (Stmts.Mirrors.mono hle'' hss)

end

end ScriptEngine.Session
