import ScriptEngine.Evaluation.Machine
import ScriptEngine.Proofs.MirroredWorlds

/-!
# Mirrored commands

Two actions mirror each other if they end in the same way when they start in worlds that mirror each
other: with values that mirror each other, or with the same error, and in worlds that mirror each
other again, under a renaming that may have grown.  If the first action does not end within its
bound, neither does the second one.  Actions that mirror each other may be put together
(`Action.Mirrors.bind`).

Each command mirrors the same command with arguments that differ in numbers alone; the lemmas about
single commands are in the namespace `World.Mirrors`.
-/

namespace ScriptEngine

/-! ### Outcomes and actions -/

/-- Nothing is asked of values. -/
abbrev Renaming.Anything {α α' : Type} (_ : Renaming) (_ : α) (_ : α') : Prop :=
  True

section Actions

variable {σ α α' β β' : Type} {S : Renaming → σ → σ → Prop} {R : Renaming → α → α' → Prop}
  {Q : Renaming → β → β' → Prop} {ρ ρ' : Renaming}

/-- The outcomes are of the same kind; states and values are related, and errors are equal. -/
inductive Outcome.Mirrors (S : Renaming → σ → σ → Prop) (R : Renaming → α → α' → Prop)
    (ρ : Renaming) : Outcome σ α → Outcome σ α' → Prop
  | done {ρ' a a' s s'} (hle : ρ ≤ ρ') (ha : R ρ' a a') (hs : S ρ' s s') :
    Mirrors S R ρ (.done a s) (.done a' s')
  | failed {ρ' s s'} (hle : ρ ≤ ρ') (e : EvalError) (hs : S ρ' s s') :
    Mirrors S R ρ (.failed e s) (.failed e s')
  | unfinished (s s' : σ) : Mirrors S R ρ (.unfinished s) (.unfinished s')

/-- The actions have corresponding outcomes wherever they start, whatever has come into being
meanwhile. -/
structure Action.Mirrors (S : Renaming → σ → σ → Prop) (R : Renaming → α → α' → Prop)
    (ρ : Renaming) (x : Action σ α) (x' : Action σ α') : Prop where
  run : ∀ {ρ' s s'}, ρ ≤ ρ' → S ρ' s s' → Outcome.Mirrors S R ρ' (x s) (x' s')

lemma Outcome.Mirrors.of_le {x : Outcome σ α} {x' : Outcome σ α'} (hle : ρ ≤ ρ')
    (h : Mirrors S R ρ' x x') : Mirrors S R ρ x x' := by
  cases h with
  | done hle' ha hs => exact .done (hle.trans hle') ha hs
  | failed hle' e hs => exact .failed (hle.trans hle') e hs
  | unfinished s s' => exact .unfinished s s'

/-- What comes later starts where the first action has ended. -/
lemma Outcome.Mirrors.bind {x : Action σ α} {x' : Action σ α'} {s s' : σ}
    (hx : Mirrors S R ρ (x s) (x' s')) {f : α → Action σ β} {f' : α' → Action σ β'}
    (hf : ∀ {ρ' a a' s s'}, ρ ≤ ρ' → R ρ' a a' → S ρ' s s' → Mirrors S Q ρ' (f a s) (f' a' s')) :
    Mirrors S Q ρ ((x >>= f) s) ((x' >>= f') s') := by
  rw [Action.bind_apply, Action.bind_apply]
  generalize x s = out, x' s' = out' at hx
  cases hx with
  | done hle ha hs => exact (hf hle ha hs).of_le hle
  | failed hle e hs => exact .failed hle e hs
  | unfinished s s' => exact .unfinished s s'

/-- A result that is known already. -/
lemma Outcome.Mirrors.ofResult {result : Except EvalError α} {result' : Except EvalError α'}
    {s s' : σ} (hresult : ExceptRel (R ρ) result result') (hs : S ρ s s') :
    Mirrors S R ρ (Action.ofResult result s) (Action.ofResult result' s') := by
  cases hresult with
  | ok ha => exact .done le_rfl ha hs
  | error e => exact .failed le_rfl e hs

/-- A result that may be missing. -/
lemma Outcome.Mirrors.ofOption {o : Option α} {o' : Option α'} {s s' : σ}
    (ho : Option.Rel (R ρ) o o') (hs : S ρ s s') :
    Mirrors S R ρ (Action.ofOption o s) (Action.ofOption o' s') := by
  cases ho with
  | none => exact .unfinished s s'
  | some ha => exact .done le_rfl ha hs

namespace Action.Mirrors

lemma mono {x : Action σ α} {x' : Action σ α'} (h : Mirrors S R ρ x x') (hle : ρ ≤ ρ') :
    Mirrors S R ρ' x x' :=
  ⟨fun hle' hs => h.run (hle.trans hle') hs⟩

lemma pure {a : α} {a' : α'} (ha : ∀ {ρ'}, ρ ≤ ρ' → R ρ' a a') :
    Mirrors S R ρ (Pure.pure a) (Pure.pure a') :=
  ⟨fun hle hs => .done le_rfl (ha hle) hs⟩

lemma fail (e : EvalError) : Mirrors S R ρ (Action.fail e) (Action.fail e) :=
  ⟨fun _ hs => .failed le_rfl e hs⟩

lemma diverge : Mirrors S R ρ Action.diverge Action.diverge :=
  ⟨fun _ _ => .unfinished _ _⟩

/-- One action after another: what comes later starts with what the first action gives. -/
lemma bind {x : Action σ α} {x' : Action σ α'} (hx : Mirrors S R ρ x x') {f : α → Action σ β}
    {f' : α' → Action σ β'}
    (hf : ∀ {ρ' a a'}, ρ ≤ ρ' → R ρ' a a' → Mirrors S Q ρ' (f a) (f' a')) :
    Mirrors S Q ρ (x >>= f) (x' >>= f') :=
  ⟨fun hle hs => (hx.run hle hs).bind fun hle' ha hs' => (hf (hle.trans hle') ha).run le_rfl hs'⟩

lemma attempt {x : Action σ α} {x' : Action σ α'} (hx : Mirrors S R ρ x x') :
    Mirrors S (fun ρ => ExceptRel (R ρ)) ρ x.attempt x'.attempt := by
  refine ⟨fun {ρ₁ s s'} hle hs => ?_⟩
  have hout := hx.run hle hs
  unfold Action.attempt
  generalize x s = out, x' s' = out' at hout
  cases hout with
  | done hle₂ ha hs₂ => exact .done hle₂ (.ok ha) hs₂
  | failed hle₂ e hs₂ => exact .done hle₂ (.error e) hs₂
  | unfinished s s' => exact .unfinished s s'

lemma mapError {x : Action σ α} {x' : Action σ α'} (hx : Mirrors S R ρ x x')
    (f : EvalError → EvalError) : Mirrors S R ρ (x.mapError f) (x'.mapError f) := by
  refine ⟨fun {ρ₁ s s'} hle hs => ?_⟩
  have hout := hx.run hle hs
  unfold Action.mapError
  generalize x s = out, x' s' = out' at hout
  cases hout with
  | done hle₂ ha hs₂ => exact .done hle₂ ha hs₂
  | failed hle₂ e hs₂ => exact .failed hle₂ (f e) hs₂
  | unfinished s s' => exact .unfinished s s'

lemma ensuring {x : Action σ α} {x' : Action σ α'} (hx : Mirrors S R ρ x x') {f f' : σ → σ}
    (hf : ∀ {ρ' s s'}, ρ ≤ ρ' → S ρ' s s' → S ρ' (f s) (f' s')) :
    Mirrors S R ρ (x.ensuring f) (x'.ensuring f') := by
  refine ⟨fun {ρ₁ s s'} hle hs => ?_⟩
  have hout := hx.run hle hs
  unfold Action.ensuring
  generalize x s = out, x' s' = out' at hout
  cases hout with
  | done hle₂ ha hs₂ => exact .done hle₂ ha (hf (hle.trans hle₂) hs₂)
  | failed hle₂ e hs₂ => exact .failed hle₂ e (hf (hle.trans hle₂) hs₂)
  | unfinished s s' => exact .unfinished _ _

lemma change {f f' : σ → σ} (hf : ∀ {ρ' s s'}, ρ ≤ ρ' → S ρ' s s' → S ρ' (f s) (f' s')) :
    Mirrors S Renaming.Anything ρ (Action.change f) (Action.change f') :=
  ⟨fun hle hs => .done le_rfl trivial (hf hle hs)⟩

/-- Loops go round equally often. -/
lemma repeatUpTo (bound : ℕ) {x x' : Action σ (Option α)}
    (hx : Mirrors S (fun _ => Eq) ρ x x') :
    Mirrors S (fun _ => Eq) ρ (Action.repeatUpTo bound x) (Action.repeatUpTo bound x') := by
  induction bound generalizing ρ with
  | zero => exact diverge
  | succ bound ih =>
    rw [repeatUpTo_succ, repeatUpTo_succ]
    refine hx.bind fun {ρ' o o'} hle ho => ?_
    subst ho
    cases o with
    | some a => exact pure fun _ => rfl
    | none => exact ih (hx.mono hle)

end Action.Mirrors

end Actions

variable {Γ : Surroundings} {ρ ρ' : Renaming}

/-! ### Operators -/

namespace Memory.Mirrors

variable {m m' : Memory} (h : m.Mirrors Γ ρ m') {left left' right right' : Value}
  (hleft : left.Mirrors ρ left') (hright : right.Mirrors ρ right')

include h hleft hright

lemma add? : Option.Rel (Value.Mirrors ρ) (m.add? left right) (m'.add? left' right') := by
  have htext : Option.Rel (Value.Mirrors ρ)
      (do return .string ((← m.display? left) ++ (← m.display? right)))
      (do return .string ((← m'.display? left') ++ (← m'.display? right'))) := by
    rw [h.display? hleft, h.display? hright]
    cases m.display? left with
    | none => exact .none
    | some s =>
      cases m.display? right with
      | none => exact .none
      | some t => exact .some (.string _)
  have hsum : Option.Rel (Value.Mirrors ρ) (some (.number (left.toNumber + right.toNumber)))
      (some (.number (left'.toNumber + right'.toNumber))) := by
    rw [hleft.toNumber, hright.toNumber]
    exact .some (.number _)
  cases hleft with
  | string s => exact htext
  | _ =>
    cases hright with
    | string t => exact htext
    | _ => exact hsum

/-- Operators compute values that mirror each other. -/
theorem compute? (op : BinaryOp) :
    Option.Rel (Value.Mirrors ρ) (op.compute? m left right) (op.compute? m' left' right') := by
  cases op with
  | add => exact h.add? hleft hright
  | sub | mul | div | mod | bitAnd | bitOr | bitXor | shl | shr =>
    simp only [BinaryOp.compute?, Value.toInt32, Value.shiftAmount, hleft.toNumber, hright.toNumber]
    exact .some (.number _)
  | eq | notEq =>
    simp only [BinaryOp.compute?, hleft.looselyEquals hright]
    exact .some (.bool _)
  | strictEq | strictNotEq =>
    simp only [BinaryOp.compute?, hleft.strictlyEquals hright]
    exact .some (.bool _)
  | lt | ltEq | gt | gtEq =>
    simp only [BinaryOp.compute?, hleft.order hright]
    exact .some (.bool _)

end Memory.Mirrors

lemma Value.Mirrors.apply {v v' : Value} (hv : v.Mirrors ρ v') (op : UnaryOp) :
    (op.apply v).Mirrors ρ (op.apply v') := by
  cases op with
  | neg =>
    simp only [UnaryOp.apply, hv.toNumber]
    exact .number _
  | not =>
    simp only [UnaryOp.apply, hv.isTruthy]
    exact .bool _
  | bitNot =>
    simp only [UnaryOp.apply, Value.toInt32, hv.toNumber]
    exact .number _

lemma Value.Mirrors.decides {v v' : Value} (hv : v.Mirrors ρ v') (op : LogicalOp) :
    op.decides v' = op.decides v := by
  cases op <;> simp only [LogicalOp.decides, hv.isTruthy]

/-! ### Commands -/

/-- The world of an evaluation, up to numbers. -/
abbrev Outcome.WorldMirrors (Γ : Surroundings) {α α' : Type} (R : Renaming → α → α' → Prop) :
    Renaming → Outcome World α → Outcome World α' → Prop :=
  Outcome.Mirrors (World.Mirrors Γ) R

namespace World.Mirrors

variable {w w' : World} (h : w.Mirrors Γ ρ w')

include h

lemma runNewArray {vs vs' : List Value} (hvs : Values.Mirrors ρ vs vs') :
    Outcome.WorldMirrors Γ Value.Mirrors ρ ((Command.newArray vs).run w)
      ((Command.newArray vs').run w') := by
  obtain ⟨ρ', hgrows, hv, hm⟩ := h.memory.newArray hvs
  exact .done hgrows.le hv (h.withMemory hgrows hm)

lemma runNewObject {bag bag' : PropertyBag} (hbag : PropertyBag.Mirrors ρ bag bag') :
    Outcome.WorldMirrors Γ Value.Mirrors ρ ((Command.newObject bag).run w)
      ((Command.newObject bag').run w') := by
  obtain ⟨ρ', hgrows, hv, hm⟩ := h.memory.newObject hbag
  exact .done hgrows.le hv (h.withMemory hgrows hm)

lemma runCode {code : MachineCode} (hcode : code.IsUniform ρ.clock) {slots slots' : List Value}
    (hslots : Values.Mirrors ρ slots slots') :
    Outcome.WorldMirrors Γ Renaming.Anything ρ ((Command.runCode code slots).run w)
      ((Command.runCode code slots').run w') := by
  obtain ⟨ρ', hgrows, hm⟩ := hcode.run rfl h.memory hslots
  exact .done hgrows.le trivial (h.withMemory hgrows hm)

variable {e e' : Id .engine} {target target' : VarRef} {scope scope' : Scope} {n n' : Name}
  {v v' : Value}

/-! #### Variables -/

lemma nameText (he : e.Mirrors ρ e') (htarget : target.Mirrors ρ target') :
    target'.nameText w' e' = target.nameText w e := by
  refine h.lookup he ?_
  cases htarget with
  | register i =>
    have hname := (h.engine he).register.name? i
    unfold VarRef.name
    dsimp only
    generalize (w.engine e).register.name? i = n, (w'.engine e').register.name? i = n' at hname
    cases hname with
    | none => exact h.memory.empty
    | some hn => exact hn
  | global hn | functionLocal _ hn | callbackLocal _ hn | parameter _ _ hn
  | callbackParameter _ _ hn => exact hn

lemma danglingError (he : e.Mirrors ρ e') (htarget : target.Mirrors ρ target') :
    target'.danglingError w' e' = target.danglingError w e := by
  rw [VarRef.danglingError, VarRef.danglingError, h.nameText he htarget]

lemma requireFunction (hscope : scope.Mirrors ρ scope') (htarget : target.Mirrors ρ target')
    {f f' : Id .function} (hf : f.Mirrors ρ f') :
    Outcome.WorldMirrors Γ Renaming.Anything ρ ((Command.requireFunction scope target f).run w)
      ((Command.requireFunction scope' target' f').run w') := by
  have hfunction := h.function? hf
  have herror := h.danglingError hscope.engine htarget
  simp only [Command.run, VarRef.functionOf, Action.bind_apply, Action.state]
  generalize w.function? f = x, w'.function? f' = x' at hfunction
  cases hfunction with
  | none =>
    rw [herror]
    exact .failed le_rfl _ h
  | some _ => exact .done le_rfl trivial h

lemma deliver (hscope : scope.Mirrors ρ scope') (hn : n.Mirrors ρ n') {o o' : Option Value}
    (ho : Option.Rel (Value.Mirrors ρ) o o') :
    Outcome.WorldMirrors Γ Value.Mirrors ρ ((Command.deliver scope n o).run w)
      ((Command.deliver scope' n' o').run w') := by
  cases ho with
  | some hv => exact .done le_rfl hv h
  | none =>
    simp only [Command.run, VarRef.deliver, Action.bind_apply, Action.state]
    rw [h.lookup hscope.engine hn]
    exact .failed le_rfl _ h

lemma get (hscope : scope.Mirrors ρ scope') (htarget : target.Mirrors ρ target') :
    Outcome.WorldMirrors Γ Value.Mirrors ρ ((Command.get scope target).run w)
      ((Command.get scope' target').run w') := by
  have he := h.engine hscope.engine
  have herror := h.danglingError hscope.engine htarget
  cases htarget with
  | register i => exact .done le_rfl (he.register.get i) h
  | global hn => exact .done le_rfl (he.globals.read hn) h
  | @functionLocal f f' _ _ hf hn =>
    have hfunction := h.function? hf
    simp only [Command.run, VarRef.get, Action.bind_apply, Action.state]
    generalize w.function? f = x, w'.function? f' = x' at hfunction
    cases hfunction with
    | none =>
      rw [herror]
      exact .failed le_rfl _ h
    | some hx => exact .done le_rfl (hx.locals.read hn) h
  | @callbackLocal c c' _ _ hc hn =>
    have hcallback := h.callback? hc
    simp only [Command.run, VarRef.get, Action.bind_apply, Action.state]
    generalize w.callback? c = x, w'.callback? c' = x' at hcallback
    cases hcallback with
    | none =>
      rw [herror]
      exact .failed le_rfl _ h
    | some hx => exact .done le_rfl (hx.locals.read hn) h
  | @parameter f f' _ _ hf i hn =>
    have hfunction := h.function? hf
    simp only [Command.run, VarRef.get, VarRef.functionOf, Action.bind_apply, Action.state]
    generalize w.function? f = x, w'.function? f' = x' at hfunction
    cases hfunction with
    | none =>
      rw [herror]
      exact .failed le_rfl _ h
    | some hx => exact h.deliver hscope hn (hx.frame.argument? i)
  | @callbackParameter c c' _ _ hc i hn =>
    have hcallback := h.callback? hc
    simp only [Command.run, VarRef.get, Action.bind_apply, Action.state]
    generalize w.callback? c = x, w'.callback? c' = x' at hcallback
    cases hcallback with
    | none =>
      rw [herror]
      exact .failed le_rfl _ h
    | some hx => exact .done le_rfl (hx.arguments.getD i) h

lemma set (hscope : scope.Mirrors ρ scope') (htarget : target.Mirrors ρ target')
    (hv : v.Mirrors ρ v') :
    Outcome.WorldMirrors Γ Renaming.Anything ρ ((Command.set scope target v).run w)
      ((Command.set scope' target' v').run w') := by
  have herror := h.danglingError hscope.engine htarget
  cases htarget with
  | register i => exact .done le_rfl trivial (h.setRegister hscope.engine i hv)
  | global hn => exact .done le_rfl trivial (h.setGlobal hscope.engine hn hv)
  | @functionLocal f f' _ _ hf hn =>
    have hfunction := h.function? hf
    simp only [Command.run, VarRef.set, Action.bind_apply, Action.state]
    generalize w.function? f = x, w'.function? f' = x' at hfunction
    cases hfunction with
    | none =>
      rw [herror]
      exact .failed le_rfl _ h
    | some _ => exact .done le_rfl trivial (h.setLocal hf hn hv)
  | @callbackLocal c c' _ _ hc hn =>
    have hcallback := h.callback? hc
    simp only [Command.run, VarRef.set, Action.bind_apply, Action.state]
    generalize w.callback? c = x, w'.callback? c' = x' at hcallback
    cases hcallback with
    | none =>
      rw [herror]
      exact .failed le_rfl _ h
    | some _ => exact .done le_rfl trivial (h.setCallbackLocal hc hn hv)
  | parameter _ _ hn | callbackParameter _ _ hn =>
    simp only [Command.run, VarRef.set, Action.bind_apply, Action.state]
    rw [h.lookup hscope.engine hn]
    exact .failed le_rfl _ h

/-- The argument of a parameter, while the function runs. -/
lemma argument? {f f' : Id .function} (hf : f.Mirrors ρ f') (i : ℕ) :
    Option.Rel (Value.Mirrors ρ) ((w.function? f).bind (·.frame.argument? i))
      ((w'.function? f').bind (·.frame.argument? i)) := by
  have hfunction := h.function? hf
  generalize w.function? f = x, w'.function? f' = x' at hfunction
  cases hfunction with
  | none => exact .none
  | some hx => exact hx.frame.argument? i

/-! #### Calls -/

lemma deeper (hscope : scope.Mirrors ρ scope') :
    Outcome.WorldMirrors Γ Scope.Mirrors ρ ((Command.deeper scope).run w)
      ((Command.deeper scope').run w') := by
  simp only [Command.run, Scope.deeper, Action.bind_apply, Action.state]
  rw [(h.engine hscope.engine).maxCallDepth, hscope.depth]
  split
  · exact .failed le_rfl _ h
  · exact .done le_rfl ⟨hscope.engine, rfl⟩ h

lemma functionBody {f f' : Id .function} (hf : f.Mirrors ρ f') :
    Outcome.WorldMirrors Γ OptionStmt.Mirrors ρ ((Command.functionBody f).run w)
      ((Command.functionBody f').run w') := by
  refine .done le_rfl ?_ h
  have hfunction := h.function? hf
  generalize w.function? f = x, w'.function? f' = x' at hfunction
  cases hfunction with
  | none => exact .none
  | some hx => exact hx.body

lemma callbackBody {c c' : Id .callback} (hc : c.Mirrors ρ c') :
    Outcome.WorldMirrors Γ OptionStmt.Mirrors ρ ((Command.callbackBody c).run w)
      ((Command.callbackBody c').run w') := by
  refine .done le_rfl ?_ h
  have hcallback := h.callback? hc
  generalize w.callback? c = x, w'.callback? c' = x' at hcallback
  cases hcallback with
  | none => exact .none
  | some hx => exact hx.body

lemma findFunction (he : e.Mirrors ρ e') (name : String) (count : ℕ) :
    Outcome.WorldMirrors Γ (fun ρ x x' => x.1.Mirrors ρ x'.1 ∧ x'.2 = x.2) ρ
      ((Command.findFunction e name count).run w)
      ((Command.findFunction e' name count).run w') := by
  have hnamed := h.functionNamed? he name
  simp only [Command.run, World.findFunction, Action.bind_apply, Action.state]
  generalize w.functionNamed? e name = f, w'.functionNamed? e' name = f' at hnamed
  cases hnamed with
  | none => exact .failed le_rfl _ h
  | some hf =>
    have hx := h.functionOrDefault hf
    dsimp only
    rw [hx.parameterCount]
    split
    · exact .failed le_rfl _ h
    · exact .done le_rfl ⟨hf, hx.signature⟩ h

lemma findCallback (he : e.Mirrors ρ e') (name : String) (count : ℕ) :
    Outcome.WorldMirrors Γ (fun ρ => Id.Mirrors ρ) ρ ((Command.findCallback e name count).run w)
      ((Command.findCallback e' name count).run w') := by
  have hnamed := h.callbackNamed? he name
  simp only [Command.run, World.findCallback, Action.bind_apply, Action.state]
  generalize w.callbackNamed? e name = c, w'.callbackNamed? e' name = c' at hnamed
  cases hnamed with
  | none => exact .failed le_rfl _ h
  | some hc =>
    dsimp only
    rw [(h.callbackOrDefault hc).parameterCount]
    split
    · exact .failed le_rfl _ h
    · exact .done le_rfl hc h

lemma checkApiCall (he : e.Mirrors ρ e') {o o' : NativeRef} (ho : o.Mirrors ρ o')
    (hn : n.Mirrors ρ n') (slot : FunctionSlot) (count : ℕ) :
    Outcome.WorldMirrors Γ Renaming.Anything ρ ((Command.checkApiCall e o n slot count).run w)
      ((Command.checkApiCall e' o' n' slot count).run w') := by
  simp only [Command.run, World.checkApiCall]
  split
  · simp only [Action.bind_apply, Action.state]
    rw [h.lookup he hn, ho.className]
    exact .failed le_rfl _ h
  · exact .done le_rfl trivial h

lemma findMethod (he : e.Mirrors ρ e') (htarget : target.Mirrors ρ target') (hv : v.Mirrors ρ v')
    (hn : n.Mirrors ρ n') (count : ℕ) :
    Outcome.WorldMirrors Γ Resolution.Mirrors ρ ((Command.findMethod e target v n count).run w)
      ((Command.findMethod e' target' v' n' count).run w') := by
  have hname := h.nameText he htarget
  simp only [Command.run, World.findMethod, Action.bind_apply, Action.state]
  cases hv with
  | undefined =>
    dsimp only
    rw [hname]
    exact .failed le_rfl _ h
  | @native o o' ho =>
    dsimp only
    rw [(h.apiClass ho).slot? hn, h.lookup he hn, ho.className]
    cases (w.apiClass o).slot? n with
    | none => exact .failed le_rfl _ h
    | some slot =>
      dsimp only
      split
      · exact .failed le_rfl _ h
      · exact .done le_rfl ⟨ho, rfl⟩ h
  | number | bool | string | array | object => exact .failed le_rfl _ h

/-! #### Members and items -/

lemma readMember (he : e.Mirrors ρ e') (hv : v.Mirrors ρ v') (hn : n.Mirrors ρ n') :
    ExceptRel (Value.Mirrors ρ) (w.readMember e v n) (w'.readMember e' v' n') := by
  have hlength := hn.eq_iff (h.engine he).lengthName
  cases hv with
  | undefined =>
    rw [World.readMember, World.readMember, h.lookup he hn]
    exact .error _
  | object ho => exact .ok ((h.memory.properties ho).read hn)
  | array ha =>
    rw [World.readMember, World.readMember, h.memory.size_items ha]
    simp only [hlength]
    split
    · exact .ok (.number _)
    · exact .ok .undefined
  | string s =>
    rw [World.readMember, World.readMember]
    simp only [hlength]
    split
    · exact .ok (.number _)
    · exact .ok .undefined
  | @native o o' ho =>
    have hconstant := (h.apiClass ho).constants.get? hn
    rw [World.readMember, World.readMember]
    refine .ok ?_
    unfold Host.ApiClass.constant?
    generalize (w.apiClass o).constants.get? n = x, (w'.apiClass o').constants.get? n' = x'
      at hconstant
    cases hconstant with
    | none => exact .undefined
    | some hx => exact hx
  | number | bool => exact .ok .undefined

/-- A text that only others have interned is no key of an object. -/
theorem readKey (he : e.Mirrors ρ e') {o o' : Id .object} (ho : o.Mirrors ρ o') (key : String) :
    (w.readKey e o key).Mirrors ρ (w'.readKey e' o' key) := by
  have hproperty := (h.interner he).bind_property (h.memory.properties ho) key
  have hread (w : World) (e : Id .engine) (o : Id .object) : w.readKey e o key =
      (((w.interner e).get? key).bind (w.memory.properties o).get?).getD .undefined := by
    unfold World.readKey
    cases (w.interner e).get? key <;> rfl
  rw [hread, hread]
  generalize ((w.interner e).get? key).bind _ = x, ((w'.interner e').get? key).bind _ = x'
    at hproperty
  cases hproperty with
  | none => exact .undefined
  | some hx => exact hx

lemma readIndex? (he : e.Mirrors ρ e') (hv : v.Mirrors ρ v') {i i' : Value} (hi : i.Mirrors ρ i') :
    Option.Rel (ExceptRel (Value.Mirrors ρ)) (w.readIndex? e v i) (w'.readIndex? e' v' i') := by
  have hposition : i'.position? = i.position? := by
    rw [Value.position?, Value.position?, hi.toNumber]
  cases hv with
  | undefined =>
    rw [World.readIndex?, World.readIndex?, h.memory.display? hi]
    cases w.memory.display? i with
    | none => exact .none
    | some key => exact .some (.error _)
  | object ho =>
    rw [World.readIndex?, World.readIndex?, h.memory.display? hi]
    cases w.memory.display? i with
    | none => exact .none
    | some key => exact .some (.ok (h.readKey he ho key))
  | array ha =>
    rw [World.readIndex?, World.readIndex?, hposition]
    refine .some (.ok ?_)
    cases i.position? with
    | none => exact .undefined
    | some k =>
      rw [Option.bind_some, Option.bind_some, ← Array.getElem?_toList, ← Array.getElem?_toList]
      exact (h.memory.items ha).getD k
  | string s =>
    rw [World.readIndex?, World.readIndex?, hposition]
    refine .some (.ok ?_)
    cases i.position?.bind fun k => s.toList[k]? with
    | none => exact .undefined
    | some c => exact .string _
  | number | bool | native => exact .some (.ok .undefined)

lemma runReadIndex (he : e.Mirrors ρ e') (hv : v.Mirrors ρ v') {i i' : Value}
    (hi : i.Mirrors ρ i') :
    Outcome.WorldMirrors Γ Value.Mirrors ρ ((Command.readIndex e v i).run w)
      ((Command.readIndex e' v' i').run w') := by
  have hread := h.readIndex? he hv hi
  simp only [Command.run, Action.bind_apply, Action.state]
  generalize w.readIndex? e v i = x, w'.readIndex? e' v' i' = x' at hread
  cases hread with
  | none => exact .unfinished _ _
  | some hx => exact .ofResult hx h

/-- The frame of the function that an engine has under a name, if it has one. -/
lemma frameNamed? (he : e.Mirrors ρ e') (name : String) :
    Option.Rel (CallFrame.Mirrors ρ)
      (((w.functionNamed? e name).bind w.function?).map (·.frame))
      (((w'.functionNamed? e' name).bind w'.function?).map (·.frame)) := by
  have hnamed := h.functionNamed? he name
  generalize w.functionNamed? e name = f, w'.functionNamed? e' name = f' at hnamed
  cases hnamed with
  | none => exact .none
  | @some f f' hf =>
    have hfunction := h.function? hf
    rw [Option.bind_some, Option.bind_some]
    generalize w.function? f = x, w'.function? f' = x' at hfunction
    cases hfunction with
    | none => exact .none
    | some hx => exact .some hx.frame

end World.Mirrors

end ScriptEngine
