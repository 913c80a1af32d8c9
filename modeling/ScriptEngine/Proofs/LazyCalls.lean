import ScriptEngine.Proofs.HostCalls
import ScriptEngine.Proofs.ObjectCalls
import ScriptEngine.Proofs.StorageTiers

/-!
# Calls of a class and calls on a variable

A function of a native object is called in one of two ways.  A call of a class is bound to the
object at once.  A call on a variable is resolved when it is evaluated first, to the object that the
variable holds then, and keeps what it was resolved to.  If the variable holds the object of the
class, both do the same: they check the number of arguments before they evaluate any, they evaluate
the same arguments in the same order, and they call the same function of the same object.

The second call keeps its resolution before its arguments are evaluated, and the first one keeps
none.  Nothing can tell the difference as long as nothing else evaluates the second call: an
evaluation that stays apart from it does the same whether or not it has been resolved, and leaves
the same behind (`Pairing.resolved_runs`).

Main statement: `static_and_lazy_calls_agree`.
-/

namespace ScriptEngine

open Relation (ReflTransGen)
open Simulation (Anything Matches)

/-! ### Apart from one call -/

/-- Where an object call keeps what it was resolved to. -/
def ExprNode.site? : ExprNode → Option (Id .callSite)
  | .objectCall site _ _ _ => some site
  | _ => none

/-- Everything but one object call. -/
def Coverage.apart (site : Id .callSite) : Coverage where
  expression node := node.site? ≠ some site
  statement _ := True
  fits _ _ := True
  reaches _ := True
  performs _ := True
  reaches_top _ := trivial
  fits_of_call _ := trivial
  performs_cons _ _ := trivial

/-- Everything but one object call. -/
def Vocabulary.apart (site : Id .callSite) : Vocabulary :=
  { Vocabulary.all with
    tree := (Coverage.apart site).CoversTree
    objectCalls := fun site' _ _ => site' ≠ site }

/-- The command has to do with the resolution of the object call. -/
def Command.Resolves (site : Id .callSite) {α : Type} : Command α → Prop
  | .resolution site' | .keepResolution site' _ => site' = site
  | _ => False

namespace Vocabulary

variable (site : Id .callSite)

/-- The parts of what is apart from the call are apart from it. -/
lemma closed_apart : (apart site).Closed where
  fits {t} ht := by
    cases t with
    | expr e =>
      have hnode : e.node.site? ≠ some site := Expr.Everywhere.node ht
      change (apart site).FitsExpr e.node
      cases hform : e.node with
      | objectCall site' target function args =>
        rw [hform] at hnode
        exact ⟨trivial, fun hsame => hnode (congrArg some hsame)⟩
      | assign target op value => cases op <;> simp [FitsExpr, apart, all]
      | _ => simp [FitsExpr, apart, all]
    | stmt s =>
      change (apart site).FitsStmt s.node
      cases s.node <;> trivial
  part {t u} ht hu := by
    cases t with
    | expr e =>
      obtain ⟨a, ha, rfl⟩ := List.mem_map.1 hu
      exact Expr.Everywhere.parts ht a ha
    | stmt s =>
      rcases List.mem_append.1 hu with he | hs
      · obtain ⟨a, ha, rfl⟩ := List.mem_map.1 he
        exact Stmt.Everywhere.expressions ht a ha
      · obtain ⟨a, ha, rfl⟩ := List.mem_map.1 hs
        exact Stmt.Everywhere.statements ht a ha

variable {site}

/-- The commands that are allowed have nothing to do with the call. -/
lemma not_resolves {α : Type} {k : Command α} (hk : (apart site).Allows k) : ¬k.Resolves site := by
  cases k with
  | resolution site' =>
    obtain ⟨target, function, hne⟩ := hk
    exact hne
  | keepResolution site' r =>
    obtain ⟨⟨target, function, hne⟩, -⟩ := hk
    exact hne
  | _ => exact not_false

/-- The only trees that commands give are bodies. -/
lemma yields_apart {α : Type} {k : Command α} {a : α} (h : (Coverage.apart site).Yields k a) :
    (apart site).Yields k a := by
  cases k with
  | functionBody f | callbackBody c => exact h
  | _ => simp [Yields, apart, all]

end Vocabulary

/-! ### Worlds with and without the resolution -/

section

open Action.Unaffected

variable {site : Id .callSite} (r : Resolution)

/-- A variable reads alike whatever an object call was resolved to. -/
lemma VarRef.unaffected_get (scope : Scope) (target : VarRef) :
    (target.get scope).Unaffected (·.setResolution site r) := by
  cases target with
  | register i | global n => exact fun _ => rfl
  | functionLocal f n | callbackLocal f n | callbackParameter f i n =>
    refine state_bind (fun _ => rfl) fun w => ?_
    dsimp only
    split
    · exact pure _
    · exact fail _
  | parameter f i n =>
    refine state_bind (fun _ => rfl) fun _ =>
      bind (state_bind (fun _ => rfl) fun w => ?_) fun x => ?_
    · split
      · exact pure _
      · exact fail _
    · cases x.frame.argument? i with
      | none => exact state_bind (fun _ => rfl) fun w => fail _
      | some v => exact pure v

/-- A variable is written alike whatever an object call was resolved to. -/
lemma VarRef.unaffected_set (scope : Scope) (target : VarRef) (v : Value) :
    (target.set scope v).Unaffected (·.setResolution site r) := by
  refine state_bind (fun _ => ?_) fun w => ?_
  · cases target <;> rfl
  · cases target with
    | register | global => exact change fun _ => rfl
    | functionLocal | callbackLocal =>
      dsimp only
      split
      · exact change fun _ => rfl
      · exact fail _
    | parameter | callbackParameter => exact fail _

/-- No other command takes notice of what an object call was resolved to. -/
lemma Command.unaffected_setResolution {α : Type} {k : Command α} (hk : ¬k.Resolves site) :
    k.run.Unaffected (·.setResolution site r) := by
  have hresult : ∀ {β : Type} (look : World → Except EvalError β),
      (∀ w, look (w.setResolution site r) = look w) →
      (Action.state >>= fun w => Action.ofResult (look w)).Unaffected (·.setResolution site r) :=
    fun look hlook => state_bind (fun w => congrArg _ (hlook w)) fun w => ofResult _
  cases k with
  | get scope target => exact target.unaffected_get r scope
  | set scope target v => exact target.unaffected_set r scope v
  | requireFunction scope target f =>
    refine bind (state_bind (fun _ => rfl) fun w => ?_) fun _ => pure ()
    split
    · exact pure _
    · exact fail _
  | deliver scope n argument =>
    cases argument with
    | none => exact state_bind (fun _ => rfl) fun w => fail _
    | some v => exact pure v
  | deeper scope =>
    refine state_bind (fun _ => rfl) fun w => ?_
    dsimp only
    split
    · exact fail _
    · exact pure _
  | functionBody f | callbackBody c | apiClass object | memory | inspectFrame e name =>
    exact state_bind (fun _ => rfl) fun w => pure _
  | keepResult f v | report e err | modifyMemory make | runCode code slots =>
    exact Action.Unaffected.change fun _ => rfl
  | newArray items | newObject properties | allocate make => exact fun _ => rfl
  | findFunction e name count | findCallback e name count =>
    refine state_bind (fun _ => rfl) fun w => ?_
    split
    · exact fail _
    · dsimp only
      split
      · exact fail _
      · exact pure _
  | checkApiCall e object function slot count =>
    simp only [Command.run, World.checkApiCall]
    split
    · exact state_bind (fun _ => rfl) fun w => fail _
    · exact pure _
  | findMethod e target v function count =>
    refine state_bind (fun _ => ?_) fun w => ?_
    · cases target <;> rfl
    · split
      · split
        · exact fail _
        · split
          · exact fail _
          · exact pure _
      · exact fail _
      · exact fail _
  | resolution site' =>
    refine state_bind (fun w => ?_) fun w => pure _
    have hother : (w.setResolution site r).resolution? site' = w.resolution? site' := by
      rw [World.resolution?_setResolution_eq, if_neg fun h => hk h.1.symm]
    rw [hother]
  | keepResolution site' r' =>
    refine Action.Unaffected.change fun w => ?_
    have hswap := w.objectCalls.update_comm_of_ne (Ne.symm hk) (fun _ => some r) fun _ => some r'
    exact congrArg (fun objectCalls => { w with objectCalls }) hswap
  | compute op left right =>
    exact state_bind (fun _ => rfl) fun w => ofOption _
  | readMember e object property =>
    exact hresult (·.readMember e object property) fun _ => by cases object <;> rfl
  | readIndex e object index =>
    refine state_bind (fun _ => ?_) fun w => bind (ofOption _) fun result => ofResult result
    cases object <;> rfl
  | display v => exact state_bind (fun _ => rfl) fun w => ofOption _

end

namespace Simulation

/-- A world in which an object call has been resolved, and the world in which it has not.  The
second one has the code of `w₀`. -/
def resolved (w₀ : World) (site : Id .callSite) (r : Resolution) : Simulation World World where
  rel _ s t := s = t.setResolution site r ∧ t.code = w₀.code
  lost _ := False
  cut _ := True
  abreast := True
  cut_of_lost _ := trivial
  cut_of_rel _ := trivial

variable {w₀ : World} {site : Id .callSite} {r : Resolution} {c : List Activity} {α : Type}

/-- What takes no notice of the resolution does the same in both worlds. -/
lemma resolved_matches {Q : α → Prop} {x : Action World α}
    (hx : x.Unaffected (·.setResolution site r))
    (hkept : ∀ t, t.code = w₀.code → (x t).state.code = w₀.code ∧ ∀ a ∈ (x t).value?, Q a) :
    (resolved w₀ site r).Matches c Q x x := by
  refine Matches.of_agrees ?_ fun _ hlost => hlost.elim
  rintro _ t ⟨rfl, ht⟩
  obtain ⟨hcode, hQ⟩ := hkept t ht
  rw [hx t]
  cases hxt : x t with
  | done a t' =>
    rw [hxt] at hcode hQ
    exact ⟨hQ a rfl, .inr ⟨t', rfl, rfl, hcode⟩⟩
  | failed err t' =>
    rw [hxt] at hcode
    exact .inr ⟨t', rfl, rfl, hcode⟩
  | @diverged t' =>
    rw [hxt] at hcode
    exact ⟨trivial, fun _ => .inr ⟨c, t', rfl, rfl, hcode⟩⟩

/-- The two worlds change alike. -/
lemma resolved_tied {d : List Activity} {s : World} {t : Option World} {f : World → World}
    (h : (resolved w₀ site r).Tied c s t)
    (hf : ∀ w, f (w.setResolution site r) = (f w).setResolution site r ∧ (f w).code = w.code) :
    (resolved w₀ site r).Tied d (f s) (t.map f) := by
  cases t with
  | none => exact h.elim
  | some t =>
    obtain ⟨rfl, ht⟩ := h
    exact ⟨(hf t).1, (hf t).2.trans ht⟩

end Simulation

namespace Pairing

open Simulation

variable (w₀ : World) (site : Id .callSite) (r : Resolution)

/-- Actions that do the same whether or not an object call has been resolved. -/
def resolved : Pairing World World :=
  (Simulation.resolved w₀ site r).pairingThroughout

variable {w₀ site r}

/-- A command does the same in both worlds, unless it has to do with the object call. -/
lemma resolved_command (hbodies : (Coverage.apart site).Closed w₀) {α : Type} {k : Command α}
    (hk : ¬k.Resolves site) :
    (resolved w₀ site r).Pairs ((Coverage.apart site).Yields k) k.run k.run := by
  refine fun c => resolved_matches (Command.unaffected_setResolution r hk) fun t ht => ?_
  refine ⟨(k.change t).code_eq.trans ht, fun a ha => ?_⟩
  cases hrun : k.run t with
  | done b t' =>
    rw [hrun] at ha
    obtain rfl := Option.some.inj ha
    exact (hbodies.of_code_eq ht).yields hrun
  | _ =>
    rw [hrun] at ha
    cases ha

/-- The single steps of the engine are the same in both worlds. -/
lemma resolved_steps (hbodies : (Coverage.apart site).Closed w₀) :
    (resolved w₀ site r).Steps (.apart site) .shared .shared where
  closed := Vocabulary.closed_apart site
  exec k hk := mono (resolved_command hbodies (Vocabulary.not_resolves hk)) fun _ =>
    Vocabulary.yields_apart
  argument _ _ := resolved_matches (fun _ => rfl) fun _ ht => ⟨ht, fun _ _ _ _ => trivial⟩
  note _ _ := resolved_matches (fun _ => rfl) fun _ ht => ⟨ht, fun _ _ => trivial⟩
  during {a} _ x y hxy c :=
    Matches.during
      (fun _ _ hst => resolved_tied hst fun w => ⟨by cases a <;> rfl, a.code_enter w⟩)
      (fun _ _ hst => resolved_tied hst fun w => ⟨by cases a <;> rfl, a.code_leave w⟩)
      (hxy (a :: c))
  locate l _ _ _ _ hxy c := (hxy c).mapError _

/-- An error is reported in both worlds. -/
lemma resolved_reported (hbodies : (Coverage.apart site).Closed w₀) {bound : ℕ} {e : Id .engine}
    {x y : Action World Value} (hxy : (resolved w₀ site r).Pairs Anything x y) :
    (resolved w₀ site r).Pairs Anything ((Evaluator.shared bound).reported e x)
      ((Evaluator.shared bound).reported e y) :=
  fun c => Evaluator.reported_matches
    (fun err => resolved_command (r := r) hbodies (k := .report e err) not_false c) (hxy c)

/-- A host function does the same in both worlds, if bodies do. -/
lemma resolved_runHost (hbodies : (Coverage.apart site).Closed w₀) {bound : ℕ}
    (hperform : (resolved w₀ site r).Performs (.apart site) .shared .shared bound)
    (e : Id .engine) {program : Host.Program}
    (hprogram : program.Executes (Coverage.apart site).CoversStmt) :
    (resolved w₀ site r).Pairs Anything ((Evaluator.shared bound).runHost e program)
      ((Evaluator.shared bound).runHost e program) := by
  have hcommand : ∀ {β : Type} (k : Command β), ¬k.Resolves site →
      (resolved w₀ site r).Pairs Anything k.run k.run :=
    fun k hk => mono (resolved_command hbodies hk) fun _ _ => trivial
  have henters : Evaluator.EntersBy (resolved w₀ site r) (.apart site) (.shared bound)
      (.shared bound) :=
    (resolved_steps hbodies).entersBy hperform (fun _ => resolved_reported hbodies)
      fun _ _ _ hxy c => (hxy c).mapError _
  have henter : ∀ name args, (Vocabulary.apart site).Enters (.call name args) ∧
      (Vocabulary.apart site).Enters (.invoke name args) :=
    fun _ _ => ⟨⟨trivial, fun _ _ => trivial⟩, ⟨trivial, fun _ _ => trivial⟩⟩
  induction program with
  | finish result => exact fun c => Matches.ofResult result
  | read next ih =>
    exact (resolved w₀ site r).bind (hcommand .memory not_false) fun m _ => ih m (hprogram m)
  | write change next ih =>
    exact (resolved w₀ site r).bind (hcommand (.modifyMemory change) not_false) fun _ _ =>
      ih hprogram
  | allocate make next ih =>
    exact (resolved w₀ site r).bind (hcommand (.allocate make) not_false) fun v _ =>
      ih v (hprogram v)
  | display v next ih =>
    exact (resolved w₀ site r).bind (hcommand (.display v) not_false) fun text _ =>
      ih text (hprogram text)
  | execute script next ih =>
    intro c
    have hscript : (Vocabulary.apart site).Enters (.execute script) := hprogram.1
    have hexecute := henters.enter (e := e) trivial hscript c
    exact hexecute.attempt.bind fun result _ => ih result (hprogram.2 result) c
  | callFunction name args next ih =>
    intro c
    have hcall := henters.enter (e := e) trivial (henter name args).1 c
    exact hcall.attempt.bind fun result _ => ih result (hprogram result) c
  | invokeCallback name args next ih =>
    intro c
    have hinvoke := henters.enter (e := e) trivial (henter name args).2 c
    exact hinvoke.attempt.bind fun result _ => ih result (hprogram result) c
  | inspectFrame name next ih =>
    exact (resolved w₀ site r).bind (hcommand (.inspectFrame e name) not_false)
      fun view _ => ih view (hprogram view)

/-- The engine does the same in both worlds. -/
theorem resolved_runs (hbodies : (Coverage.apart site).Closed w₀) :
    (resolved w₀ site r).Runs (.apart site) .shared .shared where
  toSteps := resolved_steps hbodies
  host bound hperform {scope object args} index _ _ _ := by
    have hclass := resolved_command (r := r) hbodies (k := .apiClass object) not_false
    exact (resolved w₀ site r).bind hclass fun c hc =>
      resolved_runHost hbodies hperform scope.engine (hc index args)

end Pairing

/-! ### Fresh calls -/

/-- The object call has not been resolved yet, and none of the expressions, no body of the world and no
script that a host function executes contains it. -/
structure World.FreshSite (w : World) (site : Id .callSite) (args : List Expr) : Prop where
  unresolved : w.resolution? site = none
  bodies : (Coverage.apart site).Closed w
  args : ∀ e ∈ args, (Coverage.apart site).Covers e

namespace World

variable {w : World} {site : Id .callSite} {args : List Expr}

/-- An object call that is bound is fresh, if none is contained anywhere that is yet to be bound. -/
lemma freshSite_bindObjectCall (hcount : args.length ≤ maxObjectArgs)
    (hbodies : ∀ site : Id .callSite, w.objectCalls.size ≤ site.index →
      (Coverage.apart site).Closed w)
    (hargs : ∀ site : Id .callSite, w.objectCalls.size ≤ site.index →
      ∀ e ∈ args, (Coverage.apart site).Covers e)
    (e : Id .engine) (target : VarRef) (function : String) (l : Location) :
    (w.bindObjectCall e target function args l).2.FreshSite ⟨w.objectCalls.size⟩ args := by
  have hbound : (w.bindObjectCall e target function args l).2 =
      { (w.intern e function).2 with objectCalls := (w.objectCalls.add none).2 } := by
    unfold bindObjectCall
    rw [if_neg (Nat.not_lt.2 hcount)]
    rfl
  rw [hbound]
  refine ⟨?_, (hbodies _ (Nat.le_refl _)).of_code_eq rfl, hargs _ (Nat.le_refl _)⟩
  change ((w.objectCalls.add none).2.get? ⟨w.objectCalls.size⟩).join = none
  rw [Pool.get?_add, if_pos rfl]
  rfl

/-- As long as an object call is fresh, it makes no difference to arguments and to a call of a
native object whether it has been resolved. -/
theorem FreshSite.callResolved (h : w.FreshSite site args) (bound : ℕ) (scope : Scope)
    (call r : Resolution) (l : Location) :
    ((Evaluator.shared bound).callResolved scope call args).locate l (w.setResolution site r) =
      (((Evaluator.shared bound).callResolved scope call args).locate l w).mapState
        (·.setResolution site r) := by
  have hruns := Pairing.resolved_runs (r := r) h.bodies
  have hperform : (Pairing.resolved w site r).Performs (.apart site) .shared .shared bound :=
    (hruns.trees bound).2
  have hargs : (Pairing.resolved w site r).Pairs (Vocabulary.apart site).Values
      ((Evaluator.shared bound).evaluateAll scope args)
      ((Evaluator.shared bound).evaluateAll scope args) :=
    Evaluator.Supports.evaluateAll fun e he => (hruns.trees bound).1 trivial (h.args e he)
  have hcall : (Pairing.resolved w site r).Pairs Anything
      ((Evaluator.shared bound).callResolved scope call args)
      ((Evaluator.shared bound).callResolved scope call args) :=
    (Pairing.resolved w site r).bind hargs fun vs hvs =>
      hruns.host bound hperform call.2.index trivial trivial hvs
  have hsame := (hruns.locate l hcall []).mapState_eq trivial (p := id)
    (q := (·.setResolution site r)) (fun _ _ _ hst => hst.1) ⟨rfl, rfl⟩ not_false
  rwa [Outcome.mapState_id] at hsame

end World

/-! ### The two calls -/

section

variable {w₁ w₂ w : World} {e : Id .engine} {object : NativeRef} {slot : FunctionSlot}
  {function : String} {args : List Expr} {n : Name}

/-- A call of a class is bound where the class has the function. -/
lemma World.bindApiCall_of_slot? (hcount : args.length ≤ maxObjectArgs)
    (hregistered : w.apiClassNamed? e object.className = some object)
    (hslot : (w.apiClass object).slot? (w.intern e function).1 = some slot) (l : Location) :
    w.bindApiCall e object.className function args l =
      (.ok (.mk (.apiCall object (w.intern e function).1 slot args) l),
        (w.intern e function).2) := by
  have hfew : ¬maxApiArgs < args.length := by
    unfold maxApiArgs
    unfold maxObjectArgs at hcount
    omega
  have hslot' : ((w.intern e function).2.apiClass object).slot? (w.intern e function).1 =
      some slot := hslot
  simp only [bindApiCall, if_neg hfew, hregistered, hslot']

/-- A native object keeps the functions of its class. -/
lemma World.Retains.slot? (h : w₁.Retains w) (hslot : (w₁.apiClass object).slot? n = some slot) :
    (w.apiClass object).slot? n = some slot := by
  unfold apiClass at hslot ⊢
  cases hclass : w₁.natives.get? object.id with
  | some c =>
    rw [hclass] at hslot
    rw [h.native hclass]
    exact hslot
  | none =>
    rw [hclass] at hslot
    cases hslot

/-- The evaluation of a call of a class: the number of arguments is checked first, and only then the
arguments are evaluated. -/
lemma evaluate_apiCall (w : World) (scope : Scope) (bound : ℕ) (l : Location) :
    evaluate .shared (bound + 1) scope (.mk (.apiCall object n slot args) l) w =
      if args.length = slot.numArgs then
        ((Evaluator.shared bound).callResolved scope (object, slot) args).locate l w
      else
        .failed ((EvalError.of (.arityMismatch (object.className ++ "." ++ w.lookup scope.engine n)
          slot.numArgs args.length)).locate l) w := by
  have hshape : evaluate .shared (bound + 1) scope (.mk (.apiCall object n slot args) l) w =
      ((Command.checkApiCall scope.engine object n slot args.length).run >>= fun _ =>
        (Evaluator.shared bound).callResolved scope (object, slot) args).locate l w := rfl
  rw [hshape]
  simp only [Command.run, World.checkApiCall]
  by_cases hcount : args.length = slot.numArgs
  · rw [if_pos hcount, if_neg (not_not_intro hcount)]
    rfl
  · rw [if_neg hcount, if_pos hcount]
    rfl

/-- What a call on a variable means where the variable holds the object. -/
lemma World.meaning_of_get {scope : Scope} {target : VarRef}
    (hslot : (w.apiClass object).slot? n = some slot)
    (hholds : target.get scope w = .done (.native object) w) (count : ℕ) :
    w.meaning scope target n count =
      if count = slot.numArgs then .ok (object, slot)
      else .error (.of (.arityMismatch (w.lookup scope.engine n) slot.numArgs count)) := by
  rw [meaning, hholds]
  simp only [meaningOf, Value.isUndefined, Value.native?, hslot]
  by_cases hcount : count = slot.numArgs
  · simp [hcount]
  · simp [hcount, Ne.symm hcount]

/-- A call of a class and a call on a variable that holds its object agree.  The first one was bound
while the object was registered under the name of its class, the second one was bound on any
variable, and it is fresh.  The name of the function has not changed its meaning since.

If the number of arguments is the one that the function takes, both give the same value or the same
error, and leave the same world, in which only the second call has kept what it was resolved to.  If
it is another one, both fail at their location with the same numbers, and leave the world as it is,
within the smallest bound, which is too small for any argument. -/
theorem static_and_lazy_calls_agree {depth : ℕ} {target : VarRef} (l : Location)
    (hcount : args.length ≤ maxObjectArgs)
    (hregistered : w₁.apiClassNamed? e object.className = some object)
    (hslot : (w₁.apiClass object).slot? (w₁.intern e function).1 = some slot)
    (hmoves : ReflTransGen World.Moves (w₁.bindApiCall e object.className function args l).2 w)
    (hname : (w.interner e).get? function = some (w₁.intern e function).1)
    (hname' : (w.interner e).get? function = some (w₂.intern e function).1)
    (hfresh : w.FreshSite ⟨w₂.objectCalls.size⟩ args)
    (hholds : target.get ⟨e, depth⟩ w = .done (.native object) w) :
    ∃ static lazy, (w₁.bindApiCall e object.className function args l).1 = .ok static ∧
      (w₂.bindObjectCall e target function args l).1 = .ok lazy ∧ ∀ bound,
        (args.length = slot.numArgs →
          evaluate .shared (bound + 1) ⟨e, depth⟩ lazy w =
            (evaluate .shared (bound + 1) ⟨e, depth⟩ static w).mapState
              (·.setResolution ⟨w₂.objectCalls.size⟩ (object, slot))) ∧
        (args.length ≠ slot.numArgs →
          evaluate .shared (bound + 1) ⟨e, depth⟩ static w = .failed ((EvalError.of (.arityMismatch
              (object.className ++ "." ++ function) slot.numArgs args.length)).locate l) w ∧
            evaluate .shared (bound + 1) ⟨e, depth⟩ lazy w = .failed ((EvalError.of (.arityMismatch
              function slot.numArgs args.length)).locate l) w) := by
  have hstatic := World.bindApiCall_of_slot? hcount hregistered hslot l
  have hlazy : (w₂.bindObjectCall e target function args l).1 =
      .ok (.mk (.objectCall ⟨w₂.objectCalls.size⟩ target (w₂.intern e function).1 args) l) := by
    unfold World.bindObjectCall
    rw [if_neg (Nat.not_lt.2 hcount)]
    rfl
  refine ⟨_, _, congrArg Prod.fst hstatic, hlazy, fun bound => ?_⟩
  -- both calls mean the same function of the same class, which is still the class of the object
  obtain ⟨n, hn⟩ : ∃ n, n = (w₁.intern e function).1 := ⟨_, rfl⟩
  have hsame : (w₂.intern e function).1 = n := by
    rw [hn]
    exact Option.some.inj (hname'.symm.trans hname)
  have htext : w.lookup e n = function := by
    have htexts := Interner.get?_eq_some_iff.1 (hn ▸ hname)
    rw [World.lookup, Interner.lookup, htexts]
    rfl
  have hclass : (w.apiClass object).slot? n = some slot := by
    refine (World.retains_of_moves hmoves).slot? ?_
    rw [hstatic, hn]
    exact hslot
  have hmeaning := World.meaning_of_get hclass hholds args.length
  rw [← hn, hsame, evaluate_apiCall, evaluate_objectCall, hfresh.unresolved, htext, hmeaning]
  refine ⟨fun hequal => ?_, fun hother => ?_⟩
  · rw [if_pos hequal, if_pos hequal]
    exact hfresh.callResolved bound ⟨e, depth⟩ (object, slot) (object, slot) l
  · rw [if_neg hother, if_neg hother, htext]
    exact ⟨rfl, rfl⟩

end

/-! ### Calls whose argument overwrites the variable -/

namespace Overwriting

/-- One engine with an interner, and the name of the function. -/
def named : Name × World :=
  { World.empty with
    memory := Memory.empty.newInterner.2
    engines := (Pool.empty.add (default : Engine)).2 }.intern ⟨0⟩ "ready"

/-- A class whose function takes one argument. -/
def registered : NativeRef × World :=
  named.2.registerApiClass ⟨0⟩
    ((Host.ApiClass.named "Host").addFunction named.1 1 fun _ => .succeed (.bool true))

/-- A global with a name. -/
def device : Name × World :=
  registered.2.intern ⟨0⟩ "device"

/-- The world in which the global holds the object. -/
def world : World :=
  device.2.setGlobal ⟨0⟩ device.1 (.native registered.1)

/-- The argument `device = undefined`. -/
def args : List Expr :=
  [.unlocated (.assign (.global device.1) none (.unlocated (.literal .undefined)))]

/-- The call `Host.ready(device = undefined)`, and the world in which it was bound. -/
def static : Except EvalError Expr × World :=
  world.bindApiCall ⟨0⟩ registered.1.className "ready" args .unknown

/-- The call `device.ready(device = undefined)`, and the world in which it was bound. -/
def lazy : Except EvalError Expr × World :=
  static.2.bindObjectCall ⟨0⟩ (.global device.1) "ready" args .unknown

/-- The class is registered under its name. -/
lemma apiClassNamed : world.apiClassNamed? ⟨0⟩ registered.1.className = some registered.1 := by
  decide +kernel

/-- The class has the function. -/
lemma slot : (world.apiClass registered.1).slot? (world.intern ⟨0⟩ "ready").1 = some ⟨0, 1⟩ := by
  decide +kernel

/-- The second call is fresh. -/
lemma fresh : lazy.2.FreshSite ⟨static.2.objectCalls.size⟩ args := by
  have hstatic : static.2 = (world.intern ⟨0⟩ "ready").2 :=
    congrArg Prod.snd (World.bindApiCall_of_slot? (by decide) apiClassNamed slot .unknown)
  have hfunctions : static.2.functions = .empty := hstatic ▸ rfl
  have hcallbacks : static.2.callbacks = .empty := hstatic ▸ rfl
  have hnatives : static.2.natives = world.natives := hstatic ▸ rfl
  refine World.freshSite_bindObjectCall (by decide) (fun site _ => ?_)
    (fun site _ a ha => ?_) _ _ _ _
  · refine ⟨fun hf _ => ?_, fun hc _ => ?_, fun object => ?_, fun _ => trivial, fun _ _ _ => trivial⟩
    · rw [World.function?, hfunctions] at hf
      exact absurd hf (by simp)
    · rw [World.callback?, hcallbacks] at hc
      exact absurd hc (by simp)
    · refine Host.ApiClass.executes_of_functions fun f hf args => ?_
      rw [World.apiClass, hnatives] at hf
      obtain ⟨⟨_ | n⟩, className⟩ := object
      · obtain rfl := Array.mem_singleton.1 hf
        trivial
      · exact absurd hf (Array.not_mem_empty f)
  · obtain rfl := List.mem_singleton.1 ha
    refine ⟨?_, fun b hb => ?_⟩
    · rintro ⟨⟩
    · obtain rfl := List.mem_singleton.1 hb
      refine ⟨?_, fun c hc => absurd hc List.not_mem_nil⟩
      rintro ⟨⟩

end Overwriting

open Overwriting in
/-- The argument overwrites the variable, and both calls still call the function of the object. -/
theorem overwriting_argument_changes_no_call :
    world.apiClassNamed? ⟨0⟩ registered.1.className = some registered.1 ∧
    (VarRef.global device.1).get (.top ⟨0⟩) lazy.2 = .done (.native registered.1) lazy.2 ∧
    ∃ e e', static.1 = .ok e ∧ lazy.1 = .ok e' ∧
      (evaluate .shared 5 (.top ⟨0⟩) e lazy.2).value? = some (.bool true) ∧
      (evaluate .shared 5 (.top ⟨0⟩) e' lazy.2).value? = some (.bool true) := by
  have hname : (lazy.2.interner ⟨0⟩).get? "ready" = some (world.intern ⟨0⟩ "ready").1 := by
    decide +kernel
  have hname' : (lazy.2.interner ⟨0⟩).get? "ready" = some (static.2.intern ⟨0⟩ "ready").1 := by
    decide +kernel
  have hread : (lazy.2.engine ⟨0⟩).globals.read device.1 = .native registered.1 := by
    decide +kernel
  have hholds : (VarRef.global device.1).get (.top ⟨0⟩) lazy.2 =
      .done (.native registered.1) lazy.2 :=
    congrArg (Outcome.done · lazy.2) hread
  have hmoves : ReflTransGen World.Moves static.2 lazy.2 :=
    .single (.arrange (.bind ⟨0⟩ (.bindObjectCall (.global device.1) "ready" args .unknown)))
  obtain ⟨e, e', he, he', hagree⟩ := static_and_lazy_calls_agree .unknown (by decide) apiClassNamed
    slot hmoves hname hname' fresh hholds
  have hvalue : static.1.toOption.map (fun e => (evaluate .shared 5 (.top ⟨0⟩) e lazy.2).value?) =
      some (some (.bool true)) := by
    decide +kernel
  have he₁ : static.1 = .ok e := he
  rw [he₁] at hvalue
  have hstatic := Option.some.inj hvalue
  refine ⟨apiClassNamed, hholds, e, e', he, he', hstatic, ?_⟩
  have hsame := (hagree 4).1 rfl
  rw [Scope.top, hsame, Outcome.value?_mapState]
  exact hstatic

end ScriptEngine
