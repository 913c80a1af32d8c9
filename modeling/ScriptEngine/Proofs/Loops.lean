import ScriptEngine.Proofs.Evaluations

/-!
# Loops

A `for` loop without a first statement and without a step is a `while` loop.  A `for` loop with both
is a block of its first statement and a `while` loop whose body has the step at its end, as long as
the first statement ends normally and the body never asks to continue: in a `while` loop, `continue`
would pass over the step, and in a `for` loop it does not.

`PerformsBody` says in which states a loop performs its body.  It is the invariant of the proofs:
where the rounds of two loops differ after `continue` only, the loops are the same if no performance
of the body continues.

Main statement: `loops_agree`.
-/

namespace ScriptEngine

open Process

variable {scope : Scope} {condition step : Option Expr} {body : Stmt} {a a' : Activation World}

/-- From a state in which a loop tests its condition, some round of it performs its body in another
state. -/
inductive PerformsBody (scope : Scope) (condition step : Option Expr) (body : Stmt) :
    Activation World → Activation World → Prop
  /-- In this round. -/
  | now {a a' : Activation World} (hholds : (holds scope condition).Gives a (.done true a')) :
    PerformsBody scope condition step body a a'
  /-- In a round after this one, with which the loop does not end. -/
  | later {a t a' : Activation World}
    (hround : (round scope condition step body).Gives a (.done none t))
    (hlater : PerformsBody scope condition step body t a') :
    PerformsBody scope condition step body a a'

/-- The condition that always holds. -/
def Expr.always : Expr :=
  .unlocated (.literal (.bool true))

namespace Process

/-! ### Parts of loops -/

/-- A condition that is not there is one that always holds. -/
lemma holds_getD_always (condition : Option Expr) (a : Activation World) :
    (holds scope condition).SameFrom (holds scope (some (condition.getD .always))) a := by
  cases condition with
  | some c => exact SameFrom.refl _ a
  | none =>
    have halways : (evaluate scope .always).SameFrom (pure (.bool true)) a.state := by
      rw [← evaluateNode_literal]
      exact sameFrom_evaluate_unlocated _ a.state
    have hholds := halways.inBody.bind fun v t _ => SameFrom.refl (pure v.isTruthy) t
    rw [inBody_pure, pure_bind] at hholds
    rw [holds_none, Option.getD_none, holds_some]
    exact hholds.symm

/-- An expression as a statement adds nothing to the expression: the errors are claimed already. -/
lemma sameFrom_perform_ofExpr (e : Expr) (a : Activation World) :
    (perform scope (.ofExpr e)).SameFrom (performNode scope (.expr e)) a := by
  have hnode : (perform scope (.ofExpr e)).SameFrom
      ((performNode scope (.expr e)).locate e.location) a := sameFrom_perform (.ofExpr e) a
  refine hnode.trans (sameFrom_locate fun o ho => ?_)
  rw [performNode_expr, gives_bind] at ho
  rcases ho with ⟨v, t, -, hlast⟩ | ⟨err, t, he, rfl⟩
  · rw [gives_pure.1 hlast, Outcome.locate_done]
  · obtain ⟨o', ho', ho⟩ := gives_inBody.1 he
    obtain ⟨o'', -, rfl⟩ := gives_evaluate.1 ho'
    cases o'' with
    | failed err' w =>
      obtain ⟨rfl, rfl⟩ := Outcome.failed.inj ho
      rw [Outcome.locate_failed, err'.locate_locate]
    | done v w | @diverged w => exact nomatch ho

/-- An expression as a statement ends normally or fails. -/
lemma eq_normal_of_gives_expr {e : Expr} {l : Location} {signal : Signal}
    (h : (perform scope (.mk (.expr e) l)).Gives a (.done signal a')) : signal = .normal := by
  obtain ⟨o, ho, hlocated⟩ := gives_perform.1 h
  have hbind : ((evaluate scope e).inBody >>= fun _ => pure Signal.normal).Gives a o := ho
  rcases gives_bind.1 hbind with ⟨v, t, -, hlast⟩ | ⟨err, t, -, rfl⟩
  · rw [gives_pure.1 hlast] at hlocated
    exact (Outcome.done.inj hlocated).1
  · exact nomatch hlocated

lemma performAll_singleton (s : Stmt) : performAll scope [s] = perform scope s := by
  rw [performAll_cons, performAll_nil]
  refine Eq.trans (congrArg (perform scope s >>= ·) (funext fun signal => ?_)) (bind_pure _)
  split
  case isTrue h => rw [h]
  case isFalse => rfl

/-- An expression before other statements. -/
lemma sameFrom_performAll_ofExpr (e : Expr) (rest : List Stmt) (a : Activation World) :
    (performAll scope (.ofExpr e :: rest)).SameFrom (do
      advance scope (some e)
      performAll scope rest) a := by
  have hrest : (do advance scope (some e); performAll scope rest) =
      performNode scope (.expr e) >>= fun signal =>
        if signal = .normal then performAll scope rest else pure signal := by
    simp only [advance_some, performNode_expr, bind_assoc, pure_bind, if_true]
  rw [performAll_cons, hrest]
  exact (sameFrom_perform_ofExpr e a).bind fun _ t _ => SameFrom.refl _ t

/-! ### `for` and `while` -/

/-- A `for` loop without a first statement and without a step is a `while` loop. -/
theorem sameFrom_forLoop_whileLoop (scope : Scope) (l : Location) (condition : Option Expr)
    (body : Stmt) (a : Activation World) :
    (perform scope (.mk (.forLoop none condition none body) l)).SameFrom
      (perform scope (.mk (.whileLoop (condition.getD .always) body) l)) a := by
  have hround : ∀ t, True → (round scope condition none body).SameFrom
      (round scope (some (condition.getD .always)) none body) t := by
    intro t _
    rw [round_eq, round_eq]
    exact (holds_getD_always condition t).bind fun _ _ _ => SameFrom.refl _ _
  refine sameFrom_perform_mk ?_ l
  rw [performNode_forLoop, initialise_none, pure_bind, performNode_whileLoop]
  exact SameFrom.repeatedly (fun _ _ _ _ => trivial) hround trivial

/-- A round with a step does the same as a round whose body has the step at its end, unless the body
continues. -/
lemma round_eq_round_block {step : Expr} (hbody : ∀ a' a'', (holds scope condition).Gives a
      (.done true a') → ¬(perform scope body).Gives a' (.done .continuing a'')) :
    (round scope condition (some step) body).SameFrom
      (round scope (some (condition.getD .always)) none
        (.unlocated (.block [body, .ofExpr step]))) a := by
  rw [round_eq, round_eq]
  refine (holds_getD_always condition a).bind fun h t ht => ?_
  cases h with
  | false => exact SameFrom.refl _ t
  | true =>
    have hblock : (perform scope (.unlocated (.block [body, .ofExpr step])) >>=
        afterBody scope none).SameFrom (perform scope body >>= fun signal =>
          (if signal = .normal then performAll scope [.ofExpr step] else pure signal) >>=
            afterBody scope none) t := by
      rw [← bind_assoc, ← performAll_cons]
      exact (sameFrom_perform_unlocated _ t).bind fun _ _ _ => SameFrom.refl _ _
    refine SameFrom.trans ?_ hblock.symm
    refine (SameFrom.refl (perform scope body) t).bind fun signal u hsignal => ?_
    cases signal with
    | continuing => exact absurd hsignal (hbody t u ht)
    | breaking | returning => exact SameFrom.refl _ u
    | normal =>
      have hstep : afterBody scope (some step) .normal = (do
          advance scope (some step)
          performAll scope []) >>= afterBody scope none := by
        simp only [afterBody, performAll_nil, advance_none, bind_assoc, pure_bind]
      rw [hstep]
      exact ((sameFrom_performAll_ofExpr step [] u).bind fun _ _ _ => SameFrom.refl _ _).symm

/-- A `for` loop is a block of its first statement and a `while` loop whose body has the step at its
end, if the first statement ends normally and no performance of the body continues. -/
theorem sameFrom_forLoop_block (l : Location) {init : Stmt} {step : Expr}
    (hinit : ∀ signal t, (perform scope init).Gives a (.done signal t) → signal = .normal)
    (hbody : ∀ signal t a' a'', (perform scope init).Gives a (.done signal t) →
      PerformsBody scope condition (some step) body t a' →
        ¬(perform scope body).Gives a' (.done .continuing a'')) :
    (perform scope (.mk (.forLoop (some init) condition (some step) body) l)).SameFrom
      (perform scope (.mk (.block [init, .unlocated (.whileLoop (condition.getD .always)
        (.unlocated (.block [body, .ofExpr step])))]) l)) a := by
  refine sameFrom_perform_mk ?_ l
  rw [performNode_forLoop, performNode_block, initialise_some, bind_assoc,
    performAll_cons]
  refine (SameFrom.refl (perform scope init) a).bind fun signal t hsignal => ?_
  rw [if_pos (hinit signal t hsignal), pure_bind, performAll_singleton]
  refine SameFrom.trans ?_ (sameFrom_perform_unlocated _ t).symm
  rw [performNode_whileLoop]
  refine SameFrom.repeatedly (I := fun t => ∀ a' a'',
    PerformsBody scope condition (some step) body t a' →
      ¬(perform scope body).Gives a' (.done .continuing a'')) ?_ ?_ ?_
  · exact fun _ _ ht hround a' a'' hperforms => ht a' a'' (.later hround hperforms)
  · exact fun _ ht => round_eq_round_block fun a' a'' hholds => ht a' a'' (.now hholds)
  · exact fun a' a'' hperforms => hbody signal t a' a'' hsignal hperforms

/-! ### What follows the body -/

/-- After a performance of its body that neither breaks nor returns, a loop advances and goes round
again. -/
lemma gives_repeatedly_of_performsBody (h : PerformsBody scope condition step body a a')
    {signal : Signal} (hsignal : signal = .normal ∨ signal = .continuing) {a'' : Activation World}
    (hbody : (perform scope body).Gives a' (.done signal a''))
    {o : Outcome (Activation World) Signal} :
    (round scope condition step body).repeatedly.Gives a o ↔
      (advance scope step >>= fun _ =>
        (round scope condition step body).repeatedly).Gives a'' o := by
  induction h with
  | @now a a' hholds =>
    have hround : (round scope condition step body >>=
        (round scope condition step body).goOn).Gives a o ↔
          (afterBody scope step signal >>=
            (round scope condition step body).goOn).Gives a'' o := by
      rw [show round scope condition step body >>= (round scope condition step body).goOn =
        (holds scope condition >>= fun h => (if h then perform scope body >>= afterBody scope step
          else pure (some .normal)) >>= (round scope condition step body).goOn) by
            rw [← bind_assoc, ← round_eq], gives_bind_of_done hholds, if_pos rfl, bind_assoc,
        gives_bind_of_done hbody]
    have hafter : afterBody scope step signal >>= (round scope condition step body).goOn =
        (advance scope step >>= fun _ => (round scope condition step body).repeatedly) := by
      rcases hsignal with rfl | rfl <;> simp only [afterBody, bind_assoc, pure_bind, goOn]
    rw [repeatedly_unroll _ a o, hround, hafter]
  | later hround _ ih => rw [repeatedly_unroll _ _ o, gives_bind_of_done hround, goOn, ih hbody]

/-- After a performance of its body that neither breaks nor returns, a `for` loop evaluates its step
and is then a `for` loop that begins with a test of its condition. -/
theorem gives_forLoop_of_performsBody (l : Location) {init : Option Stmt} {step : Expr}
    {t : Activation World} (hinit : (initialise scope init).Gives a (.done () t))
    (h : PerformsBody scope condition (some step) body t a') {signal : Signal}
    (hsignal : signal = .normal ∨ signal = .continuing) {a'' : Activation World}
    (hbody : (perform scope body).Gives a' (.done signal a''))
    (o : Outcome (Activation World) Signal) :
    (perform scope (.mk (.forLoop init condition (some step) body) l)).Gives a o ↔
      (perform scope (.mk (.block [.ofExpr step,
        .unlocated (.forLoop none condition (some step) body)]) l)).Gives a'' o := by
  have hloop : ∀ o, (performNode scope (.forLoop init condition (some step) body)).Gives a o ↔
      (performNode scope (.block [.ofExpr step,
        .unlocated (.forLoop none condition (some step) body)])).Gives a'' o := by
    intro o
    have hagain : ∀ u, (perform scope (.unlocated
        (.forLoop none condition (some step) body))).SameFrom
          (round scope condition (some step) body).repeatedly u :=
      fun u => sameFrom_perform_unlocated _ u
    rw [performNode_forLoop, gives_bind_of_done hinit,
      gives_repeatedly_of_performsBody h hsignal hbody, performNode_block,
      sameFrom_performAll_ofExpr step _ a'' o, performAll_singleton]
    exact ((SameFrom.refl _ a'').bind fun _ u _ => (hagain u).symm) o
  rw [gives_perform, gives_perform]
  exact exists_congr fun o' => and_congr_left fun _ => hloop o'

/-! ### The equivalences together -/

/-- How the loops are related, from each state.  A `for` loop without a first statement and without
a step is a `while` loop.  A `for` loop is a block of its first statement and a `while` loop whose
body has the step at its end, if the first statement ends normally and no performance of the body
continues.  Where the body does continue, the loop evaluates the step once and goes on with a test of
its condition. -/
theorem loops_agree (scope : Scope) (l : Location) (condition : Option Expr) (body : Stmt)
    (a : Activation World) :
    (perform scope (.mk (.forLoop none condition none body) l)).SameFrom
      (perform scope (.mk (.whileLoop (condition.getD .always) body) l)) a ∧
    (∀ (init : Stmt) (step : Expr),
      (∀ signal t, (perform scope init).Gives a (.done signal t) → signal = .normal) →
      (∀ signal t a' a'', (perform scope init).Gives a (.done signal t) →
        PerformsBody scope condition (some step) body t a' →
          ¬(perform scope body).Gives a' (.done .continuing a'')) →
      (perform scope (.mk (.forLoop (some init) condition (some step) body) l)).SameFrom
        (perform scope (.mk (.block [init, .unlocated (.whileLoop (condition.getD .always)
          (.unlocated (.block [body, .ofExpr step])))]) l)) a) ∧
    ∀ (init : Option Stmt) (step : Expr) (t a' a'' : Activation World),
      (initialise scope init).Gives a (.done () t) →
      PerformsBody scope condition (some step) body t a' →
      (perform scope body).Gives a' (.done .continuing a'') →
      ∀ o, (perform scope (.mk (.forLoop init condition (some step) body) l)).Gives a o ↔
        (perform scope (.mk (.block [.ofExpr step,
          .unlocated (.forLoop none condition (some step) body)]) l)).Gives a'' o := by
  refine ⟨sameFrom_forLoop_whileLoop scope l condition body a, ?_, ?_⟩
  · exact fun init step hinit hbody => sameFrom_forLoop_block l hinit hbody
  · exact fun init step t a' a'' hinit hperforms hbody =>
      gives_forLoop_of_performsBody l hinit hperforms (.inr rfl) hbody

namespace Looping

/-- One engine. -/
def world : World :=
  { World.empty with engines := (Pool.empty.add (default : Engine)).2 }

/-- The global `x`. -/
def x : Expr :=
  .unlocated (.var (.global .empty))

/-- The assignment of a truth value to `x`. -/
def assign (b : Bool) : Expr :=
  .unlocated (.assign (.global .empty) none (.unlocated (.literal (.bool b))))

/-- The state after `x = true`. -/
def started : Activation World :=
  ⟨world.setGlobal ⟨0⟩ .empty (.bool true), .undefined⟩

end Looping

open Looping in
/-- The loop `for (x = true; x; x = false) x` is a block with a `while` loop; and where the body
continues, `for (x = true; x; x = false) continue` goes on with `x = false` after it. -/
theorem loops_agree_on_flag :
    (perform (.top ⟨0⟩) (.mk (.forLoop (some (.ofExpr (assign true))) (some x)
      (some (assign false)) (.ofExpr x)) ⟨1, 1⟩)).SameFrom
        (perform (.top ⟨0⟩) (.mk (.block [.ofExpr (assign true), .unlocated (.whileLoop x
          (.unlocated (.block [.ofExpr x, .ofExpr (assign false)])))]) ⟨1, 1⟩))
            ⟨world, .undefined⟩ ∧
    ∀ o, (perform (.top ⟨0⟩) (.mk (.forLoop (some (.ofExpr (assign true))) (some x)
      (some (assign false)) (.unlocated .continueLoop)) ⟨1, 1⟩)).Gives ⟨world, .undefined⟩ o ↔
        (perform (.top ⟨0⟩) (.mk (.block [.ofExpr (assign false), .unlocated (.forLoop none (some x)
          (some (assign false)) (.unlocated .continueLoop))]) ⟨1, 1⟩)).Gives started o := by
  constructor
  · refine (loops_agree (.top ⟨0⟩) ⟨1, 1⟩ (some x) (.ofExpr x) ⟨world, .undefined⟩).2.1 _ _
      (fun signal t h => eq_normal_of_gives_expr h) fun _ _ a' a'' _ _ h => ?_
    exact nomatch eq_normal_of_gives_expr h
  · exact (loops_agree (.top ⟨0⟩) ⟨1, 1⟩ (some x) (.unlocated .continueLoop)
      ⟨world, .undefined⟩).2.2 _ _ started started started ⟨.done () started, 4, rfl⟩
        (.now ⟨.done true started, 4, rfl⟩) ⟨.done Signal.continuing started, 1, rfl⟩

end Process

end ScriptEngine
