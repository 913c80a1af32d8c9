import ScriptEngine.Proofs.Evaluations
import ScriptEngine.Proofs.StorageTiers

/-!
# Compound assignments

`target op= value` is short for `target = target op value`.  The variable is read once, before the
operand is evaluated: whatever the operand does to the variable, the left operand is what the
variable held before.  Whether the variable can be written is found out last, when the effects of the
operand are there already.

Main statement: `Process.compound_assignment_expands`.
-/

namespace ScriptEngine

open Process

/-- What becomes of `target op= value` in a world, before the node claims the error. -/
inductive CompoundAssigns (scope : Scope) (target : VarRef) (op : BinaryOp) (value : Expr)
    (w : World) : Outcome World Value → Prop
  /-- The variable cannot be read; the operand is not evaluated. -/
  | unreadable {err : EvalError} (hread : target.get scope w = .failed err w) :
    CompoundAssigns scope target op value w (.failed err w)
  /-- The operand fails. -/
  | operandFails {x : Value} {err : EvalError} {w' : World} (hread : target.get scope w = .done x w)
    (hvalue : (Process.evaluate scope value).Gives w (.failed err w')) :
    CompoundAssigns scope target op value w (.failed err w')
  /-- The variable is a parameter; the operand has been evaluated. -/
  | readOnly {x y v : Value} {w' : World} (hread : target.get scope w = .done x w)
    (hvalue : (Process.evaluate scope value).Gives w (.done y w'))
    (hcompute : op.compute? w'.memory x y = some v) (hparameter : target.isWritable = false) :
    CompoundAssigns scope target op value w
      (.failed (.of (.readOnlyReference (target.nameText w' scope.engine))) w')
  /-- The function or callback of the variable is gone after the operand. -/
  | gone {x y v : Value} {w' : World} (hread : target.get scope w = .done x w)
    (hvalue : (Process.evaluate scope value).Gives w (.done y w'))
    (hcompute : op.compute? w'.memory x y = some v) (hwritable : target.isWritable)
    (hgone : target.Gone w') :
    CompoundAssigns scope target op value w (.failed (target.danglingError w' scope.engine) w')
  /-- The variable is written. -/
  | written {x y v : Value} {w' : World} (hread : target.get scope w = .done x w)
    (hvalue : (Process.evaluate scope value).Gives w (.done y w'))
    (hcompute : op.compute? w'.memory x y = some v) (hwritable : target.isWritable)
    (hthere : ¬target.Gone w') :
    CompoundAssigns scope target op value w (.done v (target.written scope.engine v w'))

namespace Process

variable {scope : Scope} {target : VarRef} {op : BinaryOp} {value : Expr} {w : World}

/-! ### The expansion -/

/-- The expansion reads, evaluates, computes and writes in the same order. -/
lemma evaluateNode_assign_op_sameFrom (target : VarRef) (op : BinaryOp) (value : Expr) (w : World) :
    (evaluateNode scope (.assign target (some op) value)).SameFrom
      (evaluateNode scope (.assign target none
        (.unlocated (.binary op (.unlocated (.var target)) value)))) w := by
  have hbinary :
      (evaluate scope (.unlocated (.binary op (.unlocated (.var target)) value))).SameFrom (do
        let current ← lift (target.get scope)
        let operand ← evaluate scope value
        lift ((Command.compute op current operand).run)) w := by
    refine (sameFrom_evaluate_unlocated _ w).trans ?_
    rw [evaluateNode_binary, ← evaluateNode_var]
    exact (sameFrom_evaluate_unlocated _ w).bind fun _ _ _ => SameFrom.refl _ _
  have hassign := hbinary.bind fun v w' _ => SameFrom.refl (do
    let _ ← lift (target.set scope v)
    pure v) w'
  rw [bind_assoc] at hassign
  simp only [bind_assoc] at hassign
  rw [evaluateNode_assign_op, evaluateNode_assign]
  exact hassign.symm

/-! ### What it does -/

/-- A read that something follows: it fails, or gives a value; and it changes nothing. -/
lemma gives_get_bind {f : Value → Process World Value} {o : Outcome World Value} :
    (lift (target.get scope) >>= f).Gives w o ↔
      (∃ x, target.get scope w = .done x w ∧ (f x).Gives w o) ∨
      ∃ err, target.get scope w = .failed err w ∧ o = .failed err w := by
  have hreads : ∀ {w₀}, (target.get scope w).state = w₀ → w = w₀ := fun hstate =>
    (VarRef.get_readsOnly scope target w).symm.trans hstate
  rw [gives_bind]
  constructor
  · rintro (⟨x, w₀, hx, hrest⟩ | ⟨err, w₀, hx, rfl⟩)
    · obtain ⟨-, hx⟩ := gives_lift.1 hx
      obtain rfl : w = w₀ := hreads (congrArg Outcome.state hx)
      exact .inl ⟨x, hx, hrest⟩
    · obtain ⟨-, hx⟩ := gives_lift.1 hx
      obtain rfl : w = w₀ := hreads (congrArg Outcome.state hx)
      exact .inr ⟨err, hx, rfl⟩
  · rintro (⟨x, hx, hrest⟩ | ⟨err, hx, rfl⟩)
    · exact .inl ⟨x, w, gives_lift.2 ⟨.done x w, hx⟩, hrest⟩
    · exact .inr ⟨err, w, gives_lift.2 ⟨.failed err w, hx⟩, rfl⟩

/-- An operator that something follows: it gives what it computes, and changes nothing. -/
lemma gives_compute_bind {x y : Value} {f : Value → Process World Value}
    {o : Outcome World Value} :
    (lift ((Command.compute op x y).run) >>= f).Gives w o ↔
      ∃ v, op.compute? w.memory x y = some v ∧ (f v).Gives w o := by
  have hcompute : ∀ {o'}, (lift ((Command.compute op x y).run)).Gives w o' ↔
      ∃ v, op.compute? w.memory x y = some v ∧ o' = .done v w := gives_lift_ofOption rfl
  rw [gives_bind]
  constructor
  · rintro (⟨v, w', hv, hrest⟩ | ⟨err, w', herr, -⟩)
    · obtain ⟨v', hv', hdone⟩ := hcompute.1 hv
      obtain ⟨rfl, rfl⟩ := Outcome.done.inj hdone
      exact ⟨v, hv', hrest⟩
    · obtain ⟨v, -, hdone⟩ := hcompute.1 herr
      exact nomatch hdone
  · exact fun ⟨v, hv, hrest⟩ => .inl ⟨v, w, hcompute.2 ⟨v, hv, rfl⟩, hrest⟩

/-- A literal gives its value. -/
lemma gives_literal (v : Value) (l : Location) :
    (evaluate scope (.mk (.literal v) l)).Gives w (.done v w) :=
  gives_evaluate.2 ⟨.done v w, gives_pure.2 rfl, rfl⟩

/-- Operands that have values, and what the operator makes of them. -/
lemma gives_binary {left right : Expr} {x y v : Value} {w₁ w₂ : World}
    (hleft : (evaluate scope left).Gives w (.done x w₁))
    (hright : (evaluate scope right).Gives w₁ (.done y w₂))
    (hcompute : op.compute? w₂.memory x y = some v) (l : Location) :
    (evaluate scope (.mk (.binary op left right) l)).Gives w (.done v w₂) := by
  refine gives_evaluate.2 ⟨.done v w₂, ?_, rfl⟩
  change (evaluateNode scope (.binary op left right)).Gives w (.done v w₂)
  rw [evaluateNode_binary, gives_bind_of_done hleft, gives_bind_of_done hright]
  exact (gives_lift_ofOption rfl).2 ⟨v, hcompute, rfl⟩

/-- An assignment of a value fails for a parameter, and where the function or callback of the
variable is gone; otherwise it gives the value. -/
lemma gives_set {v : Value} {o : Outcome World Value} :
    (do let _ ← lift (target.set scope v); pure v : Process World Value).Gives w o ↔
      (target.isWritable = false ∧
        o = .failed (.of (.readOnlyReference (target.nameText w scope.engine))) w) ∨
      (target.isWritable ∧ target.Gone w ∧ o = .failed (target.danglingError w scope.engine) w) ∨
      (target.isWritable ∧ ¬target.Gone w ∧ o = .done v (target.written scope.engine v w)) := by
  by_cases hwritable : target.isWritable
  · by_cases hgone : target.Gone w
    · have hset := VarRef.set_of_gone hwritable hgone scope v
      rw [gives_bind_of_failed (gives_lift.2 ⟨.failed _ w, hset⟩)]
      simp [hwritable, hgone]
    · have hset := VarRef.set_of_there hwritable hgone scope v
      rw [gives_bind_of_done (gives_lift.2 ⟨.done () _, hset⟩), gives_pure]
      simp [hwritable, hgone]
  · have hset := VarRef.set_of_readOnly (by simpa using hwritable) scope v w
    rw [gives_bind_of_failed (gives_lift.2 ⟨.failed _ w, hset⟩)]
    simp [hwritable]

/-- What a compound assignment gives, before the node claims the error. -/
lemma gives_assign_op {o : Outcome World Value} :
    (evaluateNode scope (.assign target (some op) value)).Gives w o ↔
      CompoundAssigns scope target op value w o := by
  rw [evaluateNode_assign_op, gives_get_bind]
  constructor
  · rintro (⟨x, hx, hrest⟩ | ⟨err, hx, rfl⟩)
    · rcases gives_bind.1 hrest with ⟨y, w', hy, hcomputed⟩ | ⟨err, w', hy, rfl⟩
      · obtain ⟨v, hcompute, hset⟩ := gives_compute_bind.1 hcomputed
        rcases gives_set.1 hset with ⟨hparameter, rfl⟩ | ⟨hwritable, hgone, rfl⟩ |
          ⟨hwritable, hthere, rfl⟩
        · exact .readOnly hx hy hcompute hparameter
        · exact .gone hx hy hcompute hwritable hgone
        · exact .written hx hy hcompute hwritable hthere
      · exact .operandFails hx hy
    · exact .unreadable hx
  · intro h
    cases h with
    | unreadable hx => exact .inr ⟨_, hx, rfl⟩
    | operandFails hx hy => exact .inl ⟨_, hx, (gives_bind_of_failed hy).2 rfl⟩
    | readOnly hx hy hcompute hparameter =>
      refine .inl ⟨_, hx, (gives_bind_of_done hy).2 (gives_compute_bind.2 ⟨_, hcompute, ?_⟩)⟩
      exact gives_set.2 (.inl ⟨hparameter, rfl⟩)
    | gone hx hy hcompute hwritable hgone =>
      refine .inl ⟨_, hx, (gives_bind_of_done hy).2 (gives_compute_bind.2 ⟨_, hcompute, ?_⟩)⟩
      exact gives_set.2 (.inr (.inl ⟨hwritable, hgone, rfl⟩))
    | written hx hy hcompute hwritable hthere =>
      refine .inl ⟨_, hx, (gives_bind_of_done hy).2 (gives_compute_bind.2 ⟨_, hcompute, ?_⟩)⟩
      exact gives_set.2 (.inr (.inr ⟨hwritable, hthere, rfl⟩))

/-- A compound assignment is its expansion, from each world and for variables of each tier.  Both
read the variable once, before the operand is evaluated, and compute with what they have read.  A
variable that cannot be read keeps the operand from being evaluated; one that cannot be written
makes them fail when the effects of the operand are there. -/
theorem compound_assignment_expands (scope : Scope) (target : VarRef) (op : BinaryOp) (value : Expr)
    (l : Location) (w : World) :
    (evaluate scope (.mk (.assign target (some op) value) l)).SameFrom
      (evaluate scope (.mk (.assign target none
        (.unlocated (.binary op (.unlocated (.var target)) value))) l)) w ∧
    ∀ o, (evaluate scope (.mk (.assign target (some op) value) l)).Gives w o ↔
      ∃ o', CompoundAssigns scope target op value w o' ∧ o = o'.locate l := by
  refine ⟨sameFrom_evaluate_mk (evaluateNode_assign_op_sameFrom target op value w) l, fun o => ?_⟩
  rw [gives_evaluate]
  exact exists_congr fun o' => and_congr_left fun _ => gives_assign_op

end Process

end ScriptEngine
