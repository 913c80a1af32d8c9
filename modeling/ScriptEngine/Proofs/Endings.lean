import Mathlib.Tactic.Common
import ScriptEngine.Evaluation.Basic

/-!
# Actions that end

An action `Ends` if it ends with a value or an error from every state that satisfies an invariant;
the states in which it ends satisfy the invariant again, and the value satisfies a claim.

Invariant and claim may depend on a number that grows in the course of the action, such as the number
of arrays in a world.  What was claimed of an earlier value has to be carried over to larger numbers
by whoever uses it.

The lemmas of this file say that what is put together from actions that end does end.
-/

namespace ScriptEngine

variable {σ α β : Type}

/-- The action has ended in a state that satisfies the invariant for some number from `n` on, and a
value satisfies `Q` for that number. -/
def Outcome.Ends (I : ℕ → σ → Prop) (n : ℕ) (Q : ℕ → α → Prop) : Outcome σ α → Prop
  | done a s => ∃ k, n ≤ k ∧ I k s ∧ Q k a
  | failed _ s => ∃ k, n ≤ k ∧ I k s
  | unfinished _ => False

/-- The action ends from each state that satisfies the invariant for `n`. -/
def Action.Ends (I : ℕ → σ → Prop) (n : ℕ) (Q : ℕ → α → Prop) (x : Action σ α) : Prop :=
  ∀ s, I n s → (x s).Ends I n Q

namespace Outcome.Ends

variable {I : ℕ → σ → Prop} {n : ℕ} {Q : ℕ → α → Prop} {o : Outcome σ α}

/-- The two ways in which an action ends. -/
lemma eq_done_or_failed (h : o.Ends I n Q) :
    (∃ k a s, o = .done a s ∧ n ≤ k ∧ I k s ∧ Q k a) ∨
      ∃ k e s, o = .failed e s ∧ n ≤ k ∧ I k s := by
  cases o with
  | done a s =>
    obtain ⟨k, hnk, hs, ha⟩ := h
    exact Or.inl ⟨k, a, s, rfl, hnk, hs, ha⟩
  | failed e s =>
    obtain ⟨k, hnk, hs⟩ := h
    exact Or.inr ⟨k, e, s, rfl, hnk, hs⟩
  | @diverged s => exact h.elim

/-- An outcome from a larger number is one from a smaller number. -/
lemma of_le {k : ℕ} (h : o.Ends I k Q) (hnk : n ≤ k) : o.Ends I n Q := by
  rcases h.eq_done_or_failed with ⟨j, a, s, rfl, hkj, hs, ha⟩ | ⟨j, e, s, rfl, hkj, hs⟩
  · exact ⟨j, Nat.le_trans hnk hkj, hs, ha⟩
  · exact ⟨j, Nat.le_trans hnk hkj, hs⟩

end Outcome.Ends

namespace Action.Ends

variable {I : ℕ → σ → Prop} {n : ℕ} {Q : ℕ → α → Prop} {R : ℕ → β → Prop} {x : Action σ α}

/-- A value that is there already. -/
lemma pure {a : α} (ha : Q n a) : (Pure.pure a : Action σ α).Ends I n Q :=
  fun _ hs => ⟨n, Nat.le_refl n, hs, ha⟩

/-- A failure. -/
lemma fail (e : EvalError) : (Action.fail e : Action σ α).Ends I n Q :=
  fun _ hs => ⟨n, Nat.le_refl n, hs⟩

/-- A result that is known already. -/
lemma ofResult {result : Except EvalError α} (h : ∀ a, result = .ok a → Q n a) :
    (Action.ofResult result : Action σ α).Ends I n Q := by
  cases result with
  | ok a => exact pure (h a rfl)
  | error e => exact fail e

/-- One action after another. -/
lemma bind {f : α → Action σ β} (h : x.Ends I n Q)
    (hf : ∀ k a, n ≤ k → Q k a → (f a).Ends I k R) : (x >>= f).Ends I n R := by
  intro s hs
  rw [Action.bind_apply]
  rcases (h s hs).eq_done_or_failed with ⟨k, a, s', hx, hnk, hs', ha⟩ | ⟨k, e, s', hx, hnk, hs'⟩
  · rw [hx]
    exact (hf k a hnk ha s' hs').of_le hnk
  · rw [hx]
    exact ⟨k, hnk, hs'⟩

/-- The state is looked at first. -/
lemma state_bind {f : σ → Action σ α} {s : σ} (hs : I n s) (h : (f s).Ends I n Q) :
    ((Action.state >>= f) s).Ends I n Q :=
  h s hs

/-- The error of an action is changed. -/
lemma mapError (h : x.Ends I n Q) (change : EvalError → EvalError) :
    (x.mapError change).Ends I n Q := by
  intro s hs
  unfold Action.mapError
  rcases (h s hs).eq_done_or_failed with ⟨k, a, s', hx, hnk, hs', ha⟩ | ⟨k, e, s', hx, hnk, hs'⟩
  · rw [hx]
    exact ⟨k, hnk, hs', ha⟩
  · rw [hx]
    exact ⟨k, hnk, hs'⟩

/-- An error becomes a result. -/
lemma attempt (h : x.Ends I n Q) :
    x.attempt.Ends I n fun k result => ∀ a, result = .ok a → Q k a := by
  intro s hs
  unfold Action.attempt
  rcases (h s hs).eq_done_or_failed with ⟨k, a, s', hx, hnk, hs', ha⟩ | ⟨k, e, s', hx, hnk, hs'⟩
  · rw [hx]
    refine ⟨k, hnk, hs', fun b hb => ?_⟩
    obtain rfl := Except.ok.inj hb
    exact ha
  · rw [hx]
    exact ⟨k, hnk, hs', fun b hb => nomatch hb⟩

/-- An activity that begins and ends. -/
lemma during {m : Machine σ} {a : Activity} (h : x.Ends I n Q)
    (henter : ∀ s, I n s → I n (m.enter a s)) (hleave : ∀ k s, I k s → I k (m.leave a s)) :
    (m.during a x).Ends I n Q := by
  intro s hs
  change (x.ensuring (m.leave a) (m.enter a s)).Ends I n Q
  unfold Action.ensuring
  rcases (h _ (henter s hs)).eq_done_or_failed with
    ⟨k, v, s', hx, hnk, hs', hv⟩ | ⟨k, e, s', hx, hnk, hs'⟩
  · rw [hx]
    exact ⟨k, hnk, hleave k s' hs', hv⟩
  · rw [hx]
    exact ⟨k, hnk, hleave k s' hs'⟩

end Action.Ends

/-! ### Bodies at work -/

/-- The state of a body satisfies the invariant, and the value to return satisfies `V`. -/
structure Activation.Satisfies (I : ℕ → σ → Prop) (V : ℕ → Value → Prop) (n : ℕ)
    (a : Activation σ) : Prop where
  state : I n a.state
  returned : V n a.returned

namespace Action.Ends

variable {I : ℕ → σ → Prop} {n : ℕ} {Q : ℕ → α → Prop} {V : ℕ → Value → Prop} {x : Action σ α}

/-- What ends on the states ends in a body, if larger numbers keep the claim about the value to
return. -/
lemma within (h : x.Ends I n Q) (hV : ∀ {j k v}, V j v → j ≤ k → V k v) :
    (Activation.within x).Ends (Activation.Satisfies I V) n Q := by
  rintro ⟨s, v⟩ ⟨hs, hv⟩
  unfold Activation.within
  dsimp only
  rcases (h s hs).eq_done_or_failed with ⟨k, a, s', hx, hnk, hs', ha⟩ | ⟨k, e, s', hx, hnk, hs'⟩
  · rw [hx]
    exact ⟨k, hnk, ⟨hs', hV hv hnk⟩, ha⟩
  · rw [hx]
    exact ⟨k, hnk, ⟨hs', hV hv hnk⟩⟩

/-- The value to return is set. -/
lemma setReturned {v : Value} (hv : V n v) :
    (Activation.setReturned v : Action (Activation σ) Unit).Ends (Activation.Satisfies I V) n
      fun _ _ => True :=
  fun _ ha => ⟨n, Nat.le_refl n, ⟨ha.state, hv⟩, trivial⟩

/-- A body returns what its statement has set. -/
lemma run {r : Evaluator σ} {scope : Scope} {body : Stmt}
    (h : (r.perform scope body).Ends (Activation.Satisfies I V) n fun _ _ => True)
    (hV : ∀ k, V k .undefined) : (r.run scope body).Ends I n V := by
  intro s hs
  unfold Evaluator.run
  rcases (h ⟨s, .undefined⟩ ⟨hs, hV n⟩).eq_done_or_failed with
    ⟨k, signal, a, hx, hnk, ha, -⟩ | ⟨k, e, a, hx, hnk, ha⟩
  · rw [hx]
    refine ⟨k, hnk, ha.state, ?_⟩
    split
    · exact ha.returned
    · exact hV k
  · rw [hx]
    exact ⟨k, hnk, ha.state⟩

end Action.Ends

end ScriptEngine
