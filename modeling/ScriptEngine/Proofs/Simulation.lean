import Mathlib.Tactic.Common
import ScriptEngine.Evaluation.Basic

/-!
# Simulations between machines

Two machines run the same tree side by side.  A `Simulation` says when their states correspond while
certain activities are open, and it may let the first machine stray: once its state is lost, nothing
is claimed any more.  `Simulation.Matches` says of two actions that they keep the correspondence: as
long as the first one is not lost, the second one ends in the same way, with the same value or error.

Where the first action gives up, its state is a `cut` state.  The second one need not give up, unless
the two are to go `abreast`.  A simulation of a machine by itself, in which corresponding states are
equal, is an invariant, and `cut` is then what holds wherever an evaluation is broken off.

The lemmas of this file say that the constructions from which an evaluation is built keep matching.
They all come from one lemma about outcomes, `Agrees.follow`.
-/

namespace ScriptEngine

/-- What follows an outcome: `f` after a value, and `g` after an error. -/
def Outcome.follow {σ τ α β : Type} (f : α → σ → Outcome τ β) (g : EvalError → σ → Outcome τ β)
    (up : σ → τ) : Outcome σ α → Outcome τ β
  | done a s => f a s
  | failed e s => g e s
  | unfinished s => .unfinished (up s)

/-- When the states of two machines correspond. -/
structure Simulation (σ τ : Type) where
  /-- The states correspond while the activities are open, innermost first. -/
  rel : List Activity → σ → τ → Prop
  /-- The first machine has strayed. -/
  lost : σ → Prop
  /-- The first machine may be broken off here. -/
  cut : σ → Prop
  /-- The second machine is broken off together with the first one. -/
  abreast : Prop
  cut_of_lost : ∀ {s}, lost s → cut s
  cut_of_rel : ∀ {c s t}, rel c s t → cut s

namespace Simulation

variable {σ τ σ' τ' α β : Type} (S : Simulation σ τ)

/-- The state of the first machine corresponds to the one of the second, or is lost where no second
one is given. -/
def Tied (c : List Activity) (s : σ) : Option τ → Prop
  | some t => S.rel c s t
  | none => S.lost s

/-- The second outcome is what the first one asks for, unless the first one is lost, and the value
satisfies `Q`. -/
def Agrees (c : List Activity) (Q : α → Prop) : Outcome σ α → Option (Outcome τ α) → Prop
  | .done a s, o => Q a ∧ (S.lost s ∨ ∃ t, o = some (.done a t) ∧ S.rel c s t)
  | .failed e s, o => S.lost s ∨ ∃ t, o = some (.failed e t) ∧ S.rel c s t
  | .unfinished s, o =>
    S.cut s ∧ (S.abreast → S.lost s ∨ ∃ d t, o = some (.unfinished t) ∧ S.rel d s t)

/-- Two actions keep the correspondence of states while the activities `c` are open, and the values
of the first one satisfy `Q`. -/
def Matches (c : List Activity) (Q : α → Prop) (x : Action σ α) (y : Action τ α) : Prop :=
  ∀ s t, S.Tied c s t → S.Agrees c Q (x s) (t.map fun t => y t)

/-- No claim about a value. -/
abbrev Anything : α → Prop := fun _ => True

/-- Whatever holds of two states in one simulation holds of the states made from them in another
one. -/
structure Carries (S : Simulation σ τ) (S' : Simulation σ' τ') (f : σ → σ') (g : τ → τ') :
    Prop where
  cut : ∀ s, S.cut s → S'.cut (f s)
  lost : ∀ s, S.lost s → S'.lost (f s)
  rel : ∀ c s t, S.rel c s t → S'.rel c (f s) (g t)
  abreast : S'.abreast → S.abreast

variable {S} {c : List Activity} {Q : α → Prop} {x : Action σ α} {y : Action τ α}

/-! ### Outcomes -/

/-- A state that is tied to another one is one where an evaluation may be broken off. -/
lemma Tied.cut {s : σ} {t : Option τ} (h : S.Tied c s t) : S.cut s := by
  cases t with
  | none => exact S.cut_of_lost h
  | some t => exact S.cut_of_rel h

/-- Two values agree when they are equal and their states are tied. -/
lemma Agrees.done {a : α} {s : σ} {t : Option τ} (ha : Q a) (h : S.Tied c s t) :
    S.Agrees c Q (.done a s) (t.map (.done a)) := by
  cases t with
  | none => exact ⟨ha, Or.inl h⟩
  | some t => exact ⟨ha, Or.inr ⟨t, rfl, h⟩⟩

/-- Two failures agree when the errors are equal and the states are tied. -/
lemma Agrees.failed (e : EvalError) {s : σ} {t : Option τ} (h : S.Tied c s t) :
    S.Agrees c Q (.failed e s) (t.map (.failed e)) := by
  cases t with
  | none => exact Or.inl h
  | some t => exact Or.inr ⟨t, rfl, h⟩

/-- Two values agree also when the second state is made from another one. -/
lemma Agrees.done_map {a : α} {s : σ} {t : Option τ'} {g : τ' → τ} (ha : Q a)
    (h : S.Tied c s (t.map g)) : S.Agrees c Q (.done a s) (t.map fun t => .done a (g t)) := by
  have hdone := Agrees.done ha h
  rwa [Option.map_map] at hdone

/-- Two failures agree also when the second state is made from another one. -/
lemma Agrees.failed_map (e : EvalError) {s : σ} {t : Option τ'} {g : τ' → τ}
    (h : S.Tied c s (t.map g)) : S.Agrees c Q (.failed e s) (t.map fun t => .failed e (g t)) := by
  have hfailed := Agrees.failed (Q := Q) e h
  rwa [Option.map_map] at hfailed

/-- An outcome that agrees with none is lost, and agrees with any. -/
lemma Agrees.of_none {o : Outcome σ α} (h : S.Agrees c Q o none) (o' : Option (Outcome τ α)) :
    S.Agrees c Q o o' := by
  cases o with
  | done a s =>
    obtain ⟨ha, hlost | ⟨t, ht, -⟩⟩ := h
    · exact ⟨ha, Or.inl hlost⟩
    · simp at ht
  | failed e s =>
    rcases h with hlost | ⟨t, ht, -⟩
    · exact Or.inl hlost
    · simp at ht
  | @diverged s =>
    obtain ⟨hcut, hgive⟩ := h
    refine ⟨hcut, fun habreast => Or.inl ?_⟩
    rcases hgive habreast with hlost | ⟨d, t, ht, -⟩
    · exact hlost
    · simp at ht

/-- The states of a simulation as they are. -/
lemma Carries.refl (S : Simulation σ τ) : S.Carries S id id :=
  ⟨fun _ h => h, fun _ h => h, fun _ _ _ h => h, id⟩

/-- What follows two outcomes that agree does so too, if it does after values and errors in tied
states. -/
lemma Agrees.follow {o : Outcome σ α} {o' : Option (Outcome τ α)} (h : S.Agrees c Q o o')
    {S' : Simulation σ' τ'} {up : σ → σ'} {up' : τ → τ'} (hup : S.Carries S' up up')
    (c' : List Activity) (Q' : β → Prop)
    (f : α → σ → Outcome σ' β) (f' : α → τ → Outcome τ' β)
    (g : EvalError → σ → Outcome σ' β) (g' : EvalError → τ → Outcome τ' β)
    (hdone : ∀ a s t, Q a → S.Tied c s t → S'.Agrees c' Q' (f a s) (t.map (f' a)))
    (hfailed : ∀ e s t, S.Tied c s t → S'.Agrees c' Q' (g e s) (t.map (g' e))) :
    S'.Agrees c' Q' (o.follow f g up) (o'.map (·.follow f' g' up')) := by
  cases o with
  | done a s =>
    obtain ⟨ha, hlost | ⟨t, rfl, hrel⟩⟩ := h
    · exact (hdone a s none ha hlost).of_none _
    · exact hdone a s (some t) ha hrel
  | failed e s =>
    rcases h with hlost | ⟨t, rfl, hrel⟩
    · exact (hfailed e s none hlost).of_none _
    · exact hfailed e s (some t) hrel
  | @diverged s =>
    obtain ⟨hcut, hgive⟩ := h
    refine ⟨hup.cut s hcut, fun habreast => ?_⟩
    rcases hgive (hup.abreast habreast) with hlost | ⟨d, t, rfl, hrel⟩
    · exact Or.inl (hup.lost s hlost)
    · exact Or.inr ⟨d, up' t, rfl, hup.rel d s t hrel⟩

/-! ### Single actions -/

/-- Two actions that give the same value and leave tied states tied match. -/
lemma Matches.of_done {a : α} {f : σ → σ} {g : τ → τ} (ha : Q a)
    (h : ∀ s t, S.Tied c s t → S.Tied c (f s) (t.map g)) :
    S.Matches c Q (fun s => .done a (f s)) (fun t => .done a (g t)) :=
  fun s t hst => Agrees.done_map ha (h s t hst)

/-- A value that is there already keeps all states as they are. -/
lemma Matches.pure {a : α} (ha : Q a) :
    S.Matches c Q (Pure.pure a : Action σ α) (Pure.pure a : Action τ α) :=
  fun _ _ hst => Agrees.done ha hst

/-- Both sides fail with the same error. -/
lemma Matches.fail (e : EvalError) :
    S.Matches c Q (Action.fail e : Action σ α) (Action.fail e : Action τ α) :=
  fun _ _ hst => Agrees.failed e hst

/-- An action that gives up matches everything, unless the other one has to give up as well. -/
lemma Matches.diverge (hy : S.abreast → y = Action.diverge) :
    S.Matches c Q (Action.diverge : Action σ α) y := by
  intro s t hst
  refine ⟨hst.cut, fun habreast => ?_⟩
  rw [hy habreast]
  cases t with
  | none => exact Or.inl hst
  | some t => exact Or.inr ⟨c, t, rfl, hst⟩

/-- A result that is known already. -/
lemma Matches.ofResult (result : Except EvalError α) :
    S.Matches c Anything (Action.ofResult result : Action σ α) (Action.ofResult result) := by
  cases result with
  | ok a => exact Matches.pure trivial
  | error e => exact Matches.fail e

/-- The claim about values may be weakened. -/
lemma Matches.mono {Q' : α → Prop} (h : S.Matches c Q x y) (hQ : ∀ a, Q a → Q' a) :
    S.Matches c Q' x y := by
  intro s t hst
  have hxy := h s t hst
  cases hx : x s with
  | done a s' =>
    rw [hx] at hxy
    exact ⟨hQ a hxy.1, hxy.2⟩
  | failed e s' =>
    rw [hx] at hxy
    exact hxy
  | @diverged s' =>
    rw [hx] at hxy
    exact hxy

/-! ### Composed actions -/

/-- One action after another. -/
lemma Matches.bind {Q' : β → Prop} {f : α → Action σ β} {g : α → Action τ β}
    (h : S.Matches c Q x y) (hf : ∀ a, Q a → S.Matches c Q' (f a) (g a)) :
    S.Matches c Q' (x >>= f) (y >>= g) := by
  intro s t hst
  have hxy := (h s t hst).follow (Carries.refl S) c Q' f g .failed .failed
    (fun a s t ha hst => hf a ha s t hst) (fun e s t hst => Agrees.failed e hst)
  rwa [Option.map_map] at hxy

/-- The errors of both sides are changed in the same way. -/
lemma Matches.mapError (h : S.Matches c Q x y) (change : EvalError → EvalError) :
    S.Matches c Q (x.mapError change) (y.mapError change) := by
  intro s t hst
  have hxy := (h s t hst).follow (Carries.refl S) c Q .done .done
    (fun e => .failed (change e)) (fun e => .failed (change e))
    (fun a s t ha hst => Agrees.done ha hst) (fun e s t hst => Agrees.failed (change e) hst)
  rwa [Option.map_map] at hxy

/-- An error on both sides becomes the same result, and a value is known as before. -/
lemma Matches.attempt_result (h : S.Matches c Q x y) :
    S.Matches c (fun result => ∀ a, result = .ok a → Q a) x.attempt y.attempt := by
  intro s t hst
  have hxy := (h s t hst).follow (Carries.refl S) c (fun result => ∀ a, result = .ok a → Q a)
    (fun a => .done (Except.ok a)) (fun a => .done (Except.ok a))
    (fun e => .done (Except.error e)) (fun e => .done (Except.error e))
    (fun a s t ha hst => Agrees.done (fun b hb => Except.ok.inj hb ▸ ha) hst)
    (fun e s t hst => Agrees.done (fun b hb => nomatch hb) hst)
  rwa [Option.map_map] at hxy

/-- An error on both sides becomes the same result. -/
lemma Matches.attempt (h : S.Matches c Q x y) : S.Matches c Anything x.attempt y.attempt :=
  h.attempt_result.mono fun _ _ => trivial

/-- An activity that is begun and ended on both sides. -/
lemma Matches.during {m : Machine σ} {n : Machine τ} {a a' : Activity}
    (henter : ∀ s t, S.Tied c s t → S.Tied (a :: c) (m.enter a s) (t.map (n.enter a')))
    (hleave : ∀ s t, S.Tied (a :: c) s t → S.Tied c (m.leave a s) (t.map (n.leave a')))
    (h : S.Matches (a :: c) Q x y) : S.Matches c Q (m.during a x) (n.during a' y) := by
  intro s t hst
  have hxy := (h _ _ (henter s t hst)).follow (Carries.refl S) c Q
    (fun v s => .done v (m.leave a s)) (fun v t => .done v (n.leave a' t))
    (fun e s => .failed e (m.leave a s)) (fun e t => .failed e (n.leave a' t))
    (fun v s t hv hst => Agrees.done_map hv (hleave s t hst))
    (fun e s t hst => Agrees.failed_map e (hleave s t hst))
  rwa [Option.map_map, Option.map_map] at hxy

/-- A loop whose rounds match ends in the same way on the second side, where it may go round more
often. -/
lemma Matches.repeatUpTo {body : Action σ (Option α)} {body' : Action τ (Option α)}
    (h : S.Matches c Anything body body') {bound bound' : ℕ} (hb : bound ≤ bound')
    (habreast : S.abreast → bound = bound') :
    S.Matches c Anything (Action.repeatUpTo bound body) (Action.repeatUpTo bound' body') := by
  induction bound generalizing bound' with
  | zero =>
    refine Matches.diverge fun hS => ?_
    rw [← habreast hS]
    rfl
  | succ bound ih =>
    obtain ⟨bound', rfl⟩ : ∃ k, bound' = k + 1 := ⟨bound' - 1, by omega⟩
    have hrest := ih (Nat.le_of_succ_le_succ hb) fun hS => Nat.succ.inj (habreast hS)
    rw [Action.repeatUpTo_succ, Action.repeatUpTo_succ]
    refine h.bind fun o _ => ?_
    cases o with
    | none => exact hrest
    | some a => exact Matches.pure trivial

/-! ### Bodies at work -/

/-- The activations of a body correspond when the states do and the values to return are equal. -/
def activation (S : Simulation σ τ) : Simulation (Activation σ) (Activation τ) where
  rel c a b := S.rel c a.state b.state ∧ a.returned = b.returned
  lost a := S.lost a.state
  cut a := S.cut a.state
  abreast := S.abreast
  cut_of_lost h := S.cut_of_lost h
  cut_of_rel h := S.cut_of_rel h.1

/-- The states of a body that is given up. -/
lemma Carries.within (v : Value) :
    S.Carries S.activation (fun s => ⟨s, v⟩) (fun t => ⟨t, v⟩) :=
  ⟨fun _ h => h, fun _ h => h, fun _ _ _ h => ⟨h, rfl⟩, id⟩

/-- The states that a body leaves behind when it is given up. -/
lemma Carries.state : S.activation.Carries S Activation.state Activation.state :=
  ⟨fun _ h => h, fun _ h => h, fun _ _ _ h => h.1, id⟩

/-- Activations with the same value to return are tied when their states are. -/
lemma Tied.activation {s : σ} {t : Option τ} (h : S.Tied c s t) (v : Value) :
    S.activation.Tied c ⟨s, v⟩ (t.map fun t => ⟨t, v⟩) := by
  cases t with
  | none => exact h
  | some t => exact ⟨h, rfl⟩

/-- Tied activations have tied states and the same value to return. -/
lemma Tied.exists_state {a : Activation σ} {b : Option (Activation τ)}
    (h : S.activation.Tied c a b) :
    ∃ t, S.Tied c a.state t ∧ b = t.map fun t => ⟨t, a.returned⟩ := by
  cases b with
  | none => exact ⟨none, h, rfl⟩
  | some b =>
    obtain ⟨t, v⟩ := b
    obtain ⟨hrel, hv⟩ := h
    refine ⟨some t, hrel, ?_⟩
    rw [Option.map_some, hv]

/-- What matches on the states matches in a body. -/
lemma Matches.within (h : S.Matches c Q x y) :
    S.activation.Matches c Q (Activation.within x) (Activation.within y) := by
  intro a b hab
  obtain ⟨t, hst, rfl⟩ := hab.exists_state
  obtain ⟨s, v⟩ := a
  have hxy := (h s t hst).follow (Carries.within v) c Q
    (fun a s => .done a ⟨s, v⟩) (fun a t => .done a ⟨t, v⟩)
    (fun e s => .failed e ⟨s, v⟩) (fun e t => .failed e ⟨t, v⟩)
    (fun a s t ha hst => Agrees.done_map ha (hst.activation v))
    (fun e s t hst => Agrees.failed_map e (hst.activation v))
  rw [Option.map_map] at hxy ⊢
  exact hxy

/-- The value to return is set on both sides. -/
lemma Matches.setReturned (v : Value) :
    S.activation.Matches c Anything (Activation.setReturned v : Action (Activation σ) Unit)
      (Activation.setReturned v) := by
  refine Matches.of_done trivial fun a b hab => ?_
  cases b with
  | none => exact hab
  | some b => exact ⟨hab.1, rfl⟩

end Simulation

end ScriptEngine
