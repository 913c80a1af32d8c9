import ScriptEngine.Proofs.Changes
import ScriptEngine.Proofs.Lockstep

/-!
# Histories

The machine `Machine.traced` does what the engine does and writes down what happens: each beginning
and end of an activity, each command, each read of a parameter and each mark, together with the world
as it is right afterwards.  A claim about the course of an evaluation is a claim about its history.

Nothing in an evaluation depends on the history: without it, a traced evaluation is the evaluation of
the engine, also where it is broken off (`Evaluator.traced_erases`).

The host is described by the list of its entries, each of which may fail.
-/

namespace ScriptEngine

/-! ### Outcomes -/

namespace Outcome

variable {σ τ α : Type}

/-- The same outcome, with what is left of the state. -/
def mapState (p : σ → τ) : Outcome σ α → Outcome τ α
  | done a s => done a (p s)
  | failed e s => failed e (p s)
  | unfinished s => unfinished (p s)

/-- The action was not given up. -/
inductive Finished : Outcome σ α → Prop
  | done (a : α) (s : σ) : Finished (done a s)
  | failed (e : EvalError) (s : σ) : Finished (failed e s)

/-- An action that was given up is not finished. -/
lemma not_finished (s : σ) : ¬Finished (unfinished s : Outcome σ α) :=
  fun h => nomatch h

instance : DecidablePred (Finished (σ := σ) (α := α))
  | done a s => isTrue (.done a s)
  | failed e s => isTrue (.failed e s)
  | unfinished s => isFalse (not_finished s)

/-- An outcome with the state as it is. -/
lemma mapState_id (o : Outcome σ α) : o.mapState id = o := by
  cases o <;> rfl

/-- What is left of the state in the end. -/
lemma state_mapState (p : σ → τ) (o : Outcome σ α) : (o.mapState p).state = p o.state := by
  cases o <;> rfl

/-- What is left of the state makes no difference to the value. -/
lemma value?_mapState (p : σ → τ) (o : Outcome σ α) : (o.mapState p).value? = o.value? := by
  cases o <;> rfl

end Outcome

/-- What acts on the state alone keeps the value to return. -/
lemma Activation.within_apply {σ α : Type} (x : Action σ α) (s : σ) (v : Value) :
    Activation.within x ⟨s, v⟩ = (x s).mapState fun state => ⟨state, v⟩ := by
  unfold Activation.within
  cases h : x s <;> simp only [h] <;> rfl

/-! ### Events -/

/-- What happens to the state of a machine. -/
inductive Event where
  | began (a : Activity)
  | ended (a : Activity)
  /-- A command is carried out. -/
  | acted
  /-- The argument of a parameter is asked for. -/
  | read (f : Id .function) (i : ℕ)
  | marked (mark : Mark)

/-- An event, and the world right after it. -/
structure Moment where
  event : Event
  world : World

/-- All that has happened, newest first. -/
abbrev History := List Moment

namespace History

/-- The activities that have begun and not ended, innermost first. -/
def openActivities : History → List Activity
  | [] => []
  | ⟨.began a, _⟩ :: past => a :: openActivities past
  | ⟨.ended _, _⟩ :: past => (openActivities past).tail
  | ⟨.acted, _⟩ :: past | ⟨.read _ _, _⟩ :: past | ⟨.marked _, _⟩ :: past => openActivities past

/-- Activities end in the reverse of the order in which they began, and `c` are open. -/
inductive Nested : History → List Activity → Prop
  | nil : Nested [] []
  | began {past c} (a w) (h : Nested past c) : Nested (⟨.began a, w⟩ :: past) (a :: c)
  | ended {past c} (a w) (h : Nested past (a :: c)) : Nested (⟨.ended a, w⟩ :: past) c
  | acted {past c} (w) (h : Nested past c) : Nested (⟨.acted, w⟩ :: past) c
  | read {past c} (f i w) (h : Nested past c) : Nested (⟨.read f i, w⟩ :: past) c
  | marked {past c} (mark w) (h : Nested past c) : Nested (⟨.marked mark, w⟩ :: past) c

/-- A history that leaves `c` open has the open activities `c`. -/
lemma Nested.openActivities_eq {h : History} {c : List Activity} (hc : Nested h c) :
    openActivities h = c := by
  induction hc with
  | nil => rfl
  | began a w h ih => rw [openActivities, ih]
  | ended a w h ih => rw [openActivities, ih, List.tail_cons]
  | acted w h ih | read f i w h ih | marked mark w h ih => rw [openActivities, ih]

/-- A claim holds of every moment and of what had happened until then. -/
def Always (p : Moment → History → Prop) (h : History) : Prop :=
  ∀ moment past, moment :: past <:+ h → p moment (moment :: past)

/-- Nothing has happened yet. -/
lemma Always.nil (p : Moment → History → Prop) : Always p [] := by
  intro moment past h
  have hlength := h.length_le
  simp at hlength

/-- One more moment. -/
lemma Always.cons {p : Moment → History → Prop} {moment : Moment} {past : History}
    (hpast : Always p past) (h : p moment (moment :: past)) : Always p (moment :: past) := by
  intro m older hm
  rcases List.suffix_cons_iff.1 hm with heq | hsuffix
  · obtain ⟨rfl, rfl⟩ := List.cons.inj heq
    exact h
  · exact hpast m older hsuffix

/-- A claim holds of every moment if it holds of the last one and of the earlier ones. -/
lemma always_cons_iff {p : Moment → History → Prop} {moment : Moment} {past : History} :
    Always p (moment :: past) ↔ p moment (moment :: past) ∧ Always p past := by
  constructor
  · intro h
    exact ⟨h moment past List.suffix_rfl, fun m older hm => h m older (hm.trans (past.suffix_cons _))⟩
  · rintro ⟨h, hpast⟩
    exact hpast.cons h

instance Always.decidable (p : Moment → History → Prop) [∀ moment h, Decidable (p moment h)] :
    (h : History) → Decidable (Always p h)
  | [] => isTrue (.nil p)
  | _ :: past =>
    have := Always.decidable p past
    decidable_of_iff _ always_cons_iff.symm

/-- What holds of every moment holds of the moments of a part. -/
lemma Always.of_suffix {p : Moment → History → Prop} {h part : History} (hh : Always p h)
    (hpart : part <:+ h) : Always p part :=
  fun moment past hm => hh moment past (hm.trans hpart)

/-- What holds of every moment holds of the last one. -/
lemma Always.head {p : Moment → History → Prop} {moment : Moment} {past : History}
    (h : Always p (moment :: past)) : p moment (moment :: past) :=
  (always_cons_iff.1 h).1

/-- What holds of every moment holds of the earlier ones. -/
lemma Always.tail {p : Moment → History → Prop} {moment : Moment} {past : History}
    (h : Always p (moment :: past)) : Always p past :=
  (always_cons_iff.1 h).2

/-- Activities were nested until each moment. -/
lemma Nested.of_suffix {h part : History} {c : List Activity} (hh : Nested h c)
    (hpart : part <:+ h) : ∃ d, Nested part d := by
  induction hh with
  | nil =>
    rw [List.suffix_nil.1 hpart]
    exact ⟨[], .nil⟩
  | began a w hpast ih =>
    rcases List.suffix_cons_iff.1 hpart with rfl | hsuffix
    · exact ⟨_, .began a w hpast⟩
    · exact ih hsuffix
  | ended a w hpast ih =>
    rcases List.suffix_cons_iff.1 hpart with rfl | hsuffix
    · exact ⟨_, .ended a w hpast⟩
    · exact ih hsuffix
  | acted w hpast ih =>
    rcases List.suffix_cons_iff.1 hpart with rfl | hsuffix
    · exact ⟨_, .acted w hpast⟩
    · exact ih hsuffix
  | read f i w hpast ih =>
    rcases List.suffix_cons_iff.1 hpart with rfl | hsuffix
    · exact ⟨_, .read f i w hpast⟩
    · exact ih hsuffix
  | marked mark w hpast ih =>
    rcases List.suffix_cons_iff.1 hpart with rfl | hsuffix
    · exact ⟨_, .marked mark w hpast⟩
    · exact ih hsuffix

end History

/-! ### The traced machine -/

/-- A world, and what a machine remembers besides. -/
structure Recorded (γ : Type) where
  world : World
  record : γ

/-- A world with its history. -/
abbrev Traced := Recorded History

namespace Recorded

/-- The world after an event, and the event. -/
def log (s : Traced) (event : Event) (w : World) : Traced :=
  ⟨w, ⟨event, w⟩ :: s.record⟩

/-- Act on the world, which is an event. -/
def acting {α : Type} (event : Event) (x : Action World α) : Action Traced α := fun s =>
  (x s.world).mapState (s.log event)

end Recorded

namespace Machine

/-- The engine, which writes down what happens. -/
def traced : Machine Traced where
  exec k := Recorded.acting .acted k.run
  enter a s := s.log (.began a) (a.enter s.world)
  leave a s := s.log (.ended a) (a.leave s.world)
  argument? f i := Recorded.acting (.read f i) (shared.argument? f i)
  note mark s := s.log (.marked mark) s.world

end Machine

/-! ### Erasing the history -/

namespace Simulation

variable {σ τ ρ α : Type} {S : Simulation σ τ} {c : List Activity} {Q : α → Prop}
  {x : Action σ α} {y : Action τ α}

/-- Two actions match when their outcomes agree in states that correspond and in lost ones. -/
lemma Matches.of_agrees (hrel : ∀ s t, S.rel c s t → S.Agrees c Q (x s) (some (y t)))
    (hlost : ∀ s, S.lost s → S.Agrees c Q (x s) none) : S.Matches c Q x y := by
  intro s t hst
  cases t with
  | none => exact hlost s hst
  | some t => exact hrel s t hst

/-- Where matching actions go abreast and the first one is not lost, the outcomes differ only in
what the machines remember. -/
lemma Matches.mapState_eq (h : S.Matches c Q x y) (habreast : S.abreast) {p : σ → ρ} {q : τ → ρ}
    (hpq : ∀ d s t, S.rel d s t → p s = q t) {s : σ} {t : τ} (hst : S.rel c s t)
    (hlost : ¬S.lost (x s).state) : (x s).mapState p = (y t).mapState q := by
  have hxy : S.Agrees c Q (x s) (some (y t)) := h s (some t) hst
  cases hx : x s with
  | done a s' =>
    rw [hx] at hxy hlost
    rcases hxy.2 with hl | ⟨t', ht, hrel⟩
    · exact absurd hl hlost
    · rw [Option.some.inj ht, Outcome.mapState, Outcome.mapState, hpq c s' t' hrel]
  | failed e s' =>
    rw [hx] at hxy hlost
    rcases hxy with hl | ⟨t', ht, hrel⟩
    · exact absurd hl hlost
    · rw [Option.some.inj ht, Outcome.mapState, Outcome.mapState, hpq c s' t' hrel]
  | @diverged s' =>
    rw [hx] at hxy hlost
    rcases hxy.2 habreast with hl | ⟨d, t', ht, hrel⟩
    · exact absurd hl hlost
    · rw [Option.some.inj ht]
      have hp := hpq d s' t' hrel
      exact congrArg Outcome.unfinished hp

/-- The traced machine and the engine, in the same world. -/
def erasure : Simulation Traced World where
  rel _ s w := s.world = w
  lost _ := False
  cut _ := True
  abreast := True
  cut_of_lost _ := trivial
  cut_of_rel _ := trivial

/-- What acts on the world alone matches itself without the history. -/
lemma Matches.erase (event : Event) (x : Action World α) :
    erasure.Matches c Anything (Recorded.acting event x) x := by
  refine Matches.of_agrees ?_ fun s hs => hs.elim
  rintro s _ rfl
  rw [Recorded.acting]
  cases x s.world with
  | done a w => exact ⟨trivial, Or.inr ⟨w, rfl, rfl⟩⟩
  | failed e w => exact Or.inr ⟨w, rfl, rfl⟩
  | @diverged w => exact ⟨trivial, fun _ => Or.inr ⟨[], w, rfl, rfl⟩⟩

/-- States that are tied by the erasure stay so when the worlds change alike. -/
lemma erasure_tied {c d : List Activity} {s : Traced} {t : Option World}
    (h : erasure.Tied c s t) (event : Event) (change : World → World) :
    erasure.Tied d (s.log event (change s.world)) (t.map change) := by
  cases t with
  | none => exact h.elim
  | some w => exact congrArg change h

/-- The traced machine does in each step what the engine does. -/
lemma erasure_respects : erasure.Respects Machine.traced Machine.shared Coverage.all where
  exec _ _ k := (Matches.erase .acted k.run).mono fun a _ => Coverage.yields_all k a
  enter _ a _ _ _ hst := erasure_tied hst (.began a) a.enter
  leave _ a _ _ hst := erasure_tied hst (.ended a) a.leave
  argument _ f i := Matches.erase (.read f i) (Machine.shared.argument? f i)
  evaluating _ scope e _ _ _ hst := erasure_tied hst (.marked (.evaluating scope e)) id
  note _ mark _ _ _ _ hst := erasure_tied hst (.marked mark) id

end Simulation

/-! ### The host at work -/

/-- How the host enters an engine. -/
inductive Entry where
  | execute (script : Stmt)
  | call (name : String) (args : List Value)
  | invoke (name : String) (args : List Value)

/-- The script of an entry is covered. -/
def Coverage.CoversEntry (D : Coverage) : Entry → Prop
  | .execute script => D.CoversStmt script
  | .call _ _ | .invoke _ _ => True

/-- All covers every entry. -/
lemma Coverage.coversEntry_all (entry : Entry) : Coverage.all.CoversEntry entry := by
  cases entry with
  | execute script => exact script.everywhere_of_forall (fun _ => trivial) fun _ => trivial
  | call name args | invoke name args => trivial

namespace Evaluator

section

variable {σ : Type} (r : Evaluator σ)

/-- Enter an engine. -/
def enter (e : Id .engine) : Entry → Action σ Value
  | .execute script => r.execute e script
  | .call name args => r.callNamed e name args
  | .invoke name args => r.invokeNamed e name args

/-- Enter engines one after another, whether the entries fail or not. -/
def enterAll : List (Id .engine × Entry) → Action σ (List (Except EvalError Value))
  | [] => pure []
  | (e, entry) :: rest => do
    let result ← (r.enter e entry).attempt
    let results ← enterAll rest
    return result :: results

/-- Perform a statement outside of all bodies: the signal, and the value that a `return` has set. -/
def signalOf (scope : Scope) (s : Stmt) : Action σ (Signal × Value) := fun state =>
  match r.perform scope s ⟨state, .undefined⟩ with
  | .done signal a => .done (signal, a.returned) a.state
  | .failed e a => .failed e a.state
  | .unfinished a => .unfinished a.state

/-- The signal and the value to return are read off the statement. -/
lemma signalOf_eq_readOff (scope : Scope) (s : Stmt) :
    r.signalOf scope s = r.readOff scope s Prod.mk := by
  funext state
  unfold signalOf readOff
  cases r.perform scope s ⟨state, .undefined⟩ <;> rfl

end

open Simulation

variable {σ τ : Type} {S : Simulation σ τ} {D : Coverage} {r : Evaluator σ} {r' : Evaluator τ}
  (h : Simulates S D r r') (c : List Activity)

include h

namespace Simulates

/-- An entry gives the same result on both sides. -/
lemma enter (e : Id .engine) {entry : Entry} (hentry : D.CoversEntry entry) :
    S.Matches c Anything (r.enter e entry) (r'.enter e entry) := by
  cases entry with
  | execute script => exact h.execute c e hentry
  | call name args => exact h.callNamed c e name args
  | invoke name args => exact h.invokeNamed c e name args

/-- A series of entries gives the same results. -/
lemma enterAll {entries : List (Id .engine × Entry)}
    (hentries : ∀ x ∈ entries, D.CoversEntry x.2) :
    S.Matches c Anything (r.enterAll entries) (r'.enterAll entries) := by
  induction entries with
  | nil => exact Matches.pure trivial
  | cons x rest ih =>
    obtain ⟨e, entry⟩ := x
    have hfirst := h.enter c e (hentries (e, entry) (by simp))
    refine hfirst.attempt.bind fun result _ => ?_
    refine (ih fun x hx => hentries x (by simp [hx])).bind fun results _ => ?_
    exact Matches.pure trivial

/-- A statement outside of all bodies ends with the same signal. -/
lemma signalOf {scope : Scope} (hscope : D.reaches scope) (hc : D.performs c) {s : Stmt}
    (hs : D.CoversStmt s) :
    S.Matches c Anything (r.signalOf scope s) (r'.signalOf scope s) := by
  rw [signalOf_eq_readOff, signalOf_eq_readOff]
  exact h.readOff c hscope hc hs Prod.mk

end Simulates

end Evaluator

/-- A traced evaluator corresponds to the one of the engine. -/
lemma Evaluator.traced_simulates (bound : ℕ) :
    Evaluator.Simulates Simulation.erasure Coverage.all (Evaluator.within .traced bound)
      (Evaluator.shared bound) :=
  Evaluator.Simulates.within Simulation.erasure_respects (Nat.le_refl bound) fun _ => rfl

/-- Whatever corresponds under the erasure is, without the history, what the engine does. -/
theorem Simulation.Matches.erases {α : Type} {c : List Activity} {x : Action Traced α}
    {y : Action World α} (h : Simulation.erasure.Matches c Simulation.Anything x y) (s : Traced) :
    (x s).mapState (·.world) = y s.world := by
  have hstate : ∀ (d : List Activity) (s : Traced) (w : World),
      Simulation.erasure.rel d s w → s.world = id w := fun d s w hsw => hsw
  rw [h.mapState_eq trivial hstate rfl not_false, Outcome.mapState_id]

end ScriptEngine
