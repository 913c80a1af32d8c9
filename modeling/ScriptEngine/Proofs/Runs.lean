import ScriptEngine.Proofs.Edits
import ScriptEngine.Proofs.Upkeep

/-!
# Runs of a host

A host takes turns: it enters an engine, it evaluates a tree, it writes a variable, or it arranges
things, which is all that front ends and hosts do without an evaluation.  A run is a list of turns,
of which each may fail.

A machine that records something beside the world is the engine if what it records is left out
(`Machine.Records.takeAll`).

No arrangement changes what a callback holds or what an object call was resolved to
(`Arrangement.rearranges`): callbacks and object calls are added, and callbacks are released.
-/

namespace ScriptEngine

open Pairing (Anything)

/-! ### Arrangements -/

/-- The callback has not been invoked yet, and nothing was written to it. -/
structure CallbackInstance.IsFresh (x : CallbackInstance) : Prop where
  arguments : x.arguments = List.replicate x.parameterCount .undefined
  locals : ∀ n, x.locals.read n = .undefined

namespace World

/-- What callbacks hold and what object calls were resolved to in the first world is the same in the
second one, which may have more callbacks and object calls. -/
structure Rearranges (w w' : World) : Prop where
  callback : ∀ {c x'}, w'.callback? c = some x' →
    (∃ x, w.callback? c = some x ∧ x'.HoldsLike x) ∨ w.callbacks.size ≤ c.index ∧ x'.IsFresh
  callbacks : w.callbacks.size ≤ w'.callbacks.size
  resolution : ∀ site, w'.resolution? site = w.resolution? site

namespace Rearranges

variable {w w' w'' : World}

lemma refl (w : World) : w.Rearranges w :=
  ⟨fun hx => .inl ⟨_, hx, rfl, rfl, rfl⟩, Nat.le_refl _, fun _ => rfl⟩

lemma trans (h : w.Rearranges w') (h' : w'.Rearranges w'') : w.Rearranges w'' where
  callback hx'' := by
    rcases h'.callback hx'' with ⟨x', hx', hlike'⟩ | ⟨hnew, hfresh⟩
    · rcases h.callback hx' with ⟨x, hx, hlike⟩ | ⟨hnew, hfresh⟩
      · exact .inl ⟨x, hx, hlike'.parameters.trans hlike.parameters,
          hlike'.arguments.trans hlike.arguments, hlike'.locals.trans hlike.locals⟩
      · refine .inr ⟨hnew, ?_, fun n => ?_⟩
        · rw [hlike'.arguments, hfresh.arguments, CallbackInstance.parameterCount,
            CallbackInstance.parameterCount, hlike'.parameters]
        · rw [hlike'.locals, hfresh.locals]
    · exact .inr ⟨Nat.le_trans h.callbacks hnew, hfresh⟩
  callbacks := Nat.le_trans h.callbacks h'.callbacks
  resolution site := (h'.resolution site).trans (h.resolution site)

/-- Memory, engines, functions and native objects have nothing to do with it. -/
lemma of_same (hcallbacks : w'.callbacks = w.callbacks) (hsites : w'.objectCalls = w.objectCalls) :
    w.Rearranges w' where
  callback hx := by
    rw [callback?, hcallbacks] at hx
    exact .inl ⟨_, hx, rfl, rfl, rfl⟩
  callbacks := Nat.le_of_eq (congrArg Pool.size hcallbacks.symm)
  resolution _ := by rw [resolution?, resolution?, hsites]

/-- A callback is changed in what it does, and not in what it holds. -/
lemma modifyCallback (w : World) (c : Id .callback) {change : CallbackInstance → CallbackInstance}
    (h : ∀ x, (change x).HoldsLike x) : w.Rearranges (w.modifyCallback c change) where
  callback {d x'} hx' := by
    rcases callback?_modifyCallback_cases hx' with ⟨-, x, hx, rfl⟩ | ⟨-, hx⟩
    · exact .inl ⟨x, hx, h x⟩
    · exact .inl ⟨x', hx, rfl, rfl, rfl⟩
  callbacks := Nat.le_of_eq (w.callbacks.size_update c change).symm
  resolution _ := rfl

/-- A new callback is fresh. -/
lemma addCallback (w : World) (n : Name) (name : String) (parameters : List Name) :
    w.Rearranges { w with callbacks := (w.callbacks.add (.define n name parameters)).2 } where
  callback {c x'} hx' := by
    rcases Pool.get?_add_cases hx' with hold | ⟨hindex, rfl⟩
    · exact .inl ⟨x', hold, rfl, rfl, rfl⟩
    · exact .inr ⟨Nat.le_of_eq hindex.symm, rfl, fun _ => rfl⟩
  callbacks := by
    rw [Pool.size_add]
    exact Nat.le_succ _
  resolution _ := rfl

/-- A new object call is not resolved. -/
lemma addSite (w : World) :
    w.Rearranges { w with objectCalls := (w.objectCalls.add none).2 } where
  callback hx' := .inl ⟨_, hx', rfl, rfl, rfl⟩
  callbacks := Nat.le_refl _
  resolution site := by
    change ((w.objectCalls.add none).2.get? site).join = (w.objectCalls.get? site).join
    rw [Pool.get?_add]
    split
    · rename_i hindex
      have hnew : w.objectCalls.get? site = none := by
        cases hsite : w.objectCalls.get? site with
        | none => rfl
        | some known => exact absurd (Pool.index_lt_of_get? hsite) (hindex ▸ Nat.lt_irrefl _)
      rw [hnew]
      rfl
    · rfl

/-- A callback is released. -/
lemma releaseCallback (w : World) (c : Id .callback) :
    w.Rearranges { w with callbacks := w.callbacks.release c } where
  callback {_ x'} hx' := .inl ⟨x', (Pool.get?_release_eq_some hx').2, rfl, rfl, rfl⟩
  callbacks := Nat.le_of_eq (w.callbacks.size_release c).symm
  resolution _ := rfl

end Rearranges

/-- No edit changes anything that callbacks hold or object calls were resolved to. -/
lemma Edit.rearranges {S : Supply} {w w' : World} (h : w.Edit S w') : w.Rearranges w' := by
  cases h with
  | addCallback n name parameters => exact .addCallback w n name parameters
  | addSite => exact .addSite w
  | callback c change hchange => exact .modifyCallback w c fun x => (hchange x).toHoldsLike
  | releaseCallback c => exact .releaseCallback w c
  | names | memory | addEngine | addNative | addFunction | declare | table | function
  | releaseFunction | releaseEngine => exact .of_same rfl rfl

end World

/-- No arrangement changes anything that callbacks hold or object calls were resolved to. -/
theorem Arrangement.rearranges (a : Arrangement) (w : World) : w.Rearranges (a.run w) := by
  have hedits : w.Edits .unknown (a.run w) := a.edits (Supply.brings_unknown a) w
  generalize a.run w = w' at hedits ⊢
  induction hedits with
  | refl => exact .refl w
  | tail _ hlast ih => exact ih.trans hlast.rearranges

/-! ### Turns -/

/-- What the host does next. -/
inductive Turn where
  | enter (e : Id .engine) (entry : Entry)
  /-- Evaluate an expression, or perform a statement outside of all bodies. -/
  | evaluate (scope : Scope) (t : Tree)
  | write (scope : Scope) (target : VarRef) (v : Value)
  | arrange (a : Arrangement)

namespace Evaluator

variable {σ : Type} (r : Evaluator σ) (update : (World → World) → σ → σ)

/-- Take a turn, which may fail; `update` changes the world in the state of the machine. -/
def take : Turn → Action σ (Except EvalError Value)
  | .enter e entry => (r.enter e entry).attempt
  | .evaluate scope t => (do return (← r.evaluateTree scope t).2 : Action σ Value).attempt
  | .write scope target v =>
    (do r.machine.exec (.set scope target v); return v : Action σ Value).attempt
  | .arrange a => do
    Action.change (update a.run)
    return .ok .undefined

/-- Take turns, one after another. -/
def takeAll : List Turn → Action σ (List (Except EvalError Value))
  | [] => pure []
  | turn :: rest => do
    let result ← r.take update turn
    let results ← takeAll rest
    return result :: results

end Evaluator

/-! ### Machines that record -/

/-- Without what it records, the machine is the engine. -/
structure Machine.Records {γ : Type} (m : Machine (Recorded γ)) : Prop where
  exec : ∀ {α : Type} (k : Command α) s, (m.exec k s).mapState (·.world) = k.run s.world
  enter : ∀ a s, (m.enter a s).world = a.enter s.world
  leave : ∀ a s, (m.leave a s).world = a.leave s.world
  argument : ∀ f i s,
    (m.argument? f i s).mapState (·.world) = Machine.shared.argument? f i s.world
  note : ∀ mark s, (m.note mark s).world = s.world

/-- A machine that records, and the engine, in the same world. -/
def Simulation.forgetting (γ : Type) : Simulation (Recorded γ) World where
  rel _ s w := s.world = w
  lost _ := False
  cut _ := True
  abreast := True
  cut_of_lost _ := trivial
  cut_of_rel _ := trivial

namespace Simulation

variable {γ α : Type} {c d : List Activity}

/-- Actions that do the same to the world match. -/
lemma Matches.forget {x : Action (Recorded γ) α} {y : Action World α}
    (h : ∀ s, (x s).mapState (·.world) = y s.world) : (forgetting γ).Matches c Anything x y := by
  refine Matches.of_agrees ?_ fun s hs => hs.elim
  rintro s _ rfl
  rw [← h s]
  cases x s with
  | done a s' => exact ⟨trivial, Or.inr ⟨_, rfl, rfl⟩⟩
  | failed e s' => exact Or.inr ⟨_, rfl, rfl⟩
  | @diverged s' => exact ⟨trivial, fun _ => Or.inr ⟨[], _, rfl, rfl⟩⟩

/-- Matching actions do the same to the world. -/
lemma Matches.forgets {Q : α → Prop} {x : Action (Recorded γ) α} {y : Action World α}
    (h : (forgetting γ).Matches c Q x y) (s : Recorded γ) :
    (x s).mapState (·.world) = y s.world := by
  have hworld : ∀ (d : List Activity) (s : Recorded γ) (w : World),
      (forgetting γ).rel d s w → s.world = id w := fun d s w hsw => hsw
  rw [h.mapState_eq trivial hworld rfl not_false, Outcome.mapState_id]

/-- The worlds are the same after the same change. -/
lemma forgetting_tied {s : Recorded γ} {t : Option World} {f : Recorded γ → Recorded γ}
    {g : World → World} (h : (forgetting γ).Tied c s t) (hfg : ∀ s, (f s).world = g s.world) :
    (forgetting γ).Tied d (f s) (t.map g) := by
  cases t with
  | none => exact h.elim
  | some w =>
    obtain rfl : s.world = w := h
    exact hfg s

end Simulation

namespace Machine.Records

open Simulation (Matches forgetting forgetting_tied)

variable {γ : Type} {m : Machine (Recorded γ)} (h : m.Records)

include h

/-- A machine that records does in each step what the engine does. -/
lemma respects : (forgetting γ).Respects m Machine.shared Coverage.all where
  exec _ _ k := (Matches.forget (h.exec k)).mono fun a _ => Coverage.yields_all k a
  enter _ a _ _ _ hst := forgetting_tied hst (h.enter a)
  leave _ a _ _ hst := forgetting_tied hst (h.leave a)
  argument _ f i := Matches.forget (h.argument f i)
  evaluating _ scope e _ _ _ hst := forgetting_tied hst (h.note (.evaluating scope e))
  note _ mark _ _ _ _ hst := forgetting_tied hst (h.note mark)

variable {update : (World → World) → Recorded γ → Recorded γ}
  (hupdate : ∀ f s, (update f s).world = f s.world)

include hupdate

/-- A turn is matched by the same turn on the engine. -/
lemma take (bound : ℕ) (turn : Turn) :
    (forgetting γ).Matches [] Anything ((Evaluator.within m bound).take update turn)
      ((Evaluator.shared bound).take id turn) := by
  have hsimulates : Evaluator.Simulates (forgetting γ) Coverage.all (Evaluator.within m bound)
      (Evaluator.shared bound) := .within h.respects (Nat.le_refl bound) fun _ => rfl
  cases turn with
  | enter e entry => exact (hsimulates.enter [] e (Coverage.coversEntry_all entry)).attempt
  | evaluate scope t =>
    refine Matches.attempt (Q := Anything) (.bind (Q := Anything) ?_ fun _ _ => .pure trivial)
    exact hsimulates.evaluateTree [] trivial trivial (Coverage.coversTree_all t)
  | write scope target v =>
    refine Matches.attempt (Q := Anything) (.bind (Q := Anything) ?_ fun _ _ => .pure trivial)
    exact Matches.forget (h.exec (.set scope target v))
  | arrange a =>
    refine Matches.bind (Q := Anything) ?_ fun _ _ => .pure trivial
    exact Matches.of_done trivial fun _ _ hst => forgetting_tied hst (hupdate _)

/-- A run on a machine that records is the run of the engine, if what is recorded is left out. -/
theorem takeAll (bound : ℕ) (turns : List Turn) (s : Recorded γ) :
    ((Evaluator.within m bound).takeAll update turns s).mapState (·.world) =
      (Evaluator.shared bound).takeAll id turns s.world := by
  refine Matches.forgets (c := []) (Q := Anything) ?_ s
  induction turns with
  | nil => exact .pure trivial
  | cons turn rest ih =>
    refine (h.take hupdate bound turn).bind fun _ _ => ?_
    exact ih.bind fun _ _ => .pure trivial

end Machine.Records

/-! ### Invariants of runs -/

/-- An invariant that each turn of a run keeps up is kept up by the run. -/
theorem Evaluator.takeAll_keepsUp_of_mem {σ : Type} {r : Evaluator σ}
    {update : (World → World) → σ → σ} {I : σ → Prop} {turns : List Turn}
    (h : ∀ turn ∈ turns, (r.take update turn).KeepsUp I Anything) :
    (r.takeAll update turns).KeepsUp I Anything := by
  induction turns with
  | nil => exact .pure trivial
  | cons turn rest ih =>
    obtain ⟨hturn, hrest⟩ := List.forall_mem_cons.1 h
    refine hturn.bind fun _ _ => ?_
    exact (ih hrest).bind fun _ _ => .pure trivial

/-- An invariant that all turns keep up is kept up by all runs. -/
theorem Evaluator.takeAll_keepsUp {σ : Type} {r : Evaluator σ} {update : (World → World) → σ → σ}
    {I : σ → Prop} (h : ∀ turn, (r.take update turn).KeepsUp I Anything) (turns : List Turn) :
    (r.takeAll update turns).KeepsUp I Anything :=
  takeAll_keepsUp_of_mem fun turn _ => h turn

/-- What single steps keep up is kept up by each turn, if arrangements keep it up. -/
theorem Machine.Upkeep.take {σ : Type} {m : Machine σ} {accepts : Id .callback → ℕ → Prop}
    {I : σ → Prop} (h : m.Upkeep accepts I) (bound : ℕ) (update : (World → World) → σ → σ)
    {turn : Turn} (harrange : ∀ a, turn = .arrange a → ∀ s, I s → I (update a.run s)) :
    ((Evaluator.within m bound).take update turn).KeepsUp I Anything := by
  cases turn with
  | enter e entry => exact (h.enterEngine bound e entry).attempt
  | evaluate scope t =>
    have hvalue := (h.evaluateTree bound scope t).bind fun p _ =>
      (.pure trivial : (pure p.2 : Action σ Value).KeepsUp I Anything)
    exact hvalue.attempt
  | write scope target v =>
    have hvalue := (h.exec (.set scope target v) id).bind fun _ _ =>
      (.pure trivial : (pure v : Action σ Value).KeepsUp I Anything)
    exact hvalue.attempt
  | arrange a => exact (Action.KeepsUp.change (harrange a rfl)).bind fun _ _ => .pure trivial

end ScriptEngine
