import ScriptEngine.Proofs.History

/-!
# Invariants of traced evaluations

An invariant of the traced machine is a claim about its state while certain activities are open.  It
holds throughout an evaluation if each event keeps it.  Since no event changes the code of the world,
all trees that an evaluation meets are those of the script at hand and of the bodies that the world
had at the start; if these are covered, each event may be taken to come from a covered tree.

The bound on nested nodes is no part of what an evaluation does: what ends within one bound ends in
the same way within each larger one.

Main statements: `Evaluator.enter_eq_of_le` and `Traced.Kept.simulates`.
-/

namespace ScriptEngine

/-! ### Worlds whose bodies are covered -/

/-- What is covered leads to nothing in `w` that is not. -/
structure Coverage.Closed (D : Coverage) (w : World) : Prop where
  function : ∀ {f function body}, w.function? f = some function → function.body = some body →
    D.CoversStmt body
  callback : ∀ {c callback body}, w.callback? c = some callback → callback.body = some body →
    D.CoversStmt body
  native : ∀ object, (w.apiClass object).Executes D.CoversStmt
  fits : ∀ f, D.fits f ((w.function? f).getD default).parameterCount
  reaches : ∀ e depth, depth < (w.engine e).maxCallDepth → D.reaches ⟨e, depth + 1⟩

namespace World

variable {w w' : World}

/-- A function of one world is there in each world with the same code, with the same code. -/
lemma exists_function_of_code_eq (h : w'.code = w.code) {f : Id .function}
    {function : FunctionInstance} (hf : w'.function? f = some function) :
    ∃ original, w.function? f = some original ∧ original.code = function.code := by
  have hcode : (w'.function? f).map (·.code) = (w.function? f).map (·.code) :=
    congrFun (congrArg Code.function? h) f
  rw [hf, Option.map_some] at hcode
  exact Option.map_eq_some_iff.1 hcode.symm

/-- A callback of one world is there in each world with the same code, with the same code. -/
lemma exists_callback_of_code_eq (h : w'.code = w.code) {c : Id .callback}
    {callback : CallbackInstance} (hc : w'.callback? c = some callback) :
    ∃ original, w.callback? c = some original ∧ original.code = callback.code := by
  have hcode : (w'.callback? c).map (·.code) = (w.callback? c).map (·.code) :=
    congrFun (congrArg Code.callback? h) c
  rw [hc, Option.map_some] at hcode
  exact Option.map_eq_some_iff.1 hcode.symm

/-- The classes of native objects are part of the code. -/
lemma apiClass_eq_of_code_eq (h : w'.code = w.code) (object : NativeRef) :
    w'.apiClass object = w.apiClass object := by
  have hnatives : w'.natives = w.natives := congrArg Code.natives h
  rw [apiClass, apiClass, hnatives]

/-- The number of arguments that a function takes is part of the code. -/
lemma parameterCount_eq_of_code_eq (h : w'.code = w.code) (f : Id .function) :
    ((w'.function? f).getD default).parameterCount =
      ((w.function? f).getD default).parameterCount := by
  have hcode : (w'.function? f).map (·.code) = (w.function? f).map (·.code) :=
    congrFun (congrArg Code.function? h) f
  cases hf' : w'.function? f with
  | none =>
    rw [hf', Option.map_none] at hcode
    rw [Option.map_eq_none_iff.1 hcode.symm]
  | some function =>
    obtain ⟨original, hf, horiginal⟩ := exists_function_of_code_eq h hf'
    rw [hf, Option.getD_some, Option.getD_some, ← function.parameterCount_code, ← horiginal,
      original.parameterCount_code]

/-- Engines with the same code in both worlds. -/
lemma code_engine_eq_of_code_eq (h : w'.code = w.code) (e : Id .engine) :
    (w'.engine e).code = (w.engine e).code := by
  have hcode : (w'.engines.get? e).map (·.code) = (w.engines.get? e).map (·.code) :=
    congrFun (congrArg Code.engine? h) e
  unfold engine
  cases he' : w'.engines.get? e with
  | none =>
    rw [he', Option.map_none] at hcode
    rw [Option.map_eq_none_iff.1 hcode.symm]
  | some engine =>
    rw [he', Option.map_some] at hcode
    obtain ⟨original, he, horiginal⟩ := Option.map_eq_some_iff.1 hcode.symm
    rw [he, Option.getD_some, Option.getD_some, horiginal]

/-- Which interner an engine has is part of the code. -/
lemma internerId_eq_of_code_eq (h : w'.code = w.code) (e : Id .engine) :
    (w'.engine e).interner = (w.engine e).interner := by
  rw [← (w'.engine e).interner_code, code_engine_eq_of_code_eq h e, (w.engine e).interner_code]

/-- The limit on nested calls is part of the code. -/
lemma maxCallDepth_eq_of_code_eq (h : w'.code = w.code) (e : Id .engine) :
    (w'.engine e).maxCallDepth = (w.engine e).maxCallDepth := by
  rw [← (w'.engine e).maxCallDepth_code, code_engine_eq_of_code_eq h e,
    (w.engine e).maxCallDepth_code]

end World

namespace Coverage

variable {D : Coverage} {w w' : World}

/-- Whether bodies are covered depends on the code alone. -/
lemma Closed.of_code_eq (h : D.Closed w) (hcode : w'.code = w.code) : D.Closed w' where
  function hf hbody := by
    obtain ⟨original, horiginal, heq⟩ := World.exists_function_of_code_eq hcode hf
    rw [← FunctionInstance.body_code, ← heq, original.body_code] at hbody
    exact h.function horiginal hbody
  callback hc hbody := by
    obtain ⟨original, horiginal, heq⟩ := World.exists_callback_of_code_eq hcode hc
    rw [← CallbackInstance.body_code, ← heq, original.body_code] at hbody
    exact h.callback horiginal hbody
  native object := by
    rw [World.apiClass_eq_of_code_eq hcode]
    exact h.native object
  fits f := by
    rw [World.parameterCount_eq_of_code_eq hcode f]
    exact h.fits f
  reaches e depth hdepth := by
    rw [World.maxCallDepth_eq_of_code_eq hcode e] at hdepth
    exact h.reaches e depth hdepth

/-- Everything leads to nothing else. -/
lemma closed_all (w : World) : all.Closed w where
  function _ _ := Stmt.everywhere_of_forall (fun _ => trivial) (fun _ => trivial) _
  callback _ _ := Stmt.everywhere_of_forall (fun _ => trivial) (fun _ => trivial) _
  native _ := Host.ApiClass.executes_of_forall
    (Stmt.everywhere_of_forall (fun _ => trivial) fun _ => trivial) _
  fits _ := trivial
  reaches _ _ _ := trivial

/-- What a command gives in a world whose bodies are covered is covered. -/
lemma Closed.yields (h : D.Closed w) {α : Type} {k : Command α} {a : α}
    (hk : k.run w = .done a w') : D.Yields k a := by
  cases k with
  | functionBody f =>
    intro body hbody
    obtain rfl : (w.function? f).bind (·.body) = a := (Outcome.done.inj hk).1
    obtain ⟨function, hf, hfbody⟩ := Option.bind_eq_some_iff.1 hbody
    exact h.function hf hfbody
  | callbackBody callback =>
    intro body hbody
    obtain rfl : (w.callback? callback).bind (·.body) = a := (Outcome.done.inj hk).1
    obtain ⟨instance', hc, hcbody⟩ := Option.bind_eq_some_iff.1 hbody
    exact h.callback hc hcbody
  | apiClass object =>
    obtain rfl : w.apiClass object = a := (Outcome.done.inj hk).1
    exact h.native object
  | deeper scope =>
    by_cases hlimit : (w.engine scope.engine).maxCallDepth ≤ scope.depth
    · simp [Command.run, Scope.deeper, Action.bind_apply, Action.state, Action.fail, hlimit] at hk
    · simp [Command.run, Scope.deeper, Action.bind_apply, Action.state, hlimit] at hk
      rw [← hk.1]
      exact h.reaches scope.engine scope.depth (Nat.lt_of_not_le hlimit)
  | findFunction e name count =>
    simp only [Command.run, World.findFunction, Action.bind_apply, Action.state] at hk
    cases hname : w.functionNamed? e name with
    | none => simp [hname, Action.fail] at hk
    | some f =>
      by_cases hcount : ((w.function? f).getD default).parameterCount = count
      · simp [hname, hcount] at hk
        rw [← hk.1, ← hcount]
        exact h.fits f
      · simp [hname, hcount, Action.fail] at hk
  | _ => trivial

end Coverage

/-! ### Invariants of machines -/

/-- The invariant holds at the end or where the action was given up, and the value satisfies `Q`. -/
def Outcome.Keeps {σ α : Type} (I : List Activity → σ → Prop) (c : List Activity) (Q : α → Prop) :
    Outcome σ α → Prop
  | done a s => Q a ∧ I c s
  | failed _ s => I c s
  | unfinished s => ∃ d, I d s

/-- The invariant holds of the state of an outcome, and a value satisfies `Q`. -/
lemma Outcome.Keeps.of_state {σ α : Type} {I : List Activity → σ → Prop} {c : List Activity}
    {Q : α → Prop} {o : Outcome σ α} (h : I c o.state) (hQ : ∀ a ∈ o.value?, Q a) :
    o.Keeps I c Q := by
  cases o with
  | done a s => exact ⟨hQ a rfl, h⟩
  | failed e s => exact h
  | @diverged s => exact ⟨c, h⟩

/-- The invariant holds for the state of an outcome, while some activities are open. -/
lemma Outcome.Keeps.exists_state {σ α : Type} {I : List Activity → σ → Prop} {c : List Activity}
    {Q : α → Prop} {o : Outcome σ α} (h : o.Keeps I c Q) : ∃ d, I d o.state := by
  cases o with
  | done a s => exact ⟨c, h.2⟩
  | failed e s => exact ⟨c, h⟩
  | @diverged s => exact h

/-- The invariant holds at the end. -/
lemma Outcome.Keeps.state_of_finished {σ α : Type} {I : List Activity → σ → Prop}
    {c : List Activity} {Q : α → Prop} {o : Outcome σ α} (h : o.Keeps I c Q) (ho : o.Finished) :
    I c o.state := by
  cases o with
  | done a s => exact h.2
  | failed e s => exact h
  | @diverged s => exact absurd ho (Outcome.not_finished s)

namespace Simulation

variable {σ α : Type}

/-- A machine beside itself, as long as the invariant holds. -/
def invariant (I : List Activity → σ → Prop) : Simulation σ σ where
  rel c s t := s = t ∧ I c s
  lost _ := False
  cut s := ∃ c, I c s
  abreast := False
  cut_of_lost h := h.elim
  cut_of_rel h := ⟨_, h.2⟩

variable {I : List Activity → σ → Prop} {c : List Activity} {Q : α → Prop} {x : Action σ α}

/-- An action matches itself if it keeps the invariant. -/
lemma Matches.of_keeps (h : ∀ s, I c s → (x s).Keeps I c Q) : (invariant I).Matches c Q x x := by
  refine Matches.of_agrees ?_ fun s hs => hs.elim
  rintro s _ ⟨rfl, hs⟩
  have hx := h s hs
  cases hxs : x s with
  | done a s' =>
    rw [hxs] at hx
    exact ⟨hx.1, Or.inr ⟨s', rfl, rfl, hx.2⟩⟩
  | failed e s' =>
    rw [hxs] at hx
    exact Or.inr ⟨s', rfl, rfl, hx⟩
  | @diverged s' =>
    rw [hxs] at hx
    exact ⟨hx, fun habreast => habreast.elim⟩

/-- An action that matches itself keeps the invariant. -/
lemma Matches.keeps (h : (invariant I).Matches c Q x x) {s : σ} (hs : I c s) :
    (x s).Keeps I c Q := by
  have hx : (invariant I).Agrees c Q (x s) (some (x s)) := h s (some s) ⟨rfl, hs⟩
  cases hxs : x s with
  | done a s' =>
    rw [hxs] at hx
    rcases hx.2 with hlost | ⟨t, -, -, hI⟩
    · exact hlost.elim
    · exact ⟨hx.1, hI⟩
  | failed e s' =>
    rw [hxs] at hx
    rcases hx with hlost | ⟨t, -, -, hI⟩
    · exact hlost.elim
    · exact hI
  | @diverged s' =>
    rw [hxs] at hx
    exact hx.1

/-- A change of the state that keeps the invariant keeps states tied. -/
lemma invariant_tied {d : List Activity} {s : σ} {t : Option σ}
    (h : (invariant I).Tied c s t) {f : σ → σ} (hf : I c s → I d (f s)) :
    (invariant I).Tied d (f s) (t.map f) := by
  cases t with
  | none => exact h.elim
  | some t =>
    obtain ⟨rfl, hs⟩ := h
    exact ⟨rfl, hf hs⟩

end Simulation

/-! ### Larger bounds -/

section

open Simulation

variable {σ α : Type}

/-- An invariant that asks for nothing is kept by every action. -/
lemma Outcome.keeps_of_forall {c : List Activity} {Q : α → Prop} (h : ∀ a, Q a)
    (o : Outcome σ α) : o.Keeps (fun _ _ => True) c Q := by
  cases o with
  | done a s => exact ⟨h a, trivial⟩
  | failed e s => trivial
  | @diverged s => exact ⟨c, trivial⟩

/-- A machine does in each step what it does. -/
lemma Simulation.respects_self (m : Machine σ) :
    (invariant fun _ (_ : σ) => True).Respects m m Coverage.all where
  exec _ _ k := Matches.of_keeps fun s _ => (m.exec k s).keeps_of_forall (Coverage.yields_all k)
  enter _ _ _ _ _ hst := invariant_tied hst fun _ => trivial
  leave _ _ _ _ hst := invariant_tied hst fun _ => trivial
  argument _ f i := Matches.of_keeps fun s _ => (m.argument? f i s).keeps_of_forall fun _ => trivial
  evaluating _ _ _ _ _ _ hst := invariant_tied hst fun _ => trivial
  note _ _ _ _ _ _ hst := invariant_tied hst fun _ => trivial

/-- Corresponding states are equal. -/
structure Simulation.IsEquality (S : Simulation σ σ) : Prop where
  tied : ∀ s, S.Tied [] s (some s)
  not_lost : ∀ s, ¬S.lost s
  eq_of_rel : ∀ {c s t}, S.rel c s t → t = s

/-- Of two actions that match, the second one ends in the same way as the first one. -/
lemma Simulation.Matches.eq_of_finished {S : Simulation σ σ} {Q : α → Prop} {x y : Action σ α}
    (h : S.Matches [] Q x y) (hS : S.IsEquality) {s : σ} (hfinished : (x s).Finished) :
    y s = x s := by
  have hsame : S.Agrees [] Q (x s) (some (y s)) := h s (some s) (hS.tied s)
  cases hx : x s with
  | done a t =>
    rw [hx] at hsame
    rcases hsame.2 with hlost | ⟨u, hy, hrel⟩
    · exact absurd hlost (hS.not_lost t)
    · rw [Option.some.inj hy, hS.eq_of_rel hrel]
  | failed e t =>
    rw [hx] at hsame
    rcases hsame with hlost | ⟨u, hy, hrel⟩
    · exact absurd hlost (hS.not_lost t)
    · rw [Option.some.inj hy, hS.eq_of_rel hrel]
  | @diverged t =>
    rw [hx] at hfinished
    exact absurd hfinished (Outcome.not_finished t)

/-- The states of bodies are equal as well. -/
lemma Simulation.IsEquality.activation {S : Simulation σ σ} (hS : S.IsEquality) :
    S.activation.IsEquality where
  tied a := ⟨hS.tied a.state, rfl⟩
  not_lost a := hS.not_lost a.state
  eq_of_rel {c a b} h := by
    obtain ⟨s, v⟩ := a
    obtain ⟨t, u⟩ := b
    obtain rfl : t = s := hS.eq_of_rel h.1
    obtain rfl : v = u := h.2
    rfl

/-- A machine beside itself is in equal states. -/
lemma Simulation.isEquality_invariant : (invariant fun _ (_ : σ) => True).IsEquality where
  tied _ := ⟨rfl, trivial⟩
  not_lost _ := id
  eq_of_rel h := h.1.symm

/-- A machine does the same within a larger bound as within a smaller one. -/
lemma Evaluator.simulates_of_le (m : Machine σ) {bound bound' : ℕ} (hb : bound ≤ bound') :
    Simulates (invariant fun _ (_ : σ) => True) Coverage.all (within m bound) (within m bound') :=
  Simulates.within (respects_self m) hb False.elim

/-- An entry that ends within a bound ends in the same way within each larger one. -/
theorem Evaluator.enter_eq_of_le (m : Machine σ) {bound bound' : ℕ} (hb : bound ≤ bound')
    (e : Id .engine) (entry : Entry) {s : σ}
    (hfinished : ((Evaluator.within m bound).enter e entry s).Finished) :
    (Evaluator.within m bound').enter e entry s = (Evaluator.within m bound).enter e entry s :=
  ((simulates_of_le m hb).enter [] e (Coverage.coversEntry_all entry)).eq_of_finished
    isEquality_invariant hfinished

end

/-! ### Invariants of the traced machine -/

/-- Each event keeps the invariant, as far as `D` leads from the world `w₀`. -/
structure Traced.Kept (w₀ : World) (D : Coverage) (I : List Activity → Traced → Prop) : Prop where
  closed : D.Closed w₀
  code : ∀ {c s}, I c s → s.world.code = w₀.code
  acted : ∀ {c s w}, I c s → s.world.Change w → I c (s.log .acted w)
  began : ∀ {c s} a, D.CoversActivity a → I c s → I (a :: c) (s.log (.began a) (a.enter s.world))
  ended : ∀ {c s} a, I (a :: c) s → I c (s.log (.ended a) (a.leave s.world))
  read : ∀ {c s} f i, I c s → I c (s.log (.read f i) s.world)
  evaluating : ∀ {c s scope} e, D.reaches scope → I c s →
    I c (s.log (.marked (.evaluating scope e)) s.world)
  marked : ∀ {c s} mark, D.performs c → D.CoversMark mark → I c s →
    I c (s.log (.marked mark) s.world)

namespace Traced.Kept

open Simulation

variable {w₀ : World} {D : Coverage} {I : List Activity → Traced → Prop} (h : Kept w₀ D I)

include h

/-- A command keeps the invariant, and gives what is covered. -/
lemma keeps_exec {c : List Activity} {s : Traced} (hs : I c s) {α : Type} (k : Command α) :
    (Machine.traced.exec k s).Keeps I c (D.Yields k) := by
  have hclosed := h.closed.of_code_eq (h.code hs)
  have hchange := k.change s.world
  change ((k.run s.world).mapState (s.log .acted)).Keeps I c (D.Yields k)
  cases hk : k.run s.world with
  | done a w =>
    rw [hk] at hchange
    exact ⟨hclosed.yields hk, h.acted hs hchange⟩
  | failed e w =>
    rw [hk] at hchange
    exact h.acted hs hchange
  | @diverged w =>
    rw [hk] at hchange
    exact ⟨c, h.acted hs hchange⟩

/-- Each step of the traced machine keeps the invariant. -/
lemma respects : (invariant I).Respects Machine.traced Machine.traced D where
  exec _ _ k := Matches.of_keeps fun _ hs => h.keeps_exec hs k
  enter _ a ha _ _ hst := invariant_tied hst (h.began a ha)
  leave _ a _ _ hst := invariant_tied hst (h.ended a)
  argument _ f i := Matches.of_keeps fun _ hs => ⟨trivial, h.read f i hs⟩
  evaluating _ _ e hscope _ _ hst := invariant_tied hst (h.evaluating e hscope)
  note _ mark hc hmark _ _ hst := invariant_tied hst (h.marked mark hc hmark)

/-- An invariant that each event keeps is kept by whole evaluations. -/
theorem simulates (bound : ℕ) :
    Evaluator.Simulates (invariant I) D (Evaluator.within .traced bound)
      (Evaluator.within .traced bound) :=
  Evaluator.Simulates.within h.respects (Nat.le_refl bound) fun _ => rfl

end Traced.Kept

end ScriptEngine
