import ScriptEngine.Proofs.CallCounts
import ScriptEngine.Proofs.Evaluations
import ScriptEngine.Proofs.StorageTiers

/-!
# Native snippets, from the declaration to the call

A declaration is compiled once.  The snippet has code exactly if the declaration has no more
arguments than are supported and its symbol is registered, and then it has an arity as well, so that
a snippet with code lacks nothing that a call needs.

A call is refused, or it runs the code once, on the slots in their order.  What the code leaves in
the slots of an evaluation is lost with them: of the world, the code has the memory and nothing else.

Main statement: `snippet_bridge`.
-/

namespace ScriptEngine

/-! ### Compiling -/

/-- Arities stand for the numbers of arguments that are supported. -/
lemma Arity.exists_ofCount? {n : ℕ} (h : n ≤ maxSnippetArgs) :
    ∃ arity, ofCount? n = some arity ∧ arity.count = n := by
  match n, h with
  | 0, _ | 1, _ | 2, _ | 3, _ | 4, _ => exact ⟨_, rfl, rfl⟩

/-- Other numbers of arguments have no arity. -/
lemma Arity.ofCount?_eq_none {n : ℕ} (h : maxSnippetArgs < n) : ofCount? n = none := by
  cases harity : ofCount? n with
  | none => rfl
  | some arity => exact absurd h (Nat.not_lt.2 (count_of_ofCount? harity).2)

namespace Snippet

variable {t : SymbolTable} {d : SnippetDeclaration} {code : MachineCode} {error : CompileError}

/-- A declaration with too many arguments is not compiled. -/
lemma state_of_lt {c : SnippetCompiler} (h : maxSnippetArgs < d.arguments.length) :
    (compile c d).state =
      .error (.unsupportedArity d.name d.arguments.length maxSnippetArgs) := by
  simp only [compile]
  rw [Arity.ofCount?_eq_none h]
  rfl

/-- The compiler is asked for all other declarations. -/
lemma state_of_le {c : SnippetCompiler} (h : d.arguments.length ≤ maxSnippetArgs) :
    (compile c d).state = c.compile d.name := by
  obtain ⟨arity, harity, -⟩ := Arity.exists_ofCount? h
  simp only [compile]
  rw [harity]
  rfl

/-- A declaration has code if its number of arguments is supported and its symbol is registered. -/
lemma state_eq_ok_iff : (compile (.table t) d).state = .ok code ↔
    d.arguments.length ≤ maxSnippetArgs ∧ t.get? d.name = some code := by
  by_cases h : d.arguments.length ≤ maxSnippetArgs
  · rw [state_of_le h, SnippetCompiler.compile]
    cases t.get? d.name <;> simp [h]
  · rw [state_of_lt (Nat.lt_of_not_le h)]
    simp [h]

/-- The number of arguments is looked at first, and then the symbol. -/
lemma state_eq_error_iff : (compile (.table t) d).state = .error error ↔
    maxSnippetArgs < d.arguments.length ∧
        error = .unsupportedArity d.name d.arguments.length maxSnippetArgs ∨
      d.arguments.length ≤ maxSnippetArgs ∧ t.get? d.name = none ∧
        error = .symbolMissing d.name := by
  by_cases h : d.arguments.length ≤ maxSnippetArgs
  · rw [state_of_le h, SnippetCompiler.compile]
    cases t.get? d.name <;> simp [h, eq_comm]
  · rw [state_of_lt (Nat.lt_of_not_le h)]
    simp [h, Nat.lt_of_not_le h, eq_comm]

/-- A snippet with code has an arity. -/
lemma exists_arity_of_state {c : SnippetCompiler} (h : (compile c d).state = .ok code) :
    ∃ arity, (compile c d).arity = some arity ∧ arity.count = d.arguments.length := by
  by_cases hcount : d.arguments.length ≤ maxSnippetArgs
  · exact Arity.exists_ofCount? hcount
  · rw [state_of_lt (Nat.lt_of_not_le hcount)] at h
    exact nomatch h

end Snippet

/-! ### Calling -/

/-- Slots after machine code has left values in them: it can neither make slots nor remove them. -/
def overwrite (slots written : List Value) : List Value :=
  written.take slots.length ++ slots.drop written.length

namespace Arity

variable {arity : Arity} {slots : List Value}

/-- The pointers are to all slots, in their order. -/
lemma map_pointers (h : slots.length = arity.count) :
    (arity.pointers.map fun i => slots.getD i .undefined) = slots := by
  cases arity with
  | zero => match slots, h with | [], _ => rfl
  | one => match slots, h with | [_], _ => rfl
  | two => match slots, h with | [_, _], _ => rfl
  | three => match slots, h with | [_, _, _], _ => rfl
  | four => match slots, h with | [_, _, _, _], _ => rfl

/-- What is written through the pointers is in the slots afterwards. -/
lemma foldl_pointers (h : slots.length = arity.count) (written : List Value) :
    (arity.pointers.zip written).foldl (fun slots (i, v) => slots.set i v) slots =
      overwrite slots written := by
  cases arity with
  | zero =>
    match slots, h with
    | [], _ => rcases written with _ | ⟨w, _⟩ <;> rfl
  | one =>
    match slots, h with
    | [_], _ => rcases written with _ | ⟨w, _ | ⟨x, _⟩⟩ <;> rfl
  | two =>
    match slots, h with
    | [_, _], _ => rcases written with _ | ⟨w, _ | ⟨x, _ | ⟨y, _⟩⟩⟩ <;> rfl
  | three =>
    match slots, h with
    | [_, _, _], _ => rcases written with _ | ⟨w, _ | ⟨x, _ | ⟨y, _ | ⟨z, _⟩⟩⟩⟩ <;> rfl
  | four =>
    match slots, h with
    | [_, _, _, _], _ =>
      rcases written with _ | ⟨w, _ | ⟨x, _ | ⟨y, _ | ⟨z, _ | ⟨u, _⟩⟩⟩⟩⟩ <;> rfl

/-- Machine code gets the slots in their order, if there are as many as the arity says. -/
lemma invoke_eq (h : slots.length = arity.count) (code : MachineCode) (m : Memory) :
    arity.invoke code slots m = (overwrite slots (code slots m).1, (code slots m).2) := by
  unfold invoke
  rw [map_pointers h]
  exact Prod.ext (foldl_pointers h _) rfl

end Arity

namespace Snippet

/-- A call with so many arguments is refused, whatever they are. -/
inductive Refuses (s : Snippet) (count : ℕ) : EvalError → Prop
  /-- The snippet was not compiled. -/
  | uncompiled {error : CompileError} (hstate : s.state = .error error) :
    Refuses s count (.of (.uncompiledFunction s.name))
  /-- The snippet declares a return value. -/
  | returning {code : MachineCode} (hstate : s.state = .ok code)
    (hreturns : s.declaration.returnsValue = true) :
    Refuses s count (.of (.unsupportedNativeReturn s.name))
  /-- The snippet was declared with another number of arguments. -/
  | otherCount {code : MachineCode} (hstate : s.state = .ok code)
    (hreturns : s.declaration.returnsValue = false) (hcount : count ≠ s.argumentNames.length) :
    Refuses s count (.of (.arityMismatch s.name s.argumentNames.length count))

/-- A call with so many arguments runs the code. -/
structure Runs (s : Snippet) (count : ℕ) (code : MachineCode) : Prop where
  state : s.state = .ok code
  returns : s.declaration.returnsValue = false
  count : count = s.argumentNames.length

/-- A call is refused or runs. -/
lemma refuses_or_runs (s : Snippet) (count : ℕ) :
    (∃ err, s.Refuses count err) ∨ ∃ code, s.Runs count code := by
  cases hstate : s.state with
  | error error => exact .inl ⟨_, .uncompiled hstate⟩
  | ok code =>
    cases hreturns : s.declaration.returnsValue with
    | true => exact .inl ⟨_, .returning hstate hreturns⟩
    | false =>
      by_cases hcount : count = s.argumentNames.length
      · exact .inr ⟨code, hstate, hreturns, hcount⟩
      · exact .inl ⟨_, .otherCount hstate hreturns hcount⟩

/-- A snippet without code cannot be called. -/
lemma callable_of_error {s : Snippet} {error : CompileError} (hstate : s.state = .error error) :
    s.callable = .error (.of (.uncompiledFunction s.name)) := by
  simp only [callable, hstate]

/-- A snippet with a return value cannot be called. -/
lemma callable_of_returns {s : Snippet} {code : MachineCode} (hstate : s.state = .ok code)
    (hreturns : s.declaration.returnsValue = true) :
    s.callable = .error (.of (.unsupportedNativeReturn s.name)) := by
  simp only [callable, hstate, hreturns, if_true]

variable {c : SnippetCompiler} {d : SnippetDeclaration} {slots : List Value} {m : Memory}

/-- A snippet with code that declares no return value can be called: it lacks no arity. -/
lemma exists_callable {code : MachineCode} (hstate : (compile c d).state = .ok code)
    (hreturns : d.returnsValue = false) :
    ∃ arity, (compile c d).callable = .ok (arity, code) ∧ arity.count = d.arguments.length := by
  obtain ⟨arity, harity, hcount⟩ := exists_arity_of_state hstate
  refine ⟨arity, ?_, hcount⟩
  have hvoid : (compile c d).declaration.returnsValue = false := hreturns
  simp only [callable, hstate, hvoid, harity, Bool.false_eq_true, if_false]

/-- There is no code for a call that is refused. -/
lemma Refuses.codeFor {n : ℕ} {err : EvalError} (h : (compile c d).Refuses n err) :
    (compile c d).codeFor n = .error err := by
  cases h with
  | uncompiled hstate =>
    rw [Snippet.codeFor, callable_of_error hstate]
    rfl
  | returning hstate hreturns =>
    rw [Snippet.codeFor, callable_of_returns hstate hreturns]
    rfl
  | otherCount hstate hreturns hcount =>
    obtain ⟨arity, hcallable, harity⟩ := exists_callable hstate hreturns
    have hother : n ≠ arity.count := harity ▸ hcount
    simp only [Snippet.codeFor, hcallable, bind, Except.bind, if_pos hother]
    rw [harity]
    rfl

/-- There is code for a call that is not refused. -/
lemma Runs.codeFor {n : ℕ} {code : MachineCode} (h : (compile c d).Runs n code) :
    (compile c d).codeFor n = .ok code := by
  obtain ⟨arity, hcallable, harity⟩ := exists_callable h.state h.returns
  have hcount : n = arity.count := h.count.trans harity.symm
  simp only [Snippet.codeFor, hcallable, bind, Except.bind, if_neg (not_not_intro hcount)]
  rfl

/-- A call runs the code that there is for its number of slots, on the slots in their order. -/
lemma call_eq (s : Snippet) (slots : List Value) (m : Memory) :
    s.call slots m = (s.codeFor slots.length).map fun code =>
      (overwrite slots (code slots m).1, (code slots m).2) := by
  unfold Snippet.call Snippet.codeFor
  cases s.callable with
  | error err => rfl
  | ok found =>
    by_cases hcount : slots.length = found.1.count
    · simp only [bind, Except.bind, if_neg (not_not_intro hcount)]
      exact congrArg Except.ok (Arity.invoke_eq hcount found.2 m)
    · simp only [bind, Except.bind, if_pos hcount]
      rfl

/-- A call that is refused does nothing. -/
lemma Refuses.call {err : EvalError} (h : (compile c d).Refuses slots.length err) (m : Memory) :
    (compile c d).call slots m = .error err := by
  rw [call_eq, h.codeFor]
  rfl

/-- A call that is not refused runs the code once, on the slots in their order. -/
lemma Runs.call {code : MachineCode} (h : (compile c d).Runs slots.length code) (m : Memory) :
    (compile c d).call slots m =
      .ok (overwrite slots (code slots m).1, (code slots m).2) := by
  rw [call_eq, h.codeFor]
  rfl

/-! ### Calls one after another -/

/-- Call a snippet on several argument vectors in turn: how each call has ended, with its slots
afterwards, and the memory in the end. -/
def callAll (s : Snippet) :
    List (List Value) → Memory → List (Except EvalError Unit × List Value) × Memory
  | [], m => ([], m)
  | slots :: rest, m =>
    match s.call slots m with
    | .ok (slots', m') =>
      let (ends, m'') := callAll s rest m'
      ((.ok (), slots') :: ends, m'')
    | .error err =>
      let (ends, m') := callAll s rest m
      ((.error err, slots) :: ends, m')

/-- What becomes of calls in turn: a call that is refused leaves its slots and the memory as they
are, and any other one leaves what one run of the code on its slots has left. -/
inductive Serves (s : Snippet) :
    Memory → List (List Value) → List (Except EvalError Unit × List Value) → Memory → Prop
  | nil {m : Memory} : Serves s m [] [] m
  | refused {m m' : Memory} {slots : List Value} {rest : List (List Value)}
    {ends : List (Except EvalError Unit × List Value)} {err : EvalError}
    (hrefuses : s.Refuses slots.length err) (hrest : Serves s m rest ends m') :
    Serves s m (slots :: rest) ((.error err, slots) :: ends) m'
  | ran {m m' : Memory} {slots : List Value} {rest : List (List Value)}
    {ends : List (Except EvalError Unit × List Value)} {code : MachineCode}
    (hruns : s.Runs slots.length code) (hrest : Serves s (code slots m).2 rest ends m') :
    Serves s m (slots :: rest) ((.ok (), overwrite slots (code slots m).1) :: ends) m'

/-- What a snippet does in a sequence of calls. -/
lemma callAll_eq_iff {calls : List (List Value)} {m m' : Memory}
    {ends : List (Except EvalError Unit × List Value)} :
    (compile c d).callAll calls m = (ends, m') ↔ (compile c d).Serves m calls ends m' := by
  constructor
  · intro h
    induction calls generalizing m ends with
    | nil =>
      obtain ⟨rfl, rfl⟩ := Prod.mk.inj h
      exact .nil
    | cons slots rest ih =>
      rcases (compile c d).refuses_or_runs slots.length with ⟨err, hrefuses⟩ | ⟨code, hruns⟩
      · rw [callAll, hrefuses.call] at h
        obtain ⟨rfl, rfl⟩ := Prod.mk.inj h
        exact .refused hrefuses (ih rfl)
      · rw [callAll, hruns.call] at h
        obtain ⟨rfl, rfl⟩ := Prod.mk.inj h
        exact .ran hruns (ih rfl)
  · intro h
    induction h with
    | nil => rfl
    | refused hrefuses _ ih => rw [callAll, hrefuses.call, ih]
    | ran hruns _ ih =>
      rw [callAll, hruns.call]
      dsimp only
      rw [ih]

end Snippet

/-! ### Evaluation -/

/-- What becomes of a snippet call in a world, before the node claims the error. -/
inductive SnippetCalls (scope : Scope) (s : Snippet) (args : List Expr) (w : World) :
    Outcome World Value → Prop
  /-- The snippet was not compiled; no argument is evaluated. -/
  | uncompiled {error : CompileError} (hstate : s.state = .error error) :
    SnippetCalls scope s args w (.failed (.of (.uncompiledFunction s.name)) w)
  /-- The snippet declares a return value; no argument is evaluated. -/
  | returning {code : MachineCode} (hstate : s.state = .ok code)
    (hreturns : s.declaration.returnsValue = true) :
    SnippetCalls scope s args w (.failed (.of (.unsupportedNativeReturn s.name)) w)
  /-- An argument fails. -/
  | argumentFails {code : MachineCode} {err : EvalError} {w' : World} (hstate : s.state = .ok code)
    (hreturns : s.declaration.returnsValue = false)
    (hargs : (Process.evaluateAll scope args).Gives w (.failed err w')) :
    SnippetCalls scope s args w (.failed err w')
  /-- The snippet was declared with another number of arguments. -/
  | otherCount {code : MachineCode} {vs : List Value} {w' : World} (hstate : s.state = .ok code)
    (hreturns : s.declaration.returnsValue = false)
    (hargs : (Process.evaluateAll scope args).Gives w (.done vs w'))
    (hcount : vs.length ≠ s.argumentNames.length) :
    SnippetCalls scope s args w
      (.failed (.of (.arityMismatch s.name s.argumentNames.length vs.length)) w')
  /-- The code runs on the values of the arguments.  It has the memory, and nothing else. -/
  | ran {code : MachineCode} {vs : List Value} {w' : World}
    (hargs : (Process.evaluateAll scope args).Gives w (.done vs w'))
    (hruns : s.Runs vs.length code) :
    SnippetCalls scope s args w
      (.done .undefined { w' with memory := (code vs w'.memory).2 })

namespace Process

variable {α : Type} {scope : Scope} {c : SnippetCompiler} {d : SnippetDeclaration}
  {args : List Expr} {w : World}

/-- An error that is known already. -/
lemma gives_error (err : EvalError) (w : World) :
    (lift (.ofResult (.error err)) : Process World α).Gives w (.failed err w) :=
  gives_lift.2 ⟨.failed err w, rfl⟩

open Snippet

/-- With the values of its arguments, a snippet call fails or runs the code. -/
lemma gives_codeFor {code : MachineCode} (hstate : (compile c d).state = .ok code)
    (hreturns : (compile c d).declaration.returnsValue = false) {vs : List Value}
    {o : Outcome World Value} :
    (do
      let code ← lift (.ofResult ((compile c d).codeFor vs.length))
      let _ ← lift ((Command.runCode code vs).run)
      pure .undefined : Process World Value).Gives w o ↔
      (vs.length ≠ (compile c d).argumentNames.length ∧ o = .failed (.of (.arityMismatch
        (compile c d).name (compile c d).argumentNames.length vs.length)) w) ∨
      ((compile c d).Runs vs.length code ∧
        o = .done .undefined { w with memory := (code vs w.memory).2 }) := by
  by_cases hcount : vs.length = (compile c d).argumentNames.length
  · have hruns : (compile c d).Runs vs.length code := ⟨hstate, hreturns, hcount⟩
    have hrun : (lift (Command.runCode code vs).run).Gives w
        (.done () { w with memory := (code vs w.memory).2 }) := gives_lift.2 ⟨.done () _, rfl⟩
    have hok : (lift (.ofResult (.ok code)) : Process World MachineCode) = pure code := rfl
    rw [hruns.codeFor, hok, pure_bind, gives_bind_of_done hrun, gives_pure]
    exact ⟨fun ho => .inr ⟨hruns, ho⟩,
      fun h => h.elim (fun hother => absurd hcount hother.1) And.right⟩
  · have hrefuses := Refuses.otherCount hstate hreturns hcount
    rw [hrefuses.codeFor, gives_bind_of_failed (gives_error _ w)]
    exact ⟨fun ho => .inl ⟨hcount, ho⟩,
      fun h => h.elim And.right fun hruns => absurd hruns.1.count hcount⟩

/-- What an evaluation of a snippet call gives, before the node claims the error. -/
lemma gives_snippetCall {o : Outcome World Value} :
    (evaluateNode scope (.snippetCall (compile c d) args)).Gives w o ↔
      SnippetCalls scope (compile c d) args w o := by
  rw [evaluateNode_snippetCall]
  cases hstate : (compile c d).state with
  | error error =>
    rw [callable_of_error hstate, gives_bind_of_failed (gives_error _ w)]
    refine ⟨fun ho => ho ▸ .uncompiled hstate, fun h => ?_⟩
    cases h with
    | uncompiled => rfl
    | returning h | argumentFails h | otherCount h => exact nomatch hstate.symm.trans h
    | ran _ hruns => exact nomatch hstate.symm.trans hruns.state
  | ok code =>
    cases hreturns : (compile c d).declaration.returnsValue with
    | true =>
      rw [callable_of_returns hstate hreturns, gives_bind_of_failed (gives_error _ w)]
      refine ⟨fun ho => ho ▸ .returning hstate hreturns, fun h => ?_⟩
      cases h with
      | uncompiled h => exact nomatch hstate.symm.trans h
      | returning => rfl
      | argumentFails _ h | otherCount _ h => exact nomatch hreturns.symm.trans h
      | ran _ hruns => exact nomatch hreturns.symm.trans hruns.returns
    | false =>
      obtain ⟨arity, hcallable, -⟩ := exists_callable hstate hreturns
      have hok : (lift (.ofResult (.ok (arity, code))) : Process World (Arity × MachineCode)) =
        pure (arity, code) := rfl
      rw [hcallable, hok, pure_bind, gives_bind]
      constructor
      · rintro (⟨vs, w', hargs, hrest⟩ | ⟨err, w', hargs, rfl⟩)
        · rcases (gives_codeFor hstate hreturns).1 hrest with ⟨hcount, rfl⟩ | ⟨hruns, rfl⟩
          · exact .otherCount hstate hreturns hargs hcount
          · exact .ran hargs hruns
        · exact .argumentFails hstate hreturns hargs
      · intro h
        cases h with
        | uncompiled h => exact nomatch hstate.symm.trans h
        | returning _ h => exact nomatch hreturns.symm.trans h
        | argumentFails _ _ hargs => exact .inr ⟨_, _, hargs, rfl⟩
        | otherCount _ _ hargs hcount =>
          exact .inl ⟨_, _, hargs, (gives_codeFor hstate hreturns).2 (.inl ⟨hcount, rfl⟩)⟩
        | ran hargs hruns =>
          obtain rfl := Except.ok.inj (hstate.symm.trans hruns.state)
          exact .inl ⟨_, _, hargs, (gives_codeFor hstate hreturns).2 (.inr ⟨hruns, rfl⟩)⟩

/-- A snippet call that gives something gives `undefined`.  The world is the one that the arguments
have left, with another memory. -/
lemma eq_undefined_of_gives_snippetCall {l : Location} {v : Value} {w'' : World}
    (h : (evaluate scope (.mk (.snippetCall (compile c d) args) l)).Gives w (.done v w'')) :
    v = .undefined ∧ ∃ vs w' m, (evaluateAll scope args).Gives w (.done vs w') ∧
      w'' = { w' with memory := m } := by
  obtain ⟨o, ho, hlocated⟩ := gives_evaluate.1 h
  cases gives_snippetCall.1 ho with
  | ran hargs hruns =>
    obtain ⟨rfl, rfl⟩ := Outcome.done.inj hlocated
    exact ⟨rfl, _, _, _, hargs, rfl⟩
  | uncompiled | returning | argumentFails | otherCount => exact nomatch hlocated

end Process

/-! ### What entries leave as it is -/

open Simulation in
/-- The engine keeps the code of a world in each step. -/
lemma Machine.respects_code (w : World) :
    (invariant fun _ w' => w'.code = w.code).Respects shared shared .all where
  exec _ _ k := Matches.of_keeps fun w' hw' =>
    .of_state ((k.change w').code_eq.trans hw') fun a _ => Coverage.yields_all k a
  enter _ a _ w' _ hst := invariant_tied hst (a.code_enter w').trans
  leave _ a w' _ hst := invariant_tied hst (a.code_leave w').trans
  argument _ _ _ := Matches.of_keeps fun _ hw' => ⟨trivial, hw'⟩
  evaluating _ _ _ _ _ _ hst := invariant_tied hst id
  note _ _ _ _ _ _ hst := invariant_tied hst id

/-- No entry of the host changes which snippets an engine has. -/
lemma Evaluator.snippets_enter (bound : ℕ) (e : Id .engine) (entry : Entry) (w : World)
    (engine : Id .engine) :
    (((Evaluator.shared bound).enter e entry w).state.engine engine).snippets =
      (w.engine engine).snippets := by
  have hsimulates := Simulates.within (Machine.respects_code w) (Nat.le_refl bound) fun _ => rfl
  have hkeeps := (hsimulates.enter [] e (Coverage.coversEntry_all entry)).keeps rfl
  obtain ⟨-, hcode⟩ := hkeeps.exists_state
  have hengine := World.code_engine_eq_of_code_eq hcode engine
  have hsnippets : (((Evaluator.shared bound).enter e entry w).state.engine engine).code.snippets =
      (w.engine engine).code.snippets := by rw [hengine]
  exact hsnippets

/-! ### The bridge as a whole -/

open Snippet in
/-- The whole way of a native snippet, for all declarations and all tables of symbols.

* It has the code that is registered for it exactly if the number of arguments is supported and
  there is such code; otherwise it keeps the error, that about the number of arguments first.  With
  code it has the arity that was declared.  No entry of the host changes the snippets of an engine.
* In a sequence of calls, a call that is not refused runs the code once, on its slots in their
  order; one that is refused leaves its slots and the memory as they are.
* The evaluation of a call gives `undefined`.  It checks what it can before the arguments, and
  changes nothing beyond what these have changed, the memory excepted. -/
theorem snippet_bridge (t : SymbolTable) (d : SnippetDeclaration) :
    (∀ code, (compile (.table t) d).state = .ok code ↔
      d.arguments.length ≤ maxSnippetArgs ∧ t.get? d.name = some code) ∧
    (∀ error, (compile (.table t) d).state = .error error ↔
      maxSnippetArgs < d.arguments.length ∧
          error = .unsupportedArity d.name d.arguments.length maxSnippetArgs ∨
        d.arguments.length ≤ maxSnippetArgs ∧ t.get? d.name = none ∧
          error = .symbolMissing d.name) ∧
    (∀ code, (compile (.table t) d).state = .ok code →
      ∃ arity, (compile (.table t) d).arity = some arity ∧ arity.count = d.arguments.length) ∧
    (∀ calls m ends m', (compile (.table t) d).callAll calls m = (ends, m') ↔
      (compile (.table t) d).Serves m calls ends m') ∧
    (∀ scope args l w o,
      (Process.evaluate scope (.mk (.snippetCall (compile (.table t) d) args) l)).Gives w o ↔
        ∃ o', SnippetCalls scope (compile (.table t) d) args w o' ∧ o = o'.locate l) ∧
    (∀ scope args l w v w'',
      (Process.evaluate scope (.mk (.snippetCall (compile (.table t) d) args) l)).Gives w
        (.done v w'') →
      v = .undefined ∧ ∃ vs w' m, (Process.evaluateAll scope args).Gives w (.done vs w') ∧
        w'' = { w' with memory := m }) ∧
    ∀ bound e entry w engine,
      (((Evaluator.shared bound).enter e entry w).state.engine engine).snippets =
        (w.engine engine).snippets := by
  refine ⟨fun code => state_eq_ok_iff, fun error => state_eq_error_iff,
    fun code hstate => exists_arity_of_state hstate, fun calls m ends m' => callAll_eq_iff,
    fun scope args l w o => ?_, fun scope args l w v w'' h => ?_, Evaluator.snippets_enter⟩
  · rw [Process.gives_evaluate]
    exact exists_congr fun o' => and_congr_left fun _ => Process.gives_snippetCall
  · exact Process.eq_undefined_of_gives_snippetCall h

namespace Storing

/-- Code that puts `true` into its slots. -/
def code : MachineCode :=
  fun slots m => (slots.map fun _ => .bool true, m)

/-- The table in which the code is registered. -/
def table : SymbolTable :=
  SymbolTable.empty.insert "store" code

/-- A declaration with one argument. -/
def declaration : SnippetDeclaration :=
  ⟨"store", ["x"], false, "", "void store(void* x)"⟩

/-- The snippet. -/
def snippet : Snippet :=
  .compile (.table table) declaration

/-- One engine, in which a global is `false`. -/
def world : World :=
  { World.empty with engines := (Pool.empty.add (default : Engine)).2 }.setGlobal ⟨0⟩ .empty
    (.bool false)

/-- The call `store(x)` with the global. -/
def call : Expr :=
  .unlocated (.snippetCall snippet [.unlocated (.var (.global .empty))])

/-- The call ends, and the global is still `false`. -/
lemma gives_call : (Process.evaluate (.top ⟨0⟩) call).Gives world (.done .undefined world) :=
  ⟨.done Value.undefined world, 4, rfl⟩

end Storing

open Storing in
/-- The code is called with one slot, which it overwrites, and not with another number of slots; and
the global that is its argument in an evaluation is not overwritten. -/
theorem snippet_bridge_store :
    (∃ arity, snippet.arity = some arity ∧ arity.count = 1) ∧
    snippet.callAll [[.bool false], []] .empty =
      ([(.ok (), [.bool true]), (.error (.of (.arityMismatch "store" 1 0)), [])], .empty) ∧
    (∃ vs w' m, (Process.evaluateAll (.top ⟨0⟩) [.unlocated (.var (.global .empty))]).Gives world
      (.done vs w') ∧ world = { w' with memory := m }) := by
  obtain ⟨hok, -, harity, hcalls, -, hevaluate, -⟩ := snippet_bridge table declaration
  have hstate : snippet.state = .ok code := (hok code).2 ⟨by decide, rfl⟩
  refine ⟨harity code hstate, (hcalls _ _ _ _).2 ?_, ?_⟩
  · refine .ran ⟨hstate, rfl, rfl⟩ (.refused ?_ .nil)
    exact .otherCount hstate rfl (by decide)
  · exact (hevaluate _ _ _ _ _ _ gives_call).2

end ScriptEngine
