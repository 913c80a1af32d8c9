import ScriptEngine.Proofs.Invariant

/-!
# The limit on nested calls

A scope becomes the current one when the evaluation of a node in it begins, and is current again when
the evaluation of a part has ended.  So all scopes that are ever current are those of the marks in the
history, and none of them is deeper than its engine allows.  This holds of all scripts, with and
without loops, also where a host function enters the engine again.

Main statement: `depth_le_maxCallDepth`.
-/

namespace ScriptEngine

/-- The scope is no deeper than its engine allows. -/
def World.Admits (w : World) (scope : Scope) : Prop :=
  scope.depth ≤ (w.engine scope.engine).maxCallDepth

/-- The scope outside of all calls is never too deep. -/
lemma World.admits_top (w : World) (e : Id .engine) : w.Admits (.top e) :=
  Nat.zero_le _

/-- The scope that becomes the current one. -/
def Event.scope? : Event → Option Scope
  | .marked (.evaluating scope _) | .marked (.performing scope _) => some scope
  | .began _ | .ended _ | .acted | .read _ _ | .marked _ => none

/-- The scope that becomes the current one is no deeper than its engine allows. -/
def Moment.WithinLimit (moment : Moment) : Prop :=
  ∀ scope, moment.event.scope? = some scope → moment.world.Admits scope

/-- All trees, in scopes that are no deeper than the engines of a world allow. -/
def Coverage.admitted (w : World) : Coverage where
  expression _ := True
  statement _ := True
  fits _ _ := True
  reaches := w.Admits
  performs _ := True
  reaches_top := w.admits_top
  fits_of_call _ := trivial
  performs_cons _ _ := trivial

/-- What scopes are admitted is part of the code. -/
lemma World.Admits.of_code_eq {w w' : World} {scope : Scope} (h : w.Admits scope)
    (hcode : w'.code = w.code) : w'.Admits scope := by
  unfold World.Admits
  rw [World.maxCallDepth_eq_of_code_eq hcode]
  exact h

/-- All trees are covered, so that bodies are. -/
lemma Coverage.admitted_closed (w : World) : (Coverage.admitted w).Closed w where
  function _ _ := Stmt.everywhere_of_forall (fun _ => trivial) (fun _ => trivial) _
  callback _ _ := Stmt.everywhere_of_forall (fun _ => trivial) (fun _ => trivial) _
  native _ := Host.ApiClass.executes_of_forall
    (Stmt.everywhere_of_forall (fun _ => trivial) fun _ => trivial) _
  fits _ := trivial
  reaches _ _ hdepth := hdepth

/-- All scopes in the history were admitted, and the code is the one of `w₀`. -/
structure Traced.WithinLimit (w₀ : World) (_c : List Activity) (s : Traced) : Prop where
  code : s.world.code = w₀.code
  always : History.Always (fun moment _ => moment.WithinLimit) s.record

namespace Traced.WithinLimit

variable {w₀ : World} {c d : List Activity} {s : Traced}

/-- One more event. -/
lemma log (h : WithinLimit w₀ c s) {event : Event} {w : World} (hcode : w.code = s.world.code)
    (hscope : ∀ scope, event.scope? = some scope → w₀.Admits scope) :
    WithinLimit w₀ d (s.log event w) := by
  have hw : w.code = w₀.code := hcode.trans h.code
  refine ⟨hw, h.always.cons fun scope hevent => ?_⟩
  exact (hscope scope hevent).of_code_eq hw

/-- Each event keeps the scopes within the limit. -/
lemma kept : Traced.Kept w₀ (Coverage.admitted w₀) (WithinLimit w₀) where
  closed := Coverage.admitted_closed w₀
  code h := h.code
  acted h hchange := h.log hchange.code_eq fun _ hscope => nomatch hscope
  began a _ h := h.log (a.code_enter _) fun _ hscope => nomatch hscope
  ended a h := h.log (a.code_leave _) fun _ hscope => nomatch hscope
  read _ _ h := h.log rfl fun _ hscope => nomatch hscope
  evaluating _ hreaches h := by
    refine h.log rfl fun scope hscope => ?_
    obtain rfl := Option.some.inj hscope
    exact hreaches
  marked mark _ hmark h := by
    refine h.log rfl fun scope hscope => ?_
    cases mark with
    | evaluating inner e | performing inner t =>
      obtain rfl := Option.some.inj hscope
      exact hmark
    | returned v | initEnded signal => exact nomatch hscope

end Traced.WithinLimit

/-- At every moment of an entry, the current scope is no deeper than its engine allows. -/
theorem depth_le_maxCallDepth (bound : ℕ) (e : Id .engine) (entry : Entry) (w : World) :
    History.Always (fun moment _ => moment.WithinLimit)
      ((Evaluator.within .traced bound).enter e entry ⟨w, []⟩).state.record := by
  have hkept : Traced.Kept w (Coverage.admitted w) (Traced.WithinLimit w) :=
    Traced.WithinLimit.kept
  have hstart : Traced.WithinLimit w [] ⟨w, []⟩ := ⟨rfl, .nil _⟩
  have hentry : (Coverage.admitted w).CoversEntry entry := Coverage.coversEntry_all entry
  obtain ⟨c, hlimit⟩ := (((hkept.simulates bound).enter [] e hentry).keeps hstart).exists_state
  exact hlimit.always

end ScriptEngine
