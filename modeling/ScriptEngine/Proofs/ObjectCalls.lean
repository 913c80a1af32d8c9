import ScriptEngine.Proofs.Chronicle
import ScriptEngine.Proofs.Runs

/-!
# Calls on the object in a variable

A call on the object that a variable holds is resolved when it is evaluated first, and keeps what it
was resolved to.  `World.meaning` is what the value of the variable determines at a moment: the
object and the slot of its function, or the error of the check that fails first.

A record of a run says when object calls were evaluated, and in which world.  What an object call is
resolved to at any moment can be read off the record: it is the meaning of the first evaluation that
had one.  An evaluation before that fails with the error that the variable determines and changes
nothing.  From then on an evaluation calls the same function of the same object, whatever the
variable holds.

Main statement: `object_calls_keep_first_resolution`.
-/

namespace ScriptEngine

open Pairing (Anything)

/-! ### What a variable determines -/

namespace World

variable (w : World) (scope : Scope) (target : VarRef)

/-- The object and the function that a call on the object in a variable means where the variable
holds `v`, or the error of the check that fails first. -/
def meaningOf (v : Value) (function : Name) (count : ℕ) : Except EvalError Resolution :=
  if v.isUndefined then .error (.of (.objectMissing (target.nameText w scope.engine)))
  else
    match v.native? with
    | none => .error (.of (.notANativeObject v.typeName))
    | some object =>
      match (w.apiClass object).slot? function with
      | none =>
        .error (.of (.undefinedApiFunction object.className (w.lookup scope.engine function)))
      | some slot =>
        if slot.numArgs ≠ count then
          .error (.of (.arityMismatch (w.lookup scope.engine function) slot.numArgs count))
        else .ok (object, slot)

/-- The object and the function that a call on the object in a variable means, or the error of the
check that fails first.  The first check is that the variable can be read. -/
def meaning (function : Name) (count : ℕ) : Except EvalError Resolution :=
  match target.get scope w with
  | .done v _ => w.meaningOf scope target v function count
  | .failed err _ => .error err
  | .unfinished _ => .error (.of (.objectMissing (target.nameText w scope.engine)))

/-- What is found for a value is what it means. -/
lemma findMethod_apply (v : Value) (function : Name) (count : ℕ) :
    World.findMethod scope.engine target v function count w =
      match w.meaningOf scope target v function count with
      | .ok resolution => .done resolution w
      | .error err => .failed err w := by
  cases v with
  | native object =>
    simp only [findMethod, Action.bind_apply, Action.state, meaningOf, Value.isUndefined,
      Value.native?]
    cases (w.apiClass object).slot? function with
    | none => rfl
    | some slot =>
      by_cases hcount : slot.numArgs = count
      · simp [hcount]
      · simp [hcount, Action.fail]
  | _ => rfl

/-- A resolution is kept for the object call that it belongs to, if that exists. -/
lemma resolution?_setResolution_eq (site site' : Id .callSite) (r : Resolution) :
    (w.setResolution site r).resolution? site' =
      if site = site' ∧ (w.objectCalls.get? site).isSome then some r else w.resolution? site' := by
  unfold resolution? setResolution Pool.set
  rw [Pool.get?_update]
  by_cases hsite : site = site'
  · subst hsite
    cases w.objectCalls.get? site <;> simp
  · rw [if_neg hsite, if_neg fun h => hsite h.1]

end World

/-! ### Single evaluations -/

/-- Evaluate the arguments, and call the function of the object. -/
def Evaluator.callResolved {σ : Type} (r : Evaluator σ) (scope : Scope) (resolution : Resolution)
    (args : List Expr) : Action σ Value := do
  let vs ← r.evaluateAll scope args
  r.callApi scope resolution.1 resolution.2.index vs

section

variable (w : World) (scope : Scope) (site : Id .callSite) (target : VarRef) (function : Name)

/-- An object call is resolved to what it was resolved to before; if there is nothing, to what the
variable determines. -/
lemma Evaluator.resolve_apply {r : Evaluator World} (hr : r.machine = .shared) (count : ℕ) :
    r.resolve scope site target function count w =
      match w.resolution? site with
      | some resolution => .done resolution w
      | none =>
        match w.meaning scope target function count with
        | .ok resolution => .done resolution (w.setResolution site resolution)
        | .error err => .failed err w := by
  have hexec : Machine.shared.exec (.resolution site) w = .done (w.resolution? site) w := rfl
  unfold Evaluator.resolve
  rw [hr, Action.bind_apply, hexec]
  dsimp only
  cases w.resolution? site with
  | some resolution => rfl
  | none =>
    dsimp only
    rw [Action.bind_apply, Machine.shared_get, World.meaning]
    have hreads := VarRef.get_readsOnly scope target w
    cases hget : target.get scope w with
    | done v w' =>
      obtain rfl : w' = w := by rwa [hget] at hreads
      have hfind : Machine.shared.exec (.findMethod scope.engine target v function count) w' =
          _ := w'.findMethod_apply scope target v function count
      dsimp only
      rw [Action.bind_apply, hfind]
      cases w'.meaningOf scope target v function count <;> rfl
    | failed err w' =>
      obtain rfl : w' = w := by rwa [hget] at hreads
      rfl
    | @diverged w' =>
      rcases VarRef.get_cases scope target w with ⟨v, -, hv⟩ | ⟨name, hname⟩ | ⟨name, hname⟩
      · exact nomatch hget.symm.trans hv
      · exact nomatch hget.symm.trans hname
      · exact nomatch hget.symm.trans hname

/-- The evaluation of an object call: it is resolved first, and only then the arguments are
evaluated. -/
lemma evaluate_objectCall (bound : ℕ) (args : List Expr) (l : Location) :
    evaluate .shared (bound + 1) scope (.mk (.objectCall site target function args) l) w =
      match w.resolution? site with
      | some resolution => ((Evaluator.shared bound).callResolved scope resolution args).locate l w
      | none =>
        match w.meaning scope target function args.length with
        | .ok resolution =>
          ((Evaluator.shared bound).callResolved scope resolution args).locate l
            (w.setResolution site resolution)
        | .error err => .failed (err.locate l) w := by
  have hresolve := Evaluator.resolve_apply (r := .shared bound) w scope site target function rfl
    args.length
  have hshape : evaluate .shared (bound + 1) scope (.mk (.objectCall site target function args) l)
      w = ((Evaluator.shared bound).resolve scope site target function args.length >>= fun r =>
        (Evaluator.shared bound).callResolved scope r args).locate l w := rfl
  rw [hshape]
  unfold Action.locate Action.mapError
  rw [Action.bind_apply, hresolve]
  cases w.resolution? site with
  | some resolution => rfl
  | none => cases w.meaning scope target function args.length <;> rfl

end

/-! ### Records of evaluations -/

/-- The evaluation of an object call begins in a world. -/
structure Attempt where
  scope : Scope
  site : Id .callSite
  target : VarRef
  function : Name
  args : List Expr
  world : World

/-- All evaluations of object calls, newest first. -/
abbrev Attempts := List Attempt

/-- A world, and the evaluations of object calls that led to it. -/
abbrev Attempted := Recorded Attempts

namespace Attempt

/-- The form of the object call. -/
def node (a : Attempt) : ExprNode :=
  .objectCall a.site a.target a.function a.args

/-- What the variable determines. -/
def meaning (a : Attempt) : Except EvalError Resolution :=
  a.world.meaning a.scope a.target a.function a.args.length

/-- The evaluation of a form of expression, if it is an object call that has a place to keep what it
is resolved to. -/
def of? (scope : Scope) (w : World) : ExprNode → Option Attempt
  | .objectCall site target function args =>
    if (w.objectCalls.get? site).isSome then some ⟨scope, site, target, function, args, w⟩ else none
  | _ => none

/-- Other forms of expression are no object calls. -/
lemma of?_eq_none {scope : Scope} {w : World} {node : ExprNode} (h : ¬node.IsObjectCall) :
    of? scope w node = none := by
  cases node with
  | objectCall site target function args => exact absurd trivial h
  | _ => rfl

end Attempt

namespace Attempts

/-- What an object call has been resolved to: the meaning of the first evaluation that had one. -/
def resolved (site : Id .callSite) : Attempts → Option Resolution
  | [] => none
  | a :: past => (resolved site past).or (if a.site = site then a.meaning.toOption else none)

/-- A claim holds of every evaluation together with those before it. -/
def Always (p : Attempt → Attempts → Prop) (record : Attempts) : Prop :=
  ∀ a past, a :: past <:+ record → p a past

/-- Nothing was evaluated yet. -/
lemma Always.nil (p : Attempt → Attempts → Prop) : Always p [] := by
  intro a past h
  have hlength := h.length_le
  simp at hlength

/-- One more evaluation. -/
lemma Always.cons {p : Attempt → Attempts → Prop} {a : Attempt} {past : Attempts}
    (hpast : Always p past) (h : p a past) : Always p (a :: past) := by
  intro b older hb
  rcases List.suffix_cons_iff.1 hb with heq | hsuffix
  · obtain ⟨rfl, rfl⟩ := List.cons.inj heq
    exact h
  · exact hpast b older hsuffix

/-- An evaluation of another object call makes no difference. -/
lemma resolved_cons_of_ne {a : Attempt} {site : Id .callSite} (h : a.site ≠ site)
    (past : Attempts) : resolved site (a :: past) = resolved site past := by
  rw [resolved, if_neg h, Option.or_none]

/-- The first evaluation that has a meaning settles what the object call is resolved to. -/
lemma resolved_cons_self (a : Attempt) (past : Attempts) :
    resolved a.site (a :: past) = (resolved a.site past).or a.meaning.toOption := by
  rw [resolved, if_pos rfl]

end Attempts

/-- Write down the evaluation of an object call. -/
def Recorded.attempt (s : Attempted) (scope : Scope) (node : ExprNode) : Attempted :=
  { s with record := (Attempt.of? scope s.world node).toList ++ s.record }

/-- The engine, which writes down evaluations of object calls. -/
def Machine.attempting : Machine Attempted where
  exec k := Recorded.aside k.run
  enter a s := s.withWorld (a.enter s.world)
  leave a s := s.withWorld (a.leave s.world)
  argument? f i := Recorded.aside (shared.argument? f i)
  note
    | .evaluating scope e, s => s.attempt scope e.node
    | .performing _ _, s | .returned _, s | .initEnded _, s => s

/-- Change the world, and leave the record as it is. -/
def Attempted.rearrange (f : World → World) (s : Attempted) : Attempted :=
  s.withWorld (f s.world)

/-- The record is all that the machine has beside the engine. -/
lemma Machine.attempting_records : Machine.attempting.Records where
  exec k s := by
    change (Recorded.aside k.run s).mapState _ = _
    unfold Recorded.aside
    cases k.run s.world <;> rfl
  enter _ _ := rfl
  leave _ _ := rfl
  argument _ _ _ := rfl
  note mark _ := by cases mark <;> rfl

/-! ### The invariant of a run -/

/-- Object calls are resolved to what the record says. -/
def World.ResolvedBy (w : World) (record : Attempts) : Prop :=
  ∀ site, w.resolution? site = record.resolved site

/-- Object calls are resolved to what the record says, now and at each evaluation so far. -/
structure Attempted.Agrees (s : Attempted) : Prop where
  now : s.world.ResolvedBy s.record
  always : s.record.Always fun a past => a.world.ResolvedBy past

/-- A command that keeps no resolution leaves object calls as they are. -/
lemma Command.objectCalls_run {α : Type} {k : Command α} (hk : ¬k.KeepsResolution) (w : World) :
    (k.run w).state.objectCalls = w.objectCalls := by
  by_cases hordinary : k.IsOrdinary
  · exact (Command.keeps_of_isOrdinary hordinary w).2
  · cases k with
    | report e err => rfl
    | keepResolution site r => exact absurd trivial hk
    | _ => exact absurd trivial hordinary

namespace Attempted.Agrees

variable {s : Attempted} {w : World}

/-- Another world in which object calls are resolved alike. -/
lemma withWorld (h : s.Agrees) (hsame : ∀ site, w.resolution? site = s.world.resolution? site) :
    Attempted.Agrees (s.withWorld w) where
  now site := (hsame site).trans (h.now site)
  always := h.always

/-- A command that keeps no resolution. -/
lemma exec (h : s.Agrees) {α : Type} {k : Command α} (hk : ¬k.KeepsResolution) :
    Attempted.Agrees (Machine.attempting.exec k s).state := by
  have hsame : ∀ site, (k.run s.world).state.resolution? site = s.world.resolution? site := by
    intro site
    rw [World.resolution?, World.resolution?, Command.objectCalls_run hk]
  have hnext := h.withWorld hsame
  change Attempted.Agrees (Recorded.aside k.run s).state
  unfold Recorded.aside
  cases hrun : k.run s.world <;> rw [hrun] at hnext <;> exact hnext

/-- The evaluation of an object call that has no place to keep what it is resolved to. -/
lemma resolve_of_none (h : s.Agrees) {site : Id .callSite}
    (hsite : s.world.objectCalls.get? site = none) (r : Resolution) :
    Attempted.Agrees (s.withWorld (s.world.setResolution site r)) := by
  refine h.withWorld fun site' => ?_
  rw [World.resolution?_setResolution_eq, if_neg]
  rintro ⟨-, hsome⟩
  rw [hsite] at hsome
  exact nomatch hsome

/-- The evaluation of an object call: the world after it was resolved. -/
lemma attempt (h : s.Agrees) (a : Attempt) (ha : a.world = s.world)
    (hsite : (s.world.objectCalls.get? a.site).isSome) :
    Attempted.Agrees ⟨match s.world.resolution? a.site with
      | some _ => s.world
      | none =>
        match a.meaning with
        | .ok r => s.world.setResolution a.site r
        | .error _ => s.world, a :: s.record⟩ := by
  refine ⟨fun site => ?_, h.always.cons ?_⟩
  · change World.resolution? _ site = Attempts.resolved site (a :: s.record)
    by_cases hsame : a.site = site
    · subst hsame
      rw [Attempts.resolved_cons_self, ← h.now a.site]
      cases hknown : s.world.resolution? a.site with
      | some r => exact hknown
      | none =>
        cases a.meaning with
        | ok r => exact (s.world.resolution?_setResolution_eq _ _ r).trans (if_pos ⟨rfl, hsite⟩)
        | error err => exact hknown
    · rw [Attempts.resolved_cons_of_ne hsame, ← h.now site]
      split
      · rfl
      · split
        · rw [World.resolution?_setResolution_eq, if_neg fun hboth => hsame hboth.1]
        · rfl
  · rw [ha]
    exact h.now

/-- An object call is written down and resolved in one go. -/
lemma resolve (h : s.Agrees) {r : Evaluator Attempted} (hr : r.machine = .attempting)
    (scope : Scope) (site : Id .callSite) (target : VarRef) (function : Name) (args : List Expr) :
    Attempted.Agrees (r.resolve scope site target function args.length
      (s.attempt scope (.objectCall site target function args))).state := by
  have hresolve := Evaluator.resolve_apply (r := .shared 0) s.world scope site target function rfl
    args.length
  have hshared : (Evaluator.shared 0).machine = .shared := rfl
  rw [Evaluator.resolve_aside (fun _ => rfl) (fun _ _ => rfl) hr hshared]
  unfold Recorded.aside
  cases hsite : s.world.objectCalls.get? site with
  | none =>
    have hworld : s.attempt scope (.objectCall site target function args) = s := by
      simp [Recorded.attempt, Attempt.of?, hsite]
    rw [hworld, hresolve]
    cases s.world.resolution? site with
    | some known => exact h
    | none =>
      cases s.world.meaning scope target function args.length with
      | ok found => exact h.resolve_of_none hsite found
      | error err => exact h
  | some known =>
    let a : Attempt := ⟨scope, site, target, function, args, s.world⟩
    have hworld : s.attempt scope (.objectCall site target function args) =
        ⟨s.world, a :: s.record⟩ := by
      simp [Recorded.attempt, Attempt.of?, hsite, a]
    have hsome : (s.world.objectCalls.get? a.site).isSome := by rw [hsite, Option.isSome_some]
    have hnext := h.attempt a rfl hsome
    change Attempted.Agrees ⟨match s.world.resolution? site with
      | some _ => s.world
      | none =>
        match s.world.meaning scope target function args.length with
        | .ok r => s.world.setResolution site r
        | .error _ => s.world, a :: s.record⟩ at hnext
    rw [hworld, hresolve]
    cases hresolution : s.world.resolution? site with
    | some known =>
      rw [hresolution] at hnext
      exact hnext
    | none =>
      rw [hresolution] at hnext
      cases hmeaning : s.world.meaning scope target function args.length with
      | ok found =>
        rw [hmeaning] at hnext
        exact hnext
      | error err =>
        rw [hmeaning] at hnext
        exact hnext

/-- Each single step keeps the correspondence. -/
lemma upkeep : Machine.attempting.Upkeep (fun _ _ => True) Attempted.Agrees where
  exec k hk s hs := ⟨hs.exec hk, fun _ _ => trivial⟩
  findCallback e name count s hs := ⟨hs.exec id, fun _ _ => trivial⟩
  argument f i s hs := ⟨hs, fun _ _ => trivial⟩
  note mark hmark s hs := by
    cases mark with
    | evaluating scope e =>
      have hsame : s.attempt scope e.node = s := by
        rw [Recorded.attempt, Attempt.of?_eq_none hmark]
        rfl
      change (s.attempt scope e.node).Agrees
      rwa [hsame]
    | performing | returned | initEnded => exact hs
  resolve hr scope site target function args l s hs :=
    ⟨hs.resolve hr scope site target function args, fun _ _ => trivial⟩
  enter a _ s hs := hs.withWorld fun site => by cases a <;> rfl
  leave a s hs := hs.withWorld fun site => by cases a <;> rfl

/-- Each turn keeps the correspondence. -/
lemma take (bound : ℕ) (turn : Turn) :
    ((Evaluator.within .attempting bound).take Attempted.rearrange turn).KeepsUp Attempted.Agrees
      Anything :=
  upkeep.take bound Attempted.rearrange fun a _ s hs =>
    hs.withWorld (a.rearranges s.world).resolution

end Attempted.Agrees

/-- In every run, an object call stays unresolved until its variable determines an object and a
function in an evaluation, and is resolved to these from then on.  An evaluation before that fails
with the error that the variable determines, and changes nothing.  That evaluation and all later
ones evaluate the arguments and call that function of that object, whatever the variable holds.  The
record makes no difference to the engine. -/
theorem object_calls_keep_first_resolution (bound : ℕ) (turns : List Turn) {w : World}
    (hfresh : ∀ site, w.resolution? site = none) :
    let o := (Evaluator.within .attempting bound).takeAll Attempted.rearrange turns ⟨w, []⟩
    o.mapState (·.world) = (Evaluator.shared bound).takeAll id turns w ∧
    (∀ site, o.state.world.resolution? site = o.state.record.resolved site) ∧
    o.state.record.Always fun a past =>
      a.world.resolution? a.site = Attempts.resolved a.site past ∧
      ∀ bound l,
        let call resolution :=
          ((Evaluator.shared bound).callResolved a.scope resolution a.args).locate l
        let x := evaluate .shared (bound + 1) a.scope (.mk a.node l) a.world
        (∀ r, Attempts.resolved a.site past = some r → x = call r a.world) ∧
        (Attempts.resolved a.site past = none → ∀ r, a.meaning = .ok r →
          x = call r (a.world.setResolution a.site r)) ∧
        (Attempts.resolved a.site past = none → ∀ err, a.meaning = .error err →
          x = .failed (err.locate l) a.world) := by
  intro o
  have hkeeps := Evaluator.takeAll_keepsUp (Attempted.Agrees.take bound) turns
  have hagrees : o.state.Agrees := (hkeeps ⟨w, []⟩ ⟨hfresh, .nil _⟩).1
  refine ⟨Machine.attempting_records.takeAll (fun _ _ => rfl) bound turns _, hagrees.now, ?_⟩
  intro a past ha
  have hknown : a.world.resolution? a.site = Attempts.resolved a.site past :=
    hagrees.always a past ha a.site
  refine ⟨hknown, fun bound l => ?_⟩
  intro call x
  have hx : x = _ := evaluate_objectCall a.world a.scope a.site a.target a.function bound a.args l
  rw [hknown] at hx
  refine ⟨fun r hr => ?_, fun hnone r hr => ?_, fun hnone err herr => ?_⟩
  · rw [hx, hr]
  · rw [hx, hnone]
    rw [Attempt.meaning] at hr
    simp only [hr]
    rfl
  · rw [hx, hnone]
    rw [Attempt.meaning] at herr
    simp only [herr]

/-! ### A call that succeeds at the second attempt -/

namespace Retrying

/-- The only object call of its world. -/
def site : Id .callSite := ⟨0⟩

/-- The native object, which has one function. -/
def object : NativeRef := ⟨⟨0⟩, "Host"⟩

/-- The class of the object. -/
def host : Host.ApiClass :=
  (Host.ApiClass.named "Host").addFunction ⟨1⟩ 0 fun _ => .succeed (.bool true)

/-- The call `g.f()` on the object in a global. -/
def call : Tree :=
  .expr (.unlocated (.objectCall site (.global .empty) ⟨1⟩ []))

/-- One engine, whose globals are not set. -/
def world : World :=
  { World.empty with
    natives := (Pool.empty.add host).2
    engines := (Pool.empty.add (default : Engine)).2
    objectCalls := (Pool.empty.add none).2 }

/-- The host evaluates the call before the global is set, while it holds the object, and after it
was overwritten. -/
def turns : List Turn :=
  [.evaluate (.top ⟨0⟩) call, .write (.top ⟨0⟩) (.global .empty) (.native object),
    .evaluate (.top ⟨0⟩) call, .write (.top ⟨0⟩) (.global .empty) .undefined,
    .evaluate (.top ⟨0⟩) call]

/-- The call is not resolved yet. -/
lemma unresolved (site : Id .callSite) : world.resolution? site = none := by
  obtain ⟨_ | n⟩ := site
  · rfl
  · simp [world, World.resolution?, Pool.get?, Pool.add, Pool.empty]

end Retrying

/-- A call fails as long as its variable holds nothing, and is resolved for good as soon as it holds
an object. -/
theorem retried_call_is_resolved_once :
    (∀ site, Retrying.world.resolution? site = none) ∧
    let o := (Evaluator.within .attempting 5).takeAll Attempted.rearrange Retrying.turns
      ⟨Retrying.world, []⟩
    o.value?.map (·.map Except.toOption) = some [none, some (.native Retrying.object),
        some (.bool true), some .undefined, some (.bool true)] ∧
      o.state.world.resolution? Retrying.site = some (Retrying.object, ⟨0, 0⟩) := by
  refine ⟨Retrying.unresolved, ?_⟩
  intro o
  obtain ⟨-, hresolved, -⟩ :=
    object_calls_keep_first_resolution 5 Retrying.turns Retrying.unresolved
  have hvalues : o.value?.map (·.map Except.toOption) = some [none, some (.native Retrying.object),
      some (.bool true), some .undefined, some (.bool true)] := by
    decide +kernel
  have hrecord : o.state.record.resolved Retrying.site = some (Retrying.object, ⟨0, 0⟩) := by
    decide +kernel
  exact ⟨hvalues, (hresolved Retrying.site).trans hrecord⟩

end ScriptEngine
