import ScriptEngine.Proofs.Invariant

/-!
# The first `return` of a body

A `return` is to end its body and to give the result.  Each statement hands the signal of the part
that returned on to its parent; the first statement of a `for` loop is the one place where the signal
is dropped, so that the loop starts although the body has returned.

The marks of a history tell what a body does itself, apart from the bodies that it calls: those that
are made while no activity but its own is open.  A body *keeps its word* if no expression or statement
of it is begun after a `return`, the result is what that `return` has set, and the result is
undefined where there was no `return`.  The theorem of this file is that a body keeps its word exactly
if no `for` loop of it has dropped a `return`.

The induction is over the statement.  What is carried along is `Story`: either a `return` was dropped
and work went on, or none was dropped, and then the only mark of a `return` is the last one, if
control leaves by a `return`, and there is none otherwise.

Main statement: `first_return_wins_iff`.
-/

namespace ScriptEngine

namespace Mark

/-- A part of a tree begins its work. -/
def IsWork : Mark → Prop
  | evaluating _ _ | performing _ _ => True
  | returned _ | initEnded _ => False

/-- The evaluation of an expression begins. -/
def IsEvaluation : Mark → Prop
  | evaluating _ _ => True
  | performing _ _ | returned _ | initEnded _ => False

/-- The evaluation of an expression is work. -/
lemma IsEvaluation.isWork {mark : Mark} (h : mark.IsEvaluation) : mark.IsWork := by
  cases mark with
  | evaluating scope e => trivial
  | performing | returned | initEnded => exact h.elim

end Mark

namespace History

/-! ### The marks of one body -/

/-- The marks that were made while `n` activities were open, newest first. -/
def marksAt (n : ℕ) : History → List Mark
  | [] => []
  | ⟨.marked mark, _⟩ :: past =>
    if (openActivities past).length = n then mark :: marksAt n past else marksAt n past
  | ⟨.began _, _⟩ :: past | ⟨.ended _, _⟩ :: past | ⟨.acted, _⟩ :: past | ⟨.read _ _, _⟩ :: past =>
    marksAt n past

variable {new past : History} {c d : List Activity}

/-- One history after another, each nested. -/
lemma Nested.append (hnew : Nested new c) (hpast : Nested past d) :
    Nested (new ++ past) (c ++ d) := by
  induction hnew with
  | nil => exact hpast
  | began a w h ih => exact .began a w ih
  | ended a w h ih => exact .ended a w ih
  | acted w h ih => exact .acted w ih
  | read f i w h ih => exact .read f i w ih
  | marked mark w h ih => exact .marked mark w ih

/-- The marks of a stretch of a history are those that it has by itself, further out. -/
lemma Nested.marksAt_append (hnew : Nested new c) (hpast : Nested past d) (n : ℕ) :
    marksAt (n + d.length) (new ++ past) = marksAt n new ++ marksAt (n + d.length) past := by
  induction hnew with
  | nil => rfl
  | @marked older b mark w h ih =>
    rw [List.cons_append, marksAt, marksAt, (h.append hpast).openActivities_eq,
      h.openActivities_eq, List.length_append, ih]
    by_cases hb : b.length = n
    · rw [if_pos (congrArg (· + d.length) hb), if_pos hb, List.cons_append]
    · rw [if_neg fun heq => hb (Nat.add_right_cancel heq), if_neg hb]
  | began a w h ih | ended a w h ih | acted w h ih | read f i w h ih =>
    rw [List.cons_append, marksAt, marksAt, ih]

end History

/-! ### Stories of bodies -/

/-- What the marks of a body say, newest first. -/
abbrev Marks := List Mark

namespace Marks

/-- There is no `return`. -/
def NoReturn (marks : Marks) : Prop :=
  ∀ v, .returned v ∉ marks

/-- Work is begun after a `return`. -/
def WorkAfterReturn (marks : Marks) : Prop :=
  ∃ later v earlier, marks = later ++ .returned v :: earlier ∧ ∃ mark ∈ later, mark.IsWork

/-- A `for` loop has dropped a `return`. -/
def DropsReturn (marks : Marks) : Prop :=
  .initEnded .returning ∈ marks

/-- The marks of a part that begins with `before` as the value to return and ends with `after`.
Control leaves by a `return` or not. -/
def Story (marks : Marks) (before : Value) (returning : Bool) (after : Value) : Prop :=
  marks.DropsReturn ∧ marks.WorkAfterReturn ∨
  ¬marks.DropsReturn ∧
    if returning then ∃ earlier, marks = .returned after :: earlier ∧ NoReturn earlier
    else marks.NoReturn ∧ after = before

/-- The marks of a part that fails. -/
def FailedStory (marks : Marks) : Prop :=
  marks.DropsReturn ∧ marks.WorkAfterReturn ∨ ¬marks.DropsReturn ∧ marks.NoReturn

/-- The marks of a part that is given up. -/
def UnfinishedStory (marks : Marks) : Prop :=
  marks.DropsReturn ∧ ¬marks.NoReturn ∨ ¬marks.DropsReturn ∧ marks.NoReturn

variable {marks later earlier : Marks} {u v z : Value} {returning : Bool}

/-- Work after a `return` stays so, whatever comes before and after. -/
lemma WorkAfterReturn.append (h : marks.WorkAfterReturn) (later earlier : Marks) :
    (later ++ marks ++ earlier).WorkAfterReturn := by
  obtain ⟨new, v, old, rfl, mark, hmark, hwork⟩ := h
  refine ⟨later ++ new, v, old ++ earlier, by simp, mark, ?_, hwork⟩
  exact List.mem_append_right later hmark

/-- Work after a `return` comes after a `return`. -/
lemma WorkAfterReturn.not_noReturn (h : marks.WorkAfterReturn) : ¬marks.NoReturn := by
  obtain ⟨later, v, earlier, rfl, -⟩ := h
  exact fun hnone => hnone v (List.mem_append_right later List.mem_cons_self)

/-- There is a `return` in neither part. -/
lemma NoReturn.append (hlater : later.NoReturn) (hearlier : earlier.NoReturn) :
    (later ++ earlier).NoReturn := by
  intro v hv
  rcases List.mem_append.1 hv with h | h
  · exact hlater v h
  · exact hearlier v h

/-- Work in which nothing but expressions is evaluated has no `return`. -/
lemma noReturn_of_evaluations (h : ∀ mark ∈ marks, mark.IsEvaluation) : marks.NoReturn :=
  fun _ hv => h _ hv

/-- Work in which nothing but expressions is evaluated drops no `return`. -/
lemma not_dropsReturn_of_evaluations (h : ∀ mark ∈ marks, mark.IsEvaluation) :
    ¬marks.DropsReturn :=
  fun hdrops => h _ hdrops

/-- A `return` is dropped in one of two parts. -/
lemma dropsReturn_append : (later ++ earlier).DropsReturn ↔
    later.DropsReturn ∨ earlier.DropsReturn :=
  List.mem_append

/-- A part that dropped a `return` has gone wrong whatever comes afterwards. -/
lemma gone_wrong_before (h : earlier.DropsReturn ∧ earlier.WorkAfterReturn) (later : Marks) :
    (later ++ earlier).DropsReturn ∧ (later ++ earlier).WorkAfterReturn := by
  refine ⟨List.mem_append_right later h.1, ?_⟩
  have hwork := h.2.append later []
  rwa [List.append_nil] at hwork

/-- A part that dropped a `return` has gone wrong whatever came before. -/
lemma gone_wrong_after (h : later.DropsReturn ∧ later.WorkAfterReturn) (earlier : Marks) :
    (later ++ earlier).DropsReturn ∧ (later ++ earlier).WorkAfterReturn :=
  ⟨List.mem_append_left earlier h.1, h.2.append [] earlier⟩

/-- A part that control leaves by its end, and then another one. -/
lemma Story.append (hearlier : earlier.Story u false v) (hlater : later.Story v returning z) :
    (later ++ earlier).Story u returning z := by
  rcases hearlier with hwrong | ⟨hkept, hnone, rfl⟩
  · exact Or.inl (gone_wrong_before hwrong later)
  rcases hlater with hwrong | ⟨hkept', hlater⟩
  · exact Or.inl (gone_wrong_after hwrong earlier)
  refine Or.inr ⟨fun hdrops => (dropsReturn_append.1 hdrops).elim hkept' hkept, ?_⟩
  cases returning with
  | false => exact ⟨hlater.1.append hnone, hlater.2⟩
  | true =>
    obtain ⟨old, rfl, hold⟩ := hlater
    exact ⟨old ++ earlier, List.cons_append, hold.append hnone⟩

/-- A part that control leaves by its end, and then one that fails. -/
lemma Story.append_failed (hearlier : earlier.Story u false v) (hlater : later.FailedStory) :
    (later ++ earlier).FailedStory := by
  rcases hearlier with hwrong | ⟨hkept, hnone, -⟩
  · exact Or.inl (gone_wrong_before hwrong later)
  rcases hlater with hwrong | ⟨hkept', hnone'⟩
  · exact Or.inl (gone_wrong_after hwrong earlier)
  · exact Or.inr ⟨fun hdrops => (dropsReturn_append.1 hdrops).elim hkept' hkept,
      hnone'.append hnone⟩

/-- A part that control leaves by its end, and then one that is given up. -/
lemma Story.append_unfinished (hearlier : earlier.Story u false v)
    (hlater : later.UnfinishedStory) : (later ++ earlier).UnfinishedStory := by
  rcases hearlier with hwrong | ⟨hkept, hnone, -⟩
  · obtain ⟨hdrops, hwork⟩ := gone_wrong_before hwrong later
    exact Or.inl ⟨hdrops, hwork.not_noReturn⟩
  rcases hlater with ⟨hdrops, hreturn⟩ | ⟨hkept', hnone'⟩
  · refine Or.inl ⟨List.mem_append_left earlier hdrops, fun hall => hreturn fun v hv => ?_⟩
    exact hall v (List.mem_append_left earlier hv)
  · exact Or.inr ⟨fun hdrops => (dropsReturn_append.1 hdrops).elim hkept' hkept,
      hnone'.append hnone⟩

/-- A part that control leaves by a `return` has one. -/
lemma Story.not_noReturn (h : marks.Story u true v) : ¬marks.NoReturn := by
  rcases h with hwrong | ⟨-, earlier, rfl, -⟩
  · exact hwrong.2.not_noReturn
  · exact fun hnone => hnone v List.mem_cons_self

/-- Nothing happens. -/
lemma Story.nil (u : Value) : Story [] u false u :=
  Or.inr ⟨List.not_mem_nil, fun _ => List.not_mem_nil, rfl⟩

end Marks

/-! ### Stretches of a history -/

/-- What happens from one state to another: of the activities that begin, `c` are left open, and the
marks, apart from those that are made in activities, are these. -/
def Traced.Stretch (s s' : Traced) (c : List Activity) (marks : Marks) : Prop :=
  ∃ new, s'.record = new ++ s.record ∧ History.Nested new c ∧ History.marksAt 0 new = marks

namespace Traced.Stretch

variable {s s' s'' : Traced} {c : List Activity} {marks later earlier : Marks}

/-- Nothing happens. -/
lemma refl (s : Traced) : Stretch s s [] [] :=
  ⟨[], rfl, .nil, rfl⟩

/-- One stretch after another. -/
lemma trans (hearlier : Stretch s s' [] earlier) (hlater : Stretch s' s'' c later) :
    Stretch s s'' c (later ++ earlier) := by
  obtain ⟨new, hnew, hnested, rfl⟩ := hearlier
  obtain ⟨new', hnew', hnested', rfl⟩ := hlater
  have happend := hnested'.append hnested
  rw [List.append_nil] at happend
  refine ⟨new' ++ new, ?_, happend, hnested'.marksAt_append hnested 0⟩
  rw [hnew', hnew, List.append_assoc]

/-- A mark. -/
lemma mark (s : Traced) (mark : Mark) : Stretch s (s.log (.marked mark) s.world) [] [mark] :=
  ⟨[⟨.marked mark, s.world⟩], rfl, .marked mark _ .nil, rfl⟩

/-- A command. -/
lemma command (s : Traced) (w : World) : Stretch s (s.log .acted w) [] [] :=
  ⟨[⟨.acted, w⟩], rfl, .acted w .nil, rfl⟩

end Traced.Stretch

/-! ### Actions and their stories -/

section

variable {α β : Type}

/-- The outcome of an action that began with `a`.  Control leaves by a `return` for some of the
values, and the action does work if `works` holds. -/
def Outcome.Tells (a : Activation Traced) (returns : α → Bool) (works : Prop) :
    Outcome (Activation Traced) α → Prop
  | done x b => ∃ marks, Traced.Stretch a.state b.state [] marks ∧
    Marks.Story marks a.returned (returns x) b.returned ∧ (works → ∃ mark ∈ marks, mark.IsWork)
  | failed _ b => ∃ marks, Traced.Stretch a.state b.state [] marks ∧
    Marks.FailedStory marks ∧ (works → ∃ mark ∈ marks, mark.IsWork)
  | unfinished b => ∃ c marks, Traced.Stretch a.state b.state c marks ∧ Marks.UnfinishedStory marks

/-- The action tells a story wherever it begins. -/
def Action.Tells (x : Action (Activation Traced) α) (returns : α → Bool) (works : Prop) : Prop :=
  ∀ a, (x a).Tells a returns works

namespace Outcome.Tells

open Marks

variable {returns : α → Bool} {works : Prop} {o : Outcome (Activation Traced) α}
  {a b : Activation Traced} {marks : Marks}

/-- What is told after a part that control has left by its end. -/
lemma after (h : o.Tells b returns False) (hstretch : Traced.Stretch a.state b.state [] marks)
    (hstory : Story marks a.returned false b.returned) (hwork : works → ∃ mark ∈ marks, mark.IsWork) :
    o.Tells a returns works := by
  have hworks : ∀ later : Marks, works → ∃ mark ∈ later ++ marks, mark.IsWork := by
    intro later hw
    obtain ⟨mark, hmark, hisWork⟩ := hwork hw
    exact ⟨mark, List.mem_append_right later hmark, hisWork⟩
  cases o with
  | done z d =>
    obtain ⟨later, hstretch', hstory', -⟩ := h
    exact ⟨later ++ marks, hstretch.trans hstretch', hstory.append hstory', hworks later⟩
  | failed e d =>
    obtain ⟨later, hstretch', hstory', -⟩ := h
    exact ⟨later ++ marks, hstretch.trans hstretch', hstory.append_failed hstory', hworks later⟩
  | @diverged d =>
    obtain ⟨c, later, hstretch', hstory'⟩ := h
    exact ⟨c, later ++ marks, hstretch.trans hstretch', hstory.append_unfinished hstory'⟩

/-- What is told after a `return` that was dropped: as soon as there is work, all is wrong. -/
lemma after_dropped (h : o.Tells b returns True)
    (hstretch : Traced.Stretch a.state b.state [] (.initEnded .returning :: marks)) {v : Value}
    (hstory : Story marks a.returned true v) : o.Tells a returns False := by
  have hwrong : ∀ later : Marks, (∃ mark ∈ later, mark.IsWork) →
      (later ++ .initEnded .returning :: marks).DropsReturn ∧
        (later ++ .initEnded .returning :: marks).WorkAfterReturn := by
    rintro later ⟨mark, hmark, hisWork⟩
    refine ⟨List.mem_append_right later List.mem_cons_self, ?_⟩
    rcases hstory with hwrong | ⟨-, earlier, rfl, -⟩
    · have hwork := hwrong.2.append (later ++ [.initEnded .returning]) []
      rwa [List.append_nil, List.append_assoc, List.singleton_append] at hwork
    · refine ⟨later ++ [.initEnded .returning], v, earlier, by simp, mark, ?_, hisWork⟩
      exact List.mem_append_left _ hmark
  cases o with
  | done z d =>
    obtain ⟨later, hstretch', -, hwork⟩ := h
    exact ⟨_, hstretch.trans hstretch', Or.inl (hwrong later (hwork trivial)), False.elim⟩
  | failed e d =>
    obtain ⟨later, hstretch', -, hwork⟩ := h
    exact ⟨_, hstretch.trans hstretch', Or.inl (hwrong later (hwork trivial)), False.elim⟩
  | @diverged d =>
    obtain ⟨c, later, hstretch', -⟩ := h
    refine ⟨c, _, hstretch.trans hstretch', Or.inl ⟨?_, fun hnone => ?_⟩⟩
    · exact List.mem_append_right later List.mem_cons_self
    · refine hstory.not_noReturn fun z hz => hnone z ?_
      exact List.mem_append_right later (List.mem_cons_of_mem _ hz)

end Outcome.Tells

namespace Action.Tells

open Marks

variable {returns : α → Bool} {returns' : β → Bool} {works : Prop}
  {x : Action (Activation Traced) α} {f : α → Action (Activation Traced) β}

/-- Less may be said of the work that is done. -/
lemma idle (h : x.Tells returns works) : x.Tells returns False := by
  intro a
  have hx := h a
  cases hxa : x a with
  | done y b =>
    rw [hxa] at hx
    obtain ⟨marks, hstretch, hstory, -⟩ := hx
    exact ⟨marks, hstretch, hstory, False.elim⟩
  | failed e b =>
    rw [hxa] at hx
    obtain ⟨marks, hstretch, hstory, -⟩ := hx
    exact ⟨marks, hstretch, hstory, False.elim⟩
  | @diverged b =>
    rw [hxa] at hx
    exact hx

/-- A value that is there already. -/
lemma pure {y : α} (hy : returns y = false) :
    (Pure.pure y : Action (Activation Traced) α).Tells returns False := by
  intro a
  refine ⟨[], .refl a.state, ?_, False.elim⟩
  rw [hy]
  exact Story.nil a.returned

/-- The errors are changed. -/
lemma mapError (h : x.Tells returns works) (change : EvalError → EvalError) :
    (x.mapError change).Tells returns works := by
  intro a
  have hx := h a
  unfold Action.mapError
  cases hxa : x a with
  | done y b | failed e b =>
    rw [hxa] at hx
    exact hx
  | @diverged b =>
    rw [hxa] at hx
    exact hx

/-- One action after another: if control leaves the first one by a `return`, the second one is a
value that says so. -/
lemma bind (hx : x.Tells returns works)
    (hreturn : ∀ y, returns y = true → ∃ z, f y = Pure.pure z ∧ returns' z = true)
    (hf : ∀ y, returns y = false → (f y).Tells returns' False) :
    (x >>= f).Tells returns' works := by
  intro a
  have hfirst := hx a
  rw [Action.bind_apply]
  cases hxa : x a with
  | done y b =>
    rw [hxa] at hfirst
    obtain ⟨earlier, hstretch, hstory, hwork⟩ := hfirst
    cases hy : returns y with
    | true =>
      obtain ⟨z, hz, hreturns⟩ := hreturn y hy
      change (f y b).Tells a returns' works
      rw [hz]
      refine ⟨earlier, hstretch, ?_, hwork⟩
      rwa [hreturns, ← hy]
    | false =>
      rw [hy] at hstory
      exact (hf y hy b).after hstretch hstory hwork
  | failed e b =>
    rw [hxa] at hfirst
    exact hfirst
  | @diverged b =>
    rw [hxa] at hfirst
    exact hfirst

/-- An action that control leaves by its end, and another one. -/
lemma andThen (hx : x.Tells (fun _ => false) works) (hf : ∀ y, (f y).Tells returns' False) :
    (x >>= f).Tells returns' works :=
  hx.bind (fun _ hy => Bool.noConfusion hy) fun y _ => hf y

/-- An action that gives up at once. -/
lemma diverge : (Action.diverge : Action (Activation Traced) α).Tells returns works :=
  fun a => ⟨[], [], .refl a.state, Or.inr ⟨List.not_mem_nil, fun _ => List.not_mem_nil⟩⟩

/-- A command does no work and returns nothing. -/
lemma command (k : Command α) :
    (Activation.within (Machine.traced.exec k)).Tells (fun _ => false) False := by
  rintro ⟨s, v⟩
  rw [Activation.within_apply]
  change (((k.run s.world).mapState (s.log .acted)).mapState _).Tells _ _ _
  cases k.run s.world with
  | done y w => exact ⟨[], .command s w, Story.nil v, False.elim⟩
  | failed e w =>
    exact ⟨[], .command s w, Or.inr ⟨List.not_mem_nil, fun _ => List.not_mem_nil⟩, False.elim⟩
  | @diverged w =>
    exact ⟨[], [], .command s w, Or.inr ⟨List.not_mem_nil, fun _ => List.not_mem_nil⟩⟩

/-- A loop tells what its rounds tell. -/
lemma repeatUpTo {body : Action (Activation Traced) (Option α)}
    (h : body.Tells (fun o => o.any returns) works) (bound : ℕ) :
    (Action.repeatUpTo bound body).Tells returns works := by
  induction bound with
  | zero => exact .diverge
  | succ bound ih =>
    rw [Action.repeatUpTo_succ]
    refine h.bind (fun o ho => ?_) fun o ho => ?_
    · cases o with
      | none => exact Bool.noConfusion ho
      | some y => exact ⟨y, rfl, ho⟩
    · cases o with
      | none => exact ih.idle
      | some y => exact .pure ho

end Action.Tells

end

/-! ### Expressions -/

/-- What an expression does itself is to evaluate expressions. -/
structure Traced.EvaluatesOnly (w₀ : World) (base : History) (c : List Activity) (s : Traced) :
    Prop where
  code : s.world.code = w₀.code
  stretch : ∃ new, s.record = new ++ base ∧ History.Nested new c ∧
    (∀ mark ∈ History.marksAt 0 new, mark.IsEvaluation) ∧ History.marksAt 0 new ≠ []

/-- All trees, with statements in bodies alone. -/
def Coverage.inBodies : Coverage where
  expression _ := True
  statement _ := True
  fits _ _ := True
  reaches _ := True
  performs c := c ≠ []
  reaches_top _ := trivial
  fits_of_call _ := trivial
  performs_cons _ _ := List.cons_ne_nil _ _

/-- Statements are in bodies in every world. -/
lemma Coverage.inBodies_closed (w : World) : Coverage.inBodies.Closed w where
  function {_ _ body} _ _ := body.everywhere_of_forall (fun _ => trivial) fun _ => trivial
  callback {_ _ body} _ _ := body.everywhere_of_forall (fun _ => trivial) fun _ => trivial
  native _ := Host.ApiClass.executes_of_forall
    (Stmt.everywhere_of_forall (fun _ => trivial) fun _ => trivial) _
  fits _ := trivial
  reaches _ _ _ := trivial

namespace Traced.EvaluatesOnly

variable {w₀ w : World} {base : History} {c d : List Activity} {s : Traced}

/-- An event that makes no mark of the expression itself. -/
lemma log (h : EvaluatesOnly w₀ base c s) {event : Event} (hcode : w.code = s.world.code)
    (hnested : ∀ new, History.Nested new c → History.Nested (⟨event, w⟩ :: new) d)
    (hmarks : ∀ new, History.Nested new c →
      History.marksAt 0 (⟨event, w⟩ :: new) = History.marksAt 0 new) :
    EvaluatesOnly w₀ base d (s.log event w) := by
  obtain ⟨new, hrecord, hnew, hevaluations, hsome⟩ := h.stretch
  refine ⟨hcode.trans h.code, ⟨event, w⟩ :: new, ?_, hnested new hnew, ?_, ?_⟩
  · exact congrArg (List.cons ⟨event, w⟩) hrecord
  · rwa [hmarks new hnew]
  · rwa [hmarks new hnew]

/-- Each event in an expression is one of a body that it calls, or the beginning of an
evaluation. -/
lemma kept (w₀ : World) (base : History) :
    Traced.Kept w₀ Coverage.inBodies (EvaluatesOnly w₀ base) where
  closed := Coverage.inBodies_closed w₀
  code h := h.code
  acted h hchange := h.log hchange.code_eq (fun _ => .acted _) fun _ _ => rfl
  began a _ h := h.log (a.code_enter _) (fun _ => .began a _) fun _ _ => rfl
  ended a h := h.log (a.code_leave _) (fun _ => .ended a _) fun _ _ => rfl
  read f i h := h.log rfl (fun _ => .read f i _) fun _ _ => rfl
  evaluating {c s scope} e _ h := by
    obtain ⟨new, hrecord, hnew, hevaluations, hsome⟩ := h.stretch
    refine ⟨h.code, ⟨.marked (.evaluating scope e), s.world⟩ :: new, ?_, .marked _ _ hnew, ?_, ?_⟩
    · exact congrArg (List.cons ⟨.marked (.evaluating scope e), s.world⟩) hrecord
    · intro mark hmark
      rw [History.marksAt] at hmark
      split at hmark
      · rcases List.mem_cons.1 hmark with rfl | hold
        · trivial
        · exact hevaluations mark hold
      · exact hevaluations mark hmark
    · rw [History.marksAt]
      split
      · exact List.cons_ne_nil _ _
      · exact hsome
  marked mark hc _ h := by
    refine h.log rfl (fun _ => .marked mark _) fun new hnew => ?_
    rw [History.marksAt, hnew.openActivities_eq, if_neg fun hlength => hc ?_]
    exact List.eq_nil_of_length_eq_zero hlength

/-- An evaluation does work, and returns nothing. -/
lemma tells {α : Type} {Q : α → Prop} {o : Outcome Traced α}
    (h : o.Keeps (EvaluatesOnly w₀ s.record) [] Q) (v : Value) :
    (o.mapState fun state => (⟨state, v⟩ : Activation Traced)).Tells ⟨s, v⟩ (fun _ => false) True := by
  cases o with
  | done y s' =>
    obtain ⟨new, hrecord, hnew, hevaluations, hsome⟩ := h.2.stretch
    refine ⟨_, ⟨new, hrecord, hnew, rfl⟩, ?_, fun _ => ?_⟩
    · exact Or.inr ⟨Marks.not_dropsReturn_of_evaluations hevaluations,
        Marks.noReturn_of_evaluations hevaluations, rfl⟩
    · obtain ⟨mark, hmark⟩ := List.exists_mem_of_ne_nil _ hsome
      exact ⟨mark, hmark, (hevaluations mark hmark).isWork⟩
  | failed e s' =>
    obtain ⟨new, hrecord, hnew, hevaluations, hsome⟩ := EvaluatesOnly.stretch h
    refine ⟨_, ⟨new, hrecord, hnew, rfl⟩, ?_, fun _ => ?_⟩
    · exact Or.inr ⟨Marks.not_dropsReturn_of_evaluations hevaluations,
        Marks.noReturn_of_evaluations hevaluations⟩
    · obtain ⟨mark, hmark⟩ := List.exists_mem_of_ne_nil _ hsome
      exact ⟨mark, hmark, (hevaluations mark hmark).isWork⟩
  | @diverged s' =>
    obtain ⟨d, hd⟩ := h
    obtain ⟨new, hrecord, hnew, hevaluations, -⟩ := hd.stretch
    exact ⟨d, _, ⟨new, hrecord, hnew, rfl⟩, Or.inr
      ⟨Marks.not_dropsReturn_of_evaluations hevaluations,
        Marks.noReturn_of_evaluations hevaluations⟩⟩

end Traced.EvaluatesOnly

namespace Evaluator

variable {bound : ℕ}

/-- The evaluation of an expression does work, and returns nothing. -/
lemma valueOf_tells (scope : Scope) (e : Expr) :
    ((within .traced bound).valueOf scope e).Tells (fun _ => false) True := by
  rintro ⟨s, v⟩
  cases bound with
  | zero => exact Action.Tells.diverge ⟨s, v⟩
  | succ bound =>
    let first : Traced := s.log (.marked (.evaluating scope e)) s.world
    have hfirst : Traced.EvaluatesOnly s.world s.record [] first := by
      refine ⟨rfl, [⟨.marked (.evaluating scope e), s.world⟩], rfl, .marked _ _ .nil, ?_, ?_⟩
      · intro mark hmark
        obtain rfl := List.mem_singleton.1 hmark
        trivial
      · exact List.cons_ne_nil _ _
    have hkept := (Traced.EvaluatesOnly.kept s.world s.record).simulates bound
    have hparts : ∀ a ∈ e.node.parts, Coverage.inBodies.Covers a :=
      fun a _ => a.everywhere_of_forall fun _ => trivial
    have hscope : Coverage.inBodies.reaches scope := trivial
    have hnode := (hkept.evaluateNode [] hscope trivial hparts).mapError (·.locate e.location)
    have hkeeps := hnode.keeps hfirst
    rw [valueOf, Activation.within_apply]
    change ((((within .traced bound).evaluateNode scope e.node).locate e.location
      first).mapState _).Tells _ _ _
    exact Traced.EvaluatesOnly.tells hkeeps v

/-! ### Statements -/

/-- Control leaves by a `return`. -/
def isReturn : Signal → Bool
  | .returning => true
  | .normal | .breaking | .continuing => false

/-- Control leaves by a `return` for no other signal. -/
lemma isReturn_eq_false {signal : Signal} (h : signal ≠ .returning) : isReturn signal = false := by
  cases signal with
  | returning => exact absurd rfl h
  | normal | breaking | continuing => rfl

/-- The end of the first statement of a loop is no `return` and drops none, unless its signal says
so. -/
lemma initEnded_tells {signal : Signal} (h : signal ≠ .returning) :
    ((within .traced bound).note (.initEnded signal)).Tells (fun _ => false) False := by
  rintro ⟨s, v⟩
  refine ⟨[.initEnded signal], .mark s (.initEnded signal), Or.inr ⟨?_, ?_, rfl⟩, False.elim⟩
  · intro hmem
    exact h (Mark.initEnded.inj (List.mem_singleton.1 hmem)).symm
  · intro z hmem
    exact Mark.noConfusion (List.mem_singleton.1 hmem)

/-- A `return` tells that control leaves by it. -/
lemma return_tells (v : Value) :
    (do
      Activation.setReturned v
      (within .traced bound).note (.returned v)
      return Signal.returning : Action (Activation Traced) Signal).Tells isReturn False := by
  rintro ⟨s, u⟩
  refine ⟨[.returned v], .mark s (.returned v), Or.inr ⟨?_, [], rfl, ?_⟩, False.elim⟩
  · exact fun hmem => Mark.noConfusion (List.mem_singleton.1 hmem)
  · exact fun _ => List.not_mem_nil

/-- A condition that is there is evaluated. -/
lemma holds_tells (scope : Scope) (condition : Expr) :
    ((within .traced bound).holds scope (some condition)).Tells (fun _ => false) True :=
  (valueOf_tells scope condition).andThen fun _ => .pure rfl

/-- The step of a loop returns nothing. -/
lemma advance_tells (scope : Scope) (step : Option Expr) :
    ((within .traced bound).advance scope step).Tells (fun _ => false) False := by
  cases step with
  | none => exact .pure rfl
  | some e => exact ((valueOf_tells scope e).andThen fun _ => .pure rfl).idle

/-- A value returns nothing by itself. -/
lemma valueOrUndefined_tells (scope : Scope) (value : Option Expr) :
    ((within .traced bound).valueOrUndefined scope value).Tells (fun _ => false) False := by
  cases value with
  | none => exact .pure rfl
  | some e => exact (valueOf_tells scope e).idle

section

variable (h : ∀ scope s, ((within .traced bound).perform scope s).Tells isReturn True)

include h

/-- Statements in order hand on the signal of the one that returns. -/
lemma performAll_tells (scope : Scope) (ss : List Stmt) :
    ((within .traced bound).performAll scope ss).Tells isReturn False := by
  induction ss with
  | nil => exact .pure rfl
  | cons s rest ih =>
    refine ((h scope s).bind (fun signal hsignal => ?_) fun signal hsignal => ?_).idle
    · cases signal with
      | returning => exact ⟨.returning, rfl, rfl⟩
      | normal | breaking | continuing => exact Bool.noConfusion hsignal
    · cases signal with
      | returning => exact Bool.noConfusion hsignal
      | normal => exact ih
      | breaking | continuing => exact .pure rfl

/-- The body of a loop in a round hands on its `return`. -/
lemma bodyOfRound_tells (scope : Scope) (step : Option Expr) (body : Stmt) :
    (do
      match ← (within .traced bound).perform scope body with
      | .breaking => return some .normal
      | .returning => return some .returning
      | .normal | .continuing =>
        (within .traced bound).advance scope step
        return none : Action (Activation Traced) (Option Signal)).Tells
      (fun o => o.any isReturn) True := by
  refine (h scope body).bind (fun signal hsignal => ?_) fun signal hsignal => ?_
  · cases signal with
    | returning => exact ⟨some .returning, rfl, rfl⟩
    | normal | breaking | continuing => exact Bool.noConfusion hsignal
  · cases signal with
    | returning => exact Bool.noConfusion hsignal
    | breaking => exact .pure rfl
    | normal | continuing => exact (advance_tells scope step).andThen fun _ => .pure rfl

/-- A round of a loop does work, and hands on the `return` of its body. -/
lemma round_tells (scope : Scope) (condition step : Option Expr) (body : Stmt) :
    ((within .traced bound).round scope condition step body).Tells (fun o => o.any isReturn)
      True := by
  have hbody := bodyOfRound_tells h scope step body
  cases condition with
  | none => exact hbody
  | some e =>
    refine (holds_tells scope e).andThen fun holds => ?_
    cases holds with
    | false => exact .pure rfl
    | true => exact hbody.idle

/-- A `for` loop tells what its rounds tell, unless its first statement returns. -/
lemma forLoop_tells (scope : Scope) (init : Option Stmt) {loop : Action (Activation Traced) Signal}
    (hloop : loop.Tells isReturn True) :
    (do
      (within .traced bound).initialise scope init
      loop).Tells isReturn False := by
  cases init with
  | none => exact hloop.idle
  | some s =>
    intro a
    have hinit := h scope s a
    change ((((within .traced bound).perform scope s) >>= fun signal =>
      (within .traced bound).note (.initEnded signal)) >>= fun _ => loop) a |>.Tells a isReturn False
    rw [Action.bind_assoc, Action.bind_apply]
    cases hs : (within .traced bound).perform scope s a with
    | done signal b =>
      rw [hs] at hinit
      obtain ⟨marks, hstretch, hstory, -⟩ := hinit
      by_cases hsignal : signal = .returning
      · subst hsignal
        have hnoted := hstretch.trans (.mark b.state (.initEnded .returning))
        exact (hloop _).after_dropped hnoted hstory
      · rw [isReturn_eq_false hsignal] at hstory
        have hrest : ((within .traced bound).note (.initEnded signal) >>= fun _ => loop).Tells
            isReturn False := (initEnded_tells hsignal).andThen fun _ => hloop.idle
        exact (hrest b).after hstretch hstory False.elim
    | failed e b =>
      rw [hs] at hinit
      obtain ⟨marks, hstretch, hstory, -⟩ := hinit
      exact ⟨marks, hstretch, hstory, False.elim⟩
    | @diverged b =>
      rw [hs] at hinit
      exact hinit

/-- Each form of statement hands on the `return` of its parts, except for the first statement of a
`for` loop. -/
lemma performNode_tells (scope : Scope) (node : StmtNode) :
    ((within .traced bound).performNode scope node).Tells isReturn False := by
  cases node with
  | expr e => exact ((valueOf_tells scope e).andThen fun _ => .pure rfl).idle
  | declare target init =>
    refine (valueOrUndefined_tells scope init).andThen fun v => ?_
    exact (Action.Tells.command (.set scope target v)).andThen fun _ => .pure rfl
  | block statements => exact performAll_tells h scope statements
  | branch condition consequent alternative =>
    refine Action.Tells.idle ((valueOf_tells scope condition).andThen fun v => ?_)
    split
    · exact (h scope consequent).idle
    · cases alternative with
      | none => exact .pure rfl
      | some s => exact (h scope s).idle
  | whileLoop condition body =>
    exact (Action.Tells.repeatUpTo (round_tells h scope (some condition) none body) bound).idle
  | forLoop init condition step body =>
    exact forLoop_tells h scope init
      (Action.Tells.repeatUpTo (round_tells h scope condition step body) bound)
  | returnValue value =>
    exact (valueOrUndefined_tells scope value).andThen return_tells
  | breakLoop | continueLoop => exact .pure rfl

end

/-- Each statement does work, and hands on the `return` of its parts, except for the first statement
of a `for` loop. -/
lemma perform_tells (scope : Scope) (s : Stmt) :
    ((within .traced bound).perform scope s).Tells isReturn True := by
  induction bound generalizing scope s with
  | zero => exact .diverge
  | succ bound ih =>
    intro a
    let first : Activation Traced :=
      ⟨a.state.log (.marked (.performing scope s)) a.state.world, a.returned⟩
    have hnode := (performNode_tells ih scope s.node).mapError (·.locate s.location)
    have hstory : Marks.Story [.performing scope s] a.returned false a.returned := by
      refine Or.inr ⟨fun hmem => ?_, fun z hmem => ?_, rfl⟩
      · exact Mark.noConfusion (List.mem_singleton.1 hmem)
      · exact Mark.noConfusion (List.mem_singleton.1 hmem)
    refine (hnode first).after (.mark a.state (.performing scope s)) hstory fun _ => ?_
    exact ⟨.performing scope s, List.mem_singleton.2 rfl, trivial⟩

end Evaluator

/-! ### Bodies that keep their word -/

/-- The first `return` of a body with these marks ends the body and gives the result, and without a
`return` the result is undefined. -/
structure Marks.FirstReturnWins (marks : Marks) (result : Option Value) : Prop where
  ends : ∀ later v earlier, marks = later ++ .returned v :: earlier →
    (∀ mark ∈ later, ¬mark.IsWork) ∧ result = some v
  undefined : marks.NoReturn → ∀ v ∈ result, v = .undefined

namespace Marks

variable {marks : Marks} {returning : Bool} {v : Value}

/-- Nothing wins where nothing returns. -/
lemma firstReturnWins_nil {result : Option Value} (h : ∀ v ∈ result, v = .undefined) :
    FirstReturnWins [] result ↔ ¬DropsReturn [] := by
  refine ⟨fun _ => List.not_mem_nil, fun _ => ⟨?_, fun _ => h⟩⟩
  intro later v earlier heq
  exact absurd heq.symm (by simp)

/-- Where work is begun after a `return`, the `return` has not won. -/
lemma WorkAfterReturn.not_firstReturnWins (h : marks.WorkAfterReturn) (result : Option Value) :
    ¬marks.FirstReturnWins result := by
  intro hwins
  obtain ⟨later, v, earlier, heq, mark, hmark, hwork⟩ := h
  exact (hwins.ends later v earlier heq).1 mark hmark hwork

/-- The first `return` of a body that is performed to its end wins unless one is dropped. -/
lemma Story.firstReturnWins_iff (h : marks.Story .undefined returning v) :
    marks.FirstReturnWins (some (if returning then v else .undefined)) ↔ ¬marks.DropsReturn := by
  rcases h with ⟨hdrops, hwork⟩ | ⟨hkept, hrest⟩
  · exact iff_of_false (hwork.not_firstReturnWins _) (not_not_intro hdrops)
  refine iff_of_true ?_ hkept
  cases returning with
  | false =>
    refine ⟨fun later z earlier heq => ?_, fun _ z hz => (Option.some.inj hz).symm⟩
    have hmem : Mark.returned z ∈ marks := by
      rw [heq]
      exact List.mem_append_right later List.mem_cons_self
    exact absurd hmem (hrest.1 z)
  | true =>
    obtain ⟨old, rfl, hold⟩ := hrest
    refine ⟨fun later z earlier heq => ?_, fun hnone => absurd List.mem_cons_self (hnone v)⟩
    cases later with
    | nil =>
      obtain ⟨hmark, -⟩ := List.cons.inj heq
      exact ⟨fun _ hmem => absurd hmem List.not_mem_nil, congrArg some (Mark.returned.inj hmark)⟩
    | cons mark rest =>
      have hmem : Mark.returned z ∈ old := by
        rw [(List.cons.inj heq).2]
        exact List.mem_append_right rest List.mem_cons_self
      exact absurd hmem (hold z)

/-- The first `return` of a body that is given up wins unless one is dropped. -/
lemma UnfinishedStory.firstReturnWins_iff (h : marks.UnfinishedStory) :
    marks.FirstReturnWins none ↔ ¬marks.DropsReturn := by
  rcases h with ⟨hdrops, hreturn⟩ | ⟨hkept, hnone⟩
  · refine iff_of_false (fun hwins => hreturn fun v hv => ?_) (not_not_intro hdrops)
    obtain ⟨later, earlier, heq⟩ := List.append_of_mem hv
    exact nomatch (hwins.ends later v earlier heq).2
  · refine iff_of_true ⟨fun later v earlier heq => ?_, fun _ _ hz => nomatch hz⟩ hkept
    refine absurd ?_ (hnone v)
    rw [heq]
    exact List.mem_append_right later List.mem_cons_self

/-- The marks of a part that fails are like those of one that is given up. -/
lemma FailedStory.unfinishedStory (h : marks.FailedStory) : marks.UnfinishedStory := by
  rcases h with ⟨hdrops, hwork⟩ | hkept
  · exact Or.inl ⟨hdrops, hwork.not_noReturn⟩
  · exact Or.inr hkept

end Marks

/-- What happens in an action, at `n` open activities, is that the first `return` wins unless one is
dropped. -/
def Outcome.Accounts (n : ℕ) (s : Traced) (o : Outcome Traced Value) : Prop :=
  ∃ new c, o.state.record = new ++ s.record ∧ History.Nested new c ∧ (o.Finished → c = []) ∧
    (Marks.FirstReturnWins (History.marksAt n new) o.value? ↔
      ¬Marks.DropsReturn (History.marksAt n new))

namespace Evaluator

variable {bound : ℕ}

/-- The first `return` of a body wins unless one is dropped. -/
lemma run_accounts (scope : Scope) (body : Stmt) (s : Traced) :
    ((within .traced bound).run scope body s).Accounts 0 s := by
  have htells : ((within .traced bound).perform scope body ⟨s, .undefined⟩).Tells ⟨s, .undefined⟩
      isReturn True := perform_tells scope body _
  unfold run
  cases hbody : (within .traced bound).perform scope body ⟨s, .undefined⟩ with
  | done signal a =>
    rw [hbody] at htells
    obtain ⟨marks, ⟨new, hrecord, hnested, rfl⟩, hstory, -⟩ := htells
    refine ⟨new, [], hrecord, hnested, fun _ => rfl, ?_⟩
    have hwins := hstory.firstReturnWins_iff
    cases signal <;> exact hwins
  | failed e a =>
    rw [hbody] at htells
    obtain ⟨marks, ⟨new, hrecord, hnested, rfl⟩, hstory, -⟩ := htells
    exact ⟨new, [], hrecord, hnested, fun _ => rfl, hstory.unfinishedStory.firstReturnWins_iff⟩
  | @diverged a =>
    rw [hbody] at htells
    obtain ⟨c, marks, ⟨new, hrecord, hnested, rfl⟩, hstory⟩ := htells
    exact ⟨new, c, hrecord, hnested, fun h => absurd h (Outcome.not_finished _),
      hstory.firstReturnWins_iff⟩

/-- A body that is missing returns nothing. -/
lemma runBody_accounts (scope : Scope) (body : Option Stmt) (s : Traced) :
    ((within .traced bound).runBody scope body s).Accounts 0 s := by
  cases body with
  | some body => exact run_accounts scope body s
  | none =>
    refine ⟨[], [], rfl, .nil, fun _ => rfl, Marks.firstReturnWins_nil fun v hv => ?_⟩
    exact (Option.some.inj hv).symm

end Evaluator

namespace Outcome.Accounts

variable {x : Action Traced Value} {n : ℕ} {s : Traced} {e : EvalError}

/-- The marks of an action are one level further in when it is run as an activity. -/
lemma during (h : ∀ s, (x s).Accounts 0 s) (a : Activity) (s : Traced) :
    (Machine.traced.during a x s).Accounts 1 s := by
  let first := s.log (.began a) (a.enter s.world)
  have hbegan : History.Nested [⟨.began a, a.enter s.world⟩] [a] := .began a _ .nil
  obtain ⟨new, c, hrecord, hnested, hclosed, hwins⟩ := h first
  have hmarks : History.marksAt 1 (new ++ [⟨.began a, a.enter s.world⟩]) =
      History.marksAt 0 new := by
    rw [show 1 = 0 + [a].length from rfl, hnested.marksAt_append hbegan 0]
    exact List.append_nil _
  have happend := hnested.append hbegan
  have hlist : new ++ first.record = (new ++ [⟨.began a, a.enter s.world⟩]) ++ s.record :=
    List.append_cons new _ s.record
  rw [hlist] at hrecord
  unfold Machine.during
  change ((x.ensuring (Machine.traced.leave a)) first).Accounts 1 s
  unfold Action.ensuring
  cases hx : x first with
  | done v t =>
    rw [hx] at hrecord hclosed hwins
    obtain rfl := hclosed (.done v t)
    refine ⟨⟨.ended a, a.leave t.world⟩ :: (new ++ [⟨.began a, a.enter s.world⟩]), [], ?_,
      .ended a _ happend, fun _ => rfl, ?_⟩
    · exact congrArg (List.cons _) hrecord
    · rwa [History.marksAt, hmarks]
  | failed e t =>
    rw [hx] at hrecord hclosed hwins
    obtain rfl := hclosed (.failed e t)
    refine ⟨⟨.ended a, a.leave t.world⟩ :: (new ++ [⟨.began a, a.enter s.world⟩]), [], ?_,
      .ended a _ happend, fun _ => rfl, ?_⟩
    · exact congrArg (List.cons _) hrecord
    · rwa [History.marksAt, hmarks]
  | @diverged t =>
    rw [hx] at hrecord hwins
    refine ⟨_, _, hrecord, happend, fun h => absurd h (Outcome.not_finished _), ?_⟩
    rwa [hmarks]

/-- Nothing returns before a command. -/
lemma command {α : Type} (k : Command α) {f : α → Action Traced Value}
    (h : ∀ y s, (f y s).Accounts n s) (s : Traced) :
    ((Machine.traced.exec k >>= f) s).Accounts n s := by
  have hexec : Machine.traced.exec k s = (k.run s.world).mapState (s.log .acted) := rfl
  rw [Action.bind_apply, hexec]
  cases k.run s.world with
  | done y w =>
    obtain ⟨new, c, hrecord, hnested, hclosed, hwins⟩ := h y (s.log .acted w)
    have hacted : History.Nested [⟨.acted, w⟩] [] := .acted w .nil
    have happend := hnested.append hacted
    have hmarks : History.marksAt n (new ++ [⟨.acted, w⟩]) = History.marksAt n new := by
      rw [show n = n + ([] : List Activity).length from rfl, hnested.marksAt_append hacted n]
      exact List.append_nil _
    rw [List.append_nil] at happend
    refine ⟨new ++ [⟨.acted, w⟩], c, ?_, happend, hclosed, ?_⟩
    · exact hrecord.trans (List.append_cons new _ s.record)
    · rwa [hmarks]
  | failed e w =>
    exact ⟨[⟨.acted, w⟩], [], rfl, .acted w .nil, fun _ => rfl,
      Marks.firstReturnWins_nil fun _ hv => nomatch hv⟩
  | @diverged w =>
    exact ⟨[⟨.acted, w⟩], [], rfl, .acted w .nil, fun _ => rfl,
      Marks.firstReturnWins_nil fun _ hv => nomatch hv⟩

/-- Nothing returns after the end of an action. -/
lemma acted {o o' : Outcome Traced Value} {w : World} (h : o.Accounts n s) (ho : o.Finished)
    (hrecord : o'.state.record = ⟨.acted, w⟩ :: o.state.record) (hvalue : o'.value? = o.value?) :
    o'.Accounts n s := by
  obtain ⟨new, c, hnew, hnested, hclosed, hwins⟩ := h
  obtain rfl := hclosed ho
  refine ⟨⟨.acted, w⟩ :: new, [], ?_, .acted w hnested, fun _ => rfl, ?_⟩
  · rw [hrecord, hnew, List.cons_append]
  · rwa [hvalue, History.marksAt]

end Outcome.Accounts

namespace Evaluator

variable {bound n : ℕ} {x : Action Traced Value}

/-- An entry of the host accounts for what it reports. -/
lemma reported_accounts (e : Id .engine) (h : ∀ s, (x s).Accounts n s) (s : Traced) :
    ((within .traced bound).reported e x s).Accounts n s := by
  have hs := h s
  unfold reported
  rw [Action.bind_apply]
  unfold Action.attempt
  cases hx : x s with
  | done v t =>
    rw [hx] at hs
    exact hs
  | failed error t =>
    rw [hx] at hs
    exact hs.acted (.failed error t) rfl rfl
  | @diverged t =>
    rw [hx] at hs
    exact hs

/-- A script accounts for what it returns. -/
lemma execute_accounts (e : Id .engine) (script : Stmt) (s : Traced) :
    ((within .traced bound).execute e script s).Accounts 1 s := by
  refine reported_accounts e (fun s => ?_) s
  exact Outcome.Accounts.during (fun s => run_accounts (.top e) script s) .script s

/-- An invocation of a function accounts for what it returns. -/
lemma invokeFunction_accounts (scope : Scope) (f : Id .function) (site : CallSiteId)
    (args : List Value) (s : Traced) :
    ((within .traced bound).invokeFunction scope f site args s).Accounts 1 s := by
  refine Outcome.Accounts.command _ (fun inner s => ?_) s
  refine Outcome.Accounts.command _ (fun body s => ?_) s
  have hrun : ∀ s, ((within .traced bound).runBody inner body s).Accounts 0 s :=
    fun s => runBody_accounts inner body s
  have hbody := Outcome.Accounts.during hrun (.function f site args) s
  change ((Machine.traced.during (.function f site args) ((within .traced bound).runBody inner body)
    >>= fun v => do
      Machine.traced.exec (.keepResult f v)
      return v) s).Accounts 1 s
  rw [Action.bind_apply]
  cases hx : Machine.traced.during (.function f site args)
    ((within .traced bound).runBody inner body) s with
  | done v t =>
    rw [hx] at hbody
    exact hbody.acted (.done v t) rfl rfl
  | failed error t =>
    rw [hx] at hbody
    exact hbody
  | @diverged t =>
    rw [hx] at hbody
    exact hbody

/-- An invocation of a callback accounts for what it returns. -/
lemma invokeCallback_accounts (scope : Scope) (c : Id .callback) (args : List Value) (s : Traced) :
    ((within .traced bound).invokeCallback scope c args s).Accounts 1 s := by
  refine Outcome.Accounts.command _ (fun inner s => ?_) s
  refine Outcome.Accounts.command _ (fun body s => ?_) s
  exact Outcome.Accounts.during (fun s => runBody_accounts inner body s) (.callback c args) s

end Evaluator

/-! ### When the first `return` wins -/

/-- In the world `w`, the evaluation `x` of the traced machine is the evaluation `z` of the engine,
and the first `return` of the body that it runs wins exactly if no `for` loop of that body drops
one. -/
structure World.ReturnsUnlessDropped (w : World) (x : Action Traced Value)
    (z : Action World Value) : Prop where
  traced : (x ⟨w, []⟩).mapState (·.world) = z w
  wins_iff : Marks.FirstReturnWins (History.marksAt 1 (x ⟨w, []⟩).state.record)
      (x ⟨w, []⟩).value? ↔
    ¬Marks.DropsReturn (History.marksAt 1 (x ⟨w, []⟩).state.record)

/-- What accounts for what it returns does so from the start. -/
lemma World.returnsUnlessDropped_of_accounts {w : World} {x : Action Traced Value}
    {z : Action World Value}
    (herase : Simulation.erasure.Matches [] Simulation.Anything x z)
    (h : (x ⟨w, []⟩).Accounts 1 ⟨w, []⟩) : w.ReturnsUnlessDropped x z where
  traced := herase.erases ⟨w, []⟩
  wins_iff := by
    obtain ⟨new, c, hrecord, -, -, hwins⟩ := h
    rwa [hrecord, List.append_nil]

/-- The first `return` of a script, of a function and of a callback ends its body and gives the
result, in every world and whatever the bound, exactly if no `for` loop of the body has dropped a
`return` of its first statement. -/
theorem first_return_wins_iff (bound : ℕ) (w : World) :
    (∀ e script, w.ReturnsUnlessDropped ((Evaluator.within .traced bound).execute e script)
      ((Evaluator.shared bound).execute e script)) ∧
    (∀ scope f site args, w.ReturnsUnlessDropped
      ((Evaluator.within .traced bound).invokeFunction scope f site args)
      ((Evaluator.shared bound).invokeFunction scope f site args)) ∧
    (∀ scope c args, w.ReturnsUnlessDropped
      ((Evaluator.within .traced bound).invokeCallback scope c args)
      ((Evaluator.shared bound).invokeCallback scope c args)) := by
  have herase := Evaluator.traced_simulates bound
  refine ⟨fun e script => ?_, fun scope f site args => ?_, fun scope c args => ?_⟩
  · refine World.returnsUnlessDropped_of_accounts ?_ (Evaluator.execute_accounts e script _)
    exact herase.execute [] e (script.everywhere_of_forall (fun _ => trivial) fun _ => trivial)
  · refine World.returnsUnlessDropped_of_accounts ?_
      (Evaluator.invokeFunction_accounts scope f site args _)
    exact herase.invokeFunction [] scope site trivial
  · refine World.returnsUnlessDropped_of_accounts ?_
      (Evaluator.invokeCallback_accounts scope c args _)
    exact herase.invokeCallback [] scope c args

/-! ### A `return` that is dropped -/

/-- The script `for (return true; false;) {} return false`. -/
def droppedReturn : Stmt :=
  .unlocated (.block [
    .unlocated (.forLoop (some (.unlocated (.returnValue (some (.unlocated (.literal (.bool true)))))))
      (some (.unlocated (.literal (.bool false)))) none (.unlocated (.block []))),
    .unlocated (.returnValue (some (.unlocated (.literal (.bool false)))))])

/-- The first statement of a `for` loop returns `true`, and yet the script goes on and returns
`false`. -/
theorem dropped_return_loses :
    let o := (Evaluator.within .traced 10).execute ⟨0⟩ droppedReturn ⟨World.empty, []⟩
    .returned (.bool true) ∈ History.marksAt 1 o.state.record ∧ o.value? = some (.bool false) ∧
      ¬Marks.FirstReturnWins (History.marksAt 1 o.state.record) o.value? := by
  intro o
  have hmark : (History.marksAt 1 o.state.record)[5]? = some (.returned (.bool true)) := by rfl
  have hreturned := List.mem_of_getElem? hmark
  have hvalue : o.value? = some (.bool false) := by rfl
  refine ⟨hreturned, hvalue, fun hwins => ?_⟩
  obtain ⟨later, earlier, heq⟩ := List.append_of_mem hreturned
  have hresult := (hwins.ends later (.bool true) earlier heq).2
  rw [hvalue] at hresult
  exact absurd hresult (by simp)

end ScriptEngine
