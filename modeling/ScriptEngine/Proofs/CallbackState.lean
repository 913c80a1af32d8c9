import ScriptEngine.Proofs.Refusals
import ScriptEngine.Proofs.Runs

/-!
# What callbacks hold

A callback has its arguments and its variables for itself, and it has them beyond the end of an
invocation.  Each invocation starts without variables and with arguments of its own, whether an
older one of the same callback is still running or not.

The journal of a run says which invocations have started and what was written to the variables of
callbacks.  An invocation starts when the callback was found, took that many arguments, and calls
were not nested too deeply.  At every moment, what a callback holds can be read off the journal: the
arguments are those of the invocation that started last, and a variable has the value that was
written to it last since then.

Main statement: `callbacks_follow_latest_invocation`.
-/

namespace ScriptEngine

open Pairing (Anything)

/-! ### Journals -/

/-- What is done to callbacks. -/
inductive Deed where
  /-- An invocation starts. -/
  | started (c : Id .callback) (args : List Value)
  /-- A variable is written. -/
  | wrote (c : Id .callback) (n : Name) (v : Value)
  /-- Anything else is done. -/
  | other

/-- A deed, and the world right after it. -/
structure JournalLine where
  deed : Deed
  world : World

/-- All that was done, newest first. -/
abbrev Journal := List JournalLine

/-- A world with its journal. -/
abbrev Journaled := Recorded Journal

namespace Journal

/-- The arguments of the invocation of `c` that started last; there are none if there was none. -/
def arguments (c : Id .callback) : Journal → List Value
  | [] => []
  | ⟨.started d args, _⟩ :: past => if d = c then args else arguments c past
  | ⟨.wrote _ _ _, _⟩ :: past | ⟨.other, _⟩ :: past => arguments c past

/-- What was written to the variable `n` of `c` last since its latest invocation started. -/
def written (c : Id .callback) (n : Name) : Journal → Value
  | [] => .undefined
  | ⟨.started d _, _⟩ :: past => if d = c then .undefined else Journal.written c n past
  | ⟨.wrote d k v, _⟩ :: past => if d = c ∧ k = n then v else Journal.written c n past
  | ⟨.other, _⟩ :: past => Journal.written c n past

/-- A claim holds of every line together with those before it. -/
def Always (p : JournalLine → Journal → Prop) (j : Journal) : Prop :=
  ∀ line past, line :: past <:+ j → p line (line :: past)

/-- Nothing was done yet. -/
lemma Always.nil (p : JournalLine → Journal → Prop) : Always p [] := by
  intro line past h
  have hlength := h.length_le
  simp at hlength

/-- One more line. -/
lemma Always.cons {p : JournalLine → Journal → Prop} {line : JournalLine} {past : Journal}
    (hpast : Always p past) (h : p line (line :: past)) : Always p (line :: past) := by
  intro l older hl
  rcases List.suffix_cons_iff.1 hl with heq | hsuffix
  · obtain ⟨rfl, rfl⟩ := List.cons.inj heq
    exact h
  · exact hpast l older hsuffix

end Journal

/-- The world after a deed, and the deed. -/
def Recorded.jot (s : Journaled) (deed : Deed) (w : World) : Journaled :=
  ⟨w, ⟨deed, w⟩ :: s.record⟩

/-- Act on the world, which does a deed unless it fails. -/
def Recorded.jotting {α : Type} (deed : Deed) (x : Action World α) : Action Journaled α := fun s =>
  match x s.world with
  | .done a w => .done a (s.jot deed w)
  | .failed e w => .failed e (s.jot .other w)
  | .unfinished w => .unfinished (s.jot .other w)

/-- The deed that a command does if it does not fail. -/
def Command.deed : {α : Type} → Command α → Deed
  | _, .set _ (.callbackLocal c n) v => .wrote c n v
  | _, _ => .other

/-- A command that does no deed leaves callbacks alone. -/
lemma Command.callbacks_run {α : Type} {k : Command α} (hk : k.deed = .other) (w : World) :
    (k.run w).state.callbacks = w.callbacks := by
  by_cases hquery : k.IsQuery
  · rw [Command.readsOnly_of_isQuery hquery]
  · cases k with
    | set scope target v =>
      rcases VarRef.state_set scope target v w with hstate | hstate
      · rw [run, hstate]
      · rw [run, hstate]
        cases target with
        | callbackLocal c n => cases hk
        | register | global | functionLocal | parameter | callbackParameter => rfl
    | keepResult | report | keepResolution | newArray | newObject | runCode | modifyMemory
    | allocate => rfl
    | _ => exact absurd trivial hquery

/-- The deed that begins an activity. -/
def Activity.deed (w : World) : Activity → Deed
  | .callback c args => if (w.callback? c).isSome then .started c args else .other
  | .script | .function _ _ _ => .other

/-- The engine, which keeps a journal. -/
def Machine.journaled : Machine Journaled where
  exec k := Recorded.jotting k.deed k.run
  enter a s := s.jot (a.deed s.world) (a.enter s.world)
  leave a s := s.jot .other (a.leave s.world)
  argument? f i s := (shared.argument? f i s.world).mapState (s.jot .other)
  note _ s := s.jot .other s.world

/-- Change the world otherwise. -/
def Journaled.rearrange (f : World → World) (s : Journaled) : Journaled :=
  s.jot .other (f s.world)

/-- The journal is all that the machine has beside the engine. -/
lemma Machine.journaled_records : Machine.journaled.Records where
  exec k s := by
    change (Recorded.jotting k.deed k.run s).mapState _ = _
    unfold Recorded.jotting
    cases k.run s.world <;> rfl
  enter _ _ := rfl
  leave _ _ := rfl
  argument _ _ _ := rfl
  note _ _ := rfl

/-! ### Callbacks and their journal -/

/-- The callback holds what the journal says. -/
structure CallbackInstance.Follows (x : CallbackInstance) (c : Id .callback) (j : Journal) :
    Prop where
  /-- There is a slot for each parameter. -/
  slots : x.arguments.length = x.parameterCount
  arguments : ∀ i : ℕ, x.arguments[i]?.getD Value.undefined = (j.arguments c)[i]?.getD .undefined
  locals : ∀ n, x.locals.read n = j.written c n

namespace CallbackInstance.Follows

variable {x : CallbackInstance} {c : Id .callback} {j j' : Journal}

/-- What is no deed of the callback makes no difference. -/
lemma of_same (h : x.Follows c j) (harguments : j'.arguments c = j.arguments c)
    (hvariables : ∀ n, j'.written c n = j.written c n) : x.Follows c j' where
  slots := h.slots
  arguments i := by rw [h.arguments, harguments]
  locals n := by rw [h.locals, hvariables]

/-- What the callback is beside what it holds makes no difference. -/
lemma of_holdsLike (h : x.Follows c j) {x' : CallbackInstance} (hlike : x'.HoldsLike x) :
    x'.Follows c j where
  slots := by
    rw [hlike.arguments, h.slots, parameterCount, parameterCount, hlike.parameters]
  arguments := by
    rw [hlike.arguments]
    exact h.arguments
  locals := by
    rw [hlike.locals]
    exact h.locals

/-- A callback that was never invoked or written follows a journal that does not mention it. -/
lemma of_isFresh (h : x.IsFresh) (harguments : j.arguments c = [])
    (hvariables : ∀ n, j.written c n = .undefined) : x.Follows c j where
  slots := by rw [h.arguments, List.length_replicate]
  arguments i := by
    rw [h.arguments, harguments, List.getElem?_replicate]
    split <;> rfl
  locals n := by rw [h.locals, hvariables]

/-- An invocation starts with its own arguments, and without variables. -/
lemma enter (h : x.Follows c j) {args : List Value} (hargs : x.parameterCount = args.length)
    (w : World) : (x.enter args).Follows c (⟨.started c args, w⟩ :: j) := by
  have harguments : (x.enter args).arguments = args := by
    have hlength : x.arguments.length = args.length := h.slots.trans hargs
    simp [CallbackInstance.enter, hlength]
  refine ⟨?_, fun i => ?_, fun n => ?_⟩
  · rw [harguments]
    exact hargs.symm
  · rw [harguments, Journal.arguments, if_pos rfl]
  · rw [Journal.written, if_pos rfl]
    rfl

/-- A variable is written. -/
lemma write (h : x.Follows c j) (n : Name) (v : Value) (w : World) :
    CallbackInstance.Follows { x with locals := x.locals.insert n v } c
      (⟨.wrote c n v, w⟩ :: j) where
  slots := h.slots
  arguments := h.arguments
  locals k := by
    change ((x.locals.insert n v).get? k).getD .undefined = _
    rw [NameMap.get?_insert, Journal.written]
    by_cases hkn : k = n
    · rw [if_pos hkn, if_pos ⟨rfl, hkn.symm⟩]
      rfl
    · rw [if_neg hkn, if_neg fun h => hkn h.2.symm]
      exact h.locals k

end CallbackInstance.Follows

namespace World

/-- No callback was invoked or written yet. -/
def CallbacksFresh (w : World) : Prop :=
  ∀ c x, w.callback? c = some x → x.IsFresh

/-- All callbacks hold what the journal says. -/
def CallbacksFollow (w : World) (j : Journal) : Prop :=
  ∀ c x, w.callback? c = some x → x.Follows c j

variable {w w' : World} {j : Journal}

/-- Worlds with the same callbacks do not differ here. -/
lemma CallbacksFollow.of_same (h : w.CallbacksFollow j) (hsame : w'.callbacks = w.callbacks)
    (v : World) : w'.CallbacksFollow (⟨.other, v⟩ :: j) := by
  intro c x hx
  rw [callback?, hsame] at hx
  exact (h c x hx).of_same rfl fun _ => rfl

end World

/-! ### The invariant of a run -/

/-- A claim about a moment of a run: each callback there is holds what the journal says, and an
invocation of it that starts passes an argument for each parameter. -/
def JournalLine.IsFollowed (line : JournalLine) (j : Journal) : Prop :=
  line.world.CallbacksFollow j ∧
    ∀ c args x, line.deed = .started c args → line.world.callback? c = some x →
      x.parameterCount = args.length

/-- Callbacks hold what the journal says, now and at each moment so far. -/
structure Journaled.Follow (s : Journaled) : Prop where
  now : s.world.CallbacksFollow s.record
  /-- The journal does not mention callbacks that were never there. -/
  unborn : ∀ c : Id .callback, s.world.callbacks.size ≤ c.index →
    s.record.arguments c = [] ∧ ∀ n, s.record.written c n = .undefined
  always : s.record.Always JournalLine.IsFollowed

/-- The correspondence within one turn, which begins in a world with the same callbacks. -/
structure Journaled.FollowWithin (w₀ : World) (s : Journaled) : Prop
    extends Journaled.Follow s where
  code : s.world.code = w₀.code

/-- A callback takes that many arguments, if it is there. -/
def World.Accepts (w : World) (c : Id .callback) (count : ℕ) : Prop :=
  ∀ x, w.callback? c = some x → x.parameterCount = count

namespace Journaled.Follow

variable {w : World} {s : Journaled}

/-- What is no deed of a callback, and leaves callbacks alone, keeps the correspondence. -/
lemma other (h : s.Follow) (hsame : w.callbacks = s.world.callbacks) : (s.jot .other w).Follow := by
  have hnow : w.CallbacksFollow (⟨.other, w⟩ :: s.record) := h.now.of_same hsame w
  refine ⟨hnow, fun c hc => h.unborn c ?_, h.always.cons ⟨hnow, ?_⟩⟩
  · rwa [← hsame]
  · exact fun c args x hdeed => nomatch hdeed

/-- A variable of a callback is written. -/
lemma write (h : s.Follow) {c : Id .callback} (hc : (s.world.callback? c).isSome) (n : Name)
    (v : Value) : (s.jot (.wrote c n v) (s.world.setCallbackLocal c n v)).Follow := by
  let w := s.world.setCallbackLocal c n v
  have hnow : w.CallbacksFollow (⟨.wrote c n v, w⟩ :: s.record) := by
    intro d x hx
    rcases World.callback?_modifyCallback_cases hx with ⟨rfl, y, hy, rfl⟩ | ⟨hcd, hx⟩
    · exact (h.now c y hy).write n v w
    · refine (h.now d x hx).of_same rfl fun k => ?_
      rw [Journal.written, if_neg fun hboth => hcd hboth.1]
  refine ⟨hnow, fun d hd => ?_, h.always.cons ⟨hnow, fun d args x hdeed => nomatch hdeed⟩⟩
  have hsize : w.callbacks.size = s.world.callbacks.size := Pool.size_update _ _ _
  obtain ⟨y, hy⟩ := Option.isSome_iff_exists.1 hc
  have hcd : c ≠ d := by
    rintro rfl
    exact absurd (Pool.index_lt_of_get? hy) (Nat.not_lt.2 (hsize ▸ hd))
  obtain ⟨harguments, hvariables⟩ := h.unborn d (hsize ▸ hd)
  refine ⟨harguments, fun k => ?_⟩
  change Journal.written d k (⟨.wrote c n v, w⟩ :: s.record) = _
  rw [Journal.written, if_neg fun hboth => hcd hboth.1, hvariables]

/-- An invocation of a callback starts. -/
lemma start (h : s.Follow) {c : Id .callback} (hc : (s.world.callback? c).isSome)
    {args : List Value} (hargs : s.world.Accepts c args.length) :
    (s.jot (.started c args) (s.world.modifyCallback c (·.enter args))).Follow := by
  let w := s.world.modifyCallback c (·.enter args)
  have hnow : w.CallbacksFollow (⟨.started c args, w⟩ :: s.record) := by
    intro d x hx
    rcases World.callback?_modifyCallback_cases hx with ⟨rfl, y, hy, rfl⟩ | ⟨hcd, hx⟩
    · exact (h.now c y hy).enter (hargs y hy) w
    · refine (h.now d x hx).of_same ?_ fun k => ?_
      · rw [Journal.arguments, if_neg hcd]
      · rw [Journal.written, if_neg hcd]
  refine ⟨hnow, fun d hd => ?_, h.always.cons ⟨hnow, fun d args' x hdeed hx => ?_⟩⟩
  · have hsize : w.callbacks.size = s.world.callbacks.size := Pool.size_update _ _ _
    obtain ⟨y, hy⟩ := Option.isSome_iff_exists.1 hc
    have hcd : c ≠ d := by
      rintro rfl
      exact absurd (Pool.index_lt_of_get? hy) (Nat.not_lt.2 (hsize ▸ hd))
    obtain ⟨harguments, hvariables⟩ := h.unborn d (hsize ▸ hd)
    refine ⟨?_, fun k => ?_⟩
    · change Journal.arguments d (⟨.started c args, w⟩ :: s.record) = _
      rw [Journal.arguments, if_neg hcd, harguments]
    · change Journal.written d k (⟨.started c args, w⟩ :: s.record) = _
      rw [Journal.written, if_neg hcd, hvariables]
  · obtain ⟨rfl, rfl⟩ := Deed.started.inj hdeed
    rcases World.callback?_modifyCallback_cases hx with ⟨-, y, hy, rfl⟩ | ⟨hcc, -⟩
    · exact hargs y hy
    · exact absurd rfl hcc

/-- An arrangement is no deed of a callback. -/
lemma rearrange (h : s.Follow) (hw : s.world.Rearranges w) : (s.jot .other w).Follow := by
  have hnow : w.CallbacksFollow (⟨.other, w⟩ :: s.record) := by
    intro c x' hx'
    rcases hw.callback hx' with ⟨x, hx, hlike⟩ | ⟨hnew, hfresh⟩
    · exact ((h.now c x hx).of_holdsLike hlike).of_same rfl fun _ => rfl
    · obtain ⟨harguments, hvariables⟩ := h.unborn c hnew
      exact .of_isFresh hfresh harguments hvariables
  exact ⟨hnow, fun c hc => h.unborn c (Nat.le_trans hw.callbacks hc),
    h.always.cons ⟨hnow, fun c args x hdeed => nomatch hdeed⟩⟩

end Journaled.Follow

namespace Journaled.FollowWithin

variable {w₀ : World} {s : Journaled}

/-- A change that is no deed of a callback. -/
lemma change (h : FollowWithin w₀ s) {w : World} (hw : s.world.Change w)
    (hsame : w.callbacks = s.world.callbacks) : FollowWithin w₀ (s.jot .other w) :=
  ⟨h.toFollow.other hsame, hw.code_eq.trans h.code⟩

/-- What only reads is no deed of a callback. -/
lemma read (h : FollowWithin w₀ s) : FollowWithin w₀ (s.jot .other s.world) :=
  h.change .nothing rfl

/-- An action that is no deed of a callback, and leaves callbacks alone. -/
lemma jotting (h : FollowWithin w₀ s) {α : Type} {x : Action World α}
    (hchange : s.world.Change (x s.world).state)
    (hsame : (x s.world).state.callbacks = s.world.callbacks) :
    FollowWithin w₀ (Recorded.jotting .other x s).state := by
  have hother := h.change hchange hsame
  unfold Recorded.jotting
  cases hx : x s.world <;> rw [hx] at hother <;> exact hother

/-- Writing a variable of a callback keeps the correspondence. -/
lemma setCallbackLocal (h : FollowWithin w₀ s) (scope : Scope) (c : Id .callback) (n : Name)
    (v : Value) :
    FollowWithin w₀ (Machine.journaled.exec (.set scope (.callbackLocal c n) v) s).state := by
  change FollowWithin w₀ (Recorded.jotting (.wrote c n v) ((VarRef.callbackLocal c n).set scope v)
    s).state
  cases hc : s.world.callback? c with
  | none =>
    have hset : (VarRef.callbackLocal c n).set scope v s.world =
        .failed ((VarRef.callbackLocal c n).danglingError s.world scope.engine) s.world := by
      simp [VarRef.set, Action.bind_apply, Action.state, Action.fail, hc]
    rw [Recorded.jotting, hset]
    exact h.read
  | some x =>
    have hset : (VarRef.callbackLocal c n).set scope v s.world =
        .done () (s.world.setCallbackLocal c n v) := by
      simp [VarRef.set, Action.bind_apply, Action.state, Action.change, hc]
    have hisSome : (s.world.callback? c).isSome := by rw [hc, Option.isSome_some]
    rw [Recorded.jotting, hset]
    exact ⟨h.toFollow.write hisSome n v, (World.Change.callbackLocal c n v).code_eq.trans h.code⟩

/-- Each command keeps the correspondence. -/
lemma exec (h : FollowWithin w₀ s) {α : Type} (k : Command α) :
    FollowWithin w₀ (Machine.journaled.exec k s).state := by
  by_cases hdeed : k.deed = .other
  · change FollowWithin w₀ (Recorded.jotting k.deed k.run s).state
    rw [hdeed]
    exact h.jotting (k.change s.world) (Command.callbacks_run hdeed s.world)
  · cases k with
    | set scope target v =>
      cases target with
      | callbackLocal c n => exact h.setCallbackLocal scope c n v
      | _ => exact absurd rfl hdeed
    | _ => exact absurd rfl hdeed

/-- Each beginning of an activity keeps the correspondence, if a callback takes the arguments. -/
lemma enter (h : FollowWithin w₀ s) (a : Activity)
    (ha : ∀ c args, a = .callback c args → w₀.Accepts c args.length) :
    FollowWithin w₀ (Machine.journaled.enter a s) := by
  have hcode := (a.code_enter s.world).trans h.code
  cases a with
  | script | function f site args => exact ⟨h.toFollow.other rfl, hcode⟩
  | callback c args =>
    refine ⟨?_, hcode⟩
    change (s.jot ((Activity.callback c args).deed s.world) _).Follow
    cases hc : s.world.callback? c with
    | none =>
      have hdeed : (Activity.callback c args).deed s.world = .other := by
        simp [Activity.deed, hc]
      rw [hdeed]
      refine h.toFollow.rearrange ⟨fun {d x} hx => ?_, ?_, fun _ => rfl⟩
      · rcases World.callback?_modifyCallback_cases hx with ⟨rfl, y, hy, -⟩ | ⟨-, hx⟩
        · exact nomatch hc.symm.trans hy
        · exact .inl ⟨x, hx, rfl, rfl, rfl⟩
      · exact Nat.le_of_eq (Pool.size_update _ _ _).symm
    | some x =>
      have hisSome : (s.world.callback? c).isSome := by rw [hc, Option.isSome_some]
      have hdeed : (Activity.callback c args).deed s.world = .started c args := if_pos hisSome
      rw [hdeed]
      refine h.toFollow.start hisSome fun y hy => ?_
      obtain ⟨y₀, hy₀, hsame⟩ := World.exists_callback_of_code_eq h.code hy
      have hparameters : y₀.parameters = y.parameters := by
        have hcode := congrArg CallbackInstance.parameters hsame
        exact hcode
      rw [CallbackInstance.parameterCount, ← hparameters]
      exact ha c args rfl y₀ hy₀

/-- Each end of an activity keeps the correspondence. -/
lemma leave (h : FollowWithin w₀ s) (a : Activity) :
    FollowWithin w₀ (Machine.journaled.leave a s) := by
  have hcode := (a.code_leave s.world).trans h.code
  cases a with
  | script | function f site args | callback c args => exact ⟨h.toFollow.other rfl, hcode⟩

/-- A callback that is found by its name takes that many arguments. -/
lemma findCallback (h : FollowWithin w₀ s) (e : Id .engine) (name : String) (count : ℕ)
    {c : Id .callback}
    (hc : c ∈ (Machine.journaled.exec (.findCallback e name count) s).value?) :
    w₀.Accepts c count := by
  intro x₀ hx₀
  obtain ⟨x, hx, hcode⟩ := World.exists_callback_of_code_eq h.code.symm hx₀
  have hparameters : x.parameters = x₀.parameters := by
    have hsame := congrArg CallbackInstance.parameters hcode
    exact hsame
  have hfound : c ∈ (Recorded.jotting .other (Command.findCallback e name count).run s).value? := hc
  rw [CallbackInstance.parameterCount, ← hparameters]
  rcases Command.run_findCallback s.world e name count with
    ⟨-, hrun⟩ | ⟨d, -, ⟨-, hrun⟩ | ⟨hcount, hrun⟩⟩
  · rw [Recorded.jotting, hrun] at hfound
    cases hfound
  · rw [Recorded.jotting, hrun] at hfound
    cases hfound
  · rw [Recorded.jotting, hrun] at hfound
    obtain rfl := Option.some.inj hfound
    rw [hx, Option.getD_some] at hcount
    exact hcount

/-- Each single step keeps the correspondence. -/
lemma upkeep (w₀ : World) : Machine.journaled.Upkeep w₀.Accepts (FollowWithin w₀) :=
  .of_steps (fun k _ hs => hs.exec k)
    (fun e name count _ hs _ hc => hs.findCallback e name count hc)
    (fun _ _ _ hs => hs.read) (fun _ _ hs => hs.read) (fun a ha _ hs => hs.enter a ha)
    fun a _ hs => hs.leave a

end Journaled.FollowWithin

namespace Journaled.Follow

/-- Before the first turn, no callback holds anything. -/
lemma start_of_fresh {w : World} (h : w.CallbacksFresh) : Journaled.Follow ⟨w, []⟩ where
  now c x hx := .of_isFresh (h c x hx) rfl fun _ => rfl
  unborn _ _ := ⟨rfl, fun _ => rfl⟩
  always := .nil _

/-- Each turn keeps the correspondence. -/
lemma take (bound : ℕ) (turn : Turn) :
    ((Evaluator.within .journaled bound).take Journaled.rearrange turn).KeepsUp Journaled.Follow
      Anything := by
  intro s hs
  have hwithin : FollowWithin s.world s := ⟨hs, rfl⟩
  have hturn : (∀ a, turn ≠ .arrange a) →
      ((Evaluator.within .journaled bound).take Journaled.rearrange turn s).state.Follow := by
    intro hturn
    have hkeeps := (FollowWithin.upkeep s.world).take bound Journaled.rearrange
      fun a ha => absurd ha (hturn a)
    exact (hkeeps s hwithin).1.toFollow
  refine ⟨?_, fun _ _ => trivial⟩
  cases turn with
  | arrange a => exact hs.rearrange (a.rearranges s.world)
  | enter | evaluate | write => exact hturn fun a ha => nomatch ha

end Journaled.Follow

/-! ### Reads -/

/-- A parameter of a callback is the argument of the invocation that started last. -/
lemma CallbackInstance.Follows.get_parameter {w : World} {c : Id .callback} {x : CallbackInstance}
    {j : Journal} (h : x.Follows c j) (hx : w.callback? c = some x) (scope : Scope) (i : ℕ)
    (n : Name) :
    VarRef.get scope (.callbackParameter c i n) w =
      .done ((j.arguments c)[i]?.getD .undefined) w := by
  have hget : VarRef.get scope (.callbackParameter c i n) w =
      .done (x.arguments[i]?.getD .undefined) w := by
    simp [VarRef.get, Action.bind_apply, Action.state, hx]
  rw [hget, h.arguments]

/-- A variable of a callback has the value that was written to it last since then. -/
lemma CallbackInstance.Follows.get_local {w : World} {c : Id .callback} {x : CallbackInstance}
    {j : Journal} (h : x.Follows c j) (hx : w.callback? c = some x) (scope : Scope) (n : Name) :
    VarRef.get scope (.callbackLocal c n) w = .done (j.written c n) w := by
  have hget : VarRef.get scope (.callbackLocal c n) w = .done (x.locals.read n) w := by
    simp [VarRef.get, Action.bind_apply, Action.state, hx]
  rw [hget, h.locals]

/-- What a callback holds follows the journal of every run.  At each moment, and whatever the scope
is, its parameters are the arguments of the invocation of it that started last, of which there is
one for each parameter, and its variables have the values that were written to them last since then.
The journal makes no difference to the engine. -/
theorem callbacks_follow_latest_invocation (bound : ℕ) (turns : List Turn) {w : World}
    (hfresh : w.CallbacksFresh) :
    let o := (Evaluator.within .journaled bound).takeAll Journaled.rearrange turns ⟨w, []⟩
    o.mapState (·.world) = (Evaluator.shared bound).takeAll id turns w ∧
    o.state.record.Always fun line past => ∀ c x, line.world.callback? c = some x →
      (∀ args, line.deed = .started c args → x.parameterCount = args.length) ∧
      ∀ scope,
        (∀ i n, VarRef.get scope (.callbackParameter c i n) line.world =
          .done ((Journal.arguments c past)[i]?.getD .undefined) line.world) ∧
        ∀ n, VarRef.get scope (.callbackLocal c n) line.world =
          .done (Journal.written c n past) line.world := by
  intro o
  have hkeeps := Evaluator.takeAll_keepsUp (Journaled.Follow.take bound) turns
  have hfollow : o.state.Follow := (hkeeps _ (Journaled.Follow.start_of_fresh hfresh)).1
  refine ⟨Machine.journaled_records.takeAll (fun _ _ => rfl) bound turns _, ?_⟩
  intro line past hline c x hx
  obtain ⟨hnow, hstarts⟩ := hfollow.always line past hline
  have hfollows := hnow c x hx
  refine ⟨fun args hdeed => hstarts c args x hdeed hx, fun scope => ⟨fun i n => ?_, fun n => ?_⟩⟩
  · exact hfollows.get_parameter hx scope i n
  · exact hfollows.get_local hx scope n

/-! ### A callback that is invoked while it runs -/

namespace Reentering

/-- The callback, which is the first one of its world. -/
def callback : Id .callback := ⟨0⟩

/-- The parameter `x` of the callback. -/
def parameter : Expr := .unlocated (.var (.callbackParameter callback 0 .empty))

/-- The variable `y` of the callback. -/
def stored : VarRef := .callbackLocal callback .empty

/-- A class with one function, which invokes the callback with `false`. -/
def host : Host.ApiClass :=
  (Host.ApiClass.named "Host").addFunction ⟨1⟩ 0 fun _ => .invokeCallback "c" [.bool false] .finish

/-- A call of the function. -/
def again : Expr := .unlocated (.apiCall ⟨⟨0⟩, "Host"⟩ ⟨1⟩ ⟨0, 0⟩ [])

/-- The body `y = x; return x ? again() : y`. -/
def body : Stmt :=
  .unlocated (.block [.ofExpr (.unlocated (.assign stored none parameter)),
    .unlocated (.returnValue (some (.unlocated (.conditional parameter again
      (.unlocated (.var stored))))))])

/-- One engine, which has the callback under its name. -/
def world : World :=
  { World.empty with
    memory := { Memory.empty with interners := (Pool.empty.add ⟨#["", "c"], by decide⟩).2 }
    natives := (Pool.empty.add host).2
    callbacks := (Pool.empty.add
      { CallbackInstance.define ⟨1⟩ "c" [.empty] with body := some body }).2
    engines := (Pool.empty.add
      { (default : Engine) with maxCallDepth := 1, callbacks := NameMap.insert ∅ ⟨1⟩ callback }).2 }

/-- The host invokes the callback with `true`. -/
def turns : List Turn := [.enter ⟨0⟩ (.invoke "c" [.bool true])]

/-- The callback has not been invoked yet. -/
lemma callbacksFresh : world.CallbacksFresh := by
  intro c x hx
  obtain rfl := Pool.eq_of_get?_add_empty hx
  exact ⟨rfl, fun _ => rfl⟩

end Reentering

/-- A callback that was invoked while it ran holds the arguments and the variables of the inner
invocation afterwards. -/
theorem reentered_callback_holds_inner_arguments :
    Reentering.world.CallbacksFresh ∧
    let o := (Evaluator.within .journaled 10).takeAll Journaled.rearrange Reentering.turns
      ⟨Reentering.world, []⟩
    o.Finished ∧ ∃ line past, o.state.record = line :: past ∧ ∀ scope,
      VarRef.get scope (.callbackParameter Reentering.callback 0 .empty) line.world =
        .done (.bool false) line.world ∧
      VarRef.get scope Reentering.stored line.world = .done (.bool false) line.world := by
  refine ⟨Reentering.callbacksFresh, ?_⟩
  intro o
  obtain ⟨-, hfollow⟩ :=
    callbacks_follow_latest_invocation 10 Reentering.turns Reentering.callbacksFresh
  have hfinished : o.Finished := by decide +kernel
  have hcons : o.state.record ≠ [] := by
    have hlength : o.state.record.length ≠ 0 := by decide +kernel
    exact fun hnil => hlength (congrArg List.length hnil)
  obtain ⟨line, past, hrecord⟩ := List.exists_cons_of_ne_nil hcons
  have hsome : (o.state.record.head?.bind (·.world.callback? Reentering.callback)).isSome := by
    decide +kernel
  have harguments : Journal.arguments Reentering.callback o.state.record = [.bool false] := by
    decide +kernel
  have hwritten : Journal.written Reentering.callback .empty o.state.record = .bool false := by
    decide +kernel
  rw [hrecord] at hsome harguments hwritten
  obtain ⟨x, hx⟩ := Option.isSome_iff_exists.1 hsome
  have hsuffix : line :: past <:+ o.state.record := hrecord ▸ List.suffix_rfl
  obtain ⟨-, hreads⟩ := hfollow line past hsuffix Reentering.callback x hx
  refine ⟨hfinished, line, past, hrecord, fun scope => ⟨?_, ?_⟩⟩
  · rw [(hreads scope).1 0 .empty, harguments]
    rfl
  · exact hwritten ▸ (hreads scope).2 .empty

end ScriptEngine
