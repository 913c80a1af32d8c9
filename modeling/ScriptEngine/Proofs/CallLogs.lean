import ScriptEngine.Proofs.Frames
import ScriptEngine.Proofs.Runs

/-!
# Where invocations come from

A function is invoked by a call in a script, or by its name: by the host, or by a host function that
enters the engine again.  The call frame tells the call site of the invocation that began last, and
nothing else about it.

The log of a run also says which functions were found by their names.  An invocation comes from the
host if its function was found by its name, and nothing was done in between but what an invocation
begins with: the nesting of calls is checked, and the body is looked up.  What the log says does not
depend on call sites.

At each moment of a run that starts in an idle world, the frame of a function counts the invocations
of it that run, and as long as there is one, the active call is the call site of the invocation that
began last (`Attributed.Follow.upkeep`).  The log makes no difference to the engine.
-/

namespace ScriptEngine

open Pairing (Anything)

/-! ### Logs -/

/-- Where an invocation of a function comes from. -/
inductive Caller where
  /-- The function is called by its name. -/
  | host
  /-- The function is called in a script. -/
  | script
deriving DecidableEq

/-- What is done, as far as invocations are concerned. -/
inductive CallEvent where
  /-- A function is found by its name, and takes as many arguments as are passed. -/
  | found (f : Id .function)
  /-- On the way to an invocation, the nesting of calls is checked or the body is looked up. -/
  | approached
  | began (a : Activity)
  | ended (a : Activity)
  /-- Anything else is done. -/
  | other

/-- An activity begins or ends. -/
def CallEvent.IsBoundary : CallEvent → Prop
  | .began _ | .ended _ => True
  | .found _ | .approached | .other => False

/-- A function is found by its name. -/
def CallEvent.IsFinding : CallEvent → Prop
  | .found _ => True
  | .approached | .began _ | .ended _ | .other => False

/-- The call site and the arguments of the invocation of `f` that begins, if one does. -/
def CallEvent.invocation? (f : Id .function) : CallEvent → Option (CallSiteId × List Value)
  | .began a => a.invocation? f
  | .found _ | .approached | .ended _ | .other => none

/-- What was done, and the world right after it. -/
structure CallLine where
  event : CallEvent
  world : World

/-- All that was done, newest first. -/
abbrev CallLog := List CallLine

/-- A world with its log. -/
abbrev Attributed := Recorded CallLog

namespace CallLog

/-- Where an invocation of `f` comes from that begins now. -/
def caller (f : Id .function) : CallLog → Caller
  | ⟨.found g, _⟩ :: _ => if g = f then .host else .script
  | ⟨.approached, _⟩ :: past => caller f past
  | _ => .script

/-- How many invocations of `f` are running. -/
def running (f : Id .function) : CallLog → ℕ
  | [] => 0
  | ⟨.began a, _⟩ :: past => running f past + if (a.invocation? f).isSome then 1 else 0
  | ⟨.ended a, _⟩ :: past => running f past - if (a.invocation? f).isSome then 1 else 0
  | ⟨.found _, _⟩ :: past | ⟨.approached, _⟩ :: past | ⟨.other, _⟩ :: past => running f past

/-- The call site of the invocation of `f` that began last, and where that one comes from. -/
def latest? (f : Id .function) : CallLog → Option (CallSiteId × Caller)
  | [] => none
  | ⟨.began a, _⟩ :: past =>
    match a.invocation? f with
    | some (site, _) => some (site, caller f past)
    | none => latest? f past
  | ⟨.ended _, _⟩ :: past | ⟨.found _, _⟩ :: past | ⟨.approached, _⟩ :: past
  | ⟨.other, _⟩ :: past => latest? f past

/-- A claim holds of every line and of those before it. -/
def Always (p : CallLine → CallLog → Prop) (log : CallLog) : Prop :=
  ∀ line past, line :: past <:+ log → p line past

/-- Nothing was done yet. -/
lemma Always.nil (p : CallLine → CallLog → Prop) : Always p [] := by
  intro line past h
  exact absurd (List.suffix_nil.1 h) (List.cons_ne_nil line past)

/-- One more line. -/
lemma Always.cons {p : CallLine → CallLog → Prop} {line : CallLine} {past : CallLog}
    (hpast : Always p past) (h : p line past) : Always p (line :: past) := by
  intro l older hl
  rcases List.suffix_cons_iff.1 hl with heq | hsuffix
  · obtain ⟨rfl, rfl⟩ := List.cons.inj heq
    exact h
  · exact hpast l older hsuffix

end CallLog

/-- What a command that ends with a value is for the log. -/
def Command.callEvent : {α : Type} → Command α → α → CallEvent
  | _, .findFunction _ _ _, (f, _) => .found f
  | _, .deeper _, _ | _, .functionBody _, _ => .approached
  | _, _, _ => .other

/-- Commands neither begin nor end an activity. -/
lemma Command.not_isBoundary_callEvent {α : Type} (k : Command α) (a : α) :
    ¬(k.callEvent a).IsBoundary := by
  cases k <;> exact id

/-- The command finds a function by its name. -/
def Command.FindsFunction {α : Type} : Command α → Prop
  | .findFunction .. => True
  | _ => False

/-- Other commands find no function. -/
lemma Command.not_isFinding_callEvent {α : Type} {k : Command α} (hk : ¬k.FindsFunction) (a : α) :
    ¬(k.callEvent a).IsFinding := by
  cases k with
  | findFunction e name count => exact absurd trivial hk
  | _ => exact id

/-- Something is done, and the world is `w` afterwards. -/
def Recorded.enlog (s : Attributed) (event : CallEvent) (w : World) : Attributed :=
  ⟨w, ⟨event, w⟩ :: s.record⟩

/-- The engine, which keeps a log. -/
def Machine.attributed : Machine Attributed where
  exec k s :=
    match k.run s.world with
    | .done a w => .done a (s.enlog (k.callEvent a) w)
    | .failed e w => .failed e (s.enlog .other w)
    | .unfinished w => .unfinished (s.enlog .other w)
  enter a s := s.enlog (.began a) (a.enter s.world)
  leave a s := s.enlog (.ended a) (a.leave s.world)
  argument? f i s := (shared.argument? f i s.world).mapState (s.enlog .other)
  note _ s := s.enlog .other s.world

/-- Change the world otherwise. -/
def Attributed.rearrange (f : World → World) (s : Attributed) : Attributed :=
  s.enlog .other (f s.world)

/-- The log is all that the machine has beside the engine. -/
lemma Machine.attributed_records : Machine.attributed.Records where
  exec k s := by
    change (Machine.attributed.exec k s).mapState _ = _
    simp only [Machine.attributed]
    cases k.run s.world <;> rfl
  enter _ _ := rfl
  leave _ _ := rfl
  argument _ _ _ := rfl
  note _ _ := rfl

/-- A command that ends with a value writes its own event, and changes the world as commands do. -/
lemma Machine.attributed_exec_cases {α : Type} (k : Command α) (s : Attributed) :
    ∃ w, s.world.Change w ∧
      ((∃ a, k.run s.world = .done a w ∧
          Machine.attributed.exec k s = .done a (s.enlog (k.callEvent a) w)) ∨
        (∃ e, Machine.attributed.exec k s = .failed e (s.enlog .other w)) ∨
        Machine.attributed.exec k s = .unfinished (s.enlog .other w)) := by
  refine ⟨(k.run s.world).state, k.change s.world, ?_⟩
  simp only [Machine.attributed]
  cases k.run s.world with
  | done a w => exact .inl ⟨a, rfl, rfl⟩
  | failed e w => exact .inr (.inl ⟨e, rfl⟩)
  | @diverged w => exact .inr (.inr rfl)

/-! ### Frames -/

/-- The frame of a function of which `running` invocations run and `latest?` began last. -/
structure CallFrame.Follows (frame : CallFrame) (running : ℕ)
    (latest? : Option (CallSiteId × Caller)) : Prop where
  depth : frame.depth = running
  active : 0 < running → ∃ latest, latest? = some latest ∧ frame.activeCall = some latest.1

namespace CallFrame.Follows

variable {frame : CallFrame} {running : ℕ} {latest? : Option (CallSiteId × Caller)}

/-- An idle frame is that of a function that does not run. -/
lemma of_idle (n : ℕ) (latest? : Option (CallSiteId × Caller)) :
    (CallFrame.idle n).Follows 0 latest? :=
  ⟨rfl, fun h => absurd h (Nat.lt_irrefl 0)⟩

/-- An invocation begins. -/
lemma enter (h : frame.Follows running latest?) (site : CallSiteId) (args : List Value)
    (caller : Caller) : (frame.enter site args).Follows (running + 1) (some (site, caller)) :=
  ⟨congrArg (· + 1) h.depth, fun _ => ⟨_, rfl, rfl⟩⟩

/-- An invocation ends; the active call stays the same while others run. -/
lemma leave (h : frame.Follows running latest?) : frame.leave.Follows (running - 1) latest? := by
  unfold CallFrame.leave
  split
  · rename_i hlast
    rw [h.depth] at hlast
    rw [Nat.sub_eq_zero_of_le hlast]
    exact of_idle _ latest?
  · exact ⟨congrArg (· - 1) h.depth, fun hrunning => h.active (by omega)⟩

end CallFrame.Follows

namespace World

/-- All frames are as the log says. -/
def FramesFollow (w : World) (log : CallLog) : Prop :=
  ∀ f x, w.function? f = some x → x.frame.Follows (log.running f) (log.latest? f)

variable {w w' : World} {log log' : CallLog}

/-- Frames do not tell worlds apart that differ elsewhere, nor logs with the same invocations. -/
lemma FramesFollow.of_same (h : w.FramesFollow log) (hframe : w'.frame? = w.frame?)
    (hrunning : ∀ f, log'.running f = log.running f)
    (hlatest : ∀ f, log'.latest? f = log.latest? f) : w'.FramesFollow log' := by
  intro f x' hx'
  have hframes : (w.function? f).map (·.frame) = some x'.frame := by
    have hsame := congrFun hframe f
    rw [frame?, frame?, hx'] at hsame
    exact hsame.symm
  obtain ⟨x, hx, heq⟩ := Option.map_eq_some_iff.1 hframes
  rw [hrunning, hlatest, ← heq]
  exact h f x hx

/-- Where no function runs, all frames are as the empty log says. -/
lemma Idle.framesFollow (h : w.Idle) : w.FramesFollow [] := by
  intro f x hx
  rw [h f x hx]
  exact .of_idle _ _

/-- An activity begins. -/
lemma FramesFollow.enter (h : w.FramesFollow log) (a : Activity) :
    (a.enter w).FramesFollow (⟨.began a, a.enter w⟩ :: log) := by
  cases a with
  | script | callback c args => exact h.of_same rfl (fun _ => rfl) fun _ => rfl
  | function g site args =>
    intro f x' hx'
    rw [CallLog.running, CallLog.latest?, Activity.invocation?]
    rcases function?_modifyFunction_cases hx' with ⟨hgf, x, hx, rfl⟩ | ⟨hgf, hx⟩
    · rw [if_pos hgf]
      exact (h f x hx).enter site args _
    · rw [if_neg hgf]
      exact h f x' hx

/-- An activity ends. -/
lemma FramesFollow.leave (h : w.FramesFollow log) (a : Activity) :
    (a.leave w).FramesFollow (⟨.ended a, a.leave w⟩ :: log) := by
  cases a with
  | script | callback c args => exact h.of_same rfl (fun _ => rfl) fun _ => rfl
  | function g site args =>
    intro f x' hx'
    rw [CallLog.running, CallLog.latest?, Activity.invocation?]
    rcases function?_modifyFunction_cases hx' with ⟨hgf, x, hx, rfl⟩ | ⟨hgf, hx⟩
    · rw [if_pos hgf]
      exact (h f x hx).leave
    · rw [if_neg hgf]
      exact h f x' hx

end World

/-- All frames are as the log says, now and right after each line. -/
structure Attributed.Follow (s : Attributed) : Prop where
  now : s.world.FramesFollow s.record
  always : s.record.Always fun line past => line.world.FramesFollow (line :: past)

namespace Attributed.Follow

variable {s : Attributed} {w : World}

/-- One more line that the frames follow. -/
lemma enlog (h : s.Follow) {event : CallEvent} (hw : w.FramesFollow (⟨event, w⟩ :: s.record)) :
    (s.enlog event w).Follow :=
  ⟨hw, h.always.cons hw⟩

/-- What is no beginning and no end changes no frame. -/
lemma change (h : s.Follow) (hw : s.world.Change w) {event : CallEvent}
    (hevent : ¬event.IsBoundary) : (s.enlog event w).Follow := by
  refine h.enlog (h.now.of_same hw.frame?_eq (fun f => ?_) fun f => ?_)
  all_goals
    cases event with
    | began a | ended a => exact absurd trivial hevent
    | found g | approached | other => rfl

/-- Each command keeps the correspondence. -/
lemma exec (h : s.Follow) {α : Type} (k : Command α) : (Machine.attributed.exec k s).state.Follow := by
  obtain ⟨w, hw, ⟨a, -, hexec⟩ | ⟨e, hexec⟩ | hexec⟩ := Machine.attributed_exec_cases k s
  · rw [hexec]
    exact h.change hw (k.not_isBoundary_callEvent a)
  · rw [hexec]
    exact h.change hw id
  · rw [hexec]
    exact h.change hw id

/-- What only reads keeps the correspondence. -/
lemma read (h : s.Follow) : (s.enlog .other s.world).Follow :=
  h.change .nothing id

/-- Each single step keeps the correspondence. -/
theorem upkeep : Machine.attributed.Upkeep (fun _ _ => True) Attributed.Follow :=
  .of_steps (fun k _ hs => hs.exec k) (fun _ _ _ _ _ _ _ => trivial) (fun _ _ _ hs => hs.read)
    (fun _ _ hs => hs.read) (fun a _ _ hs => hs.enlog (hs.now.enter a))
    fun a _ hs => hs.enlog (hs.now.leave a)

/-- At the start, no function runs. -/
lemma start (h : w.Idle) : Attributed.Follow ⟨w, []⟩ :=
  ⟨h.framesFollow, .nil _⟩

end Attributed.Follow

end ScriptEngine
