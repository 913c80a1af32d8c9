import ScriptEngine.Proofs.SharedSessions

/-!
# Engines that share an interner

Two engines that share an interner do not interfere.  A host may take turns with the two in any
order; if the operations of each engine use what is its own alone, then each engine gives the
answers that it gives in a session of its own, with an interner of its own.  What the other engine
interns meanwhile changes the numbers of names, and nothing that the host is told: a text that only
the other engine has interned is no key of an object either, since no name of its own stands for it.

The functions of the classes that are registered, and the machine code of the snippets, may be
anything that a host can program, as long as it makes no use of the numbers of things, nor of the
order in which an object lists its properties.  Hash tables may be walked in any order, which may be
another one in each of the sessions; it shows in debugger panels alone, where rows that share a name
may change places.

The three sessions start alike, in a world with an interner and nothing else
(`Session.joins_start`), and each turn leaves them as they have to be (`Session.Joins.step`).

Main statement: `Session.answers_together`.
-/

namespace ScriptEngine

/-! ### The start -/

/-- What is interned stays while other texts are. -/
lemma Interner.extends_internAll (t : Interner) (ss : List String) :
    t.Extends (t.internAll ss).2 := by
  induction ss generalizing t with
  | nil => exact .refl t
  | cons s rest ih => exact (t.extends_intern s).trans (ih _)

/-- Every interner has the empty text. -/
lemma Interner.knows_empty_new : Interner.new.Knows .empty := by
  have hempty : Interner.new.strings[0]? = some "" := extends_internAll _ _ 0 "" rfl
  exact (Array.getElem?_eq_some_iff.1 hempty).1

namespace Session

/-- The world in which a session starts, with an interner. -/
def blank : World :=
  { new.world with memory := new.world.memory.newInterner.2 }

/-- The interner of a session that has just started. -/
def blankInterner : Id .interner :=
  new.world.memory.newInterner.1

/-- The names and numbers of a session that has just started. -/
def blankRenaming : Renaming where
  own := blankInterner
  shared := blankInterner
  clock := new.ticks
  names := (List.range Interner.new.size).map Name.mk
  ids
    | .counter => [new.ticks]
    | _ => []
  names_nodup := List.Nodup.map (fun _ _ h => congrArg Name.index h) List.nodup_range
  ids_nodup kind := by
    cases kind with
    | counter => exact List.nodup_singleton _
    | _ => exact List.nodup_nil

lemma names_blankRenaming {n n' : Name} (hn : n.Mirrors blankRenaming n') : n' = n := by
  unfold Name.Mirrors blankRenaming at hn
  dsimp only at hn
  rw [List.getElem?_map, Option.map_eq_some_iff] at hn
  obtain ⟨i, hi, rfl⟩ := hn
  obtain ⟨hlt, rfl⟩ := List.getElem?_eq_some_iff.1 hi
  rw [List.getElem_range]

/-- Where there is nothing, there is nothing to be mirrored. -/
lemma mirrors_blankPool {kind : Kind} {α : Type} {ρ : Renaming} (hids : ρ.ids kind = [])
    {foreign : Id kind → Prop} (hforeign : ∀ i, ¬foreign i) {R : Id kind → α → α → Prop} :
    (Pool.empty : Pool kind α).Mirrors ρ foreign .empty R .empty where
  size := by rw [hids]; rfl
  apart i hi := absurd (hids ▸ hi) List.not_mem_nil
  content hi := absurd (hids ▸ hi.mem) List.not_mem_nil
  kept hi := absurd hi (hforeign _)
  covered hlt := absurd hlt (Nat.not_lt_zero _)

/-- The memory at the start mirrors itself. -/
lemma mirrors_blankMemory : blank.memory.Mirrors ⟨blankRenaming.Occupies, blank⟩ blankRenaming
    blank.memory := by
  have hclock : new.ticks.Mirrors blankRenaming new.ticks := rfl
  have htexts : (blank.memory.interner blankInterner) = Interner.new := rfl
  exact {
    arrays := mirrors_blankPool rfl fun _ => List.not_mem_nil
    objects := mirrors_blankPool rfl fun _ => List.not_mem_nil
    printers := mirrors_blankPool rfl fun _ => List.not_mem_nil
    counters := {
      size := rfl
      apart := fun i hi => by
        obtain rfl := List.mem_singleton.1 hi
        exact ⟨Nat.zero_lt_one, fun hother => hother.2 rfl⟩
      content := fun {i i'} hi => by
        obtain rfl := List.mem_singleton.1 hi.mem
        obtain rfl := (hclock.eq_iff hi).1 rfl
        exact .some fun hne => absurd rfl hne
      kept := fun hother => absurd (List.mem_singleton.1 hother.1) hother.2
      covered := fun {i} hlt => by
        cases i with
        | mk index =>
          obtain rfl := Nat.lt_one_iff.1 hlt
          exact .inl (List.mem_singleton_self _) }
    names := {
      size := ((List.length_map _).trans List.length_range).symm
      text := fun hn => by rw [names_blankRenaming hn]; rfl }
    empty := by
      have hempty : (List.range Interner.new.size)[0]? = some 0 :=
        List.getElem?_range Interner.knows_empty_new
      exact (List.getElem?_map ..).trans (congrArg _ hempty)
    interner := rfl
    interner' := rfl
    grows := .refl _
    clock := hclock
    clock_isSome := rfl }

/-- The world at the start joins itself and itself. -/
lemma joins_blank : World.Joins blankRenaming blankRenaming blank blank blank := by
  have hmirrors : blank.Mirrors ⟨blankRenaming.Occupies, blank⟩ blankRenaming blank := {
    memory := mirrors_blankMemory
    natives := mirrors_blankPool rfl fun _ => List.not_mem_nil
    functions := mirrors_blankPool rfl fun _ => List.not_mem_nil
    callbacks := mirrors_blankPool rfl fun _ => List.not_mem_nil
    engines := mirrors_blankPool rfl fun _ => List.not_mem_nil
    objectCalls := mirrors_blankPool rfl fun _ => List.not_mem_nil
    alive := fun he => absurd he.mem List.not_mem_nil }
  exact ⟨hmirrors, hmirrors, rfl, rfl⟩

/-- The settings that a host starts an engine with. -/
structure Settings where
  maxCallDepth : Nat
  reporter : Reporter
  printer : Printer
  /-- What compiles the snippets; without it, they are compiled to the symbols of the session. -/
  compiler : Option SnippetCompiler := none

namespace Settings

variable (o : Settings)

/-- Start an engine, which may share the interner of another one. -/
def start (share : Option String) : Operation :=
  .newEngine share o.maxCallDepth o.reporter o.printer o.compiler

/-- The settings of an engine that is started in a session. -/
def config : EngineConfig :=
  ⟨o.maxCallDepth, o.reporter, o.printer, o.compiler.getD (.table (allLinked new.ticks))⟩

/-- What snippets are compiled to sees nothing of numbers, nor of the order of properties. -/
def IsUniform : Prop :=
  ∀ c ∈ o.compiler, c.IsUniform new.ticks

variable {o}

lemma IsUniform.config (h : o.IsUniform) : o.config.compiler.IsUniform new.ticks := by
  unfold Settings.config
  cases hcompiler : o.compiler with
  | none => exact isUniform_allLinked new.ticks
  | some c => exact h c hcompiler

end Settings

/-- A session of one engine. -/
def alone (order : Engine → TableOrder) (bound : ℕ) (name : String) (o : Settings) : Session :=
  ({ new with order }.step bound name (o.start none)).2

/-- A session of two engines that share an interner. -/
def together (order : Engine → TableOrder) (bound : ℕ) (name name' : String) (o o' : Settings) :
    Session :=
  ((alone order bound name o).step bound name' (o'.start (some name))).2

/-- The session after the start of an engine, which left a world behind. -/
def withEngine (s : Session) (name : String) (started : Id .engine × World) : Session :=
  { s with
    world := started.2
    handles := { s.handles with
      engines := s.handles.engines.insert name started.1
      captured := s.handles.captured.erase name } }

/-- Where there are no functions and callbacks, nothing is released. -/
lemma settle_of_empty {s : Session} (hfunctions : s.world.functions = .empty)
    (hcallbacks : s.world.callbacks = .empty) : s.settle = s := by
  obtain ⟨⟨memory, natives, functions, callbacks, engines, objectCalls⟩, handles, ticks, order⟩ := s
  subst hfunctions hcallbacks
  rfl

/-- The first engine under a name is started. -/
lemma step_start {s : Session} (hticks : s.ticks = new.ticks)
    (hfunctions : s.world.functions = .empty) (hcallbacks : s.world.callbacks = .empty)
    {name : String} (hnone : s.handles.engines.get? name = none) (bound : ℕ) (o : Settings)
    (share : Option String) :
    (s.step bound name (o.start share)).2 = s.withEngine name (s.world.newEngine o.config
      (share.bind fun partner =>
        (s.handles.engines.get? partner).map fun e => (s.world.engine e).interner)) := by
  have hshared : (do return (s.world.engine (← s.handles.engines.get? (← share))).interner) =
      share.bind fun partner =>
        (s.handles.engines.get? partner).map fun e => (s.world.engine e).interner := by
    cases share with
    | none => rfl
    | some partner => exact (Option.map_eq_bind ..).symm
  have hstart : s.startEngine name share o.config = s.withEngine name (s.world.newEngine o.config
      (share.bind fun partner =>
        (s.handles.engines.get? partner).map fun e => (s.world.engine e).interner)) := by
    unfold startEngine withEngine
    rw [hshared, hnone]
  change (s.startEngine name share
    ⟨_, _, _, o.compiler.getD (.table (allLinked s.ticks))⟩).settle = _
  rw [hticks]
  change (s.startEngine name share o.config).settle = _
  rw [hstart]
  exact settle_of_empty hfunctions hcallbacks

/-- An engine that shares no interner has a new one. -/
lemma newEngine_none (w : World) (config : EngineConfig) :
    w.newEngine config none = World.newEngine { w with memory := w.memory.newInterner.2 } config
      (some w.memory.newInterner.1) :=
  rfl

lemma alone_eq (order : Engine → TableOrder) (bound : ℕ) (name : String) (o : Settings) :
    alone order bound name o =
      { new with order }.withEngine name (blank.newEngine o.config (some blankRenaming.own)) := by
  have hinterner : new.world.newEngine o.config none =
      blank.newEngine o.config (some blankRenaming.own) := newEngine_none new.world o.config
  rw [← hinterner]
  exact step_start (s := { new with order }) rfl rfl rfl rfl bound o none

/-- Another engine is started, which shares the interner of the first one. -/
lemma together_eq (order : Engine → TableOrder) (bound : ℕ) {name name' : String}
    (hname : name' ≠ name) (o o' : Settings) {first : Id .engine × World}
    (hfirst : blank.newEngine o.config (some blankRenaming.own) = first) :
    together order bound name name' o o' = ({ new with order }.withEngine name first).withEngine
      name' (first.2.newEngine o'.config (some (first.2.engine first.1).interner)) := by
  obtain ⟨hfunctions, hcallbacks⟩ := blank.same_newEngine o.config (some blankRenaming.own)
  rw [hfirst] at hfunctions hcallbacks
  have hnone : Table.get? [(name, first.1)] name' = none := by
    rw [Table.get?, List.lookup_cons, beq_eq_false_iff_ne.2 hname]
    rfl
  have hself : Table.get? [(name, first.1)] name = some first.1 := List.lookup_cons_self
  have hstep := step_start (s := { new with order }.withEngine name first) rfl hfunctions
    hcallbacks hnone bound o' (some name)
  rw [Option.bind_some] at hstep
  change _ = withEngine _ _ (World.newEngine _ _ ((Table.get? [(name, first.1)] name).map _))
    at hstep
  rw [hself] at hstep
  rw [together, alone_eq, hfirst]
  exact hstep

/-- Two tables with one entry each in a table with both. -/
lemma Table.mirrors_two {α β γ : Type} {R : α → γ → Prop} {Q : β → γ → Prop} {name name' : String}
    (hname : name' ≠ name) {x : α} {y : β} {u v : γ} (hR : R x u) (hQ : Q y v) :
    let both := Table.insert (Table.insert [] name u) name' v
    Table.Mirrors (· == name) R (Table.insert [] name x) both both ∧
      Table.Mirrors (· == name') Q (Table.insert [] name' y) both both := by
  have hleft : Table.Mirrors (· == name) R (Table.insert [] name x) []
      (Table.insert [] name u) := by
    refine Table.Mirrors.insert ⟨.nil, rfl⟩ ?_ hR
    exact beq_self_eq_true name
  have hright : Table.Mirrors (· == name') Q (Table.insert [] name' y) (Table.insert [] name u)
      (Table.insert (Table.insert [] name u) name' v) := by
    have hnone : (Table.insert [] name u).filter (fun entry => entry.1 == name') = [] := by
      refine List.filter_eq_nil_iff.2 fun entry hentry => ?_
      obtain rfl := List.mem_singleton.1 hentry
      exact fun heq => hname (beq_iff_eq.1 heq).symm
    refine Table.Mirrors.insert ⟨?_, rfl⟩ ?_ hQ
    · rw [hnone]
      exact .nil
    · exact beq_self_eq_true name'
  refine ⟨hleft.beside hright fun k hk hk' => ?_, hright.rebase⟩
  exact hname ((beq_iff_eq.1 hk').symm.trans (beq_iff_eq.1 hk))

/-- Handles of a session in which nothing but engines has been started. -/
lemma mirrorsIn_of_engines {κ : Setting} {ρ : Renaming} {t t' : Table (Id .engine)}
    (hstarted : (t.get? κ.engine).isSome)
    (ht : t.Mirrors (· == κ.engine) (Id.Mirrors ρ) κ.base.handles.engines t')
    (hbase : κ.base.handles = { engines := t' }) :
    Handles.MirrorsIn κ ρ { engines := t } { engines := t' } where
  started := hstarted
  engines := ht
  functions := by rw [hbase]; exact ⟨.nil, rfl⟩
  callbacks := by rw [hbase]; exact ⟨.nil, rfl⟩
  snippets := by rw [hbase]; exact ⟨.nil, rfl⟩
  statements := by rw [hbase]; exact ⟨.nil, rfl⟩
  values := by rw [hbase]; exact ⟨.nil, rfl⟩
  captured := by rw [hbase]; exact ⟨.nil, rfl⟩

/-- Sessions whose worlds are joined are joined after the start of their engines. -/
lemma joins_withEngine {seat seat' : Seat} (hapart : seat.Apart seat')
    (order order' order'' : Engine → TableOrder) {ρ σ : Renaming}
    {x y first second : Id .engine × World} (hw : World.Joins ρ σ x.2 y.2 second.2)
    (he : x.1.Mirrors ρ first.1) (he' : y.1.Mirrors σ second.1) (hclock : ρ.clock = new.ticks) :
    Joins seat seat' ρ σ ({ new with order }.withEngine seat.engine x)
      ({ new with order := order' }.withEngine seat'.engine y)
      (({ new with order := order'' }.withEngine seat.engine first).withEngine seat'.engine
        second) := by
  obtain ⟨hleft, hright⟩ := Table.mirrors_two hapart.engine he he'
  have hstarted (name : String) (e : Id .engine) :
      (Table.get? (Table.insert [] name e) name).isSome := by
    change (List.lookup name [(name, e)]).isSome
    rw [List.lookup_cons_self]
    rfl
  have hclock' : σ.clock = new.ticks := hw.clock.trans hclock
  exact {
    left := {
      world := hw.left
      handles := mirrorsIn_of_engines (hstarted _ _) hleft rfl
      ticks := hclock.symm
      ticks' := hclock.symm }
    right := {
      world := hw.right
      handles := mirrorsIn_of_engines (hstarted _ _) hright rfl
      ticks := hclock'.symm
      ticks' := hclock'.symm }
    shared := hw.shared
    apart := hapart
    captured := fun _ he => absurd he List.not_mem_nil }

/-- Two engines that are started on one interner, and each on an interner of its own. -/
theorem joins_start {seat seat' : Seat} (hapart : seat.Apart seat')
    (order order' order'' : Engine → TableOrder) (bound : ℕ) {o o' : Settings} (ho : o.IsUniform)
    (ho' : o'.IsUniform) :
    ∃ ρ σ, Joins seat seat' ρ σ (alone order bound seat.engine o)
      (alone order' bound seat'.engine o')
      (together order'' bound seat.engine seat'.engine o o') := by
  obtain ⟨ρ, hle, he, hw⟩ := joins_blank.left.newEngine ho.config
  have hfirst := joins_blank.advance hle hw
  obtain ⟨σ, hle', he', hw'⟩ := hfirst.right.newEngine ho'.config
  have hboth := (hfirst.symm.advance hle' hw').symm
  have hinterner := (hfirst.left.engine he).interner'.trans hle.1.2.1
  have htogether := together_eq order'' bound hapart.engine o o'
    (rfl : _ = blank.newEngine o.config (some blankRenaming.shared))
  rw [htogether, alone_eq, alone_eq, hinterner]
  exact ⟨ρ, σ, joins_withEngine hapart order order' order'' hboth he he' hle.1.2.2⟩

/-! ### Turns -/

/-- The answers to the operations of a host, each with the name of its engine. -/
def answers (bound : ℕ) : Session → List (String × Operation) → List (String × Answer)
  | _, [] => []
  | s, (name, op) :: rest =>
    let (answer, s) := s.step bound name op
    (name, answer) :: answers bound s rest

/-- The answers are of the same engines, and agree. -/
def AnswersAgree : List (String × Answer) → List (String × Answer) → Prop :=
  List.Forall₂ fun x x' => x'.1 = x.1 ∧ x.2.Agrees x'.2

/-- Each operation is about its engine alone, uses own handles that the session has at that moment,
and gives own handles. -/
def Admits (bound : ℕ) (own : Handle → Bool) : Session → List (String × Operation) → Prop
  | _, [] => True
  | s, (name, op) :: rest =>
    (op.isLocal ∧ (∀ handle ∈ op.uses, s.Offers own handle) ∧ ∀ handle ∈ op.gives, own handle) ∧
      Admits bound own (s.step bound name op).2 rest

instance decidableAdmits (bound : ℕ) (own : Handle → Bool) :
    (s : Session) → (turns : List (String × Operation)) → Decidable (s.Admits bound own turns)
  | _, [] => .isTrue trivial
  | s, (name, op) :: rest =>
    have := decidableAdmits bound own (s.step bound name op).2 rest
    inferInstanceAs (Decidable (((op.isLocal = true) ∧
      (∀ handle ∈ op.uses, own handle = true ∧ s.Holds handle = true) ∧
      ∀ handle ∈ op.gives, own handle = true) ∧ _))

/-- What is about one engine. -/
def about {α : Type} (name : String) (turns : List (String × α)) : List (String × α) :=
  turns.filter (·.1 == name)

lemma about_cons_self {α : Type} (name : String) (x : α) (rest : List (String × α)) :
    about name ((name, x) :: rest) = (name, x) :: about name rest := by
  rw [about, List.filter_cons, if_pos (beq_self_eq_true name), about]

lemma about_cons_of_ne {α : Type} {name other : String} (h : other ≠ name) (x : α)
    (rest : List (String × α)) : about name ((other, x) :: rest) = about name rest := by
  rw [about, List.filter_cons, if_neg (fun heq => h (beq_iff_eq.1 heq)), about]

/-- What a step has released need not be released again. -/
lemma settle_step (s : Session) (bound : ℕ) (name : String) (op : Operation) :
    (s.step bound name op).2.settle = (s.step bound name op).2 :=
  congrArg (fun world => { (s.carryOut bound name op).2 with world }) (World.settle_settle _ _)

namespace Joins

variable {seat seat' : Seat} {ρ σ : Renaming} {a b s : Session}

/-- In the shared session the first engine gives the answers of its own session. -/
theorem answers (h : Joins seat seat' ρ σ a b s) (ha : a.settle = a) (hb : b.settle = b) (bound : ℕ)
    {turns : List (String × Operation)} (huniform : ∀ turn ∈ turns, turn.2.IsUniform)
    (hturns : ∀ turn ∈ turns, turn.1 = seat.engine ∨ turn.1 = seat'.engine)
    (hown : a.Admits bound seat.own (about seat.engine turns))
    (hown' : b.Admits bound seat'.own (about seat'.engine turns)) :
    AnswersAgree (a.answers bound (about seat.engine turns))
      (about seat.engine (s.answers bound turns)) := by
  induction turns generalizing ρ σ a b s with
  | nil => exact .nil
  | cons turn rest ih =>
    obtain ⟨name, op⟩ := turn
    obtain ⟨hop, hlater⟩ := List.forall_mem_cons.1 huniform
    obtain ⟨hname, hrest⟩ := List.forall_mem_cons.1 hturns
    rcases hname with rfl | rfl
    · rw [about_cons_self] at hown
      rw [about_cons_of_ne h.apart.engine.symm] at hown'
      obtain ⟨⟨hlocal, huses, hgives⟩, hown⟩ := hown
      obtain ⟨hanswer, ρ', hnext⟩ := h.step hb bound hop hlocal huses hgives
      have hagree := ih hnext (settle_step _ _ _ _) hb hlater hrest hown hown'
      rw [about_cons_self, Session.answers, Session.answers, about_cons_self]
      exact .cons ⟨rfl, hanswer⟩ hagree
    · rw [about_cons_of_ne h.apart.engine] at hown
      rw [about_cons_self] at hown'
      obtain ⟨⟨hlocal, huses, hgives⟩, hown'⟩ := hown'
      obtain ⟨-, σ', hnext⟩ := h.symm.step ha bound hop hlocal huses hgives
      have hagree := ih hnext.symm ha (settle_step _ _ _ _) hlater hrest hown hown'
      rw [about_cons_of_ne h.apart.engine, Session.answers, about_cons_of_ne h.apart.engine]
      exact hagree

end Joins

/-- Engines that share an interner do not interfere: whatever the order in which a host takes turns
with them, and in whatever orders hash tables are walked, each gives the answers that it gives in a
session of its own.  What the functions of classes do, and what snippets are compiled to, is left
open, but that it sees nothing of numbers and of the order of properties. -/
theorem answers_together {name name' : String} (hname : name' ≠ name) (own : Handle → Bool)
    (bound : ℕ) (order order' order'' : Engine → TableOrder) {o o' : Settings} (ho : o.IsUniform)
    (ho' : o'.IsUniform) {turns : List (String × Operation)}
    (huniform : ∀ turn ∈ turns, turn.2.IsUniform)
    (hturns : ∀ turn ∈ turns, turn.1 = name ∨ turn.1 = name')
    (hown : (alone order bound name o).Admits bound own (about name turns))
    (hown' : (alone order' bound name' o').Admits bound (fun handle => !own handle)
      (about name' turns)) :
    let shared := (together order'' bound name name' o o').answers bound turns
    AnswersAgree ((alone order bound name o).answers bound (about name turns)) (about name shared) ∧
      AnswersAgree ((alone order' bound name' o').answers bound (about name' turns))
        (about name' shared) := by
  have hapart : Seat.Apart ⟨name, own⟩ ⟨name', fun handle => !own handle⟩ := ⟨hname, fun _ => rfl⟩
  obtain ⟨ρ, σ, hstart⟩ := joins_start hapart order order' order'' bound ho ho'
  have hsettled : (alone order bound name o).settle = alone order bound name o := settle_step ..
  have hsettled' : (alone order' bound name' o').settle = alone order' bound name' o' :=
    settle_step ..
  exact ⟨hstart.answers hsettled hsettled' bound huniform hturns hown hown',
    hstart.symm.answers hsettled' hsettled bound huniform
      (fun turn hturn => (hturns turn hturn).symm) hown' hown⟩

namespace Interference

/-- A function that executes the script that it has kept, and puts the result behind its values. -/
def collect (captures : Captures) : Host.Function := fun _ =>
  .execute (captures.scripts.headD default) fun
    | .ok v => .succeedWith (·.newArray (captures.values ++ [v]).toArray)
    | .error e => .fail e

lemma isUniform_collect (values : List ValueForm) (scripts : List String) :
    (Behaviour.closure values scripts collect).IsUniform := by
  refine fun ρ x x' hx => ⟨fun hle hm _ => ?_⟩
  have hscript : (x.scripts.headD default).Mirrors ρ (x'.scripts.headD default) := by
    have hscripts := hx.scripts
    generalize x.scripts = ss, x'.scripts = ss' at hscripts
    cases hscripts with
    | nil => exact .mk .unknown .breakLoop
    | cons hs _ => exact hs
  refine .execute (hscript.mono hle) fun hle' hm' hresult => ?_
  cases hresult with
  | error e => exact .fail e
  | ok hv =>
    have hvalues := List.rel_append (hx.values.mono (hle.trans hle')) (.cons hv .nil)
    obtain ⟨ρ₂, hgrows, ha, hm₂⟩ := hm'.newArray hvalues
    exact .allocate hgrows hm₂ (.succeed ha)

/-- Machine code that empties the array in its slot. -/
def clear : MachineCode
  | .array a :: rest, m => (.array a :: rest, m.modifyItems a fun _ => #[])
  | slots, m => (slots, m)

lemma isUniform_clear (clock : Id .counter) : clear.IsUniform clock := by
  refine ⟨fun _ hm hslots => ⟨_, .refl _, ?_⟩⟩
  cases hslots with
  | nil => exact hm
  | cons hv _ =>
    cases hv with
    | array ha => exact hm.modifyItems ha fun _ _ _ => .nil
    | _ => exact hm

/-- Reports are collected, what is printed is captured, and snippets can empty arrays. -/
def settings : Settings :=
  ⟨8, .collect [], .capture "", some (.table ⟨[("clear", clear)]⟩)⟩

lemma isUniform_settings : settings.IsUniform := by
  intro c hc symbol code hcode
  obtain rfl := Option.some.inj hc
  obtain rfl : clear = code := by
    unfold SnippetCompiler.compile at hcode
    dsimp only at hcode
    split at hcode
    · rename_i found hfound
      have hmem := mem_of_lookup hfound
      rw [List.mem_singleton] at hmem
      exact (Prod.mk.inj hmem).2.symm.trans (Except.ok.inj hcode)
    · exact nomatch hcode
  exact isUniform_clear _

/-- Tables are walked in the order of the numbers of their names. -/
def byNumber (_ : Engine) : TableOrder :=
  ⟨(·.index), (·.index), (·.index)⟩

/-- The first engine looks up a key in an object, in a script that a host function executes; only the
second engine has interned the key. -/
def turns : List (String × Operation) :=
  [("left", .writeGlobal "table" (.object [("inner", .bool true)])),
    ("right", .writeGlobal "key" (.string "outer")),
    ("left", .store "look"
      (.returnValue (some (.index (.var (.global "table")) (.literal (.string "key")))))),
    ("left", .registerClass
      ⟨"Host", [("collect", 0, .closure [.string "found"] ["look"] collect)], []⟩),
    ("left", .defineFunction "f" "look" []),
    ("right", .defineFunction "g" "other" ["key"]),
    ("left", .setFunctionBody "f" (.returnValue (some (.apiCall "Host" "collect" [])))),
    ("left", .call "look" []),
    ("right", .call "other" []),
    ("left", .declareSnippet "n" ⟨"clear", ["items"], false, "", "void clear(Value* items);"⟩),
    ("left", .evaluate (.snippetCall "n" [.array []])),
    ("right", .reports),
    ("left", .debug)]

/-- The handles of the first engine. -/
def own : Handle → Bool
  | .function name => name == "f"
  | .statement name => name == "look"
  | .snippet name => name == "n"
  | _ => false

lemma isUniform_turns : ∀ turn ∈ turns, turn.2.IsUniform := by
  simp only [turns, List.forall_mem_cons, Operation.IsUniform, true_and]
  refine ⟨fun f hf => ?_, fun _ h => absurd h List.not_mem_nil⟩
  rw [List.mem_singleton.1 hf]
  exact isUniform_collect _ _

end Interference

open Interference in
/-- The answers of both engines in a run in which one of them interns a key that the other one looks
up, with tables that are walked in another order in the shared session. -/
theorem answers_together_look :
    let shared := (together byNumber 16 "left" "right" settings settings).answers 16 turns
    AnswersAgree ((alone (fun _ => {}) 16 "left" settings).answers 16 (about "left" turns))
        (about "left" shared) ∧
      AnswersAgree ((alone (fun _ => {}) 16 "right" settings).answers 16 (about "right" turns))
        (about "right" shared) :=
  answers_together (by decide) own 16 _ _ byNumber isUniform_settings isUniform_settings
    isUniform_turns (by decide +kernel) (by decide +kernel) (by decide +kernel)

end Session

end ScriptEngine
