import ScriptEngine.Proofs.MirroredForms

/-!
# Mirrored sessions

A session may be at work for one engine alone, or for others as well.  The second session mirrors
the first one if its world does, and if the handles of the first session refer, in the second one,
to what mirrors the things that they refer to in the first one.  What else the second session has
handles for is foreign, and stays as it was; a `Setting` says which handles are own ones.

A form that uses own handles alone, that the first session offers, therefore uses things that mirror
each other; what both sessions build or evaluate from it gives the same answer in both, and they
mirror each other again afterwards.

Main statements: `Session.Mirrors.offers`, `Session.Mirrors.build` and
`Session.Mirrors.answerResult`.
-/

namespace ScriptEngine.Session

/-! ### Tables -/

namespace Table

variable {α β : Type}

/-- The second table has, under the names that are kept and in the same order, what `R` relates to
what the first one has; under the other names it has what `base` has. -/
structure Mirrors (keep : String → Bool) (R : α → β → Prop) (t : Table α) (base t' : Table β) :
    Prop where
  own : List.Forall₂ (fun e e' => e'.1 = e.1 ∧ R e.2 e'.2) t (t'.filter fun e => keep e.1)
  others : t'.filter (fun e => !keep e.1) = base.filter fun e => !keep e.1

/-- Of one name that is kept, nothing is left out. -/
lemma get?_filter {keep : String → Bool} (t : Table α) {name : String} (hname : keep name) :
    Table.get? (t.filter fun e => keep e.1) name = t.get? name := by
  unfold Table.get?
  induction t with
  | nil => rfl
  | cons e rest ih =>
    by_cases he : keep e.1
    · rw [List.filter_cons, if_pos he, List.lookup_cons, List.lookup_cons, ih]
    · have hne : (name == e.1) = false := beq_eq_false_iff_ne.2 fun heq => he (heq ▸ hname)
      rw [List.filter_cons, if_neg he, ih, List.lookup_cons, hne]

namespace Mirrors

variable {keep : String → Bool} {R : α → β → Prop} {t : Table α} {base t' : Table β}
  {name : String}

lemma imp (h : t.Mirrors keep R base t') {Q : α → β → Prop} (hRQ : ∀ a b, R a b → Q a b) :
    t.Mirrors keep Q base t' :=
  ⟨h.own.imp fun _ _ he => ⟨he.1, hRQ _ _ he.2⟩, h.others⟩

/-- What is under a name that is kept is related. -/
lemma get? (h : t.Mirrors keep R base t') (hname : keep name) :
    Option.Rel R (t.get? name) (t'.get? name) := by
  rw [← get?_filter t' hname]
  obtain ⟨hown, -⟩ := h
  generalize t'.filter (fun e => keep e.1) = kept at hown
  unfold Table.get?
  induction hown with
  | nil => exact .none
  | @cons e e' _ _ he _ ih =>
    rw [List.lookup_cons, List.lookup_cons, he.1]
    cases name == e.1 with
    | true => exact .some he.2
    | false => exact ih

/-- Where there is something under a name that is kept, it is related. -/
lemma getD (h : t.Mirrors keep R base t') (hname : keep name) (hsome : (t.get? name).isSome)
    {a : α} {b : β} : R ((t.get? name).getD a) ((t'.get? name).getD b) := by
  have hget := h.get? hname
  generalize t.get? name = x, t'.get? name = x' at hget hsome
  cases hget with
  | none => exact nomatch hsome
  | some hx => exact hx

/-- A name that is kept is forgotten on both sides. -/
lemma erase (h : t.Mirrors keep R base t') (hname : keep name) :
    (t.erase name).Mirrors keep R base (t'.erase name) := by
  refine ⟨?_, ?_⟩
  · rw [Table.erase, Table.erase, List.filter_filter]
    simp only [Bool.and_comm (keep _)]
    rw [← List.filter_filter]
    obtain ⟨hown, -⟩ := h
    generalize t'.filter (fun e => keep e.1) = kept at hown
    induction hown with
    | nil => exact .nil
    | @cons e e' _ _ he _ ih =>
      rw [List.filter_cons, List.filter_cons, he.1]
      split
      · exact .cons he ih
      · exact ih
  · rw [Table.erase, List.filter_filter, ← h.others]
    refine List.filter_congr fun e _ => ?_
    cases hkeep : keep e.1 with
    | true => rfl
    | false =>
      have hne : e.1 ≠ name := fun heq => Bool.false_ne_true (hkeep.symm.trans (heq ▸ hname))
      rw [bne_iff_ne.2 hne]
      rfl

/-- Related things are put under a name that is kept. -/
lemma insert (h : t.Mirrors keep R base t') (hname : keep name) {a : α} {b : β} (hab : R a b) :
    (t.insert name a).Mirrors keep R base (t'.insert name b) := by
  have herase := h.erase hname
  refine ⟨?_, ?_⟩
  · rw [Table.insert, Table.insert, List.filter_append, List.filter_cons, if_pos hname,
      List.filter_nil]
    exact List.rel_append herase.own (.cons ⟨rfl, hab⟩ .nil)
  · have hout : ¬(!keep name) = true := by rw [hname]; exact nofun
    rw [Table.insert, List.filter_append, List.filter_cons, if_neg hout, List.filter_nil,
      List.append_nil]
    exact herase.others

end Mirrors

end Table

/-! ### Sessions -/

/-- The name of an engine, and the handles that it may use. -/
structure Seat where
  engine : String
  own : Handle → Bool

/-- Where the session of an engine is mirrored. -/
structure Setting extends Seat where
  /-- What else there is in the second session. -/
  foreign : (kind : Kind) → Id kind → Prop
  /-- A session in which all else was as it has to be. -/
  base : Session

/-- The surroundings of the first world in the second one. -/
def Setting.surroundings (κ : Setting) : Surroundings :=
  ⟨κ.foreign, κ.base.world⟩

variable {κ : Setting} {ρ ρ' : Renaming}

/-- The own handles refer to things that mirror each other, and the others to what they have to
refer to. -/
structure Handles.MirrorsIn (κ : Setting) (ρ : Renaming) (h h' : Handles) : Prop where
  started : (h.engines.get? κ.engine).isSome
  engines : h.engines.Mirrors (· == κ.engine) (Id.Mirrors ρ) κ.base.handles.engines h'.engines
  functions : h.functions.Mirrors (fun name => κ.own (.function name)) (Id.Mirrors ρ)
    κ.base.handles.functions h'.functions
  callbacks : h.callbacks.Mirrors (fun name => κ.own (.callback name)) (Id.Mirrors ρ)
    κ.base.handles.callbacks h'.callbacks
  snippets : h.snippets.Mirrors (fun name => κ.own (.snippet name))
    (fun x x' => x' = x ∧ x.IsUniform ρ.clock) κ.base.handles.snippets h'.snippets
  statements : h.statements.Mirrors (fun name => κ.own (.statement name)) (Stmt.Mirrors ρ)
    κ.base.handles.statements h'.statements
  values : h.values.Mirrors (fun name => κ.own (.value name)) (Value.Mirrors ρ)
    κ.base.handles.values h'.values
  captured : h.captured.Mirrors (· == κ.engine) (Stmts.Mirrors ρ) κ.base.handles.captured
    h'.captured

lemma Handles.MirrorsIn.mono {h h' : Handles} (hh : h.MirrorsIn κ ρ h') (hle : ρ ≤ ρ') :
    h.MirrorsIn κ ρ' h' where
  started := hh.started
  engines := hh.engines.imp fun _ _ he => he.mono hle
  functions := hh.functions.imp fun _ _ hf => hf.mono hle
  callbacks := hh.callbacks.imp fun _ _ hc => hc.mono hle
  snippets := hh.snippets.imp fun _ _ hx => ⟨hx.1, hle.1.2.2.symm ▸ hx.2⟩
  statements := hh.statements.imp fun _ _ hs => hs.mono hle
  values := hh.values.imp fun _ _ hv => hv.mono hle
  captured := hh.captured.imp fun _ _ hss => Stmts.Mirrors.mono hle hss

/-- The second session has what the first one has, up to numbers, and what is foreign beside. -/
structure Mirrors (κ : Setting) (ρ : Renaming) (s s' : Session) : Prop where
  world : s.world.Mirrors κ.surroundings ρ s'.world
  handles : s.handles.MirrorsIn κ ρ s'.handles
  ticks : s.ticks = ρ.clock
  ticks' : s'.ticks = ρ.clock

/-- The handle is an own one, and the session has it. -/
def Offers (own : Handle → Bool) (s : Session) (handle : Handle) : Prop :=
  own handle ∧ s.Holds handle

/-- What is given is related, and the sessions mirror each other, under a renaming that may have
grown. -/
def Agree (κ : Setting) {α α' : Type} (R : Renaming → α → α' → Prop) (ρ : Renaming)
    (x : α × Session) (x' : α' × Session) : Prop :=
  ∃ ρ', ρ ≤ ρ' ∧ R ρ' x.1 x'.1 ∧ x.2.Mirrors κ ρ' x'.2

/-- The answers are the same. -/
abbrev Agreeing (κ : Setting) : Renaming → Answer × Session → Answer × Session → Prop :=
  Agree κ fun _ => Eq

/-- The renaming may have grown before. -/
lemma Agree.of_le {α α' : Type} {R : Renaming → α → α' → Prop} {x : α × Session}
    {x' : α' × Session} (hle : ρ ≤ ρ') (h : Agree κ R ρ' x x') : Agree κ R ρ x x' := by
  obtain ⟨ρ₂, hle₂, hx, hs⟩ := h
  exact ⟨ρ₂, hle.trans hle₂, hx, hs⟩

namespace Mirrors

variable {s s' : Session} (h : s.Mirrors κ ρ s')

include h

/-- The worlds have gone on. -/
lemma withWorld (hle : ρ ≤ ρ') {w w' : World} (hw : w.Mirrors κ.surroundings ρ' w') :
    Mirrors κ ρ' { s with world := w } { s' with world := w' } where
  world := hw
  handles := h.handles.mono hle
  ticks := h.ticks.trans hle.1.2.2.symm
  ticks' := h.ticks'.trans hle.1.2.2.symm

/-- The handles that the first session offers refer to things that mirror each other. -/
lemma offers : s.handles.Mirrors (s.Offers κ.own) ρ s'.handles where
  function hname := h.handles.functions.getD hname.1 hname.2
  callback hname := h.handles.callbacks.getD hname.1 hname.2
  snippet hname := h.handles.snippets.getD hname.1 hname.2
  statement hname := h.handles.statements.get? hname.1
  value hname := h.handles.values.getD hname.1 hname.2

/-- The engine in the second session is the image of the engine in the first one. -/
lemma engine : ((s.handles.engines.get? κ.engine).getD default).Mirrors ρ
    ((s'.handles.engines.get? κ.engine).getD default) :=
  h.handles.engines.getD (beq_self_eq_true κ.engine) h.handles.started

/-! ### Answers -/

variable {e e' : Id .engine}

lemma snapshot? (he : e.Mirrors ρ e') {v v' : Value} (hv : v.Mirrors ρ v') :
    s'.snapshot? e' v' = s.snapshot? e v := by
  rw [Session.snapshot?, Session.snapshot?, (h.world.engine he).interner,
    (h.world.engine he).interner']
  exact h.world.memory.snapshot? hv

/-- The answer may be known already. -/
lemma agree (answer : Answer) : Agreeing κ ρ (answer, s) (answer, s') :=
  ⟨ρ, le_rfl, rfl, h⟩

lemma answerOption {α : Type} (form : α → Answer) {a a' : Option α} (ha : a' = a) :
    Agreeing κ ρ (s.answerOption form a) (s'.answerOption form a') := by
  subst ha
  cases a' with
  | none => exact h.agree _
  | some a => exact h.agree _

lemma answerValue (he : e.Mirrors ρ e') {v v' : Value} (hv : v.Mirrors ρ v') :
    Agreeing κ ρ (s.answerValue e v) (s'.answerValue e' v') := by
  unfold Session.answerValue
  rw [h.snapshot? he hv]
  split <;> exact h.agree _

/-- Both sessions build the same, and go on with it. -/
lemma build {α α' : Type} {R : Renaming → α → α' → Prop} {b : Build α} {b' : Build α'}
    (hb : b.Mirrors κ.surroundings R ρ b') {next : α → Session → Answer × Session}
    {next' : α' → Session → Answer × Session}
    (hnext : ∀ {ρ' a a' w w'}, ρ ≤ ρ' → R ρ' a a' → World.Mirrors κ.surroundings ρ' w w' →
      Agreeing κ ρ' (next a { s with world := w }) (next' a' { s' with world := w' })) :
    Agreeing κ ρ (s.build b next) (s'.build b' next') := by
  obtain ⟨ρ₁, hle, hresult, hw⟩ := hb.run le_rfl h.world
  unfold Session.build
  generalize b s.world = x, b' s'.world = x' at hresult hw
  obtain ⟨result, w⟩ := x
  obtain ⟨result', w'⟩ := x'
  cases hresult with
  | ok ha => exact (hnext hle ha hw).of_le hle
  | error error => exact ⟨ρ₁, hle, rfl, h.withWorld hle hw⟩

/-- Both sessions evaluate the same. -/
lemma answerResult (he : e.Mirrors ρ e') {x x' : Action World Value}
    (hx : Action.WorldMirrors κ.surroundings Value.Mirrors ρ x x') :
    Agreeing κ ρ (s.answerResult e x) (s'.answerResult e' x') := by
  have hout := hx.run le_rfl h.world
  unfold Session.answerResult
  generalize x s.world = out, x' s'.world = out' at hout
  cases hout with
  | done hle hv hw => exact ((h.withWorld hle hw).answerValue (he.mono hle) hv).of_le hle
  | failed hle error hw => exact ⟨_, hle, rfl, h.withWorld hle hw⟩
  | unfinished w w' => exact h.agree _

end Mirrors

end ScriptEngine.Session
