import ScriptEngine.Proofs.History

/-!
# Evaluations without a bound

An evaluation ends within some bound, and then in the same way within every larger one, or it never
ends.  A `Process` is an evaluation for all bounds at once.  It *gives* the outcome with which it
ends; so it gives one outcome at most, and none if it never ends.

Two processes are the same from a state if they give the same outcome from there; then one of them
never ends exactly if the other one never does.

Processes are put together like actions, and what they give is said by what their parts give.  Two
loops are the same if their rounds are, as long as they go round.

Main statements: `Process.gives_bind` and `Process.SameFrom.repeatedly`.
-/

namespace ScriptEngine

variable {σ α β γ : Type}

/-- Claiming an error for the same node again makes no difference. -/
lemma EvalError.locate_locate (e : EvalError) (l : Location) :
    (e.locate l).locate l = e.locate l := by
  unfold EvalError.locate
  by_cases hl : l.isKnown
  · rw [if_pos hl, if_pos hl]
    unfold withLocation
    cases e.location <;> rfl
  · rw [if_neg hl, if_neg hl]

/-- The errors of an outcome are claimed for a node at `l`. -/
def Outcome.locate (l : Location) : Outcome σ α → Outcome σ α
  | done a s => done a s
  | failed e s => failed (e.locate l) s
  | unfinished s => unfinished s

namespace Outcome

@[simp] lemma locate_done (l : Location) (a : α) (s : σ) :
    (done a s).locate l = done a s := rfl

@[simp] lemma locate_failed (l : Location) (e : EvalError) (s : σ) :
    (failed e s : Outcome σ α).locate l = failed (e.locate l) s := rfl

/-- A node without a place in the script claims nothing. -/
@[simp] lemma locate_unknown (o : Outcome σ α) : o.locate .unknown = o := by
  cases o <;> rfl

/-- Claiming errors makes no difference to whether there is an end. -/
lemma finished_locate {l : Location} {o : Outcome σ α} : (o.locate l).Finished ↔ o.Finished := by
  cases o with
  | done a s => exact ⟨fun _ => .done a s, fun _ => .done a s⟩
  | failed e s => exact ⟨fun _ => .failed e s, fun _ => .failed _ s⟩
  | @diverged s => exact ⟨fun h => absurd h (not_finished s), fun h => absurd h (not_finished s)⟩

/-- What is left of the state makes no difference to whether there is an end. -/
lemma finished_mapState {τ : Type} {p : σ → τ} {o : Outcome σ α} :
    (o.mapState p).Finished ↔ o.Finished := by
  cases o with
  | done a s => exact ⟨fun _ => .done a s, fun _ => .done a (p s)⟩
  | failed e s => exact ⟨fun _ => .failed e s, fun _ => .failed e (p s)⟩
  | @diverged s => exact ⟨fun h => absurd h (not_finished _), fun h => absurd h (not_finished s)⟩

end Outcome

/-- An action claims the errors of its outcome. -/
lemma Action.locate_apply (l : Location) (x : Action σ α) (s : σ) :
    x.locate l s = (x s).locate l := by
  unfold Action.locate Action.mapError
  cases x s <;> rfl

/-- An evaluation for all bounds: within a larger bound it ends as within a smaller one. -/
@[ext] structure Process (σ α : Type) where
  within : ℕ → Action σ α
  ascends : ∀ {bound bound' : ℕ} {s : σ}, bound ≤ bound' → (within bound s).Finished →
    within bound' s = within bound s

namespace Process

/-- The process ends with an outcome. -/
def Gives (p : Process σ α) (s : σ) (o : Outcome σ α) : Prop :=
  o.Finished ∧ ∃ bound, p.within bound s = o

/-- From a state, two processes end in the same way, or neither of them ends. -/
def SameFrom (p q : Process σ α) (s : σ) : Prop :=
  ∀ o, p.Gives s o ↔ q.Gives s o

section

variable {p q r : Process σ α} {s : σ} {o o' : Outcome σ α}

/-- What ends within a bound gives its outcome. -/
lemma gives_of_within {bound : ℕ} (h : (p.within bound s).Finished) :
    p.Gives s (p.within bound s) :=
  ⟨h, bound, rfl⟩

/-- What a process gives, it ends with within all large bounds. -/
lemma Gives.exists_bound (h : p.Gives s o) :
    ∃ bound, ∀ bound', bound ≤ bound' → p.within bound' s = o := by
  obtain ⟨ho, bound, rfl⟩ := h
  exact ⟨bound, fun bound' hle => p.ascends hle ho⟩

/-- A process gives one outcome at most. -/
lemma Gives.unique (h : p.Gives s o) (h' : p.Gives s o') : o = o' := by
  obtain ⟨bound, hbound⟩ := h.exists_bound
  obtain ⟨bound', hbound'⟩ := h'.exists_bound
  rw [← hbound _ (Nat.le_max_left bound bound'), ← hbound' _ (Nat.le_max_right bound bound')]

namespace SameFrom

lemma refl (p : Process σ α) (s : σ) : p.SameFrom p s := fun _ => Iff.rfl

lemma symm (h : p.SameFrom q s) : q.SameFrom p s := fun o => (h o).symm

lemma trans (h : p.SameFrom q s) (h' : q.SameFrom r s) : p.SameFrom r s :=
  fun o => (h o).trans (h' o)

/-- Two processes are the same if one does within each bound what the other one does within bounds
that are larger or smaller by as much as one likes. -/
lemma of_shift {i j : ℕ} (h : ∀ bound, p.within (bound + i) s = q.within (bound + j) s) :
    p.SameFrom q s := by
  refine fun o => ⟨fun hp => ?_, fun hq => ?_⟩
  · obtain ⟨bound, hbound⟩ := hp.exists_bound
    exact ⟨hp.1, bound + j, by rw [← h, hbound _ (Nat.le_add_right bound i)]⟩
  · obtain ⟨bound, hbound⟩ := hq.exists_bound
    exact ⟨hq.1, bound + i, by rw [h, hbound _ (Nat.le_add_right bound j)]⟩

end SameFrom

end

/-! ### Single actions -/

/-- An action that needs no bound. -/
def lift (x : Action σ α) : Process σ α where
  within _ := x
  ascends _ _ := rfl

/-- An action gives its outcome, if it ends. -/
lemma gives_lift {x : Action σ α} {s : σ} {o : Outcome σ α} :
    (lift x).Gives s o ↔ o.Finished ∧ x s = o :=
  ⟨fun ⟨ho, _, h⟩ => ⟨ho, h⟩, fun ⟨ho, h⟩ => ⟨ho, 0, h⟩⟩

/-- An action that is partial gives what there is, and changes nothing. -/
lemma gives_lift_ofOption {x : Action σ α} {a? : Option α} {s : σ} {o : Outcome σ α}
    (hx : x s = Action.ofOption a? s) : (lift x).Gives s o ↔ ∃ a, a? = some a ∧ o = .done a s := by
  rw [gives_lift, hx]
  cases a? with
  | none =>
    refine ⟨fun ⟨hfinished, ho⟩ => ?_, fun ⟨_, ha, _⟩ => nomatch ha⟩
    exact absurd (ho ▸ hfinished : (Outcome.unfinished s).Finished) (Outcome.not_finished s)
  | some a =>
    constructor
    · rintro ⟨-, rfl⟩
      exact ⟨a, rfl, rfl⟩
    · rintro ⟨a', ha, rfl⟩
      obtain rfl := Option.some.inj ha
      exact ⟨.done a s, rfl⟩

/-! ### One process after another -/

instance : Monad (Process σ) where
  pure a := lift (pure a)
  bind p f :=
    { within := fun bound => p.within bound >>= fun a => (f a).within bound
      ascends := by
        intro bound bound' s hle hfinished
        rw [Action.bind_apply] at hfinished ⊢
        rw [Action.bind_apply]
        cases hp : p.within bound s with
        | done a t =>
          rw [hp] at hfinished
          rw [p.ascends hle (hp ▸ .done a t), hp]
          exact (f a).ascends hle hfinished
        | failed e t => rw [p.ascends hle (hp ▸ .failed e t), hp]
        | @diverged t =>
          rw [hp] at hfinished
          exact absurd hfinished (Outcome.not_finished t) }

/-- A value that is there already. -/
@[simp] lemma gives_pure {a : α} {s : σ} {o : Outcome σ α} :
    (pure a : Process σ α).Gives s o ↔ o = .done a s :=
  gives_lift.trans ⟨fun h => h.2.symm, fun h => h ▸ ⟨.done a s, rfl⟩⟩

lemma pure_bind (a : α) (f : α → Process σ β) : pure a >>= f = f a :=
  Process.ext rfl

lemma bind_pure (p : Process σ α) : p >>= pure = p :=
  Process.ext (funext fun bound => Action.bind_pure (p.within bound))

lemma bind_assoc (p : Process σ α) (f : α → Process σ β) (g : β → Process σ γ) :
    p >>= f >>= g = p >>= fun a => f a >>= g :=
  Process.ext (funext fun _ => Action.bind_assoc _ _ _)

section

variable {p q : Process σ α} {f g : α → Process σ β} {s : σ} {o : Outcome σ β}

/-- One process after another gives what the second one gives after a value of the first one, or the
error of the first one. -/
theorem gives_bind :
    (p >>= f).Gives s o ↔ (∃ a t, p.Gives s (.done a t) ∧ (f a).Gives t o) ∨
      ∃ e t, p.Gives s (.failed e t) ∧ o = .failed e t := by
  have hwithin : ∀ bound, (p >>= f).within bound s =
      match p.within bound s with
      | .done a t => (f a).within bound t
      | .failed e t => .failed e t
      | .unfinished t => .unfinished t := fun _ => rfl
  constructor
  · rintro ⟨ho, bound, hbound⟩
    rw [hwithin] at hbound
    cases hp : p.within bound s with
    | done a t =>
      rw [hp] at hbound
      exact .inl ⟨a, t, ⟨.done a t, bound, hp⟩, ho, bound, hbound⟩
    | failed e t =>
      rw [hp] at hbound
      exact .inr ⟨e, t, ⟨.failed e t, bound, hp⟩, hbound.symm⟩
    | @diverged t =>
      rw [hp] at hbound
      exact absurd (hbound ▸ ho) (Outcome.not_finished t)
  · rintro (⟨a, t, hp, hf⟩ | ⟨e, t, hp, rfl⟩)
    · obtain ⟨bound, hbound⟩ := hp.exists_bound
      obtain ⟨bound', hbound'⟩ := hf.exists_bound
      refine ⟨hf.1, max bound bound', ?_⟩
      rw [hwithin, hbound _ (Nat.le_max_left bound bound')]
      exact hbound' _ (Nat.le_max_right bound bound')
    · obtain ⟨-, bound, hbound⟩ := hp
      exact ⟨.failed e t, bound, by rw [hwithin, hbound]⟩

/-- What comes after a value that is given. -/
lemma gives_bind_of_done {a : α} {t : σ} (hp : p.Gives s (.done a t)) :
    (p >>= f).Gives s o ↔ (f a).Gives t o := by
  rw [gives_bind]
  constructor
  · rintro (⟨b, u, hp', hf⟩ | ⟨e, u, hp', -⟩)
    · obtain ⟨rfl, rfl⟩ := Outcome.done.inj (hp.unique hp')
      exact hf
    · cases hp.unique hp'
  · exact fun hf => .inl ⟨a, t, hp, hf⟩

/-- Nothing comes after an error that is given. -/
lemma gives_bind_of_failed {e : EvalError} {t : σ} (hp : p.Gives s (.failed e t)) :
    (p >>= f).Gives s o ↔ o = .failed e t := by
  rw [gives_bind]
  constructor
  · rintro (⟨b, u, hp', -⟩ | ⟨e', u, hp', rfl⟩)
    · cases hp.unique hp'
    · obtain ⟨rfl, rfl⟩ := Outcome.failed.inj (hp.unique hp')
      rfl
  · exact fun ho => .inr ⟨e, t, hp, ho⟩

/-- Processes that are the same may be exchanged, and so may those that follow after a value. -/
lemma SameFrom.bind (h : p.SameFrom q s)
    (hf : ∀ a t, p.Gives s (.done a t) → (f a).SameFrom (g a) t) :
    (p >>= f).SameFrom (q >>= g) s := by
  intro o
  rw [gives_bind, gives_bind]
  refine or_congr (exists_congr fun a => exists_congr fun t => ?_)
    (exists_congr fun e => exists_congr fun t => and_congr_left fun _ => h _)
  exact ⟨fun ⟨hp, hfo⟩ => ⟨(h _).1 hp, (hf a t hp o).1 hfo⟩,
    fun ⟨hq, hgo⟩ => ⟨(h _).2 hq, (hf a t ((h _).2 hq) o).2 hgo⟩⟩

end

/-! ### Nodes and bodies -/

/-- The errors of a process are claimed for a node at `l`. -/
def locate (l : Location) (p : Process σ α) : Process σ α where
  within bound := (p.within bound).locate l
  ascends := by
    intro bound bound' s hle hfinished
    rw [Action.locate_apply, Outcome.finished_locate] at hfinished
    rw [Action.locate_apply, Action.locate_apply, p.ascends hle hfinished]

/-- A node claims the error of what it gives. -/
lemma gives_locate {l : Location} {p : Process σ α} {s : σ} {o : Outcome σ α} :
    (p.locate l).Gives s o ↔ ∃ o', p.Gives s o' ∧ o = o'.locate l := by
  constructor
  · rintro ⟨ho, bound, hbound⟩
    have hlocate : (p.within bound s).locate l = o := by
      rw [← Action.locate_apply]
      exact hbound
    exact ⟨_, gives_of_within (Outcome.finished_locate.1 (hlocate ▸ ho)), hlocate.symm⟩
  · rintro ⟨o', ⟨ho', bound, rfl⟩, rfl⟩
    exact ⟨Outcome.finished_locate.2 ho', bound, Action.locate_apply l _ s⟩

/-- A node without a place in the script makes no difference. -/
lemma locate_unknown (p : Process σ α) : p.locate .unknown = p :=
  Process.ext (funext fun bound => funext fun s => by
    change Action.locate _ (p.within bound) s = _
    rw [Action.locate_apply, Outcome.locate_unknown])

/-- A node makes no difference either if all errors are claimed for it already. -/
lemma sameFrom_locate {l : Location} {p : Process σ α} {s : σ}
    (h : ∀ o, p.Gives s o → o.locate l = o) : (p.locate l).SameFrom p s := by
  intro o
  rw [gives_locate]
  constructor
  · rintro ⟨o', ho', rfl⟩
    rwa [h o' ho']
  · exact fun ho => ⟨o, ho, (h o ho).symm⟩

/-- Processes that are the same may be exchanged in a node. -/
lemma SameFrom.locate {p q : Process σ α} {s : σ} (h : p.SameFrom q s) (l : Location) :
    (p.locate l).SameFrom (q.locate l) s := by
  intro o
  rw [gives_locate, gives_locate]
  exact exists_congr fun o' => and_congr_left fun _ => h o'

/-- A process on the machine, in a body. -/
def inBody (p : Process σ α) : Process (Activation σ) α where
  within bound := Activation.within (p.within bound)
  ascends := by
    rintro bound bound' ⟨s, v⟩ hle hfinished
    rw [Activation.within_apply, Outcome.finished_mapState] at hfinished
    rw [Activation.within_apply, Activation.within_apply, p.ascends hle hfinished]

/-- A process on the machine leaves the value to return as it is. -/
lemma gives_inBody {p : Process σ α} {a : Activation σ} {o : Outcome (Activation σ) α} :
    p.inBody.Gives a o ↔ ∃ o', p.Gives a.state o' ∧ o = o'.mapState (⟨·, a.returned⟩) := by
  constructor
  · rintro ⟨ho, bound, hbound⟩
    have hmap : (p.within bound a.state).mapState (⟨·, a.returned⟩) = o := by
      rw [← Activation.within_apply]
      exact hbound
    exact ⟨_, gives_of_within (Outcome.finished_mapState.1 (hmap ▸ ho)), hmap.symm⟩
  · rintro ⟨o', ⟨ho', bound, rfl⟩, rfl⟩
    exact ⟨Outcome.finished_mapState.2 ho', bound, Activation.within_apply _ a.state a.returned⟩

/-- Processes that are the same may be exchanged in a body. -/
lemma SameFrom.inBody {p q : Process σ α} {a : Activation σ} (h : p.SameFrom q a.state) :
    p.inBody.SameFrom q.inBody a := by
  intro o
  rw [gives_inBody, gives_inBody]
  exact exists_congr fun o' => and_congr_left fun _ => h o'

lemma inBody_pure (v : α) : (pure v : Process σ α).inBody = pure v :=
  rfl

/-! ### Loops -/

/-- A loop that ends within some rounds ends in the same way within more rounds and a larger
bound. -/
lemma repeatUpTo_ascends (p : Process σ (Option α)) {bound bound' : ℕ} (hle : bound ≤ bound')
    {rounds rounds' : ℕ} (hrounds : rounds ≤ rounds') {s : σ}
    (hfinished : (Action.repeatUpTo rounds (p.within bound) s).Finished) :
    Action.repeatUpTo rounds' (p.within bound') s =
      Action.repeatUpTo rounds (p.within bound) s := by
  induction rounds generalizing rounds' s with
  | zero => exact absurd hfinished (Outcome.not_finished s)
  | succ rounds ih =>
    obtain ⟨rounds', rfl⟩ : ∃ k, rounds' = k + 1 := ⟨rounds' - 1, by omega⟩
    simp only [Action.repeatUpTo] at hfinished ⊢
    cases hp : p.within bound s with
    | done result t =>
      rw [hp] at hfinished
      rw [p.ascends hle (hp ▸ .done result t), hp]
      cases result with
      | none => exact ih (Nat.le_of_succ_le_succ hrounds) hfinished
      | some a => rfl
    | failed e t => rw [p.ascends hle (hp ▸ .failed e t), hp]
    | @diverged t =>
      rw [hp] at hfinished
      exact absurd hfinished (Outcome.not_finished t)

/-- Go round and round until there is a result. -/
def repeatedly (p : Process σ (Option α)) : Process σ α where
  within bound := Action.repeatUpTo bound (p.within bound)
  ascends hle hfinished := p.repeatUpTo_ascends hle hle hfinished

/-- What follows a round of a loop: the result, or the loop again. -/
def goOn (p : Process σ (Option α)) : Option α → Process σ α
  | some a => pure a
  | none => p.repeatedly

/-- A loop goes round once, and then it has a result or is a loop again. -/
theorem repeatedly_unroll (p : Process σ (Option α)) (s : σ) :
    p.repeatedly.SameFrom (p >>= p.goOn) s := by
  intro o
  rw [gives_bind]
  constructor
  · rintro ⟨ho, bound, hbound⟩
    cases bound with
    | zero => exact absurd (hbound ▸ ho) (Outcome.not_finished s)
    | succ bound =>
      change Action.repeatUpTo (bound + 1) (p.within (bound + 1)) s = o at hbound
      simp only [Action.repeatUpTo] at hbound
      cases hp : p.within (bound + 1) s with
      | done result t =>
        rw [hp] at hbound
        refine .inl ⟨result, t, ⟨.done result t, _, hp⟩, ?_⟩
        cases result with
        | some a => exact gives_pure.2 hbound.symm
        | none =>
          have hrest : Action.repeatUpTo bound (p.within (bound + 1)) t = o := hbound
          refine ⟨ho, bound + 1, Eq.trans ?_ hrest⟩
          exact p.repeatUpTo_ascends (Nat.le_refl _) (Nat.le_succ bound) (by rw [hrest]; exact ho)
      | failed e t =>
        rw [hp] at hbound
        exact .inr ⟨e, t, ⟨.failed e t, _, hp⟩, hbound.symm⟩
      | @diverged t =>
        rw [hp] at hbound
        exact absurd (hbound ▸ ho) (Outcome.not_finished t)
  · rintro (⟨result, t, hp, hrest⟩ | ⟨e, t, hp, rfl⟩)
    · obtain ⟨bound, hbound⟩ := hp.exists_bound
      obtain ⟨bound', hbound'⟩ := hrest.exists_bound
      refine ⟨hrest.1, max bound bound' + 1, ?_⟩
      change Action.repeatUpTo _ (p.within _) s = o
      simp only [Action.repeatUpTo, hbound (max bound bound' + 1) (by omega)]
      have hlast := hbound' (max bound bound') (Nat.le_max_right _ _)
      cases result with
      | some a => exact hlast
      | none =>
        have hrounds : Action.repeatUpTo (max bound bound') (p.within (max bound bound')) t = o :=
          hlast
        refine Eq.trans ?_ hrounds
        exact p.repeatUpTo_ascends (Nat.le_succ _) (Nat.le_refl _) (by rw [hrounds]; exact hrest.1)
    · obtain ⟨bound, hbound⟩ := hp.exists_bound
      refine ⟨.failed e t, bound + 1, ?_⟩
      change Action.repeatUpTo _ (p.within _) s = _
      simp only [Action.repeatUpTo, hbound (bound + 1) (Nat.le_succ bound)]

section

variable {p q : Process σ (Option α)} {I : σ → Prop}

/-- One half of `SameFrom.repeatedly`, by induction on the rounds. -/
private lemma gives_repeatedly_of_same
    (hkeeps : ∀ s t, I s → p.Gives s (.done none t) → I t) (hsame : ∀ s, I s → p.SameFrom q s)
    {s : σ} (hs : I s) {o : Outcome σ α} (ho : p.repeatedly.Gives s o) :
    q.repeatedly.Gives s o := by
  obtain ⟨hfinished, bound, hbound⟩ := ho
  have hrounds : ∀ rounds s, I s → Action.repeatUpTo rounds (p.within bound) s = o →
      q.repeatedly.Gives s o := by
    intro rounds
    induction rounds with
    | zero =>
      intro s _ h
      exact absurd (h ▸ hfinished) (Outcome.not_finished s)
    | succ rounds ih =>
      intro s hs h
      rw [q.repeatedly_unroll s o]
      simp only [Action.repeatUpTo] at h
      cases hp : p.within bound s with
      | done result t =>
        rw [hp] at h
        have hround : p.Gives s (.done result t) := ⟨.done result t, bound, hp⟩
        rw [gives_bind_of_done ((hsame s hs _).1 hround)]
        cases result with
        | some a => exact gives_pure.2 h.symm
        | none => exact ih t (hkeeps s t hs hround) h
      | failed e t =>
        rw [hp] at h
        have hround : p.Gives s (.failed e t) := ⟨.failed e t, bound, hp⟩
        exact (gives_bind_of_failed ((hsame s hs _).1 hround)).2 h.symm
      | @diverged t =>
        rw [hp] at h
        exact absurd (h ▸ hfinished) (Outcome.not_finished t)
  exact hrounds bound s hs hbound

/-- Two loops are the same if their rounds are, from all states that satisfy an invariant of the
rounds that go on. -/
theorem SameFrom.repeatedly (hkeeps : ∀ s t, I s → p.Gives s (.done none t) → I t)
    (hsame : ∀ s, I s → p.SameFrom q s) {s : σ} (hs : I s) :
    p.repeatedly.SameFrom q.repeatedly s := by
  refine fun o => ⟨gives_repeatedly_of_same hkeeps hsame hs, ?_⟩
  exact gives_repeatedly_of_same (fun s t hs hq => hkeeps s t hs ((hsame s hs _).2 hq))
    (fun s hs => (hsame s hs).symm) hs

end

end Process

end ScriptEngine
