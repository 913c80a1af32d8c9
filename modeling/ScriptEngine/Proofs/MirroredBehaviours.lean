import ScriptEngine.Proofs.MirroredBinding
import ScriptEngine.Session.Build
import ScriptEngine.Session.Symbols

/-!
# Mirrored behaviours

The code that a session brings along sees memories and values, and nothing of their numbers, nor of
the order in which an object lists its properties.  The functions that it can put into its classes do
the same on both sides (`Session.Behaviour.mirrors_body`): a property that is set or removed is named
by a text, and the counter of a function is its own.  A closure may do whatever a host can program, as
long as it is uniform itself (`Session.Behaviour.IsUniform`).  The symbols that a session links in are
uniform as well (`Session.isUniform_allLinked`); they count on the one counter that is the same in all
worlds.
-/

namespace ScriptEngine

variable {Γ : Surroundings} {ρ ρ' : Renaming}

/-! ### Functions of classes -/

namespace Session

/-- What two functions have been given mirrors each other.  The counter of a function is not the one
that all worlds share. -/
structure Captures.Mirrors (ρ : Renaming) (x x' : Captures) : Prop where
  interner : x.interner = ρ.own
  interner' : x'.interner = ρ.shared
  counter : x.counter.Mirrors ρ x'.counter
  counter_ne : x'.counter ≠ ρ.clock
  values : Values.Mirrors ρ x.values x'.values
  scripts : Stmts.Mirrors ρ x.scripts x'.scripts

lemma Captures.Mirrors.mono {x x' : Captures} (h : x.Mirrors ρ x') (hle : ρ ≤ ρ') :
    x.Mirrors ρ' x' where
  interner := h.interner.trans hle.1.1.symm
  interner' := h.interner'.trans hle.1.2.1.symm
  counter := h.counter.mono hle
  counter_ne := hle.1.2.2.symm ▸ h.counter_ne
  values := h.values.mono hle
  scripts := Stmts.Mirrors.mono hle h.scripts

namespace Behaviour

/-- A function of this behaviour sees nothing of numbers, nor of the order in which an object lists
its properties: it does the same on both sides, whenever what it captures mirrors each other. -/
def IsUniform : Behaviour → Prop
  | closure _ _ run => ∀ (ρ : Renaming) (x x' : Captures), x.Mirrors ρ x' →
    Host.Function.Mirrors ρ (run x) (run x')
  | _ => True

open Host.Program

variable {m m' : Memory} (hm : m.Mirrors Γ ρ m') {args args' : List Value}
  (hargs : Values.Mirrors ρ args args') {x x' : Captures} (hx : x.Mirrors ρ x')

include hargs

lemma sum_eq (x : Float) :
    args'.foldl (fun total v => total + v.toNumber) x =
      args.foldl (fun total v => total + v.toNumber) x := by
  induction hargs generalizing x with
  | nil => rfl
  | cons hv _ ih => rw [List.foldl_cons, List.foldl_cons, hv.toNumber, ih]

include hm

lemma mirrors_argumentItems (i : ℕ) :
    Values.Mirrors ρ (argumentItems args i m) (argumentItems args' i m') := by
  have harg := hargs.getD i
  unfold argumentItems argument
  generalize args[i]?.getD .undefined = v, args'[i]?.getD .undefined = v' at harg
  cases harg with
  | array ha => exact hm.items ha
  | _ => exact .nil

/-- Appending to an array gives its new length. -/
lemma mirrors_push (x x' : Captures) :
    Mirrors Γ ρ m m' (push.body x args) (push.body x' args') := by
  cases hargs with
  | nil => exact .succeed .undefined
  | cons hv hrest =>
    cases hv with
    | array ha =>
      have hm' := hm.appendItems ha hrest
      refine .write (.refl _) hm' (.read ?_)
      rw [hm'.size_items ha]
      exact .succeed (.number _)
    | _ => exact .succeed .undefined

include hx

/-- A property is set under the name of a text. -/
lemma mirrors_setProperty :
    Mirrors Γ ρ m m' (setProperty.body x args) (setProperty.body x' args') := by
  cases hargs with
  | nil => exact .succeed .undefined
  | cons ho hrest =>
  cases ho with
  | object ho =>
    cases hrest with
    | nil => exact .succeed .undefined
    | cons hkey hrest =>
    cases hrest with
    | nil => exact .succeed .undefined
    | cons hv hrest =>
    cases hrest with
    | cons _ _ => exact .succeed .undefined
    | nil =>
      refine .display hkey fun text => ?_
      obtain ⟨ρ₁, hgrows, hn, hm₁⟩ := hm.intern text
      rw [← hx.interner, ← hx.interner'] at hn hm₁
      have hv := hv.mono hgrows.le
      exact .write hgrows (hm₁.modifyProperties (ho.mono hgrows.le) fun _ _ hbag =>
        hbag.insert hn hv) (.succeed hv)
  | _ => exact .succeed .undefined

/-- A property is removed under the name of a text. -/
lemma mirrors_removeProperty :
    Mirrors Γ ρ m m' (removeProperty.body x args) (removeProperty.body x' args') := by
  cases hargs with
  | nil => exact .succeed .undefined
  | cons ho hrest =>
  cases ho with
  | object ho =>
    cases hrest with
    | nil => exact .succeed .undefined
    | cons hkey hrest =>
    cases hrest with
    | cons _ _ => exact .succeed .undefined
    | nil =>
      refine .display hkey fun text => .read ?_
      obtain ⟨ρ₁, hgrows, hn, hm₁⟩ := hm.intern text
      rw [← hx.interner, ← hx.interner'] at hn hm₁
      have hbag := (hm.properties ho).mono hgrows.le
      exact .write hgrows (hm₁.modifyProperties (ho.mono hgrows.le) fun _ _ hbag => hbag.erase hn)
        (.succeed (hbag.read hn))
  | _ => exact .succeed .undefined

omit hm hargs in
/-- What the functions of a session do, they do on both sides. -/
theorem mirrors_body {b : Behaviour} (hb : b.IsUniform) :
    Host.Function.Mirrors ρ (b.body x) (b.body x') := by
  cases b with
  | undefined => exact ⟨fun _ _ _ => .succeed .undefined⟩
  | sum =>
    refine ⟨fun _ _ hargs => ?_⟩
    unfold body
    rw [sum_eq hargs]
    exact .succeed (.number _)
  | list =>
    refine ⟨fun _ hm hargs => ?_⟩
    obtain ⟨ρ₂, hgrows, hv, hm₂⟩ := hm.newArray hargs
    exact .allocate hgrows hm₂ (.succeed hv)
  | first => exact ⟨fun _ _ hargs => .succeed (hargs.getD 0)⟩
  | fail | custom => exact ⟨fun _ _ hargs => .displayAll hargs fun _ => .fail _⟩
  | locatedFail => exact ⟨fun _ _ _ => .fail _⟩
  | count =>
    refine ⟨fun hle hm _ => ?_⟩
    have hx := hx.mono hle
    have hm₁ := hm.count hx.counter
    refine .write (.refl _) hm₁ (.read ?_)
    rw [hm₁.counter hx.counter hx.counter_ne]
    exact .succeed (.number _)
  | push => exact ⟨fun _ hm hargs => mirrors_push hm hargs _ _⟩
  | setProperty => exact ⟨fun hle hm hargs => mirrors_setProperty hm hargs (hx.mono hle)⟩
  | removeProperty => exact ⟨fun hle hm hargs => mirrors_removeProperty hm hargs (hx.mono hle)⟩
  | callFunction =>
    exact ⟨fun _ hm hargs => .display (hargs.getD 0) fun name => .read <|
      .callFunction name (mirrors_argumentItems hm hargs 1) fun _ _ hresult => .finish hresult⟩
  | invokeCallback =>
    exact ⟨fun _ hm hargs => .display (hargs.getD 0) fun name => .read <|
      .invokeCallback name (mirrors_argumentItems hm hargs 1) fun _ _ hresult => .finish hresult⟩
  | frame =>
    refine ⟨fun _ _ hargs => .display (hargs.getD 0) fun name => .inspectFrame name fun hview => ?_⟩
    cases hview with
    | none => exact .succeed .undefined
    | some hframe =>
      dsimp only [frameText, CallFrame.isActive, CallFrame.activeCallText]
      rw [hframe.depth, hframe.activeCall]
      exact .succeed (.string _)
  | closure _ _ run => exact hb ρ x x' hx

end Behaviour

end Session

/-! ### Symbols -/

namespace Session

lemma mirrors_append {m m' : Memory} (hm : m.Mirrors Γ ρ m') {v v' : Value} (hv : v.Mirrors ρ v')
    {vs vs' : List Value} (hvs : Values.Mirrors ρ vs vs') :
    (append v vs m).Mirrors Γ ρ (append v' vs' m') := by
  cases hv with
  | array ha => exact hm.appendItems ha hvs
  | _ => exact hm

lemma mirrors_storeAt {m m' : Memory} (hm : m.Mirrors Γ ρ m') {v v' i i' u u' : Value}
    (hv : v.Mirrors ρ v') (hi : i.Mirrors ρ i') (hu : u.Mirrors ρ u') :
    (storeAt v i u m).Mirrors Γ ρ (storeAt v' i' u' m') := by
  cases hv with
  | array ha =>
    have hindex : i'.toInt32 = i.toInt32 := congrArg Number.toInt32 hi.toNumber
    unfold storeAt
    dsimp only
    rw [hindex]
    by_cases hpos : 0 ≤ i.toInt32.toInt
    · rw [if_pos hpos, if_pos hpos]
      refine hm.modifyItems ha fun xs xs' hxs => ?_
      rw [Array.toList_setIfInBounds, Array.toList_setIfInBounds]
      exact hxs.set _ hu
    · rw [if_neg hpos, if_neg hpos]
      exact hm
  | _ => exact hm

/-- The symbols do the same on both sides. -/
lemma isUniform_symbols (ticks : Id .counter) :
    ∀ entry ∈ symbols ticks, entry.2.IsUniform ticks := by
  intro entry hentry
  simp only [symbols, List.mem_cons, List.not_mem_nil, or_false] at hentry
  rcases hentry with rfl | rfl | rfl | rfl | rfl | rfl
  · refine ⟨fun hclock hm _ => ⟨_, .refl _, hm.count ?_⟩⟩
    exact hclock ▸ hm.clock
  · refine ⟨fun _ hm hslots => ⟨_, .refl _, ?_⟩⟩
    cases hslots with
    | nil => exact hm
    | cons hv _ => exact mirrors_append hm hv (.cons (.number _) .nil)
  · refine ⟨fun _ hm hslots => ⟨_, .refl _, ?_⟩⟩
    cases hslots <;> exact hm
  · refine ⟨fun _ hm hslots => ⟨_, .refl _, ?_⟩⟩
    have hsame (slots : List Value) (m : Memory) : (accumulate slots m).2 = m := by
      unfold accumulate
      split <;> rfl
    rw [hsame, hsame]
    exact hm
  · refine ⟨fun _ hm hslots => ⟨_, .refl _, ?_⟩⟩
    cases hslots with
    | nil => exact hm
    | cons hv hslots =>
    cases hslots with
    | nil => exact hm
    | cons hi hslots =>
    cases hslots with
    | nil => exact hm
    | cons hu _ => exact mirrors_storeAt hm hv hi hu
  · refine ⟨fun _ hm hslots => ⟨_, .refl _, ?_⟩⟩
    cases hslots with
    | nil => exact hm
    | cons hv hrest => exact mirrors_append hm hv hrest

/-- What is found under a name is in the list. -/
lemma mem_of_lookup {α : Type} {entries : List (String × α)} {name : String} {a : α}
    (h : entries.lookup name = some a) : (name, a) ∈ entries := by
  obtain ⟨before, after, rfl, -⟩ := List.lookup_eq_some_iff.1 h
  exact List.mem_append_right before List.mem_cons_self

/-- What is linked in are symbols. -/
lemma mem_symbols_of_mem_linked (ticks : Id .counter) (names : List String) :
    ∀ entry ∈ (linked ticks names).entries, entry ∈ symbols ticks := by
  refine List.foldlRecOn (motive := fun table : SymbolTable =>
    ∀ entry ∈ table.entries, entry ∈ symbols ticks) names _ ?_ fun table htable name _ => ?_
  · exact fun _ hmem => absurd hmem List.not_mem_nil
  · split
    · rename_i code hcode
      intro entry hentry
      rcases List.mem_cons.1 hentry with rfl | hold
      · exact mem_of_lookup hcode
      · exact htable entry (List.mem_of_mem_filter hold)
    · exact htable

/-- The compiler of a session makes uniform code only. -/
theorem isUniform_allLinked (ticks : Id .counter) :
    (SnippetCompiler.table (allLinked ticks)).IsUniform ticks := by
  intro symbol code hcode
  unfold SnippetCompiler.compile at hcode
  dsimp only at hcode
  split at hcode
  · rename_i found hfound
    obtain rfl := Except.ok.inj hcode
    exact isUniform_symbols ticks _ (mem_symbols_of_mem_linked ticks _ _ (mem_of_lookup hfound))
  · exact nomatch hcode

end Session

end ScriptEngine
