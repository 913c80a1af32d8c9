import Mathlib.Logic.Function.Iterate
import ScriptEngine.Proofs.Growth
import ScriptEngine.Proofs.MirroredWorlds
import ScriptEngine.Proofs.Release

/-!
# Worlds that are shared

A world may hold what two other worlds hold, side by side, and nothing else; the names of both are
then names of one interner, and only the counter that is the same in all worlds is common to both
(`World.Joins`).  Each of the two worlds is mirrored, and what the other one has is foreign to it.

If one of the two goes on together with the shared world, the other one is still mirrored.  What
holds a function in the shared world holds it in one of the two worlds, and conversely; so a release
of what nothing holds releases the same functions and callbacks in the shared world as in the two
worlds.

Main statements: `World.Joins.advance` and `World.Joins.settle`.
-/

namespace ScriptEngine

variable {ρ ρ' σ : Renaming}

/-! ### Going on -/

namespace Pool.Mirrors

variable {kind : Kind} {α : Type} {foreign : Id kind → Prop} {base : Pool kind α}
  {R : Id kind → α → α → Prop} {p p' : Pool kind α}

/-- What is foreign is as it is. -/
lemma rebase (h : p.Mirrors ρ foreign base R p') : p.Mirrors ρ foreign p' R p' :=
  { h with kept := fun hforeign => ⟨(h.kept hforeign).1, rfl⟩ }

variable {foreign' theirs : Id kind → Prop} {q r r' : Pool kind α} {Q : Id kind → α → α → Prop}

/-- While one pool goes on, another one stays mirrored.  The two may have something in common. -/
lemma beside_of (h : q.Mirrors σ foreign base R r) (h' : p.Mirrors ρ theirs r Q r')
    (hforeign : ∀ i, foreign' i → i ∈ ρ.ids kind) (htheirs : ∀ i, theirs i → i ∈ σ.ids kind)
    (hnew : ∀ i ∈ ρ.ids kind, i ∈ σ.ids kind ∨ foreign' i)
    (hold : ∀ i ∈ σ.ids kind, theirs i ∨ i ∈ ρ.ids kind ∧ ¬foreign' i)
    (hcommon : ∀ {i i'}, i.Mirrors σ i' → ¬theirs i' → Option.Rel (R i') (q.get? i) (r'.get? i')) :
    q.Mirrors σ foreign' r' R r' where
  size := h.size
  apart i hi := by
    rcases hold i hi with hother | ⟨hown, hnot⟩
    · exact ⟨(h'.kept hother).1, fun hmine => (h'.apart i (hforeign i hmine)).2 hother⟩
    · exact ⟨(h'.apart i hown).1, hnot⟩
  content {i i'} hi := by
    by_cases hother : theirs i'
    · rw [(h'.kept hother).2]
      exact h.content hi
    · exact hcommon hi hother
  kept hmine := ⟨(h'.apart _ (hforeign _ hmine)).1, rfl⟩
  covered hlt := (h'.covered hlt).elim (hnew _) fun hother => .inl (htheirs _ hother)

/-- While one pool goes on, another one stays mirrored. -/
lemma beside (h : q.Mirrors σ foreign base R r) (h' : p.Mirrors ρ (· ∈ σ.ids kind) r Q r') :
    q.Mirrors σ (· ∈ ρ.ids kind) r' R r' :=
  h.beside_of h' (fun _ => id) (fun _ => id) (fun _ => .inr) (fun _ => .inl)
    fun hi hnot => absurd hi.mem hnot

end Pool.Mirrors

/-- The images of a renaming, apart from the counter that is the same in all worlds. -/
def Renaming.Occupies (ρ : Renaming) : (kind : Kind) → Id kind → Prop
  | .counter, c => c ∈ ρ.ids .counter ∧ c ≠ ρ.clock
  | kind, i => i ∈ ρ.ids kind

namespace Memory.Mirrors

variable {Γ : Surroundings} {m m' : Memory} {foreign : (kind : Kind) → Id kind → Prop}
  {base : World}

/-- What is foreign is as it is. -/
lemma rebase (h : m.Mirrors ⟨foreign, base⟩ ρ m') {w : World} (hw : w.memory = m') :
    m.Mirrors ⟨foreign, w⟩ ρ m' := by
  subst hw
  exact { h with
    arrays := h.arrays.rebase
    objects := h.objects.rebase
    printers := h.printers.rebase
    counters := h.counters.rebase
    grows := .refl _ }

/-- While one memory goes on, another one stays mirrored. -/
lemma beside {n r : Memory} (h : n.Mirrors ⟨foreign, base⟩ σ r) {w w' : World} (hw : w.memory = r)
    (h' : m.Mirrors ⟨σ.Occupies, w⟩ ρ m') (hw' : w'.memory = m') (hshared : σ.shared = ρ.shared)
    (hclock : σ.clock = ρ.clock) : n.Mirrors ⟨ρ.Occupies, w'⟩ σ m' := by
  subst hw hw'
  -- the one counter that is common to both is there, and nothing is said about its count
  have hcounters : n.counters.Mirrors σ (ρ.Occupies .counter) w'.memory.counters
      (fun c k k' => c ≠ σ.clock → k = k') w'.memory.counters := by
    refine h.counters.beside_of h'.counters (fun _ => And.left) (fun _ => And.left) (fun i hi => ?_)
      (fun i hi => ?_) fun {i i'} hi hnot => ?_
    · by_cases hi' : i = ρ.clock
      · exact .inl (hi' ▸ hclock ▸ h.clock.mem)
      · exact .inr ⟨hi, hi'⟩
    · by_cases hi' : i = σ.clock
      · have hsame := hi'.trans hclock
        exact .inr ⟨hsame ▸ h'.clock.mem, fun hother => hother.2 hsame⟩
      · exact .inl ⟨hi, hi'⟩
    · obtain rfl : i' = σ.clock := by
        by_contra hi'
        exact hnot ⟨hi.mem, hi'⟩
      obtain rfl := (h.clock.eq_iff hi).1 rfl
      have hthere := optionRel_isSome (h'.counters.content h'.clock)
      rw [h'.clock_isSome, ← hclock] at hthere
      have hhere := h.clock_isSome
      generalize n.counters.get? σ.clock = x, w'.memory.counters.get? σ.clock = x' at hhere hthere
      obtain ⟨k, rfl⟩ := Option.isSome_iff_exists.1 hhere
      obtain ⟨k', rfl⟩ := Option.isSome_iff_exists.1 hthere
      exact .some fun hne => absurd rfl hne
  exact {
    arrays := h.arrays.beside h'.arrays
    objects := h.objects.beside h'.objects
    printers := h.printers.beside h'.printers
    counters := hcounters
    names := h.names.extends_right (fun _ => h.names.knows) (hshared ▸ h'.grows)
    empty := h.empty
    interner := h.interner
    interner' := hshared ▸ h'.interner'
    grows := .refl _
    clock := h.clock
    clock_isSome := h.clock_isSome }

end Memory.Mirrors

namespace World

variable {w₁ w₂ w w₁' w' : World} {foreign : (kind : Kind) → Id kind → Prop} {base : World}

/-- What is foreign is as it is. -/
lemma Mirrors.rebase (h : w₁.Mirrors ⟨foreign, base⟩ ρ w) : w₁.Mirrors ⟨foreign, w⟩ ρ w where
  memory := h.memory.rebase rfl
  natives := h.natives.rebase
  functions := h.functions.rebase
  callbacks := h.callbacks.rebase
  engines := h.engines.rebase
  objectCalls := h.objectCalls.rebase
  alive := h.alive

/-- The third world holds what the first two hold, and nothing else. -/
structure Joins (ρ σ : Renaming) (w₁ w₂ w : World) : Prop where
  left : w₁.Mirrors ⟨σ.Occupies, w⟩ ρ w
  right : w₂.Mirrors ⟨ρ.Occupies, w⟩ σ w
  shared : σ.shared = ρ.shared
  clock : σ.clock = ρ.clock

namespace Joins

lemma symm (h : Joins ρ σ w₁ w₂ w) : Joins σ ρ w₂ w₁ w :=
  ⟨h.right, h.left, h.shared.symm, h.clock.symm⟩

/-- While the first world goes on, the second one stays mirrored. -/
theorem advance (h : Joins ρ σ w₁ w₂ w) (hle : ρ ≤ ρ') (h' : w₁'.Mirrors ⟨σ.Occupies, w⟩ ρ' w') :
    Joins ρ' σ w₁' w₂ w' where
  left := h'.rebase
  right := {
    memory := h.right.memory.beside rfl h'.memory rfl (h.shared.trans hle.1.2.1.symm)
      (h.clock.trans hle.1.2.2.symm)
    natives := h.right.natives.beside h'.natives
    functions := h.right.functions.beside h'.functions
    callbacks := h.right.callbacks.beside h'.callbacks
    engines := h.right.engines.beside h'.engines
    objectCalls := h.right.objectCalls.beside h'.objectCalls
    alive := h.right.alive }
  shared := h.shared.trans hle.1.2.1.symm
  clock := h.clock.trans hle.1.2.2.symm

end Joins

end World

/-! ### Lists that are joined -/

/-- All things of each list are related to things of the other one. -/
structure Corresponds {α γ : Type} (R : α → γ → Prop) (as : List α) (cs : List γ) : Prop where
  image : ∀ a ∈ as, ∃ c ∈ cs, R a c
  source : ∀ c ∈ cs, ∃ a ∈ as, R a c

/-- The things of the third list are those that the things of the first two are related to. -/
structure Joined {α β γ : Type} (R : α → γ → Prop) (Q : β → γ → Prop) (as : List α) (bs : List β)
    (cs : List γ) : Prop where
  left : ∀ a ∈ as, ∃ c ∈ cs, R a c
  right : ∀ b ∈ bs, ∃ c ∈ cs, Q b c
  source : ∀ c ∈ cs, (∃ a ∈ as, R a c) ∨ ∃ b ∈ bs, Q b c

namespace Corresponds

variable {α γ : Type} {R : α → γ → Prop}

lemma of_forall₂ {as : List α} {cs : List γ} (h : List.Forall₂ R as cs) : Corresponds R as cs := by
  induction h with
  | nil => exact ⟨nofun, nofun⟩
  | @cons a c as cs hac _ ih =>
    refine ⟨List.forall_mem_cons.2 ⟨⟨c, List.mem_cons_self, hac⟩, fun a ha => ?_⟩,
      List.forall_mem_cons.2 ⟨⟨a, List.mem_cons_self, hac⟩, fun c hc => ?_⟩⟩
    · obtain ⟨c, hc, hac⟩ := ih.image a ha
      exact ⟨c, List.mem_cons_of_mem _ hc, hac⟩
    · obtain ⟨a, ha, hac⟩ := ih.source c hc
      exact ⟨a, List.mem_cons_of_mem _ ha, hac⟩

lemma of_option {o : Option α} {o' : Option γ} (h : Option.Rel R o o') :
    Corresponds R o.toList o'.toList := by
  cases h with
  | none => exact of_forall₂ .nil
  | some hac => exact of_forall₂ (.cons hac .nil)

end Corresponds

namespace Joined

variable {α β γ α' β' γ' : Type} {R : α → γ → Prop} {Q : β → γ → Prop} {S : α' → γ' → Prop}
  {T : β' → γ' → Prop} {as as' : List α} {bs bs' : List β} {cs cs' : List γ}

lemma symm (h : Joined R Q as bs cs) : Joined Q R bs as cs :=
  ⟨h.right, h.left, fun c hc => (h.source c hc).symm⟩

lemma append (h : Joined R Q as bs cs) (h' : Joined R Q as' bs' cs') :
    Joined R Q (as ++ as') (bs ++ bs') (cs ++ cs') where
  left a ha := by
    rcases List.mem_append.1 ha with ha | ha
    · obtain ⟨c, hc, hac⟩ := h.left a ha
      exact ⟨c, List.mem_append_left _ hc, hac⟩
    · obtain ⟨c, hc, hac⟩ := h'.left a ha
      exact ⟨c, List.mem_append_right _ hc, hac⟩
  right b hb := by
    rcases List.mem_append.1 hb with hb | hb
    · obtain ⟨c, hc, hbc⟩ := h.right b hb
      exact ⟨c, List.mem_append_left _ hc, hbc⟩
    · obtain ⟨c, hc, hbc⟩ := h'.right b hb
      exact ⟨c, List.mem_append_right _ hc, hbc⟩
  source c hc := by
    rcases List.mem_append.1 hc with hc | hc
    · refine (h.source c hc).imp ?_ ?_
      · exact fun ⟨a, ha, hac⟩ => ⟨a, List.mem_append_left _ ha, hac⟩
      · exact fun ⟨b, hb, hbc⟩ => ⟨b, List.mem_append_left _ hb, hbc⟩
    · refine (h'.source c hc).imp ?_ ?_
      · exact fun ⟨a, ha, hac⟩ => ⟨a, List.mem_append_right _ ha, hac⟩
      · exact fun ⟨b, hb, hbc⟩ => ⟨b, List.mem_append_right _ hb, hbc⟩

/-- What is got from things that are joined is joined. -/
lemma flatMap (h : Joined R Q as bs cs) {f : α → List α'} {g : β → List β'} {k : γ → List γ'}
    (hf : ∀ a c, R a c → Corresponds S (f a) (k c))
    (hg : ∀ b c, Q b c → Corresponds T (g b) (k c)) :
    Joined S T (as.flatMap f) (bs.flatMap g) (cs.flatMap k) where
  left x hx := by
    obtain ⟨a, ha, hx⟩ := List.mem_flatMap.1 hx
    obtain ⟨c, hc, hac⟩ := h.left a ha
    obtain ⟨z, hz, hxz⟩ := (hf a c hac).image x hx
    exact ⟨z, List.mem_flatMap.2 ⟨c, hc, hz⟩, hxz⟩
  right y hy := by
    obtain ⟨b, hb, hy⟩ := List.mem_flatMap.1 hy
    obtain ⟨c, hc, hbc⟩ := h.right b hb
    obtain ⟨z, hz, hyz⟩ := (hg b c hbc).image y hy
    exact ⟨z, List.mem_flatMap.2 ⟨c, hc, hz⟩, hyz⟩
  source z hz := by
    obtain ⟨c, hc, hz⟩ := List.mem_flatMap.1 hz
    refine (h.source c hc).imp ?_ ?_
    · rintro ⟨a, ha, hac⟩
      obtain ⟨x, hx, hxz⟩ := (hf a c hac).source z hz
      exact ⟨x, List.mem_flatMap.2 ⟨a, ha, hx⟩, hxz⟩
    · rintro ⟨b, hb, hbc⟩
      obtain ⟨y, hy, hyz⟩ := (hg b c hbc).source z hz
      exact ⟨y, List.mem_flatMap.2 ⟨b, hb, hy⟩, hyz⟩

lemma filterMap (h : Joined R Q as bs cs) {f : α → Option α'} {g : β → Option β'}
    {k : γ → Option γ'} (hf : ∀ a c, R a c → Option.Rel S (f a) (k c))
    (hg : ∀ b c, Q b c → Option.Rel T (g b) (k c)) :
    Joined S T (as.filterMap f) (bs.filterMap g) (cs.filterMap k) := by
  rw [List.filterMap_eq_flatMap_toList, List.filterMap_eq_flatMap_toList,
    List.filterMap_eq_flatMap_toList]
  exact h.flatMap (fun a c hac => .of_option (hf a c hac)) fun b c hbc => .of_option (hg b c hbc)

end Joined

/-! ### What is there -/

namespace Pool

variable {kind : Kind} {α : Type}

/-- What is there has a number that was given out. -/
lemma index_lt_of_mem_ids {p : Pool kind α} {i : Id kind} (hi : i ∈ p.ids) : i.index < p.size := by
  obtain ⟨x, hx⟩ := Option.isSome_iff_exists.1 (mem_ids.1 hi)
  exact index_lt_of_get? hx

namespace Mirrors

variable {foreign theirs : Id kind → Prop} {base base' : Pool kind α} {R Q : Id kind → α → α → Prop}
  {p q r : Pool kind α} {i i' : Id kind}

/-- A thing is there if its image is. -/
lemma mem_ids_iff (h : p.Mirrors ρ foreign base R r) (hi : i.Mirrors ρ i') :
    i' ∈ r.ids ↔ i ∈ p.ids := by
  rw [mem_ids, mem_ids, optionRel_isSome (h.content hi)]

lemma exists_image (h : p.Mirrors ρ foreign base R r) (hi : i ∈ p.ids) :
    ∃ i' ∈ r.ids, i.Mirrors ρ i' := by
  have hlt : i.index < (ρ.ids kind).length := h.size ▸ index_lt_of_mem_ids hi
  have hi' : i.Mirrors ρ (ρ.ids kind)[i.index] := List.getElem?_eq_getElem hlt
  exact ⟨_, (h.mem_ids_iff hi').2 hi, hi'⟩

lemma exists_source (h : p.Mirrors ρ foreign base R r) (hi' : i' ∈ r.ids)
    (himage : i' ∈ ρ.ids kind) : ∃ i ∈ p.ids, i.Mirrors ρ i' := by
  obtain ⟨i, hi⟩ := Renaming.exists_id_of_mem himage
  exact ⟨i, (h.mem_ids_iff hi).1 hi', hi⟩

/-- In a shared pool there is what is in the two others. -/
lemma joined_ids (h : p.Mirrors ρ (· ∈ σ.ids kind) base R r)
    (h' : q.Mirrors σ (· ∈ ρ.ids kind) base' Q r) :
    Joined (Id.Mirrors ρ) (Id.Mirrors σ) p.ids q.ids r.ids where
  left _ := h.exists_image
  right _ := h'.exists_image
  source _ hi' := (h.covered (index_lt_of_mem_ids hi')).imp (h.exists_source hi')
    (h'.exists_source hi')

/-- The things that are there and what they are. -/
lemma joined_items (h : p.Mirrors ρ (· ∈ σ.ids kind) base (fun _ => S) r)
    (h' : q.Mirrors σ (· ∈ ρ.ids kind) base' (fun _ => T) r) :
    Joined S T (p.ids.filterMap p.get?) (q.ids.filterMap q.get?) (r.ids.filterMap r.get?) :=
  (h.joined_ids h').filterMap (fun _ _ => h.content) fun _ _ => h'.content

end Mirrors

end Pool

/-! ### What is held -/

/-- What the third host holds is what the first two hold. -/
structure Holdings.Joins (ρ σ : Renaming) (h₁ h₂ h : Holdings) : Prop where
  functions : Joined (Id.Mirrors ρ) (Id.Mirrors σ) h₁.functions h₂.functions h.functions
  callbacks : Joined (Id.Mirrors ρ) (Id.Mirrors σ) h₁.callbacks h₂.callbacks h.callbacks
  trees : Joined (Stmt.Mirrors ρ) (Stmt.Mirrors σ) h₁.trees h₂.trees h.trees

lemma Holdings.Joins.symm {h₁ h₂ h : Holdings} (hheld : h₁.Joins ρ σ h₂ h) :
    h₂.Joins σ ρ h₁ h :=
  ⟨hheld.functions.symm, hheld.callbacks.symm, hheld.trees.symm⟩

lemma calleesOfStatements_eq_flatMap (ss : List Stmt) :
    calleesOfStatements ss = ss.flatMap Stmt.callees := by
  induction ss with
  | nil => rfl
  | cons s rest ih => rw [calleesOfStatements, List.flatMap_cons, ih]

namespace World.Joins

variable {w₁ w₂ w : World} (h : Joins ρ σ w₁ w₂ w) {h₁ h₂ h' : Holdings}
  (hheld : h₁.Joins ρ σ h₂ h')

include h

lemma joined_liveEngines :
    Joined (Engine.Mirrors ρ) (Engine.Mirrors σ) w₁.liveEngines w₂.liveEngines w.liveEngines :=
  h.left.engines.joined_items h.right.engines

lemma joined_functionBodies : Joined (Stmt.Mirrors ρ) (Stmt.Mirrors σ) w₁.functionBodies
    w₂.functionBodies w.functionBodies :=
  (h.left.functions.joined_items h.right.functions).filterMap (fun _ _ hx => hx.body)
    fun _ _ hx => hx.body

lemma joined_callbackBodies : Joined (Stmt.Mirrors ρ) (Stmt.Mirrors σ) w₁.callbackBodies
    w₂.callbackBodies w.callbackBodies :=
  (h.left.callbacks.joined_items h.right.callbacks).filterMap (fun _ _ hx => hx.body)
    fun _ _ hx => hx.body

include hheld

/-- What something holds in the shared world, something holds in one of the two others. -/
lemma joined_heldFunctions : Joined (Id.Mirrors ρ) (Id.Mirrors σ) (w₁.heldFunctions h₁)
    (w₂.heldFunctions h₂) (w.heldFunctions h') := by
  have htables := h.joined_liveEngines.flatMap (fun _ _ he => .of_forall₂ he.functions.values)
    fun _ _ he => .of_forall₂ he.functions.values
  have htrees := (hheld.trees.append h.joined_functionBodies).append h.joined_callbackBodies
  have hcallees := htrees.flatMap (fun _ _ hs => .of_forall₂ hs.callees)
    fun _ _ hs => .of_forall₂ hs.callees
  simp only [heldFunctions, calleesOfStatements_eq_flatMap]
  exact (hheld.functions.append htables).append hcallees

lemma joined_heldCallbacks : Joined (Id.Mirrors ρ) (Id.Mirrors σ) (w₁.heldCallbacks h₁)
    (w₂.heldCallbacks h₂) (w.heldCallbacks h') :=
  hheld.callbacks.append (h.joined_liveEngines.flatMap
    (fun _ _ he => .of_forall₂ he.callbacks.values) fun _ _ he => .of_forall₂ he.callbacks.values)

end World.Joins

/-- What has an image in the shared list has it in the list of the one world or of the other one; if
only one of them can have it, it is there. -/
lemma Joined.mem_iff {kind : Kind} {is js ks : List (Id kind)}
    (h : Joined (Id.Mirrors ρ) (Id.Mirrors σ) is js ks) {i i' : Id kind} (hi : i.Mirrors ρ i')
    (hnot : i' ∉ σ.ids kind) : i' ∈ ks ↔ i ∈ is := by
  constructor
  · intro hks
    rcases h.source i' hks with ⟨j, hj, hji⟩ | ⟨j, -, hji⟩
    · exact (hi.eq_iff hji).1 rfl ▸ hj
    · exact absurd hji.mem hnot
  · intro his
    obtain ⟨j', hj', hij⟩ := h.left i his
    exact (hi.eq_iff hij).2 rfl ▸ hj'

/-! ### Releases -/

namespace Pool.Mirrors

variable {kind : Kind} {α : Type} {foreign : Id kind → Prop} {base : Pool kind α}
  {R : Id kind → α → α → Prop} {p p' : Pool kind α}

/-- Things are released together with their images, and foreign things as well. -/
lemma foldl_release (h : p.Mirrors ρ foreign base R p') {free free' : List (Id kind)}
    (hfree : ∀ {i i'}, i.Mirrors ρ i' → (i' ∈ free' ↔ i ∈ free)) :
    (free.foldl Pool.release p).Mirrors ρ foreign (free'.foldl Pool.release p') R
      (free'.foldl Pool.release p') where
  size := (size_foldl_release free p).trans h.size
  apart i hi := (size_foldl_release free' p').symm ▸ h.apart i hi
  content {i i'} hi := by
    rw [get?_foldl_release, get?_foldl_release]
    simp only [hfree hi]
    split
    · exact .none
    · exact h.content hi
  kept hforeign := ⟨(size_foldl_release free' p').symm ▸ (h.kept hforeign).1, rfl⟩
  covered hlt := h.covered (size_foldl_release free' p' ▸ hlt)

end Pool.Mirrors

namespace World

variable {w₁ w₂ w : World}

/-- Functions are released together with their images. -/
lemma Mirrors.releaseFunctions {foreign : (kind : Kind) → Id kind → Prop} {base : World}
    (h : w₁.Mirrors ⟨foreign, base⟩ ρ w) {free free' : List (Id .function)}
    (hfree : ∀ {f f'}, f.Mirrors ρ f' → (f' ∈ free' ↔ f ∈ free)) :
    (w₁.releaseFunctions free).Mirrors ⟨foreign, w.releaseFunctions free'⟩ ρ
      (w.releaseFunctions free') where
  memory := h.memory.rebase rfl
  natives := h.natives.rebase
  functions := h.functions.foldl_release hfree
  callbacks := h.callbacks.rebase
  engines := h.engines.rebase
  objectCalls := h.objectCalls.rebase
  alive := h.alive

/-- Callbacks are released together with their images. -/
lemma Mirrors.releaseCallbacks {foreign : (kind : Kind) → Id kind → Prop} {base : World}
    (h : w₁.Mirrors ⟨foreign, base⟩ ρ w) {h₁ h' : Holdings}
    (hheld : ∀ {c c'}, c.Mirrors ρ c' → (c' ∈ w.heldCallbacks h' ↔ c ∈ w₁.heldCallbacks h₁)) :
    (w₁.releaseCallbacks h₁).Mirrors ⟨foreign, w.releaseCallbacks h'⟩ ρ
      (w.releaseCallbacks h') where
  memory := h.memory.rebase rfl
  natives := h.natives.rebase
  functions := h.functions.rebase
  callbacks := h.callbacks.foldl_release fun hc => by
    simp only [List.mem_filter, List.contains_eq_mem, h.callbacks.mem_ids_iff hc, hheld hc]
  engines := h.engines.rebase
  objectCalls := h.objectCalls.rebase
  alive := h.alive

/-- One round of a release. -/
def releaseOnce (h : Holdings) (w : World) : World :=
  w.releaseFunctions (w.freeFunctions h)

/-- Where nothing is free, nothing is released. -/
lemma releaseOnce_of_freeFunctions {h : Holdings} (hfree : w.freeFunctions h = []) :
    w.releaseOnce h = w := by
  rw [releaseOnce, hfree]
  rfl

/-- A release that stops when nothing is free might as well go on. -/
lemma releaseFunctionsUpTo_eq (h : Holdings) (rounds : ℕ) (w : World) :
    releaseFunctionsUpTo h rounds w = (releaseOnce h)^[rounds] w := by
  induction rounds generalizing w with
  | zero => rfl
  | succ rounds ih =>
    rw [releaseFunctionsUpTo, Function.iterate_succ_apply]
    cases hfree : w.freeFunctions h with
    | nil =>
      have hfixed := releaseOnce_of_freeFunctions hfree
      rw [hfixed, Function.iterate_fixed hfixed]
    | cons f rest =>
      rw [releaseOnce, hfree]
      exact ih _

/-- There may be more rounds than it takes. -/
lemma settle_eq (w : World) (h : Holdings) (rounds : ℕ)
    (hrounds : w.functions.ids.length ≤ rounds) :
    w.settle h = (releaseOnce h)^[rounds] (w.releaseCallbacks h) := by
  obtain ⟨more, rfl⟩ := Nat.exists_eq_add_of_le' hrounds
  have hfree : (w.settle h).freeFunctions h = [] :=
    freeFunctions_releaseFunctionsUpTo (Nat.le_refl _)
  have hsettle : w.settle h =
      (releaseOnce h)^[w.functions.ids.length] (w.releaseCallbacks h) :=
    releaseFunctionsUpTo_eq h _ _
  rw [Function.iterate_add_apply, ← hsettle,
    Function.iterate_fixed (releaseOnce_of_freeFunctions hfree)]

/-- What has been released need not be released again. -/
lemma settle_settle (w : World) (h : Holdings) : (w.settle h).settle h = w.settle h := by
  have hfree : (w.settle h).freeFunctions h = [] :=
    freeFunctions_releaseFunctionsUpTo (Nat.le_refl _)
  have hheld : (w.settle h).heldCallbacks h = w.heldCallbacks h := by
    rw [heldCallbacks, heldCallbacks, liveEngines, liveEngines, (w.loses_settle h).engines]
    rfl
  have hcallbacks : (w.settle h).releaseCallbacks h = w.settle h := by
    have hnone : (w.settle h).callbacks.ids.filter
        (fun c => !((w.settle h).heldCallbacks h).contains c) = [] := by
      refine List.filter_eq_nil_iff.2 fun c hc hfreed => ?_
      have hsome : ((w.settle h).callback? c).isSome := Pool.mem_ids.1 hc
      have hnot : c ∉ w.heldCallbacks h := by simpa [hheld] using hfreed
      rw [callback?_settle, if_neg hnot] at hsome
      cases hsome
    rw [World.releaseCallbacks, hnone]
    rfl
  rw [settle_eq _ h _ (Nat.le_refl _), hcallbacks,
    Function.iterate_fixed (releaseOnce_of_freeFunctions hfree)]

namespace Joins

variable (h : Joins ρ σ w₁ w₂ w) {h₁ h₂ h' : Holdings} (hheld : h₁.Joins ρ σ h₂ h')

include h hheld

/-- A function is held by nothing if its image is. -/
lemma mem_freeFunctions_iff {f f' : Id .function} (hf : f.Mirrors ρ f') :
    f' ∈ w.freeFunctions h' ↔ f ∈ w₁.freeFunctions h₁ := by
  have hids := h.left.functions.mem_ids_iff hf
  have hmem := (h.joined_heldFunctions hheld).mem_iff hf (h.left.functions.apart f' hf.mem).2
  simp only [freeFunctions, List.mem_filter, List.contains_eq_mem, hids, hmem]

/-- A callback is held if its image is. -/
lemma mem_heldCallbacks_iff {c c' : Id .callback} (hc : c.Mirrors ρ c') :
    c' ∈ w.heldCallbacks h' ↔ c ∈ w₁.heldCallbacks h₁ :=
  (h.joined_heldCallbacks hheld).mem_iff hc (h.left.callbacks.apart c' hc.mem).2

lemma releaseCallbacks : Joins ρ σ (w₁.releaseCallbacks h₁) (w₂.releaseCallbacks h₂)
    (w.releaseCallbacks h') where
  left := h.left.releaseCallbacks (h.mem_heldCallbacks_iff hheld)
  right := h.right.releaseCallbacks (h.symm.mem_heldCallbacks_iff hheld.symm)
  shared := h.shared
  clock := h.clock

lemma releaseOnce : Joins ρ σ (w₁.releaseOnce h₁) (w₂.releaseOnce h₂) (w.releaseOnce h') where
  left := h.left.releaseFunctions (h.mem_freeFunctions_iff hheld)
  right := h.right.releaseFunctions (h.symm.mem_freeFunctions_iff hheld.symm)
  shared := h.shared
  clock := h.clock

omit h in
lemma iterate_releaseOnce (rounds : ℕ) {w₁ w₂ w : World} (h : Joins ρ σ w₁ w₂ w) :
    Joins ρ σ ((World.releaseOnce h₁)^[rounds] w₁) ((World.releaseOnce h₂)^[rounds] w₂)
      ((World.releaseOnce h')^[rounds] w) := by
  induction rounds generalizing w₁ w₂ w with
  | zero => exact h
  | succ rounds ih => exact ih (h.releaseOnce hheld)

/-- The same things are released in the shared world as in the two others. -/
theorem settle : Joins ρ σ (w₁.settle h₁) (w₂.settle h₂) (w.settle h') := by
  let rounds := w₁.functions.ids.length + w₂.functions.ids.length + w.functions.ids.length
  rw [w₁.settle_eq h₁ rounds (by omega), w₂.settle_eq h₂ rounds (by omega),
    w.settle_eq h' rounds (by omega)]
  exact iterate_releaseOnce hheld rounds (h.releaseCallbacks hheld)

end Joins

end World

end ScriptEngine
