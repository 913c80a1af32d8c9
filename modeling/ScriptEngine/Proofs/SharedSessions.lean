import ScriptEngine.Proofs.MirroredOperations
import ScriptEngine.Proofs.SharedWorlds

/-!
# Sessions that are shared

A session may be at work for two engines that share an interner, and have the handles of both
(`Session.Joins`).  Each engine might as well have a session of its own: an operation of an engine
has the same answer in its own session and in the shared one, and leaves the three sessions as they
have to be.

Main statement: `Session.Joins.step`.
-/

namespace ScriptEngine.Session

variable {ρ ρ' σ : Renaming}

/-! ### Tables -/

namespace Table.Mirrors

variable {α β γ : Type} {keep keep' : String → Bool} {R : α → γ → Prop} {Q : β → γ → Prop}
  {t : Table α} {u : Table β} {base base' v v' : Table γ}

/-- While one table goes on, another one stays mirrored. -/
lemma beside (h : u.Mirrors keep' Q base v) (h' : t.Mirrors keep R v v')
    (hkeep : ∀ name, keep' name → ¬keep name) : u.Mirrors keep' Q v' v' := by
  have hsame (v : Table γ) : v.filter (fun e => keep' e.1) =
      (v.filter fun e => !keep e.1).filter fun e => keep' e.1 := by
    rw [List.filter_filter]
    refine List.filter_congr fun e _ => ?_
    cases hname : keep' e.1 with
    | false => rfl
    | true =>
      rw [Bool.eq_false_iff.2 (hkeep e.1 hname)]
      rfl
  have hown := h.own
  rw [hsame, ← h'.others, ← hsame] at hown
  exact ⟨hown, rfl⟩

/-- What is foreign is as it is. -/
lemma rebase (h : t.Mirrors keep R base v) : t.Mirrors keep R v v :=
  ⟨h.own, rfl⟩

/-- In a shared table there is what is in the two others. -/
lemma joined_values (h : t.Mirrors keep R base v) (h' : u.Mirrors keep' Q base' v)
    (hkeep : ∀ e ∈ v, keep e.1 ∨ keep' e.1) : Joined R Q t.values u.values v.values := by
  have hleft := Corresponds.of_forall₂ h.own
  have hright := Corresponds.of_forall₂ h'.own
  refine ⟨fun a ha => ?_, fun b hb => ?_, fun c hc => ?_⟩
  · obtain ⟨e, he, rfl⟩ := List.mem_map.1 ha
    obtain ⟨e', he', -, hR⟩ := hleft.image e he
    exact ⟨e'.2, List.mem_map_of_mem (List.mem_of_mem_filter he'), hR⟩
  · obtain ⟨e, he, rfl⟩ := List.mem_map.1 hb
    obtain ⟨e', he', -, hQ⟩ := hright.image e he
    exact ⟨e'.2, List.mem_map_of_mem (List.mem_of_mem_filter he'), hQ⟩
  · obtain ⟨e', he', rfl⟩ := List.mem_map.1 hc
    refine (hkeep e' he').imp (fun hname => ?_) fun hname => ?_
    · obtain ⟨e, he, -, hR⟩ := hleft.source e' (List.mem_filter.2 ⟨he', hname⟩)
      exact ⟨e.2, List.mem_map_of_mem he, hR⟩
    · obtain ⟨e, he, -, hQ⟩ := hright.source e' (List.mem_filter.2 ⟨he', hname⟩)
      exact ⟨e.2, List.mem_map_of_mem he, hQ⟩

end Table.Mirrors

/-! ### Sessions -/

/-- The engines are different, and each handle is of one of them. -/
structure Seat.Apart (seat seat' : Seat) : Prop where
  engine : seat'.engine ≠ seat.engine
  own : ∀ handle, seat'.own handle = !seat.own handle

lemma Seat.Apart.symm {seat seat' : Seat} (h : seat.Apart seat') : seat'.Apart seat :=
  ⟨h.engine.symm, fun handle => by rw [h.own, Bool.not_not]⟩

variable {seat seat' : Seat} {a a' b s s' : Session}

namespace Handles.MirrorsIn

variable {foreign foreign' theirs : (kind : Kind) → Id kind → Prop} {base : Session}
  {h₁ h₂ h : Handles}

/-- What is foreign is as it is. -/
lemma rebase (hh : h₁.MirrorsIn ⟨seat, foreign, base⟩ ρ h) (hs : s.handles = h) :
    h₁.MirrorsIn ⟨seat, foreign', s⟩ ρ h := by
  subst hs
  exact {
    started := hh.started
    engines := hh.engines.rebase
    functions := hh.functions.rebase
    callbacks := hh.callbacks.rebase
    snippets := hh.snippets.rebase
    statements := hh.statements.rebase
    values := hh.values.rebase
    captured := hh.captured.rebase }

/-- While some handles go on, others stay mirrored. -/
lemma beside (hh : h₂.MirrorsIn ⟨seat', foreign, base⟩ σ s.handles)
    (hh' : h₁.MirrorsIn ⟨seat, theirs, s⟩ ρ s'.handles) (hapart : seat'.Apart seat) :
    h₂.MirrorsIn ⟨seat', foreign', s'⟩ σ s'.handles := by
  have hkeep (handle : Handle) (hown : seat'.own handle) : ¬seat.own handle := by
    rw [hapart.own, hown]
    exact nofun
  have hname (name : String) (heq : name == seat'.engine) : ¬name == seat.engine := fun heq' =>
    hapart.engine ((beq_iff_eq.1 heq').symm.trans (beq_iff_eq.1 heq))
  exact {
    started := hh.started
    engines := hh.engines.beside hh'.engines hname
    functions := hh.functions.beside hh'.functions fun _ => hkeep _
    callbacks := hh.callbacks.beside hh'.callbacks fun _ => hkeep _
    snippets := hh.snippets.beside hh'.snippets fun _ => hkeep _
    statements := hh.statements.beside hh'.statements fun _ => hkeep _
    values := hh.values.beside hh'.values fun _ => hkeep _
    captured := hh.captured.beside hh'.captured hname }

end Handles.MirrorsIn

/-- The third session has what the first two have, each for its engine.  It keeps scripts for the
two engines only. -/
structure Joins (seat seat' : Seat) (ρ σ : Renaming) (a b s : Session) : Prop where
  left : a.Mirrors ⟨seat, σ.Occupies, s⟩ ρ s
  right : b.Mirrors ⟨seat', ρ.Occupies, s⟩ σ s
  shared : σ.shared = ρ.shared
  apart : seat.Apart seat'
  captured : ∀ e ∈ s.handles.captured, (e.1 == seat.engine) ∨ (e.1 == seat'.engine)

namespace Joins

lemma symm (h : Joins seat seat' ρ σ a b s) : Joins seat' seat σ ρ b a s :=
  ⟨h.right, h.left, h.shared.symm, h.apart.symm, fun e he => (h.captured e he).symm⟩

lemma clock (h : Joins seat seat' ρ σ a b s) : σ.clock = ρ.clock :=
  h.right.ticks'.symm.trans h.left.ticks'

lemma world (h : Joins seat seat' ρ σ a b s) : World.Joins ρ σ a.world b.world s.world :=
  ⟨h.left.world, h.right.world, h.shared, h.clock⟩

lemma keep_or (h : Joins seat seat' ρ σ a b s) (handle : Handle) :
    seat.own handle ∨ seat'.own handle := by
  rw [h.apart.own]
  cases seat.own handle
  · exact .inr rfl
  · exact .inl rfl

/-- What the host of the shared session holds is what the hosts of the two others hold. -/
lemma holdings (h : Joins seat seat' ρ σ a b s) : a.holdings.Joins ρ σ b.holdings s.holdings where
  functions :=
    h.left.handles.functions.joined_values h.right.handles.functions fun _ _ => h.keep_or _
  callbacks :=
    h.left.handles.callbacks.joined_values h.right.handles.callbacks fun _ _ => h.keep_or _
  trees := by
    have hstatements :=
      h.left.handles.statements.joined_values h.right.handles.statements fun _ _ => h.keep_or _
    have hcaptured := h.left.handles.captured.joined_values h.right.handles.captured h.captured
    have hscripts := hcaptured.flatMap (f := id) (g := id) (k := id) (fun _ _ => .of_forall₂)
      fun _ _ => .of_forall₂
    simp only [List.flatMap_id] at hscripts
    exact hstatements.append hscripts

/-- While the first session goes on, the second one stays mirrored. -/
lemma advance (h : Joins seat seat' ρ σ a b s) (hle : ρ ≤ ρ')
    (h' : a'.Mirrors ⟨seat, σ.Occupies, s⟩ ρ' s') : Joins seat seat' ρ' σ a' b s' := by
  have hworld := h.world.advance hle h'.world
  exact {
    left := {
      world := hworld.left
      handles := h'.handles.rebase rfl
      ticks := h'.ticks
      ticks' := h'.ticks' }
    right := {
      world := hworld.right
      handles := h.right.handles.beside h'.handles h.apart.symm
      ticks := h.right.ticks
      ticks' := h'.ticks'.trans hworld.clock.symm }
    shared := hworld.shared
    apart := h.apart
    captured := fun e he => by
      cases hname : e.1 == seat.engine with
      | true => exact .inl rfl
      | false =>
        -- what is kept for another engine was kept before
        have hother : e ∈ s'.handles.captured.filter fun e => !(e.1 == seat.engine) :=
          List.mem_filter.2 ⟨he, by rw [hname]; rfl⟩
        rw [h'.handles.captured.others] at hother
        have hbefore := h.captured e (List.mem_of_mem_filter hother)
        rwa [hname] at hbefore }

/-- The same is released in the shared session as in the two others. -/
lemma settle (h : Joins seat seat' ρ σ a b s) :
    Joins seat seat' ρ σ a.settle b.settle s.settle := by
  have hworld := h.world.settle h.holdings
  exact {
    left := { h.left with
      world := hworld.left
      handles := h.left.handles.rebase rfl }
    right := { h.right with
      world := hworld.right
      handles := h.right.handles.rebase rfl }
    shared := h.shared
    apart := h.apart
    captured := h.captured }

/-- An operation of the first engine has answers that agree in its own session and in the shared
one. -/
theorem step (h : Joins seat seat' ρ σ a b s) (hb : b.settle = b) (bound : ℕ) {op : Operation}
    (hop : op.IsUniform) (hlocal : op.isLocal)
    (huses : ∀ handle ∈ op.uses, a.Offers seat.own handle)
    (hgives : ∀ handle ∈ op.gives, seat.own handle) :
    (a.step bound seat.engine op).1.Agrees (s.step bound seat.engine op).1 ∧
      ∃ ρ', Joins seat seat' ρ' σ (a.step bound seat.engine op).2 b
        (s.step bound seat.engine op).2 := by
  obtain ⟨ρ', hle, hanswer, hmirrors⟩ := h.left.carryOut bound hop hlocal huses hgives
  have hsettled := (h.advance hle hmirrors).settle
  rw [hb] at hsettled
  exact ⟨hanswer, ρ', hsettled⟩

end Joins

end ScriptEngine.Session
