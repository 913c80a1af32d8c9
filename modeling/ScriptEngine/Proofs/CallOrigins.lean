import ScriptEngine.Proofs.CallCounts
import ScriptEngine.Proofs.CallSites
import ScriptEngine.Proofs.Callers
import ScriptEngine.Proofs.Processes

/-!
# Where calls that were built come from

A front end gets its calls from the engine, and each of them with a call site that the function has
handed out.  So no call in a tree or a body that comes about has the call site of the host.  Growing
worlds and evaluations keep that (`Workshop.Sited`): a world that grows gets only bodies that were
built, and an evaluation changes no body and hands out no call sites.  After an evaluation that ends, no
function runs.

From such a workshop, the active call of a function that runs is the call site of the host just if the
invocation that began last was made by the name of the function.

Main statement: `call_sites_tell_callers`.
-/

namespace ScriptEngine

open Pairing (Anything)

/-! ### Where no function runs -/

namespace World

variable {w w' : World} {new : Stmt → Prop} {counts : Id .callSite → ℕ}

/-- No function runs in a world that has only grown. -/
lemma Grows.idle (h : Grows new w w') (hidle : w.Idle) : w'.Idle := by
  intro f x' hx'
  rcases h.frame hx' with hnew | ⟨x, hx, hframe, hcount⟩
  · exact hnew
  · rw [hframe, hcount]
    exact hidle f x hx

/-- What passes the right numbers of arguments is bound. -/
lemma coversTree_boundTo {t : Tree} (h : (Coverage.counted w counts).CoversTree t) :
    (Coverage.boundTo w).CoversTree t := by
  have hnode : ∀ node, w.Counts counts node → (Coverage.boundTo w).expression node := by
    intro node hnode
    cases node with
    | call f site args => exact hnode.2
    | _ => trivial
  cases t with
  | expr e => exact Expr.Everywhere.mono h hnode
  | stmt s => exact Stmt.Everywhere.mono h hnode fun _ _ => trivial

/-- Bodies and scripts that pass the right numbers of arguments are bound. -/
lemma Counted.wellBound (h : w.Counted counts)
    (hnative : ∀ object, (w.apiClass object).Executes (Coverage.counted w counts).CoversStmt) :
    w.WellBound where
  function {_ _ body} hf hbody := coversTree_boundTo (t := .stmt body) (h.function hf hbody)
  callback {_ _ body} hc hbody := coversTree_boundTo (t := .stmt body) (h.callback hc hbody)
  native object := (hnative object).mono fun script => coversTree_boundTo (t := .stmt script)

/-- After an evaluation that ends, no function runs, and the code is what it was. -/
lemma Idle.of_finished (hidle : w.Idle) {α : Type} {x : Action Traced α} {y : Action World α}
    (herase : Simulation.erasure.Matches [] Simulation.Anything x y)
    (hkept : (Simulation.invariant (Traced.FramesFollow w)).Matches [] Simulation.Anything x x)
    (hfinished : (y w).Finished) : (y w).state.Idle ∧ (y w).state.code = w.code := by
  -- the engine does not know which activities are open, but with a history it does the same
  have hkeeps := hkept.keeps (Traced.FramesFollow.start hidle)
  rw [← herase.erases ⟨w, []⟩] at hfinished ⊢
  have hend := hkeeps.state_of_finished (Outcome.finished_mapState.1 hfinished)
  rw [Outcome.state_mapState]
  exact ⟨hend.frames.idle hend.nested.openActivities_eq, hend.code⟩

end World

/-! ### What has been built -/

/-- A call that is bound has a call site of its own. -/
lemma Binding.sited_of_mem_built {e : Id .engine} {w : World} {b : Binding} (hb : b.IsSound w)
    (hnext : ∀ f x, w.function? f = some x → x.nextCallSite ≠ .host)
    (huses : ∀ t ∈ b.uses, Coverage.sited.CoversTree t) {t : Tree} (ht : t ∈ b.built e w) :
    Coverage.sited.CoversTree t := by
  obtain ⟨node, l, rfl, hnode⟩ := exists_builds_of_mem_built ht
  refine .intro ?_ fun a ha => huses _ (hnode.parts a ha)
  cases hnode with
  | call =>
    obtain ⟨x, hx⟩ := Option.isSome_iff_exists.1 hb
    change ((w.function? _).getD default).nextCallSite ≠ .host
    rw [hx]
    exact hnext _ x hx
  | apiCall | constant | objectCall | snippetCall => trivial

namespace Workshop

/-- No function runs, the functions have handed out call sites since there was nothing, and all
calls in trees and bodies have call sites of their own. -/
structure Sited (s : Workshop) : Prop where
  idle : s.world.Idle
  allots : ∀ f, ∃ k, World.empty.Allots f k s.world
  function : ∀ {f x body}, s.world.function? f = some x → x.body = some body →
    Coverage.sited.CoversStmt body
  callback : ∀ {c x body}, s.world.callback? c = some x → x.body = some body →
    Coverage.sited.CoversStmt body
  trees : ∀ t ∈ s.trees, Coverage.sited.CoversTree t

/-- The host can take the turn with what has been built. -/
def OffersTurn (s : Workshop) : Turn → Prop
  | .enter _ entry => s.Offers entry
  | .evaluate _ t => t ∈ s.trees
  | .write _ _ _ => True
  | .arrange _ => False

variable {s s' : Workshop} {w : World} {counts : Id .callSite → ℕ}

/-- Where nothing is, nothing runs or has been built. -/
lemma sited_empty : empty.Sited where
  idle _ _ hx := absurd (Pool.index_lt_of_get? hx) (Nat.not_lt_zero _)
  allots f := ⟨0, .refl f .empty⟩
  function hx _ := absurd (Pool.index_lt_of_get? hx) (Nat.not_lt_zero _)
  callback hx _ := absurd (Pool.index_lt_of_get? hx) (Nat.not_lt_zero _)
  trees _ ht := nomatch ht

/-- Calls with call sites of their own lead to nothing else, if host functions execute only what has
been built. -/
lemma Sited.closed (h : s.Sited) (hhosts : s.HostsExecuteBuilt) : Coverage.sited.Closed s.world where
  function := h.function
  callback := h.callback
  native := hhosts.covers h.trees
  fits _ := trivial
  reaches _ _ _ := trivial

/-- No function hands out the call site of the host. -/
lemma Sited.nextCallSite_ne_host (h : s.Sited) (f : Id .function) (x : FunctionInstance)
    (hx : s.world.function? f = some x) : x.nextCallSite ≠ .host := by
  obtain ⟨k, hk⟩ := h.allots f
  rw [hk.nextCallSite hx]
  exact CallSiteId.nth_ne_host k

/-- The world grows, with bodies that were built, and some trees are built. -/
lemma Sited.grow (h : s.Sited) {new : Stmt → Prop} (hgrows : World.Grows new s.world w)
    (hallots : ∀ f, ∃ k, s.world.Allots f k w)
    (hnew : ∀ body, new body → Coverage.sited.CoversStmt body) {ts : List Tree}
    (hts : ∀ t ∈ ts, Coverage.sited.CoversTree t) : Sited ⟨w, ts ++ s.trees⟩ where
  idle := hgrows.idle h.idle
  allots f := by
    obtain ⟨k, hk⟩ := h.allots f
    obtain ⟨n, hn⟩ := hallots f
    exact ⟨k + n, hk.trans hn⟩
  function hx hbody := by
    rcases hgrows.body hx hbody with hbody | ⟨x, hx, hbody⟩
    · exact hnew _ hbody
    · exact h.function hx hbody
  callback hx hbody := by
    rcases hgrows.callback hx hbody with hbody | ⟨x, hx, hbody⟩
    · exact hnew _ hbody
    · exact h.callback hx hbody
  trees t ht := by
    rcases List.mem_append.1 ht with ht | ht
    · exact hts t ht
    · exact h.trees t ht

/-- The world grows, and nothing is built. -/
lemma Sited.grow_world (h : s.Sited) (hgrows : World.Grows (fun _ => False) s.world w)
    (hallots : ∀ f, ∃ k, s.world.Allots f k w) : Sited ⟨w, s.trees⟩ := by
  have hnone : ∀ t ∈ ([] : List Tree), Coverage.sited.CoversTree t := fun _ ht => nomatch ht
  exact h.grow hgrows hallots (fun _ hbody => hbody.elim) hnone

/-- The host arranges things, and nothing is built. -/
lemma Sited.arrange (h : s.Sited) (a : Arrangement)
    (ha : a.Brings (.built fun _ => False)) : Sited ⟨a.run s.world, s.trees⟩ :=
  h.grow_world (a.grows ha s.world) fun f => ⟨_, a.allots f s.world⟩

/-- A tree is built, and nothing else happens. -/
lemma Sited.cons (h : s.Sited) {t : Tree} (ht : Coverage.sited.CoversTree t) :
    Sited ⟨s.world, t :: s.trees⟩ :=
  { h with trees := List.forall_mem_cons.2 ⟨ht, h.trees⟩ }

/-- After an evaluation that ends, everything is as before. -/
lemma Sited.of_finished (h : s.Sited) {α : Type} {x : Action Traced α} {y : Action World α}
    (herase : Simulation.erasure.Matches [] Anything x y)
    (hkept : (Simulation.invariant (Traced.FramesFollow s.world)).Matches [] Anything x x)
    (hallots : ∀ f, y.KeepsUp (s.world.Allots f 0) Anything) (hfinished : (y s.world).Finished) :
    Sited ⟨(y s.world).state, s.trees⟩ := by
  obtain ⟨hidle, hcode⟩ := h.idle.of_finished herase hkept hfinished
  refine ⟨hidle, fun f => ?_, fun {f x body} hx hbody => ?_, fun {c x body} hx hbody => ?_, h.trees⟩
  · obtain ⟨k, hk⟩ := h.allots f
    exact ⟨k + 0, hk.trans (hallots f s.world (.refl f s.world)).1⟩
  · obtain ⟨original, horiginal, heq⟩ := World.exists_function_of_code_eq hcode hx
    rw [← x.body_code, ← heq] at hbody
    exact h.function horiginal hbody
  · obtain ⟨original, horiginal, heq⟩ := World.exists_callback_of_code_eq hcode hx
    rw [← x.body_code, ← heq] at hbody
    exact h.callback horiginal hbody

/-- Each step of a front end or a host builds calls with call sites of their own, and leaves the
rest as it is. -/
lemma Sited.step (h : s.Sited) (hcounted : s.Counted counts) (hstep : s.Step s') : s'.Sited := by
  have hkept : s.HostsExecuteBuilt → ∀ bound, _ := fun hhosts =>
    (Traced.FramesFollow.kept (hcounted.world.wellBound (hhosts.covers hcounted.trees))).simulates
  cases hstep with
  | compose hcall hparts =>
    refine h.cons (Coverage.coversTree_of_parts (fun node hnode => ?_) (fun _ => trivial) hcall
      fun u hu => h.trees u (hparts u hu))
    cases node with
    | call => exact nomatch hnode
    | _ => trivial
  | relocate l ht => exact h.cons (Coverage.coversTree_atLocation (h.trees _ ht) l)
  | @bind e b hb huses =>
    have hcovers : ∀ t ∈ b.uses, Coverage.sited.CoversTree t := fun t ht => h.trees t (huses t ht)
    exact h.grow (Binding.grows e hb) (fun f => ⟨_, b.allots e f s.world⟩) (fun _ => hcovers _)
      fun _ => Binding.sited_of_mem_built hb h.nextCallSite_ne_host hcovers
  | addNative hc => exact h.arrange (.addNative _) hc
  | newEngine config shared => exact h.arrange (.newEngine config shared) trivial
  | dropEngine e => exact h.arrange (.dropEngine e) trivial
  | comment f text => exact h.arrange (.comment f text) trivial
  | drainReports e => exact h.arrange (.drainReports e) trivial
  | change hchange hsites =>
    exact h.grow_world (.of_change hchange hsites) fun f => ⟨0, .of_change hchange⟩
  | @enter bound e entry hentry hhosts hfinished =>
    have hscript : (Coverage.boundTo s.world).CoversEntry entry := by
      cases entry with
      | execute script => exact World.coversTree_boundTo (hcounted.trees _ (hentry script rfl))
      | call name args | invoke name args => trivial
    have herase := (Evaluator.traced_simulates bound).enter [] e (Coverage.coversEntry_all entry)
    exact h.of_finished herase ((hkept hhosts bound).enter [] e hscript)
      (fun f => (Machine.upkeep_allots f s.world).enterEngine bound e entry) hfinished
  | @evaluate bound scope t ht hhosts hfinished =>
    have htree := World.coversTree_boundTo (hcounted.trees t ht)
    have hall := Coverage.coversTree_all t
    exact h.of_finished ((Evaluator.traced_simulates bound).evaluateTree [] trivial trivial hall)
      ((hkept hhosts bound).evaluateTree [] trivial trivial htree)
      (fun f => (Machine.upkeep_allots f s.world).evaluateTree bound scope t) hfinished

/-- In a workshop that comes about, all calls have call sites of their own. -/
theorem Reachable.sited (h : s.Reachable) : s.Sited := by
  induction h with
  | refl => exact sited_empty
  | @tail s s' hs hstep ih =>
    obtain ⟨counts, hcounted⟩ := Reachable.exists_counted hs
    exact ih.step hcounted hstep

/-- What has been built has call sites of its own. -/
lemma Sited.isSited_of_offersTurn (h : s.Sited) {turn : Turn} (hturn : s.OffersTurn turn) :
    turn.IsSited := by
  cases turn with
  | enter e entry =>
    cases entry with
    | execute script => exact h.trees _ (hturn script rfl)
    | call name args | invoke name args => trivial
  | evaluate scope t => exact h.trees t hturn
  | write scope target v => trivial
  | arrange a => exact hturn

end Workshop

/-- Each call that is bound gets the next call site of its function, and a call that is refused gets
none; whatever else happens, the call sites that a function hands out go round in one cycle that
leaves out the one of the host.  So in all runs of what has been built, as long as an invocation of
a function runs, the active call is the call site of the invocation that began last, and it is that
of the host just if that invocation was made by the name of the function. -/
theorem call_sites_tell_callers :
    (∀ (w : World) f x, w.function? f = some x → ∀ e args l,
      (args.length = x.parameterCount → ∃ w',
        w.bindCall e f args l = (.ok (.mk (.call f x.nextCallSite args) l), w') ∧
          w'.function? f = some { x with nextCallSite := x.nextCallSite.next } ∧
          ∀ g ≠ f, w'.function? g = w.function? g) ∧
      (args.length ≠ x.parameterCount → ∃ err, w.bindCall e f args l = (.error err, w))) ∧
    (∀ bound turns f,
      let sites := Evaluator.sites bound f turns .empty
      sites = (List.range sites.length).map .nth ∧ .host ∉ sites ∧
        ∀ i, ((sites.drop i).take (2 ^ 32 - 1)).Nodup) ∧
    ∀ s : Workshop, s.Reachable → s.HostsExecuteBuilt →
      ∀ bound turns, (∀ turn ∈ turns, s.OffersTurn turn) →
      let o := (Evaluator.within .attributed bound).takeAll Attributed.rearrange turns ⟨s.world, []⟩
      o.mapState (·.world) = (Evaluator.shared bound).takeAll id turns s.world ∧
        o.state.record.Always CallLog.ActiveTells := by
  refine ⟨fun w f x hx e args l => ⟨fun hcount => ?_, fun hcount => ?_⟩, fun bound turns f => ?_,
    fun s hs hhosts bound turns hturns => ?_⟩
  · refine ⟨_, World.bindCall_of_count hx hcount e l, ?_, fun g hg => ?_⟩
    · rw [World.function?_modifyFunction, if_pos rfl, hx, Option.map_some]
    · rw [World.function?_modifyFunction, if_neg (Ne.symm hg)]
  · exact ⟨_, World.bindCall_of_ne_count hx hcount e l⟩
  · refine ⟨?_, Evaluator.host_notMem_sites bound f turns,
      Evaluator.nodup_consecutive_sites bound f turns⟩
    rw [List.range_eq_range']
    exact Evaluator.sites_eq bound turns (.refl f .empty)
  · have hsited := hs.sited
    refine ⟨Machine.attributed_records.takeAll (fun _ _ => rfl) bound turns _, ?_⟩
    exact Attributed.always_tells bound hsited.idle (hsited.closed hhosts) fun turn hturn =>
      hsited.isSited_of_offersTurn (hturns turn hturn)

namespace Passing

/-- The script is executed, which calls the function, and then the host calls it by its name. -/
def turns (w : World) : List Turn :=
  [.enter engine (.execute (script w)), .enter engine (.call "f" [.bool true])]

/-- The function is defined, and three calls of it are bound, of which the second one is refused. -/
def bindings : List Turn :=
  [.arrange (.newEngine {} none),
    .arrange (.bind engine (.defineFunction "f" ["x"])),
    .arrange (.bind engine (.bindCall function [argument] .unknown)),
    .arrange (.bind engine (.bindCall function [] .unknown)),
    .arrange (.bind engine (.bindCall function [argument] .unknown))]

lemma offersTurn (w : World) : ∀ turn ∈ turns w, (workshop w).OffersTurn turn := by
  intro turn hturn
  rcases List.mem_cons.1 hturn with rfl | hturn
  · exact offers w
  · obtain rfl := List.mem_singleton.1 hturn
    exact fun _ hscript => nomatch hscript

/-- At some moment of the log the function runs, the invocation that began last has that call site and
comes from there, and the call site is the active call. -/
def RunsFrom (log : CallLog) (site : CallSiteId) (caller : Caller) : Prop :=
  ∃ line past x, line :: past <:+ log ∧ line.world.function? function = some x ∧
    CallLog.latest? function (line :: past) = some (site, caller) ∧ x.frame.activeCall = some site

/-- The invocation that began last, at the moment after which `n` lines were written, if the function
runs then. -/
def latestAt? (log : CallLog) (n : ℕ) : Option (CallSiteId × Caller) :=
  match log.drop n with
  | [] => none
  | line :: past =>
    if (line.world.function? function).isSome ∧ 0 < CallLog.running function (line :: past) then
      CallLog.latest? function (line :: past)
    else none

/-- While the function runs, the active call is that of the invocation that began last. -/
lemma runsFrom_of_latestAt? {log : CallLog} (h : log.Always CallLog.ActiveTells) {n : ℕ}
    {site : CallSiteId} {caller : Caller} (hlatest : latestAt? log n = some (site, caller)) :
    RunsFrom log site caller := by
  have hsuffix : log.drop n <:+ log := List.drop_suffix n log
  unfold latestAt? at hlatest
  cases hdrop : log.drop n with
  | nil =>
    rw [hdrop] at hlatest
    exact nomatch hlatest
  | cons line past =>
    rw [hdrop] at hlatest hsuffix
    dsimp only at hlatest
    split at hlatest
    · rename_i hruns
      obtain ⟨x, hx⟩ := Option.isSome_iff_exists.1 hruns.1
      obtain ⟨site', caller', hlatest', hactive, -⟩ := h line past hsuffix function x hx hruns.2
      obtain ⟨rfl, rfl⟩ := Prod.mk.inj (Option.some.inj (hlatest.symm.trans hlatest'))
      exact ⟨line, past, x, hsuffix, hx, hlatest, hactive⟩
    · exact nomatch hlatest

end Passing

/-- The active call is the call site in the script while the function is called from there, and that
of the host while the host calls it; a call that is refused takes no call site. -/
theorem passing_tells_callers :
    let w := (World.empty.newEngine {} none).2
    let o := (Evaluator.within .attributed 5).takeAll Attributed.rearrange (Passing.turns w)
      ⟨(Passing.workshop w).world, []⟩
    let sites := Evaluator.sites 5 Passing.function Passing.bindings .empty
    (∃ err, (Passing.attached w).bindCall Passing.engine Passing.function [] .unknown =
      (.error err, Passing.attached w)) ∧
    (sites = [⟨1⟩, ⟨2⟩] ∧ .host ∉ sites) ∧
    (Passing.workshop w).Reachable ∧ (Passing.workshop w).HostsExecuteBuilt ∧
      (∀ turn ∈ Passing.turns w, (Passing.workshop w).OffersTurn turn) ∧ o.Finished ∧
      Passing.RunsFrom o.state.record .first .script ∧
      Passing.RunsFrom o.state.record .host .host := by
  intro w o sites
  obtain ⟨hbinds, hsites, htells⟩ := call_sites_tell_callers
  have hrefused : ∃ err, (Passing.attached w).bindCall Passing.engine Passing.function [] .unknown =
      (.error err, Passing.attached w) := by
    obtain ⟨x, hx, hcount⟩ := Passing.exists_function (World.same_newEngine .empty {} none).1
    refine (hbinds _ _ x hx Passing.engine [] .unknown).2 ?_
    rw [hcount]
    decide
  have hbound : sites = [⟨1⟩, ⟨2⟩] := by decide +kernel
  have hhost := (hsites 5 Passing.bindings Passing.function).2.1
  have hreachable := Passing.reachable_newEngine {} none
  have hhosts := Passing.hostsExecuteBuilt {} none
  have hoffers := Passing.offersTurn w
  have hactive := (htells _ hreachable hhosts 5 _ hoffers).2
  have hmoments : o.Finished ∧
      Passing.latestAt? o.state.record 16 = some (.first, .script) ∧
      Passing.latestAt? o.state.record 2 = some (.host, .host) := by decide +kernel
  obtain ⟨hfinished, hfirst, hsecond⟩ := hmoments
  exact ⟨hrefused, ⟨hbound, hhost⟩, hreachable, hhosts, hoffers, hfinished,
    Passing.runsFrom_of_latestAt? hactive hfirst, Passing.runsFrom_of_latestAt? hactive hsecond⟩

end ScriptEngine
