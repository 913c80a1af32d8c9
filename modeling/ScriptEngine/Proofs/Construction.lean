import ScriptEngine.Proofs.Chronicle
import ScriptEngine.Proofs.Growth
import ScriptEngine.Proofs.LaterBindings

/-!
# How trees are built

A front end builds trees from parts.  Literals, variables, operators and statements it puts together as
it likes; calls it gets from the engine, which binds them to what they call.  A `Workshop` is a world
together with all trees that have been built so far.  Its steps are the operations of the front end, what
the host does in between, and evaluations of what has been built.

Each operation of the front end builds calls that pass the right numbers of arguments, and leaves the
others as they are (`Workshop.Counted.bind`).
-/

namespace ScriptEngine

/-! ### Operations of the front end -/

/-- The call that was bound, if it was not refused. -/
def Tree.bound : Except EvalError Expr → List Tree
  | .ok call => [.expr call]
  | .error _ => []

namespace Binding

/-- The trees that an operation makes use of. -/
def uses : Binding → List Tree
  | bindCall _ args _ | bindApiCall _ _ args _ | bindObjectCall _ _ args _ | bindSnippetCall _ args _ =>
    args.map .expr
  | attachBody _ body | attachCallbackBody _ body => [.stmt body]
  | _ => []

/-- The trees that an operation on an engine builds. -/
def built (e : Id .engine) (w : World) : Binding → List Tree
  | bindCall f args l => Tree.bound (w.bindCall e f args l).1
  | bindApiCall className function args l => Tree.bound (w.bindApiCall e className function args l).1
  | bindConstant className constant l => Tree.bound (w.bindConstant e className constant l).1
  | bindObjectCall target function args l => Tree.bound (w.bindObjectCall e target function args l).1
  | bindSnippetCall snippet args l => Tree.bound (w.bindSnippetCall snippet args l).1
  | _ => []

/-- What the operation is about was made in the way in which such things are made. -/
def IsSound (w : World) : Binding → Prop
  | registerApiClass c => c.Built
  | bindCall f _ _ => (w.function? f).isSome
  | bindSnippetCall snippet _ _ => ∃ compiler d, snippet = .compile compiler d
  | _ => True

variable {w : World} {counts : Id .callSite → ℕ} {b : Binding}

/-- A sound operation brings in only classes that were built, and the bodies that it attaches. -/
lemma IsSound.brings (hb : b.IsSound w) : b.Brings (.built fun body => .stmt body ∈ b.uses) := by
  cases b with
  | registerApiClass c => exact hb
  | attachBody | attachCallbackBody => exact List.mem_singleton_self _
  | _ => trivial

/-- Each operation lets the world grow, by no bodies but those that it attaches. -/
lemma grows (e : Id .engine) (hb : b.IsSound w) :
    World.Grows (fun body => .stmt body ∈ b.uses) w (b.run e w) :=
  .of_edits (.bind e hb.brings w)

/-- The position under a name in an API class is one of a function with that number of arguments. -/
lemma serves_of_slot? {object : NativeRef} {name : Name} {slot : FunctionSlot}
    (h : (w.apiClass object).slot? name = some slot) : w.Serves object slot.index slot.numArgs := by
  obtain ⟨index, -, h⟩ := Option.bind_eq_some_iff.1 h
  obtain ⟨function, hfunction, h⟩ := Option.bind_eq_some_iff.1 h
  obtain rfl := Option.some.inj h
  exact ⟨function, hfunction, rfl⟩

/-- The numbers of arguments that calls on objects pass, with those of a new call. -/
def countsAfter (w : World) (counts : Id .callSite → ℕ) : Binding → Id .callSite → ℕ
  | bindObjectCall _ _ args _, site =>
    if site.index = w.objectCalls.size then args.length else counts site
  | _, site => counts site

/-- A new call has a number of its own. -/
lemma countsAfter_of_lt {site : Id .callSite} (h : site.index < w.objectCalls.size) :
    b.countsAfter w counts site = counts site := by
  cases b with
  | bindObjectCall target function args l => exact if_neg (Nat.ne_of_lt h)
  | _ => rfl

/-- An operation builds a form of expression, and has checked what there is to check for it. -/
inductive Builds (w : World) : Binding → ExprNode → Prop
  | call {f : Id .function} {args : List Expr} {l : Location}
    (hcount : args.length = ((w.function? f).getD default).parameterCount) :
    Builds w (bindCall f args l) (.call f ((w.function? f).getD default).nextCallSite args)
  | apiCall {className function : String} {args : List Expr} {l : Location} {object : NativeRef}
    {name : Name} {slot : FunctionSlot} (hslot : (w.apiClass object).slot? name = some slot) :
    Builds w (bindApiCall className function args l) (.apiCall object name slot args)
  | constant {className constant : String} {l : Location} {v : Value} :
    Builds w (bindConstant className constant l) (.apiConstant v)
  | objectCall {target : VarRef} {function : String} {args : List Expr} {l : Location} {name : Name}
    (hcount : ¬maxObjectArgs < args.length) :
    Builds w (bindObjectCall target function args l)
      (.objectCall (w.objectCalls.add none).1 target name args)
  | snippetCall {snippet : Snippet} {args : List Expr} {l : Location}
    (hcount : args.length = snippet.argumentNames.length) :
    Builds w (bindSnippetCall snippet args l) (.snippetCall snippet args)

/-- What an operation builds is of one of these forms. -/
lemma exists_builds_of_mem_built {e : Id .engine} {t : Tree} (ht : t ∈ b.built e w) :
    ∃ node l, t = .expr (.mk node l) ∧ b.Builds w node := by
  cases b with
  | bindCall f args l =>
    change t ∈ Tree.bound (w.bindCall e f args l).1 at ht
    unfold World.bindCall at ht
    dsimp only at ht
    split at ht
    · exact nomatch ht
    · rename_i hcount
      exact ⟨_, l, List.mem_singleton.1 ht, .call (Classical.not_not.1 hcount)⟩
  | bindApiCall className function args l =>
    change t ∈ Tree.bound (w.bindApiCall e className function args l).1 at ht
    unfold World.bindApiCall at ht
    split at ht
    · exact nomatch ht
    · split at ht
      · exact nomatch ht
      · dsimp only at ht
        split at ht
        · exact nomatch ht
        · rename_i slot hslot
          exact ⟨_, l, List.mem_singleton.1 ht, .apiCall hslot⟩
  | bindConstant className constant l =>
    change t ∈ Tree.bound (w.bindConstant e className constant l).1 at ht
    unfold World.bindConstant at ht
    split at ht
    · exact nomatch ht
    · dsimp only at ht
      split at ht
      · exact nomatch ht
      · exact ⟨_, l, List.mem_singleton.1 ht, .constant⟩
  | bindObjectCall target function args l =>
    change t ∈ Tree.bound (w.bindObjectCall e target function args l).1 at ht
    unfold World.bindObjectCall at ht
    split at ht
    · exact nomatch ht
    · rename_i hmany
      exact ⟨_, l, List.mem_singleton.1 ht, .objectCall hmany⟩
  | bindSnippetCall snippet args l =>
    change t ∈ Tree.bound (w.bindSnippetCall snippet args l).1 at ht
    unfold World.bindSnippetCall at ht
    split at ht
    · exact nomatch ht
    · split at ht
      · exact nomatch ht
      · rename_i hcount
        exact ⟨_, l, List.mem_singleton.1 ht, .snippetCall (Classical.not_not.1 hcount)⟩
  | _ => exact nomatch ht

/-- What an operation builds is made of trees that it makes use of. -/
lemma Builds.parts {node : ExprNode} (h : b.Builds w node) :
    ∀ a ∈ node.parts, .expr a ∈ b.uses := by
  cases h with
  | constant => exact fun a ha => nomatch ha
  | call | apiCall | objectCall | snippetCall => exact fun a ha => List.mem_map_of_mem ha

/-- A call that is bound passes the right number of arguments if its parts do. -/
lemma covers_of_mem_built (e : Id .engine) (hb : b.IsSound w)
    (huses : ∀ t ∈ b.uses, (Coverage.counted w counts).CoversTree t) {t : Tree}
    (ht : t ∈ b.built e w) :
    (Coverage.counted (b.run e w) (b.countsAfter w counts)).CoversTree t := by
  obtain ⟨node, l, rfl, hnode⟩ := exists_builds_of_mem_built ht
  have hgrows := grows e hb
  have hold : w.Counts counts node → (b.run e w).Counts (b.countsAfter w counts) node :=
    hgrows.passes fun _ => countsAfter_of_lt
  refine .intro ?_ fun a ha =>
    hgrows.coversTree (t := .expr a) (fun _ => countsAfter_of_lt) (huses _ (hnode.parts a ha))
  cases hnode with
  | call hcount =>
    obtain ⟨function, hf⟩ := Option.isSome_iff_exists.1 hb
    refine hold ⟨Pool.index_lt_of_get? hf, fun x hx => ?_⟩
    rw [hcount, hx, Option.getD_some]
  | apiCall hslot => exact hold (serves_of_slot? hslot)
  | constant => trivial
  | objectCall hmany =>
    refine ⟨?_, (if_pos rfl).symm⟩
    simp only [run, World.bindObjectCall]
    rw [if_neg hmany]
    change w.objectCalls.size < (w.objectCalls.add none).2.size
    rw [Pool.size_add]
    exact Nat.lt_succ_self _
  | snippetCall hcount => exact ⟨hb, hcount⟩

end Binding

/-! ### Workshops -/

/-- The form of expression is a call. -/
def Tree.isCall : Tree → Bool
  | .expr e => e.node.isCall
  | .stmt _ => false

/-- The tree, with another location. -/
def Tree.atLocation (l : Location) : Tree → Tree
  | .expr e => .expr (e.atLocation l)
  | .stmt s => .stmt (s.atLocation l)

/-- What is no call is covered if its parts are, where only calls need more. -/
lemma Coverage.coversTree_of_parts {D : Coverage}
    (hexpression : ∀ node : ExprNode, node.isCall = false → D.expression node)
    (hstatement : ∀ node, D.statement node) {t : Tree} (hcall : t.isCall = false)
    (hparts : ∀ u ∈ t.parts, D.CoversTree u) : D.CoversTree t := by
  cases t with
  | expr e =>
    exact .intro (hexpression e.node hcall) fun a ha => hparts _ (Tree.expr_mem_parts ha)
  | stmt body =>
    exact .intro (hstatement body.node) (fun e he => hparts _ (Tree.expr_mem_parts_stmt he))
      fun t ht => hparts _ (Tree.stmt_mem_parts ht)

/-- The location of a tree has nothing to do with what is covered. -/
lemma Coverage.coversTree_atLocation {D : Coverage} {t : Tree} (h : D.CoversTree t) (l : Location) :
    D.CoversTree (t.atLocation l) := by
  cases t with
  | expr e => exact .intro (e := e.atLocation l) h.node h.parts
  | stmt body => exact .intro (s := body.atLocation l) h.node h.expressions h.statements

/-- A world, and all trees that have been built so far. -/
structure Workshop where
  world : World
  trees : List Tree

namespace Workshop

/-- The host can enter an engine in this way. -/
def Offers (s : Workshop) (entry : Entry) : Prop :=
  ∀ script, entry = .execute script → .stmt script ∈ s.trees

/-- Host functions execute only scripts that have been built. -/
def HostsExecuteBuilt (s : Workshop) : Prop :=
  ∀ object, (s.world.apiClass object).Executes fun script => .stmt script ∈ s.trees

/-- What a front end, or the host, does next. -/
inductive Step (s : Workshop) : Workshop → Prop
  /-- A tree that is no call is put together from its parts. -/
  | compose {t : Tree} (hcall : t.isCall = false) (hparts : ∀ u ∈ t.parts, u ∈ s.trees) :
    Step s ⟨s.world, t :: s.trees⟩
  /-- A tree gets another location. -/
  | relocate (l : Location) {t : Tree} (ht : t ∈ s.trees) :
    Step s ⟨s.world, t.atLocation l :: s.trees⟩
  /-- An operation on an engine, which may build a call. -/
  | bind (e : Id .engine) {b : Binding} (hb : b.IsSound s.world) (huses : ∀ t ∈ b.uses, t ∈ s.trees) :
    Step s ⟨b.run e s.world, b.built e s.world ++ s.trees⟩
  /-- A native object is made. -/
  | addNative {c : Host.ApiClass} (hc : c.Built) : Step s ⟨(s.world.addNative c).2, s.trees⟩
  /-- An engine is made. -/
  | newEngine (config : EngineConfig) (shared : Option (Id .interner)) :
    Step s ⟨(s.world.newEngine config shared).2, s.trees⟩
  /-- An engine is dropped. -/
  | dropEngine (e : Id .engine) : Step s ⟨s.world.dropEngine e, s.trees⟩
  /-- A function gets a comment. -/
  | comment (f : Id .function) (text : String) :
    Step s ⟨s.world.modifyFunction f fun function => { function with comment := text }, s.trees⟩
  /-- The reports of an engine are taken. -/
  | drainReports (e : Id .engine) :
    Step s ⟨s.world.modifyEngine e fun engine => { engine with reporter := engine.reporter.clear },
      s.trees⟩
  /-- Memory or a variable is changed. -/
  | change {w : World} (h : s.world.Change w) (hsites : w.objectCalls = s.world.objectCalls) :
    Step s ⟨w, s.trees⟩
  /-- The host enters an engine, and the entry ends. -/
  | enter (bound : ℕ) (e : Id .engine) {entry : Entry} (hentry : s.Offers entry)
    (hhosts : s.HostsExecuteBuilt)
    (hfinished : ((Evaluator.shared bound).enter e entry s.world).Finished) :
    Step s ⟨((Evaluator.shared bound).enter e entry s.world).state, s.trees⟩
  /-- The host evaluates a tree, and the evaluation ends. -/
  | evaluate (bound : ℕ) (scope : Scope) {t : Tree} (ht : t ∈ s.trees)
    (hhosts : s.HostsExecuteBuilt)
    (hfinished : ((Evaluator.shared bound).evaluateTree scope t s.world).Finished) :
    Step s ⟨((Evaluator.shared bound).evaluateTree scope t s.world).state, s.trees⟩

/-- The workshop without anything in it. -/
def empty : Workshop :=
  ⟨.empty, []⟩

/-- The workshop comes about by what front ends and hosts do. -/
def Reachable (s : Workshop) : Prop :=
  Relation.ReflTransGen Step empty s

/-- All trees and bodies pass the right numbers of arguments. -/
structure Counted (s : Workshop) (counts : Id .callSite → ℕ) : Prop where
  world : s.world.Counted counts
  trees : ∀ t ∈ s.trees, (Coverage.counted s.world counts).CoversTree t

variable {s s' : Workshop} {counts counts' : Id .callSite → ℕ} {w : World}

/-- Where all that has been built is covered, so is what host functions execute. -/
lemma HostsExecuteBuilt.covers (h : s.HostsExecuteBuilt) {D : Coverage}
    (htrees : ∀ t ∈ s.trees, D.CoversTree t) (object : NativeRef) :
    (s.world.apiClass object).Executes D.CoversStmt :=
  (h object).mono fun _ hscript => htrees _ hscript

/-- Where nothing is, nothing is wrong. -/
lemma counted_empty : empty.Counted counts where
  world := by
    refine ⟨fun h => ?_, fun h => ?_, fun h => ?_, fun h => ?_, fun h => ?_⟩
    · exact absurd (Pool.index_lt_of_get? h) (Nat.not_lt_zero _)
    · exact absurd (Pool.index_lt_of_get? h) (Nat.not_lt_zero _)
    · exact absurd (World.index_lt_of_resolution? h) (Nat.not_lt_zero _)
    · exact absurd (Pool.index_lt_of_get? h) (Nat.not_lt_zero _)
    · exact absurd (Pool.index_lt_of_get? h) (Nat.not_lt_zero _)
  trees _ ht := nomatch ht

/-- The world grows, with bodies that were built, and some trees are built. -/
lemma Counted.grow (h : s.Counted counts) {new : Stmt → Prop} (hgrows : World.Grows new s.world w)
    (hcounts : ∀ site : Id .callSite, site.index < s.world.objectCalls.size →
      counts' site = counts site)
    (hnew : ∀ body, new body → (Coverage.counted s.world counts).CoversStmt body) {ts : List Tree}
    (hts : ∀ t ∈ ts, (Coverage.counted w counts').CoversTree t) :
    Counted ⟨w, ts ++ s.trees⟩ counts' where
  world := hgrows.counted hcounts hnew h.world
  trees t ht := by
    rcases List.mem_append.1 ht with ht | ht
    · exact hts t ht
    · exact hgrows.coversTree hcounts (h.trees t ht)

/-- The world grows, and nothing is built. -/
lemma Counted.grow_world (h : s.Counted counts) (hgrows : World.Grows (fun _ => False) s.world w) :
    Counted ⟨w, s.trees⟩ counts :=
  have hnone : ∀ t ∈ ([] : List Tree), (Coverage.counted w counts).CoversTree t :=
    fun _ ht => nomatch ht
  h.grow hgrows (fun _ _ => rfl) (fun _ hbody => hbody.elim) hnone

/-- The host arranges things, and nothing is built. -/
lemma Counted.arrange (h : s.Counted counts) (a : Arrangement)
    (ha : a.Brings (.built fun _ => False)) : Counted ⟨a.run s.world, s.trees⟩ counts :=
  h.grow_world (a.grows ha s.world)

/-- A tree is built, and nothing else happens. -/
lemma Counted.cons (h : s.Counted counts) {t : Tree}
    (ht : (Coverage.counted s.world counts).CoversTree t) : Counted ⟨s.world, t :: s.trees⟩ counts where
  world := h.world
  trees u hu := by
    rcases List.mem_cons.1 hu with rfl | hu
    · exact ht
    · exact h.trees u hu

/-- What is no call passes what its parts pass. -/
lemma Counted.compose (h : s.Counted counts) {t : Tree} (hcall : t.isCall = false)
    (hparts : ∀ u ∈ t.parts, u ∈ s.trees) : (Coverage.counted s.world counts).CoversTree t := by
  refine Coverage.coversTree_of_parts (fun node hnode => ?_) (fun _ => trivial) hcall
    fun u hu => h.trees u (hparts u hu)
  cases node with
  | call | apiCall | objectCall | snippetCall => exact nomatch hnode
  | _ => trivial

/-- An operation of the front end builds what passes the right numbers of arguments. -/
lemma Counted.bind (h : s.Counted counts) (e : Id .engine) {b : Binding} (hb : b.IsSound s.world)
    (huses : ∀ t ∈ b.uses, t ∈ s.trees) :
    Counted ⟨b.run e s.world, b.built e s.world ++ s.trees⟩ (b.countsAfter s.world counts) :=
  have hcovers : ∀ t ∈ b.uses, (Coverage.counted s.world counts).CoversTree t :=
    fun t ht => h.trees t (huses t ht)
  h.grow (Binding.grows e hb) (fun _ => Binding.countsAfter_of_lt) (fun _ => hcovers _)
    fun _ => Binding.covers_of_mem_built e hb hcovers

end Workshop

end ScriptEngine
