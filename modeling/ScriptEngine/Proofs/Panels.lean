import ScriptEngine.Proofs.ListedFunctions
import ScriptEngine.Proofs.Numbering
import ScriptEngine.Proofs.SortedRows

/-!
# The debugger panel

The panel of an engine shows everything once: the variables of the register in the order of their
slots, then the globals, the functions and the snippets, each in ascending order of the names that
are shown.  What a row shows depends on what a table holds, and not on the numbers of names and
functions.

Sorting leaves rows of one shown name in the order in which the table is walked, and that is the
order of a hash table.  So two engines that hold the same have the same panel exactly if rows that
share a shown name come in the same order out of both tables, and an engine has one panel in all
orders of its tables exactly if no two different rows of a group share a shown name.  Globals do not
share their names, and functions do not share their signatures as long as no name has an opening
parenthesis in it.  But the signature of a snippet is read off its code, and two snippets whose code
begins with the same declaration share it; in which order they stand depends on the numbers of their
names.

Main statement: `debugger_panel_shows_everything_once`.
-/

namespace ScriptEngine

/-! ### Panels -/

/-- The kinds of rows, in the order of their groups in the panel. -/
def DebugKind.all : List DebugKind :=
  [.register, .global, .function, .snippet]

/-- The panel of the rows of each kind. -/
def panelOf (rows : DebugKind → List DebugInfo) : List DebugEntry :=
  DebugKind.all.flatMap fun k => (rows k).map (⟨k, ·⟩)

/-- The rows of one kind in a panel. -/
def DebugKind.rowsIn (k : DebugKind) (panel : List DebugEntry) : List DebugInfo :=
  (panel.filter (·.kind = k)).map (·.info)

/-- Put the rows of a table in the order of the panel.  Registers stay in the order of slots. -/
def DebugKind.arrange (k : DebugKind) (rows : List DebugInfo) : List DebugInfo :=
  match k with
  | .register => rows
  | .global | .function | .snippet => sortByName rows

/-- The groups of a panel can be read off. -/
lemma rowsIn_panelOf (rows : DebugKind → List DebugInfo) (k : DebugKind) :
    k.rowsIn (panelOf rows) = rows k := by
  have hgroup (j : DebugKind) :
      k.rowsIn ((rows j).map (⟨j, ·⟩)) = if j = k then rows k else [] := by
    rw [DebugKind.rowsIn, List.filter_map, List.map_map]
    split
    · rename_i hjk
      subst hjk
      simp [Function.comp_def]
    · rename_i hjk
      simp [Function.comp_def, hjk]
  have happend (xs ys : List DebugEntry) : k.rowsIn (xs ++ ys) = k.rowsIn xs ++ k.rowsIn ys := by
    rw [DebugKind.rowsIn, List.filter_append, List.map_append]
    rfl
  simp only [panelOf, DebugKind.all, List.flatMap_cons, List.flatMap_nil, happend, hgroup]
  cases k <;> simp [DebugKind.rowsIn]

/-! ### What tables hold -/

/-- What is to be seen of a value: its text, if it has one, and its type. -/
structure ShownValue where
  text : Option String
  typeName : String
deriving DecidableEq

/-- What is to be seen of a function. -/
structure ShownFunction where
  signature : String
  parameterNames : List String
  comment : String
  lastResult : ShownValue
deriving DecidableEq

/-- What is to be seen of a snippet. -/
structure ShownSnippet where
  declaration : SnippetDeclaration
  signature : String
  isCompiled : Bool
deriving DecidableEq

/-- What the tables of an engine hold, each thing with the text of its name. -/
structure Contents where
  registers : List (String × ShownValue)
  globals : List (String × ShownValue)
  functions : List (String × Option ShownFunction)
  snippets : List (String × ShownSnippet)

/-- What is to be seen of a value. -/
def Memory.shown (m : Memory) (v : Value) : ShownValue :=
  ⟨m.display? v, v.typeName⟩

/-- What is to be seen of a function. -/
def Memory.shownFunction (m : Memory) (f : FunctionInstance) : ShownFunction :=
  ⟨f.signature, f.parameterNames, f.comment, m.shown f.lastResult⟩

/-- What is to be seen of a snippet. -/
def Snippet.shown (s : Snippet) : ShownSnippet :=
  ⟨s.declaration, s.signature, s.isCompiled⟩

/-- The numbers of the names in the hash tables of an engine, as they came in. -/
def Engine.tableNames (engine : Engine) : List Name × List Name × List Name :=
  (engine.globals.entries.map Prod.fst, engine.functions.entries.map Prod.fst,
    engine.snippets.entries.map Prod.fst)

/-- What the tables hold, with the texts that the engine has for their names. -/
def World.contentsOf (w : World) (e : Id .engine) (tables : Engine) : Contents where
  registers := tables.register.entries.map fun entry =>
    (w.lookup e entry.1, w.memory.shown entry.2)
  globals := tables.globals.entries.map fun entry =>
    (w.lookup e entry.1, w.memory.shown entry.2)
  functions := tables.functions.entries.map fun entry =>
    (w.lookup e entry.1, (w.function? entry.2).map w.memory.shownFunction)
  snippets := tables.snippets.entries.map fun entry =>
    (w.lookup e entry.1, entry.2.shown)

/-- What the tables of an engine hold. -/
def World.contents (w : World) (e : Id .engine) : Contents :=
  w.contentsOf e (w.engine e)

/-- What the tables of an engine hold, in the order in which they are walked. -/
def World.contentsIn (w : World) (order : TableOrder) (e : Id .engine) : Contents :=
  w.contentsOf e ((w.engine e).inOrder order)

/-- The row of a variable, if its value has a text. -/
def ShownValue.row? (v : ShownValue) (name : String) : Option DebugInfo :=
  v.text.map fun text => ⟨name, text, v.typeName, ""⟩

/-- The row of a function, if its latest result has a text. -/
def ShownFunction.row? (f : ShownFunction) : Option DebugInfo :=
  f.lastResult.text.map fun text =>
    ⟨f.signature, text, f.lastResult.typeName, describeFunction f.comment f.parameterNames⟩

/-- The row of a snippet. -/
def ShownSnippet.row (s : ShownSnippet) : DebugInfo :=
  ⟨s.signature, if s.isCompiled then "compiled" else "uncompiled", "C function",
    describeFunction s.declaration.comment s.declaration.arguments⟩

namespace Contents

/-- Both hold the same under the same names: registers in the same order, everything else in
whatever order. -/
structure Same (c c' : Contents) : Prop where
  registers : c'.registers = c.registers
  globals : c'.globals.Perm c.globals
  functions : c'.functions.Perm c.functions
  snippets : c'.snippets.Perm c.snippets

instance (c c' : Contents) : Decidable (c.Same c') :=
  decidable_of_iff (c'.registers = c.registers ∧ c'.globals.Perm c.globals ∧
      c'.functions.Perm c.functions ∧ c'.snippets.Perm c.snippets)
    ⟨fun ⟨hr, hg, hf, hs⟩ => ⟨hr, hg, hf, hs⟩,
      fun h => ⟨h.registers, h.globals, h.functions, h.snippets⟩⟩

/-- The rows of one kind, in the order of the table. -/
def rows? (c : Contents) : DebugKind → Option (List DebugInfo)
  | .register => c.registers.mapM fun entry => entry.2.row? entry.1
  | .global => c.globals.mapM fun entry => entry.2.row? entry.1
  | .function => c.functions.mapM fun entry => entry.2.bind ShownFunction.row?
  | .snippet => some (c.snippets.map fun entry => entry.2.row)

/-- The rows of one kind, if all of them are there. -/
def table (c : Contents) (k : DebugKind) : List DebugInfo :=
  (c.rows? k).getD []

variable {c c' c'' : Contents}

lemma Same.refl (c : Contents) : c.Same c :=
  ⟨rfl, .refl _, .refl _, .refl _⟩

lemma Same.symm (h : c.Same c') : c'.Same c :=
  ⟨h.registers.symm, h.globals.symm, h.functions.symm, h.snippets.symm⟩

lemma Same.trans (h : c.Same c') (h' : c'.Same c'') : c.Same c'' :=
  ⟨h'.registers.trans h.registers, h'.globals.trans h.globals, h'.functions.trans h.functions,
    h'.snippets.trans h.snippets⟩

/-- The same contents have the same rows. -/
lemma Same.exists_rows? (h : c.Same c') {k : DebugKind} {rows : List DebugInfo}
    (hrows : c.rows? k = some rows) :
    ∃ rows', c'.rows? k = some rows' ∧ rows'.Perm rows ∧ (k = .register → rows' = rows) := by
  cases k with
  | register =>
    refine ⟨rows, ?_, .refl rows, fun _ => rfl⟩
    rw [← hrows, rows?, rows?, h.registers]
  | global =>
    obtain ⟨rows', hrows', hperm⟩ := exists_mapM_of_perm h.globals hrows
    exact ⟨rows', hrows', hperm, nofun⟩
  | function =>
    obtain ⟨rows', hrows', hperm⟩ := exists_mapM_of_perm h.functions hrows
    exact ⟨rows', hrows', hperm, nofun⟩
  | snippet =>
    obtain rfl := Option.some.inj hrows
    exact ⟨_, rfl, h.snippets.map _, nofun⟩

end Contents

namespace World

variable {w : World} {order : TableOrder} {e : Id .engine} {panel : List DebugEntry}

/-- The row of a variable tells what is to be seen of its value. -/
lemma ofVariable?_eq (m : Memory) (name : String) (v : Value) :
    DebugInfo.ofVariable? m name v = (m.shown v).row? name := by
  unfold DebugInfo.ofVariable? ShownValue.row? Memory.shown
  cases m.display? v <;> rfl

/-- The row of a function tells what is to be seen of it. -/
lemma ofFunction?_eq (m : Memory) (f : FunctionInstance) :
    DebugInfo.ofFunction? m f = (m.shownFunction f).row? := by
  unfold DebugInfo.ofFunction? ShownFunction.row? Memory.shownFunction Memory.shown
  cases m.display? f.lastResult <;> rfl

/-- The rows of variables tell what is to be seen of their values. -/
lemma mapM_ofVariable? (w : World) (e : Id .engine) (entries : List (Name × Value)) :
    (entries.map fun entry => (w.lookup e entry.1, w.memory.shown entry.2)).mapM
        (fun entry => entry.2.row? entry.1) =
      entries.mapM fun entry => DebugInfo.ofVariable? w.memory (w.lookup e entry.1) entry.2 := by
  rw [List.mapM_map]
  exact congrArg (entries.mapM ·) (funext fun entry => (ofVariable?_eq _ _ _).symm)

lemma rows?_register (w : World) (e : Id .engine) (tables : Engine) :
    (w.contentsOf e tables).rows? .register = tables.register.entries.mapM fun entry =>
      DebugInfo.ofVariable? w.memory (w.lookup e entry.1) entry.2 :=
  mapM_ofVariable? w e _

lemma rows?_global (w : World) (e : Id .engine) (tables : Engine) :
    (w.contentsOf e tables).rows? .global = tables.globals.entries.mapM fun entry =>
      DebugInfo.ofVariable? w.memory (w.lookup e entry.1) entry.2 :=
  mapM_ofVariable? w e _

lemma rows?_function (w : World) (e : Id .engine) (tables : Engine) :
    (w.contentsOf e tables).rows? .function = tables.functions.entries.mapM fun entry =>
      (w.function? entry.2).bind (DebugInfo.ofFunction? w.memory) := by
  change List.mapM _ (List.map _ _) = _
  rw [List.mapM_map]
  refine congrArg (tables.functions.entries.mapM ·) (funext fun entry => ?_)
  rw [Function.comp_apply, Option.bind_map]
  exact congrArg ((w.function? entry.2).bind ·) (funext fun f => (ofFunction?_eq _ f).symm)

lemma rows?_snippet (w : World) (e : Id .engine) (tables : Engine) :
    (w.contentsOf e tables).rows? .snippet =
      tables.snippets.entries.mapM fun entry => some (.ofSnippet entry.2) := by
  change some (List.map _ (List.map _ _)) = _
  rw [List.map_map]
  exact (List.mapM_pure (m := Option)).symm

/-- In whatever order its tables are walked, an engine holds the same. -/
lemma same_contentsIn (w : World) (order : TableOrder) (e : Id .engine) :
    (w.contents e).Same (w.contentsIn order e) :=
  ⟨rfl, (NameMap.inOrder_perm _ _).map _, (NameMap.inOrder_perm _ _).map _,
    (NameMap.inOrder_perm _ _).map _⟩

/-- No function of the table is left out. -/
lemma mapM_ofFunction? (e : Id .engine) {tables : Engine}
    (hthere : ∀ f ∈ tables.functions.values, (w.function? f).isSome) :
    (tables.functions.values.filterMap w.function?).mapM (DebugInfo.ofFunction? w.memory) =
      (w.contentsOf e tables).rows? .function := by
  replace hthere : ∀ entry ∈ tables.functions.entries, (w.function? entry.2).isSome :=
    fun entry hentry => hthere entry.2 (List.mem_map_of_mem hentry)
  rw [rows?_function]
  change List.mapM _ (List.filterMap _ (List.map _ _)) = _
  generalize tables.functions.entries = entries at hthere ⊢
  induction entries with
  | nil => rfl
  | cons entry rest ih =>
    obtain ⟨hentry, hrest⟩ := List.forall_mem_cons.1 hthere
    obtain ⟨x, hx⟩ := Option.isSome_iff_exists.1 hentry
    rw [List.map_cons, List.filterMap_cons_some hx, List.mapM_cons, List.mapM_cons, ih hrest, hx]
    rfl

/-- The functions of a table exist in whatever order it is walked. -/
lemma Listed.inOrder (h : w.Listed) (order : TableOrder) (e : Id .engine) :
    ∀ f ∈ ((w.engine e).inOrder order).functions.values, (w.function? f).isSome :=
  fun _ hf => h.engine e ((((w.engine e).functions.inOrder_perm _).map Prod.snd).mem_iff.1 hf)

/-- A panel has the rows of all tables, in the order of the panel. -/
lemma debugEntries?_eq_some_iff (h : w.Listed) :
    w.debugEntries? order e = some panel ↔
      ∃ rows : DebugKind → List DebugInfo,
        (∀ k, (w.contentsIn order e).rows? k = some (rows k)) ∧
          panel = panelOf fun k => k.arrange (rows k) := by
  have hr := w.rows?_register e ((w.engine e).inOrder order)
  have hg := w.rows?_global e ((w.engine e).inOrder order)
  have hf := mapM_ofFunction? e (h.inOrder order e)
  have hs : (w.contentsIn order e).rows? .snippet =
      some (((w.engine e).inOrder order).snippets.values.map DebugInfo.ofSnippet) := by
    rw [NameMap.values, List.map_map]
    exact (w.rows?_snippet e _).trans List.mapM_pure
  constructor
  · intro hpanel
    obtain ⟨registers, hregisters, hpanel⟩ := Option.bind_eq_some_iff.1 hpanel
    obtain ⟨globals, hglobals, hpanel⟩ := Option.bind_eq_some_iff.1 hpanel
    obtain ⟨functions, hfunctions, hpanel⟩ := Option.bind_eq_some_iff.1 hpanel
    let rows : DebugKind → List DebugInfo
      | .register => registers
      | .global => globals
      | .function => functions
      | .snippet => ((w.engine e).inOrder order).snippets.values.map DebugInfo.ofSnippet
    refine ⟨rows, fun k => ?_, ?_⟩
    · cases k with
      | register => exact hr.trans hregisters
      | global => exact hg.trans hglobals
      | function => exact hf.symm.trans hfunctions
      | snippet => exact hs
    · rw [← Option.some.inj hpanel]
      simp [panelOf, DebugKind.all, DebugKind.arrange, rows]
  · rintro ⟨rows, hrows, rfl⟩
    have hregisters := hr.symm.trans (hrows .register)
    have hglobals := hg.symm.trans (hrows .global)
    have hfunctions := hf.trans (hrows .function)
    have hsnippets := Option.some.inj (hs.symm.trans (hrows .snippet))
    simp [debugEntries?, hregisters, hglobals, hfunctions, hsnippets, panelOf, DebugKind.all,
      DebugKind.arrange]

/-- The values whose texts the panel shows. -/
def shownValues (w : World) (e : Id .engine) : List Value :=
  (w.engine e).register.entries.map Prod.snd ++ (w.engine e).globals.values ++
    ((w.engine e).functions.values.filterMap w.function?).map (·.lastResult)

/-- There is a panel exactly if all values in it have a text. -/
lemma isSome_debugEntries?_iff (h : w.Listed) :
    (w.debugEntries? order e).isSome ↔
      ∀ v ∈ w.shownValues e, (w.memory.display? v).isSome := by
  have hsame := w.same_contentsIn order e
  have hpanel : (w.debugEntries? order e).isSome ↔ ∀ k, ((w.contents e).rows? k).isSome := by
    constructor
    · intro hsome k
      obtain ⟨panel, hpanel⟩ := Option.isSome_iff_exists.1 hsome
      obtain ⟨rows, hrows, -⟩ := (debugEntries?_eq_some_iff h).1 hpanel
      obtain ⟨rows', hrows', -⟩ := hsame.symm.exists_rows? (hrows k)
      exact Option.isSome_iff_exists.2 ⟨rows', hrows'⟩
    · intro hsome
      choose rows hrows using fun k => Option.isSome_iff_exists.1 (hsome k)
      choose rows' hrows' _ using fun k => hsame.exists_rows? (hrows k)
      exact Option.isSome_iff_exists.2 ⟨_, (debugEntries?_eq_some_iff h).2 ⟨rows', hrows', rfl⟩⟩
  have hvariables (entries : List (Name × Value)) :
      (entries.mapM fun entry =>
        DebugInfo.ofVariable? w.memory (w.lookup e entry.1) entry.2).isSome ↔
        ∀ v ∈ entries.map Prod.snd, (w.memory.display? v).isSome := by
    simp only [isSome_mapM_iff, ofVariable?_eq, ShownValue.row?, Memory.shown, Option.isSome_map,
      List.forall_mem_map]
  have hregisters := hvariables (w.engine e).register.entries
  have hglobals := hvariables (w.engine e).globals.entries
  rw [← rows?_register] at hregisters
  rw [← rows?_global] at hglobals
  have hfunctions : ((w.contents e).rows? .function).isSome ↔
      ∀ v ∈ ((w.engine e).functions.values.filterMap w.function?).map (·.lastResult),
        (w.memory.display? v).isSome := by
    simp only [contents, ← mapM_ofFunction? e fun _ => h.engine e, isSome_mapM_iff, ofFunction?_eq,
      ShownFunction.row?, Memory.shownFunction, Memory.shown, Option.isSome_map,
      List.forall_mem_map]
  rw [hpanel, shownValues, NameMap.values, List.forall_mem_append, List.forall_mem_append,
    ← hregisters, ← hglobals, ← hfunctions]
  constructor
  · exact fun hsome => ⟨⟨hsome .register, hsome .global⟩, hsome .function⟩
  · rintro ⟨⟨hr, hg⟩, hf⟩ k
    cases k with
    | register => exact hr
    | global => exact hg
    | function => exact hf
    | snippet => rfl

end World

/-! ### What a panel shows -/

/-- The rows show the things, each of them once, in ascending order of the shown names. -/
structure ShowsInOrder {α : Type} (row? : α → Option DebugInfo) (things : List α)
    (rows : List DebugInfo) : Prop where
  once : ∃ unsorted, List.Forall₂ (fun thing row => row? thing = some row) things unsorted ∧
    rows.Perm unsorted
  ascends : Ascends rows

/-- The panel has a group of rows for each table, and a row for each of its entries: the slots of
the register in their order, and everything else in ascending order of the shown names. -/
structure World.IsPanel (w : World) (e : Id .engine) (panel : List DebugEntry) : Prop where
  groups : panel = panelOf (·.rowsIn panel)
  registers : List.Forall₂
    (fun entry row => DebugInfo.ofVariable? w.memory (w.lookup e entry.1) entry.2 = some row)
    (w.engine e).register.entries (DebugKind.register.rowsIn panel)
  globals : ShowsInOrder
    (fun entry => DebugInfo.ofVariable? w.memory (w.lookup e entry.1) entry.2)
    (w.engine e).globals.entries (DebugKind.global.rowsIn panel)
  functions : ShowsInOrder
    (fun entry => (w.function? entry.2).bind (DebugInfo.ofFunction? w.memory))
    (w.engine e).functions.entries (DebugKind.function.rowsIn panel)
  snippets : ShowsInOrder (fun entry => some (.ofSnippet entry.2))
    (w.engine e).snippets.entries (DebugKind.snippet.rowsIn panel)

/-- Each function is listed under the text with which its signature begins, before the first
parenthesis. -/
def World.ListsPlainly (w : World) (e : Id .engine) : Prop :=
  ∀ entry ∈ (w.engine e).functions.entries,
    (w.interner e).Knows entry.1 ∧ '(' ∉ (w.lookup e entry.1).toList ∧
      ∀ x ∈ w.function? entry.2, (w.lookup e entry.1 ++ "(").toList <+: x.signature.toList

section

variable {α : Type} {row? : α → Option DebugInfo} {things : List α} {rows : List DebugInfo}

/-- Sorted rows show the things in order. -/
lemma ShowsInOrder.sortByName (h : things.mapM row? = some rows) :
    ShowsInOrder row? things (sortByName rows) :=
  ⟨⟨rows, mapM_eq_some_iff_forall₂.1 h, sortByName_perm rows⟩, ascends_sortByName rows⟩

/-- In which order the things come does not matter. -/
lemma ShowsInOrder.of_perm {things' : List α} (h : ShowsInOrder row? things' rows)
    (hperm : things'.Perm things) : ShowsInOrder row? things rows := by
  obtain ⟨unsorted, hshows, hrows⟩ := h.once
  obtain ⟨unsorted', hshows', hperm'⟩ := List.perm_comp_forall₂ hperm.symm hshows
  exact ⟨⟨unsorted', hshows', hrows.trans hperm'.symm⟩, h.ascends⟩

/-- Each row shows one of the things. -/
lemma ShowsInOrder.exists_thing (h : ShowsInOrder row? things rows) {row : DebugInfo}
    (hrow : row ∈ rows) : ∃ thing ∈ things, row? thing = some row := by
  obtain ⟨unsorted, hshows, hperm⟩ := h.once
  exact exists_of_mem_mapM (mapM_eq_some_iff_forall₂.2 hshows) (hperm.mem_iff.1 hrow)

end

/-- Rows of a table do not share their names if these tell the names in the table. -/
lemma ShowsInOrder.untied {α : Type} {row? : Name × α → Option DebugInfo}
    {entries : List (Name × α)} {rows : List DebugInfo} {t : Interner}
    (h : ShowsInOrder row? entries rows) (hnodup : (entries.map Prod.fst).Nodup)
    (hknown : ∀ entry ∈ entries, t.Knows entry.1)
    (htext : ∀ x ∈ entries, ∀ y ∈ entries, ∀ a b, row? x = some a → row? y = some b →
      a.name = b.name → t.lookup x.1 = t.lookup y.1) : Untied rows := by
  intro a ha b hb hname
  obtain ⟨x, hx, hxa⟩ := h.exists_thing ha
  obtain ⟨y, hy, hyb⟩ := h.exists_thing hb
  have hxy : x.1 = y.1 :=
    (hknown x hx).eq_of_lookup (hknown y hy) (htext x hx y hy a b hxa hyb hname)
  obtain rfl := List.inj_on_of_nodup_map hnodup hx hy hxy
  exact Option.some.inj (hxa.symm.trans hyb)

/-- What stands before the first parenthesis of a signature. -/
lemma takeWhile_of_parenthesis {s : String} {signature : List Char} (hs : '(' ∉ s.toList)
    (h : (s ++ "(").toList <+: signature) : signature.takeWhile (· != '(') = s.toList := by
  obtain ⟨rest, rfl⟩ := h
  rw [String.toList_append, List.append_assoc,
    List.takeWhile_append_of_pos fun c hc => bne_iff_ne.2 (ne_of_mem_of_not_mem hc hs)]
  exact List.append_nil _

namespace World

variable {w : World} {order : TableOrder} {e : Id .engine} {panel : List DebugEntry}

/-- What is found is a panel. -/
lemma isPanel_of_debugEntries? (h : w.Listed) (hpanel : w.debugEntries? order e = some panel) :
    w.IsPanel e panel := by
  obtain ⟨rows, hrows, rfl⟩ := (debugEntries?_eq_some_iff h).1 hpanel
  have hgroup (k : DebugKind) := rowsIn_panelOf (fun k => k.arrange (rows k)) k
  have hr := (w.rows?_register e _).symm.trans (hrows .register)
  have hg := (w.rows?_global e _).symm.trans (hrows .global)
  have hf := (w.rows?_function e _).symm.trans (hrows .function)
  have hs := (w.rows?_snippet e _).symm.trans (hrows .snippet)
  refine ⟨?_, ?_, ?_, ?_, ?_⟩
  · simp only [hgroup]
  · rw [hgroup]
    exact mapM_eq_some_iff_forall₂.1 hr
  · rw [hgroup]
    exact (ShowsInOrder.sortByName hg).of_perm (NameMap.inOrder_perm _ _)
  · rw [hgroup]
    exact (ShowsInOrder.sortByName hf).of_perm (NameMap.inOrder_perm _ _)
  · rw [hgroup]
    exact (ShowsInOrder.sortByName hs).of_perm (NameMap.inOrder_perm _ _)

/-- If the panel is the same in all orders of the tables, no two different rows of a group share a
name. -/
lemma untied_of_orders (h : w.Listed) (hpanel : ∀ order, w.debugEntries? order e = some panel)
    {k : DebugKind} (hk : k ≠ .register) : Untied (k.rowsIn panel) := by
  have hgroup (order : TableOrder) : ∃ rows, (w.contentsIn order e).rows? k = some rows ∧
      k.arrange rows = k.rowsIn panel := by
    obtain ⟨rows, hrows, rfl⟩ := (debugEntries?_eq_some_iff h).1 (hpanel order)
    exact ⟨rows k, hrows k, (rowsIn_panelOf (fun k => k.arrange (rows k)) k).symm⟩
  cases k with
  | register => exact absurd rfl hk
  | global =>
    exact NameMap.untied_of_ranks fun rank => (hgroup { globals := rank }).imp fun rows hrows =>
      ⟨(w.rows?_global e _).symm.trans hrows.1, hrows.2⟩
  | function =>
    exact NameMap.untied_of_ranks fun rank => (hgroup { functions := rank }).imp fun rows hrows =>
      ⟨(w.rows?_function e _).symm.trans hrows.1, hrows.2⟩
  | snippet =>
    exact NameMap.untied_of_ranks fun rank => (hgroup { snippets := rank }).imp fun rows hrows =>
      ⟨(w.rows?_snippet e _).symm.trans hrows.1, hrows.2⟩

/-- Globals do not share their names. -/
lemma IsPanel.untied_globals (h : w.IsPanel e panel)
    (hknown : ∀ entry ∈ (w.engine e).globals.entries, (w.interner e).Knows entry.1) :
    Untied (DebugKind.global.rowsIn panel) := by
  refine h.globals.untied (w.engine e).globals.nodup hknown fun x _ y _ a b ha hb hname => ?_
  rw [ofVariable?_eq, ShownValue.row?] at ha hb
  obtain ⟨_, -, rfl⟩ := Option.map_eq_some_iff.1 ha
  obtain ⟨_, -, rfl⟩ := Option.map_eq_some_iff.1 hb
  exact hname

/-- Functions that are listed plainly do not share their signatures. -/
lemma IsPanel.untied_functions (h : w.IsPanel e panel) (hplain : w.ListsPlainly e) :
    Untied (DebugKind.function.rowsIn panel) := by
  have hname {x : Name × Id .function} (hx : x ∈ (w.engine e).functions.entries) {a : DebugInfo}
      (ha : (w.function? x.2).bind (DebugInfo.ofFunction? w.memory) = some a) :
      a.name.toList.takeWhile (· != '(') = (w.lookup e x.1).toList := by
    obtain ⟨f, hf, ha⟩ := Option.bind_eq_some_iff.1 ha
    rw [ofFunction?_eq, ShownFunction.row?] at ha
    obtain ⟨_, -, rfl⟩ := Option.map_eq_some_iff.1 ha
    obtain ⟨-, hparenthesis, hsignature⟩ := hplain x hx
    exact takeWhile_of_parenthesis hparenthesis (hsignature f hf)
  refine h.functions.untied (w.engine e).functions.nodup
    (fun entry hentry => (hplain entry hentry).1) fun x hx y hy a b ha hb hab => ?_
  exact String.toList_inj.1 ((hname hx ha).symm.trans (hab ▸ hname hy hb))

end World

/-! ### Two panels -/

/-- Two groups, made of the rows of two tables, have the same rows and show the same names in the
same order.  They are the same exactly if rows of one name come in the same order out of both
tables, and so whenever no two different rows share a name. -/
structure GroupsAgree (table table' group group' : List DebugInfo) : Prop where
  rows : group'.Perm group
  names : group'.map (·.name) = group.map (·.name)
  eq_iff : group' = group ↔ ∀ s, rowsNamed s table' = rowsNamed s table
  eq_of_untied : Untied group → group' = group

/-- The two panels agree in each group, and in the registers they are the same. -/
structure Contents.PanelsAgree (c c' : Contents) (panel panel' : List DebugEntry) : Prop where
  registers : DebugKind.register.rowsIn panel' = DebugKind.register.rowsIn panel
  groups : ∀ k : DebugKind,
    GroupsAgree (c.table k) (c'.table k) (k.rowsIn panel) (k.rowsIn panel')
  eq_iff : panel' = panel ↔ ∀ k : DebugKind, k.rowsIn panel' = k.rowsIn panel

/-- Panels without ties that agree are the same. -/
lemma Contents.PanelsAgree.eq_of_untied {c c' : Contents} {panel panel' : List DebugEntry}
    (h : c.PanelsAgree c' panel panel')
    (huntied : ∀ k : DebugKind, k ≠ .register → Untied (k.rowsIn panel)) : panel' = panel := by
  refine h.eq_iff.2 fun k => ?_
  by_cases hk : k = .register
  · exact hk ▸ h.registers
  · exact (h.groups k).eq_of_untied (huntied k hk)

/-- Tables with the same rows give groups that agree. -/
lemma DebugKind.groupsAgree (k : DebugKind) {rows rows' : List DebugInfo}
    (hperm : rows'.Perm rows) (hregister : k = .register → rows' = rows) :
    GroupsAgree rows rows' (k.arrange rows) (k.arrange rows') := by
  cases k with
  | register =>
    obtain rfl := hregister rfl
    exact ⟨.refl _, rfl, iff_of_true rfl fun _ => rfl, fun _ => rfl⟩
  | global | function | snippet =>
    have hsorted := ((sortByName_perm rows').trans hperm).trans (sortByName_perm rows).symm
    have h := ascends_sortByName rows
    have h' := ascends_sortByName rows'
    exact ⟨hsorted, map_name_eq_of_perm h h' hsorted, sortByName_eq_iff,
      eq_of_perm_of_untied h h' hsorted⟩

/-- Where there is a panel, there is one wherever the contents are the same, and the two panels
agree. -/
lemma World.exists_panel_of_same {w w' : World} {order : TableOrder} {e e' : Id .engine}
    {panel : List DebugEntry} (h : w.Listed) (h' : w'.Listed)
    (hsame : (w.contents e).Same (w'.contents e')) (hpanel : w.debugEntries? order e = some panel)
    (order' : TableOrder) :
    ∃ panel', w'.debugEntries? order' e' = some panel' ∧
      (w.contentsIn order e).PanelsAgree (w'.contentsIn order' e') panel panel' := by
  have hwalked := ((w.same_contentsIn order e).symm.trans hsame).trans (w'.same_contentsIn order' e')
  obtain ⟨rows, hrows, rfl⟩ := (debugEntries?_eq_some_iff h).1 hpanel
  choose rows' hrows' hperm hregister using fun k => hwalked.exists_rows? (hrows k)
  refine ⟨_, (debugEntries?_eq_some_iff h').2 ⟨rows', hrows', rfl⟩, ?_, fun k => ?_, ?_,
    fun hk => ?_⟩
  · rw [rowsIn_panelOf, rowsIn_panelOf]
    exact hregister .register rfl
  · rw [rowsIn_panelOf, rowsIn_panelOf, Contents.table, Contents.table, hrows, hrows']
    exact k.groupsAgree (hperm k) (hregister k)
  · exact fun hpanels k => congrArg k.rowsIn hpanels
  · refine congrArg panelOf (funext fun k => ?_)
    have hgroup := hk k
    rwa [rowsIn_panelOf, rowsIn_panelOf] at hgroup

/-! ### The panel of an engine -/

/-- In all worlds that evaluations and hosts lead to, and in whatever order hash tables are walked,
there is a panel of an engine exactly if all values in it have a text, and the panel then shows
everything once: each slot of the register in order, and each global, each function and each snippet
in ascending order of the shown names.  The panel is the same in all orders of the tables exactly if
no two different rows of one of these three groups share a shown name.  Another engine, of this world
or of any other one, that holds the same has a panel that agrees with it, however the tables came
about and are walked.  Registers are the same in both.  So are globals, if all their names were given
out by the interner, and functions that are listed plainly; and so are snippets exactly if those that
share a signature come in the same order out of both tables. -/
theorem debugger_panel_shows_everything_once {w : World} (hw : w.Attained) (order : TableOrder)
    (e : Id .engine) :
    ((w.debugEntries? order e).isSome ↔
      ∀ v ∈ w.shownValues e, (w.memory.display? v).isSome) ∧
    ∀ panel, w.debugEntries? order e = some panel →
      w.IsPanel e panel ∧
      ((∀ order', w.debugEntries? order' e = some panel) ↔
        ∀ k : DebugKind, k ≠ .register → Untied (k.rowsIn panel)) ∧
      ∀ (w' : World) (order' : TableOrder) (e' : Id .engine), w'.Attained →
        (w.contents e).Same (w'.contents e') →
        ∃ panel', w'.debugEntries? order' e' = some panel' ∧
          (w.contentsIn order e).PanelsAgree (w'.contentsIn order' e') panel panel' ∧
          ((∀ entry ∈ (w.engine e).globals.entries, (w.interner e).Knows entry.1) →
            DebugKind.global.rowsIn panel' = DebugKind.global.rowsIn panel) ∧
          (w.ListsPlainly e →
            DebugKind.function.rowsIn panel' = DebugKind.function.rowsIn panel) := by
  refine ⟨World.isSome_debugEntries?_iff hw.listed, fun panel hpanel => ?_⟩
  have hshows := World.isPanel_of_debugEntries? hw.listed hpanel
  refine ⟨hshows, ⟨fun horders _ => World.untied_of_orders hw.listed horders,
    fun huntied order' => ?_⟩, fun w' order' e' hw' hsame => ?_⟩
  · obtain ⟨panel', hpanel', hagree⟩ :=
      World.exists_panel_of_same hw.listed hw.listed (.refl _) hpanel order'
    rw [hpanel', hagree.eq_of_untied huntied]
  · obtain ⟨panel', hpanel', hagree⟩ :=
      World.exists_panel_of_same hw.listed hw'.listed hsame hpanel order'
    refine ⟨panel', hpanel', hagree, fun hknown => ?_, fun hplain => ?_⟩
    · exact (hagree.groups .global).eq_of_untied (hshows.untied_globals hknown)
    · exact (hagree.groups .function).eq_of_untied (hshows.untied_functions hplain)

namespace Panels

/-- The engine with the panel. -/
def engine : Id .engine := ⟨0⟩

/-- Engines are made, and things are defined on the first one. -/
def defining (bindings : List Binding) : World :=
  World.empty.arrangeAll (.newEngine {} none :: bindings.map (.bind engine))

/-- Globals are set. -/
def setting (w : World) (globals : List (String × Value)) : World :=
  globals.foldl (fun w g => (w.intern engine g.1).2.setGlobal engine (w.intern engine g.1).1 g.2) w

/-- Two functions and two snippets are defined, and two globals are set. -/
def forwards : World :=
  setting (defining [.declareRegister "gain", .defineFunction "add" ["a", "b"],
    .defineFunction "reset" [], .declareSnippet ⟨"tick", [], false, "", "void tick();"⟩,
    .declareSnippet ⟨"push", ["values"], false, "", "void push(Value* values);"⟩])
    [("tempo", .bool true), ("name", .string "lead")]

/-- The same happens in another order. -/
def backwards : World :=
  setting (defining [.declareSnippet ⟨"push", ["values"], false, "", "void push(Value* values);"⟩,
    .declareSnippet ⟨"tick", [], false, "", "void tick();"⟩, .defineFunction "reset" [],
    .defineFunction "add" ["a", "b"], .declareRegister "gain"])
    [("name", .string "lead"), ("tempo", .bool true)]

/-- A snippet whose code begins with the declaration of something else. -/
def tick : SnippetDeclaration :=
  ⟨"tick", [], false, "", "int scale(int x);\nvoid tick();"⟩

/-- Another one, whose code begins with the same declaration. -/
def push : SnippetDeclaration :=
  ⟨"push", ["values"], false, "", "int scale(int x);\nvoid push(Value* values);"⟩

/-- The row of the first one. -/
def tickRow : DebugInfo :=
  ⟨"scale(int x)", "uncompiled", "C function", ""⟩

/-- The row of the other one. -/
def pushRow : DebugInfo :=
  ⟨"scale(int x)", "uncompiled", "C function", "Parameters: values"⟩

/-- One of the two snippets is declared first. -/
def tickFirst : World := defining [.declareSnippet tick, .declareSnippet push]

/-- The other one is declared first. -/
def pushFirst : World := defining [.declareSnippet push, .declareSnippet tick]

lemma attained_defining {bindings : List Binding}
    (h : ∀ b ∈ bindings, (Arrangement.bind engine b).SparesHeld) :
    (defining bindings).Attained := by
  refine World.Attained.empty.arrangeAll (List.forall_mem_cons.2 ⟨trivial, ?_⟩)
  exact List.forall_mem_map.2 h

lemma attained_setting {w : World} (h : w.Attained) (globals : List (String × Value)) :
    (setting w globals).Attained := by
  induction globals generalizing w with
  | nil => exact h
  | cons g rest ih =>
    have hintern : (w.intern engine g.1).2.Attained :=
      h.arrange (a := .bind engine (.intern g.1)) trivial
    exact ih (hintern.change (.global engine _ g.2))

end Panels

open Panels

/-- Two engines on which the same was defined in two orders have the same panel, in whatever orders
their tables are walked. -/
theorem debugger_panel_in_two_orders :
    forwards.Attained ∧ backwards.Attained ∧
      (forwards.contents engine).Same (backwards.contents engine) ∧
      ∃ panel, ∀ order, forwards.debugEntries? order engine = some panel ∧
        backwards.debugEntries? order engine = some panel := by
  have hforwards : forwards.Attained := by
    refine attained_setting (attained_defining ?_) _
    simp [Arrangement.SparesHeld]
  have hbackwards : backwards.Attained := by
    refine attained_setting (attained_defining ?_) _
    simp [Arrangement.SparesHeld]
  obtain ⟨hsame, htexts, hknown, hplain, hsignatures⟩ :
      (forwards.contents engine).Same (backwards.contents engine) ∧
      (∀ v ∈ forwards.shownValues engine, (forwards.memory.display? v).isSome) ∧
      (∀ entry ∈ (forwards.engine engine).globals.entries,
        (forwards.interner engine).Knows entry.1) ∧
      forwards.ListsPlainly engine ∧
      ∀ x ∈ (forwards.engine engine).snippets.entries,
        ∀ y ∈ (forwards.engine engine).snippets.entries, x.2.signature = y.2.signature →
          DebugInfo.ofSnippet x.2 = .ofSnippet y.2 := by
    unfold World.ListsPlainly Interner.Knows
    decide +kernel
  obtain ⟨hsome, hpanels⟩ := debugger_panel_shows_everything_once hforwards {} engine
  obtain ⟨panel, hpanel⟩ := Option.isSome_iff_exists.1 (hsome.2 htexts)
  obtain ⟨hshows, horders, hothers⟩ := hpanels panel hpanel
  have huntied : ∀ k : DebugKind, k ≠ .register → Untied (k.rowsIn panel) := by
    intro k hk
    cases k with
    | register => exact absurd rfl hk
    | global => exact hshows.untied_globals hknown
    | function => exact hshows.untied_functions hplain
    | snippet =>
      intro a ha b hb hname
      obtain ⟨x, hx, hxa⟩ := hshows.snippets.exists_thing ha
      obtain ⟨y, hy, hyb⟩ := hshows.snippets.exists_thing hb
      obtain rfl := Option.some.inj hxa
      obtain rfl := Option.some.inj hyb
      exact hsignatures x hx y hy hname
  refine ⟨hforwards, hbackwards, hsame, panel, fun order => ⟨horders.2 huntied order, ?_⟩⟩
  obtain ⟨panel', hpanel', hagree, -⟩ := hothers backwards order engine hbackwards hsame
  rw [hpanel', hagree.eq_of_untied huntied]

/-- The snippets of two rows come in the order of the ranks of their names. -/
lemma Panels.table_snippet {w : World} {n k : Name} {a b : DebugInfo} (order : TableOrder)
    (h : (w.engine engine).snippets.entries.map
      (fun entry => (entry.1, DebugInfo.ofSnippet entry.2)) = [(n, a), (k, b)]) :
    (w.contentsIn order engine).table .snippet =
      if order.snippets n ≤ order.snippets k then [a, b] else [b, a] := by
  obtain ⟨x, _, hentries, hx, hrest⟩ := List.map_eq_cons_iff.1 h
  obtain ⟨y, _, rfl, hy, hnil⟩ := List.map_eq_cons_iff.1 hrest
  obtain rfl := List.map_eq_nil_iff.1 hnil
  obtain ⟨rfl, rfl⟩ := Prod.mk.inj hx
  obtain ⟨rfl, rfl⟩ := Prod.mk.inj hy
  change ((((w.engine engine).snippets.inOrder order.snippets).entries.map _).map _) = _
  rw [NameMap.entries_inOrder_pair hentries]
  split <;> rfl

/-- Two engines that hold the same snippets can have two panels, whenever the order in which tables
are walked is determined by the numbers of the names in them: rows of snippets that share a signature
tell which of these has which number. -/
theorem debugger_panel_depends_on_order :
    ¬∃ order : Engine → TableOrder, (∀ x y, x.tableNames = y.tableNames → order x = order y) ∧
      ∀ (w w' : World) (e e' : Id .engine), w.Attained → w'.Attained →
        (w.contents e).Same (w'.contents e') →
          w'.debugEntries? (order (w'.engine e')) e' = w.debugEntries? (order (w.engine e)) e := by
  rintro ⟨order, hnumbers, hclaim⟩
  have hw : tickFirst.Attained := attained_defining (by simp [Arrangement.SparesHeld])
  have hw' : pushFirst.Attained := attained_defining (by simp [Arrangement.SparesHeld])
  obtain ⟨hsame, hnames, htexts, htick, hpush⟩ :
      (tickFirst.contents engine).Same (pushFirst.contents engine) ∧
      (pushFirst.engine engine).tableNames = (tickFirst.engine engine).tableNames ∧
      (∀ v ∈ tickFirst.shownValues engine, (tickFirst.memory.display? v).isSome) ∧
      ((tickFirst.engine engine).snippets.entries.map
        fun entry => (entry.1, DebugInfo.ofSnippet entry.2)) = [(⟨46⟩, tickRow), (⟨47⟩, pushRow)] ∧
      ((pushFirst.engine engine).snippets.entries.map
        fun entry => (entry.1, DebugInfo.ofSnippet entry.2)) =
          [(⟨46⟩, pushRow), (⟨47⟩, tickRow)] := by
    decide +kernel
  have hsome : (tickFirst.debugEntries? (order (tickFirst.engine engine)) engine).isSome :=
    (World.isSome_debugEntries?_iff hw.listed).2 htexts
  obtain ⟨panel, hpanel⟩ := Option.isSome_iff_exists.1 hsome
  have hequal := hclaim tickFirst pushFirst engine engine hw hw' hsame
  rw [hnumbers _ _ hnames] at hequal
  obtain ⟨panel', hpanel', hagree⟩ :=
    World.exists_panel_of_same hw.listed hw'.listed hsame hpanel (order (tickFirst.engine engine))
  obtain rfl : panel' = panel := Option.some.inj ((hpanel'.symm.trans hequal).trans hpanel)
  have htables := (hagree.groups .snippet).eq_iff.1 rfl "scale(int x)"
  rw [table_snippet _ htick, table_snippet _ hpush] at htables
  split at htables <;> revert htables <;> decide

end ScriptEngine
