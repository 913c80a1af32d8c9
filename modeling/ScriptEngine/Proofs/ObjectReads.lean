import Mathlib.Data.Finset.Card
import ScriptEngine.Proofs.Alike
import ScriptEngine.Proofs.Evaluations

/-!
# Reading objects

A property is read by its name, or by an index that has the text of the name.  Names are equal
exactly when their texts are, so that both ways lead to the same property; and an index whose text
was never interned leads to none, because no object can have a name for it.  No way of reading
interns anything.

An object literal puts its properties into a bag in the order of the source.  Of two properties with
one name the later one counts.

Main statement: `Process.object_reads_agree`.
-/

namespace ScriptEngine

/-! ### Properties by their texts -/

/-- A name that was given out is the name of its text. -/
lemma Interner.Knows.get?_eq_some_iff {t : Interner} {n : Name} (h : t.Knows n) {s : String} :
    t.get? s = some n ↔ t.lookup n = s := by
  obtain ⟨s', hs'⟩ := h.exists_text
  have hlookup : t.lookup n = s' := by
    unfold Interner.lookup
    rw [Interner.get?_eq_some_iff.1 hs', Option.getD_some]
  constructor
  · intro hs
    rw [hlookup]
    exact (Interner.name_eq_iff hs' hs).1 rfl
  · rintro rfl
    rw [hlookup]
    exact hs'

namespace PropertyBag

/-- What a bag shows under a text: the value of a property whose name has the text, or `undefined`
if it has none. -/
inductive Shows (bag : PropertyBag) (t : Interner) (text : String) : Value → Prop
  | held {n : Name} {x : Value} (hn : bag.get? n = some x) (htext : t.lookup n = text) :
    Shows bag t text x
  | absent (h : ∀ n x, bag.get? n = some x → t.lookup n ≠ text) : Shows bag t text .undefined

/-- A bag of known names shows what its interner leads to. -/
lemma KnownTo.shows_iff {bag : PropertyBag} {t : Interner} (h : bag.KnownTo t) {text : String}
    {x : Value} : bag.Shows t text x ↔ x = (bag.ofText? t text).getD .undefined := by
  have hname : ∀ {n y}, bag.get? n = some y → t.lookup n = text → bag.ofText? t text = some y := by
    intro n y hn htext
    rw [PropertyBag.ofText?, ((h n y hn).get?_eq_some_iff).2 htext]
    exact hn
  constructor
  · intro hshows
    cases hshows with
    | held hn htext => rw [hname hn htext, Option.getD_some]
    | absent hnone =>
      cases hof : bag.ofText? t text with
      | none => rfl
      | some y =>
        obtain ⟨n, hs, hn⟩ := Option.bind_eq_some_iff.1 hof
        exact absurd (((h n y hn).get?_eq_some_iff).1 hs) (hnone n y hn)
  · rintro rfl
    cases hof : bag.ofText? t text with
    | none => exact .absent fun n y hn htext => nomatch hof.symm.trans (hname hn htext)
    | some y =>
      obtain ⟨n, hs, hn⟩ := Option.bind_eq_some_iff.1 hof
      exact .held hn (((h n y hn).get?_eq_some_iff).1 hs)

end PropertyBag

/-! ### The two ways of reading -/

namespace World

variable {w : World} {e : Id .engine} {o : Id .object}

/-- An index is looked up under its text. -/
lemma readIndex?_object (w : World) (e : Id .engine) (o : Id .object) (v : Value) :
    w.readIndex? e (.object o) v = (w.memory.display? v).map fun text =>
      .ok (((w.memory.properties o).ofText? (w.interner e) text).getD .undefined) :=
  congrArg (Option.map · _) (funext fun text => congrArg Except.ok (w.readKey_eq e o text))

/-- Interning a text changes no text of a value. -/
lemma display?_intern (w : World) (e : Id .engine) (s : String) (v : Value) :
    (w.intern e s).2.memory.display? v = w.memory.display? v := by
  have h : (w.intern e s).2.memory.display? = w.memory.display? :=
    Memory.display?_congr rfl fun _ => rfl
  rw [h]

/-- An index, the string that is its text, and the name of this text all read the same property,
before the text is interned and afterwards. -/
theorem reads_agree (hknown : (w.memory.properties o).KnownTo (w.interner e)) {v : Value}
    {text : String} (hv : w.memory.display? v = some text) :
    ∃ x, (w.memory.properties o).Shows (w.interner e) text x ∧
    w.readIndex? e (.object o) v = some (.ok x) ∧
    w.readIndex? e (.object o) (.string text) = some (.ok x) ∧
    w.readMember e (.object o) (w.intern e text).1 = .ok x ∧
    (w.intern e text).2.readIndex? e (.object o) v = some (.ok x) ∧
    (w.intern e text).2.readIndex? e (.object o) (.string text) = some (.ok x) ∧
    (w.intern e text).2.readMember e (.object o) (w.intern e text).1 = .ok x := by
  have hmember : (w.memory.properties o).read (w.intern e text).1 =
      ((w.memory.properties o).ofText? (w.interner e) text).getD .undefined :=
    congrArg (Option.getD · _) (hknown.get?_intern text)
  have hlater : (w.memory.properties o).ofText? ((w.intern e text).2.interner e) text =
      (w.memory.properties o).ofText? (w.interner e) text :=
    hknown.ofText? (w.memory.extends_intern _ text) text
  have hstring : ∀ m : Memory, m.display? (.string text) = some text := by
    intro m
    rw [m.display?_eq]
    rfl
  have hproperties : (w.intern e text).2.memory.properties o = w.memory.properties o := rfl
  refine ⟨_, hknown.shows_iff.2 rfl, ?_, ?_, ?_, ?_, ?_, ?_⟩
  · rw [readIndex?_object, hv, Option.map_some]
  · rw [readIndex?_object, hstring, Option.map_some]
  · exact congrArg Except.ok hmember
  · rw [readIndex?_object, display?_intern, hv, Option.map_some, hproperties, hlater]
  · rw [readIndex?_object, hstring, Option.map_some, hproperties, hlater]
  · exact congrArg Except.ok hmember

end World

/-! ### The bag of a literal -/

namespace NameMap

variable {α : Type} {es before after : List (Name × α)} {m : NameMap α} {n : Name} {a : α}

/-- What is put under other names makes no difference. -/
lemma get?_foldl_insert_of_not_mem (h : n ∉ es.map Prod.fst) :
    (es.foldl (fun m e => m.insert e.1 e.2) m).get? n = m.get? n := by
  induction es generalizing m with
  | nil => rfl
  | cons e rest ih =>
    rw [List.map_cons, List.mem_cons, not_or] at h
    rw [List.foldl_cons, ih h.2, get?_insert_of_ne _ _ h.1]

/-- A map of pairs has no other names. -/
lemma get?_ofList_of_not_mem (h : n ∉ es.map Prod.fst) : (ofList es).get? n = none :=
  get?_foldl_insert_of_not_mem h

/-- A map of pairs holds what the last pair with the name has. -/
lemma get?_ofList_append (h : n ∉ after.map Prod.fst) :
    (ofList (before ++ (n, a) :: after)).get? n = some a := by
  unfold ofList
  rw [List.foldl_append, List.foldl_cons, get?_foldl_insert_of_not_mem h, get?_insert_self]

/-- The names of a map to which pairs were added. -/
lemma mem_keys_foldl_insert :
    n ∈ (es.foldl (fun m e => m.insert e.1 e.2) m).entries.map Prod.fst ↔
      n ∈ m.entries.map Prod.fst ∨ n ∈ es.map Prod.fst := by
  induction es generalizing m with
  | nil => simp
  | cons e rest ih =>
    rw [List.foldl_cons, ih, insert, mem_keys_insertEntry, List.map_cons, List.mem_cons]
    tauto

/-- A map of pairs has as many names as there are distinct ones. -/
lemma size_ofList (es : List (Name × α)) :
    (ofList es).size = (es.map Prod.fst).toFinset.card := by
  have hkeys : ((ofList es).entries.map Prod.fst).toFinset = (es.map Prod.fst).toFinset := by
    ext n
    rw [List.mem_toFinset, List.mem_toFinset, ofList, mem_keys_foldl_insert]
    exact or_iff_right List.not_mem_nil
  rw [← hkeys, List.toFinset_card_of_nodup (ofList es).nodup, List.length_map, size]

end NameMap

namespace Process

variable {scope : Scope} {object index : Expr} {l : Location} {w w₁ w₂ : World} {o : Id .object}

/-! ### Evaluation of reads -/

/-- What is read from an object under an index.  An index without a text gives nothing. -/
lemma gives_readIndex {e : Id .engine}
    (hknown : (w.memory.properties o).KnownTo (w.interner e)) {v : Value}
    {out : Outcome World Value} :
    (lift (Command.readIndex e (.object o) v).run).Gives w out ↔
      ∃ text x, w.memory.display? v = some text ∧
        (w.memory.properties o).Shows (w.interner e) text x ∧ out = .done x w := by
  have hrun : (Command.readIndex e (.object o) v).run w =
      Action.ofOption ((w.memory.display? v).map fun text =>
        ((w.memory.properties o).ofText? (w.interner e) text).getD .undefined) w := by
    change (Action.ofOption (w.readIndex? e (.object o) v) >>= Action.ofResult) w = _
    rw [World.readIndex?_object]
    cases w.memory.display? v <;> rfl
  rw [gives_lift_ofOption hrun]
  constructor
  · rintro ⟨x, hx, rfl⟩
    obtain ⟨text, htext, rfl⟩ := Option.map_eq_some_iff.1 hx
    exact ⟨text, _, htext, hknown.shows_iff.2 rfl, rfl⟩
  · rintro ⟨text, x, htext, hx, rfl⟩
    obtain rfl := hknown.shows_iff.1 hx
    exact ⟨_, Option.map_eq_some_iff.2 ⟨text, htext, rfl⟩, rfl⟩

/-- What `object[index]` gives.  The world stays as the operands have left it. -/
theorem gives_index (hobject : (evaluate scope object).Gives w (.done (.object o) w₁)) {v : Value}
    (hindex : (evaluate scope index).Gives w₁ (.done v w₂))
    (hknown : (w₂.memory.properties o).KnownTo (w₂.interner scope.engine))
    {out : Outcome World Value} :
    (evaluate scope (.mk (.index object index) l)).Gives w out ↔
      ∃ text x, w₂.memory.display? v = some text ∧
        (w₂.memory.properties o).Shows (w₂.interner scope.engine) text x ∧ out = .done x w₂ := by
  have hnode : ∀ out', (evaluateNode scope (.index object index)).Gives w out' ↔
      ∃ text x, w₂.memory.display? v = some text ∧
        (w₂.memory.properties o).Shows (w₂.interner scope.engine) text x ∧ out' = .done x w₂ := by
    intro out'
    rw [evaluateNode_index, gives_bind_of_done hobject, gives_bind_of_done hindex,
      gives_readIndex hknown]
  rw [gives_evaluate]
  constructor
  · rintro ⟨out', hout', rfl⟩
    obtain ⟨text, x, htext, hx, rfl⟩ := (hnode out').1 hout'
    exact ⟨text, x, htext, hx, rfl⟩
  · rintro ⟨text, x, htext, hx, rfl⟩
    exact ⟨_, (hnode _).2 ⟨text, x, htext, hx, rfl⟩, rfl⟩

/-- What `object.property` gives.  The world stays as the operand has left it. -/
theorem gives_member (hobject : (evaluate scope object).Gives w (.done (.object o) w₁)) (p : Name) :
    (evaluate scope (.mk (.member object p) l)).Gives w
      (.done ((w₁.memory.properties o).read p) w₁) := by
  refine gives_evaluate.2 ⟨.done _ w₁, ?_, rfl⟩
  rw [Expr.node, evaluateNode_member, gives_bind_of_done hobject]
  exact gives_lift.2 ⟨.done _ w₁, rfl⟩

/-! ### Evaluation of literals -/

/-- There is a value for each expression. -/
lemma length_of_gives_evaluateAll {es : List Expr} {vs : List Value}
    (h : (evaluateAll scope es).Gives w (.done vs w₁)) : vs.length = es.length := by
  induction es generalizing w vs w₁ with
  | nil =>
    rw [evaluateAll_nil] at h
    obtain ⟨rfl, -⟩ := Outcome.done.inj (gives_pure.1 h)
    rfl
  | cons e rest ih =>
    rw [evaluateAll_cons] at h
    rcases gives_bind.1 h with ⟨v, w', -, hrest⟩ | ⟨err, w', -, herr⟩
    · rcases gives_bind.1 hrest with ⟨us, w'', hus, hpure⟩ | ⟨err, w'', -, herr⟩
      · obtain ⟨rfl, -⟩ := Outcome.done.inj (gives_pure.1 hpure)
        rw [List.length_cons, List.length_cons, ih hus]
      · exact nomatch herr
    · exact nomatch herr

/-- The properties of a literal get the values of their expressions, in order. -/
lemma evaluateProperties_eq (properties : List (Name × Expr)) (bag : PropertyBag) :
    evaluateProperties scope bag properties = (do
      let vs ← evaluateAll scope (properties.map Prod.snd)
      pure (((properties.map Prod.fst).zip vs).foldl (fun bag e => bag.insert e.1 e.2) bag)) := by
  induction properties generalizing bag with
  | nil =>
    rw [evaluateProperties_nil, List.map_nil, evaluateAll_nil, pure_bind]
    rfl
  | cons property rest ih =>
    obtain ⟨n, e⟩ := property
    simp only [evaluateProperties_cons, List.map_cons, evaluateAll_cons, bind_assoc, pure_bind, ih,
      List.zip_cons_cons, List.foldl_cons]

/-- What a literal gives, once its expressions have values. -/
lemma gives_object {properties : List (Name × Expr)} {vs : List Value}
    (h : (evaluateAll scope (properties.map Prod.snd)).Gives w (.done vs w₁)) :
    let made := w₁.allocate (·.newObject (.ofList ((properties.map Prod.fst).zip vs)))
    (evaluate scope (.mk (.object properties) l)).Gives w (.done made.1 made.2) := by
  intro made
  refine gives_evaluate.2 ⟨.done made.1 made.2, ?_, rfl⟩
  rw [Expr.node, evaluateNode_object, evaluateProperties_eq, bind_assoc, gives_bind_of_done h,
    pure_bind]
  exact gives_lift.2 ⟨.done made.1 made.2, rfl⟩

/-- An object literal makes a new object, once its expressions have values.  Under a name, the
object holds the value of the last pair with the name; it shows as many properties as there are
distinct names. -/
theorem exists_object_of_gives {properties : List (Name × Expr)} {vs : List Value}
    (h : (evaluateAll scope (properties.map Prod.snd)).Gives w (.done vs w₁)) (l : Location) :
    ∃ o w₂, (evaluate scope (.mk (.object properties) l)).Gives w (.done (.object o) w₂) ∧
      w₁.memory.objects.get? o = none ∧
      (∀ before p x after, (properties.map Prod.fst).zip vs = before ++ (p, x) :: after →
        p ∉ after.map Prod.fst → w₂.readMember scope.engine (.object o) p = .ok x) ∧
      (∀ p, p ∉ properties.map Prod.fst →
        w₂.readMember scope.engine (.object o) p = .ok .undefined) ∧
      w₂.memory.display? (.object o) =
        some s!"Object({(properties.map Prod.fst).toFinset.card})" := by
  set bag : PropertyBag := .ofList ((properties.map Prod.fst).zip vs) with hbag
  have hnames : ((properties.map Prod.fst).zip vs).map Prod.fst = properties.map Prod.fst := by
    refine List.map_fst_zip (le_of_eq ?_)
    rw [length_of_gives_evaluateAll h, List.length_map, List.length_map]
  have hmade : (w₁.memory.newObject bag).2.properties (w₁.memory.objects.add bag).1 = bag := by
    change ((w₁.memory.objects.add bag).2.get? (w₁.memory.objects.add bag).1).getD ∅ = bag
    rw [Pool.get?_add_self, Option.getD_some]
  have hread : ∀ p, (w₁.allocate (·.newObject bag)).2.readMember scope.engine
      (.object (w₁.memory.objects.add bag).1) p = .ok (bag.read p) :=
    fun p => congrArg (fun b : PropertyBag => Except.ok (b.read p)) hmade
  refine ⟨(w₁.memory.objects.add bag).1, (w₁.allocate (·.newObject bag)).2, gives_object h, ?_,
    fun before p x after hpairs hp => ?_, fun p hp => ?_, ?_⟩
  · simp [Pool.get?, Pool.add]
  · rw [hread, hbag, hpairs, PropertyBag.read, NameMap.get?_ofList_append hp, Option.getD_some]
  · have hother : p ∉ ((properties.map Prod.fst).zip vs).map Prod.fst := by rwa [hnames]
    rw [hread, hbag, PropertyBag.read, NameMap.get?_ofList_of_not_mem hother, Option.getD_none]
  · have hsize : ((w₁.memory.newObject bag).2.properties (w₁.memory.objects.add bag).1).size =
        (properties.map Prod.fst).toFinset.card := by
      rw [hmade, hbag, NameMap.size_ofList, hnames]
    rw [Memory.display?_eq, ← hsize]
    rfl

/-! ### The ways together -/

/-- Reads of objects agree.

* `object[index]` is the value of the property whose name has the text of the index, and `undefined`
  if there is none; it ends if the index has a text, and changes nothing.  `object.property` changes
  nothing either.
* The index, the string that is its text and the name of this text read the same, before the text is
  interned and afterwards.
* An object literal makes an object that holds under a name the value of the last pair with the
  name, and that shows as many properties as there are distinct names. -/
theorem object_reads_agree (scope : Scope) :
    (∀ object index l w w₁ w₂ o v,
      (evaluate scope object).Gives w (.done (.object o) w₁) →
      (evaluate scope index).Gives w₁ (.done v w₂) →
      (w₂.memory.properties o).KnownTo (w₂.interner scope.engine) →
      ∀ out, (evaluate scope (.mk (.index object index) l)).Gives w out ↔
        ∃ text x, w₂.memory.display? v = some text ∧
          (w₂.memory.properties o).Shows (w₂.interner scope.engine) text x ∧ out = .done x w₂) ∧
    (∀ object p l w w₁ o,
      (evaluate scope object).Gives w (.done (.object o) w₁) →
      (evaluate scope (.mk (.member object p) l)).Gives w
        (.done ((w₁.memory.properties o).read p) w₁)) ∧
    (∀ (w : World) o v text,
      (w.memory.properties o).KnownTo (w.interner scope.engine) →
      w.memory.display? v = some text →
      ∃ x, (w.memory.properties o).Shows (w.interner scope.engine) text x ∧
      w.readIndex? scope.engine (.object o) v = some (.ok x) ∧
      w.readIndex? scope.engine (.object o) (.string text) = some (.ok x) ∧
      w.readMember scope.engine (.object o) (w.intern scope.engine text).1 = .ok x ∧
      (w.intern scope.engine text).2.readIndex? scope.engine (.object o) v = some (.ok x) ∧
      (w.intern scope.engine text).2.readIndex? scope.engine (.object o) (.string text) =
        some (.ok x) ∧
      (w.intern scope.engine text).2.readMember scope.engine (.object o)
        (w.intern scope.engine text).1 = .ok x) ∧
    ∀ (properties : List (Name × Expr)) vs w w₁ l,
      (evaluateAll scope (properties.map Prod.snd)).Gives w (.done vs w₁) →
      ∃ o w₂, (evaluate scope (.mk (.object properties) l)).Gives w (.done (.object o) w₂) ∧
        w₁.memory.objects.get? o = none ∧
        (∀ before p x after, (properties.map Prod.fst).zip vs = before ++ (p, x) :: after →
          p ∉ after.map Prod.fst → w₂.readMember scope.engine (.object o) p = .ok x) ∧
        (∀ p, p ∉ properties.map Prod.fst →
          w₂.readMember scope.engine (.object o) p = .ok .undefined) ∧
        w₂.memory.display? (.object o) =
          some s!"Object({(properties.map Prod.fst).toFinset.card})" := by
  refine ⟨?_, ?_, ?_, ?_⟩
  · exact fun _ _ _ _ _ _ _ _ hobject hindex hknown out => gives_index hobject hindex hknown
  · exact fun _ p _ _ _ _ hobject => gives_member hobject p
  · exact fun _ _ _ _ hknown hv => World.reads_agree hknown hv
  · exact fun _ _ _ _ l h => exists_object_of_gives h l

namespace Labelled

/-- An interner that has seen one text. -/
def interner : Interner :=
  ⟨#["", "true"], by decide⟩

/-- The name of the text. -/
def label : Name := ⟨1⟩

/-- One engine, and an object with the property `true`, which is `false`. -/
def world : World :=
  { World.empty with
    memory := { Memory.empty with
      interners := (Pool.empty.add interner).2
      objects := (Pool.empty.add (NameMap.insert ∅ label (.bool false))).2 }
    engines := (Pool.empty.add (default : Engine)).2 }

/-- The object, as an expression. -/
def holder : Expr :=
  .unlocated (.literal (.object ⟨0⟩))

/-- A truth value, as an expression. -/
def truth (b : Bool) : Expr :=
  .unlocated (.literal (.bool b))

/-- The name of the property is known. -/
lemma knownTo : (world.memory.properties ⟨0⟩).KnownTo (world.interner ⟨0⟩) := by
  intro n v hn
  have hget : (NameMap.insert ∅ label (.bool false) : PropertyBag).get? n = some v := hn
  rw [NameMap.get?_insert] at hget
  split at hget
  case isTrue h => exact h ▸ (by decide : label.index < interner.size)
  case isFalse => exact nomatch hget

end Labelled

open Labelled in
/-- `holder[true]` and `holder.true` are `false`; and so is the property of a literal that has it
twice, with `false` behind `true`. -/
theorem object_reads_agree_on_label :
    (evaluate (.top ⟨0⟩) (.unlocated (.index holder (truth true)))).Gives world
      (.done (.bool false) world) ∧
    (evaluate (.top ⟨0⟩) (.unlocated (.member holder label))).Gives world
      (.done (.bool false) world) ∧
    (∃ x, (world.memory.properties ⟨0⟩).Shows (world.interner ⟨0⟩) "true" x ∧
      world.readMember ⟨0⟩ (.object ⟨0⟩) (world.intern ⟨0⟩ "true").1 = .ok x) ∧
    ∃ o w, (evaluate (.top ⟨0⟩)
      (.unlocated (.object [(label, truth true), (label, truth false)]))).Gives world
        (.done (.object o) w) ∧
        w.readMember ⟨0⟩ (.object o) label = .ok (.bool false) ∧
        w.memory.display? (.object o) = some "Object(1)" := by
  obtain ⟨hindex, hmember, hagree, hliteral⟩ := object_reads_agree (.top ⟨0⟩)
  have hobject : (evaluate (.top ⟨0⟩) holder).Gives world (.done (.object ⟨0⟩) world) :=
    ⟨.done (Value.object ⟨0⟩) world, 1, rfl⟩
  have htruth : (evaluate (.top ⟨0⟩) (truth true)).Gives world (.done (.bool true) world) :=
    ⟨.done (Value.bool true) world, 1, rfl⟩
  have htext : world.memory.display? (.bool true) = some "true" := by
    rw [Memory.display?_eq]
    rfl
  refine ⟨?_, hmember _ _ _ _ _ _ hobject, ?_, ?_⟩
  · refine (hindex _ _ _ _ _ _ _ _ hobject htruth knownTo _).2 ⟨"true", .bool false, htext, ?_, rfl⟩
    have hlookup : (world.interner ⟨0⟩).lookup label = "true" := rfl
    exact .held rfl hlookup
  · obtain ⟨x, hx, -, -, hread, -⟩ := hagree world ⟨0⟩ (.bool true) "true" knownTo htext
    exact ⟨x, hx, hread⟩
  · have hall : (evaluateAll (.top ⟨0⟩)
        ([(label, truth true), (label, truth false)].map Prod.snd)).Gives world
          (.done [.bool true, .bool false] world) :=
      ⟨.done [Value.bool true, .bool false] world, 1, rfl⟩
    obtain ⟨o, w, hw, -, hlast, -, hshown⟩ := hliteral _ _ _ _ .unknown hall
    refine ⟨o, w, hw, ?_, hshown⟩
    exact hlast [(label, .bool true)] label (.bool false) [] rfl List.not_mem_nil

end Process

end ScriptEngine
