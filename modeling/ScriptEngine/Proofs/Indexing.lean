import ScriptEngine.Proofs.NumberText

/-!
# Reading items

An index selects an item of an array or a character of a string if it is, as a number, exactly the
position of one; any other index selects nothing, however close or large it is.  A string is what
its characters are one after the other, and the items of two strings joined are those of the first
one followed by those of the second one.

Main statement: `Process.indexing_exact`.
-/

namespace ScriptEngine

open Number

/-! ### What an index selects -/

/-- The items that there are to select from: those of an array, or the characters of a string. -/
def Memory.indexed? (m : Memory) : Value → Option (List Value)
  | .array a => some (m.items a).toList
  | .string s => some (s.toList.map fun c => .string (.singleton c))
  | _ => none

/-- What an index selects from items: the item at the position that it is as a number, or
`undefined` if it is none of the positions. -/
inductive Value.Selects (items : List Value) (index : Value) : Value → Prop
  | item {k : ℕ} {x : Value} (hindex : rational? index.toNumber = some (k : ℚ))
    (hx : items[k]? = some x) : Selects items index x
  | absent (h : ∀ k < items.length, rational? index.toNumber ≠ some (k : ℚ)) :
    Selects items index .undefined

namespace Value

variable {items xs ys : List Value} {v v' x : Value} {y : Float}

/-- The item at a position, if the index is the position of one. -/
def select? (items : List Value) (index : Value) : Option Value :=
  index.position?.bind fun k => items[k]?

lemma select?_eq_some_iff :
    select? items v = some x ↔
      ∃ k : ℕ, rational? v.toNumber = some (k : ℚ) ∧ items[k]? = some x := by
  rw [select?, Option.bind_eq_some_iff]
  exact exists_congr fun k => and_congr_left' toNat?_eq_some_iff

lemma selects_iff : Selects items v x ↔ x = (select? items v).getD .undefined := by
  constructor
  · rintro (⟨hindex, hx⟩ | h)
    · rw [select?_eq_some_iff.2 ⟨_, hindex, hx⟩, Option.getD_some]
    · cases hselect : select? items v with
      | none => rfl
      | some x =>
        obtain ⟨k, hindex, hx⟩ := select?_eq_some_iff.1 hselect
        exact absurd hindex (h k (List.getElem?_eq_some_iff.1 hx).1)
  · rintro rfl
    cases hselect : select? items v with
    | none =>
      refine .absent fun k hk hindex => ?_
      have hsome := select?_eq_some_iff.2 ⟨k, hindex, List.getElem?_eq_getElem hk⟩
      exact nomatch hselect.symm.trans hsome
    | some x =>
      obtain ⟨k, hindex, hx⟩ := select?_eq_some_iff.1 hselect
      exact .item hindex hx

/-- An index below the number of the first items selects one of them. -/
lemma select?_append_of_lt (h : ∃ q, rational? v.toNumber = some q ∧ q < xs.length) :
    select? (xs ++ ys) v = select? xs v := by
  obtain ⟨q, hq, hlt⟩ := h
  refine Option.ext fun x => ?_
  rw [select?_eq_some_iff, select?_eq_some_iff]
  refine exists_congr fun k => and_congr_right fun hk => ?_
  have hk' : k < xs.length := by
    rw [hq, Option.some.injEq] at hk
    exact_mod_cast hk ▸ hlt
  rw [List.getElem?_append_left hk']

/-- Any other index selects what is selected from the other items once the number of the first ones
is taken from it. -/
lemma select?_append_of_not_lt (h : ¬∃ q, rational? v.toNumber = some q ∧ q < xs.length)
    (hlength : xs.length + ys.length < 2 ^ 53) (hy : rational? y = some (xs.length : ℚ)) :
    select? (xs ++ ys) v = select? ys (.number (v.toNumber - y)) := by
  have hle : ∀ {p}, rational? v.toNumber = some p → (xs.length : ℚ) ≤ p := fun hp =>
    not_lt.1 fun hlt => h ⟨_, hp, hlt⟩
  refine Option.ext fun x => ?_
  rw [select?_eq_some_iff, select?_eq_some_iff]
  constructor
  · rintro ⟨k, hk, hx⟩
    have hfirst : xs.length ≤ k := by exact_mod_cast hle hk
    obtain ⟨hlast, -⟩ := List.getElem?_eq_some_iff.1 hx
    rw [List.length_append] at hlast
    have hdifference : (k - xs.length : ℚ) = (k - xs.length : ℕ) := (Nat.cast_sub hfirst).symm
    refine ⟨k - xs.length, ?_, by rwa [← List.getElem?_append_right hfirst]⟩
    rw [← hdifference]
    refine rational?_sub_natCast hk hy (hle hk) ?_
    rw [hdifference]
    exact_mod_cast (by omega : k - xs.length < 2 ^ 53)
  · rintro ⟨j, hj, hx⟩
    change rational? (v.toNumber - y) = some (j : ℚ) at hj
    obtain ⟨hlast, -⟩ := List.getElem?_eq_some_iff.1 hx
    cases hv : rational? v.toNumber with
    | none => exact nomatch (rational?_sub_of_none hv hy).symm.trans hj
    | some p =>
      have hlt : p - xs.length < 2 ^ 53 := by
        by_contra hlarge
        have hj' : 2 ^ 53 ≤ j := by exact_mod_cast le_of_rational?_sub hv hy (not_lt.1 hlarge) hj
        omega
      have hp : p = (xs.length + j : ℕ) := by
        have hsame := (rational?_sub_natCast hv hy (hle hv) hlt).symm.trans hj
        rw [Nat.cast_add, ← Option.some.inj hsame, add_sub_cancel]
      refine ⟨xs.length + j, congrArg some hp, ?_⟩
      rw [List.getElem?_append_right (Nat.le_add_right _ _), Nat.add_sub_cancel_left, hx]

/-- A number of items is exact. -/
lemma rational?_ofLength {n : ℕ} (hn : n < 2 ^ 53) :
    rational? (Value.ofLength n).toNumber = some (n : ℚ) := by
  have h := rational?_ofInt (n := n) (by simpa using hn)
  rwa [Int.cast_natCast] at h

end Value

/-! ### Reading -/

namespace World

variable {w : World} {e : Id .engine} {x v : Value} {items : List Value}

lemma readIndex?_of_indexed (h : w.memory.indexed? x = some items) :
    w.readIndex? e x v = some (.ok ((v.select? items).getD .undefined)) := by
  cases x with
  | array a =>
    obtain rfl := Option.some.inj h
    simp [readIndex?, Value.select?]
  | string s =>
    obtain rfl := Option.some.inj h
    simp [readIndex?, Value.select?, Option.map_bind]
  | _ => exact absurd h.symm (Option.some_ne_none items)

lemma readMember_length (h : w.memory.indexed? x = some items) :
    w.readMember e x (w.engine e).lengthName = .ok (.ofLength items.length) := by
  cases x with
  | array a =>
    obtain rfl := Option.some.inj h
    simp [readMember]
  | string s =>
    obtain rfl := Option.some.inj h
    simp [readMember, String.length_toList]
  | _ => exact absurd h.symm (Option.some_ne_none items)

end World

namespace Process

variable {scope : Scope} {object index left right : Expr} {l : Location} {w w₁ w₂ : World}
  {a b s : String} {v x : Value} {items : List Value} {out : Outcome World Value}

/-- What is read under an index, once the operands have values. -/
lemma gives_index_of_indexed (hobject : (evaluate scope object).Gives w (.done x w₁))
    (hindex : (evaluate scope index).Gives w₁ (.done v w₂))
    (hitems : w₂.memory.indexed? x = some items) :
    (evaluate scope (.mk (.index object index) l)).Gives w out ↔
      out = .done ((v.select? items).getD .undefined) w₂ := by
  have hnode : ∀ out', (evaluateNode scope (.index object index)).Gives w out' ↔
      out' = .done ((v.select? items).getD .undefined) w₂ := by
    intro out'
    have hrun : (Command.readIndex scope.engine x v).run w₂ =
        Action.ofOption (some ((v.select? items).getD .undefined)) w₂ := by
      change (Action.ofOption (w₂.readIndex? scope.engine x v) >>= Action.ofResult) w₂ = _
      rw [World.readIndex?_of_indexed hitems]
      rfl
    rw [evaluateNode_index, gives_bind_of_done hobject, gives_bind_of_done hindex,
      gives_lift_ofOption hrun]
    simp
  rw [gives_evaluate]
  constructor
  · rintro ⟨out', hout', rfl⟩
    rw [(hnode out').1 hout']
    rfl
  · rintro rfl
    exact ⟨_, (hnode _).2 rfl, rfl⟩

/-- What is read under the name of the length, once the operand has a value. -/
lemma gives_length (hobject : (evaluate scope object).Gives w (.done x w₁))
    (hitems : w₁.memory.indexed? x = some items) :
    (evaluate scope (.mk (.member object (w₁.engine scope.engine).lengthName) l)).Gives w
      (.done (.ofLength items.length) w₁) := by
  refine gives_evaluate.2 ⟨.done (.ofLength items.length) w₁, ?_, rfl⟩
  change (evaluateNode scope (.member object _)).Gives w _
  rw [evaluateNode_member, gives_bind_of_done hobject]
  refine gives_lift.2 ⟨.done _ w₁, ?_⟩
  change Action.ofResult (w₁.readMember scope.engine x _) w₁ = _
  rw [World.readMember_length hitems]
  rfl

/-! ### Characters of strings -/

end Process

/-- The item of an expression at a position, as an expression. -/
def Expr.itemAt (object : Expr) (k : ℕ) : Expr :=
  .unlocated (.index object (.unlocated (.literal (.ofLength k))))

/-- The items of an expression up to a position, joined by plus signs. -/
def Expr.itemsUpTo (object : Expr) : ℕ → Expr
  | 0 => object.itemAt 0
  | k + 1 => .unlocated (.binary .add (object.itemsUpTo k) (object.itemAt (k + 1)))

namespace Process

variable {scope : Scope} {object index left right : Expr} {w : World} {a b s : String} {v : Value}

lemma compute?_add_strings (m : Memory) (a b : String) :
    BinaryOp.add.compute? m (.string a) (.string b) = some (.string (a ++ b)) := by
  change m.add? (.string a) (.string b) = _
  simp [Memory.add?, Memory.display?_string]

lemma gives_itemAt (hobject : (evaluate scope object).Gives w (.done (.string s) w)) {k : ℕ}
    (hk : k < s.toList.length) (hlength : s.length < 2 ^ 53) :
    (evaluate scope (object.itemAt k)).Gives w (.done (.string (.singleton s.toList[k])) w) := by
  have hselect : (Value.ofLength k).select?
      (s.toList.map fun c => .string (.singleton c)) = some (.string (.singleton s.toList[k])) := by
    have hk' : k < 2 ^ 53 := hk.trans (String.length_toList ▸ hlength)
    refine Value.select?_eq_some_iff.2 ⟨k, Value.rational?_ofLength hk', ?_⟩
    rw [List.getElem?_map, List.getElem?_eq_getElem hk, Option.map_some]
  refine (gives_index_of_indexed hobject (gives_literal _ _) rfl).2 ?_
  rw [hselect, Option.getD_some]

/-- The characters of a string up to a position, joined, are the beginning of the string. -/
lemma gives_itemsUpTo (hobject : (evaluate scope object).Gives w (.done (.string s) w)) {k : ℕ}
    (hk : k < s.toList.length) (hlength : s.length < 2 ^ 53) :
    (evaluate scope (object.itemsUpTo k)).Gives w
      (.done (.string (.ofList (s.toList.take (k + 1)))) w) := by
  induction k with
  | zero =>
    have hfirst : String.ofList (s.toList.take (0 + 1)) = .singleton s.toList[0] := by
      rw [List.take_succ_eq_append_getElem hk, List.take_zero, List.nil_append,
        String.singleton_eq_ofList]
    rw [hfirst]
    exact gives_itemAt hobject hk hlength
  | succ k ih =>
    have hjoined : String.ofList (s.toList.take (k + 1 + 1)) =
        .ofList (s.toList.take (k + 1)) ++ .singleton s.toList[k + 1] := by
      rw [List.take_succ_eq_append_getElem hk, String.ofList_append, String.singleton_eq_ofList]
    rw [hjoined]
    exact gives_binary (ih (Nat.lt_of_succ_lt hk)) (gives_itemAt hobject hk hlength)
      (compute?_add_strings _ _ _) _

/-! ### The laws of indexing -/

/-- Two strings joined have the characters of both. -/
lemma gives_index_joined (hleft : (evaluate scope left).Gives w (.done (.string a) w))
    (hright : (evaluate scope right).Gives w (.done (.string b) w))
    (hindex : (evaluate scope index).Gives w (.done v w)) {out : Outcome World Value} :
    (evaluate scope
      (.unlocated (.index (.unlocated (.binary .add left right)) index))).Gives w out ↔
      out = .done ((v.select? (a.toList.map (fun c => .string (.singleton c)) ++
        b.toList.map fun c => .string (.singleton c))).getD .undefined) w := by
  refine gives_index_of_indexed (gives_binary hleft hright (compute?_add_strings _ a b) _) hindex ?_
  change some ((a ++ b).toList.map _) = _
  rw [String.toList_append, List.map_append]

/-- Indexing is exact.  An index selects the item at the position that it is as a number, and
nothing if it is no position; the length is the number of items.  A string is its characters joined,
and an index into two strings joined leads into the first one if it is below its length, and
otherwise, less that length, into the second one. -/
theorem indexing_exact (scope : Scope) :
    (∀ object index l w w₁ w₂ x v items,
      (evaluate scope object).Gives w (.done x w₁) →
      (evaluate scope index).Gives w₁ (.done v w₂) →
      w₂.memory.indexed? x = some items →
      ∀ out, (evaluate scope (.mk (.index object index) l)).Gives w out ↔
        ∃ y, Value.Selects items v y ∧ out = .done y w₂) ∧
    (∀ object l w w₁ x items, (evaluate scope object).Gives w (.done x w₁) →
      w₁.memory.indexed? x = some items → items.length < 2 ^ 53 →
      ∃ n, rational? n = some (items.length : ℚ) ∧
        (evaluate scope (.mk (.member object (w₁.engine scope.engine).lengthName) l)).Gives w
          (.done (.number n) w₁)) ∧
    (∀ object w k s, (evaluate scope object).Gives w (.done (.string s) w) →
      s.length = k + 1 → s.length < 2 ^ 53 →
      (evaluate scope (object.itemsUpTo k)).Gives w (.done (.string s) w)) ∧
    ∀ left right index w a b v,
      (evaluate scope left).Gives w (.done (.string a) w) →
      (evaluate scope right).Gives w (.done (.string b) w) →
      (evaluate scope index).Gives w (.done v w) → a.length + b.length < 2 ^ 53 →
      ((∃ q, rational? v.toNumber = some q ∧ q < a.length) →
        (evaluate scope (.unlocated (.index (.unlocated (.binary .add left right)) index))).SameFrom
          (evaluate scope (.unlocated (.index left index))) w) ∧
      ((¬∃ q, rational? v.toNumber = some q ∧ q < a.length) →
        (evaluate scope (.unlocated (.index (.unlocated (.binary .add left right)) index))).SameFrom
          (evaluate scope (.unlocated (.index right (.unlocated (.binary .sub index
            (.unlocated (.member left (w.engine scope.engine).lengthName))))))) w) := by
  refine ⟨?_, ?_, ?_, ?_⟩
  · intro object index l w w₁ w₂ x v items hobject hindex hitems out
    rw [gives_index_of_indexed hobject hindex hitems]
    simp [Value.selects_iff]
  · intro object l w w₁ x items hobject hitems hlength
    exact ⟨_, Value.rational?_ofLength hlength, gives_length hobject hitems⟩
  · intro object w k s hobject hk hlength
    have hlast := gives_itemsUpTo hobject (k := k) (by rw [String.length_toList]; omega) hlength
    rwa [← hk, ← String.length_toList, List.take_length, String.ofList_toList] at hlast
  · intro left right index w a b v hleft hright hindex hlength
    have hcount : ∀ s : String,
        (s.toList.map fun c => Value.string (.singleton c)).length = s.length := fun s => by
      rw [List.length_map, String.length_toList]
    constructor
    · intro hbelow out
      rw [gives_index_joined hleft hright hindex, Value.select?_append_of_lt (by rwa [hcount])]
      exact (gives_index_of_indexed hleft hindex rfl).symm
    · intro hbeyond out
      have hleftLength := gives_length (l := .unknown) hleft rfl
      rw [hcount] at hleftLength
      have hdifference : BinaryOp.sub.compute? w.memory v (.ofLength a.length) =
          some (.number (v.toNumber - (Value.ofLength a.length).toNumber)) := rfl
      have hsub := gives_binary hindex hleftLength hdifference .unknown
      have hnumber := Value.rational?_ofLength (n := a.length) (by omega)
      rw [gives_index_joined hleft hright hindex,
        Value.select?_append_of_not_lt (by rwa [hcount]) (by rwa [hcount, hcount])
          (by rwa [hcount])]
      exact (gives_index_of_indexed hright hsub rfl).symm

namespace Listed

/-- An interner that has seen one text. -/
def interner : Interner :=
  ⟨#["", "length"], by decide⟩

/-- One engine, and an array of two items. -/
def world : World :=
  { World.empty with
    memory := { Memory.empty with
      interners := (Pool.empty.add interner).2
      arrays := (Pool.empty.add #[.number 7, .bool false]).2 }
    engines := (Pool.empty.add { (default : Engine) with lengthName := ⟨1⟩ }).2 }

/-- The array, as an expression. -/
def listed : Expr :=
  .unlocated (.literal (.array ⟨0⟩))

/-- A string, as an expression. -/
def quoted (s : String) : Expr :=
  .unlocated (.literal (.string s))

end Listed

open Listed in
/-- `[7, false][true]` is `false` and `[7, false][9223372036854775808]` is `undefined`; the string
`"aé"` is its characters, and `("aé" + "b")["2"]` is `"b"["2" - "aé".length]`. -/
theorem indexing_exact_listed :
    (evaluate (.top ⟨0⟩) (.unlocated (.index listed (.unlocated (.literal (.bool true)))))).Gives
      world (.done (.bool false) world) ∧
    (evaluate (.top ⟨0⟩)
      (.unlocated (.index listed (.unlocated (.literal (.number 9223372036854775808)))))).Gives
        world (.done .undefined world) ∧
    world.lookup ⟨0⟩ (world.engine ⟨0⟩).lengthName = "length" ∧
    (∃ n, rational? n = some ((2 : ℕ) : ℚ) ∧ (evaluate (.top ⟨0⟩)
      (.unlocated (.member listed (world.engine ⟨0⟩).lengthName))).Gives world
        (.done (.number n) world)) ∧
    (evaluate (.top ⟨0⟩) ((quoted "aé").itemsUpTo 1)).Gives world (.done (.string "aé") world) ∧
    (evaluate (.top ⟨0⟩) (.unlocated (.index
      (.unlocated (.binary .add (quoted "aé") (quoted "b"))) (quoted "2")))).SameFrom
        (evaluate (.top ⟨0⟩) (.unlocated (.index (quoted "b") (.unlocated (.binary .sub (quoted "2")
          (.unlocated (.member (quoted "aé") (world.engine ⟨0⟩).lengthName))))))) world := by
  obtain ⟨hindex, hlength, hjoined, hsplit⟩ := indexing_exact (.top ⟨0⟩)
  have hitems : world.memory.indexed? (.array ⟨0⟩) = some [.number 7, .bool false] := rfl
  refine ⟨?_, ?_, rfl, ?_, ?_, ?_⟩
  · refine (hindex _ _ _ _ _ _ _ _ _ (gives_literal _ _) (gives_literal _ _) hitems _).2 ?_
    exact ⟨_, .item (k := 1) (toNat?_eq_some_iff.1 rfl) rfl, rfl⟩
  · refine (hindex _ _ _ _ _ _ _ _ _ (gives_literal _ _) (gives_literal _ _) hitems _).2 ?_
    have hlarge : rational? 9223372036854775808 = some ((2 ^ 63 : ℕ) : ℚ) :=
      toNat?_eq_some_iff.1 rfl
    refine ⟨_, .absent fun k hk hposition => ?_, rfl⟩
    have hk' : ((2 ^ 63 : ℕ) : ℚ) = k := Option.some.inj (hlarge.symm.trans hposition)
    rw [← Nat.cast_injective hk'] at hk
    exact absurd hk (by decide)
  · exact hlength _ _ _ _ _ _ (gives_literal _ _) hitems (by decide)
  · exact hjoined _ _ 1 "aé" (gives_literal _ _) (by decide) (by decide)
  · refine (hsplit _ _ _ _ _ _ _ (gives_literal _ _) (gives_literal _ _) (gives_literal _ _)
      (by decide)).2 ?_
    rintro ⟨q, hq, hlt⟩
    have htwo : rational? (Value.string "2").toNumber = some ((2 : ℕ) : ℚ) :=
      toNat?_eq_some_iff.1 (by decide +kernel)
    have hlength : "aé".length = 2 := rfl
    rw [← Option.some.inj (htwo.symm.trans hq), hlength] at hlt
    exact absurd hlt (lt_irrefl _)

end Process

end ScriptEngine
