import Mathlib
import ScriptEngine.Value.Operation

/-!
# Equality and order

Equality with conversion, equality without and the order are three functions of their own.  They
agree with each other: on numbers all of them come from one comparison of exact values
(`Number.orderNumbers_eq_compare`), and on strings from that of the characters.

Main statement: `Value.comparisons_coherent`, the laws of the eight comparisons for values of any
kind.
-/

namespace ScriptEngine

/-! ### The order of doubles -/

namespace Number

open Float.Model (UnpackedFloat)
open Float.Model.UnpackedFloat (Sign)

variable {x y : Float}

/-- Doubles are compared as what they unpack to. -/
lemma lt_iff_compare : x < y ↔ x.toModel.unpack.compare y.toModel.unpack = some .lt := by
  change decide (x.toModel < y.toModel) = true ↔ _
  rw [decide_eq_true_iff]
  change (x.toModel.unpack.compare y.toModel.unpack == some .lt) = true ↔ _
  rw [beq_iff_eq]

lemma beq_iff_compare : x == y ↔ x.toModel.unpack.compare y.toModel.unpack = some .eq := by
  change (x.toModel.unpack.compare y.toModel.unpack == some .eq) = true ↔ _
  rw [beq_iff_eq]

lemma compare_sign_swap (s t : Sign) : (compare s t).swap = compare t s := by
  cases s <;> cases t <;> rfl

/-- A comparison the other way round gives the opposite. -/
lemma compare_unpacked_swap (u v : UnpackedFloat) : (u.compare v).map .swap = v.compare u := by
  cases u with
  | notANumber => cases v <;> rfl
  | infinity s =>
    cases v with
    | infinity t => exact congrArg some (compare_sign_swap s t)
    | _ => cases s <;> rfl
  | zero s =>
    cases v with
    | infinity t => cases t <;> rfl
    | finite t m e h => cases t <;> rfl
    | _ => rfl
  | finite s m e h =>
    cases v with
    | infinity t => cases s <;> cases t <;> rfl
    | notANumber => cases s <;> rfl
    | zero t => cases s <;> rfl
    | finite t n f h' =>
      cases s <;> cases t <;>
        simp [UnpackedFloat.compare, Ordering.swap_then, ← Std.OrientedCmp.eq_swap]

/-- There is no order exactly where something is not a number. -/
lemma compare_unpacked_eq_none_iff {u v : UnpackedFloat} :
    u.compare v = none ↔ u = .notANumber ∨ v = .notANumber := by
  fun_cases UnpackedFloat.compare u v <;> simp_all

lemma isNaN_iff : x.isNaN ↔ x.toModel.unpack = .notANumber := by
  change x.toModel.unpack.isNaN = true ↔ _
  cases x.toModel.unpack <;> simp [UnpackedFloat.isNaN]

/-- The order of doubles is that of what they unpack to. -/
lemma orderNumbers_eq_compare (x y : Float) :
    Value.orderNumbers x y = x.toModel.unpack.compare y.toModel.unpack := by
  unfold Value.orderNumbers
  simp only [lt_iff_compare, beq_iff_compare, ← compare_unpacked_swap x.toModel.unpack]
  cases x.toModel.unpack.compare y.toModel.unpack with
  | none => rfl
  | some o => cases o <;> rfl

lemma orderNumbers_swap (x y : Float) :
    (Value.orderNumbers x y).map .swap = Value.orderNumbers y x := by
  rw [orderNumbers_eq_compare, orderNumbers_eq_compare, compare_unpacked_swap]

lemma orderNumbers_eq_none_iff : Value.orderNumbers x y = none ↔ x.isNaN ∨ y.isNaN := by
  rw [orderNumbers_eq_compare, compare_unpacked_eq_none_iff, isNaN_iff, isNaN_iff]

lemma orderNumbers_eq_some_eq_iff : Value.orderNumbers x y = some .eq ↔ x == y := by
  rw [orderNumbers_eq_compare, beq_iff_compare]

end Number

/-! ### Values -/

namespace Value

/-- The kinds of values. -/
inductive Kind where
  | undefined | number | bool | string | array | object | native
deriving DecidableEq

/-- The kind of a value. -/
def kind : Value → Kind
  | undefined => .undefined
  | number _ => .number
  | bool _ => .bool
  | string _ => .string
  | array _ => .array
  | object _ => .object
  | native _ => .native

/-- The kinds of values that convert to each other. -/
def Kind.IsPrimitive (k : Kind) : Prop :=
  k = .number ∨ k = .bool ∨ k = .string

variable {a b c : Value}

lemma looselyEquals_comm (a b : Value) : a.looselyEquals b = b.looselyEquals a := by
  cases a <;> cases b <;> simp only [looselyEquals] <;> exact BEq.comm

lemma strictlyEquals_comm (a b : Value) : a.strictlyEquals b = b.strictlyEquals a := by
  cases a <;> cases b <;> simp only [strictlyEquals] <;> exact BEq.comm

lemma strictlyEquals_trans (hab : a.strictlyEquals b) (hbc : b.strictlyEquals c) :
    a.strictlyEquals c := by
  cases a <;> cases b <;> cases c <;> simp_all [strictlyEquals]
  exact BEq.trans hab hbc

lemma kind_eq_of_strictlyEquals (h : a.strictlyEquals b) : a.kind = b.kind := by
  cases a <;> cases b <;> simp_all [strictlyEquals, kind]

/-- Values of one kind are equal with conversion exactly if they are so without. -/
lemma strictlyEquals_eq_looselyEquals (h : a.kind = b.kind) :
    a.strictlyEquals b = a.looselyEquals b := by
  cases a <;> cases b <;> simp_all [strictlyEquals, looselyEquals, kind, toNumber]
  case bool.bool b b' => cases b <;> cases b' <;> rfl

lemma order_of_not_strings (h : ¬(a.kind = .string ∧ b.kind = .string)) :
    a.order b = orderNumbers a.toNumber b.toNumber := by
  unfold order
  split
  · exact absurd ⟨rfl, rfl⟩ h
  · rfl

lemma exists_strings (h : a.kind = .string ∧ b.kind = .string) :
    ∃ s t, a = string s ∧ b = string t ∧ a.order b = some (compare s t) := by
  cases a <;> cases b <;> simp_all [kind, order]

/-- The order the other way round is the opposite one. -/
lemma order_swap (a b : Value) : (a.order b).map .swap = b.order a := by
  by_cases h : a.kind = .string ∧ b.kind = .string
  · obtain ⟨s, t, rfl, rfl, horder⟩ := exists_strings h
    rw [horder]
    exact congrArg some Std.OrientedCmp.eq_swap.symm
  · rw [order_of_not_strings h, order_of_not_strings (h ∘ And.symm), Number.orderNumbers_swap]

lemma isNaN_toNumber_of_not_primitive (h : ¬a.kind.IsPrimitive) : a.toNumber.isNaN := by
  have hnan : Number.nan.isNaN := rfl
  cases a <;> simp_all [kind, Kind.IsPrimitive, toNumber]

/-- Values that are not both strings have no order exactly if one of them is not a number. -/
lemma order_eq_none_iff (h : ¬(a.kind = .string ∧ b.kind = .string)) :
    a.order b = none ↔ a.toNumber.isNaN ∨ b.toNumber.isNaN := by
  rw [order_of_not_strings h, Number.orderNumbers_eq_none_iff]

lemma looselyEquals_of_primitive (h : ¬(a.kind = .string ∧ b.kind = .string))
    (ha : a.kind.IsPrimitive) (hb : b.kind.IsPrimitive) :
    a.looselyEquals b = (a.toNumber == b.toNumber) := by
  cases a <;> cases b <;> simp_all [kind, Kind.IsPrimitive, looselyEquals]

/-- Primitive values are in the same place of the order exactly if they are equal. -/
lemma order_eq_some_eq_iff (ha : a.kind.IsPrimitive) (hb : b.kind.IsPrimitive) :
    a.order b = some .eq ↔ a.looselyEquals b := by
  by_cases h : a.kind = .string ∧ b.kind = .string
  · obtain ⟨s, t, rfl, rfl, horder⟩ := exists_strings h
    rw [horder, Option.some.injEq, Std.compare_eq_iff_eq]
    exact beq_iff_eq.symm
  · rw [order_of_not_strings h, looselyEquals_of_primitive h ha hb,
      Number.orderNumbers_eq_some_eq_iff]

/-- Only primitive values have an order. -/
lemma isPrimitive_of_order {o : Ordering} (h : a.order b = some o) :
    a.kind.IsPrimitive ∧ b.kind.IsPrimitive := by
  by_cases hstrings : a.kind = .string ∧ b.kind = .string
  · exact ⟨.inr (.inr hstrings.1), .inr (.inr hstrings.2)⟩
  · have hnumbers : ¬(a.toNumber.isNaN ∨ b.toNumber.isNaN) := by
      rw [← order_eq_none_iff hstrings, h]
      exact Option.some_ne_none o
    rw [not_or] at hnumbers
    exact ⟨not_imp_comm.1 isNaN_toNumber_of_not_primitive hnumbers.1,
      not_imp_comm.1 isNaN_toNumber_of_not_primitive hnumbers.2⟩

end Value

/-! ### The laws -/

/-- A comparison of two values gives true, whatever the memory. -/
def BinaryOp.Holds (op : BinaryOp) (a b : Value) : Prop :=
  ∀ m, op.compute? m a b = some (.bool true)

namespace BinaryOp

variable {a b : Value}

lemma holds_iff {op : BinaryOp} {t : Bool} (h : ∀ m, op.compute? m a b = some (.bool t)) :
    op.Holds a b ↔ t := by
  simp [Holds, h]

lemma holds_eq : eq.Holds a b ↔ a.looselyEquals b := holds_iff fun _ => rfl

lemma holds_strictEq : strictEq.Holds a b ↔ a.strictlyEquals b := holds_iff fun _ => rfl

lemma holds_notEq : notEq.Holds a b ↔ ¬a.looselyEquals b := by
  rw [holds_iff fun _ => rfl, Bool.not_eq_true', Bool.not_eq_true]

lemma holds_strictNotEq : strictNotEq.Holds a b ↔ ¬a.strictlyEquals b := by
  rw [holds_iff fun _ => rfl, Bool.not_eq_true', Bool.not_eq_true]

lemma holds_lt : lt.Holds a b ↔ a.order b = some .lt := by
  rw [holds_iff fun _ => rfl, beq_iff_eq]

lemma holds_gt : gt.Holds a b ↔ a.order b = some .gt := by
  rw [holds_iff fun _ => rfl, beq_iff_eq]

lemma holds_ltEq : ltEq.Holds a b ↔ a.order b = some .lt ∨ a.order b = some .eq := by
  rw [holds_iff fun _ => rfl]
  cases a.order b with
  | none => simp
  | some o => cases o <;> simp

lemma holds_gtEq : gtEq.Holds a b ↔ a.order b = some .gt ∨ a.order b = some .eq := by
  rw [holds_iff fun _ => rfl]
  cases a.order b with
  | none => simp
  | some o => cases o <;> simp

end BinaryOp

namespace Value

open BinaryOp

/-- The laws of the comparisons, for three values. -/
structure CoherentComparisons (a b c : Value) : Prop where
  /-- A comparison gives true or false, whatever the memory. -/
  decided : ∀ op : BinaryOp, op.isComparison →
    op.Holds a b ∨ ∀ m, op.compute? m a b = some (.bool false)
  eq_symm : eq.Holds a b ↔ eq.Holds b a
  strictEq_symm : strictEq.Holds a b ↔ strictEq.Holds b a
  notEq_iff : notEq.Holds a b ↔ ¬eq.Holds a b
  strictNotEq_iff : strictNotEq.Holds a b ↔ ¬strictEq.Holds a b
  strictEq_trans : strictEq.Holds a b → strictEq.Holds b c → strictEq.Holds a c
  eq_of_strictEq : strictEq.Holds a b → eq.Holds a b
  /-- There is nothing to convert between values of one kind. -/
  eq_iff_strictEq : a.kind = b.kind → (eq.Holds a b ↔ strictEq.Holds a b)
  lt_iff_gt : lt.Holds a b ↔ gt.Holds b a
  ltEq_iff_gtEq : ltEq.Holds a b ↔ gtEq.Holds b a
  not_lt_and_gt : ¬(lt.Holds a b ∧ gt.Holds a b)
  ltEq_of_lt : lt.Holds a b → ltEq.Holds a b
  eq_of_ltEq_of_gtEq : ltEq.Holds a b → gtEq.Holds a b → eq.Holds a b
  /-- For numbers, truth values and strings the order and equality fit together. -/
  ltEq_iff_lt_or_eq : a.kind.IsPrimitive → b.kind.IsPrimitive →
    (ltEq.Holds a b ↔ lt.Holds a b ∨ eq.Holds a b)
  /-- What is not a number is not ordered, unless it is compared as text. -/
  unordered : ¬(a.kind = .string ∧ b.kind = .string) → a.toNumber.isNaN ∨ b.toNumber.isNaN →
    ¬lt.Holds a b ∧ ¬ltEq.Holds a b ∧ ¬gt.Holds a b ∧ ¬gtEq.Holds a b
  /-- `undefined` and references are not numbers. -/
  isNaN_toNumber : ¬a.kind.IsPrimitive → a.toNumber.isNaN

/-- The comparisons of values of any kinds are coherent. -/
theorem comparisons_coherent (a b c : Value) : CoherentComparisons a b c where
  decided op hop := by
    obtain ⟨t, ht⟩ : ∃ t, ∀ m, op.compute? m a b = some (.bool t) := by
      cases op <;> simp only [isComparison, Bool.false_eq_true] at hop <;> exact ⟨_, fun _ => rfl⟩
    cases t with
    | true => exact .inl ht
    | false => exact .inr ht
  eq_symm := by rw [holds_eq, holds_eq, looselyEquals_comm]
  strictEq_symm := by rw [holds_strictEq, holds_strictEq, strictlyEquals_comm]
  notEq_iff := by rw [holds_notEq, holds_eq]
  strictNotEq_iff := by rw [holds_strictNotEq, holds_strictEq]
  strictEq_trans := by
    simp only [holds_strictEq]
    exact strictlyEquals_trans
  eq_of_strictEq h := by
    rw [holds_strictEq] at h
    rwa [holds_eq, ← strictlyEquals_eq_looselyEquals (kind_eq_of_strictlyEquals h)]
  eq_iff_strictEq h := by rw [holds_eq, holds_strictEq, strictlyEquals_eq_looselyEquals h]
  lt_iff_gt := by
    rw [holds_lt, holds_gt, ← order_swap a b]
    cases a.order b with
    | none => simp
    | some o => cases o <;> simp
  ltEq_iff_gtEq := by
    rw [holds_ltEq, holds_gtEq, ← order_swap a b]
    cases a.order b with
    | none => simp
    | some o => cases o <;> simp
  not_lt_and_gt := by
    rw [holds_lt, holds_gt]
    rintro ⟨hlt, hgt⟩
    exact nomatch hlt.symm.trans hgt
  ltEq_of_lt h := holds_ltEq.2 (.inl (holds_lt.1 h))
  eq_of_ltEq_of_gtEq hle hge := by
    have heq : a.order b = some .eq := by
      rcases holds_ltEq.1 hle with hlt | heq
      · rcases holds_gtEq.1 hge with hgt | heq
        · exact nomatch hlt.symm.trans hgt
        · exact heq
      · exact heq
    obtain ⟨ha, hb⟩ := isPrimitive_of_order heq
    exact holds_eq.2 ((order_eq_some_eq_iff ha hb).1 heq)
  ltEq_iff_lt_or_eq ha hb := by rw [holds_ltEq, holds_lt, holds_eq, order_eq_some_eq_iff ha hb]
  unordered hstrings hnan := by
    rw [holds_lt, holds_ltEq, holds_gt, holds_gtEq, (order_eq_none_iff hstrings).2 hnan]
    simp
  isNaN_toNumber := isNaN_toNumber_of_not_primitive

theorem comparisons_coherent_one_true :
    eq.Holds (bool true) (number 1) ∧ ltEq.Holds (number 1) (bool true) ∧
      ¬strictEq.Holds (number 1) (bool true) ∧ ¬ltEq.Holds undefined (string "") := by
  have hone := comparisons_coherent (number 1) (bool true) (number 1)
  have hundefined := comparisons_coherent undefined (string "") undefined
  have heq : eq.Holds (number 1) (bool true) := holds_eq.2 rfl
  have hstrict : strictNotEq.Holds (number 1) (bool true) := holds_strictNotEq.2 (by decide)
  refine ⟨hone.eq_symm.1 heq, ?_, hone.strictNotEq_iff.1 hstrict, ?_⟩
  · exact (hone.ltEq_iff_lt_or_eq (.inl rfl) (.inr (.inl rfl))).2 (.inr heq)
  · have hnumber : undefined.toNumber.isNaN :=
      hundefined.isNaN_toNumber (by simp [kind, Kind.IsPrimitive])
    exact (hundefined.unordered (by simp [kind]) (.inl hnumber)).2.1

end Value

end ScriptEngine
