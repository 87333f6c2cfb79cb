import DocGraph.Proofs.Value.Order
import Mathlib.Algebra.Order.Field.Rat
import Mathlib.Data.Rat.Cast.Defs

/-!
# Scalars that are one key

Scalars of different types may be one and the same key. They are if they stand for the same thing: a number
of whatever type for its size, a day for its place in the calendar, a point in time for its instant. A
floating-point number that is none stands for nothing, and is the same as nothing.

So what is the same as a key is found where the key is found.
-/

namespace DocGraph

/-! ### Sizes of numbers -/

namespace Number.Real

/-- The size of a number: a fraction in its lowest terms, or infinite on one side. -/
inductive Size
  | finite (q : ℚ)
  | infinite (negative : Bool)

/-- The size of a number, if it is one. -/
def size? : Real → Option Size
  | .fraction num den => some (.finite (num / den))
  | .infinite negative => some (.infinite negative)
  | .nan => none

/-- A fraction has a denominator. -/
def IsProper : Real → Prop
  | .fraction _ den => den ≠ 0
  | _ => True

lemma isProper_ofInt (n : Int) : (ofInt n).IsProper := one_ne_zero

lemma isProper_ofFloat (x : Float) : (ofFloat x).IsProper := by
  have hpow (n : Nat) : Nat.pow 2 n ≠ 0 := (Nat.two_pow_pos n).ne'
  rw [ofFloat]
  cases Parts.ofFloat x with
  | finite b =>
    simp only [IsProper, Binary.fraction]
    split
    · exact one_ne_zero
    · exact hpow _
  | _ => trivial

@[simp] lemma compare?_nan (a : Real) : a.compare? .nan = none := by cases a <;> rfl

@[simp] lemma nan_compare? (b : Real) : compare? .nan b = none := rfl

/-- Numbers are equal if and only if they are of one size. -/
lemma compare?_eq_eq_iff {a b : Real} (ha : a.IsProper) (hb : b.IsProper) :
    a.compare? b = some .eq ↔ ∃ x, a.size? = some x ∧ b.size? = some x := by
  cases a with
  | nan => simp [size?]
  | infinite p =>
    cases b with
    | infinite q => cases p <;> cases q <;> simp [compare?, size?]
    | _ => cases p <;> simp [compare?, size?]
  | fraction n d =>
    cases b with
    | fraction n' d' =>
      have hd : (d : ℚ) ≠ 0 := Nat.cast_ne_zero.2 ha
      have hd' : (d' : ℚ) ≠ 0 := Nat.cast_ne_zero.2 hb
      simp only [compare?, size?, Option.some.injEq, compare_eq_iff_eq, exists_eq_left',
        Size.finite.injEq]
      rw [div_eq_div_iff hd' hd]
      norm_cast
      exact eq_comm
    | infinite q => cases q <;> simp [compare?, size?]
    | nan => simp [compare?, size?]

end Number.Real

/-! ### What scalars stand for -/

/-- What a scalar stands for. -/
inductive Standing
  | null
  | text (s : String)
  | day (ordinal : Nat)
  | instant (isZoned : Bool) (microseconds : Int)
  | number (size : Number.Real.Size)
  | nan (mark : Nat)

namespace Scalar

open Number

/-- What a scalar stands for. -/
def standing? : Scalar → Option Standing
  | .null => some .null
  | .text s => some (.text s)
  | .date d => some (.day d.ordinal)
  | .time t => some (.instant t.offset.isSome t.instant)
  | .nan mark => some (.nan mark)
  | .bool b => (Real.ofInt (if b then 1 else 0)).size?.map .number
  | .int n => (Real.ofInt n).size?.map .number
  | .float x => (Real.ofFloat x).size?.map .number

/-- Scalars are one and the same if and only if they stand for the same. -/
lemma same_iff {a b : Scalar} : a.same b = true ↔ ∃ s, a.standing? = some s ∧ b.standing? = some s := by
  cases a with
  | text s =>
    rw [text_same_iff]
    cases b <;> simp [standing?]
  | null | date _ | time _ | nan _ =>
    cases b <;> simp [same, equals, compare?, standing?, number?]
    all_goals grind
  | bool _ | int _ | float _ =>
    cases b <;>
      simp [same, equals, compare?, standing?, number?, Real.compare?_eq_eq_iff, Real.isProper_ofInt,
        Real.isProper_ofFloat]

lemma standing?_eq_of_same {a b : Scalar} (h : a.same b = true) : a.standing? = b.standing? := by
  obtain ⟨s, ha, hb⟩ := same_iff.1 h
  rw [ha, hb]

lemma same_right_congr {a b : Scalar} (c : Scalar) (h : a.same b = true) : c.same a = c.same b := by
  rw [Bool.eq_iff_iff, same_iff, same_iff, standing?_eq_of_same h]

lemma same_left_congr {a b : Scalar} (c : Scalar) (h : a.same b = true) : a.same c = b.same c := by
  rw [Bool.eq_iff_iff, same_iff, same_iff, standing?_eq_of_same h]

end Scalar

/-- What is the same as a key is found where the key is found. -/
lemma Value.find?_congr {key key' : Scalar} (ps : List (Scalar × Value)) (h : key.same key' = true) :
    Value.find? ps key = Value.find? ps key' := by
  simp only [Value.find?, Scalar.same_right_congr _ h]

end DocGraph
