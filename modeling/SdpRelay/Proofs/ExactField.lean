import Mathlib
import SdpRelay.Number.DoubleWord

namespace SdpRelay

/-!
# Exact arithmetic

An ordered field reads the numerical code of this library without rounding.
The comparisons are those of the field, every number is finite, and each
correction of a double word is zero.  The lemmas below say that every double
word operation is the operation of the field on the values.
-/

/--
A linearly ordered field as a scalar type.

A field need not have roots, so the functions that would take them are part of
the data.  Nothing is assumed about them.
-/
class ExactField (K : Type) extends
    Field K, LinearOrder K, IsStrictOrderedRing K where
  sqrt : K → K
  hypot : K → K → K
  power : K → K → K
  invSqrtTwo : K

/-- The arithmetic of an ordered field, with no rounding and no exceptional values. -/
instance (priority := low) ExactField.toScalar
    {K : Type}
    [ExactField K] :
    Scalar K where
  decidableLT := inferInstance
  decidableLE := inferInstance
  beq a b := decide (a = b)
  ofCount n := n
  abs x := |x|
  larger := max
  smaller := min
  sign x := if x < 0 then -1 else 1
  sqrt := ExactField.sqrt
  hypot := ExactField.hypot
  power := ExactField.power
  mulAdd a b c := a * b + c
  isNaN _ := false
  isFinite _ := true
  machineEpsilon := 0
  invSqrtTwo := ExactField.invSqrtTwo

/-- The rational numbers, with square roots rounded to rational ones. -/
instance : ExactField ℚ where
  sqrt := Rat.sqrt
  hypot a b := Rat.sqrt (a * a + b * b)
  power base exponent := if exponent = 1 then base else Rat.sqrt base
  invSqrtTwo := Rat.sqrt (1 / 2)

section

variable {K : Type} [ExactField K]

@[simp] theorem scalarAbs_eq (x : K) :
    Scalar.abs x = |x| :=
  rfl

@[simp] theorem scalarLarger_eq (a b : K) :
    Scalar.larger a b = max a b :=
  rfl

@[simp] theorem scalarSmaller_eq (a b : K) :
    Scalar.smaller a b = min a b :=
  rfl

namespace DoubleWord

@[simp] theorem value_normalized (high low : K) :
    (normalized high low).value = high + low := by
  simp only [normalized, value, orderedSum, Scalar.isFinite, ↓reduceIte]
  ring

@[simp] theorem value_single (x : K) :
    (single x).value = x := by
  simp [single, value]

@[simp] theorem value_zero :
    (zero : DoubleWord K).value = 0 :=
  value_single 0

@[simp] theorem value_add (q : DoubleWord K) (x : K) :
    (q.add x).value = q.value + x := by
  rw [add, value_normalized]
  simp only [exactSum, value]
  ring

@[simp] theorem value_sub (q : DoubleWord K) (x : K) :
    (q.sub x).value = q.value - x := by
  simp only [sub, value_add]
  ring

@[simp] theorem value_addWord (q r : DoubleWord K) :
    (q.addWord r).value = q.value + r.value := by
  rw [addWord, value_normalized]
  simp only [exactSum, value]
  ring

@[simp] theorem value_scale (q : DoubleWord K) (x : K) :
    (q.scale x).value = q.value * x := by
  rw [scale, value_normalized]
  simp only [product, Scalar.mulAdd, value]
  ring

/-- Adding a product adds it to the value. -/
@[simp] theorem value_addProduct (q : DoubleWord K) (a b : K) :
    (q.addProduct a b).value = q.value + a * b := by
  have sumValue :
      (q.add (a * b)).high + (q.add (a * b)).low =
        q.value + a * b :=
    value_add q (a * b)
  simp only [addProduct, value_normalized, product, Scalar.mulAdd]
  rw [← sumValue]
  ring

end DoubleWord

end

end SdpRelay
