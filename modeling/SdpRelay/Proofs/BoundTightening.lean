import Mathlib
import SdpRelay.Presolve.Bounds
import SdpRelay.Proofs.ExactField

namespace SdpRelay

/-!
# Tightening of bounds

A row with one free variable changes the bounds of that variable and no others.
Over an exact field the changed bounds lie inside the old ones, they still
contain every point that satisfies the row, and every point inside of them
satisfies the row up to `epsilon` times its coefficient.
-/

namespace Bounds

section

variable {α : Type} [Scalar α]

/-- Two systems of bounds that differ at most in those of one variable. -/
structure SameExcept
    (var : Nat)
    (before after : Bounds α) : Prop where
  lowerLength : after.lower.length = before.lower.length
  upperLength : after.upper.length = before.upper.length
  lower : ∀ other, other ≠ var → after.lowerAt other = before.lowerAt other
  upper : ∀ other, other ≠ var → after.upperAt other = before.upperAt other

namespace SameExcept

theorem refl
    (var : Nat)
    (bounds : Bounds α) :
    SameExcept var bounds bounds :=
  ⟨rfl, rfl, fun _ _ => rfl, fun _ _ => rfl⟩

theorem trans
    {var : Nat}
    {first second third : Bounds α}
    (earlier : SameExcept var first second)
    (later : SameExcept var second third) :
    SameExcept var first third where
  lowerLength := later.lowerLength.trans earlier.lowerLength
  upperLength := later.upperLength.trans earlier.upperLength
  lower other distinct :=
    (later.lower other distinct).trans (earlier.lower other distinct)
  upper other distinct :=
    (later.upper other distinct).trans (earlier.upper other distinct)

theorem fixed_iff
    {var other : Nat}
    {before after : Bounds α}
    {epsilon : α}
    (same : SameExcept var before after)
    (distinct : other ≠ var) :
    after.Fixed epsilon other ↔ before.Fixed epsilon other := by
  simp only [Fixed, same.lower other distinct, same.upper other distinct]

end SameExcept

/-- Replacing a lower bound changes the bounds of one variable. -/
theorem setLower_sameExcept
    (bounds : Bounds α)
    (var : Nat)
    (value : α)
    (source : BoundSource) :
    SameExcept var bounds (bounds.setLower var value source) where
  lowerLength := by
    simp [setLower]
  upperLength := rfl
  lower other distinct := by
    simp [lowerAt, setLower, List.getD_eq_getElem?_getD,
      List.getElem?_set_ne distinct.symm]
  upper other distinct := rfl

theorem setUpper_sameExcept
    (bounds : Bounds α)
    (var : Nat)
    (value : α)
    (source : BoundSource) :
    SameExcept var bounds (bounds.setUpper var value source) where
  lowerLength := rfl
  upperLength := by
    simp [setUpper]
  lower other distinct := rfl
  upper other distinct := by
    simp [upperAt, setUpper, List.getD_eq_getElem?_getD,
      List.getElem?_set_ne distinct.symm]

variable
  (bounds : Bounds α)
  (sentinel epsilon : α)
  (row var : Nat)
  (coef left right : α)

/-- Raising a lower bound changes the bounds of one variable. -/
theorem raiseLower_sameExcept :
    SameExcept var bounds
      (bounds.raiseLower sentinel epsilon row var coef left right).1 := by
  simp only [raiseLower]
  split
  · exact setLower_sameExcept bounds var _ _
  · exact SameExcept.refl var bounds

theorem dropUpper_sameExcept :
    SameExcept var bounds
      (bounds.dropUpper sentinel epsilon row var coef left right).1 := by
  simp only [dropUpper]
  split
  · exact setUpper_sameExcept bounds var _ _
  · exact SameExcept.refl var bounds

/-- A row with one free variable changes the bounds of that variable only. -/
theorem tighten_sameExcept :
    SameExcept var bounds
      (bounds.tighten sentinel epsilon row var coef left right).1 :=
  (bounds.raiseLower_sameExcept sentinel epsilon row var coef left right).trans
    (dropUpper_sameExcept _ sentinel epsilon row var coef left right)

/--
The lower bound after tightening: the implied one if it is better by more than
`epsilon`.
-/
theorem lowerAt_tighten
    (inRange : var < bounds.lower.length) :
    (bounds.tighten sentinel epsilon row var coef left right).1.lowerAt var =
      if bounds.lowerAt var + epsilon < impliedLower sentinel coef left right then
        impliedLower sentinel coef left right
      else
        bounds.lowerAt var := by
  have dropKeepsLower
      (raised : Bounds α) :
      (raised.dropUpper sentinel epsilon row var coef left right).1.lowerAt var =
        raised.lowerAt var := by
    simp only [dropUpper]
    split <;> rfl
  rw [tighten, dropKeepsLower]
  simp only [raiseLower]
  split
  · simp [lowerAt, setLower, List.getD_eq_getElem?_getD, inRange]
  · rfl

theorem upperAt_tighten
    (inRange : var < bounds.upper.length) :
    (bounds.tighten sentinel epsilon row var coef left right).1.upperAt var =
      if impliedUpper sentinel coef left right < bounds.upperAt var - epsilon then
        impliedUpper sentinel coef left right
      else
        bounds.upperAt var := by
  have raiseKeepsUpper :
      (bounds.raiseLower sentinel epsilon row var coef left right).1.upper =
        bounds.upper := by
    simp only [raiseLower]
    split <;> rfl
  have sameUpper :
      (bounds.raiseLower sentinel epsilon row var coef left right).1.upperAt var =
        bounds.upperAt var := by
    simp only [upperAt, raiseKeepsUpper]
  simp only [tighten, dropUpper, sameUpper]
  split
  · simp [upperAt, setUpper, List.getD_eq_getElem?_getD,
      raiseKeepsUpper, inRange]
  · exact sameUpper

end

section Exact

variable {K : Type} [ExactField K]

/-- A point lies between the bounds of every variable. -/
def Contains
    (bounds : Bounds K)
    (point : Nat → K) :
    Prop :=
  ∀ var, var < bounds.lower.length →
    bounds.lowerAt var ≤ point var ∧ point var ≤ bounds.upperAt var

/-- The second bounds lie inside the first ones. -/
structure Encloses (outer inner : Bounds K) : Prop where
  lowerLength : inner.lower.length = outer.lower.length
  upperLength : inner.upper.length = outer.upper.length
  lower : ∀ var, outer.lowerAt var ≤ inner.lowerAt var
  upper : ∀ var, inner.upperAt var ≤ outer.upperAt var

namespace Encloses

theorem refl (bounds : Bounds K) : Encloses bounds bounds :=
  ⟨rfl, rfl, fun _ => le_rfl, fun _ => le_rfl⟩

theorem trans
    {first second third : Bounds K}
    (outer : Encloses first second)
    (inner : Encloses second third) :
    Encloses first third where
  lowerLength := inner.lowerLength.trans outer.lowerLength
  upperLength := inner.upperLength.trans outer.upperLength
  lower var := (outer.lower var).trans (inner.lower var)
  upper var := (inner.upper var).trans (outer.upper var)

/-- Outer bounds contain the points of inner ones. -/
theorem contains
    {outer inner : Bounds K}
    {point : Nat → K}
    (enclosed : Encloses outer inner)
    (inside : inner.Contains point) :
    outer.Contains point := by
  intro var inRange
  have between := inside var (by rw [enclosed.lowerLength]; exact inRange)
  exact
    ⟨(enclosed.lower var).trans between.1,
      between.2.trans (enclosed.upper var)⟩

end Encloses

/-- A point that satisfies a row with one variable is not below the implied bound. -/
theorem impliedLower_le
    {sentinel coef left right value : K}
    (nonzero : coef ≠ 0)
    (aboveSentinel : -sentinel ≤ value)
    (leftHolds : |left| < sentinel → left ≤ coef * value)
    (rightHolds : |right| < sentinel → coef * value ≤ right) :
    impliedLower sentinel coef left right ≤ value := by
  rcases lt_or_gt_of_ne nonzero with negative | positive
  · simp only [impliedLower, not_lt.mpr negative.le, ↓reduceIte, scalarAbs_eq]
    split
    · rename_i finite
      rw [div_le_iff_of_neg negative, mul_comm]
      exact rightHolds finite
    · exact aboveSentinel
  · simp only [impliedLower, positive, ↓reduceIte, scalarAbs_eq]
    split
    · rename_i finite
      rw [div_le_iff₀ positive, mul_comm]
      exact leftHolds finite
    · exact aboveSentinel

theorem le_impliedUpper
    {sentinel coef left right value : K}
    (nonzero : coef ≠ 0)
    (belowSentinel : value ≤ sentinel)
    (leftHolds : |left| < sentinel → left ≤ coef * value)
    (rightHolds : |right| < sentinel → coef * value ≤ right) :
    value ≤ impliedUpper sentinel coef left right := by
  rcases lt_or_gt_of_ne nonzero with negative | positive
  · simp only [impliedUpper, not_lt.mpr negative.le, ↓reduceIte, scalarAbs_eq]
    split
    · rename_i finite
      rw [le_div_iff_of_neg negative, mul_comm]
      exact leftHolds finite
    · exact belowSentinel
  · simp only [impliedUpper, positive, ↓reduceIte, scalarAbs_eq]
    split
    · rename_i finite
      rw [le_div_iff₀ positive, mul_comm]
      exact rightHolds finite
    · exact belowSentinel

/--
A value close to the implied bounds satisfies the finite left side up to that
distance.
-/
theorem left_le_of_implied
    {sentinel epsilon coef left right value : K}
    (nonzero : coef ≠ 0)
    (aboveLower : impliedLower sentinel coef left right - epsilon ≤ value)
    (belowUpper : value ≤ impliedUpper sentinel coef left right + epsilon)
    (finite : |left| < sentinel) :
    left - |coef| * epsilon ≤ coef * value := by
  rcases lt_or_gt_of_ne nonzero with negative | positive
  · simp only [impliedUpper, not_lt.mpr negative.le, ↓reduceIte,
      scalarAbs_eq, finite] at belowUpper
    have scaled : coef * (left / coef + epsilon) ≤ coef * value :=
      mul_le_mul_of_nonpos_left belowUpper negative.le
    rw [mul_add, mul_div_cancel₀ left nonzero] at scaled
    rw [abs_of_neg negative]
    linarith
  · simp only [impliedLower, positive, ↓reduceIte,
      scalarAbs_eq, finite] at aboveLower
    have scaled : coef * (left / coef - epsilon) ≤ coef * value :=
      mul_le_mul_of_nonneg_left aboveLower positive.le
    rw [mul_sub, mul_div_cancel₀ left nonzero] at scaled
    rw [abs_of_pos positive]
    exact scaled

theorem le_right_of_implied
    {sentinel epsilon coef left right value : K}
    (nonzero : coef ≠ 0)
    (aboveLower : impliedLower sentinel coef left right - epsilon ≤ value)
    (belowUpper : value ≤ impliedUpper sentinel coef left right + epsilon)
    (finite : |right| < sentinel) :
    coef * value ≤ right + |coef| * epsilon := by
  rcases lt_or_gt_of_ne nonzero with negative | positive
  · simp only [impliedLower, not_lt.mpr negative.le, ↓reduceIte,
      scalarAbs_eq, finite] at aboveLower
    have scaled : coef * value ≤ coef * (right / coef - epsilon) :=
      mul_le_mul_of_nonpos_left aboveLower negative.le
    rw [mul_sub, mul_div_cancel₀ right nonzero] at scaled
    rw [abs_of_neg negative]
    linarith
  · simp only [impliedUpper, positive, ↓reduceIte,
      scalarAbs_eq, finite] at belowUpper
    have scaled : coef * value ≤ coef * (right / coef + epsilon) :=
      mul_le_mul_of_nonneg_left belowUpper positive.le
    rw [mul_add, mul_div_cancel₀ right nonzero] at scaled
    rw [abs_of_pos positive]
    exact scaled

section Tighten

variable
  {bounds : Bounds K}
  {sentinel epsilon : K}
  {var : Nat}
  {coef left right : K}
  (row : Nat)

/-- Tightening never widens the bounds. -/
theorem encloses_tighten
    (epsilonNonneg : 0 ≤ epsilon)
    (sameLength : bounds.upper.length = bounds.lower.length)
    (inRange : var < bounds.lower.length) :
    Encloses bounds
      (bounds.tighten sentinel epsilon row var coef left right).1 where
  lowerLength :=
    (bounds.tighten_sameExcept sentinel epsilon row var coef left right).lowerLength
  upperLength :=
    (bounds.tighten_sameExcept sentinel epsilon row var coef left right).upperLength
  lower other := by
    by_cases isVar : other = var
    · subst other
      rw [lowerAt_tighten bounds sentinel epsilon row var coef left right inRange]
      split <;> linarith
    · rw [(bounds.tighten_sameExcept sentinel epsilon row var coef left right).lower
        other isVar]
  upper other := by
    by_cases isVar : other = var
    · subst other
      rw [upperAt_tighten bounds sentinel epsilon row var coef left right
        (by rw [sameLength]; exact inRange)]
      split <;> linarith
    · rw [(bounds.tighten_sameExcept sentinel epsilon row var coef left right).upper
        other isVar]

/-- Tightened bounds contain every point that satisfies the row. -/
theorem contains_tighten
    {point : Nat → K}
    (sameLength : bounds.upper.length = bounds.lower.length)
    (inRange : var < bounds.lower.length)
    (nonzero : coef ≠ 0)
    (withinSentinel : |point var| ≤ sentinel)
    (leftHolds : |left| < sentinel → left ≤ coef * point var)
    (rightHolds : |right| < sentinel → coef * point var ≤ right)
    (inside : bounds.Contains point) :
    (bounds.tighten sentinel epsilon row var coef left right).1.Contains point := by
  have frame :=
    bounds.tighten_sameExcept sentinel epsilon row var coef left right
  have magnitude := abs_le.mp withinSentinel
  intro other otherInRange
  have between :=
    inside other (by rw [← frame.lowerLength]; exact otherInRange)
  by_cases isVar : other = var
  · subst other
    have aboveImplied :=
      impliedLower_le nonzero magnitude.1 leftHolds rightHolds
    have belowImplied :=
      le_impliedUpper nonzero magnitude.2 leftHolds rightHolds
    rw [lowerAt_tighten bounds sentinel epsilon row var coef left right inRange,
      upperAt_tighten bounds sentinel epsilon row var coef left right
        (by rw [sameLength]; exact inRange)]
    constructor
    · split
      · exact aboveImplied
      · exact between.1
    · split
      · exact belowImplied
      · exact between.2
  · rw [frame.lower other isVar, frame.upper other isVar]
    exact between

/-- A value inside tightened bounds is at most `epsilon` outside the implied ones. -/
theorem implied_of_mem_tighten
    {value : K}
    (epsilonNonneg : 0 ≤ epsilon)
    (sameLength : bounds.upper.length = bounds.lower.length)
    (inRange : var < bounds.lower.length)
    (aboveLower :
      (bounds.tighten sentinel epsilon row var coef left right).1.lowerAt var ≤ value)
    (belowUpper :
      value ≤ (bounds.tighten sentinel epsilon row var coef left right).1.upperAt var) :
    impliedLower sentinel coef left right - epsilon ≤ value ∧
      value ≤ impliedUpper sentinel coef left right + epsilon := by
  rw [lowerAt_tighten bounds sentinel epsilon row var coef left right inRange]
    at aboveLower
  rw [upperAt_tighten bounds sentinel epsilon row var coef left right
    (by rw [sameLength]; exact inRange)] at belowUpper
  constructor
  · split at aboveLower <;> linarith
  · split at belowUpper <;> linarith

end Tighten

end Exact

end Bounds

end SdpRelay
