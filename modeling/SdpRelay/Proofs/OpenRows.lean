import Mathlib
import SdpRelay.Proofs.PresolveVisits
import SdpRelay.Proofs.RowSemantics
import SdpRelay.Proofs.StoreChecks

namespace SdpRelay

/-!
# Rows at a visit

When presolve visits a row, it moves the fixed terms into the sides and looks at
what is left: the open terms between the open sides.  At a point inside the
bounds, and as long as no variable is nearly fixed without being fixed and the
finite numbers stay far from the sentinel, the open row says the same as the row.
-/

variable {K : Type} [ExactField K]

/-- The magnitude of a number, or zero if it lies at or beyond the sentinel. -/
def finiteMagnitude (sentinel x : K) : K :=
  if |x| < sentinel then |x| else 0

/-- The magnitude of a finite number is what it is. -/
theorem finiteMagnitude_of_finite
    {sentinel x : K}
    (finite : |x| < sentinel) :
    finiteMagnitude sentinel x = |x| :=
  if_pos finite

namespace Bounds

/-- The largest magnitude of a finite bound of a variable, and at least one. -/
def magnitude
    (bounds : Bounds K)
    (sentinel : K)
    (var : Nat) :
    K :=
  max 1
    (max (finiteMagnitude sentinel (bounds.lowerAt var))
      (finiteMagnitude sentinel (bounds.upperAt var)))

theorem magnitude_pos
    (bounds : Bounds K)
    (sentinel : K)
    (var : Nat) :
    0 < bounds.magnitude sentinel var :=
  zero_lt_one.trans_le (le_max_left _ _)

/-- A finite lower bound is within the magnitude of its variable. -/
theorem abs_lowerAt_le_magnitude
    {bounds : Bounds K}
    {sentinel : K}
    {var : Nat}
    (finite : |bounds.lowerAt var| < sentinel) :
    |bounds.lowerAt var| ≤ bounds.magnitude sentinel var := by
  rw [← finiteMagnitude_of_finite finite]
  exact (le_max_left _ _).trans (le_max_right _ _)

theorem abs_upperAt_le_magnitude
    {bounds : Bounds K}
    {sentinel : K}
    {var : Nat}
    (finite : |bounds.upperAt var| < sentinel) :
    |bounds.upperAt var| ≤ bounds.magnitude sentinel var := by
  rw [← finiteMagnitude_of_finite finite]
  exact (le_max_right _ _).trans (le_max_right _ _)

/-- How large the sum of terms can get within the finite bounds of their variables. -/
def reach
    (bounds : Bounds K)
    (sentinel : K)
    (terms : List (Nat × K)) :
    K :=
  (terms.map fun term => |term.2| * bounds.magnitude sentinel term.1).sum

theorem reach_term_nonneg
    (bounds : Bounds K)
    (sentinel : K)
    (term : Nat × K) :
    0 ≤ |term.2| * bounds.magnitude sentinel term.1 :=
  mul_nonneg (abs_nonneg _) (bounds.magnitude_pos sentinel term.1).le

/-- Some of the terms reach at most as far as all of them. -/
theorem reach_sublist_le
    {bounds : Bounds K}
    {sentinel : K}
    {some all : List (Nat × K)}
    (sublist : some.Sublist all) :
    bounds.reach sentinel some ≤ bounds.reach sentinel all := by
  refine List.Sublist.sum_le_sum (sublist.map _) ?_
  intro value member
  obtain ⟨term, _, rfl⟩ := List.mem_map.mp member
  exact bounds.reach_term_nonneg sentinel term

theorem reach_nonneg
    (bounds : Bounds K)
    (sentinel : K)
    (terms : List (Nat × K)) :
    0 ≤ bounds.reach sentinel terms :=
  bounds.reach_sublist_le (List.nil_sublist terms)

/-- A coefficient is at most the reach of the terms around it. -/
theorem abs_coef_le_reach
    {bounds : Bounds K}
    {sentinel : K}
    {terms : List (Nat × K)}
    {term : Nat × K}
    (member : term ∈ terms) :
    |term.2| ≤ bounds.reach sentinel terms := by
  have single : bounds.reach sentinel [term] ≤ bounds.reach sentinel terms :=
    bounds.reach_sublist_le (List.singleton_sublist.mpr member)
  have atLeastOne : |term.2| ≤ bounds.reach sentinel [term] := by
    simp only [reach, List.map_cons, List.map_nil, List.sum_cons,
      List.sum_nil, add_zero]
    exact le_mul_of_one_le_right (abs_nonneg _) (le_max_left _ _)
  exact atLeastOne.trans single

/--
Terms at numbers within the magnitudes of their variables add up to at most the
reach.
-/
theorem abs_sum_le_reach
    {bounds : Bounds K}
    {sentinel : K}
    {terms : List (Nat × K)}
    {place : Nat × K → K}
    (within :
      ∀ term ∈ terms, |place term| ≤ bounds.magnitude sentinel term.1) :
    |(terms.map fun term => term.2 * place term).sum| ≤
      bounds.reach sentinel terms := by
  have triangle :=
    List.le_sum_of_subadditive (fun x : K => |x|) abs_zero.le abs_add_le
      (terms.map fun term => term.2 * place term)
  refine triangle.trans ?_
  rw [List.map_map]
  refine List.sum_le_sum ?_
  intro term member
  simp only [Function.comp_apply, abs_mul]
  exact mul_le_mul_of_nonneg_left (within term member) (abs_nonneg _)

end Bounds

namespace LinearRow

/-- The largest magnitude of a finite side. -/
def sidesReach
    (sentinel : K)
    (row : LinearRow K) :
    K :=
  max (finiteMagnitude sentinel row.left) (finiteMagnitude sentinel row.right)

theorem sidesReach_nonneg
    (sentinel : K)
    (row : LinearRow K) :
    0 ≤ row.sidesReach sentinel := by
  refine le_max_of_le_left ?_
  unfold finiteMagnitude
  split
  · exact abs_nonneg _
  · exact le_rfl

end LinearRow

/--
A visit of a row with tame numbers: the finite ones stay far from the sentinel,
every coefficient is zero or larger than `epsilon`, and no variable is nearly but
not exactly fixed.
-/
structure RegularVisit
    (sentinel : K)
    (settings : Settings K)
    (bounds : Bounds K)
    (row : LinearRow K) : Prop where
  farFromSentinel :
    bounds.reach sentinel row.terms + row.sidesReach sentinel +
        settings.epsilon <
      sentinel
  coefs : ∀ coef ∈ row.coefs, coef = 0 ∨ settings.epsilon < |coef|
  apart :
    ∀ var, var < bounds.lower.length →
      ¬ (0 < bounds.upperAt var - bounds.lowerAt var ∧
          bounds.upperAt var - bounds.lowerAt var ≤ settings.epsilon)

/-- A regular visit of a stored row, with a point inside the bounds. -/
structure PointVisit
    (sentinel : K)
    (settings : Settings K)
    (bounds : Bounds K)
    (row : LinearRow K)
    (point : Nat → K) : Prop where
  epsilonNonneg : 0 ≤ settings.epsilon
  regular : RegularVisit sentinel settings bounds row
  acceptable : row.Acceptable sentinel bounds.lower.length
  inside : bounds.Contains point
  within : ∀ var, var < bounds.lower.length → |point var| < sentinel

namespace PointVisit

open RowPass

variable
  {sentinel : K}
  {settings : Settings K}
  {bounds : Bounds K}
  {row : LinearRow K}
  {point : Nat → K}

theorem known
    {term : Nat × K}
    (visit : PointVisit sentinel settings bounds row point)
    (member : term ∈ row.terms) :
    term.1 < bounds.lower.length :=
  visit.acceptable.known term.1 (List.of_mem_zip member).1

/-- A fixed variable has the value of its lower bound, and that is finite. -/
theorem point_eq_lowerAt
    {var : Nat}
    (visit : PointVisit sentinel settings bounds row point)
    (inRange : var < bounds.lower.length)
    (isFixed : bounds.Fixed settings.epsilon var) :
    point var = bounds.lowerAt var := by
  obtain ⟨above, below⟩ := visit.inside var inRange
  have notApart := visit.regular.apart var inRange
  have noGap : ¬ 0 < bounds.upperAt var - bounds.lowerAt var :=
    fun gap => notApart ⟨gap, isFixed⟩
  exact le_antisymm (by linarith) above

/-- The fixed terms contribute their value at the point. -/
theorem settledPart_value
    (visit : PointVisit sentinel settings bounds row point) :
    (settledPart settings bounds row).value =
      termsValue
        (fixedTerms bounds settings.epsilon
          (significantTerms settings.epsilon row))
        point := by
  rw [settledPart, value_contribution]
  apply termsValue_congr
  intro term member
  obtain ⟨significant, isFixed⟩ := List.mem_filter.mp member
  have listed : term ∈ row.terms := (List.mem_filter.mp significant).1
  exact
    (visit.point_eq_lowerAt (visit.known listed)
      (by simpa using isFixed)).symm

/-- The value of a row is that of its open terms and the settled part. -/
theorem value_eq
    (visit : PointVisit sentinel settings bounds row point) :
    row.value point =
      termsValue (openTerms settings bounds row) point +
        (settledPart settings bounds row).value := by
  have significantValue :
      termsValue (significantTerms settings.epsilon row) point =
        termsValue row.terms point := by
    apply termsValue_filter_of_zero
    intro term member small
    have smallCoef : |term.2| ≤ settings.epsilon := by
      simpa using small
    rcases visit.regular.coefs term.2 (List.of_mem_zip member).2 with
      zero | large
    · exact zero
    · exact absurd smallCoef (not_le.mpr large)
  rw [LinearRow.value, ← significantValue, visit.settledPart_value, openTerms,
    termsValue_free_add_fixed]

/-- The open terms and the settled part together reach no further than the row. -/
theorem reach_add_le
    (visit : PointVisit sentinel settings bounds row point) :
    bounds.reach sentinel (openTerms settings bounds row) +
        |(settledPart settings bounds row).value| ≤
      bounds.reach sentinel row.terms := by
  have settledReach :
      |(settledPart settings bounds row).value| ≤
        bounds.reach sentinel
          (fixedTerms bounds settings.epsilon
            (significantTerms settings.epsilon row)) := by
    rw [settledPart, value_contribution]
    apply Bounds.abs_sum_le_reach
    intro term member
    obtain ⟨significant, isFixed⟩ := List.mem_filter.mp member
    have listed : term ∈ row.terms := (List.mem_filter.mp significant).1
    have inRange := visit.known listed
    apply Bounds.abs_lowerAt_le_magnitude
    rw [← visit.point_eq_lowerAt inRange (by simpa using isFixed)]
    exact visit.within term.1 inRange
  have split :
      bounds.reach sentinel (openTerms settings bounds row) +
          bounds.reach sentinel
            (fixedTerms bounds settings.epsilon
              (significantTerms settings.epsilon row)) =
        bounds.reach sentinel (significantTerms settings.epsilon row) :=
    sum_free_add_fixed bounds settings.epsilon _ _
  have significantReach :
      bounds.reach sentinel (significantTerms settings.epsilon row) ≤
        bounds.reach sentinel row.terms :=
    bounds.reach_sublist_le List.filter_sublist
  linarith

theorem sentinel_pos
    (visit : PointVisit sentinel settings bounds row point) :
    0 < sentinel := by
  have far := visit.regular.farFromSentinel
  have reachNonneg := bounds.reach_nonneg sentinel row.terms
  have sidesNonneg := row.sidesReach_nonneg sentinel
  have epsilonNonneg := visit.epsilonNonneg
  linarith

/--
A left side above minus the sentinel is finite, and the open one is moved by the
settled part.
-/
theorem openLeft_of_finite
    (visit : PointVisit sentinel settings bounds row point)
    (isFinite : -sentinel < row.left) :
    openLeft sentinel settings bounds row =
        row.left - (settledPart settings bounds row).value ∧
      |openLeft sentinel settings bounds row| +
          bounds.reach sentinel (openTerms settings bounds row) +
          settings.epsilon <
        sentinel := by
  have finite : |row.left| < sentinel :=
    abs_lt.mpr ⟨isFinite, not_le.mp visit.acceptable.sides.2.2.1⟩
  have moved :
      openLeft sentinel settings bounds row =
        row.left - (settledPart settings bounds row).value :=
    shiftSide_of_finite finite
  refine ⟨moved, ?_⟩
  have sideReach : |row.left| ≤ row.sidesReach sentinel := by
    rw [← finiteMagnitude_of_finite finite]
    exact le_max_left _ _
  have far := visit.regular.farFromSentinel
  have reach := visit.reach_add_le
  have triangle :=
    abs_sub row.left (settledPart settings bounds row).value
  rw [moved]
  linarith

theorem openRight_of_finite
    (visit : PointVisit sentinel settings bounds row point)
    (isFinite : row.right < sentinel) :
    openRight sentinel settings bounds row =
        row.right - (settledPart settings bounds row).value ∧
      |openRight sentinel settings bounds row| +
          bounds.reach sentinel (openTerms settings bounds row) +
          settings.epsilon <
        sentinel := by
  have finite : |row.right| < sentinel :=
    abs_lt.mpr ⟨not_le.mp visit.acceptable.sides.2.2.2, isFinite⟩
  have moved :
      openRight sentinel settings bounds row =
        row.right - (settledPart settings bounds row).value :=
    shiftSide_of_finite finite
  refine ⟨moved, ?_⟩
  have sideReach : |row.right| ≤ row.sidesReach sentinel := by
    rw [← finiteMagnitude_of_finite finite]
    exact le_max_right _ _
  have far := visit.regular.farFromSentinel
  have reach := visit.reach_add_le
  have triangle :=
    abs_sub row.right (settledPart settings bounds row).value
  rw [moved]
  linarith

theorem openLeft_of_infinite
    (isInfinite : ¬ -sentinel < row.left) :
    openLeft sentinel settings bounds row = -sentinel := by
  apply shiftSide_of_infinite
  have below := neg_abs_le row.left
  linarith [not_lt.mp isInfinite]

theorem openRight_of_infinite
    (isInfinite : ¬ row.right < sentinel) :
    openRight sentinel settings bounds row = sentinel := by
  apply shiftSide_of_infinite
  exact (not_lt.mp isInfinite).trans (le_abs_self row.right)

/-- The left side exists in the open row exactly if it does in the row. -/
theorem openLeft_finite_iff
    (visit : PointVisit sentinel settings bounds row point) :
    -sentinel < openLeft sentinel settings bounds row ↔
      -sentinel < row.left := by
  by_cases isFinite : -sentinel < row.left
  · have far := (visit.openLeft_of_finite isFinite).2
    have reachNonneg :=
      bounds.reach_nonneg sentinel (openTerms settings bounds row)
    have epsilonNonneg := visit.epsilonNonneg
    have above := neg_abs_le (openLeft sentinel settings bounds row)
    simp only [isFinite, iff_true]
    linarith
  · simp [openLeft_of_infinite isFinite, isFinite]

theorem openRight_finite_iff
    (visit : PointVisit sentinel settings bounds row point) :
    openRight sentinel settings bounds row < sentinel ↔
      row.right < sentinel := by
  by_cases isFinite : row.right < sentinel
  · have far := (visit.openRight_of_finite isFinite).2
    have reachNonneg :=
      bounds.reach_nonneg sentinel (openTerms settings bounds row)
    have epsilonNonneg := visit.epsilonNonneg
    have below := le_abs_self (openRight sentinel settings bounds row)
    simp only [isFinite, iff_true]
    linarith
  · simp [openRight_of_infinite isFinite, isFinite]

/-- The open row holds up to a slack exactly if the row does. -/
theorem openRow_iff
    (visit : PointVisit sentinel settings bounds row point)
    (slack : K) :
    ((-sentinel < row.left →
          openLeft sentinel settings bounds row - slack ≤
            termsValue (openTerms settings bounds row) point) ∧
        (row.right < sentinel →
          termsValue (openTerms settings bounds row) point ≤
            openRight sentinel settings bounds row + slack)) ↔
      row.HoldsUpTo sentinel slack point := by
  have valueEq := visit.value_eq
  constructor
  · rintro ⟨leftHolds, rightHolds⟩
    constructor
    · intro isFinite
      have moved := (visit.openLeft_of_finite isFinite).1
      linarith [leftHolds isFinite]
    · intro isFinite
      have moved := (visit.openRight_of_finite isFinite).1
      linarith [rightHolds isFinite]
  · rintro ⟨leftHolds, rightHolds⟩
    constructor
    · intro isFinite
      have moved := (visit.openLeft_of_finite isFinite).1
      linarith [leftHolds isFinite]
    · intro isFinite
      have moved := (visit.openRight_of_finite isFinite).1
      linarith [rightHolds isFinite]

end PointVisit

end SdpRelay
