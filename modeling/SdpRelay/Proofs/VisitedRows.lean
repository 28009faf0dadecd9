import Mathlib
import SdpRelay.Proofs.IntegralPoints
import SdpRelay.Proofs.OpenRows

namespace SdpRelay

/-!
# The visit of a row and the points of the row

A visit keeps a point at which its row holds inside the bounds and finds no
contradiction there.  The row that it keeps holds at the point exactly if its
sides have room for what tightening took from the row.

Back from the outcome of a visit to its row, something may be left over: a row
without open terms is checked up to the feasibility tolerance, a row with one
open term becomes bounds up to `epsilon`, and any other row is kept.
-/

variable {K : Type} [ExactField K]

namespace TightenedRow

theorem value_toRow
    (tightened : TightenedRow K)
    (point : Nat → K) :
    tightened.toRow.value point = termsValue tightened.terms point := by
  have terms : tightened.toRow.terms = tightened.terms :=
    (List.zip_of_prod rfl rfl).symm
  rw [LinearRow.value, terms]

/-- A tightened row holds if the value of its terms lies between its sides. -/
theorem holds_toRow_iff
    {sentinel : K}
    {tightened : TightenedRow K}
    {point : Nat → K} :
    tightened.toRow.Holds sentinel point ↔
      (-sentinel < tightened.left →
          tightened.left ≤ termsValue tightened.terms point) ∧
        (tightened.right < sentinel →
          termsValue tightened.terms point ≤ tightened.right) := by
  rw [LinearRow.holds_iff, value_toRow]
  rfl

end TightenedRow

namespace RowPass

section Visits

variable
  {pass : RowPass K}
  {sentinel : K}
  {settings : Settings K}
  {row : LinearRow K}
  {point : Nat → K}

theorem openTerm_nonzero
    {bounds : Bounds K}
    {term : Nat × K}
    (epsilonNonneg : 0 ≤ settings.epsilon)
    (member : term ∈ openTerms settings bounds row) :
    term.2 ≠ 0 := by
  intro zero
  obtain ⟨_, large, _⟩ := mem_openTerms member
  apply large
  rw [zero, scalarAbs_eq, abs_zero]
  exact epsilonNonneg

/-- Visits never widen the bounds. -/
theorem visitRow_encloses
    (integral : List Bool)
    (index : Nat)
    (epsilonNonneg : 0 ≤ settings.epsilon)
    (sameLength : pass.bounds.upper.length = pass.bounds.lower.length)
    (known : ∀ var ∈ row.vars, var < pass.bounds.lower.length) :
    pass.bounds.Encloses
      (pass.visitRow sentinel settings integral index row).bounds := by
  rcases openTerms_cases settings pass.bounds row with
    noTerm | ⟨var, coef, oneTerm⟩ | severalTerms
  · rw [visitRow_of_none sentinel integral index noTerm]
    exact Bounds.Encloses.refl pass.bounds
  · have isOpen : (var, coef) ∈ openTerms settings pass.bounds row := by
      simp [oneTerm]
    have inRange :=
      known var (List.of_mem_zip (mem_openTerms isOpen).1).1
    rw [visitRow_of_single sentinel integral index oneTerm]
    exact Bounds.encloses_tighten index epsilonNonneg sameLength inRange
  · rw [visitRow_of_several sentinel integral index severalTerms]
    exact Bounds.Encloses.refl pass.bounds

/--
A visit with a point that satisfies the row finds no contradiction and keeps the
point.
-/
theorem visitRow_inside
    (integral : List Bool)
    (index : Nat)
    (visit : PointVisit sentinel settings pass.bounds row point)
    (toleranceNonneg : 0 ≤ settings.feasTolerance)
    (sameLength : pass.bounds.upper.length = pass.bounds.lower.length)
    (holds : row.Holds sentinel point) :
    (pass.visitRow sentinel settings integral index row).summary.infeasible =
        pass.summary.infeasible ∧
      (pass.visitRow sentinel settings integral index row).bounds.Contains
        point := by
  obtain ⟨leftHolds, rightHolds⟩ := (visit.openRow_iff 0).mpr holds
  simp only [sub_zero, add_zero] at leftHolds rightHolds
  rcases openTerms_cases settings pass.bounds row with
    noTerm | ⟨var, coef, oneTerm⟩ | severalTerms
  · rw [visitRow_of_none sentinel integral index noTerm]
    rw [noTerm, termsValue_nil] at leftHolds rightHolds
    have sentinelPos := visit.sentinel_pos
    have leftPasses :
        ¬ settings.feasTolerance <
          openLeft sentinel settings pass.bounds row := by
      by_cases isFinite : -sentinel < row.left
      · linarith [leftHolds isFinite]
      · rw [PointVisit.openLeft_of_infinite isFinite]
        linarith
    have rightPasses :
        ¬ openRight sentinel settings pass.bounds row <
          -settings.feasTolerance := by
      by_cases isFinite : row.right < sentinel
      · linarith [rightHolds isFinite]
      · rw [PointVisit.openRight_of_infinite isFinite]
        linarith
    refine ⟨?_, visit.inside⟩
    simp [visitFixed, leftPasses, rightPasses]
  · have isOpen : (var, coef) ∈ openTerms settings pass.bounds row := by
      simp [oneTerm]
    have inRange := visit.known (mem_openTerms isOpen).1
    rw [visitRow_of_single sentinel integral index oneTerm]
    simp only [oneTerm, termsValue_cons, termsValue_nil, add_zero]
      at leftHolds rightHolds
    have stillInside :
        (pass.bounds.tighten sentinel settings.epsilon index var coef
          (openLeft sentinel settings pass.bounds row)
          (openRight sentinel settings pass.bounds row)).1.Contains point :=
      Bounds.contains_tighten index sameLength inRange
        (openTerm_nonzero visit.epsilonNonneg isOpen)
        (visit.within var inRange).le
        (fun finite =>
          leftHolds (visit.openLeft_finite_iff.mp (abs_lt.mp finite).1))
        (fun finite =>
          rightHolds (visit.openRight_finite_iff.mp (abs_lt.mp finite).2))
        visit.inside
    refine ⟨?_, stillInside⟩
    have frame :=
      pass.bounds.tighten_sameExcept sentinel settings.epsilon index var coef
        (openLeft sentinel settings pass.bounds row)
        (openRight sentinel settings pass.bounds row)
    obtain ⟨above, below⟩ :=
      stillInside var (by rw [frame.lowerLength]; exact inRange)
    simp only [visitSingle]
    rw [if_neg (by linarith)]
    split <;> rfl
  · rw [visitRow_of_several sentinel integral index severalTerms]
    exact ⟨rfl, visit.inside⟩

end Visits

end RowPass

/-- A point gives whole numbers to the variables that are flagged as integral. -/
def IntegralPoint
    (integral : List Bool)
    (point : Nat → K) :
    Prop :=
  ∀ var, integral.getD var false = true → IsWhole (point var)

/--
A visit whose tightening is safe: every variable whose coefficient it changes has
whole numbers as its finite bounds next to the sides that exist.
-/
def WholeVisit
    (sentinel : K)
    (settings : Settings K)
    (integral : List Bool)
    (bounds : Bounds K)
    (row : LinearRow K) :
    Prop :=
  2 ≤ (RowPass.openTerms settings bounds row).length →
    (RowPass.visitBox sentinel settings integral bounds).WholeWhereChanged
      (RowPass.openTerms settings bounds row)
      (RowPass.openLeft sentinel settings bounds row)
      (RowPass.openRight sentinel settings bounds row)

/--
At a point, the sides of a kept row have room for what tightening takes from the
row.
-/
def CoveredVisit
    (sentinel : K)
    (settings : Settings K)
    (integral : List Bool)
    (bounds : Bounds K)
    (row : LinearRow K)
    (point : Nat → K) :
    Prop :=
  RowPass.keptFrom sentinel settings integral bounds row ≠ [] →
    (RowPass.visitBox sentinel settings integral bounds).Covers
      (RowPass.openTerms settings bounds row)
      (RowPass.openLeft sentinel settings bounds row)
      (RowPass.openRight sentinel settings bounds row)
      point

namespace PointVisit

open RowPass

variable
  {sentinel : K}
  {settings : Settings K}
  {bounds : Bounds K}
  {row : LinearRow K}
  {point : Nat → K}

/-- A finite low end of a term is within the magnitude of its variable. -/
theorem visitBox_lowEnd_le
    {integral : List Bool}
    {term : Nat × K}
    (endFinite :
      |(visitBox sentinel settings integral bounds).lowEnd term| < sentinel) :
    |(visitBox sentinel settings integral bounds).lowEnd term| ≤
      bounds.magnitude sentinel term.1 := by
  by_cases positive : 0 < term.2
  · simp only [RowBox.lowEnd, positive, ↓reduceIte] at endFinite ⊢
    exact Bounds.abs_lowerAt_le_magnitude endFinite
  · simp only [RowBox.lowEnd, positive, ↓reduceIte] at endFinite ⊢
    exact Bounds.abs_upperAt_le_magnitude endFinite

theorem visitBox_highEnd_le
    {integral : List Bool}
    {term : Nat × K}
    (endFinite :
      |(visitBox sentinel settings integral bounds).highEnd term| < sentinel) :
    |(visitBox sentinel settings integral bounds).highEnd term| ≤
      bounds.magnitude sentinel term.1 := by
  by_cases positive : 0 < term.2
  · simp only [RowBox.highEnd, positive, ↓reduceIte] at endFinite ⊢
    exact Bounds.abs_upperAt_le_magnitude endFinite
  · simp only [RowBox.highEnd, positive, ↓reduceIte] at endFinite ⊢
    exact Bounds.abs_lowerAt_le_magnitude endFinite

theorem reach_openTerms_lt
    (visit : PointVisit sentinel settings bounds row point) :
    bounds.reach sentinel (openTerms settings bounds row) < sentinel := by
  have far := visit.regular.farFromSentinel
  have reach := visit.reach_add_le
  have settledNonneg := abs_nonneg (settledPart settings bounds row).value
  have sidesNonneg := LinearRow.sidesReach_nonneg sentinel row
  have epsilonNonneg := visit.epsilonNonneg
  linarith

/-- The open part of a row is far from the sentinel. -/
theorem openRow_far
    (visit : PointVisit sentinel settings bounds row point)
    (integral : List Bool) :
    (visitBox sentinel settings integral bounds).FarFromSentinel
      (openTerms settings bounds row)
      (openLeft sentinel settings bounds row)
      (openRight sentinel settings bounds row) where
  left isFinite term member := by
    have far :=
      (visit.openLeft_of_finite (visit.openLeft_finite_iff.mp isFinite)).2
    have coef : |term.2| ≤ bounds.reach sentinel (openTerms settings bounds row) :=
      Bounds.abs_coef_le_reach member
    change _ + _ + settings.epsilon < sentinel
    linarith
  right isFinite term member := by
    have far :=
      (visit.openRight_of_finite (visit.openRight_finite_iff.mp isFinite)).2
    have coef : |term.2| ≤ bounds.reach sentinel (openTerms settings bounds row) :=
      Bounds.abs_coef_le_reach member
    change _ + _ + settings.epsilon < sentinel
    linarith
  lowest finite := by
    obtain ⟨endsFinite, value⟩ := RowBox.lowest_spec finite
    rw [value]
    refine lt_of_le_of_lt (Bounds.abs_sum_le_reach ?_) visit.reach_openTerms_lt
    intro term member
    exact visitBox_lowEnd_le (endsFinite term member)
  highest finite := by
    obtain ⟨endsFinite, value⟩ := RowBox.highest_spec finite
    rw [value]
    refine lt_of_le_of_lt (Bounds.abs_sum_le_reach ?_) visit.reach_openTerms_lt
    intro term member
    exact visitBox_highEnd_le (endsFinite term member)

/-- Finite low ends of the open terms reach no further than the row. -/
theorem endsReach_le
    {ends : Nat × K → K}
    (within :
      ∀ term ∈ openTerms settings bounds row,
        |ends term| ≤ bounds.magnitude sentinel term.1) :
    RowBox.endsReach ends (openTerms settings bounds row) ≤
      bounds.reach sentinel (openTerms settings bounds row) := by
  refine List.sum_le_sum ?_
  intro term member
  exact mul_le_mul_of_nonneg_left (within term member) (abs_nonneg _)

/-- How a visit moves the sides of the open part of its row. -/
theorem movedSides
    (visit : PointVisit sentinel settings bounds row point)
    (integral : List Bool) :
    (visitBox sentinel settings integral bounds).MovedSides
      (openTerms settings bounds row)
      (openLeft sentinel settings bounds row)
      (openRight sentinel settings bounds row)
      (tightenedOpen sentinel settings integral bounds row)
      point :=
  RowBox.tighten_movedSides visit.epsilonNonneg (visit.openRow_far integral)
    point

/-- Tightening leaves a finite left side finite. -/
theorem tightened_left_finite
    (visit : PointVisit sentinel settings bounds row point)
    (integral : List Bool)
    (isFinite : -sentinel < openLeft sentinel settings bounds row) :
    -sentinel <
      (tightenedOpen sentinel settings integral bounds row).left := by
  rcases (visit.movedSides integral).leftNear isFinite with
    same | ⟨endsFinite, near⟩
  · rw [same]
    exact isFinite
  · have far :=
      (visit.openLeft_of_finite (visit.openLeft_finite_iff.mp isFinite)).2
    have reach :=
      endsReach_le fun term member =>
        visitBox_lowEnd_le (endsFinite term member)
    have epsilonNonneg := visit.epsilonNonneg
    have below := neg_abs_le (openLeft sentinel settings bounds row)
    have back := (abs_le.mp near).1
    linarith

theorem tightened_right_finite
    (visit : PointVisit sentinel settings bounds row point)
    (integral : List Bool)
    (isFinite : openRight sentinel settings bounds row < sentinel) :
    (tightenedOpen sentinel settings integral bounds row).right <
      sentinel := by
  rcases (visit.movedSides integral).rightNear isFinite with
    same | ⟨endsFinite, near⟩
  · rw [same]
    exact isFinite
  · have far :=
      (visit.openRight_of_finite (visit.openRight_finite_iff.mp isFinite)).2
    have reach :=
      endsReach_le fun term member =>
        visitBox_highEnd_le (endsFinite term member)
    have epsilonNonneg := visit.epsilonNonneg
    have above := le_abs_self (openRight sentinel settings bounds row)
    have forth := (abs_le.mp near).2
    linarith

/-- The rows that a visit keeps hold at a point exactly if the visit covers it. -/
theorem keptFrom_holds_iff
    (visit : PointVisit sentinel settings bounds row point)
    (integral : List Bool) :
    (∀ kept ∈ keptFrom sentinel settings integral bounds row,
        kept.Holds sentinel point) ↔
      CoveredVisit sentinel settings integral bounds row point := by
  have moved := visit.movedSides integral
  simp only [CoveredVisit, keptFrom]
  split
  · simp
  · simp only [List.mem_singleton, forall_eq, ne_eq, List.cons_ne_nil,
      not_false_eq_true, forall_const]
    rw [TightenedRow.holds_toRow_iff]
    constructor
    · rintro ⟨leftHolds, rightHolds⟩
      refine ⟨?_, ?_⟩
      · intro isFinite
        have holds := leftHolds (visit.tightened_left_finite integral isFinite)
        have surplus := moved.left isFinite
        rw [tightenedOpen] at holds surplus
        linarith
      · intro isFinite
        have holds := rightHolds (visit.tightened_right_finite integral isFinite)
        have surplus := moved.right isFinite
        rw [tightenedOpen] at holds surplus
        linarith
    · intro covers
      refine ⟨?_, ?_⟩
      · intro isFinite
        by_cases leftExists : -sentinel < openLeft sentinel settings bounds row
        · have room := covers.leftRoom leftExists
          have surplus := moved.left leftExists
          rw [tightenedOpen] at surplus ⊢
          linarith
        · exact absurd (moved.leftOpen leftExists ▸ isFinite) leftExists
      · intro isFinite
        by_cases rightExists : openRight sentinel settings bounds row < sentinel
        · have room := covers.rightRoom rightExists
          have surplus := moved.right rightExists
          rw [tightenedOpen] at surplus ⊢
          linarith
        · exact absurd (moved.rightOpen rightExists ▸ isFinite) rightExists

/-- A visit with whole bounds covers the integral points at which its row holds. -/
theorem covered_of_whole
    {integral : List Bool}
    (visit : PointVisit sentinel settings bounds row point)
    (whole : WholeVisit sentinel settings integral bounds row)
    (integralPoint : IntegralPoint integral point)
    (holds : row.Holds sentinel point) :
    CoveredVisit sentinel settings integral bounds row point := by
  intro keptSome
  have several : 2 ≤ (openTerms settings bounds row).length := by
    by_contra fewer
    exact keptSome (if_pos (.inl (not_le.mp fewer)))
  obtain ⟨leftHolds, rightHolds⟩ := (visit.openRow_iff 0).mpr holds
  simp only [sub_zero, add_zero] at leftHolds rightHolds
  have admits :
      (visitBox sentinel settings integral bounds).Admits
        (openTerms settings bounds row) point := by
    intro term inOpen
    have between :=
      visit.inside term.1 (visit.known (mem_openTerms inOpen).1)
    exact ⟨fun _ => between.1, fun _ => between.2⟩
  exact
    RowBox.covers_of_whole visit.epsilonNonneg (visit.openRow_far integral)
      (whole several) admits
      (fun term _ isIntegral => integralPoint term.1 isIntegral)
      (fun isFinite => leftHolds (visit.openLeft_finite_iff.mp isFinite))
      (fun isFinite => rightHolds (visit.openRight_finite_iff.mp isFinite))

end PointVisit

namespace RowPass

/-- By how much a row may be violated after presolve, told by its open terms. -/
def leftover
    (settings : Settings K)
    (bounds : Bounds K)
    (row : LinearRow K) :
    K :=
  match openTerms settings bounds row with
  | [] => settings.feasTolerance
  | [(_, coef)] => |coef| * settings.epsilon
  | _ => 0

section Recovery

variable
  {pass : RowPass K}
  {sentinel : K}
  {settings : Settings K}
  {integral : List Bool}
  {row : LinearRow K}
  {point : Nat → K}

/--
A row without open terms that is not a contradiction holds up to the feasibility
tolerance.
-/
theorem holds_of_visitFixed
    (index : Nat)
    (visit : PointVisit sentinel settings pass.bounds row point)
    (noTerm : openTerms settings pass.bounds row = [])
    (feasible :
      (pass.visitRow sentinel settings integral index
        row).summary.infeasible = false) :
    row.HoldsUpTo sentinel settings.feasTolerance point := by
  rw [visitRow_of_none sentinel integral index noTerm] at feasible
  simp only [visitFixed] at feasible
  split at feasible
  · cases feasible
  · rename_i passes
    rw [not_or, not_lt, not_lt] at passes
    rw [← visit.openRow_iff, noTerm, termsValue_nil]
    exact ⟨fun _ => by linarith [passes.1], fun _ => by linarith [passes.2]⟩

/--
A row with one open term holds up to `epsilon` times its coefficient inside the
new bounds.
-/
theorem holds_of_visitSingle
    {var : Nat}
    {coef : K}
    (index : Nat)
    (visit : PointVisit sentinel settings pass.bounds row point)
    (sameLength : pass.bounds.upper.length = pass.bounds.lower.length)
    (oneTerm : openTerms settings pass.bounds row = [(var, coef)])
    (inside :
      (pass.visitRow sentinel settings integral index
        row).bounds.Contains point) :
    row.HoldsUpTo sentinel (|coef| * settings.epsilon) point := by
  have isOpen : (var, coef) ∈ openTerms settings pass.bounds row := by
    simp [oneTerm]
  have inRange := visit.known (mem_openTerms isOpen).1
  have nonzero : coef ≠ 0 := openTerm_nonzero visit.epsilonNonneg isOpen
  rw [visitRow_of_single sentinel integral index oneTerm] at inside
  simp only [visitSingle] at inside
  have frame :=
    pass.bounds.tighten_sameExcept sentinel settings.epsilon index var coef
      (openLeft sentinel settings pass.bounds row)
      (openRight sentinel settings pass.bounds row)
  obtain ⟨above, below⟩ :=
    inside var (by rw [frame.lowerLength]; exact inRange)
  obtain ⟨aboveImplied, belowImplied⟩ :=
    Bounds.implied_of_mem_tighten index visit.epsilonNonneg sameLength inRange
      above below
  rw [← visit.openRow_iff, oneTerm]
  simp only [termsValue_cons, termsValue_nil, add_zero]
  constructor
  · intro isFinite
    have far := (visit.openLeft_of_finite isFinite).2
    have reachNonneg :=
      pass.bounds.reach_nonneg sentinel (openTerms settings pass.bounds row)
    have epsilonNonneg := visit.epsilonNonneg
    exact
      Bounds.left_le_of_implied nonzero aboveImplied belowImplied
        (by linarith)
  · intro isFinite
    have far := (visit.openRight_of_finite isFinite).2
    have reachNonneg :=
      pass.bounds.reach_nonneg sentinel (openTerms settings pass.bounds row)
    have epsilonNonneg := visit.epsilonNonneg
    exact
      Bounds.le_right_of_implied nonzero aboveImplied belowImplied
        (by linarith)

/--
A row with several open terms, none of them integral, holds if the row kept for it
does.
-/
theorem holds_of_visitSeveral
    (visit : PointVisit sentinel settings pass.bounds row point)
    (continuous : ∀ var, integral.getD var false = false)
    (severalTerms : 2 ≤ (openTerms settings pass.bounds row).length)
    (keptHolds :
      ∀ kept ∈ keptFrom sentinel settings integral pass.bounds row,
        kept.Holds sentinel point) :
    row.Holds sentinel point := by
  have unchanged :=
    RowBox.tighten_of_continuous
      (visitBox sentinel settings integral pass.bounds)
      (openTerms settings pass.bounds row)
      (openLeft sentinel settings pass.bounds row)
      (openRight sentinel settings pass.bounds row)
      (fun term _ => continuous term.1)
  have isKept :
      (tightenedOpen sentinel settings integral pass.bounds row).toRow ∈
        keptFrom sentinel settings integral pass.bounds row := by
    simp only [keptFrom, Nat.not_lt.mpr severalTerms, false_or, tightenedOpen,
      unchanged, Bool.and_self, Bool.false_eq_true, ↓reduceIte,
      List.mem_singleton]
  have openHolds := keptHolds _ isKept
  rw [LinearRow.holds_iff, TightenedRow.value_toRow, tightenedOpen, unchanged]
    at openHolds
  apply (visit.openRow_iff 0).mp
  simp only [sub_zero, add_zero]
  constructor
  · intro isFinite
    exact openHolds.1 (visit.openLeft_finite_iff.mpr isFinite)
  · intro isFinite
    exact openHolds.2 (visit.openRight_finite_iff.mpr isFinite)

/-- A visited row holds up to its leftover wherever what came of the visit holds. -/
theorem visitRow_recovers
    (index : Nat)
    (visit : PointVisit sentinel settings pass.bounds row point)
    (continuous : ∀ var, integral.getD var false = false)
    (sameLength : pass.bounds.upper.length = pass.bounds.lower.length)
    (feasible :
      (pass.visitRow sentinel settings integral index
        row).summary.infeasible = false)
    (inside :
      (pass.visitRow sentinel settings integral index
        row).bounds.Contains point)
    (keptHolds :
      ∀ kept ∈ keptFrom sentinel settings integral pass.bounds row,
        kept.Holds sentinel point) :
    row.HoldsUpTo sentinel (leftover settings pass.bounds row) point := by
  unfold leftover
  split
  · rename_i noTerm
    exact holds_of_visitFixed index visit noTerm feasible
  · rename_i var coef oneTerm
    exact holds_of_visitSingle index visit sameLength oneTerm inside
  · rename_i notNone notSingle
    refine holds_of_visitSeveral visit continuous ?_ keptHolds
    rcases openTerms_cases settings pass.bounds row with
      noTerm | ⟨var, coef, oneTerm⟩ | severalTerms
    · exact absurd noTerm notNone
    · exact absurd oneTerm (notSingle var coef)
    · exact severalTerms

end Recovery

end RowPass

end SdpRelay
