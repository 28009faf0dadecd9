import Mathlib
import SdpRelay.Proofs.RowSemantics

namespace SdpRelay

/-!
# Coefficient tightening

The loop over the terms of a row has a closed form.  The larger of the two
slacks between the sides and the extreme activities never changes while it runs,
so every integral coefficient that exceeds this slack is reduced to it, no term
is dropped, and the sides move by the differences at the ends of the box.

From the closed form it follows that a row and its tightened form hold at the
same integral points of the box, provided that the finite bounds of integral
variables are whole numbers: a variable whose coefficient was reduced is at its
end of the box, where nothing changed, or at least one away from it, where both
rows hold.
-/

variable {K : Type} [ExactField K]

namespace RowBox

/-- The bound at which a term is smallest. -/
def lowEnd
    (box : RowBox K)
    (term : Nat × K) :
    K :=
  if 0 < term.2 then box.lowerAt term.1 else box.upperAt term.1

/-- The bound at which a term is largest. -/
def highEnd
    (box : RowBox K)
    (term : Nat × K) :
    K :=
  if 0 < term.2 then box.upperAt term.1 else box.lowerAt term.1

/-- The sum of terms, each taken at a bound of its own. -/
def endsValue
    (ends : Nat × K → K)
    (terms : List (Nat × K)) :
    K :=
  (terms.map fun term => term.2 * ends term).sum

@[simp] theorem endsValue_nil (ends : Nat × K → K) :
    endsValue ends [] = 0 :=
  rfl

@[simp] theorem endsValue_cons
    (ends : Nat × K → K)
    (term : Nat × K)
    (rest : List (Nat × K)) :
    endsValue ends (term :: rest) =
      term.2 * ends term + endsValue ends rest := by
  simp [endsValue]

/-- Adding terms to an activity, each at a bound of its own. -/
theorem foldl_add_spec
    {sentinel : K}
    {terms : List (Nat × K)}
    (ends : Nat × K → K)
    (activity : Activity K)
    (finite :
      (terms.foldl
        (fun sum term => sum.add sentinel term.2 (ends term))
        activity).infinite = false) :
    activity.infinite = false ∧
      (∀ term ∈ terms, |ends term| < sentinel) ∧
      (terms.foldl
        (fun sum term => sum.add sentinel term.2 (ends term))
        activity).sum.value =
          activity.sum.value + endsValue ends terms := by
  induction terms generalizing activity with
  | nil =>
      simpa using finite
  | cons term rest inductionHypothesis =>
      rw [List.foldl_cons] at finite ⊢
      obtain ⟨headFinite, restFinite, restValue⟩ :=
        inductionHypothesis _ finite
      by_cases within : ends term < sentinel ∧ -sentinel < ends term
      · simp only [Activity.add, within, and_self, ↓reduceIte,
          DoubleWord.value_addProduct] at headFinite restValue ⊢
        refine ⟨headFinite, ?_, ?_⟩
        · intro other member
          rcases List.mem_cons.mp member with isHead | inRest
          · subst other
            exact abs_lt.mpr ⟨within.2, within.1⟩
          · exact restFinite other inRest
        · rw [restValue, endsValue_cons]
          ring
      · simp [Activity.add, within] at headFinite

/--
A lowest activity that is not infinite is the sum of the terms at their low ends.
-/
theorem lowest_spec
    {box : RowBox K}
    {terms : List (Nat × K)}
    (finite : (box.lowest terms).infinite = false) :
    (∀ term ∈ terms, |box.lowEnd term| < box.sentinel) ∧
      (box.lowest terms).sum.value = endsValue box.lowEnd terms := by
  have spec :=
    foldl_add_spec box.lowEnd Activity.zero finite
  refine ⟨spec.2.1, ?_⟩
  have total := spec.2.2
  rw [show (Activity.zero : Activity K).sum.value = 0 from
    DoubleWord.value_zero, zero_add] at total
  exact total

theorem highest_spec
    {box : RowBox K}
    {terms : List (Nat × K)}
    (finite : (box.highest terms).infinite = false) :
    (∀ term ∈ terms, |box.highEnd term| < box.sentinel) ∧
      (box.highest terms).sum.value = endsValue box.highEnd terms := by
  have spec :=
    foldl_add_spec box.highEnd Activity.zero finite
  refine ⟨spec.2.1, ?_⟩
  have total := spec.2.2
  rw [show (Activity.zero : Activity K).sum.value = 0 from
    DoubleWord.value_zero, zero_add] at total
  exact total

/-- An integral term whose coefficient exceeds a slack by more than `epsilon`. -/
def Reducible
    (box : RowBox K)
    (slack : K)
    (term : Nat × K) :
    Prop :=
  box.isIntegral term.1 = true ∧ slack + box.epsilon < |term.2|

instance
    (box : RowBox K)
    (slack : K)
    (term : Nat × K) :
    Decidable (box.Reducible slack term) :=
  inferInstanceAs (Decidable (_ ∧ _))

/-- A coefficient after tightening: reduced to the slack if it exceeds that. -/
def reducedCoef
    (box : RowBox K)
    (slack : K)
    (term : Nat × K) :
    K :=
  if box.Reducible slack term then
    if 0 < term.2 then slack else -slack
  else
    term.2

/-- A coefficient that is reduced to a slack larger than `epsilon` remains in its row. -/
theorem remains_of_reducible
    {box : RowBox K}
    {slack : K}
    {term : Nat × K}
    (slackLarge : box.epsilon < slack)
    (reducible : box.Reducible slack term) :
    (if decide (0 < term.2) then
        decide (box.epsilon < box.reducedCoef slack term)
      else
        decide (box.reducedCoef slack term < -box.epsilon)) = true := by
  rw [reducedCoef, if_pos reducible]
  by_cases positive : 0 < term.2
  · simpa [positive] using slackLarge
  · simpa [positive] using slackLarge

/-- A term with its coefficient after tightening. -/
def reducedTerm
    (box : RowBox K)
    (slack : K)
    (term : Nat × K) :
    Nat × K :=
  (term.1, box.reducedCoef slack term)

/--
By how much a side moves: the changes of the coefficients, taken at bounds of the
terms.
-/
def sideShift
    (box : RowBox K)
    (slack : K)
    (ends : Nat × K → K)
    (terms : List (Nat × K)) :
    K :=
  (terms.map fun term =>
    (box.reducedCoef slack term - term.2) * ends term).sum

@[simp] theorem sideShift_nil
    (box : RowBox K)
    (slack : K)
    (ends : Nat × K → K) :
    box.sideShift slack ends [] = 0 :=
  rfl

@[simp] theorem sideShift_cons
    (box : RowBox K)
    (slack : K)
    (ends : Nat × K → K)
    (term : Nat × K)
    (rest : List (Nat × K)) :
    box.sideShift slack ends (term :: rest) =
      (box.reducedCoef slack term - term.2) * ends term +
        box.sideShift slack ends rest := by
  simp [sideShift]

end RowBox

namespace RowProgress

/-- The reduced value of a negative coefficient mirrors that of a positive one. -/
theorem reducedNegative_eq
    (progress : RowProgress K)
    (sentinel : K)
    (leftIsFinite rightIsFinite : Bool) :
    progress.reducedNegative sentinel leftIsFinite rightIsFinite =
      -progress.reducedPositive sentinel leftIsFinite rightIsFinite := by
  cases leftIsFinite <;> cases rightIsFinite <;>
    simp only [reducedNegative, reducedPositive, scalarLarger_eq,
      scalarSmaller_eq, neg_sub]
  rw [← min_neg_neg, neg_sub, neg_sub]

/-- The larger slack depends on the slacks of the sides that exist. -/
theorem reducedPositive_congr
    {progress other : RowProgress K}
    {sentinel : K}
    {leftIsFinite rightIsFinite : Bool}
    (someFinite : leftIsFinite = true ∨ rightIsFinite = true)
    (leftSame :
      leftIsFinite = true →
        progress.left - progress.lowestValue sentinel =
          other.left - other.lowestValue sentinel)
    (rightSame :
      rightIsFinite = true →
        progress.highestValue sentinel - progress.right =
          other.highestValue sentinel - other.right) :
    progress.reducedPositive sentinel leftIsFinite rightIsFinite =
      other.reducedPositive sentinel leftIsFinite rightIsFinite := by
  cases leftIsFinite <;> cases rightIsFinite <;>
    simp_all [reducedPositive]

/-- The larger slack is at most what the slacks of the sides that exist are at most. -/
theorem reducedPositive_le
    {progress : RowProgress K}
    {sentinel limit : K}
    {leftIsFinite rightIsFinite : Bool}
    (someFinite : leftIsFinite = true ∨ rightIsFinite = true)
    (leftBelow :
      leftIsFinite = true →
        progress.left - progress.lowestValue sentinel ≤ limit)
    (rightBelow :
      rightIsFinite = true →
        progress.highestValue sentinel - progress.right ≤ limit) :
    progress.reducedPositive sentinel leftIsFinite rightIsFinite ≤ limit := by
  cases leftIsFinite with
  | true =>
      cases rightIsFinite with
      | true =>
          exact max_le (leftBelow rfl) (rightBelow rfl)
      | false =>
          exact leftBelow rfl
  | false =>
      cases rightIsFinite with
      | true =>
          exact rightBelow rfl
      | false =>
          rcases someFinite with impossible | impossible <;>
            cases impossible

/-- A coefficient of a given magnitude meets both conditions for a reduction. -/
def FitsBoth
    (progress : RowProgress K)
    (box : RowBox K)
    (magnitude : K) :
    Prop :=
  progress.left - box.epsilon ≤
      progress.lowestValue box.sentinel + magnitude ∧
    progress.highestValue box.sentinel - magnitude ≤
      progress.right + box.epsilon

section Visit

variable
  {progress : RowProgress K}
  {box : RowBox K}
  {leftIsFinite rightIsFinite : Bool}
  {slack : K}

/-- What meets both conditions is not far below the larger slack. -/
theorem FitsBoth.slack_le
    {magnitude : K}
    (fits : progress.FitsBoth box magnitude)
    (someFinite : leftIsFinite = true ∨ rightIsFinite = true) :
    progress.reducedPositive box.sentinel leftIsFinite rightIsFinite ≤
      magnitude + box.epsilon :=
  reducedPositive_le someFinite
    (fun _ => by linarith [fits.1]) (fun _ => by linarith [fits.2])

/-- A term that does not exceed the larger slack is kept. -/
theorem visit_keep_of_slack
    {var : Nat}
    {coef : K}
    (someFinite : leftIsFinite = true ∨ rightIsFinite = true)
    (slackEq :
      progress.reducedPositive box.sentinel leftIsFinite rightIsFinite = slack)
    (notReducible : ¬ box.Reducible slack (var, coef)) :
    progress.visit box leftIsFinite rightIsFinite var coef = .keep := by
  cases integral : box.isIntegral var with
  | false =>
      simp [visit, integral]
  | true =>
      have small : |coef| ≤ slack + box.epsilon := by
        by_contra large
        exact notReducible ⟨integral, not_le.mp large⟩
      rcases lt_trichotomy coef 0 with negative | zero | positive
      · rw [abs_of_neg negative] at small
        simp only [visit, integral, Bool.true_eq_false, ↓reduceIte,
          not_lt.mpr negative.le, false_and, negative, true_and]
        split
        · rename_i fits
          have fitsBoth : progress.FitsBoth box (-coef) :=
            ⟨by linarith [fits.1], by linarith [fits.2]⟩
          have notBelow := fitsBoth.slack_le someFinite
          rw [slackEq] at notBelow
          have close :
              Scalar.abs
                  (progress.reducedNegative box.sentinel
                    leftIsFinite rightIsFinite - coef) ≤
                box.epsilon := by
            rw [reducedNegative_eq, slackEq, scalarAbs_eq]
            exact abs_le.mpr ⟨by linarith, by linarith⟩
          rw [if_pos close]
        · rfl
      · subst coef
        simp [visit, integral]
      · rw [abs_of_pos positive] at small
        simp only [visit, integral, Bool.true_eq_false, ↓reduceIte,
          positive, true_and, not_lt.mpr positive.le, false_and]
        split
        · rename_i fits
          have fitsBoth : progress.FitsBoth box coef := fits
          have notBelow := fitsBoth.slack_le someFinite
          rw [slackEq] at notBelow
          have close :
              Scalar.abs
                  (progress.reducedPositive box.sentinel
                    leftIsFinite rightIsFinite - coef) ≤
                box.epsilon := by
            rw [slackEq, scalarAbs_eq]
            exact abs_le.mpr ⟨by linarith, by linarith⟩
          rw [if_pos close]
        · rfl

/-- A term that exceeds the larger slack and meets both conditions is reduced to the slack. -/
theorem visit_reduce_of_fits
    {var : Nat}
    {coef : K}
    (slackEq :
      progress.reducedPositive box.sentinel leftIsFinite rightIsFinite = slack)
    (epsilonNonneg : 0 ≤ box.epsilon)
    (slackLarge : box.epsilon < slack)
    (reducible : box.Reducible slack (var, coef))
    (fits : progress.FitsBoth box |coef|) :
    progress.visit box leftIsFinite rightIsFinite var coef =
      progress.reduce box.epsilon leftIsFinite rightIsFinite (decide (0 < coef))
        coef (box.reducedCoef slack (var, coef))
        (box.lowEnd (var, coef)) (box.highEnd (var, coef)) := by
  obtain ⟨integral, large⟩ := reducible
  simp only at integral large
  have coefNonzero : coef ≠ 0 := by
    intro zero
    rw [zero, abs_zero] at large
    linarith
  obtain ⟨leftFits, rightFits⟩ := fits
  rcases lt_or_gt_of_ne coefNonzero with negative | positive
  · have magnitude : |coef| = -coef := abs_of_neg negative
    rw [magnitude] at leftFits rightFits
    have notClose :
        ¬ Scalar.abs
              (progress.reducedNegative box.sentinel
                leftIsFinite rightIsFinite - coef) ≤
            box.epsilon := by
      rw [reducedNegative_eq, slackEq, scalarAbs_eq, not_le]
      exact lt_abs.mpr (Or.inl (by linarith))
    have reducedTo : box.reducedCoef slack (var, coef) = -slack := by
      simp [RowBox.reducedCoef, RowBox.Reducible, integral, large,
        not_lt.mpr negative.le]
    simp only [visit, integral, Bool.true_eq_false, ↓reduceIte,
      not_lt.mpr negative.le, false_and, negative, true_and]
    rw [if_pos ⟨by linarith, by linarith⟩,
      if_neg notClose, reducedNegative_eq, slackEq, reducedTo]
    simp [RowBox.lowEnd, RowBox.highEnd, not_lt.mpr negative.le]
  · have magnitude : |coef| = coef := abs_of_pos positive
    rw [magnitude] at leftFits rightFits
    have notClose :
        ¬ Scalar.abs
              (progress.reducedPositive box.sentinel
                leftIsFinite rightIsFinite - coef) ≤
            box.epsilon := by
      rw [slackEq, scalarAbs_eq, not_le]
      exact lt_abs.mpr (Or.inr (by linarith))
    have reducedTo : box.reducedCoef slack (var, coef) = slack := by
      simp [RowBox.reducedCoef, RowBox.Reducible, integral, large, positive]
    simp only [visit, integral, Bool.true_eq_false, ↓reduceIte,
      positive, true_and]
    rw [if_pos ⟨leftFits, rightFits⟩, if_neg notClose, slackEq, reducedTo]
    simp [RowBox.lowEnd, RowBox.highEnd, positive]

end Visit

/--
What stays true of a row in progress: the larger slack has a given value, and a
side that is no restriction lies beyond the activity next to it.
-/
structure Settled
    (progress : RowProgress K)
    (box : RowBox K)
    (leftIsFinite rightIsFinite : Bool)
    (slack : K) : Prop where
  someFinite : leftIsFinite = true ∨ rightIsFinite = true
  slackEq :
    progress.reducedPositive box.sentinel leftIsFinite rightIsFinite = slack
  leftOpen :
    leftIsFinite = false →
      progress.left - box.epsilon ≤ progress.lowestValue box.sentinel
  rightOpen :
    rightIsFinite = false →
      progress.highestValue box.sentinel ≤ progress.right + box.epsilon

namespace Settled

variable
  {progress : RowProgress K}
  {box : RowBox K}
  {leftIsFinite rightIsFinite : Bool}
  {slack : K}

/-- The slack of a left side is at most the larger one. -/
theorem leftSlack_le
    (settled : progress.Settled box leftIsFinite rightIsFinite slack)
    (isFinite : leftIsFinite = true) :
    progress.left - progress.lowestValue box.sentinel ≤ slack := by
  rw [← settled.slackEq, isFinite]
  cases rightIsFinite with
  | true =>
      exact le_max_left _ _
  | false =>
      exact le_rfl

theorem rightSlack_le
    (settled : progress.Settled box leftIsFinite rightIsFinite slack)
    (isFinite : rightIsFinite = true) :
    progress.highestValue box.sentinel - progress.right ≤ slack := by
  rw [← settled.slackEq, isFinite]
  cases leftIsFinite with
  | true =>
      exact le_max_right _ _
  | false =>
      exact le_rfl

/-- A magnitude meets both conditions for a reduction if it is not below the slack. -/
theorem fits_iff
    {magnitude : K}
    (settled : progress.Settled box leftIsFinite rightIsFinite slack)
    (nonneg : 0 ≤ magnitude) :
    progress.FitsBoth box magnitude ↔ slack - box.epsilon ≤ magnitude := by
  constructor
  · intro fits
    have below := fits.slack_le settled.someFinite
    rw [settled.slackEq] at below
    linarith
  · intro notBelow
    constructor
    · cases isFinite : leftIsFinite with
      | true =>
          have := settled.leftSlack_le isFinite
          linarith
      | false =>
          have := settled.leftOpen isFinite
          linarith
    · cases isFinite : rightIsFinite with
      | true =>
          have := settled.rightSlack_le isFinite
          linarith
      | false =>
          have := settled.rightOpen isFinite
          linarith

/-- A term that cannot be reduced is kept. -/
theorem visit_keep
    {var : Nat}
    {coef : K}
    (settled : progress.Settled box leftIsFinite rightIsFinite slack)
    (notReducible : ¬ box.Reducible slack (var, coef)) :
    progress.visit box leftIsFinite rightIsFinite var coef = .keep :=
  visit_keep_of_slack settled.someFinite settled.slackEq notReducible

/-- A term that can be reduced is reduced to the slack. -/
theorem visit_reduce
    {var : Nat}
    {coef : K}
    (settled : progress.Settled box leftIsFinite rightIsFinite slack)
    (epsilonNonneg : 0 ≤ box.epsilon)
    (slackLarge : box.epsilon < slack)
    (reducible : box.Reducible slack (var, coef)) :
    progress.visit box leftIsFinite rightIsFinite var coef =
      progress.reduce box.epsilon leftIsFinite rightIsFinite (decide (0 < coef))
        coef (box.reducedCoef slack (var, coef))
        (box.lowEnd (var, coef)) (box.highEnd (var, coef)) := by
  have large : slack + box.epsilon < |coef| := reducible.2
  have fits : progress.FitsBoth box |coef| :=
    (settled.fits_iff (abs_nonneg coef)).mpr (by linarith)
  exact
    visit_reduce_of_fits settled.slackEq epsilonNonneg slackLarge reducible fits

/-- How a reduction of a term to the slack changes a row in progress. -/
structure Reduced
    (progress next : RowProgress K)
    (box : RowBox K)
    (leftIsFinite rightIsFinite : Bool)
    (slack : K)
    (term : Nat × K) : Prop where
  left :
    next.left =
      if leftIsFinite then
        progress.left +
          (box.reducedCoef slack term - term.2) * box.lowEnd term
      else
        progress.left
  right :
    next.right =
      if rightIsFinite then
        progress.right +
          (box.reducedCoef slack term - term.2) * box.highEnd term
      else
        progress.right
  lowestInfinite : next.lowest.infinite = progress.lowest.infinite
  highestInfinite : next.highest.infinite = progress.highest.infinite
  changes : next.changes = progress.changes + 1

/-- A reduction keeps the slacks, so that what was settled stays so. -/
theorem reduce_step
    {term : Nat × K}
    (settled : progress.Settled box leftIsFinite rightIsFinite slack)
    (epsilonNonneg : 0 ≤ box.epsilon)
    (slackLarge : box.epsilon < slack)
    (reducible : box.Reducible slack term)
    (lowestFinite :
      leftIsFinite = true → progress.lowest.infinite = false)
    (highestFinite :
      rightIsFinite = true → progress.highest.infinite = false) :
    ∃ next,
      progress.visit box leftIsFinite rightIsFinite term.1 term.2 =
          .replace next (box.reducedCoef slack term) ∧
        next.Settled box leftIsFinite rightIsFinite slack ∧
        Reduced progress next box leftIsFinite rightIsFinite slack term := by
  have visited := settled.visit_reduce epsilonNonneg slackLarge reducible
  rw [reduce, if_pos (RowBox.remains_of_reducible slackLarge reducible)]
    at visited
  refine ⟨_, visited, ⟨settled.someFinite, ?_, ?_, ?_⟩, ⟨?_, ?_, ?_, ?_, rfl⟩⟩
  · rw [← settled.slackEq]
    apply reducedPositive_congr settled.someFinite
    · intro isFinite
      simp only [lowestValue, Activity.value, isFinite, ↓reduceIte,
        lowestFinite isFinite, Bool.false_eq_true, movedSide,
        DoubleWord.value_add, DoubleWord.value_addWord]
      ring
    · intro isFinite
      simp only [highestValue, Activity.value, isFinite, ↓reduceIte,
        highestFinite isFinite, Bool.false_eq_true, movedSide,
        DoubleWord.value_add, DoubleWord.value_addWord]
      ring
  · intro notFinite
    have leftOpen := settled.leftOpen notFinite
    simpa [notFinite, lowestValue] using leftOpen
  · intro notFinite
    have rightOpen := settled.rightOpen notFinite
    simpa [notFinite, highestValue] using rightOpen
  · cases leftIsFinite with
    | true =>
        simp [movedSide, add_comm]
    | false =>
        rfl
  · cases rightIsFinite with
    | true =>
        simp [movedSide, add_comm]
    | false =>
        rfl
  · cases leftIsFinite <;> rfl
  · cases rightIsFinite <;> rfl

/-- The result of visiting all terms of a row in closed form. -/
structure Finished
    (progress final : RowProgress K)
    (box : RowBox K)
    (leftIsFinite rightIsFinite : Bool)
    (slack : K)
    (terms kept : List (Nat × K)) : Prop where
  keptEq : kept = terms.map (box.reducedTerm slack)
  left :
    final.left =
      if leftIsFinite then
        progress.left + box.sideShift slack box.lowEnd terms
      else
        progress.left
  right :
    final.right =
      if rightIsFinite then
        progress.right + box.sideShift slack box.highEnd terms
      else
        progress.right
  changes :
    final.changes =
      progress.changes +
        terms.countP (fun term => decide (box.Reducible slack term))

/--
The loop over the terms in closed form.  Next to an infinite activity the slack
is out of reach of every coefficient, which is the last assumption.
-/
theorem visitAll_finished
    {terms : List (Nat × K)}
    (settled : progress.Settled box leftIsFinite rightIsFinite slack)
    (epsilonNonneg : 0 ≤ box.epsilon)
    (slackLarge : box.epsilon < slack)
    (outOfReach :
      (leftIsFinite = true ∧ progress.lowest.infinite = true) ∨
          (rightIsFinite = true ∧ progress.highest.infinite = true) →
        ∀ term ∈ terms, ¬ box.Reducible slack term) :
    Finished progress
      (visitAll box leftIsFinite rightIsFinite progress terms).1
      box leftIsFinite rightIsFinite slack terms
      (visitAll box leftIsFinite rightIsFinite progress terms).2 := by
  induction terms generalizing progress with
  | nil =>
      rw [visitAll]
      exact ⟨rfl, by simp, by simp, rfl⟩
  | cons term rest inductionHypothesis =>
      by_cases reducible : box.Reducible slack term
      · have lowestFinite
            (isFinite : leftIsFinite = true) :
            progress.lowest.infinite = false := by
          by_contra infinite
          exact outOfReach (.inl ⟨isFinite, by simpa using infinite⟩)
            term (by simp) reducible
        have highestFinite
            (isFinite : rightIsFinite = true) :
            progress.highest.infinite = false := by
          by_contra infinite
          exact outOfReach (.inr ⟨isFinite, by simpa using infinite⟩)
            term (by simp) reducible
        obtain ⟨next, visited, nextSettled, reduced⟩ :=
          settled.reduce_step epsilonNonneg slackLarge reducible
            lowestFinite highestFinite
        have later :=
          inductionHypothesis nextSettled (by
            rw [reduced.lowestInfinite, reduced.highestInfinite]
            intro infinite other member
            exact outOfReach infinite other (by simp [member]))
        rw [visitAll, visited]
        refine ⟨?_, ?_, ?_, ?_⟩
        · simp [later.keptEq, RowBox.reducedTerm]
        · rw [later.left, reduced.left, RowBox.sideShift_cons]
          split
          · ring
          · rfl
        · rw [later.right, reduced.right, RowBox.sideShift_cons]
          split
          · ring
          · rfl
        · simp only [later.changes, reduced.changes, List.countP_cons,
            reducible, decide_true, ↓reduceIte]
          omega
      · have later :=
          inductionHypothesis settled
            (fun infinite other member =>
              outOfReach infinite other (by simp [member]))
        have sameCoef : box.reducedCoef slack term = term.2 := by
          rw [RowBox.reducedCoef, if_neg reducible]
        rw [visitAll, settled.visit_keep reducible]
        refine ⟨?_, ?_, ?_, ?_⟩
        · simp [later.keptEq, RowBox.reducedTerm, sameCoef]
        · simp [later.left, sameCoef]
        · simp [later.right, sameCoef]
        · simp [later.changes, reducible]

end Settled

end RowProgress

namespace RowBox

/-- The row before any of its terms is visited. -/
def start
    (box : RowBox K)
    (terms : List (Nat × K))
    (left right : K) :
    RowProgress K :=
  {
    left := left
    right := right
    lowest := box.lowest terms
    highest := box.highest terms
    changes := 0
  }

/-- The larger of the slacks between the sides of a row and its extreme activities. -/
def slack
    (box : RowBox K)
    (terms : List (Nat × K))
    (left right : K) :
    K :=
  (box.start terms left right).reducedPositive box.sentinel
    (RowProgress.leftFinite box.sentinel left)
    (RowProgress.rightFinite box.sentinel right)

/-- Both sides of a row are missing or next to its extreme activities. -/
def BothRedundant
    (box : RowBox K)
    (terms : List (Nat × K))
    (left right : K) :
    Prop :=
  (-box.sentinel < left →
      left - box.epsilon ≤
        (box.start terms left right).lowestValue box.sentinel) ∧
    (right < box.sentinel →
      (box.start terms left right).highestValue box.sentinel ≤
        right + box.epsilon)

/-- The finite numbers of a row are far from the sentinel. -/
structure FarFromSentinel
    (box : RowBox K)
    (terms : List (Nat × K))
    (left right : K) : Prop where
  left :
    -box.sentinel < left →
      ∀ term ∈ terms, |term.2| + |left| + box.epsilon < box.sentinel
  right :
    right < box.sentinel →
      ∀ term ∈ terms, |term.2| + |right| + box.epsilon < box.sentinel
  lowest :
    (box.lowest terms).infinite = false →
      |(box.lowest terms).sum.value| < box.sentinel
  highest :
    (box.highest terms).infinite = false →
      |(box.highest terms).sum.value| < box.sentinel

/--
A row is left alone, or its terms are visited because some side is not redundant.
-/
theorem tighten_cases
    (box : RowBox K)
    (terms : List (Nat × K))
    (left right : K) :
    ((box.tighten terms left right).terms = terms ∧
        (box.tighten terms left right).left = left ∧
        (box.tighten terms left right).right = right) ∨
      (¬ box.BothRedundant terms left right ∧
        (box.tighten terms left right).terms =
          (RowProgress.visitAll box
            (RowProgress.leftFinite box.sentinel left)
            (RowProgress.rightFinite box.sentinel right)
            (box.start terms left right) terms).2 ∧
        (box.tighten terms left right).left =
          (RowProgress.visitAll box
            (RowProgress.leftFinite box.sentinel left)
            (RowProgress.rightFinite box.sentinel right)
            (box.start terms left right) terms).1.left ∧
        (box.tighten terms left right).right =
          (RowProgress.visitAll box
            (RowProgress.leftFinite box.sentinel left)
            (RowProgress.rightFinite box.sentinel right)
            (box.start terms left right) terms).1.right) := by
  rw [tighten]
  split
  · exact .inl ⟨rfl, rfl, rfl⟩
  split
  · exact .inl ⟨rfl, rfl, rfl⟩
  split
  · exact .inl ⟨rfl, rfl, rfl⟩
  rename_i notBoth
  split
  · exact .inl ⟨rfl, rfl, rfl⟩
  refine .inr ⟨?_, rfl, rfl, rfl⟩
  intro both
  apply notBoth
  obtain ⟨leftRedundant, rightRedundant⟩ := both
  have leftFlag :
      (!RowProgress.leftFinite box.sentinel left ||
        decide (left - box.epsilon ≤
          (box.start terms left right).lowestValue box.sentinel)) = true := by
    by_cases isFinite : -box.sentinel < left
    · simp [leftRedundant isFinite]
    · simp [RowProgress.leftFinite, isFinite]
  have rightFlag :
      (!RowProgress.rightFinite box.sentinel right ||
        decide ((box.start terms left right).highestValue box.sentinel ≤
          right + box.epsilon)) = true := by
    by_cases isFinite : right < box.sentinel
    · simp [rightRedundant isFinite]
    · simp [RowProgress.rightFinite, isFinite]
  exact Bool.and_eq_true_iff.mpr ⟨leftFlag, rightFlag⟩

namespace FarFromSentinel

variable
  {box : RowBox K}
  {terms : List (Nat × K)}
  {left right : K}

/-- The lowest activity is not below minus the sentinel. -/
theorem lowestValue_ge
    (far : box.FarFromSentinel terms left right) :
    -box.sentinel ≤ (box.start terms left right).lowestValue box.sentinel := by
  cases infinite : (box.lowest terms).infinite with
  | true =>
      simp [RowProgress.lowestValue, Activity.value, start, infinite]
  | false =>
      have magnitude := abs_lt.mp (far.lowest infinite)
      simpa [RowProgress.lowestValue, Activity.value, start, infinite]
        using magnitude.1.le

theorem highestValue_le
    (far : box.FarFromSentinel terms left right) :
    (box.start terms left right).highestValue box.sentinel ≤ box.sentinel := by
  cases infinite : (box.highest terms).infinite with
  | true =>
      simp [RowProgress.highestValue, Activity.value, start, infinite]
  | false =>
      have magnitude := abs_lt.mp (far.highest infinite)
      simpa [RowProgress.highestValue, Activity.value, start, infinite]
        using magnitude.2.le

/-- A row with a side that is not redundant starts out settled. -/
theorem settled
    (far : box.FarFromSentinel terms left right)
    (epsilonNonneg : 0 ≤ box.epsilon)
    (notBoth : ¬ box.BothRedundant terms left right) :
    (box.start terms left right).Settled box
      (RowProgress.leftFinite box.sentinel left)
      (RowProgress.rightFinite box.sentinel right)
      (box.slack terms left right) where
  someFinite := by
    by_contra noneFinite
    simp only [RowProgress.leftFinite, RowProgress.rightFinite,
      decide_eq_true_eq, not_or] at noneFinite
    exact notBoth
      ⟨fun isFinite => absurd isFinite noneFinite.1,
        fun isFinite => absurd isFinite noneFinite.2⟩
  slackEq := rfl
  leftOpen notFinite := by
    have beyond : left ≤ -box.sentinel := by
      simpa [RowProgress.leftFinite] using notFinite
    have atLeast := far.lowestValue_ge
    change left - box.epsilon ≤ _
    linarith
  rightOpen notFinite := by
    have beyond : box.sentinel ≤ right := by
      simpa [RowProgress.rightFinite] using notFinite
    have atMost := far.highestValue_le
    change _ ≤ right + box.epsilon
    linarith

/-- The slack of a row with a side that is not redundant exceeds `epsilon`. -/
theorem slack_large
    (far : box.FarFromSentinel terms left right)
    (epsilonNonneg : 0 ≤ box.epsilon)
    (notBoth : ¬ box.BothRedundant terms left right) :
    box.epsilon < box.slack terms left right := by
  have settled := far.settled epsilonNonneg notBoth
  by_contra small
  apply notBoth
  constructor
  · intro isFinite
    have leftSlack :=
      settled.leftSlack_le (by simpa [RowProgress.leftFinite] using isFinite)
    change left - _ ≤ _ at leftSlack
    linarith
  · intro isFinite
    have rightSlack :=
      settled.rightSlack_le (by simpa [RowProgress.rightFinite] using isFinite)
    change _ - right ≤ _ at rightSlack
    linarith

/-- Next to an infinite activity, no coefficient reaches the slack. -/
theorem not_reducible
    (far : box.FarFromSentinel terms left right)
    (epsilonNonneg : 0 ≤ box.epsilon)
    (notBoth : ¬ box.BothRedundant terms left right)
    (infinite :
      (RowProgress.leftFinite box.sentinel left = true ∧
          (box.start terms left right).lowest.infinite = true) ∨
        (RowProgress.rightFinite box.sentinel right = true ∧
          (box.start terms left right).highest.infinite = true)) :
    ∀ term ∈ terms, ¬ box.Reducible (box.slack terms left right) term := by
  have settled := far.settled epsilonNonneg notBoth
  intro term member reducible
  have large := reducible.2
  rcases infinite with ⟨isFinite, lowestInfinite⟩ | ⟨isFinite, highestInfinite⟩
  · have leftSlack := settled.leftSlack_le isFinite
    rw [RowProgress.lowestValue, Activity.value, if_pos lowestInfinite]
      at leftSlack
    change left - _ ≤ _ at leftSlack
    have sideFar :=
      far.left (by simpa [RowProgress.leftFinite] using isFinite) term member
    have aboveNegative := neg_abs_le left
    linarith
  · have rightSlack := settled.rightSlack_le isFinite
    rw [RowProgress.highestValue, Activity.value, if_pos highestInfinite]
      at rightSlack
    change _ - right ≤ _ at rightSlack
    have sideFar :=
      far.right (by simpa [RowProgress.rightFinite] using isFinite) term member
    have belowMagnitude := le_abs_self right
    linarith

/--
The terms of a row with a side that is not redundant are visited as the closed
form says.
-/
theorem finished
    (far : box.FarFromSentinel terms left right)
    (epsilonNonneg : 0 ≤ box.epsilon)
    (notBoth : ¬ box.BothRedundant terms left right) :
    RowProgress.Settled.Finished
      (box.start terms left right)
      (RowProgress.visitAll box
        (RowProgress.leftFinite box.sentinel left)
        (RowProgress.rightFinite box.sentinel right)
        (box.start terms left right) terms).1
      box
      (RowProgress.leftFinite box.sentinel left)
      (RowProgress.rightFinite box.sentinel right)
      (box.slack terms left right)
      terms
      (RowProgress.visitAll box
        (RowProgress.leftFinite box.sentinel left)
        (RowProgress.rightFinite box.sentinel right)
        (box.start terms left right) terms).2 :=
  (far.settled epsilonNonneg notBoth).visitAll_finished epsilonNonneg
    (far.slack_large epsilonNonneg notBoth)
    (far.not_reducible epsilonNonneg notBoth)

end FarFromSentinel

end RowBox

end SdpRelay
