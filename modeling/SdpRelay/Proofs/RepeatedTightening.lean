import Mathlib
import SdpRelay.Proofs.RowSlacks

namespace SdpRelay

/-!
# Tightening a row again

A row that is tightened has a closed form: every integral coefficient that exceeds the
larger slack by more than `epsilon` is reduced to that slack, and the sides move so that
both slacks stay what they were.  Tightening the row again would then find nothing to
reduce, if it saw the same sides.  It does, unless a side has moved beyond the sentinel
and does not count any more: the slack that is left may be smaller, and coefficients are
then reduced once more.
-/

variable {K : Type} [ExactField K]

namespace RowBox

/-- A row in which the coefficients that exceed a slack are reduced to it, and nothing else. -/
structure ClosedForm
    (box : RowBox K)
    (terms : List (Nat × K))
    (left right slack : K)
    (row : TightenedRow K) : Prop where
  reduced : row.terms = terms.map (box.reducedTerm slack)
  changes :
    row.changes =
      terms.countP (fun term => decide (box.Reducible slack term))
  leftMoved :
    -box.sentinel < left →
      row.left = left + box.sideShift slack box.lowEnd terms
  leftOpen : ¬ -box.sentinel < left → row.left = left
  rightMoved :
    right < box.sentinel →
      row.right = right + box.sideShift slack box.highEnd terms
  rightOpen : ¬ right < box.sentinel → row.right = right
  leftSlackKept :
    -box.sentinel < left →
      box.leftSlack row.terms row.left = box.leftSlack terms left
  rightSlackKept :
    right < box.sentinel →
      box.rightSlack row.terms row.right = box.rightSlack terms right

/--
The left side of a row counts, but not any more when the row is tightened, and what is
left of the row is neither without a right side nor redundant next to it, and has a
coefficient that exceeds the right slack.
-/
structure LosesLeft
    (box : RowBox K)
    (terms : List (Nat × K))
    (left right : K) : Prop where
  counts : -box.sentinel < left
  lost : (box.tighten terms left right).left ≤ -box.sentinel
  otherCounts : (box.tighten terms left right).right < box.sentinel
  otherOpen : box.epsilon < box.rightSlack terms right
  reducible :
    ∃ term ∈ (box.tighten terms left right).terms,
      box.Reducible (box.rightSlack terms right) term

/-- The right side is lost in the same way. -/
structure LosesRight
    (box : RowBox K)
    (terms : List (Nat × K))
    (left right : K) : Prop where
  counts : right < box.sentinel
  lost : box.sentinel ≤ (box.tighten terms left right).right
  otherCounts : -box.sentinel < (box.tighten terms left right).left
  otherOpen : box.epsilon < box.leftSlack terms left
  reducible :
    ∃ term ∈ (box.tighten terms left right).terms,
      box.Reducible (box.leftSlack terms left) term

/-- A tightened row lost a side and is no equation. -/
def LosesSide
    (box : RowBox K)
    (terms : List (Nat × K))
    (left right : K) :
    Prop :=
  box.epsilon ≤
      |(box.tighten terms left right).left -
        (box.tighten terms left right).right| ∧
    (box.LosesLeft terms left right ∨ box.LosesRight terms left right)

section ClosedForms

variable
  {box : RowBox K}
  {terms : List (Nat × K)}
  {left right : K}

/-- What is out of reach is not reduced. -/
theorem FarFromSentinel.not_reducible_of_outOfReach
    (far : box.FarFromSentinel terms left right)
    (epsilonNonneg : 0 ≤ box.epsilon)
    (outOfReach : box.OutOfReach terms left right) :
    ∀ term ∈ terms, ¬ box.Reducible (box.slack terms left right) term := by
  obtain ⟨largestNonneg, below⟩ := box.le_largestIntegral terms
  intro term member reducible
  have small := below term member reducible.1
  have large := reducible.2
  rcases outOfReach with leftOut | rightOut
  · have above :
        -box.sentinel ≤ (box.lowest terms).value box.sentinel (-1) :=
      far.lowestValue_ge
    have counts : -box.sentinel < left := by linarith
    have leftBelow : box.leftSlack terms left ≤ box.slack terms left right :=
      leftSlack_le_slack counts
    rw [leftSlack] at leftBelow
    linarith
  · have above :
        (box.highest terms).value box.sentinel 1 ≤ box.sentinel :=
      far.highestValue_le
    have counts : right < box.sentinel := by linarith
    have rightBelow :
        box.rightSlack terms right ≤ box.slack terms left right :=
      rightSlack_le_slack counts
    rw [rightSlack] at rightBelow
    linarith

/-- The slack of a left side stays what it was when the side and the terms move. -/
theorem FarFromSentinel.leftSlack_reduced
    (far : box.FarFromSentinel terms left right)
    (epsilonNonneg : 0 ≤ box.epsilon)
    (notBoth : ¬ box.BothRedundant terms left right)
    (counts : -box.sentinel < left) :
    box.leftSlack
        (terms.map (box.reducedTerm (box.slack terms left right)))
        (left +
          box.sideShift (box.slack terms left right) box.lowEnd terms) =
      box.leftSlack terms left := by
  have slackPos : 0 < box.slack terms left right :=
    epsilonNonneg.trans_lt (epsilon_lt_slack notBoth)
  have lowestMoved :=
    extreme_reduced (fun term => (ends_reducedTerm slackPos term).1)
      (fun infinite =>
        far.not_reducible epsilonNonneg notBoth
          (.inl ⟨decide_eq_true counts, infinite⟩)) (-1)
  calc
    _ = left +
          box.sideShift (box.slack terms left right) box.lowEnd terms -
        ((box.lowest terms).value box.sentinel (-1) +
          box.sideShift (box.slack terms left right) box.lowEnd terms) :=
      congrArg _ lowestMoved
    _ = box.leftSlack terms left := by
      rw [leftSlack]
      ring

theorem FarFromSentinel.rightSlack_reduced
    (far : box.FarFromSentinel terms left right)
    (epsilonNonneg : 0 ≤ box.epsilon)
    (notBoth : ¬ box.BothRedundant terms left right)
    (counts : right < box.sentinel) :
    box.rightSlack
        (terms.map (box.reducedTerm (box.slack terms left right)))
        (right +
          box.sideShift (box.slack terms left right) box.highEnd terms) =
      box.rightSlack terms right := by
  have slackPos : 0 < box.slack terms left right :=
    epsilonNonneg.trans_lt (epsilon_lt_slack notBoth)
  have highestMoved :=
    extreme_reduced (fun term => (ends_reducedTerm slackPos term).2)
      (fun infinite =>
        far.not_reducible epsilonNonneg notBoth
          (.inr ⟨decide_eq_true counts, infinite⟩)) 1
  calc
    _ = (box.highest terms).value box.sentinel 1 +
          box.sideShift (box.slack terms left right) box.highEnd terms -
        (right +
          box.sideShift (box.slack terms left right) box.highEnd terms) :=
      congrArg (· - _) highestMoved
    _ = box.rightSlack terms right := by
      rw [rightSlack]
      ring

/-- The closed form of a row that tightening does not leave alone from the start. -/
theorem FarFromSentinel.closedForm
    (far : box.FarFromSentinel terms left right)
    (epsilonNonneg : 0 ≤ box.epsilon)
    (apart : box.epsilon ≤ |left - right|)
    (hasIntegral : ∃ term ∈ terms, box.isIntegral term.1 = true)
    (someFinite :
      (box.lowest terms).infinite = false ∨
        (box.highest terms).infinite = false)
    (notBoth : ¬ box.BothRedundant terms left right) :
    box.ClosedForm terms left right (box.slack terms left right)
      (box.tighten terms left right) := by
  have ofMoved
      (reduced :
        (box.tighten terms left right).terms =
          terms.map (box.reducedTerm (box.slack terms left right)))
      (changes :
        (box.tighten terms left right).changes =
          terms.countP fun term =>
            decide (box.Reducible (box.slack terms left right) term))
      (leftMoved :
        (box.tighten terms left right).left =
          if RowProgress.leftFinite box.sentinel left then
            left + box.sideShift (box.slack terms left right) box.lowEnd terms
          else left)
      (rightMoved :
        (box.tighten terms left right).right =
          if RowProgress.rightFinite box.sentinel right then
            right +
              box.sideShift (box.slack terms left right) box.highEnd terms
          else right) :
      box.ClosedForm terms left right (box.slack terms left right)
        (box.tighten terms left right) := by
    have leftCounted (counts : -box.sentinel < left) :=
      leftMoved.trans (if_pos (decide_eq_true counts))
    have rightCounted (counts : right < box.sentinel) :=
      rightMoved.trans (if_pos (decide_eq_true counts))
    exact
      {
        reduced := reduced
        changes := changes
        leftMoved := leftCounted
        leftOpen := fun isOpen =>
          leftMoved.trans (if_neg (mt of_decide_eq_true isOpen))
        rightMoved := rightCounted
        rightOpen := fun isOpen =>
          rightMoved.trans (if_neg (mt of_decide_eq_true isOpen))
        leftSlackKept := fun counts => by
          rw [reduced, leftCounted counts]
          exact far.leftSlack_reduced epsilonNonneg notBoth counts
        rightSlackKept := fun counts => by
          rw [reduced, rightCounted counts]
          exact far.rightSlack_reduced epsilonNonneg notBoth counts
      }
  rcases tighten_of_open apart hasIntegral someFinite notBoth with
    ⟨outOfReach, ⟨sameTerms, sameLeft, sameRight⟩, noChanges⟩ |
      ⟨-, visitedTerms, visitedLeft, visitedRight, visitedChanges⟩
  · have small := far.not_reducible_of_outOfReach epsilonNonneg outOfReach
    obtain ⟨reducedSame, noLeftShift⟩ := reduced_eq_self small box.lowEnd
    have noRightShift := (reduced_eq_self small box.highEnd).2
    refine ofMoved (sameTerms.trans reducedSame.symm) ?_ ?_ ?_
    · rw [noChanges, eq_comm, List.countP_eq_zero]
      exact fun term member => by simpa using small term member
    · rw [sameLeft, noLeftShift, add_zero, ite_self]
    · rw [sameRight, noRightShift, add_zero, ite_self]
  · have finished := far.finished epsilonNonneg notBoth
    refine ofMoved (visitedTerms.trans finished.keptEq) ?_
      (visitedLeft.trans finished.left) (visitedRight.trans finished.right)
    rw [visitedChanges]
    exact finished.changes.trans (Nat.zero_add _)

end ClosedForms

section Again

variable
  {box : RowBox K}
  {terms : List (Nat × K)}
  {left right slack : K}
  {row : TightenedRow K}

/-- Reduced terms do not exceed the slack that they are reduced to. -/
theorem not_reducible_reduced
    (epsilonNonneg : 0 ≤ box.epsilon)
    (slackNonneg : 0 ≤ slack) :
    ∀ term ∈ terms.map (box.reducedTerm slack), ¬ box.Reducible slack term := by
  intro reduced member again
  obtain ⟨term, -, rfl⟩ := List.mem_map.mp member
  by_cases reducible : box.Reducible slack term
  · have magnitude := abs_reducedCoef slackNonneg reducible
    have large : slack + box.epsilon < |box.reducedCoef slack term| := again.2
    linarith
  · rw [reducedTerm, reducedCoef, if_neg reducible] at again
    exact reducible again

/--
If some reduced term exceeds another slack, then one that exceeds it also reaches the
slack that the terms were reduced to, up to `epsilon`.
-/
theorem exists_reaching
    {other : K}
    (epsilonNonneg : 0 ≤ box.epsilon)
    (slackNonneg : 0 ≤ slack)
    (someReduced : ∃ term ∈ terms, box.Reducible slack term)
    (exceeds :
      ∃ term ∈ terms.map (box.reducedTerm slack), box.Reducible other term) :
    ∃ term ∈ terms.map (box.reducedTerm slack),
      box.Reducible other term ∧ slack - box.epsilon ≤ |term.2| := by
  obtain ⟨term, member, reducible⟩ := exceeds
  by_cases reached : slack - box.epsilon ≤ |term.2|
  · exact ⟨term, member, reducible, reached⟩
  · -- a coefficient that was reduced to the slack is larger than this one
    have large := reducible.2
    obtain ⟨source, isSource, wasReduced⟩ := someReduced
    have magnitude : |box.reducedCoef slack source| = slack :=
      abs_reducedCoef slackNonneg wasReduced
    refine
      ⟨box.reducedTerm slack source, List.mem_map_of_mem isSource,
        ⟨wasReduced.1, ?_⟩, ?_⟩
    · change other + box.epsilon < |box.reducedCoef slack source|
      linarith
    · change slack - box.epsilon ≤ |box.reducedCoef slack source|
      linarith

namespace ClosedForm

/-- Sides move only if some term is reduced. -/
theorem someReduced
    (closed : box.ClosedForm terms left right slack row)
    (moved : row.left ≠ left ∨ row.right ≠ right) :
    ∃ term ∈ terms, box.Reducible slack term := by
  by_contra none
  have small : ∀ term ∈ terms, ¬ box.Reducible slack term :=
    fun term member reducible => none ⟨term, member, reducible⟩
  have sameLeft : row.left = left := by
    by_cases counts : -box.sentinel < left
    · rw [closed.leftMoved counts, (reduced_eq_self small box.lowEnd).2,
        add_zero]
    · exact closed.leftOpen counts
  have sameRight : row.right = right := by
    by_cases counts : right < box.sentinel
    · rw [closed.rightMoved counts, (reduced_eq_self small box.highEnd).2,
        add_zero]
    · exact closed.rightOpen counts
  exact moved.elim (absurd sameLeft) (absurd sameRight)

/-- A side that counts after tightening counted before. -/
theorem counted_left
    (closed : box.ClosedForm terms left right slack row)
    (counts : -box.sentinel < row.left) :
    -box.sentinel < left := by
  by_contra isOpen
  rw [closed.leftOpen isOpen] at counts
  exact isOpen counts

theorem counted_right
    (closed : box.ClosedForm terms left right slack row)
    (counts : row.right < box.sentinel) :
    right < box.sentinel := by
  by_contra isOpen
  rw [closed.rightOpen isOpen] at counts
  exact isOpen counts

/-- A finite activity stays finite. -/
theorem someFinite
    (closed : box.ClosedForm terms left right slack row)
    (slackPos : 0 < slack)
    (someFinite :
      (box.lowest terms).infinite = false ∨
        (box.highest terms).infinite = false) :
    (box.lowest row.terms).infinite = false ∨
      (box.highest row.terms).infinite = false := by
  have sameLowest :
      (box.lowest (terms.map (box.reducedTerm slack))).infinite =
        (box.lowest terms).infinite :=
    extreme_infinite_reduced fun term => (ends_reducedTerm slackPos term).1
  have sameHighest :
      (box.highest (terms.map (box.reducedTerm slack))).infinite =
        (box.highest terms).infinite :=
    extreme_infinite_reduced fun term => (ends_reducedTerm slackPos term).2
  rw [closed.reduced, sameLowest, sameHighest]
  exact someFinite

end ClosedForm

/--
A row both of whose sides counted is changed when it is tightened again, if a coefficient
exceeds the slack that it has now.
-/
theorem ClosedForm.tighten_again_ne
    (closed :
      box.ClosedForm terms left right (box.slack terms left right) row)
    (epsilonNonneg : 0 ≤ box.epsilon)
    (slackPos : 0 < box.slack terms left right)
    (leftCounts : -box.sentinel < left)
    (rightCounts : right < box.sentinel)
    (someFinite :
      (box.lowest terms).infinite = false ∨
        (box.highest terms).infinite = false)
    (moved : row.left ≠ left ∨ row.right ≠ right)
    (apart : box.epsilon ≤ |row.left - row.right|)
    (notBoth : ¬ box.BothRedundant row.terms row.left row.right)
    (exceeds :
      ∃ term ∈ row.terms,
        box.Reducible (box.slack row.terms row.left row.right) term) :
    (box.tighten row.terms row.left row.right).terms ≠ row.terms := by
  obtain ⟨term, member, reducible, reached⟩ :=
    exists_reaching epsilonNonneg slackPos.le (closed.someReduced moved)
      (closed.reduced ▸ exceeds)
  rw [← closed.reduced] at member reducible
  have leftBelow : box.leftSlack terms left ≤ box.slack terms left right :=
    leftSlack_le_slack leftCounts
  have rightBelow :
      box.rightSlack terms right ≤ box.slack terms left right :=
    rightSlack_le_slack rightCounts
  refine
    tighten_terms_ne epsilonNonneg apart
      (closed.someFinite slackPos someFinite) notBoth
      ⟨term, member, reducible, ?_, ?_⟩
  · rw [closed.leftSlackKept leftCounts]
    linarith
  · rw [closed.rightSlackKept rightCounts]
    linarith

/-- A row that has lost its left side is changed when it is tightened again. -/
theorem LosesLeft.changes
    (loses : box.LosesLeft terms left right)
    (closed :
      box.ClosedForm terms left right (box.slack terms left right)
        (box.tighten terms left right))
    (epsilonNonneg : 0 ≤ box.epsilon)
    (slackPos : 0 < box.slack terms left right)
    (someFinite :
      (box.lowest terms).infinite = false ∨
        (box.highest terms).infinite = false)
    (apart :
      box.epsilon ≤
        |(box.tighten terms left right).left -
          (box.tighten terms left right).right|) :
    (box.tighten (box.tighten terms left right).terms
        (box.tighten terms left right).left
        (box.tighten terms left right).right).terms ≠
      (box.tighten terms left right).terms := by
  have rightCounts := closed.counted_right loses.otherCounts
  have sameRight := closed.rightSlackKept rightCounts
  refine
    closed.tighten_again_ne epsilonNonneg slackPos loses.counts rightCounts
      someFinite (.inl (loses.lost.trans_lt loses.counts).ne) apart ?_ ?_
  · rw [bothRedundant_iff, sameRight]
    exact fun both =>
      absurd loses.otherOpen (both.2 loses.otherCounts).not_gt
  · rw [slack_of_right loses.lost.not_gt, sameRight]
    exact loses.reducible

theorem LosesRight.changes
    (loses : box.LosesRight terms left right)
    (closed :
      box.ClosedForm terms left right (box.slack terms left right)
        (box.tighten terms left right))
    (epsilonNonneg : 0 ≤ box.epsilon)
    (slackPos : 0 < box.slack terms left right)
    (someFinite :
      (box.lowest terms).infinite = false ∨
        (box.highest terms).infinite = false)
    (apart :
      box.epsilon ≤
        |(box.tighten terms left right).left -
          (box.tighten terms left right).right|) :
    (box.tighten (box.tighten terms left right).terms
        (box.tighten terms left right).left
        (box.tighten terms left right).right).terms ≠
      (box.tighten terms left right).terms := by
  have leftCounts := closed.counted_left loses.otherCounts
  have sameLeft := closed.leftSlackKept leftCounts
  refine
    closed.tighten_again_ne epsilonNonneg slackPos leftCounts loses.counts
      someFinite (.inr (loses.counts.trans_le loses.lost).ne') apart ?_ ?_
  · rw [bothRedundant_iff, sameLeft]
    exact fun both =>
      absurd loses.otherOpen (both.1 loses.otherCounts).not_gt
  · rw [slack_of_left loses.otherCounts loses.lost.not_gt, sameLeft]
    exact loses.reducible

/-- A row that has lost no side is left alone when it is tightened again. -/
theorem leavesAlone_of_not_losesSide
    (closed :
      box.ClosedForm terms left right (box.slack terms left right)
        (box.tighten terms left right))
    (epsilonNonneg : 0 ≤ box.epsilon)
    (slackNonneg : 0 ≤ box.slack terms left right)
    (keeps : ¬ box.LosesSide terms left right) :
    box.LeavesAlone (box.tighten terms left right).terms
      (box.tighten terms left right).left
      (box.tighten terms left right).right := by
  by_cases close :
      |(box.tighten terms left right).left -
        (box.tighten terms left right).right| < box.epsilon
  · exact leavesAlone_of_equation close
  by_cases both :
      box.BothRedundant (box.tighten terms left right).terms
        (box.tighten terms left right).left
        (box.tighten terms left right).right
  · exact leavesAlone_of_redundant both
  obtain ⟨keepsLeft, keepsRight⟩ :=
    not_or.mp (not_and.mp keeps (not_lt.mp close))
  have someCounts := someCounts_of_notBoth both
  have stillOpen := epsilon_lt_slack both
  refine leavesAlone_of_small fun term member reducible => ?_
  by_cases leftLost :
      -box.sentinel < left ∧
        ¬ -box.sentinel < (box.tighten terms left right).left
  · have rightCounts := someCounts.resolve_left leftLost.2
    rw [slack_of_right leftLost.2,
      closed.rightSlackKept (closed.counted_right rightCounts)]
      at stillOpen reducible
    exact
      keepsLeft
        ⟨leftLost.1, not_lt.mp leftLost.2, rightCounts, stillOpen,
          term, member, reducible⟩
  by_cases rightLost :
      right < box.sentinel ∧
        ¬ (box.tighten terms left right).right < box.sentinel
  · have leftCounts := someCounts.resolve_right rightLost.2
    rw [slack_of_left leftCounts rightLost.2,
      closed.leftSlackKept (closed.counted_left leftCounts)]
      at stillOpen reducible
    exact
      keepsRight
        ⟨rightLost.1, not_lt.mp rightLost.2, leftCounts, stillOpen,
          term, member, reducible⟩
  · -- the same sides count as before, with the slacks that they had
    rw [slack_congr (someCounts.imp closed.counted_left closed.counted_right)
      ⟨closed.counted_left, not_and_not_right.mp leftLost⟩
      ⟨closed.counted_right, not_and_not_right.mp rightLost⟩
      closed.leftSlackKept closed.rightSlackKept] at reducible
    exact
      not_reducible_reduced epsilonNonneg slackNonneg term
        (closed.reduced ▸ member) reducible

end Again

/--
A row that is no equation, has an integral term and a finite activity, and is not
redundant on both sides, over data far from the sentinel.  Tightening it comes to a
closed form: with the greatest slack of its sides that count, every integral coefficient
that exceeds this slack by more than `epsilon` is reduced to it, nothing is dropped or
moved, and the sides that count keep their slacks.  Tightening the result again leaves
it alone unless it has lost a side: one that counted before and does not any more.
-/
theorem tightened_row_is_final_iff
    {box : RowBox K}
    {terms : List (Nat × K)}
    {left right : K}
    (epsilonNonneg : 0 ≤ box.epsilon)
    (far : box.FarFromSentinel terms left right)
    (apart : box.epsilon ≤ |left - right|)
    (hasIntegral : ∃ term ∈ terms, box.isIntegral term.1 = true)
    (someFinite :
      (box.lowest terms).infinite = false ∨
        (box.highest terms).infinite = false)
    (notBoth : ¬ box.BothRedundant terms left right) :
    ∃ slack,
      IsGreatest (box.sideSlacks terms left right) slack ∧
        box.ClosedForm terms left right slack
          (box.tighten terms left right) ∧
        (box.LeavesAlone (box.tighten terms left right).terms
            (box.tighten terms left right).left
            (box.tighten terms left right).right ↔
          ¬ box.LosesSide terms left right) := by
  have closed :=
    far.closedForm epsilonNonneg apart hasIntegral someFinite notBoth
  have slackPos : 0 < box.slack terms left right :=
    epsilonNonneg.trans_lt (epsilon_lt_slack notBoth)
  refine
    ⟨box.slack terms left right,
      slack_isGreatest (someCounts_of_notBoth notBoth), closed, ?_,
      leavesAlone_of_not_losesSide closed epsilonNonneg slackPos.le⟩
  rintro alone ⟨stillApart, losesLeft | losesRight⟩
  · exact
      losesLeft.changes closed epsilonNonneg slackPos someFinite stillApart
        alone.1
  · exact
      losesRight.changes closed epsilonNonneg slackPos someFinite stillApart
        alone.1

/-- A box of a whole number between four and six, and of the number five. -/
def tallBox : RowBox ℚ :=
  {
    sentinel := 100000000000000000000
    epsilon := 1 / 1000000000
    lower := [4, 5]
    upper := [6, 5]
    integral := [true, false]
  }

/-- Terms over this box with values on both sides of zero. -/
def balancedTerms : List (Nat × ℚ) :=
  [(0, 40000000000000000000), (1, -39000000000000000000)]

/-- The left and the right side of a row with these terms. -/
def balancedSides : ℚ × ℚ :=
  (-30000000000000000000, 42000000000000000000)

/-- The row with the balanced terms and its sides, tightened. -/
def balancedRow : TightenedRow ℚ :=
  tallBox.tighten balancedTerms balancedSides.1 balancedSides.2

theorem balancedTerms_far :
    tallBox.FarFromSentinel balancedTerms balancedSides.1 balancedSides.2 where
  left := by decide +kernel
  right := by decide +kernel
  lowest := by decide +kernel
  highest := by decide +kernel

theorem balancedRow_open :
    0 ≤ tallBox.epsilon ∧
      tallBox.epsilon ≤ |balancedSides.1 - balancedSides.2| ∧
      (∃ term ∈ balancedTerms, tallBox.isIntegral term.1 = true) ∧
      (tallBox.lowest balancedTerms).infinite = false ∧
      ¬ tallBox.BothRedundant balancedTerms balancedSides.1
        balancedSides.2 := by
  unfold BothRedundant
  decide +kernel

/--
The closed form of the balanced row, whose left side is lost, and the loss is what
decides whether the row is left alone when it is tightened again.
-/
theorem balancedRow_is_final_iff :
    tallBox.FarFromSentinel balancedTerms balancedSides.1 balancedSides.2 ∧
      balancedRow.terms =
        [(0, 5000000000000000000), (1, -39000000000000000000)] ∧
      ∃ slack,
        IsGreatest
            (tallBox.sideSlacks balancedTerms balancedSides.1
              balancedSides.2) slack ∧
          tallBox.ClosedForm balancedTerms balancedSides.1 balancedSides.2
            slack balancedRow ∧
          (tallBox.LeavesAlone balancedRow.terms balancedRow.left
              balancedRow.right ↔
            ¬ tallBox.LosesSide balancedTerms balancedSides.1
              balancedSides.2) := by
  obtain ⟨epsilonNonneg, apart, hasIntegral, finite, notBoth⟩ :=
    balancedRow_open
  exact
    ⟨balancedTerms_far, by decide +kernel,
      tightened_row_is_final_iff epsilonNonneg balancedTerms_far apart
        hasIntegral (.inl finite) notBoth⟩

/-- Tightened twice, the balanced row has a smaller coefficient and another right side. -/
theorem balancedRow_is_reduced_again :
    0 ≤ tallBox.epsilon ∧
      tallBox.FarFromSentinel balancedTerms balancedSides.1 balancedSides.2 ∧
      tallBox.epsilon ≤ |balancedSides.1 - balancedSides.2| ∧
      (∃ term ∈ balancedTerms, tallBox.isIntegral term.1 = true) ∧
      (tallBox.lowest balancedTerms).infinite = false ∧
      ¬ tallBox.BothRedundant balancedTerms balancedSides.1 balancedSides.2 ∧
      balancedRow.terms =
        [(0, 5000000000000000000), (1, -39000000000000000000)] ∧
      balancedRow.left = -170000000000000000000 ∧
      balancedRow.right = -168000000000000000000 ∧
      (tallBox.tighten balancedRow.terms balancedRow.left
          balancedRow.right).terms =
        [(0, 3000000000000000000), (1, -39000000000000000000)] ∧
      (tallBox.tighten balancedRow.terms balancedRow.left
          balancedRow.right).right = -180000000000000000000 ∧
      ¬ tallBox.LeavesAlone balancedRow.terms balancedRow.left
        balancedRow.right := by
  obtain ⟨epsilonNonneg, apart, hasIntegral, finite, notBoth⟩ :=
    balancedRow_open
  refine
    ⟨epsilonNonneg, balancedTerms_far, apart, hasIntegral, finite, notBoth, ?_⟩
  unfold LeavesAlone
  decide +kernel

end RowBox

end SdpRelay
