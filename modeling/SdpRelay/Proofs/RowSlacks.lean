import Mathlib
import SdpRelay.Proofs.IntegralPoints

namespace SdpRelay

/-!
# Slacks of a row

A row is tightened against the distances of its sides from its extreme activities.  The
larger slack is the greatest of those whose sides count.  The slacks decide which way the
tightening of a row takes that is no equation: both sides are redundant, or no coefficient
reaches far enough, or the terms are visited.  The ends of the box at which an activity is
extreme depend on the signs of the coefficients only, and reducing a coefficient keeps its
sign, so the extreme activities move along with the sides.
-/

variable {K : Type} [ExactField K]

/-- A term makes an activity infinite if its bound does not stay below the sentinel. -/
theorem Activity.add_infinite_iff
    {activity : Activity K}
    {sentinel coef bound : K} :
    (activity.add sentinel coef bound).infinite = true ↔
      activity.infinite = true ∨ ¬ |bound| < sentinel := by
  rw [Activity.add]
  split
  · rename_i within
    simp [abs_lt.mpr within.symm]
  · rename_i beyond
    have notBelow : ¬ |bound| < sentinel :=
      fun below => beyond (abs_lt.mp below).symm
    simp [notBelow]

namespace RowProgress

variable
  {progress : RowProgress K}
  {box : RowBox K}
  {leftIsFinite rightIsFinite : Bool}
  {slack : K}
  {terms : List (Nat × K)}

/-- A term that does not meet both conditions is kept. -/
theorem visit_keep_of_not_fits
    {var : Nat}
    {coef : K}
    (notFits : ¬ progress.FitsBoth box |coef|) :
    progress.visit box leftIsFinite rightIsFinite var coef = .keep := by
  unfold visit
  dsimp only
  split
  · rfl
  split
  · rename_i fits
    rw [abs_of_pos fits.1] at notFits
    exact absurd fits.2 notFits
  split
  · rename_i fits
    rw [abs_of_neg fits.1] at notFits
    have fitsBoth : progress.FitsBoth box (-coef) :=
      ⟨by linarith [fits.2.1], by linarith [fits.2.2]⟩
    exact absurd fitsBoth notFits
  · rfl

/-- A term is replaced if it exceeds the larger slack and meets both conditions. -/
theorem exists_visit_eq_replace
    {term : Nat × K}
    (slackEq :
      progress.reducedPositive box.sentinel leftIsFinite rightIsFinite = slack)
    (epsilonNonneg : 0 ≤ box.epsilon)
    (slackLarge : box.epsilon < slack)
    (reducible : box.Reducible slack term)
    (fits : progress.FitsBoth box |term.2|) :
    ∃ next,
      progress.visit box leftIsFinite rightIsFinite term.1 term.2 =
        .replace next (box.reducedCoef slack term) := by
  rw [visit_reduce_of_fits slackEq epsilonNonneg slackLarge reducible fits,
    reduce, if_pos (RowBox.remains_of_reducible slackLarge reducible)]
  exact ⟨_, rfl⟩

/-- Terms that are all kept are left as they are, with everything around them. -/
theorem visitAll_of_keep
    (kept :
      ∀ term ∈ terms,
        progress.visit box leftIsFinite rightIsFinite term.1 term.2 = .keep) :
    visitAll box leftIsFinite rightIsFinite progress terms =
      (progress, terms) := by
  induction terms with
  | nil =>
      rw [visitAll]
  | cons term rest inductionHypothesis =>
      obtain ⟨headKept, restKept⟩ := List.forall_mem_cons.mp kept
      rw [visitAll, headKept]
      dsimp only
      rw [inductionHypothesis restKept]

/-- The first term that exceeds the larger slack and meets both conditions changes the row. -/
theorem visitAll_ne
    (someFinite : leftIsFinite = true ∨ rightIsFinite = true)
    (slackEq :
      progress.reducedPositive box.sentinel leftIsFinite rightIsFinite = slack)
    (epsilonNonneg : 0 ≤ box.epsilon)
    (slackLarge : box.epsilon < slack)
    (changes :
      ∃ term ∈ terms,
        box.Reducible slack term ∧ progress.FitsBoth box |term.2|) :
    (visitAll box leftIsFinite rightIsFinite progress terms).2 ≠ terms := by
  induction terms with
  | nil =>
      obtain ⟨term, member, -⟩ := changes
      cases member
  | cons term rest inductionHypothesis =>
      by_cases replaced :
          box.Reducible slack term ∧ progress.FitsBoth box |term.2|
      · obtain ⟨reducible, fits⟩ := replaced
        obtain ⟨next, visited⟩ :=
          exists_visit_eq_replace slackEq epsilonNonneg slackLarge
            reducible fits
        rw [visitAll, visited]
        intro same
        have sameCoef : box.reducedCoef slack term = term.2 :=
          congrArg Prod.snd (List.cons.inj same).1
        have magnitude :=
          RowBox.abs_reducedCoef (epsilonNonneg.trans slackLarge.le) reducible
        rw [sameCoef] at magnitude
        linarith [reducible.2]
      · have visited :
            progress.visit box leftIsFinite rightIsFinite term.1 term.2 =
              .keep := by
          by_cases reducible : box.Reducible slack term
          · exact visit_keep_of_not_fits fun fits => replaced ⟨reducible, fits⟩
          · exact visit_keep_of_slack someFinite slackEq reducible
        have inRest :
            ∃ later ∈ rest,
              box.Reducible slack later ∧ progress.FitsBoth box |later.2| := by
          obtain ⟨later, member, holds⟩ := changes
          rcases List.mem_cons.mp member with isHead | isLater
          · rw [isHead] at holds
            exact absurd holds replaced
          · exact ⟨later, isLater, holds⟩
        rw [visitAll, visited]
        intro same
        exact inductionHypothesis inRest (List.cons.inj same).2

end RowProgress

namespace RowBox

section Slacks

variable
  {box : RowBox K}
  {terms : List (Nat × K)}
  {left right : K}

/-- The distance of a left side from the lowest activity. -/
def leftSlack
    (box : RowBox K)
    (terms : List (Nat × K))
    (left : K) :
    K :=
  left - (box.lowest terms).value box.sentinel (-1)

/-- The distance of a right side from the highest activity. -/
def rightSlack
    (box : RowBox K)
    (terms : List (Nat × K))
    (right : K) :
    K :=
  (box.highest terms).value box.sentinel 1 - right

/-- The slacks of the sides that count. -/
def sideSlacks
    (box : RowBox K)
    (terms : List (Nat × K))
    (left right : K) :
    Set K :=
  {slack |
    (-box.sentinel < left ∧ slack = box.leftSlack terms left) ∨
      (right < box.sentinel ∧ slack = box.rightSlack terms right)}

theorem slack_of_both
    (leftCounts : -box.sentinel < left)
    (rightCounts : right < box.sentinel) :
    box.slack terms left right =
      max (box.leftSlack terms left) (box.rightSlack terms right) := by
  simp only [slack, RowProgress.leftFinite, RowProgress.rightFinite,
    leftCounts, rightCounts, decide_true]
  rfl

theorem slack_of_left
    (leftCounts : -box.sentinel < left)
    (rightOpen : ¬ right < box.sentinel) :
    box.slack terms left right = box.leftSlack terms left := by
  simp only [slack, RowProgress.leftFinite, RowProgress.rightFinite,
    leftCounts, rightOpen, decide_true, decide_false]
  rfl

theorem slack_of_right
    (leftOpen : ¬ -box.sentinel < left) :
    box.slack terms left right = box.rightSlack terms right := by
  simp only [slack, RowProgress.leftFinite, leftOpen, decide_false]
  rfl

/-- The larger slack is the greatest one of the sides that count. -/
theorem slack_isGreatest
    (someCounts : -box.sentinel < left ∨ right < box.sentinel) :
    IsGreatest (box.sideSlacks terms left right)
      (box.slack terms left right) := by
  by_cases leftCounts : -box.sentinel < left
  · by_cases rightCounts : right < box.sentinel
    · rw [slack_of_both leftCounts rightCounts]
      constructor
      · rcases max_choice (box.leftSlack terms left)
          (box.rightSlack terms right) with isLeft | isRight
        · exact .inl ⟨leftCounts, isLeft⟩
        · exact .inr ⟨rightCounts, isRight⟩
      · rintro other (⟨-, rfl⟩ | ⟨-, rfl⟩)
        · exact le_max_left _ _
        · exact le_max_right _ _
    · rw [slack_of_left leftCounts rightCounts]
      constructor
      · exact .inl ⟨leftCounts, rfl⟩
      · rintro other (⟨-, rfl⟩ | ⟨impossible, -⟩)
        · exact le_rfl
        · exact absurd impossible rightCounts
  · rw [slack_of_right leftCounts]
    constructor
    · exact .inr ⟨someCounts.resolve_left leftCounts, rfl⟩
    · rintro other (⟨impossible, -⟩ | ⟨-, rfl⟩)
      · exact absurd impossible leftCounts
      · exact le_rfl

/-- The larger slack depends on which sides count, and on their slacks. -/
theorem slack_congr
    {otherTerms : List (Nat × K)}
    {otherLeft otherRight : K}
    (someCounts : -box.sentinel < left ∨ right < box.sentinel)
    (leftIff : -box.sentinel < otherLeft ↔ -box.sentinel < left)
    (rightIff : otherRight < box.sentinel ↔ right < box.sentinel)
    (sameLeft :
      -box.sentinel < left →
        box.leftSlack otherTerms otherLeft = box.leftSlack terms left)
    (sameRight :
      right < box.sentinel →
        box.rightSlack otherTerms otherRight = box.rightSlack terms right) :
    box.slack otherTerms otherLeft otherRight =
      box.slack terms left right := by
  have sameSlacks :
      box.sideSlacks otherTerms otherLeft otherRight =
        box.sideSlacks terms left right := by
    ext slack
    simp only [sideSlacks, Set.mem_ofPred_eq, leftIff, rightIff]
    refine
      or_congr (and_congr_right fun counts => ?_)
        (and_congr_right fun counts => ?_)
    · rw [sameLeft counts]
    · rw [sameRight counts]
  have otherGreatest :
      IsGreatest (box.sideSlacks otherTerms otherLeft otherRight)
        (box.slack otherTerms otherLeft otherRight) :=
    slack_isGreatest (someCounts.imp leftIff.mpr rightIff.mpr)
  rw [sameSlacks] at otherGreatest
  exact otherGreatest.unique (slack_isGreatest someCounts)

/-- Sides are redundant if their slacks do not exceed `epsilon`. -/
theorem bothRedundant_iff :
    box.BothRedundant terms left right ↔
      (-box.sentinel < left → box.leftSlack terms left ≤ box.epsilon) ∧
        (right < box.sentinel → box.rightSlack terms right ≤ box.epsilon) := by
  refine and_congr (forall_congr' fun _ => ?_) (forall_congr' fun _ => ?_)
  · exact sub_le_comm
  · exact sub_le_iff_le_add'.symm

theorem leftSlack_le_slack (counts : -box.sentinel < left) :
    box.leftSlack terms left ≤ box.slack terms left right :=
  (slack_isGreatest (.inl counts)).2 (.inl ⟨counts, rfl⟩)

theorem rightSlack_le_slack (counts : right < box.sentinel) :
    box.rightSlack terms right ≤ box.slack terms left right :=
  (slack_isGreatest (.inr counts)).2 (.inr ⟨counts, rfl⟩)

/-- A side of a row that has a side which is not redundant counts. -/
theorem someCounts_of_notBoth
    (notBoth : ¬ box.BothRedundant terms left right) :
    -box.sentinel < left ∨ right < box.sentinel := by
  by_contra noneCounts
  obtain ⟨leftOpen, rightOpen⟩ := not_or.mp noneCounts
  exact
    notBoth
      ⟨fun counts => absurd counts leftOpen,
        fun counts => absurd counts rightOpen⟩

/-- The larger slack of a row with a side that is not redundant exceeds `epsilon`. -/
theorem epsilon_lt_slack
    (notBoth : ¬ box.BothRedundant terms left right) :
    box.epsilon < box.slack terms left right := by
  by_contra small
  rw [bothRedundant_iff] at notBoth
  exact
    notBoth
      ⟨fun counts => (leftSlack_le_slack counts).trans (not_lt.mp small),
        fun counts => (rightSlack_le_slack counts).trans (not_lt.mp small)⟩

end Slacks

/-- The largest magnitude is not below that of an integral coefficient, and not negative. -/
theorem le_largestIntegral
    (box : RowBox K)
    (terms : List (Nat × K)) :
    0 ≤ box.largestIntegral terms ∧
      ∀ term ∈ terms, box.isIntegral term.1 = true →
        |term.2| ≤ box.largestIntegral terms := by
  have folded
      {largest bound : K}
      (bounded :
        terms.foldl
            (fun largest term =>
              if box.isIntegral term.1 then
                Scalar.larger largest (Scalar.abs term.2)
              else
                largest)
            largest ≤ bound) :
      largest ≤ bound ∧
        ∀ term ∈ terms, box.isIntegral term.1 = true → |term.2| ≤ bound := by
    induction terms generalizing largest with
    | nil =>
        exact ⟨bounded, fun _ member => absurd member List.not_mem_nil⟩
    | cons first rest inductionHypothesis =>
        rw [List.foldl_cons] at bounded
        obtain ⟨headBounded, restBounded⟩ := inductionHypothesis bounded
        rw [List.forall_mem_cons]
        split at headBounded
        · obtain ⟨startBounded, firstBounded⟩ := max_le_iff.mp headBounded
          exact ⟨startBounded, fun _ => firstBounded, restBounded⟩
        · rename_i notIntegral
          exact
            ⟨headBounded, fun integral => absurd integral notIntegral,
              restBounded⟩
  exact folded le_rfl

/-- Tightening leaves the terms and the sides of a row as they are. -/
def LeavesAlone
    (box : RowBox K)
    (terms : List (Nat × K))
    (left right : K) :
    Prop :=
  (box.tighten terms left right).terms = terms ∧
    (box.tighten terms left right).left = left ∧
    (box.tighten terms left right).right = right

/-- What visiting all terms of a row comes to. -/
def visited
    (box : RowBox K)
    (terms : List (Nat × K))
    (left right : K) :
    RowProgress K × List (Nat × K) :=
  RowProgress.visitAll box
    (RowProgress.leftFinite box.sentinel left)
    (RowProgress.rightFinite box.sentinel right)
    (box.start terms left right) terms

/-- The larger slack is out of reach of every integral coefficient of a row. -/
def OutOfReach
    (box : RowBox K)
    (terms : List (Nat × K))
    (left right : K) :
    Prop :=
  (box.lowest terms).value box.sentinel (-1) + box.largestIntegral terms <
      left - box.epsilon ∨
    right + box.epsilon <
      (box.highest terms).value box.sentinel 1 - box.largestIntegral terms

section Tighten

variable
  {box : RowBox K}
  {terms : List (Nat × K)}
  {left right : K}

/-- An equation is left alone. -/
theorem leavesAlone_of_equation
    (close : |left - right| < box.epsilon) :
    box.LeavesAlone terms left right := by
  rw [LeavesAlone, tighten, if_pos (by exact close)]
  exact ⟨rfl, rfl, rfl⟩

/-- A row both of whose sides are redundant is left alone. -/
theorem leavesAlone_of_redundant
    (both : box.BothRedundant terms left right) :
    box.LeavesAlone terms left right := by
  rcases box.tighten_cases terms left right with alone | ⟨notBoth, -⟩
  · exact alone
  · exact absurd both notBoth

/-- A row without coefficients that exceed its larger slack is left alone. -/
theorem leavesAlone_of_small
    (small :
      ∀ term ∈ terms, ¬ box.Reducible (box.slack terms left right) term) :
    box.LeavesAlone terms left right := by
  rcases box.tighten_cases terms left right with
    alone | ⟨notBoth, visitedTerms, visitedLeft, visitedRight⟩
  · exact alone
  · have someFinite :
        RowProgress.leftFinite box.sentinel left = true ∨
          RowProgress.rightFinite box.sentinel right = true :=
      (someCounts_of_notBoth notBoth).imp decide_eq_true decide_eq_true
    have kept :=
      RowProgress.visitAll_of_keep fun term member =>
        RowProgress.visit_keep_of_slack someFinite rfl (small term member)
    rw [kept] at visitedTerms visitedLeft visitedRight
    exact ⟨visitedTerms, visitedLeft, visitedRight⟩

/--
A row that is no equation, has an integral term and a finite activity, and is not
redundant on both sides, is left alone or has its terms visited, depending on the reach
of its coefficients.
-/
theorem tighten_of_open
    (apart : box.epsilon ≤ |left - right|)
    (hasIntegral : ∃ term ∈ terms, box.isIntegral term.1 = true)
    (someFinite :
      (box.lowest terms).infinite = false ∨
        (box.highest terms).infinite = false)
    (notBoth : ¬ box.BothRedundant terms left right) :
    (box.OutOfReach terms left right ∧
        box.LeavesAlone terms left right ∧
        (box.tighten terms left right).changes = 0) ∨
      (¬ box.OutOfReach terms left right ∧
        (box.tighten terms left right).terms =
          (box.visited terms left right).2 ∧
        (box.tighten terms left right).left =
          (box.visited terms left right).1.left ∧
        (box.tighten terms left right).right =
          (box.visited terms left right).1.right ∧
        (box.tighten terms left right).changes =
          (box.visited terms left right).1.changes) := by
  rw [LeavesAlone, tighten]
  split
  · rename_i close
    exact absurd close apart.not_gt
  split
  · rename_i idle
    exfalso
    rcases Bool.or_eq_true_iff.mp idle with noneIntegral | bothInfinite
    · obtain ⟨term, member, integral⟩ := hasIntegral
      have notIntegral : (!box.isIntegral term.1) = true :=
        List.all_eq_true.mp noneIntegral term member
      rw [integral] at notIntegral
      cases notIntegral
    · obtain ⟨lowestInfinite, highestInfinite⟩ :=
        Bool.and_eq_true_iff.mp bothInfinite
      rcases someFinite with lowestFinite | highestFinite
      · cases lowestInfinite.symm.trans lowestFinite
      · cases highestInfinite.symm.trans highestFinite
  split
  · rename_i flags
    obtain ⟨leftFlag, rightFlag⟩ := Bool.and_eq_true_iff.mp flags
    refine absurd ⟨fun counts => ?_, fun counts => ?_⟩ notBoth
    · rw [RowProgress.leftFinite, decide_eq_true counts] at leftFlag
      exact of_decide_eq_true leftFlag
    · rw [RowProgress.rightFinite, decide_eq_true counts] at rightFlag
      exact of_decide_eq_true rightFlag
  split
  · rename_i outOfReach
    exact .inl ⟨outOfReach, ⟨rfl, rfl, rfl⟩, rfl⟩
  · rename_i withinReach
    exact .inr ⟨withinReach, rfl, rfl, rfl, rfl⟩

/-- A row with a coefficient that exceeds its larger slack and reaches both slacks is changed. -/
theorem tighten_terms_ne
    (epsilonNonneg : 0 ≤ box.epsilon)
    (apart : box.epsilon ≤ |left - right|)
    (someFinite :
      (box.lowest terms).infinite = false ∨
        (box.highest terms).infinite = false)
    (notBoth : ¬ box.BothRedundant terms left right)
    (reaches :
      ∃ term ∈ terms,
        box.Reducible (box.slack terms left right) term ∧
          box.leftSlack terms left - box.epsilon ≤ |term.2| ∧
          box.rightSlack terms right - box.epsilon ≤ |term.2|) :
    (box.tighten terms left right).terms ≠ terms := by
  obtain ⟨term, member, reducible, leftReached, rightReached⟩ := reaches
  rw [leftSlack] at leftReached
  rw [rightSlack] at rightReached
  rcases tighten_of_open apart ⟨term, member, reducible.1⟩ someFinite notBoth
    with ⟨outOfReach, -⟩ | ⟨-, isVisited, -⟩
  · have small := (box.le_largestIntegral terms).2 term member reducible.1
    rcases outOfReach with leftOut | rightOut
    · linarith
    · linarith
  · have fits : (box.start terms left right).FitsBoth box |term.2| := by
      constructor
      · change left - box.epsilon ≤
          (box.lowest terms).value box.sentinel (-1) + |term.2|
        linarith
      · change (box.highest terms).value box.sentinel 1 - |term.2| ≤
          right + box.epsilon
        linarith
    have someSide :
        RowProgress.leftFinite box.sentinel left = true ∨
          RowProgress.rightFinite box.sentinel right = true :=
      (someCounts_of_notBoth notBoth).imp decide_eq_true decide_eq_true
    rw [isVisited]
    exact
      RowProgress.visitAll_ne someSide rfl epsilonNonneg
        (epsilon_lt_slack notBoth) ⟨term, member, reducible, fits⟩

end Tighten

section Extremes

variable
  {box : RowBox K}
  {terms : List (Nat × K)}
  {slack : K}
  {ends : Nat × K → K}

/-- The activity of a row whose terms are taken at ends of the box. -/
def extreme
    (box : RowBox K)
    (ends : Nat × K → K)
    (terms : List (Nat × K)) :
    Activity K :=
  terms.foldl
    (fun sum term => sum.add box.sentinel term.2 (ends term))
    Activity.zero

/-- An activity is infinite if one of the ends is. -/
theorem extreme_infinite_iff :
    (box.extreme ends terms).infinite = true ↔
      ∃ term ∈ terms, ¬ |ends term| < box.sentinel := by
  have folded
      (activity : Activity K) :
      (terms.foldl
          (fun sum term => sum.add box.sentinel term.2 (ends term))
          activity).infinite = true ↔
        activity.infinite = true ∨
          ∃ term ∈ terms, ¬ |ends term| < box.sentinel := by
    induction terms generalizing activity with
    | nil =>
        simp
    | cons first rest inductionHypothesis =>
        rw [List.foldl_cons, inductionHypothesis, List.exists_mem_cons_iff,
          Activity.add_infinite_iff, or_assoc]
  rw [extreme, folded]
  simp [Activity.zero]

/-- Reduced coefficients keep their signs. -/
theorem reducedCoef_pos_iff
    {term : Nat × K}
    (slackPos : 0 < slack) :
    0 < box.reducedCoef slack term ↔ 0 < term.2 := by
  rw [reducedCoef]
  split
  · split
    · rename_i positive
      exact ⟨fun _ => positive, fun _ => slackPos⟩
    · rename_i notPositive
      refine ⟨fun impossible => ?_, fun impossible => absurd impossible notPositive⟩
      linarith
  · exact Iff.rfl

/-- Reduced terms have their extremes at the same ends of the box. -/
theorem ends_reducedTerm
    (slackPos : 0 < slack)
    (term : Nat × K) :
    box.lowEnd (box.reducedTerm slack term) = box.lowEnd term ∧
      box.highEnd (box.reducedTerm slack term) = box.highEnd term := by
  simp only [lowEnd, highEnd, reducedTerm, reducedCoef_pos_iff slackPos,
    and_self]

/-- The value of reduced terms at the ends of the box moves along with the sides. -/
theorem endsValue_reduced
    (sameEnds : ∀ term, ends (box.reducedTerm slack term) = ends term) :
    endsValue ends (terms.map (box.reducedTerm slack)) =
      endsValue ends terms + box.sideShift slack ends terms := by
  induction terms with
  | nil =>
      simp
  | cons term rest inductionHypothesis =>
      rw [List.map_cons, endsValue_cons, endsValue_cons, sideShift_cons,
        sameEnds, inductionHypothesis, reducedTerm]
      ring

/-- Reduced terms make an activity infinite if the terms before do. -/
theorem extreme_infinite_reduced
    (sameEnds : ∀ term, ends (box.reducedTerm slack term) = ends term) :
    (box.extreme ends (terms.map (box.reducedTerm slack))).infinite =
      (box.extreme ends terms).infinite := by
  rw [Bool.eq_iff_iff, extreme_infinite_iff, extreme_infinite_iff]
  constructor
  · rintro ⟨reduced, member, beyond⟩
    obtain ⟨term, isTerm, rfl⟩ := List.mem_map.mp member
    rw [sameEnds] at beyond
    exact ⟨term, isTerm, beyond⟩
  · rintro ⟨term, isTerm, beyond⟩
    rw [← sameEnds] at beyond
    exact ⟨_, List.mem_map_of_mem isTerm, beyond⟩

/--
The extreme activity of reduced terms moves along with the sides, unless it is infinite
and some term is reduced.
-/
theorem extreme_reduced
    (sameEnds : ∀ term, ends (box.reducedTerm slack term) = ends term)
    (noneNextToInfinite :
      (box.extreme ends terms).infinite = true →
        ∀ term ∈ terms, ¬ box.Reducible slack term)
    (sign : K) :
    (box.extreme ends (terms.map (box.reducedTerm slack))).value
        box.sentinel sign =
      (box.extreme ends terms).value box.sentinel sign +
        box.sideShift slack ends terms := by
  cases infinite : (box.extreme ends terms).infinite with
  | true =>
      obtain ⟨sameTerms, noShift⟩ :=
        reduced_eq_self (noneNextToInfinite infinite) ends
      rw [sameTerms, noShift, add_zero]
  | false =>
      have reducedFinite :
          (box.extreme ends
            (terms.map (box.reducedTerm slack))).infinite = false :=
        (extreme_infinite_reduced sameEnds).trans infinite
      have value
          {others : List (Nat × K)}
          (finite : (box.extreme ends others).infinite = false) :
          (box.extreme ends others).value box.sentinel sign =
            endsValue ends others := by
        have total := (foldl_add_spec ends Activity.zero finite).2.2
        rw [show (Activity.zero : Activity K).sum.value = 0 from
          DoubleWord.value_zero, zero_add] at total
        rw [Activity.value, if_neg (by rw [finite]; exact Bool.false_ne_true)]
        exact total
      rw [value infinite, value reducedFinite, endsValue_reduced sameEnds]

end Extremes

end RowBox

end SdpRelay
