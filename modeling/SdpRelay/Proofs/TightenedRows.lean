import SdpRelay.Proofs.IntegralPoints

namespace SdpRelay

/-!
# What tightening keeps of a row

A side of a row counts as long as it stays below the sentinel.  Tightening moves the
sides together with the terms, so that a side that counts and its moved value hold at
the same integral points of the box.  The moved value is not compared with the
sentinel again: a side that has moved there does not count any more, and the row may
then hold at integral points that the row before did not hold at.
-/

variable {K : Type} [ExactField K]

/-- The sides of a row that are smaller than the sentinel hold for a value. -/
def SidesHold
    (sentinel left right value : K) :
    Prop :=
  (|left| < sentinel → left ≤ value) ∧
    (|right| < sentinel → value ≤ right)

namespace RowBox

/-- The finite bounds of the integral variables of a row are whole numbers. -/
def WholeBounds
    (box : RowBox K)
    (terms : List (Nat × K)) :
    Prop :=
  ∀ term ∈ terms, box.isIntegral term.1 = true →
    (|box.lowerAt term.1| < box.sentinel → IsWhole (box.lowerAt term.1)) ∧
      (|box.upperAt term.1| < box.sentinel → IsWhole (box.upperAt term.1))

variable
  {box : RowBox K}
  {terms : List (Nat × K)}
  {left right : K}
  {point : Nat → K}

/-- Whole bounds are whole ends, on whichever side of the box they are. -/
theorem WholeBounds.wholeEnds
    (whole : box.WholeBounds terms)
    (slack : K) :
    box.WholeEnds slack box.lowEnd terms ∧
      box.WholeEnds slack box.highEnd terms := by
  have chosen
      (term : Nat × K)
      (member : term ∈ terms)
      (reducible : box.Reducible slack term) :=
    whole term member reducible.1
  constructor
  · intro term member reducible finite
    unfold lowEnd at finite ⊢
    by_cases positive : 0 < term.2
    · rw [if_pos positive] at finite ⊢
      exact (chosen term member reducible).1 finite
    · rw [if_neg positive] at finite ⊢
      exact (chosen term member reducible).2 finite
  · intro term member reducible finite
    unfold highEnd at finite ⊢
    by_cases positive : 0 < term.2
    · rw [if_pos positive] at finite ⊢
      exact (chosen term member reducible).2 finite
    · rw [if_neg positive] at finite ⊢
      exact (chosen term member reducible).1 finite

/-- A row without terms keeps its sides. -/
theorem tighten_nil
    (box : RowBox K)
    (left right : K) :
    (box.tighten [] left right).left = left ∧
      (box.tighten [] left right).right = right := by
  rcases box.tighten_cases [] left right with
    ⟨_, sameLeft, sameRight⟩ | ⟨_, _, visitedLeft, visitedRight⟩
  · exact ⟨sameLeft, sameRight⟩
  · rw [RowProgress.visitAll] at visitedLeft visitedRight
    exact ⟨visitedLeft, visitedRight⟩

/-- What becomes of the sides of a row, read at a point. -/
structure KeepsSides
    (box : RowBox K)
    (terms : List (Nat × K))
    (left right : K)
    (point : Nat → K) : Prop where
  leftOpen :
    ¬ |left| < box.sentinel → (box.tighten terms left right).left = left
  rightOpen :
    ¬ |right| < box.sentinel → (box.tighten terms left right).right = right
  leftKept :
    |left| < box.sentinel →
      ((box.tighten terms left right).left ≤
          termsValue (box.tighten terms left right).terms point ↔
        left ≤ termsValue terms point)
  rightKept :
    |right| < box.sentinel →
      (termsValue (box.tighten terms left right).terms point ≤
          (box.tighten terms left right).right ↔
        termsValue terms point ≤ right)

namespace FarFromSentinel

/-- Sides of rows with terms are far from the sentinel, or beyond it on their own side. -/
theorem abs_sides_lt
    {term : Nat × K}
    (far : box.FarFromSentinel terms left right)
    (epsilonNonneg : 0 ≤ box.epsilon)
    (member : term ∈ terms) :
    (-box.sentinel < left → |left| < box.sentinel) ∧
      (right < box.sentinel → |right| < box.sentinel) := by
  have nonneg := abs_nonneg term.2
  constructor
  · intro isFinite
    linarith [far.left isFinite term member]
  · intro isFinite
    linarith [far.right isFinite term member]

/-- A side that does not count is left where it is. -/
theorem open_sides
    (far : box.FarFromSentinel terms left right)
    (epsilonNonneg : 0 ≤ box.epsilon) :
    (¬ |left| < box.sentinel → (box.tighten terms left right).left = left) ∧
      (¬ |right| < box.sentinel →
        (box.tighten terms left right).right = right) := by
  have moved := tighten_movedSides epsilonNonneg far fun _ => 0
  cases terms with
  | nil =>
      obtain ⟨sameLeft, sameRight⟩ := box.tighten_nil left right
      exact ⟨fun _ => sameLeft, fun _ => sameRight⟩
  | cons term rest =>
      obtain ⟨leftFar, rightFar⟩ :=
        far.abs_sides_lt epsilonNonneg List.mem_cons_self
      exact
        ⟨fun notFinite => moved.leftOpen (mt leftFar notFinite),
          fun notFinite => moved.rightOpen (mt rightFar notFinite)⟩

/-- Tightening keeps what each side says about the integral points of the box. -/
theorem keepsSides
    (far : box.FarFromSentinel terms left right)
    (epsilonNonneg : 0 ≤ box.epsilon)
    (whole : box.WholeBounds terms)
    (admits : box.Admits terms point)
    (integral : box.IntegralAt terms point) :
    box.KeepsSides terms left right point := by
  obtain ⟨leftOpen, rightOpen⟩ := far.open_sides epsilonNonneg
  rcases box.tighten_cases terms left right with
    ⟨sameTerms, sameLeft, sameRight⟩ |
      ⟨notBoth, visitedTerms, visitedLeft, visitedRight⟩
  · refine ⟨leftOpen, rightOpen, ?_, ?_⟩
    · intro _
      rw [sameTerms, sameLeft]
    · intro _
      rw [sameTerms, sameRight]
  · have finished := far.finished epsilonNonneg notBoth
    obtain ⟨lowWhole, highWhole⟩ :=
      whole.wholeEnds (box.slack terms left right)
    rw [finished.keptEq] at visitedTerms
    refine ⟨leftOpen, rightOpen, ?_, ?_⟩
    · intro isFinite
      have flag : RowProgress.leftFinite box.sentinel left = true :=
        decide_eq_true (abs_lt.mp isFinite).1
      rw [finished.left, if_pos flag] at visitedLeft
      rw [visitedTerms, visitedLeft]
      exact far.left_iff epsilonNonneg notBoth lowWhole admits integral flag
    · intro isFinite
      have flag : RowProgress.rightFinite box.sentinel right = true :=
        decide_eq_true (abs_lt.mp isFinite).2
      rw [finished.right, if_pos flag] at visitedRight
      rw [visitedTerms, visitedRight]
      exact far.right_iff epsilonNonneg notBoth highWhole admits integral flag

end FarFromSentinel

/-- The value of a row at a point of the box lies between its finite extreme activities. -/
theorem Admits.between_activities
    (admits : box.Admits terms point) :
    ((box.lowest terms).infinite = false →
        (box.lowest terms).sum.value ≤ termsValue terms point) ∧
      ((box.highest terms).infinite = false →
        termsValue terms point ≤ (box.highest terms).sum.value) := by
  constructor
  · intro finite
    obtain ⟨endsFinite, isSum⟩ := lowest_spec finite
    rw [isSum, termsValue_eq_gapSum box.lowEnd]
    refine le_add_of_nonneg_right (List.sum_nonneg ?_)
    intro value isValue
    obtain ⟨term, member, rfl⟩ := List.mem_map.mp isValue
    exact admits.lowEnd_nonneg member (endsFinite term member)
  · intro finite
    obtain ⟨endsFinite, isSum⟩ := highest_spec finite
    rw [isSum, termsValue_eq_gapSum box.highEnd]
    have gaps :
        0 ≤ gapSum Prod.snd
          (fun term => -(point term.1 - box.highEnd term)) terms := by
      refine List.sum_nonneg ?_
      intro value isValue
      obtain ⟨term, member, rfl⟩ := List.mem_map.mp isValue
      exact admits.highEnd_nonneg member (endsFinite term member)
    rw [gapSum_neg] at gaps
    linarith

/-- A row with a redundant side has a term, and the side is missing or next to its activity. -/
theorem redundant_of_flags
    (box : RowBox K)
    (terms : List (Nat × K))
    (left right : K) :
    ((box.tighten terms left right).leftRedundant = true →
        terms ≠ [] ∧
          (-box.sentinel < left →
            left - box.epsilon ≤
              (box.start terms left right).lowestValue box.sentinel)) ∧
      ((box.tighten terms left right).rightRedundant = true →
        terms ≠ [] ∧
          (right < box.sentinel →
            (box.start terms left right).highestValue box.sentinel ≤
              right + box.epsilon)) := by
  have noFlag {claim : Prop} (flag : false = true) : claim :=
    (Bool.false_ne_true flag).elim
  have leftOf
      (flag :
        (!RowProgress.leftFinite box.sentinel left ||
          decide (left - box.epsilon ≤
            (box.start terms left right).lowestValue box.sentinel)) = true)
      (isFinite : -box.sentinel < left) :
      left - box.epsilon ≤
        (box.start terms left right).lowestValue box.sentinel := by
    rw [RowProgress.leftFinite, decide_eq_true isFinite] at flag
    exact of_decide_eq_true flag
  have rightOf
      (flag :
        (!RowProgress.rightFinite box.sentinel right ||
          decide ((box.start terms left right).highestValue box.sentinel ≤
            right + box.epsilon)) = true)
      (isFinite : right < box.sentinel) :
      (box.start terms left right).highestValue box.sentinel ≤
        right + box.epsilon := by
    rw [RowProgress.rightFinite, decide_eq_true isFinite] at flag
    exact of_decide_eq_true flag
  rw [tighten]
  split
  · exact ⟨noFlag, noFlag⟩
  split
  · exact ⟨noFlag, noFlag⟩
  rename_i hasIntegral
  have nonempty : terms ≠ [] := by
    rintro rfl
    exact hasIntegral rfl
  split
  · exact
      ⟨fun flag => ⟨nonempty, leftOf flag⟩,
        fun flag => ⟨nonempty, rightOf flag⟩⟩
  split
  · exact
      ⟨fun flag => ⟨nonempty, leftOf flag⟩,
        fun flag => ⟨nonempty, rightOf flag⟩⟩
  · exact
      ⟨fun flag => ⟨nonempty, leftOf flag⟩,
        fun flag => ⟨nonempty, rightOf flag⟩⟩

/-- A redundant side that counts holds up to `epsilon` everywhere in the box. -/
theorem FarFromSentinel.redundant_sides_hold
    (far : box.FarFromSentinel terms left right)
    (admits : box.Admits terms point) :
    ((box.tighten terms left right).leftRedundant = true →
        |left| < box.sentinel →
          left - box.epsilon ≤ termsValue terms point) ∧
      ((box.tighten terms left right).rightRedundant = true →
        |right| < box.sentinel →
          termsValue terms point ≤ right + box.epsilon) := by
  obtain ⟨leftNext, rightNext⟩ := box.redundant_of_flags terms left right
  obtain ⟨above, below⟩ := admits.between_activities
  constructor
  · intro flag isFinite
    obtain ⟨nonempty, next⟩ := leftNext flag
    have beyond : -box.sentinel < left := (abs_lt.mp isFinite).1
    have near := next beyond
    cases infinite : (box.lowest terms).infinite with
    | false =>
        rw [RowProgress.lowestValue, Activity.value, start, infinite] at near
        exact near.trans (above infinite)
    | true =>
        -- a side far from the sentinel is not next to an infinite activity
        obtain ⟨term, member⟩ := List.exists_mem_of_ne_nil terms nonempty
        rw [RowProgress.lowestValue, Activity.value, start, infinite] at near
        change left - box.epsilon ≤ -1 * box.sentinel at near
        linarith [far.left beyond term member, neg_abs_le left,
          abs_nonneg term.2]
  · intro flag isFinite
    obtain ⟨nonempty, next⟩ := rightNext flag
    have beyond : right < box.sentinel := (abs_lt.mp isFinite).2
    have near := next beyond
    cases infinite : (box.highest terms).infinite with
    | false =>
        rw [RowProgress.highestValue, Activity.value, start, infinite] at near
        exact (below infinite).trans near
    | true =>
        obtain ⟨term, member⟩ := List.exists_mem_of_ne_nil terms nonempty
        rw [RowProgress.highestValue, Activity.value, start, infinite] at near
        change 1 * box.sentinel ≤ right + box.epsilon at near
        linarith [far.right beyond term member, le_abs_self right,
          abs_nonneg term.2]

/--
A tightened row and the row before it, over a box with whole finite bounds for the
integral variables.  The sides that count before hold, in their moved form, at the
same integral points of the box.  Read with the sentinel, the tightened row holds at
such a point exactly if every side holds that counts before and still counts after
it has moved.  A row both of whose sides are redundant holds up to `epsilon`
everywhere in the box.
-/
theorem tightened_row_holds_iff
    (epsilonNonneg : 0 ≤ box.epsilon)
    (far : box.FarFromSentinel terms left right)
    (whole : box.WholeBounds terms) :
    (∀ point, box.Admits terms point → box.IntegralAt terms point →
      (((|left| < box.sentinel →
            (box.tighten terms left right).left ≤
              termsValue (box.tighten terms left right).terms point) ∧
          (|right| < box.sentinel →
            termsValue (box.tighten terms left right).terms point ≤
              (box.tighten terms left right).right)) ↔
        SidesHold box.sentinel left right (termsValue terms point)) ∧
      (SidesHold box.sentinel (box.tighten terms left right).left
          (box.tighten terms left right).right
          (termsValue (box.tighten terms left right).terms point) ↔
        (|left| < box.sentinel →
            |(box.tighten terms left right).left| < box.sentinel →
              left ≤ termsValue terms point) ∧
          (|right| < box.sentinel →
            |(box.tighten terms left right).right| < box.sentinel →
              termsValue terms point ≤ right))) ∧
      ((box.tighten terms left right).leftRedundant = true →
        (box.tighten terms left right).rightRedundant = true →
        ∀ point, box.Admits terms point →
          (|left| < box.sentinel →
              left - box.epsilon ≤ termsValue terms point) ∧
            (|right| < box.sentinel →
              termsValue terms point ≤ right + box.epsilon)) := by
  constructor
  · intro point admits integral
    have kept := far.keepsSides epsilonNonneg whole admits integral
    constructor
    · exact
        and_congr (forall_congr' kept.leftKept) (forall_congr' kept.rightKept)
    · -- a side that does not count is not moved, and does not count afterwards
      have leftCounts
          (counts :
            |(box.tighten terms left right).left| < box.sentinel) :
          |left| < box.sentinel := by
        by_contra notFinite
        rw [kept.leftOpen notFinite] at counts
        exact notFinite counts
      have rightCounts
          (counts :
            |(box.tighten terms left right).right| < box.sentinel) :
          |right| < box.sentinel := by
        by_contra notFinite
        rw [kept.rightOpen notFinite] at counts
        exact notFinite counts
      constructor
      · rintro ⟨leftHolds, rightHolds⟩
        exact
          ⟨fun isFinite counts =>
              (kept.leftKept isFinite).mp (leftHolds counts),
            fun isFinite counts =>
              (kept.rightKept isFinite).mp (rightHolds counts)⟩
      · rintro ⟨leftHolds, rightHolds⟩
        exact
          ⟨fun counts =>
              (kept.leftKept (leftCounts counts)).mpr
                (leftHolds (leftCounts counts) counts),
            fun counts =>
              (kept.rightKept (rightCounts counts)).mpr
                (rightHolds (rightCounts counts) counts)⟩
  · intro leftFlag rightFlag point admits
    obtain ⟨leftHolds, rightHolds⟩ := far.redundant_sides_hold admits
    exact ⟨leftHolds leftFlag, rightHolds rightFlag⟩

/-- A box of a whole number between three and four, and of the number five. -/
def narrowBox : RowBox ℚ :=
  {
    sentinel := 100000000000000000000
    epsilon := 1 / 1000000000
    lower := [3, 5]
    upper := [4, 5]
    integral := [true, false]
  }

/-- Terms over this box, the first with a coefficient much larger than its slack. -/
def steepTerms : List (Nat × ℚ) :=
  [(0, 50000000000000000000), (1, -29000000000000000000)]

/-- The left side of the row with the steep terms. -/
def steepLeft : ℚ :=
  10000000000000000000

/-- The row with the steep terms and no right side, tightened. -/
def steepRow : TightenedRow ℚ :=
  narrowBox.tighten steepTerms steepLeft narrowBox.sentinel

/-- The lower corner of the box. -/
def lowerCorner : Nat → ℚ :=
  narrowBox.lowerAt

theorem steepTerms_far :
    narrowBox.FarFromSentinel steepTerms steepLeft narrowBox.sentinel where
  left := by decide +kernel
  right := by decide +kernel
  lowest := by decide +kernel
  highest := by decide +kernel

theorem narrowBox_wholeBounds :
    narrowBox.WholeBounds steepTerms := by
  simp only [WholeBounds, steepTerms, List.forall_mem_cons, List.not_mem_nil,
    IsEmpty.forall_iff, implies_true, and_true]
  exact
    ⟨fun _ =>
        ⟨fun _ => ⟨3, by decide +kernel⟩, fun _ => ⟨4, by decide +kernel⟩⟩,
      fun isIntegral => nomatch isIntegral⟩

/-- The lower corner is a point of the box, with a whole first number. -/
theorem lowerCorner_admitted :
    narrowBox.Admits steepTerms lowerCorner ∧
      narrowBox.IntegralAt steepTerms lowerCorner := by
  constructor
  · unfold Admits
    decide +kernel
  · simp only [IntegralAt, steepTerms, List.forall_mem_cons, List.not_mem_nil,
      IsEmpty.forall_iff, implies_true, and_true]
    exact
      ⟨fun _ => ⟨3, by decide +kernel⟩, fun isIntegral => nomatch isIntegral⟩

/-- What holds at the lower corner, on the steep row before and after tightening. -/
theorem steepRow_holds_iff :
    0 ≤ narrowBox.epsilon ∧
      (SidesHold narrowBox.sentinel steepRow.left steepRow.right
          (termsValue steepRow.terms lowerCorner) ↔
        (|steepLeft| < narrowBox.sentinel →
            |steepRow.left| < narrowBox.sentinel →
              steepLeft ≤ termsValue steepTerms lowerCorner) ∧
          (|narrowBox.sentinel| < narrowBox.sentinel →
            |steepRow.right| < narrowBox.sentinel →
              termsValue steepTerms lowerCorner ≤ narrowBox.sentinel)) := by
  have epsilonNonneg : 0 ≤ narrowBox.epsilon := by decide +kernel
  obtain ⟨admits, integral⟩ := lowerCorner_admitted
  have holds :=
    tightened_row_holds_iff epsilonNonneg steepTerms_far narrowBox_wholeBounds
  exact ⟨epsilonNonneg, (holds.1 lowerCorner admits integral).2⟩

/--
The left side of the steep row moves beyond the sentinel: the lower corner, which is
below the left side, is on the tightened row.
-/
theorem steepRow_gains_lowerCorner :
    0 ≤ narrowBox.epsilon ∧
      narrowBox.FarFromSentinel steepTerms steepLeft narrowBox.sentinel ∧
      narrowBox.WholeBounds steepTerms ∧
      narrowBox.Admits steepTerms lowerCorner ∧
      narrowBox.IntegralAt steepTerms lowerCorner ∧
      steepRow.left = -125000000000000000000 ∧
      SidesHold narrowBox.sentinel steepRow.left steepRow.right
        (termsValue steepRow.terms lowerCorner) ∧
      ¬ SidesHold narrowBox.sentinel steepLeft narrowBox.sentinel
        (termsValue steepTerms lowerCorner) := by
  obtain ⟨admits, integral⟩ := lowerCorner_admitted
  refine
    ⟨by decide +kernel, steepTerms_far, narrowBox_wholeBounds, admits, integral,
      by decide +kernel, ?_, ?_⟩
  · rw [SidesHold]
    decide +kernel
  · rw [SidesHold]
    decide +kernel

end RowBox

end SdpRelay
