import Mathlib
import SdpRelay.Proofs.CoefficientTightening

namespace SdpRelay

/-!
# Tightened rows and integral points

A tightened row and the row that it comes from hold at the same integral points
of the box, if the finite bounds of the reduced variables are whole numbers.  Both
sides of a row are measured from the end of the box next to them: the gap of a
term is the distance of its variable from that end.  A reduced term whose gap is
zero counts for nothing in either row, and one whose gap is at least one already
makes up for the whole slack.
-/

variable {K : Type} [ExactField K]

/-- A number is the image of an integer. -/
def IsWhole (x : K) : Prop :=
  ∃ whole : ℤ, (whole : K) = x

/-- Distinct whole numbers are at least one apart. -/
theorem IsWhole.sub_eq_zero_or_one_le
    {first second : K}
    (firstWhole : IsWhole first)
    (secondWhole : IsWhole second) :
    first - second = 0 ∨ 1 ≤ |first - second| := by
  obtain ⟨a, rfl⟩ := firstWhole
  obtain ⟨b, rfl⟩ := secondWhole
  by_cases same : a = b
  · exact .inl (by rw [same, sub_self])
  · refine .inr ?_
    have apart : 1 ≤ |a - b| := Int.one_le_abs (sub_ne_zero.mpr same)
    calc (1 : K) = ((1 : ℤ) : K) := by rw [Int.cast_one]
      _ ≤ ((|a - b| : ℤ) : K) := Int.cast_le.mpr apart
      _ = |(a : K) - b| := by rw [Int.cast_abs, Int.cast_sub]

namespace RowBox

/--
The sum of terms, each taken at the gap between its variable and an end of the
box.
-/
def gapSum
    (coef : Nat × K → K)
    (gap : Nat × K → K)
    (terms : List (Nat × K)) :
    K :=
  (terms.map fun term => coef term * gap term).sum

@[simp] theorem gapSum_nil (coef gap : Nat × K → K) :
    gapSum coef gap [] = 0 :=
  rfl

@[simp] theorem gapSum_cons
    (coef gap : Nat × K → K)
    (term : Nat × K)
    (rest : List (Nat × K)) :
    gapSum coef gap (term :: rest) =
      coef term * gap term + gapSum coef gap rest := by
  simp [gapSum]

section Gaps

variable
  {box : RowBox K}
  {slack : K}
  {gap : Nat × K → K}

/-- A reduced term has at most its old value, and never a negative one. -/
theorem reducedCoef_mul_le
    {term : Nat × K}
    (epsilonNonneg : 0 ≤ box.epsilon)
    (slackNonneg : 0 ≤ slack)
    (nonneg : 0 ≤ term.2 * gap term) :
    0 ≤ box.reducedCoef slack term * gap term ∧
      box.reducedCoef slack term * gap term ≤ term.2 * gap term := by
  by_cases reducible : box.Reducible slack term
  · have large := reducible.2
    by_cases positive : 0 < term.2
    · have gapNonneg : 0 ≤ gap term :=
        nonneg_of_mul_nonneg_right nonneg positive
      rw [abs_of_pos positive] at large
      rw [reducedCoef, if_pos reducible, if_pos positive]
      exact
        ⟨mul_nonneg slackNonneg gapNonneg,
          mul_le_mul_of_nonneg_right (by linarith) gapNonneg⟩
    · have negative : term.2 < 0 := by
        rcases lt_or_eq_of_le (not_lt.mp positive) with negative | zero
        · exact negative
        · rw [zero, abs_zero] at large
          linarith
      have gapNonpos : gap term ≤ 0 :=
        nonpos_of_mul_nonneg_right nonneg negative
      rw [abs_of_neg negative] at large
      rw [reducedCoef, if_pos reducible, if_neg positive]
      exact
        ⟨mul_nonneg_of_nonpos_of_nonpos (by linarith) gapNonpos,
          mul_le_mul_of_nonpos_right (by linarith) gapNonpos⟩
  · rw [reducedCoef, if_neg reducible]
    exact ⟨nonneg, le_rfl⟩

/-- A reduced coefficient has the magnitude of the slack. -/
theorem abs_reducedCoef
    {term : Nat × K}
    (slackNonneg : 0 ≤ slack)
    (reducible : box.Reducible slack term) :
    |box.reducedCoef slack term| = slack := by
  rw [reducedCoef, if_pos reducible]
  split
  · exact abs_of_nonneg slackNonneg
  · rw [abs_neg, abs_of_nonneg slackNonneg]

/-- A reduced term at a gap of at least one is worth the whole slack. -/
theorem slack_le_reducedCoef_mul
    {term : Nat × K}
    (slackNonneg : 0 ≤ slack)
    (reducible : box.Reducible slack term)
    (nonneg : 0 ≤ box.reducedCoef slack term * gap term)
    (apart : 1 ≤ |gap term|) :
    slack ≤ box.reducedCoef slack term * gap term := by
  have magnitude := abs_reducedCoef slackNonneg reducible
  calc slack ≤ slack * |gap term| := le_mul_of_one_le_right slackNonneg apart
    _ = |box.reducedCoef slack term * gap term| := by rw [abs_mul, magnitude]
    _ = box.reducedCoef slack term * gap term := abs_of_nonneg nonneg

/--
What is at most the slack is reached by the reduced terms if the old ones reach
it.
-/
theorem le_gapSum_reduced_iff
    {target : K}
    {terms : List (Nat × K)}
    (gap : Nat × K → K)
    (epsilonNonneg : 0 ≤ box.epsilon)
    (slackNonneg : 0 ≤ slack)
    (targetSmall : target ≤ slack)
    (nonneg : ∀ term ∈ terms, 0 ≤ term.2 * gap term)
    (apart :
      ∀ term ∈ terms, box.Reducible slack term →
        gap term = 0 ∨ 1 ≤ |gap term|) :
    target ≤ gapSum (box.reducedCoef slack) gap terms ↔
      target ≤ gapSum Prod.snd gap terms := by
  constructor
  · intro reached
    refine reached.trans (List.sum_le_sum ?_)
    intro term member
    exact
      (reducedCoef_mul_le epsilonNonneg slackNonneg (nonneg term member)).2
  · intro reached
    by_cases far :
        ∃ term ∈ terms, box.Reducible slack term ∧ 1 ≤ |gap term|
    · obtain ⟨term, member, reducible, gapLarge⟩ := far
      have termsNonneg :
          ∀ value ∈ terms.map fun term =>
            box.reducedCoef slack term * gap term, 0 ≤ value := by
        intro value isValue
        obtain ⟨other, otherMember, rfl⟩ := List.mem_map.mp isValue
        exact
          (reducedCoef_mul_le epsilonNonneg slackNonneg
            (nonneg other otherMember)).1
      have single :
          box.reducedCoef slack term * gap term ≤
            gapSum (box.reducedCoef slack) gap terms :=
        List.single_le_sum termsNonneg _
          (List.mem_map.mpr ⟨term, member, rfl⟩)
      have wholeSlack :=
        slack_le_reducedCoef_mul slackNonneg reducible
          (reducedCoef_mul_le epsilonNonneg slackNonneg
            (nonneg term member)).1 gapLarge
      exact (targetSmall.trans wholeSlack).trans single
    · have same :
          gapSum (box.reducedCoef slack) gap terms =
            gapSum Prod.snd gap terms := by
        unfold gapSum
        congr 1
        apply List.map_congr_left
        intro term member
        by_cases reducible : box.Reducible slack term
        · rcases apart term member reducible with zero | large
          · rw [zero, mul_zero, mul_zero]
          · exact absurd ⟨term, member, reducible, large⟩ far
        · rw [reducedCoef, if_neg reducible]
      rw [same]
      exact reached

end Gaps

theorem gapSum_neg
    (coef gap : Nat × K → K)
    (terms : List (Nat × K)) :
    gapSum coef (fun term => -gap term) terms = -gapSum coef gap terms := by
  induction terms with
  | nil =>
      simp
  | cons term rest inductionHypothesis =>
      rw [gapSum_cons, gapSum_cons, inductionHypothesis]
      ring

/-- The value of terms is their value at the ends of the box and what the gaps add. -/
theorem termsValue_eq_gapSum
    (ends : Nat × K → K)
    (terms : List (Nat × K))
    (point : Nat → K) :
    termsValue terms point =
      endsValue ends terms +
        gapSum Prod.snd (fun term => point term.1 - ends term) terms := by
  induction terms with
  | nil =>
      simp
  | cons term rest inductionHypothesis =>
      rw [termsValue_cons, inductionHypothesis, endsValue_cons, gapSum_cons]
      ring

/--
The value of reduced terms, measured in the same way, moves along with the sides.
-/
theorem termsValue_reduced_eq_gapSum
    (box : RowBox K)
    (slack : K)
    (ends : Nat × K → K)
    (terms : List (Nat × K))
    (point : Nat → K) :
    termsValue (terms.map (box.reducedTerm slack)) point =
      endsValue ends terms + box.sideShift slack ends terms +
        gapSum (box.reducedCoef slack)
          (fun term => point term.1 - ends term) terms := by
  induction terms with
  | nil =>
      simp
  | cons term rest inductionHypothesis =>
      rw [List.map_cons, termsValue_cons, inductionHypothesis,
        endsValue_cons, sideShift_cons, gapSum_cons, reducedTerm]
      ring

/-- A point respects the finite bounds of the variables of some terms. -/
def Admits
    (box : RowBox K)
    (terms : List (Nat × K))
    (point : Nat → K) :
    Prop :=
  ∀ term ∈ terms,
    (|box.lowerAt term.1| < box.sentinel →
        box.lowerAt term.1 ≤ point term.1) ∧
      (|box.upperAt term.1| < box.sentinel →
        point term.1 ≤ box.upperAt term.1)

/-- Ends of the box are whole numbers for the terms that a slack reduces. -/
def WholeEnds
    (box : RowBox K)
    (slack : K)
    (ends : Nat × K → K)
    (terms : List (Nat × K)) :
    Prop :=
  ∀ term ∈ terms, box.Reducible slack term →
    |ends term| < box.sentinel → IsWhole (ends term)

/--
Every term that tightening takes out of a row has whole numbers as its finite
ends next to the sides that exist.
-/
def WholeWhereChanged
    (box : RowBox K)
    (terms : List (Nat × K))
    (left right : K) :
    Prop :=
  ∀ term ∈ terms, term ∉ (box.tighten terms left right).terms →
    (-box.sentinel < left →
        |box.lowEnd term| < box.sentinel → IsWhole (box.lowEnd term)) ∧
      (right < box.sentinel →
        |box.highEnd term| < box.sentinel → IsWhole (box.highEnd term))

/-- A point gives whole numbers to the integral variables of some terms. -/
def IntegralAt
    (box : RowBox K)
    (terms : List (Nat × K))
    (point : Nat → K) :
    Prop :=
  ∀ term ∈ terms, box.isIntegral term.1 = true → IsWhole (point term.1)

section Ends

variable
  {box : RowBox K}
  {terms : List (Nat × K)}
  {term : Nat × K}
  {point : Nat → K}

/-- Away from its low end a term only grows. -/
theorem Admits.lowEnd_nonneg
    (admits : box.Admits terms point)
    (member : term ∈ terms)
    (finite : |box.lowEnd term| < box.sentinel) :
    0 ≤ term.2 * (point term.1 - box.lowEnd term) := by
  by_cases positive : 0 < term.2
  · simp only [lowEnd, positive, ↓reduceIte] at finite ⊢
    have above := (admits term member).1 finite
    exact mul_nonneg positive.le (by linarith)
  · simp only [lowEnd, positive, ↓reduceIte] at finite ⊢
    have below := (admits term member).2 finite
    exact mul_nonneg_of_nonpos_of_nonpos (not_lt.mp positive) (by linarith)

theorem Admits.highEnd_nonneg
    (admits : box.Admits terms point)
    (member : term ∈ terms)
    (finite : |box.highEnd term| < box.sentinel) :
    0 ≤ term.2 * -(point term.1 - box.highEnd term) := by
  by_cases positive : 0 < term.2
  · simp only [highEnd, positive, ↓reduceIte] at finite ⊢
    have below := (admits term member).2 finite
    exact mul_nonneg positive.le (by linarith)
  · simp only [highEnd, positive, ↓reduceIte] at finite ⊢
    have above := (admits term member).1 finite
    exact mul_nonneg_of_nonpos_of_nonpos (not_lt.mp positive) (by linarith)

end Ends

/-- Without reducible terms, the closed form changes nothing. -/
theorem reduced_eq_self
    {box : RowBox K}
    {slack : K}
    {terms : List (Nat × K)}
    (noneReducible : ∀ term ∈ terms, ¬ box.Reducible slack term)
    (ends : Nat × K → K) :
    terms.map (box.reducedTerm slack) = terms ∧
      box.sideShift slack ends terms = 0 := by
  induction terms with
  | nil =>
      simp
  | cons term rest inductionHypothesis =>
      have restSame :=
        inductionHypothesis
          (fun other member => noneReducible other (by simp [member]))
      have sameCoef : box.reducedCoef slack term = term.2 := by
        rw [reducedCoef, if_neg (noneReducible term (by simp))]
      exact
        ⟨by simp [restSame.1, reducedTerm, sameCoef],
          by simp [restSame.2, sameCoef]⟩

namespace FarFromSentinel

variable
  {box : RowBox K}
  {terms : List (Nat × K)}
  {left right : K}
  {point : Nat → K}

/--
A finite left side and the moved one restrict the integral points of the box
alike.
-/
theorem left_iff
    (far : box.FarFromSentinel terms left right)
    (epsilonNonneg : 0 ≤ box.epsilon)
    (notBoth : ¬ box.BothRedundant terms left right)
    (whole : box.WholeEnds (box.slack terms left right) box.lowEnd terms)
    (admits : box.Admits terms point)
    (integral : box.IntegralAt terms point)
    (isFinite : RowProgress.leftFinite box.sentinel left = true) :
    left + box.sideShift (box.slack terms left right) box.lowEnd terms ≤
        termsValue
          (terms.map (box.reducedTerm (box.slack terms left right))) point ↔
      left ≤ termsValue terms point := by
  cases infinite : (box.lowest terms).infinite with
  | true =>
      obtain ⟨sameTerms, noShift⟩ :=
        reduced_eq_self
          (far.not_reducible epsilonNonneg notBoth (.inl ⟨isFinite, infinite⟩))
          box.lowEnd
      rw [sameTerms, noShift, add_zero]
  | false =>
      obtain ⟨endsFinite, lowestEq⟩ := lowest_spec infinite
      have targetSmall :
          left - endsValue box.lowEnd terms ≤ box.slack terms left right := by
        have leftSlack :=
          (far.settled epsilonNonneg notBoth).leftSlack_le isFinite
        rw [← lowestEq]
        simpa [start, RowProgress.lowestValue, Activity.value, infinite]
          using leftSlack
      have moved :=
        le_gapSum_reduced_iff
          (fun term => point term.1 - box.lowEnd term)
          epsilonNonneg
          (epsilonNonneg.trans (far.slack_large epsilonNonneg notBoth).le)
          targetSmall
          (fun term member =>
            admits.lowEnd_nonneg member (endsFinite term member))
          (fun term member reducible =>
            (integral term member reducible.1).sub_eq_zero_or_one_le
              (whole term member reducible (endsFinite term member)))
      rw [termsValue_reduced_eq_gapSum box _ box.lowEnd,
        termsValue_eq_gapSum box.lowEnd terms]
      constructor
      · intro holds
        have := moved.mp (by linarith)
        linarith
      · intro holds
        have := moved.mpr (by linarith)
        linarith

theorem right_iff
    (far : box.FarFromSentinel terms left right)
    (epsilonNonneg : 0 ≤ box.epsilon)
    (notBoth : ¬ box.BothRedundant terms left right)
    (whole : box.WholeEnds (box.slack terms left right) box.highEnd terms)
    (admits : box.Admits terms point)
    (integral : box.IntegralAt terms point)
    (isFinite : RowProgress.rightFinite box.sentinel right = true) :
    termsValue
          (terms.map (box.reducedTerm (box.slack terms left right))) point ≤
        right + box.sideShift (box.slack terms left right) box.highEnd terms ↔
      termsValue terms point ≤ right := by
  cases infinite : (box.highest terms).infinite with
  | true =>
      obtain ⟨sameTerms, noShift⟩ :=
        reduced_eq_self
          (far.not_reducible epsilonNonneg notBoth (.inr ⟨isFinite, infinite⟩))
          box.highEnd
      rw [sameTerms, noShift, add_zero]
  | false =>
      obtain ⟨endsFinite, highestEq⟩ := highest_spec infinite
      have targetSmall :
          endsValue box.highEnd terms - right ≤ box.slack terms left right := by
        have rightSlack :=
          (far.settled epsilonNonneg notBoth).rightSlack_le isFinite
        rw [← highestEq]
        simpa [start, RowProgress.highestValue, Activity.value, infinite]
          using rightSlack
      have moved :=
        le_gapSum_reduced_iff
          (fun term => -(point term.1 - box.highEnd term))
          epsilonNonneg
          (epsilonNonneg.trans (far.slack_large epsilonNonneg notBoth).le)
          targetSmall
          (fun term member =>
            admits.highEnd_nonneg member (endsFinite term member))
          (fun term member reducible => by
            rw [neg_eq_zero, abs_neg]
            exact
              (integral term member reducible.1).sub_eq_zero_or_one_le
                (whole term member reducible (endsFinite term member)))
      rw [gapSum_neg, gapSum_neg] at moved
      rw [termsValue_reduced_eq_gapSum box _ box.highEnd,
        termsValue_eq_gapSum box.highEnd terms]
      constructor
      · intro holds
        have := moved.mp (by linarith)
        linarith
      · intro holds
        have := moved.mpr (by linarith)
        linarith

end FarFromSentinel

/-- A reduced term does not stand in the tightened row any more. -/
theorem not_mem_reduced
    {box : RowBox K}
    {slack : K}
    {terms : List (Nat × K)}
    {term : Nat × K}
    (epsilonNonneg : 0 ≤ box.epsilon)
    (slackNonneg : 0 ≤ slack)
    (reducible : box.Reducible slack term) :
    term ∉ terms.map (box.reducedTerm slack) := by
  intro member
  obtain ⟨other, _, same⟩ := List.mem_map.mp member
  have sameCoef : box.reducedCoef slack other = term.2 := by
    rw [← same, reducedTerm]
  by_cases otherReducible : box.Reducible slack other
  · have large := reducible.2
    rw [← sameCoef, abs_reducedCoef slackNonneg otherReducible] at large
    linarith
  · rw [reducedTerm, reducedCoef, if_neg otherReducible, Prod.mk.eta] at same
    rw [same] at otherReducible
    exact otherReducible reducible

/--
What changed coefficients take from a row at a point, each term measured from an
end of the box.
-/
def loss
    (ends : Nat × K → K)
    (before after : List (Nat × K))
    (point : Nat → K) :
    K :=
  ((before.zip after).map fun (old, new) =>
    (old.2 - new.2) * (point old.1 - ends old)).sum

/-- The terms of a row at an end of the box, all counted with their magnitude. -/
def endsReach
    (ends : Nat × K → K)
    (terms : List (Nat × K)) :
    K :=
  (terms.map fun term => |term.2| * |ends term|).sum

theorem loss_self
    (ends : Nat × K → K)
    (terms : List (Nat × K))
    (point : Nat → K) :
    loss ends terms terms point = 0 := by
  induction terms with
  | nil =>
      rfl
  | cons term rest inductionHypothesis =>
      rw [loss] at inductionHypothesis ⊢
      simp [inductionHypothesis]

/-- What a reduced row loses is the difference of the gap sums. -/
theorem loss_reduced
    (box : RowBox K)
    (slack : K)
    (ends : Nat × K → K)
    (terms : List (Nat × K))
    (point : Nat → K) :
    loss ends terms (terms.map (box.reducedTerm slack)) point =
      gapSum Prod.snd (fun term => point term.1 - ends term) terms -
        gapSum (box.reducedCoef slack)
          (fun term => point term.1 - ends term) terms := by
  induction terms with
  | nil =>
      simp [loss]
  | cons term rest inductionHypothesis =>
      rw [loss] at inductionHypothesis ⊢
      rw [List.map_cons, List.zip_cons_cons, List.map_cons, List.sum_cons,
        inductionHypothesis, gapSum_cons, gapSum_cons, reducedTerm]
      ring

/-- A reduced coefficient moves by at most its magnitude. -/
theorem abs_reducedCoef_sub_le
    {box : RowBox K}
    {slack : K}
    (epsilonNonneg : 0 ≤ box.epsilon)
    (slackNonneg : 0 ≤ slack)
    (term : Nat × K) :
    |box.reducedCoef slack term - term.2| ≤ |term.2| := by
  by_cases reducible : box.Reducible slack term
  · have large := reducible.2
    rw [reducedCoef, if_pos reducible]
    by_cases positive : 0 < term.2
    · rw [abs_of_pos positive] at large ⊢
      rw [if_pos positive, abs_le]
      constructor <;> linarith
    · rw [abs_of_nonpos (not_lt.mp positive)] at large ⊢
      rw [if_neg positive, abs_le]
      constructor <;> linarith
  · rw [reducedCoef, if_neg reducible, sub_self, abs_zero]
    exact abs_nonneg term.2

/-- A side moves by at most the reach of the ends. -/
theorem abs_sideShift_le
    {box : RowBox K}
    {slack : K}
    (epsilonNonneg : 0 ≤ box.epsilon)
    (slackNonneg : 0 ≤ slack)
    (ends : Nat × K → K)
    (terms : List (Nat × K)) :
    |box.sideShift slack ends terms| ≤ endsReach ends terms := by
  have triangle :=
    List.le_sum_of_subadditive (fun x : K => |x|) abs_zero.le abs_add_le
      (terms.map fun term => (box.reducedCoef slack term - term.2) * ends term)
  refine triangle.trans ?_
  rw [List.map_map]
  refine List.sum_le_sum ?_
  intro term _
  simp only [Function.comp_apply, abs_mul]
  exact
    mul_le_mul_of_nonneg_right
      (abs_reducedCoef_sub_le epsilonNonneg slackNonneg term) (abs_nonneg _)

namespace FarFromSentinel

variable
  {box : RowBox K}
  {terms : List (Nat × K)}
  {left right : K}

/--
A left side stays where it is, or moves between finite ends and by no more than
their reach.
-/
theorem leftShift_near
    (far : box.FarFromSentinel terms left right)
    (epsilonNonneg : 0 ≤ box.epsilon)
    (notBoth : ¬ box.BothRedundant terms left right)
    (isFinite : -box.sentinel < left) :
    box.sideShift (box.slack terms left right) box.lowEnd terms = 0 ∨
      (∀ term ∈ terms, |box.lowEnd term| < box.sentinel) ∧
        |box.sideShift (box.slack terms left right) box.lowEnd terms| ≤
          endsReach box.lowEnd terms := by
  cases infinite : (box.lowest terms).infinite with
  | true =>
      have noneReducible :=
        far.not_reducible epsilonNonneg notBoth
          (.inl ⟨by simpa [RowProgress.leftFinite] using isFinite, infinite⟩)
      exact .inl (reduced_eq_self noneReducible box.lowEnd).2
  | false =>
      exact
        .inr
          ⟨(lowest_spec infinite).1,
            abs_sideShift_le epsilonNonneg
              (epsilonNonneg.trans (far.slack_large epsilonNonneg notBoth).le)
              box.lowEnd terms⟩

theorem rightShift_near
    (far : box.FarFromSentinel terms left right)
    (epsilonNonneg : 0 ≤ box.epsilon)
    (notBoth : ¬ box.BothRedundant terms left right)
    (isFinite : right < box.sentinel) :
    box.sideShift (box.slack terms left right) box.highEnd terms = 0 ∨
      (∀ term ∈ terms, |box.highEnd term| < box.sentinel) ∧
        |box.sideShift (box.slack terms left right) box.highEnd terms| ≤
          endsReach box.highEnd terms := by
  cases infinite : (box.highest terms).infinite with
  | true =>
      have noneReducible :=
        far.not_reducible epsilonNonneg notBoth
          (.inr ⟨by simpa [RowProgress.rightFinite] using isFinite, infinite⟩)
      exact .inl (reduced_eq_self noneReducible box.highEnd).2
  | false =>
      exact
        .inr
          ⟨(highest_spec infinite).1,
            abs_sideShift_le epsilonNonneg
              (epsilonNonneg.trans (far.slack_large epsilonNonneg notBoth).le)
              box.highEnd terms⟩

end FarFromSentinel

/--
How tightening moves the sides of a row and what is left between them and a point.
-/
structure MovedSides
    (box : RowBox K)
    (terms : List (Nat × K))
    (left right : K)
    (result : TightenedRow K)
    (point : Nat → K) : Prop where
  leftOpen : ¬ -box.sentinel < left → result.left = left
  rightOpen : ¬ right < box.sentinel → result.right = right
  leftNear :
    -box.sentinel < left →
      result.left = left ∨
        (∀ term ∈ terms, |box.lowEnd term| < box.sentinel) ∧
          |result.left - left| ≤ endsReach box.lowEnd terms
  rightNear :
    right < box.sentinel →
      result.right = right ∨
        (∀ term ∈ terms, |box.highEnd term| < box.sentinel) ∧
          |result.right - right| ≤ endsReach box.highEnd terms
  left :
    -box.sentinel < left →
      termsValue result.terms point - result.left =
        termsValue terms point - left -
          loss box.lowEnd terms result.terms point
  right :
    right < box.sentinel →
      result.right - termsValue result.terms point =
        right - termsValue terms point +
          loss box.highEnd terms result.terms point

/-- The closed form of tightening, read at a point. -/
theorem tighten_movedSides
    {box : RowBox K}
    {terms : List (Nat × K)}
    {left right : K}
    (epsilonNonneg : 0 ≤ box.epsilon)
    (far : box.FarFromSentinel terms left right)
    (point : Nat → K) :
    box.MovedSides terms left right (box.tighten terms left right) point := by
  rcases box.tighten_cases terms left right with same | visited
  · obtain ⟨sameTerms, sameLeft, sameRight⟩ := same
    refine
      ⟨fun _ => sameLeft, fun _ => sameRight, fun _ => .inl sameLeft,
        fun _ => .inl sameRight, ?_, ?_⟩
    · intro _
      rw [sameTerms, sameLeft, loss_self, sub_zero]
    · intro _
      rw [sameTerms, sameRight, loss_self, add_zero]
  · obtain ⟨notBoth, termsEq, leftEq, rightEq⟩ := visited
    have finished := far.finished epsilonNonneg notBoth
    rw [finished.keptEq] at termsEq
    rw [finished.left] at leftEq
    rw [finished.right] at rightEq
    have leftMoved (isFinite : -box.sentinel < left) :
        (box.tighten terms left right).left =
          left + box.sideShift (box.slack terms left right) box.lowEnd terms := by
      rw [leftEq, if_pos (by simpa [RowProgress.leftFinite] using isFinite)]
      rfl
    have rightMoved (isFinite : right < box.sentinel) :
        (box.tighten terms left right).right =
          right +
            box.sideShift (box.slack terms left right) box.highEnd terms := by
      rw [rightEq, if_pos (by simpa [RowProgress.rightFinite] using isFinite)]
      rfl
    refine ⟨?_, ?_, ?_, ?_, ?_, ?_⟩
    · intro notFinite
      rw [leftEq]
      simp [RowProgress.leftFinite, notFinite, start]
    · intro notFinite
      rw [rightEq]
      simp [RowProgress.rightFinite, notFinite, start]
    · intro isFinite
      rw [leftMoved isFinite, add_sub_cancel_left, add_eq_left]
      exact far.leftShift_near epsilonNonneg notBoth isFinite
    · intro isFinite
      rw [rightMoved isFinite, add_sub_cancel_left, add_eq_left]
      exact far.rightShift_near epsilonNonneg notBoth isFinite
    · intro isFinite
      rw [termsEq, leftMoved isFinite, loss_reduced,
        termsValue_reduced_eq_gapSum box _ box.lowEnd,
        termsValue_eq_gapSum box.lowEnd terms]
      ring
    · intro isFinite
      rw [termsEq, rightMoved isFinite, loss_reduced,
        termsValue_reduced_eq_gapSum box _ box.highEnd,
        termsValue_eq_gapSum box.highEnd terms]
      ring

/--
At a point, both sides of a row have room for what tightening takes from the row.
-/
structure Covers
    (box : RowBox K)
    (terms : List (Nat × K))
    (left right : K)
    (point : Nat → K) : Prop where
  leftRoom :
    -box.sentinel < left →
      loss box.lowEnd terms (box.tighten terms left right).terms point ≤
        termsValue terms point - left
  rightRoom :
    right < box.sentinel →
      -loss box.highEnd terms (box.tighten terms left right).terms point ≤
        right - termsValue terms point

/--
Whole ends next to the sides give an integral point of the box and of the row
enough room.
-/
theorem covers_of_whole
    {box : RowBox K}
    {terms : List (Nat × K)}
    {left right : K}
    {point : Nat → K}
    (epsilonNonneg : 0 ≤ box.epsilon)
    (far : box.FarFromSentinel terms left right)
    (whole : box.WholeWhereChanged terms left right)
    (admits : box.Admits terms point)
    (integral : box.IntegralAt terms point)
    (leftHolds : -box.sentinel < left → left ≤ termsValue terms point)
    (rightHolds : right < box.sentinel → termsValue terms point ≤ right) :
    box.Covers terms left right point := by
  rcases box.tighten_cases terms left right with same | visited
  · obtain ⟨sameTerms, _, _⟩ := same
    refine ⟨?_, ?_⟩
    · intro isFinite
      rw [sameTerms, loss_self]
      exact sub_nonneg.mpr (leftHolds isFinite)
    · intro isFinite
      rw [sameTerms, loss_self, neg_zero]
      exact sub_nonneg.mpr (rightHolds isFinite)
  · obtain ⟨notBoth, termsEq, _, _⟩ := visited
    rw [(far.finished epsilonNonneg notBoth).keptEq] at termsEq
    have changed
        (term : Nat × K)
        (member : term ∈ terms)
        (reducible : box.Reducible (box.slack terms left right) term) :=
      whole term member (by
        rw [termsEq]
        exact
          not_mem_reduced epsilonNonneg
            (epsilonNonneg.trans (far.slack_large epsilonNonneg notBoth).le)
            reducible)
    refine ⟨?_, ?_⟩
    · intro isFinite
      have flag : RowProgress.leftFinite box.sentinel left = true := by
        simpa [RowProgress.leftFinite] using isFinite
      have reached :=
        (far.left_iff epsilonNonneg notBoth
          (fun term member reducible =>
            (changed term member reducible).1 isFinite)
          admits integral flag).mpr (leftHolds isFinite)
      rw [termsValue_reduced_eq_gapSum box _ box.lowEnd] at reached
      rw [termsEq, loss_reduced, termsValue_eq_gapSum box.lowEnd terms]
      linarith
    · intro isFinite
      have flag : RowProgress.rightFinite box.sentinel right = true := by
        simpa [RowProgress.rightFinite] using isFinite
      have reached :=
        (far.right_iff epsilonNonneg notBoth
          (fun term member reducible =>
            (changed term member reducible).2 isFinite)
          admits integral flag).mpr (rightHolds isFinite)
      rw [termsValue_reduced_eq_gapSum box _ box.highEnd] at reached
      rw [termsEq, loss_reduced, termsValue_eq_gapSum box.highEnd terms]
      linarith

end RowBox

end SdpRelay
