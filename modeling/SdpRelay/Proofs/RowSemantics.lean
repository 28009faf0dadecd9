import Mathlib
import SdpRelay.Presolve.Rows
import SdpRelay.Proofs.ExactField

namespace SdpRelay

/-!
# What rows say about points

A point gives a value to every variable.  A row holds at a point if its value
lies between its sides, where a side at or beyond the sentinel says nothing.  A
row splits into its free and its fixed terms; moving the fixed ones into the
sides keeps the meaning of the row at every point that agrees with them.
-/

variable {K : Type} [ExactField K]

/-- The value of terms at a point. -/
def termsValue
    (terms : List (Nat × K))
    (point : Nat → K) :
    K :=
  (terms.map fun term => term.2 * point term.1).sum

@[simp] theorem termsValue_nil (point : Nat → K) :
    termsValue [] point = 0 :=
  rfl

@[simp] theorem termsValue_cons
    (term : Nat × K)
    (rest : List (Nat × K))
    (point : Nat → K) :
    termsValue (term :: rest) point =
      term.2 * point term.1 + termsValue rest point := by
  simp [termsValue]

/-- Dropping terms with coefficient zero keeps the value. -/
theorem termsValue_filter_of_zero
    {test : Nat × K → Bool}
    {terms : List (Nat × K)}
    (dropsZeros : ∀ term ∈ terms, test term = false → term.2 = 0)
    (point : Nat → K) :
    termsValue (terms.filter test) point = termsValue terms point := by
  induction terms with
  | nil =>
      rfl
  | cons term rest inductionHypothesis =>
      have restSame :=
        inductionHypothesis
          (fun later member => dropsZeros later (by simp [member]))
      cases passes : test term with
      | true =>
          simp [passes, restSame]
      | false =>
          have zero := dropsZeros term (by simp) passes
          simp [passes, restSame, zero]

theorem termsValue_congr
    {terms : List (Nat × K)}
    {first second : Nat → K}
    (agree : ∀ term ∈ terms, first term.1 = second term.1) :
    termsValue terms first = termsValue terms second := by
  unfold termsValue
  congr 1
  apply List.map_congr_left
  intro term member
  rw [agree term member]

namespace LinearRow

/-- The value of a row at a point. -/
def value
    (row : LinearRow K)
    (point : Nat → K) :
    K :=
  termsValue row.terms point

/--
A row holds at a point up to a slack, where sides at or beyond the sentinel say
nothing.
-/
def HoldsUpTo
    (sentinel slack : K)
    (row : LinearRow K)
    (point : Nat → K) :
    Prop :=
  (-sentinel < row.left → row.left - slack ≤ row.value point) ∧
    (row.right < sentinel → row.value point ≤ row.right + slack)

/-- A row holds at a point. -/
def Holds
    (sentinel : K)
    (row : LinearRow K)
    (point : Nat → K) :
    Prop :=
  row.HoldsUpTo sentinel 0 point

/-- A row holds if its value lies between its sides. -/
theorem holds_iff
    {sentinel : K}
    {row : LinearRow K}
    {point : Nat → K} :
    row.Holds sentinel point ↔
      (-sentinel < row.left → row.left ≤ row.value point) ∧
        (row.right < sentinel → row.value point ≤ row.right) := by
  simp [Holds, HoldsUpTo]

end LinearRow

namespace RowPass

/-- The contribution of terms is their value at the lower bounds. -/
theorem value_contribution
    (bounds : Bounds K)
    (terms : List (Nat × K)) :
    (contribution bounds terms).value = termsValue terms bounds.lowerAt := by
  have accumulated
      (total : DoubleWord K) :
      (terms.foldl
          (fun sum term => sum.addProduct term.2 (bounds.lowerAt term.1))
          total).value =
        total.value + termsValue terms bounds.lowerAt := by
    induction terms generalizing total with
    | nil =>
        simp
    | cons term rest inductionHypothesis =>
        rw [List.foldl_cons, inductionHypothesis, termsValue_cons,
          DoubleWord.value_addProduct]
        ring
  have fromZero := accumulated DoubleWord.zero
  rw [DoubleWord.value_zero, zero_add] at fromZero
  exact fromZero

/-- A finite side is moved by the contribution of the fixed terms. -/
theorem shiftSide_of_finite
    {sentinel infinite side : K}
    {fixed : DoubleWord K}
    (finite : |side| < sentinel) :
    shiftSide sentinel infinite side fixed = side - fixed.value := by
  have notBeyond : ¬ sentinel ≤ Scalar.abs side :=
    not_le.mpr finite
  rw [shiftSide, if_neg notBeyond, DoubleWord.value_add,
    DoubleWord.value_scale]
  ring

theorem shiftSide_of_infinite
    {sentinel infinite side : K}
    {fixed : DoubleWord K}
    (beyond : sentinel ≤ |side|) :
    shiftSide sentinel infinite side fixed = infinite := by
  rw [shiftSide, if_pos]
  exact beyond

/-- Whatever is added up over terms splits into the free and the fixed ones. -/
theorem sum_free_add_fixed
    (bounds : Bounds K)
    (epsilon : K)
    (terms : List (Nat × K))
    (weight : Nat × K → K) :
    ((freeTerms bounds epsilon terms).map weight).sum +
        ((fixedTerms bounds epsilon terms).map weight).sum =
      (terms.map weight).sum := by
  have split :=
    List.sum_map_filter_add_sum_map_filter_not
      (fun term : Nat × K => bounds.Fixed epsilon term.1) weight terms
  rw [add_comm]
  simpa [freeTerms, fixedTerms] using split

/-- The values of the free and of the fixed terms add up to that of all terms. -/
theorem termsValue_free_add_fixed
    (bounds : Bounds K)
    (epsilon : K)
    (terms : List (Nat × K))
    (point : Nat → K) :
    termsValue (freeTerms bounds epsilon terms) point +
        termsValue (fixedTerms bounds epsilon terms) point =
      termsValue terms point :=
  sum_free_add_fixed bounds epsilon terms
    (fun term => term.2 * point term.1)

end RowPass

end SdpRelay
