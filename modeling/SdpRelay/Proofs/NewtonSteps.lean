import Mathlib
import SdpRelay.Proofs.NewtonStops
import SdpRelay.Proofs.SlackMatrices

namespace SdpRelay

/-!
# Newton's method for one free variable

Over an exact field, the quadratic form of the slack at any value `t` is an affine
function of `t`.  An iteration takes it at the vector that comes with the smallest
eigenvalue of the slack at the iterate `y`, so that a feasible `t` satisfies
`0 ≤ eigenvalue + slope * (t - y)`.  While the eigenvalue is negative, every feasible
value therefore lies beyond the next iterate, seen from the bound that the objective
favours.  The iterates move away from that bound, and the first one that is feasible
up to the tolerance is at least as good as every feasible value.
-/

open Matrix

variable {K : Type} [ExactField K] {size : Nat}

section Forms

/-- Adding numbers up from left to right is their sum. -/
theorem foldl_range_add
    (summand : Nat → K)
    (count : Nat)
    (start : K) :
    (List.range count).foldl (fun total i => total + summand i) start =
      start + ∑ i ∈ Finset.range count, summand i := by
  induction count with
  | zero =>
      simp
  | succ count inductionHypothesis =>
      rw [List.range_succ, List.foldl_append, inductionHypothesis,
        Finset.sum_range_succ, ← add_assoc]
      rfl

/-- The vector with the numbers of a list. -/
def vectorOf
    (size : Nat)
    (numbers : List K) :
    Fin size → K :=
  fun i => numbers.getD i 0

/-- The quadratic form of a dense matrix is that of its entries. -/
theorem SquareMatrix.quadraticForm_eq
    {m : SquareMatrix K}
    (isSize : m.size = size)
    (numbers : List K) :
    m.quadraticForm numbers =
      vectorOf size numbers ⬝ᵥ m.toMatrix size *ᵥ vectorOf size numbers := by
  have columns (j : Nat) (total : K) :
      (List.range m.size).foldl
          (fun running i =>
            running + numbers.getD i 0 * m.get i j * numbers.getD j 0)
          total =
        total +
          ∑ i ∈ Finset.range size,
            numbers.getD i 0 * m.get i j * numbers.getD j 0 := by
    rw [isSize]
    exact foldl_range_add _ size total
  unfold quadraticForm
  simp only [columns]
  rw [isSize, foldl_range_add, Finset.sum_comm]
  simp only [zero_add, Finset.sum_range, dotProduct, mulVec, Finset.mul_sum]
  refine Finset.sum_congr rfl fun i _ => Finset.sum_congr rfl fun j _ => ?_
  change _ = numbers.getD i 0 * (m.get i j * numbers.getD j 0)
  ring

/-- Adding listed entries to a dense matrix adds the matrix that they list. -/
theorem Triplets.toMatrix_addTo
    {entries : Triplets K}
    (inside : entries.Inside size)
    {m : SquareMatrix K}
    (isSize : m.size = size)
    (isFull : m.data.size = size * size)
    (factor : K) :
    (entries.addTo m factor).toMatrix size =
      m.toMatrix size + factor • entries.symmetric size := by
  have shape := entries.addTo_shape m factor
  ext i j
  have isPosition : (i + j * size : Nat) < m.data.size := by
    have rowInside := i.isLt
    have colInside := j.isLt
    rw [isFull]
    nlinarith
  have filled :=
    entries.numberAt_addTo (ExactField.exactSums K) m factor isPosition
  rw [isSize, Triplets.weightAt_eq inside] at filled
  have isEntry (other : SquareMatrix K) (otherSize : other.size = size) :
      other.toMatrix size i j = other.numberAt (i + j * size) := by
    rw [SquareMatrix.toMatrix, of_apply, SquareMatrix.get, otherSize]
    rfl
  rw [isEntry _ (shape.size.trans isSize), filled, Matrix.add_apply,
    isEntry _ isSize, Matrix.smul_apply, smul_eq_mul]

theorem SquareMatrix.toMatrix_zeros (size : Nat) :
    (SquareMatrix.zeros size : SquareMatrix K).toMatrix size = 0 := by
  ext i j
  exact numberAt_zeros size _

end Forms

namespace OneVariableProblem

/-- The matrix `t A - C`. -/
def slackAt
    (problem : OneVariableProblem K)
    (t : K) :
    Matrix (Fin problem.size) (Fin problem.size) K :=
  t • problem.matrix.symmetric problem.size -
    problem.constant.symmetric problem.size

/-- A value between the bounds that makes the slack positive semidefinite. -/
structure IsFeasible
    (problem : OneVariableProblem K)
    (t : K) : Prop where
  lower : problem.lower ≤ t
  upper : t ≤ problem.upper
  slack : IsPositiveSemidefinite (problem.slackAt t)

/--
A problem that Newton's method is meant for.  The smallest eigenvalue of a slack is
computed as the quadratic form at the vector that comes with it; that the vector is
of length one and that no smaller value exists does not matter.
-/
structure IsPosed (problem : OneVariableProblem K) : Prop where
  ordered : problem.lower ≤ problem.upper
  feasTolerance : 0 ≤ problem.feasTolerance
  epsilon : 0 ≤ problem.epsilon
  nonempty : problem.size ≠ 0
  constant : problem.constant.Inside problem.size
  matrix : problem.matrix.Inside problem.size
  eigenpairs :
    ∀ y, problem.lower ≤ y → y ≤ problem.upper →
      ∃ vector,
        smallestEigenpair (problem.matrixAt y) true =
          .ok
            {
              eigenvalue := (problem.matrixAt y).quadraticForm vector
              eigenvector := some vector
            }

section Slacks

variable {problem : OneVariableProblem K}

theorem matrixAt_shape
    (problem : OneVariableProblem K)
    (y : K) :
    (problem.matrixAt y).SameShape (SquareMatrix.zeros problem.size) :=
  (problem.constant.addTo_shape _ _).trans (problem.matrix.addTo_shape _ _)

/-- The matrix of an iteration is the slack at the iterate. -/
theorem IsPosed.toMatrix_matrixAt
    (posed : problem.IsPosed)
    (y : K) :
    (problem.matrixAt y).toMatrix problem.size = problem.slackAt y := by
  have shape :=
    problem.matrix.addTo_shape
      (SquareMatrix.zeros problem.size : SquareMatrix K) y
  rw [matrixAt,
    Triplets.toMatrix_addTo posed.constant shape.size
      (shape.dataSize.trans (SquareMatrix.zeros_dataSize _)),
    Triplets.toMatrix_addTo posed.matrix rfl (SquareMatrix.zeros_dataSize _),
    SquareMatrix.toMatrix_zeros, zero_add, slackAt, neg_one_smul,
    sub_eq_add_neg]

/-- The matrix of the slopes is the matrix that is multiplied with the variable. -/
theorem toMatrix_slopeMatrix (inside : problem.matrix.Inside problem.size) :
    problem.slopeMatrix.toMatrix problem.size =
      problem.matrix.symmetric problem.size := by
  rw [slopeMatrix,
    Triplets.toMatrix_addTo inside rfl (SquareMatrix.zeros_dataSize _),
    SquareMatrix.toMatrix_zeros, zero_add, one_smul]

/--
The quadratic form of the slack at a feasible value, expressed by those of an
iteration, is not negative.
-/
theorem IsPosed.supergradient
    (posed : problem.IsPosed)
    (y : K)
    (vector : List K)
    {t : K}
    (feasible : problem.IsFeasible t) :
    0 ≤ (problem.matrixAt y).quadraticForm vector +
      problem.slopeMatrix.quadraticForm vector * (t - y) := by
  have matrixSize : (problem.matrixAt y).size = problem.size :=
    (problem.matrixAt_shape y).size
  have slopeSize : problem.slopeMatrix.size = problem.size :=
    (problem.matrix.addTo_shape _ _).size
  have affine :
      problem.slackAt t =
        problem.slackAt y +
          (t - y) • problem.matrix.symmetric problem.size := by
    rw [slackAt, slackAt, sub_smul]
    abel
  have nonneg := feasible.slack.nonneg (vectorOf problem.size vector)
  rw [affine, add_mulVec, smul_mulVec, dotProduct_add, dotProduct_smul,
    smul_eq_mul] at nonneg
  rw [SquareMatrix.quadraticForm_eq matrixSize,
    SquareMatrix.quadraticForm_eq slopeSize, posed.toMatrix_matrixAt,
    toMatrix_slopeMatrix posed.matrix]
  linarith

end Slacks

section Directions

variable (problem : OneVariableProblem K)

/-- The direction is a sign, and the objective is its size in this direction. -/
theorem direction_spec :
    (problem.direction = 1 ∧ 0 ≤ problem.objective ∧
        problem.favoured = problem.lower ∧ problem.limit = problem.upper) ∨
      (problem.direction = -1 ∧ problem.objective < 0 ∧
        problem.favoured = problem.upper ∧ problem.limit = problem.lower) := by
  unfold direction favoured limit
  by_cases sign : 0 ≤ problem.objective
  · exact .inl ⟨if_pos sign, sign, if_pos sign, if_pos sign⟩
  · exact .inr ⟨if_neg sign, not_le.mp sign, if_neg sign, if_neg sign⟩

variable {problem}

/-- Between the bounds is beyond the favoured one and not beyond the other. -/
theorem between_iff {t : K} :
    problem.lower ≤ t ∧ t ≤ problem.upper ↔
      problem.direction * problem.favoured ≤ problem.direction * t ∧
        problem.direction * t ≤ problem.direction * problem.limit := by
  rcases problem.direction_spec with
    ⟨isUp, _, isFavoured, isLimit⟩ | ⟨isDown, _, isFavoured, isLimit⟩
  · rw [isUp, isFavoured, isLimit, one_mul, one_mul, one_mul]
  · rw [isDown, isFavoured, isLimit]
    simp only [neg_one_mul, neg_le_neg_iff]
    exact and_comm

/-- What lies further in the direction has no better objective. -/
theorem objective_mul_le
    {y t : K}
    (further : problem.direction * y ≤ problem.direction * t) :
    problem.objective * y ≤ problem.objective * t := by
  rcases problem.direction_spec with ⟨isUp, sign, _⟩ | ⟨isDown, sign, _⟩
  · rw [isUp, one_mul, one_mul] at further
    exact mul_le_mul_of_nonneg_left further sign
  · rw [isDown, neg_one_mul, neg_one_mul, neg_le_neg_iff] at further
    exact mul_le_mul_of_nonpos_left further sign.le

/-- The distance from the favoured bound, in the direction. -/
theorem abs_sub_favoured
    {t : K}
    (beyond :
      problem.direction * problem.favoured ≤ problem.direction * t) :
    |t - problem.favoured| = problem.direction * (t - problem.favoured) := by
  rcases problem.direction_spec with ⟨isUp, _⟩ | ⟨isDown, _⟩
  · rw [isUp, one_mul, one_mul] at beyond
    rw [isUp, one_mul, abs_of_nonneg (sub_nonneg.mpr beyond)]
  · rw [isDown, neg_one_mul, neg_one_mul, neg_le_neg_iff] at beyond
    rw [isDown, neg_one_mul, abs_of_nonpos (sub_nonpos.mpr beyond)]

theorem direction_mul_self (problem : OneVariableProblem K) :
    problem.direction * problem.direction = 1 := by
  rcases problem.direction_spec with ⟨isUp, _⟩ | ⟨isDown, _⟩
  · rw [isUp, one_mul]
  · rw [isDown, neg_mul_neg, one_mul]

end Directions

section Iterations

variable (problem : OneVariableProblem K)

/-- The iterate that an iteration computes, unless it comes to an answer before. -/
def nextIterate (y : K) : Option K :=
  match smallestEigenpair (problem.matrixAt y) true with
  | .error _ => none
  | .ok pair =>
      let slope :=
        problem.slopeMatrix.quadraticForm
          (pair.eigenvector.getD (List.replicate problem.size 0))
      if -problem.feasTolerance ≤ pair.eigenvalue then
        none
      else if problem.direction * slope ≤ problem.epsilon then
        none
      else
        some (y - pair.eigenvalue / slope)

/-- The iterates from one of them on, at most a given number more; the last one may be too far. -/
def iteratesFrom : Nat → K → List K
  | 0, y => [y]
  | remaining + 1, y =>
      match problem.nextIterate y with
      | none => [y]
      | some next =>
          if 0 < problem.direction * (next - problem.limit) then
            [y, next]
          else
            y :: iteratesFrom remaining next

/-- The iterates of Newton's method; there are none if the favoured bound is infinite. -/
def iterates
    (sentinel : K)
    (iterationLimit : Nat) :
    List K :=
  if sentinel ≤ |problem.favoured| then
    []
  else
    problem.iteratesFrom iterationLimit problem.favoured

variable {problem}

/--
What one iteration can do with the eigenvalue and the slope at the iterate: it finds
an answer, cannot get further, gets too far, or comes to the next iterate.
-/
inductive Iteration
    (problem : OneVariableProblem K)
    (sentinel : K)
    (remaining : Nat)
    (y : K)
    (vector : List K)
    (eigenvalue slope : K) : Prop where
  | answers
      (feasible : -problem.feasTolerance ≤ eigenvalue)
      (solved :
        problem.newtonFrom sentinel (remaining + 1) y =
          .ok (some (problem.optimalAt y vector slope)))
      (stays : problem.iteratesFrom (remaining + 1) y = [y])
  | isStuck
      (infeasible : eigenvalue < -problem.feasTolerance)
      (flat : problem.direction * slope ≤ problem.epsilon)
      (solved :
        problem.newtonFrom sentinel (remaining + 1) y =
          .ok (some (infeasibleAt sentinel y vector slope)))
      (stays : problem.iteratesFrom (remaining + 1) y = [y])
  | exceeds
      (infeasible : eigenvalue < -problem.feasTolerance)
      (steep : problem.epsilon < problem.direction * slope)
      (beyond :
        problem.direction * problem.limit <
          problem.direction * (y - eigenvalue / slope))
      (solved :
        problem.newtonFrom sentinel (remaining + 1) y =
          .ok
            (some
              (infeasibleAt sentinel (y - eigenvalue / slope) vector slope)))
      (moves :
        problem.iteratesFrom (remaining + 1) y =
          [y, y - eigenvalue / slope])
  | continues
      (infeasible : eigenvalue < -problem.feasTolerance)
      (steep : problem.epsilon < problem.direction * slope)
      (inside :
        problem.direction * (y - eigenvalue / slope) ≤
          problem.direction * problem.limit)
      (solved :
        problem.newtonFrom sentinel (remaining + 1) y =
          problem.newtonFrom sentinel remaining (y - eigenvalue / slope))
      (moves :
        problem.iteratesFrom (remaining + 1) y =
          y :: problem.iteratesFrom remaining (y - eigenvalue / slope))

/-- Every iteration of a problem that is posed does one of these. -/
theorem IsPosed.iteration
    (posed : problem.IsPosed)
    {y : K}
    (lower : problem.lower ≤ y)
    (upper : y ≤ problem.upper)
    (sentinel : K)
    (remaining : Nat) :
    ∃ vector,
      smallestEigenpair (problem.matrixAt y) true =
          .ok
            {
              eigenvalue := (problem.matrixAt y).quadraticForm vector
              eigenvector := some vector
            } ∧
        problem.Iteration sentinel remaining y vector
          ((problem.matrixAt y).quadraticForm vector)
          (problem.slopeMatrix.quadraticForm vector) := by
  obtain ⟨vector, found⟩ := posed.eigenpairs y lower upper
  refine ⟨vector, found, ?_⟩
  generalize (problem.matrixAt y).quadraticForm vector = eigenvalue at found ⊢
  generalize isSlope : problem.slopeMatrix.quadraticForm vector = slope
  have solved :
      problem.newtonFrom sentinel (remaining + 1) y =
        if -problem.feasTolerance ≤ eigenvalue then
          .ok (some (problem.optimalAt y vector slope))
        else if problem.direction * slope ≤ problem.epsilon then
          .ok (some (infeasibleAt sentinel y vector slope))
        else if
            0 < problem.direction * (y - eigenvalue / slope - problem.limit)
        then
          .ok
            (some
              (infeasibleAt sentinel (y - eigenvalue / slope) vector slope))
        else
          problem.newtonFrom sentinel remaining (y - eigenvalue / slope) := by
    rw [← isSlope]
    exact newtonFrom_of_pair posed.nonempty found sentinel remaining
  have stepped :
      problem.nextIterate y =
        if -problem.feasTolerance ≤ eigenvalue then
          none
        else if problem.direction * slope ≤ problem.epsilon then
          none
        else
          some (y - eigenvalue / slope) := by
    unfold nextIterate
    simp only [found, Option.getD_some, isSlope]
  by_cases feasible : -problem.feasTolerance ≤ eigenvalue
  · rw [if_pos feasible] at solved stepped
    exact .answers feasible solved (by rw [iteratesFrom, stepped])
  rw [if_neg feasible] at solved stepped
  rw [not_le] at feasible
  by_cases flat : problem.direction * slope ≤ problem.epsilon
  · rw [if_pos flat] at solved stepped
    exact .isStuck feasible flat solved (by rw [iteratesFrom, stepped])
  rw [if_neg flat] at solved stepped
  rw [not_le] at flat
  by_cases tooFar :
      0 < problem.direction * (y - eigenvalue / slope - problem.limit)
  · have moves :
        problem.iteratesFrom (remaining + 1) y =
          [y, y - eigenvalue / slope] := by
      rw [iteratesFrom, stepped]
      exact if_pos tooFar
    rw [if_pos tooFar] at solved
    rw [mul_sub, sub_pos] at tooFar
    exact .exceeds feasible flat tooFar solved moves
  · have moves :
        problem.iteratesFrom (remaining + 1) y =
          y :: problem.iteratesFrom remaining (y - eigenvalue / slope) := by
      rw [iteratesFrom, stepped]
      exact if_neg tooFar
    rw [if_neg tooFar] at solved
    rw [mul_sub, sub_pos, not_lt] at tooFar
    exact .continues feasible flat tooFar solved moves

/-- An iterate between the bounds that no feasible value lies before. -/
structure IsReached
    (problem : OneVariableProblem K)
    (y : K) : Prop where
  lower : problem.lower ≤ y
  upper : y ≤ problem.upper
  ahead :
    ∀ t, problem.IsFeasible t →
      problem.direction * y ≤ problem.direction * t

theorem IsPosed.favoured_isReached
    (posed : problem.IsPosed) :
    problem.IsReached problem.favoured := by
  have isBetween :
      problem.lower ≤ problem.favoured ∧ problem.favoured ≤ problem.upper := by
    rcases problem.direction_spec with
      ⟨_, _, isFavoured, _⟩ | ⟨_, _, isFavoured, _⟩
    · rw [isFavoured]
      exact ⟨le_rfl, posed.ordered⟩
    · rw [isFavoured]
      exact ⟨posed.ordered, le_rfl⟩
  refine ⟨isBetween.1, isBetween.2, ?_⟩
  intro t feasible
  exact (between_iff.mp ⟨feasible.lower, feasible.upper⟩).1

/-- Where the slope is positive in the direction, feasible values lie beyond the next iterate. -/
theorem direction_next_le
    {eigenvalue slope y t : K}
    (steep : 0 < problem.direction * slope)
    (nonneg : 0 ≤ eigenvalue + slope * (t - y)) :
    problem.direction * (y - eigenvalue / slope) ≤ problem.direction * t := by
  have nonzero : slope ≠ 0 := by
    rintro rfl
    exact absurd steep (by simp)
  have ratio :
      problem.direction * (y - eigenvalue / slope) =
        problem.direction * t -
          (eigenvalue + slope * (t - y)) / (problem.direction * slope) := by
    rcases problem.direction_spec with ⟨isUp, _⟩ | ⟨isDown, _⟩
    · rw [isUp]
      field_simp
      ring
    · rw [isDown]
      field_simp
      ring
  rw [ratio]
  exact sub_le_self _ (div_nonneg nonneg steep.le)

/-- A negative eigenvalue makes the next iterate lie further in the direction. -/
theorem direction_lt_next
    {eigenvalue slope : K}
    (y : K)
    (steep : 0 < problem.direction * slope)
    (negative : eigenvalue < 0) :
    problem.direction * y <
      problem.direction * (y - eigenvalue / slope) := by
  have ratio :
      problem.direction * (y - eigenvalue / slope) =
        problem.direction * y + -eigenvalue / (problem.direction * slope) := by
    have nonzero : slope ≠ 0 := by
      rintro rfl
      exact absurd steep (by simp)
    rcases problem.direction_spec with ⟨isUp, _⟩ | ⟨isDown, _⟩
    · rw [isUp]
      field_simp
      ring
    · rw [isDown]
      field_simp
      ring
  rw [ratio]
  exact lt_add_of_pos_right _ (div_pos (neg_pos.mpr negative) steep)

/-- An answer that is feasible up to the tolerance and as good as every feasible value. -/
structure IsOptimalAnswer
    (problem : OneVariableProblem K)
    (solution : OneVariableSolution K) : Prop where
  lower : problem.lower ≤ solution.value
  upper : solution.value ≤ problem.upper
  eigenvalue :
    ∃ pair,
      smallestEigenpair (problem.matrixAt solution.value) true = .ok pair ∧
        -problem.feasTolerance ≤ pair.eigenvalue
  objectiveValue :
    solution.objectiveValue = problem.objective * solution.value
  best :
    ∀ t, problem.IsFeasible t →
      problem.objective * solution.value ≤ problem.objective * t

/-- An answer that says rightly that no value near the favoured bound is feasible. -/
structure IsInfeasibleAnswer
    (problem : OneVariableProblem K)
    (sentinel : K)
    (solution : OneVariableSolution K) : Prop where
  objectiveValue : solution.objectiveValue = sentinel
  noneFeasible :
    ∀ t, problem.IsFeasible t →
      problem.feasTolerance <
        problem.epsilon * |t - problem.favoured|

/-- An iterate at which an iteration finds an answer is optimal. -/
theorem IsReached.optimalAnswer
    {y eigenvalue slope : K}
    {vector : List K}
    (reached : problem.IsReached y)
    (found :
      smallestEigenpair (problem.matrixAt y) true =
        .ok { eigenvalue := eigenvalue, eigenvector := some vector })
    (feasible : -problem.feasTolerance ≤ eigenvalue) :
    problem.IsOptimalAnswer (problem.optimalAt y vector slope) where
  lower := reached.lower
  upper := reached.upper
  eigenvalue := ⟨_, found, feasible⟩
  objectiveValue := rfl
  best := fun t isFeasible => objective_mul_le (reached.ahead t isFeasible)

/-- Where the slope is too small, only values far from the favoured bound can be feasible. -/
theorem IsReached.noneFeasible_of_flat
    {y eigenvalue slope : K}
    (posed : problem.IsPosed)
    (reached : problem.IsReached y)
    (infeasible : eigenvalue < -problem.feasTolerance)
    (flat : problem.direction * slope ≤ problem.epsilon)
    {t : K}
    (feasible : problem.IsFeasible t)
    (nonneg : 0 ≤ eigenvalue + slope * (t - y)) :
    problem.feasTolerance < problem.epsilon * |t - problem.favoured| := by
  have start := (between_iff.mp ⟨reached.lower, reached.upper⟩).1
  have ahead := reached.ahead t feasible
  have sameProduct :
      slope * (t - y) =
        problem.direction * slope * (problem.direction * (t - y)) := by
    linear_combination
      (-(slope * (t - y))) * problem.direction_mul_self
  calc
    problem.feasTolerance < slope * (t - y) := by linarith
    _ = problem.direction * slope * (problem.direction * (t - y)) :=
      sameProduct
    _ ≤ problem.epsilon * (problem.direction * (t - y)) :=
      mul_le_mul_of_nonneg_right flat (by rw [mul_sub]; linarith)
    _ ≤ problem.epsilon * (problem.direction * (t - problem.favoured)) :=
      mul_le_mul_of_nonneg_left (by rw [mul_sub, mul_sub]; linarith)
        posed.epsilon
    _ = problem.epsilon * |t - problem.favoured| := by
      rw [abs_sub_favoured (start.trans ahead)]

/-- The next iterate is reached if it is not too far. -/
theorem IsReached.next
    {y eigenvalue slope : K}
    (reached : problem.IsReached y)
    (infeasible : eigenvalue < 0)
    (steep : 0 < problem.direction * slope)
    (nonneg :
      ∀ t, problem.IsFeasible t → 0 ≤ eigenvalue + slope * (t - y))
    (inside :
      problem.direction * (y - eigenvalue / slope) ≤
        problem.direction * problem.limit) :
    problem.IsReached (y - eigenvalue / slope) := by
  have start := (between_iff.mp ⟨reached.lower, reached.upper⟩).1
  have further := direction_lt_next y steep infeasible
  obtain ⟨lower, upper⟩ :=
    between_iff.mpr ⟨start.trans further.le, inside⟩
  refine ⟨lower, upper, ?_⟩
  intro t feasible
  exact direction_next_le steep (nonneg t feasible)

/-- A later iterate lies further from the favoured bound. -/
def Further
    (problem : OneVariableProblem K)
    (earlier later : K) :
    Prop :=
  problem.direction * earlier < problem.direction * later

/-- The first of the iterates is the one that they start from. -/
theorem exists_iteratesFrom_eq
    (problem : OneVariableProblem K)
    (remaining : Nat)
    (y : K) :
    ∃ later, problem.iteratesFrom remaining y = y :: later := by
  cases remaining with
  | zero => exact ⟨[], rfl⟩
  | succ remaining =>
      unfold iteratesFrom
      cases problem.nextIterate y with
      | none => exact ⟨[], rfl⟩
      | some next =>
          simp only
          split
          · exact ⟨[next], rfl⟩
          · exact ⟨_, rfl⟩

/--
Newton's method from a reached iterate: it does not fail, its answers are right and
given at the last iterate, and every iterate lies further than the one before.
-/
theorem IsPosed.newtonFrom_spec
    (posed : problem.IsPosed)
    (sentinel : K)
    (remaining : Nat)
    {y : K}
    (reached : problem.IsReached y) :
    (problem.iteratesFrom remaining y).IsChain problem.Further ∧
      ∃ answer,
        problem.newtonFrom sentinel remaining y = .ok answer ∧
          ∀ solution, answer = some solution →
            (problem.IsOptimalAnswer solution ∨
                problem.IsInfeasibleAnswer sentinel solution) ∧
              (problem.iteratesFrom remaining y).getLast? =
                some solution.value := by
  induction remaining generalizing y with
  | zero =>
      exact ⟨.singleton y, none, rfl, nofun⟩
  | succ remaining inductionHypothesis =>
      obtain ⟨vector, found, iteration⟩ :=
        posed.iteration reached.lower reached.upper sentinel remaining
      have nonneg (t : K) (feasible : problem.IsFeasible t) :=
        posed.supergradient y vector feasible
      have negative
          (infeasible :
            (problem.matrixAt y).quadraticForm vector <
              -problem.feasTolerance) :
          (problem.matrixAt y).quadraticForm vector < 0 :=
        infeasible.trans_le (neg_nonpos.mpr posed.feasTolerance)
      cases iteration with
      | answers feasible solved stays =>
          rw [solved, stays]
          refine ⟨.singleton y, _, rfl, ?_⟩
          rintro solution ⟨⟩
          exact ⟨.inl (reached.optimalAnswer found feasible), rfl⟩
      | isStuck infeasible flat solved stays =>
          rw [solved, stays]
          refine ⟨.singleton y, _, rfl, ?_⟩
          rintro solution ⟨⟩
          refine ⟨.inr ⟨rfl, ?_⟩, rfl⟩
          intro t feasible
          exact
            reached.noneFeasible_of_flat posed infeasible flat feasible
              (nonneg t feasible)
      | exceeds infeasible steep beyond solved moves =>
          have upwards := posed.epsilon.trans_lt steep
          rw [solved, moves]
          refine ⟨?_, _, rfl, ?_⟩
          · exact
              .cons_cons (direction_lt_next y upwards (negative infeasible))
                (.singleton _)
          · rintro solution ⟨⟩
            refine ⟨.inr ⟨rfl, ?_⟩, rfl⟩
            intro t feasible
            -- a feasible value would lie beyond the iterate, hence beyond the limit
            have further := direction_next_le upwards (nonneg t feasible)
            have inside :=
              (between_iff.mp ⟨feasible.lower, feasible.upper⟩).2
            exact absurd (beyond.trans_le further) (not_lt.mpr inside)
      | continues infeasible steep inside solved moves =>
          have upwards := posed.epsilon.trans_lt steep
          have nextReached :=
            reached.next (negative infeasible) upwards nonneg inside
          obtain ⟨chain, answer, nextSolved, nextSpec⟩ :=
            inductionHypothesis nextReached
          have further := direction_lt_next y upwards (negative infeasible)
          obtain ⟨later, isCons⟩ :=
            exists_iteratesFrom_eq problem remaining
              (y - (problem.matrixAt y).quadraticForm vector /
                problem.slopeMatrix.quadraticForm vector)
          rw [isCons] at chain nextSpec
          rw [solved, moves, isCons]
          refine ⟨.cons_cons further chain, answer, nextSolved, ?_⟩
          intro solution isAnswer
          rw [List.getLast?_cons_cons]
          exact nextSpec solution isAnswer

/--
Newton's method with the sentinel beyond all objective values: it does not fail.  An
answer that is not infeasible lies between the bounds, is feasible up to the
tolerance and as good as every feasible value.  If the answer is infeasible, no value
is feasible that `epsilon` times its distance from the favoured bound does not put
beyond the tolerance.  The iterates start at the favoured bound, each one lies
strictly further from it than the one before, and the answer is given at the last.
-/
theorem newton_is_sound_and_optimal
    (posed : problem.IsPosed)
    {sentinel : K}
    (bounded :
      ∀ t, problem.lower ≤ t → t ≤ problem.upper →
        |problem.objective * t| < sentinel)
    (iterationLimit : Nat) :
    (∃ answer, problem.newton sentinel iterationLimit = .ok answer) ∧
      (∀ solution,
        problem.newton sentinel iterationLimit = .ok (some solution) →
          (solution.isInfeasible sentinel = false →
              problem.IsOptimalAnswer solution) ∧
            (solution.isInfeasible sentinel = true →
              ∀ t, problem.lower ≤ t → t ≤ problem.upper →
                problem.epsilon * |t - problem.favoured| ≤
                    problem.feasTolerance →
                  ¬ IsPositiveSemidefinite (problem.slackAt t)) ∧
            (problem.iterates sentinel iterationLimit).getLast? =
              some solution.value) ∧
      (∀ first ∈ (problem.iterates sentinel iterationLimit).head?,
        first = problem.favoured) ∧
      (problem.iterates sentinel iterationLimit).IsChain problem.Further := by
  unfold newton iterates
  by_cases unbounded : sentinel ≤ |problem.favoured|
  · rw [if_pos unbounded]
    have noAnswer :
        (if sentinel ≤ Scalar.abs problem.favoured then .ok none
          else
            problem.newtonFrom sentinel iterationLimit problem.favoured) =
          .ok none :=
      if_pos unbounded
    rw [noAnswer]
    exact ⟨⟨none, rfl⟩, nofun, nofun, .nil⟩
  · obtain ⟨chain, answer, solved, isRight⟩ :=
      posed.newtonFrom_spec sentinel iterationLimit posed.favoured_isReached
    obtain ⟨later, isCons⟩ :=
      exists_iteratesFrom_eq problem iterationLimit problem.favoured
    have started :
        (if sentinel ≤ Scalar.abs problem.favoured then .ok none
          else
            problem.newtonFrom sentinel iterationLimit problem.favoured) =
          .ok answer :=
      (if_neg unbounded).trans solved
    rw [if_neg unbounded, started]
    refine ⟨⟨answer, rfl⟩, ?_, ?_, chain⟩
    · rintro solution isSolution
      obtain ⟨answers, isLast⟩ :=
        isRight solution (Except.ok.inj isSolution)
      refine ⟨?_, ?_, isLast⟩
      · intro feasible
        rcases answers with isOptimal | isInfeasible
        · exact isOptimal
        · rw [OneVariableSolution.isInfeasible, isInfeasible.objectiveValue,
            decide_eq_false_iff_not] at feasible
          exact absurd le_rfl feasible
      · intro infeasible t lower upper near semidefinite
        rcases answers with isOptimal | isInfeasible
        · have below :=
            (le_abs_self _).trans_lt
              (bounded solution.value isOptimal.lower isOptimal.upper)
          rw [OneVariableSolution.isInfeasible, decide_eq_true_eq,
            isOptimal.objectiveValue] at infeasible
          exact absurd infeasible (not_le.mpr below)
        · have far :=
            isInfeasible.noneFeasible t ⟨lower, upper, semidefinite⟩
          exact absurd near (not_le.mpr far)
    · rw [isCons]
      rintro first ⟨⟩
      rfl

end Iterations

section Examples

/-- Minimise `y` such that `2 y - 6` is not negative and `0 ≤ y ≤ 10`. -/
def shiftedProblem : OneVariableProblem ℚ :=
  {
    objective := 1
    lower := 0
    upper := 10
    size := 1
    constant := ⟨[0], [0], [6]⟩
    matrix := ⟨[0], [0], [2]⟩
    feasTolerance := 0
    epsilon := 1 / 1000
  }

theorem shiftedProblem_isPosed : shiftedProblem.IsPosed where
  ordered := by decide +kernel
  feasTolerance := by decide +kernel
  epsilon := by decide +kernel
  nonempty := by decide
  constant := by
    change ∀ entry ∈ shiftedProblem.constant.entries, entry.row < 1 ∧ entry.col < 1
    decide
  matrix := by
    change ∀ entry ∈ shiftedProblem.matrix.entries, entry.row < 1 ∧ entry.col < 1
    decide
  eigenpairs := by
    intro y _ _
    have isSize : (shiftedProblem.matrixAt y).size = 1 :=
      (shiftedProblem.matrixAt_shape y).size
    refine ⟨[1], ?_⟩
    simp [smallestEigenpair, EigenMethod.smallest, EigenMethod.forSize, isSize,
      SquareMatrix.quadraticForm]

theorem shiftedProblem_solved :
    ∃ solution,
      shiftedProblem.newton 100 10 = .ok (some solution) ∧
        solution.value = 3 ∧
        shiftedProblem.IsOptimalAnswer solution ∧
        shiftedProblem.iterates 100 10 = [0, 3] := by
  have bounded (t : ℚ) (lower : 0 ≤ t) (upper : t ≤ 10) :
      |shiftedProblem.objective * t| < 100 := by
    change |1 * t| < 100
    rw [one_mul, abs_of_nonneg lower]
    linarith
  have solved :
      shiftedProblem.newton 100 10 =
        .ok
          (some
            {
              objectiveValue := 3
              value := 3
              certificate := [1]
              slope := 2
            }) := by
    decide +kernel
  obtain ⟨_, isRight, _⟩ :=
    newton_is_sound_and_optimal shiftedProblem_isPosed bounded 10
  exact
    ⟨_, solved, rfl, (isRight _ solved).1 (by decide +kernel),
      by decide +kernel⟩

end Examples

end OneVariableProblem

end SdpRelay
