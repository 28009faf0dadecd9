import SdpRelay.Proofs.CheckedOneVariable
import SdpRelay.Proofs.FeasibleStops
import SdpRelay.Proofs.NewtonSteps

namespace SdpRelay

/-!
# Primal certificates

Where a solve goes without its solver, the primal side of its answer is put
together from the eigenvectors that it came across: the matrix of a block is a
multiple of `v v'` for an eigenvector `v` of the block, and the multiplier of a
bound is the objective coefficient or nothing.  The inner product of a symmetric
matrix `A` with `v v'` is the quadratic form `v' A v`.
-/

open Matrix

variable {K : Type} [ExactField K] {size : Nat}

section RankOne

/-- The entries of a matrix that is given by a formula. -/
theorem SquareMatrix.toMatrix_tabulate (entry : Nat → Nat → K) :
    (SquareMatrix.tabulate size entry).toMatrix size =
      .of fun i j => entry i j := by
  ext i j
  have isPosition : (i + j * size : Nat) < size * size := by
    have rowInside := i.isLt
    have colInside := j.isLt
    nlinarith
  have isCol : (i + j * size : Nat) / size = j := by
    rw [Nat.add_mul_div_right _ _ (Nat.zero_lt_of_lt i.isLt),
      Nat.div_eq_of_lt i.isLt, zero_add]
  simp [toMatrix, get, tabulate, Array.getD, isPosition, isCol,
    Nat.mod_eq_of_lt i.isLt]

/-- The matrix that is made of a vector is a multiple of `v v'`. -/
theorem SquareMatrix.toMatrix_rankOne
    {numbers : List K}
    (isSize : numbers.length = size)
    (factor : K) :
    (SquareMatrix.rankOne numbers factor).toMatrix size =
      factor • vecMulVec (vectorOf size numbers) (vectorOf size numbers) := by
  subst isSize
  rw [rankOne, toMatrix_tabulate]
  ext i j
  simp only [of_apply, Matrix.smul_apply, vecMulVec_apply, smul_eq_mul,
    vectorOf]
  ring

/-- Its inner product with a matrix is a multiple of the quadratic form. -/
theorem SquareMatrix.trace_mul_rankOne
    (matrix : Matrix (Fin size) (Fin size) K)
    {numbers : List K}
    (isSize : numbers.length = size)
    (factor : K) :
    (matrix * (SquareMatrix.rankOne numbers factor).toMatrix size).trace =
      factor *
        (vectorOf size numbers ⬝ᵥ matrix *ᵥ vectorOf size numbers) := by
  rw [toMatrix_rankOne isSize, Matrix.mul_smul, trace_smul, mul_vecMulVec,
    trace_vecMulVec, dotProduct_comm, smul_eq_mul]

end RankOne

namespace OneVariableProblem.Stops

variable
  {problem : OneVariableProblem K}
  {sentinel y : K}
  {remaining : Nat}
  {reason : StopReason}
  {solution : OneVariableSolution K}

/-- The certificate of a solution has a number for each row of the block. -/
theorem certificate_length
    (stops : problem.Stops sentinel remaining y reason solution) :
    solution.certificate.length = problem.size := by
  have taken
      {iterate : K}
      {pair : Eigenpair K}
      (found : smallestEigenpair (problem.matrixAt iterate) true = .ok pair) :
      (problem.certificateOf pair).length = problem.size := by
    unfold certificateOf
    cases isVector : pair.eigenvector with
    | none =>
        exact List.length_replicate
    | some vector =>
        exact
          (eigenvector_length found isVector).trans
            (problem.matrixAt_shape iterate).size
  induction stops with
  | empty isEmpty => exact isEmpty.symm
  | feasible _ found => exact taken found
  | flat _ found => exact taken found
  | beyond _ found => exact taken found
  | further _ _ _ _ _ _ _ inductionHypothesis => exact inductionHypothesis

/-- Its slope is the quadratic form of the matrix at the certificate. -/
theorem slope_eq
    (inside : problem.matrix.Inside problem.size)
    (stops : problem.Stops sentinel remaining y reason solution) :
    solution.slope =
      vectorOf problem.size solution.certificate ⬝ᵥ
        problem.matrix.symmetric problem.size *ᵥ
          vectorOf problem.size solution.certificate := by
  have isForm (numbers : List K) :
      problem.slopeMatrix.quadraticForm numbers =
        vectorOf problem.size numbers ⬝ᵥ
          problem.matrix.symmetric problem.size *ᵥ
            vectorOf problem.size numbers := by
    have isSize : problem.slopeMatrix.size = problem.size :=
      (problem.matrix.addTo_shape _ _).size
    rw [SquareMatrix.quadraticForm_eq isSize, toMatrix_slopeMatrix inside]
  induction stops with
  | empty isEmpty =>
      have noRow : IsEmpty (Fin problem.size) := by
        rw [isEmpty]
        infer_instance
      simp [optimalAt, dotProduct]
  | feasible => exact isForm _
  | flat => exact isForm _
  | beyond => exact isForm _
  | further _ _ _ _ _ _ _ inductionHypothesis => exact inductionHypothesis

end OneVariableProblem.Stops

/-- The coefficient matrix of a variable in a block. -/
def Block.coefficient
    (block : Block K)
    (var : Nat) :
    Matrix (Fin block.size) (Fin block.size) K :=
  ((BlockTerm.ofVariable block.terms var).map fun term =>
    term.entries.symmetric block.size).sum

/-- It is the matrix that the block lists first, if that is the only one. -/
theorem Block.symmetric_firstMatrix
    {block : Block K}
    {var : Nat}
    (once : (BlockTerm.ofVariable block.terms var).length ≤ 1) :
    (SolveTask.firstMatrix block var).symmetric block.size =
      block.coefficient var := by
  have found :
      (BlockTerm.ofVariable block.terms var).head? =
        block.terms.find? fun term => term.var == var :=
    List.head?_filter
  rw [SolveTask.firstMatrix, ← found, Block.coefficient]
  rcases shape : BlockTerm.ofVariable block.terms var with
    _ | ⟨first, _ | ⟨second, later⟩⟩
  · rfl
  · simp
  · simp [shape] at once

/--
The objective coefficient of a variable is the inner product of its coefficient
matrix with the primal matrix plus the multipliers of its bounds, the one of the
upper bound counted negative.
-/
def IsStationary
    (objective : K)
    (coefficient primal : Matrix (Fin size) (Fin size) K)
    (lower upper : K) :
    Prop :=
  objective = (coefficient * primal).trace + lower - upper

instance
    (objective : K)
    (coefficient primal : Matrix (Fin size) (Fin size) K)
    (lower upper : K) :
    Decidable (IsStationary objective coefficient primal lower upper) :=
  inferInstanceAs
    (Decidable (objective = (coefficient * primal).trace + lower - upper))

/--
Where the multipliers make up the objective or nothing, a matrix made of a vector is
stationary exactly if it contributes what is missing.
-/
theorem isStationary_rankOne_iff
    {near : Prop}
    [Decidable near]
    {objective lower upper : K}
    {numbers : List K}
    (coefficient : Matrix (Fin size) (Fin size) K)
    (isSize : numbers.length = size)
    (factor : K)
    (difference : lower - upper = if near then objective else 0) :
    IsStationary objective coefficient
        ((SquareMatrix.rankOne numbers factor).toMatrix size) lower upper ↔
      factor *
          (vectorOf size numbers ⬝ᵥ coefficient *ᵥ vectorOf size numbers) =
        if near then 0 else objective := by
  rw [IsStationary, add_sub_assoc, difference,
    SquareMatrix.trace_mul_rankOne coefficient isSize]
  split
  · constructor
    · intro balanced
      linarith
    · intro noShare
      rw [noShare, zero_add]
  · rw [add_zero]
    exact eq_comm

namespace Session

variable {σ τ : Type}

/-- The bound of the variable of a result that the objective favours. -/
def favouredBound
    (session : Session σ τ K)
    (result : OneVariableResult K) :
    K :=
  if 0 ≤ session.store.objective.getD result.var 0 then
    session.run.work.bounds.lowerAt result.var
  else
    session.run.work.bounds.upperAt result.var

/-- The value of a result lies near that bound. -/
def IsNearFavoured
    (session : Session σ τ K)
    (result : OneVariableResult K) :
    Prop :=
  |result.value - session.favouredBound result| <
    session.settings.feasTolerance

instance
    (session : Session σ τ K)
    (result : OneVariableResult K) :
    Decidable (session.IsNearFavoured result) :=
  inferInstanceAs
    (Decidable
      (|result.value - session.favouredBound result| <
        session.settings.feasTolerance))

/-- The factor of the primal matrix of a result. -/
def primalFactor
    (session : Session σ τ K)
    (result : OneVariableResult K) :
    K :=
  if session.settings.feasTolerance < result.slope then
    session.store.objective.getD result.var 0 / result.slope
  else
    1

/--
Near the favoured bound, the multipliers of an optimum make up the whole objective
coefficient, and nothing elsewhere.
-/
theorem oneVariableMultipliers_of_optimal
    {session : Session σ τ K}
    {result : OneVariableResult K}
    (known : result.var < session.store.variableCount)
    (isOptimal : result.optimal = true) :
    let multipliers := session.oneVariableMultipliers result
    multipliers.1.getD result.var 0 - multipliers.2.getD result.var 0 =
      if session.IsNearFavoured result then
        session.store.objective.getD result.var 0
      else
        0 := by
  have isThere (value : K) :
      (session.multiplierOf result.var value).getD result.var 0 = value := by
    simp [multiplierOf, known]
  have isNowhere : session.noMultipliers.getD result.var 0 = 0 := by
    simp [noMultipliers]
  unfold oneVariableMultipliers IsNearFavoured favouredBound
  rw [if_pos isOptimal]
  by_cases sign : 0 ≤ session.store.objective.getD result.var 0
  · have notDown : ¬ session.store.objective.getD result.var 0 < 0 :=
      not_lt.mpr sign
    simp only [scalarAbs_eq, sign, notDown, true_and, false_and, if_true,
      if_false]
    split
    · rw [isThere, isNowhere, sub_zero]
    · rw [isNowhere, sub_zero]
  · simp only [scalarAbs_eq, sign, not_le.mp sign, true_and, false_and,
      if_false]
    split
    · rw [isThere, isNowhere, zero_sub, neg_neg]
    · rw [isNowhere, sub_zero]

/-- The product of the factor with the slope is the objective, unless no factor is taken. -/
theorem primalFactor_mul_slope
    (session : Session σ τ K)
    (result : OneVariableResult K) :
    session.primalFactor result * result.slope =
      if session.settings.feasTolerance < result.slope ∧
          result.slope ≠ 0 then
        session.store.objective.getD result.var 0
      else
        result.slope := by
  unfold primalFactor
  by_cases large : session.settings.feasTolerance < result.slope
  · rw [if_pos large]
    by_cases isZero : result.slope = 0
    · rw [if_neg fun both => both.2 isZero, isZero, mul_zero]
    · rw [if_pos ⟨large, isZero⟩, div_mul_cancel₀ _ isZero]
  · rw [if_neg large, if_neg fun both => large both.1, one_mul]

/-- What that product has to be, in terms of the slope. -/
theorem primalFactor_mul_slope_iff
    {near : Prop}
    [Decidable near]
    (session : Session σ τ K)
    (result : OneVariableResult K) :
    let objective := session.store.objective.getD result.var 0
    let tolerance := session.settings.feasTolerance
    session.primalFactor result * result.slope =
        (if near then 0 else objective) ↔
      if near then
        result.slope = 0 ∨ (tolerance < result.slope ∧ objective = 0)
      else
        result.slope = objective ∨
          (tolerance < result.slope ∧ result.slope ≠ 0) := by
  intro objective tolerance
  rw [primalFactor_mul_slope]
  by_cases large : tolerance < result.slope ∧ result.slope ≠ 0
  · rw [if_pos large]
    split
    · simp [large.1, large.2, objective]
    · simp [large.1, large.2, objective]
  · rw [if_neg large]
    split
    · constructor
      · exact .inl
      · rintro (isZero | ⟨exceeds, -⟩)
        · exact isZero
        · exact not_not.mp fun nonzero => large ⟨exceeds, nonzero⟩
    · simp [large]

/--
Whether the multipliers and the matrix of an optimum for one free variable in a
block are stationary.  Near the favoured bound the multiplier makes up the whole
objective, so the matrix must not contribute anything; elsewhere the matrix has to
make it up.  If the block lists the variable once, the matrix contributes the
objective where its slope exceeds the tolerance, and the slope elsewhere.
-/
theorem oneVariable_stationary_iff
    [Solver σ K]
    {session next : Session σ NewtonMethod K}
    {options : SolveOptions K}
    {watch : Nat → K}
    {block : Block K}
    {result : OneVariableResult K}
    (reachable : session.Reachable)
    (solved : solve options watch session = .ok () next)
    (isVerdict : next.run.verdict = .oneVariable result)
    (isOptimal : result.optimal = true)
    (oneBlock : session.store.blocks = [block]) :
    ∃ lowers uppers primal certificate,
      next.boundMultipliers = .ok (some (lowers, uppers)) ∧
        next.primalBlocks = .ok (some [primal]) ∧
        primal.size = block.size ∧
        result.certificate = some certificate ∧
        let objective := session.store.objective.getD result.var 0
        let coefficient := block.coefficient result.var
        let form :=
          vectorOf block.size certificate ⬝ᵥ
            coefficient *ᵥ vectorOf block.size certificate
        let stationary :=
          IsStationary objective coefficient (primal.toMatrix block.size)
            (lowers.getD result.var 0) (uppers.getD result.var 0)
        (stationary ↔
            next.primalFactor result * form =
              if next.IsNearFavoured result then 0 else objective) ∧
          ((BlockTerm.ofVariable block.terms result.var).length ≤ 1 →
            result.slope = form ∧
              (stationary ↔
                if next.IsNearFavoured result then
                  result.slope = 0 ∨
                    (session.settings.feasTolerance < result.slope ∧
                      objective = 0)
                else
                  result.slope = objective ∨
                    (session.settings.feasTolerance < result.slope ∧
                      result.slope ≠ 0))) := by
  obtain ⟨_, sameStore, sameSettings⟩ := solve_sameAssignment solved
  have notUnsolved : next.run.verdict ≠ .unsolved := by
    rw [isVerdict]
    nofun
  obtain ⟨fixedObjective, consistent, presolved, given⟩ :=
    (solve_exits solved notUnsolved).of_oneVariable isVerdict
  obtain ⟨solution, single, stops, isResult⟩ :=
    SolveTask.pathResult_optimal given isOptimal oneBlock
  obtain ⟨program, represents, indexed⟩ := reachable.atRest.held
  have accepted : block.Acceptable session.store.variableCount :=
    (represents.inRange indexed).2 block
      (by rw [oneBlock]; exact List.mem_singleton_self block)
  have known : result.var < next.store.variableCount := by
    rw [sameStore, ← reachable.presolve_lowerLength presolved]
    have active : result.var ∈ next.run.work.activeVariables := by
      rw [single]
      exact List.mem_singleton_self result.var
    exact (Workspace.mem_activeVariables.mp active).1
  have sameSlope : result.slope = solution.slope := by
    rw [isResult]
    rfl
  have sameCertificate : result.certificate = some solution.certificate := by
    rw [isResult]
    rfl
  have length : solution.certificate.length = block.size :=
    stops.certificate_length
  refine
    ⟨(next.oneVariableMultipliers result).1,
      (next.oneVariableMultipliers result).2,
      SquareMatrix.rankOne solution.certificate (next.primalFactor result),
      solution.certificate, ?_, ?_, length, sameCertificate, ?_⟩
  · simp only [boundMultipliers, isVerdict]
  · simp [primalBlocks, isVerdict, oneVariableBlocks, sameCertificate,
      isOptimal, primalFactor]
  intro objective coefficient form stationary
  have difference := oneVariableMultipliers_of_optimal known isOptimal
  rw [sameStore] at difference
  have general :
      stationary ↔
        next.primalFactor result * form =
          if next.IsNearFavoured result then 0 else objective :=
    isStationary_rankOne_iff coefficient length _ difference
  refine ⟨general, ?_⟩
  intro once
  have slopeIsForm : result.slope = form := by
    rw [sameSlope,
      stops.slope_eq (Checked.firstMatrix_inside accepted result.var)]
    simp only [form, coefficient]
    rw [← Block.symmetric_firstMatrix once]
    rfl
  refine ⟨slopeIsForm, ?_⟩
  rw [general, ← slopeIsForm, ← sameSettings]
  simp only [objective, ← sameStore]
  exact next.primalFactor_mul_slope_iff result

/-- Between its bounds and with a slope above the tolerance, an optimum is stationary. -/
theorem pricedSession_is_stationary :
    ∃ lowers uppers primal,
      (solved (pricedSession 3)).boundMultipliers =
          .ok (some (lowers, uppers)) ∧
        (solved (pricedSession 3)).primalBlocks = .ok (some [primal]) ∧
        IsStationary 3 (pricedBlock.coefficient 0) (primal.toMatrix 1)
          (lowers.getD 0 0) (uppers.getD 0 0) := by
  have isVerdict :
      (solved (pricedSession 3)).run.verdict =
        .oneVariable
          {
            optimal := true
            var := 0
            objectiveValue := 12
            value := 4
            certificate := some [1]
            slope := 1
          } := by
    decide +kernel
  have ended :
      solve patientOptions (fun _ => 0) (pricedSession 3) =
        .ok () (solved (pricedSession 3)) :=
    eq_ok_of_answerOf (by decide +kernel)
  have reachable : (pricedSession 3).Reachable := loaded_reachable _ _
  have oneBlock : (pricedSession 3).store.blocks = [pricedBlock] := by
    decide +kernel
  have objective : (pricedSession 3).store.objective = [3] := by
    decide +kernel
  obtain ⟨lowers, uppers, primal, _, multipliers, blocks, _, _, _, listedOnce⟩ :=
    oneVariable_stationary_iff reachable ended isVerdict rfl oneBlock
  have isStationary := (listedOnce (by decide +kernel)).2
  rw [if_neg (by decide +kernel), objective] at isStationary
  exact
    ⟨lowers, uppers, primal, multipliers, blocks,
      isStationary.mpr (.inr (by decide +kernel))⟩

/-- A block with one entry for the only variable. -/
def slopedBlock
    (slope constant : ℚ) :
    Block ℚ :=
  {
    size := 1
    terms :=
      [{ var := 0, entries := { rows := [0], cols := [0], values := [slope] } }]
    constant := { rows := [0], cols := [0], values := [constant] }
  }

/-- A session with that block and a variable between zero and ten. -/
def slopedSession
    (objective slope constant : ℚ) :
    Session (ScriptedSolver ℚ) NewtonMethod ℚ :=
  loaded Settings.standard
    {
      objective := [objective]
      lower := [0]
      upper := [10]
      integral := none
      blocks := [slopedBlock slope constant]
      rows := []
    }

/-- The matrix of size one with the entry one. -/
def unitEntry : SquareMatrix ℚ :=
  { size := 1, data := #[1] }

/--
Two optima that are not stationary.  At the lower bound, the multiplier of the bound
and the matrix both make up the objective.  With a negative objective, the slope
between the bounds is negative, and the matrix keeps the factor one.
-/
theorem slopedSession_is_not_stationary :
    ((solved (slopedSession 1 1 (-1))).run.verdict =
        .oneVariable
          {
            optimal := true
            var := 0
            objectiveValue := 0
            value := 0
            certificate := some [1]
            slope := 1
          } ∧
      (solved (slopedSession 1 1 (-1))).boundMultipliers =
        .ok (some ([1], [0])) ∧
      (solved (slopedSession 1 1 (-1))).primalBlocks =
        .ok (some [unitEntry]) ∧
      ¬ IsStationary 1 ((slopedBlock 1 (-1)).coefficient 0)
        (unitEntry.toMatrix _) 1 0) ∧
    (solved (slopedSession (-1) (-2) (-8))).run.verdict =
        .oneVariable
          {
            optimal := true
            var := 0
            objectiveValue := -4
            value := 4
            certificate := some [1]
            slope := -2
          } ∧
      (solved (slopedSession (-1) (-2) (-8))).boundMultipliers =
        .ok (some ([0], [0])) ∧
      (solved (slopedSession (-1) (-2) (-8))).primalBlocks =
        .ok (some [unitEntry]) ∧
      ¬ IsStationary (-1) ((slopedBlock (-2) (-8)).coefficient 0)
        (unitEntry.toMatrix _) 0 0 := by
  refine ⟨⟨?_, ?_, ?_, ?_⟩, ?_, ?_, ?_, ?_⟩
  all_goals decide +kernel

end Session

end SdpRelay
