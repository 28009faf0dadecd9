import SdpRelay.Proofs.NewtonStops
import SdpRelay.Proofs.OneVariablePath
import SdpRelay.Proofs.SolveExits

namespace SdpRelay

/-!
# Feasible stops

An answer of Newton's method does not say why the method stopped.  One without a
feasible value carries the sentinel as its objective value, and whoever reads an
answer compares its objective value with the sentinel.  So an answer at a feasible
iterate is taken for one without a feasible value if the objective reaches the
sentinel there.
-/

variable {α : Type} [Scalar α]

namespace OneVariableProblem

variable {problem : OneVariableProblem α}

/--
A solution at a feasible iterate is taken for infeasible exactly if the objective
reaches the sentinel there, and the verdict of a solve on that problem follows:
such a solution makes it an optimum exactly if the objective stays below.
-/
theorem feasible_stop_is_optimal_iff
    (σ : Type)
    [Solver σ α]
    {sentinel : α}
    {iterationLimit : Nat}
    {solution : OneVariableSolution α}
    (finite : ¬ sentinel ≤ Scalar.abs problem.favoured)
    (stops :
      problem.Stops sentinel iterationLimit problem.favoured .feasible
        solution) :
    problem.newton sentinel iterationLimit = .ok (some solution) ∧
      (solution.isInfeasible sentinel = false ↔
        ¬ sentinel ≤ problem.objective * solution.value) ∧
      ∀ (task : SolveTask α) (run : SolveRun σ NewtonMethod α)
        (block : Block α) (var : Nat) (fixedObjective : α),
        task.sentinel = sentinel →
        run.oneVariable.iterationLimit = iterationLimit →
        run.work.activeVariables = [var] →
        task.store.blocks = [block] →
        task.oneVariableProblem run.work block var = problem →
        ∃ result next,
          SolveM.solveUndecided task fixedObjective run = .ok () next ∧
            next.verdict = .oneVariable result ∧
            result.value = solution.value ∧
            (result.optimal = true ↔
              ¬ sentinel ≤ problem.objective * solution.value) := by
  have given := newton_eq_some_iff.mpr ⟨finite, .feasible, stops⟩
  have label :
      solution.isInfeasible sentinel = false ↔
        ¬ sentinel ≤ problem.objective * solution.value := by
    rw [OneVariableSolution.isInfeasible, decide_eq_false_iff_not,
      stops.objectiveValue_of_feasible]
  refine ⟨given, label, ?_⟩
  rintro task run block var fixedObjective rfl rfl single oneBlock rfl
  have solved (phases : Phases) :
      SolveM.solveOneVariable task fixedObjective
          { run with phases := phases } =
        .ok (some (task.resultOf fixedObjective var solution))
          { run with phases := phases } :=
    SolveM.solveOneVariable_newton fixedObjective single oneBlock given
  have settled :
      Ends
        (fun _ next =>
          next.verdict =
            .oneVariable (task.resultOf fixedObjective var solution))
        (fun _ _ => False)
        (SolveM.solveUndecided task fixedObjective run) := by
    rw [SolveM.solveUndecided_eq]
    have timed :
        Ends
          (fun answer _ =>
            answer = some (task.resultOf fixedObjective var solution))
          (fun _ _ => False)
          (SolveM.timed "onevar"
            (SolveM.solveOneVariable task fixedObjective) run) := by
      refine SolveM.timed_ends ?_
      rw [solved]
      exact rfl
    refine Ends.bind timed (fun _ _ => id) ?_
    rintro _ next rfl
    exact rfl
  revert settled
  cases result : SolveM.solveUndecided task fixedObjective run with
  | ok answer next =>
      intro isVerdict
      refine ⟨_, next, rfl, isVerdict, rfl, ?_⟩
      rw [← label]
      simp [SolveTask.resultOf]
  | error fault next =>
      exact False.elim

end OneVariableProblem

/--
Over an exact field, the path for one free variable gives an optimum for a block
only from a feasible iterate of Newton's method.
-/
theorem SolveTask.pathResult_optimal
    {K : Type}
    [ExactField K]
    {task : SolveTask K}
    {work : Workspace K}
    {fixedObjective : K}
    {method : NewtonMethod}
    {result : OneVariableResult K}
    {block : Block K}
    (given :
      task.pathResult work fixedObjective method = .ok (some result))
    (isOptimal : result.optimal = true)
    (oneBlock : task.store.blocks = [block]) :
    ∃ solution,
      let problem := task.oneVariableProblem work block result.var
      work.activeVariables = [result.var] ∧
        problem.Stops task.sentinel method.iterationLimit problem.favoured
          .feasible solution ∧
        result = task.resultOf fixedObjective result.var solution := by
  obtain ⟨var, single, ⟨noBlock, _⟩ | ⟨other, solution, next, isOther, answer, isResult⟩⟩ :=
    SolveTask.pathResult_eq_some given
  · rw [oneBlock] at noBlock
    cases noBlock
  obtain rfl : block = other := by
    simpa using oneBlock.symm.trans isOther
  have sameVar : result.var = var := by
    rw [isResult]
    rfl
  subst sameVar
  refine ⟨solution, single, ?_, isResult⟩
  have answered :
      (task.oneVariableProblem work block result.var).newton task.sentinel
          method.iterationLimit =
        .ok (some solution) := by
    simp only [OneVariableSolver.solve] at answer
    split at answer
    · rename_i newton
      cases answer
      exact newton
    · cases answer
  refine OneVariableProblem.stops_feasible answered ?_
  intro isSentinel
  rw [isResult] at isOptimal
  simp [SolveTask.resultOf, OneVariableSolution.isInfeasible, isSentinel]
    at isOptimal

namespace Session

open OneVariableProblem

/-- The value must be at least four, and at most ten. -/
def pricedBlock : Block ℚ :=
  {
    size := 1
    terms :=
      [{ var := 0, entries := { rows := [0], cols := [0], values := [1] } }]
    constant := { rows := [0], cols := [0], values := [4] }
  }

/-- Minimise a price times that value. -/
def pricedProgram (price : ℚ) : Program ℚ :=
  {
    objective := [price]
    lower := [0]
    upper := [10]
    integral := none
    blocks := [pricedBlock]
    rows := []
  }

/-- A session that holds that program. -/
def pricedSession
    (price : ℚ) :
    Session (ScriptedSolver ℚ) NewtonMethod ℚ :=
  loaded Settings.standard (pricedProgram price)

/-- The task of solving it. -/
def pricedTask (price : ℚ) : SolveTask ℚ :=
  (pricedSession price).task patientOptions (fun _ => 0)

/-- Its run after presolve. -/
def pricedRun (price : ℚ) : SolveRun (ScriptedSolver ℚ) NewtonMethod ℚ :=
  {
    (pricedSession price).run with
    work :=
      (Workspace.empty.presolve (pricedTask price).store standardSentinel
        Settings.standard).1
  }

/-- The problem that is left of it. -/
def pricedProblem (price : ℚ) : OneVariableProblem ℚ :=
  (pricedTask price).oneVariableProblem (pricedRun price).work pricedBlock 0

/-- Its solution at the value four. -/
def pricedSolution (price : ℚ) : OneVariableSolution ℚ :=
  { objectiveValue := price * 4, value := 4, certificate := [1], slope := 1 }

/-- With the price three, the solution is an optimum. -/
theorem pricedProblem_feasible_stop_is_optimal :
    ∃ result next,
      SolveM.solveUndecided (pricedTask 3) 0 (pricedRun 3) = .ok () next ∧
        next.verdict = .oneVariable result ∧
        result.value = 4 ∧
        result.optimal = true := by
  have stops :
      (pricedProblem 3).Stops standardSentinel 100 (pricedProblem 3).favoured
        .feasible (pricedSolution 3) :=
    stops_feasible (by decide +kernel) (by decide +kernel)
  obtain ⟨_, _, verdict⟩ :=
    feasible_stop_is_optimal_iff (ScriptedSolver ℚ) (by decide +kernel) stops
  obtain ⟨result, next, solved, isVerdict, sameValue, isOptimal⟩ :=
    verdict (pricedTask 3) (pricedRun 3) pricedBlock 0 0 (by decide +kernel)
      (by decide +kernel) (by decide +kernel) (by decide +kernel) rfl
  exact
    ⟨result, next, solved, isVerdict, sameValue,
      isOptimal.mpr (by decide +kernel)⟩

/--
With half the sentinel as the price, Newton's method stops at the feasible value
four, and the solve says that the problem is infeasible.
-/
theorem pricedProblem_feasible_stop_is_infeasible :
    let price := standardSentinel / 2
    (pricedProblem price).Stops standardSentinel 100
        (pricedProblem price).favoured .feasible (pricedSolution price) ∧
      (pricedSolution price).isInfeasible standardSentinel = true ∧
      (solved (pricedSession price)).run.verdict =
        .oneVariable
          {
            optimal := false
            var := 0
            objectiveValue := standardSentinel
            value := 4
            certificate := some [1]
            slope := 1
          } := by
  intro price
  have stops :
      (pricedProblem price).Stops standardSentinel 100
        (pricedProblem price).favoured .feasible (pricedSolution price) :=
    stops_feasible (by decide +kernel) (by decide +kernel)
  exact ⟨stops, by decide +kernel, by decide +kernel⟩

end Session

end SdpRelay
