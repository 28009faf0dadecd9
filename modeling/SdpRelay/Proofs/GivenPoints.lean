import Mathlib.Algebra.BigOperators.Fin
import SdpRelay.Proofs.FeasibleStops
import SdpRelay.Proofs.FixedPoints

namespace SdpRelay

/-!
# Points given out without a solver

Where a solve does without its solver, a session gives out the lower bounds of its
workspace, with the value of the path for one free variable put in.  Presolve
replaces these bounds, so they follow from the stored problem and the settings.
But stored bounds that contradict each other end a solve before presolve, and what
is given out then is left from an earlier problem.
-/

section Points

variable {τ α : Type} [Scalar α]

/-- The point that goes with a verdict. -/
def Workspace.pointFor
    (work : Workspace α) :
    Verdict α → List α
  | .oneVariable result => work.bounds.lower.set result.var result.value
  | _ => work.bounds.lower

/-- A task of solving a stored problem, without anything that differs from solve to solve. -/
def Store.bareTask
    (store : Store α)
    (sentinel : α)
    (settings : Settings α) :
    SolveTask α :=
  {
    sentinel := sentinel
    store := store
    settings := settings
    problemNumber := 0
    start := none
    startSetting := .unsolved
    explainsFailure := false
    timeLimit := 0
    watch := fun _ => 0
  }

/-- What the path for one free variable gives does not depend on the rest of a task. -/
theorem SolveTask.pathResult_bareTask
    [OneVariableSolver τ α]
    (task : SolveTask α)
    (work : Workspace α)
    (fixedObjective : α)
    (method : τ) :
    (task.store.bareTask task.sentinel task.settings).pathResult work
        fixedObjective method =
      task.pathResult work fixedObjective method :=
  rfl

/-- The point that a stored problem leads to if it is presolved and no solver has the answer. -/
def Store.givenPoint
    [OneVariableSolver τ α]
    (store : Store α)
    (sentinel : α)
    (settings : Settings α)
    (method : τ) :
    List α :=
  match Workspace.empty.presolve store sentinel settings with
  | (found, .ok (.undecided fixedObjective)) =>
      match (store.bareTask sentinel settings).pathResult found fixedObjective
          method with
      | .ok (some result) => found.pointFor (.oneVariable result)
      | _ => found.bounds.lower
  | (found, _) => found.bounds.lower

/-- Where presolve has decided, the point is made of the bounds that it has found. -/
theorem Store.givenPoint_of_decided
    [OneVariableSolver τ α]
    {store : Store α}
    {sentinel : α}
    {settings : Settings α}
    {before found : Workspace α}
    {outcome : Except EigenFault (PresolveOutcome α)}
    (presolved :
      before.presolve store sentinel settings = (found, outcome))
    (decided : ∀ fixedObjective, outcome ≠ .ok (.undecided fixedObjective))
    (method : τ) :
    store.givenPoint sentinel settings method = found.bounds.lower := by
  have sameOutcome :
      (Workspace.empty.presolve store sentinel settings).2 = outcome := by
    rw [Workspace.presolve_outcome _ before, presolved]
  have sameBounds :
      (Workspace.empty.presolve store sentinel settings).1.bounds =
        found.bounds := by
    rw [Workspace.presolve_bounds, ← Workspace.presolve_bounds before,
      presolved]
  rw [← sameBounds]
  unfold givenPoint
  split
  · rename_i undecided
    rw [undecided] at sameOutcome
    exact absurd sameOutcome.symm (decided _)
  · rename_i other
    rw [other]

/-- Otherwise it is up to the path for one free variable. -/
theorem Store.givenPoint_of_undecided
    [OneVariableSolver τ α]
    {store : Store α}
    {sentinel fixedObjective : α}
    {settings : Settings α}
    {before found : Workspace α}
    (presolved :
      before.presolve store sentinel settings =
        (found, .ok (.undecided fixedObjective)))
    (method : τ) :
    store.givenPoint sentinel settings method =
      match (store.bareTask sentinel settings).pathResult found fixedObjective
          method with
      | .ok (some result) => found.pointFor (.oneVariable result)
      | _ => found.bounds.lower := by
  unfold givenPoint
  rw [Workspace.presolve_forgets presolved Workspace.empty]
  rfl

/-- It has a value for every lower bound. -/
theorem Store.givenPoint_length
    [OneVariableSolver τ α]
    (store : Store α)
    (sentinel : α)
    (settings : Settings α)
    (method : τ) :
    (store.givenPoint sentinel settings method).length =
      (Workspace.empty.presolve store sentinel
        settings).1.bounds.lower.length := by
  unfold givenPoint
  split
  · rename_i undecided
    rw [undecided]
    split
    · exact List.length_set
    · rfl
  · rename_i other
    rw [other]

/-- At the first exit, the point is what the workspace held before. -/
theorem SolveTask.Exit.pointFor_of_contradiction
    [OneVariableSolver τ α]
    {task : SolveTask α}
    {before left : Workspace α}
    {method : τ}
    {verdict : Verdict α}
    (exits : task.Exit before method left verdict)
    (contradict : task.boundsContradict = true) :
    left.pointFor verdict = before.bounds.lower := by
  have consistent : task.boundsContradict ≠ false := by
    rw [contradict]
    nofun
  cases exits with
  | contradicted => rfl
  | refuted isConsistent => exact absurd isConsistent consistent
  | fixed _ isConsistent => exact absurd isConsistent consistent
  | path isConsistent => exact absurd isConsistent consistent
  | handedOver isConsistent => exact absurd isConsistent consistent

/-- All other exits lead to the point of the stored problem. -/
theorem SolveTask.Exit.pointFor_eq
    [OneVariableSolver τ α]
    {task : SolveTask α}
    {before left : Workspace α}
    {method : τ}
    {verdict : Verdict α}
    (exits : task.Exit before method left verdict)
    (consistent : task.boundsContradict = false)
    (prepared : ¬ verdict.IsDirect → task.prepared? = some left) :
    left.pointFor verdict =
      task.store.givenPoint task.sentinel task.settings method := by
  cases exits with
  | contradicted contradict =>
      rw [consistent] at contradict
      cases contradict
  | refuted _ presolved =>
      exact (Store.givenPoint_of_decided presolved nofun method).symm
  | fixed feasible _ presolved =>
      rw [Store.givenPoint_of_decided presolved nofun method]
      cases feasible <;> rfl
  | path _ presolved given =>
      rw [Store.givenPoint_of_undecided presolved method,
        pathResult_bareTask, given]
  | handedOver _ presolved noResult bySolver =>
      rw [Store.givenPoint_of_undecided presolved method,
        pathResult_bareTask, noResult,
        ← prepared?_bounds presolved (prepared bySolver)]
      cases verdict with
      | oneVariable result =>
          exact absurd trivial bySolver
      | _ => rfl

end Points

section Objectives

variable {K : Type} [ExactField K]

/-- Numbers made of the places of a list, added up over these places. -/
theorem sum_mapIdx_eq
    (numbers : List K)
    (term : Nat → K → K) :
    (numbers.mapIdx term).sum =
      ∑ var : Fin numbers.length, term var numbers[var] := by
  rw [List.mapIdx_eq_ofFn, List.sum_ofFn]
  rfl

namespace Workspace

variable
  {before work : Workspace K}
  {store : Store K}
  {sentinel : K}
  {settings : Settings K}

/-- With all variables fixed, the objective at the lower bounds is the fixed contribution. -/
theorem fixedObjective_of_presolve
    {feasible : Bool}
    (sameLength : work.bounds.lower.length = store.objective.length)
    (presolved :
      before.presolve store sentinel settings =
        (work, .ok (.allFixed feasible))) :
    work.fixedObjective store =
      store.objectiveAt (work.bounds.lower.getD · 0) := by
  obtain ⟨vectors, _, noneActive, _, rfl⟩ := presolve_closed presolved
  refine fixedObjective_of_allFixed fun var known => ?_
  by_contra isActive
  have listed :
      var ∈ (before.swept store sentinel settings).activeVariables :=
    mem_activeVariables.mpr ⟨sameLength ▸ known, isActive⟩
  rw [noneActive] at listed
  cases listed

/-- What presolve leaves open has the fixed contribution of the workspace that it leaves. -/
theorem fixedObjective_of_undecided
    {fixedObjective : K}
    (presolved :
      before.presolve store sentinel settings =
        (work, .ok (.undecided fixedObjective))) :
    fixedObjective = work.fixedObjective store := by
  obtain ⟨_, _, rfl, rfl⟩ := presolve_open presolved
  rfl

/-- With one free variable, its value adds its own term to that contribution. -/
theorem fixedObjective_of_single
    {var : Nat}
    (sameLength : work.bounds.lower.length = store.objective.length)
    (single : work.activeVariables = [var])
    (value : K) :
    store.objective.getD var 0 * value + work.fixedObjective store =
      store.objectiveAt ((work.bounds.lower.set var value).getD · 0) := by
  have active : var ∈ work.activeVariables := by
    rw [single]
    exact List.mem_singleton_self var
  obtain ⟨inLower, isFree⟩ := mem_activeVariables.mp active
  have known : var < store.objective.length := sameLength ▸ inLower
  have ownValue : (work.bounds.lower.set var value).getD var 0 = value := by
    simp [inLower]
  rw [fixedObjective_eq, Store.objectiveAt, sum_mapIdx_eq, sum_mapIdx_eq,
    ← Finset.add_sum_erase _ _ (Finset.mem_univ ⟨var, known⟩),
    ← Finset.add_sum_erase _ _ (Finset.mem_univ ⟨var, known⟩)]
  simp only [Fin.getElem_fin, ownValue, if_neg isFree, zero_add,
    List.getD_eq_getElem _ _ known]
  congr 1
  refine Finset.sum_congr rfl fun other member => ?_
  have isOther : (other : Nat) ≠ var := fun isVar =>
    Finset.ne_of_mem_erase member (Fin.ext isVar)
  have isFixed : work.Fixed other :=
    (fixed_iff_of_single single (by rw [sameLength]; exact other.isLt)).mpr
      isOther
  have otherValue :
      (work.bounds.lower.set var value).getD other 0 =
        work.bounds.lowerAt other := by
    rw [List.getD_eq_getElem?_getD, List.getElem?_set_ne isOther.symm]
    exact List.getD_eq_getElem?_getD.symm
  rw [if_pos isFixed, otherValue]

end Workspace

/-- The value of an optimum on the path is that of its term and the fixed contribution. -/
theorem SolveTask.pathResult_objectiveValue
    {task : SolveTask K}
    {work : Workspace K}
    {fixedObjective : K}
    {method : NewtonMethod}
    {result : OneVariableResult K}
    (given :
      task.pathResult work fixedObjective method = .ok (some result))
    (isOptimal : result.optimal = true) :
    work.activeVariables = [result.var] ∧
      result.objectiveValue =
        task.store.objective.getD result.var 0 * result.value +
          fixedObjective := by
  obtain ⟨var, single, ⟨_, bounded⟩ | ⟨block, _, _, oneBlock, _⟩⟩ :=
    pathResult_eq_some given
  · unfold boundedResult? at bounded
    dsimp only at bounded
    split at bounded
    · cases bounded
    · cases bounded
      exact ⟨single, rfl⟩
  · obtain ⟨solution, single, stops, isResult⟩ :=
      pathResult_optimal given isOptimal oneBlock
    have notInfeasible : solution.isInfeasible task.sentinel = false := by
      rw [isResult] at isOptimal
      simpa [resultOf] using isOptimal
    refine ⟨single, ?_⟩
    have value :
        result.objectiveValue = solution.objectiveValue + fixedObjective := by
      rw [isResult, resultOf, notInfeasible]
      rfl
    rw [value, stops.objectiveValue_of_feasible]
    have sameValue : result.value = solution.value := by
      rw [isResult]
      rfl
    rw [sameValue]
    rfl

end Objectives

namespace Session

/-- Without the solver, a session that has a result gives out the point of its verdict. -/
theorem dualSolution_withoutSolver
    {σ τ α : Type}
    [Scalar α]
    [Solver σ α]
    {session : Session σ τ α}
    (hasResult : session.wasSolved = true)
    (withoutSolver :
      ∀ byPenalty, session.run.verdict ≠ .solved byPenalty) :
    ∃ objective,
      session.objectiveValue = .ok objective ∧
        session.dualSolution =
          .ok (objective, session.run.work.pointFor session.run.verdict) := by
  unfold wasSolved at hasResult
  unfold dualSolution objectiveValue
  cases isVerdict : session.run.verdict with
  | unsolved =>
      rw [isVerdict] at hasResult
      cases hasResult
  | failed =>
      rw [isVerdict] at hasResult
      cases hasResult
  | solved byPenalty =>
      exact absurd isVerdict (withoutSolver byPenalty)
  | _ => exact ⟨_, rfl, rfl⟩

variable {σ K : Type} [ExactField K] [Solver σ K]

/-- An optimum found without the solver has the objective value of its point. -/
theorem objectiveValue_of_optimal
    {session next : Session σ NewtonMethod K}
    {options : SolveOptions K}
    {watch : Nat → K}
    (reachable : session.Reachable)
    (solved : solve options watch session = .ok () next)
    (withoutSolver : ∀ byPenalty, next.run.verdict ≠ .solved byPenalty)
    (isOptimal : next.flags.optimal = true) :
    next.objectiveValue =
      .ok
        (session.store.objectiveAt
          ((next.run.work.pointFor next.run.verdict).getD · 0)) := by
  obtain ⟨_, sameStore, _⟩ := solve_sameAssignment solved
  unfold flags at isOptimal
  unfold objectiveValue
  have exits (notUnsolved : next.run.verdict ≠ .unsolved) :=
    solve_exits solved notUnsolved
  cases isVerdict : next.run.verdict with
  | unsolved =>
      simp [isVerdict, StatusFlags.unknown] at isOptimal
  | failed =>
      simp [isVerdict, StatusFlags.unknown] at isOptimal
  | infeasible proof =>
      simp [isVerdict, Verdict.infeasibleFlags, StatusFlags.unknown]
        at isOptimal
  | solved byPenalty =>
      exact absurd isVerdict (withoutSolver byPenalty)
  | allFixed =>
      obtain ⟨_, presolved⟩ :=
        (exits (by rw [isVerdict]; nofun)).of_fixedPoint
          (show next.run.verdict = if true then _ else _ from isVerdict)
      have sameLength := reachable.presolve_lowerLength presolved
      rw [sameStore,
        Workspace.fixedObjective_of_presolve sameLength presolved]
      rfl
  | oneVariable result =>
      obtain ⟨fixedObjective, _, presolved, given⟩ :=
        (exits (by rw [isVerdict]; nofun)).of_oneVariable isVerdict
      have sameLength := reachable.presolve_lowerLength presolved
      have resultOptimal : result.optimal = true := by
        by_contra notOptimal
        simp [isVerdict, notOptimal, Verdict.infeasibleFlags,
          StatusFlags.unknown] at isOptimal
      obtain ⟨single, value⟩ :=
        SolveTask.pathResult_objectiveValue given resultOptimal
      rw [Workspace.fixedObjective_of_undecided presolved] at value
      exact
        congrArg Except.ok
          (value.trans
            (Workspace.fixedObjective_of_single sameLength single
              result.value))

/--
What is given out without the solver after a solve.  Unless the stored bounds
contradict each other, the values follow from the stored problem and the settings,
one for each variable; if they do, the values are those that an earlier problem has
left.  The objective value of an optimum is that of the stored objective at the
values.
-/
theorem dualSolution_is_of_stored_problem
    {session next : Session σ NewtonMethod K}
    {options : SolveOptions K}
    {watch : Nat → K}
    (reachable : session.Reachable)
    (solved : solve options watch session = .ok () next)
    (hasResult : next.wasSolved = true)
    (withoutSolver : ∀ byPenalty, next.run.verdict ≠ .solved byPenalty) :
    let contradict := (session.task options watch).boundsContradict
    ∃ objective values,
      next.dualSolution = .ok (objective, values) ∧
        (contradict = false →
          values =
              session.store.givenPoint session.sentinel session.settings
                session.run.oneVariable ∧
            values.length = session.store.variableCount) ∧
        (contradict = true → values = session.run.work.bounds.lower) ∧
        (next.flags.optimal = true →
          objective = session.store.objectiveAt (values.getD · 0)) := by
  intro contradict
  obtain ⟨objective, hasObjective, given⟩ :=
    dualSolution_withoutSolver hasResult withoutSolver
  have notUnsolved : next.run.verdict ≠ .unsolved := by
    intro isUnsolved
    rw [wasSolved, isUnsolved] at hasResult
    cases hasResult
  have exits := solve_exits solved notUnsolved
  refine ⟨objective, _, given, ?_, ?_, ?_⟩
  · intro consistent
    have isPoint :=
      exits.pointFor_eq consistent (solve_decidedBy solved).prepared
    refine ⟨isPoint, ?_⟩
    rw [isPoint, Store.givenPoint_length]
    exact reachable.presolve_lowerLength rfl
  · exact exits.pointFor_of_contradiction
  · intro isOptimal
    have value :=
      objectiveValue_of_optimal reachable solved withoutSolver isOptimal
    exact Except.ok.inj (hasObjective.symm.trans value)

/-- A session that has solved a crowded program before it loads a program. -/
def reloadedSession
    (program : Program ℚ) :
    Session (ScriptedSolver ℚ) NewtonMethod ℚ :=
  Operation.performed (Session.solved (loaded Settings.standard crowdedProgram))
    (.edit (.load program))

theorem reloadedSession_reachable
    (program : Program ℚ) :
    (reloadedSession program).Reachable :=
  .operated
    (.operated (loaded_reachable Settings.standard crowdedProgram)
      (.solve patientOptions fun _ => 0))
    _

/-- After the crowded program, the priced program has its own point. -/
theorem reloadedSession_gives_own_point :
    let reloaded := reloadedSession (pricedProgram 3)
    reloaded.store.variableCount = 1 ∧
      (Session.solved reloaded).flags.optimal = true ∧
      (Session.solved reloaded).dualSolution = .ok (12, [4]) := by
  intro reloaded
  have isSolved :
      solve patientOptions (fun _ => 0) reloaded =
        .ok () (Session.solved reloaded) :=
    eq_ok_of_answerOf (by decide +kernel)
  have isOptimal : (Session.solved reloaded).flags.optimal = true := by
    decide +kernel
  obtain ⟨objective, values, given, own, _, optimal⟩ :=
    dualSolution_is_of_stored_problem (reloadedSession_reachable _) isSolved
      (by decide +kernel)
      (fun byPenalty => by cases byPenalty <;> decide +kernel)
  have isPoint : values = [4] :=
    (own (by decide +kernel)).1.trans (by decide +kernel)
  subst isPoint
  have isObjective : objective = 12 :=
    (optimal isOptimal).trans (by decide +kernel)
  subst isObjective
  exact ⟨by decide +kernel, isOptimal, given⟩

/-- A program whose single variable would have to be at least one and at most zero. -/
def crossedProgram : Program ℚ :=
  {
    objective := [1]
    lower := [1]
    upper := [0]
    integral := none
    blocks := []
    rows := []
  }

/--
A session that has solved nothing before gives out no value for the crossed program,
and one that has solved the crowded program gives out the three values of that one,
though the two sessions hold the same problem under the same settings.
-/
theorem crossedProgram_gives_earlier_point :
    let fresh := loaded Settings.standard crossedProgram
    let reloaded := reloadedSession crossedProgram
    (fresh.Reachable ∧ reloaded.Reachable) ∧
      (fresh.assignment = reloaded.assignment ∧
        fresh.run.oneVariable = reloaded.run.oneVariable ∧
        fresh.store.variableCount = 1) ∧
      (solve patientOptions (fun _ => 0) fresh =
          .ok () (Session.solved fresh) ∧
        (Session.solved fresh).run.verdict = .infeasible .presolve ∧
        (Session.solved fresh).dualSolution = .ok (standardSentinel, [])) ∧
      solve patientOptions (fun _ => 0) reloaded =
          .ok () (Session.solved reloaded) ∧
        (Session.solved reloaded).run.verdict = .infeasible .presolve ∧
        (Session.solved reloaded).dualSolution =
          .ok (standardSentinel, [0, 1, 0]) := by
  refine
    ⟨⟨loaded_reachable _ _, reloadedSession_reachable _⟩, ?_,
      ⟨?_, by decide +kernel⟩, ?_, by decide +kernel⟩
  · decide +kernel
  · exact eq_ok_of_answerOf (by decide +kernel)
  · exact eq_ok_of_answerOf (by decide +kernel)

end Session

end SdpRelay
