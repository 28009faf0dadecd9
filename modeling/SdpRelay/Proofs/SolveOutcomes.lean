import SdpRelay.Proofs.ExactField
import SdpRelay.Proofs.SessionSolves
import SdpRelay.Proofs.StoreChecks
import SdpRelay.Solver.Scripted

namespace SdpRelay

/-!
# What a solve leaves behind

A solve is replayed with a journaled solver: the journal changes nothing that the
session shows, and it tells which calls were sent.  After a solve that ends well the
questions for values read the call that decided it.  A solve that fails leaves no
result only if the failure comes before the solver has answered the request for the
problem itself; a failure later on, in a recovery, leaves the verdict that the
recovery was to replace.
-/

variable {σ τ α : Type}

namespace Session

/-- The session with a solver whose journal starts now. -/
def journaled
    (session : Session σ τ α) :
    Session (JournaledSolver σ α) τ α :=
  {
    sentinel := session.sentinel
    store := session.store
    settings := session.settings
    problemNumber := session.problemNumber
    run := session.run.journaled
  }

variable [Scalar α] [Solver σ α] [OneVariableSolver τ α]

/-- The solver after a solve of which it has kept a journal. -/
def journaledSolver
    (session : Session σ τ α)
    (options : SolveOptions α)
    (watch : Nat → α) :
    JournaledSolver σ α :=
  (stateAfter (solve options watch session.journaled)).run.solver

/-- The calls that a solve sends to the solver, in order. -/
def solverCalls
    (session : Session σ τ α)
    (options : SolveOptions α)
    (watch : Nat → α) :
    List (SolverCall α) :=
  (session.journaledSolver options watch).calls

/-- A solve with a journaled solver ends like the solve itself. -/
theorem solve_journaled
    (session : Session σ τ α)
    (options : SolveOptions α)
    (watch : Nat → α) :
    EndAlike
      (fun _ =>
        SessionsAgree
          (SolvedAlike (session.run.outlet.prints, session.run.outlet.prints)
            fun journaled solver => journaled.solver = solver))
      (SessionsAgree
        (OutcomesAgree (session.run.outlet.prints, session.run.outlet.prints)
          fun journaled solver => journaled.solver = solver))
      (solve options watch session.journaled)
      (solve options watch session) := by
  refine solve_alike AnswerAlike.journaled ?_ options watch
  exact
    {
      sentinel := rfl
      store := rfl
      settings := rfl
      run :=
        {
          solver := rfl
          oneVariable := rfl
          running := rfl
          memory := rfl
          outlet := .refl session.run.outlet
        }
    }

end Session

variable [Scalar α]

/-- Without calls it does not matter what the workspace holds. -/
theorem Verdict.DecidedBy.anyWork
    [Solver σ α]
    {task : SolveTask α}
    {work : Workspace α}
    {calls : List (SolverCall α)}
    {solver : σ}
    {verdict : Verdict α}
    (decided : verdict.DecidedBy task work calls solver)
    (direct : verdict.IsDirect)
    (other : Workspace α) :
    verdict.DecidedBy task other calls solver := by
  cases verdict with
  | solved byPenalty => exact direct.elim
  | infeasible proof =>
      cases proof with
      | penalty => exact direct.elim
      | presolve => exact decided
      | fixedPoint => exact decided
  | failed => exact direct.elim
  | _ => exact decided

/-- Where the solver has the answer, it reports on the last call if its reports stand. -/
theorem Verdict.DecidedBy.reported
    [Solver σ α]
    {task : SolveTask α}
    {work : Workspace α}
    {calls : List (SolverCall α)}
    {solver : σ}
    {verdict : Verdict α}
    {byPenalty : Bool}
    (decided : verdict.DecidedBy task work calls solver)
    (solved : verdict = .solved byPenalty) :
    ∃ last ∈ calls.getLast?,
      (byPenalty = true → ReportsStand σ) →
        last.report = Solver.report solver := by
  subst solved
  cases byPenalty with
  | false =>
      obtain ⟨checks, plain, rfl, _, _, reported, _⟩ := decided
      exact ⟨plain, by simp, fun _ => reported⟩
  | true =>
      obtain
        ⟨checks, plain, violation, _, rfl, _, rounds, last, rfl, _, _, _,
          reported⟩ := decided
      refine ⟨last, ?_, fun stand => reported (stand rfl)⟩
      rw [Option.mem_def, List.getLast?_append]
      simp [List.getLast?_cons]

/-- A verdict that takes the solver is about the problem that was prepared for it. -/
theorem Verdict.DecidedBy.prepared
    [Solver σ α]
    {task : SolveTask α}
    {work : Workspace α}
    {calls : List (SolverCall α)}
    {solver : σ}
    {verdict : Verdict α}
    (decided : verdict.DecidedBy task work calls solver)
    (bySolver : ¬ verdict.IsDirect) :
    task.prepared? = some work := by
  have viaRecovery
      (recovered :
        ∃ checks plain violation rest,
          calls = checks ++ plain :: violation :: rest ∧
            Recovery task work checks plain violation ∧
            verdict.RecoveredBy task work violation rest solver) :
      task.prepared? = some work := by
    obtain ⟨_, _, _, _, _, recovery, _⟩ := recovered
    exact recovery.prepared
  cases verdict with
  | solved byPenalty =>
      cases byPenalty with
      | false =>
          obtain ⟨_, _, _, opening, _⟩ := decided
          exact opening.prepared
      | true => exact viaRecovery decided
  | infeasible proof =>
      cases proof with
      | penalty => exact viaRecovery decided
      | presolve => exact absurd trivial bySolver
      | fixedPoint => exact absurd trivial bySolver
  | failed => exact viaRecovery decided
  | _ => exact absurd trivial bySolver

/-- Settings that pass their check have a positive number in every field. -/
theorem Settings.get_pos
    {settings : Settings α}
    (valid : settings.validate = .ok ())
    (field : SettingField) :
    0 < settings.get field := by
  have checked :
      field ∈
        [.epsilon, .gapTolerance, .feasTolerance, .penalty, .maxPenalty,
          .infeasibilityFactor] := by
    cases field <;> simp
  have passes :=
    Check.forM_eq_ok.mp (Check.then_eq_ok.mp valid).1 field checked
  exact (Check.ite_eq_ok.mp passes).1

/--
With checked settings, a call that proves infeasibility reports a violation above
the threshold, unless it reports that there is no bound on it.
-/
theorem SolverCall.ProvesInfeasible.reported
    {K : Type}
    [ExactField K]
    {task : SolveTask K}
    {call : SolverCall K}
    (proves : call.ProvesInfeasible task)
    (valid : task.settings.validate = .ok ())
    (sentinelNonneg : 0 ≤ task.sentinel) :
    (call.report.flags.optimal = true ∧
      call.report.solved = true ∧
        ∃ value, call.report.objective = .ok value ∧
          task.infeasibilityThreshold < value) ∨
      (call.report.solved = true ∧
        call.report.flags.dualInfeasible = true) := by
  have factorPositive : 0 < task.settings.infeasibilityFactor :=
    Settings.get_pos valid .infeasibilityFactor
  have tolerancePositive : 0 < task.settings.feasTolerance :=
    Settings.get_pos valid .feasTolerance
  have thresholdPositive : 0 < task.infeasibilityThreshold :=
    mul_pos factorPositive (lt_max_of_lt_left tolerancePositive)
  have sound : ¬ task.infeasibilityThreshold < -task.sentinel := by
    linarith
  exact proves.imp_left fun ⟨optimal, reports⟩ => ⟨optimal, reports sound⟩

/-- The solver has answered the request for the problem itself. -/
def SolveTask.AnsweredIn
    (task : SolveTask α)
    (calls : List (SolverCall α)) :
    Prop :=
  ∃ work checks plain rest outcome,
    calls = checks ++ plain :: rest ∧
    Opening task work checks plain ∧
    plain.answer = .ok outcome

/-- The request for the problem itself has one place among the calls of a solve. -/
theorem Opening.same_call
    {task : SolveTask α}
    {work otherWork : Workspace α}
    {checks otherChecks rest otherRest : List (SolverCall α)}
    {plain otherPlain : SolverCall α}
    (opening : Opening task work checks plain)
    (other : Opening task otherWork otherChecks otherPlain)
    (sameCalls : checks ++ plain :: rest = otherChecks ++ otherPlain :: otherRest) :
    plain = otherPlain := by
  have sameWork : work = otherWork :=
    Option.some.inj (opening.prepared.symm.trans other.prepared)
  have sameRequests :
      checks.map SolverCall.request = otherChecks.map SolverCall.request := by
    rw [opening.checked, other.checked, sameWork]
  have sameLength : checks.length = otherChecks.length := by
    simpa using congrArg List.length sameRequests
  exact (List.cons.inj (List.append_inj sameCalls sameLength).2).1

/-- A solve that fails leaves no verdict unless the problem itself was answered. -/
theorem Verdict.LeftBy.unsolved_iff
    {task : SolveTask α}
    {work : Workspace α}
    {calls : List (SolverCall α)}
    {verdict : Verdict α}
    (left : verdict.LeftBy task work calls) :
    (verdict = .unsolved ∧ ¬ task.AnsweredIn calls) ∨
      (verdict = .solved false ∧ task.AnsweredIn calls) := by
  cases verdict with
  | unsolved =>
      refine .inl ⟨rfl, ?_⟩
      rintro ⟨otherWork, checks, plain, rest, outcome, isRecord, opening, answered⟩
      rcases left with
        none | ⟨otherChecks, refusedPlain, reason, isShort, refusal, refused⟩
      · rw [none] at isRecord
        simp at isRecord
      · have sameCall := opening.same_call refusal (isRecord.symm.trans isShort)
        rw [sameCall, refused] at answered
        cases answered
  | solved byPenalty =>
      cases byPenalty with
      | false =>
          obtain ⟨checks, plain, rest, isRecord, opening, ⟨outcome, answered⟩, _⟩ :=
            left
          exact
            .inr ⟨rfl, work, checks, plain, rest, outcome, isRecord, opening,
              answered⟩
      | true => exact left.elim
  | _ => exact left.elim

/-- What a session answers to the questions for values. -/
structure QueryAnswers (α : Type) where
  feasibility : Except (Fault α) (Bool × Bool)
  objectiveValue : Except (Fault α) α
  dualSolution : Except (Fault α) (α × List α)
  preoptimal : Except (Fault α) (Option (WarmStart α))
  boundMultipliers : Except (Fault α) (Option (List α × List α))
  sideMultipliers : Except (Fault α) (Option (List α × List α))
  primalNonzeros : Except (Fault α) (Option (List Nat))
  primalMatrices : Except (Fault α) (Option (List (Triplets α)))
  primalBlocks : Except (Fault α) (Option (List (SquareMatrix α)))

/-- There is nothing to be told. -/
def QueryAnswers.refused : QueryAnswers α :=
  {
    feasibility := .error .notSolved
    objectiveValue := .error .notSolved
    dualSolution := .error .notSolved
    preoptimal := .error .notSolved
    boundMultipliers := .error .notSolved
    sideMultipliers := .error .notSolved
    primalNonzeros := .error .notSolved
    primalMatrices := .error .notSolved
    primalBlocks := .error .notSolved
  }

namespace Session

variable [Solver σ α]

/-- The answers of a session to all questions for values. -/
def queryAnswers (session : Session σ τ α) : QueryAnswers α :=
  {
    feasibility := session.feasibility
    objectiveValue := session.objectiveValue
    dualSolution := session.dualSolution
    preoptimal := session.preoptimal
    boundMultipliers := session.boundMultipliers
    sideMultipliers := session.sideMultipliers
    primalNonzeros := session.primalNonzeros
    primalMatrices := session.primalMatrices
    primalBlocks := session.primalBlocks
  }

/-- The session has no result, and every question for a value is refused. -/
structure HasNoResult (session : Session σ τ α) : Prop where
  notSolved : session.wasSolved = false
  refused : session.queryAnswers = .refused

/-- The session with its solver in another state. -/
def withSolver
    (session : Session σ τ α)
    (solver : σ) :
    Session σ τ α :=
  { session with run := { session.run with solver := solver } }

/-- A session without a verdict has no result. -/
theorem hasNoResult_of_unsolved
    {session : Session σ τ α}
    (unsolved : session.run.verdict = .unsolved) :
    session.HasNoResult where
  notSolved := by rw [wasSolved, unsolved]; rfl
  refused := by
    simp only [queryAnswers, feasibility, objectiveValue, dualSolution,
      preoptimal, boundMultipliers, sideMultipliers, primalNonzeros,
      primalMatrices, solverOnly, primalBlocks, unsolved]
    rfl

/-- Where the solver has no part in the verdict, no answer is read from it. -/
theorem queryAnswers_withSolver
    {session : Session σ τ α}
    (withoutSolver :
      ∀ byPenalty, session.run.verdict ≠ .solved byPenalty)
    (solver : σ) :
    (session.withSolver solver).queryAnswers = session.queryAnswers := by
  have sameVerdict :
      (session.withSolver solver).run.verdict = session.run.verdict :=
    rfl
  cases isVerdict : session.run.verdict with
  | solved byPenalty =>
      exact absurd isVerdict (withoutSolver byPenalty)
  | infeasible proof =>
      cases proof <;>
      · simp only [queryAnswers, feasibility, objectiveValue, dualSolution,
          preoptimal, boundMultipliers, sideMultipliers, primalNonzeros,
          primalMatrices, solverOnly, primalBlocks, flags, sameVerdict,
          isVerdict]
        rfl
  | _ =>
      simp only [queryAnswers, feasibility, objectiveValue, dualSolution,
        preoptimal, boundMultipliers, sideMultipliers, primalNonzeros,
        primalMatrices, solverOnly, primalBlocks, flags, sameVerdict,
        isVerdict]
      rfl

/-- The answers of a session whose solver has the answer, read off a report. -/
def reportedAnswers
    (session : Session σ τ α)
    (report : SolverReport α) :
    QueryAnswers α :=
  let unlessInfeasible {β : Type} (answer : Except (Fault α) β) :
      Except (Fault α) (Option β) :=
    if report.flags.primalInfeasible then .ok none else answer.map some
  {
    feasibility := fromSolver report.feasibility
    objectiveValue := fromSolver report.objective
    dualSolution := do
      let _ ← fromSolver report.objective
      fromSolver report.dualSolution
    preoptimal := fromSolver report.preoptimal
    boundMultipliers :=
      unlessInfeasible (fromSolver report.boundMultipliers)
    sideMultipliers :=
      unlessInfeasible (do
        let kept ← fromSolver report.sideMultipliers
        let bounds ← fromSolver report.boundMultipliers
        return session.storedSideMultipliers kept bounds)
    primalNonzeros := (fromSolver report.nonzeros).map some
    primalMatrices := (fromSolver report.primalMatrices).map some
    primalBlocks := unlessInfeasible (fromSolver report.primalBlocks)
  }

/-- Where the solver has the answer, all answers are read off its report. -/
theorem queryAnswers_of_solved
    {session : Session σ τ α}
    {byPenalty : Bool}
    (solved : session.run.verdict = .solved byPenalty) :
    session.queryAnswers =
      session.reportedAnswers (Solver.report session.run.solver) := by
  simp only [queryAnswers, feasibility, objectiveValue, dualSolution,
    preoptimal, boundMultipliers, sideMultipliers, primalNonzeros,
    primalMatrices, solverOnly, primalBlocks, unlessPrimalInfeasible, solved]
  rfl

variable [OneVariableSolver τ α]

/-- The calls of a solve that ends well decide it. -/
theorem solve_decidedBy
    {session next : Session σ τ α}
    {options : SolveOptions α}
    {watch : Nat → α}
    (solved : solve options watch session = .ok () next) :
    next.run.verdict.DecidedBy (session.task options watch) next.run.work
      (session.solverCalls options watch) next.run.solver := by
  have alike := solve_journaled session options watch
  have ended :=
    solve_endedBy
      (show session.journaled.run.solver.calls = [] from rfl) options watch
  unfold solverCalls journaledSolver
  rw [solved] at alike
  revert alike ended
  generalize solve options watch session.journaled = replayed
  intro alike ended
  cases alike with
  | @answer _ replayedNext _ agree =>
      have decided :
          replayedNext.run.verdict.DecidedBy (session.task options watch)
            replayedNext.run.work replayedNext.run.solver.calls
            replayedNext.run.solver.solver :=
        ended
      rw [agree.run.solver, agree.run.verdict] at decided
      rcases agree.run.work with direct | sameWork
      · rw [agree.run.verdict] at direct
        exact decided.anyWork direct next.run.work
      · rw [sameWork] at decided
        exact decided

/--
The calls of a solve that fails tell which verdict it leaves, unless a print was
refused.
-/
theorem solve_leftBy
    {session next : Session σ τ α}
    {options : SolveOptions α}
    {watch : Nat → α}
    {fault : Fault α}
    (failed : solve options watch session = .error fault next) :
    (∃ work,
      next.run.verdict.LeftBy (session.task options watch) work
        (session.solverCalls options watch)) ∨
      session.run.StoppedAt next.run fault := by
  have alike := solve_journaled session options watch
  have ended :=
    solve_endedBy
      (show session.journaled.run.solver.calls = [] from rfl) options watch
  unfold solverCalls journaledSolver
  rw [failed] at alike
  revert alike ended
  generalize solve options watch session.journaled = replayed
  intro alike ended
  cases alike with
  | @fault _ replayedNext _ agree =>
      refine ended.imp ?_ ?_
      · intro left
        refine ⟨replayedNext.run.work, ?_⟩
        rw [← agree.run.verdict]
        exact left
      · intro stopped
        exact stopped.alike agree.run.outlet

/--
After a solve that ends well, the calls sent to the solver lead to the verdict.  Where
the answers are the solver's, they are all read off its report.  That is the one that
followed the last call, which is the one that decided: after a recovery the solver may
have been told its gap tolerance since, which then must not change its report.  All
other answers do not depend on the solver.
-/
theorem solve_is_decided_by_its_calls
    {session next : Session σ τ α}
    {options : SolveOptions α}
    {watch : Nat → α}
    (solved : solve options watch session = .ok () next) :
    next.run.verdict.DecidedBy (session.task options watch) next.run.work
        (session.solverCalls options watch) next.run.solver ∧
      (∀ byPenalty,
        next.run.verdict = .solved byPenalty →
        next.queryAnswers =
            next.reportedAnswers (Solver.report next.run.solver) ∧
          ∃ last ∈ (session.solverCalls options watch).getLast?,
            (byPenalty = true → ReportsStand σ) →
              next.queryAnswers = next.reportedAnswers last.report) ∧
      ((∀ byPenalty, next.run.verdict ≠ .solved byPenalty) →
        ∀ solver,
          (next.withSolver solver).queryAnswers = next.queryAnswers) := by
  have decided := solve_decidedBy solved
  refine ⟨decided, ?_, queryAnswers_withSolver⟩
  intro byPenalty isSolved
  have answers := queryAnswers_of_solved isSolved
  obtain ⟨last, isLast, reported⟩ := decided.reported isSolved
  refine ⟨answers, last, isLast, fun stand => ?_⟩
  rw [answers, reported stand]

/-- A program with two free variables, of which one has no upper bound. -/
def openProgram : Program ℚ :=
  {
    objective := [1, 1]
    lower := [0, 0]
    upper := [10, standardSentinel]
    integral := none
    blocks := []
    rows := []
  }

/-- An answer of a script, with the objective value zero. -/
def scriptedAnswer
    (flags : StatusFlags)
    (feasible : Bool)
    (fault : Option SolverFault) :
    ScriptedAnswer ℚ :=
  {
    solved := true
    flags := flags
    outcome := { feasible := feasible, atBound := false }
    objective := some 0
    values := [0, 0]
    preoptimal := none
    lowerMultipliers := []
    upperMultipliers := []
    leftMultipliers := []
    rightMultipliers := []
    nonzeros := []
    primalMatrices := []
    primalBlocks := []
    largestEntry := 0
    setting := .fast
    time := 0
    iterations := 1
    calls := 1
    fault := fault
  }

/-- The solver stands by its answer. -/
def sureAnswer : ScriptedAnswer ℚ :=
  scriptedAnswer Verdict.optimalFlags true none

/-- The solver stands by an answer that is infeasible for the problem itself. -/
def infeasibleAnswer : ScriptedAnswer ℚ :=
  scriptedAnswer Verdict.optimalFlags false none

/-- The solver does not stand by its answer. -/
def unsureAnswer : ScriptedAnswer ℚ :=
  scriptedAnswer (StatusFlags.unknown 0) false none

/-- The solver fails. -/
def failingAnswer : ScriptedAnswer ℚ :=
  scriptedAnswer (StatusFlags.unknown 0) false (some (.failed "out of memory"))

/-- A solver that follows a script. -/
def scriptedSolver (script : List (ScriptedAnswer ℚ)) : ScriptedSolver ℚ :=
  {
    script := script
    fallback := sureAnswer
    supported := [.gapTolerance]
    failing := []
    needsPrimal := false
    current := none
    reals := []
    integers := []
    counter := 0
    requests := []
    assignments := []
  }

/-- A session that holds that program, around a solver that follows a script. -/
def scriptedSession
    (slaterCheck : SlaterCheck)
    (script : List (ScriptedAnswer ℚ)) :
    Session (ScriptedSolver ℚ) NewtonMethod ℚ :=
  {
    assemble standardSentinel
      { Settings.standard with slaterCheck := slaterCheck }
      (scriptedSolver script) NewtonMethod.standard with
    store := Store.ofProgram openProgram
  }

/-- A solve that is given a hundred seconds. -/
def patientOptions : SolveOptions ℚ :=
  {
    start := none
    startSetting := .unsolved
    explainsFailure := true
    timeLimit := 100
  }

/-- What a scripted solver reports does not depend on its parameters. -/
theorem scripted_reportsStand : ReportsStand (ScriptedSolver ℚ) := by
  intro parameter value solver
  change
    Solver.report (stateAfter (ScriptedSolver.assign parameter _ solver)) = _
  unfold ScriptedSolver.assign
  split
  · rfl
  · rfl

/--
A recovery that succeeds in its second round, after a Slater check with two
calls: the sixth call is the one that all answers are read off.
-/
theorem recovered_solve_is_decided_by_its_calls :
    let session :=
      scriptedSession .check
        [sureAnswer, sureAnswer, unsureAnswer, unsureAnswer, unsureAnswer,
          sureAnswer]
    let calls := session.solverCalls patientOptions (fun _ => 0)
    ∃ next,
      solve patientOptions (fun _ => 0) session = .ok () next ∧
      calls.length = 6 ∧
      next.run.verdict = .solved true ∧
      next.run.verdict.DecidedBy
        (session.task patientOptions (fun _ => 0)) next.run.work calls
        next.run.solver ∧
      ∃ last ∈ calls.getLast?,
        next.queryAnswers = next.reportedAnswers last.report := by
  intro session calls
  have solved :
      solve patientOptions (fun _ => 0) session =
        .ok () (stateAfter (solve patientOptions (fun _ => 0) session)) :=
    eq_ok_of_answerOf (by decide +kernel)
  have byPenalty :
      (stateAfter (solve patientOptions (fun _ => 0) session)).run.verdict =
        .solved true := by
    decide +kernel
  obtain ⟨decided, answered, _⟩ := solve_is_decided_by_its_calls solved
  obtain ⟨_, last, isLast, readOff⟩ := answered true byPenalty
  exact
    ⟨_, solved, by decide +kernel, byPenalty, decided, last, isLast,
      readOff fun _ => scripted_reportsStand⟩

/--
A solve that fails, and not because a print is refused, leaves no result exactly if the
solver has not answered the request for the problem itself.  Otherwise it leaves the
verdict that the solver has the answer.
-/
theorem failed_solve_leaves_no_result_iff
    {session next : Session σ τ α}
    {options : SolveOptions α}
    {watch : Nat → α}
    {fault : Fault α}
    (failed : solve options watch session = .error fault next)
    (taken : session.run.PrintsTaken next.run) :
    (next.HasNoResult ↔
        ¬ (session.task options watch).AnsweredIn
          (session.solverCalls options watch)) ∧
      (¬ next.HasNoResult → next.run.verdict = .solved false) := by
  obtain ⟨work, left⟩ :=
    (solve_leftBy failed).resolve_right fun stopped =>
      stopped.not_printsTaken taken
  rcases left.unsolved_iff with ⟨unsolved, unanswered⟩ | ⟨solved, answered⟩
  · have noResult := hasNoResult_of_unsolved unsolved
    exact ⟨iff_of_true noResult unanswered, fun some => absurd noResult some⟩
  · have result : ¬ next.HasNoResult := by
      intro noResult
      have notSolved := noResult.notSolved
      rw [wasSolved, solved] at notSolved
      cases notSolved
    exact ⟨iff_of_false result (not_not.mpr answered), fun _ => solved⟩

/-- The solver fails on the problem itself: there is no result. -/
theorem refused_solve_leaves_no_result :
    let session := scriptedSession .off [failingAnswer]
    ∃ fault next,
      solve patientOptions (fun _ => 0) session = .error fault next ∧
      next.HasNoResult ∧
      ¬ (session.task patientOptions (fun _ => 0)).AnsweredIn
        (session.solverCalls patientOptions (fun _ => 0)) := by
  intro session
  have failed :
      solve patientOptions (fun _ => 0) session =
        .error (.solver (.failed "out of memory"))
          (stateAfter (solve patientOptions (fun _ => 0) session)) :=
    eq_error_of_answerOf (by decide +kernel)
  have unprinted :
      (stateAfter
          (solve patientOptions (fun _ => 0) session)).run.outlet.prints =
        session.run.outlet.prints := by
    decide +kernel
  have taken : session.run.PrintsTaken _ :=
    fun _ since before => absurd (unprinted ▸ before) since.not_gt
  obtain ⟨leavesNone, leavesSolved⟩ :=
    failed_solve_leaves_no_result_iff failed taken
  have noResult :
      (stateAfter (solve patientOptions (fun _ => 0) session)).HasNoResult := by
    by_contra result
    have unsolved :
        (stateAfter (solve patientOptions (fun _ => 0) session)).run.verdict =
          .unsolved := by
      decide +kernel
    have solved := leavesSolved result
    rw [unsolved] at solved
    cases solved
  exact ⟨_, _, failed, noResult, leavesNone.mp noResult⟩

/--
The solver answers the request for the problem itself without standing by the
answer, and then fails in the recovery: the failed solve counts as solved, and
the objective value is that of the call that failed.
-/
theorem failed_recovery_leaves_result :
    let session := scriptedSession .off [unsureAnswer, failingAnswer]
    ∃ fault next,
      solve patientOptions (fun _ => 0) session = .error fault next ∧
      next.wasSolved = true ∧
      next.objectiveValue = .ok 0 ∧
      ¬ next.HasNoResult := by
  intro session
  have failed :
      solve patientOptions (fun _ => 0) session =
        .error (.solver (.failed "out of memory"))
          (stateAfter (solve patientOptions (fun _ => 0) session)) :=
    eq_error_of_answerOf (by decide +kernel)
  have solved :
      (stateAfter (solve patientOptions (fun _ => 0) session)).wasSolved =
        true := by
    decide +kernel
  refine ⟨_, _, failed, solved, by decide +kernel, ?_⟩
  intro noResult
  rw [noResult.notSolved] at solved
  cases solved

end Session

end SdpRelay
