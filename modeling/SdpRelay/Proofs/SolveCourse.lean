import SdpRelay.Proofs.RecoveryJournal

namespace SdpRelay

/-!
# The course of a solve

Which calls a solve sends to its solver, and which verdict they lead to: first
those of the Slater check if one is asked for, then the request for the problem
itself, and if that one fails a recovery.  A solve can also fail on the way;
what it leaves behind then depends on the call that failed, unless it was a print
that was refused.
-/

variable {σ τ α : Type} [Scalar α]

/-- The requests that come before the one for the problem itself. -/
def SolveTask.openingRequests
    (task : SolveTask α)
    (work : Workspace α) :
    List (SolveRequest α) :=
  if task.settings.slaterCheck = .off then
    []
  else
    task.slaterRequests work 0

/-- The calls up to the one for the problem itself. -/
structure Opening
    (task : SolveTask α)
    (work : Workspace α)
    (checks : List (SolverCall α))
    (plain : SolverCall α) :
    Prop where
  prepared : task.prepared? = some work
  checked : checks.map SolverCall.request = task.openingRequests work
  asked : plain.request = task.plainRequest work checks.length

/-- The calls up to the one that asks for the violation only, with time left after a failure. -/
structure Recovery
    (task : SolveTask α)
    (work : Workspace α)
    (checks : List (SolverCall α))
    (plain violation : SolverCall α) :
    Prop
    extends Opening task work checks plain where
  answered : ∃ outcome, plain.answer = .ok outcome
  unacceptable : plain.report.flags.acceptable = false
  timeLeft : ¬ task.timeLimit - task.watch (checks.length + 1) ≤ 0
  askedViolation :
    violation.request = task.violationRequest work (checks.length + 2)

namespace Verdict

/--
The calls of a solve lead to a verdict, and where the solver has the answer, the
last of them is what it reports on.
-/
def DecidedBy
    [Solver σ α]
    (task : SolveTask α)
    (work : Workspace α)
    (calls : List (SolverCall α))
    (solver : σ)
    (verdict : Verdict α) :
    Prop :=
  match verdict with
  | .solved false =>
      ∃ checks plain,
        calls = checks ++ [plain] ∧
        Opening task work checks plain ∧
        (∃ outcome, plain.answer = .ok outcome) ∧
        plain.report = Solver.report solver ∧
        (plain.report.flags.acceptable = true ∨
          task.timeLimit - task.watch calls.length ≤ 0)
  | .solved true | .infeasible .penalty | .failed =>
      ∃ checks plain violation rest,
        calls = checks ++ plain :: violation :: rest ∧
        Recovery task work checks plain violation ∧
        verdict.RecoveredBy task work violation rest solver
  | .infeasible .presolve =>
      calls = [] ∧
        (task.boundsContradict = true ∨ task.presolved = .ok .infeasible)
  | .infeasible .fixedPoint =>
      calls = [] ∧ task.boundsContradict = false ∧
        task.presolved = .ok (.allFixed false)
  | .allFixed =>
      calls = [] ∧ task.boundsContradict = false ∧
        task.presolved = .ok (.allFixed true)
  | .oneVariable _ | .unsolved => calls = []

/-- A verdict of a recovery is one of the solve that tried it. -/
theorem RecoveredBy.decidedBy
    [Solver σ α]
    {task : SolveTask α}
    {work : Workspace α}
    {checks rest : List (SolverCall α)}
    {plain violation : SolverCall α}
    {solver : σ}
    {verdict : Verdict α}
    (recovered : verdict.RecoveredBy task work violation rest solver)
    (recovery : Recovery task work checks plain violation) :
    verdict.DecidedBy task work (checks ++ plain :: violation :: rest)
      solver := by
  cases verdict with
  | unsolved =>
      exact recovered.elim
  | failed =>
      exact ⟨checks, plain, violation, rest, rfl, recovery, recovered⟩
  | infeasible proof =>
      cases proof with
      | presolve =>
          exact recovered.elim
      | fixedPoint =>
          exact recovered.elim
      | penalty =>
          exact ⟨checks, plain, violation, rest, rfl, recovery, recovered⟩
  | allFixed =>
      exact recovered.elim
  | oneVariable result =>
      exact recovered.elim
  | solved byPenalty =>
      cases byPenalty with
      | false =>
          exact recovered.elim
      | true =>
          exact ⟨checks, plain, violation, rest, rfl, recovery, recovered⟩

/-- The calls of a solve that fails leave a verdict behind. -/
def LeftBy
    (task : SolveTask α)
    (work : Workspace α)
    (calls : List (SolverCall α)) :
    Verdict α → Prop
  | .unsolved =>
      calls = [] ∨
      ∃ checks plain reason,
        calls = checks ++ [plain] ∧
        Opening task work checks plain ∧
        plain.answer = .error reason
  | .solved false =>
      ∃ checks plain rest,
        calls = checks ++ plain :: rest ∧
        Opening task work checks plain ∧
        (∃ outcome, plain.answer = .ok outcome) ∧
        plain.report.flags.acceptable = false
  | _ => False

end Verdict

/-- A part of a solve comes before another one: the clock runs as before, and prints only add up. -/
structure Precedes (run next : SolveRun σ τ α) : Prop where
  running : next.clock.running = run.clock.running
  prints : run.outlet.prints ≤ next.outlet.prints

omit [Scalar α] in
theorem Precedes.trans
    {run middle next : SolveRun σ τ α}
    (first : Precedes run middle)
    (second : Precedes middle next) :
    Precedes run next where
  running := second.running.trans first.running
  prints := Nat.le_trans first.prints second.prints

omit [Scalar α] in
theorem Quiet.precedes
    {run next : SolveRun σ τ α}
    (quiet : Quiet run next) :
    Precedes run next where
  running := by rw [quiet.clock]
  prints := quiet.prints

omit [Scalar α] in
theorem Sent.precedes
    {looks : Nat}
    {events : List (SolverEvent α)}
    {verdict : Verdict α}
    {run next : SolveRun (JournaledSolver σ α) τ α}
    (sent : Sent looks events verdict run next) :
    Precedes run next where
  running := sent.running
  prints := sent.prints

/-- A part of a solve ends with a verdict that the calls of the solve lead to. -/
structure Decides
    [Solver σ α]
    (task : SolveTask α)
    (run next : SolveRun (JournaledSolver σ α) τ α) :
    Prop
    extends Precedes run next where
  decided :
    next.verdict.DecidedBy task next.work next.solver.calls
      next.solver.solver

/-- A part of a solve fails and leaves a verdict behind. -/
structure Leaves
    (task : SolveTask α)
    (run next : SolveRun (JournaledSolver σ α) τ α) :
    Prop where
  running : next.clock.running = run.clock.running
  left : next.verdict.LeftBy task next.work next.solver.calls

/-- How a part of a solve fails: it leaves a verdict behind, or a print is refused. -/
inductive Fails
    (task : SolveTask α)
    (run next : SolveRun (JournaledSolver σ α) τ α)
    (fault : Fault α) :
    Prop
  | left (leaves : Leaves task run next)
  | unprinted
      (running : next.clock.running = run.clock.running)
      (stopped : run.StoppedAt next fault)

theorem Fails.running
    {task : SolveTask α}
    {run next : SolveRun (JournaledSolver σ α) τ α}
    {fault : Fault α}
    (fails : Fails task run next fault) :
    next.clock.running = run.clock.running := by
  cases fails with
  | left leaves => exact leaves.running
  | unprinted running _ => exact running

theorem ends_since
    [Solver σ α]
    {task : SolveTask α}
    {run middle : SolveRun (JournaledSolver σ α) τ α}
    {result :
      EStateM.Result (Fault α) (SolveRun (JournaledSolver σ α) τ α) Unit}
    (ends :
      Ends
        (fun _ next => Decides task middle next)
        (fun fault next => Fails task middle next fault)
        result)
    (precedes : Precedes run middle) :
    Ends
      (fun _ next => Decides task run next)
      (fun fault next => Fails task run next fault)
      result := by
  refine ends.mono ?_ ?_
  · intro _ next decides
    exact ⟨precedes.trans decides.toPrecedes, decides.decided⟩
  · intro fault next fails
    cases fails with
    | left leaves =>
        exact .left ⟨leaves.running.trans precedes.running, leaves.left⟩
    | unprinted running stopped =>
        exact
          .unprinted (running.trans precedes.running)
            (stopped.since precedes.prints)

/-- A solve that fails before its first call leaves no verdict. -/
theorem Unsent.leaves
    {task : SolveTask α}
    {run next : SolveRun (JournaledSolver σ α) τ α}
    (unsent : Unsent run)
    (same : Quiet run next) :
    Leaves task run next where
  running := by rw [same.clock]
  left := by
    rw [same.verdict, same.solver, unsent.verdict, unsent.calls]
    exact .inl rfl

/-- A solve that has sent its opening requests for the prepared problem, and nothing else. -/
structure Opened
    (task : SolveTask α)
    (checks : List (SolverCall α))
    (run : SolveRun (JournaledSolver σ α) τ α) :
    Prop where
  prepared : task.prepared? = some run.work
  checked : checks.map SolverCall.request = task.openingRequests run.work
  record : run.solver.calls = checks
  reads : run.clock.reads = checks.length
  verdict : run.verdict = .unsolved

/-- A solve whose last call was the request for the problem itself, which was answered. -/
structure Answered
    [Solver σ α]
    (task : SolveTask α)
    (checks : List (SolverCall α))
    (plain : SolverCall α)
    (run : SolveRun (JournaledSolver σ α) τ α) :
    Prop where
  opening : Opening task run.work checks plain
  answered : ∃ outcome, plain.answer = .ok outcome
  report : plain.report = Solver.report run.solver
  record : run.solver.calls = checks ++ [plain]
  reads : run.clock.reads = checks.length + 1
  verdict : run.verdict = .solved false

namespace SolveM

variable [Solver σ α]

/--
The opening of a solve sends the requests of a Slater check if one is asked for, unless
a print of the check is refused.
-/
theorem openWithSlater_ends
    (task : SolveTask α)
    {run : SolveRun (JournaledSolver σ α) τ α}
    (fresh : run.clock.reads = 0) :
    Ends
      (fun _ next => Requested (task.openingRequests run.work) run next)
      (fun fault next =>
        next.clock.running = run.clock.running ∧ run.StoppedAt next fault)
      (openWithSlater task run) := by
  unfold openWithSlater SolveTask.openingRequests
  by_cases isOff : task.settings.slaterCheck = .off
  · rw [if_neg (not_not.mpr isOff), if_pos isOff]
    exact .none ⟨⟨rfl, rfl, rfl, Nat.le_refl _⟩, rfl⟩
  · rw [if_pos isOff, if_neg isOff]
    refine timed_ends ((checkSlater_ends task false _).mono ?_ ?_)
    · rintro _ next ⟨calls, requests, sent⟩
      rw [fresh] at requests
      exact ⟨calls, requests, sent.acrossPhases⟩
    · rintro fault next ⟨⟨_, _, calls, _, sent⟩, stopped⟩
      exact ⟨sent.running, stopped.later, stopped.refused⟩

/-- After its answer, the problem is solved unless the solver does not stand by the answer. -/
theorem acceptOrRecover_ends
    {task : SolveTask α}
    {checks : List (SolverCall α)}
    {plain : SolverCall α}
    {run : SolveRun (JournaledSolver σ α) τ α}
    (start : Answered task checks plain run) :
    Ends
      (fun _ next => Decides task run next)
      (fun fault next => Fails task run next fault)
      (acceptOrRecover task run) := by
  have solvedIf :
      plain.report.flags.acceptable = true ∨
          task.timeLimit - task.watch run.clock.reads ≤ 0 →
        run.verdict.DecidedBy task run.work run.solver.calls
          run.solver.solver := by
    intro reason
    rw [start.verdict, start.record]
    refine
      ⟨checks, plain, rfl, start.opening, start.answered, start.report, ?_⟩
    rw [List.length_append, List.length_singleton, ← start.reads]
    exact reason
  refine Ends.bind (report_ends run) (fun _ _ => False.elim) ?_
  rintro _ run ⟨rfl, rfl⟩
  rw [← start.report]
  split
  · rename_i acceptable
    exact ⟨⟨rfl, Nat.le_refl _⟩, solvedIf (.inl acceptable)⟩
  rename_i unacceptable
  refine Ends.bind (timeIsUp_ends task run) (fun _ _ => False.elim) ?_
  rintro _ _ ⟨rfl, rfl⟩
  split
  · rename_i isUp
    exact ⟨⟨rfl, Nat.le_refl _⟩, solvedIf (.inr (of_decide_eq_true isUp))⟩
  rename_i isLeft
  have leaves
      {next : SolveRun (JournaledSolver σ α) τ α}
      {looks : Nat}
      {events : List (SolverEvent α)}
      (sent : Sent looks events run.verdict run next) :
      Leaves task run next := by
    refine ⟨sent.running, ?_⟩
    rw [sent.verdict, sent.work, sent.calls, start.verdict, start.record,
      List.append_assoc]
    exact
      ⟨checks, plain, _, rfl, start.opening, start.answered,
        Bool.eq_false_iff.mpr unacceptable⟩
  refine timed_ends ((recover_ends task _).mono ?_ ?_)
  · rintro _ next ⟨course, recovered⟩
    obtain ⟨looks, sent⟩ := recovered.sent
    have calls :
        next.solver.calls =
          checks ++ plain :: course.violation ::
            (course.rounds.map PenaltyRound.call ++ course.explanation) := by
      rw [sent.calls, course.filterMap_call?_events]
      change run.solver.calls ++ _ = _
      rw [start.record, List.append_assoc]
      rfl
    have recovery :
        Recovery task run.work checks plain course.violation :=
      {
        start.opening with
        answered := start.answered
        unacceptable := Bool.eq_false_iff.mpr unacceptable
        timeLeft := by
          rw [← start.reads]
          exact fun isUp => isLeft (decide_eq_true isUp)
        askedViolation := by
          rw [recovered.isFor.violation]
          change task.violationRequest run.work (run.clock.reads + 1) = _
          rw [start.reads]
      }
    refine ⟨⟨sent.running, sent.prints⟩, ?_⟩
    change
      next.verdict.DecidedBy task next.work next.solver.calls
        next.solver.solver
    rw [calls, sent.work]
    exact recovered.recoveredBy.decidedBy recovery
  · intro fault next fails
    cases fails with
    | unanswered call =>
        obtain ⟨looks, events, sent⟩ := call.sent
        exact .left (leaves (sent.acrossPhases.of_looked))
    | refused refuses course isFor sent refused ended =>
        obtain ⟨looks, sent⟩ := sent
        exact .left (leaves (sent.acrossPhases.of_looked))
    | unprinted course isFor sent settles ended explains stopped =>
        obtain ⟨looks, sent⟩ := sent
        exact .unprinted sent.running ⟨stopped.later, stopped.refused⟩

/-- Handing the problem to the solver is answered, or leaves no verdict. -/
theorem solveDirectly_answers
    {task : SolveTask α}
    {checks : List (SolverCall α)}
    {run : SolveRun (JournaledSolver σ α) τ α}
    (opened : Opened task checks run) :
    Ends
      (fun _ next =>
        Precedes run next ∧
        ∃ plain,
          Answered task checks plain { next with verdict := .solved false })
      (fun _ next => Leaves task run next)
      (timed "backend" (solveDirectly task) run) := by
  have opening :
      ∀ answer report,
        Opening task run.work checks
          ⟨task.plainRequest run.work run.clock.reads, answer, report⟩ :=
    fun answer report =>
      ⟨opened.prepared, opened.checked, by rw [opened.reads]⟩
  refine timed_ends ((solveDirectly_ends task _).mono ?_ ?_)
  · rintro _ next ⟨outcome, sent⟩
    refine
      ⟨⟨sent.running, sent.prints⟩,
        ⟨task.plainRequest run.work run.clock.reads, .ok outcome,
          Solver.report next.solver⟩, ?_⟩
    exact
      {
        opening := by
          change Opening task next.work checks _
          rw [sent.work]
          exact opening _ _
        answered := ⟨outcome, rfl⟩
        report := rfl
        record := by
          rw [← opened.record]
          exact sent.calls
        reads := by
          change next.clock.reads = _
          rw [sent.clock, ← opened.reads]
        verdict := rfl
      }
  · rintro fault next ⟨reason, sent⟩
    refine ⟨sent.running, ?_⟩
    change next.verdict.LeftBy task next.work next.solver.calls
    rw [sent.verdict, sent.work, sent.calls]
    change run.verdict.LeftBy task run.work (run.solver.calls ++ _)
    rw [opened.verdict, opened.record]
    exact .inr ⟨checks, _, reason, rfl, opening _ _, rfl⟩

/-- The part of a solve with the solver decides it, or is left by a failed call. -/
theorem solveBySolver_ends
    {task : SolveTask α}
    {run : SolveRun (JournaledSolver σ α) τ α}
    (unsent : Unsent run)
    (prepared : task.prepared? = some run.work) :
    Ends
      (fun _ next => Decides task run next)
      (fun fault next => Fails task run next fault)
      (solveBySolver task run) := by
  refine Ends.bind (openWithSlater_ends task unsent.reads) ?_ ?_
  · rintro fault next ⟨running, stopped⟩
    exact .unprinted running stopped
  rintro _ opened ⟨checks, requests, sent⟩
  have isOpened : Opened task checks opened :=
    {
      prepared := by rw [sent.work, prepared]
      checked := by rw [sent.work, requests]
      record := by
        rw [sent.calls, unsent.calls, List.nil_append, List.filterMap_map]
        exact List.filterMap_some
      reads := by rw [sent.clock, unsent.reads, Nat.zero_add]
      verdict := by rw [sent.verdict, unsent.verdict]
    }
  refine Ends.bind (solveDirectly_answers isOpened) ?_ ?_
  · intro fault next leaves
    exact .left ⟨leaves.running.trans sent.running, leaves.left⟩
  rintro _ solved ⟨precedes, plain, answered⟩
  refine
    Ends.bind (settle_ends (.solved false) solved) (fun _ _ => False.elim) ?_
  rintro _ settled rfl
  have before : Precedes run { solved with verdict := .solved false } :=
    sent.precedes.trans ⟨precedes.running, precedes.prints⟩
  exact ends_since (acceptOrRecover_ends answered) before

/-- A verdict that takes no call is settled directly. -/
theorem settleDirectly_ends
    {task : SolveTask α}
    {verdict : Verdict α}
    {count : Tally → Tally}
    {run : SolveRun (JournaledSolver σ α) τ α}
    (unsent : Unsent run)
    (direct :
      ∀ work (solver : σ), verdict.DecidedBy task work [] solver) :
    Ends
      (fun _ next => Decides task run next)
      (fun fault next => Fails task run next fault)
      (settleDirectly verdict count run) := by
  refine ⟨⟨rfl, Nat.le_refl _⟩, ?_⟩
  change verdict.DecidedBy task run.work run.solver.calls _
  rw [unsent.calls]
  exact direct run.work _

/-- A solve of a problem that presolve left open is decided, or left by a failure. -/
theorem solveUndecided_ends
    [OneVariableSolver τ α]
    {task : SolveTask α}
    {fixedObjective : α}
    {run : SolveRun (JournaledSolver σ α) τ α}
    (unsent : Unsent run)
    (prepared : task.prepared? = some (run.work.compacted task.store)) :
    Ends
      (fun _ next => Decides task run next)
      (fun fault next => Fails task run next fault)
      (solveUndecided task fixedObjective run) := by
  rw [solveUndecided_eq]
  have tried :
      Ends
        (fun _ next => Untouched run next)
        (fun _ next => Untouched run next)
        (timed "onevar" (solveOneVariable task fixedObjective) run) := by
    refine timed_ends ((solveOneVariable_ends task fixedObjective _).mono ?_ ?_)
    · exact fun _ _ untouched => untouched.acrossPhases
    · exact fun _ _ untouched => untouched.acrossPhases
  refine
    Ends.bind tried (fun _ _ same => .left (unsent.leaves same.toQuiet)) ?_
  intro result tried untouched
  cases result with
  | some result =>
      refine ends_since ?_ untouched.precedes
      exact settleDirectly_ends (unsent.quiet untouched.toQuiet) (fun _ _ => rfl)
  | none =>
      have compacted :
          Ends
            (fun _ next =>
              task.prepared? = some next.work ∧ Quiet run next)
            (fun _ next => Quiet run next)
            (timed "preprocess" (compact task) tried) := by
        refine timed_ends ((compact_ends task _).mono ?_ ?_)
        · rintro _ _ rfl
          refine ⟨?_, untouched.solver, untouched.clock, untouched.verdict,
            untouched.prints⟩
          rw [prepared, ← untouched.work]
        · rintro _ _ rfl
          exact
            ⟨untouched.solver, untouched.clock, untouched.verdict,
              untouched.prints⟩
      refine
        Ends.bind compacted (fun _ _ same => .left (unsent.leaves same)) ?_
      rintro _ ready ⟨isPrepared, same⟩
      refine ends_since ?_ same.precedes
      exact solveBySolver_ends (unsent.quiet same) isPrepared

/-- A whole solve is decided by its calls, or left by a failure. -/
theorem solve_ends
    [OneVariableSolver τ α]
    {task : SolveTask α}
    {run : SolveRun (JournaledSolver σ α) τ α}
    (unsent : Unsent run) :
    Ends
      (fun _ next => Decides task run next)
      (fun fault next => Fails task run next fault)
      (solve task run) := by
  unfold solve
  split
  · rename_i contradict
    exact settleDirectly_ends unsent (fun _ _ => ⟨rfl, .inl contradict⟩)
  rename_i consistent
  rw [Bool.not_eq_true] at consistent
  have presolved :
      Ends
        (fun outcome next =>
          Quiet run next ∧
          task.presolved = .ok outcome ∧
          ∀ fixedObjective,
            outcome = .undecided fixedObjective →
            task.prepared? = some (next.work.compacted task.store))
        (fun _ next => Quiet run next)
        (timed "preprocess" (presolve task) run) := by
    refine timed_ends ((presolve_ends task _).mono ?_ ?_)
    · rintro outcome next ⟨quiet, presolved⟩
      exact ⟨quiet.acrossPhases, presolved⟩
    · exact fun _ _ quiet => quiet.acrossPhases
  refine Ends.bind presolved (fun _ _ same => .left (unsent.leaves same)) ?_
  rintro outcome found ⟨same, isOutcome, prepared⟩
  have foundUnsent := unsent.quiet same
  refine ends_since ?_ same.precedes
  cases outcome with
  | infeasible =>
      exact
        settleDirectly_ends foundUnsent (fun _ _ => ⟨rfl, .inr isOutcome⟩)
  | allFixed feasible =>
      cases feasible with
      | true =>
          exact
            settleDirectly_ends foundUnsent
              (fun _ _ => ⟨rfl, consistent, isOutcome⟩)
      | false =>
          exact
            settleDirectly_ends foundUnsent
              (fun _ _ => ⟨rfl, consistent, isOutcome⟩)
  | undecided fixedObjective =>
      exact solveUndecided_ends foundUnsent (prepared fixedObjective rfl)

end SolveM

end SdpRelay
