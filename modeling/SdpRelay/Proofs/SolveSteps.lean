import SdpRelay.Proofs.PreparedWorkspace
import SdpRelay.Proofs.SolveParts
import SdpRelay.Proofs.SolverCalls

namespace SdpRelay

/-!
# The steps of a solve, call by call

What each step of a solve adds to the journal of its solver.  `Sent` counts looks
at the clock and lists events; `Quiet` and `Untouched` are steps that send
nothing.  The requests themselves are stated by the task and the workspace alone.
A step can also end because a print is refused; `StoppedAt` says which one.
-/

variable {σ τ α β : Type}

/-- A run after one more look at the clock. -/
def SolveRun.looked (run : SolveRun σ τ α) : SolveRun σ τ α :=
  { run with clock := { run.clock with reads := run.clock.reads + 1 } }

/-- A fault is that of the last print of the second run, which the first one had not come to. -/
structure SolveRun.StoppedAt
    (run next : SolveRun σ τ α)
    (fault : Fault α) :
    Prop where
  later : run.outlet.prints < next.outlet.prints
  refused :
    ∃ refusal,
      next.outlet.refusals (next.outlet.prints - 1) = some refusal ∧
        fault = .file refusal

/-- No print from one run on to another was refused. -/
def SolveRun.PrintsTaken (run next : SolveRun σ τ α) : Prop :=
  ∀ print,
    run.outlet.prints ≤ print →
    print < next.outlet.prints →
    next.outlet.refusals print = none

theorem SolveRun.StoppedAt.not_printsTaken
    {run next : SolveRun σ τ α}
    {fault : Fault α}
    (stopped : run.StoppedAt next fault) :
    ¬ run.PrintsTaken next := by
  intro taken
  obtain ⟨refusal, refused, _⟩ := stopped.refused
  have later := stopped.later
  rw [taken (next.outlet.prints - 1) (by omega) (by omega)] at refused
  cases refused

/-- What comes before a refused print may be told with it. -/
theorem SolveRun.StoppedAt.since
    {run middle next : SolveRun σ τ α}
    {fault : Fault α}
    (stopped : middle.StoppedAt next fault)
    (prints : run.outlet.prints ≤ middle.outlet.prints) :
    run.StoppedAt next fault where
  later := Nat.lt_of_le_of_lt prints stopped.later
  refused := stopped.refused

/-- What a part of a solve did: looks at the clock, events, and at most a new verdict. -/
structure Sent
    (looks : Nat)
    (events : List (SolverEvent α))
    (verdict : Verdict α)
    (run next : SolveRun (JournaledSolver σ α) τ α) :
    Prop where
  journal : next.solver.journal = run.solver.journal ++ events
  work : next.work = run.work
  clock : next.clock = { run.clock with reads := run.clock.reads + looks }
  verdict : next.verdict = verdict
  prints : run.outlet.prints ≤ next.outlet.prints

namespace Sent

variable {run middle next : SolveRun (JournaledSolver σ α) τ α}

theorem trans
    {firstLooks secondLooks : Nat}
    {firstEvents secondEvents : List (SolverEvent α)}
    {firstVerdict secondVerdict : Verdict α}
    (first : Sent firstLooks firstEvents firstVerdict run middle)
    (second : Sent secondLooks secondEvents secondVerdict middle next) :
    Sent (firstLooks + secondLooks) (firstEvents ++ secondEvents)
      secondVerdict run next where
  journal := by rw [second.journal, first.journal, List.append_assoc]
  work := second.work.trans first.work
  clock := by
    rw [second.clock, first.clock]
    simp only [Nat.add_assoc]
  verdict := second.verdict
  prints := Nat.le_trans first.prints second.prints

/-- The calls of a part of a solve are those among its events. -/
theorem calls
    {looks : Nat}
    {events : List (SolverEvent α)}
    {verdict : Verdict α}
    (sent : Sent looks events verdict run next) :
    next.solver.calls =
      run.solver.calls ++ events.filterMap SolverEvent.call? := by
  rw [JournaledSolver.calls, sent.journal, List.filterMap_append]
  rfl

theorem running
    {looks : Nat}
    {events : List (SolverEvent α)}
    {verdict : Verdict α}
    (sent : Sent looks events verdict run next) :
    next.clock.running = run.clock.running := by
  rw [sent.clock]

theorem acrossPhases
    {looks : Nat}
    {events : List (SolverEvent α)}
    {verdict : Verdict α}
    {entered left : Phases}
    (sent : Sent looks events verdict { run with phases := entered } next) :
    Sent looks events verdict run { next with phases := left } where
  journal := sent.journal
  work := sent.work
  clock := sent.clock
  verdict := sent.verdict
  prints := sent.prints

/-- A look at the clock before a part of a solve counts with it. -/
theorem of_looked
    {looks : Nat}
    {events : List (SolverEvent α)}
    {verdict : Verdict α}
    (sent : Sent looks events verdict run.looked next) :
    Sent (looks + 1) events verdict run next where
  journal := sent.journal
  work := sent.work
  clock := by
    rw [sent.clock, Nat.add_comm looks 1, ← Nat.add_assoc]
    rfl
  verdict := sent.verdict
  prints := sent.prints

end Sent

/-- A part of a solve sent nothing, did not look at the clock, and kept the verdict. -/
structure Quiet (run next : SolveRun σ τ α) : Prop where
  solver : next.solver = run.solver
  clock : next.clock = run.clock
  verdict : next.verdict = run.verdict
  prints : run.outlet.prints ≤ next.outlet.prints

/-- A quiet part of a solve also left the workspace alone. -/
structure Untouched (run next : SolveRun σ τ α) : Prop
    extends Quiet run next where
  work : next.work = run.work

theorem Quiet.acrossPhases
    {run next : SolveRun σ τ α}
    {entered left : Phases}
    (quiet : Quiet { run with phases := entered } next) :
    Quiet run { next with phases := left } where
  solver := quiet.solver
  clock := quiet.clock
  verdict := quiet.verdict
  prints := quiet.prints

theorem Untouched.acrossPhases
    {run next : SolveRun σ τ α}
    {entered left : Phases}
    (untouched : Untouched { run with phases := entered } next) :
    Untouched run { next with phases := left } where
  toQuiet := untouched.toQuiet.acrossPhases
  work := untouched.work

theorem Untouched.sent
    {run next : SolveRun (JournaledSolver σ α) τ α}
    (untouched : Untouched run next) :
    Sent 0 [] run.verdict run next where
  journal := by simp [untouched.solver]
  work := untouched.work
  clock := untouched.clock
  verdict := untouched.verdict
  prints := untouched.prints

/-- A solve that has sent nothing yet. -/
structure Unsent (run : SolveRun (JournaledSolver σ α) τ α) : Prop where
  calls : run.solver.calls = []
  reads : run.clock.reads = 0
  verdict : run.verdict = .unsolved

theorem Unsent.quiet
    {run next : SolveRun (JournaledSolver σ α) τ α}
    (unsent : Unsent run)
    (same : Quiet run next) :
    Unsent next where
  calls := by rw [same.solver, unsent.calls]
  reads := by rw [same.clock, unsent.reads]
  verdict := by rw [same.verdict, unsent.verdict]

/-- A part of a solve sent one request, and kept the verdict. -/
def Asked
    [Solver σ α]
    (looks : Nat)
    (request : SolveRequest α)
    (answer : Except SolverFault PenaltyOutcome)
    (run next : SolveRun (JournaledSolver σ α) τ α) :
    Prop :=
  Sent looks [.asked ⟨request, answer, Solver.report next.solver⟩] run.verdict
    run next

theorem Asked.untouched
    [Solver σ α]
    {looks : Nat}
    {request : SolveRequest α}
    {answer : Except SolverFault PenaltyOutcome}
    {run middle next : SolveRun (JournaledSolver σ α) τ α}
    (asked : Asked looks request answer run middle)
    (untouched : Untouched middle next) :
    Asked looks request answer run next := by
  unfold Asked at asked ⊢
  rw [untouched.solver, ← asked.verdict]
  exact asked.trans untouched.sent

/-- A part of a solve sent the given requests with one look at the clock for each. -/
def Requested
    (requests : List (SolveRequest α))
    (run next : SolveRun (JournaledSolver σ α) τ α) :
    Prop :=
  ∃ calls : List (SolverCall α),
    calls.map SolverCall.request = requests ∧
    Sent calls.length (calls.map .asked) run.verdict run next

namespace Requested

variable {run middle next : SolveRun (JournaledSolver σ α) τ α}

theorem none (untouched : Untouched run next) :
    Requested [] run next :=
  ⟨[], rfl, untouched.sent⟩

theorem work
    {requests : List (SolveRequest α)}
    (requested : Requested requests run next) :
    next.work = run.work := by
  obtain ⟨calls, _, sent⟩ := requested
  exact sent.work

theorem reads
    {requests : List (SolveRequest α)}
    (requested : Requested requests run next) :
    next.clock.reads = run.clock.reads + requests.length := by
  obtain ⟨calls, rfl, sent⟩ := requested
  rw [sent.clock, List.length_map]

theorem prints
    {requests : List (SolveRequest α)}
    (requested : Requested requests run next) :
    run.outlet.prints ≤ next.outlet.prints := by
  obtain ⟨calls, _, sent⟩ := requested
  exact sent.prints

theorem trans
    {firstRequests secondRequests : List (SolveRequest α)}
    (first : Requested firstRequests run middle)
    (second : Requested secondRequests middle next) :
    Requested (firstRequests ++ secondRequests) run next := by
  obtain ⟨firstCalls, rfl, firstSent⟩ := first
  obtain ⟨secondCalls, rfl, secondSent⟩ := second
  rw [firstSent.verdict] at secondSent
  refine ⟨firstCalls ++ secondCalls, List.map_append, ?_⟩
  rw [List.length_append, List.map_append]
  exact firstSent.trans secondSent

theorem of_asked
    [Solver σ α]
    {request : SolveRequest α}
    {answer : Except SolverFault PenaltyOutcome}
    (asked : Asked 1 request answer run next) :
    Requested [request] run next :=
  ⟨[⟨request, answer, Solver.report next.solver⟩], rfl, asked⟩

end Requested

/-- A print was refused when some of the given requests had been sent, from the first one on. -/
structure Interrupted
    (requests : List (SolveRequest α))
    (run next : SolveRun (JournaledSolver σ α) τ α)
    (fault : Fault α) :
    Prop where
  requested : ∃ sent, sent <+: requests ∧ Requested sent run next
  stopped : run.StoppedAt next fault

/-- What the path for one free variable makes of a presolved workspace. -/
def SolveTask.pathResult
    [Scalar α]
    [OneVariableSolver τ α]
    (task : SolveTask α)
    (work : Workspace α)
    (fixedObjective : α)
    (method : τ) :
    Except (Fault α) (Option (OneVariableResult α)) :=
  match work.activeVariables, task.store.blocks with
  | [var], [] => .ok (task.boundedResult? work fixedObjective var)
  | [var], [block] =>
      (answerOf
        (OneVariableSolver.solve task.sentinel
          (task.oneVariableProblem work block var) method)).map
        (Option.map (task.resultOf fixedObjective var))
  | _, _ => .ok none

/--
The path makes something of one active variable only: the favoured bound if there
is no block, and what the method makes of the path problem of a single block.
-/
theorem SolveTask.pathResult_eq_some
    [Scalar α]
    [OneVariableSolver τ α]
    {task : SolveTask α}
    {work : Workspace α}
    {fixedObjective : α}
    {method : τ}
    {result : OneVariableResult α}
    (given :
      task.pathResult work fixedObjective method = .ok (some result)) :
    ∃ var,
      work.activeVariables = [var] ∧
        ((task.store.blocks = [] ∧
            task.boundedResult? work fixedObjective var = some result) ∨
          ∃ block solution next,
            task.store.blocks = [block] ∧
              OneVariableSolver.solve task.sentinel
                  (task.oneVariableProblem work block var) method =
                .ok (some solution) next ∧
              result = task.resultOf fixedObjective var solution) := by
  unfold pathResult at given
  rcases active : work.activeVariables with _ | ⟨var, _ | ⟨second, others⟩⟩
  · simp [active] at given
  · refine ⟨var, rfl, ?_⟩
    rcases shape : task.store.blocks with _ | ⟨block, _ | ⟨another, blocks⟩⟩
    · rw [active, shape] at given
      exact .inl ⟨rfl, Except.ok.inj given⟩
    · rw [active, shape] at given
      dsimp only at given
      cases answer :
          OneVariableSolver.solve task.sentinel
            (task.oneVariableProblem work block var) method with
      | ok solution? next =>
          rw [answer] at given
          obtain ⟨solution, rfl, isResult⟩ :=
            Option.map_eq_some_iff.mp (Except.ok.inj given)
          exact .inr ⟨block, solution, next, rfl, answer, isResult.symm⟩
      | error fault next =>
          rw [answer] at given
          cases given
    · simp [active, shape] at given
  · simp [active] at given

/-- The method for one free variable fails in some way on some problem. -/
def OneVariableSolver.FailsWith
    [OneVariableSolver τ α]
    (sentinel : α)
    (method : τ)
    (fault : Fault α) :
    Prop :=
  ∃ problem next,
    OneVariableSolver.solve sentinel problem method = .error fault next

/-- The path fails only as its method does. -/
theorem SolveTask.pathResult_eq_error
    [Scalar α]
    [OneVariableSolver τ α]
    {task : SolveTask α}
    {work : Workspace α}
    {fixedObjective : α}
    {method : τ}
    {fault : Fault α}
    (failed : task.pathResult work fixedObjective method = .error fault) :
    OneVariableSolver.FailsWith task.sentinel method fault := by
  unfold pathResult at failed
  split at failed
  · cases failed
  · rename_i var block _ _
    cases answer :
        OneVariableSolver.solve task.sentinel
          (task.oneVariableProblem work block var) method with
    | ok solution next =>
        rw [answer] at failed
        cases failed
    | error other next =>
        rw [answer] at failed
        cases failed
        exact ⟨_, next, answer⟩
  · cases failed

namespace SolveM

/-- A timed step ends as the step itself, apart from the phases. -/
theorem timed_ends
    {onAnswer : β → SolveRun σ τ α → Prop}
    {onFault : Fault α → SolveRun σ τ α → Prop}
    {name : String}
    {step : SolveM σ τ α β}
    {run : SolveRun σ τ α}
    (ends :
      Ends
        (fun answer next =>
          onAnswer answer { next with phases := next.phases.leave })
        (fun fault next =>
          onFault fault { next with phases := next.phases.leave })
        (step { run with phases := run.phases.enter name })) :
    Ends onAnswer onFault (timed name step run) := by
  unfold timed
  cases result : step { run with phases := run.phases.enter name } with
  | ok answer next =>
      rw [result] at ends
      exact ends
  | error fault next =>
      rw [result] at ends
      exact ends

/-- A change of a run that leaves alone what the record is about. -/
theorem modify_ends
    {change : SolveRun σ τ α → SolveRun σ τ α}
    {run : SolveRun σ τ α}
    (untouched : Untouched run (change run)) :
    Ends
      (fun _ next => Untouched run next)
      (fun _ _ => False)
      ((modify change : SolveM σ τ α PUnit) run) :=
  untouched

/-- An observed step does not fail. -/
theorem observe_ends
    {onAnswer : Except (Fault α) β → SolveRun σ τ α → Prop}
    {onFault : Fault α → SolveRun σ τ α → Prop}
    {step : SolveM σ τ α β}
    {run : SolveRun σ τ α}
    (ends :
      Ends
        (fun answer next => onAnswer (.ok answer) next)
        (fun fault next => onAnswer (.error fault) next)
        (step run)) :
    Ends onAnswer onFault (observe step run) := by
  unfold observe
  cases result : step run with
  | ok answer next =>
      rw [result] at ends
      exact ends
  | error fault next =>
      rw [result] at ends
      exact ends

/-- Settling on a verdict changes nothing else. -/
theorem settle_ends
    (verdict : Verdict α)
    (run : SolveRun σ τ α) :
    Ends
      (fun _ next => next = { run with verdict := verdict })
      (fun _ _ => False)
      (settle verdict run) :=
  rfl

/-- A print leaves alone what the record is about, and fails if the target refuses it. -/
theorem notify_ends
    (notice : Notice α)
    (run : SolveRun σ τ α) :
    Ends
      (fun _ next => Untouched run next)
      (fun fault next => Untouched run next ∧ run.StoppedAt next fault)
      (notify notice run) := by
  have later : run.outlet.prints ≤ run.outlet.prints + 1 :=
    Nat.le_succ _
  unfold notify
  cases refused : run.outlet.refusal? with
  | none =>
      exact ⟨⟨rfl, rfl, rfl, later⟩, rfl⟩
  | some refusal =>
      exact
        ⟨⟨⟨rfl, rfl, rfl, later⟩, rfl⟩,
          ⟨Nat.lt_succ_self _, refusal, refused, rfl⟩⟩

/-- Announcing a finding prints something at most. -/
theorem announce_ends
    (task : SolveTask α)
    (explains : Bool)
    (finding : SlaterFinding α)
    (run : SolveRun σ τ α) :
    Ends
      (fun _ next => Untouched run next)
      (fun fault next => Untouched run next ∧ run.StoppedAt next fault)
      (announce task explains finding run) := by
  unfold announce
  split
  · exact notify_ends _ run
  · split
    · exact notify_ends _ run
    · exact ⟨⟨rfl, rfl, rfl, Nat.le_refl _⟩, rfl⟩

/-- Asking the method for one free variable leaves alone what the record is about. -/
theorem askOneVariable_ends
    [OneVariableSolver τ α]
    (task : SolveTask α)
    (problem : OneVariableProblem α)
    (run : SolveRun σ τ α) :
    Ends
      (fun _ next => Untouched run next)
      (fun _ next => Untouched run next)
      (askOneVariable task problem run) := by
  unfold askOneVariable
  cases OneVariableSolver.solve task.sentinel problem run.oneVariable with
  | ok solution method =>
      exact ⟨⟨rfl, rfl, rfl, Nat.le_refl _⟩, rfl⟩
  | error fault method =>
      exact ⟨⟨rfl, rfl, rfl, Nat.le_refl _⟩, rfl⟩

variable [Solver σ α]

/-- Reading the report of the solver changes nothing. -/
theorem report_ends
    (run : SolveRun σ τ α) :
    Ends
      (fun seen next => seen = Solver.report run.solver ∧ next = run)
      (fun _ _ => False)
      (report run) :=
  ⟨rfl, rfl⟩

/-- A request to the solver of a run is one call. -/
theorem askSolver_solve_ends
    (request : SolveRequest α)
    (run : SolveRun (JournaledSolver σ α) τ α) :
    Ends
      (fun outcome next => Asked 0 request (.ok outcome) run next)
      (fun _ next =>
        ¬ Solver.AlwaysAnswers σ ∧
          ∃ reason, Asked 0 request (.error reason) run next)
      (askSolver (Solver.solve request) run) := by
  have ends := JournaledSolver.solve_ends request run.solver
  unfold askSolver
  cases result : Solver.solve request run.solver with
  | ok outcome next =>
      rw [result] at ends
      exact ⟨ends, rfl, rfl, rfl, Nat.le_refl _⟩
  | error reason next =>
      rw [result] at ends
      refine ⟨?_, reason, ends.2, rfl, rfl, rfl, Nat.le_refl _⟩
      exact ends.1

/-- A parameter that is passed on is noted, and reports stay if they stand in the solver. -/
theorem askSolver_forward_ends
    (parameter : Parameter)
    (value : α)
    (run : SolveRun (JournaledSolver σ α) τ α) :
    Ends
      (fun _ next =>
        ∃ reply,
          SolverEvent.Takes reply ∧
            Sent 0 [.told parameter value reply] run.verdict run next ∧
            (ReportsStand σ →
              Solver.report next.solver = Solver.report run.solver))
      (fun fault next =>
        ¬ Solver.AlwaysTakes σ parameter ∧
          ∃ reason,
            reason ≠ .parameterUnknown ∧
              fault = .solver reason ∧
              Sent 0 [.told parameter value (.error reason)] run.verdict run
                next)
      (askSolver (Solver.forward parameter value) run) := by
  have ends := JournaledSolver.forward_ends parameter value run.solver
  have state := Solver.stateAfter_forward parameter value run.solver
  unfold askSolver
  cases result : Solver.forward parameter value run.solver with
  | ok answer next =>
      rw [result] at ends state
      obtain ⟨reply, takes, noted⟩ := ends
      refine
        ⟨reply, takes, ⟨noted, rfl, rfl, rfl, Nat.le_refl _⟩, ?_⟩
      intro stand
      have report := stand.journaled parameter value run.solver
      rw [← state] at report
      exact report
  | error reason next =>
      rw [result] at ends
      obtain ⟨refuses, known, noted⟩ := ends
      exact
        ⟨refuses, reason, known, rfl, noted, rfl, rfl, rfl, Nat.le_refl _⟩

end SolveM

variable [Scalar α]

namespace SolveTask

/-- A request for the prepared problem, at the given look at the clock. -/
def request
    (task : SolveTask α)
    (work : Workspace α)
    (penalty : Option (PenaltyRequest α))
    (start : Option (WarmStart α))
    (setting : SolverSetting)
    (look : Nat) :
    SolveRequest α :=
  {
    problem := PreparedProblem.ofWorkspace task.store work
    penalty := penalty
    start := start
    setting := setting
    timeLeft := task.timeLimit - task.watch look
  }

/-- The request for the problem itself. -/
def plainRequest
    (task : SolveTask α)
    (work : Workspace α)
    (look : Nat) :
    SolveRequest α :=
  task.request work none task.start task.startSetting look

/-- The request that checks the dual side. -/
def dualCheck
    (task : SolveTask α)
    (work : Workspace α)
    (look : Nat) :
    SolveRequest α :=
  task.request work (some PenaltyRequest.violationOnly) none .unsolved look

/-- The request that checks the primal side. -/
def primalCheck
    (task : SolveTask α)
    (work : Workspace α)
    (look : Nat) :
    SolveRequest α :=
  {
    problem :=
      PrimalFinding.auxiliaryProblem task.sentinel task.settings.epsilon
        task.store work
    penalty := none
    start := none
    setting := .unsolved
    timeLeft := task.timeLimit - task.watch look
  }

/-- The primal side is checked unless all variables have finite bounds. -/
def primalChecks
    (task : SolveTask α)
    (work : Workspace α)
    (look : Nat) :
    List (SolveRequest α) :=
  if PrimalFinding.allBounded task.sentinel work.bounds.lower
      work.bounds.upper then
    []
  else
    [task.primalCheck work look]

/-- The requests of a Slater check. -/
def slaterRequests
    (task : SolveTask α)
    (work : Workspace α)
    (look : Nat) :
    List (SolveRequest α) :=
  task.dualCheck work look :: task.primalChecks work (look + 1)

end SolveTask

namespace SolveM

/-- Asking for the time that is left is a look at the clock. -/
theorem timeLeft_ends
    (task : SolveTask α)
    (run : SolveRun σ τ α) :
    Ends
      (fun left next =>
        left = task.timeLimit - task.watch run.clock.reads ∧
          next = run.looked)
      (fun _ _ => False)
      (timeLeft task run) :=
  ⟨rfl, rfl⟩

/-- Asking whether the time is up is a look at the clock, too. -/
theorem timeIsUp_ends
    (task : SolveTask α)
    (run : SolveRun σ τ α) :
    Ends
      (fun isUp next =>
        isUp = decide (task.timeLimit - task.watch run.clock.reads ≤ 0) ∧
          next = run.looked)
      (fun _ _ => False)
      (timeIsUp task run) :=
  ⟨rfl, rfl⟩

/-- Presolve writes to the workspace only, where it stops if there is no memory. -/
theorem presolve_writes
    (task : SolveTask α)
    (run : SolveRun σ τ α) :
    Ends
      (fun outcome next =>
        run.work.presolve task.store task.sentinel task.settings =
            (next.work, .ok outcome) ∧
          next = { run with work := next.work })
      (fun fault next =>
        (fault = .compaction .outOfMemory ∨ ∃ reason, fault = .eigen reason) ∧
          next = { run with work := next.work })
      (presolve task run) := by
  unfold presolve
  dsimp only
  split
  · exact ⟨.inl rfl, rfl⟩
  split
  · exact ⟨.inl rfl, rfl⟩
  split
  · split
    · exact ⟨Prod.ext rfl ‹_›, rfl⟩
    · exact ⟨.inl rfl, rfl⟩
  · exact ⟨Prod.ext rfl ‹_›, rfl⟩
  · exact ⟨.inr ⟨_, rfl⟩, rfl⟩

/-- What holds of a run with whatever workspace holds after presolve. -/
theorem presolve_stays
    {task : SolveTask α}
    {run : SolveRun σ τ α}
    {holds : SolveRun σ τ α → Prop}
    (written : ∀ work, holds { run with work := work }) :
    Ends (fun _ => holds) (fun _ => holds) (presolve task run) := by
  refine (presolve_writes task run).mono ?_ ?_
  all_goals
    rintro _ next ⟨_, isNext⟩
    rw [isNext]
    exact written next.work

/-- Presolve leaves the solver alone, and prepares the problem if it leaves it open. -/
theorem presolve_ends
    (task : SolveTask α)
    (run : SolveRun σ τ α) :
    Ends
      (fun outcome next =>
        Quiet run next ∧
        task.presolved = .ok outcome ∧
        ∀ fixedObjective,
          outcome = .undecided fixedObjective →
          task.prepared? = some (next.work.compacted task.store))
      (fun _ next => Quiet run next)
      (presolve task run) := by
  have quiet :
      Ends
        (fun _ next => Quiet run next)
        (fun _ next => Quiet run next)
        (presolve task run) :=
    presolve_stays fun _ => ⟨rfl, rfl, rfl, Nat.le_refl _⟩
  refine (quiet.and (presolve_writes task run)).mono ?_ ?_
  · rintro outcome next ⟨quiet, presolved, _⟩
    refine ⟨quiet, ?_, ?_⟩
    · exact (Workspace.presolve_outcome _ _).trans (congrArg Prod.snd presolved)
    · rintro fixedObjective rfl
      exact SolveTask.prepared?_eq presolved
  · exact fun _ _ stopped => stopped.1

/-- Finding the rows and columns to leave out replaces the workspace. -/
theorem compact_ends
    (task : SolveTask α)
    (run : SolveRun σ τ α) :
    Ends
      (fun _ next => next = { run with work := run.work.compacted task.store })
      (fun _ next => next = run)
      (compact task run) := by
  unfold compact
  cases compacted : run.work.compact task.store run.memory with
  | ok work =>
      rw [← (Workspace.compact_eq_ok.mp compacted).2]
      rfl
  | error fault =>
      rfl

/-- So does the whole path for one free variable. -/
theorem solveOneVariable_ends
    [OneVariableSolver τ α]
    (task : SolveTask α)
    (fixedObjective : α)
    (run : SolveRun σ τ α) :
    Ends
      (fun _ next => Untouched run next)
      (fun _ next => Untouched run next)
      (solveOneVariable task fixedObjective run) := by
  have untouched : Untouched run run := ⟨⟨rfl, rfl, rfl, Nat.le_refl _⟩, rfl⟩
  rw [solveOneVariable_eq]
  unfold oneVariableStep
  rcases run.work.activeVariables with _ | ⟨var, _ | ⟨second, others⟩⟩
  · exact untouched
  · rcases task.store.blocks with _ | ⟨block, _ | ⟨another, blocks⟩⟩
    · exact untouched
    · refine Ends.bind (askOneVariable_ends task _ run) (fun _ _ => id) ?_
      intro solution next asked
      exact asked
    · exact untouched
  · exact untouched

/--
The path gives what it makes of the workspace, or fails as it does there, and leaves
the workspace alone.
-/
theorem solveOneVariable_gives
    [OneVariableSolver τ α]
    (task : SolveTask α)
    (fixedObjective : α)
    (run : SolveRun σ τ α) :
    Ends
      (fun answer next =>
        task.pathResult run.work fixedObjective run.oneVariable =
            .ok answer ∧
          next.work = run.work)
      (fun fault _ =>
        task.pathResult run.work fixedObjective run.oneVariable =
          .error fault)
      (solveOneVariable task fixedObjective run) := by
  rw [solveOneVariable_eq]
  unfold oneVariableStep SolveTask.pathResult
  rcases run.work.activeVariables with _ | ⟨var, _ | ⟨second, others⟩⟩
  · exact ⟨rfl, rfl⟩
  · rcases task.store.blocks with _ | ⟨block, _ | ⟨another, blocks⟩⟩
    · exact ⟨rfl, rfl⟩
    · let answered :=
        answerOf
          (OneVariableSolver.solve task.sentinel
            (task.oneVariableProblem run.work block var) run.oneVariable)
      have asked :
          Ends
            (fun solution next =>
              answered = .ok solution ∧ next.work = run.work)
            (fun fault _ => answered = .error fault)
            (askOneVariable task
              (task.oneVariableProblem run.work block var) run) := by
        unfold askOneVariable answered
        cases OneVariableSolver.solve task.sentinel
            (task.oneVariableProblem run.work block var) run.oneVariable with
        | ok solution method =>
            exact ⟨rfl, rfl⟩
        | error fault method =>
            rfl
      refine Ends.bind asked ?_ ?_
      · intro fault next isFault
        change answered.map _ = _
        rw [isFault]
        rfl
      · rintro solution next ⟨isAnswer, sameWork⟩
        refine ⟨?_, sameWork⟩
        change answered.map _ = _
        rw [isAnswer]
        rfl
    · exact ⟨rfl, rfl⟩
  · exact ⟨rfl, rfl⟩

variable [Solver σ α]

/-- A request for the prepared problem looks at the clock once and is one call. -/
theorem solvePrepared_ends
    (task : SolveTask α)
    (penalty : Option (PenaltyRequest α))
    (start : Option (WarmStart α))
    (setting : SolverSetting)
    (run : SolveRun (JournaledSolver σ α) τ α) :
    let request := task.request run.work penalty start setting run.clock.reads
    Ends
      (fun outcome next => Asked 1 request (.ok outcome) run next)
      (fun _ next =>
        ¬ Solver.AlwaysAnswers σ ∧
          ∃ reason, Asked 1 request (.error reason) run next)
      (solvePrepared task penalty start setting run) := by
  intro request
  change Ends _ _ (askSolver (Solver.solve request) run.looked)
  refine (askSolver_solve_ends request run.looked).mono ?_ ?_
  · intro outcome next asked
    exact asked.of_looked
  · rintro fault next ⟨fails, reason, asked⟩
    exact ⟨fails, reason, asked.of_looked⟩

/-- Handing the problem to the solver is one call. -/
theorem solveDirectly_ends
    (task : SolveTask α)
    (run : SolveRun (JournaledSolver σ α) τ α) :
    let request := task.plainRequest run.work run.clock.reads
    Ends
      (fun _ next => ∃ outcome, Asked 1 request (.ok outcome) run next)
      (fun _ next => ∃ reason, Asked 1 request (.error reason) run next)
      (solveDirectly task run) := by
  intro request
  refine
    Ends.bind (solvePrepared_ends task _ _ _ run) (fun _ _ => And.right) ?_
  intro outcome solved asked
  refine (modify_ends ⟨⟨rfl, rfl, rfl, Nat.le_refl _⟩, rfl⟩).mono ?_ (fun _ _ => False.elim)
  intro _ next counted
  exact ⟨outcome, asked.untouched counted⟩

/-- The check of the dual side is one call, whatever comes of it. -/
theorem findDual_ends
    (task : SolveTask α)
    (run : SolveRun (JournaledSolver σ α) τ α) :
    Ends
      (fun _ next =>
        Requested [task.dualCheck run.work run.clock.reads] run next)
      (fun _ _ => False)
      (findDual task run) := by
  have asked :
      Ends
        (fun _ next =>
          Requested [task.dualCheck run.work run.clock.reads] run next)
        (fun _ _ => False)
        (observe
          (solvePrepared task (some PenaltyRequest.violationOnly) none
            .unsolved) run) := by
    refine observe_ends ((solvePrepared_ends task _ _ _ run).mono ?_ ?_)
    · intro outcome next asked
      exact .of_asked asked
    · rintro fault next ⟨_, reason, asked⟩
      exact .of_asked asked
  refine Ends.bind asked (fun _ _ => False.elim) ?_
  intro answer next requested
  cases answer with
  | ok outcome =>
      exact requested
  | error fault =>
      exact requested

/-- The check of the primal side is one call unless all variables have finite bounds. -/
theorem findPrimal_ends
    (task : SolveTask α)
    (run : SolveRun (JournaledSolver σ α) τ α) :
    Ends
      (fun _ next =>
        Requested (task.primalChecks run.work run.clock.reads) run next)
      (fun _ _ => False)
      (findPrimal task run) := by
  by_cases bounded :
      PrimalFinding.allBounded task.sentinel run.work.bounds.lower
        run.work.bounds.upper = true
  · have ends : findPrimal task run = .ok .bounded run := by
      change (if _ then _ else _ : SolveM (JournaledSolver σ α) τ α _) run = _
      rw [if_pos bounded]
      rfl
    rw [ends, SolveTask.primalChecks, if_pos bounded]
    exact .none ⟨⟨rfl, rfl, rfl, Nat.le_refl _⟩, rfl⟩
  · rw [SolveTask.primalChecks, if_neg bounded]
    change Ends _ _ ((if _ then _ else _ : SolveM (JournaledSolver σ α) τ α _) run)
    rw [if_neg bounded]
    refine
      Ends.bind (timeLeft_ends task run) (fun _ _ => False.elim) ?_
    rintro _ _ ⟨rfl, rfl⟩
    have asked :
        Ends
          (fun _ next =>
            Requested
              [task.primalCheck run.work run.clock.reads] run next)
          (fun _ _ => False)
          (observe
            (askSolver
              (Solver.solve (task.primalCheck run.work run.clock.reads)))
            run.looked) := by
      refine observe_ends ((askSolver_solve_ends _ run.looked).mono ?_ ?_)
      · intro outcome next asked
        exact .of_asked asked.of_looked
      · rintro fault next ⟨_, reason, asked⟩
        exact .of_asked asked.of_looked
    refine Ends.bind asked (fun _ _ => False.elim) ?_
    intro answer next requested
    cases answer with
    | ok outcome =>
        exact requested
    | error fault =>
        exact requested

/-- A Slater check sends its requests, unless a print about the first one is refused. -/
theorem checkSlater_ends
    (task : SolveTask α)
    (explains : Bool)
    (run : SolveRun (JournaledSolver σ α) τ α) :
    let requests := task.slaterRequests run.work run.clock.reads
    Ends
      (fun _ next => Requested requests run next)
      (fun fault next => Interrupted requests run next fault)
      (checkSlater task explains run) := by
  intro requests
  refine Ends.bind (findDual_ends task run) (fun _ _ => False.elim) ?_
  intro dual checked dualRequested
  refine
    Ends.bind (modify_ends ⟨⟨rfl, rfl, rfl, Nat.le_refl _⟩, rfl⟩)
      (fun _ _ => False.elim) ?_
  intro _ noted dualNoted
  have untilDual := dualRequested.trans (.none dualNoted)
  refine Ends.bind (announce_ends task explains _ noted) ?_ ?_
  · rintro fault next ⟨announced, stopped⟩
    exact
      ⟨⟨_, List.prefix_append _ _, untilDual.trans (.none announced)⟩,
        stopped.since untilDual.prints⟩
  intro _ announced dualAnnounced
  have soFar := untilDual.trans (.none dualAnnounced)
  refine
    Ends.bind (findPrimal_ends task announced) (fun _ _ => False.elim) ?_
  intro primal found primalRequested
  refine
    Ends.bind (modify_ends ⟨⟨rfl, rfl, rfl, Nat.le_refl _⟩, rfl⟩)
      (fun _ _ => False.elim) ?_
  intro _ kept primalNoted
  have untilPrimal := (soFar.trans primalRequested).trans (.none primalNoted)
  have isWhole {next : SolveRun (JournaledSolver σ α) τ α}
      (announced : Untouched kept next) :
      Requested requests run next := by
    have whole := untilPrimal.trans (.none announced)
    simpa [requests, SolveTask.slaterRequests, soFar.work, soFar.reads]
      using whole
  refine (announce_ends task explains _ kept).mono ?_ ?_
  · exact fun _ _ => isWhole
  · rintro fault next ⟨announced, stopped⟩
    exact
      ⟨⟨_, List.prefix_rfl, isWhole announced⟩,
        stopped.since untilPrimal.prints⟩

end SolveM

end SdpRelay
