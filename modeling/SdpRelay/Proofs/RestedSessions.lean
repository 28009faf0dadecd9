import SdpRelay.Proofs.NestedPhases
import SdpRelay.Proofs.SessionHistory

namespace SdpRelay

/-!
# Sessions at rest after a solve

A solve starts the clock of its session and forgets the phases of earlier solves,
runs its course as one phase, and stops the clock.  Since the course leaves every
phase that it enters and does not touch the clock otherwise, the clock is stopped
and no phase is active whenever a solve returns, so that the next one can start.  A
fault of the clock is then never one of the session's own: only a method for one free
variable can bring it in.
-/

variable {σ τ α : Type}

namespace Session

open SessionM SolveRun

/-- A session with its clock stopped and no phase active, after one solve and nothing else. -/
structure Rested (session : Session σ τ α) : Prop where
  stopped : session.run.clock.running = false
  active : session.run.phases.active = []
  single :
    ∃ parts, session.run.phases.tree = .node "solve" 1 parts .leaf

theorem Rested.of_timing
    {session next : Session σ τ α}
    (rested : session.Rested)
    (same : next.run.timing = session.run.timing) :
    next.Rested := by
  obtain ⟨samePhases, sameRunning⟩ := Prod.mk.inj same
  constructor
  · rw [sameRunning]
    exact rested.stopped
  · rw [samePhases]
    exact rested.active
  · rw [samePhases]
    exact rested.single

variable [Scalar α] [Solver σ α] [OneVariableSolver τ α]

/-- The course of a solve that has just been started enters and leaves one phase. -/
theorem observedCourse_ends
    (task : SolveTask α)
    {run : SolveRun σ τ α}
    (forgotten : run.phases = Phases.idle)
    (going : run.clock.running = true) :
    Ends
      (fun result next =>
        next.clock.running = true ∧
          next.phases.active = [] ∧
          (∃ parts, next.phases.tree = .node "solve" 1 parts .leaf) ∧
          ∀ fault, result = .error fault → fault.OfClock →
            OneVariableSolver.FailsWith task.sentinel run.oneVariable fault)
      (fun _ _ => False)
      (SolveM.observe (SolveM.timed "solve" (SolveM.solve task)) run) := by
  let entered : SolveRun σ τ α :=
    { run with phases := Phases.idle.enter "solve" }
  have stands : entered.phases.Stands := ⟨.leaf, rfl, trivial⟩
  have left
      {next : SolveRun σ τ α}
      (nested : Nested entered next) :
      next.clock.running = true ∧
        next.phases.leave.active = [] ∧
        ∃ parts, next.phases.leave.tree = .node "solve" 1 parts .leaf := by
    have active : next.phases.active = ["solve"] := nested.active
    have roots : next.phases.tree.roots = [("solve", 1)] := nested.roots
    refine ⟨nested.running.trans going, ?_, PhaseTree.eq_node_of_roots roots⟩
    change next.phases.active.dropLast = []
    rw [active]
    rfl
  refine SolveM.observe_ends (SolveM.timed_ends ?_)
  rw [forgotten]
  refine
    (SolveM.solve_nested task stands (List.cons_ne_nil _ _)).mono ?_ ?_
  · intro _ next nested
    obtain ⟨running, active, single⟩ := left nested
    exact ⟨running, active, single, nofun⟩
  · rintro fault next ⟨ofMethod, nested⟩
    obtain ⟨running, active, single⟩ := left nested
    refine ⟨running, active, single, ?_⟩
    rintro _ ⟨⟩
    exact ofMethod

/--
A solve that finds the clock stopped does not fail because of it, unless the method
for one free variable does, and leaves all at rest.
-/
theorem solveTask_rests
    (task : SolveTask α)
    {session : Session σ τ α}
    (stopped : session.run.clock.running = false) :
    Ends
      (fun _ next => next.Rested)
      (fun fault next =>
        (fault.OfClock →
          OneVariableSolver.FailsWith task.sentinel session.run.oneVariable
            fault) ∧
          next.Rested)
      (solveTask task session) := by
  have started :
      Ends
        (fun _ next =>
          next.run.phases = Phases.idle ∧
            next.run.clock.running = true ∧
            next.run.oneVariable = session.run.oneVariable)
        (fun _ _ => False)
        (startClock session) := by
    rw [startClock_eq, if_neg (by simp [stopped])]
    exact ⟨rfl, rfl, rfl⟩
  refine Ends.bind started (fun _ _ => False.elim) ?_
  rintro _ going ⟨forgotten, running, sameMethod⟩
  rw [← sameMethod]
  refine
    Ends.bind (onRun_ends (observedCourse_ends task forgotten running))
      (fun _ _ => False.elim) ?_
  rintro result ended ⟨stillRunning, active, single, faults⟩
  have halted :
      Ends
        (fun _ next => next.Rested)
        (fun _ _ => False)
        (stopClock ended) := by
    rw [stopClock_eq, if_pos stillRunning]
    exact ⟨rfl, active, single⟩
  refine Ends.bind halted (fun _ _ => False.elim) ?_
  intro _ rested isRested
  cases result with
  | error fault =>
      exact ⟨faults fault rfl, isRested⟩
  | ok _ =>
      change Ends _ _ ((printSummary >>= _) rested)
      have keepsTiming :
          Keeps
            (fun session : Session σ τ α => session.run.timing)
            printSummary :=
        printSummary_keeps fun _ _ _ => rfl
      refine
        Ends.bind
          ((printSummary_ends rested).and (keepsTiming.ends rested)) ?_ ?_
      · rintro fault next ⟨⟨_, stopped⟩, same⟩
        obtain ⟨refusal, _, rfl⟩ := stopped.refused
        exact ⟨False.elim, isRested.of_timing same⟩
      · rintro _ next ⟨_, same⟩
        exact isRested.of_timing same

/-- No phase is active between two operations of a session. -/
theorem Reachable.noActivePhase
    {session : Session σ τ α}
    (reachable : session.Reachable) :
    session.run.phases.active = [] := by
  let active (session : Session σ τ α) : List String :=
    session.run.phases.active
  have overlooks : OverlooksCalls active :=
    ⟨fun _ _ => rfl, fun _ _ => rfl, fun _ _ => rfl, fun _ _ _ => rfl,
      fun _ _ => rfl⟩
  have edited (change : Edit α) :
      Keeps active (change.perform : SessionM σ τ α Unit) :=
    change.perform_keeps (fun _ _ => rfl) (fun _ => rfl) (fun _ => rfl)
      (fun _ => rfl)
  induction reachable with
  | assembled sentinel settings solver oneVariable =>
      rfl
  | created created =>
      exact create_keepsUntold overlooks.solver created
  | restored restored =>
      obtain ⟨file, fresh, created, rfl⟩ := exists_of_restore restored
      have freshIdle : active fresh = [] :=
        create_keepsUntold overlooks.solver created
      exact (edited (.load file.program) fresh).trans freshIdle
  | copied before copied inductionHypothesis =>
      obtain ⟨fresh, created, copies⟩ := Check.bind_eq_ok.mp copied
      cases copies
      have freshIdle : active fresh = [] :=
        create_keepsUntold overlooks.solver created
      exact freshIdle
  | @operated session before operation inductionHypothesis =>
      cases operation with
      | edit change =>
          exact (edited change session).trans inductionHypothesis
      | solve options watch =>
          change active (stateAfter (solve options watch session)) = []
          rw [solve_eq]
          split
          · exact inductionHypothesis
          · have stopped : session.cleared.run.clock.running = false :=
              before.atRest.stopped
            have ended :
                Ends
                  (fun _ next => active next = [])
                  (fun _ next => active next = [])
                  (solveTask (session.cleared.task options watch)
                    session.cleared) := by
              refine (solveTask_rests _ stopped).mono ?_ ?_
              · exact fun _ _ rested => rested.active
              · exact fun _ _ failed => failed.2.active
            exact Ends.always_iff.mp ended
      | _ =>
          refine Eq.trans ?_ inductionHypothesis
          exact overlooks.performed_keeps session nofun nofun

/--
Whatever a session has been through, and whatever its problem, its settings, its
solver and its method for one free variable make of a solve: when the solve
returns, the clock is stopped and no phase is active.  It fails with a fault of a
clock only if the method does.  Unless the time limit is zero or less it leaves one
outermost phase, entered once, and otherwise it leaves clock and phases alone.
-/
theorem solve_leaves_timing_at_rest
    {session : Session σ τ α}
    (reachable : session.Reachable)
    (options : SolveOptions α)
    (watch : Nat → α) :
    let outcome := solve options watch session
    let next := stateAfter outcome
    next.run.clock.running = false ∧
      next.run.phases.active = [] ∧
      (∀ fault,
        answerOf outcome = .error (.clock fault) →
        OneVariableSolver.FailsWith session.sentinel session.run.oneVariable
          (.clock fault)) ∧
      if options.timeLimit ≤ 0 then
        next.run.clock = session.run.clock ∧
          next.run.phases = session.run.phases
      else
        ∃ parts, next.run.phases.tree = .node "solve" 1 parts .leaf := by
  intro outcome next
  have isOutcome : outcome = _ := solve_eq options watch session
  split
  · rename_i noTime
    rw [if_pos noTime] at isOutcome
    have same : next = session.cleared := congrArg stateAfter isOutcome
    rw [same, isOutcome]
    exact
      ⟨reachable.atRest.stopped, reachable.noActivePhase, fun _ => nofun, rfl,
        rfl⟩
  · rename_i someTime
    rw [if_neg someTime] at isOutcome
    have stopped : session.cleared.run.clock.running = false :=
      reachable.atRest.stopped
    have rests := solveTask_rests (session.cleared.task options watch) stopped
    rw [← isOutcome] at rests
    unfold next
    cases isResult : outcome with
    | ok answer last =>
        rw [isResult] at rests
        exact ⟨rests.stopped, rests.active, fun _ => nofun, rests.single⟩
    | error fault last =>
        rw [isResult] at rests
        obtain ⟨ofMethod, rested⟩ := rests
        refine ⟨rested.stopped, rested.active, ?_, rested.single⟩
        rintro _ ⟨⟩
        exact ofMethod trivial

/-- A session in which a solve has failed already in the middle of a recovery. -/
def unluckySession : Session (ScriptedSolver ℚ) NewtonMethod ℚ :=
  [Operation.edit (.load openProgram), .solve patientOptions fun _ => 0].foldl
    Operation.performed
    (assemble standardSentinel Settings.standard
      (scriptedSolver
        [unsureAnswer, failingAnswer, unsureAnswer, failingAnswer])
      NewtonMethod.standard)

/-- The next solve fails there as well, two phases deep, and leaves both of them. -/
theorem unluckySession_rests :
    let outcome := solve patientOptions (fun _ => 0) unluckySession
    let next := stateAfter outcome
    unluckySession.Reachable ∧
      answerOf outcome = .error (.solver (.failed "out of memory")) ∧
      next.run.phases.tree.calls? ["solve", "penalty"] = some 1 ∧
      next.run.clock.running = false ∧
      next.run.phases.active = [] ∧
      ∃ parts, next.run.phases.tree = .node "solve" 1 parts .leaf := by
  intro outcome next
  have reachable : unluckySession.Reachable :=
    .operated (.operated (.assembled _ _ _ _) _) _
  obtain ⟨stopped, active, -, single⟩ :=
    solve_leaves_timing_at_rest reachable patientOptions fun _ => 0
  have someTime : ¬ patientOptions.timeLimit ≤ 0 := by decide +kernel
  rw [if_neg someTime] at single
  exact
    ⟨reachable, by decide +kernel, by decide +kernel, stopped, active, single⟩

/-- A method for one free variable that times itself, with a clock that is running already. -/
inductive SelfTimedMethod where
  | stuck

instance : OneVariableSolver SelfTimedMethod α where
  solve := fun _ _ method => .error (.clock .running) method

/-- A program with one variable between zero and ten and a block that it enters. -/
def blockProgram : Program ℚ :=
  {
    objective := [1]
    lower := [0]
    upper := [10]
    integral := none
    blocks :=
      [
        {
          size := 1
          terms :=
            [
              {
                var := 0
                entries := { rows := [0], cols := [0], values := [1] }
              }
            ]
          constant := Triplets.empty
        }
      ]
    rows := []
  }

/-- A session with that program that leaves one free variable to the self-timed method. -/
def selfTimedSession : Session (ScriptedSolver ℚ) SelfTimedMethod ℚ :=
  Operation.performed
    (assemble standardSentinel Settings.standard (scriptedSolver []) .stuck)
    (.edit (.load blockProgram))

/-- A new session without a problem, in double precision. -/
def doubleSession : Session (Option (ScriptedSolver Float)) NewtonMethod Float :=
  assemble standardSentinel Settings.standard none NewtonMethod.standard

/-- A time limit that is not a number. -/
def undefinedLimit : SolveOptions Float :=
  {
    start := none
    startSetting := .unsolved
    explainsFailure := false
    timeLimit := 0 / 0
  }

/--
The fault of a method that times itself is the fault of the solve.  A time limit that
is not a number is not positive, but the solve goes on and leaves its phase.
-/
theorem clock_fault_and_undefined_limit_reach_solve :
    let failing := solve patientOptions (fun _ => 0) selfTimedSession
    let untimed := solve undefinedLimit (fun _ => 0) doubleSession
    (selfTimedSession.Reachable ∧
        answerOf failing = .error (.clock .running)) ∧
      doubleSession.Reachable ∧
      ¬ 0 < undefinedLimit.timeLimit ∧
      (stateAfter untimed).run.phases ≠ doubleSession.run.phases := by
  intro failing untimed
  refine
    ⟨⟨.operated (.assembled _ _ _ _) _, by decide +kernel⟩,
      .assembled _ _ _ _, by decide +kernel, ?_⟩
  have goesOn : ¬ undefinedLimit.timeLimit ≤ 0 := by decide +kernel
  have isUntimed : untimed = _ :=
    (solve_eq _ _ doubleSession).trans (if_neg goesOn)
  have rests :=
    solveTask_rests (doubleSession.cleared.task undefinedLimit fun _ => 0)
      (show doubleSession.cleared.run.clock.running = false from rfl)
  have rested :=
    Ends.always_iff.mp (rests.mono (fun _ _ => id) fun _ _ => And.right)
  rw [← isUntimed] at rested
  obtain ⟨parts, single⟩ := rested.single
  intro same
  rw [same] at single
  cases single

end Session

end SdpRelay
