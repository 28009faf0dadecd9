import SdpRelay.Proofs.AgreeingRuns
import SdpRelay.Proofs.SolveCourse
import SdpRelay.Session.Solve

namespace SdpRelay

/-!
# Solves of a session

A session clears the last findings, starts its clock and then solves.  This
module carries what is known about `SolveM.solve` over to `Session.solve`: what
two sessions with the same problem have in common afterwards, and what the calls
of one solve have to do with its verdict.
-/

variable {σ₁ σ₂ σ τ α β : Type}

/-- Sessions with the same problem and settings, and runs in some relation. -/
structure SessionsAgree
    (agreeing : SolveRun σ₁ τ α → SolveRun σ₂ τ α → Prop)
    (first : Session σ₁ τ α)
    (second : Session σ₂ τ α) :
    Prop where
  sentinel : first.sentinel = second.sentinel
  store : first.store = second.store
  settings : first.settings = second.settings
  run : agreeing first.run second.run

/-- Runs that a solve can start from alike: all else is overwritten. -/
structure StartAlike
    (since : Nat × Nat)
    (related : σ₁ → σ₂ → Prop)
    (first : SolveRun σ₁ τ α)
    (second : SolveRun σ₂ τ α) :
    Prop where
  solver : related first.solver second.solver
  oneVariable : first.oneVariable = second.oneVariable
  running : first.clock.running = second.clock.running
  memory : first.memory = second.memory
  outlet : Outlet.AlikeSince since first.outlet second.outlet

/-- Runs with the same outcome of the last solve. -/
structure OutcomesAgree
    (since : Nat × Nat)
    (related : σ₁ → σ₂ → Prop)
    (first : SolveRun σ₁ τ α)
    (second : SolveRun σ₂ τ α) :
    Prop where
  solver : related first.solver second.solver
  oneVariable : first.oneVariable = second.oneVariable
  usage : first.usage = second.usage
  verdict : first.verdict = second.verdict
  bestBound : first.bestBound = second.bestBound
  slater : first.slater = second.slater
  outlet : Outlet.AlikeSince since first.outlet second.outlet

/-- Runs that are cleared for a solve. -/
structure ClearedAlike
    (since : Nat × Nat)
    (related : σ₁ → σ₂ → Prop)
    (first : SolveRun σ₁ τ α)
    (second : SolveRun σ₂ τ α) :
    Prop
    extends OutcomesAgree since related first second where
  running : first.clock.running = second.clock.running
  memory : first.memory = second.memory
  unsolved : first.verdict = .unsolved

/-- Runs with the same outcome, and with equal workspaces if the solver was asked. -/
structure SolvedAlike
    (since : Nat × Nat)
    (related : σ₁ → σ₂ → Prop)
    (first : SolveRun σ₁ τ α)
    (second : SolveRun σ₂ τ α) :
    Prop
    extends OutcomesAgree since related first second where
  work : first.verdict.IsDirect ∨ first.work = second.work

theorem RunsAgree.outcome
    {since : Nat × Nat}
    {related : σ₁ → σ₂ → Prop}
    {sameWork : Workspace α → Workspace α → Prop}
    {first : SolveRun σ₁ τ α}
    {second : SolveRun σ₂ τ α}
    (agree : RunsAgree since related sameWork first second) :
    OutcomesAgree since related first second :=
  { agree with }

/-- A run that prints like one that is stopped by a refusal is stopped by it too. -/
theorem SolveRun.StoppedAt.alike
    {first firstNext : SolveRun σ₁ τ α}
    {second secondNext : SolveRun σ₂ τ α}
    {fault : Fault α}
    (stopped : first.StoppedAt firstNext fault)
    (alike :
      Outlet.AlikeSince (first.outlet.prints, second.outlet.prints)
        firstNext.outlet secondNext.outlet) :
    second.StoppedAt secondNext fault := by
  obtain ⟨count, firstPrints, secondPrints⟩ := alike.prints
  obtain ⟨later, refusal, refused, isRefusal⟩ := stopped
  rw [firstPrints] at later refused
  have last (start : Nat) : start + count - 1 = start + (count - 1) := by
    omega
  rw [last, alike.refusals] at refused
  refine ⟨by omega, refusal, ?_, isRefusal⟩
  rw [secondPrints, last]
  exact refused

namespace Session

open SessionM

/-- A clock that is not running is started with the time source of the settings. -/
theorem startClock_eq (session : Session σ τ α) :
    startClock session =
      if session.run.clock.running then
        .error (.clock .running) session
      else
        .ok ()
          {
            session with
            run :=
              {
                session.run with
                clock :=
                  {
                    kind := session.settings.clockKind
                    running := true
                    reads := 0
                  }
                phases := Phases.idle
              }
          } := by
  rcases session with
    ⟨_, _, _, _,
      ⟨_, _, _, ⟨kind, running, reads⟩, _, _, _, _, _, _, _, _, _⟩⟩
  cases running with
  | true =>
      rfl
  | false =>
      rfl

/-- A running clock is stopped. -/
theorem stopClock_eq (session : Session σ τ α) :
    stopClock session =
      if session.run.clock.running then
        .ok ()
          {
            session with
            run :=
              {
                session.run with
                clock := { session.run.clock with running := false }
              }
          }
      else
        .error (.clock .notRunning) session := by
  rcases session with
    ⟨_, _, _, _,
      ⟨_, _, _, ⟨kind, running, reads⟩, _, _, _, _, _, _, _, _, _⟩⟩
  cases running with
  | true =>
      rfl
  | false =>
      rfl

/-- A session without findings. -/
def cleared [Scalar α] (session : Session σ τ α) : Session σ τ α :=
  { session with run := session.run.withoutFindings session.sentinel }

/-- Solve a task with the clock going. -/
def solveTask
    [Scalar α]
    [Solver σ α]
    [OneVariableSolver τ α]
    (task : SolveTask α) :
    SessionM σ τ α Unit := do
  startClock
  let result ←
    onRun (SolveM.observe (SolveM.timed "solve" (SolveM.solve task)))
  stopClock
  SessionM.liftExcept id result
  printSummary
  modify fun session =>
    { session with problemNumber := session.problemNumber + 1 }

theorem solve_eq
    [Scalar α]
    [Solver σ α]
    [OneVariableSolver τ α]
    (options : SolveOptions α)
    (watch : Nat → α)
    (session : Session σ τ α) :
    solve options watch session =
      if options.timeLimit ≤ 0 then
        .ok () session.cleared
      else
        solveTask (session.cleared.task options watch) session.cleared := by
  change
    ((if options.timeLimit ≤ 0 then _ else _) : SessionM σ τ α Unit)
        session.cleared = _
  split
  · rfl
  · rfl

section Alike

variable
  {since : Nat × Nat}
  {related : σ₁ → σ₂ → Prop}
  {agreeing : SolveRun σ₁ τ α → SolveRun σ₂ τ α → Prop}
  {first : Session σ₁ τ α}
  {second : Session σ₂ τ α}

/-- Steps of runs end alike in sessions. -/
theorem onRun_alike
    {onAnswer : β → SolveRun σ₁ τ α → SolveRun σ₂ τ α → Prop}
    {onFault : SolveRun σ₁ τ α → SolveRun σ₂ τ α → Prop}
    {step : SolveM σ₁ τ α β}
    {other : SolveM σ₂ τ α β}
    (agree : SessionsAgree agreeing first second)
    (alike : EndAlike onAnswer onFault (step first.run) (other second.run)) :
    EndAlike
      (fun answer => SessionsAgree (onAnswer answer))
      (SessionsAgree onFault)
      (onRun step first) (onRun other second) := by
  unfold onRun
  revert alike
  generalize step first.run = one
  generalize other second.run = two
  intro alike
  cases alike with
  | answer next =>
      exact .answer { agree with run := next }
  | fault next =>
      exact .fault { agree with run := next }

/-- Results are taken over alike. -/
theorem liftExcept_alike
    {ε : Type}
    {wrap : ε → Fault α}
    {result : Except ε β}
    {onAnswer : Session σ₁ τ α → Session σ₂ τ α → Prop}
    {onFault : Session σ₁ τ α → Session σ₂ τ α → Prop}
    (answers : ∀ answer, result = .ok answer → onAnswer first second)
    (faults : onFault first second) :
    EndAlike (fun _ => onAnswer) onFault
      (liftExcept wrap result first) (liftExcept wrap result second) := by
  cases result with
  | ok answer =>
      exact .answer (answers answer rfl)
  | error fault =>
      exact .fault faults

/-- Starting the clock makes the rest of what a solve reads the same. -/
theorem startClock_alike
    (cleared : SessionsAgree (ClearedAlike since related) first second) :
    EndAlike
      (fun _ => SessionsAgree (RunsAgree since related AnyWork))
      (SessionsAgree (OutcomesAgree since related))
      (startClock first) (startClock second) := by
  rw [startClock_eq, startClock_eq, cleared.run.running]
  split
  · exact .fault { cleared with run := cleared.run.toOutcomesAgree }
  · refine .answer { cleared with run := ?_ }
    exact
      {
        cleared.run with
        work := trivial
        clock := by simp only [cleared.settings]
        phases := rfl
      }

/-- Clocks that are alike are stopped alike, and stopping them touches nothing else. -/
theorem stopClock_alike
    (extra : Verdict α → Workspace α → Workspace α → Prop)
    (agree :
      SessionsAgree
        (fun one two =>
          RunsAgree since related AnyWork one two ∧
            extra one.verdict one.work two.work)
        first second) :
    EndAlike
      (fun _ =>
        SessionsAgree fun one two =>
          OutcomesAgree since related one two ∧ extra one.verdict one.work two.work)
      (SessionsAgree (OutcomesAgree since related))
      (stopClock first) (stopClock second) := by
  rw [stopClock_eq, stopClock_eq, agree.run.1.clock]
  split
  · exact
      .answer
        {
          agree with
          run := ⟨{ agree.run.1.outcome with }, agree.run.2⟩
        }
  · exact .fault { agree with run := agree.run.1.outcome }

variable [Scalar α]

/-- Clearing the findings makes the outcomes of the last solves the same. -/
theorem cleared_alike
    (start : SessionsAgree (StartAlike since related) first second) :
    SessionsAgree (ClearedAlike since related) first.cleared second.cleared :=
  {
    start with
    run :=
      {
        solver := start.run.solver
        oneVariable := start.run.oneVariable
        usage := rfl
        verdict := rfl
        bestBound := congrArg (- ·) start.sentinel
        slater := rfl
        outlet := start.run.outlet
        running := start.run.running
        memory := start.run.memory
        unsolved := rfl
      }
  }

variable [Solver σ₁ α] [Solver σ₂ α]

/-- Printing the account of a solve leaves its outcome alone, also if the print is refused. -/
theorem printSummary_alike
    (agree : SessionsAgree (SolvedAlike since related) first second) :
    EndAlike
      (fun _ => SessionsAgree (SolvedAlike since related))
      (SessionsAgree (OutcomesAgree since related))
      (printSummary first) (printSummary second) := by
  change
    EndAlike _ _
      ((if first.settings.verbose then
          onRun (SolveM.notify (.summary first.summary))
        else
          pure () : SessionM σ₁ τ α Unit) first)
      ((if second.settings.verbose then
          onRun (SolveM.notify (.summary second.summary))
        else
          pure () : SessionM σ₂ τ α Unit) second)
  rw [agree.settings]
  refine .branch ?_ ?_
  · intro verbose
    unfold onRun SolveM.notify
    have printed := agree.run.outlet.afterPrint
    rw [agree.run.outlet.refusal?_eq]
    cases second.run.outlet.refusal? with
    | none =>
        exact .answer { agree with run := { agree.run with outlet := printed } }
    | some refusal =>
        exact .fault { agree with run := { agree.run with outlet := printed } }
  · intro silent
    exact .answer agree

/-- Sessions that are cleared for a solve solve a task alike. -/
theorem solveTask_alike
    [OneVariableSolver τ α]
    (alike : AnswerAlike related)
    (cleared : SessionsAgree (ClearedAlike since related) first second)
    (task : SolveTask α)
    (number : Nat) :
    EndAlike
      (fun _ => SessionsAgree (SolvedAlike since related))
      (SessionsAgree (OutcomesAgree since related))
      (solveTask task first) (solveTask (task.renumbered number) second) := by
  refine EndAlike.bind (startClock_alike cleared) (fun _ _ => id) ?_
  intro _ one two started
  have timedSolve :
      EndAlike
        (fun _ => SolveM.SettledAlike since related)
        (RunsAgree since related AnyWork)
        (SolveM.timed "solve" (SolveM.solve task) one.run)
        (SolveM.timed "solve" (SolveM.solve (task.renumbered number))
          two.run) := by
    refine
      SolveM.timed_alike_of
        (SolveM.solve_alike alike (started.run.enter "solve") task number)
        ?_ ?_
    · intro _ one two settled
      exact ⟨settled.agree.leave, settled.work⟩
    · exact fun _ _ => RunsAgree.leave
  have solved :
      EndAlike
        (fun result =>
          SessionsAgree fun one two =>
            RunsAgree since related AnyWork one two ∧
              (result = .ok () →
                one.verdict.IsDirect ∨ one.work = two.work))
        (SessionsAgree (OutcomesAgree since related))
        (onRun (SolveM.observe (SolveM.timed "solve" (SolveM.solve task))) one)
        (onRun
          (SolveM.observe
            (SolveM.timed "solve" (SolveM.solve (task.renumbered number))))
          two) := by
    refine onRun_alike started (SolveM.observe_alike_of timedSolve ?_ ?_)
    · intro _ one two settled
      exact ⟨settled.agree, fun _ => settled.work⟩
    · intro fault one two agree
      exact ⟨agree, nofun⟩
  refine EndAlike.bind solved (fun _ _ => id) ?_
  intro result one two agree
  refine
    EndAlike.bind
      (stopClock_alike
        (fun verdict work other =>
          result = .ok () → verdict.IsDirect ∨ work = other)
        agree)
      (fun _ _ => id) ?_
  intro _ one two agree
  have taken :
      EndAlike
        (fun _ => SessionsAgree (SolvedAlike since related))
        (SessionsAgree (OutcomesAgree since related))
        (SessionM.liftExcept id result one)
        (SessionM.liftExcept id result two) := by
    refine liftExcept_alike ?_ { agree with run := agree.run.1 }
    rintro _ rfl
    exact { agree with run := { agree.run.1 with work := agree.run.2 rfl } }
  refine EndAlike.bind taken (fun _ _ => id) ?_
  intro _ one two agree
  refine EndAlike.bind (printSummary_alike agree) (fun _ _ => id) ?_
  intro _ one two agree
  exact .answer { agree with }

/--
Sessions with the same problem, settings and method for one free variable, whose
solvers answer alike, solve alike: the rest of the runs does not matter.
-/
theorem solve_alike
    [OneVariableSolver τ α]
    (alike : AnswerAlike related)
    (start : SessionsAgree (StartAlike since related) first second)
    (options : SolveOptions α)
    (watch : Nat → α) :
    EndAlike
      (fun _ => SessionsAgree (SolvedAlike since related))
      (SessionsAgree (OutcomesAgree since related))
      (solve options watch first) (solve options watch second) := by
  have cleared := cleared_alike start
  rw [solve_eq, solve_eq]
  by_cases noTime : options.timeLimit ≤ 0
  · rw [if_pos noTime, if_pos noTime]
    refine .answer { cleared with run := ?_ }
    exact { cleared.run with work := .inl trivial }
  · rw [if_neg noTime, if_neg noTime]
    have sameTask :
        second.cleared.task options watch =
          (first.cleared.task options watch).renumbered
            second.cleared.problemNumber := by
      simp only [task, SolveTask.renumbered, cleared.sentinel, cleared.store,
        cleared.settings]
    rw [sameTask]
    exact solveTask_alike alike cleared _ _

end Alike

section Calls

/-- A step of a run ends in a session as it does in the run. -/
theorem onRun_ends
    {onAnswer : β → SolveRun σ τ α → Prop}
    {onFault : Fault α → SolveRun σ τ α → Prop}
    {step : SolveM σ τ α β}
    {session : Session σ τ α}
    (ends : Ends onAnswer onFault (step session.run)) :
    Ends
      (fun answer next => onAnswer answer next.run)
      (fun fault next => onFault fault next.run)
      (onRun step session) := by
  unfold onRun
  cases result : step session.run with
  | ok answer run =>
      rw [result] at ends
      exact ends
  | error fault run =>
      rw [result] at ends
      exact ends

variable [Scalar α]

/--
The calls that a run has noted fit the way in which its solve ended, unless a print was
refused since the start.
-/
def EndedBy
    [Solver σ α]
    (task : SolveTask α)
    (start run : SolveRun (JournaledSolver σ α) τ α) :
    Except (Fault α) Unit → Prop
  | .ok _ =>
      run.verdict.DecidedBy task run.work run.solver.calls run.solver.solver
  | .error fault =>
      run.verdict.LeftBy task run.work run.solver.calls ∨
        start.StoppedAt run fault

omit [Scalar α] in
/-- Printing the account of a solve leaves alone what the journal is about. -/
theorem printSummary_ends
    [Scalar α]
    [Solver σ α]
    (session : Session σ τ α) :
    Ends
      (fun _ next => Untouched session.run next.run)
      (fun fault next =>
        Untouched session.run next.run ∧
          session.run.StoppedAt next.run fault)
      (printSummary session) := by
  change
    Ends _ _
      ((if session.settings.verbose then
          onRun (SolveM.notify (.summary session.summary))
        else
          pure () : SessionM σ τ α Unit) session)
  split
  · exact onRun_ends (SolveM.notify_ends _ session.run)
  · exact ⟨⟨rfl, rfl, rfl, Nat.le_refl _⟩, rfl⟩

variable [Solver σ α] [OneVariableSolver τ α]

/-- The calls of a solve that starts with an empty journal lead to the way in which it ends. -/
theorem solveTask_ends
    {task : SolveTask α}
    {session : Session (JournaledSolver σ α) τ α}
    (uncalled : session.run.solver.calls = [])
    (unsolved : session.run.verdict = .unsolved) :
    Ends
      (fun _ next => EndedBy task session.run next.run (.ok ()))
      (fun fault next => EndedBy task session.run next.run (.error fault))
      (solveTask task session) := by
  have started :
      Ends
        (fun _ next =>
          next.run.clock.running = true ∧
            next.run.outlet = session.run.outlet ∧
            Unsent next.run)
        (fun fault next => EndedBy task session.run next.run (.error fault))
        (startClock session) := by
    rw [startClock_eq]
    split
    · refine .inl ?_
      rw [unsolved, uncalled]
      exact .inl rfl
    · exact ⟨rfl, rfl, uncalled, rfl, unsolved⟩
  refine Ends.bind started (fun _ _ => id) ?_
  rintro _ going ⟨running, sameOutlet, unsent⟩
  have observed :
      Ends
        (fun result run =>
          run.clock.running = true ∧
            EndedBy task session.run run result ∧
            (result = .ok () →
              session.run.outlet.prints ≤ run.outlet.prints))
        (fun _ _ => False)
        (SolveM.observe (SolveM.timed "solve" (SolveM.solve task))
          going.run) := by
    have enteredUnsent :
        Unsent { going.run with phases := going.run.phases.enter "solve" } :=
      ⟨unsent.calls, unsent.reads, unsent.verdict⟩
    have before : session.run.outlet.prints ≤ going.run.outlet.prints :=
      Nat.le_of_eq (congrArg Outlet.prints sameOutlet).symm
    refine
      SolveM.observe_ends
        (SolveM.timed_ends ((SolveM.solve_ends enteredUnsent).mono ?_ ?_))
    · intro _ next decides
      exact
        ⟨decides.running.trans running, decides.decided,
          fun _ => Nat.le_trans before decides.prints⟩
    · intro fault next fails
      refine ⟨fails.running.trans running, ?_, nofun⟩
      cases fails with
      | left leaves =>
          exact .inl leaves.left
      | unprinted _ stopped =>
          exact
            .inr ⟨Nat.lt_of_le_of_lt before stopped.later, stopped.refused⟩
  refine Ends.bind (onRun_ends observed) (fun _ _ => False.elim) ?_
  rintro result ended ⟨running, endedBy, prints⟩
  have stopped :
      Ends
        (fun _ next =>
          EndedBy task session.run next.run result ∧
            (result = .ok () →
              session.run.outlet.prints ≤ next.run.outlet.prints))
        (fun _ _ => False)
        (stopClock ended) := by
    rw [stopClock_eq, if_pos running]
    refine ⟨?_, prints⟩
    cases result with
    | ok _ =>
        exact endedBy
    | error _ =>
        exact endedBy.imp_right fun stopped => ⟨stopped.later, stopped.refused⟩
  refine Ends.bind stopped (fun _ _ => False.elim) ?_
  rintro _ halted ⟨endedBy, prints⟩
  cases result with
  | error fault =>
      exact endedBy
  | ok _ =>
      change Ends _ _ ((printSummary >>= _) halted)
      refine Ends.bind (printSummary_ends halted) ?_ ?_
      · rintro fault next ⟨_, refused⟩
        exact .inr (refused.since (prints rfl))
      · intro _ next printed
        change
          next.run.verdict.DecidedBy task next.run.work next.run.solver.calls
            next.run.solver.solver
        rw [printed.verdict, printed.work, printed.solver]
        exact endedBy

/-- A whole solve of a session with an empty journal ends as its calls say. -/
theorem solve_endedBy
    {session : Session (JournaledSolver σ α) τ α}
    (uncalled : session.run.solver.calls = [])
    (options : SolveOptions α)
    (watch : Nat → α) :
    Ends
      (fun _ next =>
        EndedBy (session.task options watch) session.run next.run (.ok ()))
      (fun fault next =>
        EndedBy (session.task options watch) session.run next.run
          (.error fault))
      (solve options watch session) := by
  rw [solve_eq]
  split
  · exact uncalled
  · refine
      (solveTask_ends
        (show session.cleared.run.solver.calls = [] from uncalled) rfl).mono
        (fun _ _ => id) ?_
    exact fun _ _ endedBy =>
      endedBy.imp_right fun stopped => ⟨stopped.later, stopped.refused⟩

end Calls

end Session

end SdpRelay
