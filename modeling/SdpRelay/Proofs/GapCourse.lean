import SdpRelay.Proofs.SessionHistory
import SdpRelay.Proofs.UnseenSteps

namespace SdpRelay

/-!
# The gap tolerance in the course of a solve

The only parameter that a solve assigns is the gap tolerance of the solver.  Each
tightening of a recovery replaces it by a smaller one, and a recovery that comes
to its end gives the solver its own tolerance back.  `GapCourse` says what has to
be known about a solver to follow this, and `Session.solve_gapCourse` what is then
known at the end of a solve: a solve that fails may leave any number of
tightenings behind, unless it fails because a print is refused.
-/

variable {σ τ α β γ : Type}

namespace Settings

variable [Scalar α]

/-- The factor by which a recovery tightens the gap tolerance. -/
def gapFactor (settings : Settings α) : α :=
  (Escalation.start settings).schedule.gapFactor

/-- The gap tolerance after a number of tightenings. -/
def tightenedGap (settings : Settings α) : Nat → α
  | 0 => settings.gapTolerance
  | count + 1 => settings.tightenedGap count * settings.gapFactor

end Settings

/-- Solving and counting problems leaves alone what is looked at of a solver. -/
structure SolvesKeep
    [Solver σ α]
    (view : σ → γ) :
    Prop where
  solve :
    ∀ request,
      Keeps view
        (Solver.solve request : EStateM SolverFault σ PenaltyOutcome)
  countProblem :
    ∀ solver, view (Solver.countProblem solver) = view solver

/--
What is known about a solver after a number of tightenings, and once it has its
gap tolerance back.
-/
structure GapCourse
    [Scalar α]
    [Solver σ α]
    (view : σ → γ)
    (settings : Settings α)
    (tightened : Nat → γ → Prop)
    (restored : γ → Prop) :
    Prop
    extends SolvesKeep view where
  tighten :
    ∀ count solver, tightened count (view solver) →
      Ends
        (fun _ next => tightened (count + 1) (view next))
        (fun _ next => tightened count (view next))
        (Solver.forward .gapTolerance (settings.tightenedGap (count + 1))
          solver)
  restore :
    ∀ count solver, tightened count (view solver) →
      Ends
        (fun _ next => restored (view next))
        (fun _ next => tightened count (view next))
        (Solver.forward .gapTolerance settings.gapTolerance solver)

namespace SolveRun

/-- What a solve that leaves the solver alone keeps of a run. -/
def glimpse
    (view : σ → γ)
    (run : SolveRun σ τ α) :
    γ × Bool :=
  (view run.solver, run.clock.running)

/-- The clock is running, and something is known about the solver. -/
structure Going
    (view : σ → γ)
    (holds : γ → Prop)
    (run : SolveRun σ τ α) :
    Prop where
  solver : holds (view run.solver)
  running : run.clock.running = true

variable {view : σ → γ} {holds : γ → Prop}

theorem Going.kept
    {run next : SolveRun σ τ α}
    (going : run.Going view holds)
    (same : next.glimpse view = run.glimpse view) :
    next.Going view holds := by
  have sameSolver : view next.solver = view run.solver := congrArg Prod.fst same
  have sameClock : next.clock.running = run.clock.running :=
    congrArg Prod.snd same
  exact
    ⟨by rw [sameSolver]; exact going.solver,
      by rw [sameClock]; exact going.running⟩

theorem Going.mono
    {weaker : γ → Prop}
    {run : SolveRun σ τ α}
    (going : run.Going view holds)
    (implies : ∀ known, holds known → weaker known) :
    run.Going view weaker :=
  ⟨implies _ going.solver, going.running⟩

end SolveRun

namespace SolveM

section Steps

variable {view : σ → γ}

/-- A glimpse does not see what goes on between two verdicts. -/
theorem glimpse_overlooks
    [Solver σ α]
    (keep : SolvesKeep view) :
    SolveRun.Overlooks
      (SolveRun.glimpse view : SolveRun σ τ α → γ × Bool) where
  phases _ _ := rfl
  printed _ _ _ := rfl
  looked _ := rfl
  usage _ _ := rfl
  bestBound _ _ := rfl
  slater _ _ := rfl
  solve request := by
    intro run
    have kept := keep.solve request run.solver
    unfold askSolver
    cases result : Solver.solve request run.solver with
    | ok answer next =>
        rw [result] at kept
        exact Prod.ext kept rfl
    | error fault next =>
        rw [result] at kept
        exact Prod.ext kept rfl

theorem settle_completes (verdict : Verdict α) :
    Completes (SolveRun.glimpse view) (settle verdict : SolveM σ τ α Unit) :=
  .modify fun _ => rfl

variable [Scalar α]

variable [Solver σ α]

omit [Scalar α] in
theorem settleDirectly_keeps
    (keep : SolvesKeep view)
    (verdict : Verdict α)
    (count : Tally → Tally) :
    Keeps (SolveRun.glimpse view)
      (settleDirectly verdict count : SolveM σ τ α Unit) :=
  .modify fun run => Prod.ext (keep.countProblem run.solver) rfl

theorem settleRecovery_announces
    (keep : SolvesKeep view)
    (task : SolveTask α)
    (last : Escalation α) :
    Announces
      (SolveRun.glimpse view : SolveRun σ τ α → γ × Bool)
      (settleRecovery task last) := by
  unfold settleRecovery
  split
  · exact .of_completes (settle_completes _)
  · refine .bind (.of_completes (settle_completes _)) fun _ => ?_
    split
    · exact checkSlater_announces (glimpse_overlooks keep) task true
    · exact .of_completes (.pure _)

end Steps

end SolveM

/-- How an escalation looks that has tightened the gap tolerance a number of times. -/
structure Escalation.HasTightened
    [Scalar α]
    (settings : Settings α)
    (count : Nat)
    (escalation : Escalation α) :
    Prop where
  gap : escalation.schedule.gap = settings.tightenedGap count
  factor : escalation.schedule.gapFactor = settings.gapFactor
  noted : escalation.gapTightened = true ↔ 0 < count

variable [Scalar α]

theorem Escalation.start_hasTightened (settings : Settings α) :
    (Escalation.start settings).HasTightened settings 0 where
  gap := rfl
  factor := rfl
  noted := by simp [Escalation.start]

/-- A move that does not tighten the gap tolerance leaves it alone. -/
theorem Escalation.HasTightened.moved
    {settings : Settings α}
    {count : Nat}
    {escalation : Escalation α}
    (soFar : escalation.HasTightened settings count)
    {seen : PenaltyObservation}
    (other : seen.step ≠ .tightenGap) :
    Escalation.HasTightened settings count
      {
        escalation with
        schedule := escalation.schedule.move seen.step
        seen := seen
      } := by
  cases step : seen.step with
  | tightenGap => exact absurd step other
  | done => exact { soFar with }
  | increasePenalty => exact { soFar with }

/-- A tightening is the next one. -/
theorem Escalation.HasTightened.tightened
    {settings : Settings α}
    {count : Nat}
    {escalation : Escalation α}
    (soFar : escalation.HasTightened settings count)
    (seen : PenaltyObservation) :
    Escalation.HasTightened settings (count + 1)
      {
        schedule := escalation.schedule.move .tightenGap
        seen := seen
        gapTightened := true
      } where
  gap := by
    change escalation.schedule.gap * escalation.schedule.gapFactor = _
    rw [soFar.gap, soFar.factor]
    rfl
  factor := soFar.factor
  noted := iff_of_true rfl count.succ_pos

variable
  [Solver σ α]
  {view : σ → γ}
  {task : SolveTask α}
  {tightened : Nat → γ → Prop}
  {restored : γ → Prop}

/--
What a fault leaves in the course of the gap tolerance: some number of tightenings,
or the tolerance restored before a print was refused.
-/
def LeftInCourse
    (tightened : Nat → γ → Prop)
    (restored : γ → Prop)
    (fault : Fault α)
    (known : γ) :
    Prop :=
  (∃ count, tightened count known) ∨
    (restored known ∧ ∃ refusal, fault = .file refusal)

omit [Scalar α] in
/-- A print that is refused leaves the solver as it is, untightened or restored. -/
theorem LeftInCourse.unprinted
    {fault : Fault α}
    {known : γ}
    (ready : tightened 0 known ∨ restored known)
    (refused : ∃ refusal, fault = .file refusal) :
    LeftInCourse tightened restored fault known :=
  ready.imp (fun untightened => ⟨0, untightened⟩) fun isRestored =>
    ⟨isRestored, refused⟩

/--
A step ends in the course of the gap tolerance: as it was or restored if the step
ends well, and as a fault leaves it otherwise.
-/
def EndsInCourse
    (view : σ → γ)
    (tightened : Nat → γ → Prop)
    (restored : γ → Prop) :
    EStateM.Result (Fault α) (SolveRun σ τ α) β → Prop :=
  Ends
    (fun _ next =>
      next.Going view fun known => tightened 0 known ∨ restored known)
    (fun fault next => next.Going view (LeftInCourse tightened restored fault))

namespace SolveM

omit [Scalar α] [Solver σ α] in
/-- What a request to the solver leads to is known of the run that sent it. -/
theorem askSolver_going
    {request : EStateM SolverFault σ β}
    {onAnswer onFault : γ → Prop}
    {run : SolveRun σ τ α}
    (running : run.clock.running = true)
    (ends :
      Ends
        (fun _ next => onAnswer (view next))
        (fun _ next => onFault (view next))
        (request run.solver)) :
    Ends
      (fun _ next => next.Going view onAnswer)
      (fun _ next => next.Going view onFault)
      (askSolver request run) := by
  unfold askSolver
  cases result : request run.solver with
  | ok answer next =>
      rw [result] at ends
      exact ⟨ends, running⟩
  | error fault next =>
      rw [result] at ends
      exact ⟨ends, running⟩

/-- One round tightens the gap tolerance once or not at all, and not at all if it fails. -/
theorem escalateOnce_gapCourse
    (course : GapCourse view task.settings tightened restored)
    {count : Nat}
    {escalation : Escalation α}
    (soFar : escalation.HasTightened task.settings count)
    {run : SolveRun σ τ α}
    (going : run.Going view (tightened count)) :
    Ends
      (fun further next =>
        ∃ after,
          further.HasTightened task.settings after ∧
            next.Going view (tightened after))
      (fun _ next => next.Going view (tightened count))
      (escalateOnce task escalation run) := by
  have overlooks :
      SolveRun.Overlooks
        (SolveRun.glimpse view : SolveRun σ τ α → γ × Bool) :=
    glimpse_overlooks course.toSolvesKeep
  refine
    Ends.bind ((solvePrepared_keeps overlooks task _ _ _).ends run)
      (fun _ _ => going.kept) ?_
  intro outcome solved sameSolved
  refine
    Ends.bind ((addUsage_keeps overlooks).ends solved)
      (fun _ _ => (going.kept sameSolved).kept) ?_
  intro _ counted sameCounted
  refine Ends.bind (report_ends counted) (fun _ _ => False.elim) ?_
  rintro _ counted ⟨rfl, rfl⟩
  have goingCounted := (going.kept sameSolved).kept sameCounted
  refine
    Ends.bind ((improveBound_keeps overlooks task.settings).ends counted)
      (fun _ _ => goingCounted.kept) ?_
  intro _ improved sameImproved
  have goingOn := goingCounted.kept sameImproved
  split
  · rename_i tightens
    have next (seen : PenaltyObservation) := soFar.tightened seen
    rw [tightens, (next .none).gap]
    refine
      Ends.bind
        (askSolver_going goingOn.running
          (course.tighten count improved.solver goingOn.solver))
        (fun _ _ => id) ?_
    intro _ told goingTold
    exact ⟨count + 1, next _, goingTold⟩
  · rename_i other
    exact ⟨count, soFar.moved other, goingOn⟩

/-- Rounds tighten the gap tolerance a number of times, whether they end well or fail. -/
theorem escalate_gapCourse
    (course : GapCourse view task.settings tightened restored)
    (rounds : Nat)
    {count : Nat}
    {escalation : Escalation α}
    (soFar : escalation.HasTightened task.settings count)
    {run : SolveRun σ τ α}
    (going : run.Going view (tightened count)) :
    Ends
      (fun last next =>
        ∃ after,
          last.HasTightened task.settings after ∧
            next.Going view (tightened after))
      (fun _ next => ∃ after, next.Going view (tightened after))
      (escalate task rounds escalation run) := by
  induction rounds generalizing count escalation run with
  | zero =>
      exact ⟨count, soFar, going⟩
  | succ rounds inductionHypothesis =>
      unfold escalate
      split
      · exact ⟨count, soFar, going⟩
      have looks :
          Completes (SolveRun.glimpse view)
            (timeIsUp task : SolveM σ τ α Bool) :=
        timeIsUp_completes (glimpse_overlooks course.toSolvesKeep) task
      refine Ends.bind (looks run) (fun _ _ => False.elim) ?_
      intro isUp looked sameLooked
      have goingLooked := going.kept sameLooked
      split
      · exact ⟨count, soFar, goingLooked⟩
      refine
        Ends.bind (escalateOnce_gapCourse course soFar goingLooked)
          (fun _ _ goingOn => ⟨count, goingOn⟩) ?_
      rintro further next ⟨after, hasTightened, goingOn⟩
      exact inductionHypothesis hasTightened goingOn

/-- A recovery that ends well has restored the gap tolerance if it tightened it. -/
theorem recover_gapCourse
    (course : GapCourse view task.settings tightened restored)
    {run : SolveRun σ τ α}
    (going : run.Going view (tightened 0)) :
    EndsInCourse view tightened restored (recover task run) := by
  have failing
      {count : Nat}
      {fault : Fault α}
      {first next : SolveRun σ τ α}
      (goingOn : first.Going view (tightened count))
      (same : next.glimpse view = first.glimpse view) :
      next.Going view (LeftInCourse tightened restored fault) :=
    (goingOn.kept same).mono fun _ soFar => .inl ⟨count, soFar⟩
  have overlooks :
      SolveRun.Overlooks
        (SolveRun.glimpse view : SolveRun σ τ α → γ × Bool) :=
    glimpse_overlooks course.toSolvesKeep
  rw [recover_eq]
  refine
    Ends.bind ((solvePrepared_keeps overlooks task _ _ _).ends run)
      (fun _ _ => failing going) ?_
  intro outcome solved sameSolved
  have goingSolved := going.kept sameSolved
  refine
    Ends.bind ((addUsage_keeps overlooks).ends solved)
      (fun _ _ => failing goingSolved) ?_
  intro _ counted sameCounted
  have goingCounted := goingSolved.kept sameCounted
  refine Ends.bind (report_ends counted) (fun _ _ => False.elim) ?_
  rintro _ counted ⟨rfl, rfl⟩
  split
  · exact ⟨.inl goingCounted.solver, goingCounted.running⟩
  refine
    Ends.bind
      (escalate_gapCourse course _
        (Escalation.start_hasTightened task.settings) goingCounted)
      ?_ ?_
  · rintro _ next ⟨count, goingOn⟩
    exact failing goingOn rfl
  rintro last escalated ⟨after, hasTightened, goingOn⟩
  have restores :
      EndsInCourse view tightened restored
        (restoreGap task last escalated) := by
    unfold restoreGap
    split
    · refine
        (askSolver_going goingOn.running
          (course.restore after escalated.solver goingOn.solver)).mono ?_ ?_
      · exact fun _ _ goingBack => goingBack.mono fun _ => .inr
      · exact fun _ _ goingOn => failing goingOn rfl
    · rename_i untightened
      have none : after = 0 :=
        Nat.eq_zero_of_not_pos fun some => untightened (hasTightened.noted.mpr some)
      subst none
      exact goingOn.mono fun _ => .inl
  refine Ends.bind restores (fun _ _ => id) ?_
  intro _ backAgain goingBack
  refine
    (settleRecovery_announces course.toSolvesKeep task last backAgain).mono ?_ ?_
  · exact fun _ _ => goingBack.kept
  · rintro fault next ⟨same, refused⟩
    exact (goingBack.kept same).mono fun _ ready => .unprinted ready refused

omit [Scalar α] [Solver σ α] in
/-- A step that keeps what is looked at of the solver ends in the course. -/
theorem endsInCourse_of_keeps
    {step : SolveM σ τ α β}
    (keeps : Keeps (SolveRun.glimpse view) step)
    {run : SolveRun σ τ α}
    (going : run.Going view (tightened 0)) :
    EndsInCourse view tightened restored (step run) := by
  refine (keeps.ends run).mono ?_ ?_
  · intro _ next same
    exact (going.kept same).mono fun _ => .inl
  · intro _ next same
    exact (going.kept same).mono fun _ untightened => .inl ⟨0, untightened⟩

omit [Scalar α] [Solver σ α] in
/-- After a step that keeps what is looked at, the rest ends in the course. -/
theorem endsInCourse_bind
    {first : SolveM σ τ α β}
    {second : β → SolveM σ τ α Unit}
    (keeps : Keeps (SolveRun.glimpse view) first)
    {run : SolveRun σ τ α}
    (going : run.Going view (tightened 0))
    (continues :
      ∀ answer next, next.Going view (tightened 0) →
        EndsInCourse view tightened restored (second answer next)) :
    EndsInCourse view tightened restored ((first >>= second) run) := by
  refine Ends.bind (keeps.ends run) ?_ ?_
  · intro _ next same
    exact (going.kept same).mono fun _ untightened => .inl ⟨0, untightened⟩
  · intro answer next same
    exact continues answer next (going.kept same)

/-- What a recovery leaves is known across its phase. -/
theorem timedRecover_gapCourse
    (course : GapCourse view task.settings tightened restored)
    {run : SolveRun σ τ α}
    (going : run.Going view (tightened 0)) :
    EndsInCourse view tightened restored
      (timed "penalty" (recover task) run) := by
  have entered :
      { run with phases := run.phases.enter "penalty" }.Going view
        (tightened 0) :=
    ⟨going.solver, going.running⟩
  refine timed_ends ((recover_gapCourse course entered).mono ?_ ?_)
  · intro _ next goingBack
    exact ⟨goingBack.solver, goingBack.running⟩
  · intro _ next goingOn
    exact ⟨goingOn.solver, goingOn.running⟩

/-- The solver is asked for the problem itself, and a recovery may follow. -/
theorem solveBySolver_gapCourse
    (course : GapCourse view task.settings tightened restored)
    {run : SolveRun σ τ α}
    (going : run.Going view (tightened 0)) :
    EndsInCourse view tightened restored (solveBySolver task run) := by
  have overlooks :
      SolveRun.Overlooks
        (SolveRun.glimpse view : SolveRun σ τ α → γ × Bool) :=
    glimpse_overlooks course.toSolvesKeep
  refine endsInCourse_bind (openWithSlater_keeps overlooks task) going ?_
  intro _ opened goingOpened
  refine
    endsInCourse_bind
      (timed_keeps overlooks (solveDirectly_keeps overlooks task) "backend")
      goingOpened ?_
  intro _ asked goingAsked
  refine endsInCourse_bind (settle_completes _).keeps goingAsked ?_
  intro _ settled goingSettled
  refine endsInCourse_bind report_completes.keeps goingSettled ?_
  intro seen reported goingReported
  split
  · exact endsInCourse_of_keeps (.pure _) goingReported
  refine
    endsInCourse_bind (timeIsUp_completes overlooks task).keeps goingReported ?_
  intro isUp looked goingLooked
  split
  · exact endsInCourse_of_keeps (.pure _) goingLooked
  · exact timedRecover_gapCourse course goingLooked

variable [OneVariableSolver τ α]

/-- A whole solve ends in the course. -/
theorem solve_gapCourse
    (course : GapCourse view task.settings tightened restored)
    {run : SolveRun σ τ α}
    (going : run.Going view (tightened 0)) :
    EndsInCourse view tightened restored (solve task run) := by
  have keep := course.toSolvesKeep
  have overlooks :
      SolveRun.Overlooks
        (SolveRun.glimpse view : SolveRun σ τ α → γ × Bool) :=
    glimpse_overlooks keep
  unfold solve
  split
  · exact endsInCourse_of_keeps (settleDirectly_keeps keep _ _) going
  refine
    endsInCourse_bind
      (timed_keeps overlooks (presolve_keeps (fun _ _ => rfl) task) "preprocess")
      going ?_
  intro found presolved goingPresolved
  split
  · exact endsInCourse_of_keeps (settleDirectly_keeps keep _ _) goingPresolved
  · exact endsInCourse_of_keeps (settleDirectly_keeps keep _ _) goingPresolved
  rename_i fixedObjective
  rw [solveUndecided_eq]
  refine
    endsInCourse_bind
      (timed_keeps overlooks
        (solveOneVariable_keeps (fun _ _ => rfl) task fixedObjective) "onevar")
      goingPresolved ?_
  intro result tried goingTried
  cases result with
  | some result =>
      exact endsInCourse_of_keeps (settleDirectly_keeps keep _ _) goingTried
  | none =>
      refine
        endsInCourse_bind
          (timed_keeps overlooks (compact_keeps (fun _ _ => rfl) task)
            "preprocess")
          goingTried ?_
      intro _ compacted goingCompacted
      exact solveBySolver_gapCourse course goingCompacted

end SolveM

namespace Session

open SessionM

/-- What is known about a run after a solve that ended in the course. -/
def KnownAfter
    (view : σ → γ)
    (tightened : Nat → γ → Prop)
    (restored : γ → Prop)
    (run : SolveRun σ τ α) :
    Except (Fault α) Unit → Prop
  | .ok _ => run.Going view fun known => tightened 0 known ∨ restored known
  | .error fault => run.Going view (LeftInCourse tightened restored fault)

omit [Scalar α] [Solver σ α] in
theorem KnownAfter.running
    {run : SolveRun σ τ α}
    {result : Except (Fault α) Unit}
    (known : KnownAfter view tightened restored run result) :
    run.clock.running = true := by
  cases result with
  | ok _ =>
      exact SolveRun.Going.running known
  | error fault =>
      exact SolveRun.Going.running known

variable [OneVariableSolver τ α]

/--
A solve that ends well leaves the solver untightened or restored.  A solve that fails
leaves it after some number of tightenings, or restored if a print was refused.
-/
theorem solve_gapCourse
    {session : Session σ τ α}
    (course : GapCourse view session.settings tightened restored)
    (start : tightened 0 (view session.run.solver))
    (options : SolveOptions α)
    (watch : Nat → α) :
    Ends
      (fun _ next =>
        tightened 0 (view next.run.solver) ∨ restored (view next.run.solver))
      (fun fault next =>
        LeftInCourse tightened restored fault (view next.run.solver))
      (solve options watch session) := by
  rw [solve_eq]
  split
  · exact .inl start
  have started :
      Ends
        (fun _ next => next.run.Going view (tightened 0))
        (fun fault next =>
          LeftInCourse tightened restored fault (view next.run.solver))
        (startClock session.cleared) := by
    rw [startClock_eq]
    split
    · exact .inl ⟨0, start⟩
    · exact ⟨start, rfl⟩
  refine Ends.bind started (fun _ _ => id) ?_
  intro _ ready going
  have entered :
      { ready.run with phases := ready.run.phases.enter "solve" }.Going view
        (tightened 0) :=
    ⟨going.solver, going.running⟩
  have observed :
      Ends
        (fun result run => KnownAfter view tightened restored run result)
        (fun _ _ => False)
        (SolveM.observe
          (SolveM.timed "solve"
            (SolveM.solve (session.cleared.task options watch)))
          ready.run) := by
    refine
      SolveM.observe_ends
        (SolveM.timed_ends ((SolveM.solve_gapCourse course entered).mono ?_ ?_))
    · intro _ next goingBack
      exact ⟨goingBack.solver, goingBack.running⟩
    · intro _ next goingOn
      exact ⟨goingOn.solver, goingOn.running⟩
  refine Ends.bind (onRun_ends observed) (fun _ _ => False.elim) ?_
  intro result ended known
  have stopped :
      Ends
        (fun _ next => next.run.solver = ended.run.solver)
        (fun _ _ => False)
        (stopClock ended) := by
    rw [stopClock_eq, if_pos known.running]
    rfl
  refine Ends.bind stopped (fun _ _ => False.elim) ?_
  intro _ halted sameSolver
  cases result with
  | error fault =>
      change LeftInCourse tightened restored fault (view halted.run.solver)
      rw [sameSolver]
      exact SolveRun.Going.solver known
  | ok _ =>
      have ready :
          tightened 0 (view halted.run.solver) ∨
            restored (view halted.run.solver) := by
        rw [sameSolver]
        exact SolveRun.Going.solver known
      change Ends _ _ ((printSummary >>= _) halted)
      refine Ends.bind (printSummary_ends halted) ?_ ?_
      · rintro fault next ⟨untouched, stopped⟩
        obtain ⟨refusal, _, isRefusal⟩ := stopped.refused
        rw [untouched.solver]
        exact .unprinted ready ⟨refusal, isRefusal⟩
      · intro _ next untouched
        change
          tightened 0 (view next.run.solver) ∨ restored (view next.run.solver)
        rw [untouched.solver]
        exact ready

end Session

end SdpRelay
