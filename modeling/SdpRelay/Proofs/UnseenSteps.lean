import SdpRelay.Proofs.SolveSteps

namespace SdpRelay

/-!
# Steps that go unseen

Most of what a solve writes into its run is kept for later: phases, notices, looks
at the clock, usage, the best bound, Slater verdicts.  A look at a run that sees
none of this, and nothing of what a request does to the solver, does not see a
Slater check or a request for the prepared problem either, whether the request is
answered or fails, and whether a print is taken or refused.
-/

variable {σ τ α β γ : Type}

/-- A look at a run that does not see what goes on between two verdicts. -/
structure SolveRun.Overlooks
    [Solver σ α]
    (look : SolveRun σ τ α → γ) :
    Prop where
  phases :
    ∀ (run : SolveRun σ τ α) phases,
      look { run with phases := phases } = look run
  printed :
    ∀ (run : SolveRun σ τ α) outlet notices,
      look { run with outlet := outlet, notices := notices } = look run
  looked : ∀ run : SolveRun σ τ α, look run.looked = look run
  usage :
    ∀ (run : SolveRun σ τ α) usage,
      look { run with usage := usage } = look run
  bestBound :
    ∀ (run : SolveRun σ τ α) bound,
      look { run with bestBound := bound } = look run
  slater :
    ∀ (run : SolveRun σ τ α) verdicts,
      look { run with slater := verdicts } = look run
  solve :
    ∀ request,
      Keeps look
        (SolveM.askSolver (Solver.solve request) :
          SolveM σ τ α PenaltyOutcome)

/-- A look at a run that does not see what a Slater check of a task does. -/
structure SolveRun.OverlooksCheck
    [Scalar α]
    [Solver σ α]
    (task : SolveTask α)
    (look : SolveRun σ τ α → γ) :
    Prop where
  printed :
    ∀ (run : SolveRun σ τ α) outlet notices,
      look { run with outlet := outlet, notices := notices } = look run
  looked : ∀ run : SolveRun σ τ α, look run.looked = look run
  slater :
    ∀ (run : SolveRun σ τ α) verdicts,
      look { run with slater := verdicts } = look run
  dual :
    ∀ work count,
      Keeps look
        (SolveM.askSolver (Solver.solve (task.dualCheck work count)) :
          SolveM σ τ α PenaltyOutcome)
  primal :
    ∀ work count,
      Keeps look
        (SolveM.askSolver (Solver.solve (task.primalCheck work count)) :
          SolveM σ τ α PenaltyOutcome)

/-- A look that sees no request sees no Slater check. -/
theorem SolveRun.Overlooks.check
    [Scalar α]
    [Solver σ α]
    {look : SolveRun σ τ α → γ}
    (overlooks : SolveRun.Overlooks look)
    (task : SolveTask α) :
    SolveRun.OverlooksCheck task look :=
  {
    overlooks with
    dual := fun _ _ => overlooks.solve _
    primal := fun _ _ => overlooks.solve _
  }

/-- The dual side is asked about after one look at the clock. -/
theorem SolveRun.OverlooksCheck.keepsDual
    [Scalar α]
    [Solver σ α]
    {task : SolveTask α}
    {look : SolveRun σ τ α → γ}
    (overlooks : SolveRun.OverlooksCheck task look) :
    Keeps look
      (SolveM.solvePrepared task (some PenaltyRequest.violationOnly) none
        .unsolved : SolveM σ τ α PenaltyOutcome) := by
  intro run
  rw [← overlooks.looked run]
  exact overlooks.dual run.work run.clock.reads run.looked

namespace SolveM

/-- A step leaves alone what is looked at, and fails only if a print is refused. -/
def Announces
    (look : SolveRun σ τ α → γ)
    (step : SolveM σ τ α β) :
    Prop :=
  ∀ run,
    Ends
      (fun _ next => look next = look run)
      (fun fault next =>
        look next = look run ∧ ∃ refusal, fault = .file refusal)
      (step run)

namespace Announces

variable {δ : Type} {look : SolveRun σ τ α → γ}

theorem of_completes
    {step : SolveM σ τ α β}
    (completes : Completes look step) :
    Announces look step :=
  fun run => (completes run).mono (fun _ _ => id) (fun _ _ => False.elim)

theorem bind
    {first : SolveM σ τ α β}
    {second : β → SolveM σ τ α δ}
    (announcesFirst : Announces look first)
    (announcesSecond : ∀ answer, Announces look (second answer)) :
    Announces look (first >>= second) := by
  intro run
  refine Ends.bind (announcesFirst run) (fun _ _ => id) ?_
  intro answer next same
  rw [← same]
  exact announcesSecond answer next

theorem keeps
    {step : SolveM σ τ α β}
    (announces : Announces look step) :
    Keeps look step :=
  fun run =>
    Ends.always_iff.mp
      ((announces run).mono (fun _ _ => id) (fun _ _ => And.left))

end Announces

variable [Solver σ α] {look : SolveRun σ τ α → γ}

omit [Solver σ α] in
/-- A step that is observed cannot fail. -/
theorem observe_completes
    {step : SolveM σ τ α β}
    (keeps : Keeps look step) :
    Completes look (observe step) :=
  fun run => observe_ends (keeps.ends run)

theorem timed_keeps
    (overlooks : SolveRun.Overlooks look)
    {step : SolveM σ τ α β}
    (keeps : Keeps look step)
    (name : String) :
    Keeps look (timed name step) := by
  intro run
  have kept :=
    (keeps { run with phases := run.phases.enter name }).trans
      (overlooks.phases run _)
  unfold timed
  cases result : step { run with phases := run.phases.enter name } with
  | ok answer next =>
      rw [result] at kept
      exact (overlooks.phases next _).trans kept
  | error fault next =>
      rw [result] at kept
      exact (overlooks.phases next _).trans kept

omit [Solver σ α] in
/-- A print is not seen, whether it is taken or refused. -/
theorem notify_announces
    (printed :
      ∀ (run : SolveRun σ τ α) outlet notices,
        look { run with outlet := outlet, notices := notices } = look run)
    (notice : Notice α) :
    Announces look (notify notice) := by
  intro run
  unfold notify
  split
  · exact printed run _ _
  · exact ⟨printed run _ run.notices, _, rfl⟩

omit [Solver σ α] in
theorem announce_announces
    (printed :
      ∀ (run : SolveRun σ τ α) outlet notices,
        look { run with outlet := outlet, notices := notices } = look run)
    (task : SolveTask α)
    (explains : Bool)
    (finding : SlaterFinding α) :
    Announces look (announce task explains finding) := by
  unfold announce
  split
  · exact notify_announces printed _
  · split
    · exact notify_announces printed _
    · exact .of_completes (.pure _)

theorem report_completes :
    Completes look (report : SolveM σ τ α (SolverReport α)) :=
  .bind .get fun _ => .pure _

theorem addUsage_keeps
    (overlooks : SolveRun.Overlooks look)
    [Scalar α] :
    Keeps look (addUsage : SolveM σ τ α Unit) :=
  .modify fun run => overlooks.usage run _

variable [Scalar α]

theorem timeLeft_completes
    (overlooks : SolveRun.Overlooks look)
    (task : SolveTask α) :
    Completes look (timeLeft task : SolveM σ τ α α) :=
  .bind (fun run => overlooks.looked run) fun _ => .pure _

theorem timeIsUp_completes
    (overlooks : SolveRun.Overlooks look)
    (task : SolveTask α) :
    Completes look (timeIsUp task : SolveM σ τ α Bool) :=
  .bind (timeLeft_completes overlooks task) fun _ => .pure _

theorem improveBound_keeps
    (overlooks : SolveRun.Overlooks look)
    (settings : Settings α) :
    Keeps look (improveBound settings : SolveM σ τ α Unit) := by
  refine .modify fun run => ?_
  dsimp only
  split
  · split
    · exact overlooks.bestBound run _
    · rfl
  · rfl

theorem solvePrepared_keeps
    (overlooks : SolveRun.Overlooks look)
    (task : SolveTask α)
    (penalty : Option (PenaltyRequest α))
    (start : Option (WarmStart α))
    (setting : SolverSetting) :
    Keeps look
      (solvePrepared task penalty start setting :
        SolveM σ τ α PenaltyOutcome) :=
  .bind (timeLeft_completes overlooks task).keeps fun _ =>
    .bind .get fun _ => overlooks.solve _

theorem solveDirectly_keeps
    (overlooks : SolveRun.Overlooks look)
    (task : SolveTask α) :
    Keeps look (solveDirectly task : SolveM σ τ α Unit) :=
  .bind (solvePrepared_keeps overlooks task _ _ _) fun _ =>
    addUsage_keeps overlooks

/--
A look that does not see the two requests of a Slater check and its marks does not
see the check.  A solve that fails in it leaves the question open; only a print that
is refused ends it.
-/
theorem checkSlater_announces_of
    {task : SolveTask α}
    (overlooks : SolveRun.OverlooksCheck task look)
    (explains : Bool) :
    Announces look (checkSlater task explains) := by
  have findDual_completes :
      Completes look (findDual task : SolveM σ τ α (DualFinding α)) := by
    refine .bind (observe_completes overlooks.keepsDual) ?_
    intro result
    split
    · exact .pure _
    · exact .bind report_completes fun _ => .pure _
  have findPrimal_completes :
      Completes look (findPrimal task : SolveM σ τ α PrimalFinding) := by
    intro run
    change Ends _ _ ((if _ then _ else _ : SolveM σ τ α PrimalFinding) run)
    split
    · rfl
    have asked :
        Completes look
          (observe
            (askSolver
              (Solver.solve (task.primalCheck run.work run.clock.reads))) :
            SolveM σ τ α (Except (Fault α) PenaltyOutcome)) :=
      observe_completes (overlooks.primal run.work run.clock.reads)
    refine Ends.bind (timeLeft_ends task run) (fun _ _ => False.elim) ?_
    rintro _ _ ⟨rfl, rfl⟩
    rw [← overlooks.looked run]
    refine Ends.bind (asked run.looked) (fun _ _ => id) ?_
    intro result next same
    rw [← same]
    split
    · rfl
    · rfl
  have announced (finding : SlaterFinding α) :
      Announces look (announce task explains finding) :=
    announce_announces overlooks.printed task explains finding
  refine .bind (.of_completes findDual_completes) fun dual => ?_
  refine
    .bind (.of_completes (.modify fun run => overlooks.slater run _))
      fun _ => ?_
  refine .bind (announced _) fun _ => ?_
  refine .bind (.of_completes findPrimal_completes) fun primal => ?_
  refine
    .bind (.of_completes (.modify fun run => overlooks.slater run _))
      fun _ => ?_
  exact announced _

/-- A Slater check is not seen by a look that sees no request at all. -/
theorem checkSlater_announces
    (overlooks : SolveRun.Overlooks look)
    (task : SolveTask α)
    (explains : Bool) :
    Announces look (checkSlater task explains) :=
  checkSlater_announces_of (overlooks.check task) explains

omit [Solver σ α] in
/-- Preparing a problem changes nothing but the working arrays. -/
theorem presolve_keeps
    (prepared :
      ∀ (run : SolveRun σ τ α) work, look { run with work := work } = look run)
    (task : SolveTask α) :
    Keeps look (presolve task : SolveM σ τ α (PresolveOutcome α)) := by
  intro run
  have kept :
      Ends
        (fun _ next => look next = look run)
        (fun _ next => look next = look run)
        (presolve task run) :=
    presolve_stays (prepared run)
  exact Ends.always_iff.mp kept

omit [Solver σ α] in
/-- Compacting a problem changes nothing but the working arrays. -/
theorem compact_keeps
    (prepared :
      ∀ (run : SolveRun σ τ α) work, look { run with work := work } = look run)
    (task : SolveTask α) :
    Keeps look (compact task : SolveM σ τ α Unit) := by
  intro run
  unfold compact
  split
  · exact prepared run _
  · rfl

omit [Solver σ α] in
/-- The path for one free variable changes nothing but the state of its method. -/
theorem solveOneVariable_keeps
    [OneVariableSolver τ α]
    (asked :
      ∀ (run : SolveRun σ τ α) method,
        look { run with oneVariable := method } = look run)
    (task : SolveTask α)
    (fixedObjective : α) :
    Keeps look
      (solveOneVariable task fixedObjective :
        SolveM σ τ α (Option (OneVariableResult α))) := by
  have askOneVariable_keeps (problem : OneVariableProblem α) :
      Keeps look
        (askOneVariable task problem :
          SolveM σ τ α (Option (OneVariableSolution α))) := by
    intro run
    unfold askOneVariable
    split <;> exact asked run _
  refine .bind .get fun run => ?_
  dsimp only
  split
  · exact .pure _
  · exact .bind (askOneVariable_keeps _) fun _ => .pure _
  · exact .pure _

theorem openWithSlater_keeps
    (overlooks : SolveRun.Overlooks look)
    (task : SolveTask α) :
    Keeps look (openWithSlater task : SolveM σ τ α Unit) := by
  unfold openWithSlater
  split
  · exact
      timed_keeps overlooks
        (checkSlater_announces overlooks task false).keeps "slater"
  · exact .pure _

omit [Solver σ α] [Scalar α] in
/-- A look that does not see the solver sees nothing that is asked of it. -/
theorem askSolver_keeps
    {look : SolveRun σ τ α → γ}
    (unseen :
      ∀ (run : SolveRun σ τ α) solver,
        look { run with solver := solver } = look run)
    (request : EStateM SolverFault σ β) :
    Keeps look (askSolver request : SolveM σ τ α β) := by
  intro run
  unfold askSolver
  cases request run.solver with
  | ok answer next =>
      exact unseen run next
  | error fault next =>
      exact unseen run next

section Rounds

variable
  (overlooks : SolveRun.Overlooks look)
  (unseen :
    ∀ (run : SolveRun σ τ α) solver,
      look { run with solver := solver } = look run)

include overlooks unseen

theorem escalateOnce_keeps
    (task : SolveTask α)
    (escalation : Escalation α) :
    Keeps look
      (escalateOnce task escalation : SolveM σ τ α (Escalation α)) := by
  refine .bind (solvePrepared_keeps overlooks task _ _ _) fun _ => ?_
  refine .bind (addUsage_keeps overlooks) fun _ => ?_
  refine .bind report_completes.keeps fun _ => ?_
  refine .bind (improveBound_keeps overlooks _) fun _ => ?_
  dsimp only
  split
  · exact .bind (askSolver_keeps unseen _) fun _ => .pure _
  · exact .pure _

/-- However many rounds an escalation takes, a look that does not see the solver sees none. -/
theorem escalate_keeps
    (task : SolveTask α)
    (rounds : Nat)
    (escalation : Escalation α) :
    Keeps look
      (escalate task rounds escalation : SolveM σ τ α (Escalation α)) := by
  induction rounds generalizing escalation with
  | zero =>
      exact .pure _
  | succ rounds inductionHypothesis =>
      unfold escalate
      split
      · exact .pure _
      · refine .bind (timeIsUp_completes overlooks task).keeps fun _ => ?_
        split
        · exact .pure _
        · exact
            .bind (escalateOnce_keeps overlooks unseen task escalation)
              inductionHypothesis

end Rounds

omit [Scalar α] in
theorem restoreGap_keeps
    (unseen :
      ∀ (run : SolveRun σ τ α) solver,
        look { run with solver := solver } = look run)
    (task : SolveTask α)
    (last : Escalation α) :
    Keeps look (restoreGap task last : SolveM σ τ α Unit) := by
  unfold restoreGap
  split
  · exact askSolver_keeps unseen _
  · exact .pure _

end SolveM

end SdpRelay
