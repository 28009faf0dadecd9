import SdpRelay.Proofs.SettingsHistory
import SdpRelay.Proofs.SolveExits

namespace SdpRelay

/-!
# The bound that a failed solve leaves

A recovery keeps a bound on the objective.  After each round the value of an answer
that the solver stands by replaces the bound if it is above it by more than the gap
tolerance of the settings.  `BoundCourse.Follows` says that the bound of a run is what
the rounds sent so far make of it, and `solve_follows` that this holds at the end of
every solve that ends well, and also if a print is refused.

So the bound of a failed solve is a running maximum up to the tolerance.  It is worth as
much as the round that raised it last: the solver also stands by an answer that only
proves a problem unbounded, and the value of such an answer is taken over as well.
-/

variable {σ τ α β γ : Type}

/-- The objective value of an answer that the solver stands by. -/
def SolverReport.accepted? (report : SolverReport α) : Option α :=
  match report.flags.acceptable, report.objective with
  | true, .ok value => some value
  | _, _ => none

theorem SolverReport.accepted?_eq_some
    {report : SolverReport α}
    {value : α} :
    report.accepted? = some value ↔
      report.flags.acceptable = true ∧ report.objective = .ok value := by
  unfold accepted?
  cases report.flags.acceptable with
  | false =>
      simp
  | true =>
      cases report.objective with
      | ok other =>
          simp
      | error fault =>
          simp

/-- The call asked for a penalty formulation that keeps the objective. -/
def SolverCall.asksObjective (call : SolverCall α) : Bool :=
  call.request.penalty.any fun penalty => penalty.withObjective

section Bounds

variable [Scalar α]

/-- The bound after a report, whose value has to be above it by more than a tolerance. -/
def SolverReport.improve
    (tolerance bound : α)
    (report : SolverReport α) :
    α :=
  match report.accepted? with
  | some value => if bound + tolerance < value then value else bound
  | none => bound

/-- The bound after a number of rounds. -/
def boundAfter
    (tolerance floor : α)
    (rounds : List (SolverCall α)) :
    α :=
  rounds.foldl
    (fun bound round => round.report.improve tolerance bound) floor

variable {tolerance floor bound : α}

theorem boundAfter_concat
    (rounds : List (SolverCall α))
    (round : SolverCall α) :
    boundAfter tolerance floor (rounds ++ [round]) =
      round.report.improve tolerance (boundAfter tolerance floor rounds) :=
  List.foldl_concat _ floor round rounds

/-- A report raises a bound to its value, or it has no value above the bound. -/
theorem SolverReport.improve_cases
    (tolerance bound : α)
    (report : SolverReport α) :
    (report.accepted? = some (report.improve tolerance bound) ∧
        bound + tolerance < report.improve tolerance bound) ∨
      (report.improve tolerance bound = bound ∧
        ∀ value, report.accepted? = some value →
          ¬ bound + tolerance < value) := by
  unfold improve
  cases accepted : report.accepted? with
  | none =>
      exact .inr ⟨rfl, nofun⟩
  | some value =>
      dsimp only
      by_cases above : bound + tolerance < value
      · rw [if_pos above]
        exact .inl ⟨rfl, above⟩
      · rw [if_neg above]
        refine .inr ⟨rfl, ?_⟩
        rintro _ ⟨rfl⟩
        exact above

/-- A round raised the bound, and no later one did. -/
structure LastRaise
    (tolerance floor : α)
    (rounds earlier : List (SolverCall α))
    (round : SolverCall α)
    (later : List (SolverCall α)) :
    Prop where
  isRound : rounds = earlier ++ round :: later
  accepted :
    round.report.accepted? = some (boundAfter tolerance floor rounds)
  raises :
    boundAfter tolerance floor earlier + tolerance <
      boundAfter tolerance floor rounds
  isLast :
    ∀ other ∈ later, ∀ value, other.report.accepted? = some value →
      ¬ boundAfter tolerance floor rounds + tolerance < value

/-- A bound is the one that the rounds started from, or some round raised it last. -/
theorem boundAfter_source
    (tolerance floor : α)
    (rounds : List (SolverCall α)) :
    boundAfter tolerance floor rounds = floor ∨
      ∃ earlier round later,
        LastRaise tolerance floor rounds earlier round later := by
  induction rounds using List.reverseRecOn with
  | nil =>
      exact .inl rfl
  | append_singleton rounds final inductionHypothesis =>
      rcases final.report.improve_cases tolerance
          (boundAfter tolerance floor rounds) with
        ⟨accepted, raises⟩ | ⟨same, keeps⟩
      · rw [← boundAfter_concat] at accepted raises
        exact .inr ⟨rounds, final, [], rfl, accepted, raises, by simp⟩
      rw [← boundAfter_concat] at same
      rcases inductionHypothesis with isFloor | ⟨earlier, round, later, raised⟩
      · exact .inl (same.trans isFloor)
      refine .inr ⟨earlier, round, later ++ [final], ?_⟩
      exact
        {
          isRound := by rw [raised.isRound]; simp
          accepted := by rw [same]; exact raised.accepted
          raises := by rw [same]; exact raised.raises
          isLast := by
            rw [same]
            intro other member
            rcases List.mem_append.mp member with inLater | isFinal
            · exact raised.isLast other inLater
            · rw [List.mem_singleton.mp isFinal]
              exact keeps
        }

end Bounds

section Exact

variable {K : Type} [ExactField K] {tolerance floor : K}

/-- A report never lowers a bound. -/
theorem SolverReport.le_improve
    (nonneg : 0 ≤ tolerance)
    (bound : K)
    (report : SolverReport K) :
    bound ≤ report.improve tolerance bound := by
  rcases report.improve_cases tolerance bound with ⟨_, raises⟩ | ⟨same, _⟩
  · exact (le_add_of_nonneg_right nonneg).trans raises.le
  · exact same.ge

theorem floor_le_boundAfter
    (nonneg : 0 ≤ tolerance)
    (floor : K)
    (rounds : List (SolverCall K)) :
    floor ≤ boundAfter tolerance floor rounds := by
  induction rounds using List.reverseRecOn with
  | nil =>
      exact le_rfl
  | append_singleton rounds final inductionHypothesis =>
      rw [boundAfter_concat]
      exact inductionHypothesis.trans (final.report.le_improve nonneg _)

/-- No accepted value of a round is above the final bound by more than the tolerance. -/
theorem accepted_le_boundAfter
    (nonneg : 0 ≤ tolerance)
    {rounds : List (SolverCall K)}
    {round : SolverCall K}
    (member : round ∈ rounds)
    {value : K}
    (accepted : round.report.accepted? = some value) :
    value ≤ boundAfter tolerance floor rounds + tolerance := by
  induction rounds using List.reverseRecOn with
  | nil =>
      cases member
  | append_singleton rounds final inductionHypothesis =>
      rw [boundAfter_concat]
      have grows :=
        final.report.le_improve nonneg (boundAfter tolerance floor rounds)
      rcases List.mem_append.mp member with earlier | isFinal
      · calc
          value ≤ boundAfter tolerance floor rounds + tolerance :=
            inductionHypothesis earlier
          _ ≤ _ := by gcongr
      rw [List.mem_singleton.mp isFinal] at accepted
      rcases final.report.improve_cases tolerance
          (boundAfter tolerance floor rounds) with
        ⟨taken, _⟩ | ⟨same, keeps⟩
      · rw [accepted] at taken
        rw [← Option.some.inj taken]
        exact le_add_of_nonneg_right nonneg
      · rw [same]
        exact not_lt.mp (keeps value accepted)

/-- The bound is the floor, or the value of a round that was solved to optimality. -/
def IsProven
    (floor : K)
    (rounds : List (SolverCall K))
    (bound : K) :
    Prop :=
  bound = floor ∨
    ∃ round ∈ rounds,
      round.report.flags.optimal = true ∧ round.report.objective = .ok bound

instance (floor : K) (rounds : List (SolverCall K)) (bound : K) :
    Decidable (IsProven floor rounds bound) :=
  inferInstanceAs (Decidable (_ ∨ _))

/--
What a bound is worth that is kept over a number of rounds: it is proven exactly if
the value of the round that raised it last was returned for an optimal solution.
-/
structure KeptBound
    (tolerance floor : K)
    (rounds : List (SolverCall K))
    (bound : K) :
    Prop where
  follows : bound = boundAfter tolerance floor rounds
  source :
    bound = floor ∨
      ∃ earlier round later,
        LastRaise tolerance floor rounds earlier round later ∧
          round.report.flags.acceptable = true ∧
          round.report.objective = .ok bound
  above :
    ∀ round ∈ rounds, round.report.flags.optimal = true →
      ∀ value, round.report.objective = .ok value →
        value ≤ bound + tolerance
  proven :
    IsProven floor rounds bound ↔
      ∀ earlier round later,
        LastRaise tolerance floor rounds earlier round later →
          ∃ other ∈ rounds,
            other.report.flags.optimal = true ∧
              other.report.objective = round.report.objective

/-- A round that raises the bound leaves it above the floor. -/
theorem LastRaise.floor_lt
    {rounds earlier later : List (SolverCall K)}
    {round : SolverCall K}
    (raised : LastRaise tolerance floor rounds earlier round later)
    (nonneg : 0 ≤ tolerance) :
    floor < boundAfter tolerance floor rounds := by
  calc
    floor ≤ boundAfter tolerance floor earlier :=
      floor_le_boundAfter nonneg floor earlier
    _ ≤ boundAfter tolerance floor earlier + tolerance :=
      le_add_of_nonneg_right nonneg
    _ < boundAfter tolerance floor rounds := raised.raises

/-- If optimal answers are ones that the solver stands by, the bound is worth that much. -/
theorem keptBound_boundAfter
    (nonneg : 0 ≤ tolerance)
    (floor : K)
    {rounds : List (SolverCall K)}
    (consistent :
      ∀ round ∈ rounds, round.report.flags.optimal = true →
        round.report.flags.acceptable = true) :
    KeptBound tolerance floor rounds (boundAfter tolerance floor rounds) where
  follows := rfl
  source := by
    refine (boundAfter_source tolerance floor rounds).imp_right ?_
    rintro ⟨earlier, round, later, raised⟩
    exact
      ⟨earlier, round, later, raised,
        SolverReport.accepted?_eq_some.mp raised.accepted⟩
  above := by
    intro round member optimal value objective
    exact
      accepted_le_boundAfter nonneg member
        (SolverReport.accepted?_eq_some.mpr
          ⟨consistent round member optimal, objective⟩)
  proven := by
    constructor
    · intro proven earlier round later raised
      have objective := (SolverReport.accepted?_eq_some.mp raised.accepted).2
      rw [objective]
      exact proven.resolve_left (raised.floor_lt nonneg).ne'
    · intro optimal
      refine (boundAfter_source tolerance floor rounds).imp_right ?_
      rintro ⟨earlier, round, later, raised⟩
      have objective := (SolverReport.accepted?_eq_some.mp raised.accepted).2
      rw [← objective]
      exact optimal earlier round later raised

end Exact

/-- The rounds that a solve has sent, and the bound that it keeps. -/
@[ext]
structure BoundCourse (α : Type) where
  rounds : List (SolverCall α)
  bound : α

/-- What a journaled run shows of its rounds and its bound. -/
def SolveRun.boundCourse
    (run : SolveRun (JournaledSolver σ α) τ α) :
    BoundCourse α :=
  {
    rounds := run.solver.calls.filter SolverCall.asksObjective
    bound := run.bestBound
  }

variable [Scalar α]

/-- The bound is what the rounds have made of a floor. -/
def BoundCourse.Follows
    (tolerance floor : α)
    (course : BoundCourse α) :
    Prop :=
  course.bound = boundAfter tolerance floor course.rounds

namespace SolveM

variable {tolerance floor : α}

/--
A step leaves a bound that follows the rounds if it finds one, unless it fails for
another reason than that a print is refused.
-/
def Follows
    (tolerance floor : α)
    (step : SolveM (JournaledSolver σ α) τ α β) :
    Prop :=
  ∀ run, run.boundCourse.Follows tolerance floor →
    Ends
      (fun _ next => next.boundCourse.Follows tolerance floor)
      (fun fault next =>
        (∃ refusal, fault = .file refusal) →
          next.boundCourse.Follows tolerance floor)
      (step run)

namespace Follows

theorem of_keeps
    {step : SolveM (JournaledSolver σ α) τ α β}
    (keeps : Keeps SolveRun.boundCourse step) :
    Follows tolerance floor step := by
  intro run follows
  have kept
      {next : SolveRun (JournaledSolver σ α) τ α}
      (same : next.boundCourse = run.boundCourse) :
      next.boundCourse.Follows tolerance floor := by
    rw [same]
    exact follows
  exact (keeps.ends run).mono (fun _ _ => kept) (fun _ _ same _ => kept same)

theorem bind
    {first : SolveM (JournaledSolver σ α) τ α β}
    {second : β → SolveM (JournaledSolver σ α) τ α γ}
    (follows : Follows tolerance floor first)
    (continues : ∀ answer, Follows tolerance floor (second answer)) :
    Follows tolerance floor (first >>= second) :=
  fun run start =>
    Ends.bind (follows run start) (fun _ _ => id) fun answer next =>
      continues answer next

theorem timed
    {step : SolveM (JournaledSolver σ α) τ α β}
    (follows : Follows tolerance floor step)
    (name : String) :
    Follows tolerance floor (timed name step) :=
  fun run start =>
    timed_ends (follows { run with phases := run.phases.enter name } start)

end Follows

variable [Solver σ α]

omit [Scalar α] in
/-- A request that keeps no objective is no round. -/
theorem askSolver_keepsCourse
    {request : SolveRequest α}
    (aside : ∀ penalty ∈ request.penalty, penalty.withObjective = false) :
    Keeps SolveRun.boundCourse
      (askSolver (Solver.solve request) :
        SolveM (JournaledSolver σ α) τ α PenaltyOutcome) := by
  have isAside :
      (request.penalty.any fun penalty => penalty.withObjective) = false := by
    cases isPenalty : request.penalty with
    | none =>
        rfl
    | some penalty =>
        exact aside penalty isPenalty
  have sameRounds
      {before after : List (SolverCall α)}
      {answer : Except SolverFault PenaltyOutcome}
      {report : SolverReport α}
      (sent : after = before ++ [⟨request, answer, report⟩]) :
      after.filter SolverCall.asksObjective =
        before.filter SolverCall.asksObjective := by
    rw [sent, List.filter_append]
    simp [SolverCall.asksObjective, isAside]
  intro run
  have noted := JournaledSolver.solve_ends request run.solver
  unfold askSolver
  cases result : Solver.solve request run.solver with
  | ok outcome next =>
      rw [result] at noted
      exact
        BoundCourse.ext (sameRounds (JournaledSolver.calls_of_asked noted)) rfl
  | error fault next =>
      rw [result] at noted
      exact
        BoundCourse.ext (sameRounds (JournaledSolver.calls_of_asked noted.2))
          rfl

omit [Scalar α] in
/-- Neither is an assignment of a parameter. -/
theorem forward_keepsCourse
    (parameter : Parameter)
    (value : α) :
    Keeps SolveRun.boundCourse
      (askSolver (Solver.forward parameter value) :
        SolveM (JournaledSolver σ α) τ α Unit) := by
  intro run
  have calls :
      (stateAfter (Solver.forward parameter value run.solver)).calls =
        run.solver.calls := by
    rw [Solver.stateAfter_forward]
    exact
      JournaledSolver.calls_of_told
        (JournaledSolver.setReal_journal parameter value run.solver)
  unfold askSolver
  cases result : Solver.forward parameter value run.solver with
  | ok answer next =>
      rw [result] at calls
      exact BoundCourse.ext (congrArg (List.filter _) calls) rfl
  | error fault next =>
      rw [result] at calls
      exact BoundCourse.ext (congrArg (List.filter _) calls) rfl

theorem solvePrepared_keepsCourse
    (task : SolveTask α)
    {penalty : Option (PenaltyRequest α)}
    (aside : ∀ asked ∈ penalty, asked.withObjective = false)
    (start : Option (WarmStart α))
    (setting : SolverSetting) :
    Keeps SolveRun.boundCourse
      (solvePrepared task penalty start setting :
        SolveM (JournaledSolver σ α) τ α PenaltyOutcome) :=
  fun run =>
    have asked :
        Keeps SolveRun.boundCourse
          (askSolver
            (Solver.solve
              (task.request run.work penalty start setting run.clock.reads)) :
            SolveM (JournaledSolver σ α) τ α PenaltyOutcome) :=
      askSolver_keepsCourse aside
    asked run.looked

omit [Solver σ α] in
/-- The question for the violation leaves the objective out. -/
theorem violationOnly_aside :
    ∀ penalty ∈ some (PenaltyRequest.violationOnly : PenaltyRequest α),
      penalty.withObjective = false := by
  rintro penalty ⟨⟩
  rfl

/-- Neither request of a Slater check is a round. -/
theorem boundCourse_overlooksCheck (task : SolveTask α) :
    SolveRun.OverlooksCheck task
      (SolveRun.boundCourse :
        SolveRun (JournaledSolver σ α) τ α → BoundCourse α) where
  printed _ _ _ := rfl
  looked _ := rfl
  slater _ _ := rfl
  dual _ _ := askSolver_keepsCourse violationOnly_aside
  primal _ _ := askSolver_keepsCourse (by simp [SolveTask.primalCheck])

/-- Improving the bound of a run takes the last report of its solver into account. -/
theorem improveBound_eq
    (settings : Settings α)
    (run : SolveRun σ τ α) :
    (improveBound settings : SolveM σ τ α Unit) run =
      .ok ()
        {
          run with
          bestBound :=
            (Solver.report run.solver).improve settings.gapTolerance
              run.bestBound
        } := by
  unfold improveBound SolverReport.improve SolverReport.accepted?
  change EStateM.Result.ok () _ = _
  congr 1
  dsimp only
  cases (Solver.report run.solver).flags.acceptable with
  | false =>
      rfl
  | true =>
      cases (Solver.report run.solver).objective with
      | error fault =>
          rfl
      | ok value =>
          dsimp only
          split
          · rfl
          · rfl

/-- A round for the prepared problem is noted, and leaves the bound for later. -/
theorem solvePrepared_notes
    (task : SolveTask α)
    (penalty : Option (PenaltyRequest α))
    (start : Option (WarmStart α))
    (setting : SolverSetting)
    (run : SolveRun (JournaledSolver σ α) τ α) :
    Ends
      (fun outcome next =>
        next.solver.calls =
            run.solver.calls ++
              [⟨task.request run.work penalty start setting run.clock.reads,
                .ok outcome, Solver.report next.solver⟩] ∧
          next.bestBound = run.bestBound)
      (fun fault _ => ∃ reason, fault = .solver reason)
      (solvePrepared task penalty start setting run) := by
  let request :=
    task.request run.work penalty start setting run.clock.reads
  have noted := JournaledSolver.solve_ends request run.looked.solver
  change Ends _ _ (askSolver (Solver.solve request) run.looked)
  unfold askSolver
  cases result : Solver.solve request run.looked.solver with
  | ok outcome next =>
      rw [result] at noted
      exact ⟨JournaledSolver.calls_of_asked noted, rfl⟩
  | error fault next =>
      exact ⟨fault, rfl⟩

/-- One round leaves a bound that takes its report into account. -/
theorem escalateOnce_follows
    (task : SolveTask α)
    (escalation : Escalation α) :
    Follows task.settings.gapTolerance floor
      (escalateOnce task escalation :
        SolveM (JournaledSolver σ α) τ α (Escalation α)) := by
  intro run follows
  refine
    Ends.bind (solvePrepared_notes task _ _ _ run) ?_ ?_
  · rintro _ next ⟨reason, rfl⟩ ⟨refusal, isPrint⟩
    cases isPrint
  rintro outcome solved ⟨noted, kept⟩
  have counts :
      Ends
        (fun _ next =>
          next.solver = solved.solver ∧ next.bestBound = solved.bestBound)
        (fun _ _ => False)
        (addUsage solved) :=
    ⟨rfl, rfl⟩
  refine Ends.bind counts (fun _ _ => False.elim) ?_
  rintro _ counted ⟨sameSolver, sameBound⟩
  refine Ends.bind (report_ends counted) (fun _ _ => False.elim) ?_
  rintro _ counted ⟨rfl, rfl⟩
  -- the round is in the journal already, but only now does the bound catch up with it
  have improves :
      Ends
        (fun _ next =>
          next.boundCourse.Follows task.settings.gapTolerance floor)
        (fun _ _ => False)
        (improveBound task.settings counted) := by
    have before : run.bestBound = boundAfter _ _ _ := follows
    rw [improveBound_eq]
    change
      (Solver.report counted.solver).improve _ counted.bestBound =
        boundAfter _ _ (counted.solver.calls.filter _)
    rw [sameSolver, sameBound, kept, before, noted, List.filter_append,
      List.filter_cons_of_pos rfl, List.filter_nil, boundAfter_concat]
    rfl
  refine Ends.bind improves (fun _ _ => False.elim) ?_
  intro _ improved followed
  split
  · exact
      Follows.bind (.of_keeps (forward_keepsCourse _ _))
        (fun _ => .of_keeps (.pure _)) improved followed
  · exact followed

/-- However many rounds an escalation takes, its bound follows them. -/
theorem escalate_follows
    (task : SolveTask α)
    (rounds : Nat)
    (escalation : Escalation α) :
    Follows task.settings.gapTolerance floor
      (escalate task rounds escalation :
        SolveM (JournaledSolver σ α) τ α (Escalation α)) := by
  induction rounds generalizing escalation with
  | zero =>
      exact .of_keeps (.pure _)
  | succ rounds inductionHypothesis =>
      unfold escalate
      split
      · exact .of_keeps (.pure _)
      refine .bind (.of_keeps fun _ => rfl) fun isUp => ?_
      split
      · exact .of_keeps (.pure _)
      · exact .bind (escalateOnce_follows task escalation) inductionHypothesis

/-- Settling a recovery sends no further round. -/
theorem settleRecovery_keepsCourse
    (task : SolveTask α)
    (last : Escalation α) :
    Keeps SolveRun.boundCourse
      (settleRecovery task last :
        SolveM (JournaledSolver σ α) τ α Unit) := by
  unfold settleRecovery
  split
  · exact .modify fun _ => rfl
  · refine .bind (.modify fun _ => rfl) fun _ => ?_
    split
    · exact
        (checkSlater_announces_of (boundCourse_overlooksCheck task) true).keeps
    · exact .pure _

/-- The question for the violation is no round, and the rounds of a recovery are followed. -/
theorem recover_follows (task : SolveTask α) :
    Follows task.settings.gapTolerance floor
      (recover task : SolveM (JournaledSolver σ α) τ α Unit) := by
  have asked :
      Keeps SolveRun.boundCourse
        (solvePrepared task (some PenaltyRequest.violationOnly) task.start
          task.startSetting :
          SolveM (JournaledSolver σ α) τ α PenaltyOutcome) :=
    solvePrepared_keepsCourse task violationOnly_aside _ _
  rw [recover_eq]
  refine .bind (.of_keeps asked) fun _ => ?_
  refine .bind (.of_keeps (.modify fun _ => rfl)) fun _ => ?_
  refine .bind (.of_keeps report_completes.keeps) fun seen => ?_
  split
  · exact .of_keeps (.modify fun _ => rfl)
  refine .bind (escalate_follows task _ _) fun last => ?_
  refine .bind (.of_keeps ?_) fun _ => ?_
  · unfold restoreGap
    split
    · exact forward_keepsCourse _ _
    · exact .pure _
  · exact .of_keeps (settleRecovery_keepsCourse task last)

/-- The solver is asked for the problem itself before any round. -/
theorem solveBySolver_follows (task : SolveTask α) :
    Follows task.settings.gapTolerance floor
      (solveBySolver task : SolveM (JournaledSolver σ α) τ α Unit) := by
  have opened :
      Follows task.settings.gapTolerance floor
        (openWithSlater task : SolveM (JournaledSolver σ α) τ α Unit) := by
    unfold openWithSlater
    split
    · refine Follows.timed (.of_keeps ?_) _
      exact
        (checkSlater_announces_of (boundCourse_overlooksCheck task)
          false).keeps
    · exact .of_keeps (.pure _)
  have direct :
      Keeps SolveRun.boundCourse
        (solveDirectly task : SolveM (JournaledSolver σ α) τ α Unit) :=
    .bind (solvePrepared_keepsCourse task (by simp) _ _) fun _ =>
      .modify fun _ => rfl
  refine .bind opened fun _ => ?_
  refine .bind (Follows.timed (.of_keeps direct) _) fun _ => ?_
  refine .bind (.of_keeps (.modify fun _ => rfl)) fun _ => ?_
  refine .bind (.of_keeps report_completes.keeps) fun seen => ?_
  split
  · exact .of_keeps (.pure _)
  refine .bind (.of_keeps fun _ => rfl) fun isUp => ?_
  split
  · exact .of_keeps (.pure _)
  · exact Follows.timed (recover_follows task) _

variable [OneVariableSolver τ α]

/-- At the end of a whole solve the bound follows the rounds. -/
theorem solve_follows (task : SolveTask α) :
    Follows task.settings.gapTolerance floor
      (solve task : SolveM (JournaledSolver σ α) τ α Unit) := by
  have directly
      (verdict : Verdict α)
      (count : Tally → Tally) :
      Follows task.settings.gapTolerance floor
        (settleDirectly verdict count :
          SolveM (JournaledSolver σ α) τ α Unit) :=
    .of_keeps (.modify fun _ => rfl)
  unfold solve
  split
  · exact directly _ _
  refine
    .bind
      (Follows.timed (.of_keeps (presolve_keeps (fun _ _ => rfl) task)) _)
      fun found => ?_
  split
  · exact directly _ _
  · exact directly _ _
  rename_i fixedObjective
  rw [solveUndecided_eq]
  refine
    .bind
      (Follows.timed
        (.of_keeps
          (solveOneVariable_keeps (fun _ _ => rfl) task fixedObjective)) _)
      fun result => ?_
  cases result with
  | some result =>
      exact directly _ _
  | none =>
      exact
        .bind
          (Follows.timed (.of_keeps (compact_keeps (fun _ _ => rfl) task)) _)
          fun _ => solveBySolver_follows task

end SolveM

namespace Session

section Journaling

variable [Solver σ α] [OneVariableSolver τ α]

/--
A solve that starts with an empty journal leaves a bound that follows its rounds, also
if it fails because a print is refused.
-/
theorem solve_follows
    {session : Session (JournaledSolver σ α) τ α}
    (uncalled : session.run.solver.calls = [])
    (options : SolveOptions α)
    (watch : Nat → α) :
    Ends
      (fun _ next =>
        next.run.boundCourse.Follows session.settings.gapTolerance
          (-session.sentinel))
      (fun fault next =>
        (∃ refusal, fault = .file refusal) →
          next.run.boundCourse.Follows session.settings.gapTolerance
            (-session.sentinel))
      (solve options watch session) := by
  have start (clock : Clock) (phases : Phases) :
      { session.cleared.run with
        clock := clock
        phases := phases }.boundCourse.Follows session.settings.gapTolerance
        (-session.sentinel) := by
    change -session.sentinel = boundAfter _ _ (session.run.solver.calls.filter _)
    rw [uncalled]
    rfl
  have overlooks :
      OverlooksFrame
        (SolveRun.boundCourse :
          SolveRun (JournaledSolver σ α) τ α → BoundCourse α) :=
    ⟨fun _ _ => rfl, fun _ _ => rfl, fun _ _ _ => rfl⟩
  rw [solve_eq]
  split
  · exact start session.cleared.run.clock session.cleared.run.phases
  · refine
      solveTask_leaves_of overlooks
        (BoundCourse.Follows session.settings.gapTolerance
          (-session.sentinel))
        (fun fault course =>
          (∃ refusal, fault = .file refusal) →
            course.Follows session.settings.gapTolerance (-session.sentinel))
        (fun _ _ follows _ => follows) ?_ ?_
        fun clock phases => SolveM.solve_follows _ _ (start clock phases)
    · rintro stuck fault found _ ⟨refusal, isPrint⟩
      cases isPrint
    · exact fun _ _ =>
        start session.cleared.run.clock session.cleared.run.phases

/-- The rounds that a solve sends to the solver: penalty formulations with the objective. -/
def penaltyRounds
    (session : Session σ τ α)
    (options : SolveOptions α)
    (watch : Nat → α) :
    List (SolverCall α) :=
  (session.solverCalls options watch).filter SolverCall.asksObjective

/-- A verdict of failure leaves the bound that its rounds make of minus the sentinel. -/
theorem bestBound_of_failed
    {session : Session σ τ α}
    {options : SolveOptions α}
    {watch : Nat → α}
    (failed :
      (stateAfter (solve options watch session)).run.verdict = .failed) :
    (stateAfter (solve options watch session)).run.bestBound =
      boundAfter session.settings.gapTolerance (-session.sentinel)
        (session.penaltyRounds options watch) := by
  have alike := solve_journaled session options watch
  have follows :=
    solve_follows
      (show session.journaled.run.solver.calls = [] from rfl) options watch
  have isRounds :
      session.penaltyRounds options watch =
        (stateAfter (solve options watch
          session.journaled)).run.solver.calls.filter
            SolverCall.asksObjective :=
    rfl
  -- a solve with this verdict that does not end well was refused a print
  have ends :
      Ends
        (fun _ _ => True)
        (fun fault _ => ∃ refusal, fault = .file refusal)
        (solve options watch session) := by
    cases result : solve options watch session with
    | ok _ next =>
        trivial
    | error fault next =>
        rw [result] at failed
        rcases solve_leftBy result with ⟨work, left⟩ | stopped
        · have isFailed : next.run.verdict = .failed := failed
          rcases left.unsolved_iff with ⟨unsolved, _⟩ | ⟨solved, _⟩
          · rw [isFailed] at unsolved
            cases unsolved
          · rw [isFailed] at solved
            cases solved
        · obtain ⟨refusal, _, isRefusal⟩ := stopped.refused
          exact ⟨refusal, isRefusal⟩
  revert alike follows isRounds ends
  generalize solve options watch session.journaled = replayed
  generalize solve options watch session = result
  intro alike follows isRounds ends
  cases alike with
  | answer agree =>
      rw [isRounds]
      exact agree.run.bestBound.symm.trans follows
  | fault agree =>
      rw [isRounds]
      exact agree.run.bestBound.symm.trans (follows ends)

end Journaling

/--
The lower bound of a failed solve is a running maximum over the penalty rounds of that
solve, up to the gap tolerance.  No value of an optimal round is above it by more than
the tolerance; but it need not be the value of an optimal round, since each value of an
answer that the solver stands by is taken over.
-/
theorem failed_solve_keepsBound
    {K : Type}
    [ExactField K]
    [Solver σ K]
    [OneVariableSolver τ K]
    {session : Session σ τ K}
    {options : SolveOptions K}
    {watch : Nat → K}
    (nonneg : 0 ≤ session.settings.gapTolerance)
    (consistent :
      ∀ call ∈ session.solverCalls options watch,
        call.report.flags.optimal = true →
          call.report.flags.acceptable = true)
    (failed :
      (stateAfter (solve options watch session)).run.verdict = .failed) :
    ∃ bound,
      (stateAfter (solve options watch session)).lowerBound = .ok bound ∧
        KeptBound session.settings.gapTolerance (-session.sentinel)
          (session.penaltyRounds options watch) bound := by
  refine ⟨(stateAfter (solve options watch session)).run.bestBound, ?_, ?_⟩
  · unfold lowerBound
    rw [failed]
    rfl
  · rw [bestBound_of_failed failed]
    refine keptBound_boundAfter nonneg _ ?_
    intro round member
    exact consistent round (List.mem_filter.mp member).1

/-- A session around a solver that does not stand by its answers once its script is used up. -/
def hopelessSession
    (script : List (ScriptedAnswer ℚ)) :
    Session (ScriptedSolver ℚ) NewtonMethod ℚ :=
  (assemble standardSentinel Settings.standard
    { scriptedSolver script with fallback := unsureAnswer }
    NewtonMethod.standard).afterCalls
      [.operate (.edit (.load openProgram))]

/-- An answer that is infeasible for the problem itself, with an objective value. -/
def roundAnswer
    (flags : StatusFlags)
    (value : ℚ) :
    ScriptedAnswer ℚ :=
  { scriptedAnswer flags false none with objective := some value }

/-- The problem is proven to be unbounded on the dual side. -/
def unboundedFlags : StatusFlags :=
  {
    StatusFlags.unknown 0 with
    dualUnbounded := true
    acceptable := true
  }

/--
The second round improves the bound by half of the gap tolerance, so the value of the
first one stays; it is the value of an optimal solution.
-/
theorem slight_improvement_keepsBound :
    let session :=
      hopelessSession
        [unsureAnswer, unsureAnswer, roundAnswer Verdict.optimalFlags 2,
          roundAnswer Verdict.optimalFlags (2 + 1 / 20000)]
    let next := stateAfter (solve patientOptions (fun _ => 0) session)
    let rounds := session.penaltyRounds patientOptions (fun _ => 0)
    next.run.verdict = .failed ∧
      next.lowerBound = .ok 2 ∧
      KeptBound session.settings.gapTolerance (-session.sentinel) rounds 2 ∧
      IsProven (-session.sentinel) rounds 2 := by
  intro session next rounds
  have nonneg : 0 ≤ session.settings.gapTolerance :=
    (Started.gapTolerance_pos (.standard _ _ _) _).le
  have failed : next.run.verdict = .failed := by decide +kernel
  have isTwo : next.lowerBound = .ok 2 := by decide +kernel
  obtain ⟨bound, isBound, kept⟩ :=
    failed_solve_keepsBound nonneg (by decide +kernel) failed
  have sameBound : bound = 2 := Except.ok.inj (isBound.symm.trans isTwo)
  rw [sameBound] at kept
  exact ⟨failed, isTwo, kept, by decide +kernel⟩

/--
The solver stands by a round because it proves the problem unbounded.  Its value is the
lower bound after the solve, although no round was solved to optimality.
-/
theorem unbounded_round_raises_bound :
    let session :=
      hopelessSession
        [unsureAnswer, unsureAnswer, roundAnswer unboundedFlags 5]
    let next := stateAfter (solve patientOptions (fun _ => 0) session)
    next.run.verdict = .failed ∧
      (∀ call ∈ session.solverCalls patientOptions (fun _ => 0),
        call.report.flags.optimal = true →
          call.report.flags.acceptable = true) ∧
      next.lowerBound = .ok 5 ∧
      ¬ IsProven (-session.sentinel)
        (session.penaltyRounds patientOptions (fun _ => 0)) 5 := by
  exact
    ⟨by decide +kernel, by decide +kernel, by decide +kernel,
      by decide +kernel⟩

end Session

end SdpRelay
