import SdpRelay.Proofs.PenaltyRounds

namespace SdpRelay

/-!
# The journal of a recovery

The journal of a recovery is the question for the violation, then one round after the
other, then the gap tolerance of the settings if a round has tightened it, and at last
the calls of a Slater check.  A course is such a journal in its parts, and `Recovered`
says which courses there are for a recovery that ends well.

A recovery can also be broken off, and `RecoveryFails` has one case for each way: by a
call without an answer, by a gap tolerance that the solver refuses, or by a print that
is refused while a failure is explained.
-/

variable {σ τ α : Type}

/-- A call that does not ask for the penalty formulation with its objective. -/
def SolverCall.IsCheck (call : SolverCall α) : Prop :=
  ∀ penalty ∈ call.request.penalty, penalty.withObjective = false

variable [Scalar α]

/-- The value above which the penalty formulation proves infeasibility. -/
def SolveTask.infeasibilityThreshold (task : SolveTask α) : α :=
  task.settings.infeasibilityFactor *
    Scalar.larger task.settings.feasTolerance task.settings.gapTolerance

namespace SolverCall

/-- The call asked for the penalty formulation of the prepared problem, with its objective. -/
def IsRound
    (call : SolverCall α)
    (task : SolveTask α)
    (work : Workspace α) :
    Prop :=
  ∃ penalty look, call.request = task.roundRequest work penalty look

/--
The report after the call says that the violation is above the threshold, or
that there is no bound on it.  Where the report has no value, minus the sentinel
stands in for it, which is never above the threshold in a sound setting.
-/
def ProvesInfeasible
    (call : SolverCall α)
    (task : SolveTask α) :
    Prop :=
  (call.report.flags.optimal = true ∧
    (¬ task.infeasibilityThreshold < -task.sentinel →
      call.report.solved = true ∧
        ∃ value, call.report.objective = .ok value ∧
          task.infeasibilityThreshold < value)) ∨
  (call.report.solved = true ∧ call.report.flags.dualInfeasible = true)

end SolverCall

/-- The requests of a Slater check are two at most, and none of them keeps the objective. -/
theorem SolveTask.areChecks_of_slaterRequests
    {task : SolveTask α}
    {work : Workspace α}
    {look : Nat}
    {calls : List (SolverCall α)}
    (requests :
      calls.map SolverCall.request <+: task.slaterRequests work look) :
    calls.length ≤ 2 ∧ ∀ call ∈ calls, call.IsCheck := by
  have primalChecks :
      task.primalChecks work (look + 1) = [] ∨
        task.primalChecks work (look + 1) =
          [task.primalCheck work (look + 1)] := by
    unfold primalChecks
    split
    · exact .inl rfl
    · exact .inr rfl
  constructor
  · have few := requests.length_le
    rw [List.length_map] at few
    refine Nat.le_trans few ?_
    unfold slaterRequests
    rcases primalChecks with none | single
    · simp [none]
    · simp [single]
  · intro call member
    have isRequest :
        call.request ∈ task.slaterRequests work look :=
      requests.subset (List.mem_map_of_mem member)
    unfold slaterRequests at isRequest
    rcases List.mem_cons.mp isRequest with isDual | isPrimal
    · rintro penalty asked
      rw [isDual] at asked
      cases asked
      rfl
    · rintro penalty asked
      rcases primalChecks with none | single
      · rw [none] at isPrimal
        cases isPrimal
      · rw [single, List.mem_singleton] at isPrimal
        rw [isPrimal] at asked
        cases asked

/-- What a recovery notes, in its order. -/
structure RecoveryCourse (α : Type) where
  /-- The call without objective that asks for the violation. -/
  violation : SolverCall α
  /-- The calls with objective. -/
  rounds : List (PenaltyRound α)
  /-- The gap tolerance that the solver is told after the rounds, and its reply. -/
  restoration : Option (α × Except SolverFault Unit)
  /-- The calls of the Slater check that explains a failure. -/
  explanation : List (SolverCall α)

namespace RecoveryCourse

/-- The journal of a recovery. -/
def events (course : RecoveryCourse α) : List (SolverEvent α) :=
  .asked course.violation ::
    (course.rounds.flatMap PenaltyRound.events ++
      course.restoration.toList.map
        (fun told => .told .gapTolerance told.1 told.2) ++
      course.explanation.map .asked)

/-- The calls of a recovery, in order. -/
theorem filterMap_call?_events (course : RecoveryCourse α) :
    course.events.filterMap SolverEvent.call? =
      course.violation ::
        (course.rounds.map PenaltyRound.call ++ course.explanation) := by
  have rounds :
      (course.rounds.flatMap PenaltyRound.events).filterMap
          SolverEvent.call? =
        course.rounds.map PenaltyRound.call := by
    induction course.rounds with
    | nil =>
        rfl
    | cons round rest inductionHypothesis =>
        rw [List.flatMap_cons, List.filterMap_append, inductionHypothesis,
          round.filterMap_call?_events]
        rfl
  have restoration :
      (course.restoration.toList.map fun told =>
          SolverEvent.told .gapTolerance told.1 told.2).filterMap
          SolverEvent.call? =
        [] := by
    cases course.restoration <;> rfl
  have explanation :
      (course.explanation.map SolverEvent.asked).filterMap
          SolverEvent.call? =
        course.explanation := by
    rw [List.filterMap_map]
    exact List.filterMap_some
  unfold events
  rw [List.filterMap_cons]
  dsimp only [SolverEvent.call?]
  rw [List.filterMap_append, List.filterMap_append, rounds, restoration,
    explanation, List.append_nil]

/-- How far the rounds have come from the start. -/
def reached
    (course : RecoveryCourse α)
    (settings : Settings α) :
    Escalation α :=
  course.rounds.foldl Escalation.after (Escalation.start settings)

/-- The last call with objective is acceptable and feasible for the problem itself. -/
def Succeeds (course : RecoveryCourse α) : Prop :=
  ∃ last ∈ course.rounds.getLast?, last.call.Succeeded

theorem succeeded_reached
    (course : RecoveryCourse α)
    (settings : Settings α) :
    (course.reached settings).succeeded = true ↔ course.Succeeds := by
  rw [reached, Escalation.succeeded_foldl_after]
  exact or_iff_right fun none => Bool.false_ne_true none.2

/--
The calls are those of the task: the question for the violation comes at the given look
at the clock, the rounds follow the schedule with two looks for each, the solver is at
most told the gap tolerance of the settings after them, and all other calls belong to a
Slater check.
-/
structure IsFor
    (course : RecoveryCourse α)
    (task : SolveTask α)
    (work : Workspace α)
    (look : Nat) :
    Prop where
  violation : course.violation.request = task.violationRequest work look
  follows :
    (Escalation.start task.settings).schedule.FollowedBy course.rounds
  asks :
    ∀ index (round : PenaltyRound α), course.rounds[index]? = some round →
      round.AsksAt task work (look + 1 + 2 * index)
  restoration :
    ∀ told ∈ course.restoration, told.1 = task.settings.gapTolerance
  explanation :
    ∃ later,
      course.explanation.map SolverCall.request <+:
        task.slaterRequests work later

/-- The rounds end for one of the reasons that an escalation has. -/
def Ends
    (course : RecoveryCourse α)
    (task : SolveTask α)
    (look : Nat) :
    Prop :=
  (course.reached task.settings).Stopped task
    (look + 1 + 2 * course.rounds.length)

/-- They end for such a reason, unless there are as many of them as there can be. -/
def RunsOut
    (course : RecoveryCourse α)
    (task : SolveTask α)
    (look : Nat) :
    Prop :=
  course.Ends task look ∨ course.rounds.length = Escalation.roundLimit

/-- How a recovery that comes to its verdict settles the solve. -/
structure Settles
    (course : RecoveryCourse α)
    (task : SolveTask α)
    (verdict : Verdict α) :
    Prop where
  outcomes :
    verdict = .infeasible .penalty ∨
      verdict = .solved true ∨
      verdict = .failed
  infeasible :
    verdict = .infeasible .penalty ↔
      SolveM.provesInfeasible task.sentinel task.settings
          course.violation.report =
        true
  unrounded : verdict = .infeasible .penalty → course.rounds = []
  solved : verdict = .solved true ↔ course.Succeeds
  restoration :
    course.restoration.map Prod.fst =
      if course.rounds.any fun round => round.tightened?.isSome then
        some task.settings.gapTolerance
      else
        none
  taken :
    (∀ round ∈ course.rounds, SolverEvent.Takes round.reply) ∧
      ∀ told ∈ course.restoration, SolverEvent.Takes told.2
  explanation :
    course.explanation ≠ [] →
      verdict = .failed ∧ task.explainsFailure = true

/-- The solver is told a gap tolerance last, and it refuses it, which ends the recovery. -/
def RefusedWith
    (course : RecoveryCourse α)
    (fault : Fault α) :
    Prop :=
  ∃ gap reason,
    course.events.getLast? =
        some (.told .gapTolerance gap (.error reason)) ∧
      reason ≠ .parameterUnknown ∧
      fault = .solver reason

/-- After an escalation, its last round and its tightenings decide how a recovery is settled. -/
theorem Settles.of_escalation
    {course : RecoveryCourse α}
    {task : SolveTask α}
    {verdict : Verdict α}
    (unproven :
      ¬ SolveM.provesInfeasible task.sentinel task.settings
          course.violation.report =
        true)
    (restoration :
      course.restoration.map Prod.fst =
        if (course.reached task.settings).gapTightened then
          some task.settings.gapTolerance
        else
          none)
    (taken :
      (∀ round ∈ course.rounds, SolverEvent.Takes round.reply) ∧
        ∀ told ∈ course.restoration, SolverEvent.Takes told.2)
    (settled :
      verdict =
        if (course.reached task.settings).succeeded then
          .solved true
        else
          .failed)
    (explanation :
      course.explanation ≠ [] →
        verdict = .failed ∧ task.explainsFailure = true) :
    course.Settles task verdict := by
  have tightened :
      (course.reached task.settings).gapTightened =
        course.rounds.any fun round => round.tightened?.isSome := by
    rw [reached, Escalation.gapTightened_foldl_after]
    rfl
  rw [tightened] at restoration
  have undecided (other : verdict ≠ .infeasible .penalty) :
      (verdict = .infeasible .penalty ↔
          SolveM.provesInfeasible task.sentinel task.settings
              course.violation.report =
            true) ∧
        (verdict = .infeasible .penalty → course.rounds = []) :=
    ⟨iff_of_false other unproven, fun isInfeasible => absurd isInfeasible other⟩
  have succeeds := course.succeeded_reached task.settings
  by_cases succeeded : (course.reached task.settings).succeeded = true
  · rw [if_pos succeeded] at settled
    obtain ⟨infeasible, unrounded⟩ := undecided (by rw [settled]; nofun)
    exact
      {
        outcomes := .inr (.inl settled)
        infeasible := infeasible
        unrounded := unrounded
        solved := iff_of_true settled (succeeds.mp succeeded)
        restoration := restoration
        taken := taken
        explanation := explanation
      }
  · rw [if_neg succeeded] at settled
    obtain ⟨infeasible, unrounded⟩ := undecided (by rw [settled]; nofun)
    exact
      {
        outcomes := .inr (.inr settled)
        infeasible := infeasible
        unrounded := unrounded
        solved :=
          iff_of_false (by rw [settled]; nofun) fun lastSucceeds =>
            succeeded (succeeds.mpr lastSucceeds)
        restoration := restoration
        taken := taken
        explanation := explanation
      }

end RecoveryCourse

/--
What follows the rounds of a recovery: the solver is told the gap tolerance of the
settings again if a round tightened it, the last round decides about the verdict, and
the calls of a Slater check may explain a failure.
-/
structure Concludes
    [Solver σ α]
    (task : SolveTask α)
    (last : Escalation α)
    (restoration : Option (α × Except SolverFault Unit))
    (explanation : List (SolverCall α))
    (verdict : Verdict α)
    (run next : SolveRun (JournaledSolver σ α) τ α) :
    Prop where
  restored :
    restoration.map Prod.fst =
      if last.gapTightened then some task.settings.gapTolerance else none
  taken : ∀ told ∈ restoration, SolverEvent.Takes told.2
  sent :
    ∃ looks,
      Sent looks
        (restoration.toList.map
            (fun told => .told .gapTolerance told.1 told.2) ++
          explanation.map .asked)
        verdict run next
  settled : verdict = if last.succeeded then .solved true else .failed
  checks :
    ∃ look,
      explanation.map SolverCall.request <+:
        task.slaterRequests run.work look
  explains :
    explanation ≠ [] → verdict = .failed ∧ task.explainsFailure = true

/-- A recovery that ended well took a course, from the run before it to the run after it. -/
structure Recovered
    [Solver σ α]
    (task : SolveTask α)
    (course : RecoveryCourse α)
    (run next : SolveRun (JournaledSolver σ α) τ α) :
    Prop where
  isFor : course.IsFor task run.work run.clock.reads
  sent : ∃ looks, Sent looks course.events next.verdict run next
  settles : course.Settles task next.verdict
  ended :
    next.verdict ≠ .infeasible .penalty →
      course.RunsOut task run.clock.reads
  explained :
    next.verdict = .failed →
      ∃ look,
        course.explanation.map SolverCall.request =
          if task.explainsFailure then
            task.slaterRequests run.work look
          else
            []
  reported :
    next.verdict = .solved true →
      ReportsStand σ →
        ∀ last ∈ course.rounds.getLast?,
          last.call.report = Solver.report next.solver

/-- How a recovery is broken off. -/
inductive RecoveryFails
    [Solver σ α]
    (task : SolveTask α)
    (run next : SolveRun (JournaledSolver σ α) τ α)
    (fault : Fault α) :
    Prop
  | unanswered (call : Unanswered run next)
  | refused
      (refuses : ¬ Solver.AlwaysTakes σ .gapTolerance)
      (course : RecoveryCourse α)
      (isFor : course.IsFor task run.work run.clock.reads)
      (sent : ∃ looks, Sent looks course.events run.verdict run next)
      (refused : course.RefusedWith fault)
      (ended :
        (∃ last ∈ course.rounds.getLast?, last.RefusedWith fault) ∨
          course.RunsOut task run.clock.reads)
  | unprinted
      (course : RecoveryCourse α)
      (isFor : course.IsFor task run.work run.clock.reads)
      (sent : ∃ looks, Sent looks course.events .failed run next)
      (settles : course.Settles task .failed)
      (ended : course.RunsOut task run.clock.reads)
      (explains : task.explainsFailure = true)
      (stopped : run.StoppedAt next fault)

/--
The calls from the one that asks for the violation only lead to a verdict, and
where they solve the problem, the last of them is what the solver reports on.
-/
def Verdict.RecoveredBy
    [Solver σ α]
    (task : SolveTask α)
    (work : Workspace α)
    (violation : SolverCall α)
    (rest : List (SolverCall α))
    (solver : σ) :
    Verdict α → Prop
  | .infeasible .penalty => rest = [] ∧ violation.ProvesInfeasible task
  | .solved true =>
      ∃ rounds last,
        rest = rounds ++ [last] ∧
        (∀ call ∈ rounds, call.IsRound task work) ∧
        last.IsRound task work ∧
        last.Succeeded ∧
        (ReportsStand σ → last.report = Solver.report solver)
  | .failed =>
      ∃ rounds explanation look,
        rest = rounds ++ explanation ∧
        (∀ call ∈ rounds, call.IsRound task work) ∧
        explanation.map SolverCall.request =
          if task.explainsFailure then
            task.slaterRequests work look
          else
            []
  | _ => False

namespace SolveM

/-- What the solve takes as a proof of infeasibility is one. -/
theorem provesInfeasible_sound
    {task : SolveTask α}
    {call : SolverCall α}
    (proves :
      provesInfeasible task.sentinel task.settings call.report = true) :
    call.ProvesInfeasible task := by
  unfold provesInfeasible at proves
  rw [Bool.or_eq_true, Bool.and_eq_true, Bool.and_eq_true,
    decide_eq_true_iff] at proves
  refine proves.imp_left ?_
  rintro ⟨optimal, above⟩
  refine ⟨optimal, ?_⟩
  intro sound
  split at above
  · rename_i solved
    split at above
    · rename_i value objective
      exact ⟨solved, value, objective, above⟩
    · exact absurd above sound
  · exact absurd above sound

variable [Solver σ α]

omit [Scalar α] in
/-- The solver is told the gap tolerance of the settings again if a round tightened it. -/
theorem restoreGap_ends
    (task : SolveTask α)
    (last : Escalation α)
    (run : SolveRun (JournaledSolver σ α) τ α) :
    Ends
      (fun _ next =>
        ∃ restoration : Option (α × Except SolverFault Unit),
          restoration.map Prod.fst =
              (if last.gapTightened then
                some task.settings.gapTolerance
              else
                none) ∧
            (∀ told ∈ restoration, SolverEvent.Takes told.2) ∧
            Sent 0
              (restoration.toList.map
                fun told => .told .gapTolerance told.1 told.2)
              run.verdict run next ∧
            (ReportsStand σ →
              Solver.report next.solver = Solver.report run.solver))
      (fun fault next =>
        ¬ Solver.AlwaysTakes σ .gapTolerance ∧
          ∃ reason,
            reason ≠ .parameterUnknown ∧
              fault = .solver reason ∧
              Sent 0
                [.told .gapTolerance task.settings.gapTolerance
                  (.error reason)]
                run.verdict run next)
      (restoreGap task last run) := by
  unfold restoreGap
  by_cases tightened : last.gapTightened = true
  · rw [if_pos tightened, if_pos tightened]
    refine (askSolver_forward_ends _ _ run).mono ?_ (fun _ _ => id)
    rintro _ next ⟨reply, takes, told, reports⟩
    exact
      ⟨some (task.settings.gapTolerance, reply), rfl, by simpa using takes,
        told, reports⟩
  · rw [if_neg tightened, if_neg tightened]
    exact
      ⟨none, rfl, by simp,
        Untouched.sent ⟨⟨rfl, rfl, rfl, Nat.le_refl _⟩, rfl⟩, fun _ => rfl⟩

/--
A recovery is settled by its last round, with a Slater check at most after a failure; it
fails only if a print of that check is refused.
-/
theorem settleRecovery_ends
    (task : SolveTask α)
    (last : Escalation α)
    (run : SolveRun (JournaledSolver σ α) τ α) :
    Ends
      (fun _ next =>
        ∃ looks,
          ∃ calls : List (SolverCall α),
            Sent looks (calls.map .asked) next.verdict run next ∧
              (last.succeeded = true ∧
                  next.verdict = .solved true ∧
                  calls = [] ∧
                  next.solver = run.solver ∨
                last.succeeded = false ∧
                  next.verdict = .failed ∧
                  calls.map SolverCall.request =
                    if task.explainsFailure then
                      task.slaterRequests run.work run.clock.reads
                    else
                      []))
      (fun fault next =>
        last.succeeded = false ∧
          task.explainsFailure = true ∧
          run.StoppedAt next fault ∧
          ∃ looks,
            ∃ calls : List (SolverCall α),
              calls.map SolverCall.request <+:
                  task.slaterRequests run.work run.clock.reads ∧
                Sent looks (calls.map .asked) .failed run next)
      (settleRecovery task last run) := by
  have settled :
      ∀ verdict,
        Sent 0 [] verdict run { run with verdict := verdict } :=
    fun verdict => ⟨by simp, rfl, rfl, rfl, Nat.le_refl _⟩
  unfold settleRecovery
  by_cases succeeded : last.succeeded = true
  · rw [if_pos succeeded]
    exact ⟨0, [], settled _, .inl ⟨succeeded, rfl, rfl, rfl⟩⟩
  rw [if_neg succeeded]
  have hopeless : last.succeeded = false := Bool.eq_false_iff.mpr succeeded
  change Ends _ _ ((if _ then _ else _ : SolveM (JournaledSolver σ α) τ α _) _)
  by_cases explains : task.explainsFailure = true
  · rw [if_pos explains, if_pos explains]
    refine (checkSlater_ends task true _).mono ?_ ?_
    · rintro _ next ⟨calls, requests, sent⟩
      have whole := (settled .failed).trans sent
      have isFailed : next.verdict = .failed := whole.verdict
      rw [← isFailed] at whole
      exact ⟨_, calls, whole, .inr ⟨hopeless, isFailed, requests⟩⟩
    · rintro fault next ⟨⟨_, isPrefix, calls, rfl, sent⟩, stopped⟩
      exact
        ⟨hopeless, explains, stopped.since (Nat.le_refl _), _, calls,
          isPrefix, (settled .failed).trans sent⟩
  · rw [if_neg explains, if_neg explains]
    exact ⟨0, [], settled .failed, .inr ⟨hopeless, rfl, rfl⟩⟩

/--
After its rounds a recovery restores the gap tolerance and is settled, unless the solver
refuses the gap tolerance or a print is refused.
-/
theorem concludeRecovery_ends
    (task : SolveTask α)
    (last : Escalation α)
    (run : SolveRun (JournaledSolver σ α) τ α) :
    Ends
      (fun _ next =>
        ∃ restoration explanation,
          Concludes task last restoration explanation next.verdict run next ∧
            (next.verdict = .failed →
              ∃ look,
                explanation.map SolverCall.request =
                  if task.explainsFailure then
                    task.slaterRequests run.work look
                  else
                    []) ∧
            (next.verdict = .solved true →
              ReportsStand σ →
                Solver.report next.solver = Solver.report run.solver))
      (fun fault next =>
        (¬ Solver.AlwaysTakes σ .gapTolerance ∧
          ∃ reason,
            reason ≠ .parameterUnknown ∧
              fault = .solver reason ∧
              Sent 0
                [.told .gapTolerance task.settings.gapTolerance
                  (.error reason)]
                run.verdict run next) ∨
          ∃ restoration explanation,
            Concludes task last restoration explanation .failed run next ∧
              task.explainsFailure = true ∧
              run.StoppedAt next fault)
      ((do
          restoreGap task last
          settleRecovery task last :
          SolveM (JournaledSolver σ α) τ α Unit) run) := by
  refine
    Ends.bind (restoreGap_ends task last run) (fun _ _ => .inl) ?_
  rintro _ restored ⟨restoration, isRestoration, taken, told, reports⟩
  refine (settleRecovery_ends task last restored).mono ?_ ?_
  · rintro _ next ⟨looks, calls, concluding, outcome⟩
    have sent := told.trans concluding
    rcases outcome with
      ⟨succeeded, isSolved, rfl, sameSolver⟩ | ⟨hopeless, isFailed, requests⟩
    · rw [isSolved] at sent
      refine ⟨restoration, [], ?_, ?_, ?_⟩
      · rw [isSolved]
        exact
          {
            restored := isRestoration
            taken := taken
            sent := ⟨_, sent⟩
            settled := (if_pos succeeded).symm
            checks := ⟨0, List.nil_prefix⟩
            explains := fun some => absurd rfl some
          }
      · rw [isSolved]
        nofun
      · intro _ stand
        rw [sameSolver, reports stand]
    · rw [isFailed] at sent
      rw [told.work] at requests
      refine ⟨restoration, calls, ?_, ?_, ?_⟩
      · rw [isFailed]
        exact
          {
            restored := isRestoration
            taken := taken
            sent := ⟨_, sent⟩
            settled := by rw [hopeless]; rfl
            checks := by
              rw [requests]
              split
              · exact ⟨_, List.prefix_rfl⟩
              · exact ⟨0, List.nil_prefix⟩
            explains := by
              intro some
              refine ⟨rfl, ?_⟩
              by_contra silent
              rw [if_neg silent] at requests
              exact some (List.map_eq_nil_iff.mp requests)
          }
      · exact fun _ => ⟨_, requests⟩
      · rw [isFailed]
        nofun
  · rintro fault next
      ⟨hopeless, explains, stopped, looks, calls, isPrefix, concluding⟩
    rw [told.work] at isPrefix
    refine
      .inr ⟨restoration, calls, ?_, explains, stopped.since told.prints⟩
    exact
      {
        restored := isRestoration
        taken := taken
        sent := ⟨_, told.trans concluding⟩
        settled := by rw [hopeless]; rfl
        checks := ⟨_, isPrefix⟩
        explains := fun _ => ⟨rfl, explains⟩
      }

end SolveM

/-- What a recovery has noted when its rounds are over, and why no further round follows. -/
structure Rounded
    [Solver σ α]
    (task : SolveTask α)
    (violation : SolverCall α)
    (rounds : List (PenaltyRound α))
    (run next : SolveRun (JournaledSolver σ α) τ α) :
    Prop where
  unproven :
    ¬ SolveM.provesInfeasible task.sentinel task.settings violation.report =
      true
  request : violation.request = task.violationRequest run.work run.clock.reads
  follows : (Escalation.start task.settings).schedule.FollowedBy rounds
  asks :
    ∀ index (round : PenaltyRound α), rounds[index]? = some round →
      round.AsksAt task run.work (run.clock.reads + 1 + 2 * index)
  sent :
    ∃ looks,
      Sent looks
        ([.asked violation] ++ rounds.flatMap PenaltyRound.events)
        run.verdict run next
  reported :
    ∀ last ∈ rounds.getLast?, last.call.Succeeded →
      last.call.report = Solver.report next.solver

namespace Rounded

variable
  [Solver σ α]
  {task : SolveTask α}
  {violation : SolverCall α}
  {rounds : List (PenaltyRound α)}
  {run middle next : SolveRun (JournaledSolver σ α) τ α}

theorem of_escalated
    {counted : SolveRun (JournaledSolver σ α) τ α}
    (unproven :
      ¬ SolveM.provesInfeasible task.sentinel task.settings violation.report =
        true)
    (request :
      violation.request = task.violationRequest run.work run.clock.reads)
    (asked : Sent 1 [.asked violation] run.verdict run counted)
    (escalated :
      Escalated task (Escalation.start task.settings) rounds counted next) :
    Rounded task violation rounds run next where
  unproven := unproven
  request := request
  follows := escalated.follows
  asks := by
    have asks := escalated.asks
    rw [asked.work, asked.clock] at asks
    exact asks
  sent := by
    obtain ⟨looks, later⟩ := escalated.sent
    rw [asked.verdict] at later
    exact ⟨_, asked.trans later⟩
  reported := escalated.reported

/-- The rounds with what follows them are a course for the task. -/
theorem isFor
    (rounded : Rounded task violation rounds run middle)
    {restoration : Option (α × Except SolverFault Unit)}
    {explanation : List (SolverCall α)}
    (gap : ∀ told ∈ restoration, told.1 = task.settings.gapTolerance)
    (checks :
      ∃ look,
        explanation.map SolverCall.request <+:
          task.slaterRequests run.work look) :
    RecoveryCourse.IsFor ⟨violation, rounds, restoration, explanation⟩ task
      run.work run.clock.reads where
  violation := rounded.request
  follows := rounded.follows
  asks := rounded.asks
  restoration := gap
  explanation := checks

/-- A gap tolerance that the last round is refused is the last thing the solver is told. -/
theorem fails_of_round
    (rounded : Rounded task violation rounds run next)
    (refuses : ¬ Solver.AlwaysTakes σ .gapTolerance)
    {fault : Fault α}
    {final : PenaltyRound α}
    (isLast : final ∈ rounds.getLast?)
    (refused : final.RefusedWith fault) :
    RecoveryFails task run next fault := by
  obtain ⟨earlier, rfl⟩ := List.getLast?_eq_some_iff.mp isLast
  obtain ⟨reason, known, isReply, isFault⟩ := refused.refused
  refine
    .refused refuses ⟨violation, earlier ++ [final], none, []⟩
      (rounded.isFor (by simp) ⟨0, List.nil_prefix⟩) ?_
      ⟨final.next.gap, reason, ?_, known, isFault⟩
      (.inl ⟨final, isLast, refused⟩)
  · simpa [RecoveryCourse.events] using rounded.sent
  · simp [RecoveryCourse.events,
      PenaltyRound.events_of_tightening refused.tightens, isReply,
      List.getLast?_cons]

/-- So is the gap tolerance of the settings, if the solver refuses to take it back. -/
theorem fails_of_restoration
    (rounded : Rounded task violation rounds run middle)
    (refuses : ¬ Solver.AlwaysTakes σ .gapTolerance)
    {fault : Fault α}
    {reason : SolverFault}
    (known : reason ≠ .parameterUnknown)
    (isFault : fault = .solver reason)
    (ended :
      ∀ restoration explanation,
        RecoveryCourse.RunsOut ⟨violation, rounds, restoration, explanation⟩
          task run.clock.reads)
    (told :
      Sent 0
        [.told .gapTolerance task.settings.gapTolerance (.error reason)]
        middle.verdict middle next) :
    RecoveryFails task run next fault := by
  obtain ⟨looks, sent⟩ := rounded.sent
  rw [sent.verdict] at told
  refine
    .refused refuses
      ⟨violation, rounds, some (task.settings.gapTolerance, .error reason),
        []⟩
      (rounded.isFor (by simp) ⟨0, List.nil_prefix⟩) ⟨looks + 0, ?_⟩
      ⟨task.settings.gapTolerance, reason, ?_, known, isFault⟩
      (.inr (ended _ _))
  · simpa [RecoveryCourse.events] using sent.trans told
  · simp [RecoveryCourse.events, List.getLast?_cons]

/-- Rounds that are concluded make a course that settles the solve. -/
theorem concluded
    (rounded : Rounded task violation rounds run middle)
    (taken : ∀ round ∈ rounds, SolverEvent.Takes round.reply)
    {restoration : Option (α × Except SolverFault Unit)}
    {explanation : List (SolverCall α)}
    {verdict : Verdict α}
    (concludes :
      Concludes task
        (rounds.foldl Escalation.after (Escalation.start task.settings))
        restoration explanation verdict middle next) :
    let course : RecoveryCourse α :=
      ⟨violation, rounds, restoration, explanation⟩
    course.IsFor task run.work run.clock.reads ∧
      (∃ looks, Sent looks course.events verdict run next) ∧
      course.Settles task verdict := by
  intro course
  obtain ⟨looks, sent⟩ := rounded.sent
  obtain ⟨moreLooks, concluding⟩ := concludes.sent
  have checks := concludes.checks
  rw [sent.work] at checks
  refine ⟨rounded.isFor ?_ checks, ⟨looks + moreLooks, ?_⟩, ?_⟩
  · intro told isTold
    have restored := concludes.restored
    rw [Option.mem_def.mp isTold] at restored
    split at restored
    · exact Option.some.inj restored
    · cases restored
  · simpa [course, RecoveryCourse.events] using sent.trans concluding
  · exact
      .of_escalation rounded.unproven concludes.restored
        ⟨taken, concludes.taken⟩ concludes.settled concludes.explains

end Rounded

namespace SolveM

variable [Solver σ α]

/-- A recovery takes its course, or it is broken off. -/
theorem recover_ends
    (task : SolveTask α)
    (run : SolveRun (JournaledSolver σ α) τ α) :
    Ends
      (fun _ next => ∃ course, Recovered task course run next)
      (fun fault next => RecoveryFails task run next fault)
      (recover task run) := by
  rw [recover_eq]
  refine Ends.bind (solvePrepared_ends task _ _ _ run) ?_ ?_
  · rintro fault next ⟨fails, reason, asked⟩
    exact .unanswered ⟨fails, _, _, asked⟩
  intro outcome solved asked
  refine
    Ends.bind (modify_ends ⟨⟨rfl, rfl, rfl, Nat.le_refl _⟩, rfl⟩)
      (fun _ _ => False.elim) ?_
  intro _ counted usageCounted
  refine Ends.bind (report_ends counted) (fun _ _ => False.elim) ?_
  rintro _ counted ⟨rfl, rfl⟩
  let violation : SolverCall α :=
    ⟨task.violationRequest run.work run.clock.reads, .ok outcome,
      Solver.report counted.solver⟩
  have sent : Sent 1 [.asked violation] run.verdict run counted :=
    asked.untouched usageCounted
  split
  · rename_i proves
    refine ⟨⟨violation, [], none, []⟩, ?_⟩
    exact
      {
        isFor :=
          {
            violation := rfl
            follows := trivial
            asks := by simp
            restoration := by simp
            explanation := ⟨0, List.nil_prefix⟩
          }
        sent := ⟨_, sent.journal, sent.work, sent.clock, rfl, sent.prints⟩
        settles :=
          {
            outcomes := .inl rfl
            infeasible := iff_of_true rfl proves
            unrounded := fun _ => rfl
            solved := iff_of_false nofun (by simp [RecoveryCourse.Succeeds])
            restoration := rfl
            taken := by simp
            explanation := fun some => absurd rfl some
          }
        ended := fun other => absurd rfl other
        explained := nofun
        reported := nofun
      }
  rename_i unproven
  refine Ends.bind (escalate_ends task _ _ counted) ?_ ?_
  · rintro fault next
      (unanswered | ⟨refuses, rounds, escalated, final, isLast, refused⟩)
    · exact .unanswered (unanswered.since sent)
    · exact
        (Rounded.of_escalated unproven rfl sent escalated).fails_of_round
          refuses isLast refused
  rintro _ escalated ⟨rounds, isEscalated, rfl, taken, stops⟩
  have rounded := Rounded.of_escalated unproven rfl sent isEscalated
  rw [sent.clock] at stops
  refine (concludeRecovery_ends task _ escalated).mono ?_ ?_
  · rintro _ next ⟨restoration, explanation, concludes, explained, reports⟩
    obtain ⟨isFor, whole, settles⟩ := rounded.concluded taken concludes
    have sameWork : escalated.work = run.work := by
      obtain ⟨looks, sent⟩ := rounded.sent
      exact sent.work
    rw [sameWork] at explained
    refine ⟨_, isFor, whole, settles, fun _ => stops, explained, ?_⟩
    intro solved stand final isFinal
    obtain ⟨other, isOther, succeeded⟩ := settles.solved.mp solved
    have same : other = final :=
      Option.some.inj (isOther.symm.trans isFinal)
    rw [same] at succeeded
    rw [rounded.reported final isFinal succeeded, reports solved stand]
  · rintro fault next
      (⟨refuses, reason, known, isFault, told⟩ |
        ⟨restoration, explanation, concludes, explains, stopped⟩)
    · exact
        rounded.fails_of_restoration refuses known isFault (fun _ _ => stops)
          told
    · obtain ⟨isFor, whole, settles⟩ := rounded.concluded taken concludes
      refine
        .unprinted _ isFor whole settles stops explains (stopped.since ?_)
      obtain ⟨looks, sent⟩ := rounded.sent
      exact sent.prints

end SolveM

/-- A recovery that ends well is one that its calls lead to. -/
theorem Recovered.recoveredBy
    [Solver σ α]
    {task : SolveTask α}
    {course : RecoveryCourse α}
    {run next : SolveRun (JournaledSolver σ α) τ α}
    (recovered : Recovered task course run next) :
    next.verdict.RecoveredBy task run.work course.violation
      (course.rounds.map PenaltyRound.call ++ course.explanation)
      next.solver.solver := by
  have areRounds :
      ∀ call ∈ course.rounds.map PenaltyRound.call,
        call.IsRound task run.work := by
    intro call member
    obtain ⟨round, isRound, rfl⟩ := List.mem_map.mp member
    obtain ⟨index, isAt⟩ := List.mem_iff_getElem?.mp isRound
    exact
      ⟨round.schedule.penalty, _, (recovered.isFor.asks index round isAt).request⟩
  have settles := recovered.settles
  have unexplained (other : next.verdict ≠ .failed) :
      course.explanation = [] := by
    by_contra some
    exact other (settles.explanation some).1
  rcases settles.outcomes with isVerdict | isVerdict | isVerdict
  · rw [unexplained (by rw [isVerdict]; nofun), settles.unrounded isVerdict]
    rw [isVerdict]
    exact ⟨rfl, SolveM.provesInfeasible_sound (settles.infeasible.mp isVerdict)⟩
  · obtain ⟨last, isLast, succeeded⟩ := settles.solved.mp isVerdict
    have reported := recovered.reported isVerdict
    rw [unexplained (by rw [isVerdict]; nofun), List.append_nil]
    rw [isVerdict]
    obtain ⟨earlier, isRounds⟩ := List.getLast?_eq_some_iff.mp isLast
    rw [isRounds, List.map_append] at areRounds ⊢
    refine
      ⟨earlier.map PenaltyRound.call, last.call, rfl, ?_, ?_, succeeded,
        fun stand => reported stand last isLast⟩
    · exact fun call member =>
        areRounds call (List.mem_append_left _ member)
    · exact areRounds last.call (by simp)
  · obtain ⟨look, explained⟩ := recovered.explained isVerdict
    rw [isVerdict]
    exact
      ⟨course.rounds.map PenaltyRound.call, course.explanation, look, rfl,
        areRounds, explained⟩

end SdpRelay
