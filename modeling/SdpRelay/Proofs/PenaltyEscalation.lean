import Mathlib
import SdpRelay.Proofs.ScheduleLength
import SdpRelay.Proofs.SessionSolves
import SdpRelay.Proofs.ValidSettings

namespace SdpRelay

/-!
# Bounded escalation

Whatever a solver answers, the rounds of a recovery escalate: each of them leads to a
larger penalty or to a smaller gap tolerance, and never to both.  The schedule counts
the rises and the cuts, and neither of them can come to more than one beyond the number
of increases as long as it goes on; so there are at most `2 * increases + 1` rounds.

The solver that follows a recovery only writes a journal.  It answers like the solver
behind it, so the recovery itself takes the same course.
-/

namespace PenaltySchedule

section Exact

variable
  {K : Type}
  [ExactField K]
  {schedule : PenaltySchedule K}

/-- A move leaves a schedule moving. -/
theorem Moving.move
    (moving : schedule.Moving)
    (step : PenaltyStep) :
    (schedule.move step).Moving := by
  cases step with
  | done =>
      exact moving
  | increasePenalty =>
      exact
        { moving with
          penalty :=
            mul_pos moving.penalty (zero_lt_one.trans moving.penaltyFactor) }
  | tightenGap =>
      exact { moving with gap := mul_pos moving.gap moving.gapFactor_pos }

/--
Between two rounds either the penalty rises, or the solver is told a smaller gap
tolerance; the other quantity stays as it is.
-/
def Escalates (first second : PenaltyRound K) : Prop :=
  first.schedule.penalty < second.schedule.penalty ∧
      second.schedule.gap = first.schedule.gap ∧
      first.tightened? = none ∨
    second.schedule.penalty = first.schedule.penalty ∧
      second.schedule.gap < first.schedule.gap ∧
      first.tightened? = some second.schedule.gap

/-- A round that asks for a move escalates. -/
theorem Moving.escalates
    {first second : PenaltyRound K}
    (moving : first.schedule.Moving)
    (notDone : first.step ≠ .done)
    (isNext : second.schedule = first.next) :
    Escalates first second := by
  unfold Escalates PenaltyRound.tightened?
  rw [isNext]
  unfold PenaltyRound.next
  cases step : first.step with
  | done =>
      exact absurd step notDone
  | increasePenalty =>
      refine .inl ⟨?_, rfl, rfl⟩
      exact lt_mul_of_one_lt_right moving.penalty moving.penaltyFactor
  | tightenGap =>
      refine .inr ⟨rfl, ?_, rfl⟩
      exact mul_lt_of_lt_one_right moving.gap moving.gapFactor_lt_one

/-- Rounds that follow a moving schedule escalate one after the other. -/
theorem Moving.isChain_escalates
    {rounds : List (PenaltyRound K)}
    (moving : schedule.Moving)
    (follows : schedule.FollowedBy rounds) :
    rounds.IsChain Escalates := by
  induction rounds generalizing schedule with
  | nil =>
      exact .nil
  | cons first rest inductionHypothesis =>
      obtain ⟨rfl, _, notDone, follows⟩ := follows
      have later := inductionHypothesis (moving.move first.step) follows
      cases rest with
      | nil =>
          exact .singleton _
      | cons second others =>
          refine .cons_cons ?_ later
          refine moving.escalates ?_ follows.1
          exact fun isDone => List.cons_ne_nil _ _ (notDone isDone)

/-- The penalties of rounds that escalate never fall. -/
theorem pairwise_penalty_le
    {rounds : List (PenaltyRound K)}
    (escalating : rounds.IsChain Escalates) :
    (rounds.map fun round => round.schedule.penalty).Pairwise (· ≤ ·) := by
  rw [← List.isChain_iff_pairwise, List.isChain_map]
  refine escalating.imp ?_
  rintro first second (⟨rises, _⟩ | ⟨same, _⟩)
  · exact rises.le
  · exact same.ge

/-- Every gap tolerance that the solver is told in the rounds is smaller than the ones before. -/
theorem Moving.pairwise_gap_gt
    {rounds : List (PenaltyRound K)}
    (moving : schedule.Moving)
    (follows : schedule.FollowedBy rounds) :
    (schedule.gap :: rounds.filterMap PenaltyRound.tightened?).Pairwise
      (· > ·) := by
  induction rounds generalizing schedule with
  | nil =>
      simp
  | cons first rest inductionHypothesis =>
      obtain ⟨rfl, _, _, follows⟩ := follows
      have later := inductionHypothesis (moving.move first.step) follows
      by_cases tightens : first.step = .tightenGap
      · have told : first.tightened? = some first.next.gap := if_pos tightens
        have smaller : first.next.gap < first.schedule.gap := by
          rw [PenaltyRound.next, tightens]
          exact mul_lt_of_lt_one_right moving.gap moving.gapFactor_lt_one
        rw [List.filterMap_cons_some told, List.pairwise_cons]
        refine ⟨?_, later⟩
        intro gap member
        rcases List.mem_cons.mp member with rfl | inRest
        · exact smaller
        · exact ((List.pairwise_cons.mp later).1 gap inRest).trans smaller
      · have untold : first.tightened? = none := if_neg tightens
        have same : first.next.gap = first.schedule.gap := by
          unfold PenaltyRound.next
          cases step : first.step with
          | done => rfl
          | increasePenalty => rfl
          | tightenGap => exact absurd step tightens
        rw [List.filterMap_cons_none untold, ← same]
        exact later

/-- A schedule goes on for a number of rises and cuts at most. -/
def EndsWithin
    (schedule : PenaltySchedule K)
    (moves : Nat) :
    Prop :=
  ∀ rises cuts,
    (schedule.progressed rises cuts).canContinue = true →
      rises ≤ moves ∧ cuts ≤ moves

/-- The first round asks with the penalty of the schedule. -/
theorem FollowedBy.head_penalty
    {rounds : List (PenaltyRound K)}
    (follows : schedule.FollowedBy rounds) :
    ∀ first ∈ rounds.head?, first.schedule.penalty = schedule.penalty := by
  cases rounds with
  | nil =>
      simp
  | cons first rest =>
      intro other isHead
      obtain rfl : first = other := Option.some.inj isHead
      rw [follows.1]

/-- Every round asks with a penalty below the limit of the schedule. -/
theorem FollowedBy.penalty_lt
    {rounds : List (PenaltyRound K)}
    (follows : schedule.FollowedBy rounds) :
    ∀ round ∈ rounds,
      round.schedule.penalty < schedule.maxPenalty + schedule.epsilon := by
  induction rounds generalizing schedule with
  | nil =>
      simp
  | cons first rest inductionHypothesis =>
      obtain ⟨rfl, goesOn, _, follows⟩ := follows
      have same :
          first.next.maxPenalty = first.schedule.maxPenalty ∧
            first.next.epsilon = first.schedule.epsilon := by
        unfold PenaltyRound.next
        cases first.step <;> exact ⟨rfl, rfl⟩
      have later := inductionHypothesis follows
      rw [same.1, same.2] at later
      refine List.forall_mem_cons.mpr ⟨?_, later⟩
      rw [canContinue, Bool.and_eq_true] at goesOn
      exact of_decide_eq_true goesOn.1

/-- Rounds from some rises and cuts on use up what is left of both. -/
theorem EndsWithin.length_le
    {moves : Nat}
    (endsWithin : schedule.EndsWithin moves)
    {rises cuts : Nat}
    {rounds : List (PenaltyRound K)}
    (follows : (schedule.progressed rises cuts).FollowedBy rounds)
    (some : rounds ≠ []) :
    rises + cuts + rounds.length ≤ 2 * moves + 1 := by
  induction rounds generalizing rises cuts with
  | nil =>
      exact absurd rfl some
  | cons first rest inductionHypothesis =>
      obtain ⟨isFirst, goesOn, notDone, follows⟩ := follows
      have left := endsWithin rises cuts goesOn
      by_cases isLast : rest = []
      · subst isLast
        rw [List.length_singleton]
        omega
      · rw [List.length_cons]
        rw [PenaltyRound.next, isFirst] at follows
        cases step : first.step with
        | done =>
            exact absurd (notDone step) isLast
        | increasePenalty =>
            rw [step, move_increase] at follows
            have later := inductionHypothesis follows isLast
            omega
        | tightenGap =>
            rw [step, move_tighten] at follows
            have later := inductionHypothesis follows isLast
            omega

/-- From the start there are two rounds for each move at most, and one more. -/
theorem EndsWithin.length_le_of_start
    {moves : Nat}
    {rounds : List (PenaltyRound K)}
    (endsWithin : schedule.EndsWithin moves)
    (follows : schedule.FollowedBy rounds) :
    rounds.length ≤ 2 * moves + 1 := by
  rcases rounds.eq_nil_or_concat with rfl | ⟨_, _, some⟩
  · exact Nat.zero_le _
  · have atStart : schedule.progressed 0 0 = schedule := by
      simp [progressed]
    have most :
        0 + 0 + rounds.length ≤ 2 * moves + 1 := by
      refine endsWithin.length_le ?_ (by simp [some])
      rw [atStart]
      exact follows
    omega

end Exact

section Start

variable
  {K : Type}
  [ExactField K]
  [HasRoots K]
  {penalty maxPenalty gap epsilon : K}

/-- The steps that were asked for take the penalty at least to its maximum. -/
theorem maxPenalty_le_start
    (penaltyPositive : 0 < penalty)
    (gapPositive : 0 < gap)
    (ordered : penalty ≤ maxPenalty)
    {increases : Nat}
    (some : 0 < increases) :
    let schedule : PenaltySchedule K :=
      start penalty maxPenalty gap increases epsilon
    maxPenalty ≤ penalty * schedule.penaltyFactor ^ increases := by
  intro schedule
  rcases ordered.lt_or_eq with below | atMaximum
  · have reached : schedule.penaltyFactor ^ increases = maxPenalty / penalty :=
      start_penaltyFactor_pow penaltyPositive below some
    rw [reached, mul_div_cancel₀ maxPenalty penaltyPositive.ne']
  · have grows : 1 ≤ schedule.penaltyFactor :=
      (start_moving penaltyPositive gapPositive increases).penaltyFactor.le
    rw [← atMaximum]
    exact le_mul_of_one_le_right penaltyPositive.le (one_le_pow₀ grows)

/-- One more rise than was asked for takes the penalty beyond its limit. -/
theorem start_penalty_passes
    (penaltyPositive : 0 < penalty)
    (gapPositive : 0 < gap)
    (ordered : penalty ≤ maxPenalty)
    (increases : Nat)
    (small : epsilon ≤ maxPenalty)
    (stretch :
      epsilon ≤
        maxPenalty *
          ((start penalty maxPenalty gap increases epsilon).penaltyFactor -
            1)) :
    maxPenalty + epsilon ≤
      penalty *
        (start penalty maxPenalty gap increases epsilon).penaltyFactor ^
          (increases + 1) := by
  have moving : (start penalty maxPenalty gap increases epsilon).Moving :=
    start_moving penaltyPositive gapPositive increases
  rcases Nat.eq_zero_or_pos increases with rfl | some
  · have ratio : penaltyRatio penalty maxPenalty 0 = 2.0 * maxPenalty / penalty :=
      if_pos rfl
    have grows : 1 < penaltyRatio penalty maxPenalty 0 := by
      rw [ratio, one_lt_div penaltyPositive]
      linarith
    have factor :
        (start penalty maxPenalty gap 0 epsilon).penaltyFactor =
          2.0 * maxPenalty / penalty := by
      unfold start
      dsimp only
      rw [if_pos grows, ratio]
    rw [factor, zero_add, pow_one, mul_div_cancel₀ _ penaltyPositive.ne']
    linarith
  · have atLeast :
        maxPenalty ≤
          penalty *
            (start penalty maxPenalty gap increases epsilon).penaltyFactor ^
              increases :=
      maxPenalty_le_start penaltyPositive gapPositive ordered some
    rw [pow_succ, ← mul_assoc]
    calc
      maxPenalty + epsilon ≤
          maxPenalty *
            (start penalty maxPenalty gap increases epsilon).penaltyFactor := by
        linarith
      _ ≤ _ :=
        mul_le_mul_of_nonneg_right atLeast
          (zero_le_one.trans moving.penaltyFactor.le)

/-- The steps that were asked for take the gap tolerance at least to its minimum. -/
theorem start_le_minimalGap
    (penaltyPositive : 0 < penalty)
    (gapPositive : 0 < gap)
    {increases : Nat}
    (some : 0 < increases) :
    let schedule : PenaltySchedule K :=
      start penalty maxPenalty gap increases epsilon
    gap * schedule.gapFactor ^ increases ≤ minimalGap := by
  intro schedule
  have moving : schedule.Moving :=
    start_moving penaltyPositive gapPositive increases
  rcases lt_or_ge minimalGap gap with above | atMost
  · have reached : schedule.gapFactor ^ increases = minimalGap / gap :=
      start_gapFactor_pow above some
    rw [reached, mul_div_cancel₀ minimalGap gapPositive.ne']
  · refine le_trans ?_ atMost
    exact
      mul_le_of_le_one_right gapPositive.le
        (pow_le_one₀ moving.gapFactor_pos.le moving.gapFactor_lt_one.le)

/-- One more cut than was asked for takes the gap tolerance beyond its limit. -/
theorem start_gap_passes
    (penaltyPositive : 0 < penalty)
    (gapPositive : 0 < gap)
    (increases : Nat)
    (stretch :
      (start penalty maxPenalty gap increases epsilon).gapFactor ≤ 99 / 100) :
    gap *
        (start penalty maxPenalty gap increases epsilon).gapFactor ^
          (increases + 1) ≤
      0.99 * minimalGap := by
  have moving : (start penalty maxPenalty gap increases epsilon).Moving :=
    start_moving penaltyPositive gapPositive increases
  have minimalPositive : 0 < (minimalGap : K) := minimalGap_pos
  rcases Nat.eq_zero_or_pos increases with rfl | some
  · have ratio : gapRatio gap 0 = 0.5 * minimalGap / gap := if_pos rfl
    rw [zero_add, pow_one]
    unfold start
    dsimp only
    split
    · rw [ratio, mul_div_cancel₀ _ gapPositive.ne']
      linarith
    · -- The gap tolerance was below half the minimum from the start.
      rename_i small
      rw [ratio, div_lt_one gapPositive, not_lt] at small
      linarith
  · have atMost :
        gap *
            (start penalty maxPenalty gap increases epsilon).gapFactor ^
              increases ≤
          minimalGap :=
      start_le_minimalGap penaltyPositive gapPositive some
    rw [pow_succ, ← mul_assoc]
    calc
      _ ≤ minimalGap *
            (start penalty maxPenalty gap increases epsilon).gapFactor :=
        mul_le_mul_of_nonneg_right atMost moving.gapFactor_pos.le
      _ ≤ 0.99 * minimalGap := by
        rw [mul_comm]
        refine mul_le_mul_of_nonneg_right ?_ minimalPositive.le
        exact stretch.trans_eq (by norm_num)

/-- With factors away from one, a schedule ends within the increases that were asked for. -/
theorem start_endsWithin
    (penaltyPositive : 0 < penalty)
    (gapPositive : 0 < gap)
    (ordered : penalty ≤ maxPenalty)
    (increases : Nat)
    (small : epsilon ≤ maxPenalty)
    (penaltyStretch :
      epsilon ≤
        maxPenalty *
          ((start penalty maxPenalty gap increases epsilon).penaltyFactor -
            1))
    (gapStretch :
      (start penalty maxPenalty gap increases epsilon).gapFactor ≤ 99 / 100) :
    (start penalty maxPenalty gap increases epsilon).EndsWithin increases := by
  have moving : (start penalty maxPenalty gap increases epsilon).Moving :=
    start_moving penaltyPositive gapPositive increases
  intro rises cuts goesOn
  constructor
  · by_contra many
    have early :=
      moving.canContinue_of_le (Nat.succ_le_of_lt (not_le.mp many))
        cuts.zero_le goesOn
    rw [canContinue_progressed] at early
    exact
      early.1.not_ge
        (start_penalty_passes penaltyPositive gapPositive ordered increases
          small penaltyStretch)
  · by_contra many
    have early :=
      moving.canContinue_of_le rises.zero_le
        (Nat.succ_le_of_lt (not_le.mp many)) goesOn
    rw [canContinue_progressed] at early
    exact
      early.2.not_ge
        (start_gap_passes penaltyPositive gapPositive increases gapStretch)

end Start

end PenaltySchedule

/--
Valid settings that ask for an escalation whose factors are not within tolerance of one.
-/
structure Settings.Escalates
    {K : Type}
    [ExactField K]
    (settings : Settings K) :
    Prop where
  valid : settings.validate = .ok ()
  small : settings.epsilon ≤ settings.maxPenalty
  penaltyFactor :
    settings.epsilon ≤
      settings.maxPenalty *
        ((Escalation.start settings).schedule.penaltyFactor - 1)
  gapFactor : (Escalation.start settings).schedule.gapFactor ≤ 99 / 100

/-- Why a recovery makes no further round, if its first one comes after the given look. -/
inductive RecoveryCourse.NoFurtherRound
    {α : Type}
    [Scalar α]
    (course : RecoveryCourse α)
    (task : SolveTask α)
    (look : Nat) :
    Prop
  | infeasible
      (proven :
        SolveM.provesInfeasible task.sentinel task.settings
            course.violation.report =
          true)
      (unrounded : course.rounds = [])
  | ended (ended : course.Ends task look)
  | refused
      (last : PenaltyRound α)
      (isLast : last ∈ course.rounds.getLast?)
      (fault : Fault α)
      (refused : last.RefusedWith fault)

/-- How a recovery is broken off: by the solver, or by a print that explains its failure. -/
inductive RecoveryCourse.BrokenOff
    {σ τ α : Type}
    [Scalar α]
    [Solver σ α]
    (course : RecoveryCourse α)
    (task : SolveTask α)
    (run next : SolveRun σ τ α)
    (fault : Fault α) :
    Prop
  | refused
      (refuses : ¬ Solver.AlwaysTakes σ .gapTolerance)
      (refused : course.RefusedWith fault)
      (unsettled : next.verdict = run.verdict)
  | unprinted
      (settles : course.Settles task .failed)
      (failed : next.verdict = .failed)
      (explains : task.explainsFailure = true)
      (stopped : run.StoppedAt next fault)

namespace SolveM

variable
  {σ τ α : Type}
  [Scalar α]
  [Solver σ α]

/-- What the solver is asked and told in a recovery, in order. -/
def recoveryJournal
    (task : SolveTask α)
    (run : SolveRun σ τ α) :
    List (SolverEvent α) :=
  (stateAfter (recover task run.journaled)).solver.journal

/-- A recovery follows the course that its solver would write down, if each call is answered. -/
theorem recover_course
    (answers : Solver.AlwaysAnswers σ)
    (task : SolveTask α)
    (run : SolveRun σ τ α) :
    ∃ course : RecoveryCourse α,
      recoveryJournal task run = course.events ∧
        course.IsFor task run.work run.clock.reads ∧
        (course.NoFurtherRound task run.clock.reads ∨
          course.rounds.length = Escalation.roundLimit) ∧
        Ends
          (fun _ next => course.Settles task next.verdict)
          (fun fault next => course.BrokenOff task run next fault)
          (recover task run) := by
  have alike :
      StayAlike
        (RunsAgree (run.outlet.prints, run.outlet.prints)
          (fun journaled solver => journaled.solver = solver) Eq)
        (recover task run.journaled) (recover task run) :=
    recover_alike AnswerAlike.journaled run.journaled_agree task
      task.problemNumber
  have ends := recover_ends task run.journaled
  unfold recoveryJournal
  revert alike ends
  generalize recover task run.journaled = journaled
  generalize recover task run = plain
  intro alike ends
  cases alike with
  | @answer _ next _ agree =>
      obtain ⟨course, recovered⟩ := ends
      obtain ⟨looks, sent⟩ := recovered.sent
      have settles := recovered.settles
      refine ⟨course, sent.journal, recovered.isFor, ?_, ?_⟩
      · by_cases isInfeasible : next.verdict = .infeasible .penalty
        · exact
            .inl
              (.infeasible (settles.infeasible.mp isInfeasible)
                (settles.unrounded isInfeasible))
        · exact (recovered.ended isInfeasible).imp_left .ended
      · rw [agree.verdict] at settles
        exact settles
  | @fault fault next _ agree =>
      have sameVerdict := agree.verdict
      rcases ends with
        unanswered | ⟨refuses, course, isFor, ⟨_, sent⟩, refused, ended⟩ |
          ⟨course, isFor, ⟨_, sent⟩, settles, ended, explains, stopped⟩
      · exact absurd answers unanswered.fails
      · rw [sent.verdict] at sameVerdict
        refine
          ⟨course, sent.journal, isFor, ?_,
            .refused refuses refused sameVerdict.symm⟩
        rcases ended with ⟨last, isLast, lastRefused⟩ | runsOut
        · exact .inl (.refused last isLast fault lastRefused)
        · exact runsOut.imp_left .ended
      · rw [sent.verdict] at sameVerdict
        exact
          ⟨course, sent.journal, isFor, ended.imp_left .ended,
            .unprinted settles sameVerdict.symm explains
              (stopped.alike agree.outlet)⟩

/--
Recovery is a bounded, monotone escalation for every solver that answers and for every
course of time.  After the question for the violation there are at most
`2 * increases + 1` calls with objective; their penalties begin with that of the
settings, never fall and stay below the limit; the gap tolerances that the solver is
told in between fall strictly; and between two calls exactly one of both changes.  They
end with a success, with the schedule or with the time, if no gap tolerance is refused.

The recovery finds the problem infeasible, solves it exactly if the last call with
objective is acceptable and feasible, or fails.  The one exception is a solver that
refuses a gap tolerance, which leaves the verdict as it was.  A refused print breaks off
the explanation of a failure, not the failure.
-/
theorem recovery_is_bounded_escalation
    {σ τ K : Type}
    [ExactField K]
    [HasRoots K]
    [Solver σ K]
    (answers : Solver.AlwaysAnswers σ)
    (task : SolveTask K)
    (run : SolveRun σ τ K)
    (escalates : task.settings.Escalates) :
    ∃ course : RecoveryCourse K,
      recoveryJournal task run = course.events ∧
        course.IsFor task run.work run.clock.reads ∧
        course.rounds.length ≤
          2 * task.settings.penaltyIncreases.toNat + 1 ∧
        (∀ first ∈ course.rounds.head?,
          first.schedule.penalty = task.settings.penalty) ∧
        (course.rounds.map fun round => round.schedule.penalty).Pairwise
          (· ≤ ·) ∧
        (∀ round ∈ course.rounds,
          round.schedule.penalty <
            task.settings.maxPenalty + task.settings.epsilon) ∧
        (task.settings.gapTolerance ::
            course.rounds.filterMap PenaltyRound.tightened?).Pairwise
          (· > ·) ∧
        course.rounds.IsChain PenaltySchedule.Escalates ∧
        course.NoFurtherRound task run.clock.reads ∧
        (course.explanation.length ≤ 2 ∧
          ∀ call ∈ course.explanation, call.IsCheck) ∧
        Ends
          (fun _ next => course.Settles task next.verdict)
          (fun fault next => course.BrokenOff task run next fault)
          (recover task run) := by
  have inRange := Settings.validate_iff_valid.mp escalates.valid
  have penaltyPositive : 0 < task.settings.penalty := inRange.positive .penalty
  have gapPositive : 0 < task.settings.gapTolerance :=
    inRange.positive .gapTolerance
  obtain ⟨course, journal, isFor, stops, ends⟩ := recover_course answers task run
  have moving : (Escalation.start task.settings).schedule.Moving :=
    PenaltySchedule.start_moving penaltyPositive gapPositive _
  have endsWithin :
      (Escalation.start task.settings).schedule.EndsWithin
        task.settings.penaltyIncreases.toNat :=
    PenaltySchedule.start_endsWithin penaltyPositive gapPositive
      inRange.ordered _ escalates.small escalates.penaltyFactor
      escalates.gapFactor
  have few := endsWithin.length_le_of_start isFor.follows
  have escalating := moving.isChain_escalates isFor.follows
  have noFurther : course.NoFurtherRound task run.clock.reads := by
    refine stops.resolve_right fun isFull => ?_
    have increases := task.settings.penaltyIncreases.toNat_lt
    rw [isFull, Escalation.roundLimit, UInt64.size] at few
    omega
  obtain ⟨later, requests⟩ := isFor.explanation
  exact
    ⟨course, journal, isFor, few, isFor.follows.head_penalty,
      PenaltySchedule.pairwise_penalty_le escalating,
      isFor.follows.penalty_lt, moving.pairwise_gap_gt isFor.follows,
      escalating, noFurther, task.areChecks_of_slaterRequests requests, ends⟩

end SolveM

/--
A solver that has one answer for every request, and one reply to every real parameter
that it is told.
-/
structure SteadySolver
    (reply : Except SolverFault Unit)
    (α : Type) where
  outcome : PenaltyOutcome
  report : SolverReport α

namespace SteadySolver

variable {reply : Except SolverFault Unit} {α : Type}

instance : Solver (SteadySolver reply α) α where
  name := fun _ => "steady"
  description := fun _ => "solver with one answer"
  defaultPenaltyIncreases := fun _ => 8
  warmStartNeedsPrimal := fun _ => false
  countProblem := id
  resetCount := id
  solve := fun _ solver => .ok solver.outcome solver
  report := SteadySolver.report
  getReal := fun _ _ => .error .parameterUnknown
  setReal := fun _ _ solver =>
    match reply with
    | .ok _ => .ok () solver
    | .error fault => .error fault solver
  getInteger := fun _ _ => .error .parameterUnknown
  setInteger := fun _ _ => .ok ()
  guessScaling := fun _ => .ok ()
  suggestPenalty := fun _ => .ok
  suggestMaxPenalty := fun _ => .ok

theorem alwaysAnswers : Solver.AlwaysAnswers (SteadySolver reply α) :=
  fun _ solver => ⟨solver.outcome, solver, rfl⟩

theorem alwaysTakes (parameter : Parameter) :
    Solver.AlwaysTakes (SteadySolver (.ok ()) α) parameter :=
  fun _ _ => .inl rfl

end SteadySolver

/-- The schedule of the standard settings goes on from its start. -/
theorem Settings.standard_canContinue :
    (Escalation.start (Settings.standard : Settings ℝ)).schedule.canContinue =
      true := by
  norm_num [Escalation.start, PenaltySchedule.start,
    PenaltySchedule.canContinue, standard, minimalGap]

/-- The standard settings escalate: eight steps take both quantities far enough. -/
theorem Settings.standard_escalates :
    (Settings.standard : Settings ℝ).Escalates := by
  let schedule := (Escalation.start (Settings.standard : Settings ℝ)).schedule
  have above : (minimalGap : ℝ) < 1e-4 := by norm_num [minimalGap]
  have moving : schedule.Moving :=
    PenaltySchedule.start_moving (by norm_num [standard])
      (by norm_num [standard]) 8
  have rise : schedule.penaltyFactor ^ 8 = 1e10 / 1e5 :=
    PenaltySchedule.start_penaltyFactor_pow
      (by norm_num [standard]) (by norm_num [standard]) (by decide)
  have cut : schedule.gapFactor ^ 8 = minimalGap / 1e-4 :=
    PenaltySchedule.start_gapFactor_pow above (by decide)
  have grows : 2 ≤ schedule.penaltyFactor := by
    by_contra small
    have below :=
      pow_lt_pow_left₀ (not_le.mp small)
        (zero_le_one.trans moving.penaltyFactor.le) (n := 8) (by norm_num)
    rw [rise] at below
    norm_num at below
  refine
    ⟨SettingsArithmetic.standard_validate, by norm_num [standard], ?_, ?_⟩
  · change (1e-9 : ℝ) ≤ 1e10 * (schedule.penaltyFactor - 1)
    linarith
  · by_contra large
    have higher :=
      pow_lt_pow_left₀ (not_le.mp large) (by norm_num) (n := 8) (by norm_num)
    change (99 / 100) ^ 8 < schedule.gapFactor ^ 8 at higher
    rw [cut] at higher
    norm_num [minimalGap] at higher

namespace SolveM

/-- A task with the given settings, in which time stands still. -/
noncomputable def unhurriedTask (settings : Settings ℝ) : SolveTask ℝ :=
  {
    sentinel := 1e20
    store := Store.ofProgram Program.empty
    settings := settings
    problemNumber := 1
    start := none
    startSetting := .unsolved
    explainsFailure := false
    timeLimit := 1
    watch := fun _ => 0
  }

/-- A run whose plain solve is over, with a steady solver that stands by its answer or not. -/
noncomputable def steadyRun
    (reply : Except SolverFault Unit)
    (acceptable feasible : Bool) :
    SolveRun (SteadySolver reply ℝ) Unit ℝ :=
  let solver : SteadySolver reply ℝ :=
    {
      outcome := { feasible := feasible, atBound := false }
      report :=
        {
          SolverReport.refusing 0 .notAvailable with
          flags := { StatusFlags.unknown 0 with acceptable := acceptable }
        }
    }
  { SolveRun.fresh 1e20 .wall solver () with verdict := .solved false }

/-- A run with a solver that never stands by its answers. -/
noncomputable def hopelessRun : SolveRun (SteadySolver (.ok ()) ℝ) Unit ℝ :=
  steadyRun (.ok ()) false false

/-- With the standard settings a hopeless recovery ends after seventeen rounds at most. -/
theorem hopeless_recovery_ends :
    ∃ (course : RecoveryCourse ℝ)
        (next : SolveRun (SteadySolver (.ok ()) ℝ) Unit ℝ),
      recover (unhurriedTask Settings.standard) hopelessRun = .ok () next ∧
        recoveryJournal (unhurriedTask Settings.standard) hopelessRun =
          course.events ∧
        course.rounds.length ≤ 17 ∧
        (course.rounds.map fun round => round.schedule.penalty).Pairwise
          (· ≤ ·) ∧
        course.NoFurtherRound (unhurriedTask Settings.standard) 0 ∧
        course.Settles (unhurriedTask Settings.standard) next.verdict := by
  let task := unhurriedTask Settings.standard
  obtain
    ⟨course, journal, _, few, _, rising, _, _, _, noFurther, _, ends⟩ :=
    recovery_is_bounded_escalation SteadySolver.alwaysAnswers task
      hopelessRun Settings.standard_escalates
  cases result : recover task hopelessRun with
  | ok answer next =>
      rw [result] at ends
      exact ⟨course, next, rfl, journal, few, rising, noFurther, ends⟩
  | error fault next =>
      rw [result] at ends
      rcases ends with ⟨refuses, _, _⟩ | ⟨_, _, explains, _⟩
      · exact absurd (SteadySolver.alwaysTakes _) refuses
      · cases explains

/-- Settings that ask for a smaller gap tolerance than any schedule goes to. -/
noncomputable def spentSettings : Settings ℝ :=
  { Settings.standard with gapTolerance := 1e-11, penaltyIncreases := 0 }

/-- They are valid and escalate all the same. -/
theorem spentSettings_escalates : spentSettings.Escalates := by
  have steps : spentSettings.penaltyIncreases.toNat = 0 := rfl
  refine ⟨?_, ?_, ?_, ?_⟩
  · refine Settings.validate_eq_ok_iff.mpr ⟨fun field => ⟨?_, rfl⟩, ?_⟩
    · cases field <;>
        norm_num [Settings.get, spentSettings, Settings.standard]
    · norm_num [spentSettings, Settings.standard]
  · norm_num [spentSettings, Settings.standard]
  · norm_num [Escalation.start, PenaltySchedule.start,
      PenaltySchedule.penaltyRatio, steps, spentSettings, Settings.standard]
  · norm_num [Escalation.start, PenaltySchedule.start,
      PenaltySchedule.gapRatio, steps, spentSettings, Settings.standard,
      minimalGap]

section ShortRecoveries

variable
  {σ τ α : Type}
  [Scalar α]
  [Solver σ α]
  {task : SolveTask α}
  {run counted : SolveRun σ τ α}
  {outcome : PenaltyOutcome}

/-- A recovery that does not prove infeasibility goes on with the escalation. -/
theorem recover_of_unproven
    (asked :
      solvePrepared task (some PenaltyRequest.violationOnly) task.start
          task.startSetting run =
        .ok outcome counted)
    (unproven :
      provesInfeasible task.sentinel task.settings
          (Solver.report counted.solver) =
        false) :
    recover task run =
      (do
          let last ←
            escalate task Escalation.roundLimit (Escalation.start task.settings)
          restoreGap task last
          settleRecovery task last :
        SolveM σ τ α Unit)
        {
          counted with
          usage := counted.usage.addReport (Solver.report counted.solver)
        } := by
  rw [recover_eq]
  change EStateM.bind _ _ run = _
  unfold EStateM.bind
  rw [asked]
  change
    (if provesInfeasible task.sentinel task.settings
        (Solver.report counted.solver) then
      _
    else
      _ : SolveM σ τ α Unit) _ = _
  rw [unproven]
  rfl

/-- With a schedule at its end the recovery fails at once. -/
theorem recover_of_spent
    (asked :
      solvePrepared task (some PenaltyRequest.violationOnly) task.start
          task.startSetting run =
        .ok outcome counted)
    (unproven :
      provesInfeasible task.sentinel task.settings
          (Solver.report counted.solver) =
        false)
    (spent : (Escalation.start task.settings).schedule.canContinue = false)
    (silent : task.explainsFailure = false) :
    recover task run =
      .ok ()
        {
          counted with
          usage := counted.usage.addReport (Solver.report counted.solver)
          verdict := .failed
        } := by
  have escalated (rounds : Nat) (now : SolveRun σ τ α) :
      escalate task rounds (Escalation.start task.settings) now =
        .ok (Escalation.start task.settings) now := by
    cases rounds with
    | zero =>
        rfl
    | succ rounds =>
        rw [escalate, spent]
        rfl
  rw [recover_of_unproven asked unproven]
  change EStateM.bind _ _ _ = _
  unfold EStateM.bind
  rw [escalated]
  change
    (if task.explainsFailure then
      checkSlater task true
    else
      pure () : SolveM σ τ α Unit) _ = _
  rw [silent]
  rfl

/-- An escalation whose first round fails has failed. -/
theorem escalate_of_broken
    {rounds : Nat}
    {escalation : Escalation α}
    {onFault : Fault α → SolveRun σ τ α → Prop}
    (unfinished :
      ¬ (escalation.succeeded || !escalation.schedule.canContinue) = true)
    (inTime : ¬ task.timeLimit - task.watch run.clock.reads ≤ 0)
    (broken :
      Ends (fun _ _ => False) onFault
        (escalateOnce task escalation run.looked)) :
    Ends (fun _ _ => False) onFault
      (escalate task (rounds + 1) escalation run) := by
  rw [escalate, if_neg unfinished]
  refine Ends.bind (timeIsUp_ends task run) (fun _ _ => False.elim) ?_
  rintro _ _ ⟨rfl, rfl⟩
  rw [if_neg (by simpa using inTime)]
  exact Ends.bind broken (fun _ _ => id) fun _ _ => False.elim

end ShortRecoveries

theorem spentSettings_spent :
    (Escalation.start spentSettings).schedule.canContinue = false := by
  norm_num [Escalation.start, PenaltySchedule.start,
    PenaltySchedule.canContinue, spentSettings, Settings.standard, minimalGap]

/--
A recovery need not come to one of its three verdicts: it does not if the solver refuses
the first gap tolerance that it is told.  Nor is it solved whenever the last penalty
formulation, which may be the one without objective, is acceptable and feasible: it
fails if the schedule is at its end from the start.
-/
theorem recovery_can_be_refused_or_spent :
    ((Settings.standard : Settings ℝ).Escalates ∧
      ∃ reason,
        Solver.AlwaysAnswers (SteadySolver (.error reason) ℝ) ∧
          Ends
            (fun _ _ => False)
            (fun fault next =>
              fault = .solver reason ∧ next.verdict = .solved false)
            (recover (unhurriedTask Settings.standard)
              (steadyRun (.error reason) true false))) ∧
      spentSettings.Escalates ∧
      Solver.AlwaysAnswers (SteadySolver (.ok ()) ℝ) ∧
      Ends
        (fun _ next => next.verdict = .failed)
        (fun _ _ => False)
        (recover (unhurriedTask spentSettings)
          (steadyRun (.ok ()) true true)) ∧
      ∃ call,
        recoveryJournal (unhurriedTask spentSettings)
            (steadyRun (.ok ()) true true) =
          [.asked call] ∧
        call.Succeeded := by
  refine
    ⟨⟨Settings.standard_escalates, .failed "gap tolerance is fixed",
        SteadySolver.alwaysAnswers, ?_⟩,
      spentSettings_escalates, SteadySolver.alwaysAnswers, ?_, ?_⟩
  · rw [recover_of_unproven rfl rfl]
    refine Ends.bind (escalate_of_broken ?_ ?_ ?_) (fun _ _ => id) ?_
    · rw [unhurriedTask, Settings.standard_canContinue]
      exact Bool.false_ne_true
    · norm_num [unhurriedTask]
    · exact ⟨rfl, rfl⟩
    · exact fun _ _ => False.elim
  · rw [recover_of_spent rfl rfl spentSettings_spent rfl]
    rfl
  · have replayed :
        recover (unhurriedTask spentSettings)
            (steadyRun (.ok ()) true true).journaled =
          _ :=
      recover_of_spent rfl rfl spentSettings_spent rfl
    unfold recoveryJournal
    rw [replayed]
    exact ⟨_, rfl, rfl, _, rfl, rfl⟩

end SolveM

end SdpRelay
