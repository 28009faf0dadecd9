import SdpRelay.Proofs.SolveSteps

namespace SdpRelay

/-!
# Penalty rounds

A recovery asks for the penalty formulation in rounds.  Each round asks with what the
schedule says at that moment, and moves the schedule as its answer demands; if that
tightens the gap tolerance, the solver is told the new one.  `FollowedBy` says so of a
whole list of rounds, and `escalate_ends` is the induction over the rounds.

Rounds end for one of three reasons, which `Escalation.Stopped` names, unless the solver
fails in between: by a call that it does not answer, or by a gap tolerance that it
refuses.
-/

variable {σ τ α : Type}

/-- What a call shows of the penalty formulation. -/
def SolverCall.observation (call : SolverCall α) : PenaltyObservation :=
  {
    acceptable := call.report.flags.acceptable
    feasible :=
      match call.answer with
      | .ok outcome => outcome.feasible
      | .error _ => false
    atBound :=
      match call.answer with
      | .ok outcome => outcome.atBound
      | .error _ => false
  }

/-- The solver stood by its answer, which is feasible for the problem itself. -/
def SolverCall.Succeeded (call : SolverCall α) : Prop :=
  call.report.flags.acceptable = true ∧
    ∃ outcome, call.answer = .ok outcome ∧ outcome.feasible = true

/-- A call shows a success exactly if it succeeded. -/
theorem SolverCall.succeeded_iff_observation (call : SolverCall α) :
    call.Succeeded ↔
      (call.observation.acceptable && call.observation.feasible) = true := by
  rw [Bool.and_eq_true, Succeeded, observation]
  cases call.answer with
  | ok outcome => simp
  | error fault => simp

/-- A round asks for no move exactly if its answer is acceptable and feasible. -/
theorem PenaltyObservation.step_eq_done_iff {seen : PenaltyObservation} :
    seen.step = .done ↔ (seen.acceptable && seen.feasible) = true := by
  obtain ⟨acceptable, feasible, atBound⟩ := seen
  cases acceptable <;> cases feasible <;> cases atBound <;>
    simp [PenaltyObservation.step]

variable [Scalar α]

namespace SolveTask

/-- The request that asks how far the problem is from being feasible. -/
def violationRequest
    (task : SolveTask α)
    (work : Workspace α)
    (look : Nat) :
    SolveRequest α :=
  task.request work (some PenaltyRequest.violationOnly) task.start
    task.startSetting look

/-- The request for the penalty formulation with the objective. -/
def roundRequest
    (task : SolveTask α)
    (work : Workspace α)
    (penalty : α)
    (look : Nat) :
    SolveRequest α :=
  task.request work
    (some { penalty := penalty, withObjective := true, bounded := true })
    task.start task.startSetting look

end SolveTask

/--
A round: what the schedule said when it began, the call that was made, and the reply to
a tightened gap tolerance, which does not matter if the gap tolerance stayed.
-/
structure PenaltyRound (α : Type) where
  schedule : PenaltySchedule α
  call : SolverCall α
  reply : Except SolverFault Unit

namespace PenaltyRound

/-- The move that the answer asks for. -/
def step (round : PenaltyRound α) : PenaltyStep :=
  round.call.observation.step

/-- The schedule after the round. -/
def next (round : PenaltyRound α) : PenaltySchedule α :=
  round.schedule.move round.step

/-- The gap tolerance that the solver is told at the end of the round, if it is a new one. -/
def tightened? (round : PenaltyRound α) : Option α :=
  if round.step = .tightenGap then some round.next.gap else none

/-- What a round adds to the journal. -/
def events (round : PenaltyRound α) : List (SolverEvent α) :=
  .asked round.call ::
    round.tightened?.toList.map fun gap =>
      .told .gapTolerance gap round.reply

theorem events_of_tightening
    {round : PenaltyRound α}
    (tightens : round.step = .tightenGap) :
    round.events =
      [.asked round.call] ++
        [.told .gapTolerance round.next.gap round.reply] := by
  simp [events, tightened?, tightens]

theorem events_of_other
    {round : PenaltyRound α}
    (other : round.step ≠ .tightenGap) :
    round.events = [.asked round.call] := by
  simp [events, tightened?, other]

/-- The call of a round is its only one. -/
theorem filterMap_call?_events (round : PenaltyRound α) :
    round.events.filterMap SolverEvent.call? = [round.call] := by
  by_cases tightens : round.step = .tightenGap
  · rw [events_of_tightening tightens]
    rfl
  · rw [events_of_other tightens]
    rfl

/--
The round is made while time is left, and asks for the penalty formulation of the
prepared problem as its schedule says.
-/
structure AsksAt
    (round : PenaltyRound α)
    (task : SolveTask α)
    (work : Workspace α)
    (look : Nat) :
    Prop where
  inTime : ¬ task.timeLimit - task.watch look ≤ 0
  request :
    round.call.request =
      task.roundRequest work round.schedule.penalty (look + 1)

/-- The solver refuses the gap tolerance that the round tightens, which ends it with a fault. -/
structure RefusedWith
    (round : PenaltyRound α)
    (fault : Fault α) :
    Prop where
  tightens : round.step = .tightenGap
  refused :
    ∃ reason,
      reason ≠ .parameterUnknown ∧
        round.reply = .error reason ∧
        fault = .solver reason

end PenaltyRound

/--
Rounds that begin with a schedule: each begins with what the one before it left, as
long as the schedule can go on, and none follows a round that asks for no move.
-/
def PenaltySchedule.FollowedBy
    (schedule : PenaltySchedule α) :
    List (PenaltyRound α) → Prop
  | [] => True
  | round :: rest =>
      round.schedule = schedule ∧
        schedule.canContinue = true ∧
        (round.step = .done → rest = []) ∧
        round.next.FollowedBy rest

namespace Escalation

/-- How far a recovery has come after a round. -/
def after
    (escalation : Escalation α)
    (round : PenaltyRound α) :
    Escalation α :=
  {
    schedule := round.next
    seen := round.call.observation
    gapTightened := escalation.gapTightened || round.tightened?.isSome
  }

theorem after_of_tightening
    (escalation : Escalation α)
    {round : PenaltyRound α}
    (tightens : round.step = .tightenGap) :
    escalation.after round =
      {
        schedule := round.next
        seen := round.call.observation
        gapTightened := true
      } := by
  simp [after, PenaltyRound.tightened?, tightens]

theorem after_of_other
    (escalation : Escalation α)
    {round : PenaltyRound α}
    (other : round.step ≠ .tightenGap) :
    escalation.after round =
      {
        escalation with
        schedule := round.next
        seen := round.call.observation
      } := by
  simp [after, PenaltyRound.tightened?, other]

/-- The last round decides whether rounds have succeeded. -/
theorem succeeded_foldl_after
    {escalation : Escalation α}
    (rounds : List (PenaltyRound α)) :
    (rounds.foldl after escalation).succeeded = true ↔
      rounds = [] ∧ escalation.succeeded = true ∨
        ∃ last ∈ rounds.getLast?, last.call.Succeeded := by
  rcases rounds.eq_nil_or_concat with rfl | ⟨earlier, last, rfl⟩
  · simp
  · simp [succeeded, after, SolverCall.succeeded_iff_observation]

/-- A tightened gap tolerance is one that a round has tightened. -/
theorem gapTightened_foldl_after
    {escalation : Escalation α}
    (rounds : List (PenaltyRound α)) :
    (rounds.foldl after escalation).gapTightened =
      (escalation.gapTightened ||
        rounds.any fun round => round.tightened?.isSome) := by
  induction rounds generalizing escalation with
  | nil =>
      simp
  | cons round rest inductionHypothesis =>
      rw [List.foldl_cons, inductionHypothesis, List.any_cons, after,
        Bool.or_assoc]

/-- Why an escalation does not go on, where the given look at the clock decides about the time. -/
inductive Stopped
    (escalation : Escalation α)
    (task : SolveTask α)
    (look : Nat) :
    Prop
  | succeeded (last : escalation.succeeded = true)
  | exhausted (schedule : escalation.schedule.canContinue = false)
  | timeUp (left : task.timeLimit - task.watch look ≤ 0)

end Escalation

/-- A part of a solve was left by a call that the solver did not answer. -/
structure Unanswered
    [Solver σ α]
    (run next : SolveRun (JournaledSolver σ α) τ α) :
    Prop where
  fails : ¬ Solver.AlwaysAnswers σ
  sent : ∃ looks events, Sent looks events run.verdict run next

omit [Scalar α] in
/-- What comes before a call without an answer may be told with it. -/
theorem Unanswered.since
    [Solver σ α]
    {looks : Nat}
    {events : List (SolverEvent α)}
    {run middle next : SolveRun (JournaledSolver σ α) τ α}
    (unanswered : Unanswered middle next)
    (sent : Sent looks events run.verdict run middle) :
    Unanswered run next where
  fails := unanswered.fails
  sent := by
    obtain ⟨moreLooks, others, later⟩ := unanswered.sent
    rw [sent.verdict] at later
    exact ⟨_, _, sent.trans later⟩

/-- The rounds that an escalation has noted, with two looks at the clock for each. -/
structure Escalated
    [Solver σ α]
    (task : SolveTask α)
    (escalation : Escalation α)
    (rounds : List (PenaltyRound α))
    (run next : SolveRun (JournaledSolver σ α) τ α) :
    Prop where
  follows : escalation.schedule.FollowedBy rounds
  stops : escalation.succeeded = true → rounds = []
  asks :
    ∀ index (round : PenaltyRound α), rounds[index]? = some round →
      round.AsksAt task run.work (run.clock.reads + 2 * index)
  sent :
    ∃ looks,
      Sent looks (rounds.flatMap PenaltyRound.events) run.verdict run next
  idle : rounds = [] → next.solver = run.solver
  reported :
    ∀ last ∈ rounds.getLast?, last.call.Succeeded →
      last.call.report = Solver.report next.solver

namespace Escalated

variable
  [Solver σ α]
  {task : SolveTask α}
  {escalation : Escalation α}
  {run middle next : SolveRun (JournaledSolver σ α) τ α}

/-- No round has been made. -/
theorem nothing
    {looks : Nat}
    (sent : Sent looks [] run.verdict run next)
    (sameSolver : next.solver = run.solver) :
    Escalated task escalation [] run next where
  follows := trivial
  stops _ := rfl
  asks := by simp
  sent := ⟨looks, sent⟩
  idle _ := sameSolver
  reported := by simp

/-- Rounds after a first one, which was made because the escalation had to go on. -/
theorem cons
    {round : PenaltyRound α}
    {rounds : List (PenaltyRound α)}
    (unfinished :
      ¬ (escalation.succeeded || !escalation.schedule.canContinue) = true)
    (isNext : round.schedule = escalation.schedule)
    (asks : round.AsksAt task run.work run.clock.reads)
    (sent : Sent 2 round.events run.verdict run middle)
    (reported :
      round.call.Succeeded →
        round.call.report = Solver.report middle.solver)
    (rest : Escalated task (escalation.after round) rounds middle next) :
    Escalated task escalation (round :: rounds) run next := by
  rw [Bool.or_eq_true, not_or, Bool.not_eq_true, Bool.not_eq_true,
    Bool.not_eq_false'] at unfinished
  obtain ⟨looks, later⟩ := rest.sent
  rw [sent.verdict] at later
  exact
    {
      follows :=
        ⟨isNext, unfinished.2,
          fun isDone =>
            rest.stops (PenaltyObservation.step_eq_done_iff.mp isDone),
          rest.follows⟩
      stops := fun succeeded => by
        rw [unfinished.1] at succeeded
        cases succeeded
      asks := by
        intro index other isOther
        cases index with
        | zero =>
            cases isOther
            exact asks
        | succ index =>
            have others := rest.asks index other isOther
            rw [sent.work, sent.clock] at others
            have sameLook :
                run.clock.reads + 2 * (index + 1) =
                  run.clock.reads + 2 + 2 * index := by
              omega
            rw [sameLook]
            exact others
      sent := ⟨_, sent.trans later⟩
      idle := nofun
      reported := by
        rcases rounds.eq_nil_or_concat with rfl | ⟨earlier, last, rfl⟩
        · rintro _ ⟨⟩ succeeded
          rw [rest.idle rfl]
          exact reported succeeded
        · intro final isLast
          refine rest.reported final ?_
          rw [List.getLast?_cons] at isLast
          simpa using isLast
    }

/-- One round, if no other follows. -/
theorem single
    {round : PenaltyRound α}
    (unfinished :
      ¬ (escalation.succeeded || !escalation.schedule.canContinue) = true)
    (isNext : round.schedule = escalation.schedule)
    (asks : round.AsksAt task run.work run.clock.reads)
    (sent : Sent 2 round.events run.verdict run next)
    (reported :
      round.call.Succeeded →
        round.call.report = Solver.report next.solver) :
    Escalated task escalation [round] run next :=
  cons unfinished isNext asks sent reported
    (nothing (Untouched.sent ⟨⟨rfl, rfl, rfl, Nat.le_refl _⟩, rfl⟩) rfl)

end Escalated

namespace SolveM

variable [Solver σ α]

/-- Improving the bound on the objective leaves alone what the journal is about. -/
theorem improveBound_ends
    (settings : Settings α)
    (run : SolveRun σ τ α) :
    Ends
      (fun _ next => Untouched run next)
      (fun _ _ => False)
      (improveBound settings run) := by
  refine modify_ends ?_
  dsimp only
  split
  · split
    · exact ⟨⟨rfl, rfl, rfl, Nat.le_refl _⟩, rfl⟩
    · exact ⟨⟨rfl, rfl, rfl, Nat.le_refl _⟩, rfl⟩
  · exact ⟨⟨rfl, rfl, rfl, Nat.le_refl _⟩, rfl⟩

/--
One round asks as the schedule says and moves it; if it succeeded, the solver has heard
of nothing else since.  It fails if its call is not answered or its gap tolerance is
refused.
-/
theorem escalateOnce_ends
    (task : SolveTask α)
    (escalation : Escalation α)
    (run : SolveRun (JournaledSolver σ α) τ α) :
    let request (round : PenaltyRound α) :=
      task.roundRequest run.work round.schedule.penalty run.clock.reads
    Ends
      (fun further next =>
        ∃ round : PenaltyRound α,
          round.schedule = escalation.schedule ∧
            round.call.request = request round ∧
            Sent 1 round.events run.verdict run next ∧
            further = escalation.after round ∧
            SolverEvent.Takes round.reply ∧
            (round.call.Succeeded →
              round.call.report = Solver.report next.solver))
      (fun fault next =>
        Unanswered run next ∨
          ¬ Solver.AlwaysTakes σ .gapTolerance ∧
            ∃ round : PenaltyRound α,
              round.schedule = escalation.schedule ∧
                round.call.request = request round ∧
                Sent 1 round.events run.verdict run next ∧
                round.RefusedWith fault)
      (escalateOnce task escalation run) := by
  intro request
  refine Ends.bind (solvePrepared_ends task _ _ _ run) ?_ ?_
  · rintro fault next ⟨fails, reason, asked⟩
    exact .inl ⟨fails, _, _, asked⟩
  intro outcome solved asked
  refine
    Ends.bind (modify_ends ⟨⟨rfl, rfl, rfl, Nat.le_refl _⟩, rfl⟩)
      (fun _ _ => False.elim) ?_
  intro _ counted usageCounted
  refine Ends.bind (report_ends counted) (fun _ _ => False.elim) ?_
  rintro _ counted ⟨rfl, rfl⟩
  refine
    Ends.bind (improveBound_ends task.settings counted)
      (fun _ _ => False.elim) ?_
  intro _ improved boundImproved
  have sent := (asked.untouched usageCounted).untouched boundImproved
  let call : SolverCall α :=
    ⟨task.roundRequest run.work escalation.schedule.penalty run.clock.reads,
      .ok outcome, Solver.report improved.solver⟩
  let roundWith (reply : Except SolverFault Unit) : PenaltyRound α :=
    ⟨escalation.schedule, call, reply⟩
  rw [← boundImproved.solver]
  change
    Ends _ _
      ((if call.observation.step = .tightenGap then _ else _ :
        SolveM (JournaledSolver σ α) τ α (Escalation α)) improved)
  split
  · rename_i tightens
    have events (reply : Except SolverFault Unit) :
        (roundWith reply).events =
          [.asked call] ++
            [.told .gapTolerance (roundWith reply).next.gap reply] :=
      PenaltyRound.events_of_tightening tightens
    have failed : ¬ call.Succeeded := by
      intro succeeded
      have isDone : call.observation.step = .done :=
        PenaltyObservation.step_eq_done_iff.mpr
          (call.succeeded_iff_observation.mp succeeded)
      rw [isDone] at tightens
      cases tightens
    refine Ends.bind (askSolver_forward_ends _ _ improved) ?_ ?_
    · rintro fault next ⟨refuses, reason, known, isFault, told⟩
      rw [sent.verdict] at told
      refine
        .inr ⟨refuses, roundWith (.error reason), rfl, rfl, ?_, tightens,
          reason, known, rfl, isFault⟩
      rw [events]
      exact sent.trans told
    · rintro _ next ⟨reply, takes, told, _⟩
      rw [sent.verdict] at told
      let round := roundWith reply
      have same : round.step = .tightenGap := tightens
      refine
        ⟨round, rfl, rfl, ?_, (escalation.after_of_tightening same).symm,
          takes, fun succeeded => absurd succeeded failed⟩
      rw [events]
      exact sent.trans told
  · rename_i other
    let round := roundWith (.ok ())
    have same : round.step ≠ .tightenGap := other
    refine
      ⟨round, rfl, rfl, ?_, (escalation.after_of_other same).symm, .inl rfl,
        fun _ => rfl⟩
    rw [PenaltyRound.events_of_other same]
    exact sent

/--
Escalation is noted round by round, each following the one before, and stops for one of
its reasons if it has rounds enough.  It fails if a call is not answered or the gap
tolerance of the last round is refused.
-/
theorem escalate_ends
    (task : SolveTask α)
    (fuel : Nat)
    (escalation : Escalation α)
    (run : SolveRun (JournaledSolver σ α) τ α) :
    Ends
      (fun last next =>
        ∃ rounds : List (PenaltyRound α),
          Escalated task escalation rounds run next ∧
            last = rounds.foldl Escalation.after escalation ∧
            (∀ round ∈ rounds, SolverEvent.Takes round.reply) ∧
            (last.Stopped task (run.clock.reads + 2 * rounds.length) ∨
              rounds.length = fuel))
      (fun fault next =>
        Unanswered run next ∨
          ¬ Solver.AlwaysTakes σ .gapTolerance ∧
            ∃ rounds : List (PenaltyRound α),
              Escalated task escalation rounds run next ∧
                ∃ final ∈ rounds.getLast?, final.RefusedWith fault)
      (escalate task fuel escalation run) := by
  induction fuel generalizing escalation run with
  | zero =>
      exact
        ⟨[],
          .nothing (Untouched.sent ⟨⟨rfl, rfl, rfl, Nat.le_refl _⟩, rfl⟩) rfl,
          rfl, by simp, .inr rfl⟩
  | succ fuel inductionHypothesis =>
      have looked : Sent 1 [] run.verdict run run.looked :=
        (Untouched.sent ⟨⟨rfl, rfl, rfl, Nat.le_refl _⟩, rfl⟩).of_looked
      unfold escalate
      split
      · rename_i finished
        refine
          ⟨[],
            .nothing (Untouched.sent ⟨⟨rfl, rfl, rfl, Nat.le_refl _⟩, rfl⟩)
              rfl,
            rfl, by simp, .inl ?_⟩
        rcases Bool.or_eq_true_iff.mp finished with succeeded | exhausted
        · exact .succeeded succeeded
        · exact .exhausted ((Bool.not_eq_true' _).mp exhausted)
      rename_i unfinished
      refine Ends.bind (timeIsUp_ends task run) (fun _ _ => False.elim) ?_
      rintro _ _ ⟨rfl, rfl⟩
      split
      · rename_i isUp
        exact
          ⟨[], .nothing looked rfl, rfl, by simp,
            .inl (.timeUp (of_decide_eq_true isUp))⟩
      rename_i isLeft
      have inTime : ¬ task.timeLimit - task.watch run.clock.reads ≤ 0 :=
        fun isUp => isLeft (decide_eq_true isUp)
      refine Ends.bind (escalateOnce_ends task escalation run.looked) ?_ ?_
      · rintro fault next
          (unanswered | ⟨refuses, round, isNext, asks, sent, refused⟩)
        · exact .inl (unanswered.since looked)
        · refine .inr ⟨refuses, [round], ?_, round, rfl, refused⟩
          refine
            .single unfinished isNext ⟨inTime, asks⟩ sent.of_looked ?_
          intro succeeded
          have isDone : round.step = .done :=
            PenaltyObservation.step_eq_done_iff.mpr
              (round.call.succeeded_iff_observation.mp succeeded)
          rw [refused.tightens] at isDone
          cases isDone
      rintro _ middle ⟨round, isNext, asks, sent, rfl, takes, reported⟩
      have first := sent.of_looked
      have whole {rounds : List (PenaltyRound α)}
          {next : SolveRun (JournaledSolver σ α) τ α}
          (rest :
            Escalated task (escalation.after round) rounds middle next) :
          Escalated task escalation (round :: rounds) run next :=
        .cons unfinished isNext ⟨inTime, asks⟩ first reported rest
      refine
        (inductionHypothesis (escalation.after round) middle).mono ?_ ?_
      · rintro last next ⟨rounds, rest, isLast, taken, ended⟩
        refine
          ⟨round :: rounds, whole rest, isLast,
            List.forall_mem_cons.mpr ⟨takes, taken⟩, ?_⟩
        rw [first.clock] at ended
        rw [List.length_cons]
        refine ended.imp ?_ (congrArg (· + 1))
        intro stopped
        have sameLook :
            run.clock.reads + 2 * (rounds.length + 1) =
              run.clock.reads + 2 + 2 * rounds.length := by
          omega
        rw [sameLook]
        exact stopped
      · rintro fault next
          (unanswered | ⟨refuses, rounds, rest, final, isLast, refused⟩)
        · exact .inl (unanswered.since first)
        · refine
            .inr ⟨refuses, round :: rounds, whole rest, final, ?_, refused⟩
          rw [List.getLast?_cons, Option.mem_def.mp isLast]
          rfl

end SolveM

end SdpRelay
