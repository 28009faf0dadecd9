import SdpRelay.Proofs.StepResults
import SdpRelay.Solver.Interface

namespace SdpRelay

/-!
# Journaled solvers

A journaled solver does what the solver behind it does, and keeps a journal of what
it was asked to solve and which real parameters it was told, each with the way in
which it ended.  Keeping a journal changes no answer: `AnswerAlike.journaled` says so
in the words in which any two solvers are compared.

Not everyone needs the whole journal.  The calls and the assignments that the solver
accepted are read off it.
-/

/-- A request that a solver was sent, how it ended, and the report that followed. -/
structure SolverCall (α : Type) where
  request : SolveRequest α
  answer : Except SolverFault PenaltyOutcome
  report : SolverReport α

/-- Something that a solver was asked to solve or told to assume. -/
inductive SolverEvent (α : Type) where
  | asked (call : SolverCall α)
  | told (parameter : Parameter) (value : α) (reply : Except SolverFault Unit)

namespace SolverEvent

variable {α : Type}

/-- The call, if an event is one. -/
def call? : SolverEvent α → Option (SolverCall α)
  | asked call => some call
  | told _ _ _ => none

/-- The parameter and its value, if an event is an assignment that was accepted. -/
def assignment? : SolverEvent α → Option (Parameter × α)
  | told parameter value (.ok _) => some (parameter, value)
  | _ => none

/-- The solver takes a parameter: it accepts the value, or it does not know the parameter. -/
def Takes (reply : Except SolverFault Unit) : Prop :=
  reply = .ok () ∨ reply = .error .parameterUnknown

end SolverEvent

/-- Whatever it is asked to solve, the solver comes back with an answer. -/
def Solver.AlwaysAnswers
    (σ : Type)
    {α : Type}
    [Solver σ α] :
    Prop :=
  ∀ request (solver : σ),
    ∃ outcome next, Solver.solve request solver = .ok outcome next

/-- Whatever value of a real parameter it is told, the solver takes it. -/
def Solver.AlwaysTakes
    (σ : Type)
    {α : Type}
    [Solver σ α]
    (parameter : Parameter) :
    Prop :=
  ∀ value (solver : σ),
    SolverEvent.Takes (answerOf (Solver.setReal parameter value solver))

/-- A solver and what it was asked and told, in order. -/
structure JournaledSolver (σ α : Type) where
  solver : σ
  journal : List (SolverEvent α)

variable {σ σ₁ σ₂ α β : Type}

namespace JournaledSolver

/-- A solver whose journal starts now. -/
def journaling (solver : σ) : JournaledSolver σ α :=
  { solver := solver, journal := [] }

/-- The calls that the solver received. -/
def calls (journaled : JournaledSolver σ α) : List (SolverCall α) :=
  journaled.journal.filterMap SolverEvent.call?

/-- The real parameters that the solver accepted. -/
def accepted (journaled : JournaledSolver σ α) : List (Parameter × α) :=
  journaled.journal.filterMap SolverEvent.assignment?

variable [Solver σ α]

/-- Leave a request to the solver, and note the call. -/
def solve
    (request : SolveRequest α) :
    EStateM SolverFault (JournaledSolver σ α) PenaltyOutcome :=
  fun journaled =>
    let result := Solver.solve request journaled.solver
    withState
      (fun next =>
        {
          solver := next
          journal :=
            journaled.journal ++
              [.asked
                {
                  request := request
                  answer := answerOf result
                  report := Solver.report next
                }]
        })
      result

/-- Leave an assignment to the solver, and note it with the reply. -/
def setReal
    (parameter : Parameter)
    (value : α) :
    EStateM SolverFault (JournaledSolver σ α) Unit :=
  fun journaled =>
    let result := Solver.setReal parameter value journaled.solver
    withState
      (fun next =>
        {
          solver := next
          journal :=
            journaled.journal ++ [.told parameter value (answerOf result)]
        })
      result

/-- Leave to the solver what is not noted. -/
def unnoted
    (step : EStateM SolverFault σ β) :
    EStateM SolverFault (JournaledSolver σ α) β :=
  fun journaled =>
    withState
      (fun next => { journaled with solver := next })
      (step journaled.solver)

instance : Solver (JournaledSolver σ α) α where
  name := fun journaled => Solver.name journaled.solver
  description := fun journaled => Solver.description journaled.solver
  defaultPenaltyIncreases := fun journaled =>
    Solver.defaultPenaltyIncreases journaled.solver
  warmStartNeedsPrimal := fun journaled =>
    Solver.warmStartNeedsPrimal journaled.solver
  countProblem := fun journaled =>
    { journaled with solver := Solver.countProblem journaled.solver }
  resetCount := fun journaled =>
    { journaled with solver := Solver.resetCount journaled.solver }
  solve := solve
  report := fun journaled => Solver.report journaled.solver
  getReal := fun journaled => Solver.getReal journaled.solver
  setReal := setReal
  getInteger := fun journaled => Solver.getInteger journaled.solver
  setInteger := fun parameter value =>
    unnoted (Solver.setInteger parameter value)
  guessScaling := fun largest => unnoted (Solver.guessScaling largest)
  suggestPenalty := fun journaled => Solver.suggestPenalty journaled.solver
  suggestMaxPenalty := fun journaled =>
    Solver.suggestMaxPenalty journaled.solver

/-- A request is noted with the answer and the report that it led to. -/
theorem solve_ends
    (request : SolveRequest α)
    (journaled : JournaledSolver σ α) :
    Ends
      (fun outcome next =>
        next.journal =
          journaled.journal ++
            [.asked ⟨request, .ok outcome, Solver.report next⟩])
      (fun fault next =>
        ¬ Solver.AlwaysAnswers σ ∧
          next.journal =
            journaled.journal ++
              [.asked ⟨request, .error fault, Solver.report next⟩])
      (Solver.solve request journaled) := by
  change Ends _ _ (solve request journaled)
  unfold solve
  cases result : Solver.solve request journaled.solver with
  | ok outcome next =>
      rfl
  | error fault next =>
      refine ⟨?_, rfl⟩
      intro answers
      obtain ⟨outcome, other, answered⟩ := answers request journaled.solver
      rw [result] at answered
      cases answered

omit [Solver σ α] in
/-- A call that is noted comes after the calls so far. -/
theorem calls_of_asked
    {journaled next : JournaledSolver σ α}
    {call : SolverCall α}
    (noted : next.journal = journaled.journal ++ [.asked call]) :
    next.calls = journaled.calls ++ [call] := by
  rw [calls, noted, List.filterMap_append]
  rfl

omit [Solver σ α] in
/-- An assignment that is noted is no call. -/
theorem calls_of_told
    {journaled next : JournaledSolver σ α}
    {parameter : Parameter}
    {value : α}
    {reply : Except SolverFault Unit}
    (noted :
      next.journal = journaled.journal ++ [.told parameter value reply]) :
    next.calls = journaled.calls := by
  rw [calls, noted, List.filterMap_append]
  exact List.append_nil _

/-- An assignment of a parameter is noted with the reply. -/
theorem setReal_journal
    (parameter : Parameter)
    (value : α)
    (journaled : JournaledSolver σ α) :
    (stateAfter (Solver.setReal parameter value journaled)).journal =
      journaled.journal ++
        [.told parameter value
          (answerOf (Solver.setReal parameter value journaled.solver))] := by
  change (stateAfter (setReal parameter value journaled)).journal = _
  unfold setReal
  rw [stateAfter_withState]

/-- A parameter that is passed on is noted, and the reply tells how that ends. -/
theorem forward_ends
    (parameter : Parameter)
    (value : α)
    (journaled : JournaledSolver σ α) :
    Ends
      (fun _ next =>
        ∃ reply,
          SolverEvent.Takes reply ∧
            next.journal =
              journaled.journal ++ [.told parameter value reply])
      (fun fault next =>
        ¬ Solver.AlwaysTakes σ parameter ∧
          fault ≠ .parameterUnknown ∧
          next.journal =
            journaled.journal ++ [.told parameter value (.error fault)])
      (Solver.forward parameter value journaled) := by
  have refuses
      {fault : SolverFault}
      {next : σ}
      (refused :
        Solver.setReal parameter value journaled.solver = .error fault next)
      (known : fault ≠ .parameterUnknown) :
      ¬ Solver.AlwaysTakes σ parameter := by
    intro takes
    have taken := takes value journaled.solver
    rw [refused] at taken
    exact taken.elim nofun fun unknown => known (Except.error.inj unknown)
  have sent :
      Solver.setReal parameter value journaled =
        setReal parameter value journaled :=
    rfl
  unfold Solver.forward
  rw [sent]
  unfold setReal
  cases result : Solver.setReal parameter value journaled.solver with
  | ok answer next =>
      exact ⟨.ok (), .inl rfl, rfl⟩
  | error fault next =>
      cases fault with
      | parameterUnknown => exact ⟨_, .inr rfl, rfl⟩
      | notAvailable => exact ⟨refuses result nofun, nofun, rfl⟩
      | failed reason => exact ⟨refuses result nofun, nofun, rfl⟩

end JournaledSolver

/-- Passing a parameter on leaves the state of an assignment. -/
theorem Solver.stateAfter_forward
    [Solver σ α]
    (parameter : Parameter)
    (value : α)
    (solver : σ) :
    stateAfter (Solver.forward parameter value solver) =
      stateAfter (Solver.setReal parameter value solver) := by
  unfold Solver.forward
  cases Solver.setReal parameter value solver with
  | ok answer next =>
      rfl
  | error fault next =>
      cases fault <;> rfl

/-- Assigning a parameter does not change what a solver says about its last solve. -/
def ReportsStand
    (σ : Type)
    {α : Type}
    [Solver σ α] :
    Prop :=
  ∀ parameter value (solver : σ),
    Solver.report (stateAfter (Solver.setReal parameter value solver)) =
      Solver.report solver

theorem ReportsStand.journaled
    [Solver σ α]
    (stand : ReportsStand σ) :
    ReportsStand (JournaledSolver σ α) := by
  intro parameter value journaled
  change
    Solver.report
      (stateAfter
        (JournaledSolver.setReal parameter value journaled)).solver =
      Solver.report journaled.solver
  unfold JournaledSolver.setReal
  rw [stateAfter_withState]
  exact stand parameter value journaled.solver

/--
Two solvers answer alike in related states: whatever a solve asks of them, their
answers are the same and their states stay related.
-/
structure AnswerAlike
    [Solver σ₁ α]
    [Solver σ₂ α]
    (related : σ₁ → σ₂ → Prop) :
    Prop where
  solve :
    ∀ request first second, related first second →
      StayAlike related
        (Solver.solve request first) (Solver.solve request second)
  setReal :
    ∀ parameter value first second, related first second →
      StayAlike related
        (Solver.setReal parameter value first)
        (Solver.setReal parameter value second)
  report :
    ∀ first second, related first second →
      Solver.report first = Solver.report second
  countProblem :
    ∀ first second, related first second →
      related (Solver.countProblem first) (Solver.countProblem second)

namespace AnswerAlike

/-- A solver answers like itself in the same state. -/
theorem same [Solver σ α] :
    AnswerAlike (fun first second : σ => first = second) where
  solve := by
    rintro request first _ rfl
    exact .refl (fun _ => rfl) _
  setReal := by
    rintro parameter value first _ rfl
    exact .refl (fun _ => rfl) _
  report := by
    rintro first _ rfl
    rfl
  countProblem := by
    rintro first _ rfl
    rfl

/-- A journaled solver answers like the solver behind it. -/
theorem journaled [Solver σ α] :
    AnswerAlike
      (fun (journaled : JournaledSolver σ α) (solver : σ) =>
        journaled.solver = solver) where
  solve := by
    rintro request journaled _ rfl
    refine EndAlike.withState_left ?_ (Solver.solve request journaled.solver)
    intro next
    rfl
  setReal := by
    rintro parameter value journaled _ rfl
    refine
      EndAlike.withState_left ?_
        (Solver.setReal parameter value journaled.solver)
    intro next
    rfl
  report := by
    rintro journaled _ rfl
    rfl
  countProblem := by
    rintro journaled _ rfl
    rfl

variable [Solver σ₁ α] [Solver σ₂ α]

/-- Solvers that answer alike also take a parameter alike when they need not know it. -/
theorem forward
    {related : σ₁ → σ₂ → Prop}
    (alike : AnswerAlike related)
    (parameter : Parameter)
    (value : α)
    {first : σ₁}
    {second : σ₂}
    (start : related first second) :
    StayAlike related
      (Solver.forward parameter value first)
      (Solver.forward parameter value second) := by
  have assigned := alike.setReal parameter value first second start
  unfold Solver.forward
  revert assigned
  generalize Solver.setReal parameter value first = one
  generalize Solver.setReal parameter value second = other
  intro assigned
  cases assigned with
  | answer next =>
      exact .answer next
  | @fault fault _ _ next =>
      cases fault with
      | parameterUnknown =>
          exact .answer next
      | notAvailable =>
          exact .fault next
      | failed reason =>
          exact .fault next

end AnswerAlike

end SdpRelay
