import SdpRelay.Proofs.PreparedWorkspace
import SdpRelay.Proofs.SolveParts
import SdpRelay.Proofs.SolverCalls

namespace SdpRelay

/-!
# Runs that a solve cannot tell apart

Two runs agree if their solvers are in related states and everything else that a
solve reads of a run is equal.  The lemmas below take two agreeing runs through
each step of a solve: the steps end alike and the runs still agree.  The
workspaces may differ at first; presolve makes them equal but for their
compactions, and `compact` makes them equal.

What is only printed or counted is left out, so the runs may also differ in the
number that the problem goes by in notices, and in how often has been printed before.
Which reservations and which of the coming prints are refused must be the same: either
refusal ends a solve.
-/

variable {σ₁ σ₂ τ α β γ : Type}

/--
Two outlets have been printed to equally often since two given counts, and refuse the
same of the prints from there on.
-/
structure Outlet.AlikeSince
    (since : Nat × Nat)
    (first second : Outlet) :
    Prop where
  prints :
    ∃ count,
      first.prints = since.1 + count ∧ second.prints = since.2 + count
  refusals :
    ∀ print,
      first.refusals (since.1 + print) = second.refusals (since.2 + print)

namespace Outlet.AlikeSince

variable {since : Nat × Nat} {first second : Outlet}

theorem refusal?_eq (alike : AlikeSince since first second) :
    first.refusal? = second.refusal? := by
  obtain ⟨count, firstPrints, secondPrints⟩ := alike.prints
  unfold refusal?
  rw [firstPrints, secondPrints]
  exact alike.refusals count

theorem afterPrint (alike : AlikeSince since first second) :
    AlikeSince since first.afterPrint second.afterPrint where
  prints := by
    obtain ⟨count, firstPrints, secondPrints⟩ := alike.prints
    exact
      ⟨count + 1, congrArg (· + 1) firstPrints,
        congrArg (· + 1) secondPrints⟩
  refusals := alike.refusals

theorem refl (outlet : Outlet) :
    AlikeSince (outlet.prints, outlet.prints) outlet outlet where
  prints := ⟨0, rfl, rfl⟩
  refusals _ := rfl

end Outlet.AlikeSince

/-- Runs that agree in all that a solve reads, with workspaces in some relation. -/
structure RunsAgree
    (since : Nat × Nat)
    (related : σ₁ → σ₂ → Prop)
    (sameWork : Workspace α → Workspace α → Prop)
    (first : SolveRun σ₁ τ α)
    (second : SolveRun σ₂ τ α) :
    Prop where
  solver : related first.solver second.solver
  work : sameWork first.work second.work
  oneVariable : first.oneVariable = second.oneVariable
  clock : first.clock = second.clock
  phases : first.phases = second.phases
  usage : first.usage = second.usage
  verdict : first.verdict = second.verdict
  bestBound : first.bestBound = second.bestBound
  slater : first.slater = second.slater
  memory : first.memory = second.memory
  outlet : Outlet.AlikeSince since first.outlet second.outlet

/-- Nothing is asked of two workspaces. -/
def AnyWork (_ _ : Workspace α) : Prop := True

/-- Two workspaces are equal, except that one of them has not been compacted. -/
def SameButCompaction (first second : Workspace α) : Prop :=
  second = { first with compaction := second.compaction }

/-- A verdict that a solve comes to without its solver, or none at all. -/
def Verdict.IsDirect : Verdict α → Prop
  | .unsolved => True
  | .infeasible .presolve => True
  | .infeasible .fixedPoint => True
  | .allFixed => True
  | .oneVariable _ => True
  | _ => False

/-- The task under another number. -/
def SolveTask.renumbered
    (task : SolveTask α)
    (number : Nat) :
    SolveTask α :=
  { task with problemNumber := number }

namespace RunsAgree

variable
  {since : Nat × Nat}
  {related : σ₁ → σ₂ → Prop}
  {sameWork : Workspace α → Workspace α → Prop}
  {first : SolveRun σ₁ τ α}
  {second : SolveRun σ₂ τ α}

theorem anyWork (agree : RunsAgree since related sameWork first second) :
    RunsAgree since related AnyWork first second :=
  { agree with work := trivial }

theorem enter
    (agree : RunsAgree since related sameWork first second)
    (name : String) :
    RunsAgree since related sameWork
      { first with phases := first.phases.enter name }
      { second with phases := second.phases.enter name } :=
  { agree with phases := by rw [agree.phases] }

theorem leave (agree : RunsAgree since related sameWork first second) :
    RunsAgree since related sameWork
      { first with phases := first.phases.leave }
      { second with phases := second.phases.leave } :=
  { agree with phases := by rw [agree.phases] }

end RunsAgree

/-- The run with a solver whose journal starts now. -/
def SolveRun.journaled
    (run : SolveRun σ₁ τ α) :
    SolveRun (JournaledSolver σ₁ α) τ α :=
  {
    solver := JournaledSolver.journaling run.solver
    oneVariable := run.oneVariable
    work := run.work
    clock := run.clock
    phases := run.phases
    usage := run.usage
    tally := run.tally
    verdict := run.verdict
    bestBound := run.bestBound
    slater := run.slater
    memory := run.memory
    outlet := run.outlet
    notices := run.notices
  }

theorem SolveRun.journaled_agree (run : SolveRun σ₁ τ α) :
    RunsAgree (run.outlet.prints, run.outlet.prints)
      (fun journaled solver => journaled.solver = solver) Eq run.journaled
      run where
  solver := rfl
  work := rfl
  oneVariable := rfl
  clock := rfl
  phases := rfl
  usage := rfl
  verdict := rfl
  bestBound := rfl
  slater := rfl
  memory := rfl
  outlet := .refl run.outlet

namespace SolveM

section Steps

variable
  {since : Nat × Nat}
  {related : σ₁ → σ₂ → Prop}
  {sameWork : Workspace α → Workspace α → Prop}
  {first : SolveRun σ₁ τ α}
  {second : SolveRun σ₂ τ α}

/-- Requests that end alike end alike in agreeing runs. -/
theorem askSolver_alike
    {request : EStateM SolverFault σ₁ β}
    {other : EStateM SolverFault σ₂ β}
    (agree : RunsAgree since related sameWork first second)
    (alike :
      StayAlike related (request first.solver) (other second.solver)) :
    StayAlike (RunsAgree since related sameWork)
      (askSolver request first) (askSolver other second) := by
  unfold askSolver
  revert alike
  generalize request first.solver = one
  generalize other second.solver = two
  intro alike
  cases alike with
  | answer next =>
      exact .answer { agree with solver := next }
  | fault next =>
      exact .fault { agree with solver := next }

/-- Observed steps end alike if the steps do, and do not fail. -/
theorem observe_alike_of
    {onAnswer : β → SolveRun σ₁ τ α → SolveRun σ₂ τ α → Prop}
    {onFault never : SolveRun σ₁ τ α → SolveRun σ₂ τ α → Prop}
    {observed :
      Except (Fault α) β → SolveRun σ₁ τ α → SolveRun σ₂ τ α → Prop}
    {step : SolveM σ₁ τ α β}
    {other : SolveM σ₂ τ α β}
    (alike : EndAlike onAnswer onFault (step first) (other second))
    (answers :
      ∀ answer one two, onAnswer answer one two →
        observed (.ok answer) one two)
    (faults :
      ∀ fault one two, onFault one two → observed (.error fault) one two) :
    EndAlike observed never (observe step first) (observe other second) := by
  unfold observe
  revert alike
  generalize step first = one
  generalize other second = two
  intro alike
  cases alike with
  | answer next =>
      exact .answer (answers _ _ _ next)
  | fault next =>
      exact .answer (faults _ _ _ next)

/-- Observed steps keep runs in agreement if the steps do. -/
theorem observe_alike
    {step : SolveM σ₁ τ α β}
    {other : SolveM σ₂ τ α β}
    (alike :
      StayAlike (RunsAgree since related sameWork) (step first) (other second)) :
    StayAlike (RunsAgree since related sameWork)
      (observe step first) (observe other second) :=
  observe_alike_of alike (fun _ _ _ => id) (fun _ _ _ => id)

/-- Timed steps end alike if the steps do, and both leave their phase. -/
theorem timed_alike_of
    {onAnswer leftAnswer : β → SolveRun σ₁ τ α → SolveRun σ₂ τ α → Prop}
    {onFault leftFault : SolveRun σ₁ τ α → SolveRun σ₂ τ α → Prop}
    {name : String}
    {step : SolveM σ₁ τ α β}
    {other : SolveM σ₂ τ α β}
    (alike :
      EndAlike onAnswer onFault
        (step { first with phases := first.phases.enter name })
        (other { second with phases := second.phases.enter name }))
    (answers :
      ∀ answer one two, onAnswer answer one two →
        leftAnswer answer
          { one with phases := one.phases.leave }
          { two with phases := two.phases.leave })
    (faults :
      ∀ one two, onFault one two →
        leftFault
          { one with phases := one.phases.leave }
          { two with phases := two.phases.leave }) :
    EndAlike leftAnswer leftFault
      (timed name step first) (timed name other second) := by
  unfold timed
  revert alike
  generalize step { first with phases := first.phases.enter name } = one
  generalize other { second with phases := second.phases.enter name } = two
  intro alike
  cases alike with
  | answer next =>
      exact .answer (answers _ _ _ next)
  | fault next =>
      exact .fault (faults _ _ next)

/-- Timed steps keep runs in agreement if the steps do. -/
theorem timed_alike
    {nextWork : β → Workspace α → Workspace α → Prop}
    {faultWork : Workspace α → Workspace α → Prop}
    {name : String}
    {step : SolveM σ₁ τ α β}
    {other : SolveM σ₂ τ α β}
    (agree : RunsAgree since related sameWork first second)
    (alike :
      ∀ first second, RunsAgree since related sameWork first second →
        EndAlike
          (fun answer => RunsAgree since related (nextWork answer))
          (RunsAgree since related faultWork)
          (step first) (other second)) :
    EndAlike
      (fun answer => RunsAgree since related (nextWork answer))
      (RunsAgree since related faultWork)
      (timed name step first) (timed name other second) := by
  refine timed_alike_of (alike _ _ (agree.enter name)) ?_ ?_
  · exact fun _ _ _ => RunsAgree.leave
  · exact fun _ _ => RunsAgree.leave

/-- Runs that agree after changes are changed alike. -/
theorem modify_alike
    {change : SolveRun σ₁ τ α → SolveRun σ₁ τ α}
    {other : SolveRun σ₂ τ α → SolveRun σ₂ τ α}
    (agree : RunsAgree since related sameWork (change first) (other second)) :
    StayAlike (RunsAgree since related sameWork)
      ((modify change : SolveM σ₁ τ α PUnit) first)
      ((modify other : SolveM σ₂ τ α PUnit) second) :=
  .answer agree

/-- Settling on one verdict keeps runs in agreement. -/
theorem settle_alike
    (agree : RunsAgree since related sameWork first second)
    (verdict : Verdict α) :
    StayAlike (RunsAgree since related sameWork)
      (settle verdict first) (settle verdict second) :=
  .answer { agree with verdict := rfl }

/-- Prints are taken or refused alike, whatever is printed. -/
theorem notify_alike
    (agree : RunsAgree since related sameWork first second)
    (notice other : Notice α) :
    StayAlike (RunsAgree since related sameWork)
      (notify notice first) (notify other second) := by
  unfold notify
  rw [agree.outlet.refusal?_eq]
  cases second.outlet.refusal? with
  | none =>
      exact .answer { agree with outlet := agree.outlet.afterPrint }
  | some refusal =>
      exact .fault { agree with outlet := agree.outlet.afterPrint }

/-- Announcing findings keeps runs in agreement, under any number. -/
theorem announce_alike
    (agree : RunsAgree since related sameWork first second)
    (task : SolveTask α)
    (number : Nat)
    (explains : Bool)
    (finding : SlaterFinding α) :
    StayAlike (RunsAgree since related sameWork)
      (announce task explains finding first)
      (announce (task.renumbered number) explains finding second) := by
  refine .branch ?_ ?_
  · intro explained
    exact notify_alike agree _ _
  · intro silent
    refine .branch ?_ ?_
    · intro troubled
      exact notify_alike agree _ _
    · intro untroubled
      exact .answer agree

/-- Agreeing runs look at the clock alike. -/
theorem elapsed_alike
    (agree : RunsAgree since related sameWork first second)
    (watch : Nat → α) :
    StayAlike (RunsAgree since related sameWork)
      (elapsed watch first) (elapsed watch second) := by
  unfold elapsed
  rw [agree.clock]
  exact .answer { agree with clock := rfl }

end Steps

variable
  [Scalar α]
  {since : Nat × Nat}
  {related : σ₁ → σ₂ → Prop}
  {sameWork : Workspace α → Workspace α → Prop}
  {first : SolveRun σ₁ τ α}
  {second : SolveRun σ₂ τ α}

theorem timeLeft_alike
    (agree : RunsAgree since related sameWork first second)
    (task : SolveTask α)
    (number : Nat) :
    StayAlike (RunsAgree since related sameWork)
      (timeLeft task first) (timeLeft (task.renumbered number) second) := by
  refine EndAlike.bind (elapsed_alike agree task.watch) (fun _ _ => id) ?_
  intro passed one two agree
  exact .answer agree

theorem timeIsUp_alike
    (agree : RunsAgree since related sameWork first second)
    (task : SolveTask α)
    (number : Nat) :
    StayAlike (RunsAgree since related sameWork)
      (timeIsUp task first) (timeIsUp (task.renumbered number) second) := by
  refine EndAlike.bind (timeLeft_alike agree task number) (fun _ _ => id) ?_
  intro left one two agree
  exact .answer agree

/--
What presolve makes of two workspaces: equal ones but for the compaction, if it
leaves them open.
-/
def AfterPresolve
    (outcome : PresolveOutcome α)
    (first second : Workspace α) :
    Prop :=
  ∀ fixedObjective,
    outcome = .undecided fixedObjective → SameButCompaction first second

/-- Presolve comes to the same outcome in agreeing runs, whatever their workspaces held. -/
theorem presolve_alike
    (agree : RunsAgree since related AnyWork first second)
    (task : SolveTask α)
    (number : Nat) :
    EndAlike
      (fun outcome => RunsAgree since related (AfterPresolve outcome))
      (RunsAgree since related AnyWork)
      (presolve task first) (presolve (task.renumbered number) second) := by
  have sameOutcome :
      (first.work.presolve task.store task.sentinel task.settings).2 =
        (second.work.presolve task.store task.sentinel task.settings).2 :=
    Workspace.presolve_outcome first.work second.work
  have forgets :
      ∀ found fixedObjective,
        first.work.presolve task.store task.sentinel task.settings =
            (found, .ok (.undecided fixedObjective)) →
          second.work.presolve task.store task.sentinel task.settings =
            ({ found with compaction := second.work.compaction },
              .ok (.undecided fixedObjective)) :=
    fun _ _ undecided => Workspace.presolve_forgets undecided second.work
  change EndAlike _ _ (presolve task first) (presolve task second)
  unfold presolve
  dsimp only
  rw [← agree.memory]
  split
  · exact .fault agree.anyWork
  split
  · exact .fault { agree with work := trivial, memory := rfl }
  revert sameOutcome forgets
  generalize
    first.work.presolve task.store task.sentinel task.settings = one
  generalize
    second.work.presolve task.store task.sentinel task.settings = two
  obtain ⟨found, outcome⟩ := one
  obtain ⟨other, otherOutcome⟩ := two
  rintro rfl forgets
  cases outcome with
  | error fault =>
      exact .fault { agree with work := trivial, memory := rfl }
  | ok outcome =>
      cases outcome with
      | infeasible =>
          exact .answer { agree with work := nofun, memory := rfl }
      | allFixed feasible =>
          exact .answer { agree with work := nofun, memory := rfl }
      | undecided fixedObjective =>
          obtain ⟨rfl, _⟩ := Prod.mk.inj (forgets found fixedObjective rfl)
          change
            EndAlike _ _
              (if found.coversFolding task.store first.memory then _ else _)
              (if found.coversFolding task.store first.memory then _ else _)
          split
          · exact .answer { agree with work := fun _ _ => rfl, memory := rfl }
          · exact .fault { agree with work := trivial, memory := rfl }

/-- Equal workspaces but for the compaction are compacted to equal ones. -/
theorem compact_alike
    (agree : RunsAgree since related SameButCompaction first second)
    (task : SolveTask α)
    (number : Nat) :
    EndAlike
      (fun _ => RunsAgree since related Eq)
      (RunsAgree since related AnyWork)
      (compact task first) (compact (task.renumbered number) second) := by
  have sameCompaction :
      second.work.compact task.store second.memory =
        first.work.compact task.store first.memory := by
    rw [show second.work = _ from agree.work, ← agree.memory]
    unfold Workspace.compact
    rw [Workspace.compacted_forgets]
  change EndAlike _ _ (compact task first) (compact task second)
  unfold compact
  rw [sameCompaction]
  cases first.work.compact task.store first.memory with
  | ok work =>
      exact .answer { agree with work := rfl }
  | error fault =>
      exact .fault agree.anyWork

omit [Scalar α] in
/-- Asking the method for one free variable ends alike in agreeing runs. -/
theorem askOneVariable_alike
    [OneVariableSolver τ α]
    (agree : RunsAgree since related sameWork first second)
    (task : SolveTask α)
    (number : Nat)
    (problem : OneVariableProblem α) :
    StayAlike (RunsAgree since related sameWork)
      (askOneVariable task problem first)
      (askOneVariable (task.renumbered number) problem second) := by
  change
    StayAlike _ (askOneVariable task problem first)
      (askOneVariable task problem second)
  unfold askOneVariable
  rw [agree.oneVariable]
  cases OneVariableSolver.solve task.sentinel problem second.oneVariable with
  | ok solution method =>
      exact .answer { agree with oneVariable := rfl }
  | error fault method =>
      exact .fault { agree with oneVariable := rfl }

/-- The path for one free variable does not read the compaction. -/
theorem solveOneVariable_alike
    [OneVariableSolver τ α]
    (agree : RunsAgree since related SameButCompaction first second)
    (task : SolveTask α)
    (number : Nat)
    (fixedObjective : α) :
    StayAlike (RunsAgree since related SameButCompaction)
      (solveOneVariable task fixedObjective first)
      (solveOneVariable (task.renumbered number) fixedObjective second) := by
  have sameStep :
      oneVariableStep task fixedObjective second.work =
        (oneVariableStep task fixedObjective first.work :
          SolveM σ₂ τ α (Option (OneVariableResult α))) := by
    rw [show second.work = _ from agree.work]
    rfl
  change
    StayAlike _ (oneVariableStep task fixedObjective first.work first)
      (oneVariableStep task fixedObjective second.work second)
  rw [sameStep]
  unfold oneVariableStep
  rcases first.work.activeVariables with _ | ⟨var, _ | ⟨another, others⟩⟩
  · exact .answer agree
  · rcases task.store.blocks with _ | ⟨block, _ | ⟨another, blocks⟩⟩
    · exact .answer agree
    · refine
        EndAlike.bind (askOneVariable_alike agree task number _)
          (fun _ _ => id) ?_
      intro solution one two agree
      exact .answer agree
    · exact .answer agree
  · exact .answer agree

section Solvers

variable [Solver σ₁ α] [Solver σ₂ α]

omit [Scalar α] in
/-- The solvers of agreeing runs report the same. -/
theorem report_alike
    (alike : AnswerAlike related)
    (agree : RunsAgree since related sameWork first second) :
    StayAlike (RunsAgree since related sameWork) (report first) (report second) := by
  change
    StayAlike _ (.ok (Solver.report first.solver) first)
      (.ok (Solver.report second.solver) second)
  rw [alike.report _ _ agree.solver]
  exact .answer agree

theorem addUsage_alike
    (alike : AnswerAlike related)
    (agree : RunsAgree since related sameWork first second) :
    StayAlike (RunsAgree since related sameWork)
      (addUsage first) (addUsage second) := by
  refine .answer { agree with usage := ?_ }
  dsimp only
  rw [agree.usage, alike.report _ _ agree.solver]

theorem improveBound_alike
    (alike : AnswerAlike related)
    (agree : RunsAgree since related sameWork first second)
    (settings : Settings α) :
    StayAlike (RunsAgree since related sameWork)
      (improveBound settings first) (improveBound settings second) := by
  refine .answer ?_
  dsimp only
  rw [agree.bestBound, alike.report _ _ agree.solver]
  split
  · split
    · exact { agree with bestBound := rfl }
    · exact agree
  · exact agree

/-- Requests for the problem of equal workspaces are equal, and end alike. -/
theorem solvePrepared_alike
    (alike : AnswerAlike related)
    (agree : RunsAgree since related Eq first second)
    (task : SolveTask α)
    (number : Nat)
    (penalty : Option (PenaltyRequest α))
    (start : Option (WarmStart α))
    (setting : SolverSetting) :
    StayAlike (RunsAgree since related Eq)
      (solvePrepared task penalty start setting first)
      (solvePrepared (task.renumbered number) penalty start setting second) := by
  refine EndAlike.bind (timeLeft_alike agree task number) (fun _ _ => id) ?_
  intro left one two agree
  change
    StayAlike _
      (askSolver
        (Solver.solve
          {
            problem := PreparedProblem.ofWorkspace task.store one.work
            penalty := penalty
            start := start
            setting := setting
            timeLeft := left
          }) one)
      (askSolver
        (Solver.solve
          {
            problem := PreparedProblem.ofWorkspace task.store two.work
            penalty := penalty
            start := start
            setting := setting
            timeLeft := left
          }) two)
  rw [agree.work]
  exact askSolver_alike agree (alike.solve _ _ _ agree.solver)

theorem solveDirectly_alike
    (alike : AnswerAlike related)
    (agree : RunsAgree since related Eq first second)
    (task : SolveTask α)
    (number : Nat) :
    StayAlike (RunsAgree since related Eq)
      (solveDirectly task first)
      (solveDirectly (task.renumbered number) second) := by
  refine
    EndAlike.bind (solvePrepared_alike alike agree task number _ _ _)
      (fun _ _ => id) ?_
  intro outcome one two agree
  exact addUsage_alike alike agree

theorem findDual_alike
    (alike : AnswerAlike related)
    (agree : RunsAgree since related Eq first second)
    (task : SolveTask α)
    (number : Nat) :
    StayAlike (RunsAgree since related Eq)
      (findDual task first) (findDual (task.renumbered number) second) := by
  refine
    EndAlike.bind
      (observe_alike (solvePrepared_alike alike agree task number _ _ _))
      (fun _ _ => id) ?_
  intro answer one two agree
  cases answer with
  | error fault =>
      exact .answer agree
  | ok outcome =>
      refine EndAlike.bind (report_alike alike agree) (fun _ _ => id) ?_
      intro seen one two agree
      exact .answer agree

theorem findPrimal_alike
    (alike : AnswerAlike related)
    (agree : RunsAgree since related Eq first second)
    (task : SolveTask α)
    (number : Nat) :
    StayAlike (RunsAgree since related Eq)
      (findPrimal task first)
      (findPrimal (task.renumbered number) second) := by
  change
    StayAlike _
      ((if _ then _ else _ : SolveM σ₁ τ α PrimalFinding) first)
      ((if _ then _ else _ : SolveM σ₂ τ α PrimalFinding) second)
  rw [agree.work]
  refine .branch ?_ ?_
  · intro bounded
    exact .answer agree
  · intro unbounded
    refine EndAlike.bind (timeLeft_alike agree task number) (fun _ _ => id) ?_
    intro left one two agree
    refine
      EndAlike.bind
        (observe_alike
          (askSolver_alike agree (alike.solve _ _ _ agree.solver)))
        (fun _ _ => id) ?_
    intro answer one two agree
    cases answer with
    | error fault =>
        exact .answer agree
    | ok outcome =>
        refine EndAlike.bind (report_alike alike agree) (fun _ _ => id) ?_
        intro seen one two agree
        exact .answer agree

theorem checkSlater_alike
    (alike : AnswerAlike related)
    (agree : RunsAgree since related Eq first second)
    (task : SolveTask α)
    (number : Nat)
    (explains : Bool) :
    StayAlike (RunsAgree since related Eq)
      (checkSlater task explains first)
      (checkSlater (task.renumbered number) explains second) := by
  refine
    EndAlike.bind (findDual_alike alike agree task number) (fun _ _ => id) ?_
  intro dual one two agree
  refine
    EndAlike.bind
      (modify_alike { agree with slater := by simp only [agree.slater] })
      (fun _ _ => id) ?_
  intro _ one two agree
  refine
    EndAlike.bind (announce_alike agree task number explains (.dual dual))
      (fun _ _ => id) ?_
  intro _ one two agree
  refine
    EndAlike.bind (findPrimal_alike alike agree task number)
      (fun _ _ => id) ?_
  intro primal one two agree
  refine
    EndAlike.bind
      (modify_alike { agree with slater := by simp only [agree.slater] })
      (fun _ _ => id) ?_
  intro _ one two agree
  exact announce_alike agree task number explains (.primal primal)

/-- One round of an escalation goes alike. -/
theorem escalateOnce_alike
    (alike : AnswerAlike related)
    (agree : RunsAgree since related Eq first second)
    (task : SolveTask α)
    (number : Nat)
    (escalation : Escalation α) :
    StayAlike (RunsAgree since related Eq)
      (escalateOnce task escalation first)
      (escalateOnce (task.renumbered number) escalation second) := by
  refine
    EndAlike.bind (solvePrepared_alike alike agree task number _ _ _)
      (fun _ _ => id) ?_
  intro outcome one two agree
  refine EndAlike.bind (addUsage_alike alike agree) (fun _ _ => id) ?_
  intro _ one two agree
  refine EndAlike.bind (report_alike alike agree) (fun _ _ => id) ?_
  intro seen one two agree
  refine
    EndAlike.bind (improveBound_alike alike agree task.settings)
      (fun _ _ => id) ?_
  intro _ one two agree
  refine .branch ?_ ?_
  · intro tightens
    refine
      EndAlike.bind
        (askSolver_alike agree (alike.forward _ _ agree.solver))
        (fun _ _ => id) ?_
    intro _ one two agree
    exact .answer agree
  · intro keeps
    exact .answer agree

/-- So do all rounds, by induction on their number. -/
theorem escalate_alike
    (alike : AnswerAlike related)
    (agree : RunsAgree since related Eq first second)
    (task : SolveTask α)
    (number rounds : Nat)
    (escalation : Escalation α) :
    StayAlike (RunsAgree since related Eq)
      (escalate task rounds escalation first)
      (escalate (task.renumbered number) rounds escalation second) := by
  induction rounds generalizing first second escalation with
  | zero =>
      exact .answer agree
  | succ rounds inductionHypothesis =>
      refine .branch ?_ ?_
      · intro finished
        exact .answer agree
      · intro unfinished
        refine
          EndAlike.bind (timeIsUp_alike agree task number) (fun _ _ => id) ?_
        intro isUp one two agree
        refine .branch ?_ ?_
        · intro timeIsUp
          exact .answer agree
        · intro timeIsLeft
          refine
            EndAlike.bind
              (escalateOnce_alike alike agree task number escalation)
              (fun _ _ => id) ?_
          intro further one two agree
          exact inductionHypothesis agree further

omit [Scalar α] in
theorem restoreGap_alike
    (alike : AnswerAlike related)
    (agree : RunsAgree since related sameWork first second)
    (task : SolveTask α)
    (number : Nat)
    (last : Escalation α) :
    StayAlike (RunsAgree since related sameWork)
      (restoreGap task last first)
      (restoreGap (task.renumbered number) last second) := by
  refine .branch ?_ ?_
  · intro tightened
    exact askSolver_alike agree (alike.forward _ _ agree.solver)
  · intro kept
    exact .answer agree

theorem settleRecovery_alike
    (alike : AnswerAlike related)
    (agree : RunsAgree since related Eq first second)
    (task : SolveTask α)
    (number : Nat)
    (last : Escalation α) :
    StayAlike (RunsAgree since related Eq)
      (settleRecovery task last first)
      (settleRecovery (task.renumbered number) last second) := by
  refine .branch ?_ ?_
  · intro succeeded
    exact settle_alike agree _
  · intro failed
    refine EndAlike.bind (settle_alike agree _) (fun _ _ => id) ?_
    intro _ one two agree
    refine .branch ?_ ?_
    · intro explains
      exact checkSlater_alike alike agree task number true
    · intro silent
      exact .answer agree

/-- Recoveries of agreeing runs go alike. -/
theorem recover_alike
    (alike : AnswerAlike related)
    (agree : RunsAgree since related Eq first second)
    (task : SolveTask α)
    (number : Nat) :
    StayAlike (RunsAgree since related Eq)
      (recover task first) (recover (task.renumbered number) second) := by
  rw [recover_eq, recover_eq]
  refine
    EndAlike.bind (solvePrepared_alike alike agree task number _ _ _)
      (fun _ _ => id) ?_
  intro outcome one two agree
  refine EndAlike.bind (addUsage_alike alike agree) (fun _ _ => id) ?_
  intro _ one two agree
  refine EndAlike.bind (report_alike alike agree) (fun _ _ => id) ?_
  intro seen one two agree
  refine .branch ?_ ?_
  · intro proves
    exact settle_alike agree _
  · intro open_
    refine
      EndAlike.bind (escalate_alike alike agree task number _ _)
        (fun _ _ => id) ?_
    intro last one two agree
    refine
      EndAlike.bind (restoreGap_alike alike agree task number last)
        (fun _ _ => id) ?_
    intro _ one two agree
    exact settleRecovery_alike alike agree task number last

theorem openWithSlater_alike
    (alike : AnswerAlike related)
    (agree : RunsAgree since related Eq first second)
    (task : SolveTask α)
    (number : Nat) :
    StayAlike (RunsAgree since related Eq)
      (openWithSlater task first)
      (openWithSlater (task.renumbered number) second) := by
  refine .branch ?_ ?_
  · intro asked
    refine timed_alike agree ?_
    intro one two agree
    exact checkSlater_alike alike agree task number false
  · intro isOff
    exact .answer agree

theorem acceptOrRecover_alike
    (alike : AnswerAlike related)
    (agree : RunsAgree since related Eq first second)
    (task : SolveTask α)
    (number : Nat) :
    StayAlike (RunsAgree since related Eq)
      (acceptOrRecover task first)
      (acceptOrRecover (task.renumbered number) second) := by
  refine EndAlike.bind (report_alike alike agree) (fun _ _ => id) ?_
  intro seen one two agree
  refine .branch ?_ ?_
  · intro acceptable
    exact .answer agree
  · intro unacceptable
    refine
      EndAlike.bind (timeIsUp_alike agree task number) (fun _ _ => id) ?_
    intro isUp one two agree
    refine .branch ?_ ?_
    · intro timeIsUp
      exact .answer agree
    · intro timeIsLeft
      refine timed_alike agree ?_
      intro one two agree
      exact recover_alike alike agree task number

/-- With equal workspaces, the part of a solve with the solver goes alike. -/
theorem solveBySolver_alike
    (alike : AnswerAlike related)
    (agree : RunsAgree since related Eq first second)
    (task : SolveTask α)
    (number : Nat) :
    StayAlike (RunsAgree since related Eq)
      (solveBySolver task first)
      (solveBySolver (task.renumbered number) second) := by
  refine
    EndAlike.bind (openWithSlater_alike alike agree task number)
      (fun _ _ => id) ?_
  intro _ one two agree
  have solved :
      StayAlike (RunsAgree since related Eq)
        (timed "backend" (solveDirectly task) one)
        (timed "backend" (solveDirectly (task.renumbered number)) two) := by
    refine timed_alike agree ?_
    intro one two agree
    exact solveDirectly_alike alike agree task number
  refine EndAlike.bind solved (fun _ _ => id) ?_
  intro _ one two agree
  refine EndAlike.bind (settle_alike agree _) (fun _ _ => id) ?_
  intro _ one two agree
  exact acceptOrRecover_alike alike agree task number

/-- Runs that agree at the end of a solve, with equal workspaces if the solver was asked. -/
structure SettledAlike
    (since : Nat × Nat)
    (related : σ₁ → σ₂ → Prop)
    (first : SolveRun σ₁ τ α)
    (second : SolveRun σ₂ τ α) :
    Prop where
  agree : RunsAgree since related AnyWork first second
  work : first.verdict.IsDirect ∨ first.work = second.work

omit [Scalar α] in
/-- A verdict that takes no call is settled alike. -/
theorem settleDirectly_alike
    (alike : AnswerAlike related)
    (agree : RunsAgree since related sameWork first second)
    (verdict : Verdict α)
    (direct : verdict.IsDirect)
    (count : Tally → Tally) :
    EndAlike
      (fun _ => SettledAlike since related)
      (RunsAgree since related AnyWork)
      (settleDirectly verdict count first)
      (settleDirectly verdict count second) := by
  refine .answer ⟨?_, .inl direct⟩
  exact
    {
      agree with
      solver := alike.countProblem _ _ agree.solver
      work := trivial
      verdict := rfl
    }

variable [OneVariableSolver τ α]

/-- What presolve leaves open is solved alike. -/
theorem solveUndecided_alike
    (alike : AnswerAlike related)
    (agree : RunsAgree since related SameButCompaction first second)
    (task : SolveTask α)
    (number : Nat)
    (fixedObjective : α) :
    EndAlike
      (fun _ => SettledAlike since related)
      (RunsAgree since related AnyWork)
      (solveUndecided task fixedObjective first)
      (solveUndecided (task.renumbered number) fixedObjective second) := by
  rw [solveUndecided_eq, solveUndecided_eq]
  have tried :
      StayAlike (RunsAgree since related SameButCompaction)
        (timed "onevar" (solveOneVariable task fixedObjective) first)
        (timed "onevar"
          (solveOneVariable (task.renumbered number) fixedObjective)
          second) := by
    refine timed_alike agree ?_
    intro one two agree
    exact solveOneVariable_alike agree task number fixedObjective
  refine EndAlike.bind tried (fun _ _ => RunsAgree.anyWork) ?_
  intro result one two agree
  cases result with
  | some result =>
      exact settleDirectly_alike alike agree (.oneVariable result) trivial _
  | none =>
      have compacted :
          EndAlike
            (fun _ => RunsAgree since related Eq)
            (RunsAgree since related AnyWork)
            (timed "preprocess" (compact task) one)
            (timed "preprocess" (compact (task.renumbered number)) two) := by
        refine timed_alike agree ?_
        intro one two agree
        exact compact_alike agree task number
      refine EndAlike.bind compacted (fun _ _ => id) ?_
      intro _ one two agree
      refine (solveBySolver_alike alike agree task number).mono ?_ ?_
      · intro _ one two agree
        exact ⟨agree.anyWork, .inr agree.work⟩
      · exact fun _ _ => RunsAgree.anyWork

/-- Agreeing runs solve a problem alike, whatever their workspaces held before. -/
theorem solve_alike
    (alike : AnswerAlike related)
    (agree : RunsAgree since related AnyWork first second)
    (task : SolveTask α)
    (number : Nat) :
    EndAlike
      (fun _ => SettledAlike since related)
      (RunsAgree since related AnyWork)
      (solve task first) (solve (task.renumbered number) second) := by
  refine .branch ?_ ?_
  · intro contradicts
    exact settleDirectly_alike alike agree (.infeasible .presolve) trivial _
  intro consistent
  have presolved :
      EndAlike
        (fun outcome => RunsAgree since related (AfterPresolve outcome))
        (RunsAgree since related AnyWork)
        (timed "preprocess" (presolve task) first)
        (timed "preprocess" (presolve (task.renumbered number)) second) := by
    refine timed_alike agree ?_
    intro one two agree
    exact presolve_alike agree task number
  refine EndAlike.bind presolved (fun _ _ => id) ?_
  intro outcome one two agree
  cases outcome with
  | infeasible =>
      exact settleDirectly_alike alike agree (.infeasible .presolve) trivial _
  | allFixed feasible =>
      cases feasible with
      | true =>
          exact settleDirectly_alike alike agree .allFixed trivial _
      | false =>
          exact settleDirectly_alike alike agree (.infeasible .fixedPoint) trivial _
  | undecided fixedObjective =>
      refine solveUndecided_alike alike ?_ task number fixedObjective
      exact { agree with work := agree.work fixedObjective rfl }

end Solvers

end SolveM

end SdpRelay
