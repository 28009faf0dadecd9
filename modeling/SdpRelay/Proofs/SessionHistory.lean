import SdpRelay.Proofs.SolveOutcomes
import SdpRelay.Proofs.StoreRefinement
import SdpRelay.Session.File

namespace SdpRelay

/-!
# Histories of sessions

A session is made, copied or restored, and then takes part in any sequence of
operations, each of which may fail.  Whatever the history, the clock of a session
is stopped between operations, and the indices of its problem are in range.

What a solve does follows from the problem, the settings, the solver, the method for
one free variable, and the surroundings alone: the sentinel, the memory and the print
target.  Two sessions that agree in these send their solvers the same calls and come
to the same outcome, whatever their histories.
-/

variable {σ τ α β γ : Type}

/-- What can be done to a session. -/
inductive Operation (α : Type) where
  | edit (change : Edit α)
  | setSentinel (sentinel : α)
  | updateSettings (settings : Settings α)
  | setReal (parameter : Parameter) (value : α)
  | setInteger (parameter : Parameter) (value : Int32)
  | guessScaling (largest : α)
  | choosePenalty (coefficient : α)
  | chooseMaxPenalty (penalty : α)
  | takeNotices
  | redirect (outlet : Outlet)
  | setMemory (memory : Memory)
  | solve (options : SolveOptions α) (watch : Nat → α)

namespace Operation

variable [Scalar α] [Solver σ α] [OneVariableSolver τ α]

/-- Perform an operation on a session. -/
def perform : Operation α → SessionM σ τ α Unit
  | .edit change => change.perform
  | .setSentinel sentinel => Session.setSentinel sentinel
  | .updateSettings settings => Session.updateSettings settings
  | .setReal parameter value => Session.setReal parameter value
  | .setInteger parameter value => Session.setInteger parameter value
  | .guessScaling largest => Session.guessScaling largest
  | .choosePenalty coefficient => discard (Session.choosePenalty coefficient)
  | .chooseMaxPenalty penalty => discard (Session.chooseMaxPenalty penalty)
  | .takeNotices => modify fun session => session.takeNotices.2
  | .redirect outlet => Session.redirect outlet
  | .setMemory memory => Session.setMemory memory
  | .solve options watch => Session.solve options watch

/-- The session after an operation, whether it failed or not. -/
def performed
    (session : Session σ τ α)
    (operation : Operation α) :
    Session σ τ α :=
  stateAfter (operation.perform session)

end Operation

/-- The sessions that some history leads to. -/
inductive Session.Reachable
    [Scalar α]
    [Solver σ α]
    [OneVariableSolver τ α] :
    Session σ τ α → Prop where
  | assembled (sentinel settings solver oneVariable) :
      Reachable (Session.assemble sentinel settings solver oneVariable)
  | created {sentinel settings solver oneVariable session}
      (created :
        Session.create sentinel settings solver oneVariable = .ok session) :
      Reachable session
  | restored {format text sentinel solver oneVariable session}
      (restored :
        Session.restore format text sentinel solver oneVariable =
          .ok session) :
      Reachable session
  | copied {session copy : Session σ τ α} {solver oneVariable}
      (before : Reachable session)
      (copied : session.copyWith solver oneVariable = .ok copy) :
      Reachable copy
  | operated {session}
      (before : Reachable session)
      (operation : Operation α) :
      Reachable (operation.performed session)

namespace Session

open SessionM

section Keeping

variable {view : Session σ τ α → γ}

theorem keeps_liftExcept
    {ε : Type}
    (wrap : ε → Fault α)
    (result : Except ε β) :
    Keeps view (liftExcept wrap result : SessionM σ τ α β) := by
  cases result with
  | ok answer => exact .pure answer
  | error fault => exact .throw (wrap fault)

/-- A step of a run leaves alone what is not in the run. -/
theorem keeps_onRun
    {step : SolveM σ τ α β}
    (outside :
      ∀ (session : Session σ τ α) run,
        view { session with run := run } = view session) :
    Keeps view (onRun step) := by
  intro session
  unfold onRun
  cases step session.run with
  | ok answer run => exact outside session run
  | error fault run => exact outside session run

end Keeping

/-- What an operation on the settings and the solver leaves alone. -/
def base (session : Session σ τ α) : Store α × Clock :=
  (session.store, session.run.clock)

/-- A look at a session that does not see what operations other than edits and solves change. -/
structure OverlooksCalls (view : Session σ τ α → γ) : Prop where
  sentinel :
    ∀ (session : Session σ τ α) sentinel,
      view { session with sentinel := sentinel } = view session
  settings :
    ∀ (session : Session σ τ α) settings,
      view { session with settings := settings } = view session
  solver :
    ∀ (session : Session σ τ α) solver,
      view { session with run := { session.run with solver := solver } } =
        view session
  printed :
    ∀ (session : Session σ τ α) outlet notices,
      view
          {
            session with
            run := { session.run with outlet := outlet, notices := notices }
          } =
        view session
  memory :
    ∀ (session : Session σ τ α) memory,
      view { session with run := { session.run with memory := memory } } =
        view session

theorem base_overlooks : OverlooksCalls (base : Session σ τ α → _) where
  sentinel _ _ := rfl
  settings _ _ := rfl
  solver _ _ := rfl
  printed _ _ _ := rfl
  memory _ _ := rfl

section Untold

variable
  {view : Session σ τ α → γ}
  (untold :
    ∀ (session : Session σ τ α) solver,
      view { session with run := { session.run with solver := solver } } =
        view session)

include untold

/-- A request to the solver leaves alone what does not see the solver. -/
theorem askSolver_keepsUntold (request : EStateM SolverFault σ β) :
    Keeps view (onRun (SolveM.askSolver request) : SessionM σ τ α β) := by
  intro session
  unfold onRun SolveM.askSolver
  cases request session.run.solver with
  | ok answer solver => exact untold session solver
  | error fault solver => exact untold session solver

theorem assignAtSolver_keepsUntold
    (parameter : Parameter)
    (assignment : EStateM SolverFault σ Unit) :
    Keeps view (assignAtSolver parameter assignment : SessionM σ τ α Unit) := by
  intro session
  unfold assignAtSolver
  cases assignment session.run.solver with
  | ok answer solver => exact untold session solver
  | error fault solver => exact untold session solver

variable [Solver σ α]

theorem forward_keepsUntold
    (parameter : Parameter)
    (value : α) :
    Keeps view (forward parameter value : SessionM σ τ α Unit) :=
  askSolver_keepsUntold untold _

theorem forwardSettings_keepsUntold :
    Keeps view (forwardSettings : SessionM σ τ α Unit) :=
  .bind .get fun _ =>
    .forM _ fun shared => forward_keepsUntold untold shared.1 shared.2

end Untold

namespace OverlooksCalls

variable
  {view : Session σ τ α → γ}
  (overlooks : OverlooksCalls view)

include overlooks

theorem putSettings_keeps (settings : Settings α) :
    Keeps view (putSettings settings : SessionM σ τ α Unit) :=
  .modify fun session => overlooks.settings session settings

variable [Solver σ α]

theorem setInteger_keeps
    (parameter : Parameter)
    (value : Int32) :
    Keeps view (setInteger parameter value : SessionM σ τ α Unit) := by
  refine .bind .get fun session => ?_
  split
  · split
    · exact overlooks.putSettings_keeps _
    · exact .throw _
  · split
    · exact .throw _
    · exact overlooks.putSettings_keeps _
  · split
    · exact .throw _
    · exact assignAtSolver_keepsUntold overlooks.solver parameter _

variable [Scalar α]

theorem setOwnReal_keeps
    (parameter : Parameter)
    (value : α) :
    Keeps view (setOwnReal parameter value : SessionM σ τ α Unit) := by
  refine .bind .get fun session => ?_
  refine .bind (keeps_liftExcept _ _) fun _ => ?_
  refine .bind (overlooks.putSettings_keeps _) fun _ => ?_
  split
  · exact forward_keepsUntold overlooks.solver parameter value
  · split
    · exact forward_keepsUntold overlooks.solver _ _
    · exact .pure _

theorem setReal_keeps
    (parameter : Parameter)
    (value : α) :
    Keeps view (setReal parameter value : SessionM σ τ α Unit) := by
  unfold setReal
  split
  · exact .throw _
  · split
    · exact assignAtSolver_keepsUntold overlooks.solver parameter _
    · exact overlooks.setOwnReal_keeps parameter value

theorem choosePenalty_keeps (coefficient : α) :
    Keeps view (choosePenalty coefficient : SessionM σ τ α α) := by
  refine .bind .get fun session => ?_
  refine .bind (keeps_liftExcept _ _) fun suggested => ?_
  refine .bind (overlooks.putSettings_keeps _) fun _ => ?_
  exact .bind (forward_keepsUntold overlooks.solver _ _) fun _ => .pure _

theorem chooseMaxPenalty_keeps (penalty : α) :
    Keeps view (chooseMaxPenalty penalty : SessionM σ τ α α) := by
  refine .bind .get fun session => ?_
  refine .bind (keeps_liftExcept _ _) fun suggested => ?_
  split
  · refine .bind (overlooks.putSettings_keeps _) fun _ => ?_
    exact .bind (forward_keepsUntold overlooks.solver _ _) fun _ => .pure _
  · exact .bind (overlooks.putSettings_keeps _) fun _ => .pure _

end OverlooksCalls

variable [Solver σ α] [Scalar α]

/-- The problem of a session, and what else a solve only reads. -/
def assignment (session : Session σ τ α) : α × Store α × Settings α :=
  (session.sentinel, session.store, session.settings)

omit [Solver σ α] [Scalar α] in
theorem startClock_keepsAssignment :
    Keeps assignment (startClock : SessionM σ τ α Unit) := by
  refine .bind .get fun session => ?_
  refine .bind (keeps_liftExcept _ _) fun chosen => ?_
  exact .bind (keeps_liftExcept _ _) fun started => .modify fun _ => rfl

omit [Solver σ α] [Scalar α] in
/-- Stopping the clock leaves alone what does not look at it. -/
theorem stopClock_keeps
    {view : Session σ τ α → γ}
    (untimed :
      ∀ (session : Session σ τ α) clock,
        view { session with run := { session.run with clock := clock } } =
          view session) :
    Keeps view (stopClock : SessionM σ τ α Unit) := by
  refine .bind .get fun session => ?_
  refine .bind (keeps_liftExcept _ _) fun stopped => ?_
  exact .modify fun session => untimed session stopped

/-- Printing the account of a solve leaves alone what is not printed. -/
theorem printSummary_keeps
    {view : Session σ τ α → γ}
    (unprinted :
      ∀ (session : Session σ τ α) outlet notices,
        view
            {
              session with
              run := { session.run with outlet := outlet, notices := notices }
            } =
          view session) :
    Keeps view (printSummary : SessionM σ τ α Unit) := by
  refine .bind .get fun session => ?_
  split
  · intro session
    unfold onRun SolveM.notify
    cases session.run.outlet.refusal? with
    | none => exact unprinted session _ _
    | some refusal => exact unprinted session _ session.run.notices
  · exact .pure _

/-- Hand on the result of a solve; if there is one, print its account and count it. -/
def conclude (result : Except (Fault α) Unit) : SessionM σ τ α Unit := do
  liftExcept id result
  printSummary
  modify fun session =>
    { session with problemNumber := session.problemNumber + 1 }

/-- The conclusion of a solve leaves alone all but the prints and the count. -/
theorem conclude_keeps
    {view : Session σ τ α → γ}
    (unprinted :
      ∀ (session : Session σ τ α) outlet notices,
        view
            {
              session with
              run := { session.run with outlet := outlet, notices := notices }
            } =
          view session)
    (uncounted :
      ∀ (session : Session σ τ α) number,
        view { session with problemNumber := number } = view session)
    (result : Except (Fault α) Unit) :
    Keeps view (conclude result) := by
  refine .bind (keeps_liftExcept _ _) fun _ => ?_
  refine .bind (printSummary_keeps unprinted) fun _ => ?_
  exact .modify fun session => uncounted session _

variable [OneVariableSolver τ α]

/-- A solve does not change the problem that it solves. -/
theorem solve_keepsAssignment
    (options : SolveOptions α)
    (watch : Nat → α) :
    Keeps assignment (solve options watch : SessionM σ τ α Unit) := by
  have solveTask_keeps (task : SolveTask α) :
      Keeps assignment (solveTask task : SessionM σ τ α Unit) := by
    refine .bind startClock_keepsAssignment fun _ => ?_
    refine .bind (keeps_onRun fun _ _ => rfl) fun result => ?_
    refine .bind (stopClock_keeps fun _ _ => rfl) fun _ => ?_
    exact conclude_keeps (fun _ _ _ => rfl) (fun _ _ => rfl) result
  intro session
  rw [solve_eq]
  split
  · rfl
  · exact solveTask_keeps _ session.cleared

/-- A solve that finds the clock stopped leaves it stopped, however it ends. -/
theorem solve_stopsClock
    {session : Session σ τ α}
    (stopped : session.run.clock.running = false)
    (options : SolveOptions α)
    (watch : Nat → α) :
    (stateAfter (solve options watch session)).run.clock.running = false := by
  have solveTask_stops (task : SolveTask α) :
      Ends
        (fun _ next => next.run.clock.running = false)
        (fun _ next => next.run.clock.running = false)
        (solveTask task session.cleared) := by
    have started :
        Ends
          (fun _ _ => True)
          (fun _ next => next.run.clock.running = false)
          (startClock session.cleared) := by
      rw [startClock_eq]
      split
      · exact stopped
      · trivial
    refine Ends.bind started (fun _ _ => id) ?_
    intro _ going _
    have observed :
        Ends
          (fun _ _ => True)
          (fun _ _ => False)
          (SolveM.observe (SolveM.timed "solve" (SolveM.solve task))
            going.run) :=
      SolveM.observe_ends (Ends.always_iff.mpr trivial)
    refine Ends.bind (onRun_ends observed) (fun _ _ => False.elim) ?_
    intro result ended _
    have halted :
        Ends
          (fun _ next => next.run.clock.running = false)
          (fun _ next => next.run.clock.running = false)
          (stopClock ended) := by
      rw [stopClock_eq]
      split
      · rfl
      · rename_i notRunning
        exact Bool.eq_false_iff.mpr notRunning
    refine Ends.bind halted (fun _ _ => id) ?_
    intro _ next isStopped
    have concludes :
        Keeps
          (fun session : Session σ τ α => session.run.clock.running)
          (conclude result) :=
      conclude_keeps (fun _ _ _ => rfl) (fun _ _ => rfl) result
    exact Ends.always_iff.mpr ((concludes next).trans isStopped)
  rw [solve_eq]
  split
  · exact stopped
  · exact Ends.always_iff.mp (solveTask_stops _)

end Session

/-- The indices of a program are in range, and its matrices fit its blocks. -/
structure Program.Indexed (program : Program α) : Prop where
  rows :
    ∀ row ∈ program.rows, ∀ var ∈ row.vars, var < program.objective.length
  blocks :
    ∀ block ∈ program.blocks, block.Acceptable program.objective.length

/-- The indices of a store are in range if those of the program that it holds are. -/
theorem Store.Represents.inRange
    {store : Store α}
    {program : Program α}
    (represents : store.Represents program)
    (indexed : program.Indexed) :
    (∀ row ∈ store.rows.toRows, ∀ var ∈ row.vars, var < store.lower.length) ∧
      ∀ block ∈ store.blocks, block.Acceptable store.variableCount := by
  rw [represents.lowerLength, variableCount, represents.objective,
    represents.blocks, represents.rows,
    RowTable.toRows_ofRows represents.balanced]
  exact ⟨indexed.rows, indexed.blocks⟩

namespace Edit

variable [Scalar α]

/-- No edit puts an index out of range. -/
theorem applied_indexed
    {program : Program α}
    (indexed : program.Indexed)
    (sentinel : α)
    (edit : Edit α) :
    (edit.applied sentinel program).Indexed := by
  unfold applied
  split
  · rename_i wellFormed
    cases edit with
    | load loaded =>
        exact
          ⟨fun row member => (wellFormed.rows row member).known,
            wellFormed.blocks⟩
    | addRows rows =>
        refine ⟨?_, indexed.blocks⟩
        intro row member
        rcases List.mem_append.mp member with old | new
        · exact indexed.rows row old
        · exact (wellFormed row new).known
    | deleteRows first last =>
        refine ⟨?_, indexed.blocks⟩
        intro row member
        rcases List.mem_append.mp member with before | behind
        · exact indexed.rows row (List.mem_of_mem_take before)
        · exact indexed.rows row (List.mem_of_mem_drop behind)
    | deleteRowSet flags =>
        refine ⟨?_, indexed.blocks⟩
        intro row member
        exact indexed.rows row (mem_of_mem_unflagged member)
    | changeObjective vars values =>
        have sameCount :
            ((changeObjective vars values).apply program).objective.length =
              program.objective.length := by
          simp only [apply, length_replaced]
        exact
          ⟨by rw [sameCount]; exact indexed.rows,
            by rw [sameCount]; exact indexed.blocks⟩
    | changeBounds vars lowers uppers =>
        exact ⟨indexed.rows, indexed.blocks⟩
    | changeSides rows lefts rights =>
        refine ⟨?_, indexed.blocks⟩
        exact
          forall_mem_replaced
            (fun row (sides : α × α) => LinearRow.withSides row sides.1 sides.2)
            (fun _ _ inRange => inRange) indexed.rows
            (rows.zip (lefts.zip rights))
    | clear =>
        exact
          ⟨fun _ member => absurd member List.not_mem_nil,
            fun _ member => absurd member List.not_mem_nil⟩
  · exact indexed

variable [Solver σ α]

/-- An edit leaves alone what is neither stored nor found out nor counted. -/
theorem perform_keeps
    {view : Session σ τ α → γ}
    (unstored :
      ∀ (session : Session σ τ α) store,
        view { session with store := store } = view session)
    (withoutResult :
      ∀ session : Session σ τ α,
        view { session with run := session.run.withoutResult } = view session)
    (withoutFindings :
      ∀ session : Session σ τ α,
        view session.cleared = view session)
    (uncounted :
      ∀ session : Session σ τ α,
        view
            {
              session with
              problemNumber := 1
              run :=
                {
                  session.run with
                  solver := Solver.resetCount session.run.solver
                }
            } =
          view session)
    (change : Edit α) :
    Keeps view (change.perform : SessionM σ τ α Unit) := by
  have edit_keeps
      (edited : Session σ τ α → Except (StoreFault α) (Store α)) :
      Keeps view (Session.edit edited) :=
    .bind .get fun session =>
      .bind (Session.keeps_liftExcept _ _) fun store =>
        .modify fun session => unstored session store
  have dropFindings_keeps :
      Keeps view (Session.dropFindings : SessionM σ τ α Unit) :=
    .modify withoutFindings
  cases change with
  | deleteRowSet flags =>
      refine .discard (.bind dropFindings_keeps fun _ => ?_)
      refine .bind .get fun session => ?_
      refine .bind (Session.keeps_liftExcept _ _) fun _ => ?_
      exact .bind (.modify fun session => unstored session _) fun _ => .pure _
  | changeObjective vars values =>
      exact .bind (.modify withoutResult) fun _ => edit_keeps _
  | clear =>
      refine .bind dropFindings_keeps fun _ => .modify fun session => ?_
      exact (unstored _ Store.empty).trans (uncounted session)
  | _ =>
      exact .bind dropFindings_keeps fun _ => edit_keeps _

/-- An edit leaves the clock alone. -/
theorem perform_keepsClock (change : Edit α) :
    Keeps (fun session => session.run.clock.running)
      (change.perform : SessionM σ τ α Unit) :=
  change.perform_keeps (fun _ _ => rfl) (fun _ => rfl) (fun _ => rfl)
    (fun _ => rfl)

/-- An edit leads to the same session, whether its answer is looked at or not. -/
theorem stateAfter_perform
    (change : Edit α)
    (session : Session σ τ α) :
    stateAfter (change.perform session) = performed session change := by
  unfold performed
  cases change.perform session <;> rfl

end Edit

namespace Session

/-- A session between two operations. -/
structure AtRest (session : Session σ τ α) : Prop where
  stopped : session.run.clock.running = false
  held :
    ∃ program, session.store.Represents program ∧ program.Indexed

/-- What is kept of a session at rest leaves it at rest. -/
theorem AtRest.ofBase
    {session next : Session σ τ α}
    (atRest : session.AtRest)
    (same : next.base = session.base) :
    next.AtRest := by
  have sameStore : next.store = session.store := congrArg Prod.fst same
  have sameClock : next.run.clock = session.run.clock :=
    congrArg Prod.snd same
  exact
    ⟨by rw [sameClock]; exact atRest.stopped,
      by rw [sameStore]; exact atRest.held⟩

variable [Scalar α]

theorem assemble_atRest
    (sentinel : α)
    (settings : Settings α)
    (solver : σ)
    (oneVariable : τ) :
    (assemble sentinel settings solver oneVariable).AtRest where
  stopped := rfl
  held := ⟨_, Store.empty_represents, nofun, nofun⟩

variable [Solver σ α]

/-- An edit leaves a session at rest. -/
theorem AtRest.edited
    {session : Session σ τ α}
    (atRest : session.AtRest)
    (change : Edit α) :
    (stateAfter (change.perform session)).AtRest where
  stopped := (Edit.perform_keepsClock change session).trans atRest.stopped
  held := by
    obtain ⟨program, represents, indexed⟩ := atRest.held
    rw [Edit.stateAfter_perform]
    exact
      ⟨_, (Edit.performed_represents represents change).1,
        Edit.applied_indexed indexed session.sentinel change⟩

/-- A new session is the one that is put together, apart from what its solver makes of the settings. -/
theorem create_keepsUntold
    {view : Session σ τ α → γ}
    (untold :
      ∀ (session : Session σ τ α) solver,
        view { session with run := { session.run with solver := solver } } =
          view session)
    {sentinel : α}
    {settings : Settings α}
    {solver : σ}
    {oneVariable : τ}
    {session : Session σ τ α}
    (created : create sentinel settings solver oneVariable = .ok session) :
    view session = view (assemble sentinel settings solver oneVariable) := by
  have kept :=
    forwardSettings_keepsUntold untold (assemble sentinel settings solver oneVariable)
  unfold create at created
  split at created
  · cases created
  · split at created
    · cases created
    · rename_i passed
      cases created
      rwa [passed] at kept

/-- A new session is at rest. -/
theorem create_atRest
    {sentinel : α}
    {settings : Settings α}
    {solver : σ}
    {oneVariable : τ}
    {session : Session σ τ α}
    (created : create sentinel settings solver oneVariable = .ok session) :
    session.AtRest :=
  (assemble_atRest sentinel settings solver oneVariable).ofBase
    (create_keepsUntold base_overlooks.solver created)

/-- A new session stores nothing. -/
theorem store_of_create
    {sentinel : α}
    {settings : Settings α}
    {solver : σ}
    {oneVariable : τ}
    {session : Session σ τ α}
    (created : create sentinel settings solver oneVariable = .ok session) :
    session.store = Store.empty :=
  congrArg Prod.fst (create_keepsUntold base_overlooks.solver created)

variable [OneVariableSolver τ α]

/-- An operation that neither edits nor solves goes unseen by a look that does not see calls. -/
theorem OverlooksCalls.performed_keeps
    {view : Session σ τ α → γ}
    (overlooks : OverlooksCalls view)
    {operation : Operation α}
    (session : Session σ τ α)
    (notEdit : ∀ change, operation ≠ .edit change)
    (notSolve : ∀ options watch, operation ≠ .solve options watch) :
    view (operation.performed session) = view session := by
  cases operation with
  | edit change => exact absurd rfl (notEdit change)
  | setSentinel sentinel => exact overlooks.sentinel session sentinel
  | updateSettings settings =>
      refine Keeps.bind (keeps_liftExcept _ _) (fun _ => ?_) session
      exact
        .bind (overlooks.putSettings_keeps _) fun _ =>
          forwardSettings_keepsUntold overlooks.solver
  | setReal parameter value =>
      exact overlooks.setReal_keeps parameter value session
  | setInteger parameter value =>
      exact overlooks.setInteger_keeps parameter value session
  | guessScaling largest => exact askSolver_keepsUntold overlooks.solver _ session
  | choosePenalty coefficient =>
      exact (overlooks.choosePenalty_keeps coefficient).discard session
  | chooseMaxPenalty penalty =>
      exact (overlooks.chooseMaxPenalty_keeps penalty).discard session
  | takeNotices => exact overlooks.printed session session.run.outlet []
  | redirect outlet =>
      exact overlooks.printed session outlet session.run.notices
  | setMemory memory => exact overlooks.memory session memory
  | solve options watch => exact absurd rfl (notSolve options watch)

/-- Only edits change what is stored. -/
theorem performed_keepsStore
    {operation : Operation α}
    (session : Session σ τ α)
    (notEdit : ∀ change, operation ≠ .edit change) :
    (operation.performed session).store = session.store := by
  cases operation with
  | solve options watch =>
      exact
        congrArg (fun assignment => assignment.2.1)
          (solve_keepsAssignment options watch session)
  | _ =>
      exact
        congrArg Prod.fst
          (base_overlooks.performed_keeps session notEdit nofun)

/-- Every operation leaves a session at rest. -/
theorem AtRest.performed
    {session : Session σ τ α}
    (atRest : session.AtRest)
    (operation : Operation α) :
    (operation.performed session).AtRest := by
  cases operation with
  | edit change =>
      exact atRest.edited change
  | solve options watch =>
      have sameStore := performed_keepsStore session (nofun :
        ∀ change, Operation.solve options watch ≠ .edit change)
      exact
        ⟨solve_stopsClock atRest.stopped options watch, by
          rw [sameStore]
          exact atRest.held⟩
  | _ =>
      exact atRest.ofBase (base_overlooks.performed_keeps session nofun nofun)

/-- A restored session is a new one that has loaded the program of its file. -/
theorem exists_of_restore
    {format : FileFormat α}
    {text : List Char}
    {sentinel : α}
    {solver : σ}
    {oneVariable : τ}
    {session : Session σ τ α}
    (restored :
      restore format text sentinel solver oneVariable = .ok session) :
    ∃ (file : ProblemFile α) (fresh : Session σ τ α),
      create sentinel file.settings solver oneVariable = .ok fresh ∧
        session = Operation.performed fresh (.edit (.load file.program)) := by
  obtain ⟨file, _, loading⟩ := Check.bind_eq_ok.mp restored
  obtain ⟨fresh, created, loaded⟩ := Check.bind_eq_ok.mp loading
  refine ⟨file, fresh, created, ?_⟩
  change session = stateAfter (load file.program fresh)
  split at loaded
  · rename_i passed
    cases loaded
    rw [passed]
    rfl
  · cases loaded

/-- A history goes on with any operations. -/
theorem Reachable.history
    {session : Session σ τ α}
    (reachable : session.Reachable)
    (operations : List (Operation α)) :
    (operations.foldl Operation.performed session).Reachable := by
  induction operations generalizing session with
  | nil =>
      exact reachable
  | cons operation rest inductionHypothesis =>
      exact inductionHypothesis (.operated reachable operation)

/-- Every history leaves a session at rest. -/
theorem Reachable.atRest
    {session : Session σ τ α}
    (reachable : session.Reachable) :
    session.AtRest := by
  induction reachable with
  | assembled sentinel settings solver oneVariable =>
      exact assemble_atRest sentinel settings solver oneVariable
  | created created =>
      exact create_atRest created
  | restored restored =>
      obtain ⟨file, fresh, created, rfl⟩ := exists_of_restore restored
      exact (create_atRest created).performed _
  | @copied session copy solver oneVariable before copied inductionHypothesis =>
      obtain ⟨fresh, created, copies⟩ := Check.bind_eq_ok.mp copied
      cases copies
      exact ⟨(create_atRest created).stopped, inductionHypothesis.held⟩
  | operated before operation inductionHypothesis =>
      exact inductionHypothesis.performed operation

/-- What holds of the empty program and is kept by every edit holds of every stored program. -/
theorem Reachable.program_induction
    {motive : Program α → Prop}
    {session : Session σ τ α}
    (reachable : session.Reachable)
    (empty : motive Program.empty.filled)
    (edited :
      ∀ sentinel program (change : Edit α),
        motive program → motive (change.applied sentinel program)) :
    motive session.store.toProgram := by
  have ofEdit
      {session : Session σ τ α}
      (atRest : session.AtRest)
      (known : motive session.store.toProgram)
      (change : Edit α) :
      motive (Edit.performed session change).store.toProgram := by
    obtain ⟨program, represents, _⟩ := atRest.held
    rw [represents.toProgram_eq] at known
    rw [(Edit.performed_represents represents change).1.toProgram_eq]
    exact edited session.sentinel program change known
  have ofEmpty
      {session : Session σ τ α}
      (isEmpty : session.store = Store.empty) :
      motive session.store.toProgram := by
    rw [isEmpty, Store.empty_represents.toProgram_eq]
    exact empty
  induction reachable with
  | assembled sentinel settings solver oneVariable =>
      exact ofEmpty rfl
  | created created =>
      exact ofEmpty (store_of_create created)
  | restored restored =>
      obtain ⟨file, fresh, created, rfl⟩ := exists_of_restore restored
      have edited :=
        ofEdit (create_atRest created) (ofEmpty (store_of_create created))
          (.load file.program)
      rw [← Edit.stateAfter_perform] at edited
      exact edited
  | @copied session copy solver oneVariable before copied inductionHypothesis =>
      obtain ⟨fresh, created, copies⟩ := Check.bind_eq_ok.mp copied
      cases copies
      exact inductionHypothesis
  | @operated session before operation inductionHypothesis =>
      by_cases isEdit : ∃ change, operation = .edit change
      · obtain ⟨change, rfl⟩ := isEdit
        have edited := ofEdit before.atRest inductionHypothesis change
        rw [← Edit.stateAfter_perform] at edited
        exact edited
      · rw [performed_keepsStore session fun change same =>
          isEdit ⟨change, same⟩]
        exact inductionHypothesis

/--
Two sessions hold the same problem under the same settings, with their solvers and
their methods for one free variable in the same states.  Their pasts may differ.
-/
structure HoldSame (first second : Session σ τ α) : Prop where
  store : first.store = second.store
  settings : first.settings = second.settings
  solver : first.run.solver = second.run.solver
  method : first.run.oneVariable = second.run.oneVariable

/--
What counts as infinite, which reservations are granted and which of the coming prints
are refused is the same for two sessions.  None of this is part of the problem or of
the settings.
-/
structure SameSurroundings (first second : Session σ τ α) : Prop where
  sentinel : first.sentinel = second.sentinel
  memory : first.run.memory = second.run.memory
  outlet :
    ∀ print,
      first.run.outlet.refusals (first.run.outlet.prints + print) =
        second.run.outlet.refusals (second.run.outlet.prints + print)

/-- How often has been printed for two sessions. -/
def printsBefore (first second : Session σ τ α) : Nat × Nat :=
  (first.run.outlet.prints, second.run.outlet.prints)

omit [Scalar α] [Solver σ α] [OneVariableSolver τ α] in
/-- Sessions at rest that hold the same and have the same surroundings start alike. -/
theorem AtRest.startAlike
    {first second : Session σ τ α}
    (firstAtRest : first.AtRest)
    (secondAtRest : second.AtRest)
    (holdSame : first.HoldSame second)
    (surroundings : first.SameSurroundings second) :
    SessionsAgree (StartAlike (first.printsBefore second) Eq) first second where
  sentinel := surroundings.sentinel
  store := holdSame.store
  settings := holdSame.settings
  run :=
    {
      solver := holdSame.solver
      oneVariable := holdSame.method
      running := firstAtRest.stopped.trans secondAtRest.stopped.symm
      memory := surroundings.memory
      outlet := ⟨⟨0, rfl, rfl⟩, surroundings.outlet⟩
    }

omit [Scalar α] [Solver σ α] [OneVariableSolver τ α] in
/-- The journals of sessions that start alike start alike. -/
theorem startAlike_journaled
    {since : Nat × Nat}
    {first second : Session σ τ α}
    (start : SessionsAgree (StartAlike since Eq) first second) :
    SessionsAgree (StartAlike since Eq) first.journaled second.journaled :=
  {
    start with
    run :=
      {
        start.run with
        solver := congrArg JournaledSolver.journaling start.run.solver
      }
  }

/--
Whatever their histories, sessions that hold the same and have the same surroundings
send their solvers the same calls and assignments and come to the same outcome.  The
problem stays what it was.
-/
theorem solve_is_independent_of_history
    {first second : Session σ τ α}
    (firstReachable : first.Reachable)
    (secondReachable : second.Reachable)
    (holdSame : first.HoldSame second)
    (surroundings : first.SameSurroundings second)
    (options : SolveOptions α)
    (watch : Nat → α) :
    first.solverCalls options watch = second.solverCalls options watch ∧
      (first.journaledSolver options watch).journal =
        (second.journaledSolver options watch).journal ∧
      answerOf (solve options watch first) =
        answerOf (solve options watch second) ∧
      SessionsAgree (OutcomesAgree (first.printsBefore second) Eq)
        (stateAfter (solve options watch first))
        (stateAfter (solve options watch second)) ∧
      (stateAfter (solve options watch first)).assignment =
        first.assignment := by
  have start :=
    firstReachable.atRest.startAlike secondReachable.atRest holdSame
      surroundings
  have solvedAlike
      {σ : Type}
      [Solver σ α]
      {since : Nat × Nat}
      {first second : Session σ τ α}
      (start : SessionsAgree (StartAlike since Eq) first second) :
      StayAlike (SessionsAgree (OutcomesAgree since Eq))
        (solve options watch first) (solve options watch second) := by
    refine
      (solve_alike AnswerAlike.same start options watch).mono ?_
        (fun _ _ => id)
    intro _ one two agree
    exact { agree with run := agree.run.toOutcomesAgree }
  have sameEnd := (solvedAlike start).same_end
  have sameJournaled :
      first.journaledSolver options watch =
        second.journaledSolver options watch :=
    (solvedAlike (startAlike_journaled start)).same_end.2.run.solver
  exact
    ⟨congrArg JournaledSolver.calls sameJournaled,
      congrArg JournaledSolver.journal sameJournaled, sameEnd.1, sameEnd.2,
      solve_keepsAssignment options watch first⟩

/-- A program with a third variable and two rows, the first of which fixes a variable. -/
def crowdedProgram : Program ℚ :=
  {
    objective := [1, 2, 3]
    lower := [0, 0, 0]
    upper := [5, 5, 5]
    integral := none
    blocks := []
    rows :=
      [
        { left := 1, right := 1, vars := [1], coefs := [1] },
        { left := 1, right := 9, vars := [0, 1, 2], coefs := [1, 1, 1] }
      ]
  }

/-- What happened to a session that failed on the crowded program and then loaded another. -/
def eventfulHistory : List (Operation ℚ) :=
  [
    .edit (.load crowdedProgram),
    .solve patientOptions (fun _ => 0),
    .edit (.load openProgram),
    .redirect Outlet.accepting,
    .setMemory Memory.common
  ]

/-- A session with that history. -/
def seasonedSession : Session (ScriptedSolver ℚ) NewtonMethod ℚ :=
  eventfulHistory.foldl Operation.performed
    (assemble standardSentinel Settings.standard
      (scriptedSolver [unsureAnswer, failingAnswer, sureAnswer])
      NewtonMethod.standard)

/-- A session that has only ever held the open program, around the same solver. -/
def freshSession : Session (ScriptedSolver ℚ) NewtonMethod ℚ :=
  Operation.performed
    (assemble standardSentinel Settings.standard seasonedSession.run.solver
      NewtonMethod.standard)
    (.edit (.load openProgram))

/--
A session that has failed on a larger problem sends the one call that a fresh
session sends, although their workspaces differ.
-/
theorem seasonedSession_solves_like_freshSession :
    freshSession.run.work ≠ seasonedSession.run.work ∧
      freshSession.solverCalls patientOptions (fun _ => 0) =
        seasonedSession.solverCalls patientOptions (fun _ => 0) ∧
      (freshSession.solverCalls patientOptions (fun _ => 0)).length = 1 := by
  have freshReachable : freshSession.Reachable :=
    .operated (.assembled _ _ _ _) _
  have seasonedReachable : seasonedSession.Reachable :=
    Reachable.history (.assembled _ _ _ _) eventfulHistory
  have holdSame : freshSession.HoldSame seasonedSession := by
    constructor <;> decide +kernel
  have freshSurroundings :
      (freshSession.run.memory, freshSession.run.outlet) =
        (Memory.common, Outlet.accepting) := by
    have kept :
        Keeps
          (fun session : Session (ScriptedSolver ℚ) NewtonMethod ℚ =>
            (session.run.memory, session.run.outlet))
          (Edit.load openProgram).perform :=
      Edit.perform_keeps (fun _ _ => rfl) (fun _ => rfl) (fun _ => rfl)
        (fun _ => rfl) _
    exact kept _
  have seasonedSurroundings :
      (seasonedSession.run.memory, seasonedSession.run.outlet) =
        (Memory.common, Outlet.accepting) :=
    rfl
  obtain ⟨sameMemory, sameOutlet⟩ :=
    Prod.mk.inj (freshSurroundings.trans seasonedSurroundings.symm)
  have surroundings : freshSession.SameSurroundings seasonedSession :=
    ⟨by decide +kernel, sameMemory, fun print => by rw [sameOutlet]⟩
  have independent :=
    solve_is_independent_of_history freshReachable seasonedReachable holdSame
      surroundings patientOptions (fun _ => 0)
  exact ⟨by decide +kernel, independent.1, by decide +kernel⟩

/-- A program with a row that bounds one of its two variables. -/
def cappedProgram : Program ℚ :=
  {
    objective := [1, 1]
    lower := [0, 0]
    upper := [10, 10]
    integral := none
    blocks := []
    rows :=
      [{ left := -standardSentinel, right := 4, vars := [0], coefs := [1] }]
  }

/-- A session that holds the capped program and prints an account of every solve. -/
def cappedSession : Session (ScriptedSolver ℚ) NewtonMethod ℚ :=
  Operation.performed
    (assemble standardSentinel { Settings.standard with verbose := true }
      (scriptedSolver []) NewtonMethod.standard)
    (.edit (.load cappedProgram))

theorem cappedSession_reachable : cappedSession.Reachable :=
  .operated (.assembled _ _ _ _) _

/-- No print is taken. -/
def brokenOutlet : Outlet :=
  { refusals := fun _ => some .invalid, prints := 0 }

/-- No reservation is granted. -/
def exhaustedMemory : Memory :=
  { grants := fun _ => false }

/--
A past that leaves another sentinel changes what the solver is asked, one that leaves
a print target that refuses text changes how the solve ends, and so does one that
leaves no memory.
-/
theorem surroundings_change_solve :
    let widened := Operation.performed cappedSession (.setSentinel 3)
    let muted := Operation.performed cappedSession (.redirect brokenOutlet)
    let starved :=
      Operation.performed cappedSession (.setMemory exhaustedMemory)
    let requests (session : Session (ScriptedSolver ℚ) NewtonMethod ℚ) :=
      (session.solverCalls patientOptions (fun _ => 0)).map SolverCall.request
    let answer (session : Session (ScriptedSolver ℚ) NewtonMethod ℚ) :=
      answerOf (solve patientOptions (fun _ => 0) session)
    (cappedSession.Reachable ∧ widened.Reachable ∧ muted.Reachable ∧
        starved.Reachable) ∧
      (cappedSession.HoldSame widened ∧ cappedSession.HoldSame muted ∧
        cappedSession.HoldSame starved) ∧
      requests cappedSession ≠ requests widened ∧
      answer cappedSession = .ok () ∧
      answer muted = .error (.file .invalid) ∧
      answer starved = .error (.compaction .outOfMemory) := by
  have reachable (operation : Operation ℚ) :
      (operation.performed cappedSession).Reachable :=
    .operated cappedSession_reachable operation
  have holdSame
      (other : Session (ScriptedSolver ℚ) NewtonMethod ℚ)
      (sameStore : cappedSession.store = other.store)
      (sameSettings : cappedSession.settings = other.settings)
      (sameSolver : cappedSession.run.solver = other.run.solver)
      (sameMethod : cappedSession.run.oneVariable = other.run.oneVariable) :
      cappedSession.HoldSame other :=
    ⟨sameStore, sameSettings, sameSolver, sameMethod⟩
  exact
    ⟨⟨cappedSession_reachable, reachable _, reachable _, reachable _⟩,
      ⟨holdSame _ rfl rfl rfl rfl, holdSame _ rfl rfl rfl rfl,
        holdSame _ rfl rfl rfl rfl⟩,
      by decide +kernel, by decide +kernel, by decide +kernel,
      by decide +kernel⟩

end Session

end SdpRelay
