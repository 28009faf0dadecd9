import SdpRelay.Proofs.PresolveRun
import SdpRelay.Proofs.SessionHistory
import SdpRelay.Proofs.UnseenSteps

namespace SdpRelay

/-!
# Exits of a solve

A solve leaves its course at one of five places.  Stored bounds that contradict
each other end it before anything is rebuilt; presolve refutes the problem, or
leaves no variable free; the path for one free variable gives a result; what is
left then goes to the solver.  Each exit has its verdict, and each of the first
four leaves a workspace that is known.
-/

variable {σ τ α β : Type} [Scalar α]

/--
A solve that starts with some workspace and method has an exit with a workspace
and a verdict.
-/
inductive SolveTask.Exit
    [OneVariableSolver τ α]
    (task : SolveTask α)
    (before : Workspace α)
    (method : τ) :
    Workspace α → Verdict α → Prop where
  | contradicted
      (contradict : task.boundsContradict = true) :
      task.Exit before method before (.infeasible .presolve)
  | refuted {found : Workspace α}
      (consistent : task.boundsContradict = false)
      (presolved :
        before.presolve task.store task.sentinel task.settings =
          (found, .ok .infeasible)) :
      task.Exit before method found (.infeasible .presolve)
  | fixed {found : Workspace α} (feasible : Bool)
      (consistent : task.boundsContradict = false)
      (presolved :
        before.presolve task.store task.sentinel task.settings =
          (found, .ok (.allFixed feasible))) :
      task.Exit before method found
        (if feasible then .allFixed else .infeasible .fixedPoint)
  | path {found : Workspace α} {fixedObjective : α}
      {result : OneVariableResult α}
      (consistent : task.boundsContradict = false)
      (presolved :
        before.presolve task.store task.sentinel task.settings =
          (found, .ok (.undecided fixedObjective)))
      (given :
        task.pathResult found fixedObjective method = .ok (some result)) :
      task.Exit before method found (.oneVariable result)
  | handedOver {found left : Workspace α} {fixedObjective : α}
      {verdict : Verdict α}
      (consistent : task.boundsContradict = false)
      (presolved :
        before.presolve task.store task.sentinel task.settings =
          (found, .ok (.undecided fixedObjective)))
      (noResult : task.pathResult found fixedObjective method = .ok none)
      (bySolver : ¬ verdict.IsDirect) :
      task.Exit before method left verdict

namespace SolveTask.Exit

variable
  [OneVariableSolver τ α]
  {task : SolveTask α}
  {before found : Workspace α}
  {method : τ}
  {verdict : Verdict α}

/-- The verdicts on a problem without free variables have one exit. -/
theorem of_fixedPoint
    {feasible : Bool}
    (exits : task.Exit before method found verdict)
    (isVerdict :
      verdict = if feasible then .allFixed else .infeasible .fixedPoint) :
    task.boundsContradict = false ∧
      before.presolve task.store task.sentinel task.settings =
        (found, .ok (.allFixed feasible)) := by
  cases exits with
  | contradicted contradict =>
      cases feasible <;> cases isVerdict
  | refuted consistent presolved =>
      cases feasible <;> cases isVerdict
  | fixed other consistent presolved =>
      have same : other = feasible := by
        cases other <;> cases feasible <;> first | rfl | cases isVerdict
      rw [same] at presolved
      exact ⟨consistent, presolved⟩
  | path consistent presolved given =>
      cases feasible <;> cases isVerdict
  | handedOver consistent presolved noResult bySolver =>
      rw [isVerdict] at bySolver
      cases feasible <;> exact absurd trivial bySolver

/-- So does the verdict of the path for one free variable. -/
theorem of_oneVariable
    {result : OneVariableResult α}
    (exits : task.Exit before method found verdict)
    (isVerdict : verdict = .oneVariable result) :
    ∃ fixedObjective,
      task.boundsContradict = false ∧
        before.presolve task.store task.sentinel task.settings =
          (found, .ok (.undecided fixedObjective)) ∧
        task.pathResult found fixedObjective method = .ok (some result) := by
  cases exits with
  | contradicted contradict =>
      cases isVerdict
  | refuted consistent presolved =>
      cases isVerdict
  | fixed feasible consistent presolved =>
      cases feasible <;> cases isVerdict
  | path consistent presolved given =>
      cases isVerdict
      exact ⟨_, consistent, presolved, given⟩
  | handedOver consistent presolved noResult bySolver =>
      rw [isVerdict] at bySolver
      exact absurd trivial bySolver

end SolveTask.Exit

namespace SolveM

variable [Solver σ α]

omit [Scalar α] in
/-- What goes on between two verdicts does not touch the verdict. -/
theorem verdict_overlooks :
    SolveRun.Overlooks (fun run : SolveRun σ τ α => run.verdict) where
  phases _ _ := rfl
  printed _ _ _ := rfl
  looked _ := rfl
  usage _ _ := rfl
  bestBound _ _ := rfl
  slater _ _ := rfl
  solve _ := askSolver_keeps (fun _ _ => rfl) _

/-- A step that starts with a verdict that takes the solver leaves one, however it ends. -/
def StaysWithSolver (step : SolveM σ τ α β) : Prop :=
  ∀ run : SolveRun σ τ α,
    ¬ run.verdict.IsDirect → ¬ (stateAfter (step run)).verdict.IsDirect

namespace StaysWithSolver

omit [Scalar α] [Solver σ α] in
theorem of_keeps
    {step : SolveM σ τ α β}
    (keeps : Keeps (fun run => run.verdict) step) :
    StaysWithSolver step := by
  intro run bySolver
  have kept : (stateAfter (step run)).verdict = run.verdict := keeps run
  rw [kept]
  exact bySolver

omit [Scalar α] [Solver σ α] in
theorem settle
    {verdict : Verdict α}
    (bySolver : ¬ verdict.IsDirect) :
    StaysWithSolver (settle verdict : SolveM σ τ α Unit) :=
  fun _ _ => bySolver

omit [Scalar α] [Solver σ α] in
theorem bind
    {γ : Type}
    {first : SolveM σ τ α γ}
    {second : γ → SolveM σ τ α β}
    (staysFirst : StaysWithSolver first)
    (staysSecond : ∀ answer, StaysWithSolver (second answer)) :
    StaysWithSolver (first >>= second) := by
  intro run bySolver
  have ends :
      Ends
        (fun _ next => ¬ next.verdict.IsDirect)
        (fun _ next => ¬ next.verdict.IsDirect)
        ((first >>= second) run) :=
    Ends.bind (Ends.always_iff.mpr (staysFirst run bySolver))
      (fun _ _ => id)
      fun answer next still =>
        Ends.always_iff.mpr (staysSecond answer next still)
  exact Ends.always_iff.mp ends

end StaysWithSolver

/-- A recovery leaves a verdict that takes the solver, also if it fails. -/
theorem recover_staysWithSolver (task : SolveTask α) :
    StaysWithSolver (recover task : SolveM σ τ α Unit) := by
  have settled (last : Escalation α) :
      StaysWithSolver (settleRecovery task last : SolveM σ τ α Unit) := by
    unfold settleRecovery
    split
    · exact .settle id
    · refine .bind (.settle id) fun _ => ?_
      split
      · exact .of_keeps (checkSlater_announces verdict_overlooks task true).keeps
      · exact .of_keeps (.pure _)
  rw [recover_eq]
  refine
    .bind (.of_keeps (solvePrepared_keeps verdict_overlooks task _ _ _))
      fun _ => ?_
  refine .bind (.of_keeps (addUsage_keeps verdict_overlooks)) fun _ => ?_
  refine .bind (.of_keeps report_completes.keeps) fun seen => ?_
  split
  · exact .settle id
  refine
    .bind (.of_keeps (escalate_keeps verdict_overlooks (fun _ _ => rfl) task _ _))
      fun last => ?_
  exact
    .bind (.of_keeps (restoreGap_keeps (fun _ _ => rfl) task last))
      fun _ => settled last

/-- Once the solver has been asked for the problem itself, the verdict takes the solver. -/
theorem acceptOrRecover_staysWithSolver (task : SolveTask α) :
    StaysWithSolver (acceptOrRecover task : SolveM σ τ α Unit) := by
  have timedRecovery :
      StaysWithSolver (timed "penalty" (recover task) : SolveM σ τ α Unit) := by
    intro run bySolver
    have ends :
        Ends
          (fun _ next => ¬ next.verdict.IsDirect)
          (fun _ next => ¬ next.verdict.IsDirect)
          (timed "penalty" (recover task) run) :=
      timed_ends
        (Ends.always_iff.mpr
          (recover_staysWithSolver task
            { run with phases := run.phases.enter "penalty" } bySolver))
    exact Ends.always_iff.mp ends
  unfold acceptOrRecover
  refine .bind (.of_keeps report_completes.keeps) fun seen => ?_
  split
  · exact .of_keeps (.pure _)
  refine
    .bind (.of_keeps (timeIsUp_completes verdict_overlooks task).keeps)
      fun isUp => ?_
  split
  · exact .of_keeps (.pure _)
  · exact timedRecovery

/--
A solve with the solver has settled on a verdict before it looks at the answer.  It
leaves the question open only if it fails before that.
-/
theorem solveBySolver_concludes
    {task : SolveTask α}
    {run : SolveRun σ τ α}
    (unsolved : run.verdict = .unsolved) :
    Ends
      (fun _ next => ¬ next.verdict.IsDirect)
      (fun _ next => next.verdict = .unsolved ∨ ¬ next.verdict.IsDirect)
      (solveBySolver task run) := by
  have keptOpen
      {step : SolveM σ τ α Unit}
      (keeps : Keeps (fun run => run.verdict) step)
      {start : SolveRun σ τ α}
      (isOpen : start.verdict = .unsolved) :
      Ends
        (fun _ next => next.verdict = .unsolved)
        (fun _ next => next.verdict = .unsolved ∨ ¬ next.verdict.IsDirect)
        (step start) :=
    (keeps.ends start).mono (fun _ _ same => same.trans isOpen)
      fun _ _ same => .inl (same.trans isOpen)
  unfold solveBySolver
  refine
    Ends.bind (keptOpen (openWithSlater_keeps verdict_overlooks task) unsolved)
      (fun _ _ => id) ?_
  intro _ opened isOpen
  refine
    Ends.bind
      (keptOpen
        (timed_keeps verdict_overlooks
          (solveDirectly_keeps verdict_overlooks task) "backend")
        isOpen)
      (fun _ _ => id) ?_
  intro _ asked _
  refine Ends.bind (settle_ends (.solved false) asked) (fun _ _ => False.elim) ?_
  rintro _ settled rfl
  exact
    (Ends.always_iff.mpr (acceptOrRecover_staysWithSolver task _ id)).mono
      (fun _ _ => id) fun _ _ => .inr

variable [OneVariableSolver τ α]

/-- What presolve left open exits by the path, or is handed over. -/
theorem solveUndecided_exits
    {task : SolveTask α}
    {before found : Workspace α}
    {fixedObjective : α}
    {run : SolveRun σ τ α}
    (consistent : task.boundsContradict = false)
    (presolved :
      before.presolve task.store task.sentinel task.settings =
        (found, .ok (.undecided fixedObjective)))
    (isFound : run.work = found)
    (unsolved : run.verdict = .unsolved) :
    Ends
      (fun _ next =>
        task.Exit before run.oneVariable next.work next.verdict)
      (fun _ next =>
        next.verdict = .unsolved ∨
          task.Exit before run.oneVariable next.work next.verdict)
      (solveUndecided task fixedObjective run) := by
  subst isFound
  rw [solveUndecided_eq]
  have tried :
      Ends
        (fun answer next =>
          (task.pathResult run.work fixedObjective run.oneVariable =
              .ok answer ∧
            next.work = run.work) ∧
          next.verdict = run.verdict)
        (fun _ next => True ∧ next.verdict = run.verdict)
        (timed "onevar" (solveOneVariable task fixedObjective) run) :=
    (timed_ends
      ((solveOneVariable_gives task fixedObjective _).mono
        (fun _ _ => id) fun _ _ _ => trivial)).and
      ((timed_keeps verdict_overlooks
        (solveOneVariable_keeps (fun _ _ => rfl) task fixedObjective)
        "onevar").ends run)
  refine
    Ends.bind tried (fun _ _ same => .inl (same.2.trans unsolved)) ?_
  rintro answer next ⟨⟨answered, sameWork⟩, sameVerdict⟩
  cases answer with
  | some result =>
      change task.Exit before run.oneVariable next.work (.oneVariable result)
      rw [sameWork]
      exact .path consistent presolved answered
  | none =>
      have compacted :=
        (timed_keeps verdict_overlooks
          (compact_keeps (fun _ _ => rfl) task) "preprocess").ends next
      refine Ends.bind compacted ?_ ?_
      · exact fun _ _ same => .inl ((same.trans sameVerdict).trans unsolved)
      intro _ ready same
      refine
        (solveBySolver_concludes
          ((same.trans sameVerdict).trans unsolved)).mono ?_ ?_
      · exact fun _ _ concluded =>
          .handedOver consistent presolved answered concluded
      · exact fun _ _ left =>
          left.imp_right fun concluded =>
            .handedOver consistent presolved answered concluded

/-- A solve has an exit unless it leaves the question open, which it does only if it fails. -/
theorem solve_exits
    (task : SolveTask α)
    {run : SolveRun σ τ α}
    (unsolved : run.verdict = .unsolved) :
    Ends
      (fun _ next =>
        task.Exit run.work run.oneVariable next.work next.verdict)
      (fun _ next =>
        next.verdict = .unsolved ∨
          task.Exit run.work run.oneVariable next.work next.verdict)
      (solve task run) := by
  unfold solve
  split
  · rename_i contradict
    exact .contradicted contradict
  rename_i consistent
  rw [Bool.not_eq_true] at consistent
  have presolved :
      Ends
        (fun outcome next =>
          run.work.presolve task.store task.sentinel task.settings =
              (next.work, .ok outcome) ∧
            next.oneVariable = run.oneVariable ∧
            next.verdict = .unsolved)
        (fun _ next => next.verdict = .unsolved)
        (timed "preprocess" (presolve task) run) := by
    refine timed_ends ((presolve_writes task _).mono ?_ ?_)
    · rintro outcome next ⟨presolved, written⟩
      rw [written]
      exact ⟨presolved, rfl, unsolved⟩
    · rintro _ next ⟨_, written⟩
      rw [written]
      exact unsolved
  refine Ends.bind presolved (fun _ _ => .inl) ?_
  rintro outcome next ⟨found, sameMethod, stillOpen⟩
  cases outcome with
  | infeasible =>
      exact .refuted consistent found
  | allFixed feasible =>
      exact .fixed feasible consistent found
  | undecided fixedObjective =>
      rw [← sameMethod]
      exact solveUndecided_exits consistent found rfl stillOpen

end SolveM

namespace Session

open SessionM

variable [Solver σ α] [OneVariableSolver τ α]

/-- After a solve that ends well, a session has the problem that it had before. -/
theorem solve_sameAssignment
    {session next : Session σ τ α}
    {options : SolveOptions α}
    {watch : Nat → α}
    (solved : solve options watch session = .ok () next) :
    next.sentinel = session.sentinel ∧
      next.store = session.store ∧
      next.settings = session.settings := by
  have kept := solve_keepsAssignment options watch session
  rw [solved] at kept
  obtain ⟨sameSentinel, rest⟩ := Prod.mk.inj kept
  obtain ⟨sameStore, sameSettings⟩ := Prod.mk.inj rest
  exact ⟨sameSentinel, sameStore, sameSettings⟩

/-- A look at a run that does not see what a session does around a solve. -/
structure OverlooksFrame
    {γ : Type}
    (look : SolveRun σ τ α → γ) :
    Prop where
  clock :
    ∀ (run : SolveRun σ τ α) clock,
      look { run with clock := clock } = look run
  phases :
    ∀ (run : SolveRun σ τ α) phases,
      look { run with phases := phases } = look run
  printed :
    ∀ (run : SolveRun σ τ α) outlet notices,
      look { run with outlet := outlet, notices := notices } = look run

namespace OverlooksFrame

variable
  {γ : Type}
  {look : SolveRun σ τ α → γ}

omit [OneVariableSolver τ α] in
theorem conclude_keeps
    (overlooks : OverlooksFrame look)
    (result : Except (Fault α) Unit) :
    Keeps (fun session => look session.run)
      (conclude result : SessionM σ τ α Unit) :=
  Session.conclude_keeps
    (fun session outlet notices => overlooks.printed session.run outlet notices)
    (fun _ _ => rfl) result

/-- The result of a solve that is observed says what the solve leaves to look at. -/
theorem observedSolve_ends
    (overlooks : OverlooksFrame look)
    {answered : γ → Prop}
    {failed : Fault α → γ → Prop}
    {task : SolveTask α}
    {run : SolveRun σ τ α}
    (course :
      ∀ phases,
        Ends
          (fun _ next => answered (look next))
          (fun fault next => failed fault (look next))
          (SolveM.solve task { run with phases := phases })) :
    Ends
      (fun result next =>
        match result with
        | .ok _ => answered (look next)
        | .error fault => failed fault (look next))
      (fun _ _ => False)
      (SolveM.observe (SolveM.timed "solve" (SolveM.solve task)) run) := by
  refine SolveM.observe_ends (SolveM.timed_ends ?_)
  refine (course (run.phases.enter "solve")).mono ?_ ?_
  · intro _ next reached
    rw [← overlooks.phases next next.phases.leave] at reached
    exact reached
  · intro _ next reached
    rw [← overlooks.phases next next.phases.leave] at reached
    exact reached

end OverlooksFrame

omit [Scalar α] [Solver σ α] [OneVariableSolver τ α] in
/-- A clock that cannot be started leaves the session alone. -/
theorem startClock_ends (session : Session σ τ α) :
    Ends
      (fun _ going =>
        ∃ clock phases,
          going.run = { session.run with clock := clock, phases := phases })
      (fun _ next => next = session)
      (startClock session) := by
  rw [startClock_eq]
  split
  · rfl
  · exact ⟨_, _, rfl⟩

/--
What a solve leaves to look at in the run of a session, if it ends well and if it
fails with some fault.  It may also fail after the run has ended well.
-/
theorem solveTask_leaves_of
    {γ : Type}
    {look : SolveRun σ τ α → γ}
    (overlooks : OverlooksFrame look)
    (answered : γ → Prop)
    (failed : Fault α → γ → Prop)
    {task : SolveTask α}
    {session : Session σ τ α}
    (weaker : ∀ fault found, answered found → failed fault found)
    (hidden :
      ∀ stuck fault found, failed fault found → failed (.clock stuck) found)
    (unstarted : ∀ fault, failed fault (look session.run))
    (course :
      ∀ clock phases,
        Ends
          (fun _ next => answered (look next))
          (fun fault next => failed fault (look next))
          (SolveM.solve task
            { session.run with clock := clock, phases := phases })) :
    Ends
      (fun _ next => answered (look next.run))
      (fun fault next => failed fault (look next.run))
      (solveTask task session) := by
  refine
    Ends.bind (startClock_ends session)
      (fun fault _ same => same ▸ unstarted fault) ?_
  rintro _ going ⟨clock, phases, isGoing⟩
  have entered :
      ∀ phases,
        Ends
          (fun _ next => answered (look next))
          (fun fault next => failed fault (look next))
          (SolveM.solve task { going.run with phases := phases }) := by
    rw [isGoing]
    exact course clock
  refine
    Ends.bind (onRun_ends (overlooks.observedSolve_ends entered))
      (fun _ _ => False.elim) ?_
  intro result next reached
  have stopped :
      Ends
        (fun _ halted => look halted.run = look next.run)
        (fun fault halted =>
          look halted.run = look next.run ∧ ∃ stuck, fault = .clock stuck)
        (stopClock next) := by
    rw [stopClock_eq]
    split
    · exact overlooks.clock next.run _
    · exact ⟨rfl, _, rfl⟩
  refine Ends.bind stopped ?_ ?_
  · rintro _ halted ⟨same, stuck, rfl⟩
    rw [same]
    cases result with
    | error fault =>
        exact hidden stuck fault _ reached
    | ok answer =>
        exact weaker _ _ reached
  intro _ halted same
  cases result with
  | error fault =>
      change failed fault (look halted.run)
      rw [same]
      exact reached
  | ok answer =>
      refine ((overlooks.conclude_keeps (.ok answer)).ends halted).mono ?_ ?_
      · exact fun _ last kept => (kept.trans same) ▸ reached
      · exact fun fault last kept =>
          weaker fault _ ((kept.trans same) ▸ reached)

/--
The workspace and the verdict that a solve leaves, if it ends well and if it fails in
whatever way.
-/
theorem solveTask_leaves
    (answered failed : Workspace α → Verdict α → Prop)
    {task : SolveTask α}
    {session : Session σ τ α}
    (weaker : ∀ work verdict, answered work verdict → failed work verdict)
    (unstarted : failed session.run.work session.run.verdict)
    (course :
      ∀ run : SolveRun σ τ α,
        run.work = session.run.work →
        run.oneVariable = session.run.oneVariable →
        run.verdict = session.run.verdict →
        Ends
          (fun _ next => answered next.work next.verdict)
          (fun _ next => failed next.work next.verdict)
          (SolveM.solve task run)) :
    Ends
      (fun _ next => answered next.run.work next.run.verdict)
      (fun _ next => failed next.run.work next.run.verdict)
      (solveTask task session) := by
  have overlooks :
      OverlooksFrame
        (fun run : SolveRun σ τ α => (run.work, run.verdict)) :=
    ⟨fun _ _ => rfl, fun _ _ => rfl, fun _ _ _ => rfl⟩
  exact
    solveTask_leaves_of overlooks
      (fun found => answered found.1 found.2)
      (fun _ found => failed found.1 found.2)
      (fun _ found => weaker found.1 found.2) (fun _ _ _ => id)
      (fun _ => unstarted) fun _ _ => course _ rfl rfl rfl

/-- A solve that leaves a verdict has an exit, whether it ends well or not. -/
theorem solve_exits_of_verdict
    {session : Session σ τ α}
    {options : SolveOptions α}
    {watch : Nat → α}
    (notUnsolved :
      (stateAfter (solve options watch session)).run.verdict ≠ .unsolved) :
    (session.task options watch).Exit session.run.work
      session.run.oneVariable
      (stateAfter (solve options watch session)).run.work
      (stateAfter (solve options watch session)).run.verdict := by
  let hasExit (work : Workspace α) (verdict : Verdict α) : Prop :=
    (session.task options watch).Exit session.run.work
      session.run.oneVariable work verdict
  rw [solve_eq] at notUnsolved ⊢
  split at notUnsolved
  · exact absurd rfl notUnsolved
  rename_i hasTime
  rw [if_neg hasTime]
  have course
      (run : SolveRun σ τ α)
      (sameWork : run.work = session.cleared.run.work)
      (sameMethod : run.oneVariable = session.cleared.run.oneVariable)
      (sameVerdict : run.verdict = session.cleared.run.verdict) :
      Ends
        (fun _ next => hasExit next.work next.verdict)
        (fun _ next =>
          next.verdict = .unsolved ∨ hasExit next.work next.verdict)
        (SolveM.solve (session.task options watch) run) := by
    have exits :=
      SolveM.solve_exits (session.task options watch) sameVerdict
    rw [sameWork, sameMethod] at exits
    exact exits
  have ends :=
    solveTask_leaves hasExit
      (fun work verdict => verdict = .unsolved ∨ hasExit work verdict)
      (fun _ _ => .inr) (.inl rfl) course
  have sameTask :
      session.cleared.task options watch = session.task options watch :=
    rfl
  change
    hasExit (stateAfter (solveTask _ session.cleared)).run.work
      (stateAfter (solveTask _ session.cleared)).run.verdict
  rw [sameTask] at notUnsolved ⊢
  revert ends notUnsolved
  cases solveTask (session.task options watch) session.cleared with
  | ok _ next =>
      exact fun _ exits => exits
  | error fault next =>
      exact fun notUnsolved exits => exits.resolve_left notUnsolved

/-- A solve that ends well and had time has an exit. -/
theorem solve_exits
    {session next : Session σ τ α}
    {options : SolveOptions α}
    {watch : Nat → α}
    (solved : solve options watch session = .ok () next)
    (notUnsolved : next.run.verdict ≠ .unsolved) :
    (session.task options watch).Exit session.run.work
      session.run.oneVariable next.run.work next.run.verdict := by
  have isNext : next = stateAfter (solve options watch session) := by
    rw [solved]
    rfl
  rw [isNext] at notUnsolved ⊢
  exact solve_exits_of_verdict notUnsolved

/-- Presolve has bounds for all variables of a session, whatever it comes to. -/
theorem Reachable.presolve_lowerLength
    {session : Session σ τ α}
    {before found : Workspace α}
    {outcome : Except EigenFault (PresolveOutcome α)}
    (reachable : session.Reachable)
    (presolved :
      before.presolve session.store session.sentinel session.settings =
        (found, outcome)) :
    found.bounds.lower.length = session.store.variableCount := by
  obtain ⟨program, represents, indexed⟩ := reachable.atRest.held
  have sameBounds :
      found.bounds =
        (RowPass.propagate session.store session.sentinel session.settings
          (Bounds.ofStored session.store.lower session.store.upper)).bounds := by
    rw [← Workspace.presolve_bounds before, presolved]
  rw [sameBounds,
    RowPass.propagate_lowerLength session.sentinel session.settings
      (represents.inRange indexed).1,
    represents.lowerLength]
  rfl

/-- A session that has just loaded a program, around a solver that always has an answer. -/
def loaded
    (settings : Settings ℚ)
    (program : Program ℚ) :
    Session (ScriptedSolver ℚ) NewtonMethod ℚ :=
  Operation.performed
    (assemble standardSentinel settings (scriptedSolver [])
      NewtonMethod.standard)
    (.edit (.load program))

theorem loaded_reachable
    (settings : Settings ℚ)
    (program : Program ℚ) :
    (loaded settings program).Reachable :=
  .operated (.assembled _ _ _ _) _

/-- The session after a solve. -/
def solved
    (session : Session (ScriptedSolver ℚ) NewtonMethod ℚ) :
    Session (ScriptedSolver ℚ) NewtonMethod ℚ :=
  stateAfter (solve patientOptions (fun _ => 0) session)

end Session

end SdpRelay
