import SdpRelay.Proofs.SolveExits

namespace SdpRelay

/-!
# What a solve leaves of presolve

Presolve replaces the bounds and the kept rows of a workspace by those that the passes
over the rows lead to.  Nothing that comes after it in a solve touches them: not the
path for one free variable, not the compaction, not the solver and the recovery from
its failures.  So they are still there when a solve has ended, well or with a fault,
unless it ended before presolve because of bounds that contradict each other, or in
presolve for want of memory, which leaves no verdict.
-/

variable {σ τ α β γ : Type} [Scalar α]

namespace Workspace

/-- A workspace has the bounds and the kept rows that presolve finds for a stored problem. -/
structure HasSwept
    (store : Store α)
    (sentinel : α)
    (settings : Settings α)
    (work : Workspace α) : Prop where
  bounds : work.bounds = (Workspace.empty.swept store sentinel settings).bounds
  rows : work.rows = (Workspace.empty.swept store sentinel settings).rows

variable
  {store : Store α}
  {sentinel : α}
  {settings : Settings α}

/-- Whatever presolve comes to, it leaves what the passes over the rows have found. -/
theorem presolve_hasSwept (work : Workspace α) :
    (work.presolve store sentinel settings).1.HasSwept store sentinel
      settings := by
  rw [presolve_eq]
  split
  · exact ⟨rfl, rfl⟩
  · split
    · exact ⟨rfl, rfl⟩
    · exact ⟨rfl, rfl⟩

/-- A compaction leaves that alone. -/
theorem HasSwept.compact
    {work compacted : Workspace α}
    (hasSwept : work.HasSwept store sentinel settings)
    {memory : Memory}
    (isCompacted : work.compact store memory = .ok compacted) :
    compacted.HasSwept store sentinel settings := by
  obtain ⟨_, rfl⟩ := compact_eq_ok.mp isCompacted
  exact ⟨hasSwept.bounds, hasSwept.rows⟩

end Workspace

namespace SolveM

section Keeping

variable [Solver σ α]

omit [Scalar α] in
/-- Nothing between two verdicts touches the workspace. -/
theorem work_overlooks :
    SolveRun.Overlooks (fun run : SolveRun σ τ α => run.work) where
  phases _ _ := rfl
  printed _ _ _ := rfl
  looked _ := rfl
  usage _ _ := rfl
  bestBound _ _ := rfl
  slater _ _ := rfl
  solve _ := askSolver_keeps (fun _ _ => rfl) _

omit [Scalar α] [Solver σ α] in
theorem settle_keepsWork (verdict : Verdict α) :
    Keeps (fun run => run.work) (settle verdict : SolveM σ τ α Unit) :=
  .modify fun _ => rfl

theorem recover_keepsWork (task : SolveTask α) :
    Keeps (fun run => run.work) (recover task : SolveM σ τ α Unit) := by
  rw [recover_eq]
  refine .bind (solvePrepared_keeps work_overlooks task _ _ _) fun _ => ?_
  refine .bind (addUsage_keeps work_overlooks) fun _ => ?_
  refine .bind report_completes.keeps fun seen => ?_
  split
  · exact settle_keepsWork _
  · refine
      .bind (escalate_keeps work_overlooks (fun _ _ => rfl) task _ _)
        fun last => ?_
    refine .bind (restoreGap_keeps (fun _ _ => rfl) task last) fun _ => ?_
    unfold settleRecovery
    split
    · exact settle_keepsWork _
    · refine .bind (settle_keepsWork _) fun _ => ?_
      split
      · exact (checkSlater_announces work_overlooks task true).keeps
      · exact .pure _

/-- The solver works on what was prepared for it, and leaves it as it is. -/
theorem solveBySolver_keepsWork (task : SolveTask α) :
    Keeps (fun run => run.work) (solveBySolver task : SolveM σ τ α Unit) := by
  refine .bind (openWithSlater_keeps work_overlooks task) fun _ => ?_
  refine .bind ?_ fun _ => ?_
  · exact
      timed_keeps work_overlooks (solveDirectly_keeps work_overlooks task) _
  refine .bind (settle_keepsWork _) fun _ => ?_
  refine .bind report_completes.keeps fun seen => ?_
  split
  · exact .pure _
  refine .bind (timeIsUp_completes work_overlooks task).keeps fun isUp => ?_
  split
  · exact .pure _
  · exact timed_keeps work_overlooks (recover_keepsWork task) _

end Keeping

section Leaving

variable [Solver σ α] {task : SolveTask α} {run : SolveRun σ τ α}

/--
A step ends with what presolve finds for the problem of a task, or fails without a
verdict.
-/
def LeavesSwept
    (task : SolveTask α)
    (result : EStateM.Result (Fault α) (SolveRun σ τ α) β) :
    Prop :=
  Ends
    (fun _ next =>
      next.work.HasSwept task.store task.sentinel task.settings)
    (fun _ next =>
      next.verdict = .unsolved ∨
        next.work.HasSwept task.store task.sentinel task.settings)
    result

omit [Solver σ α] in
/-- What leaves the workspace alone leaves what has been found. -/
theorem LeavesSwept.ofKeeps
    {step : SolveM σ τ α β}
    (keeps : Keeps (fun run => run.work) step)
    (found : run.work.HasSwept task.store task.sentinel task.settings) :
    LeavesSwept task (step run) := by
  have stillFound
      {last : SolveRun σ τ α}
      (sameWork : last.work = run.work) :
      last.work.HasSwept task.store task.sentinel task.settings := by
    rw [sameWork]
    exact found
  exact
    (keeps.ends run).mono (fun _ _ => stillFound) fun _ _ same =>
      .inr (stillFound same)

omit [Solver σ α] in
/-- After a step that leaves what has been found, another such step may follow. -/
theorem LeavesSwept.bind
    {first : SolveM σ τ α β}
    {second : β → SolveM σ τ α γ}
    (leaves : LeavesSwept task (first run))
    (continues :
      ∀ answer (next : SolveRun σ τ α),
        next.work.HasSwept task.store task.sentinel task.settings →
        LeavesSwept task (second answer next)) :
    LeavesSwept task ((first >>= second) run) :=
  Ends.bind leaves (fun _ _ => id) continues

omit [Solver σ α] in
theorem presolve_leavesSwept
    (task : SolveTask α)
    (unsolved : run.verdict = .unsolved) :
    LeavesSwept task (timed "preprocess" (presolve task) run) := by
  have swept :
      (run.work.presolve task.store task.sentinel
        task.settings).1.HasSwept task.store task.sentinel task.settings :=
    run.work.presolve_hasSwept
  refine timed_ends ((presolve_writes task _).mono ?_ ?_)
  · rintro outcome next ⟨presolved, _⟩
    rw [presolved] at swept
    exact swept
  · rintro _ next ⟨_, written⟩
    rw [written]
    exact .inl unsolved

omit [Solver σ α] in
theorem compact_leavesSwept
    (found : run.work.HasSwept task.store task.sentinel task.settings) :
    LeavesSwept task (timed "preprocess" (compact task) run) := by
  refine timed_ends ?_
  unfold compact
  dsimp only
  cases result : run.work.compact task.store run.memory with
  | ok work => exact found.compact result
  | error fault => exact .inr found

theorem settleDirectly_leavesSwept
    (verdict : Verdict α)
    (count : Tally → Tally)
    (found : run.work.HasSwept task.store task.sentinel task.settings) :
    LeavesSwept task (settleDirectly verdict count run) :=
  .ofKeeps (.modify fun _ => rfl) found

variable [OneVariableSolver τ α]

/-- What goes on after presolve leaves what has been found. -/
theorem solveUndecided_leavesSwept
    (fixedObjective : α)
    (found : run.work.HasSwept task.store task.sentinel task.settings) :
    LeavesSwept task (solveUndecided task fixedObjective run) := by
  rw [solveUndecided_eq]
  have tried :
      Keeps (fun run => run.work)
        (timed "onevar" (solveOneVariable task fixedObjective) :
          SolveM σ τ α (Option (OneVariableResult α))) :=
    timed_keeps work_overlooks
      (solveOneVariable_keeps (fun _ _ => rfl) task fixedObjective) _
  refine .bind (.ofKeeps tried found) fun result next nextFound => ?_
  cases result with
  | some result =>
      exact settleDirectly_leavesSwept _ _ nextFound
  | none =>
      refine .bind (compact_leavesSwept nextFound) fun _ ready readyFound => ?_
      exact .ofKeeps (solveBySolver_keepsWork task) readyFound

/-- A solve that gets past contradicting bounds leaves what presolve has found. -/
theorem solve_leavesSwept
    (consistent : task.boundsContradict = false)
    (unsolved : run.verdict = .unsolved) :
    LeavesSwept task (solve task run) := by
  unfold solve
  rw [if_neg (by simp [consistent])]
  refine .bind (presolve_leavesSwept task unsolved) fun outcome next found => ?_
  cases outcome with
  | infeasible => exact settleDirectly_leavesSwept _ _ found
  | allFixed feasible => exact settleDirectly_leavesSwept _ _ found
  | undecided fixedObjective =>
      exact solveUndecided_leavesSwept fixedObjective found

end Leaving

end SolveM

namespace Session

open SessionM

variable [Solver σ α] [OneVariableSolver τ α]

/--
A solve that leaves the verdict that the solver has the answer, whether it ends well or
not, leaves what presolve has found for the stored problem.
-/
theorem solve_hasSwept
    {session : Session σ τ α}
    {options : SolveOptions α}
    {watch : Nat → α}
    {byPenalty : Bool}
    (bySolver :
      (stateAfter (solve options watch session)).run.verdict =
        .solved byPenalty) :
    (stateAfter (solve options watch session)).run.work.HasSwept session.store
      session.sentinel session.settings := by
  let fits (work : Workspace α) (verdict : Verdict α) : Prop :=
    verdict = .solved byPenalty →
      work.HasSwept session.store session.sentinel session.settings
  have course
      {run : SolveRun σ τ α}
      (unsolved : run.verdict = .unsolved) :
      Ends
        (fun _ next => fits next.work next.verdict)
        (fun _ next => fits next.work next.verdict)
        (SolveM.solve (session.task options watch) run) := by
    cases consistent : (session.task options watch).boundsContradict with
    | false =>
        refine (SolveM.solve_leavesSwept consistent unsolved).mono ?_ ?_
        · exact fun _ _ found _ => found
        · rintro _ next (stillUnsolved | found) isSolved
          · rw [stillUnsolved] at isSolved
            cases isSolved
          · exact found
    | true =>
        unfold SolveM.solve
        rw [if_pos consistent]
        exact fun isSolved => nomatch isSolved
  have unsolved : fits session.cleared.run.work session.cleared.run.verdict :=
    fun isSolved => nomatch isSolved
  have solvedTask :=
    Ends.always_iff.mp
      (solveTask_leaves fits fits (fun _ _ => id) unsolved
        fun run _ _ sameVerdict => course sameVerdict)
  have ends :
      fits
        (stateAfter (solve options watch session)).run.work
        (stateAfter (solve options watch session)).run.verdict := by
    rw [solve_eq]
    split
    · exact unsolved
    · exact solvedTask
  exact ends bySolver

end Session

end SdpRelay
