import Mathlib.Tactic.Common
import SdpRelay.Solve.Run

namespace SdpRelay

/-!
# Workspaces do not remember

A session presolves all its problems in one workspace.  What presolve finds
depends on the stored problem and the settings alone, and so does the workspace
that a solver is given its problem from, whatever the workspace held before.
-/

variable {α : Type} [Scalar α]

namespace Workspace

/-- The workspace after all passes over the rows. -/
def swept
    (work : Workspace α)
    (store : Store α)
    (sentinel : α)
    (settings : Settings α) :
    Workspace α :=
  ((work.reset store settings).propagate store sentinel settings).1

variable
  {store : Store α}
  {sentinel : α}
  {settings : Settings α}

/-- The three ways in which presolve goes on after the passes over the rows. -/
theorem presolve_eq (work : Workspace α) :
    let swept := work.swept store sentinel settings
    let checked := swept.checkBlocks settings store.blocks
    work.presolve store sentinel settings =
      if (RowPass.propagate store sentinel settings
          (Bounds.ofStored store.lower store.upper)).summary.infeasible then
        (swept, .ok .infeasible)
      else if swept.activeVariables.isEmpty then
        ({ swept with fixedVectors := checked.1 }, checked.2.map .allFixed)
      else
        (swept.foldConstants store,
          .ok (.undecided (swept.fixedObjective store))) :=
  rfl

/-- Whatever presolve comes to, it leaves the bounds of the passes over the rows. -/
theorem presolve_bounds (work : Workspace α) :
    (work.presolve store sentinel settings).1.bounds =
      (RowPass.propagate store sentinel settings
        (Bounds.ofStored store.lower store.upper)).bounds := by
  rw [presolve_eq]
  split
  · rfl
  · split
    · rfl
    · rfl

/-- The check of a fixed point reads the bounds of a workspace only. -/
theorem checkBlocks_congr
    {work other : Workspace α}
    (sameBounds : work.bounds = other.bounds)
    (settings : Settings α)
    (blocks : List (Block α)) :
    work.checkBlocks settings blocks = other.checkBlocks settings blocks := by
  induction blocks with
  | nil =>
      rfl
  | cons block rest inductionHypothesis =>
      have sameMatrix :
          work.fixedMatrix settings.epsilon block =
            other.fixedMatrix settings.epsilon block := by
        simp only [fixedMatrix, sameBounds]
      simp only [checkBlocks, inductionHypothesis, sameMatrix]

/-- A presolve that leaves no variable free found no contradiction and checked the blocks. -/
theorem presolve_closed
    {work found : Workspace α}
    {feasible : Bool}
    (presolved :
      work.presolve store sentinel settings =
        (found, .ok (.allFixed feasible))) :
    let swept := work.swept store sentinel settings
    ∃ vectors,
      ¬ (RowPass.propagate store sentinel settings
            (Bounds.ofStored store.lower store.upper)).summary.infeasible ∧
        swept.activeVariables = [] ∧
        swept.checkBlocks settings store.blocks = (vectors, .ok feasible) ∧
        found = { swept with fixedVectors := vectors } := by
  intro swept
  rw [presolve_eq] at presolved
  split at presolved
  · cases presolved
  rename_i noContradiction
  split at presolved
  · rename_i noneActive
    cases checked : swept.checkBlocks settings store.blocks with
    | mk vectors outcome =>
        rw [checked] at presolved
        cases outcome with
        | error fault =>
            cases presolved
        | ok passed =>
            cases presolved
            exact
              ⟨vectors, noContradiction, List.isEmpty_iff.mp noneActive, rfl,
                rfl⟩
  · cases presolved

/-- It keeps what the check found. -/
theorem presolve_checks
    {work found : Workspace α}
    {feasible : Bool}
    (presolved :
      work.presolve store sentinel settings =
        (found, .ok (.allFixed feasible))) :
    found.checkBlocks settings store.blocks =
      (found.fixedVectors, .ok feasible) := by
  obtain ⟨vectors, _, _, checked, rfl⟩ := presolve_closed presolved
  rw [← checked]
  apply checkBlocks_congr
  rfl

/-- Presolve comes to the same outcome from any workspace. -/
theorem presolve_outcome (work other : Workspace α) :
    (work.presolve store sentinel settings).2 =
      (other.presolve store sentinel settings).2 := by
  have sameChecks :
      (work.swept store sentinel settings).checkBlocks settings store.blocks =
        (other.swept store sentinel settings).checkBlocks settings
          store.blocks := by
    apply checkBlocks_congr
    rfl
  have sameActive :
      (work.swept store sentinel settings).activeVariables =
        (other.swept store sentinel settings).activeVariables :=
    rfl
  rw [presolve_eq work, presolve_eq other, sameChecks, sameActive]
  split
  · rfl
  · split
    · rfl
    · rfl

/-- A presolve that leaves something to solve found no contradiction and a free variable. -/
theorem presolve_open
    {work found : Workspace α}
    {fixedObjective : α}
    (undecided :
      work.presolve store sentinel settings =
        (found, .ok (.undecided fixedObjective))) :
    let swept := work.swept store sentinel settings
    ¬ (RowPass.propagate store sentinel settings
          (Bounds.ofStored store.lower store.upper)).summary.infeasible ∧
      ¬ swept.activeVariables.isEmpty ∧
      found = swept.foldConstants store ∧
      fixedObjective = swept.fixedObjective store := by
  intro swept
  rw [presolve_eq] at undecided
  split at undecided
  · cases undecided
  rename_i feasible
  split at undecided
  · have decided := congrArg Prod.snd undecided
    simp only [Except.map] at decided
    split at decided
    · cases decided
    · cases decided
  · rename_i notFixed
    cases undecided
    exact ⟨feasible, notFixed, rfl, rfl⟩

/-- It rewrites everything but the compaction. -/
theorem presolve_forgets
    {work found : Workspace α}
    {fixedObjective : α}
    (undecided :
      work.presolve store sentinel settings =
        (found, .ok (.undecided fixedObjective)))
    (other : Workspace α) :
    other.presolve store sentinel settings =
      ({ found with compaction := other.compaction },
        .ok (.undecided fixedObjective)) := by
  obtain ⟨feasible, notFixed, rfl, rfl⟩ := presolve_open undecided
  rw [presolve_eq, if_neg feasible]
  exact if_neg notFixed

/-- Memory decides whether a workspace is compacted, and not how. -/
theorem compact_eq_ok
    {work next : Workspace α}
    {store : Store α}
    {memory : Memory} :
    work.compact store memory = .ok next ↔
      memory.covers (store.blocks.map Block.size) = true ∧
        work.compacted store = next := by
  unfold compact
  split
  · rename_i covers
    simp only [covers, true_and, Except.ok.injEq]
  · rename_i scarce
    simp only [scarce, false_and, reduceCtorEq]

/-- The compaction of a workspace is found without looking at an older one. -/
theorem compacted_forgets
    (work : Workspace α)
    (store : Store α)
    (old : Compaction) :
    ({ work with compaction := old } : Workspace α).compacted store =
      work.compacted store :=
  rfl

end Workspace

/-- What presolve makes of the problem of a task, in whatever workspace. -/
def SolveTask.presolved
    (task : SolveTask α) :
    Except EigenFault (PresolveOutcome α) :=
  (Workspace.empty.presolve task.store task.sentinel task.settings).2

/-- The workspace that a solver is given the problem from, unless presolve decides it. -/
def SolveTask.prepared? (task : SolveTask α) : Option (Workspace α) :=
  match Workspace.empty.presolve task.store task.sentinel task.settings with
  | (work, .ok (.undecided _)) => some (work.compacted task.store)
  | _ => none

/-- The prepared workspace comes out of any workspace. -/
theorem SolveTask.prepared?_eq
    {task : SolveTask α}
    {before found : Workspace α}
    {fixedObjective : α}
    (undecided :
      before.presolve task.store task.sentinel task.settings =
        (found, .ok (.undecided fixedObjective))) :
    task.prepared? = some (found.compacted task.store) := by
  unfold prepared?
  rw [Workspace.presolve_forgets undecided Workspace.empty]
  rfl

/-- A problem that is handed over keeps the bounds that presolve has found. -/
theorem SolveTask.prepared?_bounds
    {task : SolveTask α}
    {before found work : Workspace α}
    {fixedObjective : α}
    (presolved :
      before.presolve task.store task.sentinel task.settings =
        (found, .ok (.undecided fixedObjective)))
    (prepared : task.prepared? = some work) :
    work.bounds = found.bounds := by
  rw [prepared?_eq presolved] at prepared
  cases prepared
  rfl

/-- A problem that is handed over was left undecided by presolve and then compacted. -/
theorem SolveTask.exists_of_prepared
    {task : SolveTask α}
    {work : Workspace α}
    (prepared : task.prepared? = some work) :
    ∃ found fixedObjective,
      Workspace.empty.presolve task.store task.sentinel task.settings =
          (found, .ok (.undecided fixedObjective)) ∧
        found.compacted task.store = work := by
  unfold prepared? at prepared
  split at prepared
  · rename_i found fixedObjective presolved
    cases prepared
    exact ⟨found, fixedObjective, presolved, rfl⟩
  · cases prepared

end SdpRelay
