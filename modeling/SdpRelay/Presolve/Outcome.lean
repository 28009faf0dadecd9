import SdpRelay.Presolve.Workspace

namespace SdpRelay

/-!
# The outcome of presolve

Presolve either decides a problem on its own, because the rows contradict each
other or because no variable is left free, or it leaves a smaller problem to be
solved.
-/

/-- What presolve makes of a problem. -/
inductive PresolveOutcome (α : Type) where
  | infeasible
  /-- No variable is free; the blocks hold or not. -/
  | allFixed (feasible : Bool)
  /-- There is something left to solve; the fixed variables contribute to the objective. -/
  | undecided (fixedObjective : α)
  deriving Repr, DecidableEq

namespace Workspace

variable {α : Type} [Scalar α]

/-- Bring the workspace up to date with a stored problem, except for its compaction. -/
def presolve
    (work : Workspace α)
    (store : Store α)
    (sentinel : α)
    (settings : Settings α) :
    Workspace α × Except EigenFault (PresolveOutcome α) :=
  let (passed, summary) :=
    (work.reset store settings).propagate store sentinel settings
  if summary.infeasible then
    (passed, .ok .infeasible)
  else if passed.activeVariables.isEmpty then
    let (checked, feasible) := passed.checkFixed store settings
    (checked, feasible.map .allFixed)
  else
    (passed.foldConstants store,
      .ok (.undecided (passed.fixedObjective store)))

end Workspace

end SdpRelay
