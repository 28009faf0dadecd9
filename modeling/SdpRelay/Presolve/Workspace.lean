import SdpRelay.Linear.Eigenpair
import SdpRelay.Presolve.Compaction
import SdpRelay.Presolve.Rows

namespace SdpRelay

/-!
# The presolve workspace

Everything that presolve derives from the stored problem. A workspace lives as
long as its session and is brought up to date step by step: `reset`, `propagate`,
then either `checkFixed` or `foldConstants` and `compact`. Each step replaces its
own part of the workspace and reads the parts of the steps before it.
-/

/-- What presolve has derived so far. -/
structure Workspace (α : Type) where
  /-- Bounds that differ by at most this count as fixed. -/
  epsilon : α
  bounds : Bounds α
  rows : KeptRows α
  /-- The constant matrix of every block with the fixed variables folded in. -/
  constants : List (Triplets α)
  compaction : Compaction
  /-- Eigenvectors from the check of a fixed point. -/
  fixedVectors : List (Option (List α))
  deriving Repr, DecidableEq

namespace Workspace

variable {α : Type} [Scalar α]

/-- A workspace that has seen no problem. -/
def empty : Workspace α :=
  {
    epsilon := 0
    bounds := Bounds.ofStored [] []
    rows := KeptRows.empty
    constants := []
    compaction := Compaction.empty
    fixedVectors := []
  }

/-- Start over from the bounds of a store. -/
def reset
    (work : Workspace α)
    (store : Store α)
    (settings : Settings α) :
    Workspace α :=
  {
    work with
    epsilon := settings.epsilon
    bounds := Bounds.ofStored store.lower store.upper
    fixedVectors := []
  }

/-- A variable is fixed. -/
def Fixed
    (work : Workspace α)
    (var : Nat) :
    Prop :=
  work.bounds.Fixed work.epsilon var

instance
    (work : Workspace α)
    (var : Nat) :
    Decidable (work.Fixed var) :=
  inferInstanceAs (Decidable (work.bounds.Fixed work.epsilon var))

/-- The variables that are not fixed. -/
def activeVariables (work : Workspace α) : List Nat :=
  (List.range work.bounds.lower.length).filter fun var =>
    !decide (work.Fixed var)

/-- Take over the bounds and the kept rows of a pass. -/
def afterPass
    (work : Workspace α)
    (pass : RowPass α) :
    Workspace α :=
  { work with bounds := pass.bounds, rows := pass.kept }

/-- One pass over the rows. -/
def passRows
    (work : Workspace α)
    (store : Store α)
    (sentinel : α)
    (settings : Settings α) :
    Workspace α × PassSummary :=
  let pass := RowPass.run store sentinel settings work.bounds
  (work.afterPass pass, pass.summary)

/-- Passes over the rows until nothing more gets fixed. -/
def propagate
    (work : Workspace α)
    (store : Store α)
    (sentinel : α)
    (settings : Settings α) :
    Workspace α × PassSummary :=
  let pass := RowPass.propagate store sentinel settings work.bounds
  (work.afterPass pass, pass.summary)

/-- The contribution of the fixed variables to the objective. -/
def fixedObjective
    (work : Workspace α)
    (store : Store α) :
    α :=
  (store.objective.zipIdx.foldl
    (fun total (coef, var) =>
      if work.Fixed var then
        DoubleWord.addProduct total coef (work.bounds.lowerAt var)
      else
        total)
    DoubleWord.zero).value

/-- The terms of a block that fold into its constant: those of fixed variables not close to zero. -/
def foldedTerms
    (work : Workspace α)
    (block : Block α) :
    List (BlockTerm α) :=
  block.terms.filter fun term =>
    decide (work.Fixed term.var) &&
      decide (work.epsilon < Scalar.abs (work.bounds.lowerAt term.var))

/-- The constant of a block minus the terms that fold into it. -/
def foldedConstant
    (work : Workspace α)
    (block : Block α) :
    Triplets α :=
  ((work.foldedTerms block).foldl
    (fun constant term =>
      constant.appendScaled term.entries (-work.bounds.lowerAt term.var))
    block.constant).merge work.epsilon

/-- How many entries the constant of a block has before those at one place are added up. -/
def foldedCount
    (work : Workspace α)
    (block : Block α) :
    Nat :=
  (work.foldedTerms block).foldl
    (fun count term => count + term.entries.count)
    block.constant.count

/-- Fold the fixed variables into the constants of all blocks. -/
def foldConstants
    (work : Workspace α)
    (store : Store α) :
    Workspace α :=
  { work with constants := store.blocks.map work.foldedConstant }

/-- All that the folding reserves is granted. -/
def coversFolding
    (work : Workspace α)
    (store : Store α)
    (memory : Memory) :
    Bool :=
  memory.grants (.constantList store.blockCount) &&
    store.blocks.zipIdx.all fun (block, b) =>
      memory.grants (.constant b (work.foldedCount block))

/-- The workspace with the indices and blocks that nothing touches removed. -/
def compacted
    (work : Workspace α)
    (store : Store α) :
    Workspace α :=
  {
    work with
    compaction :=
      Compaction.ofBlocks work.bounds work.epsilon store.blocks
        work.constants
  }

/-- Remove the indices and blocks that nothing touches, if there is memory for the maps. -/
def compact
    (work : Workspace α)
    (store : Store α)
    (memory : Memory := Memory.common) :
    Except MemoryFault (Workspace α) :=
  if memory.covers (store.blocks.map Block.size) then
    .ok (work.compacted store)
  else
    .error .outOfMemory

/-- The matrix of a block at the lower bounds, leaving out values smaller than `epsilon`. -/
def fixedMatrix
    (work : Workspace α)
    (epsilon : α)
    (block : Block α) :
    SquareMatrix α :=
  block.terms.foldl
    (fun matrix term =>
      let value := work.bounds.lowerAt term.var
      if Scalar.abs value < epsilon then
        matrix
      else
        term.entries.addTo matrix value)
    (block.constant.addTo (SquareMatrix.zeros block.size) (-1))

/--
Check blocks at the lower bounds by their smallest eigenvalues, up to the first
block that is violated. The result lists the eigenvectors of the blocks seen.
-/
def checkBlocks
    (work : Workspace α)
    (settings : Settings α) :
    List (Block α) →
      List (Option (List α)) × Except EigenFault Bool
  | [] => ([], .ok true)
  | block :: rest =>
      if block.size = 0 then
        let (vectors, feasible) := checkBlocks work settings rest
        (none :: vectors, feasible)
      else
        match smallestEigenpair (work.fixedMatrix settings.epsilon block)
            settings.keepsFixedVectors with
        | .error fault => ([], .error fault)
        | .ok pair =>
            if pair.eigenvalue < -settings.feasTolerance then
              ([pair.eigenvector], .ok false)
            else
              let (vectors, feasible) := checkBlocks work settings rest
              (pair.eigenvector :: vectors, feasible)

/-- With every variable fixed, check that all blocks are positive semidefinite. -/
def checkFixed
    (work : Workspace α)
    (store : Store α)
    (settings : Settings α) :
    Workspace α × Except EigenFault Bool :=
  let (vectors, feasible) := work.checkBlocks settings store.blocks
  ({ work with fixedVectors := vectors }, feasible)

end Workspace

end SdpRelay
