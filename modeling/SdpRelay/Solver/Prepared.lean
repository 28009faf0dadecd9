import SdpRelay.Presolve.Workspace

namespace SdpRelay

/-!
# Prepared problems

What a solver is handed: the stored objective with the working bounds, the kept
rows, and every block with its folded constant and its compaction. Variables and
indices are numbered as in the stored problem; a solver that wants the compact
form applies the compaction itself.
-/

/-- A block as it is handed to a solver. -/
structure PreparedBlock (α : Type) where
  size : Nat
  terms : List (BlockTerm α)
  /-- The constant matrix with the fixed variables folded in. -/
  constant : Triplets α
  compaction : IndexCompaction
  deriving Repr, DecidableEq

/-- A problem as it is handed to a solver. -/
structure PreparedProblem (α : Type) where
  objective : List α
  lower : List α
  upper : List α
  blocks : List (PreparedBlock α)
  /-- Which of the blocks are kept. -/
  blockList : IndexCompaction
  rows : RowTable α
  deriving Repr, DecidableEq

namespace PreparedProblem

variable {α : Type} [Scalar α]

/-- Combine a stored problem with what presolve derived from it. -/
def ofWorkspace
    (store : Store α)
    (work : Workspace α) :
    PreparedProblem α :=
  {
    objective := store.objective
    lower := work.bounds.lower
    upper := work.bounds.upper
    blocks :=
      store.blocks.zipIdx.map fun (block, b) =>
        {
          size := block.size
          terms := block.terms
          constant := work.constants.getD b Triplets.empty
          compaction :=
            work.compaction.blocks.getD b
              (IndexCompaction.keeping block.size [])
        }
    blockList := work.compaction.blockList
    rows := work.rows.table
  }

/-- Number of variables. -/
def variableCount (problem : PreparedProblem α) : Nat :=
  problem.objective.length

end PreparedProblem

end SdpRelay
