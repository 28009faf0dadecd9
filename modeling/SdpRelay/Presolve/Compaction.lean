import SdpRelay.Presolve.Bounds
import SdpRelay.Presolve.Memory
import SdpRelay.Problem.Program

namespace SdpRelay

/-!
# Empty rows and columns

An index of a block that no free variable and no constant entry touches would
give the solver a zero row and column. Such indices, and blocks that have no
other ones, are removed. A compaction lists the indices that are kept; the place
of an index in that list is its new number, and the indices removed before it
are the amount by which it moves up.
-/

/-- The kept part of the indices below a size. -/
structure IndexCompaction where
  size : Nat
  /-- The kept indices in increasing order. -/
  kept : List Nat
  deriving Repr, DecidableEq

namespace IndexCompaction

/-- Keep the given indices, which may come in any order and more than once. -/
def keeping
    (size : Nat)
    (indices : List Nat) :
    IndexCompaction :=
  {
    size := size
    kept := ((indices.filter (· < size)).mergeSort fun i j => i ≤ j).eraseReps
  }

/-- How many indices are removed. -/
def removed (compaction : IndexCompaction) : Nat :=
  compaction.size - compaction.kept.length

/-- The new number of an index, if it is kept. -/
def newIndex
    (compaction : IndexCompaction)
    (i : Nat) :
    Option Nat :=
  compaction.kept.idxOf? i

/-- How many indices before a kept index are removed. -/
def shift
    (compaction : IndexCompaction)
    (i : Nat) :
    Option Nat :=
  (compaction.newIndex i).map (i - ·)

/-- For each index: how many indices before it are removed, or that it is removed itself. -/
def shifts (compaction : IndexCompaction) : List (Option Nat) :=
  (List.range compaction.size).map compaction.shift

/-- For each index: its new number, or that it is removed. -/
def newIndices (compaction : IndexCompaction) : List (Option Nat) :=
  (List.range compaction.size).map compaction.newIndex

end IndexCompaction

/-- All that a compaction of blocks of the given sizes reserves is granted. -/
def Memory.covers
    (memory : Memory)
    (sizes : List Nat) :
    Bool :=
  memory.grants (.blockList sizes.length) &&
    sizes.zipIdx.all fun (size, b) => memory.grants (.indexMap b size)

/-- The compaction of every block, and of the list of blocks itself. -/
structure Compaction where
  blocks : List IndexCompaction
  blockList : IndexCompaction
  deriving Repr, DecidableEq

namespace Compaction

variable {α : Type} [Scalar α]

/-- Nothing has been compacted. -/
def empty : Compaction :=
  { blocks := [], blockList := IndexCompaction.keeping 0 [] }

/-- The rows and columns in which entries are listed. -/
def touchedBy (entries : Triplets α) : List Nat :=
  entries.entries.flatMap fun entry => [entry.row, entry.col]

/-- The indices of a block that a free variable or the folded constant touches. -/
def touchedIndices
    (bounds : Bounds α)
    (epsilon : α)
    (block : Block α)
    (constant : Triplets α) :
    List Nat :=
  let free :=
    block.terms.filter fun term => !decide (bounds.Fixed epsilon term.var)
  (free.flatMap fun term => touchedBy term.entries) ++ touchedBy constant

/-- The blocks that keep at least one index. -/
def keptBlocks (blocks : List IndexCompaction) : IndexCompaction :=
  IndexCompaction.keeping blocks.length
    (blocks.zipIdx.filterMap fun (block, b) =>
      if block.kept.isEmpty then none else some b)

/-- The compaction of blocks with their folded constants. -/
def ofBlocks
    (bounds : Bounds α)
    (epsilon : α)
    (blocks : List (Block α))
    (constants : List (Triplets α)) :
    Compaction :=
  let compacted :=
    blocks.zipIdx.map fun (block, b) =>
      IndexCompaction.keeping block.size
        (touchedIndices bounds epsilon block
          (constants.getD b Triplets.empty))
  { blocks := compacted, blockList := keptBlocks compacted }

end Compaction

end SdpRelay
