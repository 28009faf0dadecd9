import SdpRelay.Problem.Check
import SdpRelay.Problem.RowTable

namespace SdpRelay

/-!
# The problem store

A program between solves. The matrices of all blocks lie in two shared triplet
lists, and the linear rows in one compressed table; a block only records which
positions of the shared lists belong to it. `Store.toProgram` recovers the list
view. An edit that is refused leaves the store as it was, because a refused
edit yields no store.
-/

/-- Where the matrices of a block lie in the shared lists, each as a first position and a stop. -/
structure BlockLayout where
  size : Nat
  vars : List Nat
  ranges : List (Nat × Nat)
  constant : Nat × Nat
  deriving Repr, DecidableEq

/-- The stored problem. -/
structure Store (α : Type) where
  objective : List α
  lower : List α
  upper : List α
  integral : List Bool
  layouts : List BlockLayout
  /-- Entries of all coefficient matrices. -/
  matrices : Triplets α
  /-- Entries of all constant matrices. -/
  constants : Triplets α
  rows : RowTable α
  deriving Repr, DecidableEq

namespace Store

variable {α : Type} [Scalar α]

/-- The store without variables. -/
def empty : Store α :=
  {
    objective := []
    lower := []
    upper := []
    integral := []
    layouts := []
    matrices := Triplets.empty
    constants := Triplets.empty
    rows := RowTable.empty
  }

/-- Number of variables. -/
def variableCount (store : Store α) : Nat :=
  store.objective.length

/-- Number of blocks. -/
def blockCount (store : Store α) : Nat :=
  store.layouts.length

/-- The block described by a layout. -/
def blockOf
    (store : Store α)
    (layout : BlockLayout) :
    Block α :=
  {
    size := layout.size
    terms :=
      (layout.vars.zip layout.ranges).map fun (var, start, stop) =>
        { var := var, entries := store.matrices.slice start stop }
    constant := store.constants.slice layout.constant.1 layout.constant.2
  }

/-- The blocks in order. -/
def blocks (store : Store α) : List (Block α) :=
  store.layouts.map store.blockOf

/-- The list view of the stored problem. -/
def toProgram (store : Store α) : Program α :=
  {
    objective := store.objective
    lower := store.lower
    upper := store.upper
    integral := some store.integral
    blocks := store.blocks
    rows := store.rows.toRows
  }

/-- Put the matrices of one term behind the shared entries. -/
def addTerm
    (layout : BlockLayout)
    (matrices : Triplets α)
    (term : BlockTerm α) :
    BlockLayout × Triplets α :=
  let extended := matrices.append term.entries
  ({
      layout with
      vars := layout.vars ++ [term.var]
      ranges := layout.ranges ++ [(matrices.count, extended.count)]
    },
    extended)

/-- Put one block behind the others. -/
def addBlock
    (store : Store α)
    (block : Block α) :
    Store α :=
  let constants := store.constants.append block.constant
  let start : BlockLayout :=
    {
      size := block.size
      vars := []
      ranges := []
      constant := (store.constants.count, constants.count)
    }
  let (layout, matrices) :=
    block.terms.foldl
      (fun (layout, matrices) term => addTerm layout matrices term)
      (start, store.matrices)
  {
    store with
    layouts := store.layouts ++ [layout]
    matrices := matrices
    constants := constants
  }

/-- The store of a program that has been checked. -/
def ofProgram (program : Program α) : Store α :=
  program.blocks.foldl addBlock
    {
      empty with
      objective := program.objective
      lower := program.lower
      upper := program.upper
      integral := program.integralFlags
      rows := RowTable.empty.pushAll program.rows
    }

/-- Store a program in place of what was stored. -/
def load
    (sentinel : α)
    (program : Program α) :
    Except (StoreFault α) (Store α) := do
  Check.program sentinel program
  return ofProgram program

/-- Append linear rows. -/
def addRows
    (store : Store α)
    (sentinel : α)
    (rows : List (LinearRow α)) :
    Except (StoreFault α) (Store α) := do
  rows.forM (Check.row sentinel store.variableCount)
  return { store with rows := store.rows.pushAll rows }

/-- Delete the linear rows `first` to `last`, both included. -/
def deleteRows
    (store : Store α)
    (first last : Nat) :
    Except (StoreFault α) (Store α) :=
  if first ≤ last ∧ last < store.rows.rowCount then
    .ok { store with rows := store.rows.deleteRange first last }
  else
    .error (.invalidRowRange first last store.rows.rowCount)

/-- Delete the flagged linear rows, and tell where every row went. -/
def deleteRowSet
    (store : Store α)
    (flags : List Bool) :
    Except (StoreFault α) (Store α × List (Option Nat)) := do
  Check.length "row deletion mask" flags.length store.rows.rowCount
  return (
    { store with rows := store.rows.deleteFlagged flags 0 },
    RowTable.positionsAfter flags 0)

/-- All variables of a list exist. -/
def checkVariables
    (store : Store α)
    (vars : List Nat) :
    Except (StoreFault α) Unit :=
  match vars.find? (fun var => decide (store.variableCount ≤ var)) with
  | some var => .error (.missingVariable var)
  | none => .ok ()

/-- Change objective coefficients, later changes overriding earlier ones. -/
def changeObjective
    (store : Store α)
    (vars : List Nat)
    (values : List α) :
    Except (StoreFault α) (Store α) := do
  Check.length "objective values" values.length vars.length
  store.checkVariables vars
  return {
    store with
    objective :=
      (vars.zip values).foldl
        (fun objective (var, value) => objective.set var value)
        store.objective
  }

/-- Change bounds of variables, later changes overriding earlier ones. -/
def changeBounds
    (store : Store α)
    (sentinel : α)
    (vars : List Nat)
    (lowers uppers : List α) :
    Except (StoreFault α) (Store α) := do
  Check.length "lower bounds" lowers.length vars.length
  Check.length "upper bounds" uppers.length vars.length
  store.checkVariables vars
  (lowers.zip uppers).forM
    fun (lower, upper) => Check.bounds sentinel lower upper
  return {
    store with
    lower :=
      (vars.zip lowers).foldl
        (fun lower (var, value) => lower.set var value)
        store.lower
    upper :=
      (vars.zip uppers).foldl
        (fun upper (var, value) => upper.set var value)
        store.upper
  }

/-- Change sides of linear rows, later changes overriding earlier ones. -/
def changeSides
    (store : Store α)
    (sentinel : α)
    (rows : List Nat)
    (lefts rights : List α) :
    Except (StoreFault α) (Store α) := do
  Check.length "left hand sides" lefts.length rows.length
  Check.length "right hand sides" rights.length rows.length
  match rows.find? (fun row => decide (store.rows.rowCount ≤ row)) with
  | some row => .error (.missingRow row)
  | none => .ok ()
  (lefts.zip rights).forM
    fun (left, right) => Check.sides sentinel left right
  return {
    store with
    rows :=
      (rows.zip (lefts.zip rights)).foldl
        (fun table (row, left, right) => table.setSides row left right)
        store.rows
  }

end Store

end SdpRelay
