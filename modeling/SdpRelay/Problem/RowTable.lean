import SdpRelay.Problem.Program

namespace SdpRelay

/-!
# Compressed rows

All rows of a table share one list of variables and one list of coefficients;
row `i` owns the positions from `starts[i]` up to `starts[i + 1]`. `RowTable.toRows`
is the list view that the other operations are described by.
-/

/-- Linear rows in compressed form. -/
structure RowTable (α : Type) where
  lefts : List α
  rights : List α
  starts : List Nat
  vars : List Nat
  coefs : List α
  deriving Repr, DecidableEq

namespace RowTable

variable {α : Type}

/-- The table without rows. -/
def empty : RowTable α :=
  { lefts := [], rights := [], starts := [0], vars := [], coefs := [] }

/-- Number of rows. -/
def rowCount (table : RowTable α) : Nat :=
  table.lefts.length

/-- Number of stored coefficients. -/
def termCount (table : RowTable α) : Nat :=
  table.vars.length

/-- The position at which a row starts. -/
def start
    (table : RowTable α)
    (i : Nat) :
    Nat :=
  table.starts.getD i 0

/-- The part of a list that a row owns. -/
def owned
    {β : Type}
    (table : RowTable α)
    (i : Nat)
    (items : List β) :
    List β :=
  (items.take (table.start (i + 1))).drop (table.start i)

/-- The rows of a table in order. -/
def toRows (table : RowTable α) : List (LinearRow α) :=
  (table.lefts.zip table.rights).zipIdx.map fun ((left, right), i) =>
    {
      left := left
      right := right
      vars := table.owned i table.vars
      coefs := table.owned i table.coefs
    }

/-- Append a row. -/
def push
    (table : RowTable α)
    (row : LinearRow α) :
    RowTable α :=
  {
    lefts := table.lefts ++ [row.left]
    rights := table.rights ++ [row.right]
    starts := table.starts ++ [table.vars.length + row.vars.length]
    vars := table.vars ++ row.vars
    coefs := table.coefs ++ row.coefs
  }

/-- Append several rows. -/
def pushAll
    (table : RowTable α)
    (rows : List (LinearRow α)) :
    RowTable α :=
  rows.foldl push table

/-- Cut the positions from `first` up to, not including, `stop` out of a list. -/
def cut
    {β : Type}
    (items : List β)
    (first stop : Nat) :
    List β :=
  items.take first ++ items.drop stop

/-- Delete the rows `first` to `last`, both included; later rows start earlier by what they owned. -/
def deleteRange
    (table : RowTable α)
    (first last : Nat) :
    RowTable α :=
  let begins := table.start first
  let ends := table.start (last + 1)
  {
    lefts := cut table.lefts first (last + 1)
    rights := cut table.rights first (last + 1)
    starts :=
      table.starts.take (first + 1) ++
        (table.starts.drop (last + 2)).map (· - (ends - begins))
    vars := cut table.vars begins ends
    coefs := cut table.coefs begins ends
  }

/-- Delete the flagged rows, the first flag belonging to the row at `position`. -/
def deleteFlagged :
    List Bool → Nat → RowTable α → RowTable α
  | [], _, table => table
  | true :: rest, position, table =>
      deleteFlagged rest position (table.deleteRange position position)
  | false :: rest, position, table =>
      deleteFlagged rest (position + 1) table

/-- The position of every row after deleting the flagged ones, if it is kept. -/
def positionsAfter : List Bool → Nat → List (Option Nat)
  | [], _ => []
  | true :: rest, position => none :: positionsAfter rest position
  | false :: rest, position => some position :: positionsAfter rest (position + 1)

/-- Replace the sides of one row. -/
def setSides
    (table : RowTable α)
    (i : Nat)
    (left right : α) :
    RowTable α :=
  {
    table with
    lefts := table.lefts.set i left
    rights := table.rights.set i right
  }

end RowTable

end SdpRelay
