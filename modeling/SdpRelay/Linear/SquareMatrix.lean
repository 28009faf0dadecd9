import SdpRelay.Number.Scalar

namespace SdpRelay

/-!
# Dense square matrices

Entries are stored by columns. Symmetric matrices are built up one entry of the
lower triangle at a time, and a matrix that depends on its indices by a formula
is tabulated.
-/

/-- A square matrix with its entries by columns. -/
structure SquareMatrix (α : Type) where
  size : Nat
  /-- Row `i` of column `j` stands at position `i + j * size`. -/
  data : Array α
  deriving Repr, DecidableEq

namespace SquareMatrix

variable {α : Type} [Scalar α]

/-- The entry in row `i` and column `j`. -/
def get (m : SquareMatrix α) (i j : Nat) : α :=
  m.data.getD (i + j * m.size) 0

/-- The matrix with a given formula for its entries. -/
def tabulate
    (size : Nat)
    (entry : Nat → Nat → α) :
    SquareMatrix α :=
  {
    size := size
    data := Array.ofFn fun position : Fin (size * size) =>
      entry (position.val % size) (position.val / size)
  }

/-- The zero matrix. -/
def zeros (size : Nat) : SquareMatrix α :=
  tabulate size fun _ _ => 0

/-- The identity matrix. -/
def identity (size : Nat) : SquareMatrix α :=
  tabulate size fun i j => if i = j then 1 else 0

/-- The matrix `factor * v * v'`. -/
def rankOne
    (v : List α)
    (factor : α) :
    SquareMatrix α :=
  tabulate v.length fun i j => factor * v.getD i 0 * v.getD j 0

/-- The matrix all of whose entries are one value. -/
def constant
    (size : Nat)
    (value : α) :
    SquareMatrix α :=
  tabulate size fun _ _ => value

/-- Replace one entry. -/
def set
    (m : SquareMatrix α)
    (i j : Nat)
    (value : α) :
    SquareMatrix α :=
  { m with data := m.data.setIfInBounds (i + j * m.size) value }

/-- Add to one entry. -/
def addAt
    (m : SquareMatrix α)
    (i j : Nat)
    (value : α) :
    SquareMatrix α :=
  { m with data := m.data.modify (i + j * m.size) (· + value) }

/-- Add to an entry and to the entry across the diagonal. -/
def addSymmetric
    (m : SquareMatrix α)
    (row col : Nat)
    (value : α) :
    SquareMatrix α :=
  if row = col then
    m.addAt row col value
  else
    (m.addAt row col value).addAt col row value

/-- The value `v' * m * v`, column by column. -/
def quadraticForm
    (m : SquareMatrix α)
    (v : List α) :
    α :=
  (List.range m.size).foldl
    (fun total j =>
      (List.range m.size).foldl
        (fun running i =>
          running + v.getD i 0 * m.get i j * v.getD j 0)
        total)
    0

end SquareMatrix

end SdpRelay
