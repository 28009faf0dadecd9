import SdpRelay.Linear.SquareMatrix

namespace SdpRelay

/-!
# Sparse symmetric matrices

A sparse matrix is given by the positions and values of entries in its lower
triangle, as three lists of equal length. A position may be listed more than
once; its values add up. Data from outside may have lists of different lengths,
which `Triplets.check` refuses; until then the shortest list counts.
-/

/-- One listed entry of a sparse matrix. -/
structure Entry (α : Type) where
  row : Nat
  col : Nat
  value : α
  deriving Repr, DecidableEq

/-- What is wrong with a sparse matrix. -/
inductive FormatFault where
  | lengthMismatch
  | notLowerTriangular (row col : Nat)
  | indexOutOfRange (index size : Nat)
  deriving Repr, DecidableEq

/-- The sentence that describes a fault. -/
def FormatFault.message : FormatFault → String
  | .lengthMismatch => "Triplet array lengths are incompatible"
  | .notLowerTriangular row col =>
      s!"Entry ({row},{col}) is not in the lower triangle"
  | .indexOutOfRange index size =>
      s!"Index {index} exceeds matrix dimension {size}"

/-- The listed entries of a sparse matrix, as parallel lists. -/
structure Triplets (α : Type) where
  rows : List Nat
  cols : List Nat
  values : List α
  deriving Repr, DecidableEq

namespace Triplets

variable {α : Type} [Scalar α]

/-- The matrix without entries. -/
def empty : Triplets α :=
  { rows := [], cols := [], values := [] }

/-- The lists have one length. -/
def Balanced (t : Triplets α) : Prop :=
  t.rows.length = t.values.length ∧ t.cols.length = t.values.length

instance (t : Triplets α) : Decidable t.Balanced :=
  inferInstanceAs (Decidable (_ ∧ _))

/-- Put three lists of one length together. -/
def ofLists
    (rows cols : List Nat)
    (values : List α) :
    Except FormatFault (Triplets α) :=
  if rows.length = cols.length ∧ rows.length = values.length then
    .ok { rows := rows, cols := cols, values := values }
  else
    .error .lengthMismatch

/-- The listed entries in order. -/
def entries (t : Triplets α) : List (Entry α) :=
  (t.rows.zip (t.cols.zip t.values)).map fun (row, col, value) =>
    { row := row, col := col, value := value }

/-- List the given entries. -/
def ofEntries (listed : List (Entry α)) : Triplets α :=
  {
    rows := listed.map Entry.row
    cols := listed.map Entry.col
    values := listed.map Entry.value
  }

/-- How many values are listed. -/
def count (t : Triplets α) : Nat :=
  t.values.length

/-- List one more entry. -/
def push
    (t : Triplets α)
    (row col : Nat)
    (value : α) :
    Triplets α :=
  {
    rows := t.rows ++ [row]
    cols := t.cols ++ [col]
    values := t.values ++ [value]
  }

/-- Keep the first entries only. -/
def truncate
    (t : Triplets α)
    (length : Nat) :
    Triplets α :=
  {
    rows := t.rows.take length
    cols := t.cols.take length
    values := t.values.take length
  }

/-- The entries from position `start` up to, not including, position `stop`. -/
def slice
    (t : Triplets α)
    (start stop : Nat) :
    Triplets α :=
  {
    rows := (t.rows.take stop).drop start
    cols := (t.cols.take stop).drop start
    values := (t.values.take stop).drop start
  }

/-- Append the entries of another matrix. -/
def append
    (t other : Triplets α) :
    Triplets α :=
  {
    rows := t.rows ++ other.rows
    cols := t.cols ++ other.cols
    values := t.values ++ other.values
  }

/-- Append the entries of another matrix times a factor. -/
def appendScaled
    (t other : Triplets α)
    (factor : α) :
    Triplets α :=
  {
    rows := t.rows ++ other.rows
    cols := t.cols ++ other.cols
    values := t.values ++ other.values.map (· * factor)
  }

/-- Whether an entry stands before another or at the same position, by rows first. -/
def notAfter (a b : Entry α) : Bool :=
  a.row < b.row || (a.row == b.row && a.col ≤ b.col)

/--
Add up neighbouring entries at the same position. The first argument is the
entry whose position is being collected.
-/
def addedUp :
    Entry α → List (Entry α) → List (Entry α)
  | pending, [] => [pending]
  | pending, next :: rest =>
      if next.row = pending.row ∧ next.col = pending.col then
        addedUp { pending with value := pending.value + next.value } rest
      else
        pending :: addedUp next rest

/--
Sort the entries, add up those at the same position in the order in which they
were listed, and drop sums of magnitude at most `epsilon`.
-/
def merge
    (t : Triplets α)
    (epsilon : α) :
    Triplets α :=
  match t.values, t.entries.mergeSort notAfter with
  | [], _ => t
  | _, [] => empty
  | _, first :: rest =>
      ofEntries
        ((addedUp first rest).filter fun entry =>
          decide (epsilon < Scalar.abs entry.value))

/-- The first fault of one listed entry of a matrix of the given size. -/
def checkEntry
    (size : Nat)
    (entry : Entry α) :
    Except FormatFault Unit :=
  if size ≤ entry.row then
    .error (.indexOutOfRange entry.row size)
  else if entry.row < entry.col then
    .error (.notLowerTriangular entry.row entry.col)
  else
    .ok ()

/-- Accept exactly the balanced lists of lower triangular entries of a matrix of the given size. -/
def check
    (t : Triplets α)
    (size : Nat) :
    Except FormatFault Unit :=
  if t.Balanced then
    t.entries.forM (checkEntry size)
  else
    .error .lengthMismatch

/-- Add the matrix times a factor to a dense symmetric matrix. -/
def addTo
    (t : Triplets α)
    (m : SquareMatrix α)
    (factor : α) :
    SquareMatrix α :=
  t.entries.foldl
    (fun sum entry =>
      sum.addSymmetric entry.row entry.col (factor * entry.value))
    m

end Triplets

end SdpRelay
