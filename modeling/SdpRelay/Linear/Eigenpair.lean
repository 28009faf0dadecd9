import SdpRelay.Linear.SquareMatrix

namespace SdpRelay

/-!
# Smallest eigenpairs of symmetric matrices

Matrices of size one and two are treated in closed form. Larger ones are
diagonalised by cyclic Jacobi rotations: `Diagonalising` carries the rotated
matrix together with the accumulated rotations, and each rotation is a change
of two columns followed by the same change of two rows.
-/

/-- Why eigenvalues cannot be computed. -/
inductive EigenFault where
  /-- The sizes of the operands do not fit. -/
  | sizeMismatch
  /-- A routine outside this library ends with an error code. -/
  | failed (code : Int32)
  deriving Repr, DecidableEq

/-- The sentence that describes a fault. -/
def EigenFault.message : EigenFault → String
  | .sizeMismatch =>
      "Matrix dimension fields and/or array lengths are incompatible"
  | .failed _ => "Eigendecomposition error"

/-- The smallest eigenvalue of a matrix, with a unit eigenvector if one was asked for. -/
structure Eigenpair (α : Type) where
  eigenvalue : α
  eigenvector : Option (List α)
  deriving Repr, DecidableEq

/-- The methods for the smallest eigenpair. -/
inductive EigenMethod where
  /-- Size one. -/
  | single
  /-- Size two, in closed form. -/
  | closedForm
  /-- Jacobi rotations, with room for rotations of the given size. -/
  | rotations (size : Nat)
  deriving Repr, DecidableEq

/-- A matrix on its way to diagonal form and the rotations applied to it so far. -/
structure Diagonalising (α : Type) where
  matrix : SquareMatrix α
  rotations : SquareMatrix α

namespace Diagonalising

variable {α : Type} [Scalar α]

/-- Sum of the squares of all entries. -/
def sumOfSquares (m : SquareMatrix α) : α :=
  m.data.foldl (fun total x => total + x * x) 0

/-- Pairs of different indices, the smaller one first. -/
def indexPairs (size : Nat) : List (Nat × Nat) :=
  (List.range size).flatMap fun p =>
    ((List.range size).filter (p < ·)).map fun q => (p, q)

/-- Sum of the squares of the entries outside the diagonal. -/
def offDiagonal (m : SquareMatrix α) : α :=
  let below :=
    (indexPairs m.size).foldl
      (fun total (col, row) => total + m.get row col * m.get row col)
      0
  below + below

/-- Cosine and sine of the rotation that makes the entry in row `q` and column `p` zero. -/
def rotationFor
    (m : SquareMatrix α)
    (p q : Nat) :
    α × α :=
  let corner := m.get q p
  let first := m.get p p
  let second := m.get q q
  let difference := second - first
  let size := Scalar.larger (Scalar.abs first) (Scalar.abs second)
  if size < Scalar.machineEpsilon ∨
      Scalar.abs difference < Scalar.machineEpsilon * size then
    (Scalar.invSqrtTwo, Scalar.invSqrtTwo)
  else
    let cotangent := difference / (corner * 2.0)
    let square := cotangent * cotangent
    let tangent :=
      if Scalar.isFinite square then
        Scalar.sign cotangent /
          (Scalar.abs cotangent + Scalar.sqrt (1 + square))
      else
        0.5 / cotangent
    let cosine := 1 / Scalar.sqrt (1 + tangent * tangent)
    (cosine, tangent * cosine)

/-- Turn the pair of entries at two positions. -/
def turnPair
    (cosine sine : α)
    (first second : Nat)
    (data : Array α) :
    Array α :=
  let x := data.getD first 0
  let y := data.getD second 0
  (data.setIfInBounds first (cosine * x - sine * y)).setIfInBounds
    second (sine * x + cosine * y)

/-- Replace columns `p` and `q` by their rotations. -/
def rotateColumns
    (m : SquareMatrix α)
    (p q : Nat)
    (cosine sine : α) :
    SquareMatrix α :=
  let ⟨size, data⟩ := m
  {
    size := size
    data :=
      (List.range size).foldl
        (fun turned i =>
          turnPair cosine sine (i + p * size) (i + q * size) turned)
        data
  }

/-- Replace rows `p` and `q` by their rotations. -/
def rotateRows
    (m : SquareMatrix α)
    (p q : Nat)
    (cosine sine : α) :
    SquareMatrix α :=
  let ⟨size, data⟩ := m
  {
    size := size
    data :=
      (List.range size).foldl
        (fun turned j =>
          turnPair cosine sine (p + j * size) (q + j * size) turned)
        data
  }

/-- Set the entry at two indices, on both sides of the diagonal, to zero. -/
def clearPair
    (m : SquareMatrix α)
    (p q : Nat) :
    SquareMatrix α :=
  (m.set q p 0).set p q 0

/-- Apply one rotation from both sides, and record it. -/
def rotate
    (state : Diagonalising α)
    (p q : Nat)
    (cosine sine : α) :
    Diagonalising α :=
  let ⟨matrix, rotations⟩ := state
  {
    matrix :=
      clearPair
        (rotateRows (rotateColumns matrix p q cosine sine) p q cosine sine)
        p q
    rotations := rotateColumns rotations p q cosine sine
  }

/-- Rotate one entry away unless it is zero already. -/
def rotateAway
    (state : Diagonalising α)
    (pair : Nat × Nat) :
    Diagonalising α :=
  if state.matrix.get pair.2 pair.1 == 0 then
    state
  else
    let (cosine, sine) := rotationFor state.matrix pair.1 pair.2
    state.rotate pair.1 pair.2 cosine sine

/-- Visit every entry below the diagonal once. -/
def sweep (state : Diagonalising α) : Diagonalising α :=
  (indexPairs state.matrix.size).foldl rotateAway state

/-- Sweep until the entries outside the diagonal are negligible, at most a given number of times. -/
def sweepUntil
    (tolerance : α) :
    Nat → Diagonalising α → Diagonalising α
  | 0, state => state
  | remaining + 1, state =>
      if offDiagonal state.matrix ≤ tolerance then
        state
      else
        sweepUntil tolerance remaining state.sweep

/-- The largest number of sweeps. -/
def sweepLimit : Nat := 100

/-- Index of the smallest diagonal entry, the first one if there are several. -/
def smallestDiagonal (m : SquareMatrix α) : Nat :=
  (List.range m.size).foldl
    (fun best i => if m.get i i < m.get best best then i else best)
    0

/-- Bring a symmetric matrix to diagonal form. -/
def run (m : SquareMatrix α) : Diagonalising α :=
  sweepUntil
    (Scalar.machineEpsilon * Scalar.machineEpsilon * sumOfSquares m)
    sweepLimit
    { matrix := m, rotations := SquareMatrix.identity m.size }

end Diagonalising

namespace EigenMethod

variable {α : Type} [Scalar α]

/-- The method for matrices of a given size. -/
def forSize : Nat → EigenMethod
  | 0 => .single
  | 1 => .single
  | 2 => .closedForm
  | size => .rotations size

/--
A unit vector in the kernel of `m - eigenvalue` for a matrix of size two.

Either row of that difference gives a vector orthogonal to it; the longer one
is taken. Both are negligible only for multiples of the identity.
-/
def planeEigenvector
    (first corner second eigenvalue : α) :
    List α :=
  let drop := eigenvalue - first
  let rise := eigenvalue - second
  let lengthFirst := Scalar.hypot corner drop
  let lengthSecond := Scalar.hypot rise corner
  if Scalar.larger lengthFirst lengthSecond ≤
      Scalar.machineEpsilon *
        (1 + Scalar.abs first + Scalar.abs second) then
    if first ≤ second then [1, 0] else [0, 1]
  else if lengthSecond ≤ lengthFirst then
    [corner / lengthFirst, drop / lengthFirst]
  else
    [rise / lengthSecond, corner / lengthSecond]

/-- The smallest eigenpair of a matrix of size two. -/
def planePair
    (m : SquareMatrix α)
    (wantVector : Bool) :
    Eigenpair α :=
  let first := m.get 0 0
  let corner := m.get 1 0
  let second := m.get 1 1
  let mean := (first + second) * 0.5
  let radius := Scalar.hypot ((first - second) * 0.5) corner
  let eigenvalue := mean - radius
  {
    eigenvalue := eigenvalue
    eigenvector :=
      if wantVector then
        some (planeEigenvector first corner second eigenvalue)
      else
        none
  }

/-- The smallest eigenpair of a matrix from its diagonal form. -/
def rotatedPair
    (m : SquareMatrix α)
    (wantVector : Bool) :
    Eigenpair α :=
  let final := Diagonalising.run m
  let index := Diagonalising.smallestDiagonal final.matrix
  {
    eigenvalue := final.matrix.get index index
    eigenvector :=
      if wantVector then
        some ((List.range m.size).map fun i => final.rotations.get i index)
      else
        none
  }

/-- The smallest eigenpair of a symmetric matrix by one method. -/
def smallest
    (method : EigenMethod)
    (m : SquareMatrix α)
    (wantVector : Bool) :
    Except EigenFault (Eigenpair α) :=
  match method with
  | .single =>
      if m.size = 1 then
        .ok {
          eigenvalue := m.get 0 0
          eigenvector := if wantVector then some [1] else none
        }
      else
        .error .sizeMismatch
  | .closedForm =>
      if m.size = 2 then
        .ok (planePair m wantVector)
      else
        .error .sizeMismatch
  | .rotations size =>
      if m.size = size ∧ m.size ≠ 0 then
        .ok (rotatedPair m wantVector)
      else
        .error .sizeMismatch

end EigenMethod

/-- The smallest eigenpair of a symmetric matrix by the method for its size. -/
def smallestEigenpair
    {α : Type}
    [Scalar α]
    (m : SquareMatrix α)
    (wantVector : Bool) :
    Except EigenFault (Eigenpair α) :=
  (EigenMethod.forSize m.size).smallest m wantVector

end SdpRelay
