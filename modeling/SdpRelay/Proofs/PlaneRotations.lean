import Mathlib
import SdpRelay.Proofs.SlackMatrices

namespace SdpRelay

/-!
# Plane rotations

A rotation in the plane of two indices changes two columns of the matrix that it is
multiplied to.  Applied to a symmetric matrix from both sides it keeps the sum of
the squares of all entries, and it changes nothing on the diagonal but the two
entries at its indices.  A rotation that makes the entry between the two zero
therefore moves twice the square of this entry from the rest onto the diagonal.

When nothing is left outside the diagonal, the smallest diagonal entry is the
smallest eigenvalue, and the column of the collected rotations at its place is an
eigenvector of length one.
-/

open Matrix

section Rotation

variable {R : Type} [CommRing R] {size : Nat}

/-- The rotation in the plane of two indices. -/
def planeRotation
    (p q : Fin size)
    (cosine sine : R) :
    Matrix (Fin size) (Fin size) R :=
  .of fun i j =>
    (if j = p then
        cosine • Pi.single p 1 - sine • Pi.single q 1
      else if j = q then
        sine • Pi.single p 1 + cosine • Pi.single q 1
      else
        Pi.single j 1 : Fin size → R) i

/-- A rotation replaces two columns by their combinations. -/
theorem mul_planeRotation_apply
    (matrix : Matrix (Fin size) (Fin size) R)
    (p q : Fin size)
    (cosine sine : R)
    (i j : Fin size) :
    (matrix * planeRotation p q cosine sine) i j =
      if j = p then
        cosine * matrix i p - sine * matrix i q
      else if j = q then
        sine * matrix i p + cosine * matrix i q
      else
        matrix i j := by
  rw [mul_apply']
  unfold planeRotation
  simp only [of_apply]
  split
  · change (matrix i) ⬝ᵥ (cosine • Pi.single p 1 - sine • Pi.single q 1) = _
    simp [dotProduct_sub]
  · split
    · change (matrix i) ⬝ᵥ (sine • Pi.single p 1 + cosine • Pi.single q 1) = _
      simp [dotProduct_add]
    · change (matrix i) ⬝ᵥ (Pi.single j 1) = _
      simp

/-- From the left, its transpose replaces two rows. -/
theorem planeRotation_transpose_mul_apply
    (matrix : Matrix (Fin size) (Fin size) R)
    (p q : Fin size)
    (cosine sine : R)
    (i j : Fin size) :
    ((planeRotation p q cosine sine)ᵀ * matrix) i j =
      if i = p then
        cosine * matrix p j - sine * matrix q j
      else if i = q then
        sine * matrix p j + cosine * matrix q j
      else
        matrix i j := by
  have turned := mul_planeRotation_apply matrixᵀ p q cosine sine j i
  rw [← transpose_apply (matrixᵀ * planeRotation p q cosine sine) i j,
    transpose_mul, transpose_transpose] at turned
  exact turned

/-- The entries of a rotation. -/
theorem planeRotation_apply
    {p q : Fin size}
    (different : p ≠ q)
    (cosine sine : R)
    (i j : Fin size) :
    planeRotation p q cosine sine i j =
      if j = p then
        if i = p then cosine else if i = q then -sine else 0
      else if j = q then
        if i = p then sine else if i = q then cosine else 0
      else
        if i = j then 1 else 0 := by
  unfold planeRotation
  rw [of_apply]
  split_ifs <;> simp_all

/-- A rotation by a point of the unit circle is orthogonal. -/
theorem planeRotation_orthogonal
    {p q : Fin size}
    {cosine sine : R}
    (different : p ≠ q)
    (circle : cosine * cosine + sine * sine = 1) :
    (planeRotation p q cosine sine)ᵀ * planeRotation p q cosine sine = 1 := by
  ext i j
  rw [planeRotation_transpose_mul_apply]
  simp only [planeRotation_apply different, one_apply]
  grind

/-- The sum of the squares of the entries outside the diagonal. -/
def offDiagonalSquares (matrix : Matrix (Fin size) (Fin size) R) : R :=
  ∑ i, ∑ j, if i = j then 0 else matrix i j * matrix i j

/-- It is what the diagonal leaves of the sum of all squares. -/
theorem offDiagonalSquares_eq (matrix : Matrix (Fin size) (Fin size) R) :
    offDiagonalSquares matrix =
      (matrixᵀ * matrix).trace - ∑ i, matrix i i * matrix i i := by
  have allSquares :
      (matrixᵀ * matrix).trace = ∑ i, ∑ j, matrix i j * matrix i j := by
    rw [Finset.sum_comm]
    rfl
  have outside (i j : Fin size) :
      (if i = j then 0 else matrix i j * matrix i j) =
        matrix i j * matrix i j -
          if i = j then matrix i j * matrix i j else 0 := by
    split
    · exact (sub_self _).symm
    · exact (sub_zero _).symm
  rw [allSquares]
  simp only [offDiagonalSquares, outside, Finset.sum_sub_distrib,
    Finset.sum_ite_eq, Finset.mem_univ, if_true]

/-- A change of basis by a transpose keeps a matrix symmetric. -/
theorem isSymm_conjugated
    {matrix : Matrix (Fin size) (Fin size) R}
    (symmetric : matrix.IsSymm)
    (rotation : Matrix (Fin size) (Fin size) R) :
    (rotationᵀ * matrix * rotation).IsSymm := by
  unfold IsSymm
  rw [transpose_mul, transpose_mul, transpose_transpose, symmetric.eq,
    Matrix.mul_assoc]

/-- An orthogonal change of basis keeps the sum of all squares. -/
theorem trace_squares_conjugated
    {matrix rotation : Matrix (Fin size) (Fin size) R}
    (orthogonal : rotationᵀ * rotation = 1) :
    ((rotationᵀ * matrix * rotation)ᵀ *
        (rotationᵀ * matrix * rotation)).trace =
      (matrixᵀ * matrix).trace := by
  have inverse : rotation * rotationᵀ = 1 := mul_eq_one_comm.mp orthogonal
  calc
    ((rotationᵀ * matrix * rotation)ᵀ *
          (rotationᵀ * matrix * rotation)).trace =
        (rotationᵀ * (matrixᵀ * (rotation * rotationᵀ) * matrix) *
          rotation).trace := by
      simp only [transpose_mul, transpose_transpose, Matrix.mul_assoc]
    _ = (rotation * rotationᵀ * (matrixᵀ * matrix)).trace := by
      rw [inverse, Matrix.mul_one, trace_mul_comm, ← Matrix.mul_assoc, inverse]
    _ = (matrixᵀ * matrix).trace := by
      rw [inverse, Matrix.one_mul]

/--
A rotation from both sides that makes the entry at its indices zero lowers the sum
of the squares outside the diagonal by twice the square of that entry.
-/
theorem offDiagonalSquares_rotated
    {matrix : Matrix (Fin size) (Fin size) R}
    {p q : Fin size}
    {cosine sine : R}
    (symmetric : matrix.IsSymm)
    (different : p ≠ q)
    (circle : cosine * cosine + sine * sine = 1)
    (cleared :
      ((planeRotation p q cosine sine)ᵀ * matrix *
        planeRotation p q cosine sine) q p = 0) :
    offDiagonalSquares
        ((planeRotation p q cosine sine)ᵀ * matrix *
          planeRotation p q cosine sine) =
      offDiagonalSquares matrix - 2 * (matrix q p * matrix q p) := by
  let turned :=
    (planeRotation p q cosine sine)ᵀ * matrix * planeRotation p q cosine sine
  have across : matrix p q = matrix q p := symmetric.apply q p
  have entries (i j : Fin size) : turned i j = _ :=
    mul_planeRotation_apply _ p q cosine sine i j
  simp only [planeRotation_transpose_mul_apply, across] at entries
  have outside (i : Fin size) (isOther : i ≠ p ∧ i ≠ q) :
      turned i i * turned i i - matrix i i * matrix i i = 0 := by
    rw [entries, if_neg isOther.1, if_neg isOther.2, if_neg isOther.1,
      if_neg isOther.2, sub_self]
  have diagonal :
      ∑ i, (turned i i * turned i i - matrix i i * matrix i i) =
        2 * (matrix q p * matrix q p) := by
    rw [Fintype.sum_eq_add p q different outside]
    change turned q p = 0 at cleared
    have corner := entries q p
    rw [cleared] at corner
    rw [entries, entries]
    simp only [different.symm, if_true, if_false] at corner ⊢
    linear_combination
      (matrix p p * matrix p p + matrix q q * matrix q q +
            2 * (matrix q p * matrix q p)) *
          (cosine * cosine + sine * sine + 1) * circle +
        2 *
          (cosine * (sine * matrix p p + cosine * matrix q p) -
            sine * (sine * matrix q p + cosine * matrix q q)) *
          corner
  rw [offDiagonalSquares_eq, offDiagonalSquares_eq,
    trace_squares_conjugated (planeRotation_orthogonal different circle)]
  rw [Finset.sum_sub_distrib] at diagonal
  linear_combination -diagonal

end Rotation

section Diagonal

variable {K : Type} [Field K] [LinearOrder K] [IsStrictOrderedRing K] {size : Nat}

/-- Without squares outside the diagonal there are no entries either. -/
theorem eq_zero_of_offDiagonalSquares
    {matrix : Matrix (Fin size) (Fin size) K}
    (none : offDiagonalSquares matrix = 0)
    {i j : Fin size}
    (outside : i ≠ j) :
    matrix i j = 0 := by
  have nonneg (i j : Fin size) :
      0 ≤ if i = j then 0 else matrix i j * matrix i j := by
    split
    · exact le_rfl
    · exact mul_self_nonneg _
  have row :=
    (Finset.sum_eq_zero_iff_of_nonneg fun i _ =>
      Finset.sum_nonneg fun j _ => nonneg i j).mp none i (Finset.mem_univ i)
  have entry :=
    (Finset.sum_eq_zero_iff_of_nonneg fun j _ => nonneg i j).mp row j
      (Finset.mem_univ j)
  rw [if_neg outside] at entry
  exact mul_self_eq_zero.mp entry

/-- A unit eigenvector, and the least value of the quadratic form on unit vectors. -/
structure IsSmallestEigenpair
    (matrix : Matrix (Fin size) (Fin size) K)
    (value : K)
    (vector : Fin size → K) : Prop where
  unit : vector ⬝ᵥ vector = 1
  isEigenvector : matrix *ᵥ vector = value • vector
  least :
    ∀ other, other ⬝ᵥ other = 1 → value ≤ other ⬝ᵥ matrix *ᵥ other

/--
If an orthogonal change of basis makes a matrix diagonal, the smallest diagonal
entry is its smallest eigenvalue, with the basis vector at its place.
-/
theorem smallest_of_diagonal
    {matrix rotations : Matrix (Fin size) (Fin size) K}
    {values : Fin size → K}
    (orthogonal : rotationsᵀ * rotations = 1)
    (isDiagonal : rotationsᵀ * matrix * rotations = diagonal values)
    {index : Fin size}
    (smallest : ∀ i, values index ≤ values i) :
    IsSmallestEigenpair matrix (values index) (rotationsᵀ index) := by
  let vector := rotationsᵀ index
  have inverse : rotations * rotationsᵀ = 1 := mul_eq_one_comm.mp orthogonal
  have isMatrix : matrix = rotations * diagonal values * rotationsᵀ := by
    calc
      matrix = (rotations * rotationsᵀ) * matrix * (rotations * rotationsᵀ) := by
        rw [inverse, Matrix.one_mul, Matrix.mul_one]
      _ = rotations * (rotationsᵀ * matrix * rotations) * rotationsᵀ := by
        simp only [Matrix.mul_assoc]
      _ = rotations * diagonal values * rotationsᵀ := by
        rw [isDiagonal]
  have isColumn : vector = rotations *ᵥ Pi.single index 1 :=
    (mulVec_single_one rotations index).symm
  refine ⟨congrFun (congrFun orthogonal index) index |>.trans ?_, ?_, ?_⟩
  · exact one_apply_eq index
  · calc
      matrix *ᵥ vector =
          (rotations * diagonal values * (rotationsᵀ * rotations)) *ᵥ
            Pi.single index 1 := by
        rw [isColumn, mulVec_mulVec]
        nth_rewrite 1 [isMatrix]
        rw [Matrix.mul_assoc]
      _ = rotations *ᵥ (values index • Pi.single index 1) := by
        rw [orthogonal, Matrix.mul_one, ← mulVec_mulVec, diagonal_mulVec_single,
          ← Pi.single_smul, smul_eq_mul]
      _ = values index • vector := by
        rw [mulVec_smul, ← isColumn]
  · intro other isUnit
    let turned := rotationsᵀ *ᵥ other
    have across (image : Fin size → K) :
        other ⬝ᵥ rotations *ᵥ image = turned ⬝ᵥ image := by
      rw [dotProduct_mulVec, ← mulVec_transpose]
    have form :
        other ⬝ᵥ matrix *ᵥ other =
          ∑ i, values i * (turned i * turned i) := by
      rw [isMatrix, ← mulVec_mulVec, ← mulVec_mulVec, across]
      refine Finset.sum_congr rfl fun i _ => ?_
      rw [mulVec_diagonal]
      ring
    have length : other ⬝ᵥ other = ∑ i, turned i * turned i := by
      have same : rotations *ᵥ turned = other := by
        rw [mulVec_mulVec, inverse, one_mulVec]
      nth_rewrite 2 [← same]
      exact across turned
    rw [form, ← mul_one (values index), ← isUnit, length, Finset.mul_sum]
    refine Finset.sum_le_sum fun i _ => ?_
    exact mul_le_mul_of_nonneg_right (smallest i) (mul_self_nonneg _)

end Diagonal

end SdpRelay
