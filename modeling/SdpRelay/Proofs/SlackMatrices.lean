import Mathlib
import SdpRelay.Linear.Eigenpair
import SdpRelay.Presolve.Workspace
import SdpRelay.Proofs.DenseMatrices
import SdpRelay.Proofs.StoreChecks

namespace SdpRelay

/-!
# Slack matrices

The slack of a block at a point is the sum of its matrices times the values of
their variables, less its constant.  Over an exact field, the dense matrix that
is filled to check a fixed point is the slack at that point, less the terms whose
values are smaller than `epsilon`.

Whether the slack is positive semidefinite up to a tolerance is decided by its
smallest eigenvalue.  A field need not have the roots that eigenvalues are, so
the smallest one is described by the quadratic form whose least value on unit
vectors it is; over the real numbers that is the least eigenvalue.
-/

open Matrix

variable {K : Type} [ExactField K] {size : Nat}

/-- The matrix with the entries of a dense one. -/
def SquareMatrix.toMatrix
    (m : SquareMatrix K)
    (size : Nat) :
    Matrix (Fin size) (Fin size) K :=
  .of fun i j => m.get i j

/-- The symmetric matrix of which the listed entries are the lower triangle. -/
def Triplets.symmetric
    (entries : Triplets K)
    (size : Nat) :
    Matrix (Fin size) (Fin size) K :=
  .of fun i j =>
    (entries.entries.map fun entry =>
      if (entry.row = i.val ∧ entry.col = j.val) ∨
          (entry.row = j.val ∧ entry.col = i.val) then
        entry.value
      else
        0).sum

/--
The slack of a block at a point, without the terms whose values are smaller than
`epsilon`.
-/
def Block.slackAt
    (block : Block K)
    (epsilon : K)
    (point : Nat → K) :
    Matrix (Fin block.size) (Fin block.size) K :=
  ((block.terms.filter fun term => decide (epsilon ≤ |point term.var|)).map
      fun term => point term.var • term.entries.symmetric block.size).sum -
    block.constant.symmetric block.size

section Eigenvalues

variable {R : Type} [CommRing R] [LE R]

/-- A symmetric matrix whose quadratic form is never negative. -/
structure IsPositiveSemidefinite
    (matrix : Matrix (Fin size) (Fin size) R) :
    Prop where
  symmetric : matrix.IsSymm
  nonneg : ∀ vector, 0 ≤ vector ⬝ᵥ matrix *ᵥ vector

/--
The least value of the quadratic form of a matrix on unit vectors, attained by an
eigenvector.
-/
structure IsSmallestEigenvalue
    (matrix : Matrix (Fin size) (Fin size) R)
    (value : R) :
    Prop where
  attained : ∃ vector, vector ≠ 0 ∧ matrix *ᵥ vector = value • vector
  least :
    ∀ vector, value * (vector ⬝ᵥ vector) ≤ vector ⬝ᵥ matrix *ᵥ vector

end Eigenvalues

/--
A matrix whose smallest eigenvalue is not below minus a tolerance is positive
semidefinite up to it.
-/
theorem IsSmallestEigenvalue.positiveSemidefinite
    {matrix : Matrix (Fin size) (Fin size) K}
    {value tolerance : K}
    (smallest : IsSmallestEigenvalue matrix value)
    (symmetric : matrix.IsSymm)
    (above : -tolerance ≤ value) :
    IsPositiveSemidefinite (matrix + tolerance • 1) where
  symmetric := symmetric.add (isSymm_one.smul tolerance)
  nonneg vector := by
    have squares : 0 ≤ vector ⬝ᵥ vector :=
      Finset.sum_nonneg fun i _ => mul_self_nonneg (vector i)
    have scaled := mul_le_mul_of_nonneg_right above squares
    have form :
        vector ⬝ᵥ (matrix + tolerance • 1) *ᵥ vector =
          vector ⬝ᵥ matrix *ᵥ vector + tolerance * (vector ⬝ᵥ vector) := by
      rw [add_mulVec, smul_mulVec, one_mulVec, dotProduct_add, dotProduct_smul,
        smul_eq_mul]
    rw [form]
    linarith [smallest.least vector]

/-- The eigenvalue that is found for a dense matrix is its smallest one. -/
def SquareMatrix.EigenpairIsExact
    (m : SquareMatrix K)
    (size : Nat) :
    Prop :=
  ∀ wantVector pair,
    smallestEigenpair m wantVector = .ok pair →
      IsSmallestEigenvalue (m.toMatrix size) pair.eigenvalue

/-- A quadratic form of two numbers without a discriminant is a multiple of a square. -/
theorem planeForm_nonneg
    {first second corner : K}
    (firstNonneg : 0 ≤ first)
    (secondNonneg : 0 ≤ second)
    (singular : first * second = corner ^ 2)
    (x y : K) :
    0 ≤ first * x ^ 2 + 2 * corner * x * y + second * y ^ 2 := by
  rcases firstNonneg.eq_or_lt with rfl | positive
  · have cornerZero : corner = 0 :=
      pow_eq_zero_iff two_ne_zero |>.mp (by linarith)
    rw [cornerZero]
    linarith [mul_nonneg secondNonneg (sq_nonneg y)]
  · refine nonneg_of_mul_nonneg_right ?_ positive
    linear_combination
      sq_nonneg (first * x + corner * y) - y ^ 2 * singular

/-- A singular matrix of size two has a vector in its kernel. -/
theorem exists_planeKernel
    {first second corner : K}
    (singular : first * second = corner ^ 2) :
    ∃ x y,
      ![x, y] ≠ 0 ∧
        first * x + corner * y = 0 ∧ corner * x + second * y = 0 := by
  by_cases isZero : first = 0
  · have cornerZero : corner = 0 :=
      pow_eq_zero_iff two_ne_zero |>.mp (by rw [← singular, isZero, zero_mul])
    exact
      ⟨1, 0, fun same => one_ne_zero (congrFun same 0), by simp [isZero],
        by simp [cornerZero]⟩
  · exact
      ⟨corner, -first, fun same => isZero (neg_eq_zero.mp (congrFun same 1)),
        by ring, by linear_combination -singular⟩

/--
The smallest eigenvalue of a matrix of size two, from half the difference of its
diagonal entries and a root of its discriminant.
-/
theorem isSmallestEigenvalue_of_plane
    {matrix : Matrix (Fin 2) (Fin 2) K}
    {half root : K}
    (symmetric : matrix 0 1 = matrix 1 0)
    (isHalf : matrix 0 0 = matrix 1 1 + 2 * half)
    (rootNonneg : 0 ≤ root)
    (rootSquare : root ^ 2 = half ^ 2 + matrix 1 0 ^ 2) :
    IsSmallestEigenvalue matrix (matrix 1 1 + half - root) := by
  -- the matrix less its eigenvalue has the diagonal entries `root ± half`
  have singular : (root + half) * (root - half) = matrix 1 0 ^ 2 := by
    linear_combination rootSquare
  have halfBelow : |half| ≤ root :=
    abs_le_of_sq_le_sq (by linarith [sq_nonneg (matrix 1 0)]) rootNonneg
  have product (vector : Fin 2 → K) :
      matrix *ᵥ vector =
        ![(matrix 1 1 + 2 * half) * vector 0 + matrix 1 0 * vector 1,
          matrix 1 0 * vector 0 + matrix 1 1 * vector 1] := by
    ext i
    fin_cases i <;>
      simp [mulVec, dotProduct, Fin.sum_univ_two, isHalf, symmetric]
  constructor
  · obtain ⟨x, y, nonzero, inFirst, inSecond⟩ := exists_planeKernel singular
    refine ⟨![x, y], nonzero, ?_⟩
    rw [product]
    ext i
    fin_cases i
    · change
        (matrix 1 1 + 2 * half) * x + matrix 1 0 * y =
          (matrix 1 1 + half - root) * x
      linear_combination inFirst
    · change
        matrix 1 0 * x + matrix 1 1 * y = (matrix 1 1 + half - root) * y
      linear_combination inSecond
  · intro vector
    have nonneg :=
      planeForm_nonneg
        (by linarith [neg_abs_le half]) (by linarith [le_abs_self half])
        singular (vector 0) (vector 1)
    rw [product]
    simp only [dotProduct, Fin.sum_univ_two, cons_val_zero, cons_val_one]
    linear_combination nonneg

/-- The closed form for matrices of size two is exact where the root that it takes is. -/
theorem SquareMatrix.eigenpairIsExact_of_plane
    {m : SquareMatrix K}
    {half : K}
    (root : K)
    (isPlane : m.size = 2)
    (symmetric : m.get 0 1 = m.get 1 0)
    (isHalf : (m.get 0 0 - m.get 1 1) * 0.5 = half)
    (isRoot : Scalar.hypot half (m.get 1 0) = root)
    (rootNonneg : 0 ≤ root)
    (rootSquare : root ^ 2 = half ^ 2 + m.get 1 0 ^ 2) :
    m.EigenpairIsExact 2 := by
  intro wantVector pair found
  have firstEntry : m.get 0 0 = m.get 1 1 + 2 * half := by
    rw [← isHalf]
    norm_num
    ring
  have eigenvalue : pair.eigenvalue = m.get 1 1 + half - root := by
    simp only [smallestEigenpair, isPlane, EigenMethod.forSize,
      EigenMethod.smallest, if_true, EigenMethod.planePair, isHalf, isRoot,
      Except.ok.injEq] at found
    rw [← found, firstEntry]
    norm_num
    ring
  rw [eigenvalue]
  exact isSmallestEigenvalue_of_plane symmetric firstEntry rootNonneg rootSquare

/-- What an entry counts for at a position of a matrix that it fits into. -/
theorem Entry.weightAt_eq
    {entry : Entry K}
    (rowInside : entry.row < size)
    (colInside : entry.col < size)
    (i j : Fin size) :
    entry.weightAt size (i + j * size) =
      if (entry.row = i.val ∧ entry.col = j.val) ∨
          (entry.row = j.val ∧ entry.col = i.val) then
        entry.value
      else
        0 := by
  have position
      {a b c d : Nat}
      (aInside : a < size)
      (cInside : c < size) :
      a + b * size = c + d * size ↔ a = c ∧ b = d := by
    constructor
    · intro same
      have sameRow := congrArg (· % size) same
      simp only [Nat.add_mul_mod_self_right, Nat.mod_eq_of_lt aInside,
        Nat.mod_eq_of_lt cInside] at sameRow
      subst sameRow
      exact ⟨rfl, Nat.eq_of_mul_eq_mul_right (Nat.zero_lt_of_lt aInside)
        (Nat.add_left_cancel same)⟩
    · rintro ⟨rfl, rfl⟩
      rfl
  simp only [weightAt, position rowInside i.isLt, position colInside i.isLt]
  grind

/-- The indices of listed entries are below a size. -/
def Triplets.Inside
    (entries : Triplets K)
    (size : Nat) :
    Prop :=
  ∀ entry ∈ entries.entries, entry.row < size ∧ entry.col < size

omit [ExactField K] in
theorem Triplets.Fits.inside
    {entries : Triplets K}
    (fits : entries.Fits size) :
    entries.Inside size := by
  intro entry member
  obtain ⟨lowerTriangle, inside⟩ := fits.2 entry member
  exact ⟨inside, lowerTriangle.trans_lt inside⟩

/-- What listed entries count for at a position of a matrix that they lie inside of. -/
theorem Triplets.weightAt_eq
    {entries : Triplets K}
    (inside : entries.Inside size)
    (i j : Fin size) :
    entries.weightAt size (i + j * size) = entries.symmetric size i j := by
  rw [weightAt, symmetric, of_apply]
  congr 1
  apply List.map_congr_left
  intro entry member
  obtain ⟨rowInside, colInside⟩ := inside entry member
  exact Entry.weightAt_eq rowInside colInside i j

theorem Triplets.symmetric_isSymm
    (entries : Triplets K)
    (size : Nat) :
    (entries.symmetric size).IsSymm := by
  apply IsSymm.ext
  intro i j
  simp only [symmetric, of_apply, or_comm]

/-- The slack of a block, entry by entry. -/
theorem Block.slackAt_apply
    (block : Block K)
    (epsilon : K)
    (point : Nat → K)
    (i j : Fin block.size) :
    block.slackAt epsilon point i j =
      ((block.terms.filter fun term => decide (epsilon ≤ |point term.var|)).map
          fun term =>
            point term.var * term.entries.symmetric block.size i j).sum -
        block.constant.symmetric block.size i j := by
  have entryOfSum
      (matrices : List (Matrix (Fin block.size) (Fin block.size) K)) :
      matrices.sum i j = (matrices.map fun matrix => matrix i j).sum := by
    induction matrices with
    | nil =>
        rfl
    | cons matrix rest inductionHypothesis =>
        rw [List.sum_cons, List.map_cons, List.sum_cons, Matrix.add_apply,
          inductionHypothesis]
  rw [slackAt, Matrix.sub_apply, entryOfSum, List.map_map]
  rfl

theorem Block.slackAt_isSymm
    (block : Block K)
    (epsilon : K)
    (point : Nat → K) :
    (block.slackAt epsilon point).IsSymm := by
  apply IsSymm.ext
  intro i j
  simp only [slackAt_apply, (Triplets.symmetric_isSymm _ _).apply i j]

/-- A block without rows holds anywhere. -/
theorem Block.positiveSemidefinite_of_empty
    {block : Block K}
    (isEmpty : block.size = 0)
    (epsilon tolerance : K)
    (point : Nat → K) :
    IsPositiveSemidefinite
      (block.slackAt epsilon point + tolerance • 1) where
  symmetric :=
    (block.slackAt_isSymm epsilon point).add (isSymm_one.smul tolerance)
  nonneg vector := by
    have : IsEmpty (Fin block.size) := by
      rw [isEmpty]
      infer_instance
    simp [dotProduct]

namespace Workspace

/-- Add the matrix of a term at the lower bound of its variable, unless that is small. -/
def addTerm
    (work : Workspace K)
    (epsilon : K)
    (m : SquareMatrix K)
    (term : BlockTerm K) :
    SquareMatrix K :=
  if |work.bounds.lowerAt term.var| < epsilon then
    m
  else
    term.entries.addTo m (work.bounds.lowerAt term.var)

theorem fixedMatrix_eq
    (work : Workspace K)
    (epsilon : K)
    (block : Block K) :
    work.fixedMatrix epsilon block =
      block.terms.foldl (work.addTerm epsilon)
        (block.constant.addTo (SquareMatrix.zeros block.size) (-1)) :=
  rfl

/-- Filling in the terms of a block adds their weights times their values. -/
theorem foldl_addTerm
    {position : Nat}
    (work : Workspace K)
    (epsilon : K)
    (terms : List (BlockTerm K))
    (m : SquareMatrix K)
    (inside : position < m.data.size) :
    (terms.foldl (work.addTerm epsilon) m).SameShape m ∧
      (terms.foldl (work.addTerm epsilon) m).numberAt position =
        m.numberAt position +
          ((terms.filter fun term =>
              decide (epsilon ≤ |work.bounds.lowerAt term.var|)).map
            fun term =>
              work.bounds.lowerAt term.var *
                term.entries.weightAt m.size position).sum := by
  induction terms generalizing m with
  | nil =>
      exact ⟨⟨rfl, rfl⟩, by simp⟩
  | cons term rest inductionHypothesis =>
      rw [List.foldl_cons, addTerm]
      split
      · rename_i small
        rw [List.filter_cons_of_neg (by simpa using small)]
        exact inductionHypothesis m inside
      · rename_i large
        have shape :=
          term.entries.addTo_shape m (work.bounds.lowerAt term.var)
        obtain ⟨restShape, restFilled⟩ :=
          inductionHypothesis
            (term.entries.addTo m (work.bounds.lowerAt term.var))
            (by rw [shape.dataSize]; exact inside)
        refine ⟨restShape.trans shape, ?_⟩
        rw [restFilled, shape.size,
          term.entries.numberAt_addTo (ExactField.exactSums K) m _ inside,
          List.filter_cons_of_pos (by simpa using large), List.map_cons,
          List.sum_cons, add_assoc]

/-- The matrix that is checked has the size of the block. -/
theorem fixedMatrix_size
    (work : Workspace K)
    (epsilon : K)
    (block : Block K) :
    (work.fixedMatrix epsilon block).size = block.size := by
  have kept
      (terms : List (BlockTerm K))
      (m : SquareMatrix K) :
      (terms.foldl (work.addTerm epsilon) m).size = m.size := by
    induction terms generalizing m with
    | nil =>
        rfl
    | cons term rest inductionHypothesis =>
        rw [List.foldl_cons, inductionHypothesis, addTerm]
        split
        · rfl
        · exact (term.entries.addTo_shape m _).size
  rw [fixedMatrix_eq, kept]
  exact (block.constant.addTo_shape _ _).size

/-- The matrix that is checked at a fixed point is the slack of the block there. -/
theorem toMatrix_fixedMatrix
    {variableCount : Nat}
    {block : Block K}
    (work : Workspace K)
    (epsilon : K)
    (acceptable : block.Acceptable variableCount) :
    (work.fixedMatrix epsilon block).toMatrix block.size =
      block.slackAt epsilon work.bounds.lowerAt := by
  ext i j
  have start :
      (block.constant.addTo
        (SquareMatrix.zeros block.size : SquareMatrix K) (-1)).SameShape
          (SquareMatrix.zeros block.size) :=
    block.constant.addTo_shape _ _
  have inside : (i + j * block.size : Nat) < block.size * block.size := by
    have := i.isLt
    have := j.isLt
    nlinarith
  have insideStart :
      (i + j * block.size : Nat) <
        (block.constant.addTo
          (SquareMatrix.zeros block.size : SquareMatrix K) (-1)).data.size := by
    rw [start.dataSize, SquareMatrix.zeros_dataSize]
    exact inside
  obtain ⟨shape, filled⟩ :=
    work.foldl_addTerm epsilon block.terms _ insideStart
  have constantFilled :=
    block.constant.numberAt_addTo (ExactField.exactSums K)
      (SquareMatrix.zeros block.size) (-1)
      (by rw [SquareMatrix.zeros_dataSize]; exact inside)
  have sameSize :
      (block.constant.addTo
        (SquareMatrix.zeros block.size : SquareMatrix K) (-1)).size =
          block.size :=
    start.size
  have isEntry :
      (work.fixedMatrix epsilon block).toMatrix block.size i j =
        (work.fixedMatrix epsilon block).numberAt (i + j * block.size) := by
    rw [SquareMatrix.toMatrix, of_apply, SquareMatrix.get, fixedMatrix_size]
    rfl
  have termWeights :
      ∀ term ∈ block.terms.filter fun term =>
          decide (epsilon ≤ |work.bounds.lowerAt term.var|),
        work.bounds.lowerAt term.var *
            term.entries.weightAt block.size (i + j * block.size) =
          work.bounds.lowerAt term.var *
            term.entries.symmetric block.size i j := by
    intro term member
    rw [Triplets.weightAt_eq
      (acceptable.terms term (List.mem_filter.mp member).1).inside]
  rw [isEntry, Block.slackAt_apply, fixedMatrix_eq, filled, constantFilled,
    SquareMatrix.numberAt_zeros, sameSize, List.map_congr_left termWeights,
    show (SquareMatrix.zeros block.size : SquareMatrix K).size = block.size
      from rfl,
    Triplets.weightAt_eq acceptable.constant.inside]
  ring

end Workspace

end SdpRelay
