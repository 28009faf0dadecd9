import Mathlib
import SdpRelay.Proofs.FixedRays
import SdpRelay.Proofs.JacobiSweeps
import SdpRelay.Proofs.ScheduleLength

namespace SdpRelay

/-!
# Eigenpairs in exact arithmetic

Over a field with exact roots, such as the real numbers, the methods for sizes one
and two find the smallest eigenvalue with an eigenvector of length one.  Rotations
find them when the sweeps have left nothing outside the diagonal.  Every visit of a
sweep brings down what is left there, so that it stays at zero once it is.
-/

open Matrix

variable {K : Type} [ExactField K] {size : Nat} {m : SquareMatrix K}

/-- A smallest eigenvalue makes a pair with each of its eigenvectors of length one. -/
theorem IsSmallestEigenvalue.withVector
    {matrix : Matrix (Fin size) (Fin size) K}
    {value : K}
    {vector : Fin size → K}
    (smallest : IsSmallestEigenvalue matrix value)
    (unit : vector ⬝ᵥ vector = 1)
    (isEigenvector : matrix *ᵥ vector = value • vector) :
    IsSmallestEigenpair matrix value vector where
  unit := unit
  isEigenvector := isEigenvector
  least other isUnit := by
    have below := smallest.least other
    rw [isUnit, mul_one] at below
    exact below

namespace EigenMethod

/-- A method finds the smallest eigenpair of a matrix, its vector where it is wanted. -/
def FindsSmallest
    (method : EigenMethod)
    (m : SquareMatrix K)
    (size : Nat) :
    Prop :=
  ∃ value numbers,
    (∀ wantVector,
      method.smallest m wantVector =
        .ok {
          eigenvalue := value
          eigenvector := if wantVector then some numbers else none
        }) ∧
      numbers.length = size ∧
      IsSmallestEigenpair (m.toMatrix size) value (vectorOf size numbers)

/-- The only entry of a matrix of size one is its eigenvalue. -/
theorem single_finds (isSingle : m.size = 1) :
    single.FindsSmallest m 1 := by
  have found (wantVector : Bool) :
      single.smallest m wantVector =
        .ok {
          eigenvalue := m.get 0 0
          eigenvector := if wantVector then some [1] else none
        } :=
    if_pos isSingle
  have isResult :
      smallestEigenpair m true =
        .ok { eigenvalue := m.get 0 0, eigenvector := some [1] } := by
    rw [smallestEigenpair, isSingle]
    exact found true
  obtain ⟨smallest, numbers, isVector, unit, isEigenvector⟩ :=
    SquareMatrix.eigenpairIsUnit_of_single isSingle _ isResult
  obtain rfl := Option.some.inj isVector
  exact ⟨_, _, found, rfl, smallest.withVector unit isEigenvector⟩

section Plane

/-- Two numbers, divided by the length of the vector that they make, have length one. -/
theorem unit_of_length
    {x y length : K}
    (positive : 0 < length)
    (square : length * length = x * x + y * y) :
    x / length * (x / length) + y / length * (y / length) = 1 := by
  rw [div_mul_div_comm, div_mul_div_comm, ← add_div, ← square]
  exact div_self (mul_pos positive positive).ne'

variable [HasSquareRoots K]

/-- Whatever branch it takes, the closed form makes a unit vector in the kernel. -/
theorem planeEigenvector_spec
    {first corner second value : K}
    (singular : (value - first) * (value - second) = corner * corner) :
    ∃ x y,
      planeEigenvector first corner second value = [x, y] ∧
        x * x + y * y = 1 ∧
        first * x + corner * y = value * x ∧
        corner * x + second * y = value * y := by
  let drop := value - first
  let rise := value - second
  have squareFirst := HasSquareRoots.hypot_mul_self corner drop
  have squareSecond := HasSquareRoots.hypot_mul_self rise corner
  have nonnegFirst := HasSquareRoots.hypot_nonneg corner drop
  have nonnegSecond := HasSquareRoots.hypot_nonneg rise corner
  unfold planeEigenvector
  dsimp only
  split
  · -- both rows are zero, and the matrix is a multiple of the identity
    rename_i negligible
    have below :
        max (ExactField.hypot corner drop) (ExactField.hypot rise corner) ≤
          0 :=
      negligible.trans_eq (zero_mul _)
    obtain ⟨belowFirst, belowSecond⟩ := max_le_iff.mp below
    rw [le_antisymm belowFirst nonnegFirst, zero_mul] at squareFirst
    rw [le_antisymm belowSecond nonnegSecond, zero_mul] at squareSecond
    obtain ⟨cornerZero, dropZero⟩ :=
      mul_self_add_mul_self_eq_zero.mp squareFirst.symm
    obtain ⟨riseZero, -⟩ :=
      mul_self_add_mul_self_eq_zero.mp squareSecond.symm
    have isFirst : value = first := sub_eq_zero.mp dropZero
    have isSecond : value = second := sub_eq_zero.mp riseZero
    rw [if_pos (isFirst.symm.trans isSecond).le]
    refine ⟨1, 0, rfl, by ring, ?_, ?_⟩
    · rw [isFirst]
      ring
    · rw [cornerZero]
      ring
  · rename_i notNegligible
    have above :
        0 <
          max (ExactField.hypot corner drop)
            (ExactField.hypot rise corner) := by
      refine not_le.mp fun below => notNegligible ?_
      exact below.trans_eq (zero_mul _).symm
    split
    · rename_i isLonger
      change
        ExactField.hypot rise corner ≤ ExactField.hypot corner drop at isLonger
      rw [max_eq_left isLonger] at above
      refine ⟨_, _, rfl, unit_of_length above squareFirst, ?_, ?_⟩
      · ring
      · linear_combination -(ExactField.hypot corner drop)⁻¹ * singular
    · rename_i isShorter
      change
        ¬ ExactField.hypot rise corner ≤
          ExactField.hypot corner drop at isShorter
      rw [max_eq_right (not_le.mp isShorter).le] at above
      refine ⟨_, _, rfl, unit_of_length above squareSecond, ?_, ?_⟩
      · linear_combination -(ExactField.hypot rise corner)⁻¹ * singular
      · ring

/-- The closed form finds the smallest eigenpair of a symmetric matrix of size two. -/
theorem closedForm_finds
    (isPlane : m.size = 2)
    (symmetric : (m.toMatrix 2).IsSymm) :
    closedForm.FindsSmallest m 2 := by
  let half := (m.get 0 0 - m.get 1 1) * 0.5
  let root := ExactField.hypot half (m.get 1 0)
  let value := (m.get 0 0 + m.get 1 1) * 0.5 - root
  have rootSquare : root * root = half * half + m.get 1 0 * m.get 1 0 :=
    HasSquareRoots.hypot_mul_self half (m.get 1 0)
  have isHalf : m.get 0 0 = m.get 1 1 + 2 * half := by
    unfold half
    norm_num
    ring
  have isValue : value = m.get 1 1 + half - root := by
    unfold value
    rw [isHalf]
    norm_num
    ring
  have smallest : IsSmallestEigenvalue (m.toMatrix 2) value := by
    rw [isValue]
    refine
      isSmallestEigenvalue_of_plane (symmetric.apply 1 0) isHalf
        (HasSquareRoots.hypot_nonneg half (m.get 1 0)) ?_
    rw [pow_two, pow_two, pow_two]
    exact rootSquare
  have singular :
      (value - m.get 0 0) * (value - m.get 1 1) =
        m.get 1 0 * m.get 1 0 := by
    rw [isValue, isHalf]
    linear_combination rootSquare
  obtain ⟨x, y, isVector, unit, inFirst, inSecond⟩ :=
    planeEigenvector_spec singular
  have across : m.get 0 1 = m.get 1 0 := symmetric.apply 1 0
  refine ⟨value, [x, y], ?_, rfl, smallest.withVector ?_ ?_⟩
  · intro wantVector
    rw [← isVector]
    exact if_pos isPlane
  · rw [dotProduct, Fin.sum_univ_two]
    exact unit
  · ext i
    rw [mulVec, dotProduct, Fin.sum_univ_two]
    fin_cases i
    · change m.get 0 0 * x + m.get 0 1 * y = value * x
      rw [across]
      exact inFirst
    · exact inSecond

end Plane

end EigenMethod

namespace Diagonalising

/-- Among some places and the first one, none has a smaller entry than the one that is chosen. -/
theorem foldl_smallest_le
    (m : SquareMatrix K)
    (items : List Nat)
    (first : Nat) :
    let chosen :=
      items.foldl
        (fun best i => if m.get i i < m.get best best then i else best)
        first
    m.get chosen chosen ≤ m.get first first ∧
      ∀ i ∈ items, m.get chosen chosen ≤ m.get i i := by
  induction items generalizing first with
  | nil =>
      exact ⟨le_rfl, nofun⟩
  | cons i rest inductionHypothesis =>
      simp only [List.foldl_cons, List.forall_mem_cons]
      split
      · rename_i isSmaller
        obtain ⟨here, later⟩ := inductionHypothesis i
        exact ⟨here.trans isSmaller.le, here, later⟩
      · rename_i notSmaller
        obtain ⟨here, later⟩ := inductionHypothesis first
        exact ⟨here, here.trans (not_lt.mp notSmaller), later⟩

variable
  {original : Matrix (Fin size) (Fin size) K}
  {state : Diagonalising K}

/-- A matrix that has been rotated to diagonal form shows its smallest eigenpair. -/
theorem Rotated.smallestEigenpair
    (rotated : Rotated original state)
    (nonempty : 0 < size)
    (cleared : offDiagonal state.matrix = 0) :
    let index := smallestDiagonal state.matrix
    IsSmallestEigenpair original (state.matrix.get index index)
      (vectorOf size
        ((List.range size).map fun i => state.rotations.get i index)) := by
  intro index
  have isSize := rotated.full.matrix.sameSize
  have inside : index < size :=
    (Checked.smallestDiagonal_eq rotated.full.matrix nonempty).2
  have smallest (i : Fin size) :
      state.matrix.get index index ≤ state.matrix.get i i := by
    refine (foldl_smallest_le state.matrix _ 0).2 i ?_
    rw [isSize]
    exact List.mem_range.mpr i.isLt
  have isDiagonal :
      (state.rotations.toMatrix size)ᵀ * original *
          state.rotations.toMatrix size =
        diagonal fun i : Fin size => state.matrix.get i i := by
    rw [offDiagonal_eq rotated.full.matrix rotated.symmetric] at cleared
    rw [← rotated.similar]
    ext i j
    rw [diagonal_apply]
    split
    · rename_i same
      rw [same]
      rfl
    · rename_i outside
      exact eq_zero_of_offDiagonalSquares cleared outside
  have isColumn :
      vectorOf size
          ((List.range size).map fun i => state.rotations.get i index) =
        (state.rotations.toMatrix size)ᵀ ⟨index, inside⟩ := by
    ext i
    simp [vectorOf, SquareMatrix.toMatrix]
  rw [isColumn]
  exact
    @smallest_of_diagonal K _ _ _ size original _ _ rotated.orthogonal
      isDiagonal ⟨index, inside⟩ smallest

/-- A sum of squares is never negative. -/
theorem Rotated.offDiagonal_nonneg (rotated : Rotated original state) :
    0 ≤ offDiagonal state.matrix := by
  rw [offDiagonal_eq rotated.full.matrix rotated.symmetric]
  refine Finset.sum_nonneg fun i _ => Finset.sum_nonneg fun j _ => ?_
  split
  · exact le_rfl
  · exact mul_self_nonneg _

section Visits

variable [HasSquareRoots K]

/-- No sequence of visits brings up what is left outside the diagonal. -/
theorem Rotated.offDiagonal_visits_le
    (rotated : Rotated original state)
    {visits : List (Nat × Nat)}
    (members : ∀ pair ∈ visits, pair ∈ indexPairs size) :
    offDiagonal (visits.foldl rotateAway state).matrix ≤
      offDiagonal state.matrix := by
  induction visits generalizing state with
  | nil =>
      exact le_rfl
  | cons pair rest inductionHypothesis =>
      obtain ⟨here, later⟩ := List.forall_mem_cons.mp members
      obtain ⟨visited, lowered⟩ := rotated.visit here
      refine (inductionHypothesis visited later).trans ?_
      rw [lowered]
      exact
        sub_le_self _ (mul_nonneg zero_le_two (mul_self_nonneg _))

/-- The matrix at the end of all sweeps is one that visits have made. -/
theorem exists_visits_run
    (full : m.Full size)
    (symmetric : (m.toMatrix size).IsSymm) :
    ∃ visits : List (Nat × Nat),
      (∀ pair ∈ visits, pair ∈ indexPairs size) ∧
        run m = visits.foldl rotateAway (start m) :=
  exists_visits (start_rotated full symmetric) _ sweepLimit

/-- If one sweep is enough for the tolerance, so are all that the limit allows. -/
theorem Rotated.sweepUntil_le
    (rotated : Rotated original state)
    {tolerance : K}
    (remaining : Nat)
    (enough : offDiagonal state.sweep.matrix ≤ tolerance) :
    offDiagonal (sweepUntil tolerance (remaining + 1) state).matrix ≤
      tolerance := by
  unfold sweepUntil
  split
  · assumption
  · obtain ⟨visits, members, isResult⟩ :=
      exists_visits rotated.sweep tolerance remaining
    rw [isResult]
    exact (rotated.sweep.offDiagonal_visits_le members).trans enough

/--
When the entry that is visited first is all there is outside the diagonal, the
sweeps leave nothing there.
-/
theorem offDiagonal_run_of_first
    (full : m.Full size)
    (symmetric : (m.toMatrix size).IsSymm)
    (several : 1 < size)
    (alone : offDiagonal m = 2 * (m.get 1 0 * m.get 1 0)) :
    offDiagonal (run m).matrix = 0 := by
  obtain ⟨rest, isFirst⟩ : ∃ rest, indexPairs size = (0, 1) :: rest := by
    obtain ⟨larger, rfl⟩ := Nat.exists_eq_add_of_le' several
    simp [indexPairs, List.range_succ_eq_map]
  have rotated := start_rotated full symmetric
  have members : ∀ pair ∈ (0, 1) :: rest, pair ∈ indexPairs size := by
    rw [isFirst]
    exact fun _ => id
  obtain ⟨here, later⟩ := List.forall_mem_cons.mp members
  obtain ⟨visited, lowered⟩ := rotated.visit here
  have enough : offDiagonal (start m).sweep.matrix ≤ 0 := by
    rw [rotated.sweep_eq, isFirst]
    refine (visited.offDiagonal_visits_le later).trans_eq ?_
    rw [lowered]
    exact sub_eq_zero.mpr alone
  have exactly :
      (Scalar.machineEpsilon * Scalar.machineEpsilon * sumOfSquares m : K) =
        0 := by
    change (0 * 0 * sumOfSquares m : K) = 0
    ring
  obtain ⟨visits, visitMembers, isRun⟩ := exists_visits_run full symmetric
  refine le_antisymm ?_ ?_
  · unfold run
    rw [exactly]
    exact rotated.sweepUntil_le 99 enough
  · rw [isRun]
    exact (rotated.visits visitMembers).offDiagonal_nonneg

end Visits

end Diagonalising

section Results

variable [HasSquareRoots K]

/-- The rotations find the smallest eigenpair if they leave nothing outside the diagonal. -/
theorem EigenMethod.rotations_find
    (full : m.Full size)
    (nonempty : 0 < size)
    (symmetric : (m.toMatrix size).IsSymm)
    (cleared : Diagonalising.offDiagonal (Diagonalising.run m).matrix = 0) :
    (EigenMethod.rotations size).FindsSmallest m size := by
  obtain ⟨visits, members, isRun⟩ :=
    Diagonalising.exists_visits_run full symmetric
  have rotated : Diagonalising.Rotated (m.toMatrix size) (Diagonalising.run m) := by
    rw [isRun]
    exact (Diagonalising.start_rotated full symmetric).visits members
  refine ⟨_, _, ?_, ?_, rotated.smallestEigenpair nonempty cleared⟩
  · intro wantVector
    refine (if_pos ⟨full.sameSize, ?_⟩).trans ?_
    · rw [← full.sameSize]
      rfl
    · rw [full.sameSize]
      exact nonempty.ne'
  · rw [List.length_map, List.length_range]

/-- So does the method for the size, which needs no sweeps for one and two rows. -/
theorem EigenMethod.forSize_finds
    (full : m.Full size)
    (nonempty : 0 < size)
    (symmetric : (m.toMatrix size).IsSymm)
    (sufficient :
      size ≤ 2 ∨
        Diagonalising.offDiagonal (Diagonalising.run m).matrix = 0) :
    (EigenMethod.forSize size).FindsSmallest m size := by
  match size with
  | 1 =>
      exact EigenMethod.single_finds full.sameSize
  | 2 =>
      exact EigenMethod.closedForm_finds full.sameSize symmetric
  | larger + 3 =>
      have cleared := sufficient.resolve_left (by omega)
      exact EigenMethod.rotations_find full nonempty symmetric cleared

/--
In exact arithmetic, the method for the size of a symmetric matrix finds its smallest
eigenvalue with a unit eigenvector: for one and two rows always, by rotations whenever
the sweeps have left nothing outside the diagonal.  After any visits of a sweep the
collected rotations are orthogonal and take the given matrix to the one at hand, and
the next visit takes twice the square of its entry from what is outside the diagonal.
-/
theorem EigenMethod.finds_smallest_exactly
    (full : m.Full size)
    (nonempty : 0 < size)
    (symmetric : (m.toMatrix size).IsSymm) :
    (size ≤ 2 → (EigenMethod.forSize size).FindsSmallest m size) ∧
      (Diagonalising.offDiagonal (Diagonalising.run m).matrix = 0 →
        (EigenMethod.forSize size).FindsSmallest m size ∧
          (EigenMethod.rotations size).FindsSmallest m size) ∧
      (∃ visits : List (Nat × Nat),
        (∀ pair ∈ visits, pair ∈ Diagonalising.indexPairs size) ∧
          Diagonalising.run m =
            visits.foldl Diagonalising.rotateAway (Diagonalising.start m)) ∧
      ∀ visits : List (Nat × Nat),
        (∀ pair ∈ visits, pair ∈ Diagonalising.indexPairs size) →
          let state :=
            visits.foldl Diagonalising.rotateAway (Diagonalising.start m)
          let matrix := state.matrix.toMatrix size
          let rotations := state.rotations.toMatrix size
          rotationsᵀ * rotations = 1 ∧
            matrix.IsSymm ∧
            matrix = rotationsᵀ * m.toMatrix size * rotations ∧
            Diagonalising.offDiagonal state.matrix =
              offDiagonalSquares matrix ∧
            ∀ p q : Fin size, p < q →
              offDiagonalSquares
                  ((state.rotateAway (p, q)).matrix.toMatrix size) =
                offDiagonalSquares matrix -
                  2 * (matrix q p * matrix q p) := by
  refine ⟨fun few => ?_, fun cleared => ⟨?_, ?_⟩, ?_, ?_⟩
  · exact EigenMethod.forSize_finds full nonempty symmetric (.inl few)
  · exact EigenMethod.forSize_finds full nonempty symmetric (.inr cleared)
  · exact EigenMethod.rotations_find full nonempty symmetric cleared
  · exact Diagonalising.exists_visits_run full symmetric
  · intro visits members state
    have rotated : Diagonalising.Rotated (m.toMatrix size) state :=
      (Diagonalising.start_rotated full symmetric).visits members
    have isSum :=
      Diagonalising.offDiagonal_eq rotated.full.matrix rotated.symmetric
    refine
      ⟨rotated.orthogonal, rotated.symmetric, rotated.similar, isSum, ?_⟩
    intro p q below
    obtain ⟨visited, lowered⟩ :=
      rotated.visit (Diagonalising.mem_indexPairs.mpr ⟨p, q, below, rfl⟩)
    rw [← isSum, ← Diagonalising.offDiagonal_eq visited.full.matrix
      visited.symmetric]
    exact lowered

end Results

/-- The square roots of the real numbers are exact. -/
instance : HasSquareRoots ℝ where
  sqrt_nonneg _ := Real.sqrt_nonneg _
  sqrt_mul_self nonneg := Real.mul_self_sqrt nonneg
  hypot_nonneg _ _ := Real.sqrt_nonneg _
  hypot_mul_self a b :=
    Real.mul_self_sqrt (add_nonneg (mul_self_nonneg a) (mul_self_nonneg b))

/-- A matrix of size three with one pair of entries outside the diagonal. -/
noncomputable def crossedMatrix : SquareMatrix ℝ :=
  { size := 3, data := #[0, 1, 0, 1, 0, 0, 0, 0, 1] }

theorem crossedMatrix_symmetric : (crossedMatrix.toMatrix 3).IsSymm := by
  ext i j
  fin_cases i <;> fin_cases j <;> rfl

theorem crossedMatrix_run :
    Diagonalising.offDiagonal (Diagonalising.run crossedMatrix).matrix = 0 := by
  refine
    Diagonalising.offDiagonal_run_of_first ⟨rfl, rfl⟩ crossedMatrix_symmetric
      (by decide) ?_
  change
    (0 + 1 * 1 + 0 * 0 + 0 * 0 + (0 + 1 * 1 + 0 * 0 + 0 * 0) : ℝ) = 2 * (1 * 1)
  norm_num

/-- One rotation leaves nothing there, so that its smallest eigenpair is found. -/
theorem crossedMatrix_pair :
    0 < 3 ∧
      (EigenMethod.forSize 3).FindsSmallest crossedMatrix 3 ∧
      (EigenMethod.rotations 3).FindsSmallest crossedMatrix 3 := by
  obtain ⟨-, found, -⟩ :=
    @EigenMethod.finds_smallest_exactly ℝ _ 3 crossedMatrix _ ⟨rfl, rfl⟩
      (by decide) crossedMatrix_symmetric
  exact ⟨by decide, found crossedMatrix_run⟩

end SdpRelay
