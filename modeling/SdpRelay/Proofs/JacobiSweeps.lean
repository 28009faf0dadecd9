import SdpRelay.Proofs.CheckedEigenpairs
import SdpRelay.Proofs.NewtonSteps
import SdpRelay.Proofs.PlaneRotations
import SdpRelay.Proofs.PrimalCertificates

namespace SdpRelay

/-!
# Jacobi sweeps

In place, one pair of entries after the other, columns and rows of a dense matrix
are turned to what a plane rotation makes of them.  Over a field with exact roots
the rotation that is chosen for an entry makes this entry zero, so that the zeros
that are written last are there already.  After any number of visits the collected
rotations are therefore orthogonal and take the given matrix to the one at hand.
-/

open Matrix

/-- A field in which the roots of numbers that are not negative are exact. -/
class HasSquareRoots (K : Type) [ExactField K] : Prop where
  sqrt_nonneg {x : K} (nonneg : 0 ≤ x) : 0 ≤ ExactField.sqrt x
  sqrt_mul_self {x : K} (nonneg : 0 ≤ x) :
    ExactField.sqrt x * ExactField.sqrt x = x
  hypot_nonneg (a b : K) : 0 ≤ ExactField.hypot a b
  hypot_mul_self (a b : K) :
    ExactField.hypot a b * ExactField.hypot a b = a * a + b * b

namespace Diagonalising

section Turning

variable {K : Type} [ExactField K]

/-- A pair of entries is turned where it stands, and nothing else is changed. -/
theorem getD_turnPair
    {data : Array K}
    {first second : Nat}
    (firstInside : first < data.size)
    (secondInside : second < data.size)
    (cosine sine : K)
    (position : Nat) :
    (turnPair cosine sine first second data).getD position 0 =
      if position = second then
        sine * data.getD first 0 + cosine * data.getD second 0
      else if position = first then
        cosine * data.getD first 0 - sine * data.getD second 0
      else
        data.getD position 0 := by
  simp only [turnPair, Array.getD_eq_getD_getElem?,
    Array.getElem?_setIfInBounds, Array.size_setIfInBounds, eq_comm (b := position)]
  split
  · simp [secondInside]
  · split
    · simp [firstInside]
    · rfl

/-- Pairs of positions inside an array, none of which share a position. -/
structure PairsApart
    (size count : Nat)
    (first second : Nat → Nat) : Prop where
  firstInside : ∀ k < count, first k < size
  secondInside : ∀ k < count, second k < size
  apart : ∀ k < count, ∀ l < count, first k ≠ second l
  firstInjective : ∀ k < count, ∀ l < count, first k = first l → k = l
  secondInjective : ∀ k < count, ∀ l < count, second k = second l → k = l

/-- The array in which all pairs have been turned, one after the other. -/
def turnPairs
    (cosine sine : K)
    (first second : Nat → Nat)
    (count : Nat)
    (data : Array K) :
    Array K :=
  (List.range count).foldl
    (fun turned k => turnPair cosine sine (first k) (second k) turned)
    data

theorem turnPairs_size
    (cosine sine : K)
    (first second : Nat → Nat)
    (count : Nat)
    (data : Array K) :
    (turnPairs cosine sine first second count data).size = data.size := by
  induction count with
  | zero =>
      rfl
  | succ count inductionHypothesis =>
      rw [turnPairs, List.range_succ, List.foldl_concat]
      simp only [turnPair, Array.size_setIfInBounds]
      exact inductionHypothesis

/-- Each pair is turned once, from the numbers that stood there at the start. -/
theorem getD_turnPairs
    {count : Nat}
    {first second : Nat → Nat}
    {data : Array K}
    (apart : PairsApart data.size count first second)
    (cosine sine : K) :
    let turned := turnPairs cosine sine first second count data
    (∀ k < count,
      turned.getD (first k) 0 =
          cosine * data.getD (first k) 0 - sine * data.getD (second k) 0 ∧
        turned.getD (second k) 0 =
          sine * data.getD (first k) 0 + cosine * data.getD (second k) 0) ∧
    ∀ position,
      (∀ k < count, position ≠ first k ∧ position ≠ second k) →
        turned.getD position 0 = data.getD position 0 := by
  induction count with
  | zero =>
      exact ⟨nofun, fun _ _ => rfl⟩
  | succ count inductionHypothesis =>
      have earlier : PairsApart data.size count first second :=
        ⟨fun k below => apart.firstInside k (by omega),
          fun k below => apart.secondInside k (by omega),
          fun k below l other => apart.apart k (by omega) l (by omega),
          fun k below l other => apart.firstInjective k (by omega) l (by omega),
          fun k below l other =>
            apart.secondInjective k (by omega) l (by omega)⟩
      obtain ⟨pairs, rest⟩ := inductionHypothesis earlier
      have here := Nat.lt_succ_self count
      have stepped (position : Nat) := by
        refine
          @getD_turnPair K _ (turnPairs cosine sine first second count data)
            (first count) (second count) ?_ ?_ cosine sine position
        · rw [turnPairs_size]
          exact apart.firstInside count here
        · rw [turnPairs_size]
          exact apart.secondInside count here
      -- the last pair is still as it was at the start
      have firstKept :=
        rest (first count) fun k below =>
          ⟨fun same =>
              below.ne'
                (apart.firstInjective count here k (by omega) same),
            apart.apart count here k (by omega)⟩
      have secondKept :=
        rest (second count) fun k below =>
          ⟨(apart.apart k (by omega) count here).symm,
            fun same =>
              below.ne'
                (apart.secondInjective count here k (by omega) same)⟩
      rw [firstKept, secondKept] at stepped
      have isStep :
          turnPairs cosine sine first second (count + 1) data =
            turnPair cosine sine (first count) (second count)
              (turnPairs cosine sine first second count data) := by
        rw [turnPairs, List.range_succ, List.foldl_concat]
        rfl
      rw [isStep]
      constructor
      · intro k below
        rw [stepped, stepped]
        rcases Nat.lt_succ_iff_lt_or_eq.mp below with isEarlier | rfl
        · have firstElsewhere : first k ≠ first count := fun same =>
            isEarlier.ne (apart.firstInjective k below count here same)
          have secondElsewhere : second k ≠ second count := fun same =>
            isEarlier.ne (apart.secondInjective k below count here same)
          rw [if_neg (apart.apart k below count here), if_neg firstElsewhere,
            if_neg secondElsewhere,
            if_neg (apart.apart count here k below).symm]
          exact pairs k isEarlier
        · rw [if_neg (apart.apart k below k below), if_pos rfl, if_pos rfl]
          exact ⟨rfl, rfl⟩
      · intro position elsewhere
        rw [stepped, if_neg (elsewhere count here).2,
          if_neg (elsewhere count here).1]
        exact rest position fun k below => elsewhere k (by omega)

end Turning

section Entries

variable {K : Type} [ExactField K] {size : Nat} {m : SquareMatrix K}

/-- Where the entry of a cell, a row and a column, stands in the data. -/
def placeOf (cell : Fin size × Fin size) : Nat :=
  cell.1 + cell.2 * size

theorem placeOf_lt (cell : Fin size × Fin size) :
    placeOf cell < size * size := by
  have rowInside := cell.1.isLt
  have colInside := cell.2.isLt
  unfold placeOf
  nlinarith

/-- Different cells have different places. -/
theorem placeOf_injective :
    Function.Injective (placeOf : Fin size × Fin size → Nat) := by
  rintro ⟨i, j⟩ ⟨k, l⟩ same
  change (i : Nat) + j * size = k + l * size at same
  have sameRow : (i : Nat) = k := by
    have remainders := congrArg (· % size) same
    simpa [Nat.mod_eq_of_lt] using remainders
  have sameCol : (j : Nat) = l := by
    rw [sameRow] at same
    exact
      Nat.eq_of_mul_eq_mul_right (Nat.zero_lt_of_lt i.isLt)
        (Nat.add_left_cancel same)
  exact Prod.ext (Fin.ext sameRow) (Fin.ext sameCol)

/-- Pairs of cells are turned one after the other, and all other cells are kept. -/
theorem toMatrix_turnPairs
    {data : Array K}
    {first second : Fin size → Fin size × Fin size}
    {firstAt secondAt : Nat → Nat}
    (dataSize : data.size = size * size)
    (firstPlaced : ∀ k : Fin size, firstAt k = placeOf (first k))
    (secondPlaced : ∀ k : Fin size, secondAt k = placeOf (second k))
    (firstInjective : Function.Injective first)
    (secondInjective : Function.Injective second)
    (apart : ∀ k l, first k ≠ second l)
    (cosine sine : K) :
    let before := (SquareMatrix.mk size data).toMatrix size
    let turned :=
      (SquareMatrix.mk size
        (turnPairs cosine sine firstAt secondAt size data)).toMatrix size
    (∀ k,
      turned (first k).1 (first k).2 =
          cosine * before (first k).1 (first k).2 -
            sine * before (second k).1 (second k).2 ∧
        turned (second k).1 (second k).2 =
          sine * before (first k).1 (first k).2 +
            cosine * before (second k).1 (second k).2) ∧
    ∀ i j, (∀ k, (i, j) ≠ first k ∧ (i, j) ≠ second k) →
      turned i j = before i j := by
  have places : PairsApart data.size size firstAt secondAt := by
    rw [dataSize]
    refine ⟨?_, ?_, ?_, ?_, ?_⟩
    · intro k inside
      exact (firstPlaced ⟨k, inside⟩).trans_lt (placeOf_lt _)
    · intro k inside
      exact (secondPlaced ⟨k, inside⟩).trans_lt (placeOf_lt _)
    · intro k inside l otherInside same
      rw [firstPlaced ⟨k, inside⟩, secondPlaced ⟨l, otherInside⟩] at same
      exact apart _ _ (placeOf_injective same)
    · intro k inside l otherInside same
      rw [firstPlaced ⟨k, inside⟩, firstPlaced ⟨l, otherInside⟩] at same
      exact congrArg Fin.val (firstInjective (placeOf_injective same))
    · intro k inside l otherInside same
      rw [secondPlaced ⟨k, inside⟩, secondPlaced ⟨l, otherInside⟩] at same
      exact congrArg Fin.val (secondInjective (placeOf_injective same))
  obtain ⟨pairs, rest⟩ := getD_turnPairs places cosine sine
  constructor
  · intro k
    have turned := pairs k k.isLt
    rw [firstPlaced, secondPlaced] at turned
    exact turned
  · intro i j elsewhere
    refine rest (placeOf (i, j)) fun k inside => ⟨fun same => ?_, fun same => ?_⟩
    · rw [firstPlaced ⟨k, inside⟩] at same
      exact (elsewhere _).1 (placeOf_injective same)
    · rw [secondPlaced ⟨k, inside⟩] at same
      exact (elsewhere _).2 (placeOf_injective same)

/-- Turning two columns is to multiply by a rotation from the right. -/
theorem toMatrix_rotateColumns
    (full : m.Full size)
    {p q : Fin size}
    (different : p ≠ q)
    (cosine sine : K) :
    (rotateColumns m p q cosine sine).toMatrix size =
      m.toMatrix size * planeRotation p q cosine sine := by
  obtain ⟨_, data⟩ := m
  obtain ⟨rfl, dataSize⟩ := full
  obtain ⟨pairs, rest⟩ :=
    @toMatrix_turnPairs K _ _ data (fun i => (i, p)) (fun i => (i, q))
      (fun i => i + p * _) (fun i => i + q * _) dataSize (fun _ => rfl) (fun _ => rfl)
      (fun _ _ same => congrArg Prod.fst same)
      (fun _ _ same => congrArg Prod.fst same)
      (fun _ _ same => different (congrArg Prod.snd same)) cosine sine
  ext i j
  rw [mul_planeRotation_apply]
  split
  · rename_i isFirst
    rw [isFirst]
    exact (pairs i).1
  · rename_i notFirst
    split
    · rename_i isSecond
      rw [isSecond]
      exact (pairs i).2
    · rename_i notSecond
      exact
        rest i j fun k =>
          ⟨fun same => notFirst (congrArg Prod.snd same),
            fun same => notSecond (congrArg Prod.snd same)⟩

/-- Turning two rows is to multiply by its transpose from the left. -/
theorem toMatrix_rotateRows
    (full : m.Full size)
    {p q : Fin size}
    (different : p ≠ q)
    (cosine sine : K) :
    (rotateRows m p q cosine sine).toMatrix size =
      (planeRotation p q cosine sine)ᵀ * m.toMatrix size := by
  obtain ⟨_, data⟩ := m
  obtain ⟨rfl, dataSize⟩ := full
  obtain ⟨pairs, rest⟩ :=
    @toMatrix_turnPairs K _ _ data (fun j => (p, j)) (fun j => (q, j))
      (fun j => p + j * _) (fun j => q + j * _) dataSize (fun _ => rfl) (fun _ => rfl)
      (fun _ _ same => congrArg Prod.snd same)
      (fun _ _ same => congrArg Prod.snd same)
      (fun _ _ same => different (congrArg Prod.fst same)) cosine sine
  ext i j
  rw [planeRotation_transpose_mul_apply]
  split
  · rename_i isFirst
    rw [isFirst]
    exact (pairs j).1
  · rename_i notFirst
    split
    · rename_i isSecond
      rw [isSecond]
      exact (pairs j).2
    · rename_i notSecond
      exact
        rest i j fun k =>
          ⟨fun same => notFirst (congrArg Prod.fst same),
            fun same => notSecond (congrArg Prod.fst same)⟩

/-- To write the number that is there already changes nothing. -/
theorem toMatrix_set_same
    (full : m.Full size)
    {i j : Fin size}
    {value : K}
    (same : m.toMatrix size i j = value) :
    (m.set i j value).toMatrix size = m.toMatrix size := by
  obtain ⟨_, data⟩ := m
  obtain ⟨rfl, dataSize⟩ := full
  ext k l
  refine
    (Checked.numberAt_set ⟨rfl, dataSize⟩ (placeOf_lt (k, l)) i j value).trans ?_
  split
  · rename_i isHere
    obtain ⟨rfl, rfl⟩ := Prod.mk.inj (@placeOf_injective _ (i, j) _ isHere)
    exact same.symm
  · rfl

/--
A rotation from both sides, after which the entry at its indices is zero, is what
is computed: the zeros that are written last are there already.
-/
theorem toMatrix_rotate
    {state : Diagonalising K}
    (full : Checked.FullPair state size)
    {p q : Fin size}
    {cosine sine : K}
    (different : p ≠ q)
    (symmetric : (state.matrix.toMatrix size).IsSymm)
    (cleared :
      ((planeRotation p q cosine sine)ᵀ * state.matrix.toMatrix size *
        planeRotation p q cosine sine) q p = 0) :
    (state.rotate p q cosine sine).matrix.toMatrix size =
        (planeRotation p q cosine sine)ᵀ * state.matrix.toMatrix size *
          planeRotation p q cosine sine ∧
      (state.rotate p q cosine sine).rotations.toMatrix size =
        state.rotations.toMatrix size * planeRotation p q cosine sine := by
  obtain ⟨-, columnsFull⟩ :=
    Checked.rotateColumns_eq full.matrix p.isLt q.isLt cosine sine
  obtain ⟨-, rowsFull⟩ :=
    Checked.rotateRows_eq columnsFull p.isLt q.isLt cosine sine
  have turned :
      (rotateRows (rotateColumns state.matrix p q cosine sine) p q cosine
          sine).toMatrix size =
        (planeRotation p q cosine sine)ᵀ * state.matrix.toMatrix size *
          planeRotation p q cosine sine := by
    rw [toMatrix_rotateRows columnsFull different,
      toMatrix_rotateColumns full.matrix different, Matrix.mul_assoc]
  have across :
      ((planeRotation p q cosine sine)ᵀ * state.matrix.toMatrix size *
        planeRotation p q cosine sine) p q = 0 :=
    ((isSymm_conjugated symmetric _).apply q p).trans cleared
  constructor
  · change (clearPair _ p q).toMatrix size = _
    unfold clearPair
    have lower := toMatrix_set_same rowsFull (turned ▸ cleared)
    have upper := toMatrix_set_same (rowsFull.set q p 0) (lower ▸ turned ▸ across)
    rw [upper, lower, turned]
  · exact toMatrix_rotateColumns full.rotations different cosine sine

end Entries

section Angle

variable {K : Type} [ExactField K] [HasSquareRoots K]

/-- The root of a number from one on is positive, and exact. -/
theorem exists_root_one_add (x : K) :
    ∃ root : K,
      ExactField.sqrt (1 + x * x) = root ∧ 0 < root ∧
        root * root = 1 + x * x := by
  have atLeastOne : 1 ≤ 1 + x * x :=
    le_add_of_nonneg_right (mul_self_nonneg x)
  have nonneg : 0 ≤ 1 + x * x := zero_le_one.trans atLeastOne
  have square := HasSquareRoots.sqrt_mul_self nonneg
  refine ⟨_, rfl, ?_, square⟩
  refine lt_of_le_of_ne (HasSquareRoots.sqrt_nonneg nonneg) fun isZero => ?_
  rw [← isZero] at square
  linarith

/-- The tangent of the smaller angle with a given cotangent of twice the angle. -/
theorem tangent_spec (cotangent : K) :
    let tangent :=
      Scalar.sign cotangent /
        (Scalar.abs cotangent + Scalar.sqrt (1 + cotangent * cotangent))
    tangent * tangent + 2 * cotangent * tangent = 1 := by
  intro tangent
  obtain ⟨root, isRoot, positive, square⟩ := exists_root_one_add cotangent
  have signed :
      Scalar.sign cotangent * Scalar.sign cotangent = 1 ∧
        cotangent = Scalar.sign cotangent * |cotangent| := by
    change
      (if cotangent < 0 then -1 else 1 : K) *
            (if cotangent < 0 then -1 else 1) = 1 ∧
        cotangent = (if cotangent < 0 then -1 else 1) * |cotangent|
    split
    · rename_i negative
      exact ⟨by ring, by rw [abs_of_neg negative]; ring⟩
    · rename_i notNegative
      exact ⟨by ring, by rw [abs_of_nonneg (not_lt.mp notNegative)]; ring⟩
  obtain ⟨unit, isCotangent⟩ := signed
  have denominator : |cotangent| + root ≠ 0 :=
    (add_pos_of_nonneg_of_pos (abs_nonneg cotangent) positive).ne'
  have isTangent : tangent * (|cotangent| + root) = Scalar.sign cotangent := by
    change
      Scalar.sign cotangent /
          (|cotangent| + ExactField.sqrt (1 + cotangent * cotangent)) *
        (|cotangent| + root) = _
    rw [isRoot]
    exact div_mul_cancel₀ _ denominator
  have absSquare : |cotangent| * |cotangent| = cotangent * cotangent :=
    abs_mul_abs_self cotangent
  refine mul_right_cancel₀ (mul_ne_zero denominator denominator) ?_
  linear_combination
    (tangent * (|cotangent| + root) + Scalar.sign cotangent +
          2 * cotangent * (|cotangent| + root)) * isTangent +
      (1 + 2 * |cotangent| * (|cotangent| + root)) * unit +
      2 * Scalar.sign cotangent * (|cotangent| + root) * isCotangent -
      square + absSquare

/-- The rotation for an entry that is not zero lies on the unit circle and clears the entry. -/
theorem rotationFor_spec
    {m : SquareMatrix K}
    {p q : Nat}
    (nonzero : m.get q p ≠ 0) :
    let cosine := (rotationFor m p q).1
    let sine := (rotationFor m p q).2
    cosine * cosine + sine * sine = 1 ∧
      cosine * sine * (m.get p p - m.get q q) +
          (cosine * cosine - sine * sine) * m.get q p =
        0 := by
  intro cosine sine
  let cotangent := (m.get q q - m.get p p) / (m.get q p * 2)
  let tangent :=
    Scalar.sign cotangent /
      (Scalar.abs cotangent + Scalar.sqrt (1 + cotangent * cotangent))
  have isTangent : tangent * tangent + 2 * cotangent * tangent = 1 :=
    tangent_spec cotangent
  obtain ⟨root, isRoot, positive, square⟩ := exists_root_one_add tangent
  -- no size is below the machine epsilon, which is zero here
  have notTiny :
      ¬ (max |m.get p p| |m.get q q| < (0 : K) ∨
        |m.get q q - m.get p p| <
          (0 : K) * max |m.get p p| |m.get q q|) := by
    rw [zero_mul]
    exact
      not_or.mpr
        ⟨not_lt.mpr (le_max_of_le_left (abs_nonneg _)),
          not_lt.mpr (abs_nonneg _)⟩
  have isRotation : rotationFor m p q = (1 / root, tangent * (1 / root)) := by
    have two : (2.0 : K) = 2 := by norm_num
    refine (if_neg notTiny).trans ?_
    rw [two, ← isRoot]
    rfl
  have isCosine : cosine * root = 1 := by
    unfold cosine
    rw [isRotation]
    exact one_div_mul_cancel positive.ne'
  have isSine : sine = tangent * cosine := by
    unfold sine cosine
    rw [isRotation]
  have isCotangent :
      cotangent * (m.get q p * 2) = m.get q q - m.get p p :=
    div_mul_cancel₀ _ (mul_ne_zero nonzero two_ne_zero)
  rw [isSine]
  constructor
  · linear_combination
      -cosine * cosine * square + (cosine * root + 1) * isCosine
  · linear_combination
      cosine * cosine * tangent * isCotangent -
        cosine * cosine * m.get q p * isTangent

end Angle

section OffDiagonal

variable {K : Type} [ExactField K] {size : Nat} {m : SquareMatrix K}

/-- The pairs that a sweep visits are those of two indices in order. -/
theorem mem_indexPairs {pair : Nat × Nat} :
    pair ∈ indexPairs size ↔
      ∃ p q : Fin size, p < q ∧ pair = (p.val, q.val) := by
  constructor
  · intro member
    obtain ⟨p, first, inRow⟩ := List.mem_flatMap.mp member
    obtain ⟨q, second, rfl⟩ := List.mem_map.mp inRow
    obtain ⟨inside, below⟩ := List.mem_filter.mp second
    exact
      ⟨⟨p, List.mem_range.mp first⟩, ⟨q, List.mem_range.mp inside⟩,
        decide_eq_true_iff.mp below, rfl⟩
  · rintro ⟨p, q, below, rfl⟩
    have inRow : (q : Nat) ∈ (List.range size).filter (p.val < ·) :=
      List.mem_filter.mpr
        ⟨List.mem_range.mpr q.isLt, decide_eq_true_iff.mpr below⟩
    exact
      List.mem_flatMap.mpr
        ⟨p, List.mem_range.mpr p.isLt, List.mem_map.mpr ⟨q, inRow, rfl⟩⟩

/-- A sum over the visited pairs is a sum over all pairs of indices in order. -/
theorem foldl_indexPairs
    (summand : Nat → Nat → K) :
    (indexPairs size).foldl
        (fun total pair => total + summand pair.1 pair.2) 0 =
      ∑ p : Fin size, ∑ q : Fin size, if p < q then summand p q else 0 := by
  have row (p : Nat) (total : K) :
      (((List.range size).filter (p < ·)).map fun q => (p, q)).foldl
          (fun total pair => total + summand pair.1 pair.2) total =
        total +
          ∑ q ∈ Finset.range size, if p < q then summand p q else 0 := by
    rw [List.foldl_map, List.foldl_filter, ← foldl_range_add]
    congr 1
    funext running q
    by_cases below : p < q
    · simp [below]
    · simp [below]
  unfold indexPairs
  rw [List.foldl_flatMap]
  simp only [row]
  rw [foldl_range_add, zero_add, Finset.sum_range]
  simp only [Finset.sum_range, Fin.lt_def]

/-- What a sweep is to bring down is the sum of the squares outside the diagonal. -/
theorem offDiagonal_eq
    (full : m.Full size)
    (symmetric : (m.toMatrix size).IsSymm) :
    offDiagonal m = offDiagonalSquares (m.toMatrix size) := by
  obtain rfl := full.sameSize
  let matrix := m.toMatrix m.size
  let below (p q : Fin m.size) : K :=
    if p < q then matrix q p * matrix q p else 0
  have isBelow :
      offDiagonal m = ∑ p, ∑ q, below p q + ∑ p, ∑ q, below p q :=
    congrArg (fun total => total + total)
      (foldl_indexPairs fun p q => m.get q p * m.get q p)
  -- each square below the diagonal stands for the one across as well
  have outside (i j : Fin m.size) :
      below i j + below j i =
        if i = j then 0 else matrix i j * matrix i j := by
    have across : matrix j i = matrix i j := symmetric.apply i j
    unfold below
    rcases lt_trichotomy i j with isLess | rfl | isGreater
    · rw [if_pos isLess, if_neg isLess.not_gt, if_neg isLess.ne, across,
        add_zero]
    · rw [if_neg (lt_irrefl i), if_pos rfl, add_zero]
    · rw [if_neg isGreater.not_gt, if_pos isGreater, if_neg isGreater.ne',
        zero_add]
  rw [isBelow]
  nth_rewrite 2 [Finset.sum_comm]
  simp only [← Finset.sum_add_distrib, outside]
  rfl

end OffDiagonal

section Sweeps

variable
  {K : Type} [ExactField K]
  {size : Nat}
  {original : Matrix (Fin size) (Fin size) K}
  {state : Diagonalising K}

/--
The collected rotations are orthogonal, and take the original matrix to the one at
hand, which is symmetric.
-/
structure Rotated
    (original : Matrix (Fin size) (Fin size) K)
    (state : Diagonalising K) : Prop where
  full : Checked.FullPair state size
  orthogonal :
    (state.rotations.toMatrix size)ᵀ * state.rotations.toMatrix size = 1
  symmetric : (state.matrix.toMatrix size).IsSymm
  similar :
    state.matrix.toMatrix size =
      (state.rotations.toMatrix size)ᵀ * original *
        state.rotations.toMatrix size

/-- A matrix before the first rotation. -/
def start (m : SquareMatrix K) : Diagonalising K :=
  { matrix := m, rotations := SquareMatrix.identity m.size }

theorem start_rotated
    {m : SquareMatrix K}
    (full : m.Full size)
    (symmetric : (m.toMatrix size).IsSymm) :
    Rotated (m.toMatrix size) (start m) := by
  obtain rfl := full.sameSize
  have isIdentity :
      (SquareMatrix.identity m.size : SquareMatrix K).toMatrix m.size = 1 := by
    unfold SquareMatrix.identity
    rw [SquareMatrix.toMatrix_tabulate]
    ext i j
    simp [one_apply, Fin.ext_iff]
  refine ⟨⟨full, Checked.identity_full _⟩, ?_, symmetric, ?_⟩
  · change (SquareMatrix.toMatrix (.identity m.size) m.size)ᵀ * _ = 1
    rw [isIdentity, transpose_one, Matrix.one_mul]
    exact isIdentity
  · change
      _ =
        (SquareMatrix.toMatrix (.identity m.size) m.size)ᵀ * _ *
          SquareMatrix.toMatrix (.identity m.size) m.size
    rw [isIdentity, transpose_one, Matrix.one_mul, Matrix.mul_one]
    rfl

/--
A rotation on the unit circle that clears its entry keeps the rotations orthogonal
and the matrix similar to the original one, and takes twice the square of the entry
from what is outside the diagonal.
-/
theorem Rotated.rotate
    (rotated : Rotated original state)
    {p q : Fin size}
    {cosine sine : K}
    (different : p ≠ q)
    (circle : cosine * cosine + sine * sine = 1)
    (clears :
      cosine * sine * (state.matrix.get p p - state.matrix.get q q) +
          (cosine * cosine - sine * sine) * state.matrix.get q p =
        0) :
    Rotated original (state.rotate p q cosine sine) ∧
      offDiagonal (state.rotate p q cosine sine).matrix =
        offDiagonal state.matrix -
          2 * (state.matrix.get q p * state.matrix.get q p) := by
  let rotation := planeRotation p q cosine sine
  have orthogonal : rotationᵀ * rotation = 1 :=
    planeRotation_orthogonal different circle
  have cleared :
      (rotationᵀ * state.matrix.toMatrix size * rotation) q p = 0 := by
    have across :
        state.matrix.toMatrix size p q = state.matrix.toMatrix size q p :=
      rotated.symmetric.apply q p
    refine (mul_planeRotation_apply _ p q cosine sine q p).trans ?_
    simp only [rotation, planeRotation_transpose_mul_apply, different.symm,
      if_true, if_false, across]
    simp only [SquareMatrix.toMatrix, of_apply]
    linear_combination clears
  obtain ⟨isMatrix, isRotations⟩ :=
    toMatrix_rotate rotated.full different rotated.symmetric cleared
  obtain ⟨-, full⟩ :=
    Checked.rotate_eq rotated.full p.isLt q.isLt cosine sine
  have symmetric :
      ((state.rotate p q cosine sine).matrix.toMatrix size).IsSymm := by
    rw [isMatrix]
    exact isSymm_conjugated rotated.symmetric rotation
  refine ⟨⟨full, ?_, symmetric, ?_⟩, ?_⟩
  · calc
      _ = rotationᵀ *
            ((state.rotations.toMatrix size)ᵀ *
              state.rotations.toMatrix size) * rotation := by
        rw [isRotations, transpose_mul]
        simp only [Matrix.mul_assoc, rotation]
      _ = 1 := by
        rw [rotated.orthogonal, Matrix.mul_one, orthogonal]
  · rw [isMatrix, isRotations, transpose_mul, rotated.similar]
    simp only [Matrix.mul_assoc]
  · rw [offDiagonal_eq full.matrix symmetric,
      offDiagonal_eq rotated.full.matrix rotated.symmetric, isMatrix]
    exact offDiagonalSquares_rotated rotated.symmetric different circle cleared

/-- An entry that is zero already is left alone. -/
theorem rotateAway_of_eq_zero
    {p q : Nat}
    (isZero : state.matrix.get q p = 0) :
    state.rotateAway (p, q) = state :=
  if_pos (decide_eq_true isZero)

theorem rotateAway_of_ne_zero
    {p q : Nat}
    (nonzero : state.matrix.get q p ≠ 0) :
    state.rotateAway (p, q) =
      state.rotate p q (rotationFor state.matrix p q).1
        (rotationFor state.matrix p q).2 :=
  if_neg fun isZero => nonzero (of_decide_eq_true isZero)

/-- A sweep visits each pair once. -/
theorem Rotated.sweep_eq (rotated : Rotated original state) :
    state.sweep = (indexPairs size).foldl rotateAway state := by
  unfold sweep
  rw [rotated.full.matrix.sameSize]

variable [HasSquareRoots K]

/-- A visit is a rotation that clears the visited entry, or finds it cleared. -/
theorem Rotated.visit
    (rotated : Rotated original state)
    {pair : Nat × Nat}
    (member : pair ∈ indexPairs size) :
    Rotated original (state.rotateAway pair) ∧
      offDiagonal (state.rotateAway pair).matrix =
        offDiagonal state.matrix -
          2 * (state.matrix.get pair.2 pair.1 *
            state.matrix.get pair.2 pair.1) := by
  obtain ⟨p, q, below, rfl⟩ := mem_indexPairs.mp member
  by_cases isZero : state.matrix.get q p = 0
  · rw [rotateAway_of_eq_zero isZero]
    refine ⟨rotated, ?_⟩
    dsimp only
    rw [isZero]
    ring
  · rw [rotateAway_of_ne_zero isZero]
    obtain ⟨circle, clears⟩ := rotationFor_spec isZero
    exact rotated.rotate below.ne circle clears

/-- So do all visits of a sequence, one after the other. -/
theorem Rotated.visits
    (rotated : Rotated original state)
    {visits : List (Nat × Nat)}
    (members : ∀ pair ∈ visits, pair ∈ indexPairs size) :
    Rotated original (visits.foldl rotateAway state) := by
  induction visits generalizing state with
  | nil =>
      exact rotated
  | cons pair rest inductionHypothesis =>
      obtain ⟨here, later⟩ := List.forall_mem_cons.mp members
      exact inductionHypothesis (rotated.visit here).1 later

theorem Rotated.sweep (rotated : Rotated original state) :
    Rotated original state.sweep := by
  rw [rotated.sweep_eq]
  exact rotated.visits fun _ => id

/-- The sweeps are a sequence of visits. -/
theorem exists_visits
    (rotated : Rotated original state)
    (tolerance : K)
    (remaining : Nat) :
    ∃ visits : List (Nat × Nat),
      (∀ pair ∈ visits, pair ∈ indexPairs size) ∧
        sweepUntil tolerance remaining state =
          visits.foldl rotateAway state := by
  induction remaining generalizing state with
  | zero =>
      exact ⟨[], nofun, rfl⟩
  | succ remaining inductionHypothesis =>
      unfold sweepUntil
      split
      · exact ⟨[], nofun, rfl⟩
      · obtain ⟨visits, members, isResult⟩ :=
          inductionHypothesis rotated.sweep
        refine ⟨indexPairs size ++ visits, ?_, ?_⟩
        · exact List.forall_mem_append.mpr ⟨fun _ => id, members⟩
        · rw [isResult, List.foldl_append, rotated.sweep_eq]

end Sweeps

end Diagonalising

end SdpRelay
