import Mathlib
import SdpRelay.Proofs.CheckedMatrices

namespace SdpRelay

/-!
# Smallest eigenpairs with checked access

The methods for the smallest eigenpair with checked access.  A rotation changes
numbers but no sizes, so that every sweep starts from a matrix and from rotations
that are as full as the ones before.
-/

namespace Checked

open SquareMatrix

variable {α : Type} [Scalar α]

/-- The identity matrix: ones on the diagonal of the zero matrix. -/
def identity (size : Nat) : Checked (SquareMatrix α) :=
  (List.range size).foldlM
    (fun m i => replaceEntry m i i 1)
    (SquareMatrix.zeros size)

/-- Sum of the squares of the entries outside the diagonal. -/
def offDiagonal (m : SquareMatrix α) : Checked α := do
  let below ←
    (Diagonalising.indexPairs m.size).foldlM
      (fun total (col, row) => do
        let first ← entry m row col
        let second ← entry m row col
        return total + first * second)
      0
  return below + below

/-- Cosine and sine of a rotation, from the entries that determine it. -/
def rotationOf (corner first second : α) : α × α :=
  let difference := second - first
  let size := Scalar.larger (Scalar.abs first) (Scalar.abs second)
  if size < Scalar.machineEpsilon ∨
      Scalar.abs difference < Scalar.machineEpsilon * size then
    (Scalar.invSqrtTwo, Scalar.invSqrtTwo)
  else
    let cotangent := difference / (corner * 2.0)
    let square := cotangent * cotangent
    let tangent :=
      if Scalar.isFinite square then
        Scalar.sign cotangent /
          (Scalar.abs cotangent + Scalar.sqrt (1 + square))
      else
        0.5 / cotangent
    let cosine := 1 / Scalar.sqrt (1 + tangent * tangent)
    (cosine, tangent * cosine)

/-- Cosine and sine of the rotation that makes the entry in row `q` and column `p` zero. -/
def rotationFor
    (m : SquareMatrix α)
    (p q : Nat) :
    Checked (α × α) := do
  let corner ← entry m q p
  let first ← entry m p p
  let second ← entry m q q
  return rotationOf corner first second

/-- Turn the pair of entries in two places, each a row and a column. -/
def turnPair
    (m : SquareMatrix α)
    (cosine sine : α)
    (first second : Nat × Nat) :
    Checked (SquareMatrix α) := do
  let x ← entry m first.1 first.2
  let y ← entry m second.1 second.2
  let turned ← replaceEntry m first.1 first.2 (cosine * x - sine * y)
  replaceEntry turned second.1 second.2 (sine * x + cosine * y)

/-- Replace columns `p` and `q` by their rotations. -/
def rotateColumns
    (m : SquareMatrix α)
    (p q : Nat)
    (cosine sine : α) :
    Checked (SquareMatrix α) :=
  (List.range m.size).foldlM
    (fun turned k => turnPair turned cosine sine (k, p) (k, q))
    m

/-- Replace rows `p` and `q` by their rotations. -/
def rotateRows
    (m : SquareMatrix α)
    (p q : Nat)
    (cosine sine : α) :
    Checked (SquareMatrix α) :=
  (List.range m.size).foldlM
    (fun turned k => turnPair turned cosine sine (p, k) (q, k))
    m

/-- Apply one rotation from both sides, and record it. -/
def rotate
    (state : Diagonalising α)
    (p q : Nat)
    (cosine sine : α) :
    Checked (Diagonalising α) := do
  let columns ← rotateColumns state.matrix p q cosine sine
  let rows ← rotateRows columns p q cosine sine
  let lower ← replaceEntry rows q p 0
  let matrix ← replaceEntry lower p q 0
  let rotations ← rotateColumns state.rotations p q cosine sine
  return { matrix := matrix, rotations := rotations }

/-- Rotate one entry away unless it is zero already. -/
def rotateAway
    (state : Diagonalising α)
    (pair : Nat × Nat) :
    Checked (Diagonalising α) := do
  if (← entry state.matrix pair.2 pair.1) == 0 then
    return state
  else
    let (cosine, sine) ← rotationFor state.matrix pair.1 pair.2
    rotate state pair.1 pair.2 cosine sine

/-- Visit every entry below the diagonal once. -/
def sweep (state : Diagonalising α) : Checked (Diagonalising α) :=
  (Diagonalising.indexPairs state.matrix.size).foldlM rotateAway state

/-- Sweep until the entries outside the diagonal are negligible, at most a given number of times. -/
def sweepUntil
    (tolerance : α) :
    Nat → Diagonalising α → Checked (Diagonalising α)
  | 0, state => return state
  | remaining + 1, state => do
      if (← offDiagonal state.matrix) ≤ tolerance then
        return state
      else
        sweepUntil tolerance remaining (← sweep state)

/-- Index and value of the smallest diagonal entry, the first one if there are several. -/
def smallestDiagonal (m : SquareMatrix α) : Checked (Nat × α) := do
  let first ← entry m 0 0
  (List.range m.size).foldlM
    (fun best i => do
      let value ← entry m i i
      return if value < best.2 then (i, value) else best)
    (0, first)

/-- The smallest eigenpair of a matrix from its diagonal form. -/
def rotatedPair
    (m : SquareMatrix α)
    (wantVector : Bool) :
    Checked (Eigenpair α) := do
  let start ← identity m.size
  let final ←
    sweepUntil
      (Scalar.machineEpsilon * Scalar.machineEpsilon *
        Diagonalising.sumOfSquares m)
      Diagonalising.sweepLimit
      { matrix := m, rotations := start }
  let (index, eigenvalue) ← smallestDiagonal final.matrix
  if wantVector then
    let vector ←
      (List.range m.size).mapM fun i => entry final.rotations i index
    return { eigenvalue := eigenvalue, eigenvector := some vector }
  else
    return { eigenvalue := eigenvalue, eigenvector := none }

/-- The smallest eigenpair of a matrix of size two, from its entries. -/
def planePairOf
    (first corner second : α)
    (wantVector : Bool) :
    Eigenpair α :=
  let mean := (first + second) * 0.5
  let radius := Scalar.hypot ((first - second) * 0.5) corner
  let eigenvalue := mean - radius
  {
    eigenvalue := eigenvalue
    eigenvector :=
      if wantVector then
        some (EigenMethod.planeEigenvector first corner second eigenvalue)
      else
        none
  }

/-- The smallest eigenpair of a symmetric matrix by one method. -/
def smallest
    (method : EigenMethod)
    (m : SquareMatrix α)
    (wantVector : Bool) :
    Checked (Except EigenFault (Eigenpair α)) :=
  match method with
  | .single =>
      if m.size = 1 then do
        let eigenvalue ← entry m 0 0
        return .ok {
          eigenvalue := eigenvalue
          eigenvector := if wantVector then some [1] else none
        }
      else
        return .error .sizeMismatch
  | .closedForm =>
      if m.size = 2 then do
        let first ← entry m 0 0
        let corner ← entry m 1 0
        let second ← entry m 1 1
        return .ok (planePairOf first corner second wantVector)
      else
        return .error .sizeMismatch
  | .rotations size =>
      if m.size = size ∧ m.size ≠ 0 then
        Except.ok <$> rotatedPair m wantVector
      else
        return .error .sizeMismatch

/-- The smallest eigenpair of a symmetric matrix by the method for its size. -/
def smallestEigenpair
    (m : SquareMatrix α)
    (wantVector : Bool) :
    Checked (Except EigenFault (Eigenpair α)) :=
  smallest (EigenMethod.forSize m.size) m wantVector

section Identity

theorem numberAt_set
    {size position : Nat}
    {m : SquareMatrix α}
    (full : m.Full size)
    (inside : position < size * size)
    (i j : Nat)
    (value : α) :
    (m.set i j value).numberAt position =
      if i + j * size = position then value else m.numberAt position := by
  have below : position < m.data.size := by
    rw [full.dataSize]
    exact inside
  simp only [numberAt, SquareMatrix.set, Array.getD_eq_getD_getElem?,
    Array.getElem?_setIfInBounds, full.sameSize]
  split
  · rename_i isHere
    subst isHere
    simp [below]
  · rfl

theorem identity_full (size : Nat) :
    (SquareMatrix.identity size : SquareMatrix α).Full size :=
  tabulate_full size fun i j => if i = j then 1 else 0

theorem numberAt_identity
    {size position : Nat}
    (inside : position < size * size) :
    (SquareMatrix.identity size : SquareMatrix α).numberAt position =
      if position % size = position / size then 1 else 0 := by
  simp [numberAt, SquareMatrix.identity, tabulate, Array.getD, inside]

/-- The zero matrix with ones in the first places of its diagonal. -/
theorem foldl_set_diagonal
    (size count : Nat) :
    ((List.range count).foldl
        (fun m i => m.set i i 1)
        (SquareMatrix.zeros size : SquareMatrix α)).Full size ∧
      ∀ position, position < size * size →
        ((List.range count).foldl
            (fun m i => m.set i i 1)
            (SquareMatrix.zeros size : SquareMatrix α)).numberAt position =
          if ∃ i < count, i + i * size = position then 1 else 0 := by
  induction count with
  | zero =>
      refine ⟨zeros_full size, fun position _ => ?_⟩
      simp [numberAt_zeros]
  | succ count inductionHypothesis =>
      obtain ⟨full, numbers⟩ := inductionHypothesis
      simp only [List.range_succ, List.foldl_append, List.foldl_cons,
        List.foldl_nil]
      refine ⟨full.set count count 1, fun position inside => ?_⟩
      rw [numberAt_set full inside, numbers position inside]
      by_cases isLast : count + count * size = position
      · rw [if_pos isLast, if_pos ⟨count, Nat.lt_succ_self count, isLast⟩]
      · rw [if_neg isLast]
        congr 1
        refine propext (exists_congr fun i => and_congr_left fun isHere => ?_)
        constructor
        · exact Nat.lt_succ_of_lt
        · intro below
          refine lt_of_le_of_ne (Nat.le_of_lt_succ below) ?_
          rintro rfl
          exact isLast isHere

/-- Ones on the diagonal make the identity. -/
theorem identity_eq (size : Nat) :
    (identity size : Checked (SquareMatrix α)) =
      .ok (SquareMatrix.identity size) := by
  have filled :
      (identity size : Checked (SquareMatrix α)) =
        .ok
          ((List.range size).foldl
            (fun m i => m.set i i 1)
            (SquareMatrix.zeros size)) := by
    refine
      (foldlM_eq (fun m => m.Full size) (zeros_full size)
        fun m i member full => ?_).1
    have inside := List.mem_range.mp member
    exact ⟨replaceEntry_eq full inside inside 1, full.set i i 1⟩
  obtain ⟨full, numbers⟩ := foldl_set_diagonal (α := α) size size
  have identityFull := identity_full (α := α) size
  rw [filled]
  congr 1
  refine
    eq_of_numberAt
      ⟨full.sameSize.trans identityFull.sameSize.symm,
        full.dataSize.trans identityFull.dataSize.symm⟩
      fun position inside => ?_
  rw [full.dataSize] at inside
  rw [numbers position inside, numberAt_identity inside]
  congr 1
  refine propext ⟨?_, fun onDiagonal => ?_⟩
  · rintro ⟨i, below, rfl⟩
    rw [Nat.add_mul_mod_self_right, Nat.mod_eq_of_lt below,
      Nat.add_mul_div_right i i (Nat.zero_lt_of_lt below),
      Nat.div_eq_of_lt below, Nat.zero_add]
  · have some : 0 < size := Nat.pos_of_mul_pos_left (Nat.zero_lt_of_lt inside)
    refine ⟨position / size, Nat.div_lt_of_lt_mul inside, ?_⟩
    have parts := Nat.mod_add_div position size
    rw [onDiagonal] at parts
    rw [Nat.mul_comm (position / size) size]
    exact parts

end Identity

/-!
## Rotations
-/

/-- A matrix and rotations of one size, both full. -/
structure FullPair
    (state : Diagonalising α)
    (size : Nat) : Prop where
  matrix : state.matrix.Full size
  rotations : state.rotations.Full size

section Rotations

variable {size : Nat}

theorem lt_of_mem_indexPairs
    {pair : Nat × Nat}
    (member : pair ∈ Diagonalising.indexPairs size) :
    pair.1 < size ∧ pair.2 < size := by
  obtain ⟨p, first, inRow⟩ := List.mem_flatMap.mp member
  obtain ⟨q, second, rfl⟩ := List.mem_map.mp inRow
  exact
    ⟨List.mem_range.mp first, List.mem_range.mp (List.mem_filter.mp second).1⟩

theorem offDiagonal_eq
    {m : SquareMatrix α}
    (full : m.Full size) :
    offDiagonal m = .ok (Diagonalising.offDiagonal m) := by
  refine
    bind_eq (foldlM_eq (fun _ => True) trivial fun total pair member _ => ?_).1 rfl
  rw [full.sameSize] at member
  obtain ⟨colInside, rowInside⟩ := lt_of_mem_indexPairs member
  refine ⟨?_, trivial⟩
  exact
    bind_eq (entry_eq full rowInside colInside)
      (bind_eq (entry_eq full rowInside colInside) rfl)

theorem rotationFor_eq
    {m : SquareMatrix α}
    {p q : Nat}
    (full : m.Full size)
    (first : p < size)
    (second : q < size) :
    rotationFor m p q = .ok (Diagonalising.rotationFor m p q) :=
  bind_eq (entry_eq full second first)
    (bind_eq (entry_eq full first first)
      (bind_eq (entry_eq full second second) rfl))

/-- A pair of entries is turned where it stands in the data. -/
theorem turnPair_eq
    {m : SquareMatrix α}
    {first second : Nat × Nat}
    (full : m.Full size)
    (firstRow : first.1 < size)
    (firstCol : first.2 < size)
    (secondRow : second.1 < size)
    (secondCol : second.2 < size)
    (cosine sine : α) :
    turnPair m cosine sine first second =
        .ok
          {
            m with
            data :=
              Diagonalising.turnPair cosine sine
                (first.1 + first.2 * size) (second.1 + second.2 * size) m.data
          } ∧
      SquareMatrix.Full
        {
          m with
          data :=
            Diagonalising.turnPair cosine sine
              (first.1 + first.2 * size) (second.1 + second.2 * size) m.data
        }
        size := by
  constructor
  · refine
      bind_eq (entry_eq full firstRow firstCol)
        (bind_eq (entry_eq full secondRow secondCol)
          (bind_eq (replaceEntry_eq full firstRow firstCol _) ?_))
    rw [replaceEntry_eq (full.set _ _ _) secondRow secondCol]
    simp only [SquareMatrix.set, SquareMatrix.get, Diagonalising.turnPair,
      full.sameSize]
  · exact ⟨full.sameSize, by simp [Diagonalising.turnPair, full.dataSize]⟩

omit [Scalar α] in
/-- Changes of the data one after the other. -/
theorem foldl_data
    (change : Nat → Array α → Array α)
    (items : List Nat)
    (m : SquareMatrix α) :
    items.foldl (fun turned k => { turned with data := change k turned.data }) m =
      { m with data := items.foldl (fun data k => change k data) m.data } := by
  induction items generalizing m with
  | nil =>
      rfl
  | cons first rest inductionHypothesis =>
      rw [List.foldl_cons, inductionHypothesis, List.foldl_cons]

/-- Pairs of entries are turned one after the other, each where it stands in the data. -/
theorem turnPairs_eq
    {m : SquareMatrix α}
    (first second : Nat → Nat × Nat)
    (full : m.Full size)
    (firstInside :
      ∀ k < size, (first k).1 < size ∧ (first k).2 < size)
    (secondInside :
      ∀ k < size, (second k).1 < size ∧ (second k).2 < size)
    (cosine sine : α) :
    ∃ turned,
      (List.range m.size).foldlM
          (fun turned k => turnPair turned cosine sine (first k) (second k))
          m =
        .ok turned ∧
      turned.Full size ∧
      turned =
        {
          m with
          data :=
            (List.range m.size).foldl
              (fun data k =>
                Diagonalising.turnPair cosine sine
                  ((first k).1 + (first k).2 * size)
                  ((second k).1 + (second k).2 * size) data)
              m.data
        } := by
  have steps
      (turned : SquareMatrix α)
      (k : Nat)
      (member : k ∈ List.range m.size)
      (turnedFull : turned.Full size) :=
    have inside : k < size := full.sameSize ▸ List.mem_range.mp member
    turnPair_eq turnedFull (firstInside k inside).1 (firstInside k inside).2
      (secondInside k inside).1 (secondInside k inside).2 cosine sine
  obtain ⟨reached, turnedFull⟩ :=
    foldlM_eq (fun turned : SquareMatrix α => turned.Full size) full steps
  exact ⟨_, reached, turnedFull, foldl_data _ _ _⟩

theorem rotateColumns_eq
    {m : SquareMatrix α}
    {p q : Nat}
    (full : m.Full size)
    (first : p < size)
    (second : q < size)
    (cosine sine : α) :
    rotateColumns m p q cosine sine =
        .ok (Diagonalising.rotateColumns m p q cosine sine) ∧
      (Diagonalising.rotateColumns m p q cosine sine).Full size := by
  obtain ⟨turned, reached, turnedFull, isTurned⟩ :=
    turnPairs_eq (fun k => (k, p)) (fun k => (k, q)) full
      (fun _ inside => ⟨inside, first⟩) (fun _ inside => ⟨inside, second⟩)
      cosine sine
  have same : turned = Diagonalising.rotateColumns m p q cosine sine := by
    rw [isTurned, ← full.sameSize]
    rfl
  rw [← same]
  exact ⟨reached, turnedFull⟩

theorem rotateRows_eq
    {m : SquareMatrix α}
    {p q : Nat}
    (full : m.Full size)
    (first : p < size)
    (second : q < size)
    (cosine sine : α) :
    rotateRows m p q cosine sine =
        .ok (Diagonalising.rotateRows m p q cosine sine) ∧
      (Diagonalising.rotateRows m p q cosine sine).Full size := by
  obtain ⟨turned, reached, turnedFull, isTurned⟩ :=
    turnPairs_eq (fun k => (p, k)) (fun k => (q, k)) full
      (fun _ inside => ⟨first, inside⟩) (fun _ inside => ⟨second, inside⟩)
      cosine sine
  have same : turned = Diagonalising.rotateRows m p q cosine sine := by
    rw [isTurned, ← full.sameSize]
    rfl
  rw [← same]
  exact ⟨reached, turnedFull⟩

variable {state : Diagonalising α}

theorem rotate_eq
    {p q : Nat}
    (full : FullPair state size)
    (first : p < size)
    (second : q < size)
    (cosine sine : α) :
    rotate state p q cosine sine = .ok (state.rotate p q cosine sine) ∧
      FullPair (state.rotate p q cosine sine) size := by
  obtain ⟨columns, columnsFull⟩ :=
    rotateColumns_eq full.matrix first second cosine sine
  obtain ⟨rows, rowsFull⟩ :=
    rotateRows_eq columnsFull first second cosine sine
  obtain ⟨rotations, rotationsFull⟩ :=
    rotateColumns_eq full.rotations first second cosine sine
  constructor
  · exact
      bind_eq columns <| bind_eq rows <|
        bind_eq (replaceEntry_eq rowsFull second first 0) <|
          bind_eq (replaceEntry_eq (rowsFull.set q p 0) first second 0) <|
            bind_eq rotations rfl
  · exact ⟨(rowsFull.set q p 0).set p q 0, rotationsFull⟩

theorem rotateAway_eq
    {pair : Nat × Nat}
    (full : FullPair state size)
    (member : pair ∈ Diagonalising.indexPairs size) :
    rotateAway state pair = .ok (state.rotateAway pair) ∧
      FullPair (state.rotateAway pair) size := by
  obtain ⟨first, second⟩ := lt_of_mem_indexPairs member
  rw [rotateAway, entry_eq full.matrix second first, ok_bind,
    Diagonalising.rotateAway]
  split
  · exact ⟨rfl, full⟩
  · rw [rotationFor_eq full.matrix first second, ok_bind]
    exact rotate_eq full first second _ _

theorem sweep_eq (full : FullPair state size) :
    sweep state = .ok state.sweep ∧ FullPair state.sweep size := by
  rw [sweep, Diagonalising.sweep, full.matrix.sameSize]
  exact
    foldlM_eq (fun state => FullPair state size) full
      fun _ _ member full => rotateAway_eq full member

theorem sweepUntil_eq
    (tolerance : α)
    (remaining : Nat)
    (full : FullPair state size) :
    sweepUntil tolerance remaining state =
        .ok (Diagonalising.sweepUntil tolerance remaining state) ∧
      FullPair (Diagonalising.sweepUntil tolerance remaining state) size := by
  induction remaining generalizing state with
  | zero =>
      exact ⟨rfl, full⟩
  | succ remaining inductionHypothesis =>
      rw [sweepUntil, offDiagonal_eq full.matrix, ok_bind,
        Diagonalising.sweepUntil]
      split
      · exact ⟨rfl, full⟩
      · obtain ⟨swept, sweptFull⟩ := sweep_eq full
        rw [swept, ok_bind]
        exact inductionHypothesis sweptFull

end Rotations

/-!
## The smallest entry of a diagonal
-/

section Smallest

variable
  {m : SquareMatrix α}
  {size : Nat}

/-- The smallest entry so far and its place, from a first place. -/
theorem foldl_smallest
    (m : SquareMatrix α)
    (items : List Nat)
    (first : Nat) :
    items.foldl
        (fun best i => if m.get i i < best.2 then (i, m.get i i) else best)
        (first, m.get first first) =
      (items.foldl
          (fun best i => if m.get i i < m.get best best then i else best)
          first,
        m.get
          (items.foldl
            (fun best i => if m.get i i < m.get best best then i else best)
            first)
          (items.foldl
            (fun best i => if m.get i i < m.get best best then i else best)
            first)) := by
  induction items generalizing first with
  | nil =>
      rfl
  | cons i rest inductionHypothesis =>
      simp only [List.foldl_cons]
      split
      · exact inductionHypothesis i
      · exact inductionHypothesis first

theorem foldl_smallest_lt
    {items : List Nat}
    (m : SquareMatrix α)
    (inside : ∀ i ∈ items, i < size)
    {first : Nat}
    (firstInside : first < size) :
    items.foldl
        (fun best i => if m.get i i < m.get best best then i else best)
        first <
      size := by
  induction items generalizing first with
  | nil =>
      exact firstInside
  | cons i rest inductionHypothesis =>
      obtain ⟨here, later⟩ := List.forall_mem_cons.mp inside
      rw [List.foldl_cons]
      split
      · exact inductionHypothesis later here
      · exact inductionHypothesis later firstInside

/-- The smallest entry of a diagonal is found in range, and in the matrix. -/
theorem smallestDiagonal_eq
    (full : m.Full size)
    (nonempty : 0 < size) :
    smallestDiagonal m =
        .ok
          (Diagonalising.smallestDiagonal m,
            m.get (Diagonalising.smallestDiagonal m)
              (Diagonalising.smallestDiagonal m)) ∧
      Diagonalising.smallestDiagonal m < size := by
  have inside : ∀ i ∈ List.range m.size, i < size := by
    intro i member
    rw [full.sameSize] at member
    exact List.mem_range.mp member
  constructor
  · refine bind_eq (entry_eq full nonempty nonempty) ?_
    rw [Diagonalising.smallestDiagonal, ← foldl_smallest]
    refine
      (foldlM_eq (fun _ => True) trivial fun best i member _ => ⟨?_, trivial⟩).1
    exact bind_eq (entry_eq full (inside i member) (inside i member)) rfl
  · exact foldl_smallest_lt m inside nonempty

theorem rotatedPair_eq
    (full : m.Full size)
    (nonempty : 0 < size)
    (wantVector : Bool) :
    rotatedPair m wantVector = .ok (EigenMethod.rotatedPair m wantVector) := by
  have start :
      FullPair { matrix := m, rotations := SquareMatrix.identity m.size } size :=
    ⟨full, by
      rw [full.sameSize]
      exact identity_full size⟩
  obtain ⟨swept, sweptFull⟩ :=
    sweepUntil_eq
      (Scalar.machineEpsilon * Scalar.machineEpsilon *
        Diagonalising.sumOfSquares m)
      Diagonalising.sweepLimit start
  obtain ⟨found, inside⟩ := smallestDiagonal_eq sweptFull.matrix nonempty
  refine bind_eq (identity_eq m.size) (bind_eq swept (bind_eq found ?_))
  cases wantVector with
  | false =>
      rfl
  | true =>
      refine bind_eq (mapM_eq fun i member => ?_) rfl
      rw [full.sameSize] at member
      exact entry_eq sweptFull.rotations (List.mem_range.mp member) inside

/-- The smallest eigenpair of a full matrix is computed in range. -/
theorem smallestEigenpair_eq
    (full : m.Full size)
    (wantVector : Bool) :
    smallestEigenpair m wantVector =
      .ok (SdpRelay.smallestEigenpair m wantVector) := by
  rw [smallestEigenpair, SdpRelay.smallestEigenpair]
  cases EigenMethod.forSize m.size with
  | single =>
      rw [smallest, EigenMethod.smallest]
      split
      · rename_i isOne
        have nonempty : 0 < size := by
          rw [← full.sameSize, isOne]
          exact Nat.one_pos
        exact bind_eq (entry_eq full nonempty nonempty) rfl
      · rfl
  | closedForm =>
      rw [smallest, EigenMethod.smallest]
      split
      · rename_i isTwo
        have two : size = 2 := by
          rw [← full.sameSize, isTwo]
        subst two
        exact
          bind_eq (entry_eq full Nat.two_pos Nat.two_pos) <|
            bind_eq (entry_eq full Nat.one_lt_two Nat.two_pos) <|
              bind_eq (entry_eq full Nat.one_lt_two Nat.one_lt_two) rfl
      · rfl
  | rotations room =>
      rw [smallest, EigenMethod.smallest]
      split
      · rename_i fits
        have nonempty : 0 < size := by
          rw [← full.sameSize]
          exact Nat.pos_of_ne_zero fits.2
        rw [rotatedPair_eq full nonempty]
        rfl
      · rfl

end Smallest

end Checked

section Eigenvectors

variable {α : Type} [Scalar α]

theorem EigenMethod.planeEigenvector_length
    (first corner second eigenvalue : α) :
    (planeEigenvector first corner second eigenvalue).length = 2 := by
  simp only [planeEigenvector]
  split
  · split
    · rfl
    · rfl
  · split
    · rfl
    · rfl

/-- An eigenvector has one number for each index of its matrix. -/
theorem eigenvector_length
    {m : SquareMatrix α}
    {wantVector : Bool}
    {pair : Eigenpair α}
    {vector : List α}
    (solved : smallestEigenpair m wantVector = .ok pair)
    (isVector : pair.eigenvector = some vector) :
    vector.length = m.size := by
  -- a vector that was not asked for is not there
  have asked
      {found : List α}
      (given : (if wantVector then some found else none) = some vector) :
      vector = found := by
    cases wantVector with
    | false => cases given
    | true => exact (Option.some.inj given).symm
  rw [smallestEigenpair] at solved
  generalize EigenMethod.forSize m.size = method at solved
  cases method with
  | single =>
      rw [EigenMethod.smallest] at solved
      split at solved
      · rename_i isOne
        cases solved
        rw [asked isVector, isOne]
        rfl
      · cases solved
  | closedForm =>
      rw [EigenMethod.smallest] at solved
      split at solved
      · rename_i isTwo
        cases solved
        rw [asked isVector, isTwo]
        exact EigenMethod.planeEigenvector_length _ _ _ _
      · cases solved
  | rotations room =>
      rw [EigenMethod.smallest] at solved
      split at solved
      · cases solved
        rw [asked isVector, List.length_map, List.length_range]
      · cases solved

end Eigenvectors

end SdpRelay
