import Mathlib
import SdpRelay.Linear.Triplets
import SdpRelay.Problem.Program
import SdpRelay.Proofs.ExactField

namespace SdpRelay

/-!
# Dense matrices from listed entries

A dense matrix is filled by adding listed entries times a factor.  Where sums
and products follow the laws of a ring, the outcome at a position is the old
number there plus the factor times a weight that depends on the listed entries
alone, so that two ways to fill a matrix are compared by their weights.
-/

/--
Sums and products follow the laws of a ring, as far as filling a matrix uses them.
-/
structure ExactSums (α : Type) [Scalar α] : Prop where
  zeroAdd : ∀ a : α, 0 + a = a
  addComm : ∀ a b : α, a + b = b + a
  addAssoc : ∀ a b c : α, a + b + c = a + (b + c)
  addCancel : ∀ a b c : α, a + b = a + c → b = c
  mulAdd : ∀ a b c : α, a * (b + c) = a * b + a * c
  mulZero : ∀ a : α, a * 0 = 0
  oneMul : ∀ a : α, 1 * a = a

/-- An ordered field has exact sums. -/
theorem ExactField.exactSums (K : Type) [ExactField K] : ExactSums K where
  zeroAdd := zero_add
  addComm := add_comm
  addAssoc := add_assoc
  addCancel _ _ _ := add_left_cancel
  mulAdd := mul_add
  mulZero := MulZeroClass.mul_zero
  oneMul := one_mul

namespace ExactSums

variable {α : Type} [Scalar α]

theorem addZero (exact : ExactSums α) (a : α) : a + 0 = a := by
  rw [exact.addComm, exact.zeroAdd]

/-- A summand that changes nothing is zero. -/
theorem eq_zero_of_add_eq_self
    {a b : α}
    (exact : ExactSums α)
    (same : a + b = a) :
    b = 0 := by
  apply exact.addCancel a
  rw [same, exact.addZero]

end ExactSums

namespace SquareMatrix

variable {α : Type}

/-- A matrix of the same shape as another one. -/
structure SameShape (m other : SquareMatrix α) : Prop where
  size : m.size = other.size
  dataSize : m.data.size = other.data.size

theorem SameShape.trans
    {first second third : SquareMatrix α}
    (earlier : first.SameShape second)
    (later : second.SameShape third) :
    first.SameShape third :=
  ⟨earlier.size.trans later.size, earlier.dataSize.trans later.dataSize⟩

end SquareMatrix

variable {α : Type} [Scalar α]

namespace SquareMatrix

/-- The number at a position of the data. -/
def numberAt (m : SquareMatrix α) (position : Nat) : α :=
  m.data.getD position 0

/-- Matrices of the same shape are equal if their numbers are. -/
theorem eq_of_numberAt
    {m other : SquareMatrix α}
    (shape : m.SameShape other)
    (same :
      ∀ position, position < m.data.size →
        m.numberAt position = other.numberAt position) :
    m = other := by
  obtain ⟨size, data⟩ := m
  obtain ⟨otherSize, otherData⟩ := other
  have sameSize : size = otherSize := shape.size
  have sameData : data = otherData := by
    apply Array.ext shape.dataSize
    intro position inFirst inSecond
    have samePosition := same position inFirst
    simpa [numberAt, Array.getD, inFirst, inSecond] using samePosition
  rw [sameSize, sameData]

theorem addAt_shape
    (m : SquareMatrix α)
    (i j : Nat)
    (value : α) :
    (m.addAt i j value).SameShape m :=
  ⟨rfl, by simp [addAt]⟩

/-- Adding to an entry changes the number at its position. -/
theorem numberAt_addAt
    {position : Nat}
    (exact : ExactSums α)
    (m : SquareMatrix α)
    (i j : Nat)
    (value : α)
    (inside : position < m.data.size) :
    (m.addAt i j value).numberAt position =
      m.numberAt position +
        if i + j * m.size = position then value else 0 := by
  by_cases isHere : i + j * m.size = position
  · simp [numberAt, addAt, Array.getD, inside, isHere, Array.getElem_modify]
  · simp [numberAt, addAt, Array.getD, inside, isHere, Array.getElem_modify,
      exact.addZero]

theorem zeros_dataSize (size : Nat) :
    (zeros size : SquareMatrix α).data.size = size * size := by
  simp [zeros, tabulate]

theorem numberAt_zeros (size position : Nat) :
    (zeros size : SquareMatrix α).numberAt position = 0 := by
  by_cases inside : position < size * size
  · simp [numberAt, zeros, tabulate, Array.getD, inside]
  · simp [numberAt, zeros, tabulate, Array.getD, inside]

theorem addSymmetric_shape
    (m : SquareMatrix α)
    (row col : Nat)
    (value : α) :
    (m.addSymmetric row col value).SameShape m := by
  rw [addSymmetric]
  split
  · exact m.addAt_shape row col value
  · exact (addAt_shape _ col row value).trans (m.addAt_shape row col value)

end SquareMatrix

/-- What a listed entry counts for at a position of a matrix of a given size. -/
def Entry.weightAt
    (entry : Entry α)
    (size position : Nat) :
    α :=
  (if entry.row + entry.col * size = position then entry.value else 0) +
    if entry.row ≠ entry.col ∧ entry.col + entry.row * size = position then
      entry.value
    else
      0

namespace SquareMatrix

/-- Adding an entry symmetrically adds its weight times the factor. -/
theorem numberAt_addSymmetric
    {position : Nat}
    (exact : ExactSums α)
    (m : SquareMatrix α)
    (entry : Entry α)
    (factor : α)
    (inside : position < m.data.size) :
    (m.addSymmetric entry.row entry.col
        (factor * entry.value)).numberAt position =
      m.numberAt position + factor * entry.weightAt m.size position := by
  have scaled (here : Prop) [Decidable here] :
      (if here then factor * entry.value else 0) =
        factor * if here then entry.value else 0 := by
    split
    · rfl
    · rw [exact.mulZero]
  by_cases diagonal : entry.row = entry.col
  · have notTwice :
        (if entry.row ≠ entry.col ∧
            entry.col + entry.row * m.size = position then
          entry.value
        else
          0) = 0 :=
      if_neg fun both => both.1 diagonal
    rw [addSymmetric, if_pos diagonal, numberAt_addAt exact _ _ _ _ inside,
      scaled, Entry.weightAt, notTwice, exact.addZero]
  · have insideBoth :
        position <
          (m.addAt entry.row entry.col (factor * entry.value)).data.size := by
      rw [(m.addAt_shape _ _ _).dataSize]
      exact inside
    rw [addSymmetric, if_neg diagonal, numberAt_addAt exact _ _ _ _ insideBoth,
      numberAt_addAt exact _ _ _ _ inside, (m.addAt_shape _ _ _).size, scaled,
      scaled, Entry.weightAt, exact.mulAdd, exact.addAssoc]
    simp only [ne_eq, diagonal, not_false_eq_true, true_and]

end SquareMatrix

namespace Triplets

/-- What the listed entries of a matrix count for at a position. -/
def weightAt
    (t : Triplets α)
    (size position : Nat) :
    α :=
  (t.entries.map fun entry => entry.weightAt size position).sum

theorem addTo_shape
    (t : Triplets α)
    (m : SquareMatrix α)
    (factor : α) :
    (t.addTo m factor).SameShape m := by
  rw [addTo]
  induction t.entries generalizing m with
  | nil =>
      exact ⟨rfl, rfl⟩
  | cons entry rest inductionHypothesis =>
      exact
        (inductionHypothesis _).trans
          (m.addSymmetric_shape entry.row entry.col (factor * entry.value))

/-- Adding listed entries adds their weight times the factor. -/
theorem numberAt_addTo
    {position : Nat}
    (exact : ExactSums α)
    (t : Triplets α)
    (m : SquareMatrix α)
    (factor : α)
    (inside : position < m.data.size) :
    (t.addTo m factor).numberAt position =
      m.numberAt position + factor * t.weightAt m.size position := by
  rw [addTo, weightAt]
  induction t.entries generalizing m with
  | nil =>
      simp [exact.mulZero, exact.addZero]
  | cons entry rest inductionHypothesis =>
      have shape :=
        m.addSymmetric_shape entry.row entry.col (factor * entry.value)
      rw [List.foldl_cons,
        inductionHypothesis _ (by rw [shape.dataSize]; exact inside),
        SquareMatrix.numberAt_addSymmetric exact m entry factor inside,
        shape.size, List.map_cons, List.sum_cons, exact.mulAdd, exact.addAssoc]

end Triplets

namespace BlockTerm

/-- Add the matrices of some terms, each times one factor. -/
def addAll
    (terms : List (BlockTerm α))
    (m : SquareMatrix α)
    (factor : α) :
    SquareMatrix α :=
  terms.foldl (fun sum term => term.entries.addTo sum factor) m

/-- What the matrices of some terms together count for at a position. -/
def weightAt
    (terms : List (BlockTerm α))
    (size position : Nat) :
    α :=
  (terms.map fun term => term.entries.weightAt size position).sum

theorem addAll_shape
    (terms : List (BlockTerm α))
    (m : SquareMatrix α)
    (factor : α) :
    (addAll terms m factor).SameShape m := by
  induction terms generalizing m with
  | nil =>
      exact ⟨rfl, rfl⟩
  | cons term rest inductionHypothesis =>
      exact
        (inductionHypothesis _).trans (term.entries.addTo_shape m factor)

/-- Adding terms adds their weight times the factor. -/
theorem numberAt_addAll
    {position : Nat}
    (exact : ExactSums α)
    (terms : List (BlockTerm α))
    (m : SquareMatrix α)
    (factor : α)
    (inside : position < m.data.size) :
    (addAll terms m factor).numberAt position =
      m.numberAt position + factor * weightAt terms m.size position := by
  induction terms generalizing m with
  | nil =>
      simp [addAll, weightAt, exact.mulZero, exact.addZero]
  | cons term rest inductionHypothesis =>
      have shape := term.entries.addTo_shape m factor
      have step :=
        inductionHypothesis (term.entries.addTo m factor)
          (by rw [shape.dataSize]; exact inside)
      rw [addAll] at step ⊢
      rw [List.foldl_cons, step,
        term.entries.numberAt_addTo exact m factor inside, shape.size,
        weightAt, weightAt, List.map_cons, List.sum_cons, exact.mulAdd,
        exact.addAssoc]

/-- The first term and the later ones share the weight. -/
theorem weightAt_first_add_later
    (exact : ExactSums α)
    (terms : List (BlockTerm α))
    (size position : Nat) :
    weightAt (terms.take 1) size position +
        weightAt (terms.drop 1) size position =
      weightAt terms size position := by
  cases terms with
  | nil =>
      exact exact.zeroAdd 0
  | cons first later =>
      simp [weightAt, exact.addZero]

/-- Terms fill a zero matrix with zeros exactly if they weigh nothing anywhere. -/
theorem addAll_zeros_eq_iff
    (exact : ExactSums α)
    (terms : List (BlockTerm α))
    (size : Nat) :
    addAll terms (SquareMatrix.zeros size) 1 = SquareMatrix.zeros size ↔
      ∀ position, position < size * size →
        weightAt terms size position = 0 := by
  have filled
      {position : Nat}
      (inside : position < size * size) :
      (addAll terms (SquareMatrix.zeros size) 1).numberAt position =
        weightAt terms size position := by
    rw [numberAt_addAll exact terms _ _
        (by rw [SquareMatrix.zeros_dataSize]; exact inside),
      SquareMatrix.numberAt_zeros, exact.zeroAdd, exact.oneMul]
    rfl
  constructor
  · intro same position inside
    rw [← filled inside, same, SquareMatrix.numberAt_zeros]
  · intro weightless
    have shape :=
      addAll_shape terms (SquareMatrix.zeros size : SquareMatrix α) 1
    apply SquareMatrix.eq_of_numberAt shape
    intro position inside
    rw [shape.dataSize, SquareMatrix.zeros_dataSize] at inside
    rw [filled inside, weightless position inside, SquareMatrix.numberAt_zeros]

end BlockTerm

end SdpRelay
