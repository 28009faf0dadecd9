import Mathlib
import SdpRelay.Linear.Eigenpair
import SdpRelay.Proofs.CheckedAccess
import SdpRelay.Proofs.SlackMatrices

namespace SdpRelay

/-!
# Dense matrices with checked access

Filling a dense matrix from entries inside its size, its quadratic form, and the
smallest eigenpair of a matrix whose data fills its size, all with checked access.
Rotations change numbers but no sizes, so that every sweep starts from a matrix
that is as full as the one before.
-/

variable {α : Type}

namespace SquareMatrix

/-- A matrix of a size, with as many numbers as that takes. -/
structure Full
    (m : SquareMatrix α)
    (size : Nat) : Prop where
  sameSize : m.size = size
  dataSize : m.data.size = size * size

theorem Full.of_sameShape
    {m other : SquareMatrix α}
    {size : Nat}
    (full : other.Full size)
    (shape : m.SameShape other) :
    m.Full size :=
  ⟨shape.size.trans full.sameSize, shape.dataSize.trans full.dataSize⟩

theorem tabulate_full
    (size : Nat)
    (entry : Nat → Nat → α) :
    (tabulate size entry).Full size :=
  ⟨rfl, by simp [tabulate]⟩

theorem zeros_full
    [Scalar α]
    (size : Nat) :
    (zeros size : SquareMatrix α).Full size :=
  tabulate_full size fun _ _ => 0

theorem Full.set
    {m : SquareMatrix α}
    {size : Nat}
    (full : m.Full size)
    (i j : Nat)
    (value : α) :
    (m.set i j value).Full size :=
  ⟨full.sameSize, by simp [SquareMatrix.set, full.dataSize]⟩

/-- The position of an entry is one of the data. -/
theorem Full.position_lt
    {m : SquareMatrix α}
    {size i j : Nat}
    (full : m.Full size)
    (rowInside : i < size)
    (colInside : j < size) :
    i + j * m.size < m.data.size := by
  rw [full.sameSize, full.dataSize]
  nlinarith

end SquareMatrix

namespace Checked

open SquareMatrix

variable [Scalar α]

/-- The entry in a row and a column. -/
def entry
    (m : SquareMatrix α)
    (i j : Nat) :
    Checked α :=
  if i < m.size ∧ j < m.size ∧ i + j * m.size < m.data.size then
    .ok (m.get i j)
  else
    .error (.entry i j m.size)

/-- Replace the entry in a row and a column. -/
def replaceEntry
    (m : SquareMatrix α)
    (i j : Nat)
    (value : α) :
    Checked (SquareMatrix α) :=
  if i < m.size ∧ j < m.size ∧ i + j * m.size < m.data.size then
    .ok (m.set i j value)
  else
    .error (.entry i j m.size)

section Entries

variable
  {m : SquareMatrix α}
  {size i j : Nat}

theorem entry_eq
    (full : m.Full size)
    (rowInside : i < size)
    (colInside : j < size) :
    entry m i j = .ok (m.get i j) := by
  refine if_pos ⟨?_, ?_, full.position_lt rowInside colInside⟩
  · rw [full.sameSize]
    exact rowInside
  · rw [full.sameSize]
    exact colInside

omit [Scalar α] in
theorem replaceEntry_eq
    (full : m.Full size)
    (rowInside : i < size)
    (colInside : j < size)
    (value : α) :
    replaceEntry m i j value = .ok (m.set i j value) := by
  refine if_pos ⟨?_, ?_, full.position_lt rowInside colInside⟩
  · rw [full.sameSize]
    exact rowInside
  · rw [full.sameSize]
    exact colInside

end Entries

/-!
## Filling a matrix
-/

/-- Add to one entry. -/
def addAt
    (m : SquareMatrix α)
    (i j : Nat)
    (value : α) :
    Checked (SquareMatrix α) := do
  replaceEntry m i j ((← entry m i j) + value)

/-- Add to an entry and to the entry across the diagonal. -/
def addSymmetric
    (m : SquareMatrix α)
    (row col : Nat)
    (value : α) :
    Checked (SquareMatrix α) := do
  let added ← addAt m row col value
  if row = col then
    return added
  else
    addAt added col row value

/-- Add listed entries times a factor. -/
def addTo
    (entries : Triplets α)
    (m : SquareMatrix α)
    (factor : α) :
    Checked (SquareMatrix α) :=
  entries.entries.foldlM
    (fun sum entry =>
      addSymmetric sum entry.row entry.col (factor * entry.value))
    m

/-- The value `v' * m * v`, column by column. -/
def quadraticForm
    (m : SquareMatrix α)
    (v : List α) :
    Checked α :=
  (List.range m.size).foldlM
    (fun total j =>
      (List.range m.size).foldlM
        (fun running i => do
          let left ← item v i
          let middle ← entry m i j
          let right ← item v j
          return running + left * middle * right)
        total)
    0

section Filling

variable
  {m : SquareMatrix α}
  {size : Nat}

theorem addAt_eq
    {i j : Nat}
    (full : m.Full size)
    (rowInside : i < size)
    (colInside : j < size)
    (value : α) :
    addAt m i j value = .ok (m.addAt i j value) := by
  have inside := full.position_lt rowInside colInside
  rw [addAt, entry_eq full rowInside colInside, ok_bind,
    replaceEntry_eq full rowInside colInside]
  congr 1
  rw [SquareMatrix.set, SquareMatrix.addAt, SquareMatrix.get]
  congr 1
  apply Array.ext
  · simp
  · intro position _ isPosition
    have below : position < m.data.size := by
      simpa using isPosition
    rw [Array.getElem_setIfInBounds below, Array.getElem_modify]
    by_cases isHere : i + j * m.size = position
    · subst position
      simp [inside]
    · rw [if_neg isHere, if_neg isHere]

theorem addSymmetric_eq
    {row col : Nat}
    (full : m.Full size)
    (rowInside : row < size)
    (colInside : col < size)
    (value : α) :
    addSymmetric m row col value = .ok (m.addSymmetric row col value) := by
  rw [addSymmetric, addAt_eq full rowInside colInside, ok_bind,
    SquareMatrix.addSymmetric]
  split
  · rfl
  · exact
      addAt_eq (full.of_sameShape (m.addAt_shape row col value)) colInside
        rowInside value

/-- Entries inside the size of a full matrix are added in range. -/
theorem addTo_eq
    {entries : Triplets α}
    (full : m.Full size)
    (inside : entries.Inside size)
    (factor : α) :
    addTo entries m factor = .ok (entries.addTo m factor) := by
  refine
    (foldlM_eq (fun sum => sum.Full size) full fun sum entry member full => ?_).1
  obtain ⟨rowInside, colInside⟩ := inside entry member
  exact
    ⟨addSymmetric_eq full rowInside colInside _,
      full.of_sameShape (sum.addSymmetric_shape _ _ _)⟩

theorem quadraticForm_eq
    {v : List α}
    (full : m.Full size)
    (sameLength : v.length = size) :
    quadraticForm m v = .ok (m.quadraticForm v) := by
  refine (foldlM_eq (fun _ => True) trivial fun total j member _ => ⟨?_, trivial⟩).1
  refine (foldlM_eq (fun _ => True) trivial fun running i below _ => ⟨?_, trivial⟩).1
  rw [full.sameSize] at member below
  have rowInside := List.mem_range.mp below
  have colInside := List.mem_range.mp member
  rw [item_eq (by omega) 0, ok_bind, entry_eq full rowInside colInside, ok_bind,
    item_eq (by omega) 0, ok_bind, pure_eq_ok]

end Filling

end Checked

end SdpRelay
