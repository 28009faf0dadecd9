import Mathlib
import SdpRelay.Proofs.CheckedCompaction
import SdpRelay.Proofs.FoldedConstants

namespace SdpRelay

/-!
# Compacted blocks

Compaction removes the indices of a block that neither a variable that is not fixed
nor the folded constant touches.  The slack of the block is zero in the rows and
columns of removed indices, so it is positive semidefinite exactly if the matrix of
the kept rows and columns is, which the new numbers of the kept indices make up.
-/

open Matrix

/-!
## Numbered indices
-/

/--
A map numbers the kept indices below a size: a kept index is mapped to the number of
removed ones before it, and a removed one to nothing.
-/
structure NumbersKept
    (map : List (Option Nat))
    (removed size : Nat)
    (isKept : Nat → Prop) : Prop where
  length : map.length = size
  kept :
    ∀ i, (∃ shift, map[i]? = some (some shift)) ↔ i < size ∧ isKept i
  shift :
    ∀ i shift,
      map[i]? = some (some shift) →
        shift = (map.take i).countP Option.isNone
  removed : removed = map.countP Option.isNone

/-- A numbering only depends on which indices below the size are kept. -/
theorem NumbersKept.congr
    {map : List (Option Nat)}
    {removed size : Nat}
    {isKept isSame : Nat → Prop}
    (numbers : NumbersKept map removed size isKept)
    (same : ∀ i < size, isKept i ↔ isSame i) :
    NumbersKept map removed size isSame where
  length := numbers.length
  kept i := (numbers.kept i).trans (and_congr_right (same i))
  shift := numbers.shift
  removed := numbers.removed

namespace IndexCompaction

variable
  {size : Nat}
  {indices : List Nat}

/-- The shifts of a compaction that keeps some indices. -/
theorem shifts_keeping
    (size : Nat)
    (indices : List Nat) :
    (keeping size indices).shifts =
      (List.range size).map fun i =>
        if i ∈ indices then some (removedBefore indices i) else none :=
  List.map_congr_left fun _ member =>
    shift_keeping (List.mem_range.mp member) indices

/-- A compaction numbers the indices that it keeps. -/
theorem numbersKept
    (size : Nat)
    (indices : List Nat) :
    NumbersKept (keeping size indices).shifts (keeping size indices).removed
      size fun i => i ∈ indices := by
  have unlisted
      (count : Nat) :
      ((List.range count).map fun i =>
          if i ∈ indices then some (removedBefore indices i) else none).countP
            Option.isNone =
        removedBefore indices count := by
    rw [List.countP_map, removedBefore]
    refine List.countP_congr fun i _ => ?_
    by_cases listed : i ∈ indices
    · simp [listed]
    · simp [listed]
  have found
      (i shift : Nat) :
      (keeping size indices).shifts[i]? = some (some shift) ↔
        i < size ∧ i ∈ indices ∧ removedBefore indices i = shift := by
    rw [shifts_keeping]
    by_cases inside : i < size
    · by_cases listed : i ∈ indices
      · simp [inside, listed]
      · simp [inside, listed]
    · simp [inside]
  constructor
  · simp [shifts, keeping]
  · intro i
    simp only [found, exists_and_left, exists_eq', and_true]
  · intro i shift isShift
    obtain ⟨inside, _, isCount⟩ := (found i shift).mp isShift
    rw [shifts_keeping, ← List.map_take, List.take_range,
      min_eq_left inside.le, unlisted, isCount]
  · rw [removed_keeping, shifts_keeping, unlisted]

theorem kept_increasing
    (size : Nat)
    (indices : List Nat) :
    (keeping size indices).kept.Pairwise (· < ·) := by
  rw [kept_keeping]
  exact List.pairwise_lt_range.filter _

theorem mem_kept
    {i : Nat} :
    i ∈ (keeping size indices).kept ↔ i < size ∧ i ∈ indices := by
  rw [kept_keeping]
  simp

/-- What is not removed is kept. -/
theorem size_sub_removed
    (size : Nat)
    (indices : List Nat) :
    size - (keeping size indices).removed =
      (keeping size indices).kept.length := by
  have atMost : (keeping size indices).kept.length ≤ size := by
    rw [kept_keeping]
    exact (List.length_filter_le _ _).trans List.length_range.le
  change size - (size - (keeping size indices).kept.length) = _
  omega

theorem val_lt_length_kept
    (k : Fin (size - (keeping size indices).removed)) :
    k.val < (keeping size indices).kept.length :=
  size_sub_removed size indices ▸ k.isLt

/-- The kept indices in the order of their new numbers. -/
def original
    (size : Nat)
    (indices : List Nat) :
    Fin (size - (keeping size indices).removed) ↪o Fin size :=
  OrderEmbedding.ofStrictMono
    (fun k =>
      ⟨(keeping size indices).kept.get ⟨k, val_lt_length_kept k⟩,
        (mem_kept.mp (List.get_mem _ _)).1⟩)
    fun first second less =>
      List.pairwise_iff_getElem.mp (kept_increasing size indices) first second
        (val_lt_length_kept first) (val_lt_length_kept second) less

/-- The new number of a kept index is its place among the kept ones. -/
theorem newIndex_original
    (k : Fin (size - (keeping size indices).removed)) :
    (keeping size indices).newIndex (original size indices k) =
      some k.val := by
  have inside := val_lt_length_kept k
  rw [newIndex, List.idxOf?_eq_some_iff]
  refine ⟨inside, rfl, fun j earlier => ?_⟩
  exact
    (List.pairwise_iff_getElem.mp (kept_increasing size indices) j k
      (earlier.trans inside) inside earlier).ne

/-- The kept indices are the listed ones. -/
theorem mem_range_original
    {i : Fin size} :
    i ∈ Set.range (original size indices) ↔ i.val ∈ indices := by
  constructor
  · rintro ⟨k, rfl⟩
    exact (mem_kept.mp (List.getElem_mem (val_lt_length_kept k))).2
  · intro listed
    obtain ⟨k, inside, isHere⟩ :=
      List.getElem_of_mem (mem_kept.mpr ⟨i.isLt, listed⟩)
    exact ⟨⟨k, size_sub_removed size indices ▸ inside⟩, Fin.ext isHere⟩

end IndexCompaction

/-!
## Matrices with zero rows and columns
-/

section Semidefinite

variable
  {K : Type}
  [ExactField K]
  {count size : Nat}
  {matrix : Matrix (Fin size) (Fin size) K}
  {original : Fin count ↪o Fin size}

/-- Rows and columns of zeros do not count for the quadratic form of a matrix. -/
theorem quadraticForm_eq_submatrix
    (zeroRows : ∀ i, i ∉ Set.range original → ∀ j, matrix i j = 0)
    (zeroCols : ∀ j, j ∉ Set.range original → ∀ i, matrix i j = 0)
    (vector : Fin size → K) :
    vector ⬝ᵥ matrix *ᵥ vector =
      (vector ∘ original) ⬝ᵥ
        matrix.submatrix original original *ᵥ (vector ∘ original) := by
  simp only [mulVec, dotProduct, submatrix_apply, Function.comp_apply]
  refine
    (Fintype.sum_of_injective original original.injective _ _ ?_ ?_).symm
  · intro i removed
    simp [zeroRows i removed]
  · intro k
    congr 1
    refine Fintype.sum_of_injective original original.injective _ _ ?_ ?_
    · intro j removed
      rw [zeroCols j removed, zero_mul]
    · intro l
      rfl

/-- Rows and columns of zeros do not count for whether a matrix is positive semidefinite. -/
theorem isPositiveSemidefinite_iff_submatrix
    (zeroRows : ∀ i, i ∉ Set.range original → ∀ j, matrix i j = 0)
    (zeroCols : ∀ j, j ∉ Set.range original → ∀ i, matrix i j = 0) :
    IsPositiveSemidefinite matrix ↔
      IsPositiveSemidefinite (matrix.submatrix original original) := by
  have form := quadraticForm_eq_submatrix zeroRows zeroCols
  constructor
  · intro semidefinite
    refine ⟨semidefinite.symmetric.submatrix original, fun vector => ?_⟩
    have extended := semidefinite.nonneg (Function.extend original vector 0)
    rw [form, Function.extend_comp original.injective] at extended
    exact extended
  · intro semidefinite
    refine ⟨IsSymm.ext fun i j => ?_, fun vector => ?_⟩
    · by_cases isRow : i ∈ Set.range original
      · by_cases isCol : j ∈ Set.range original
        · obtain ⟨k, rfl⟩ := isRow
          obtain ⟨l, rfl⟩ := isCol
          exact semidefinite.symmetric.apply k l
        · rw [zeroRows j isCol, zeroCols j isCol]
      · rw [zeroRows i isRow, zeroCols i isRow]
    · rw [form]
      exact semidefinite.nonneg (vector ∘ original)

end Semidefinite

/-!
## Touched indices
-/

namespace Workspace

section Touched

variable
  {α : Type}
  [Scalar α]
  {work : Workspace α}
  {block : Block α}
  {constant : Triplets α}

/-- An entry of a variable that is not fixed, or of the constant, is in the row or column. -/
def Touches
    (work : Workspace α)
    (block : Block α)
    (constant : Triplets α)
    (i : Nat) :
    Prop :=
  (∃ term ∈ block.terms,
    ¬ work.Fixed term.var ∧
      ∃ entry ∈ term.entries.entries, entry.row = i ∨ entry.col = i) ∨
    ∃ entry ∈ constant.entries, entry.row = i ∨ entry.col = i

omit [Scalar α] in
theorem mem_touchedBy
    {entries : Triplets α}
    {i : Nat} :
    i ∈ Compaction.touchedBy entries ↔
      ∃ entry ∈ entries.entries, entry.row = i ∨ entry.col = i := by
  simp [Compaction.touchedBy, eq_comm]

theorem mem_touchedIndices
    {i : Nat} :
    i ∈ Compaction.touchedIndices work.bounds work.epsilon block constant ↔
      work.Touches block constant i := by
  simp only [Compaction.touchedIndices, List.mem_append, List.mem_flatMap,
    List.mem_filter, mem_touchedBy, Bool.not_eq_true', decide_eq_false_iff_not,
    and_assoc]
  rfl

end Touched

section Blocks

variable
  {K : Type}
  [ExactField K]
  {work : Workspace K}
  {store : Store K}
  {block : Block K}
  {constant : Triplets K}

/-- Entries that are not in a row or column leave it zero. -/
theorem symmetric_of_untouched
    {entries : Triplets K}
    {size : Nat}
    {i : Fin size}
    (untouched :
      ¬ ∃ entry ∈ entries.entries, entry.row = i.val ∨ entry.col = i.val)
    (j : Fin size) :
    entries.symmetric size i j = 0 := by
  refine List.sum_eq_zero fun value member => ?_
  obtain ⟨entry, isEntry, rfl⟩ := List.mem_map.mp member
  refine if_neg fun isHere => untouched ⟨entry, isEntry, ?_⟩
  rcases isHere with ⟨isRow, _⟩ | ⟨_, isCol⟩
  · exact .inl isRow
  · exact .inr isCol

/-- The slack of a block is zero in the rows of indices that nothing touches. -/
theorem openSlackAt_of_untouched
    {i : Fin block.size}
    (untouched : ¬ work.Touches block constant i)
    (point : Nat → K)
    (j : Fin block.size) :
    work.openSlackAt block constant point i j = 0 := by
  rw [openSlackAt_apply,
    symmetric_of_untouched fun touched => untouched (.inr touched), sub_zero]
  refine List.sum_eq_zero fun value member => ?_
  obtain ⟨term, isOpen, rfl⟩ := List.mem_map.mp member
  obtain ⟨isTerm, notFixed⟩ := List.mem_filter.mp isOpen
  have free : ¬ work.Fixed term.var := by
    simpa using notFixed
  rw [symmetric_of_untouched fun touched =>
      untouched (.inl ⟨term, isTerm, free, touched⟩),
    mul_zero]

/--
A compaction of a block with its folded constant: which indices are kept and how they
are numbered, and that the slack of the block loses nothing with the other ones.
-/
structure CompactsBlock
    (work : Workspace K)
    (block : Block K)
    (constant : Triplets K)
    (map : List (Option Nat))
    (removed : Nat)
    (newIndex : Nat → Option Nat) : Prop where
  numbers : NumbersKept map removed block.size (work.Touches block constant)
  compacts :
    ∃ original : Fin (block.size - removed) ↪o Fin block.size,
      (∀ k, newIndex (original k) = some k.val) ∧
        (∀ i, i ∈ Set.range original ↔ work.Touches block constant i) ∧
          ∀ point,
            (∀ i j,
              ¬ (i ∈ Set.range original ∧ j ∈ Set.range original) →
                work.openSlackAt block constant point i j = 0) ∧
              (IsPositiveSemidefinite
                  (work.openSlackAt block constant point) ↔
                IsPositiveSemidefinite
                  ((work.openSlackAt block constant point).submatrix original
                    original))

/-- Keeping the touched indices compacts a block. -/
theorem compacted_compactsBlock
    (work : Workspace K)
    (block : Block K)
    (constant : Triplets K) :
    work.CompactsBlock block constant
      (Checked.compacted work block constant).shifts
      (Checked.compacted work block constant).removed
      (Checked.compacted work block constant).newIndex := by
  let indices :=
    Compaction.touchedIndices work.bounds work.epsilon block constant
  let original := IndexCompaction.original block.size indices
  have touched (i : Fin block.size) :
      i ∈ Set.range original ↔ work.Touches block constant i :=
    IndexCompaction.mem_range_original.trans mem_touchedIndices
  refine
    ⟨(IndexCompaction.numbersKept block.size indices).congr
      fun _ _ => mem_touchedIndices,
      original, IndexCompaction.newIndex_original, touched, fun point => ?_⟩
  have zeroRows :
      ∀ i, i ∉ Set.range original →
        ∀ j, work.openSlackAt block constant point i j = 0 :=
    fun i removed =>
      openSlackAt_of_untouched (fun isTouched => removed ((touched i).mpr isTouched))
        point
  have zeroCols :
      ∀ j, j ∉ Set.range original →
        ∀ i, work.openSlackAt block constant point i j = 0 := by
    intro j removed i
    have symmetric :=
      (work.openBlock block constant).slackAt_isSymm 0 point
    exact (symmetric.apply j i).trans (zeroRows j removed i)
  refine ⟨fun i j outside => ?_, isPositiveSemidefinite_iff_submatrix zeroRows zeroCols⟩
  by_cases isRow : i ∈ Set.range original
  · exact zeroCols j (fun isCol => outside ⟨isRow, isCol⟩) i
  · exact zeroRows i isRow j

/-- Maps and the compaction that they hold compact all blocks, and the list of blocks. -/
structure CompactsInto
    (work : Workspace K)
    (store : Store K)
    (maps : IndexMaps)
    (compaction : Compaction) : Prop where
  hold : maps.Hold compaction
  blocks :
    ∀ b (isBlock : b < store.blocks.length),
      ∃ map removed compacted,
        maps.shifts[b]? = some map ∧
          maps.removed[b]? = some removed ∧
            compaction.blocks[b]? = some compacted ∧
              (∀ i < store.blocks[b].size,
                Checked.newIndex maps b i = .ok (compacted.newIndex i)) ∧
                work.CompactsBlock store.blocks[b]
                  (work.constants.getD b Triplets.empty) map removed
                    compacted.newIndex
  blockList :
    NumbersKept maps.blockShifts maps.removedBlocks store.blocks.length
      fun b =>
        ∃ block,
          store.blocks[b]? = some block ∧ maps.removed[b]? ≠ some block.size

/-- Maps that hold the compaction of a workspace compact its blocks. -/
theorem compactsInto_of_hold
    {maps : IndexMaps}
    {compacted : List IndexCompaction}
    (isCompacted : compacted = Checked.compactedBlocks work store)
    (hold :
      maps.Hold
        { blocks := compacted, blockList := Compaction.keptBlocks compacted }) :
    work.CompactsInto store maps
      { blocks := compacted, blockList := Compaction.keptBlocks compacted } := by
  have count : compacted.length = store.blocks.length := by
    rw [isCompacted, Checked.length_compactedBlocks, store.length_blocks]
  have atBlock
      (b : Nat)
      (isBlock : b < store.blocks.length)
      (inCompacted : b < compacted.length) :
      compacted[b] =
        Checked.compacted work store.blocks[b]
          (work.constants.getD b Triplets.empty) := by
    simp [isCompacted, Checked.compactedBlocks]
  have removedAt
      (b : Nat)
      (inCompacted : b < compacted.length) :
      maps.removed[b]? = some compacted[b].removed := by
    rw [hold.removed, List.getElem?_map,
      List.getElem?_eq_getElem inCompacted, Option.map_some]
  refine ⟨hold, fun b isBlock => ?_, ?_⟩
  · have inCompacted : b < compacted.length := count ▸ isBlock
    refine
      ⟨_, _, compacted[b], hold.shifts b inCompacted, removedAt b inCompacted,
        List.getElem?_eq_getElem inCompacted, fun i inside => ?_, ?_⟩
    · exact
        Checked.newIndex_eq hold inCompacted (atBlock b isBlock inCompacted)
          inside
    · rw [atBlock b isBlock inCompacted]
      exact compacted_compactsBlock work store.blocks[b] _
  · rw [hold.blockShifts, hold.removedBlocks, ← count, Compaction.keptBlocks]
    refine
      (IndexCompaction.numbersKept compacted.length _).congr
        fun b inCompacted => ?_
    have isBlock : b < store.blocks.length := count ▸ inCompacted
    have allRemoved :
        compacted[b].removed = store.blocks[b].size ↔
          compacted[b].kept.isEmpty := by
      rw [atBlock b isBlock inCompacted]
      exact IndexCompaction.removed_eq_size _ _
    rw [removedAt b inCompacted, List.getElem?_eq_getElem isBlock,
      Checked.mem_listedBlocks inCompacted, ← allRemoved]
    simp

/--
Compaction keeps exactly the indices that something touches, numbers them in order,
and loses nothing of any block, whatever maps there were; marking may stop once all
indices are found.  It fails exactly if a reservation for the maps is refused.
-/
theorem compact_compactsInto
    (sound : store.Sound)
    (fits : work.Fits store)
    (old : IndexMaps)
    (memory : Memory) :
    (∃ maps,
      Checked.indexMaps work store old = .ok maps ∧
        work.CompactsInto store maps (work.compacted store).compaction) ∧
      (memory.covers (store.blocks.map Block.size) = true →
        work.compact store memory = .ok (work.compacted store)) ∧
      (memory.covers (store.blocks.map Block.size) = false →
        work.compact store memory = .error .outOfMemory) := by
  refine ⟨?_, fun covers => if_pos covers, fun scarce => ?_⟩
  · exact
      ⟨_, Checked.indexMaps_eq sound fits old,
        compactsInto_of_hold rfl (Checked.mapsOf_hold _ _)⟩
  · exact if_neg (Bool.eq_false_iff.mp scarce)

end Blocks

/-- The bounds and constants of the sparse program. -/
def sparseWork : Workspace ℚ :=
  (Workspace.empty.reset sparseTask.store sparseTask.settings).foldConstants
    sparseTask.store

/-- The sparse program loses one index of its first block, and its second block. -/
theorem sparseWork_compactsInto :
    sparseTask.store.Sound ∧
      sparseWork.Fits sparseTask.store ∧
        ∃ next maps,
          sparseWork.compact sparseTask.store = .ok next ∧
            Checked.indexMaps sparseWork sparseTask.store staleMaps =
              .ok maps ∧
              sparseWork.CompactsInto sparseTask.store maps next.compaction ∧
                maps.shifts = [[some 0, none, some 1], [none], []] ∧
                  maps.blockShifts = [some 0, none] := by
  have sound : sparseTask.store.Sound := Store.sound_of_edits sparseEdits
  have fits : sparseWork.Fits sparseTask.store :=
    foldConstants_fits sound (Checked.reset_sized sound.wellFormed _ _)
  have read :
      (Checked.indexMaps sparseWork sparseTask.store staleMaps).map
          (fun maps => (maps.shifts, maps.blockShifts)) =
        .ok ([[some 0, none, some 1], [none], []], [some 0, none]) := by
    decide +kernel
  obtain ⟨⟨maps, isMaps, compacts⟩, granted, _⟩ :=
    compact_compactsInto sound fits staleMaps Memory.common
  have covers :
      Memory.common.covers (sparseTask.store.blocks.map Block.size) = true := by
    decide +kernel
  rw [isMaps] at read
  obtain ⟨shifts, blockShifts⟩ := Prod.mk.inj (Except.ok.inj read)
  exact
    ⟨sound, fits, _, maps, granted covers, isMaps, compacts, shifts,
      blockShifts⟩

/-- Where no reservation is granted, the sparse program is not compacted. -/
example :
    sparseWork.compact sparseTask.store { grants := fun _ => false } =
      .error .outOfMemory :=
  rfl

end Workspace

end SdpRelay
