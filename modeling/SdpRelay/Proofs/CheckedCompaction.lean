import Mathlib
import SdpRelay.Proofs.MarkedIndices

namespace SdpRelay

/-!
# Compaction with checked access

Once the touched indices of a block are marked in a map as long as the block, every
marked index gets the number of unmarked ones before it.  The maps of all blocks
are kept from solve to solve; they are emptied first, and made as long as the block
one by one.
-/

/-- The maps that a compaction is written into. -/
structure IndexMaps where
  /-- For each index of each block: how many indices before it are removed, or that it is itself. -/
  shifts : List (List (Option Nat))
  removed : List Nat
  /-- For each block: how many blocks before it are removed, or that it is itself. -/
  blockShifts : List (Option Nat)
  removedBlocks : Nat
  deriving Repr, DecidableEq

/-- Maps hold a compaction; there may be maps of more blocks than it has. -/
structure IndexMaps.Hold
    (maps : IndexMaps)
    (compaction : Compaction) : Prop where
  shifts :
    ∀ b (isBlock : b < compaction.blocks.length),
      maps.shifts[b]? = some compaction.blocks[b].shifts
  removed : maps.removed = compaction.blocks.map IndexCompaction.removed
  blockShifts : maps.blockShifts = compaction.blockList.shifts
  removedBlocks : maps.removedBlocks = compaction.blockList.removed

namespace Checked

/-- Give each marked index the number of unmarked ones before it. -/
def shiftsFrom (removed : Nat) : List (Option Nat) → List (Option Nat)
  | [] => []
  | none :: rest => none :: shiftsFrom (removed + 1) rest
  | some _ :: rest => some removed :: shiftsFrom removed rest

section Maps

variable {α : Type} [Scalar α]

/-- Map the indices of a block, and the block itself. -/
def mapBlock
    (work : Workspace α)
    (store : Store α)
    (maps : IndexMaps)
    (b : Nat) :
    Checked IndexMaps := do
  let block ← blockAt store b
  let constant ← item work.constants b
  let old ← item maps.shifts b
  let marked ← markBlock work block constant (resized old block.size none)
  let shifts ← replace maps.shifts b (shiftsFrom 0 marked)
  let removed := marked.countP Option.isNone
  if removed = block.size then
    return {
      shifts := shifts
      removed := maps.removed ++ [removed]
      blockShifts := maps.blockShifts ++ [none]
      removedBlocks := maps.removedBlocks + 1
    }
  else
    return {
      shifts := shifts
      removed := maps.removed ++ [removed]
      blockShifts := maps.blockShifts ++ [some maps.removedBlocks]
      removedBlocks := maps.removedBlocks
    }

/-- Empty maps, at least as many as there are blocks. -/
def clearedMaps
    (old : IndexMaps)
    (blockCount : Nat) :
    IndexMaps :=
  {
    shifts :=
      (old.shifts.map fun _ => []) ++
        List.replicate (blockCount - old.shifts.length) []
    removed := []
    blockShifts := []
    removedBlocks := 0
  }

/-- Map the indices of all blocks, in the maps that there are. -/
def indexMaps
    (work : Workspace α)
    (store : Store α)
    (old : IndexMaps) :
    Checked IndexMaps :=
  (List.range store.blockCount).foldlM (mapBlock work store)
    (clearedMaps old store.blockCount)

end Maps

/-- The new number of an index of a block, if it is kept. -/
def newIndex
    (maps : IndexMaps)
    (b i : Nat) :
    Checked (Option Nat) := do
  let map ← item maps.shifts b
  match ← item map i with
  | some shift => return some (← minus i shift)
  | none => return none

theorem shiftsFrom_concat
    (removed : Nat)
    (map : List (Option Nat))
    (last : Option Nat) :
    shiftsFrom removed (map ++ [last]) =
      shiftsFrom removed map ++
        [last.map fun _ => removed + map.countP Option.isNone] := by
  induction map generalizing removed with
  | nil =>
      cases last with
      | none => rfl
      | some _ => rfl
  | cons first rest inductionHypothesis =>
      cases first with
      | none =>
          rw [List.cons_append, shiftsFrom, inductionHypothesis]
          simp [shiftsFrom, Nat.add_assoc, Nat.add_comm]
      | some _ =>
          rw [List.cons_append, shiftsFrom, inductionHypothesis]
          simp [shiftsFrom]

/-- Numbering the marked indices gives the shifts of the compaction that keeps them. -/
theorem shiftsFrom_marksOf
    (size : Nat)
    (indices : List Nat) :
    shiftsFrom 0 (marksOf size indices) =
      (IndexCompaction.keeping size indices).shifts := by
  have numbered :
      shiftsFrom 0 (marksOf size indices) =
        (List.range size).map fun i =>
          if i ∈ indices then
            some (IndexCompaction.removedBefore indices i)
          else
            none := by
    induction size with
    | zero =>
        rfl
    | succ size inductionHypothesis =>
        rw [marksOf_succ, shiftsFrom_concat, inductionHypothesis,
          countP_marksOf, Nat.zero_add, List.range_succ, List.map_append]
        congr 1
        rw [List.map_singleton]
        split
        · rfl
        · rfl
  rw [numbered, IndexCompaction.shifts]
  refine List.map_congr_left fun i member => ?_
  exact
    (IndexCompaction.shift_keeping (List.mem_range.mp member) indices).symm

/-!
## The maps of all blocks
-/

section Blocks

variable {α : Type} [Scalar α]

variable
  {work : Workspace α}
  {store : Store α}
  {block : Block α}
  {size : Nat}

/-- The compaction of a block with a constant. -/
def compacted
    (work : Workspace α)
    (block : Block α)
    (constant : Triplets α) :
    IndexCompaction :=
  IndexCompaction.keeping block.size
    (Compaction.touchedIndices work.bounds work.epsilon block constant)

/-- The compactions of all blocks with their constants. -/
def compactedBlocks
    (work : Workspace α)
    (store : Store α) :
    List IndexCompaction :=
  store.blocks.zipIdx.map fun (block, b) =>
    compacted work block (work.constants.getD b Triplets.empty)

/-- Whether a block keeps an index, as it is marked in a map of blocks. -/
def blockMark (compaction : IndexCompaction) : Option Nat :=
  if compaction.kept.isEmpty then none else some 1

/-- The maps of some blocks, in front of maps that are empty. -/
def mapsOf
    (blocks : List IndexCompaction)
    (spare : Nat) :
    IndexMaps :=
  {
    shifts :=
      blocks.map IndexCompaction.shifts ++ List.replicate spare []
    removed := blocks.map IndexCompaction.removed
    blockShifts := shiftsFrom 0 (blocks.map blockMark)
    removedBlocks := (blocks.map blockMark).countP Option.isNone
  }

/-- The maps of one more block stand behind those of the others. -/
theorem mapsOf_concat
    (front : List IndexCompaction)
    (last : IndexCompaction)
    (spare : Nat) :
    mapsOf (front ++ [last]) spare =
      {
        shifts :=
          (mapsOf front (spare + 1)).shifts.set front.length last.shifts
        removed := (mapsOf front (spare + 1)).removed ++ [last.removed]
        blockShifts :=
          (mapsOf front (spare + 1)).blockShifts ++
            [(blockMark last).map fun _ =>
              (mapsOf front (spare + 1)).removedBlocks]
        removedBlocks :=
          (mapsOf front (spare + 1)).removedBlocks +
            [blockMark last].countP Option.isNone
      } := by
  simp only [mapsOf, List.map_append, List.map_singleton, List.countP_append,
    shiftsFrom_concat, Nat.zero_add]
  rw [List.set_append_right _ _ (Nat.le_of_eq (List.length_map _)),
    List.length_map, Nat.sub_self, List.replicate_succ, List.set_cons_zero,
    List.append_assoc, List.singleton_append]

/-- Mapping the block behind some others adds its maps to theirs. -/
theorem mapBlock_eq
    (sound : store.Sound)
    (fits : work.Fits store)
    (front : List IndexCompaction)
    (isBlock : front.length < store.blocks.length)
    (spare : Nat) :
    mapBlock work store (mapsOf front (spare + 1)) front.length =
      .ok
        (mapsOf
          (front ++
            [compacted work store.blocks[front.length]
              (work.constants.getD front.length Triplets.empty)])
          spare) := by
  let block := store.blocks[front.length]
  let constant := work.constants.getD front.length Triplets.empty
  let touched :=
    Compaction.touchedIndices work.bounds work.epsilon block constant
  let last := compacted work block constant
  have acceptable := sound.acceptable block (List.getElem_mem isBlock)
  have inConstants : front.length < work.constants.length := by
    rw [fits.constantCount]
    exact isBlock
  have inShifts : front.length < (mapsOf front (spare + 1)).shifts.length := by
    simp [mapsOf]
  have old : (mapsOf front (spare + 1)).shifts[front.length] = [] := by
    simp [mapsOf]
  have fresh : resized [] block.size none = marksOf block.size [] := by
    rw [marksOf_nil]
    simp [resized]
  have marked :
      markBlock work block constant (marksOf block.size []) =
        .ok (marksOf block.size touched) :=
    markBlock_eq fits.sized acceptable (fits.inside front.length isBlock)
  have unmarked :
      (marksOf block.size touched).countP Option.isNone = last.removed :=
    (countP_marksOf block.size touched).trans
      (IndexCompaction.removed_keeping block.size touched).symm
  have allRemoved : last.removed = block.size ↔ last.kept.isEmpty :=
    IndexCompaction.removed_eq_size block.size touched
  change _ = Except.ok (mapsOf (front ++ [last]) spare)
  rw [mapBlock, blockAt_eq sound.wellFormed.blocks isBlock, ok_bind,
    item_eq inConstants Triplets.empty, ok_bind, item_getElem inShifts,
    ok_bind, old, fresh, marked, ok_bind, replace_eq inShifts, ok_bind,
    unmarked, shiftsFrom_marksOf, mapsOf_concat]
  by_cases isGone : last.kept.isEmpty
  · rw [show blockMark last = none from if_pos isGone]
    exact if_pos (allRemoved.mpr isGone)
  · rw [show blockMark last = some 1 from if_neg isGone]
    exact if_neg fun isWhole => isGone (allRemoved.mp isWhole)

/-- A block is listed among the kept ones exactly if it keeps an index. -/
theorem mem_listedBlocks
    {blocks : List IndexCompaction}
    {b : Nat}
    (isBlock : b < blocks.length) :
    (b ∈
        blocks.zipIdx.filterMap fun (block, b) =>
          if block.kept.isEmpty then none else some b) ↔
      ¬ blocks[b].kept.isEmpty := by
  constructor
  · intro listed isGone
    obtain ⟨⟨block, place⟩, member, isPlace⟩ := List.mem_filterMap.mp listed
    rw [List.mk_mem_zipIdx_iff_getElem?] at member
    dsimp only at isPlace
    split at isPlace
    · cases isPlace
    · rename_i keeps
      cases isPlace
      rw [List.getElem?_eq_getElem isBlock] at member
      exact keeps (Option.some.inj member ▸ isGone)
  · intro keeps
    refine List.mem_filterMap.mpr ⟨(blocks[b], b), ?_, if_neg keeps⟩
    rw [List.mk_mem_zipIdx_iff_getElem?]
    exact List.getElem?_eq_getElem isBlock

/-- The blocks of a list of blocks are marked as they are listed among the kept ones. -/
theorem marksOf_keptBlocks (blocks : List IndexCompaction) :
    marksOf blocks.length
        (blocks.zipIdx.filterMap fun (block, b) =>
          if block.kept.isEmpty then none else some b) =
      blocks.map blockMark := by
  apply List.ext_getElem
  · simp [marksOf]
  · intro b inMarks inBlocks
    have isBlock : b < blocks.length := by
      simpa using inBlocks
    rw [List.getElem_map, blockMark]
    simp only [marksOf, List.getElem_map, List.getElem_range,
      mem_listedBlocks isBlock, ite_not]

/-- The maps of a compaction hold it. -/
theorem mapsOf_hold
    (blocks : List IndexCompaction)
    (spare : Nat) :
    (mapsOf blocks spare).Hold
      { blocks := blocks, blockList := Compaction.keptBlocks blocks } := by
  refine ⟨?_, rfl, ?_, ?_⟩
  · intro b isBlock
    have inMaps : b < (blocks.map IndexCompaction.shifts).length := by
      simpa using isBlock
    simp only [mapsOf]
    rw [List.getElem?_append_left inMaps, List.getElem?_eq_getElem inMaps,
      List.getElem_map]
  · rw [Compaction.keptBlocks, ← shiftsFrom_marksOf, marksOf_keptBlocks]
    rfl
  · rw [Compaction.keptBlocks, IndexCompaction.removed_keeping,
      ← countP_marksOf, marksOf_keptBlocks]
    rfl

theorem length_compactedBlocks
    (work : Workspace α)
    (store : Store α) :
    (compactedBlocks work store).length = store.blockCount := by
  rw [← store.length_blocks, compactedBlocks, List.length_map,
    List.length_zipIdx]

/-- Mapping the first blocks gives the maps of their compactions. -/
theorem foldlM_mapBlock
    {count : Nat}
    (sound : store.Sound)
    (fits : work.Fits store)
    (below : count ≤ store.blockCount)
    (spare : Nat) :
    (List.range count).foldlM (mapBlock work store)
        (mapsOf [] (spare + store.blockCount)) =
      .ok
        (mapsOf ((compactedBlocks work store).take count)
          (spare + (store.blockCount - count))) := by
  have blockCount := length_compactedBlocks work store
  induction count with
  | zero =>
      rfl
  | succ count inductionHypothesis =>
      have inBlocks : count < (compactedBlocks work store).length := by
        omega
      have isBlock : count < store.blocks.length := by
        rw [store.length_blocks]
        exact below
      have frontLength :
          ((compactedBlocks work store).take count).length = count :=
        List.length_take_of_le inBlocks.le
      have next :=
        mapBlock_eq sound fits ((compactedBlocks work store).take count)
          (by omega) (spare + (store.blockCount - (count + 1)))
      have oneLess :
          spare + (store.blockCount - count) =
            spare + (store.blockCount - (count + 1)) + 1 := by
        omega
      have isNext :
          (compactedBlocks work store)[count] =
            compacted work store.blocks[count]
              (work.constants.getD count Triplets.empty) := by
        simp [compactedBlocks]
      simp only [frontLength] at next
      rw [List.range_succ, List.foldlM_append,
        inductionHypothesis (by omega), ok_bind, oneLess, List.foldlM_cons,
        next, ok_bind, List.foldlM_nil, pure_eq_ok,
        List.take_succ_eq_append_getElem inBlocks, isNext]

/-- Cleared maps are empty ones of no blocks yet. -/
theorem clearedMaps_eq
    (old : IndexMaps)
    (blockCount : Nat) :
    clearedMaps old blockCount =
      mapsOf [] (old.shifts.length - blockCount + blockCount) := by
  have sameLength :
      old.shifts.length + (blockCount - old.shifts.length) =
        old.shifts.length - blockCount + blockCount := by
    omega
  simp only [clearedMaps, mapsOf, List.map_const', List.map_nil,
    List.nil_append, List.replicate_append_replicate, sameLength]
  rfl

/-- Compaction of a store that presolve left undecided stays in range, whatever maps there are. -/
theorem indexMaps_eq
    (sound : store.Sound)
    (fits : work.Fits store)
    (old : IndexMaps) :
    indexMaps work store old =
      .ok
        (mapsOf (compactedBlocks work store)
          (old.shifts.length - store.blockCount)) := by
  have mapped :=
    foldlM_mapBlock sound fits (Nat.le_refl store.blockCount)
      (old.shifts.length - store.blockCount)
  rw [Nat.sub_self, Nat.add_zero,
    List.take_of_length_le (length_compactedBlocks work store).le] at mapped
  rw [indexMaps, clearedMaps_eq]
  exact mapped

/-- What compaction finds, the maps hold. -/
theorem indexMaps_hold
    {old maps : IndexMaps}
    (sound : store.Sound)
    (fits : work.Fits store)
    (mapped : indexMaps work store old = .ok maps) :
    maps.Hold (work.compacted store).compaction := by
  rw [indexMaps_eq sound fits] at mapped
  cases mapped
  exact mapsOf_hold _ _

end Blocks

/-- The new number of an index is found in range in the maps of a compaction. -/
theorem newIndex_eq
    {maps : IndexMaps}
    {compaction : Compaction}
    {b i size : Nat}
    {indices : List Nat}
    (hold : maps.Hold compaction)
    (isBlock : b < compaction.blocks.length)
    (keeps : compaction.blocks[b] = IndexCompaction.keeping size indices)
    (inside : i < size) :
    newIndex maps b i = .ok (compaction.blocks[b].newIndex i) := by
  let kept := IndexCompaction.keeping size indices
  have counted := IndexCompaction.keptBefore_add_removedBefore indices i
  have isMap : item maps.shifts b = .ok kept.shifts := by
    rw [item, hold.shifts b isBlock, keeps]
  have inShifts : i < kept.shifts.length := by
    simpa [kept, IndexCompaction.shifts, IndexCompaction.keeping] using inside
  have isShift : kept.shifts[i] = kept.shift i := by
    simp [IndexCompaction.shifts]
  rw [newIndex, isMap, ok_bind, item_getElem inShifts, ok_bind, isShift,
    IndexCompaction.shift_keeping inside, keeps,
    IndexCompaction.newIndex_keeping inside]
  by_cases listed : i ∈ indices
  · have moved :
        i - IndexCompaction.removedBefore indices i =
          IndexCompaction.keptBefore indices i := by
      omega
    rw [if_pos listed, if_pos listed, ← moved]
    exact bind_eq (minus_eq (by omega)) rfl
  · rw [if_neg listed, if_neg listed]
    rfl

end Checked

end SdpRelay
