import Mathlib
import SdpRelay.Presolve.Outcome
import SdpRelay.Proofs.CheckedEigenpairs
import SdpRelay.Proofs.CheckedRows

namespace SdpRelay

/-!
# Presolve with checked access

After the passes over the rows, presolve reads every block out of the shared lists
by the ranges of its layout.  The fixed variables are folded into the constants of
the blocks, which are written over whatever constants an earlier solve left; or, if
all variables are fixed, the blocks are added up and tested.  The ranges of a sound
store tile the shared lists, and the entries of its blocks lie inside their sizes.
-/

/-- Ranges that tile a list do not stop before they begin. -/
theorem Tiles.ordered
    {base stop : Nat}
    {ranges : List (Nat × Nat)}
    {range : Nat × Nat}
    (tiles : Tiles base ranges stop)
    (member : range ∈ ranges) :
    range.1 ≤ range.2 := by
  induction ranges generalizing base with
  | nil =>
      cases member
  | cons head rest inductionHypothesis =>
      obtain ⟨first, next⟩ := head
      obtain ⟨_, ordered, later⟩ := tiles
      rcases List.mem_cons.mp member with isHead | inRest
      · subst range
        exact ordered
      · exact inductionHypothesis later inRest

/-- A store of the right shape whose rows and blocks refer to its own variables. -/
structure Store.Sound
    {α : Type}
    (store : Store α) : Prop where
  wellFormed : store.WellFormed
  known :
    ∀ row ∈ store.rows.toRows, ∀ var ∈ row.vars, var < store.variableCount
  acceptable : ∀ block ∈ store.blocks, block.Acceptable store.variableCount

/-- There is one block for each layout. -/
theorem Store.length_blocks
    {α : Type}
    (store : Store α) :
    store.blocks.length = store.blockCount :=
  List.length_map _

namespace Triplets

variable {α : Type}

theorem entries_ofEntries (listed : List (Entry α)) :
    (ofEntries listed).entries = listed := by
  induction listed with
  | nil =>
      rfl
  | cons first rest inductionHypothesis =>
      exact congrArg (List.cons first) inductionHypothesis

section Merging

variable [Scalar α]

/-- Adding up entries makes no new position. -/
theorem mem_addedUp
    {pending entry : Entry α}
    {listed : List (Entry α)}
    (member : entry ∈ addedUp pending listed) :
    ∃ source ∈ pending :: listed,
      entry.row = source.row ∧ entry.col = source.col := by
  induction listed generalizing pending with
  | nil =>
      rw [addedUp, List.mem_singleton] at member
      exact ⟨pending, List.mem_singleton.mpr rfl, by rw [member], by rw [member]⟩
  | cons next rest inductionHypothesis =>
      rw [addedUp] at member
      split at member
      · obtain ⟨source, isSource, row, col⟩ := inductionHypothesis member
        rcases List.mem_cons.mp isSource with isPending | inRest
        · subst source
          exact ⟨pending, List.mem_cons_self, row, col⟩
        · exact
            ⟨source, List.mem_cons_of_mem _ (List.mem_cons_of_mem _ inRest),
              row, col⟩
      · rcases List.mem_cons.mp member with isPending | isLater
        · exact ⟨pending, List.mem_cons_self, by rw [isPending], by rw [isPending]⟩
        · obtain ⟨source, isSource, row, col⟩ := inductionHypothesis isLater
          exact ⟨source, List.mem_cons_of_mem _ isSource, row, col⟩

/-- Merged entries stay inside. -/
theorem Inside.merge
    {t : Triplets α}
    {size : Nat}
    (inside : t.Inside size)
    (epsilon : α) :
    (t.merge epsilon).Inside size := by
  unfold Triplets.merge
  split
  · exact inside
  · intro entry member
    cases member
  · rename_i first rest sorted _
    intro entry member
    rw [entries_ofEntries] at member
    obtain ⟨source, isSource, row, col⟩ :=
      mem_addedUp (List.mem_of_mem_filter member)
    rw [row, col]
    rw [← sorted] at isSource
    exact inside source (List.mem_mergeSort.mp isSource)

/-- Appending a matrix that is balanced keeps a matrix balanced. -/
theorem Balanced.appendScaled
    {t other : Triplets α}
    (balanced : t.Balanced)
    (otherBalanced : other.Balanced)
    (factor : α) :
    (t.appendScaled other factor).Balanced := by
  obtain ⟨rows, cols⟩ := balanced
  obtain ⟨otherRows, otherCols⟩ := otherBalanced
  simp [Balanced, Triplets.appendScaled, rows, cols, otherRows, otherCols]

/-- The entries of another matrix are appended in order, each times the factor. -/
theorem entries_appendScaled
    {t : Triplets α}
    (balanced : t.Balanced)
    (other : Triplets α)
    (factor : α) :
    (t.appendScaled other factor).entries =
      t.entries ++
        other.entries.map fun entry =>
          { entry with value := entry.value * factor } := by
  obtain ⟨rows, cols⟩ := balanced
  simp only [entries, Triplets.appendScaled]
  rw [List.zip_append cols, List.zip_append (by simp [rows, cols]),
    List.map_append, List.zip_map_right, List.zip_map_right, List.map_map,
    List.map_map]
  rfl

/-- Entries that are inside stay inside when entries inside are appended. -/
theorem Inside.appendScaled
    {t other : Triplets α}
    {size : Nat}
    (inside : t.Inside size)
    (balanced : t.Balanced)
    (otherInside : other.Inside size)
    (factor : α) :
    (t.appendScaled other factor).Inside size := by
  intro entry member
  rw [entries_appendScaled balanced, List.mem_append] at member
  rcases member with old | new
  · exact inside entry old
  · obtain ⟨source, isSource, rfl⟩ := List.mem_map.mp new
    exact otherInside source isSource

end Merging

end Triplets

namespace Checked

variable {α : Type}

/-- The entries from position `first` up to, not including, position `stop`. -/
def slice
    (entries : Triplets α)
    (first stop : Nat) :
    Checked (Triplets α) := do
  let rows ← range entries.rows first stop
  let cols ← range entries.cols first stop
  let values ← range entries.values first stop
  return { rows := rows, cols := cols, values := values }

/-- The `k`-th term of a layout, which is one of a variable. -/
def termAt
    (store : Store α)
    (layout : BlockLayout)
    (place : Nat × Nat) :
    Checked (BlockTerm α) := do
  let (first, stop) ← item layout.ranges place.2
  let entries ← slice store.matrices first stop
  return { var := place.1, entries := entries }

/-- The block at a position of a store, with all of its matrices. -/
def blockAt
    (store : Store α)
    (b : Nat) :
    Checked (Block α) := do
  let layout ← item store.layouts b
  let terms ← layout.vars.zipIdx.mapM (termAt store layout)
  let constant ← slice store.constants layout.constant.1 layout.constant.2
  return { size := layout.size, terms := terms, constant := constant }

theorem slice_eq
    {entries : Triplets α}
    {first stop : Nat}
    (balanced : entries.Balanced)
    (ordered : first ≤ stop)
    (inside : stop ≤ entries.count) :
    slice entries first stop = .ok (entries.slice first stop) :=
  bind_eq (range_eq ordered (by rw [balanced.1]; exact inside)) <|
    bind_eq (range_eq ordered (by rw [balanced.2]; exact inside)) <|
      bind_eq (range_eq ordered inside) rfl

/-- A block of a store whose blocks tile its lists is read by the ranges of its layout. -/
theorem blockAt_eq
    {store : Store α}
    {b : Nat}
    (tiled : store.BlocksTiled)
    (inside : b < store.blocks.length) :
    blockAt store b = .ok store.blocks[b] := by
  have isLayout : b < store.layouts.length := by
    rw [← Store.blockCount, ← store.length_blocks]
    exact inside
  let layout := store.layouts[b]
  have member : layout ∈ store.layouts := List.getElem_mem isLayout
  have sameCount := tiled.rangeCount layout member
  have readTerms :
      layout.vars.zipIdx.mapM (termAt store layout) =
        .ok (store.blockOf layout).terms := by
    refine
      mapM_getElem_eq (by simp [Store.blockOf, sameCount])
        fun place inItems inResults => ?_
    have isRange : place < layout.ranges.length := by
      simpa [sameCount] using inItems
    have ofLayout :
        layout.ranges[place] ∈ store.layouts.flatMap BlockLayout.ranges :=
      List.mem_flatMap.mpr ⟨layout, member, List.getElem_mem isRange⟩
    have read :
        slice store.matrices layout.ranges[place].1 layout.ranges[place].2 =
          .ok
            (store.matrices.slice layout.ranges[place].1
              layout.ranges[place].2) :=
      slice_eq tiled.matricesBalanced (tiled.rangesTile.ordered ofLayout)
        (tiled.rangesTile.next_le ofLayout)
    simp only [Store.blockOf, List.getElem_map, List.getElem_zip,
      List.getElem_zipIdx, Nat.zero_add, termAt]
    exact bind_eq (item_getElem isRange) (bind_eq read rfl)
  have ofConstants :
      layout.constant ∈ store.layouts.map BlockLayout.constant :=
    List.mem_map_of_mem member
  have readConstant :=
    slice_eq tiled.constantsBalanced (tiled.constantsTile.ordered ofConstants)
      (tiled.constantsTile.next_le ofConstants)
  simp only [Store.blocks, List.getElem_map]
  exact
    bind_eq (item_getElem isLayout)
      (bind_eq readTerms (bind_eq readConstant rfl))

variable [Scalar α]

/-!
## Variables that are fixed
-/

/-- The variables that are not fixed. -/
def activeVariables (work : Workspace α) : Checked (List Nat) :=
  select
    (fun var => do return !(← fixedAt work.bounds work.epsilon var))
    (List.range work.bounds.lower.length)

/-- Add the contribution of a variable to the objective if it is fixed. -/
def addFixed
    (work : Workspace α)
    (total : DoubleWord α)
    (place : α × Nat) :
    Checked (DoubleWord α) := do
  if ← fixedAt work.bounds work.epsilon place.2 then
    let value ← item work.bounds.lower place.2
    return total.addProduct place.1 value
  else
    return total

/-- The contribution of the fixed variables to the objective. -/
def fixedObjective
    (work : Workspace α)
    (store : Store α) :
    Checked α := do
  let total ← store.objective.zipIdx.foldlM (addFixed work) DoubleWord.zero
  return total.value

/-- The variable of a term is fixed at a value that is not close to zero. -/
def isFolded
    (work : Workspace α)
    (term : BlockTerm α) :
    Checked Bool := do
  if ← fixedAt work.bounds work.epsilon term.var then
    let value ← item work.bounds.lower term.var
    return decide (work.epsilon < Scalar.abs value)
  else
    return false

/-- Append the entries of a term times minus the value of its variable. -/
def foldTerm
    (work : Workspace α)
    (constant : Triplets α)
    (term : BlockTerm α) :
    Checked (Triplets α) := do
  let value ← item work.bounds.lower term.var
  return constant.appendScaled term.entries (-value)

/-- The constant of a block minus the terms of its fixed variables that are not close to zero. -/
def foldedConstant
    (work : Workspace α)
    (block : Block α) :
    Checked (Triplets α) := do
  let folded ← select (isFolded work) block.terms
  let constant ← folded.foldlM (foldTerm work) block.constant
  return constant.merge work.epsilon

/-- A list made as long as a number of items, with a value in the places that it gains. -/
def resized
    {β : Type}
    (items : List β)
    (count : Nat)
    (value : β) :
    List β :=
  items.take count ++ List.replicate (count - items.length) value

/-- Write the folded constant of a block over the one of the same position. -/
def foldBlock
    (work : Workspace α)
    (store : Store α)
    (constants : List (Triplets α))
    (b : Nat) :
    Checked (List (Triplets α)) := do
  let block ← blockAt store b
  let constant ← foldedConstant work block
  replace constants b constant

/-- Fold the fixed variables into the constants of all blocks. -/
def foldConstants
    (work : Workspace α)
    (store : Store α) :
    Checked (Workspace α) := do
  let constants ←
    (List.range store.blockCount).foldlM (foldBlock work store)
      (resized work.constants store.blockCount Triplets.empty)
  return { work with constants := constants }

/-!
## The check of a fixed point
-/

/-- Add the matrix of a term at the lower bound of its variable, unless that is small. -/
def addTerm
    (work : Workspace α)
    (epsilon : α)
    (matrix : SquareMatrix α)
    (term : BlockTerm α) :
    Checked (SquareMatrix α) := do
  let value ← item work.bounds.lower term.var
  if Scalar.abs value < epsilon then
    return matrix
  else
    addTo term.entries matrix value

/-- The matrix of a block at the lower bounds, leaving out values smaller than `epsilon`. -/
def fixedMatrix
    (work : Workspace α)
    (epsilon : α)
    (block : Block α) :
    Checked (SquareMatrix α) := do
  let constant ← addTo block.constant (SquareMatrix.zeros block.size) (-1)
  block.terms.foldlM (addTerm work epsilon) constant

/-- Check the blocks from a position on, up to the first one that is violated. -/
def checkBlocks
    (work : Workspace α)
    (store : Store α)
    (settings : Settings α) :
    Nat → Nat → Checked (List (Option (List α)) × Except EigenFault Bool)
  | 0, _ => return ([], .ok true)
  | remaining + 1, b => do
      let block ← blockAt store b
      if block.size = 0 then
        let (vectors, feasible) ←
          checkBlocks work store settings remaining (b + 1)
        return (none :: vectors, feasible)
      else
        let matrix ← fixedMatrix work settings.epsilon block
        match ← smallestEigenpair matrix settings.keepsFixedVectors with
        | .error fault => return ([], .error fault)
        | .ok pair =>
            if pair.eigenvalue < -settings.feasTolerance then
              return ([pair.eigenvector], .ok false)
            else
              let (vectors, feasible) ←
                checkBlocks work store settings remaining (b + 1)
              return (pair.eigenvector :: vectors, feasible)

/-- Bring the workspace up to date with a stored problem, except for its compaction. -/
def presolve
    (work : Workspace α)
    (store : Store α)
    (sentinel : α)
    (settings : Settings α) :
    Checked (Workspace α × Except EigenFault (PresolveOutcome α)) := do
  let ready := work.reset store settings
  let pass ← propagate store sentinel settings ready.bounds
  let passed := ready.afterPass pass
  if pass.summary.infeasible then
    return (passed, .ok .infeasible)
  else
    let objective ← fixedObjective passed store
    if (← activeVariables passed).isEmpty then
      let (vectors, feasible) ←
        checkBlocks passed store settings store.blockCount 0
      return ({ passed with fixedVectors := vectors }, feasible.map .allFixed)
    else
      return (← foldConstants passed store, .ok (.undecided objective))

section Sized

variable
  {work : Workspace α}
  {store : Store α}
  {block : Block α}
  {size : Nat}

theorem activeVariables_eq
    (sized : work.bounds.Sized size) :
    activeVariables work = .ok work.activeVariables := by
  refine select_eq fun var member => ?_
  have inside : var < size := by
    rw [← sized.lower]
    exact List.mem_range.mp member
  exact bind_eq (fixedAt_eq sized inside work.epsilon) rfl

theorem fixedObjective_eq
    (sized : work.bounds.Sized store.variableCount) :
    fixedObjective work store = .ok (work.fixedObjective store) := by
  refine
    bind_eq
      (foldlM_eq (fun _ => True) trivial fun total place member _ =>
        ⟨?_, trivial⟩).1
      rfl
  have inside : place.2 < store.variableCount :=
    List.snd_lt_of_mem_zipIdx member
  rw [addFixed, fixedAt_eq sized inside work.epsilon, ok_bind,
    lowerItem_eq sized inside, ok_bind]
  by_cases fixed : work.Fixed place.2
  · exact
      (if_pos (decide_eq_true fixed)).trans
        (congrArg Except.ok (if_pos fixed).symm)
  · exact
      (if_neg fun isFixed => fixed (of_decide_eq_true isFixed)).trans
        (congrArg Except.ok (if_neg fixed).symm)

theorem isFolded_eq
    {term : BlockTerm α}
    (sized : work.bounds.Sized size)
    (inside : term.var < size) :
    isFolded work term =
      .ok
        (decide (work.Fixed term.var) &&
          decide (work.epsilon < Scalar.abs (work.bounds.lowerAt term.var))) := by
  rw [isFolded, fixedAt_eq sized inside work.epsilon, ok_bind,
    lowerItem_eq sized inside, ok_bind]
  by_cases fixed : work.Fixed term.var
  · rw [decide_eq_true fixed, Bool.true_and]
    exact if_pos (decide_eq_true fixed)
  · rw [decide_eq_false fixed, Bool.false_and]
    exact if_neg fun isFixed => fixed (of_decide_eq_true isFixed)

/-- The constant of an acceptable block is folded in range, and its entries stay inside the block. -/
theorem foldedConstant_eq
    (sized : work.bounds.Sized size)
    (acceptable : block.Acceptable size) :
    foldedConstant work block = .ok (work.foldedConstant block) ∧
      (work.foldedConstant block).Inside block.size := by
  have selected :
      select (isFolded work) block.terms = .ok (work.foldedTerms block) :=
    select_eq fun term member =>
      isFolded_eq sized (acceptable.known term member)
  obtain ⟨folded, balanced, inside⟩ :=
    foldlM_eq
      (fun constant : Triplets α =>
        constant.Balanced ∧ constant.Inside block.size)
      ⟨acceptable.constant.1, acceptable.constant.inside⟩
      fun constant term (member : term ∈ work.foldedTerms block) kept => by
        have isTerm : term ∈ block.terms := List.mem_of_mem_filter member
        have fits := acceptable.terms term isTerm
        have value := lowerItem_eq sized (acceptable.known term isTerm)
        exact
          ⟨(bind_eq value rfl :
              foldTerm work constant term =
                .ok
                  (constant.appendScaled term.entries
                    (-work.bounds.lowerAt term.var))),
            kept.1.appendScaled fits.1 _,
            kept.2.appendScaled kept.1 fits.inside _⟩
  exact
    ⟨bind_eq selected (bind_eq folded rfl), inside.merge work.epsilon⟩

theorem length_resized
    {β : Type}
    (items : List β)
    (count : Nat)
    (value : β) :
    (resized items count value).length = count := by
  simp only [resized, List.length_append, List.length_take,
    List.length_replicate]
  omega

/-- The constants of a sound store are folded in range, whatever constants there were. -/
theorem foldConstants_eq
    (sound : store.Sound)
    (sized : work.bounds.Sized store.variableCount) :
    foldConstants work store = .ok (work.foldConstants store) := by
  have sameCount :
      (store.blocks.map work.foldedConstant).length = store.blockCount :=
    (List.length_map _).trans store.length_blocks
  have oldLength :=
    length_resized work.constants store.blockCount Triplets.empty
  have steps
      (constants : List (Triplets α))
      (b : Nat)
      (inside : b < (store.blocks.map work.foldedConstant).length)
      (sameLength :
        constants.length =
          (resized work.constants store.blockCount Triplets.empty).length) :
      foldBlock work store constants b =
        .ok (constants.set b (store.blocks.map work.foldedConstant)[b]) := by
    have isBlock : b < store.blocks.length := by
      simpa using inside
    have inConstants : b < constants.length := by
      rw [sameLength, oldLength, ← sameCount]
      exact inside
    have folded :=
      (foldedConstant_eq sized
        (sound.acceptable store.blocks[b] (List.getElem_mem isBlock))).1
    rw [List.getElem_map]
    exact
      bind_eq (blockAt_eq sound.wellFormed.blocks isBlock)
        (bind_eq folded (replace_eq inConstants _))
  have written :=
    foldlM_replace_eq (Nat.le_of_eq (sameCount.trans oldLength.symm)) steps
  rw [sameCount, List.drop_of_length_le (Nat.le_of_eq oldLength),
    List.append_nil] at written
  exact bind_eq written rfl

theorem addTerm_eq
    {matrix : SquareMatrix α}
    {term : BlockTerm α}
    {matrixSize : Nat}
    (sized : work.bounds.Sized size)
    (known : term.var < size)
    (full : matrix.Full matrixSize)
    (inside : term.entries.Inside matrixSize)
    (epsilon : α) :
    addTerm work epsilon matrix term =
      .ok
        (if Scalar.abs (work.bounds.lowerAt term.var) < epsilon then
          matrix
        else
          term.entries.addTo matrix (work.bounds.lowerAt term.var)) := by
  rw [addTerm, lowerItem_eq sized known, ok_bind]
  split
  · rfl
  · exact addTo_eq full inside _

/-- The matrix of an acceptable block is filled in range. -/
theorem fixedMatrix_eq
    (sized : work.bounds.Sized size)
    (acceptable : block.Acceptable size)
    (epsilon : α) :
    fixedMatrix work epsilon block = .ok (work.fixedMatrix epsilon block) ∧
      (work.fixedMatrix epsilon block).Full block.size := by
  have zeros := SquareMatrix.zeros_full (α := α) block.size
  have constant :=
    addTo_eq zeros acceptable.constant.inside (-1)
  have constantFull :
      (block.constant.addTo (SquareMatrix.zeros block.size) (-1)).Full
        block.size :=
    zeros.of_sameShape (block.constant.addTo_shape _ _)
  obtain ⟨added, full⟩ :=
    foldlM_eq (fun matrix : SquareMatrix α => matrix.Full block.size)
      constantFull
      fun matrix term (member : term ∈ block.terms) full => by
        refine
          ⟨addTerm_eq sized (acceptable.known term member) full
            (acceptable.terms term member).inside epsilon, ?_⟩
        split
        · exact full
        · exact full.of_sameShape (term.entries.addTo_shape _ _)
  exact ⟨bind_eq constant added, full⟩

/-- The blocks of a sound store are checked in range. -/
theorem checkBlocks_eq
    {remaining b : Nat}
    (sound : store.Sound)
    (sized : work.bounds.Sized store.variableCount)
    (settings : Settings α)
    (isRest : b + remaining = store.blocks.length) :
    checkBlocks work store settings remaining b =
      .ok (work.checkBlocks settings (store.blocks.drop b)) := by
  induction remaining generalizing b with
  | zero =>
      rw [List.drop_eq_nil_of_le (by omega)]
      rfl
  | succ remaining inductionHypothesis =>
      have inside : b < store.blocks.length := by
        omega
      have later := inductionHypothesis (b := b + 1) (by omega)
      have acceptable :=
        sound.acceptable store.blocks[b] (List.getElem_mem inside)
      obtain ⟨matrix, full⟩ :=
        fixedMatrix_eq sized acceptable settings.epsilon
      rw [List.drop_eq_getElem_cons inside, checkBlocks,
        blockAt_eq sound.wellFormed.blocks inside, ok_bind,
        Workspace.checkBlocks]
      split
      · exact bind_eq later rfl
      · rw [matrix, ok_bind, smallestEigenpair_eq full, ok_bind]
        cases SdpRelay.smallestEigenpair
            (work.fixedMatrix settings.epsilon store.blocks[b])
            settings.keepsFixedVectors with
        | error fault =>
            rfl
        | ok pair =>
            dsimp only
            split
            · rfl
            · exact bind_eq later rfl

end Sized

omit [Scalar α] in
/-- After a reset, there are bounds and sources for every variable. -/
theorem reset_sized
    {store : Store α}
    (wellFormed : store.WellFormed)
    (work : Workspace α)
    (settings : Settings α) :
    (work.reset store settings).bounds.Sized store.variableCount :=
  ⟨wellFormed.lowerLength, wellFormed.upperLength,
    List.length_replicate.trans wellFormed.lowerLength,
    List.length_replicate.trans wellFormed.upperLength⟩

/-- Presolve of a sound store stays in range, whatever an earlier solve left in the workspace. -/
theorem presolve_eq
    {store : Store α}
    (sound : store.Sound)
    (work : Workspace α)
    (sentinel : α)
    (settings : Settings α) :
    presolve work store sentinel settings =
      .ok (work.presolve store sentinel settings) := by
  have ready := reset_sized sound.wellFormed work settings
  obtain ⟨passed, sized⟩ :=
    propagate_eq sound.wellFormed sound.known ready sentinel settings
  let pass :=
    RowPass.propagate store sentinel settings (work.reset store settings).bounds
  let after := (work.reset store settings).afterPass pass
  have afterSized : after.bounds.Sized store.variableCount := sized
  have checked :=
    checkBlocks_eq sound afterSized settings
      ((Nat.zero_add _).trans store.length_blocks.symm)
  rw [presolve, passed, ok_bind]
  unfold Workspace.presolve Workspace.propagate
  dsimp only
  split
  · rfl
  · rw [fixedObjective_eq afterSized, ok_bind, activeVariables_eq afterSized,
      ok_bind]
    split
    · exact bind_eq checked rfl
    · exact bind_eq (foldConstants_eq sound afterSized) rfl

end Checked

end SdpRelay
