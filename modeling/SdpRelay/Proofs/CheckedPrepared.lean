import Mathlib
import SdpRelay.Proofs.CheckedCompaction
import SdpRelay.Solve.Slater

namespace SdpRelay

/-!
# Prepared problems with checked access

What a solver is handed is put together from the store, the workspace and the maps
of the compaction: every block takes the constant and the map of its own position.
The auxiliary problem of the primal side has one more row, for which the traces of
all variables are added up in a list with one place for each variable.
-/

/-- A block as it is handed to a solver, with the map of its indices. -/
structure MappedBlock (α : Type) where
  size : Nat
  terms : List (BlockTerm α)
  constant : Triplets α
  shifts : List (Option Nat)
  removed : Nat

/-- A problem as it is handed to a solver, with the map of its blocks. -/
structure MappedProblem (α : Type) where
  objective : List α
  lower : List α
  upper : List α
  blocks : List (MappedBlock α)
  blockShifts : List (Option Nat)
  removedBlocks : Nat
  rows : RowTable α

section Mapped

variable {α : Type}

/-- A prepared block with the map of its compaction. -/
def PreparedBlock.mapped (block : PreparedBlock α) : MappedBlock α :=
  {
    size := block.size
    terms := block.terms
    constant := block.constant
    shifts := block.compaction.shifts
    removed := block.compaction.removed
  }

/-- A prepared problem with the maps of its compactions. -/
def PreparedProblem.mapped (problem : PreparedProblem α) : MappedProblem α :=
  {
    objective := problem.objective
    lower := problem.lower
    upper := problem.upper
    blocks := problem.blocks.map PreparedBlock.mapped
    blockShifts := problem.blockList.shifts
    removedBlocks := problem.blockList.removed
    rows := problem.rows
  }

end Mapped

namespace Checked

variable {α : Type} [Scalar α]

/-- Test the lower and the upper bound of every variable. -/
def testBounds
    (lower upper : List α)
    (test : α × α → Bool) :
    Checked (List Bool) :=
  (List.range lower.length).mapM fun var => do
    let low ← item lower var
    let high ← item upper var
    return test (low, high)

/-- Some variable has an upper bound below its lower bound by more than the tolerance. -/
def boundsContradict (task : SolveTask α) : Checked Bool := do
  let tests ←
    testBounds task.store.lower task.store.upper fun (lower, upper) =>
      decide (upper < lower - task.settings.feasTolerance)
  return tests.any id

/-- The block at a position, as it is handed to a solver. -/
def preparedBlock
    (work : Workspace α)
    (store : Store α)
    (maps : IndexMaps)
    (b : Nat) :
    Checked (MappedBlock α) := do
  let block ← blockAt store b
  let constant ← item work.constants b
  let shifts ← item maps.shifts b
  let removed ← item maps.removed b
  return {
    size := block.size
    terms := block.terms
    constant := constant
    shifts := shifts
    removed := removed
  }

/-- Combine a stored problem with what presolve derived from it. -/
def prepared
    (work : Workspace α)
    (store : Store α)
    (maps : IndexMaps) :
    Checked (MappedProblem α) := do
  let blocks ←
    (List.range store.blockCount).mapM (preparedBlock work store maps)
  return {
    objective := store.objective
    lower := work.bounds.lower
    upper := work.bounds.upper
    blocks := blocks
    blockShifts := maps.blockShifts
    removedBlocks := maps.removedBlocks
    rows := work.rows.table
  }

/-!
## The auxiliary problem
-/

/-- All variables have finite bounds. -/
def allBounded
    (sentinel : α)
    (lower upper : List α) :
    Checked Bool := do
  let tests ←
    testBounds lower upper fun (low, high) =>
      !beyondSentinel sentinel low && !beyondSentinel sentinel high
  return tests.all id

/-- Add an entry of a variable to its trace if it is on the diagonal. -/
def addEntry
    (var : Nat)
    (traces : List α)
    (entry : Entry α) :
    Checked (List α) := do
  if entry.row = entry.col then
    let trace ← item traces var
    replace traces var (trace + entry.value)
  else
    return traces

/-- Add the diagonal entries of a term to the trace of its variable. -/
def addDiagonal
    (traces : List α)
    (term : BlockTerm α) :
    Checked (List α) :=
  term.entries.entries.foldlM (addEntry term.var) traces

/-- The traces of the coefficient matrices of all variables. -/
def traces (store : Store α) : Checked (List α) := do
  let blocks ← (List.range store.blockCount).mapM (blockAt store)
  blocks.foldlM
    (fun traces block => block.terms.foldlM addDiagonal traces)
    (List.replicate store.variableCount 0)

/-- A variable is free and has a trace that is not close to zero. -/
def hasTrace
    (work : Workspace α)
    (epsilon : α)
    (term : Nat × α) :
    Checked Bool := do
  let fixed ← fixedAt work.bounds work.epsilon term.1
  return !fixed && decide (epsilon < Scalar.abs term.2)

/-- The row that asks for a direction of trace at least one, if any free variable has a trace. -/
def traceRow?
    (sentinel epsilon : α)
    (store : Store α)
    (work : Workspace α) :
    Checked (Option (LinearRow α)) := do
  let traces ← traces store
  let terms ← select (hasTrace work epsilon) (traces.zipIdx.map Prod.swap)
  if terms.isEmpty then
    return none
  else
    return some
      {
        left := 1
        right := sentinel
        vars := terms.map Prod.fst
        coefs := terms.map Prod.snd
      }

/-- The auxiliary problem: directions of the feasible set. -/
def auxiliaryProblem
    (sentinel epsilon : α)
    (store : Store α)
    (work : Workspace α)
    (maps : IndexMaps) :
    Checked (MappedProblem α) := do
  let row ← traceRow? sentinel epsilon store work
  let problem ← prepared work store maps
  let table :=
    {
      work.rows.table with
      lefts :=
        work.rows.table.lefts.map (PrimalFinding.homogenised sentinel)
      rights :=
        work.rows.table.rights.map (PrimalFinding.homogenised sentinel)
    }
  return {
    problem with
    lower := problem.lower.map (PrimalFinding.homogenised sentinel)
    upper := problem.upper.map (PrimalFinding.homogenised sentinel)
    blocks :=
      problem.blocks.map fun block =>
        { block with constant := Triplets.empty }
    rows :=
      match row with
      | some row => table.push row
      | none => table
  }

section Bounds

variable
  {lower upper : List α}

omit [Scalar α] in
theorem testBounds_eq
    (sameLength : lower.length = upper.length)
    (test : α × α → Bool) :
    testBounds lower upper test = .ok ((lower.zip upper).map test) := by
  refine mapM_getElem_eq (by simp [sameLength]) fun var inRange _ => ?_
  have inLower : var < lower.length := by
    simpa using inRange
  have inUpper : var < upper.length := sameLength ▸ inLower
  rw [List.getElem_range, List.getElem_map, List.getElem_zip]
  exact bind_eq (item_getElem inLower) (bind_eq (item_getElem inUpper) rfl)

theorem boundsContradict_eq
    {task : SolveTask α}
    (wellFormed : task.store.WellFormed) :
    boundsContradict task = .ok task.boundsContradict := by
  refine
    bind_eq
      (testBounds_eq
        (wellFormed.lowerLength.trans wellFormed.upperLength.symm) _) ?_
  rw [List.any_map]
  rfl

theorem allBounded_eq
    (sameLength : lower.length = upper.length)
    (sentinel : α) :
    allBounded sentinel lower upper =
      .ok (PrimalFinding.allBounded sentinel lower upper) := by
  refine bind_eq (testBounds_eq sameLength _) ?_
  rw [List.all_map]
  rfl

end Bounds

section Prepared

variable
  {store : Store α}
  {work : Workspace α}
  {maps : IndexMaps}

omit [Scalar α] in
/-- A problem is put together in range from maps that hold its compaction. -/
theorem prepared_eq
    (sound : store.Sound)
    (fits : work.Fits store)
    (hold : maps.Hold work.compaction)
    (sameCount : work.compaction.blocks.length = store.blockCount) :
    prepared work store maps =
      .ok (PreparedProblem.ofWorkspace store work).mapped := by
  have blocks :
      (List.range store.blockCount).mapM (preparedBlock work store maps) =
        .ok
          ((PreparedProblem.ofWorkspace store work).blocks.map
            PreparedBlock.mapped) := by
    refine
      mapM_getElem_eq
        (by simp [PreparedProblem.ofWorkspace, store.length_blocks])
        fun b inRange _ => ?_
    have below : b < store.blockCount := by
      simpa using inRange
    have isBlock : b < store.blocks.length := by
      rw [store.length_blocks]
      exact below
    have inConstants : b < work.constants.length := by
      rw [fits.constantCount]
      exact isBlock
    have isCompacted : b < work.compaction.blocks.length := by
      rw [sameCount]
      exact below
    have isMap :
        item maps.shifts b = .ok work.compaction.blocks[b].shifts := by
      rw [item, hold.shifts b isCompacted]
    have isRemoved :
        item maps.removed b = .ok work.compaction.blocks[b].removed := by
      rw [hold.removed, item_getElem (by simpa using isCompacted),
        List.getElem_map]
    simp only [List.getElem_range, List.getElem_map,
      PreparedProblem.ofWorkspace, List.getElem_zipIdx, Nat.zero_add]
    refine
      bind_eq (blockAt_eq sound.wellFormed.blocks isBlock)
        (bind_eq (item_eq inConstants Triplets.empty)
          (bind_eq isMap (bind_eq isRemoved ?_)))
    rw [List.getD_eq_getElem _ _ isCompacted]
    rfl
  refine bind_eq blocks ?_
  rw [hold.blockShifts, hold.removedBlocks]
  rfl

end Prepared

section Traces

variable
  {store : Store α}
  {work : Workspace α}
  {size : Nat}

/-- Count an entry if it is on the diagonal. -/
def diagonalStep
    (total : α)
    (entry : Entry α) :
    α :=
  if entry.row = entry.col then total + entry.value else total

/-- Count the diagonal entries of a term if it is one of the variable. -/
def traceStep
    (var : Nat)
    (total : α)
    (term : BlockTerm α) :
    α :=
  if term.var = var then
    term.entries.entries.foldl diagonalStep total
  else
    total

/-- An entry changes the total of its own variable only. -/
theorem addEntry_eq
    {var : Nat}
    (known : var < size)
    (totals : Nat → α)
    (entry : Entry α) :
    addEntry var ((List.range size).map totals) entry =
      .ok
        ((List.range size).map fun other =>
          if var = other then
            diagonalStep (totals other) entry
          else
            totals other) := by
  have inTotals : var < ((List.range size).map totals).length := by
    simpa using known
  rw [addEntry]
  by_cases diagonal : entry.row = entry.col
  · rw [if_pos diagonal, item_getElem inTotals, ok_bind, replace_eq inTotals]
    refine congrArg Except.ok (List.ext_getElem (by simp) fun other _ _ => ?_)
    by_cases isHere : var = other
    · subst other
      simp [diagonalStep, diagonal]
    · simp [isHere]
  · rw [if_neg diagonal]
    refine congrArg Except.ok (List.map_congr_left fun other _ => ?_)
    simp [diagonalStep, diagonal]

theorem foldlM_addEntry
    {var : Nat}
    (known : var < size)
    (entries : List (Entry α))
    (totals : Nat → α) :
    entries.foldlM (addEntry var) ((List.range size).map totals) =
      .ok
        ((List.range size).map fun other =>
          if var = other then
            entries.foldl diagonalStep (totals other)
          else
            totals other) := by
  induction entries generalizing totals with
  | nil =>
      simp
  | cons entry rest inductionHypothesis =>
      rw [List.foldlM_cons, addEntry_eq known, ok_bind, inductionHypothesis]
      refine congrArg Except.ok (List.map_congr_left fun other _ => ?_)
      split
      · rfl
      · rfl

/-- The terms of known variables are counted in range. -/
theorem foldlM_addDiagonal
    {terms : List (BlockTerm α)}
    (known : ∀ term ∈ terms, term.var < size)
    (totals : Nat → α) :
    terms.foldlM addDiagonal ((List.range size).map totals) =
      .ok
        ((List.range size).map fun var =>
          terms.foldl (traceStep var) (totals var)) := by
  induction terms generalizing totals with
  | nil =>
      rfl
  | cons term rest inductionHypothesis =>
      rw [List.foldlM_cons, addDiagonal,
        foldlM_addEntry (known term List.mem_cons_self), ok_bind,
        inductionHypothesis fun other member =>
          known other (List.mem_cons_of_mem term member)]
      rfl

theorem foldlM_traces
    {blocks : List (Block α)}
    (known : ∀ block ∈ blocks, ∀ term ∈ block.terms, term.var < size)
    (totals : Nat → α) :
    blocks.foldlM
        (fun traces block => block.terms.foldlM addDiagonal traces)
        ((List.range size).map totals) =
      .ok
        ((List.range size).map fun var =>
          blocks.foldl
            (fun total block => block.terms.foldl (traceStep var) total)
            (totals var)) := by
  induction blocks generalizing totals with
  | nil =>
      rfl
  | cons block rest inductionHypothesis =>
      rw [List.foldlM_cons, foldlM_addDiagonal (known block List.mem_cons_self),
        ok_bind,
        inductionHypothesis fun other member =>
          known other (List.mem_cons_of_mem block member)]
      rfl

/-- The traces of a sound store are added up in range. -/
theorem traces_eq (sound : store.Sound) :
    traces store =
      .ok
        ((List.range store.variableCount).map
          (PrimalFinding.traceOf store.blocks)) := by
  have blocks :
      (List.range store.blockCount).mapM (blockAt store) = .ok store.blocks :=
    mapM_getElem_eq (by simp [store.length_blocks]) fun b inRange isBlock => by
      rw [List.getElem_range]
      exact blockAt_eq sound.wellFormed.blocks isBlock
  have zeros :
      List.replicate store.variableCount (0 : α) =
        (List.range store.variableCount).map fun _ => 0 := by
    simp
  refine bind_eq blocks ?_
  rw [zeros]
  exact
    foldlM_traces
      (fun block member => (sound.acceptable block member).known) fun _ => 0

theorem traceRow?_eq
    (sound : store.Sound)
    (sized : work.bounds.Sized store.variableCount)
    (sentinel epsilon : α) :
    traceRow? sentinel epsilon store work =
      .ok (PrimalFinding.traceRow? sentinel epsilon store work) := by
  have listed :
      ((List.range store.variableCount).map
            (PrimalFinding.traceOf store.blocks)).zipIdx.map Prod.swap =
        (List.range store.variableCount).map fun var =>
          (var, PrimalFinding.traceOf store.blocks var) := by
    apply List.ext_getElem
    · simp
    · intro var _ _
      simp
  have selected :
      select (hasTrace work epsilon)
          ((List.range store.variableCount).map fun var =>
            (var, PrimalFinding.traceOf store.blocks var)) =
        .ok
          (((List.range store.variableCount).map fun var =>
            (var, PrimalFinding.traceOf store.blocks var)).filter
              fun term =>
                !decide (work.Fixed term.1) &&
                  decide (epsilon < Scalar.abs term.2)) := by
    refine select_eq fun term member => ?_
    obtain ⟨var, inRange, rfl⟩ := List.mem_map.mp member
    exact
      bind_eq (fixedAt_eq sized (List.mem_range.mp inRange) work.epsilon) rfl
  rw [traceRow?, traces_eq sound, ok_bind, listed, selected, ok_bind,
    PrimalFinding.traceRow?]
  dsimp only
  split
  · rfl
  · rfl

/-- The auxiliary problem is put together in range from maps that hold the compaction. -/
theorem auxiliaryProblem_eq
    {maps : IndexMaps}
    (sound : store.Sound)
    (fits : work.Fits store)
    (hold : maps.Hold work.compaction)
    (sameCount : work.compaction.blocks.length = store.blockCount)
    (sentinel epsilon : α) :
    auxiliaryProblem sentinel epsilon store work maps =
      .ok
        (PrimalFinding.auxiliaryProblem sentinel epsilon store work).mapped := by
  refine
    bind_eq (traceRow?_eq sound fits.sized sentinel epsilon)
      (bind_eq (prepared_eq sound fits hold sameCount) ?_)
  refine congrArg Except.ok ?_
  simp only [PrimalFinding.auxiliaryProblem, PrimalFinding.auxiliaryRows,
    PreparedProblem.mapped, List.map_map]
  rfl

end Traces

end Checked

end SdpRelay
