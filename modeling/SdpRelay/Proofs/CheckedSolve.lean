import Mathlib
import SdpRelay.Proofs.CheckedPrepared
import SdpRelay.Proofs.SessionHistory

namespace SdpRelay

/-!
# Solves with checked access

Edits only store programs whose rows and blocks refer to their own variables, so
every store that edits lead to is sound.  On a sound store no stage of a solve up to
its calls of the solver leaves the range of what it reads and writes, from whatever
workspace and maps an earlier solve left.
-/

variable {α : Type} [Scalar α]

omit [Scalar α] in
/-- A store that holds a program whose indices are in range is sound. -/
theorem Store.Represents.sound
    {store : Store α}
    {program : Program α}
    (represents : store.Represents program)
    (indexed : program.Indexed) :
    store.Sound := by
  obtain ⟨known, acceptable⟩ := represents.inRange indexed
  rw [represents.lowerLength] at known
  exact ⟨represents.wellFormed, known, acceptable⟩

/-- The store after an edit under a sentinel, which is the same one if the edit is refused. -/
def Store.edited
    (store : Store α)
    (change : α × Edit α) :
    Store α :=
  match change.2.onStore change.1 store with
  | .ok next => next
  | .error _ => store

/-- An edited store holds the edited program. -/
theorem Store.Represents.edited
    {store : Store α}
    {program : Program α}
    (represents : store.Represents program)
    (change : α × Edit α) :
    (store.edited change).Represents (change.2.applied change.1 program) := by
  have accepted (next : Store α) :
      change.2.onStore change.1 store = .ok next ↔
        change.2.WellFormed change.1 program ∧
          change.2.editedStore store = next :=
    Edit.onStore_eq_ok represents change.2
  rw [Store.edited, Edit.applied]
  split
  · rename_i next isNext
    obtain ⟨wellFormed, rfl⟩ := (accepted next).mp isNext
    rw [if_pos wellFormed]
    exact Edit.editedStore_represents represents wellFormed
  · rename_i fault refused
    have malformed : ¬ change.2.WellFormed change.1 program := by
      intro wellFormed
      have isNext := (accepted _).mpr ⟨wellFormed, rfl⟩
      rw [refused] at isNext
      cases isNext
    rw [if_neg malformed]
    exact represents

/-- Every store that edits lead to is sound. -/
theorem Store.sound_of_edits (edits : List (α × Edit α)) :
    (edits.foldl Store.edited Store.empty).Sound := by
  have holds :
      ∃ program : Program α,
        (edits.foldl Store.edited Store.empty).Represents program ∧
          program.Indexed := by
    induction edits using List.reverseRecOn with
    | nil =>
        exact
          ⟨_, Store.empty_represents,
            fun _ member => absurd member List.not_mem_nil,
            fun _ member => absurd member List.not_mem_nil⟩
    | append_singleton edits change inductionHypothesis =>
        obtain ⟨program, represents, indexed⟩ := inductionHypothesis
        rw [List.foldl_append, List.foldl_cons, List.foldl_nil]
        exact
          ⟨_, represents.edited change,
            Edit.applied_indexed indexed change.1 change.2⟩
  obtain ⟨program, represents, indexed⟩ := holds
  exact represents.sound indexed

/-- What a solve hands over after its compaction is put together in range. -/
structure SolveTask.HandsOverInRange
    (task : SolveTask α)
    (found : Workspace α)
    (maps : IndexMaps) : Prop where
  hold : maps.Hold found.compaction
  newIndices :
    ∀ b (isBlock : b < found.compaction.blocks.length),
      ∀ i < found.compaction.blocks[b].size,
        Checked.newIndex maps b i =
          .ok (found.compaction.blocks[b].newIndex i)
  prepared :
    Checked.prepared found task.store maps =
      .ok (PreparedProblem.ofWorkspace task.store found).mapped
  bounded :
    Checked.allBounded task.sentinel found.bounds.lower found.bounds.upper =
      .ok
        (PrimalFinding.allBounded task.sentinel found.bounds.lower
          found.bounds.upper)
  auxiliary :
    Checked.auxiliaryProblem task.sentinel task.settings.epsilon task.store
        found maps =
      .ok
        (PrimalFinding.auxiliaryProblem task.sentinel task.settings.epsilon
          task.store found).mapped

/-- The stages of a solve from a run and old maps stay in range, up to the calls of the solver. -/
structure SolveTask.StaysInRange
    {σ : Type}
    (task : SolveTask α)
    (before : SolveRun σ NewtonMethod α)
    (old : IndexMaps) : Prop where
  contradiction :
    Checked.boundsContradict task = .ok task.boundsContradict
  presolve :
    Checked.presolve before.work task.store task.sentinel task.settings =
      .ok (before.work.presolve task.store task.sentinel task.settings)
  oneVariable :
    ∀ work fixedObjective,
      before.work.presolve task.store task.sentinel task.settings =
          (work, .ok (.undecided fixedObjective)) →
        ∃ answer,
          Checked.solveOneVariable task work
                before.oneVariable.iterationLimit fixedObjective =
              .ok answer ∧
            SolveM.solveOneVariable task fixedObjective
                { before with work := work } =
              { before with work := work }.endedBy answer
  compaction :
    ∀ work fixedObjective,
      before.work.presolve task.store task.sentinel task.settings =
          (work, .ok (.undecided fixedObjective)) →
        ∃ maps,
          Checked.indexMaps work task.store old = .ok maps ∧
            ∀ memory found,
              work.compact task.store memory = .ok found →
                task.HandsOverInRange found maps

/-- What compaction finds, is handed over in range. -/
theorem SolveTask.handsOverInRange
    {task : SolveTask α}
    {work found : Workspace α}
    {old maps : IndexMaps}
    {memory : Memory}
    (sound : task.store.Sound)
    (fits : work.Fits task.store)
    (mapped : Checked.indexMaps work task.store old = .ok maps)
    (compacts : work.compact task.store memory = .ok found) :
    task.HandsOverInRange found maps := by
  obtain ⟨_, isFound⟩ := Workspace.compact_eq_ok.mp compacts
  have hold : maps.Hold found.compaction := by
    rw [← isFound]
    exact Checked.indexMaps_hold sound fits mapped
  have sameCount : found.compaction.blocks.length = task.store.blockCount := by
    rw [← isFound]
    exact Checked.length_compactedBlocks work task.store
  have foundFits : found.Fits task.store := by
    rw [← isFound]
    exact ⟨fits.sized, fits.constantCount, fits.inside⟩
  refine ⟨hold, ?_, ?_, ?_, ?_⟩
  · intro b isCompacted i inside
    have isBlock : b < task.store.blocks.length := by
      rw [task.store.length_blocks, ← sameCount]
      exact isCompacted
    have keeps :
        found.compaction.blocks[b] =
          Checked.compacted work task.store.blocks[b]
            (work.constants.getD b Triplets.empty) := by
      simp [← isFound, Workspace.compacted, Compaction.ofBlocks,
        Checked.compacted]
    rw [keeps] at inside
    exact Checked.newIndex_eq hold isCompacted keeps inside
  · exact Checked.prepared_eq sound foundFits hold sameCount
  · exact
      Checked.allBounded_eq
        (foundFits.sized.lower.trans foundFits.sized.upper.symm) _
  · exact Checked.auxiliaryProblem_eq sound foundFits hold sameCount _ _

/-- On a sound store the stages of a solve stay in range, whatever an earlier solve left. -/
theorem SolveTask.staysInRange
    {σ : Type}
    {task : SolveTask α}
    (sound : task.store.Sound)
    (before : SolveRun σ NewtonMethod α)
    (old : IndexMaps) :
    task.StaysInRange before old where
  contradiction := Checked.boundsContradict_eq sound.wellFormed
  presolve :=
    Checked.presolve_eq sound before.work task.sentinel task.settings
  oneVariable work fixedObjective presolved := by
    have fits := Workspace.presolve_fits sound presolved
    exact
      Checked.solveOneVariable_eq sound { before with work := work } fits
        fixedObjective
  compaction work fixedObjective presolved := by
    have fits := Workspace.presolve_fits sound presolved
    have mapped := Checked.indexMaps_eq sound fits old
    exact
      ⟨_, mapped, fun _ _ compacts =>
        handsOverInRange sound fits mapped compacts⟩

/--
No stage of a solve leaves the range of what it accesses or takes a larger number
from a smaller one.  The stored problem may be any one that edits lead to, each under
a sentinel of its own; the settings, the run with its workspace and the maps are any.
Nor does making room, whatever the room and the steps of its growth are.
-/
theorem solve_stays_in_range
    {σ : Type}
    (edits : List (α × Edit α))
    (options : SolveTask α)
    (before : SolveRun σ NewtonMethod α)
    (old : IndexMaps) :
    { options with
        store := edits.foldl Store.edited Store.empty }.StaysInRange before
          old ∧
      ∀ (step : Nat → Nat) (length spare requested : Nat),
        ∃ left,
          Checked.reserve step length (length + spare) requested = .ok left :=
  ⟨SolveTask.staysInRange (Store.sound_of_edits edits) before old,
    fun step length spare requested =>
      Checked.reserve_eq step (Nat.le_add_right length spare) requested⟩

/--
A program with an infinite bound and two blocks: one index of the first block, and
the only one of the second, are in no entry.
-/
def sparseProgram : Program ℚ :=
  {
    objective := [1, 1]
    lower := [0, 0]
    upper := [1e20, 5]
    integral := none
    blocks :=
      [
        {
          size := 3
          terms :=
            [
              {
                var := 0
                entries := { rows := [2], cols := [0], values := [1] }
              },
              {
                var := 1
                entries := { rows := [2], cols := [2], values := [3] }
              }
            ]
          constant := Triplets.empty
        },
        { size := 1, terms := [], constant := Triplets.empty }
      ]
    rows := [{ left := 1, right := 9, vars := [0, 1], coefs := [1, 1] }]
  }

/-- Two edits under different sentinels, the second of which is refused. -/
def sparseEdits : List (ℚ × Edit ℚ) :=
  [(Session.standardSentinel, .load sparseProgram), (1, .deleteRows 4 7)]

/-- The task of solving the sparse program. -/
def sparseTask : SolveTask ℚ :=
  {
    SolveM.repeatingTask 1 with
    store := sparseEdits.foldl Store.edited Store.empty
  }

/-- Maps of a larger problem with other blocks. -/
def staleMaps : IndexMaps :=
  {
    shifts := [[some 4, none], [], [some 0, some 0, some 0, none]]
    removed := [7, 8]
    blockShifts := [none, some 1]
    removedBlocks := 1
  }

/--
The sparse program is handed over in range, from the workspace and the maps of other
problems.
-/
theorem sparseTask_stays_in_range :
    ∃ work found maps,
      (SolveM.repeatingRun 1).work.presolve sparseTask.store sparseTask.sentinel
          sparseTask.settings =
          (work, .ok (.undecided 0)) ∧
        Checked.indexMaps work sparseTask.store staleMaps = .ok maps ∧
        work.compact sparseTask.store = .ok found ∧
        sparseTask.HandsOverInRange found maps ∧
        maps.shifts = [[some 0, none, some 1], [none], []] := by
  let ready := SolveM.repeatingRun 1
  let work :=
    (ready.work.presolve sparseTask.store sparseTask.sentinel
      sparseTask.settings).1
  have presolved :
      ready.work.presolve sparseTask.store sparseTask.sentinel
          sparseTask.settings =
        (work, .ok (.undecided 0)) :=
    Prod.ext rfl (by decide +kernel)
  obtain ⟨stays, _⟩ :=
    solve_stays_in_range sparseEdits (SolveM.repeatingTask 1) ready staleMaps
  obtain ⟨maps, mapped, handsOver⟩ := stays.compaction work 0 presolved
  have shifts :
      (Checked.indexMaps work sparseTask.store staleMaps).map
          IndexMaps.shifts =
        .ok [[some 0, none, some 1], [none], []] := by
    decide +kernel
  have compacts : (work.compact sparseTask.store).isOk := by
    decide +kernel
  obtain ⟨found, isFound⟩ :
      ∃ found, work.compact sparseTask.store = .ok found := by
    cases result : work.compact sparseTask.store with
    | ok found =>
        exact ⟨found, rfl⟩
    | error fault =>
        rw [result] at compacts
        cases compacts
  have mappedHere :
      Checked.indexMaps work sparseTask.store staleMaps = .ok maps :=
    mapped
  rw [mappedHere] at shifts
  exact
    ⟨work, found, maps, presolved, mappedHere, isFound, handsOver _ found isFound,
      Except.ok.inj shifts⟩

end SdpRelay
