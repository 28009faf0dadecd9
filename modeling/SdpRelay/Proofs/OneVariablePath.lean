import Mathlib
import SdpRelay.Proofs.DenseMatrices
import SdpRelay.Proofs.PresolveRun
import SdpRelay.Proofs.SolveSteps
import SdpRelay.Proofs.StoreLayout
import SdpRelay.Session.Basic
import SdpRelay.Solve.Pipeline

namespace SdpRelay

/-!
# The path for one free variable

With one free variable and at most one block a solve does without the solver.
It looks at the bounds of the variable and at the matrix that the block lists
first for it.  The prepared problem has more to it: rows in which the variable is
listed twice are kept by presolve, and further matrices that the block lists for
the variable add to the first one.  This module says exactly when the path solves
the prepared problem.
-/

variable {α : Type} [Scalar α]

/-- The significant terms of a row in one variable. -/
def LinearRow.termsOf
    (row : LinearRow α)
    (epsilon : α)
    (var : Nat) :
    List (Nat × α) :=
  (RowPass.significantTerms epsilon row).filter fun term => term.1 == var

namespace Workspace

theorem mem_activeVariables
    {work : Workspace α}
    {var : Nat} :
    var ∈ work.activeVariables ↔
      var < work.bounds.lower.length ∧ ¬ work.Fixed var := by
  simp [activeVariables]

/-- With one active variable, every other known variable is fixed. -/
theorem fixed_iff_of_single
    {work : Workspace α}
    {var other : Nat}
    (single : work.activeVariables = [var])
    (known : other < work.bounds.lower.length) :
    work.Fixed other ↔ other ≠ var := by
  have active : other ∈ work.activeVariables ↔ other = var := by
    rw [single, List.mem_singleton]
  rw [mem_activeVariables] at active
  constructor
  · intro isFixed isVar
    exact (active.mpr isVar).2 isFixed
  · intro isOther
    by_contra notFixed
    exact isOther (active.mp ⟨known, notFixed⟩)

/--
Presolve that leaves something to solve ends without contradiction and folds the
constants.
-/
theorem presolve_undecided
    {before work : Workspace α}
    {store : Store α}
    {sentinel fixedObjective : α}
    {settings : Settings α}
    (presolved :
      before.presolve store sentinel settings =
        (work, .ok (.undecided fixedObjective))) :
    let passed := (before.reset store settings).propagate store sentinel settings
    passed.2.infeasible = false ∧ work = passed.1.foldConstants store := by
  obtain ⟨feasible, _, isFolded, _⟩ := presolve_open presolved
  exact ⟨Bool.eq_false_iff.mpr feasible, isFolded⟩

end Workspace

namespace RowPass

/--
With one active variable, the open terms of a row are its significant terms in
that variable.
-/
theorem openTerms_of_single
    {work : Workspace α}
    {settings : Settings α}
    {bounds : Bounds α}
    {row : LinearRow α}
    {var : Nat}
    (single : work.activeVariables = [var])
    (sameFixed :
      ∀ other, bounds.Fixed settings.epsilon other ↔ work.Fixed other)
    (known : ∀ other ∈ row.vars, other < work.bounds.lower.length) :
    openTerms settings bounds row = row.termsOf settings.epsilon var := by
  unfold openTerms freeTerms LinearRow.termsOf
  apply List.filter_congr
  intro term member
  have listed : term.1 ∈ row.vars :=
    (List.of_mem_zip (List.mem_filter.mp member).1).1
  have isFixed :
      bounds.Fixed settings.epsilon term.1 ↔ term.1 ≠ var :=
    (sameFixed term.1).trans
      (Workspace.fixed_iff_of_single single (known term.1 listed))
  rw [Bool.eq_iff_iff]
  simp [isFixed]

/--
A visit leaves no row in a variable: it is listed at most once, or no side
restricts it.
-/
def SettlesVariable
    (sentinel : α)
    (settings : Settings α)
    (integral : List Bool)
    (var : Nat)
    (visit : Bounds α × LinearRow α) :
    Prop :=
  (visit.2.termsOf settings.epsilon var).length ≤ 1 ∨
    ((tightenedOpen sentinel settings integral visit.1 visit.2).leftRedundant &&
      (tightenedOpen sentinel settings integral visit.1
        visit.2).rightRedundant) = true

end RowPass

namespace Workspace

section Rows

variable
  {program : Program α}
  {before work : Workspace α}
  {store : Store α}
  {sentinel fixedObjective : α}
  {settings : Settings α}
  {var : Nat}

/-- The last pass of such a presolve visits every stored row. -/
theorem presolve_visits_rows
    (loaded : Store.load sentinel program = .ok store)
    (presolved :
      before.presolve store sentinel settings =
        (work, .ok (.undecided fixedObjective))) :
    (RowPass.finalVisits store sentinel settings).map Prod.snd =
      store.rows.toRows :=
  RowPass.finalVisits_rows
    (fun row stored => (Store.acceptable_of_load loaded row stored).known)
    (presolve_undecided presolved).1

/-- With one active variable, its last pass finds only terms in that variable open. -/
theorem presolve_openTerms
    {visit : Bounds α × LinearRow α}
    (loaded : Store.load sentinel program = .ok store)
    (presolved :
      before.presolve store sentinel settings =
        (work, .ok (.undecided fixedObjective)))
    (single : work.activeVariables = [var])
    (member : visit ∈ RowPass.finalVisits store sentinel settings) :
    RowPass.openTerms settings visit.1 visit.2 =
      visit.2.termsOf settings.epsilon var := by
  have known
      (row : LinearRow α)
      (stored : row ∈ store.rows.toRows) :
      ∀ other ∈ row.vars, other < store.lower.length :=
    (Store.acceptable_of_load loaded row stored).known
  have stored : visit.2 ∈ store.rows.toRows := by
    rw [← presolve_visits_rows loaded presolved]
    exact List.mem_map_of_mem member
  obtain ⟨feasible, rfl⟩ := presolve_undecided presolved
  exact
    RowPass.openTerms_of_single single
      (RowPass.finalVisits_fixed_iff known feasible member)
      (fun other listed =>
        lt_of_lt_of_eq (known visit.2 stored other listed)
          (RowPass.propagate_lowerLength sentinel settings known).symm)

/--
Presolve with one active variable keeps no row exactly if its last pass settles
the variable.
-/
theorem presolve_rows_eq_nil_iff
    (loaded : Store.load sentinel program = .ok store)
    (presolved :
      before.presolve store sentinel settings =
        (work, .ok (.undecided fixedObjective)))
    (single : work.activeVariables = [var]) :
    work.rows.table.toRows = [] ↔
      ∀ visit ∈ RowPass.finalVisits store sentinel settings,
        RowPass.SettlesVariable sentinel settings store.integral var visit := by
  have settles
      (visit : Bounds α × LinearRow α)
      (member : visit ∈ RowPass.finalVisits store sentinel settings) :
      RowPass.keptFrom sentinel settings store.integral visit.1 visit.2 = [] ↔
        RowPass.SettlesVariable sentinel settings store.integral var visit := by
    simp only [RowPass.keptFrom,
      presolve_openTerms loaded presolved single member,
      RowPass.SettlesVariable, ite_eq_left_iff, List.cons_ne_nil, imp_false,
      not_not, Nat.lt_succ_iff]
  have keptRows :
      work.rows.table.toRows =
        (RowPass.finalVisits store sentinel settings).flatMap
          fun visit =>
            RowPass.keptFrom sentinel settings store.integral visit.1
              visit.2 := by
    rw [(presolve_undecided presolved).2]
    exact
      RowPass.propagate_keptRows sentinel settings
        (fun row stored => (Store.acceptable_of_load loaded row stored).known)
  rw [keptRows, List.flatMap_eq_nil_iff]
  constructor
  · intro noneKept visit member
    exact (settles visit member).mp (noneKept visit member)
  · intro allSettle visit member
    exact (settles visit member).mpr (allSettle visit member)

/-- No row is kept if every stored row lists the active variable at most once. -/
theorem presolve_rows_eq_nil
    (loaded : Store.load sentinel program = .ok store)
    (presolved :
      before.presolve store sentinel settings =
        (work, .ok (.undecided fixedObjective)))
    (single : work.activeVariables = [var])
    (once :
      ∀ row ∈ store.rows.toRows,
        (row.termsOf settings.epsilon var).length ≤ 1) :
    work.rows.table.toRows = [] := by
  rw [presolve_rows_eq_nil_iff loaded presolved single]
  intro visit member
  refine .inl (once visit.2 ?_)
  rw [← presolve_visits_rows loaded presolved]
  exact List.mem_map_of_mem member

/-- A stored row that lists an active variable without integrality twice is kept. -/
theorem listed_once_of_presolve_rows_eq_nil
    (loaded : Store.load sentinel program = .ok store)
    (presolved :
      before.presolve store sentinel settings =
        (work, .ok (.undecided fixedObjective)))
    (single : work.activeVariables = [var])
    (continuous : store.integral.getD var false = false)
    (noRow : work.rows.table.toRows = []) :
    ∀ row ∈ store.rows.toRows,
      (row.termsOf settings.epsilon var).length ≤ 1 := by
  rw [presolve_rows_eq_nil_iff loaded presolved single] at noRow
  intro row stored
  rw [← presolve_visits_rows loaded presolved] at stored
  obtain ⟨visit, member, rfl⟩ := List.mem_map.mp stored
  rcases noRow visit member with once | redundant
  · exact once
  · have openTerms := presolve_openTerms loaded presolved single member
    have unchanged :=
      RowBox.tighten_of_continuous
        (RowPass.visitBox sentinel settings store.integral visit.1)
        (RowPass.openTerms settings visit.1 visit.2)
        (RowPass.openLeft sentinel settings visit.1 visit.2)
        (RowPass.openRight sentinel settings visit.1 visit.2)
        (fun term isOpen => by
          rw [openTerms] at isOpen
          have isVar : term.1 = var := by
            simpa using (List.mem_filter.mp isOpen).2
          rw [isVar]
          exact continuous)
    rw [RowPass.tightenedOpen, unchanged] at redundant
    cases redundant

end Rows

end Workspace

/-- The terms of one variable among the terms of a block. -/
def BlockTerm.ofVariable
    (terms : List (BlockTerm α))
    (var : Nat) :
    List (BlockTerm α) :=
  terms.filter fun term => term.var == var

/-- The matrix of a prepared block at a value of its only free variable. -/
def PreparedBlock.matrixAt
    (block : PreparedBlock α)
    (var : Nat)
    (value : α) :
    SquareMatrix α :=
  block.constant.addTo
    (BlockTerm.addAll (BlockTerm.ofVariable block.terms var)
      (SquareMatrix.zeros block.size) value)
    (-1)

/-- The first matrix of a variable is that of the first term that has it. -/
theorem SolveTask.firstMatrix_addTo
    (block : Block α)
    (var : Nat)
    (m : SquareMatrix α)
    (factor : α) :
    (firstMatrix block var).addTo m factor =
      BlockTerm.addAll ((BlockTerm.ofVariable block.terms var).take 1) m
        factor := by
  have found :
      (BlockTerm.ofVariable block.terms var).head? =
        block.terms.find? fun term => term.var == var :=
    List.head?_filter
  rw [firstMatrix, ← found]
  cases BlockTerm.ofVariable block.terms var with
  | nil =>
      rfl
  | cons first later =>
      rfl

/--
A problem in one variable is what a prepared problem with one block comes to in
that variable.
-/
structure OneVariableProblem.Matches
    (problem : OneVariableProblem α)
    (prepared : PreparedProblem α)
    (block : PreparedBlock α)
    (var : Nat) : Prop where
  objective : problem.objective = prepared.objective.getD var 0
  lower : problem.lower = prepared.lower.getD var 0
  upper : problem.upper = prepared.upper.getD var 0
  size : problem.size = block.size
  matrix : ∀ value, problem.matrixAt value = block.matrixAt var value

/-- The only block of a store, as it is handed to a solver. -/
def PreparedBlock.ofOnly
    (work : Workspace α)
    (block : Block α) :
    PreparedBlock α :=
  {
    size := block.size
    terms := block.terms
    constant := work.constants.getD 0 Triplets.empty
    compaction :=
      work.compaction.blocks.getD 0 (IndexCompaction.keeping block.size [])
  }

namespace SolveTask

variable
  {task : SolveTask α}
  {work : Workspace α}
  {block : Block α}
  {var : Nat}

theorem matches_of_matrix
    (matrix :
      ∀ value,
        (task.oneVariableProblem work block var).matrixAt value =
          (PreparedBlock.ofOnly work block).matrixAt var value) :
    (task.oneVariableProblem work block var).Matches
      (PreparedProblem.ofWorkspace task.store work)
      (PreparedBlock.ofOnly work block) var :=
  ⟨rfl, rfl, rfl, rfl, matrix⟩

/--
A variable that a block lists at most once has the same matrix in both problems.
-/
theorem matches_of_listed_once
    (once : (BlockTerm.ofVariable block.terms var).length ≤ 1) :
    (task.oneVariableProblem work block var).Matches
      (PreparedProblem.ofWorkspace task.store work)
      (PreparedBlock.ofOnly work block) var := by
  apply matches_of_matrix
  intro value
  have sameTerms :
      (BlockTerm.ofVariable block.terms var).take 1 =
        BlockTerm.ofVariable block.terms var :=
    List.take_of_length_le once
  rw [OneVariableProblem.matrixAt, PreparedBlock.matrixAt]
  simp only [oneVariableProblem, PreparedBlock.ofOnly]
  rw [firstMatrix_addTo, sameTerms]

/-- The number at a position of the two matrices, in exact sums. -/
theorem numberAt_matrices
    {position : Nat}
    (exact : ExactSums α)
    (task : SolveTask α)
    (work : Workspace α)
    (var : Nat)
    (value : α)
    (inside : position < block.size * block.size) :
    ((task.oneVariableProblem work block var).matrixAt value).numberAt
          position =
        value *
            BlockTerm.weightAt ((BlockTerm.ofVariable block.terms var).take 1)
              block.size position +
          -1 *
            (work.constants.getD 0 Triplets.empty).weightAt block.size
              position ∧
      ((PreparedBlock.ofOnly work block).matrixAt var value).numberAt
          position =
        value *
            BlockTerm.weightAt (BlockTerm.ofVariable block.terms var)
              block.size position +
          -1 *
            (work.constants.getD 0 Triplets.empty).weightAt block.size
              position := by
  have filled (terms : List (BlockTerm α)) :
      ((work.constants.getD 0 Triplets.empty).addTo
          (BlockTerm.addAll terms (SquareMatrix.zeros block.size) value)
          (-1)).numberAt position =
        value * BlockTerm.weightAt terms block.size position +
          -1 *
            (work.constants.getD 0 Triplets.empty).weightAt block.size
              position := by
    have zerosInside :
        position < (SquareMatrix.zeros block.size : SquareMatrix α).data.size := by
      rw [SquareMatrix.zeros_dataSize]
      exact inside
    have shape :=
      BlockTerm.addAll_shape terms
        (SquareMatrix.zeros block.size : SquareMatrix α) value
    rw [Triplets.numberAt_addTo exact _ _ _
        (by rw [shape.dataSize]; exact zerosInside),
      BlockTerm.numberAt_addAll exact terms _ _ zerosInside, shape.size,
      SquareMatrix.numberAt_zeros, exact.zeroAdd]
    rfl
  constructor
  · rw [OneVariableProblem.matrixAt]
    simp only [oneVariableProblem]
    rw [firstMatrix_addTo]
    exact filled _
  · exact filled _

/--
In exact sums the problems match exactly if the later matrices of the variable
cancel.
-/
theorem matches_iff_later_cancel (exact : ExactSums α) :
    (task.oneVariableProblem work block var).Matches
        (PreparedProblem.ofWorkspace task.store work)
        (PreparedBlock.ofOnly work block) var ↔
      BlockTerm.addAll ((BlockTerm.ofVariable block.terms var).drop 1)
          (SquareMatrix.zeros block.size) 1 =
        SquareMatrix.zeros block.size := by
  have weights (position : Nat) :=
    BlockTerm.weightAt_first_add_later exact
      (BlockTerm.ofVariable block.terms var) block.size position
  rw [BlockTerm.addAll_zeros_eq_iff exact]
  constructor
  · intro isMatch position inside
    obtain ⟨first, all⟩ :=
      numberAt_matrices exact task work var 1 inside
    have sameNumber :=
      congrArg (fun m => SquareMatrix.numberAt m position) (isMatch.matrix 1)
    rw [first, all, exact.oneMul, exact.oneMul, exact.addComm,
      exact.addComm (BlockTerm.weightAt (BlockTerm.ofVariable _ _) _ _)]
      at sameNumber
    apply exact.eq_zero_of_add_eq_self
    rw [weights position]
    exact (exact.addCancel _ _ _ sameNumber).symm
  · intro cancel
    apply matches_of_matrix
    intro value
    have shapeFirst :
        ((task.oneVariableProblem work block var).matrixAt value).SameShape
          (SquareMatrix.zeros block.size) :=
      (Triplets.addTo_shape _ _ _).trans (Triplets.addTo_shape _ _ _)
    have shapeAll :
        ((PreparedBlock.ofOnly work block).matrixAt var value).SameShape
          (SquareMatrix.zeros block.size) :=
      (Triplets.addTo_shape _ _ _).trans (BlockTerm.addAll_shape _ _ _)
    apply SquareMatrix.eq_of_numberAt
      ⟨shapeFirst.size.trans shapeAll.size.symm,
        shapeFirst.dataSize.trans shapeAll.dataSize.symm⟩
    intro position inMatrix
    rw [shapeFirst.dataSize, SquareMatrix.zeros_dataSize] at inMatrix
    obtain ⟨first, all⟩ :=
      numberAt_matrices exact task work var value inMatrix
    rw [first, all, ← weights position, cancel position inMatrix,
      exact.addZero]

end SolveTask

namespace SolveM

variable {σ τ : Type} [OneVariableSolver τ α]

theorem solveOneVariable_bounded
    {task : SolveTask α}
    {ready : SolveRun σ τ α}
    {var : Nat}
    (fixedObjective : α)
    (single : ready.work.activeVariables = [var])
    (noBlock : task.store.blocks = []) :
    solveOneVariable task fixedObjective ready =
      .ok (task.boundedResult? ready.work fixedObjective var) ready := by
  simp only [solveOneVariable, bind, EStateM.bind, get, getThe,
    MonadStateOf.get, EStateM.get, single, noBlock]
  rfl

/-- With one block, the path asks the method. -/
theorem solveOneVariable_block
    {task : SolveTask α}
    {ready : SolveRun σ τ α}
    {block : Block α}
    {var : Nat}
    (fixedObjective : α)
    (single : ready.work.activeVariables = [var])
    (oneBlock : task.store.blocks = [block]) :
    solveOneVariable task fixedObjective ready =
      EStateM.map
        (fun solution => solution.map (task.resultOf fixedObjective var))
        (askOneVariable task (task.oneVariableProblem ready.work block var))
        ready := by
  simp only [solveOneVariable, bind, EStateM.bind, get, getThe,
    MonadStateOf.get, EStateM.get, single, oneBlock]
  rfl

omit [Scalar α] in
/-- What the method answers, the path takes over. -/
theorem askOneVariable_eq_ok
    {task : SolveTask α}
    {problem : OneVariableProblem α}
    {ready next : SolveRun σ τ α}
    {solution : Option (OneVariableSolution α)} :
    askOneVariable task problem ready = .ok solution next ↔
      ∃ method,
        OneVariableSolver.solve task.sentinel problem ready.oneVariable =
            .ok solution method ∧
          next = { ready with oneVariable := method } := by
  rw [askOneVariable]
  cases OneVariableSolver.solve task.sentinel problem ready.oneVariable with
  | ok answer method =>
      simp only [EStateM.Result.ok.injEq]
      constructor
      · rintro ⟨rfl, rfl⟩
        exact ⟨method, ⟨rfl, rfl⟩, rfl⟩
      · rintro ⟨_, ⟨rfl, rfl⟩, rfl⟩
        exact ⟨rfl, rfl⟩
  | error fault method =>
      simp

/--
With several active variables or blocks, or no active variable, the path does not
apply.
-/
theorem solveOneVariable_skipped
    {task : SolveTask α}
    {ready : SolveRun σ τ α}
    (fixedObjective : α)
    (skips :
      ready.work.activeVariables.length ≠ 1 ∨
        2 ≤ task.store.blocks.length) :
    solveOneVariable task fixedObjective ready = .ok none ready := by
  simp only [solveOneVariable, bind, EStateM.bind, get, getThe,
    MonadStateOf.get, EStateM.get]
  rcases active : ready.work.activeVariables with _ | ⟨var, _ | ⟨_, _⟩⟩
  · rfl
  · rcases shape : task.store.blocks with _ | ⟨_, _ | ⟨_, _⟩⟩
    · simp [active, shape] at skips
    · simp [active, shape] at skips
    · rfl
  · rfl

/--
With Newton's method, the path leaves the run as it is and gives the result of the
method.
-/
theorem solveOneVariable_newton
    {task : SolveTask α}
    {ready : SolveRun σ NewtonMethod α}
    {block : Block α}
    {var : Nat}
    {solution : OneVariableSolution α}
    (fixedObjective : α)
    (single : ready.work.activeVariables = [var])
    (oneBlock : task.store.blocks = [block])
    (answer :
      (task.oneVariableProblem ready.work block var).newton task.sentinel
          ready.oneVariable.iterationLimit =
        .ok (some solution)) :
    solveOneVariable task fixedObjective ready =
      .ok (some (task.resultOf fixedObjective var solution)) ready := by
  have asked :
      askOneVariable task (task.oneVariableProblem ready.work block var)
          ready =
        .ok (some solution) ready :=
    askOneVariable_eq_ok.mpr
      ⟨ready.oneVariable, by simp only [OneVariableSolver.solve, answer], rfl⟩
  rw [solveOneVariable_block fixedObjective single oneBlock, EStateM.map, asked]
  rfl

/--
The path gives a result only for one active variable: the favoured bound if there
is no block, and what the method makes of the path problem of a single block.
-/
theorem solveOneVariable_some
    {task : SolveTask α}
    {ready next : SolveRun σ τ α}
    {fixedObjective : α}
    {result : OneVariableResult α}
    (solved :
      solveOneVariable task fixedObjective ready = .ok (some result) next) :
    ∃ var,
      ready.work.activeVariables = [var] ∧
        ((task.store.blocks = [] ∧
            task.boundedResult? ready.work fixedObjective var = some result) ∨
          ∃ block solution method,
            task.store.blocks = [block] ∧
              OneVariableSolver.solve task.sentinel
                  (task.oneVariableProblem ready.work block var)
                  ready.oneVariable =
                .ok (some solution) method ∧
              result = task.resultOf fixedObjective var solution) := by
  have gives := solveOneVariable_gives task fixedObjective ready
  rw [solved] at gives
  exact SolveTask.pathResult_eq_some gives.1

/--
Whenever the path gives a result for a loaded problem, presolve has kept no row
exactly if its last pass settles the free variable; it does if no stored row lists
the variable twice, and without integrality only then.  With a block, the problem
that the path solves is the prepared problem in the free variable if the block
lists the variable at most once; in exact sums it is exactly if the matrices
listed after the first one cancel.
-/
theorem solveOneVariable_matches_prepared
    {program : Program α}
    {task : SolveTask α}
    {before : Workspace α}
    {ready next : SolveRun σ τ α}
    {fixedObjective : α}
    {result : OneVariableResult α}
    (compaction : Compaction)
    (loaded : Store.load task.sentinel program = .ok task.store)
    (presolved :
      before.presolve task.store task.sentinel task.settings =
        (ready.work, .ok (.undecided fixedObjective)))
    (solved :
      solveOneVariable task fixedObjective ready = .ok (some result) next) :
    let work := { ready.work with compaction := compaction }
    let prepared := PreparedProblem.ofWorkspace task.store work
    ∃ var,
      work.activeVariables = [var] ∧
        (prepared.rows.toRows = [] ↔
          ∀ visit ∈ RowPass.finalVisits task.store task.sentinel task.settings,
            RowPass.SettlesVariable task.sentinel task.settings
              task.store.integral var visit) ∧
        ((∀ row ∈ task.store.rows.toRows,
            (row.termsOf task.settings.epsilon var).length ≤ 1) →
          prepared.rows.toRows = []) ∧
        (task.store.integral.getD var false = false →
          prepared.rows.toRows = [] →
          ∀ row ∈ task.store.rows.toRows,
            (row.termsOf task.settings.epsilon var).length ≤ 1) ∧
        ((task.store.blocks = [] ∧
            task.boundedResult? ready.work fixedObjective var = some result) ∨
          ∃ block solution method,
            let path := task.oneVariableProblem ready.work block var
            let preparedBlock := PreparedBlock.ofOnly work block
            task.store.blocks = [block] ∧
              prepared.blocks = [preparedBlock] ∧
              OneVariableSolver.solve task.sentinel path ready.oneVariable =
                .ok (some solution) method ∧
              result = task.resultOf fixedObjective var solution ∧
              ((BlockTerm.ofVariable block.terms var).length ≤ 1 →
                path.Matches prepared preparedBlock var) ∧
              (ExactSums α →
                (path.Matches prepared preparedBlock var ↔
                  BlockTerm.addAll
                      ((BlockTerm.ofVariable block.terms var).drop 1)
                      (SquareMatrix.zeros block.size) 1 =
                    SquareMatrix.zeros block.size))) := by
  intro work prepared
  obtain ⟨var, single, shape⟩ := solveOneVariable_some solved
  have noRow_iff :=
    Workspace.presolve_rows_eq_nil_iff loaded presolved single
  have noRow :=
    Workspace.presolve_rows_eq_nil loaded presolved single
  have listedOnce :=
    Workspace.listed_once_of_presolve_rows_eq_nil loaded presolved single
  refine ⟨var, single, noRow_iff, noRow, listedOnce, ?_⟩
  rcases shape with noBlock | ⟨block, solution, method, oneBlock, answer, isResult⟩
  · exact .inl noBlock
  · have preparedBlocks :
        prepared.blocks = [PreparedBlock.ofOnly work block] := by
      simp only [prepared, PreparedProblem.ofWorkspace, oneBlock]
      rfl
    have samePath :
        task.oneVariableProblem ready.work block var =
          task.oneVariableProblem work block var :=
      rfl
    refine
      .inr
        ⟨block, solution, method, oneBlock, preparedBlocks, answer, isResult,
          ?_, ?_⟩
    · rw [samePath]
      exact SolveTask.matches_of_listed_once
    · rw [samePath]
      exact SolveTask.matches_iff_later_cancel

/-- A block that lists its first variable several times. -/
def repeatingBlock (copies : Nat) : Block ℚ :=
  {
    size := 1
    terms :=
      List.replicate copies
        { var := 0, entries := { rows := [0], cols := [0], values := [1] } }
    constant := { rows := [0], cols := [0], values := [4] }
  }

/--
A program that lists its first variable several times in a row and in its block.
-/
def repeatingProgram (copies : Nat) : Program ℚ :=
  {
    objective := [1, 1]
    lower := [0, 0]
    upper := [10, 10]
    integral := none
    blocks := [repeatingBlock copies]
    rows :=
      [
        { left := 1, right := 1, vars := [1], coefs := [1] },
        {
          left := 3
          right := 1e20
          vars := List.replicate copies 0
          coefs := List.replicate copies 1
        }
      ]
  }

/-- The task of solving that program. -/
def repeatingTask (copies : Nat) : SolveTask ℚ :=
  {
    sentinel := Session.standardSentinel
    store := Store.ofProgram (repeatingProgram copies)
    settings := Settings.standard
    problemNumber := 1
    start := none
    startSetting := .unsolved
    explainsFailure := false
    timeLimit := Session.standardSentinel
    watch := fun _ => 0
  }

/-- A run that has presolved that program and uses Newton's method. -/
def repeatingRun (copies : Nat) : SolveRun Unit NewtonMethod ℚ :=
  {
    SolveRun.fresh Session.standardSentinel .wall () NewtonMethod.standard with
    work :=
      (Workspace.empty.presolve (repeatingTask copies).store
        Session.standardSentinel Settings.standard).1
  }

/-- What Newton's method says about that program. -/
def repeatingSolution : OneVariableSolution ℚ :=
  { objectiveValue := 4, value := 4, certificate := [1], slope := 1 }

/--
A variable that is listed once: no row is kept, and the path solves the prepared
problem.
-/
theorem solveOneVariable_matches_listed_once :
    let task := repeatingTask 1
    let work := (repeatingRun 1).work
    (PreparedProblem.ofWorkspace task.store work).rows.toRows = [] ∧
      (task.oneVariableProblem work (repeatingBlock 1) 0).Matches
        (PreparedProblem.ofWorkspace task.store work)
        (PreparedBlock.ofOnly work (repeatingBlock 1)) 0 := by
  intro task work
  have loaded :
      Store.load task.sentinel (repeatingProgram 1) = .ok task.store :=
    Store.load_eq_ok.mpr ⟨by decide +kernel, rfl⟩
  have presolved :
      Workspace.empty.presolve task.store task.sentinel task.settings =
        (work, .ok (.undecided 1)) :=
    Prod.ext rfl (by decide +kernel)
  have active : work.activeVariables = [0] := by
    decide +kernel
  have oneBlock : task.store.blocks = [repeatingBlock 1] := by
    decide +kernel
  have solved :
      solveOneVariable task 1 (repeatingRun 1) =
        .ok (some (task.resultOf 1 0 repeatingSolution)) (repeatingRun 1) :=
    solveOneVariable_newton 1 active oneBlock (by decide +kernel)
  obtain ⟨var, single, _, noRow, _, shape⟩ :=
    solveOneVariable_matches_prepared work.compaction loaded presolved solved
  have isFirst : var = 0 := by
    simpa using single.symm.trans active
  subst isFirst
  refine ⟨noRow (by decide +kernel), ?_⟩
  rcases shape with ⟨noBlock, _⟩ | ⟨block, _, _, isBlock, _, _, _, once, _⟩
  · rw [oneBlock] at noBlock
    cases noBlock
  · have sameBlock : repeatingBlock 1 = block := by
      simpa using oneBlock.symm.trans isBlock
    subst sameBlock
    exact once (by decide +kernel)

/--
A variable that is listed twice: a row is kept, and the path solves another
problem than the prepared one.
-/
theorem solveOneVariable_differs_listed_twice :
    let task := repeatingTask 2
    let ready := repeatingRun 2
    Store.load task.sentinel (repeatingProgram 2) = .ok task.store ∧
      Workspace.empty.presolve task.store task.sentinel task.settings =
        (ready.work, .ok (.undecided 1)) ∧
      solveOneVariable task 1 ready =
        .ok (some (task.resultOf 1 0 repeatingSolution)) ready ∧
      task.store.blocks = [repeatingBlock 2] ∧
      (PreparedProblem.ofWorkspace task.store ready.work).rows.toRows ≠ [] ∧
      (task.oneVariableProblem ready.work (repeatingBlock 2) 0).matrixAt 2 ≠
        (PreparedBlock.ofOnly ready.work (repeatingBlock 2)).matrixAt 0 2 := by
  intro task ready
  have oneBlock : task.store.blocks = [repeatingBlock 2] := by
    decide +kernel
  exact
    ⟨Store.load_eq_ok.mpr ⟨by decide +kernel, rfl⟩,
      Prod.ext rfl (by decide +kernel),
      solveOneVariable_newton 1 (by decide +kernel) oneBlock
        (by decide +kernel),
      oneBlock, by decide +kernel, by decide +kernel⟩

end SolveM

end SdpRelay
