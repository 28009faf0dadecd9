import Mathlib
import SdpRelay.Proofs.CheckedBlocks
import SdpRelay.Proofs.OneVariablePath

namespace SdpRelay

/-!
# The path for one free variable with checked access

What presolve leaves undecided has bounds for all variables and a folded constant
for every block, with entries inside the block.  So the path for one free variable
finds the coefficient and the bounds of the variable, and the block with its
constant if there is one; and every step of Newton's method fills two matrices as
large as the block and measures a vector as long as the block.
-/

variable {α : Type} [Scalar α]

/-- The bounds of a workspace fit the variables of a store, and its constants the blocks. -/
structure Workspace.Fits
    (work : Workspace α)
    (store : Store α) : Prop where
  sized : work.bounds.Sized store.variableCount
  constantCount : work.constants.length = store.blocks.length
  inside :
    ∀ b (isBlock : b < store.blocks.length),
      (work.constants.getD b Triplets.empty).Inside store.blocks[b].size

/-- A workspace whose bounds fit a store fits it once the constants are folded. -/
theorem Workspace.foldConstants_fits
    {work : Workspace α}
    {store : Store α}
    (sound : store.Sound)
    (sized : work.bounds.Sized store.variableCount) :
    (work.foldConstants store).Fits store where
  sized := sized
  constantCount := List.length_map _
  inside b isBlock := by
    have acceptable :=
      sound.acceptable store.blocks[b] (List.getElem_mem isBlock)
    have isConstant : b < (store.blocks.map work.foldedConstant).length := by
      simpa using isBlock
    have read :
        (work.foldConstants store).constants.getD b Triplets.empty =
          work.foldedConstant store.blocks[b] := by
      rw [foldConstants, List.getD_eq_getElem _ _ isConstant, List.getElem_map]
    rw [read]
    exact (Checked.foldedConstant_eq sized acceptable).2

/-- What presolve leaves undecided fits the store. -/
theorem Workspace.presolve_fits
    {before work : Workspace α}
    {store : Store α}
    {sentinel fixedObjective : α}
    {settings : Settings α}
    (sound : store.Sound)
    (presolved :
      before.presolve store sentinel settings =
        (work, .ok (.undecided fixedObjective))) :
    work.Fits store := by
  obtain ⟨_, folded⟩ := presolve_undecided presolved
  rw [folded]
  exact
    foldConstants_fits sound
      (Checked.propagate_eq sound.wellFormed sound.known
        (Checked.reset_sized sound.wellFormed before settings) sentinel
        settings).2

/-- How the path for one free variable ends with an answer of Newton's method. -/
def SolveRun.endedBy
    {σ : Type}
    (ready : SolveRun σ NewtonMethod α) :
    Except EigenFault (Option (OneVariableResult α)) →
      EStateM.Result (Fault α) (SolveRun σ NewtonMethod α)
        (Option (OneVariableResult α))
  | .ok result => .ok result ready
  | .error fault => .error (.eigen fault) ready

namespace Checked

/-- The matrix `y A - C`. -/
def matrixAt
    (problem : OneVariableProblem α)
    (y : α) :
    Checked (SquareMatrix α) := do
  let scaled ← addTo problem.matrix (SquareMatrix.zeros problem.size) y
  addTo problem.constant scaled (-1)

/-- Newton steps from an iterate, at most a given number. -/
def newtonFrom
    (problem : OneVariableProblem α)
    (slopeMatrix : SquareMatrix α)
    (sentinel : α) :
    Nat → α → Checked (Except EigenFault (Option (OneVariableSolution α)))
  | 0, _ => return .ok none
  | remaining + 1, y =>
      if problem.size = 0 then
        return .ok (some (problem.optimalAt y [] 0))
      else do
        let matrix ← matrixAt problem y
        match ← smallestEigenpair matrix true with
        | .error fault => return .error fault
        | .ok pair =>
            let certificate :=
              pair.eigenvector.getD (List.replicate problem.size 0)
            let slope ← quadraticForm slopeMatrix certificate
            if -problem.feasTolerance ≤ pair.eigenvalue then
              return .ok (some (problem.optimalAt y certificate slope))
            else if problem.direction * slope ≤ problem.epsilon then
              return .ok
                (some
                  (OneVariableProblem.infeasibleAt sentinel y certificate
                    slope))
            else
              let next := y - pair.eigenvalue / slope
              if 0 < problem.direction * (next - problem.limit) then
                return .ok
                  (some
                    (OneVariableProblem.infeasibleAt sentinel next certificate
                      slope))
              else
                newtonFrom problem slopeMatrix sentinel remaining next

/-- Solve by Newton's method; without an answer if the favoured bound is infinite. -/
def newton
    (problem : OneVariableProblem α)
    (sentinel : α)
    (iterationLimit : Nat) :
    Checked (Except EigenFault (Option (OneVariableSolution α))) :=
  if sentinel ≤ Scalar.abs problem.favoured then
    return .ok none
  else do
    let slopeMatrix ← addTo problem.matrix (SquareMatrix.zeros problem.size) 1
    newtonFrom problem slopeMatrix sentinel iterationLimit problem.favoured

/-- The problem in one free variable that is left of a problem with one block. -/
def oneVariableProblem
    (task : SolveTask α)
    (work : Workspace α)
    (block : Block α)
    (var : Nat) :
    Checked (OneVariableProblem α) := do
  let objective ← item task.store.objective var
  let lower ← item work.bounds.lower var
  let upper ← item work.bounds.upper var
  let constant ← item work.constants 0
  return {
    objective := objective
    lower := lower
    upper := upper
    size := block.size
    constant := constant
    matrix := SolveTask.firstMatrix block var
    feasTolerance := task.settings.feasTolerance
    epsilon := task.settings.epsilon
  }

/-- The result for one free variable between finite bounds and no block: the favoured bound. -/
def boundedResult?
    (task : SolveTask α)
    (work : Workspace α)
    (fixedObjective : α)
    (var : Nat) :
    Checked (Option (OneVariableResult α)) := do
  let objective ← item task.store.objective var
  let lower ← item work.bounds.lower var
  let upper ← item work.bounds.upper var
  if beyondSentinel task.sentinel lower ||
      beyondSentinel task.sentinel upper then
    return none
  else
    let value := if 0 ≤ objective then lower else upper
    return some
      {
        optimal := true
        var := var
        objectiveValue := objective * value + fixedObjective
        value := value
        certificate := none
        slope := 0
      }

/-- Solve a problem with one free variable and at most one block by Newton's method. -/
def solveOneVariable
    (task : SolveTask α)
    (work : Workspace α)
    (iterationLimit : Nat)
    (fixedObjective : α) :
    Checked (Except EigenFault (Option (OneVariableResult α))) := do
  match ← activeVariables work with
  | [var] =>
      if task.store.blockCount = 0 then
        return .ok (← boundedResult? task work fixedObjective var)
      else if task.store.blockCount = 1 then
        let block ← blockAt task.store 0
        let problem ← oneVariableProblem task work block var
        let answer ← newton problem task.sentinel iterationLimit
        return answer.map (Option.map (task.resultOf fixedObjective var))
      else
        return .ok none
  | _ => return .ok none

section Newton

variable
  {problem : OneVariableProblem α}
  (matrixInside : problem.matrix.Inside problem.size)
  (constantInside : problem.constant.Inside problem.size)

include matrixInside constantInside

theorem matrixAt_eq (y : α) :
    matrixAt problem y = .ok (problem.matrixAt y) ∧
      (problem.matrixAt y).Full problem.size := by
  have zeros := SquareMatrix.zeros_full (α := α) problem.size
  have scaledFull :
      (problem.matrix.addTo (SquareMatrix.zeros problem.size) y).Full
        problem.size :=
    zeros.of_sameShape (problem.matrix.addTo_shape _ _)
  exact
    ⟨bind_eq (addTo_eq zeros matrixInside y)
        (addTo_eq scaledFull constantInside (-1)),
      scaledFull.of_sameShape (problem.constant.addTo_shape _ _)⟩

/-- Newton steps stay in range when the matrices of the problem lie inside its size. -/
theorem newtonFrom_eq
    {remaining : Nat}
    {y : α}
    (sentinel : α) :
    newtonFrom problem problem.slopeMatrix sentinel remaining y =
      .ok (problem.newtonFrom sentinel remaining y) := by
  have slopeFull : problem.slopeMatrix.Full problem.size :=
    (SquareMatrix.zeros_full problem.size).of_sameShape
      (problem.matrix.addTo_shape _ _)
  induction remaining generalizing y with
  | zero =>
      rfl
  | succ remaining inductionHypothesis =>
      obtain ⟨filled, full⟩ := matrixAt_eq matrixInside constantInside y
      rw [newtonFrom, OneVariableProblem.newtonFrom]
      split
      · rfl
      · rw [filled, ok_bind, smallestEigenpair_eq full, ok_bind]
        cases solved :
            SdpRelay.smallestEigenpair (problem.matrixAt y) true with
        | error fault =>
            rfl
        | ok pair =>
            have certificateLength :
                (pair.eigenvector.getD
                    (List.replicate problem.size 0)).length =
                  problem.size := by
              cases isVector : pair.eigenvector with
              | none =>
                  exact List.length_replicate
              | some vector =>
                  exact
                    (eigenvector_length solved isVector).trans full.sameSize
            dsimp only
            rw [quadraticForm_eq slopeFull certificateLength, ok_bind]
            simp only [bind, Except.bind]
            split
            · rfl
            · split
              · rfl
              · split
                · rfl
                · exact inductionHypothesis

theorem newton_eq
    (sentinel : α)
    (iterationLimit : Nat) :
    newton problem sentinel iterationLimit =
      .ok (problem.newton sentinel iterationLimit) := by
  rw [newton, OneVariableProblem.newton]
  split
  · rfl
  · exact
      bind_eq (addTo_eq (SquareMatrix.zeros_full problem.size) matrixInside 1)
        (newtonFrom_eq matrixInside constantInside sentinel)

end Newton

section Path

variable
  {task : SolveTask α}
  {work : Workspace α}
  {var : Nat}

omit [Scalar α] in
/-- The matrix that an acceptable block lists first for a variable lies inside the block. -/
theorem firstMatrix_inside
    {block : Block α}
    {size : Nat}
    (acceptable : block.Acceptable size)
    (var : Nat) :
    (SolveTask.firstMatrix block var).Inside block.size := by
  unfold SolveTask.firstMatrix
  split
  · rename_i term found
    exact (acceptable.terms term (List.mem_of_find?_eq_some found)).inside
  · intro entry member
    cases member

theorem boundedResult?_eq
    (sized : work.bounds.Sized task.store.variableCount)
    (known : var < task.store.variableCount)
    (fixedObjective : α) :
    boundedResult? task work fixedObjective var =
      .ok (task.boundedResult? work fixedObjective var) := by
  rw [boundedResult?, item_eq known 0, ok_bind, lowerItem_eq sized known,
    ok_bind, upperItem_eq sized known, ok_bind, SolveTask.boundedResult?]
  dsimp only
  split
  · rfl
  · rfl

theorem oneVariableProblem_eq
    {block : Block α}
    (fits : work.Fits task.store)
    (known : var < task.store.variableCount)
    (hasBlock : 0 < task.store.blocks.length) :
    oneVariableProblem task work block var =
      .ok (task.oneVariableProblem work block var) :=
  bind_eq (item_eq known 0) <|
    bind_eq (lowerItem_eq fits.sized known) <|
      bind_eq (upperItem_eq fits.sized known) <|
        bind_eq
          (item_eq (by rw [fits.constantCount]; exact hasBlock)
            Triplets.empty)
          rfl

/-- The path for one free variable stays in range, and is what a solve does. -/
theorem solveOneVariable_eq
    {σ : Type}
    (sound : task.store.Sound)
    (ready : SolveRun σ NewtonMethod α)
    (fits : ready.work.Fits task.store)
    (fixedObjective : α) :
    ∃ answer,
      solveOneVariable task ready.work ready.oneVariable.iterationLimit
          fixedObjective =
        .ok answer ∧
        SolveM.solveOneVariable task fixedObjective ready =
          ready.endedBy answer := by
  have blockCount := task.store.length_blocks
  rw [solveOneVariable, activeVariables_eq fits.sized, ok_bind]
  rcases active : ready.work.activeVariables with _ | ⟨var, _ | ⟨_, _⟩⟩
  · exact
      ⟨.ok none, rfl,
        SolveM.solveOneVariable_skipped fixedObjective
          (.inl (by simp [active]))⟩
  · have known : var < task.store.variableCount := by
      rw [← fits.sized.lower]
      exact
        (Workspace.mem_activeVariables.mp
          (active ▸ List.mem_singleton.mpr rfl)).1
    dsimp only
    rcases shape : task.store.blocks with _ | ⟨block, _ | ⟨_, _⟩⟩
    · rw [shape, List.length_nil] at blockCount
      rw [if_pos blockCount.symm, boundedResult?_eq fits.sized known, ok_bind]
      exact
        ⟨_, rfl, SolveM.solveOneVariable_bounded fixedObjective active shape⟩
    · have hasBlock : 0 < task.store.blocks.length := by
        simp [shape]
      have isBlock : task.store.blocks[0] = block := by
        simp [shape]
      have acceptable :=
        isBlock ▸ sound.acceptable _ (List.getElem_mem hasBlock)
      have constantInside := isBlock ▸ fits.inside 0 hasBlock
      have read := blockAt_eq sound.wellFormed.blocks hasBlock
      rw [isBlock] at read
      rw [shape, List.length_singleton] at blockCount
      rw [if_neg (by omega), if_pos blockCount.symm, read, ok_bind,
        oneVariableProblem_eq fits known hasBlock, ok_bind,
        newton_eq (firstMatrix_inside acceptable var) constantInside, ok_bind]
      refine ⟨_, rfl, ?_⟩
      rw [SolveM.solveOneVariable_block fixedObjective active shape,
        EStateM.map, SolveM.askOneVariable]
      simp only [OneVariableSolver.solve]
      cases (task.oneVariableProblem ready.work block var).newton task.sentinel
          ready.oneVariable.iterationLimit with
      | ok solution =>
          rfl
      | error fault =>
          rfl
    · rw [shape, List.length_cons, List.length_cons] at blockCount
      rw [if_neg (by omega), if_neg (by omega)]
      exact
        ⟨.ok none, rfl,
          SolveM.solveOneVariable_skipped fixedObjective
            (.inr (by simp [shape]))⟩
  · exact
      ⟨.ok none, rfl,
        SolveM.solveOneVariable_skipped fixedObjective
          (.inl (by simp [active]))⟩

end Path

end Checked

end SdpRelay
