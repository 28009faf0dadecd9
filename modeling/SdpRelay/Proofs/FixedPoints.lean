import SdpRelay.Proofs.PresolveRun
import SdpRelay.Proofs.SlackMatrices
import SdpRelay.Proofs.SolveExits
import SdpRelay.Proofs.VisitedRows

namespace SdpRelay

/-!
# Fixed points

Where the passes over the rows leave no variable free, the lower bounds are the
only point left, and the solve comes to a verdict on it without its solver.  The
last pass fixes nothing, so it finds all variables fixed at the final bounds, and
checks every row there; bounds may cross by the tolerance at most in all passes.
The blocks are checked by their smallest eigenvalues.
-/

variable {K : Type} [ExactField K]

/-- The significant terms of a row lie between its finite sides, up to a tolerance. -/
structure LinearRow.NearlyHolds
    (sentinel epsilon tolerance : K)
    (row : LinearRow K)
    (point : Nat → K) :
    Prop where
  left :
    |row.left| < sentinel →
      row.left - tolerance ≤
        termsValue (RowPass.significantTerms epsilon row) point
  right :
    |row.right| < sentinel →
      termsValue (RowPass.significantTerms epsilon row) point ≤
        row.right + tolerance

/-- Working bounds inside those of a store, which cross by at most a tolerance. -/
structure Bounds.Settled
    (store : Store K)
    (tolerance : K)
    (bounds : Bounds K) :
    Prop where
  encloses : (Bounds.ofStored store.lower store.upper).Encloses bounds
  crossing :
    ∀ var, var < store.lower.length →
      bounds.lowerAt var ≤ bounds.upperAt var + tolerance

namespace RowPass

variable
  {store : Store K}
  {sentinel : K}
  {settings : Settings K}

/-- A visit that finds no contradiction leaves settled bounds settled. -/
theorem visitRow_settled
    {pass : RowPass K}
    {row : LinearRow K}
    (integral : List Bool)
    (index : Nat)
    (epsilonNonneg : 0 ≤ settings.epsilon)
    (sameLength : store.upper.length = store.lower.length)
    (known : ∀ var ∈ row.vars, var < store.lower.length)
    (settled : pass.bounds.Settled store settings.feasTolerance)
    (feasible :
      (pass.visitRow sentinel settings integral index row).summary.infeasible =
        false) :
    (pass.visitRow sentinel settings integral index row).bounds.Settled store
      settings.feasTolerance := by
  have lowerLength : pass.bounds.lower.length = store.lower.length :=
    settled.encloses.lowerLength
  have upperLength : pass.bounds.upper.length = store.upper.length :=
    settled.encloses.upperLength
  refine ⟨settled.encloses.trans ?_, ?_⟩
  · refine visitRow_encloses integral index epsilonNonneg ?_ ?_
    · rw [upperLength, lowerLength, sameLength]
    · rw [lowerLength]
      exact known
  rcases openTerms_cases settings pass.bounds row with
    noTerm | ⟨var, coef, oneTerm⟩ | severalTerms
  · rw [visitRow_of_none sentinel integral index noTerm]
    exact settled.crossing
  · rw [visitRow_of_single sentinel integral index oneTerm] at feasible ⊢
    intro other inRange
    by_cases isVar : other = var
    · subst isVar
      simp only [visitSingle] at feasible ⊢
      split at feasible
      · cases feasible
      · rename_i consistent
        exact not_lt.mp consistent
    · have same :=
        pass.bounds.tighten_sameExcept sentinel settings.epsilon index var coef
          (openLeft sentinel settings pass.bounds row)
          (openRight sentinel settings pass.bounds row)
      have crossing := settled.crossing other inRange
      rw [← same.lower other isVar, ← same.upper other isVar] at crossing
      exact crossing
  · rw [visitRow_of_several sentinel integral index severalTerms]
    exact settled.crossing

section Runs

variable
  (epsilonNonneg : 0 ≤ settings.epsilon)
  (sameLength : store.upper.length = store.lower.length)
  (inRange :
    ∀ row ∈ store.rows.toRows, ∀ var ∈ row.vars, var < store.lower.length)

include epsilonNonneg sameLength inRange

/-- So does a pass. -/
theorem run_settled
    {start : Bounds K}
    (settled : start.Settled store settings.feasTolerance)
    (feasible :
      (run store sentinel settings start).summary.infeasible = false) :
    (run store sentinel settings start).bounds.Settled store
      settings.feasTolerance := by
  obtain ⟨_, _, reached, _⟩ :=
    run_induction
      (motive := fun _ pass =>
        pass.summary.infeasible = false →
          pass.bounds.Settled store settings.feasTolerance)
      (fun _ _ => True)
      (fun seen pass row stored _ earlier stillFeasible => by
        have progress :
            Progress settings store.lower.length pass
              (pass.visitRow sentinel settings store.integral seen.length
                row) :=
          visitRow_progress pass sentinel store.integral seen.length
            (inRange row stored)
        exact
          visitRow_settled store.integral seen.length epsilonNonneg sameLength
            (inRange row stored)
            (earlier (progress.feasible stillFeasible)) stillFeasible)
      (fun _ _ => trivial)
      (fun _ => settled)
  exact reached feasible

/-- A whole run that finds no contradiction has a last pass that starts from settled bounds. -/
theorem propagate_settled
    (sentinel : K)
    (settled :
      (Bounds.ofStored store.lower store.upper).Settled store
        settings.feasTolerance) :
    ∃ last : Bounds K,
      last.Settled store settings.feasTolerance ∧
        LastPass store sentinel settings last
          (propagate store sentinel settings
            (Bounds.ofStored store.lower store.upper)) := by
  obtain ⟨last, lastSettled, _, _, _, isLast⟩ :=
    repeated_run
      (motive := fun bounds => bounds.Settled store settings.feasTolerance)
      (fun _ _ => True)
      (atStart (Bounds.ofStored store.lower store.upper))
      inRange
      (fun bounds settled _ feasible =>
        run_settled epsilonNonneg sameLength inRange settled feasible)
      (fun _ _ => trivial)
      (Nat.lt_succ_of_le
        ((Bounds.ofStored store.lower store.upper).freeCount_le
          settings.epsilon))
      settled
  exact ⟨last, lastSettled, isLast⟩

end Runs

/-- A row all of whose variables are fixed is checked at the lower bounds. -/
theorem visitRow_of_allFixed
    {pass : RowPass K}
    {row : LinearRow K}
    {variableCount : Nat}
    (integral : List Bool)
    (index : Nat)
    (known : ∀ var ∈ row.vars, var < variableCount)
    (allFixed :
      ∀ var, var < variableCount → pass.bounds.Fixed settings.epsilon var) :
    (pass.visitRow sentinel settings integral index row).bounds = pass.bounds ∧
      ((pass.visitRow sentinel settings integral index
          row).summary.infeasible = false →
        row.NearlyHolds sentinel settings.epsilon settings.feasTolerance
          pass.bounds.lowerAt) := by
  have isFixed
      {term : Nat × K}
      (member : term ∈ significantTerms settings.epsilon row) :
      pass.bounds.Fixed settings.epsilon term.1 := by
    have listed : term ∈ row.vars.zip row.coefs := List.mem_of_mem_filter member
    exact allFixed term.1 (known term.1 (List.of_mem_zip listed).1)
  have noTerm : openTerms settings pass.bounds row = [] :=
    List.filter_eq_nil_iff.mpr fun term member => by
      simpa using isFixed member
  have allTerms :
      fixedTerms pass.bounds settings.epsilon
          (significantTerms settings.epsilon row) =
        significantTerms settings.epsilon row :=
    List.filter_eq_self.mpr fun term member => by
      simpa using isFixed member
  have settledValue :
      (settledPart settings pass.bounds row).value =
        termsValue (significantTerms settings.epsilon row)
          pass.bounds.lowerAt := by
    rw [settledPart, allTerms, value_contribution]
  rw [visitRow_of_none sentinel integral index noTerm]
  refine ⟨rfl, ?_⟩
  intro feasible
  simp only [visitFixed] at feasible
  split at feasible
  · cases feasible
  · rename_i within
    rw [not_or, not_lt, not_lt] at within
    constructor
    · intro finite
      have leftWithin := within.1
      rw [openLeft, shiftSide_of_finite finite, settledValue] at leftWithin
      linarith
    · intro finite
      have rightWithin := within.2
      rw [openRight, shiftSide_of_finite finite, settledValue] at rightWithin
      linarith

/-- A pass over fixed variables keeps the bounds and checks all rows at the lower ones. -/
theorem run_of_allFixed
    {start : Bounds K}
    {variableCount : Nat}
    (inRange :
      ∀ row ∈ store.rows.toRows, ∀ var ∈ row.vars, var < variableCount)
    (allFixed :
      ∀ var, var < variableCount → start.Fixed settings.epsilon var)
    (feasible :
      (run store sentinel settings start).summary.infeasible = false) :
    (run store sentinel settings start).bounds = start ∧
      ∀ row ∈ store.rows.toRows,
        row.NearlyHolds sentinel settings.epsilon settings.feasTolerance
          start.lowerAt := by
  obtain ⟨visited, _, ⟨sameBounds, rowsHold⟩, complete⟩ :=
    run_induction
      (motive := fun seen pass =>
        pass.bounds = start ∧
          (pass.summary.infeasible = false →
            ∀ row ∈ seen,
              row.NearlyHolds sentinel settings.epsilon
                settings.feasTolerance start.lowerAt))
      (fun _ _ => True)
      (fun seen pass row stored _ ⟨sameBounds, rowsHold⟩ => by
        subst sameBounds
        have progress :
            Progress settings variableCount pass
              (pass.visitRow sentinel settings store.integral seen.length
                row) :=
          visitRow_progress pass sentinel store.integral seen.length
            (inRange row stored)
        obtain ⟨stillSame, rowHolds⟩ :=
          visitRow_of_allFixed store.integral seen.length
            (inRange row stored) allFixed
        refine ⟨stillSame, ?_⟩
        intro stillFeasible other member
        rcases List.mem_append.mp member with earlier | isRow
        · exact rowsHold (progress.feasible stillFeasible) other earlier
        · rw [List.mem_singleton.mp isRow]
          exact rowHolds stillFeasible)
      (fun _ _ => trivial)
      ⟨rfl, nofun⟩
  rw [complete feasible] at rowsHold
  exact ⟨sameBounds, rowsHold feasible⟩

/--
A run that finds no contradiction and leaves no variable free has checked every
stored row at its final lower bounds.
-/
theorem propagate_of_allFixed
    (epsilonNonneg : 0 ≤ settings.epsilon)
    (sameLength : store.upper.length = store.lower.length)
    (inRange :
      ∀ row ∈ store.rows.toRows, ∀ var ∈ row.vars, var < store.lower.length)
    (settled :
      (Bounds.ofStored store.lower store.upper).Settled store
        settings.feasTolerance)
    (feasible :
      (propagate store sentinel settings
        (Bounds.ofStored store.lower store.upper)).summary.infeasible = false)
    (allFixed :
      ∀ var, var < store.lower.length →
        (propagate store sentinel settings
          (Bounds.ofStored store.lower store.upper)).bounds.Fixed
            settings.epsilon var) :
    let final :=
      (propagate store sentinel settings
        (Bounds.ofStored store.lower store.upper)).bounds
    final.Settled store settings.feasTolerance ∧
      ∀ row ∈ store.rows.toRows,
        row.NearlyHolds sentinel settings.epsilon settings.feasTolerance
          final.lowerAt := by
  intro final
  obtain ⟨last, lastSettled, isLast⟩ :=
    propagate_settled epsilonNonneg sameLength inRange sentinel settled
  have fixesNothing := isLast.fixesNothing feasible
  rw [isLast.infeasible] at feasible
  rw [isLast.bounds] at allFixed
  have sameFixed :=
    (run_progress sentinel settings last inRange).fixed_iff feasible
      fixesNothing
  obtain ⟨sameBounds, rowsHold⟩ :=
    run_of_allFixed inRange
      (fun var known => (sameFixed var).mp (allFixed var known)) feasible
  have isFinal : final = last := isLast.bounds.trans sameBounds
  rw [isFinal]
  exact ⟨lastSettled, rowsHold⟩

end RowPass

namespace Workspace

section Checks

variable
  {α : Type}
  [Scalar α]
  {work : Workspace α}
  {settings : Settings α}
  {blocks : List (Block α)}

/-- Blocks pass the check if no smallest eigenvalue is below minus the tolerance. -/
theorem eigenvalues_of_checkBlocks_true
    (passed : (work.checkBlocks settings blocks).2 = .ok true) :
    ∀ block ∈ blocks, block.size ≠ 0 →
      ∃ pair,
        smallestEigenpair (work.fixedMatrix settings.epsilon block)
            settings.keepsFixedVectors = .ok pair ∧
          ¬ pair.eigenvalue < -settings.feasTolerance := by
  induction blocks with
  | nil =>
      exact fun _ member => nomatch member
  | cons block rest inductionHypothesis =>
      intro other member nonempty
      rw [checkBlocks] at passed
      split at passed
      · rename_i isEmpty
        rcases List.mem_cons.mp member with rfl | inRest
        · exact absurd isEmpty nonempty
        · exact inductionHypothesis passed other inRest nonempty
      · split at passed
        · cases passed
        · rename_i pair found
          split at passed
          · cases passed
          · rename_i above
            rcases List.mem_cons.mp member with rfl | inRest
            · exact ⟨pair, found, above⟩
            · exact inductionHypothesis passed other inRest nonempty

/-- A block passes the check, which keeps an eigenvector of it or nothing. -/
inductive Passes
    (work : Workspace α)
    (settings : Settings α)
    (block : Block α) :
    Option (List α) → Prop where
  | empty
      (isEmpty : block.size = 0) :
      work.Passes settings block none
  | holds {pair : Eigenpair α}
      (nonempty : block.size ≠ 0)
      (found :
        smallestEigenpair (work.fixedMatrix settings.epsilon block)
            settings.keepsFixedVectors = .ok pair)
      (above : ¬ pair.eigenvalue < -settings.feasTolerance) :
      work.Passes settings block pair.eigenvector

/--
Blocks fail the check at the first one whose smallest eigenvalue is below minus the
tolerance; all blocks before pass.
-/
theorem checkBlocks_stops
    {vectors : List (Option (List α))}
    (failed : work.checkBlocks settings blocks = (vectors, .ok false)) :
    ∃ seen violated later kept pair,
      blocks = seen ++ violated :: later ∧
        vectors = kept ++ [pair.eigenvector] ∧
        List.Forall₂ (work.Passes settings) seen kept ∧
        violated.size ≠ 0 ∧
        smallestEigenpair (work.fixedMatrix settings.epsilon violated)
            settings.keepsFixedVectors = .ok pair ∧
        pair.eigenvalue < -settings.feasTolerance := by
  induction blocks generalizing vectors with
  | nil =>
      cases failed
  | cons block rest inductionHypothesis =>
      -- a block that passes stands before those that the rest of the check has seen
      have passed
          {vector : Option (List α)}
          {others : List (Option (List α))}
          (passes : work.Passes settings block vector)
          (restFailed :
            work.checkBlocks settings rest = (others, .ok false)) :
          ∃ seen violated later kept pair,
            block :: rest = seen ++ violated :: later ∧
              vector :: others = kept ++ [pair.eigenvector] ∧
              List.Forall₂ (work.Passes settings) seen kept ∧
              violated.size ≠ 0 ∧
              smallestEigenpair (work.fixedMatrix settings.epsilon violated)
                  settings.keepsFixedVectors = .ok pair ∧
              pair.eigenvalue < -settings.feasTolerance := by
        obtain
          ⟨seen, violated, later, kept, pair, rfl, rfl, allPass, isViolated⟩ :=
          inductionHypothesis restFailed
        exact
          ⟨block :: seen, violated, later, vector :: kept, pair, rfl, rfl,
            .cons passes allPass, isViolated⟩
      rw [checkBlocks] at failed
      split at failed
      · rename_i isEmpty
        cases checked : work.checkBlocks settings rest with
        | mk others outcome =>
            rw [checked] at failed
            cases failed
            exact passed (.empty isEmpty) checked
      rename_i nonempty
      split at failed
      · cases failed
      rename_i pair found
      split at failed
      · rename_i below
        cases failed
        exact
          ⟨[], block, rest, [], pair, rfl, rfl, .nil, nonempty, found, below⟩
      · rename_i above
        cases checked : work.checkBlocks settings rest with
        | mk others outcome =>
            rw [checked] at failed
            cases failed
            exact passed (.holds nonempty found above) checked

/-- Blocks fail the check only if some smallest eigenvalue is below minus the tolerance. -/
theorem eigenvalue_of_checkBlocks_false
    (failed : (work.checkBlocks settings blocks).2 = .ok false) :
    ∃ block ∈ blocks,
      ∃ pair,
        smallestEigenpair (work.fixedMatrix settings.epsilon block)
            settings.keepsFixedVectors = .ok pair ∧
          pair.eigenvalue < -settings.feasTolerance := by
  obtain ⟨seen, violated, later, _, pair, rfl, _, _, _, found, below⟩ :=
    checkBlocks_stops (Prod.ext rfl failed)
  exact ⟨violated, by simp, pair, found, below⟩

end Checks

/-- The contribution of the fixed variables is taken at their lower bounds. -/
theorem fixedObjective_eq
    (work : Workspace K)
    (store : Store K) :
    work.fixedObjective store =
      (store.objective.mapIdx fun var coef =>
        if work.Fixed var then coef * work.bounds.lowerAt var else 0).sum := by
  have accumulated
      (items : List (K × Nat))
      (total : DoubleWord K) :
      (items.foldl
          (fun sum (item : K × Nat) =>
            if work.Fixed item.2 then
              sum.addProduct item.1 (work.bounds.lowerAt item.2)
            else
              sum)
          total).value =
        total.value +
          (items.map fun item =>
            if work.Fixed item.2 then
              item.1 * work.bounds.lowerAt item.2
            else
              0).sum := by
    induction items generalizing total with
    | nil =>
        simp
    | cons item rest inductionHypothesis =>
        rw [List.foldl_cons, inductionHypothesis, List.map_cons, List.sum_cons,
          ← add_assoc]
        split
        · rw [DoubleWord.value_addProduct]
        · rw [add_zero]
  have listed := accumulated store.objective.zipIdx DoubleWord.zero
  rw [DoubleWord.value_zero, zero_add] at listed
  rw [List.mapIdx_eq_zipIdx_map]
  exact listed

/-- With all variables fixed, it is the objective at the lower bounds. -/
theorem fixedObjective_of_allFixed
    {work : Workspace K}
    {store : Store K}
    (allFixed : ∀ var, var < store.objective.length → work.Fixed var) :
    work.fixedObjective store =
      (store.objective.mapIdx fun var coef =>
        coef * work.bounds.lowerAt var).sum := by
  rw [fixedObjective_eq, List.mapIdx_eq_zipIdx_map, List.mapIdx_eq_zipIdx_map]
  congr 1
  apply List.map_congr_left
  intro item member
  exact if_pos (allFixed item.2 (List.snd_lt_of_mem_zipIdx member))

end Workspace

/-- A point inside the bounds of a store that satisfies its rows, up to a tolerance. -/
structure Store.NearlyContains
    (store : Store K)
    (sentinel : K)
    (settings : Settings K)
    (values : List K) :
    Prop where
  length : values.length = store.variableCount
  bounds :
    ∀ var, var < store.variableCount →
      store.lower.getD var 0 ≤ values.getD var 0 ∧
        values.getD var 0 ≤ store.upper.getD var 0 + settings.feasTolerance
  rows :
    ∀ row ∈ store.rows.toRows,
      row.NearlyHolds sentinel settings.epsilon settings.feasTolerance
        (values.getD · 0)

/-- Settled lower bounds at which the rows hold are such a point. -/
theorem Bounds.Settled.nearlyContains
    {store : Store K}
    {program : Program K}
    {sentinel : K}
    {settings : Settings K}
    {bounds : Bounds K}
    (settled : bounds.Settled store settings.feasTolerance)
    (represents : store.Represents program)
    (rowsHold :
      ∀ row ∈ store.rows.toRows,
        row.NearlyHolds sentinel settings.epsilon settings.feasTolerance
          bounds.lowerAt) :
    store.NearlyContains sentinel settings bounds.lower where
  length := settled.encloses.lowerLength.trans represents.lowerLength
  bounds var known := by
    have inLower : var < store.lower.length := by
      rw [represents.lowerLength]
      exact known
    exact
      ⟨settled.encloses.lower var,
        (settled.crossing var inLower).trans
          (add_le_add_left (settled.encloses.upper var) _)⟩
  rows := rowsHold

/-- Stored bounds that do not contradict each other are settled. -/
theorem SolveTask.settled_of_consistent
    {task : SolveTask K}
    (sameLength : task.store.upper.length = task.store.lower.length)
    (consistent : task.boundsContradict = false) :
    (Bounds.ofStored task.store.lower task.store.upper).Settled task.store
      task.settings.feasTolerance := by
  refine ⟨Bounds.Encloses.refl _, ?_⟩
  intro var inLower
  have inUpper : var < task.store.upper.length := by
    rw [sameLength]
    exact inLower
  have listed :
      (task.store.lower[var], task.store.upper[var]) ∈
        task.store.lower.zip task.store.upper := by
    rw [List.mem_iff_getElem]
    exact ⟨var, by simp [inLower, inUpper], by simp⟩
  have within := List.any_eq_false.mp consistent _ listed
  simp only [decide_eq_true_eq, not_lt] at within
  simp only [Bounds.lowerAt, Bounds.upperAt, Bounds.ofStored,
    List.getD_eq_getElem _ _ inLower, List.getD_eq_getElem _ _ inUpper]
  linarith

/--
A presolve that leaves no variable free ends at a point that satisfies bounds and
rows, and its outcome is that of the check of the blocks there.
-/
theorem Workspace.presolve_of_allFixed
    {store : Store K}
    {program : Program K}
    {sentinel : K}
    {settings : Settings K}
    {feasible : Bool}
    (work : Workspace K)
    (represents : store.Represents program)
    (indexed : program.Indexed)
    (epsilonNonneg : 0 ≤ settings.epsilon)
    (settled :
      (Bounds.ofStored store.lower store.upper).Settled store
        settings.feasTolerance)
    (allFixed :
      (work.presolve store sentinel settings).2 = .ok (.allFixed feasible)) :
    let found := (work.presolve store sentinel settings).1
    store.NearlyContains sentinel settings found.bounds.lower ∧
      (∀ var, var < store.variableCount → found.Fixed var) ∧
      (found.checkBlocks settings store.blocks).2 = .ok feasible := by
  intro found
  have presolved :
      work.presolve store sentinel settings =
        (found, .ok (.allFixed feasible)) :=
    Prod.ext rfl allFixed
  obtain ⟨vectors, noContradiction, noneActive, _, isFound⟩ :=
    presolve_closed presolved
  rw [Bool.not_eq_true] at noContradiction
  have sameLength : store.upper.length = store.lower.length := by
    rw [represents.upperLength, represents.lowerLength]
  have inRange := (represents.inRange indexed).1
  have lowerLength :=
    RowPass.propagate_lowerLength sentinel settings inRange
  have noneFree :
      ∀ var, var < store.lower.length →
        (RowPass.propagate store sentinel settings
          (Bounds.ofStored store.lower store.upper)).bounds.Fixed
            settings.epsilon var := by
    intro var inLower
    have notListed :=
      List.filter_eq_nil_iff.mp noneActive var
        (List.mem_range.mpr (by rw [← lowerLength] at inLower; exact inLower))
    rw [Bool.not_eq_true, Bool.not_eq_eq_eq_not, Bool.not_false,
      decide_eq_true_iff] at notListed
    exact notListed
  obtain ⟨finalSettled, rowsHold⟩ :=
    RowPass.propagate_of_allFixed epsilonNonneg sameLength inRange settled
      noContradiction noneFree
  refine
    ⟨?_, ?_, congrArg Prod.snd (presolve_checks presolved)⟩
  · rw [isFound]
    exact finalSettled.nearlyContains represents rowsHold
  · intro var known
    rw [isFound]
    rw [Store.variableCount, ← represents.lowerLength] at known
    exact noneFree var known

/-- The objective of a store at a point. -/
def Store.objectiveAt
    (store : Store K)
    (point : Nat → K) :
    K :=
  (store.objective.mapIdx fun var coef => coef * point var).sum

namespace Session

variable {σ τ : Type} [Solver σ K] [OneVariableSolver τ K]

/--
The point of a solve that left no variable free, with the outcome of the check of
the blocks there.
-/
theorem solve_fixedPoint
    {session : Session σ τ K}
    {options : SolveOptions K}
    {watch : Nat → K}
    (feasible : Bool)
    (reachable : session.Reachable)
    (valid : session.settings.validate = .ok ())
    (isVerdict :
      (stateAfter (solve options watch session)).run.verdict =
        if feasible then .allFixed else .infeasible .fixedPoint) :
    let work := (stateAfter (solve options watch session)).run.work
    session.store.NearlyContains session.sentinel session.settings
        work.bounds.lower ∧
      work.fixedObjective session.store =
        session.store.objectiveAt work.bounds.lowerAt ∧
      (work.checkBlocks session.settings session.store.blocks).2 =
        .ok feasible := by
  intro work
  have notUnsolved :
      (stateAfter (solve options watch session)).run.verdict ≠ .unsolved := by
    rw [isVerdict]
    cases feasible <;> nofun
  obtain ⟨consistent, presolved⟩ :=
    (solve_exits_of_verdict notUnsolved).of_fixedPoint isVerdict
  obtain ⟨program, represents, indexed⟩ := reachable.atRest.held
  have settled :=
    SolveTask.settled_of_consistent
      (represents.upperLength.trans represents.lowerLength.symm) consistent
  have isWork :
      work =
        (session.run.work.presolve session.store session.sentinel
          session.settings).1 :=
    (congrArg Prod.fst presolved).symm
  have epsilonPositive : 0 < session.settings.epsilon :=
    Settings.get_pos valid .epsilon
  obtain ⟨contained, noneFree, checked⟩ :=
    session.run.work.presolve_of_allFixed represents indexed
      epsilonPositive.le settled (congrArg Prod.snd presolved)
  rw [show work = _ from isWork]
  exact
    ⟨contained, Workspace.fixedObjective_of_allFixed noneFree, checked⟩

/--
Verdicts on a problem without free variables are right.  If it is solved, the
point that is given out satisfies bounds, rows and blocks up to the tolerance, and
its objective value is the one that is given out.  If it is infeasible, some block
has a smallest eigenvalue below minus the tolerance at the point that is given
out, which satisfies bounds and rows.
-/
theorem fixed_point_verdicts_are_right
    {session : Session σ τ K}
    {options : SolveOptions K}
    {watch : Nat → K}
    (reachable : session.Reachable)
    (valid : session.settings.validate = .ok ())
    (exactEigenpairs :
      ∀ block ∈ session.store.blocks,
        ((stateAfter (solve options watch session)).run.work.fixedMatrix
          session.settings.epsilon block).EigenpairIsExact block.size) :
    let next := stateAfter (solve options watch session)
    (next.run.verdict = .allFixed →
      ∃ values,
        next.dualSolution =
            .ok (session.store.objectiveAt (values.getD · 0), values) ∧
          next.objectiveValue =
            .ok (session.store.objectiveAt (values.getD · 0)) ∧
          session.store.NearlyContains session.sentinel session.settings
            values ∧
          ∀ block ∈ session.store.blocks,
            IsPositiveSemidefinite
              (block.slackAt session.settings.epsilon (values.getD · 0) +
                session.settings.feasTolerance • 1)) ∧
      (next.run.verdict = .infeasible .fixedPoint →
        ∃ values,
          next.dualSolution = .ok (session.sentinel, values) ∧
            session.store.NearlyContains session.sentinel session.settings
              values ∧
            ∃ block ∈ session.store.blocks,
              ∃ value,
                IsSmallestEigenvalue
                    (block.slackAt session.settings.epsilon (values.getD · 0))
                    value ∧
                  value < -session.settings.feasTolerance) := by
  intro next
  have kept := solve_keepsAssignment options watch session
  have sameSentinel : next.sentinel = session.sentinel :=
    congrArg Prod.fst kept
  have sameStore : next.store = session.store :=
    congrArg (fun assignment => assignment.2.1) kept
  obtain ⟨program, represents, indexed⟩ := reachable.atRest.held
  have acceptable := (represents.inRange indexed).2
  -- what the eigenpair of a block says about its slack
  have slackEigenvalue
      {block : Block K}
      {pair : Eigenpair K}
      (stored : block ∈ session.store.blocks)
      (found :
        smallestEigenpair
            (next.run.work.fixedMatrix session.settings.epsilon block)
            session.settings.keepsFixedVectors = .ok pair) :
      IsSmallestEigenvalue
        (block.slackAt session.settings.epsilon next.run.work.bounds.lowerAt)
        pair.eigenvalue := by
    rw [← next.run.work.toMatrix_fixedMatrix session.settings.epsilon
      (acceptable block stored)]
    exact exactEigenpairs block stored _ pair found
  constructor
  · intro isVerdict
    obtain ⟨contained, objective, checked⟩ :=
      solve_fixedPoint true reachable valid isVerdict
    have objectiveValue :
        next.objectiveValue =
          .ok (session.store.objectiveAt next.run.work.bounds.lowerAt) := by
      simp only [Session.objectiveValue, isVerdict, sameStore]
      exact congrArg Except.ok objective
    refine
      ⟨next.run.work.bounds.lower, ?_, objectiveValue, contained, ?_⟩
    · simp only [dualSolution, objectiveValue, isVerdict]
      rfl
    · intro block stored
      by_cases isEmpty : block.size = 0
      · exact Block.positiveSemidefinite_of_empty isEmpty _ _ _
      · obtain ⟨pair, found, above⟩ :=
          Workspace.eigenvalues_of_checkBlocks_true checked block stored
            isEmpty
        exact
          (slackEigenvalue stored found).positiveSemidefinite
            (block.slackAt_isSymm _ _) (not_lt.mp above)
  · intro isVerdict
    obtain ⟨contained, _, checked⟩ :=
      solve_fixedPoint false reachable valid isVerdict
    obtain ⟨block, stored, pair, found, below⟩ :=
      Workspace.eigenvalue_of_checkBlocks_false checked
    refine
      ⟨next.run.work.bounds.lower, ?_, contained, block, stored,
        pair.eigenvalue, slackEigenvalue stored found, below⟩
    simp only [dualSolution, Session.objectiveValue, isVerdict, sameSentinel]
    rfl

/-- A block whose slack at the point `(2, 1)` is singular if its constant is two. -/
def pinnedBlock (constant : ℚ) : Block ℚ :=
  {
    size := 2
    terms :=
      [
        { var := 0, entries := { rows := [0], cols := [0], values := [3] } },
        {
          var := 1
          entries := { rows := [1, 1], cols := [0, 1], values := [2, 1] }
        }
      ]
    constant := { rows := [0], cols := [0], values := [constant] }
  }

/--
A program whose rows leave no variable free: the second row fixes the first
variable at two, and after that the first row fixes the second one at one.
-/
def pinnedProgram (constant : ℚ) : Program ℚ :=
  {
    objective := [1, 5]
    lower := [0, 0]
    upper := [10, 10]
    integral := none
    blocks := [pinnedBlock constant]
    rows :=
      [
        { left := 3, right := 3, vars := [0, 1], coefs := [1, 1] },
        { left := 2, right := 2, vars := [0], coefs := [1] }
      ]
  }

/-- A session that holds that program. -/
def pinnedSession (constant : ℚ) : Session (ScriptedSolver ℚ) NewtonMethod ℚ :=
  Operation.performed
    (assemble standardSentinel Settings.standard (scriptedSolver [])
      NewtonMethod.standard)
    (.edit (.load (pinnedProgram constant)))

/-- The session after the solve. -/
def pinnedSolve (constant : ℚ) : Session (ScriptedSolver ℚ) NewtonMethod ℚ :=
  stateAfter (solve patientOptions (fun _ => 0) (pinnedSession constant))

/-- Its eigenpairs are exact if they are for the one slack that comes up. -/
theorem pinnedSession_eigenpairsAreExact
    {constant first : ℚ}
    (blocks : (pinnedSession constant).store.blocks = [pinnedBlock constant])
    (slack :
      (pinnedSolve constant).run.work.fixedMatrix
          (pinnedSession constant).settings.epsilon (pinnedBlock constant) =
        { size := 2, data := #[first, 2, 2, 1] })
    (isFirst : first = 4 ∨ first = -2) :
    ∀ block ∈ (pinnedSession constant).store.blocks,
      ((pinnedSolve constant).run.work.fixedMatrix
        (pinnedSession constant).settings.epsilon
          block).EigenpairIsExact block.size := by
  intro block stored
  rw [blocks, List.mem_singleton] at stored
  subst stored
  rw [slack]
  -- the roots are rational for both constants
  rcases isFirst with rfl | rfl
  · exact
      SquareMatrix.eigenpairIsExact_of_plane (5 / 2) rfl rfl rfl
        (by decide +kernel) (by decide +kernel) (by decide +kernel)
  · exact
      SquareMatrix.eigenpairIsExact_of_plane (5 / 2) rfl rfl rfl
        (by decide +kernel) (by decide +kernel) (by decide +kernel)

/--
With the constant two the point `(2, 1)` is the solution.  With the constant eight
there is none, as some eigenvalue of the slack at that point is minus three.
-/
theorem pinnedSession_verdicts_are_right :
    ((pinnedSolve 2).run.verdict = .allFixed ∧
      (pinnedSolve 2).dualSolution = .ok (7, [2, 1]) ∧
      ∀ block ∈ (pinnedSession 2).store.blocks,
        IsPositiveSemidefinite
          (block.slackAt (pinnedSession 2).settings.epsilon ([2, 1].getD · 0) +
            (pinnedSession 2).settings.feasTolerance • 1)) ∧
      (pinnedSolve 8).run.verdict = .infeasible .fixedPoint ∧
      ∃ block ∈ (pinnedSession 8).store.blocks,
        ∃ value,
          IsSmallestEigenvalue
              (block.slackAt (pinnedSession 8).settings.epsilon
                ([2, 1].getD · 0))
              value ∧
            value < -(pinnedSession 8).settings.feasTolerance := by
  have reachable (constant : ℚ) : (pinnedSession constant).Reachable :=
    .operated (.assembled _ _ _ _) _
  constructor
  · have isVerdict : (pinnedSolve 2).run.verdict = .allFixed := by
      decide +kernel
    have solution : (pinnedSolve 2).dualSolution = .ok (7, [2, 1]) := by
      decide +kernel
    obtain ⟨values, given, _, _, semidefinite⟩ :=
      (fixed_point_verdicts_are_right (reachable 2) (by decide +kernel)
        (pinnedSession_eigenpairsAreExact (by decide +kernel)
          (by decide +kernel) (.inl rfl))).1 isVerdict
    obtain ⟨_, rfl⟩ := Prod.mk.inj (Except.ok.inj (solution.symm.trans given))
    exact ⟨isVerdict, solution, semidefinite⟩
  · have isVerdict :
        (pinnedSolve 8).run.verdict = .infeasible .fixedPoint := by
      decide +kernel
    have solution :
        (pinnedSolve 8).dualSolution = .ok (standardSentinel, [2, 1]) := by
      decide +kernel
    obtain ⟨values, given, _, violated⟩ :=
      (fixed_point_verdicts_are_right (reachable 8) (by decide +kernel)
        (pinnedSession_eigenpairsAreExact (by decide +kernel)
          (by decide +kernel) (.inr rfl))).2 isVerdict
    obtain ⟨_, rfl⟩ := Prod.mk.inj (Except.ok.inj (solution.symm.trans given))
    exact ⟨isVerdict, violated⟩

end Session

end SdpRelay
