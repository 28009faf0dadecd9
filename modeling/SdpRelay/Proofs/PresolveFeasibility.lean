import Mathlib
import SdpRelay.Proofs.PresolveRun
import SdpRelay.Proofs.StoreLayout
import SdpRelay.Proofs.VisitedRows

namespace SdpRelay

/-!
# Presolve and feasible points

Row presolve keeps the feasible points.  One direction is an invariant of the
run: a point that satisfies the stored problem stays inside the working bounds
at every visit, so no contradiction is found, and the rows that are kept are
those that the visits of the last pass keep.  Rows are visited as they are stored
in every pass, so the bounds never depend on tightened rows.

In the other direction, the last pass fixes nothing, so every row is classified
in it as it would be under the final bounds, and each visit gives its row back up
to what is left over.
-/

variable {K : Type} [ExactField K]

/-- What presolve relies on: a loaded problem and tolerances that are not negative. -/
structure Presolvable
    (store : Store K)
    (sentinel : K)
    (settings : Settings K) : Prop where
  epsilonNonneg : 0 ≤ settings.epsilon
  toleranceNonneg : 0 ≤ settings.feasTolerance
  sameLength : store.upper.length = store.lower.length
  acceptable :
    ∀ row ∈ store.rows.toRows, row.Acceptable sentinel store.lower.length

namespace Presolvable

open RowPass

variable
  {store : Store K}
  {sentinel : K}
  {settings : Settings K}
  {point : Nat → K}

/-- A loaded problem can be presolved. -/
theorem of_load
    {program : Program K}
    (loaded : Store.load sentinel program = .ok store)
    (epsilonNonneg : 0 ≤ settings.epsilon)
    (toleranceNonneg : 0 ≤ settings.feasTolerance) :
    Presolvable store sentinel settings := by
  refine
    ⟨epsilonNonneg, toleranceNonneg, ?_, Store.acceptable_of_load loaded⟩
  obtain ⟨acceptable, rfl⟩ := Store.load_eq_ok.mp loaded
  have represents := Store.ofProgram_represents acceptable
  rw [represents.upperLength, represents.lowerLength]

/-- The bounds have one entry for each variable of the store. -/
def Sized
    (store : Store K)
    (bounds : Bounds K) :
    Prop :=
  bounds.lower.length = store.lower.length ∧
    bounds.upper.length = store.lower.length

theorem known
    (presolvable : Presolvable store sentinel settings) :
    ∀ row ∈ store.rows.toRows, ∀ var ∈ row.vars, var < store.lower.length :=
  fun row member => (presolvable.acceptable row member).known

/-- A regular visit of a stored row at bounds that contain a point. -/
theorem pointVisit
    {bounds : Bounds K}
    {row : LinearRow K}
    (presolvable : Presolvable store sentinel settings)
    (within : ∀ var, var < store.lower.length → |point var| < sentinel)
    (sized : Sized store bounds)
    (stored : row ∈ store.rows.toRows)
    (regular : RegularVisit sentinel settings bounds row)
    (inside : bounds.Contains point) :
    PointVisit sentinel settings bounds row point where
  epsilonNonneg := presolvable.epsilonNonneg
  regular := regular
  acceptable := by
    rw [sized.1]
    exact presolvable.acceptable row stored
  inside := inside
  within := by
    rw [sized.1]
    exact within

theorem sized_visitRow
    {pass : RowPass K}
    {row : LinearRow K}
    (presolvable : Presolvable store sentinel settings)
    (integral : List Bool)
    (index : Nat)
    (sized : Sized store pass.bounds)
    (stored : row ∈ store.rows.toRows) :
    Sized store
      (pass.visitRow sentinel settings integral index row).bounds := by
  have progress :
      Progress settings store.lower.length pass
        (pass.visitRow sentinel settings integral index row) :=
    visitRow_progress pass sentinel integral index
      (presolvable.known row stored)
  have keeps := progress.keepsFixed
  exact
    ⟨keeps.lowerLength.trans sized.1, keeps.upperLength.trans sized.2⟩

/-- Visits of stored rows never widen the bounds. -/
theorem encloses_visitRow
    {pass : RowPass K}
    {row : LinearRow K}
    (presolvable : Presolvable store sentinel settings)
    (integral : List Bool)
    (index : Nat)
    (sized : Sized store pass.bounds)
    (stored : row ∈ store.rows.toRows) :
    pass.bounds.Encloses
      (pass.visitRow sentinel settings integral index row).bounds := by
  refine
    visitRow_encloses integral index presolvable.epsilonNonneg
      (sized.2.trans sized.1.symm) ?_
  rw [sized.1]
  exact presolvable.known row stored

/--
A pass whose rows hold at a point inside the bounds finds no contradiction and
keeps the point.
-/
theorem run_inside
    {start : Bounds K}
    (presolvable : Presolvable store sentinel settings)
    (within : ∀ var, var < store.lower.length → |point var| < sentinel)
    (holds : ∀ row ∈ store.rows.toRows, row.Holds sentinel point)
    (sized : Sized store start)
    (inside : start.Contains point)
    (regular :
      ∀ visit ∈ passVisits store sentinel settings start,
        RegularVisit sentinel settings visit.1 visit.2) :
    (run store sentinel settings start).summary.infeasible = false ∧
      (run store sentinel settings start).bounds.Contains point ∧
      Sized store (run store sentinel settings start).bounds := by
  obtain ⟨_, _, reached, _⟩ :=
    run_induction
      (motive := fun _ pass =>
        pass.summary.infeasible = false ∧
          pass.bounds.Contains point ∧ Sized store pass.bounds)
      (RegularVisit sentinel settings)
      (fun seen pass row stored regularVisit ⟨feasible, inside, sized⟩ => by
        have visit :=
          presolvable.pointVisit within sized stored regularVisit inside
        obtain ⟨sameVerdict, stillInside⟩ :=
          visitRow_inside store.integral seen.length visit
            presolvable.toleranceNonneg (sized.2.trans sized.1.symm)
            (holds row stored)
        exact
          ⟨sameVerdict.trans feasible, stillInside,
            presolvable.sized_visitRow store.integral seen.length sized stored⟩)
      regular
      ⟨rfl, inside, sized⟩
  exact reached

/-- Such a pass visits every row at bounds that contain the point. -/
theorem run_pointVisits
    {start : Bounds K}
    (presolvable : Presolvable store sentinel settings)
    (within : ∀ var, var < store.lower.length → |point var| < sentinel)
    (holds : ∀ row ∈ store.rows.toRows, row.Holds sentinel point)
    (sized : Sized store start)
    (inside : start.Contains point)
    (regular :
      ∀ visit ∈ passVisits store sentinel settings start,
        RegularVisit sentinel settings visit.1 visit.2) :
    ∀ visit ∈ passVisits store sentinel settings start,
      visit.2 ∈ store.rows.toRows ∧
        PointVisit sentinel settings visit.1 visit.2 point := by
  intro visit member
  obtain ⟨stored, visitInside, visitSized⟩ :=
    rowVisits_all
      (motive := fun bounds => bounds.Contains point ∧ Sized store bounds)
      (RegularVisit sentinel settings)
      0
      (fun index pass row stored regularVisit ⟨inside, sized⟩ =>
        ⟨(visitRow_inside store.integral index
            (presolvable.pointVisit within sized stored regularVisit inside)
            presolvable.toleranceNonneg (sized.2.trans sized.1.symm)
            (holds row stored)).2,
          presolvable.sized_visitRow store.integral index sized stored⟩)
      regular
      ⟨inside, sized⟩
      visit member
  exact
    ⟨stored,
      presolvable.pointVisit within visitSized stored (regular visit member)
        visitInside⟩

/-- The stored bounds as working bounds. -/
def storedBounds (store : Store K) : Bounds K :=
  Bounds.ofStored store.lower store.upper

/-- Every visit of a run from the stored bounds is regular. -/
def RegularRun
    (store : Store K)
    (sentinel : K)
    (settings : Settings K) :
    Prop :=
  ∀ visit ∈ propagateVisits store sentinel settings,
    RegularVisit sentinel settings visit.1 visit.2

/-- Every visit of the last pass of a run from the stored bounds tightens safely. -/
def WholeRun
    (store : Store K)
    (sentinel : K)
    (settings : Settings K) :
    Prop :=
  ∀ visit ∈ finalVisits store sentinel settings,
    WholeVisit sentinel settings store.integral visit.1 visit.2

/-- Every visit of the last pass of a run from the stored bounds covers a point. -/
def CoveredRun
    (store : Store K)
    (sentinel : K)
    (settings : Settings K)
    (point : Nat → K) :
    Prop :=
  ∀ visit ∈ finalVisits store sentinel settings,
    CoveredVisit sentinel settings store.integral visit.1 visit.2 point

theorem sized_storedBounds
    (presolvable : Presolvable store sentinel settings) :
    Sized store (storedBounds store) :=
  ⟨rfl, presolvable.sameLength⟩

/--
A run keeps a point that satisfies the stored problem, visits every row at bounds
that contain it, and keeps the rows that the visits of its last pass keep.
-/
theorem propagate_inside
    (presolvable : Presolvable store sentinel settings)
    (regular : RegularRun store sentinel settings)
    (within : ∀ var, var < store.lower.length → |point var| < sentinel)
    (inside : (storedBounds store).Contains point)
    (holds : ∀ row ∈ store.rows.toRows, row.Holds sentinel point) :
    (propagate store sentinel settings
        (storedBounds store)).summary.infeasible = false ∧
      (propagate store sentinel settings
        (storedBounds store)).bounds.Contains point ∧
      (propagate store sentinel settings
          (storedBounds store)).kept.table.toRows =
        (finalVisits store sentinel settings).flatMap
          (fun visit =>
            keptFrom sentinel settings store.integral visit.1 visit.2) ∧
      ∀ visit ∈ finalVisits store sentinel settings,
        visit.2 ∈ store.rows.toRows ∧
          PointVisit sentinel settings visit.1 visit.2 point := by
  have enough :
      (storedBounds store).freeCount settings.epsilon <
        store.lower.length + 1 :=
    Nat.lt_succ_of_le ((storedBounds store).freeCount_le settings.epsilon)
  obtain ⟨last, ⟨lastInside, lastSized⟩, _, lastRegular, sameVisits, isLast⟩ :=
    repeated_run
      (motive := fun bounds => bounds.Contains point ∧ Sized store bounds)
      (RegularVisit sentinel settings)
      (atStart (storedBounds store))
      presolvable.known
      (fun bounds ⟨inside, sized⟩ visitsRegular _ =>
        (presolvable.run_inside within holds sized inside visitsRegular).2)
      regular
      enough
      ⟨inside, presolvable.sized_storedBounds⟩
  obtain ⟨feasible, finalInside, _⟩ :=
    presolvable.run_inside within holds lastSized lastInside lastRegular
  have lastVisits :
      finalVisits store sentinel settings =
        passVisits store sentinel settings last :=
    sameVisits
  refine ⟨isLast.infeasible.trans feasible, ?_, ?_, ?_⟩
  · rw [show (propagate store sentinel settings (storedBounds store)).bounds = _
      from isLast.bounds]
    exact finalInside
  · exact propagate_keptRows sentinel settings presolvable.known
  · rw [lastVisits]
    exact
      presolvable.run_pointVisits within holds lastSized lastInside lastRegular

/--
The rows that a run keeps hold at a point of the stored problem exactly if its
last pass covers it.
-/
theorem keptRows_hold_iff
    (presolvable : Presolvable store sentinel settings)
    (regular : RegularRun store sentinel settings)
    (within : ∀ var, var < store.lower.length → |point var| < sentinel)
    (inside : (storedBounds store).Contains point)
    (holds : ∀ row ∈ store.rows.toRows, row.Holds sentinel point) :
    (∀ row ∈ (propagate store sentinel settings
          (storedBounds store)).kept.table.toRows,
        row.Holds sentinel point) ↔
      CoveredRun store sentinel settings point := by
  obtain ⟨_, _, keptRows, visits⟩ :=
    presolvable.propagate_inside regular within inside holds
  rw [keptRows]
  constructor
  · intro keptHold visit member
    rw [← (visits visit member).2.keptFrom_holds_iff store.integral]
    intro kept isKept
    exact keptHold kept (List.mem_flatMap.mpr ⟨visit, member, isKept⟩)
  · intro covered kept isKept
    obtain ⟨visit, member, fromVisit⟩ := List.mem_flatMap.mp isKept
    exact
      ((visits visit member).2.keptFrom_holds_iff store.integral).mpr
        (covered visit member) kept fromVisit

/--
A run whose tightening meets whole bounds covers the integral points of the stored
problem.
-/
theorem covered_of_whole
    (presolvable : Presolvable store sentinel settings)
    (regular : RegularRun store sentinel settings)
    (within : ∀ var, var < store.lower.length → |point var| < sentinel)
    (inside : (storedBounds store).Contains point)
    (holds : ∀ row ∈ store.rows.toRows, row.Holds sentinel point)
    (integralPoint : IntegralPoint store.integral point)
    (whole : WholeRun store sentinel settings) :
    CoveredRun store sentinel settings point := by
  obtain ⟨_, _, _, visits⟩ :=
    presolvable.propagate_inside regular within inside holds
  intro visit member
  obtain ⟨stored, pointVisit⟩ := visits visit member
  exact
    pointVisit.covered_of_whole (whole visit member) integralPoint
      (holds visit.2 stored)

/-- A pass never widens the bounds. -/
theorem run_encloses
    {start : Bounds K}
    (presolvable : Presolvable store sentinel settings)
    (sized : Sized store start) :
    start.Encloses (run store sentinel settings start).bounds ∧
      Sized store (run store sentinel settings start).bounds := by
  obtain ⟨_, _, reached, _⟩ :=
    run_induction
      (motive := fun _ pass =>
        start.Encloses pass.bounds ∧ Sized store pass.bounds)
      (fun _ _ => True)
      (fun seen pass row stored _ ⟨encloses, sized⟩ => by
        exact
          ⟨encloses.trans
              (presolvable.encloses_visitRow store.integral seen.length
                sized stored),
            presolvable.sized_visitRow store.integral seen.length sized stored⟩)
      (fun _ _ => trivial)
      ⟨Bounds.Encloses.refl start, sized⟩
  exact reached

/--
After a pass that fixes nothing and finds no contradiction, every stored row
holds up to its leftover at the points at which the result of the pass holds.
-/
theorem run_recovers
    {start : Bounds K}
    (presolvable : Presolvable store sentinel settings)
    (within : ∀ var, var < store.lower.length → |point var| < sentinel)
    (continuous : ∀ var, store.integral.getD var false = false)
    (sized : Sized store start)
    (regular :
      ∀ visit ∈ passVisits store sentinel settings start,
        RegularVisit sentinel settings visit.1 visit.2)
    (feasible :
      (run store sentinel settings start).summary.infeasible = false)
    (fixesNothing :
      (run store sentinel settings start).summary.fixedSome = false)
    (inside : (run store sentinel settings start).bounds.Contains point)
    (keptHold :
      ∀ row ∈ (run store sentinel settings start).kept.table.toRows,
        row.Holds sentinel point) :
    ∀ row ∈ store.rows.toRows,
      row.HoldsUpTo sentinel
        (leftover settings (run store sentinel settings start).bounds row)
        point := by
  obtain ⟨visited, _, ⟨_, rows, lists, recovers⟩, complete⟩ :=
    run_induction
      (motive := fun seen pass =>
        Sized store pass.bounds ∧
          ∃ rows, pass.kept.Lists rows ∧
            (pass.summary.infeasible = false →
              pass.summary.fixedSome = false →
              pass.bounds.Contains point →
              (∀ row ∈ rows, row.Holds sentinel point) →
              ∀ row ∈ seen,
                row.HoldsUpTo sentinel (leftover settings pass.bounds row)
                  point))
      (RegularVisit sentinel settings)
      (fun seen pass row stored regularVisit ⟨sized, rows, lists, recovers⟩ => by
        have progress :
            Progress settings store.lower.length pass
              (pass.visitRow sentinel settings store.integral seen.length
                row) :=
          visitRow_progress pass sentinel store.integral seen.length
            (presolvable.known row stored)
        refine
          ⟨presolvable.sized_visitRow store.integral seen.length sized stored,
            _, visitRow_lists sentinel store.integral seen.length lists, ?_⟩
        intro feasible fixesNothing inside rowsHold
        have insideBefore :=
          (presolvable.encloses_visitRow store.integral seen.length sized
            stored).contains inside
        have sameLeftover
            (other : LinearRow K) :
            leftover settings
                (pass.visitRow sentinel settings store.integral seen.length
                  row).bounds other =
              leftover settings pass.bounds other := by
          unfold leftover
          rw [openTerms_congr (progress.fixed_iff feasible fixesNothing)]
        intro other member
        rw [sameLeftover other]
        rcases List.mem_append.mp member with earlier | isRow
        · exact
            recovers (progress.feasible feasible)
              (progress.notFixed fixesNothing) insideBefore
              (fun kept inRows => rowsHold kept (by simp [inRows]))
              other earlier
        · rw [List.mem_singleton.mp isRow]
          exact
            visitRow_recovers seen.length
              (presolvable.pointVisit within sized stored regularVisit
                insideBefore)
              continuous (sized.2.trans sized.1.symm) feasible inside
              (fun kept isKept => rowsHold kept (by simp [isKept])))
      regular
      ⟨sized, [], KeptRows.Lists.empty, fun _ _ _ _ _ none => nomatch none⟩
  rw [lists.toRows_eq] at keptHold
  rw [← complete feasible]
  exact recovers feasible fixesNothing inside keptHold

/--
After a run without contradiction, the stored problem holds up to leftovers where
its result holds.
-/
theorem propagate_recovers
    (presolvable : Presolvable store sentinel settings)
    (regular : RegularRun store sentinel settings)
    (within : ∀ var, var < store.lower.length → |point var| < sentinel)
    (continuous : ∀ var, store.integral.getD var false = false)
    (feasible :
      (propagate store sentinel settings
        (storedBounds store)).summary.infeasible = false)
    (inside :
      (propagate store sentinel settings
        (storedBounds store)).bounds.Contains point)
    (keptHold :
      ∀ row ∈ (propagate store sentinel settings
          (storedBounds store)).kept.table.toRows,
        row.Holds sentinel point) :
    (storedBounds store).Contains point ∧
      ∀ row ∈ store.rows.toRows,
        row.HoldsUpTo sentinel
          (leftover settings
            (propagate store sentinel settings (storedBounds store)).bounds row)
          point := by
  have enough :
      (storedBounds store).freeCount settings.epsilon <
        store.lower.length + 1 :=
    Nat.lt_succ_of_le ((storedBounds store).freeCount_le settings.epsilon)
  obtain ⟨last, ⟨lastEnclosed, lastSized⟩, _, lastRegular, _, isLast⟩ :=
    repeated_run
      (motive := fun bounds =>
        (storedBounds store).Encloses bounds ∧ Sized store bounds)
      (RegularVisit sentinel settings)
      (atStart (storedBounds store))
      presolvable.known
      (fun bounds ⟨encloses, sized⟩ _ _ =>
        ⟨encloses.trans (presolvable.run_encloses sized).1,
          (presolvable.run_encloses sized).2⟩)
      regular
      enough
      ⟨Bounds.Encloses.refl _, presolvable.sized_storedBounds⟩
  have sameBounds :
      (propagate store sentinel settings (storedBounds store)).bounds =
        (run store sentinel settings last).bounds :=
    isLast.bounds
  have sameKept :
      (propagate store sentinel settings (storedBounds store)).kept =
        (run store sentinel settings last).kept :=
    isLast.kept
  have lastFeasible :
      (run store sentinel settings last).summary.infeasible = false :=
    isLast.infeasible.symm.trans feasible
  have fixesNothing := isLast.fixesNothing feasible
  rw [sameBounds] at inside ⊢
  rw [sameKept] at keptHold
  have lastContains :=
    (presolvable.run_encloses lastSized).1.contains inside
  exact
    ⟨lastEnclosed.contains lastContains,
      presolvable.run_recovers within continuous lastSized lastRegular
        lastFeasible fixesNothing inside keptHold⟩

end Presolvable

end SdpRelay
