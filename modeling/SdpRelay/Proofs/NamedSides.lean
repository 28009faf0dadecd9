import SdpRelay.Proofs.BoundSources
import SdpRelay.Proofs.CheckedSolve
import SdpRelay.Proofs.DoubleOrder

namespace SdpRelay

/-!
# Which sides the bounds name

The multipliers of a solver are sorted back to the stored rows by the names that
presolve has left: a bound gives its multiplier to the side that it names, a kept row
takes those of its position.  For this to lose nothing, no side may have two claimants.

Two variables never name the same row.  The two bounds of one variable may, but then
by different sides, because a coefficient that counts has a sign.  This holds of
doubles as long as the coefficient is a number at all, which the check of stored rows
makes sure of.
-/

/--
What the direction of an implied bound relies on in its numbers: a number whose
magnitude exceeds a tolerance is either positive or negative.
-/
class SignArithmetic (α : Type) [Scalar α] : Prop where
  pos_iff_not_neg {epsilon x : α}
      (epsilonNonneg : 0 ≤ epsilon)
      (isNumber : Scalar.isNaN x = false)
      (significant : ¬ Scalar.abs x ≤ epsilon) :
      0 < x ↔ ¬ x < 0

instance : SignArithmetic Float where
  pos_iff_not_neg epsilonNonneg isNumber significant := by
    refine Double.pos_iff_not_neg isNumber fun sign isZero => significant ?_
    rw [show Scalar.abs _ = (0 : Float) from Double.abs_of_zero isZero]
    exact epsilonNonneg

/-- In an exact field, zero is the only number without a sign. -/
instance (priority := low) ExactField.signArithmetic
    {K : Type}
    [ExactField K] :
    SignArithmetic K where
  pos_iff_not_neg {epsilon x} epsilonNonneg _ significant := by
    have nonzero : x ≠ 0 := by
      rintro rfl
      exact significant (by simpa using epsilonNonneg)
    constructor
    · exact fun positive => positive.not_gt
    · intro notNegative
      exact lt_of_le_of_ne (not_lt.mp notNegative) nonzero.symm

/-- With a sign, a coefficient turns the two sides of a row into different bounds. -/
theorem BoundEnd.eq_of_side
    {α : Type}
    [Scalar α]
    {coef : α}
    {first second : BoundEnd}
    (signed : 0 < coef ↔ ¬ coef < 0)
    (sameSide : first.side coef = second.side coef) :
    first = second := by
  by_cases negative : coef < 0
  · have notPositive : ¬ 0 < coef := fun positive => signed.mp positive negative
    cases first <;> cases second <;>
      simp [side, negative, notPositive] at sameSide ⊢
  · have positive : 0 < coef := signed.mpr negative
    cases first <;> cases second <;>
      simp [side, negative, positive] at sameSide ⊢

section Coefficients

variable {α : Type} [Scalar α]

/-- The coefficients of a program are numbers. -/
def Program.CoefsAreNumbers (program : Program α) : Prop :=
  ∀ row ∈ program.rows, ∀ coef ∈ row.coefs, Scalar.isNaN coef = false

/-- An edit only stores rows whose coefficients are numbers. -/
theorem Edit.applied_coefsAreNumbers
    {program : Program α}
    (areNumbers : program.CoefsAreNumbers)
    (sentinel : α)
    (edit : Edit α) :
    (edit.applied sentinel program).CoefsAreNumbers := by
  unfold applied
  split
  · rename_i wellFormed
    cases edit with
    | load loaded =>
        intro row member coef inRow
        exact ((wellFormed.rows row member).finite coef inRow).2
    | addRows rows =>
        intro row member
        rcases List.mem_append.mp member with old | new
        · exact areNumbers row old
        · exact fun coef inRow => ((wellFormed row new).finite coef inRow).2
    | deleteRows first last =>
        intro row member
        rcases List.mem_append.mp member with before | behind
        · exact areNumbers row (List.mem_of_mem_take before)
        · exact areNumbers row (List.mem_of_mem_drop behind)
    | deleteRowSet flags =>
        exact fun row member => areNumbers row (mem_of_mem_unflagged member)
    | changeObjective vars values =>
        exact areNumbers
    | changeBounds vars lowers uppers =>
        exact areNumbers
    | changeSides rows lefts rights =>
        exact
          forall_mem_replaced
            (fun row (sides : α × α) => LinearRow.withSides row sides.1 sides.2)
            (fun _ _ areNumbers => areNumbers) areNumbers
            (rows.zip (lefts.zip rights))
    | clear =>
        exact fun _ member => absurd member List.not_mem_nil
  · exact areNumbers

variable
  {σ τ : Type}
  [Solver σ α]
  [OneVariableSolver τ α]

/-- The coefficients of the rows that a session holds are numbers. -/
theorem Session.Reachable.coefsAreNumbers
    {session : Session σ τ α}
    (reachable : session.Reachable) :
    ∀ row ∈ session.store.rows.toRows, ∀ coef ∈ row.coefs,
      Scalar.isNaN coef = false :=
  reachable.program_induction (motive := Program.CoefsAreNumbers)
    (fun _ member => absurd member List.not_mem_nil)
    fun sentinel _ change areNumbers =>
      Edit.applied_coefsAreNumbers areNumbers sentinel change

end Coefficients

namespace Workspace

variable {α : Type}

/--
The names that bounds give are those of stored rows, no two bounds name the same side
of the same row, and no row that is named is kept.
-/
structure NamesApart
    (rowCount : Nat)
    (work : Workspace α) : Prop where
  stored :
    ∀ var place index side,
      work.bounds.sourceAt var place = .row index side → index < rowCount
  once :
    ∀ first second firstPlace secondPlace index side,
      work.bounds.sourceAt first firstPlace = .row index side →
      work.bounds.sourceAt second secondPlace = .row index side →
      first = second ∧ firstPlace = secondPlace
  unkept :
    ∀ var place index side,
      work.bounds.sourceAt var place = .row index side →
      ∀ position, work.rows.positions[index]? ≠ some (some position)

/-- This is about the bounds and the kept rows of a workspace only. -/
theorem NamesApart.ofSame
    {rowCount : Nat}
    {work other : Workspace α}
    (apart : work.NamesApart rowCount)
    (sameBounds : other.bounds = work.bounds)
    (sameRows : other.rows = work.rows) :
    other.NamesApart rowCount where
  stored := by
    rw [sameBounds]
    exact apart.stored
  once := by
    rw [sameBounds]
    exact apart.once
  unkept := by
    rw [sameBounds, sameRows]
    exact apart.unkept

variable [Scalar α]

/-- After a pass with traced bounds, names are apart. -/
theorem namesApart_afterPass
    [SignArithmetic α]
    {rows : List (LinearRow α)}
    {sentinel : α}
    {settings : Settings α}
    {size seen : Nat}
    {start : Bounds α}
    {pass : RowPass α}
    (tracedPass :
      RowPass.TracedPass rows sentinel settings size start seen pass)
    (epsilonNonneg : 0 ≤ settings.epsilon)
    (areNumbers :
      ∀ row ∈ rows, ∀ coef ∈ row.coefs, Scalar.isNaN coef = false)
    (work : Workspace α) :
    (work.afterPass pass).NamesApart rows.length := by
  refine ⟨?_, ?_, tracedPass.unkept⟩
  · intro var place index side isNoted
    obtain ⟨_, _, storedAt, _⟩ :=
      tracedPass.traced.noted var place index side isNoted
    exact (List.getElem?_eq_some_iff.mp storedAt).1
  · intro first second firstPlace secondPlace index side isFirst isSecond
    have sameVar : first = second :=
      tracedPass.traced.owned first second firstPlace secondPlace index side
        side isFirst isSecond
    subst second
    obtain ⟨row, coef, storedAt, implied⟩ :=
      tracedPass.traced.noted first firstPlace index side isFirst
    obtain ⟨sameRow, sameCoef, storedAgain, impliedAgain⟩ :=
      tracedPass.traced.noted first secondPlace index side isSecond
    rw [storedAt, Option.some.injEq] at storedAgain
    subst sameRow
    have oneTerm :=
      implied.onlyFree.once.symm.trans impliedAgain.onlyFree.once
    simp only [List.cons.injEq, Prod.mk.injEq, true_and, and_true] at oneTerm
    subst sameCoef
    have isTerm := List.mem_filter.mp implied.onlyFree.mem_significantTerms
    have signed : 0 < coef ↔ ¬ coef < 0 :=
      SignArithmetic.pos_iff_not_neg epsilonNonneg
        (areNumbers row (List.mem_of_getElem? storedAt) coef
          (List.of_mem_zip isTerm.1).2)
        (by simpa using isTerm.2)
    exact
      ⟨rfl,
        BoundEnd.eq_of_side signed
          (implied.side_eq.symm.trans impliedAgain.side_eq)⟩

/-- The workspace after a number of runs of presolve, started from the stored bounds. -/
def afterRuns
    (work : Workspace α)
    (store : Store α)
    (sentinel : α)
    (settings : Settings α) :
    Nat → Workspace α
  | 0 => work.reset store settings
  | count + 1 =>
      ((work.afterRuns store sentinel settings count).propagate store sentinel
        settings).1

variable {store : Store α}

/-- Runs leave traced bounds. -/
theorem afterRuns_traced
    (sound : store.Sound)
    (work : Workspace α)
    (sentinel : α)
    (settings : Settings α)
    (count : Nat) :
    let bounds := (work.afterRuns store sentinel settings count).bounds
    bounds.Sized store.variableCount ∧
      bounds.Traced store.rows.toRows sentinel settings
        (Bounds.ofStored store.lower store.upper) := by
  induction count with
  | zero =>
      exact
        ⟨Checked.reset_sized sound.wellFormed work settings,
          Bounds.Traced.ofStored store.rows.toRows sentinel settings
            store.lower store.upper⟩
  | succ count inductionHypothesis =>
      obtain ⟨sized, traced⟩ := inductionHypothesis
      obtain ⟨_, tracedPass⟩ :=
        RowPass.propagate_traced sized traced sound.known
      exact ⟨tracedPass.sized, tracedPass.traced⟩

/-- After every run, with or without a contradiction, names are apart. -/
theorem namesApart_afterRuns
    [SignArithmetic α]
    {settings : Settings α}
    (sound : store.Sound)
    (epsilonNonneg : 0 ≤ settings.epsilon)
    (areNumbers :
      ∀ row ∈ store.rows.toRows, ∀ coef ∈ row.coefs,
        Scalar.isNaN coef = false)
    (work : Workspace α)
    (sentinel : α)
    (count : Nat) :
    (work.afterRuns store sentinel settings (count + 1)).NamesApart
      store.rows.rowCount := by
  obtain ⟨sized, traced⟩ := afterRuns_traced sound work sentinel settings count
  obtain ⟨_, tracedPass⟩ := RowPass.propagate_traced sized traced sound.known
  have apart :=
    namesApart_afterPass tracedPass epsilonNonneg areNumbers
      (work.afterRuns store sentinel settings count)
  have sameCount : store.rows.toRows.length = store.rows.rowCount := by
    have sameLength : store.rows.rights.length = store.rows.lefts.length :=
      sound.wellFormed.rows.rightCount
    simp [RowTable.toRows, RowTable.rowCount, sameLength]
  rw [← sameCount]
  exact apart

end Workspace

end SdpRelay
