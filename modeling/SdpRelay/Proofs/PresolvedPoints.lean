import Mathlib
import SdpRelay.Proofs.PresolveFeasibility
import SdpRelay.Session.Basic

namespace SdpRelay

/-!
# Points before and after presolve

The two directions of `PresolveFeasibility` for a workspace that is reset to a
loaded problem and propagated.  Without integral variables the points of the
stored problem and of the presolved one are the same up to the tolerances.  With
integral variables no integral point leaves the bounds, and the kept rows hold at
it as long as tightening meets whole bounds; a fractional bound from a row with
one variable can make tightening cut off an integral point.
-/

section Decisions

variable {K : Type} [ExactField K]

instance
    (sentinel : K)
    (settings : Settings K)
    (bounds : Bounds K)
    (row : LinearRow K) :
    Decidable (RegularVisit sentinel settings bounds row) :=
  decidable_of_iff
    ((bounds.reach sentinel row.terms + row.sidesReach sentinel +
          settings.epsilon < sentinel) ∧
      (∀ coef ∈ row.coefs, coef = 0 ∨ settings.epsilon < |coef|) ∧
      ∀ var, var < bounds.lower.length →
        ¬ (0 < bounds.upperAt var - bounds.lowerAt var ∧
            bounds.upperAt var - bounds.lowerAt var ≤ settings.epsilon))
    ⟨fun ⟨far, coefs, apart⟩ => ⟨far, coefs, apart⟩,
      fun regular => ⟨regular.farFromSentinel, regular.coefs, regular.apart⟩⟩

instance
    (store : Store K)
    (sentinel : K)
    (settings : Settings K) :
    Decidable (Presolvable.RegularRun store sentinel settings) :=
  inferInstanceAs (Decidable (∀ visit ∈ _, _))

instance
    (bounds : Bounds K)
    (point : Nat → K) :
    Decidable (bounds.Contains point) :=
  inferInstanceAs (Decidable (∀ var, var < _ → _))

instance
    (sentinel slack : K)
    (row : LinearRow K)
    (point : Nat → K) :
    Decidable (row.HoldsUpTo sentinel slack point) :=
  inferInstanceAs (Decidable (_ ∧ _))

instance
    (sentinel : K)
    (row : LinearRow K)
    (point : Nat → K) :
    Decidable (row.Holds sentinel point) :=
  inferInstanceAs (Decidable (row.HoldsUpTo sentinel 0 point))

instance (x : ℚ) : Decidable (IsWhole x) :=
  decidable_of_iff (x.den = 1)
    ⟨fun denOne => ⟨x.num, Rat.coe_int_num_of_den_eq_one denOne⟩,
      fun ⟨whole, same⟩ => same ▸ Rat.den_intCast whole⟩

instance
    (store : Store ℚ)
    (sentinel : ℚ)
    (settings : Settings ℚ) :
    Decidable (Presolvable.WholeRun store sentinel settings) :=
  inferInstanceAs
    (Decidable (∀ visit ∈ _, _ → ∀ term ∈ _, term ∉ _ → (_ → _ → IsWhole _) ∧ _))

end Decisions

open Presolvable

/-- Flags that are all false are false wherever they are looked up. -/
theorem getD_of_all_false
    {flags : List Bool}
    (allFalse : ∀ flag ∈ flags, flag = false)
    (var : Nat) :
    flags.getD var false = false := by
  rw [List.getD_eq_getElem?_getD]
  cases found : flags[var]? with
  | none =>
      rfl
  | some flag =>
      exact allFalse flag (List.mem_of_getElem? found)

/-- Without integral variables every visit is safe. -/
theorem wholeRun_of_continuous
    {K : Type}
    [ExactField K]
    {store : Store K}
    (sentinel : K)
    (settings : Settings K)
    (continuous : ∀ var, store.integral.getD var false = false) :
    WholeRun store sentinel settings := by
  intro visit _ _ term member changed
  have unchanged :=
    RowBox.tighten_of_continuous
      (RowPass.visitBox sentinel settings store.integral visit.1)
      (RowPass.openTerms settings visit.1 visit.2)
      (RowPass.openLeft sentinel settings visit.1 visit.2)
      (RowPass.openRight sentinel settings visit.1 visit.2)
      (fun openTerm _ => continuous openTerm.1)
  rw [unchanged] at changed
  exact absurd member changed

/--
Presolve of a loaded problem without integral variables keeps its points: a point
that satisfies the stored problem is inside the final bounds and satisfies the
kept rows, and no contradiction is found; conversely a point inside the final
bounds that satisfies the kept rows satisfies the stored bounds, and the stored
rows up to what the tolerances leave over.
-/
theorem propagate_preserves_points
    {K : Type}
    [ExactField K]
    {sentinel : K}
    {program : Program K}
    {store : Store K}
    (settings : Settings K)
    (point : Nat → K)
    (work : Workspace K)
    (loaded : Store.load sentinel program = .ok store)
    (continuous : ∀ flag ∈ store.integral, flag = false)
    (epsilonNonneg : 0 ≤ settings.epsilon)
    (toleranceNonneg : 0 ≤ settings.feasTolerance)
    (regular : RegularRun store sentinel settings)
    (within : ∀ var, var < store.lower.length → |point var| < sentinel) :
    let final :=
      (work.reset store settings).propagate store sentinel settings
    ((storedBounds store).Contains point →
        (∀ row ∈ store.rows.toRows, row.Holds sentinel point) →
        final.2.infeasible = false ∧
          final.1.bounds.Contains point ∧
          ∀ row ∈ final.1.rows.table.toRows, row.Holds sentinel point) ∧
      (final.2.infeasible = false →
        final.1.bounds.Contains point →
        (∀ row ∈ final.1.rows.table.toRows, row.Holds sentinel point) →
        (storedBounds store).Contains point ∧
          ∀ row ∈ store.rows.toRows,
            row.HoldsUpTo sentinel
              (RowPass.leftover settings final.1.bounds row) point) := by
  have presolvable : Presolvable store sentinel settings :=
    Presolvable.of_load loaded epsilonNonneg toleranceNonneg
  have noneIntegral := getD_of_all_false continuous
  intro final
  constructor
  · intro inside holds
    obtain ⟨feasible, finalInside, _, _⟩ :=
      presolvable.propagate_inside regular within inside holds
    have integralPoint : IntegralPoint store.integral point := by
      intro var isIntegral
      rw [noneIntegral var] at isIntegral
      cases isIntegral
    refine ⟨feasible, finalInside, ?_⟩
    exact
      (presolvable.keptRows_hold_iff regular within inside holds).mpr
        (presolvable.covered_of_whole regular within inside holds integralPoint
          (wholeRun_of_continuous sentinel settings noneIntegral))
  · intro feasible finalInside keptHold
    exact
      presolvable.propagate_recovers regular within noneIntegral feasible
        finalInside keptHold

/-- A program whose second row fixes a variable of the other two rows. -/
def fixingProgram : Program ℚ :=
  {
    objective := [1, 1, 1]
    lower := [0, 0, 0]
    upper := [10, 10, 10]
    integral := none
    blocks := []
    rows :=
      [
        { left := 1, right := 4, vars := [0, 1], coefs := [1, 1] },
        { left := 4, right := 4, vars := [1], coefs := [2] },
        { left := -1e20, right := 9, vars := [0, 1, 2], coefs := [1, 1, 1] }
      ]
  }

/-- A point that satisfies the program with the fixing row. -/
def fixingPoint (var : Nat) : ℚ :=
  [1, 2, 3].getD var 0

/--
Two passes over the program with the fixing row keep its point in both directions.
-/
theorem propagate_preserves_fixingPoint :
    let store := Store.ofProgram fixingProgram
    let final :=
      (Workspace.empty.reset store Settings.standard).propagate store
        Session.standardSentinel Settings.standard
    (final.2.infeasible = false ∧
        final.1.bounds.Contains fixingPoint ∧
        ∀ row ∈ final.1.rows.table.toRows,
          row.Holds Session.standardSentinel fixingPoint) ∧
      (storedBounds store).Contains fixingPoint ∧
      ∀ row ∈ store.rows.toRows,
        row.HoldsUpTo Session.standardSentinel
          (RowPass.leftover Settings.standard final.1.bounds row)
          fixingPoint := by
  intro store final
  have loaded :
      Store.load Session.standardSentinel fixingProgram = .ok store :=
    Store.load_eq_ok.mpr ⟨by decide +kernel, rfl⟩
  obtain ⟨forward, backward⟩ :=
    propagate_preserves_points Settings.standard fixingPoint Workspace.empty
      loaded (by decide +kernel) (by decide +kernel) (by decide +kernel)
      (by decide +kernel) (by decide +kernel)
  have kept := forward (by decide +kernel) (by decide +kernel)
  exact ⟨kept, backward kept.1 kept.2.1 kept.2.2⟩

/--
Presolve of a loaded problem keeps every integral point of the stored problem
inside the final bounds and finds no contradiction.  The kept rows hold at the
point exactly if each of them has room for what tightening took from it there;
they do if, in the last pass, tightening changed only coefficients of variables
with whole bounds.
-/
theorem propagate_keeps_integral_points
    {K : Type}
    [ExactField K]
    {sentinel : K}
    {program : Program K}
    {store : Store K}
    (settings : Settings K)
    (point : Nat → K)
    (work : Workspace K)
    (loaded : Store.load sentinel program = .ok store)
    (epsilonNonneg : 0 ≤ settings.epsilon)
    (toleranceNonneg : 0 ≤ settings.feasTolerance)
    (regular : RegularRun store sentinel settings)
    (within : ∀ var, var < store.lower.length → |point var| < sentinel)
    (integralPoint : IntegralPoint store.integral point)
    (inside : (storedBounds store).Contains point)
    (holds : ∀ row ∈ store.rows.toRows, row.Holds sentinel point) :
    let final :=
      (work.reset store settings).propagate store sentinel settings
    final.2.infeasible = false ∧
      final.1.bounds.Contains point ∧
      ((∀ row ∈ final.1.rows.table.toRows, row.Holds sentinel point) ↔
        CoveredRun store sentinel settings point) ∧
      (WholeRun store sentinel settings →
        ∀ row ∈ final.1.rows.table.toRows, row.Holds sentinel point) := by
  have presolvable : Presolvable store sentinel settings :=
    Presolvable.of_load loaded epsilonNonneg toleranceNonneg
  intro final
  obtain ⟨feasible, finalInside, _, _⟩ :=
    presolvable.propagate_inside regular within inside holds
  have keptHold_iff :=
    presolvable.keptRows_hold_iff regular within inside holds
  refine ⟨feasible, finalInside, keptHold_iff, ?_⟩
  intro whole
  exact
    keptHold_iff.mpr
      (presolvable.covered_of_whole regular within inside holds integralPoint
        whole)

/--
A program with an integral variable and a continuous one: its first row bounds
the double of the integral variable, its second row can be tightened.
-/
def cappedProgram (cap coef : ℚ) : Program ℚ :=
  {
    objective := [0, 0]
    lower := [0, 0]
    upper := [10, 10]
    integral := some [true, false]
    blocks := []
    rows :=
      [
        { left := -1e20, right := cap, vars := [0], coefs := [2] },
        { left := -1e20, right := 13, vars := [0, 1], coefs := [coef, 1] }
      ]
  }

/--
A point that gives one to the integral variable and a whole number to the other
one.
-/
def cappedPoint (other : ℤ) (var : Nat) : ℚ :=
  (([1, other].getD var 0 : ℤ) : ℚ)

/-- If the cap gives a whole bound, the tightened row keeps an integral point. -/
theorem propagate_keeps_cappedPoint :
    let store := Store.ofProgram (cappedProgram 2 8)
    let final :=
      (Workspace.empty.reset store Settings.standard).propagate store
        Session.standardSentinel Settings.standard
    final.2.infeasible = false ∧
      final.1.bounds.Contains (cappedPoint 5) ∧
      final.1.rows.table.toRows =
        [{ left := -1e20, right := 10, vars := [0, 1], coefs := [5, 1] }] ∧
      ∀ row ∈ final.1.rows.table.toRows,
        row.Holds Session.standardSentinel (cappedPoint 5) := by
  intro store final
  have loaded :
      Store.load Session.standardSentinel (cappedProgram 2 8) = .ok store :=
    Store.load_eq_ok.mpr ⟨by decide +kernel, rfl⟩
  obtain ⟨feasible, inside, _, keptHold⟩ :=
    propagate_keeps_integral_points Settings.standard (cappedPoint 5)
      Workspace.empty loaded (by decide +kernel) (by decide +kernel)
      (by decide +kernel) (by decide +kernel) (fun _ _ => ⟨_, rfl⟩)
      (by decide +kernel) (by decide +kernel)
  exact ⟨feasible, inside, by decide +kernel, keptHold (by decide +kernel)⟩

/--
If the cap gives a fractional bound, the tightened row cuts off an integral point.
-/
theorem propagate_cuts_off_cappedPoint :
    let store := Store.ofProgram (cappedProgram 3 4)
    let final :=
      (Workspace.empty.reset store Settings.standard).propagate store
        Session.standardSentinel Settings.standard
    Store.load Session.standardSentinel (cappedProgram 3 4) = .ok store ∧
      RegularRun store Session.standardSentinel Settings.standard ∧
      (∀ var, var < store.lower.length →
        |cappedPoint 9 var| < Session.standardSentinel) ∧
      IntegralPoint store.integral (cappedPoint 9) ∧
      (storedBounds store).Contains (cappedPoint 9) ∧
      (∀ row ∈ store.rows.toRows,
        row.Holds Session.standardSentinel (cappedPoint 9)) ∧
      ¬ ∀ row ∈ final.1.rows.table.toRows,
        row.Holds Session.standardSentinel (cappedPoint 9) := by
  refine
    ⟨Store.load_eq_ok.mpr ⟨by decide +kernel, rfl⟩, by decide +kernel,
      by decide +kernel, fun _ _ => ⟨_, rfl⟩, by decide +kernel,
      by decide +kernel, by decide +kernel⟩

end SdpRelay
