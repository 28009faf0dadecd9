import SdpRelay.Proofs.BoundSources
import SdpRelay.Proofs.CheckedBlocks
import SdpRelay.Proofs.PassCourse

namespace SdpRelay

/-!
# What the sources of bounds say over an exact field

Over an exact field a noted bound can be computed from its note: it is the named side
minus what the other, fixed variables contribute, divided by the coefficient.  There
is one exception.  Without a side to take it from, a row implies the sentinel as a
bound, and a stored bound may lie beyond the sentinel.  Then the sentinel is the
better bound, and the note names a side that is no constraint.
-/

namespace BoundEnd

variable {K : Type} [ExactField K]

/-- The bound that stands for no bound. -/
def unbounded
    (sentinel : K) :
    BoundEnd → K
  | .lower => -sentinel
  | .upper => sentinel

/-- A better bound than a good one is a better bound than a worse one. -/
theorem Improves.mono
    {place : BoundEnd}
    {epsilon new : K}
    {outer inner : Bounds K}
    {var : Nat}
    (encloses : outer.Encloses inner)
    (improves : place.Improves epsilon (inner.valueAt var place) new) :
    place.Improves epsilon (outer.valueAt var place) new := by
  cases place with
  | lower =>
      have wider := encloses.lower var
      simp only [Improves, Bounds.valueAt] at improves ⊢
      linarith
  | upper =>
      have wider := encloses.upper var
      simp only [Improves, Bounds.valueAt] at improves ⊢
      linarith

/-- The implied bound is that of the side next to it, if this is a constraint. -/
theorem implied_eq
    {coef : K}
    (nonzero : coef ≠ 0)
    (sentinel : K)
    (sides : Side → K)
    (place : BoundEnd) :
    place.implied sentinel coef (sides .left) (sides .right) =
      if |sides (place.side coef)| < sentinel then
        sides (place.side coef) / coef
      else
        place.unbounded sentinel := by
  rcases lt_or_gt_of_ne nonzero with negative | positive
  · cases place <;>
      simp [implied, side, unbounded, Bounds.impliedLower,
        Bounds.impliedUpper, negative, not_lt.mpr negative.le]
  · cases place <;>
      simp [implied, side, unbounded, Bounds.impliedLower,
        Bounds.impliedUpper, positive, not_lt.mpr positive.le]

end BoundEnd

namespace RowPass

variable
  {K : Type}
  [ExactField K]
  {sentinel : K}
  {settings : Settings K}
  {bounds : Bounds K}
  {row : LinearRow K}
  {var : Nat}
  {coef : K}

/-- A side of a row minus the contribution of the other variables. -/
def remainder
    (settings : Settings K)
    (bounds : Bounds K)
    (row : LinearRow K)
    (var : Nat)
    (side : Side) :
    K :=
  row.side side - termsValue (otherTerms settings row var) bounds.lowerAt

/-- A side without the other variables is the remainder, or the sentinel. -/
theorem sideFor_eq_remainder
    (sentinel : K)
    (settings : Settings K)
    (bounds : Bounds K)
    (row : LinearRow K)
    (var : Nat)
    (side : Side) :
    if |row.side side| < sentinel then
      sideFor sentinel settings bounds row var side =
        remainder settings bounds row var side
    else
      sentinel ≤ |sideFor sentinel settings bounds row var side| := by
  split
  · rename_i finite
    rw [sideFor, shiftSide_of_finite finite, value_contribution, remainder]
  · rename_i infinite
    rw [sideFor, shiftSide_of_infinite (not_lt.mp infinite)]
    have sameMagnitude : |side.unbounded sentinel| = |sentinel| := by
      cases side <;> simp [Side.unbounded]
    rw [sameMagnitude]
    exact le_abs_self sentinel

/-- The bound that a row implies on its only free variable, in terms of the remainder. -/
theorem implied_eq_remainder
    (nonzero : coef ≠ 0)
    (sentinel : K)
    (settings : Settings K)
    (bounds : Bounds K)
    (row : LinearRow K)
    (var : Nat)
    (place : BoundEnd) :
    place.implied sentinel coef
        (sideFor sentinel settings bounds row var .left)
        (sideFor sentinel settings bounds row var .right) =
      if |row.side (place.side coef)| < sentinel ∧
          |remainder settings bounds row var (place.side coef)| <
            sentinel then
        remainder settings bounds row var (place.side coef) / coef
      else
        place.unbounded sentinel := by
  have shifted :=
    sideFor_eq_remainder sentinel settings bounds row var (place.side coef)
  rw [BoundEnd.implied_eq nonzero sentinel
    (sideFor sentinel settings bounds row var)]
  by_cases finite : |row.side (place.side coef)| < sentinel
  · rw [if_pos finite] at shifted
    simp only [finite, true_and, shifted]
  · rw [if_neg finite] at shifted
    rw [if_neg (not_lt.mpr shifted), if_neg fun both => finite both.1]

theorem OnlyFree.epsilon_lt
    (onlyFree : OnlyFree settings bounds row var coef) :
    settings.epsilon < |coef| := by
  have significant := onlyFree.mem_significantTerms
  simpa [significantTerms] using (List.mem_filter.mp significant).2

/--
What is known about bounds in a run from given ones: they lie inside those, and a
noted bound is better than the one at the start by more than `epsilon`.
-/
structure Improved
    (settings : Settings K)
    (size : Nat)
    (start bounds : Bounds K) : Prop where
  sized : bounds.Sized size
  encloses : start.Encloses bounds
  noted :
    ∀ var place index side,
      bounds.sourceAt var place = .row index side →
      place.Improves settings.epsilon (start.valueAt var place)
        (bounds.valueAt var place)

/-- Every visit keeps this. -/
theorem Improved.visitRow
    {size : Nat}
    {start : Bounds K}
    {pass : RowPass K}
    (improved : Improved settings size start pass.bounds)
    (epsilonNonneg : 0 ≤ settings.epsilon)
    (integral : List Bool)
    (index : Nat)
    (inRange : ∀ var ∈ row.vars, var < size) :
    Improved settings size start
      (pass.visitRow sentinel settings integral index row).bounds := by
  have sized := improved.sized
  rcases visitRow_bounds pass sentinel settings integral index row with
    same | ⟨var, coef, oneTerm, tightened⟩
  · rw [same]
    exact improved
  · have isOpen : (var, coef) ∈ openTerms settings pass.bounds row := by
      simp [oneTerm]
    have inside :=
      inRange var (List.of_mem_zip (mem_openTerms isOpen).1).1
    rw [tightened]
    refine
      ⟨(Checked.tightenBounds_eq sized inside _ _ _ _ _ _).2,
        improved.encloses.trans
          (Bounds.encloses_tighten index epsilonNonneg
            (sized.upper.trans sized.lower.symm)
            (by rw [sized.lower]; exact inside)), ?_⟩
    intro other place named side isNoted
    rcases
        Bounds.tighten_cases sized inside sentinel settings.epsilon index coef
          (sideFor sentinel settings pass.bounds row var .left)
          (sideFor sentinel settings pass.bounds row var .right)
          other place with
      ⟨sameValue, sameSource⟩ | ⟨_, value, _, improves⟩
    · rw [sameValue]
      exact improved.noted other place named side (sameSource.symm.trans isNoted)
    · rw [value]
      exact improves.mono improved.encloses

/-- Bounds as they are before presolve. -/
theorem Improved.refl
    {size : Nat}
    {lower upper : List K}
    (sized : (Bounds.ofStored lower upper).Sized size) :
    Improved settings size (Bounds.ofStored lower upper)
      (Bounds.ofStored lower upper) where
  sized := sized
  encloses := Bounds.Encloses.refl _
  noted var place index side isNoted := by
    rw [Bounds.sourceAt_ofStored] at isNoted
    cases isNoted

/-- What the note of a bound says, if the bound is traced and improved. -/
theorem ImpliedBy.value_eq
    {start : Bounds K}
    {size index : Nat}
    {place : BoundEnd}
    {side : Side}
    (implied : ImpliedBy sentinel settings bounds row var place side coef)
    (improved : Improved settings size start bounds)
    (epsilonNonneg : 0 ≤ settings.epsilon)
    (isNoted : bounds.sourceAt var place = .row index side) :
    if |row.side side| < sentinel ∧
        |remainder settings bounds row var side| < sentinel then
      bounds.valueAt var place = remainder settings bounds row var side / coef
    else
      bounds.valueAt var place = place.unbounded sentinel ∧
        place.Improves settings.epsilon (start.valueAt var place)
          (place.unbounded sentinel) := by
  have nonzero : coef ≠ 0 :=
    abs_pos.mp (epsilonNonneg.trans_lt implied.onlyFree.epsilon_lt)
  have value := implied.value
  rw [implied_eq_remainder nonzero, ← implied.side_eq] at value
  have improves := improved.noted var place index side isNoted
  split
  · rename_i finite
    rwa [if_pos finite] at value
  · rename_i infinite
    rw [if_neg infinite] at value
    rw [value] at improves
    exact ⟨value, improves⟩

/-- A side that is no constraint changes a bound if the bound lies beyond the sentinel. -/
theorem tighten_by_infinite_side
    {size : Nat}
    {place : BoundEnd}
    (sized : bounds.Sized size)
    (inside : var < size)
    (index : Nat)
    (epsilonNonneg : 0 ≤ settings.epsilon)
    (oneTerm : openTerms settings bounds row = [(var, coef)])
    (infinite : sentinel ≤ |row.side (place.side coef)|) :
    (bounds.tighten sentinel settings.epsilon index var coef
          (openLeft sentinel settings bounds row)
          (openRight sentinel settings bounds row)).1.valueAt var place ≠
        bounds.valueAt var place ↔
      place.Improves settings.epsilon (bounds.valueAt var place)
        (place.unbounded sentinel) := by
  have isOpen : (var, coef) ∈ openTerms settings bounds row := by
    simp [oneTerm]
  have nonzero : coef ≠ 0 := openTerm_nonzero epsilonNonneg isOpen
  have implied :=
    implied_eq_remainder nonzero sentinel settings bounds row var place
  rw [if_neg fun finite => not_lt.mpr infinite finite.1] at implied
  obtain ⟨sameLeft, sameRight⟩ := openSides_of_single oneTerm sentinel
  rw [sameLeft, sameRight,
    Bounds.valueAt_tighten sized inside sentinel settings.epsilon index,
    implied]
  split
  · rename_i improves
    refine iff_of_true ?_ improves
    intro same
    rw [same] at improves
    cases place <;> simp only [BoundEnd.Improves] at improves <;> linarith
  · rename_i notBetter
    exact iff_of_false (fun differs => differs rfl) notBetter

end RowPass

namespace Workspace

open RowPass

variable {K : Type} [ExactField K]

/--
What the sources of the working bounds say after presolve of a loaded problem, with or
without a contradiction.

A bound that is noted as stored is the stored one.  A bound that is noted as taken
from a side of a row is better than the stored one, the variable stands once in that
row, and the other significant variables of the row are fixed.  If the side is a
constraint, before and after the others are subtracted from it, the bound is the
remainder divided by the coefficient; otherwise it is the sentinel, and the stored
bound lies beyond that.

At a visit, a side that is no constraint changes a bound exactly if the bound lies
beyond the sentinel by more than `epsilon`.  Then the stored bound does so, too.
-/
theorem propagate_bound_sources
    {store : Store K}
    {program : Program K}
    {sentinel : K}
    (settings : Settings K)
    (work : Workspace K)
    (loaded : Store.load sentinel program = .ok store)
    (epsilonNonneg : 0 ≤ settings.epsilon) :
    let stored := Bounds.ofStored store.lower store.upper
    let swept :=
      ((work.reset store settings).propagate store sentinel
        settings).1.bounds
    (∀ var place, swept.sourceAt var place = .stored →
      swept.valueAt var place = stored.valueAt var place) ∧
    (∀ var place index side, swept.sourceAt var place = .row index side →
      ∃ row coef,
        store.rows.toRows[index]? = some row ∧
          OnlyFree settings swept row var coef ∧
          settings.epsilon < |coef| ∧
          side = place.side coef ∧
          place.Improves settings.epsilon (stored.valueAt var place)
            (swept.valueAt var place) ∧
          if |row.side side| < sentinel ∧
              |remainder settings swept row var side| < sentinel then
            swept.valueAt var place =
              remainder settings swept row var side / coef
          else
            swept.valueAt var place = place.unbounded sentinel ∧
              place.Improves settings.epsilon (stored.valueAt var place)
                (place.unbounded sentinel)) ∧
    ∀ visit ∈ propagateVisits store sentinel settings,
      ∀ var coef, openTerms settings visit.1 visit.2 = [(var, coef)] →
      ∀ index place, sentinel ≤ |visit.2.side (place.side coef)| →
        let after :=
          (visit.1.tighten sentinel settings.epsilon index var coef
            (openLeft sentinel settings visit.1 visit.2)
            (openRight sentinel settings visit.1 visit.2)).1
        (after.valueAt var place ≠ visit.1.valueAt var place ↔
            place.Improves settings.epsilon (visit.1.valueAt var place)
              (place.unbounded sentinel)) ∧
          (after.valueAt var place ≠ visit.1.valueAt var place →
            place.Improves settings.epsilon (stored.valueAt var place)
              (place.unbounded sentinel)) := by
  intro stored swept
  obtain ⟨acceptable, isStore⟩ := Store.load_eq_ok.mp loaded
  have represents := Store.ofProgram_represents acceptable
  rw [isStore] at represents
  have inRange := Store.inRange_of_load loaded
  have atStart :
      Improved settings store.variableCount stored stored :=
    Improved.refl (Checked.reset_sized represents.wellFormed work settings)
  have inRun :
      Improved settings store.variableCount stored swept ∧
        ∀ visit ∈ propagateVisits store sentinel settings,
          visit.2 ∈ store.rows.toRows ∧
            Improved settings store.variableCount stored visit.1 :=
    repeatedVisits_all (store.lower.length + 1) (RowPass.atStart stored)
      (fun index _ row member improved =>
        Improved.visitRow improved epsilonNonneg store.integral index
          (inRange row member))
      atStart
  obtain ⟨improved, visits⟩ := inRun
  have traced :
      swept.Traced store.rows.toRows sentinel settings stored := by
    obtain ⟨_, tracedPass⟩ :=
      propagate_traced atStart.sized
        (Bounds.Traced.ofStored store.rows.toRows sentinel settings
          store.lower store.upper)
        inRange
    exact tracedPass.traced
  refine ⟨traced.untouched, ?_, ?_⟩
  · intro var place index side isNoted
    obtain ⟨row, coef, storedAt, implied⟩ :=
      traced.noted var place index side isNoted
    exact
      ⟨row, coef, storedAt, implied.onlyFree, implied.onlyFree.epsilon_lt,
        implied.side_eq, improved.noted var place index side isNoted,
        implied.value_eq improved epsilonNonneg isNoted⟩
  · intro visit member var coef oneTerm index place infinite after
    obtain ⟨inRows, visitImproved⟩ := visits visit member
    have isOpen : (var, coef) ∈ openTerms settings visit.1 visit.2 := by
      simp [oneTerm]
    have inside :=
      inRange visit.2 inRows var (List.of_mem_zip (mem_openTerms isOpen).1).1
    have changes :=
      tighten_by_infinite_side visitImproved.sized inside index epsilonNonneg
        oneTerm infinite
    exact
      ⟨changes, fun differs =>
        (changes.mp differs).mono visitImproved.encloses⟩

/-- After the fixing row has fixed the other variable, an upper bound is that of the first row. -/
theorem fixingProgram_bound_source :
    let store := Store.ofProgram fixingProgram
    let swept :=
      ((Workspace.empty.reset store Settings.standard).propagate store
        Session.standardSentinel Settings.standard).1.bounds
    swept.sourceAt 0 .upper = .row 0 .right ∧
      ∃ row coef,
        store.rows.toRows[0]? = some row ∧
          OnlyFree Settings.standard swept row 0 coef ∧
          swept.valueAt 0 .upper =
            remainder Settings.standard swept row 0 .right / coef := by
  intro store swept
  have loaded :
      Store.load Session.standardSentinel fixingProgram = .ok store :=
    Store.load_eq_ok.mpr ⟨by decide +kernel, rfl⟩
  have isNoted : swept.sourceAt 0 .upper = .row 0 .right := by decide +kernel
  obtain ⟨row, coef, storedAt, onlyFree, _, _, _, value⟩ :=
    (propagate_bound_sources Settings.standard Workspace.empty loaded
      (by decide +kernel)).2.1 0 .upper 0 .right isNoted
  have firstRow :
      store.rows.toRows[0]? =
        some { left := 1, right := 4, vars := [0, 1], coefs := [1, 1] } := by
    decide +kernel
  have isRow := Option.some.inj (storedAt.symm.trans firstRow)
  refine ⟨isNoted, row, coef, storedAt, onlyFree, ?_⟩
  rw [if_pos] at value
  · exact value
  · rw [isRow]
    decide +kernel

/-- A program with an upper bound beyond the sentinel, and a row without a right side. -/
def flooredProgram : Program ℚ :=
  {
    objective := [0]
    lower := [0]
    upper := [2e20]
    integral := none
    blocks := []
    rows := [{ left := 1, right := 1e20, vars := [0], coefs := [1] }]
  }

/--
The row replaces the upper bound by the sentinel and notes its right side as the
source, which is no constraint.
-/
theorem flooredProgram_bound_source :
    let store := Store.ofProgram flooredProgram
    let swept :=
      (Workspace.empty.reset store Settings.standard).propagate store
        Session.standardSentinel Settings.standard
    Store.load Session.standardSentinel flooredProgram = .ok store ∧
      (0 : ℚ) ≤ Settings.standard.epsilon ∧
      swept.2.infeasible = false ∧
      swept.2.changedBounds = 2 ∧
      swept.1.bounds.sourceAt 0 .upper = .row 0 .right ∧
      swept.1.bounds.valueAt 0 .upper = 1e20 ∧
      ∀ row, store.rows.toRows[0]? = some row →
        ¬ |row.side .right| < Session.standardSentinel := by
  refine
    ⟨Store.load_eq_ok.mpr ⟨by decide +kernel, rfl⟩, by decide +kernel,
      by decide +kernel, by decide +kernel, by decide +kernel,
      by decide +kernel, ?_⟩
  intro row storedAt
  have onlyRow :
      (Store.ofProgram flooredProgram).rows.toRows[0]? =
        some { left := 1, right := 1e20, vars := [0], coefs := [1] } := by
    decide +kernel
  rw [← Option.some.inj (onlyRow.symm.trans storedAt)]
  decide +kernel

end Workspace

end SdpRelay
