import Mathlib
import SdpRelay.Proofs.PresolveFeasibility

namespace SdpRelay

/-!
# Settled rows

A row is settled at given bounds if a visit finds nothing new in it: a row without
free terms is not violated, and a row with one free term implies no better bounds
than its variable has, up to `epsilon`.

A pass that fixes nothing settles every row that it visits, and leaves settled the
rows that it visited before: bounds only get tighter, and the rows are classified in
the same way all through the pass.  In a pass over settled rows nothing happens to
the bounds.
-/

/-- A row that implies no better bounds leaves them alone. -/
theorem Bounds.tighten_of_not_better
    {α : Type}
    [Scalar α]
    {bounds : Bounds α}
    {sentinel epsilon : α}
    {var : Nat}
    {coef left right : α}
    (row : Nat)
    (lower :
      ¬ bounds.lowerAt var + epsilon < impliedLower sentinel coef left right)
    (upper :
      ¬ impliedUpper sentinel coef left right < bounds.upperAt var - epsilon) :
    bounds.tighten sentinel epsilon row var coef left right = (bounds, 0) := by
  simp only [tighten, raiseLower, if_neg lower, dropUpper, if_neg upper]

namespace RowPass

section Settled

variable {α : Type} [Scalar α]

/-- The bounds of a variable have all that the row `left ≤ coef * y_var ≤ right` can give. -/
structure SettledTerm
    (sentinel : α)
    (settings : Settings α)
    (bounds : Bounds α)
    (var : Nat)
    (coef left right : α) : Prop where
  lower :
    ¬ bounds.lowerAt var + settings.epsilon <
      Bounds.impliedLower sentinel coef left right
  upper :
    ¬ Bounds.impliedUpper sentinel coef left right <
      bounds.upperAt var - settings.epsilon
  consistent :
    ¬ bounds.upperAt var + settings.feasTolerance < bounds.lowerAt var

/-- A visit finds nothing new in a row. -/
structure Settled
    (sentinel : α)
    (settings : Settings α)
    (bounds : Bounds α)
    (row : LinearRow α) : Prop where
  closed :
    openTerms settings bounds row = [] →
      ¬ (settings.feasTolerance < openLeft sentinel settings bounds row ∨
        openRight sentinel settings bounds row < -settings.feasTolerance)
  single :
    ∀ var coef, openTerms settings bounds row = [(var, coef)] →
      SettledTerm sentinel settings bounds var coef
        (openLeft sentinel settings bounds row)
        (openRight sentinel settings bounds row)

variable
  {sentinel : α}
  {settings : Settings α}
  {row : LinearRow α}

/-- A visit of a settled row keeps the bounds and finds neither a contradiction nor a fixing. -/
theorem Settled.visitRow
    {pass : RowPass α}
    (settled : Settled sentinel settings pass.bounds row)
    (integral : List Bool)
    (index : Nat) :
    ∃ changes,
      (pass.visitRow sentinel settings integral index row).bounds =
          pass.bounds ∧
        (pass.visitRow sentinel settings integral index row).summary =
          { pass.summary with changedCoefs := changes } := by
  rcases openTerms_cases settings pass.bounds row with
    noTerm | ⟨var, coef, oneTerm⟩ | severalTerms
  · rw [visitRow_of_none sentinel integral index noTerm]
    exact ⟨pass.summary.changedCoefs, rfl, if_neg (settled.closed noTerm)⟩
  · have isOpen : (var, coef) ∈ openTerms settings pass.bounds row := by
      simp [oneTerm]
    have isFree := (mem_openTerms isOpen).2.2
    have term := settled.single var coef oneTerm
    rw [visitRow_of_single sentinel integral index oneTerm]
    refine ⟨pass.summary.changedCoefs, ?_, ?_⟩
    · simp only [visitSingle,
        Bounds.tighten_of_not_better index term.lower term.upper]
    · simp only [visitSingle,
        Bounds.tighten_of_not_better index term.lower term.upper,
        if_neg term.consistent, if_neg isFree, Nat.add_zero]
  · rw [visitRow_of_several sentinel integral index severalTerms]
    exact ⟨_, rfl, rfl⟩

/-- Bounds between which the same variables are fixed, at the same values. -/
structure SameFixed
    (epsilon : α)
    (before after : Bounds α) : Prop where
  fixed : ∀ var, after.Fixed epsilon var ↔ before.Fixed epsilon var
  lower :
    ∀ var, before.Fixed epsilon var → after.lowerAt var = before.lowerAt var

theorem Progress.sameFixed
    {variableCount : Nat}
    {pass next : RowPass α}
    (progress : Progress settings variableCount pass next)
    (feasible : next.summary.infeasible = false)
    (fixesNothing : next.summary.fixedSome = false) :
    SameFixed settings.epsilon pass.bounds next.bounds where
  fixed := progress.fixed_iff feasible fixesNothing
  lower := progress.keepsFixed.lower

namespace SameFixed

variable {before after : Bounds α}

theorem openTerms_eq
    (same : SameFixed settings.epsilon before after)
    (row : LinearRow α) :
    openTerms settings after row = openTerms settings before row :=
  openTerms_congr same.fixed

/-- The fixed terms of a row contribute the same. -/
theorem settledPart_eq
    (same : SameFixed settings.epsilon before after)
    (row : LinearRow α) :
    settledPart settings after row = settledPart settings before row := by
  have sameTerms :
      fixedTerms after settings.epsilon
          (significantTerms settings.epsilon row) =
        fixedTerms before settings.epsilon
          (significantTerms settings.epsilon row) := by
    unfold fixedTerms
    refine List.filter_congr ?_
    intro term _
    simp only [same.fixed]
  unfold settledPart contribution
  rw [sameTerms]
  refine List.foldl_ext _ _ _ ?_
  intro total term member
  have isFixed : before.Fixed settings.epsilon term.1 := by
    simpa [fixedTerms] using (List.mem_filter.mp member).2
  simp only [same.lower term.1 isFixed]

theorem openLeft_eq
    (same : SameFixed settings.epsilon before after)
    (sentinel : α)
    (row : LinearRow α) :
    openLeft sentinel settings after row =
      openLeft sentinel settings before row := by
  unfold openLeft
  rw [same.settledPart_eq row]

theorem openRight_eq
    (same : SameFixed settings.epsilon before after)
    (sentinel : α)
    (row : LinearRow α) :
    openRight sentinel settings after row =
      openRight sentinel settings before row := by
  unfold openRight
  rw [same.settledPart_eq row]

/-- Whether a row is settled at tighter bounds depends on the bounds of its free variable. -/
theorem settled
    (same : SameFixed settings.epsilon before after)
    (settled : Settled sentinel settings before row)
    (tighter :
      ∀ var coef, openTerms settings before row = [(var, coef)] →
        SettledTerm sentinel settings before var coef
          (openLeft sentinel settings before row)
          (openRight sentinel settings before row) →
        SettledTerm sentinel settings after var coef
          (openLeft sentinel settings before row)
          (openRight sentinel settings before row)) :
    Settled sentinel settings after row where
  closed := by
    rw [same.openTerms_eq, same.openLeft_eq, same.openRight_eq]
    exact settled.closed
  single var coef := by
    rw [same.openTerms_eq, same.openLeft_eq, same.openRight_eq]
    intro oneTerm
    exact tighter var coef oneTerm (settled.single var coef oneTerm)

end SameFixed

end Settled

section Exact

variable
  {K : Type}
  [ExactField K]
  {sentinel : K}
  {settings : Settings K}
  {row : LinearRow K}
  {pass : RowPass K}

/-- A visit of a row with one free term without contradiction settles the term. -/
theorem visitSingle_settles
    {var : Nat}
    {coef left right : K}
    (index : Nat)
    (epsilonNonneg : 0 ≤ settings.epsilon)
    (sameLength : pass.bounds.upper.length = pass.bounds.lower.length)
    (inRange : var < pass.bounds.lower.length)
    (feasible :
      (pass.visitSingle sentinel settings index var coef left
        right).summary.infeasible = false) :
    SettledTerm sentinel settings
      (pass.visitSingle sentinel settings index var coef left right).bounds
      var coef left right := by
  change
    SettledTerm sentinel settings
      (pass.bounds.tighten sentinel settings.epsilon index var coef left
        right).1 var coef left right
  refine ⟨?_, ?_, ?_⟩
  · rw [Bounds.lowerAt_tighten _ _ _ _ _ _ _ _ inRange]
    split
    · linarith
    · assumption
  · rw [Bounds.upperAt_tighten _ _ _ _ _ _ _ _
      (by rw [sameLength]; exact inRange)]
    split
    · linarith
    · assumption
  · intro contradictory
    simp only [visitSingle, if_pos contradictory] at feasible
    cases feasible

/-- A settled term stays settled between tighter bounds that are consistent. -/
theorem SettledTerm.of_encloses
    {bounds tighter : Bounds K}
    {var : Nat}
    {coef left right : K}
    (settled : SettledTerm sentinel settings bounds var coef left right)
    (encloses : bounds.Encloses tighter)
    (consistent :
      ¬ tighter.upperAt var + settings.feasTolerance < tighter.lowerAt var) :
    SettledTerm sentinel settings tighter var coef left right where
  lower := by
    linarith [settled.lower, encloses.lower var]
  upper := by
    linarith [settled.upper, encloses.upper var]
  consistent := consistent

/-- What presolve knows when it visits a stored row of loaded variables. -/
structure KnownVisit
    (settings : Settings K)
    (bounds : Bounds K)
    (row : LinearRow K) : Prop where
  epsilonNonneg : 0 ≤ settings.epsilon
  sameLength : bounds.upper.length = bounds.lower.length
  known : ∀ var ∈ row.vars, var < bounds.lower.length

/-- A visit that finds neither a contradiction nor a fixing settles its row. -/
theorem KnownVisit.settles
    (visit : KnownVisit settings pass.bounds row)
    (integral : List Bool)
    (index : Nat)
    (same :
      SameFixed settings.epsilon pass.bounds
        (pass.visitRow sentinel settings integral index row).bounds)
    (feasible :
      (pass.visitRow sentinel settings integral index
        row).summary.infeasible = false) :
    Settled sentinel settings
      (pass.visitRow sentinel settings integral index row).bounds row where
  closed := by
    rw [same.openTerms_eq, same.openLeft_eq, same.openRight_eq]
    intro noTerm violated
    rw [visitRow_of_none sentinel integral index noTerm] at feasible
    simp only [visitFixed, if_pos violated] at feasible
    cases feasible
  single var coef := by
    rw [same.openTerms_eq, same.openLeft_eq, same.openRight_eq]
    intro oneTerm
    have isOpen : (var, coef) ∈ openTerms settings pass.bounds row := by
      simp [oneTerm]
    rw [visitRow_of_single sentinel integral index oneTerm] at feasible ⊢
    exact
      visitSingle_settles index visit.epsilonNonneg visit.sameLength
        (visit.known var (List.of_mem_zip (mem_openTerms isOpen).1).1) feasible

/-- Such a visit leaves settled what was settled before. -/
theorem KnownVisit.keepsSettled
    {other : LinearRow K}
    (visit : KnownVisit settings pass.bounds row)
    (integral : List Bool)
    (index : Nat)
    (same :
      SameFixed settings.epsilon pass.bounds
        (pass.visitRow sentinel settings integral index row).bounds)
    (feasible :
      (pass.visitRow sentinel settings integral index
        row).summary.infeasible = false)
    (settled : Settled sentinel settings pass.bounds other) :
    Settled sentinel settings
      (pass.visitRow sentinel settings integral index row).bounds other := by
  have encloses :
      pass.bounds.Encloses
        (pass.visitRow sentinel settings integral index row).bounds :=
    visitRow_encloses integral index visit.epsilonNonneg visit.sameLength
      visit.known
  refine same.settled settled ?_
  intro var coef _ term
  refine term.of_encloses encloses ?_
  rcases openTerms_cases settings pass.bounds row with
    noTerm | ⟨changed, changedCoef, oneTerm⟩ | severalTerms
  · rw [visitRow_of_none sentinel integral index noTerm]
    exact term.consistent
  · -- The bounds of one variable change, and the visit checks that they are consistent.
    by_cases isChanged : var = changed
    · subst changed
      have isSettled :=
        (visit.settles integral index same feasible).single var changedCoef
      rw [same.openTerms_eq] at isSettled
      exact (isSettled oneTerm).consistent
    · rw [visitRow_of_single sentinel integral index oneTerm]
      have frame :=
        pass.bounds.tighten_sameExcept sentinel settings.epsilon index changed
          changedCoef (openLeft sentinel settings pass.bounds row)
          (openRight sentinel settings pass.bounds row)
      simp only [visitSingle, frame.lower var isChanged,
        frame.upper var isChanged]
      exact term.consistent
  · rw [visitRow_of_several sentinel integral index severalTerms]
    exact term.consistent

end Exact

end RowPass

namespace Presolvable

open RowPass

variable
  {K : Type}
  [ExactField K]
  {store : Store K}
  {sentinel : K}
  {settings : Settings K}

/-- A pass that finds neither a contradiction nor a fixing settles every row. -/
theorem run_settles
    {start : Bounds K}
    (presolvable : Presolvable store sentinel settings)
    (sized : Sized store start)
    (feasible :
      (run store sentinel settings start).summary.infeasible = false)
    (fixesNothing :
      (run store sentinel settings start).summary.fixedSome = false) :
    ∀ row ∈ store.rows.toRows,
      Settled sentinel settings (run store sentinel settings start).bounds
        row := by
  obtain ⟨visited, _, ⟨_, settles⟩, complete⟩ :=
    run_induction
      (motive := fun seen pass =>
        Sized store pass.bounds ∧
          (pass.summary.infeasible = false →
            pass.summary.fixedSome = false →
            ∀ row ∈ seen, Settled sentinel settings pass.bounds row))
      (fun _ _ => True)
      (fun seen pass row stored _ ⟨sized, settled⟩ => by
        have progress :
            Progress settings store.lower.length pass
              (pass.visitRow sentinel settings store.integral seen.length
                row) :=
          visitRow_progress pass sentinel store.integral seen.length
            (presolvable.known row stored)
        have visit : KnownVisit settings pass.bounds row :=
          {
            epsilonNonneg := presolvable.epsilonNonneg
            sameLength := sized.2.trans sized.1.symm
            known := by
              rw [sized.1]
              exact presolvable.known row stored
          }
        refine
          ⟨presolvable.sized_visitRow store.integral seen.length sized stored,
            ?_⟩
        intro feasible fixesNothing other member
        have same := progress.sameFixed feasible fixesNothing
        rcases List.mem_append.mp member with earlier | isRow
        · exact
            visit.keepsSettled store.integral seen.length same feasible
              (settled (progress.feasible feasible)
                (progress.notFixed fixesNothing) other earlier)
        · rw [List.mem_singleton.mp isRow]
          exact visit.settles store.integral seen.length same feasible)
      (fun _ _ => trivial)
      ⟨sized, fun _ _ _ none => nomatch none⟩
  rw [← complete feasible]
  exact settles feasible fixesNothing

end Presolvable

namespace RowPass

variable
  {α : Type}
  [Scalar α]
  {store : Store α}
  {sentinel : α}
  {settings : Settings α}
  {bounds : Bounds α}

/-- A pass over settled rows keeps the bounds, and finds neither a contradiction nor a fixing. -/
theorem run_of_settled
    (settled :
      ∀ row ∈ store.rows.toRows, Settled sentinel settings bounds row) :
    ∃ changes,
      (run store sentinel settings bounds).bounds = bounds ∧
        (run store sentinel settings bounds).summary =
          { PassSummary.none with changedCoefs := changes } := by
  obtain ⟨_, _, reached, _⟩ :=
    run_induction
      (motive := fun _ pass =>
        ∃ changes,
          pass.bounds = bounds ∧
            pass.summary = { PassSummary.none with changedCoefs := changes })
      (fun _ _ => True)
      (fun seen pass row stored _ ⟨changes, sameBounds, summary⟩ => by
        have isSettled : Settled sentinel settings pass.bounds row := by
          rw [sameBounds]
          exact settled row stored
        obtain ⟨more, keepsBounds, keepsSummary⟩ :=
          isSettled.visitRow store.integral seen.length
        exact
          ⟨more, keepsBounds.trans sameBounds, by rw [keepsSummary, summary]⟩)
      (fun _ _ => trivial)
      ⟨0, rfl, rfl⟩
  exact reached

/-- A pass over settled rows visits every row at the same bounds. -/
theorem passVisits_of_settled
    (settled :
      ∀ row ∈ store.rows.toRows, Settled sentinel settings bounds row) :
    passVisits store sentinel settings bounds =
      store.rows.toRows.map fun row => (bounds, row) := by
  obtain ⟨_, _, summary⟩ := run_of_settled settled
  have allRows :
      (passVisits store sentinel settings bounds).map Prod.snd =
        store.rows.toRows :=
    rowVisits_rows 0 (by
      change (run store sentinel settings bounds).summary.infeasible = false
      rw [summary]
      rfl)
  have sameBounds :
      ∀ visit ∈ passVisits store sentinel settings bounds,
        visit.2 ∈ store.rows.toRows ∧ visit.1 = bounds :=
    rowVisits_all
      (motive := fun visited => visited = bounds)
      (fun _ _ => True)
      0
      (fun index pass row stored _ same => by
        have isSettled : Settled sentinel settings pass.bounds row := by
          rw [same]
          exact settled row stored
        obtain ⟨_, keepsBounds, _⟩ := isSettled.visitRow store.integral index
        exact keepsBounds.trans same)
      (fun _ _ => trivial)
      rfl
  rw [← allRows, List.map_map]
  symm
  refine (List.map_congr_left ?_).trans (List.map_id _)
  intro visit member
  exact Prod.ext (sameBounds visit member).2.symm rfl

end RowPass

end SdpRelay
