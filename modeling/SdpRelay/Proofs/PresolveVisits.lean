import Mathlib
import SdpRelay.Presolve.Workspace
import SdpRelay.Proofs.BoundTightening
import SdpRelay.Proofs.CompressedRows

namespace SdpRelay

/-!
# Visits of the row presolve

What one visit does, whatever the arithmetic is like.  `visitRow` has three
cases, told apart by the free terms of the row.  Fixed variables keep their
bounds from then on, and a visit that fixes a variable says so.
-/

namespace Bounds

section

variable {α : Type} [Scalar α]

/-- Variables that are fixed keep their bounds. -/
structure KeepsFixed
    (epsilon : α)
    (before after : Bounds α) : Prop where
  lowerLength : after.lower.length = before.lower.length
  upperLength : after.upper.length = before.upper.length
  lower :
    ∀ var, before.Fixed epsilon var →
      after.lowerAt var = before.lowerAt var
  upper :
    ∀ var, before.Fixed epsilon var →
      after.upperAt var = before.upperAt var

namespace KeepsFixed

variable {epsilon : α}

theorem refl (bounds : Bounds α) : KeepsFixed epsilon bounds bounds :=
  ⟨rfl, rfl, fun _ _ => rfl, fun _ _ => rfl⟩

theorem fixed
    {before after : Bounds α}
    {var : Nat}
    (keeps : KeepsFixed epsilon before after)
    (isFixed : before.Fixed epsilon var) :
    after.Fixed epsilon var := by
  unfold Fixed
  rw [keeps.lower var isFixed, keeps.upper var isFixed]
  exact isFixed

theorem trans
    {first second third : Bounds α}
    (earlier : KeepsFixed epsilon first second)
    (later : KeepsFixed epsilon second third) :
    KeepsFixed epsilon first third where
  lowerLength := later.lowerLength.trans earlier.lowerLength
  upperLength := later.upperLength.trans earlier.upperLength
  lower var isFixed :=
    (later.lower var (earlier.fixed isFixed)).trans
      (earlier.lower var isFixed)
  upper var isFixed :=
    (later.upper var (earlier.fixed isFixed)).trans
      (earlier.upper var isFixed)

end KeepsFixed

/-- A change of the bounds of a variable that is not fixed keeps the fixed ones. -/
theorem SameExcept.keepsFixed
    {var : Nat}
    {before after : Bounds α}
    {epsilon : α}
    (same : SameExcept var before after)
    (notFixed : ¬ before.Fixed epsilon var) :
    KeepsFixed epsilon before after where
  lowerLength := same.lowerLength
  upperLength := same.upperLength
  lower other isFixed :=
    same.lower other (fun isVar => notFixed (isVar ▸ isFixed))
  upper other isFixed :=
    same.upper other (fun isVar => notFixed (isVar ▸ isFixed))

/-- The number of variables that are not fixed. -/
def freeCount
    (bounds : Bounds α)
    (epsilon : α) :
    Nat :=
  (List.range bounds.lower.length).countP fun var =>
    !decide (bounds.Fixed epsilon var)

theorem freeCount_le
    (bounds : Bounds α)
    (epsilon : α) :
    bounds.freeCount epsilon ≤ bounds.lower.length := by
  have atMost :=
    List.countP_le_length
      (p := fun var => !decide (bounds.Fixed epsilon var))
      (l := List.range bounds.lower.length)
  simpa [freeCount] using atMost

/-- Counting strictly less where one item stops counting. -/
private theorem countP_lt_countP
    {β : Type}
    {first second : β → Bool}
    {items : List β}
    {item : β}
    (fewer : ∀ other ∈ items, second other = true → first other = true)
    (member : item ∈ items)
    (counted : first item = true)
    (notCounted : second item = false) :
    items.countP second < items.countP first := by
  obtain ⟨before, after, shape⟩ := List.append_of_mem member
  subst items
  have beforeLe : before.countP second ≤ before.countP first :=
    List.countP_mono_left (fun other inBefore =>
      fewer other (by simp [inBefore]))
  have afterLe : after.countP second ≤ after.countP first :=
    List.countP_mono_left (fun other inAfter =>
      fewer other (by simp [inAfter]))
  simp only [List.countP_append, List.countP_cons, counted, notCounted,
    ↓reduceIte, Bool.false_eq_true]
  omega

/-- Fixing a variable leaves fewer free ones. -/
theorem KeepsFixed.freeCount_lt
    {epsilon : α}
    {before after : Bounds α}
    {var : Nat}
    (keeps : KeepsFixed epsilon before after)
    (inRange : var < before.lower.length)
    (notFixed : ¬ before.Fixed epsilon var)
    (fixedNow : after.Fixed epsilon var) :
    after.freeCount epsilon < before.freeCount epsilon := by
  rw [freeCount, freeCount, keeps.lowerLength]
  refine
    countP_lt_countP ?_ (List.mem_range.mpr inRange)
      (by simpa using notFixed) (by simpa using fixedNow)
  intro other _ stillFree
  have notFixedAfter : ¬ after.Fixed epsilon other := by
    simpa using stillFree
  simpa using fun wasFixed => notFixedAfter (keeps.fixed wasFixed)

end

end Bounds

namespace KeptRows

variable {α : Type}

/-- The table of kept rows is that of a list of rows. -/
structure Lists
    (kept : KeptRows α)
    (rows : List (LinearRow α)) : Prop where
  table : kept.table = RowTable.ofRows rows
  balanced : ∀ row ∈ rows, row.Balanced

namespace Lists

theorem empty : Lists (KeptRows.empty : KeptRows α) [] where
  table := rfl
  balanced row member := by
    cases member

theorem skip
    {kept : KeptRows α}
    {rows : List (LinearRow α)}
    (lists : kept.Lists rows) :
    kept.skip.Lists rows :=
  ⟨lists.table, lists.balanced⟩

/-- A row that is kept comes last. -/
theorem keep
    {kept : KeptRows α}
    {rows : List (LinearRow α)}
    {row : LinearRow α}
    (lists : kept.Lists rows)
    (balanced : row.Balanced) :
    (kept.keep row).Lists (rows ++ [row]) where
  table := by
    simp only [KeptRows.keep, lists.table, RowTable.push_ofRows]
  balanced other member := by
    rcases List.mem_append.mp member with earlier | isRow
    · exact lists.balanced other earlier
    · rw [List.mem_singleton.mp isRow]
      exact balanced

/-- The rows of the table are the listed ones. -/
theorem toRows_eq
    {kept : KeptRows α}
    {rows : List (LinearRow α)}
    (lists : kept.Lists rows) :
    kept.table.toRows = rows := by
  rw [lists.table, RowTable.toRows_ofRows lists.balanced]

end Lists

end KeptRows

namespace TightenedRow

variable {α : Type}

/-- A tightened row as a linear row. -/
def toRow (tightened : TightenedRow α) : LinearRow α :=
  {
    left := tightened.left
    right := tightened.right
    vars := tightened.terms.map Prod.fst
    coefs := tightened.terms.map Prod.snd
  }

theorem toRow_balanced (tightened : TightenedRow α) :
    tightened.toRow.Balanced := by
  simp [LinearRow.Balanced, toRow]

end TightenedRow

/-- A row without integral variables is left alone and kept. -/
theorem RowBox.tighten_of_continuous
    {α : Type}
    [Scalar α]
    (box : RowBox α)
    (terms : List (Nat × α))
    (left right : α)
    (continuous : ∀ term ∈ terms, box.isIntegral term.1 = false) :
    box.tighten terms left right =
      {
        terms := terms
        left := left
        right := right
        leftRedundant := false
        rightRedundant := false
        changes := 0
      } := by
  rw [RowBox.tighten]
  split
  · rfl
  · rw [if_pos]
    simp only [Bool.or_eq_true, List.all_eq_true]
    refine .inl ?_
    intro term member
    simp [continuous term member]

namespace RowPass

variable {α : Type} [Scalar α]

section Visit

variable
  (pass : RowPass α)
  (sentinel : α)
  (settings : Settings α)
  (integral : List Bool)
  (index : Nat)
  (row : LinearRow α)

/-- The terms of a row that presolve treats as free at given bounds. -/
def openTerms
    (settings : Settings α)
    (bounds : Bounds α)
    (row : LinearRow α) :
    List (Nat × α) :=
  freeTerms bounds settings.epsilon (significantTerms settings.epsilon row)

/-- The contribution of the fixed terms of a row at given bounds. -/
def settledPart
    (settings : Settings α)
    (bounds : Bounds α)
    (row : LinearRow α) :
    DoubleWord α :=
  contribution bounds
    (fixedTerms bounds settings.epsilon
      (significantTerms settings.epsilon row))

/-- The left side of a row without its fixed terms. -/
def openLeft
    (sentinel : α)
    (settings : Settings α)
    (bounds : Bounds α)
    (row : LinearRow α) :
    α :=
  shiftSide sentinel (-sentinel) row.left (settledPart settings bounds row)

/-- The right side of a row without its fixed terms. -/
def openRight
    (sentinel : α)
    (settings : Settings α)
    (bounds : Bounds α)
    (row : LinearRow α) :
    α :=
  shiftSide sentinel sentinel row.right (settledPart settings bounds row)

/-- What a visit knows about the variables of a row with several free terms. -/
def visitBox
    (sentinel : α)
    (settings : Settings α)
    (integral : List Bool)
    (bounds : Bounds α) :
    RowBox α :=
  {
    sentinel := sentinel
    epsilon := settings.epsilon
    lower := bounds.lower
    upper := bounds.upper
    integral := integral
  }

/-- The tightened form of a row without its fixed terms. -/
def tightenedOpen
    (sentinel : α)
    (settings : Settings α)
    (integral : List Bool)
    (bounds : Bounds α)
    (row : LinearRow α) :
    TightenedRow α :=
  (visitBox sentinel settings integral bounds).tighten
    (openTerms settings bounds row)
    (openLeft sentinel settings bounds row)
    (openRight sentinel settings bounds row)

/-- The rows that a visit keeps: the tightened one, or none. -/
def keptFrom
    (sentinel : α)
    (settings : Settings α)
    (integral : List Bool)
    (bounds : Bounds α)
    (row : LinearRow α) :
    List (LinearRow α) :=
  let tightened := tightenedOpen sentinel settings integral bounds row
  if (openTerms settings bounds row).length < 2 ∨
      (tightened.leftRedundant && tightened.rightRedundant) then
    []
  else
    [tightened.toRow]

variable {pass settings row}

/-- A row without free terms is checked. -/
theorem visitRow_of_none
    (noTerm : openTerms settings pass.bounds row = []) :
    pass.visitRow sentinel settings integral index row =
      pass.visitFixed settings.feasTolerance
        (openLeft sentinel settings pass.bounds row)
        (openRight sentinel settings pass.bounds row) := by
  rw [openTerms] at noTerm
  simp only [visitRow, noTerm]
  rfl

/-- A row with one free term becomes bounds. -/
theorem visitRow_of_single
    {var : Nat}
    {coef : α}
    (oneTerm : openTerms settings pass.bounds row = [(var, coef)]) :
    pass.visitRow sentinel settings integral index row =
      pass.visitSingle sentinel settings index var coef
        (openLeft sentinel settings pass.bounds row)
        (openRight sentinel settings pass.bounds row) := by
  rw [openTerms] at oneTerm
  simp only [visitRow, oneTerm]
  rfl

/-- A row with several free terms is tightened. -/
theorem visitRow_of_several
    (severalTerms : 2 ≤ (openTerms settings pass.bounds row).length) :
    pass.visitRow sentinel settings integral index row =
      pass.visitSeveral sentinel settings integral
        (openTerms settings pass.bounds row)
        (openLeft sentinel settings pass.bounds row)
        (openRight sentinel settings pass.bounds row) := by
  match shape : openTerms settings pass.bounds row with
  | [] =>
      simp [shape] at severalTerms
  | [term] =>
      simp [shape] at severalTerms
  | first :: second :: rest =>
      rw [openTerms] at shape
      simp only [visitRow, shape]
      rfl

/-- The free terms of a row are none, a single one or several. -/
theorem openTerms_cases
    (settings : Settings α)
    (bounds : Bounds α)
    (row : LinearRow α) :
    openTerms settings bounds row = [] ∨
      (∃ var coef, openTerms settings bounds row = [(var, coef)]) ∨
      2 ≤ (openTerms settings bounds row).length := by
  match openTerms settings bounds row with
  | [] =>
      exact .inl rfl
  | [(var, coef)] =>
      exact .inr (.inl ⟨var, coef, rfl⟩)
  | _ :: _ :: _ =>
      exact .inr (.inr (by simp))

/-- A free term is a significant term of the row whose variable is not fixed. -/
theorem mem_openTerms
    {bounds : Bounds α}
    {term : Nat × α}
    (member : term ∈ openTerms settings bounds row) :
    term ∈ row.terms ∧ ¬ Scalar.abs term.2 ≤ settings.epsilon ∧
      ¬ bounds.Fixed settings.epsilon term.1 := by
  simp only [openTerms, freeTerms, significantTerms, List.mem_filter,
    Bool.not_eq_eq_eq_not, Bool.not_true, decide_eq_false_iff_not] at member
  exact ⟨member.1.1, member.1.2, member.2⟩

/-- Whether a term is free depends only on which variables are fixed. -/
theorem openTerms_congr
    {bounds other : Bounds α}
    (sameFixed :
      ∀ var, bounds.Fixed settings.epsilon var ↔
        other.Fixed settings.epsilon var) :
    openTerms settings bounds row = openTerms settings other row := by
  unfold openTerms freeTerms
  apply List.filter_congr
  intro term _
  simp only [sameFixed]

/-- A visit adds the rows that it keeps to those kept before. -/
theorem visitRow_lists
    {rows : List (LinearRow α)}
    (lists : pass.kept.Lists rows) :
    (pass.visitRow sentinel settings integral index row).kept.Lists
      (rows ++ keptFrom sentinel settings integral pass.bounds row) := by
  rcases openTerms_cases settings pass.bounds row with
    noTerm | ⟨var, coef, oneTerm⟩ | severalTerms
  · rw [visitRow_of_none sentinel integral index noTerm]
    simpa [keptFrom, noTerm, visitFixed] using lists.skip
  · rw [visitRow_of_single sentinel integral index oneTerm]
    simpa [keptFrom, oneTerm, visitSingle] using lists.skip
  · rw [visitRow_of_several sentinel integral index severalTerms]
    simp only [keptFrom, Nat.not_lt.mpr severalTerms, false_or]
    cases redundant :
        (tightenedOpen sentinel settings integral pass.bounds
            row).leftRedundant &&
          (tightenedOpen sentinel settings integral pass.bounds
            row).rightRedundant with
    | true =>
        simp only [↓reduceIte, List.append_nil]
        have skipped :
            (pass.visitSeveral sentinel settings integral
                (openTerms settings pass.bounds row)
                (openLeft sentinel settings pass.bounds row)
                (openRight sentinel settings pass.bounds row)).kept =
              pass.kept.skip :=
          if_pos redundant
        rw [skipped]
        exact lists.skip
    | false =>
        simp only [Bool.false_eq_true, ↓reduceIte]
        have kept :
            (pass.visitSeveral sentinel settings integral
                (openTerms settings pass.bounds row)
                (openLeft sentinel settings pass.bounds row)
                (openRight sentinel settings pass.bounds row)).kept =
              pass.kept.keep
                (tightenedOpen sentinel settings integral pass.bounds
                  row).toRow :=
          if_neg (Bool.eq_false_iff.mp redundant)
        rw [kept]
        exact lists.keep (TightenedRow.toRow_balanced _)

end Visit

/-- What some visits of rows over a number of variables did to the fixed variables. -/
structure Progress
    (settings : Settings α)
    (variableCount : Nat)
    (pass next : RowPass α) : Prop where
  keepsFixed :
    Bounds.KeepsFixed settings.epsilon pass.bounds next.bounds
  infeasible :
    pass.summary.infeasible = true → next.summary.infeasible = true
  fixedSome :
    pass.summary.fixedSome = true → next.summary.fixedSome = true
  fixing :
    next.summary.infeasible = false →
      pass.summary.fixedSome = false →
      next.summary.fixedSome = true →
      ∃ var, var < variableCount ∧
        ¬ pass.bounds.Fixed settings.epsilon var ∧
        next.bounds.Fixed settings.epsilon var
  notFixing :
    next.summary.infeasible = false →
      next.summary.fixedSome = false →
      ∀ var, next.bounds.Fixed settings.epsilon var →
        pass.bounds.Fixed settings.epsilon var

namespace Progress

variable
  {settings : Settings α}
  {variableCount : Nat}

/-- Visits that keep the bounds and find no fixing are progress. -/
theorem of_sameBounds
    {pass next : RowPass α}
    (sameBounds : next.bounds = pass.bounds)
    (sameFixedSome : next.summary.fixedSome = pass.summary.fixedSome)
    (infeasible :
      pass.summary.infeasible = true → next.summary.infeasible = true) :
    Progress settings variableCount pass next where
  keepsFixed := by
    rw [sameBounds]
    exact Bounds.KeepsFixed.refl pass.bounds
  infeasible := infeasible
  fixedSome found := by
    rw [sameFixedSome]
    exact found
  fixing _ notBefore found := by
    rw [sameFixedSome, notBefore] at found
    cases found
  notFixing _ _ var isFixed := by
    rw [← sameBounds]
    exact isFixed

theorem refl (pass : RowPass α) :
    Progress settings variableCount pass pass :=
  of_sameBounds rfl rfl id

theorem feasible
    {pass next : RowPass α}
    (progress : Progress settings variableCount pass next)
    (feasibleLater : next.summary.infeasible = false) :
    pass.summary.infeasible = false := by
  cases infeasibleBefore : pass.summary.infeasible with
  | true =>
      rw [progress.infeasible infeasibleBefore] at feasibleLater
      cases feasibleLater
  | false =>
      rfl

theorem notFixed
    {pass next : RowPass α}
    (progress : Progress settings variableCount pass next)
    (noneLater : next.summary.fixedSome = false) :
    pass.summary.fixedSome = false := by
  cases foundBefore : pass.summary.fixedSome with
  | true =>
      rw [progress.fixedSome foundBefore] at noneLater
      cases noneLater
  | false =>
      rfl

theorem trans
    {first second third : RowPass α}
    (earlier : Progress settings variableCount first second)
    (later : Progress settings variableCount second third) :
    Progress settings variableCount first third where
  keepsFixed := earlier.keepsFixed.trans later.keepsFixed
  infeasible found := later.infeasible (earlier.infeasible found)
  fixedSome found := later.fixedSome (earlier.fixedSome found)
  fixing feasible notBefore found := by
    cases foundEarlier : second.summary.fixedSome with
    | true =>
        obtain ⟨var, inRange, wasFree, isFixed⟩ :=
          earlier.fixing (later.feasible feasible) notBefore foundEarlier
        exact ⟨var, inRange, wasFree, later.keepsFixed.fixed isFixed⟩
    | false =>
        obtain ⟨var, inRange, wasFree, isFixed⟩ :=
          later.fixing feasible foundEarlier found
        exact
          ⟨var, inRange,
            fun fixedFirst => wasFree (earlier.keepsFixed.fixed fixedFirst),
            isFixed⟩
  notFixing feasible noneFound var isFixed :=
    earlier.notFixing (later.feasible feasible) (later.notFixed noneFound)
      var (later.notFixing feasible noneFound var isFixed)

/-- After visits that fix nothing, the same variables are fixed as before. -/
theorem fixed_iff
    {pass next : RowPass α}
    (progress : Progress settings variableCount pass next)
    (feasible : next.summary.infeasible = false)
    (noneFound : next.summary.fixedSome = false)
    (var : Nat) :
    next.bounds.Fixed settings.epsilon var ↔
      pass.bounds.Fixed settings.epsilon var :=
  ⟨progress.notFixing feasible noneFound var, progress.keepsFixed.fixed⟩

end Progress

/-- A row with one free variable makes progress. -/
theorem visitSingle_progress
    {pass : RowPass α}
    {settings : Settings α}
    {variableCount var : Nat}
    (sentinel : α)
    (index : Nat)
    (coef left right : α)
    (inRange : var < variableCount)
    (wasFree : ¬ pass.bounds.Fixed settings.epsilon var) :
    Progress settings variableCount pass
      (pass.visitSingle sentinel settings index var coef left right) := by
  have same :=
    pass.bounds.tighten_sameExcept sentinel settings.epsilon
      index var coef left right
  refine ⟨same.keepsFixed wasFree, ?_, ?_, ?_, ?_⟩
  · intro found
    simp only [visitSingle]
    split
    · rfl
    · split <;> exact found
  · intro found
    simp only [visitSingle]
    split
    · exact found
    · split
      · rfl
      · exact found
  · intro feasible notBefore found
    simp only [visitSingle] at feasible found ⊢
    split at feasible
    · cases feasible
    · rename_i consistent
      rw [if_neg consistent] at found
      split at found
      · rename_i isFixed
        exact ⟨var, inRange, wasFree, isFixed⟩
      · rw [show (_ : Bool) = pass.summary.fixedSome from rfl, notBefore]
          at found
        cases found
  · intro feasible noneFound other isFixed
    simp only [visitSingle] at feasible noneFound isFixed
    split at feasible
    · cases feasible
    · rename_i consistent
      rw [if_neg consistent] at noneFound
      split at noneFound
      · cases noneFound
      · rename_i stillFree
        have distinct : other ≠ var := fun isVar => stillFree (isVar ▸ isFixed)
        exact (same.fixed_iff distinct).mp isFixed

/-- A visit of a row over the variables makes progress. -/
theorem visitRow_progress
    {settings : Settings α}
    {row : LinearRow α}
    {variableCount : Nat}
    (pass : RowPass α)
    (sentinel : α)
    (integral : List Bool)
    (index : Nat)
    (inRange : ∀ var ∈ row.vars, var < variableCount) :
    Progress settings variableCount pass
      (pass.visitRow sentinel settings integral index row) := by
  rcases openTerms_cases settings pass.bounds row with
    noTerm | ⟨var, coef, oneTerm⟩ | severalTerms
  · rw [visitRow_of_none sentinel integral index noTerm]
    refine Progress.of_sameBounds rfl ?_ ?_
    · simp only [visitFixed]
      split <;> rfl
    · intro found
      simp only [visitFixed]
      split
      · rfl
      · exact found
  · have isOpen : (var, coef) ∈ openTerms settings pass.bounds row := by
      simp [oneTerm]
    obtain ⟨listed, _, wasFree⟩ := mem_openTerms isOpen
    rw [visitRow_of_single sentinel integral index oneTerm]
    exact
      visitSingle_progress sentinel index coef _ _
        (inRange var (List.of_mem_zip listed).1) wasFree
  · rw [visitRow_of_several sentinel integral index severalTerms]
    exact Progress.of_sameBounds rfl rfl id

end RowPass

end SdpRelay
