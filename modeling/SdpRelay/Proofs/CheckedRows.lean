import Mathlib
import SdpRelay.Presolve.Rows
import SdpRelay.Proofs.CheckedTightening
import SdpRelay.Proofs.StoreLayout

namespace SdpRelay

/-!
# Passes over the rows with checked access

A pass reads every stored row between its start and the start of the next one, and
builds the rows that it keeps behind each other in two lists: the terms of a row
are put behind the lists first, and cut off again if the row is not kept.  What a
step needs is that there is one bound and one flag for each variable, and as many
coefficients as variables in the lists; every step leaves that as it is.
-/

/-- The lists of bounds and sources have one item for each of a number of variables. -/
structure Bounds.Sized
    {α : Type}
    (bounds : Bounds α)
    (size : Nat) : Prop where
  lower : bounds.lower.length = size
  upper : bounds.upper.length = size
  lowerSource : bounds.lowerSource.length = size
  upperSource : bounds.upperSource.length = size

namespace Checked

variable {α : Type} [Scalar α]

/-- The bounds of a variable differ by at most `epsilon`. -/
def fixedAt
    (bounds : Bounds α)
    (epsilon : α)
    (var : Nat) :
    Checked Bool := do
  let upper ← item bounds.upper var
  let lower ← item bounds.lower var
  return decide (upper - lower ≤ epsilon)

/-- Raise the lower bound of a variable if the row improves it by more than `epsilon`. -/
def raiseLower
    (bounds : Bounds α)
    (sentinel epsilon : α)
    (row var : Nat)
    (coef left right : α) :
    Checked (Bounds α × Nat) := do
  let implied := Bounds.impliedLower sentinel coef left right
  if (← item bounds.lower var) + epsilon < implied then
    let lower ← replace bounds.lower var implied
    let source : BoundSource := .row row (if coef < 0 then .right else .left)
    let lowerSource ← replace bounds.lowerSource var source
    return ({ bounds with lower := lower, lowerSource := lowerSource }, 1)
  else
    return (bounds, 0)

/-- Drop the upper bound of a variable if the row improves it by more than `epsilon`. -/
def dropUpper
    (bounds : Bounds α)
    (sentinel epsilon : α)
    (row var : Nat)
    (coef left right : α) :
    Checked (Bounds α × Nat) := do
  let implied := Bounds.impliedUpper sentinel coef left right
  if implied < (← item bounds.upper var) - epsilon then
    let upper ← replace bounds.upper var implied
    let source : BoundSource := .row row (if 0 < coef then .right else .left)
    let upperSource ← replace bounds.upperSource var source
    return ({ bounds with upper := upper, upperSource := upperSource }, 1)
  else
    return (bounds, 0)

/-- Tighten the bounds of a variable by a row, and count the bounds that changed. -/
def tightenBounds
    (bounds : Bounds α)
    (sentinel epsilon : α)
    (row var : Nat)
    (coef left right : α) :
    Checked (Bounds α × Nat) := do
  let (raised, raisedCount) ←
    raiseLower bounds sentinel epsilon row var coef left right
  let (dropped, droppedCount) ←
    dropUpper raised sentinel epsilon row var coef left right
  return (dropped, raisedCount + droppedCount)

section BoundsSized

variable
  {bounds : Bounds α}
  {size var : Nat}

theorem lowerItem_eq
    (sized : bounds.Sized size)
    (inside : var < size) :
    item bounds.lower var = .ok (bounds.lowerAt var) :=
  item_eq (by rw [sized.lower]; exact inside) 0

theorem upperItem_eq
    (sized : bounds.Sized size)
    (inside : var < size) :
    item bounds.upper var = .ok (bounds.upperAt var) :=
  item_eq (by rw [sized.upper]; exact inside) 0

theorem fixedAt_eq
    (sized : bounds.Sized size)
    (inside : var < size)
    (epsilon : α) :
    fixedAt bounds epsilon var = .ok (decide (bounds.Fixed epsilon var)) :=
  bind_eq (upperItem_eq sized inside)
    (bind_eq (lowerItem_eq sized inside) rfl)

theorem raiseLower_eq
    (sized : bounds.Sized size)
    (inside : var < size)
    (sentinel epsilon : α)
    (row : Nat)
    (coef left right : α) :
    raiseLower bounds sentinel epsilon row var coef left right =
        .ok (bounds.raiseLower sentinel epsilon row var coef left right) ∧
      (bounds.raiseLower sentinel epsilon row var coef left right).1.Sized
        size := by
  have lowerInside : var < bounds.lower.length := by
    rw [sized.lower]
    exact inside
  have sourceInside : var < bounds.lowerSource.length := by
    rw [sized.lowerSource]
    exact inside
  by_cases improves :
      bounds.lowerAt var + epsilon <
        Bounds.impliedLower sentinel coef left right
  · rw [raiseLower, item_eq lowerInside 0, ok_bind, Bounds.raiseLower,
      if_pos improves]
    refine ⟨(if_pos improves).trans ?_, ?_⟩
    · exact
        bind_eq (replace_eq lowerInside _)
          (bind_eq (replace_eq sourceInside _) rfl)
    · exact
        ⟨by simp [Bounds.setLower, sized.lower], sized.upper,
          by simp [Bounds.setLower, sized.lowerSource], sized.upperSource⟩
  · rw [raiseLower, item_eq lowerInside 0, ok_bind, Bounds.raiseLower,
      if_neg improves]
    exact ⟨if_neg improves, sized⟩

theorem dropUpper_eq
    (sized : bounds.Sized size)
    (inside : var < size)
    (sentinel epsilon : α)
    (row : Nat)
    (coef left right : α) :
    dropUpper bounds sentinel epsilon row var coef left right =
        .ok (bounds.dropUpper sentinel epsilon row var coef left right) ∧
      (bounds.dropUpper sentinel epsilon row var coef left right).1.Sized
        size := by
  have upperInside : var < bounds.upper.length := by
    rw [sized.upper]
    exact inside
  have sourceInside : var < bounds.upperSource.length := by
    rw [sized.upperSource]
    exact inside
  by_cases improves :
      Bounds.impliedUpper sentinel coef left right <
        bounds.upperAt var - epsilon
  · rw [dropUpper, item_eq upperInside 0, ok_bind, Bounds.dropUpper,
      if_pos improves]
    refine ⟨(if_pos improves).trans ?_, ?_⟩
    · exact
        bind_eq (replace_eq upperInside _)
          (bind_eq (replace_eq sourceInside _) rfl)
    · exact
        ⟨sized.lower, by simp [Bounds.setUpper, sized.upper],
          sized.lowerSource, by simp [Bounds.setUpper, sized.upperSource]⟩
  · rw [dropUpper, item_eq upperInside 0, ok_bind, Bounds.dropUpper,
      if_neg improves]
    exact ⟨if_neg improves, sized⟩

theorem tightenBounds_eq
    (sized : bounds.Sized size)
    (inside : var < size)
    (sentinel epsilon : α)
    (row : Nat)
    (coef left right : α) :
    tightenBounds bounds sentinel epsilon row var coef left right =
        .ok (bounds.tighten sentinel epsilon row var coef left right) ∧
      (bounds.tighten sentinel epsilon row var coef left right).1.Sized
        size := by
  obtain ⟨raised, raisedSized⟩ :=
    raiseLower_eq sized inside sentinel epsilon row coef left right
  obtain ⟨dropped, droppedSized⟩ :=
    dropUpper_eq raisedSized inside sentinel epsilon row coef left right
  exact ⟨bind_eq raised (bind_eq dropped rfl), droppedSized⟩

end BoundsSized

/-!
## One row
-/

/-- The row at a position of a table. -/
def rowAt
    (table : RowTable α)
    (i : Nat) :
    Checked (LinearRow α) := do
  let left ← item table.lefts i
  let right ← item table.rights i
  let first ← item table.starts i
  let stop ← item table.starts (i + 1)
  let vars ← range table.vars first stop
  let coefs ← range table.coefs first stop
  return { left := left, right := right, vars := vars, coefs := coefs }

/-- The free terms of a row behind the lists of a table, and what its fixed ones count for. -/
structure TermScan (α : Type) where
  vars : List Nat
  coefs : List α
  fixed : DoubleWord α
  /-- The free term seen last. -/
  last : Option (Nat × α)

/-- Look at one term of a row. -/
def lookAt
    (bounds : Bounds α)
    (epsilon : α)
    (scan : TermScan α)
    (term : Nat × α) :
    Checked (TermScan α) := do
  if Scalar.abs term.2 ≤ epsilon then
    return scan
  else if ← fixedAt bounds epsilon term.1 then
    let value ← item bounds.lower term.1
    return { scan with fixed := scan.fixed.addProduct term.2 value }
  else
    return {
      scan with
      vars := scan.vars ++ [term.1]
      coefs := scan.coefs ++ [term.2]
      last := some term
    }

/-- The same kept rows with other lists of variables and coefficients. -/
def withLists
    (kept : KeptRows α)
    (vars : List Nat)
    (coefs : List α) :
    KeptRows α :=
  { kept with table := { kept.table with vars := vars, coefs := coefs } }

/-- A row with one free variable, whose term stands behind the first `start` ones of the lists. -/
def visitSingle
    (pass : RowPass α)
    (sentinel : α)
    (settings : Settings α)
    (index start : Nat)
    (scan : TermScan α)
    (var : Nat)
    (coef left right : α) :
    Checked (RowPass α) := do
  let kept :=
    withLists pass.kept (scan.vars.take start) (scan.coefs.take start)
  let (bounds, changed) ←
    tightenBounds pass.bounds sentinel settings.epsilon index var coef left right
  let counted :=
    {
      pass.summary with
      changedBounds := pass.summary.changedBounds + changed
    }
  let lower ← item bounds.lower var
  let upper ← item bounds.upper var
  if upper + settings.feasTolerance < lower then
    return {
      bounds := bounds
      kept := kept.skip
      summary := { counted with infeasible := true }
    }
  else if ← fixedAt bounds settings.epsilon var then
    return {
      bounds := bounds
      kept := kept.skip
      summary := { counted with fixedSome := true }
    }
  else
    return { bounds := bounds, kept := kept.skip, summary := counted }

/-- A row with several free terms, which stand behind the first `start` ones of the lists. -/
def visitSeveral
    (pass : RowPass α)
    (sentinel : α)
    (settings : Settings α)
    (integral : List Bool)
    (start : Nat)
    (scan : TermScan α)
    (left right : α) :
    Checked (RowPass α) := do
  let vars ← range scan.vars start scan.vars.length
  let coefs ← range scan.coefs start scan.coefs.length
  let box : RowBox α :=
    {
      sentinel := sentinel
      epsilon := settings.epsilon
      lower := pass.bounds.lower
      upper := pass.bounds.upper
      integral := integral
    }
  let row ← tighten box vars coefs left right
  let summary :=
    {
      pass.summary with
      changedCoefs := pass.summary.changedCoefs + row.changes
    }
  let changedVars := scan.vars.take start ++ row.vars
  let changedCoefs := scan.coefs.take start ++ row.coefs
  if row.leftRedundant && row.rightRedundant then
    let kept :=
      withLists pass.kept (changedVars.take start) (changedCoefs.take start)
    return { pass with kept := kept.skip, summary := summary }
  else
    let vars := changedVars.take (start + row.stop)
    let table := pass.kept.table
    return {
      pass with
      kept :=
        {
          table :=
            {
              lefts := table.lefts ++ [row.left]
              rights := table.rights ++ [row.right]
              starts := table.starts ++ [vars.length]
              vars := vars
              coefs := changedCoefs.take (start + row.stop)
            }
          positions := pass.kept.positions ++ [some table.rowCount]
        }
      summary := summary
    }

/-- Visit one stored row. -/
def visitRow
    (pass : RowPass α)
    (sentinel : α)
    (settings : Settings α)
    (integral : List Bool)
    (index : Nat)
    (row : LinearRow α) :
    Checked (RowPass α) := do
  let start := pass.kept.table.vars.length
  let scan ←
    row.terms.foldlM (lookAt pass.bounds settings.epsilon)
      {
        vars := pass.kept.table.vars
        coefs := pass.kept.table.coefs
        fixed := DoubleWord.zero
        last := none
      }
  let count ← minus scan.vars.length start
  let left := RowPass.shiftSide sentinel (-sentinel) row.left scan.fixed
  let right := RowPass.shiftSide sentinel sentinel row.right scan.fixed
  match scan.last with
  | none =>
      let seen :=
        { pass with kept := withLists pass.kept scan.vars scan.coefs }
      return seen.visitFixed settings.feasTolerance left right
  | some (var, coef) =>
      if count = 1 then
        visitSingle pass sentinel settings index start scan var coef left right
      else
        visitSeveral pass sentinel settings integral start scan left right

/-!
## Passes
-/

/-- Visit the stored rows from an index on, up to the first that proves infeasibility. -/
def visitRows
    (table : RowTable α)
    (sentinel : α)
    (settings : Settings α)
    (integral : List Bool) :
    Nat → Nat → RowPass α → Checked (RowPass α)
  | 0, _, pass => return pass
  | remaining + 1, index, pass => do
      let row ← rowAt table index
      let next ← visitRow pass sentinel settings integral index row
      if next.summary.infeasible then
        return next
      else
        visitRows table sentinel settings integral remaining (index + 1) next

/-- One pass over the rows of a store, starting from given bounds. -/
def runPass
    (store : Store α)
    (sentinel : α)
    (settings : Settings α)
    (bounds : Bounds α) :
    Checked (RowPass α) :=
  visitRows store.rows sentinel settings store.integral store.rows.rowCount 0
    {
      bounds := bounds
      kept := KeptRows.empty
      summary := PassSummary.none
    }

/-- Repeat passes until one proves infeasibility or fixes nothing, at most a given number of times. -/
def repeatPasses
    (store : Store α)
    (sentinel : α)
    (settings : Settings α) :
    Nat → RowPass α → Checked (RowPass α)
  | 0, pass => return pass
  | remaining + 1, pass => do
      let next ← runPass store sentinel settings pass.bounds
      let total :=
        { next with summary := pass.summary.followedBy next.summary }
      if next.summary.infeasible || !next.summary.fixedSome then
        return total
      else
        repeatPasses store sentinel settings remaining total

/-- Pass over the rows until nothing more gets fixed. -/
def propagate
    (store : Store α)
    (sentinel : α)
    (settings : Settings α)
    (bounds : Bounds α) :
    Checked (RowPass α) :=
  repeatPasses store sentinel settings (bounds.lower.length + 1)
    {
      bounds := bounds
      kept := KeptRows.empty
      summary := PassSummary.none
    }

/-!
## Steps of a pass
-/

omit [Scalar α] in
/-- A row of a table is read between its start and the start of the next one. -/
theorem rowAt_eq
    {table : RowTable α}
    {i : Nat}
    (wellFormed : table.WellFormed)
    (inside : i < table.rowCount) :
    ∃ row, rowAt table i = .ok row ∧ table.toRows[i]? = some row := by
  have leftInside : i < table.lefts.length := inside
  have rightInside : i < table.rights.length := by
    rw [wellFormed.rightCount]
    exact inside
  have startCount := wellFormed.startCount
  have sorted := List.pairwise_iff_getElem.mp wellFormed.startsSorted
  have ordered : table.start i ≤ table.start (i + 1) := by
    have next :=
      sorted i (i + 1) (by omega) (by omega) (Nat.lt_succ_self i)
    rw [RowTable.start, RowTable.start,
      List.getD_eq_getElem _ _ (by omega), List.getD_eq_getElem _ _ (by omega)]
    exact next
  have stopInside : table.start (i + 1) ≤ table.vars.length := by
    have isLast := wellFormed.lastEnd
    rw [List.getLast?_eq_getElem?, startCount, Nat.add_sub_cancel] at isLast
    obtain ⟨lastInside, atLast⟩ := List.getElem?_eq_some_iff.mp isLast
    rw [RowTable.start, List.getD_eq_getElem _ _ (by omega), ← atLast]
    rcases Nat.lt_or_eq_of_le inside with before | same
    · exact sorted (i + 1) table.rowCount (by omega) lastInside before
    · exact Nat.le_of_eq (by simp only [← same])
  have coefsInside : table.start (i + 1) ≤ table.coefs.length := by
    rw [wellFormed.coefCount]
    exact stopInside
  refine
    ⟨{
      left := table.lefts[i]
      right := table.rights[i]
      vars := table.owned i table.vars
      coefs := table.owned i table.coefs
    }, ?_, ?_⟩
  · exact
      bind_eq (item_getElem leftInside) <|
        bind_eq (item_getElem rightInside) <|
          bind_eq (item_eq (by omega) 0) <|
            bind_eq (item_eq (by omega) 0) <|
              bind_eq (range_eq ordered stopInside) <|
                bind_eq (range_eq ordered coefsInside) rfl
  · simp [RowTable.toRows, leftInside, rightInside]

/-- What a look at the terms of a row gathers: free terms behind the lists, fixed ones in a sum. -/
theorem foldlM_lookAt
    {bounds : Bounds α}
    {size : Nat}
    {terms : List (Nat × α)}
    (sized : bounds.Sized size)
    (epsilon : α)
    (inside : ∀ term ∈ terms, term.1 < size)
    (scan : TermScan α) :
    terms.foldlM (lookAt bounds epsilon) scan =
      .ok
        (let significant :=
          terms.filter fun (_, coef) => !decide (Scalar.abs coef ≤ epsilon)
        let free := RowPass.freeTerms bounds epsilon significant
        {
          vars := scan.vars ++ free.map Prod.fst
          coefs := scan.coefs ++ free.map Prod.snd
          fixed :=
            (RowPass.fixedTerms bounds epsilon significant).foldl
              (fun total (var, coef) =>
                total.addProduct coef (bounds.lowerAt var))
              scan.fixed
          last := free.getLast?.or scan.last
        }) := by
  induction terms generalizing scan with
  | nil =>
      simp [RowPass.freeTerms, RowPass.fixedTerms]
  | cons term rest inductionHypothesis =>
      obtain ⟨here, later⟩ := List.forall_mem_cons.mp inside
      have next := inductionHypothesis later
      rw [List.foldlM_cons, lookAt]
      by_cases small : Scalar.abs term.2 ≤ epsilon
      · rw [if_pos small, pure_eq_ok, ok_bind, next]
        simp [small]
      · rw [if_neg small, fixedAt_eq sized here, ok_bind]
        have readLower := lowerItem_eq sized here
        by_cases isFixed : bounds.Fixed epsilon term.1
        · simp only [isFixed, decide_true, ↓reduceIte, readLower, ok_bind,
            pure_eq_ok, next]
          simp [small, isFixed, RowPass.freeTerms, RowPass.fixedTerms]
        · simp only [isFixed, decide_false, Bool.false_eq_true, ↓reduceIte,
            ok_bind, pure_eq_ok, next]
          simp [small, isFixed, RowPass.freeTerms, RowPass.fixedTerms,
            List.getLast?_cons]

/-- The lists that a pass works on have the lengths that its steps need. -/
structure PassSized
    (pass : RowPass α)
    (size : Nat) : Prop where
  bounds : pass.bounds.Sized size
  balanced :
    pass.kept.table.coefs.length = pass.kept.table.vars.length

section Visits

variable
  {pass : RowPass α}
  {size : Nat}
  {settings : Settings α}
  {integral : List Bool}

/-- A row with one free variable leaves the lists as they were before it. -/
theorem visitSingle_eq
    {scan : TermScan α}
    {var : Nat}
    (sized : PassSized pass size)
    (inside : var < size)
    (sentinel : α)
    (index : Nat)
    (coef left right : α)
    (isVars : scan.vars = pass.kept.table.vars ++ [var])
    (isCoefs : scan.coefs = pass.kept.table.coefs ++ [coef]) :
    visitSingle pass sentinel settings index pass.kept.table.vars.length scan var
          coef left right =
        .ok (pass.visitSingle sentinel settings index var coef left right) ∧
      PassSized
        (pass.visitSingle sentinel settings index var coef left right)
        size := by
  obtain ⟨tightened, tightenedSized⟩ :=
    tightenBounds_eq sized.bounds inside sentinel settings.epsilon index coef
      left right
  have sameLists :
      withLists pass.kept (scan.vars.take pass.kept.table.vars.length)
          (scan.coefs.take pass.kept.table.vars.length) =
        pass.kept := by
    have balanced := sized.balanced
    rw [isVars, isCoefs, List.take_left, ← balanced, List.take_left]
    rfl
  rw [visitSingle, sameLists, tightened, ok_bind, RowPass.visitSingle]
  generalize
    pass.bounds.tighten sentinel settings.epsilon index var coef left right =
      outcome at tightenedSized ⊢
  obtain ⟨bounds, changed⟩ := outcome
  refine ⟨?_, tightenedSized, sized.balanced⟩
  refine
    bind_eq (lowerItem_eq tightenedSized inside)
      (bind_eq (upperItem_eq tightenedSized inside) ?_)
  rw [fixedAt_eq tightenedSized inside, ok_bind]
  simp only [decide_eq_true_eq]
  split_ifs <;> rfl

/-- A row with several free variables is tightened behind the lists, and kept or cut off there. -/
theorem visitSeveral_eq
    {scan : TermScan α}
    {terms : List (Nat × α)}
    (sized : PassSized pass size)
    (flags : integral.length = size)
    (inside : ∀ term ∈ terms, term.1 < size)
    (sentinel left right : α)
    (isVars : scan.vars = pass.kept.table.vars ++ terms.map Prod.fst)
    (isCoefs : scan.coefs = pass.kept.table.coefs ++ terms.map Prod.snd) :
    visitSeveral pass sentinel settings integral pass.kept.table.vars.length scan
          left right =
        .ok
          (pass.visitSeveral sentinel settings integral terms left right) ∧
      PassSized
        (pass.visitSeveral sentinel settings integral terms left right)
        size := by
  have balanced := sized.balanced
  have readVars :
      range scan.vars pass.kept.table.vars.length scan.vars.length =
        .ok (terms.map Prod.fst) := by
    rw [range_eq (by simp [isVars]) (Nat.le_refl _), List.take_length, isVars,
      List.drop_left]
  have readCoefs :
      range scan.coefs pass.kept.table.vars.length scan.coefs.length =
        .ok (terms.map Prod.snd) := by
    rw [range_eq (by simp [isCoefs, balanced]) (Nat.le_refl _),
      List.take_length, isCoefs, ← balanced, List.drop_left]
  let box : RowBox α :=
    {
      sentinel := sentinel
      epsilon := settings.epsilon
      lower := pass.bounds.lower
      upper := pass.bounds.upper
      integral := integral
    }
  have boxSized : box.Sized size :=
    ⟨sized.bounds.lower, sized.bounds.upper, flags⟩
  obtain ⟨lists, tightened, hold⟩ := tighten_eq boxSized inside left right
  have cutVars :
      scan.vars.take pass.kept.table.vars.length = pass.kept.table.vars := by
    rw [isVars, List.take_left]
  have cutCoefs :
      scan.coefs.take pass.kept.table.vars.length = pass.kept.table.coefs := by
    rw [isCoefs, ← balanced, List.take_left]
  have cutAgain :
      withLists pass.kept
          ((pass.kept.table.vars ++ lists.vars).take
            pass.kept.table.vars.length)
          ((pass.kept.table.coefs ++ lists.coefs).take
            pass.kept.table.vars.length) =
        pass.kept := by
    rw [List.take_left, ← balanced, List.take_left]
    rfl
  have keptVars :
      (pass.kept.table.vars ++ lists.vars).take
          (pass.kept.table.vars.length + lists.stop) =
        pass.kept.table.vars ++
          (box.tighten terms left right).terms.map Prod.fst := by
    rw [List.take_length_add_append, hold.vars]
  have keptCoefs :
      (pass.kept.table.coefs ++ lists.coefs).take
          (pass.kept.table.vars.length + lists.stop) =
        pass.kept.table.coefs ++
          (box.tighten terms left right).terms.map Prod.snd := by
    rw [← balanced, List.take_length_add_append, hold.coefs]
  constructor
  · refine bind_eq readVars (bind_eq readCoefs (bind_eq tightened ?_))
    simp only [cutVars, cutCoefs, cutAgain, keptVars, keptCoefs,
      hold.leftRedundant, hold.rightRedundant, hold.left, hold.right,
      hold.changes, pure_eq_ok, RowPass.visitSeveral]
    split
    · rfl
    · simp [KeptRows.keep, RowTable.push, box]
  · refine ⟨sized.bounds, ?_⟩
    rw [RowPass.visitSeveral]
    dsimp only
    split
    · exact balanced
    · simp [KeptRows.keep, RowTable.push, balanced]

/-- A visit of a row with known variables stays in range and leaves the lengths as they are. -/
theorem visitRow_eq
    {row : LinearRow α}
    (sized : PassSized pass size)
    (flags : integral.length = size)
    (inside : ∀ var ∈ row.vars, var < size)
    (sentinel : α)
    (index : Nat) :
    visitRow pass sentinel settings integral index row =
        .ok (pass.visitRow sentinel settings integral index row) ∧
      PassSized (pass.visitRow sentinel settings integral index row) size := by
  have termsInside : ∀ term ∈ row.terms, term.1 < size :=
    fun term member => inside term.1 (List.of_mem_zip member).1
  have scanned :
      row.terms.foldlM (lookAt pass.bounds settings.epsilon)
          {
            vars := pass.kept.table.vars
            coefs := pass.kept.table.coefs
            fixed := DoubleWord.zero
            last := none
          } =
        .ok
          (let significant := RowPass.significantTerms settings.epsilon row
          let free :=
            RowPass.freeTerms pass.bounds settings.epsilon significant
          {
            vars := pass.kept.table.vars ++ free.map Prod.fst
            coefs := pass.kept.table.coefs ++ free.map Prod.snd
            fixed :=
              RowPass.contribution pass.bounds
                (RowPass.fixedTerms pass.bounds settings.epsilon significant)
            last := free.getLast?
          }) := by
    rw [foldlM_lookAt sized.bounds settings.epsilon termsInside]
    simp only [Option.or_none]
    rfl
  have freeInside :
      ∀ term ∈
          RowPass.freeTerms pass.bounds settings.epsilon
            (RowPass.significantTerms settings.epsilon row),
        term.1 < size := by
    intro term member
    refine termsInside term ?_
    exact (List.mem_filter.mp (List.mem_filter.mp member).1).1
  rw [visitRow, scanned, ok_bind, RowPass.visitRow]
  dsimp only
  generalize
    RowPass.shiftSide sentinel (-sentinel) row.left
        (RowPass.contribution pass.bounds
          (RowPass.fixedTerms pass.bounds settings.epsilon
            (RowPass.significantTerms settings.epsilon row))) =
      left
  generalize
    RowPass.shiftSide sentinel sentinel row.right
        (RowPass.contribution pass.bounds
          (RowPass.fixedTerms pass.bounds settings.epsilon
            (RowPass.significantTerms settings.epsilon row))) =
      right
  generalize
    RowPass.freeTerms pass.bounds settings.epsilon
        (RowPass.significantTerms settings.epsilon row) =
      free at freeInside ⊢
  have count :
      minus (pass.kept.table.vars ++ free.map Prod.fst).length
          pass.kept.table.vars.length =
        .ok free.length := by
    rw [minus_eq (by simp)]
    simp
  rw [count, ok_bind]
  match free, freeInside with
  | [], _ =>
      simp only [List.map_nil, List.append_nil, List.getLast?_nil]
      exact ⟨rfl, sized.bounds, sized.balanced⟩
  | [(var, coef)], freeInside =>
      exact
        visitSingle_eq sized (freeInside (var, coef) List.mem_cons_self) sentinel
          index coef left right rfl rfl
  | first :: second :: rest, freeInside =>
      have several : (first :: second :: rest).length ≠ 1 := by
        simp
      rw [List.getLast?_eq_getLast_of_ne_nil (List.cons_ne_nil first _)]
      simp only [if_neg several]
      exact
        visitSeveral_eq sized flags freeInside sentinel left right rfl rfl

/-- Visits of the stored rows from an index on are visits of the rows that are left. -/
theorem visitRows_eq
    {table : RowTable α}
    {remaining index : Nat}
    (wellFormed : table.WellFormed)
    (known : ∀ row ∈ table.toRows, ∀ var ∈ row.vars, var < size)
    (sized : PassSized pass size)
    (flags : integral.length = size)
    (sentinel : α)
    (rowCount : index + remaining = table.rowCount) :
    visitRows table sentinel settings integral remaining index pass =
        .ok
          (RowPass.visitRows sentinel settings integral index
            (table.toRows.drop index) pass) ∧
      PassSized
        (RowPass.visitRows sentinel settings integral index
          (table.toRows.drop index) pass)
        size := by
  induction remaining generalizing index pass with
  | zero =>
      have behind : table.toRows.drop index = [] := by
        rw [List.drop_eq_nil_iff]
        simp only [RowTable.toRows, List.length_map, List.length_zipIdx,
          List.length_zip, wellFormed.rightCount]
        change table.rowCount ⊓ table.rowCount ≤ index
        omega
      rw [behind]
      exact ⟨rfl, sized⟩
  | succ remaining inductionHypothesis =>
      have indexInside : index < table.rowCount := by omega
      obtain ⟨row, read, isRow⟩ := rowAt_eq wellFormed indexInside
      obtain ⟨inside, found⟩ := List.getElem?_eq_some_iff.mp isRow
      have rowFirst :
          table.toRows.drop index = row :: table.toRows.drop (index + 1) := by
        rw [List.drop_eq_getElem_cons inside, found]
      have member : row ∈ table.toRows := found ▸ List.getElem_mem inside
      obtain ⟨visited, visitedSized⟩ :=
        visitRow_eq sized flags (known row member) sentinel index
      rw [visitRows, read, ok_bind, visited, ok_bind, rowFirst,
        RowPass.visitRows]
      split
      · exact ⟨rfl, visitedSized⟩
      · exact inductionHypothesis visitedSized (by omega)

end Visits

section Passes

variable
  {store : Store α}
  {bounds : Bounds α}

/-- A pass over a well formed store stays in range. -/
theorem runPass_eq
    (wellFormed : store.WellFormed)
    (known :
      ∀ row ∈ store.rows.toRows, ∀ var ∈ row.vars, var < store.variableCount)
    (sized : bounds.Sized store.variableCount)
    (sentinel : α)
    (settings : Settings α) :
    runPass store sentinel settings bounds =
        .ok (RowPass.run store sentinel settings bounds) ∧
      (RowPass.run store sentinel settings bounds).bounds.Sized
        store.variableCount := by
  have start :
      PassSized
        {
          bounds := bounds
          kept := KeptRows.empty
          summary := PassSummary.none
        }
        store.variableCount :=
    ⟨sized, rfl⟩
  obtain ⟨visited, visitedSized⟩ :=
    visitRows_eq wellFormed.rows known start wellFormed.integralLength sentinel
      (Nat.zero_add store.rows.rowCount)
  exact ⟨visited, visitedSized.bounds⟩

theorem repeatPasses_eq
    {remaining : Nat}
    {pass : RowPass α}
    (wellFormed : store.WellFormed)
    (known :
      ∀ row ∈ store.rows.toRows, ∀ var ∈ row.vars, var < store.variableCount)
    (sized : pass.bounds.Sized store.variableCount)
    (sentinel : α)
    (settings : Settings α) :
    repeatPasses store sentinel settings remaining pass =
        .ok (RowPass.repeated store sentinel settings remaining pass) ∧
      (RowPass.repeated store sentinel settings remaining pass).bounds.Sized
        store.variableCount := by
  induction remaining generalizing pass with
  | zero =>
      exact ⟨rfl, sized⟩
  | succ remaining inductionHypothesis =>
      obtain ⟨passed, passedSized⟩ :=
        runPass_eq wellFormed known sized sentinel settings
      rw [repeatPasses, passed, ok_bind, RowPass.repeated]
      split
      · exact ⟨rfl, passedSized⟩
      · exact inductionHypothesis passedSized

/-- Repeated passes over a well formed store stay in range. -/
theorem propagate_eq
    (wellFormed : store.WellFormed)
    (known :
      ∀ row ∈ store.rows.toRows, ∀ var ∈ row.vars, var < store.variableCount)
    (sized : bounds.Sized store.variableCount)
    (sentinel : α)
    (settings : Settings α) :
    propagate store sentinel settings bounds =
        .ok (RowPass.propagate store sentinel settings bounds) ∧
      (RowPass.propagate store sentinel settings bounds).bounds.Sized
        store.variableCount :=
  repeatPasses_eq wellFormed known sized sentinel settings

end Passes

end Checked

end SdpRelay
