import SdpRelay.Presolve.Bounds
import SdpRelay.Presolve.Coefficients
import SdpRelay.Problem.Store
import SdpRelay.Settings

namespace SdpRelay

/-!
# Presolve of the linear rows

One pass goes over the stored rows in order. The values of fixed variables move
into the sides of a row. A row without free variables is checked, a row with one
free variable becomes bounds of it, and any other row is tightened and kept
unless both of its sides are redundant. Passes are repeated while they fix
variables, because a newly fixed variable may leave a row with at most one free
variable.
-/

/-- The rows kept by a pass, and for each stored row seen its position among them. -/
structure KeptRows (α : Type) where
  table : RowTable α
  positions : List (Option Nat)
  deriving Repr, DecidableEq

namespace KeptRows

variable {α : Type}

/-- No row has been seen. -/
def empty : KeptRows α :=
  { table := RowTable.empty, positions := [] }

/-- Note a stored row that is not kept. -/
def skip (kept : KeptRows α) : KeptRows α :=
  { kept with positions := kept.positions ++ [none] }

/-- Keep a row in place of the stored row seen next. -/
def keep
    (kept : KeptRows α)
    (row : LinearRow α) :
    KeptRows α :=
  {
    table := kept.table.push row
    positions := kept.positions ++ [some kept.table.rowCount]
  }

end KeptRows

/-- What one or several passes over the rows found. -/
structure PassSummary where
  infeasible : Bool
  /-- A row with one free variable fixed that variable. -/
  fixedSome : Bool
  changedCoefs : Nat
  changedBounds : Nat
  deriving Repr, DecidableEq

namespace PassSummary

/-- Nothing has been found. -/
def none : PassSummary :=
  {
    infeasible := false
    fixedSome := false
    changedCoefs := 0
    changedBounds := 0
  }

/-- Add a later pass, whose verdict on feasibility replaces the earlier one. -/
def followedBy (earlier later : PassSummary) : PassSummary :=
  {
    infeasible := later.infeasible
    fixedSome := earlier.fixedSome || later.fixedSome
    changedCoefs := earlier.changedCoefs + later.changedCoefs
    changedBounds := earlier.changedBounds + later.changedBounds
  }

end PassSummary

/-- The state of a pass. -/
structure RowPass (α : Type) where
  bounds : Bounds α
  kept : KeptRows α
  summary : PassSummary
  deriving Repr, DecidableEq

namespace RowPass

variable {α : Type} [Scalar α]

/-- Terms whose coefficient is larger than `epsilon` in magnitude. -/
def significantTerms
    (epsilon : α)
    (row : LinearRow α) :
    List (Nat × α) :=
  row.terms.filter fun (_, coef) => !decide (Scalar.abs coef ≤ epsilon)

/-- Terms of variables that are not fixed. -/
def freeTerms
    (bounds : Bounds α)
    (epsilon : α)
    (terms : List (Nat × α)) :
    List (Nat × α) :=
  terms.filter fun (var, _) => !decide (bounds.Fixed epsilon var)

/-- Terms of fixed variables. -/
def fixedTerms
    (bounds : Bounds α)
    (epsilon : α)
    (terms : List (Nat × α)) :
    List (Nat × α) :=
  terms.filter fun (var, _) => decide (bounds.Fixed epsilon var)

/-- The contribution of terms at the lower bounds of their variables. -/
def contribution
    (bounds : Bounds α)
    (terms : List (Nat × α)) :
    DoubleWord α :=
  terms.foldl
    (fun total (var, coef) => total.addProduct coef (bounds.lowerAt var))
    DoubleWord.zero

/-- A side minus the contribution of fixed variables; sides at the sentinel become `infinite`. -/
def shiftSide
    (sentinel infinite side : α)
    (fixed : DoubleWord α) :
    α :=
  if sentinel ≤ Scalar.abs side then
    infinite
  else
    ((fixed.scale (-1)).add side).value

/-- A row without free variables. -/
def visitFixed
    (pass : RowPass α)
    (feasTolerance left right : α) :
    RowPass α :=
  {
    pass with
    kept := pass.kept.skip
    summary :=
      if feasTolerance < left ∨ right < -feasTolerance then
        { pass.summary with infeasible := true }
      else
        pass.summary
  }

/-- A row with one free variable. -/
def visitSingle
    (pass : RowPass α)
    (sentinel : α)
    (settings : Settings α)
    (index var : Nat)
    (coef left right : α) :
    RowPass α :=
  let (bounds, changed) :=
    pass.bounds.tighten sentinel settings.epsilon index var coef left right
  let counted :=
    {
      pass.summary with
      changedBounds := pass.summary.changedBounds + changed
    }
  {
    bounds := bounds
    kept := pass.kept.skip
    summary :=
      if bounds.upperAt var + settings.feasTolerance < bounds.lowerAt var then
        { counted with infeasible := true }
      else if bounds.Fixed settings.epsilon var then
        { counted with fixedSome := true }
      else
        counted
  }

/-- A row with several free terms. -/
def visitSeveral
    (pass : RowPass α)
    (sentinel : α)
    (settings : Settings α)
    (integral : List Bool)
    (terms : List (Nat × α))
    (left right : α) :
    RowPass α :=
  let box : RowBox α :=
    {
      sentinel := sentinel
      epsilon := settings.epsilon
      lower := pass.bounds.lower
      upper := pass.bounds.upper
      integral := integral
    }
  let tightened := box.tighten terms left right
  {
    pass with
    kept :=
      if tightened.leftRedundant && tightened.rightRedundant then
        pass.kept.skip
      else
        pass.kept.keep {
          left := tightened.left
          right := tightened.right
          vars := tightened.terms.map Prod.fst
          coefs := tightened.terms.map Prod.snd
        }
    summary :=
      {
        pass.summary with
        changedCoefs := pass.summary.changedCoefs + tightened.changes
      }
  }

/-- Visit one stored row. -/
def visitRow
    (pass : RowPass α)
    (sentinel : α)
    (settings : Settings α)
    (integral : List Bool)
    (index : Nat)
    (row : LinearRow α) :
    RowPass α :=
  let terms := significantTerms settings.epsilon row
  let fixed :=
    contribution pass.bounds
      (fixedTerms pass.bounds settings.epsilon terms)
  let left := shiftSide sentinel (-sentinel) row.left fixed
  let right := shiftSide sentinel sentinel row.right fixed
  match freeTerms pass.bounds settings.epsilon terms with
  | [] => pass.visitFixed settings.feasTolerance left right
  | [(var, coef)] =>
      pass.visitSingle sentinel settings index var coef left right
  | several =>
      pass.visitSeveral sentinel settings integral several left right

/-- Visit stored rows in order, up to the first that proves infeasibility. -/
def visitRows
    (sentinel : α)
    (settings : Settings α)
    (integral : List Bool) :
    Nat → List (LinearRow α) → RowPass α → RowPass α
  | _, [], pass => pass
  | index, row :: rest, pass =>
      let next := pass.visitRow sentinel settings integral index row
      if next.summary.infeasible then
        next
      else
        visitRows sentinel settings integral (index + 1) rest next

/-- One pass over the rows of a store, starting from given bounds. -/
def run
    (store : Store α)
    (sentinel : α)
    (settings : Settings α)
    (bounds : Bounds α) :
    RowPass α :=
  visitRows sentinel settings store.integral 0 store.rows.toRows
    {
      bounds := bounds
      kept := KeptRows.empty
      summary := PassSummary.none
    }

/--
Repeat passes until one proves infeasibility or fixes nothing, at most a given
number of times.
-/
def repeated
    (store : Store α)
    (sentinel : α)
    (settings : Settings α) :
    Nat → RowPass α → RowPass α
  | 0, pass => pass
  | remaining + 1, pass =>
      let next := run store sentinel settings pass.bounds
      let total :=
        { next with summary := pass.summary.followedBy next.summary }
      if next.summary.infeasible || !next.summary.fixedSome then
        total
      else
        repeated store sentinel settings remaining total

/--
Pass over the rows until nothing more gets fixed. Every pass but the last fixes
a variable, so one pass more than there are variables is enough.
-/
def propagate
    (store : Store α)
    (sentinel : α)
    (settings : Settings α)
    (bounds : Bounds α) :
    RowPass α :=
  repeated store sentinel settings (bounds.lower.length + 1)
    {
      bounds := bounds
      kept := KeptRows.empty
      summary := PassSummary.none
    }

end RowPass

end SdpRelay
