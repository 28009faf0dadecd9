import SdpRelay.Linear.Triplets

namespace SdpRelay

/-!
# Semidefinite programs

The list view of a mixed-integer semidefinite program

  minimise `objective · y` such that `lower ≤ y ≤ upper`,
  every row has `left ≤ coefs · y ≤ right`, and
  every block has `Σ y_v A_v - A_0` positive semidefinite.

A program of this type is plain data and may be malformed in every way.
-/

/-- A two-sided linear constraint. -/
structure LinearRow (α : Type) where
  left : α
  right : α
  vars : List Nat
  coefs : List α
  deriving Repr, DecidableEq

namespace LinearRow

variable {α : Type}

/-- The variables of a row with their coefficients. -/
def terms (row : LinearRow α) : List (Nat × α) :=
  row.vars.zip row.coefs

end LinearRow

/-- The coefficient matrix of a variable inside a block. -/
structure BlockTerm (α : Type) where
  var : Nat
  entries : Triplets α
  deriving Repr, DecidableEq

/-- A matrix constraint: the combination of its terms minus the constant is positive semidefinite. -/
structure Block (α : Type) where
  size : Nat
  terms : List (BlockTerm α)
  constant : Triplets α
  deriving Repr, DecidableEq

/-- A semidefinite program as lists. -/
structure Program (α : Type) where
  objective : List α
  lower : List α
  upper : List α
  /-- Which variables are integral; without it none is. -/
  integral : Option (List Bool)
  blocks : List (Block α)
  rows : List (LinearRow α)
  deriving Repr, DecidableEq

namespace Program

variable {α : Type}

/-- The program without variables. -/
def empty : Program α :=
  {
    objective := []
    lower := []
    upper := []
    integral := none
    blocks := []
    rows := []
  }

/-- The integrality flag of every variable. -/
def integralFlags (program : Program α) : List Bool :=
  program.integral.getD (List.replicate program.objective.length false)

end Program

end SdpRelay
