import SdpRelay.Number.Text
import SdpRelay.Problem.Program

namespace SdpRelay

/-!
# What a problem store accepts

Every way in which an edit of a stored problem can be refused, the wording of
the refusals, and the checks. Where an edit has several faults, the first check
in the order written here decides.
-/

/-- Why an edit of the stored problem is refused. -/
inductive StoreFault (α : Type) where
  | wrongLength (what : String) (actual expected : Nat)
  | invalidBounds (lower upper : α)
  | invalidSides (left right : α)
  | unknownTermVariable (var block count : Nat)
  | malformedMatrix (fault : FormatFault)
  | unknownRowVariable (var : Nat)
  | nonFiniteCoefficient
  | missingVariable (var : Nat)
  | missingRow (row : Nat)
  | invalidRowRange (first last count : Nat)
  /-- Input that code outside this library refuses, in its own words. -/
  | described (detail : String)
  deriving Repr, DecidableEq

/-- The sentence that describes a refusal, without the kind of data it is about. -/
def StoreFault.detail
    {α : Type}
    (text : NumberText α) :
    StoreFault α → String
  | .wrongLength what actual expected =>
      s!"{what} has length {actual}, expected {expected}"
  | .invalidBounds lower upper =>
      "invalid bounds [" ++ text.plain lower ++ ", " ++ text.plain upper ++ "]"
  | .invalidSides left right =>
      "invalid sides [" ++ text.plain left ++ ", " ++ text.plain right ++ "]"
  | .unknownTermVariable var block count =>
      s!"variable {var} in block {block} exceeds number of variables {count}"
  | .malformedMatrix fault => fault.message
  | .unknownRowVariable var => s!"LP row uses unknown variable {var}"
  | .nonFiniteCoefficient => "LP row has a non-finite coefficient"
  | .missingVariable var => s!"variable {var} does not exist"
  | .missingRow row => s!"LP row {row} does not exist"
  | .invalidRowRange first last count =>
      s!"cannot delete LP rows {first}..={last} of {count}"
  | .described detail => detail

namespace Check

variable {α : Type} [Scalar α]

/-- A list has the expected length. -/
def length
    (what : String)
    (actual expected : Nat) :
    Except (StoreFault α) Unit :=
  if actual = expected then
    .ok ()
  else
    .error (.wrongLength what actual expected)

/-- A lower limit is below the sentinel, an upper limit above its negative, and both are numbers. -/
def LimitsValid
    (sentinel lower upper : α) :
    Prop :=
  Scalar.isNaN lower = false ∧ Scalar.isNaN upper = false ∧
    ¬ sentinel ≤ lower ∧ ¬ upper ≤ -sentinel

instance
    (sentinel lower upper : α) :
    Decidable (LimitsValid sentinel lower upper) :=
  inferInstanceAs (Decidable (_ ∧ _))

/-- The bounds of a variable. -/
def bounds
    (sentinel lower upper : α) :
    Except (StoreFault α) Unit :=
  if LimitsValid sentinel lower upper then
    .ok ()
  else
    .error (.invalidBounds lower upper)

/-- The sides of a row. -/
def sides
    (sentinel left right : α) :
    Except (StoreFault α) Unit :=
  if LimitsValid sentinel left right then
    .ok ()
  else
    .error (.invalidSides left right)

/-- A linear row over a number of variables. -/
def row
    (sentinel : α)
    (variableCount : Nat)
    (candidate : LinearRow α) :
    Except (StoreFault α) Unit := do
  length "LP row values" candidate.coefs.length candidate.vars.length
  sides sentinel candidate.left candidate.right
  match candidate.vars.find? (fun var => decide (variableCount ≤ var)) with
  | some var => .error (.unknownRowVariable var)
  | none => .ok ()
  if candidate.coefs.any
      (fun coef => beyondSentinel sentinel coef || Scalar.isNaN coef) then
    .error .nonFiniteCoefficient
  else
    .ok ()

/-- A sparse matrix of a given size. -/
def matrix
    (size : Nat)
    (entries : Triplets α) :
    Except (StoreFault α) Unit :=
  match entries.check size with
  | .ok () => .ok ()
  | .error fault => .error (.malformedMatrix fault)

/-- One term of the block with the given number. -/
def term
    (variableCount blockNumber size : Nat)
    (candidate : BlockTerm α) :
    Except (StoreFault α) Unit := do
  if variableCount ≤ candidate.var then
    .error (.unknownTermVariable candidate.var blockNumber variableCount)
  else
    .ok ()
  matrix size candidate.entries

/-- The blocks from the given number on. -/
def blocksFrom
    (variableCount : Nat) :
    Nat → List (Block α) → Except (StoreFault α) Unit
  | _, [] => .ok ()
  | blockNumber, candidate :: rest => do
      candidate.terms.forM (term variableCount blockNumber candidate.size)
      matrix candidate.size candidate.constant
      blocksFrom variableCount (blockNumber + 1) rest

/-- A whole program. -/
def program
    (sentinel : α)
    (candidate : Program α) :
    Except (StoreFault α) Unit := do
  let variableCount := candidate.objective.length
  length "lb" candidate.lower.length variableCount
  length "ub" candidate.upper.length variableCount
  match candidate.integral with
  | some flags => length "isintegral" flags.length variableCount
  | none => .ok ()
  (candidate.lower.zip candidate.upper).forM
    fun (lower, upper) => bounds sentinel lower upper
  blocksFrom variableCount 0 candidate.blocks
  candidate.rows.forM (row sentinel variableCount)

end Check

end SdpRelay
