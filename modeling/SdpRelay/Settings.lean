import SdpRelay.Number.Scalar
import SdpRelay.Timing.Clock

namespace SdpRelay

/-!
# Settings

Tolerances, the penalty parameters and the switches of a session. Settings are
accepted if every number is positive and finite and the penalty parameter does
not exceed its maximum.
-/

/-- Whether the Slater condition is tested before a solve, and whether a failed test is printed. -/
inductive SlaterCheck where
  | off
  | check
  | print
  deriving Repr, DecidableEq

namespace SlaterCheck

/-- The number of a choice. -/
def toInt : SlaterCheck → Int32
  | off => 0
  | check => 1
  | print => 2

/-- The choice with a given number. -/
def ofInt? (n : Int32) : Option SlaterCheck :=
  if n = 0 then some off
  else if n = 1 then some check
  else if n = 2 then some print
  else none

end SlaterCheck

/-- The numerical settings, which can be out of range. -/
inductive SettingField where
  | epsilon
  | gapTolerance
  | feasTolerance
  | penalty
  | maxPenalty
  | infeasibilityFactor
  deriving Repr, DecidableEq

/-- The name of a field outside of this library. -/
def SettingField.key : SettingField → String
  | epsilon => "epsilon"
  | gapTolerance => "gaptol"
  | feasTolerance => "feastol"
  | penalty => "penaltyparam"
  | maxPenalty => "maxpenaltyparam"
  | infeasibilityFactor => "peninfeasadjust"

/-- A field has a value out of range. -/
structure SettingFault where
  field : SettingField
  deriving Repr, DecidableEq

/-- The sentence that describes a fault. -/
def SettingFault.message (fault : SettingFault) : String :=
  "Bad value for field \"" ++ fault.field.key ++ "\""

/-- The settings of a session. -/
structure Settings (α : Type) where
  /-- Differences up to this size count as equality. -/
  epsilon : α
  /-- Accepted gap between the primal and the dual value. -/
  gapTolerance : α
  /-- Accepted violation of a constraint. -/
  feasTolerance : α
  /-- First penalty parameter of the penalty formulation. -/
  penalty : α
  /-- Largest penalty parameter. -/
  maxPenalty : α
  /-- A penalty value above this multiple of the larger tolerance proves infeasibility. -/
  infeasibilityFactor : α
  /-- Number of steps from the first to the largest penalty parameter. -/
  penaltyIncreases : UInt32
  slaterCheck : SlaterCheck
  clockKind : ClockKind
  /-- Print a summary after each solve. -/
  verbose : Bool
  /-- Keep the eigenvectors found when all variables are fixed. -/
  keepsFixedVectors : Bool
  deriving Repr, DecidableEq

namespace Settings

variable {α : Type} [Scalar α]

/-- The settings of a session that is given none. -/
def standard : Settings α :=
  {
    epsilon := 1e-9
    gapTolerance := 1e-4
    feasTolerance := 1e-6
    penalty := 1e5
    maxPenalty := 1e10
    infeasibilityFactor := 10.0
    penaltyIncreases := 8
    slaterCheck := .off
    clockKind := .wall
    verbose := false
    keepsFixedVectors := false
  }

/-- The value of a numerical field. -/
def get (settings : Settings α) : SettingField → α
  | .epsilon => settings.epsilon
  | .gapTolerance => settings.gapTolerance
  | .feasTolerance => settings.feasTolerance
  | .penalty => settings.penalty
  | .maxPenalty => settings.maxPenalty
  | .infeasibilityFactor => settings.infeasibilityFactor

/-- A field is positive and finite. -/
def checkPositive
    (settings : Settings α)
    (field : SettingField) :
    Except SettingFault Unit :=
  if 0 < settings.get field ∧ Scalar.isFinite (settings.get field) = true then
    .ok ()
  else
    .error { field := field }

/-- The penalty parameter does not exceed its maximum. -/
def checkPenaltyOrder
    (settings : Settings α) :
    Except SettingFault Unit :=
  if settings.maxPenalty < settings.penalty then
    .error { field := .penalty }
  else
    .ok ()

/-- Check the fields in a given order, and then the order of the penalty parameters. -/
def checkInOrder
    (settings : Settings α)
    (fields : List SettingField) :
    Except SettingFault Unit := do
  fields.forM settings.checkPositive
  settings.checkPenaltyOrder

/-- Check complete settings. -/
def validate
    (settings : Settings α) :
    Except SettingFault Unit :=
  settings.checkInOrder
    [.epsilon, .gapTolerance, .feasTolerance, .penalty, .maxPenalty,
      .infeasibilityFactor]

/-- Check settings that are being put together: the factor comes before the penalty parameters. -/
def validateDraft
    (settings : Settings α) :
    Except SettingFault Unit :=
  settings.checkInOrder
    [.epsilon, .gapTolerance, .feasTolerance, .infeasibilityFactor, .penalty,
      .maxPenalty]

end Settings

/-- Changes to settings: the fields that are given. -/
structure SettingsChange (α : Type) where
  epsilon : Option α := none
  gapTolerance : Option α := none
  feasTolerance : Option α := none
  penalty : Option α := none
  maxPenalty : Option α := none
  infeasibilityFactor : Option α := none
  penaltyIncreases : Option UInt32 := none
  slaterCheck : Option SlaterCheck := none
  clockKind : Option ClockKind := none
  verbose : Option Bool := none
  keepsFixedVectors : Option Bool := none
  deriving Repr, DecidableEq

namespace SettingsChange

variable {α : Type} [Scalar α]

/-- Override the given fields. -/
def apply
    (change : SettingsChange α)
    (settings : Settings α) :
    Settings α :=
  {
    epsilon := change.epsilon.getD settings.epsilon
    gapTolerance := change.gapTolerance.getD settings.gapTolerance
    feasTolerance := change.feasTolerance.getD settings.feasTolerance
    penalty := change.penalty.getD settings.penalty
    maxPenalty := change.maxPenalty.getD settings.maxPenalty
    infeasibilityFactor :=
      change.infeasibilityFactor.getD settings.infeasibilityFactor
    penaltyIncreases := change.penaltyIncreases.getD settings.penaltyIncreases
    slaterCheck := change.slaterCheck.getD settings.slaterCheck
    clockKind := change.clockKind.getD settings.clockKind
    verbose := change.verbose.getD settings.verbose
    keepsFixedVectors := change.keepsFixedVectors.getD settings.keepsFixedVectors
  }

/-- Put settings together from the given fields and the standard ones. -/
def build
    (change : SettingsChange α) :
    Except SettingFault (Settings α) := do
  let settings := change.apply Settings.standard
  settings.validateDraft
  return settings

end SettingsChange

end SdpRelay
