import SdpRelay.Session.Basic

namespace SdpRelay

/-!
# Settings and parameters of a session

The tolerances and the penalty parameter of a session are passed on to its
solver. A parameter that the session keeps is read from the settings; all others
are left to the solver.
-/

namespace Settings

variable {α : Type} [Scalar α]

/-- The value of a real parameter that a session keeps. -/
def real? (settings : Settings α) : Parameter → Option α
  | .epsilon => some settings.epsilon
  | .gapTolerance => some settings.gapTolerance
  | .feasTolerance => some settings.feasTolerance
  | .penalty => some settings.penalty
  | .maxPenalty => some settings.maxPenalty
  | .infeasibilityFactor => some settings.infeasibilityFactor
  | _ => none

/-- Assign a real parameter that a session keeps; a lower maximum also lowers the penalty. -/
def withReal
    (settings : Settings α)
    (value : α) :
    Parameter → Settings α
  | .epsilon => { settings with epsilon := value }
  | .gapTolerance => { settings with gapTolerance := value }
  | .feasTolerance => { settings with feasTolerance := value }
  | .penalty => { settings with penalty := value }
  | .maxPenalty =>
      {
        settings with
        maxPenalty := value
        penalty := Scalar.smaller settings.penalty value
      }
  | .infeasibilityFactor => { settings with infeasibilityFactor := value }
  | _ => settings

/-- The values that a solver is told, in order. -/
def shared (settings : Settings α) : List (Parameter × α) :=
  [(.epsilon, settings.epsilon),
    (.gapTolerance, settings.gapTolerance),
    (.feasTolerance, settings.feasTolerance),
    (.penalty, settings.penalty)]

end Settings

namespace Session

open SessionM

variable {σ τ α : Type} [Scalar α]

/-- Replace the settings. -/
def putSettings (settings : Settings α) : SessionM σ τ α Unit :=
  modify fun session => { session with settings := settings }

variable [Solver σ α]

/-- Pass a parameter on to the solver, which need not know it. -/
def forward
    (parameter : Parameter)
    (value : α) :
    SessionM σ τ α Unit :=
  onRun (SolveM.askSolver (Solver.forward parameter value))

/-- Pass on all values that the solver is told. -/
def forwardSettings : SessionM σ τ α Unit := do
  (← get).settings.shared.forM fun (parameter, value) =>
    forward parameter value

/-- Put a session around a solver, with settings that are checked and passed on. -/
def create
    (sentinel : α)
    (settings : Settings α)
    (solver : σ)
    (oneVariable : τ) :
    Except (Fault α) (Session σ τ α) := do
  match settings.validate with
  | .error fault => throw (.setting fault)
  | .ok () =>
      match forwardSettings
          (assemble sentinel settings solver oneVariable) with
      | .error fault _ => throw fault
      | .ok _ session => return session

/-- A session around another solver with the same problem and settings, numbered apart. -/
def copyWith
    (session : Session σ τ α)
    (solver : σ)
    (oneVariable : τ) :
    Except (Fault α) (Session σ τ α) := do
  let copy ←
    create session.sentinel session.settings solver oneVariable
  return {
    copy with
    store := session.store
    problemNumber := 1000000 + session.problemNumber
  }

/-- Replace all settings at once. -/
def updateSettings (settings : Settings α) : SessionM σ τ α Unit := do
  liftExcept .setting settings.validate
  putSettings settings
  forwardSettings

/-- The value of a real parameter. -/
def getReal
    (session : Session σ τ α)
    (parameter : Parameter) :
    Except (Fault α) α :=
  match session.settings.real? parameter with
  | some value => .ok value
  | none =>
      if parameter.isReal then
        (Solver.getReal session.run.solver parameter).mapError
          (Fault.ofAssignment parameter)
      else
        .error (.unknownParameter parameter)

/-- Leave an assignment to the solver. -/
def assignAtSolver
    (parameter : Parameter)
    (assignment : EStateM SolverFault σ Unit) :
    SessionM σ τ α Unit :=
  fun session =>
    match assignment session.run.solver with
    | .ok _ solver =>
        .ok () { session with run := { session.run with solver := solver } }
    | .error fault solver =>
        .error (Fault.ofAssignment parameter fault)
          { session with run := { session.run with solver := solver } }

/-- Assign a real parameter that the session keeps, and pass on what the solver is told. -/
def setOwnReal
    (parameter : Parameter)
    (value : α) :
    SessionM σ τ α Unit := do
  let settings := (← get).settings
  let changed := settings.withReal value parameter
  liftExcept .setting changed.validate
  putSettings changed
  if parameter.scope = .shared then
    forward parameter value
  else if changed.penalty != settings.penalty then
    forward .penalty changed.penalty

/-- Assign a real parameter. -/
def setReal
    (parameter : Parameter)
    (value : α) :
    SessionM σ τ α Unit :=
  if !parameter.isReal then
    throw (.unknownParameter parameter)
  else if parameter.scope = .solver then
    assignAtSolver parameter (Solver.setReal parameter value)
  else
    setOwnReal parameter value

/-- The value of an integral parameter. -/
def getInteger
    (session : Session σ τ α)
    (parameter : Parameter) :
    Except (Fault α) Int32 :=
  match parameter with
  | .slaterCheck => .ok session.settings.slaterCheck.toInt
  | .penaltyIncreases => .ok session.settings.penaltyIncreases.toInt32
  | _ =>
      if parameter.isReal then
        .error (.unknownParameter parameter)
      else
        (Solver.getInteger session.run.solver parameter).mapError
          (Fault.ofAssignment parameter)

/-- Assign an integral parameter. -/
def setInteger
    (parameter : Parameter)
    (value : Int32) :
    SessionM σ τ α Unit := do
  let settings := (← get).settings
  match parameter with
  | .slaterCheck =>
      match SlaterCheck.ofInt? value with
      | some choice => putSettings { settings with slaterCheck := choice }
      | none => throw (.slaterCheckRange value)
  | .penaltyIncreases =>
      if value < 0 then
        throw (.penaltyIncreasesRange value)
      else
        putSettings { settings with penaltyIncreases := value.toUInt32 }
  | _ =>
      if parameter.isReal then
        throw (.unknownParameter parameter)
      else
        assignAtSolver parameter (Solver.setInteger parameter value)

/-- Let the solver choose its first scaling for the largest expected value of a variable. -/
def guessScaling (largest : α) : SessionM σ τ α Unit :=
  onRun (SolveM.askSolver (Solver.guessScaling largest))

/-- Let the solver choose the penalty parameter for a coefficient, up to the maximum. -/
def choosePenalty (coefficient : α) : SessionM σ τ α α := do
  let session ← get
  let suggested ←
    liftExcept .solver
      (Solver.suggestPenalty session.run.solver coefficient)
  let penalty := Scalar.smaller suggested session.settings.maxPenalty
  putSettings { session.settings with penalty := penalty }
  forward .penalty penalty
  return penalty

/-- Let the solver choose the largest penalty parameter, to which the penalty is lowered. -/
def chooseMaxPenalty (penalty : α) : SessionM σ τ α α := do
  let session ← get
  let suggested ←
    liftExcept .solver
      (Solver.suggestMaxPenalty session.run.solver penalty)
  if suggested < session.settings.penalty then
    putSettings
      { session.settings with maxPenalty := suggested, penalty := suggested }
    forward .penalty suggested
  else
    putSettings { session.settings with maxPenalty := suggested }
  return suggested

end Session

end SdpRelay
