import SdpRelay.Problem.Check
import SdpRelay.ProblemFile.Fault
import SdpRelay.Settings
import SdpRelay.Solver.Interface

namespace SdpRelay

/-!
# Faults of a session

Every reason for which an operation of a session fails, collected from the parts
that it is made of, with the sentences that tell them apart.
-/

/-- Why an operation of a session fails. -/
inductive Fault (α : Type) where
  /-- A result was asked for and there is none. -/
  | notSolved
  | store (fault : StoreFault α)
  | unknownParameter (parameter : Parameter)
  | slaterCheckRange (value : Int32)
  | penaltyIncreasesRange (value : Int32)
  /-- There is no memory for the arrays of a solve, as for the maps of its compaction. -/
  | compaction (fault : MemoryFault)
  | solver (fault : SolverFault)
  | eigen (fault : EigenFault)
  | setting (fault : SettingFault)
  | clock (fault : ClockFault)
  /-- A problem file cannot be read, or a print target does not take a text. -/
  | file (fault : FileFault)
  deriving Repr, DecidableEq

namespace Fault

variable {α : Type}

/-- The sentence that describes a fault; faults of files and print targets have none. -/
def message
    (text : NumberText α) :
    Fault α → String
  | notSolved => "problem has not been solved"
  | store (.malformedMatrix fault) =>
      "sparse format error: " ++ fault.message
  | store fault => "bad input: " ++ fault.detail text
  | unknownParameter parameter => "unknown parameter " ++ parameter.key
  | slaterCheckRange value =>
      "bad input: invalid Slater check setting " ++ toString value.toInt
  | penaltyIncreasesRange value =>
      "bad input: invalid number of penalty increases " ++ toString value.toInt
  | compaction fault => fault.message
  | solver fault => "backend error: " ++ fault.message
  | eigen fault => "eigen decomposition failed: " ++ fault.message
  | setting fault => "settings error: " ++ fault.message
  | clock fault => "clock error: " ++ fault.message
  | file _ => ""

/-- The fault of an assignment that a solver refuses. -/
def ofAssignment
    (parameter : Parameter) :
    SolverFault → Fault α
  | .parameterUnknown => unknownParameter parameter
  | fault => solver fault

end Fault

end SdpRelay
