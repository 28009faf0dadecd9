import SdpRelay.Solve.Slater
import SdpRelay.Solve.Verdict
import SdpRelay.Timing.Phases

namespace SdpRelay

/-!
# Notices

What a session prints. Notices are kept as data and written out when they are
asked for, so that a solve does not depend on how numbers are written.
-/

/-- What a solve call took out of the solver. -/
structure Usage (α : Type) where
  /-- Seconds spent. -/
  time : α
  iterations : UInt32
  calls : UInt32
  deriving Repr, DecidableEq

namespace Usage

variable {α : Type} [Scalar α]

/-- The solver has not been used. -/
def none : Usage α :=
  { time := 0, iterations := 0, calls := 0 }

/-- Add what the last solve of the solver took. -/
def addReport
    (usage : Usage α)
    (report : SolverReport α) :
    Usage α :=
  {
    time := usage.time + report.time
    iterations := usage.iterations + report.iterations
    calls := usage.calls + report.calls
  }

end Usage

/-- The finding of one half of a Slater check. -/
inductive SlaterFinding (α : Type) where
  | dual (finding : DualFinding α)
  | primal (finding : PrimalFinding)
  deriving Repr, DecidableEq

namespace SlaterFinding

variable {α : Type} [Scalar α]

/-- The verdict of a finding. -/
def verdict : SlaterFinding α → SlaterVerdict
  | dual finding => finding.verdict
  | primal finding => finding.verdict

/-- The sentence that describes a finding. -/
def message
    (text : NumberText α) :
    SlaterFinding α → String
  | dual finding => finding.message text
  | primal finding => finding.message

end SlaterFinding

/-- The account of a solve. -/
structure Summary (α : Type) where
  problemNumber : Nat
  verdict : Verdict α
  /-- The objective value, if there is one. -/
  objective : Option α
  usage : Usage α
  phases : Phases
  deriving Repr, DecidableEq

namespace Summary

variable {α : Type} [Scalar α]

/-- The lines of a summary; a mark stands for each duration that is not the solver's. -/
def lines
    (text : NumberText α)
    (durationMark : String)
    (summary : Summary α) :
    List String :=
  [s!"SDP {summary.problemNumber}: " ++ summary.verdict.describe] ++
    (summary.objective.toList.map fun value =>
      "  objective value = " ++ text.objective value) ++
    [s!"  solver calls    = {summary.usage.calls}",
      s!"  iterations      = {summary.usage.iterations}",
      "  solver time     = " ++ text.seconds summary.usage.time,
      "  total time      = " ++ durationMark,
      "timings:"] ++
    summary.phases.lines durationMark

end Summary

/-- Something that a session prints. -/
inductive Notice (α : Type) where
  /-- Why a problem is hard. -/
  | slater (problemNumber : Nat) (finding : SlaterFinding α)
  /-- Why a problem could not be solved. -/
  | aborting (finding : SlaterFinding α)
  | summary (account : Summary α)
  deriving Repr, DecidableEq

namespace Notice

variable {α : Type} [Scalar α]

/-- The lines of a notice. -/
def lines
    (text : NumberText α)
    (durationMark : String) :
    Notice α → List String
  | slater problemNumber finding =>
      [s!"SDP {problemNumber}: " ++ finding.message text]
  | aborting finding =>
      ["Aborting: Failed to solve root node relaxation; " ++
        finding.message text ++ "."]
  | summary account => account.lines text durationMark

/-- The text of notices in the order in which they came up. -/
def text
    (numbers : NumberText α)
    (durationMark : String)
    (notices : List (Notice α)) :
    String :=
  String.join
    ((notices.flatMap (lines numbers durationMark)).map (· ++ "\n"))

end Notice

end SdpRelay
