namespace SdpRelay

/-!
# The solve clock

A clock that is started at the beginning of a solve and stopped at its end. The
readings themselves come from outside: the clock only counts how often it has
been read since it was started, so that a run is determined by the sequence of
readings that it is given.
-/

/-- The time source of a clock. -/
inductive ClockKind where
  | cpu
  | wall
  deriving Repr, DecidableEq

/-- Why a clock refuses an operation. -/
inductive ClockFault where
  | running
  | notRunning
  deriving Repr, DecidableEq

/-- The sentence that describes a refusal. -/
def ClockFault.message : ClockFault → String
  | .running => "clock is already running"
  | .notRunning => "clock is not running"

/-- A clock that can be started and stopped. -/
structure Clock where
  kind : ClockKind
  running : Bool
  /-- How often the clock has been read since it was last started. -/
  reads : Nat
  deriving Repr, DecidableEq

namespace Clock

/-- A stopped clock. -/
def stopped (kind : ClockKind) : Clock :=
  { kind := kind, running := false, reads := 0 }

/-- Change the time source of a stopped clock. -/
def setKind
    (clock : Clock)
    (kind : ClockKind) :
    Except ClockFault Clock :=
  if clock.running then
    .error .running
  else
    .ok { clock with kind := kind }

/-- Start a stopped clock. -/
def start (clock : Clock) : Except ClockFault Clock :=
  if clock.running then
    .error .running
  else
    .ok { clock with running := true, reads := 0 }

/-- Stop a running clock. -/
def stop (clock : Clock) : Except ClockFault Clock :=
  if clock.running then
    .ok { clock with running := false }
  else
    .error .notRunning

end Clock

end SdpRelay
