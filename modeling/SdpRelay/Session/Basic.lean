import SdpRelay.Solve.Run

namespace SdpRelay

/-!
# Sessions

A session holds a problem between solves, with the settings, a solver and the
method for one free variable. Every edit of the problem takes back what was
found out about it, whether or not the edit is accepted; a change of the
objective keeps what does not depend on the objective.
-/

/-- A stored problem with everything that is needed to solve it. -/
structure Session (σ τ α : Type) where
  /-- The magnitude from which numbers count as infinite. -/
  sentinel : α
  store : Store α
  settings : Settings α
  /-- The number of the next problem in notices. -/
  problemNumber : Nat
  run : SolveRun σ τ α

/-- Operations of a session: they may fail, and they change the session even if they do. -/
abbrev SessionM (σ τ α : Type) := EStateM (Fault α) (Session σ τ α)

namespace SessionM

variable {σ τ α β : Type}

/-- Take a step of a solve. -/
def onRun
    (step : SolveM σ τ α β) :
    SessionM σ τ α β :=
  fun session =>
    match step session.run with
    | .ok answer run => .ok answer { session with run := run }
    | .error fault run => .error fault { session with run := run }

/-- Fail in a given way unless there is a result. -/
def liftExcept
    {ε : Type}
    (wrap : ε → Fault α) :
    Except ε β → SessionM σ τ α β
  | .ok answer => pure answer
  | .error fault => throw (wrap fault)

end SessionM

namespace Session

open SessionM

variable {σ τ α : Type} [Scalar α]

/-- The sentinel of a session that is given none. -/
def standardSentinel : α := 1e20

/-- A session without a problem. -/
def assemble
    (sentinel : α)
    (settings : Settings α)
    (solver : σ)
    (oneVariable : τ) :
    Session σ τ α :=
  {
    sentinel := sentinel
    store := Store.empty
    settings := settings
    problemNumber := 1
    run := SolveRun.fresh sentinel settings.clockKind solver oneVariable
  }

/-- Change the sentinel. -/
def setSentinel (sentinel : α) : SessionM σ τ α Unit :=
  modify fun session => { session with sentinel := sentinel }

/-- Take back the last result. -/
def dropResult : SessionM σ τ α Unit :=
  modify fun session => { session with run := session.run.withoutResult }

/-- Take back everything that was found out about the problem. -/
def dropFindings : SessionM σ τ α Unit :=
  modify fun session =>
    { session with run := session.run.withoutFindings session.sentinel }

/-- Apply an edit of the store. -/
def edit
    (change : Session σ τ α → Except (StoreFault α) (Store α)) :
    SessionM σ τ α Unit := do
  let store ← liftExcept .store (change (← get))
  modify fun session => { session with store := store }

/-- Store a program in place of what was stored. -/
def load (program : Program α) : SessionM σ τ α Unit := do
  dropFindings
  edit fun session => Store.load session.sentinel program

/-- Append linear rows. -/
def addRows (rows : List (LinearRow α)) : SessionM σ τ α Unit := do
  dropFindings
  edit fun session => session.store.addRows session.sentinel rows

/-- Delete the linear rows `first` to `last`, both included. -/
def deleteRows (first last : Nat) : SessionM σ τ α Unit := do
  dropFindings
  edit fun session => session.store.deleteRows first last

/-- Delete the flagged linear rows, and tell where every row went. -/
def deleteRowSet
    (flags : List Bool) :
    SessionM σ τ α (List (Option Nat)) := do
  dropFindings
  let (store, positions) ←
    liftExcept .store ((← get).store.deleteRowSet flags)
  modify fun session => { session with store := store }
  return positions

/-- Change objective coefficients; what is known about the feasible points stays known. -/
def changeObjective
    (vars : List Nat)
    (values : List α) :
    SessionM σ τ α Unit := do
  dropResult
  edit fun session => session.store.changeObjective vars values

/-- Change bounds of variables. -/
def changeBounds
    (vars : List Nat)
    (lowers uppers : List α) :
    SessionM σ τ α Unit := do
  dropFindings
  edit fun session =>
    session.store.changeBounds session.sentinel vars lowers uppers

/-- Change sides of linear rows. -/
def changeSides
    (rows : List Nat)
    (lefts rights : List α) :
    SessionM σ τ α Unit := do
  dropFindings
  edit fun session =>
    session.store.changeSides session.sentinel rows lefts rights

/-- Drop the problem, and count problems from one again. -/
def clear [Solver σ α] : SessionM σ τ α Unit := do
  dropFindings
  modify fun session =>
    {
      session with
      store := Store.empty
      problemNumber := 1
      run :=
        { session.run with solver := Solver.resetCount session.run.solver }
    }

/-- Print to another target from now on. -/
def redirect (outlet : Outlet) : SessionM σ τ α Unit :=
  modify fun session =>
    { session with run := { session.run with outlet := outlet } }

/-- Memory gets scarce or free again, which no call decides. -/
def setMemory (memory : Memory) : SessionM σ τ α Unit :=
  modify fun session =>
    { session with run := { session.run with memory := memory } }

/-- The notices that have come up, and the session without them. -/
def takeNotices
    (session : Session σ τ α) :
    List (Notice α) × Session σ τ α :=
  (session.run.notices,
    { session with run := { session.run with notices := [] } })

end Session

end SdpRelay
