import SdpRelay.Proofs.RestoredSessions
import SdpRelay.Proofs.SettingsHistory

namespace SdpRelay

/-!
# Updates of settings

A call that changes settings puts new ones in place and then tells the solver what
it shares with the session.  `Operation.update?` is what a call puts in place and
tells; it is nothing if the call refuses its arguments, or if it leaves them to the
solver.  A solver that does not take a value makes the call fail when the settings
have been replaced already, and nothing puts the old ones back.
-/

variable {σ τ α : Type}

/-- Settings to put in place, and the values that the solver is told after that, in order. -/
structure SettingsUpdate (α : Type) where
  settings : Settings α
  told : List (Parameter × α)

namespace SettingsUpdate

/-- Put the settings in place, and tell the solver. -/
def perform
    [Solver σ α]
    (update : SettingsUpdate α) :
    SessionM σ τ α Unit := do
  Session.putSettings update.settings
  update.told.forM fun (parameter, value) =>
    Session.forward parameter value

/-- The settings of an update stay in place, whether or not the solver takes the values. -/
theorem perform_settings
    [Solver σ α]
    (update : SettingsUpdate α)
    (session : Session σ τ α) :
    (stateAfter (update.perform session)).settings = update.settings := by
  have tellingKeeps :
      Keeps Session.settings
        (update.told.forM fun (parameter, value) =>
          Session.forward parameter value : SessionM σ τ α Unit) :=
    .forM _ fun told => Session.forward_keepsSettings told.1 told.2
  exact tellingKeeps { session with settings := update.settings }

/-- An update succeeds exactly if the solver takes the values. -/
theorem perform_eq_ok_iff
    [Scalar α]
    [Solver σ α]
    {update : SettingsUpdate α}
    {session : Session σ τ α} :
    (∃ next, update.perform session = .ok () next) ↔
      Solver.Takes update.told session.run.solver :=
  @Session.forwardAll_eq_ok_iff _ _ _ _ update.told
    { session with settings := update.settings }

variable [Scalar α]

/-- An update, unless its settings fail their check. -/
def checked? (update : SettingsUpdate α) : Option (SettingsUpdate α) :=
  match update.settings.validate with
  | .ok _ => some update
  | .error _ => none

/-- New settings, and all that the solver is told of them. -/
def replacing (settings : Settings α) : SettingsUpdate α :=
  { settings := settings, told := settings.shared }

/-- The assignment of a real parameter that the session keeps. -/
def assigning
    (settings : Settings α)
    (parameter : Parameter)
    (value : α) :
    SettingsUpdate α :=
  let changed := settings.withReal value parameter
  {
    settings := changed
    told :=
      if parameter.scope = .shared then
        [(parameter, value)]
      else if changed.penalty != settings.penalty then
        [(.penalty, changed.penalty)]
      else
        []
  }

/-- A suggested penalty, up to the maximum. -/
def cuttingPenalty
    (settings : Settings α)
    (suggested : α) :
    SettingsUpdate α :=
  let penalty := Scalar.smaller suggested settings.maxPenalty
  {
    settings := { settings with penalty := penalty }
    told := [(.penalty, penalty)]
  }

/-- A suggested maximum, to which the penalty is lowered. -/
def loweringPenalty
    (settings : Settings α)
    (suggested : α) :
    SettingsUpdate α :=
  if suggested < settings.penalty then
    {
      settings :=
        { settings with maxPenalty := suggested, penalty := suggested }
      told := [(.penalty, suggested)]
    }
  else
    {
      settings := { settings with maxPenalty := suggested }
      told := []
    }

/-- The assignment of an integral parameter that the session keeps, if the value is in range. -/
def assigningInteger?
    (settings : Settings α)
    (value : Int32) :
    Parameter → Option (SettingsUpdate α)
  | .slaterCheck =>
      (SlaterCheck.ofInt? value).map fun choice =>
        { settings := { settings with slaterCheck := choice }, told := [] }
  | .penaltyIncreases =>
      if value < 0 then
        none
      else
        some
          {
            settings :=
              { settings with penaltyIncreases := value.toUInt32 }
            told := []
          }
  | _ => none

end SettingsUpdate

variable [Scalar α] [Solver σ α]

/-- What an operation puts in place of the settings and tells the solver, if it does. -/
def Operation.update?
    (session : Session σ τ α) :
    Operation α → Option (SettingsUpdate α)
  | .updateSettings settings => (SettingsUpdate.replacing settings).checked?
  | .setReal parameter value =>
      if parameter.isReal ∧ parameter.scope ≠ .solver then
        (SettingsUpdate.assigning session.settings parameter value).checked?
      else
        none
  | .setInteger parameter value =>
      SettingsUpdate.assigningInteger? session.settings value parameter
  | .choosePenalty coefficient =>
      (Solver.suggestPenalty session.run.solver coefficient).toOption.map
        (SettingsUpdate.cuttingPenalty session.settings)
  | .chooseMaxPenalty penalty =>
      (Solver.suggestMaxPenalty session.run.solver penalty).toOption.map
        (SettingsUpdate.loweringPenalty session.settings)
  | _ => none

namespace Session

open SessionM

/-- A step makes an update of the settings, or leaves them alone if there is none. -/
def Updates
    (step : SessionM σ τ α Unit)
    (session : Session σ τ α) :
    Option (SettingsUpdate α) → Prop
  | some update => step session = update.perform session
  | none => (stateAfter (step session)).settings = session.settings

omit [Scalar α] in
theorem Updates.none_of_keeps
    {step : SessionM σ τ α Unit}
    (keeps : Keeps settings step)
    (session : Session σ τ α) :
    Updates step session none :=
  keeps session

/-- Settings that fail their check are not put in place. -/
theorem Updates.checked
    {step : SessionM σ τ α Unit}
    {session : Session σ τ α}
    {update : SettingsUpdate α}
    (isStep :
      step session =
        (do
          liftExcept .setting update.settings.validate
          update.perform : SessionM σ τ α Unit) session) :
    Updates step session update.checked? := by
  unfold SettingsUpdate.checked?
  cases checked : update.settings.validate with
  | ok _ =>
      rw [checked] at isStep
      exact isStep
  | error fault =>
      rw [checked] at isStep
      change (stateAfter (step session)).settings = _
      rw [isStep]
      rfl

omit [Scalar α] in
/-- To tell the solver one value is to pass it on. -/
theorem tellOne_eq
    (parameter : Parameter)
    (value : α)
    (session : Session σ τ α) :
    ([(parameter, value)].forM fun (parameter, value) =>
        forward parameter value) session =
      forward parameter value session := by
  change
    (forward parameter value >>= fun _ => pure () : SessionM σ τ α Unit)
      session = _
  simp only [bind, EStateM.bind]
  cases forward parameter value session with
  | ok _ next => rfl
  | error fault next => rfl

/-- A real parameter that the session keeps is checked with the settings that it leads to. -/
theorem setOwnReal_eq
    (parameter : Parameter)
    (value : α)
    (session : Session σ τ α) :
    setOwnReal parameter value session =
      (do
        liftExcept .setting
          (session.settings.withReal value parameter).validate
        (SettingsUpdate.assigning session.settings parameter value).perform :
          SessionM σ τ α Unit) session := by
  let update := SettingsUpdate.assigning session.settings parameter value
  change
    (liftExcept .setting update.settings.validate >>= _ :
      SessionM σ τ α Unit) session =
      (liftExcept .setting update.settings.validate >>= _ :
        SessionM σ τ α Unit) session
  cases update.settings.validate with
  | error fault => rfl
  | ok _ =>
      let stored : Session σ τ α :=
        { session with settings := update.settings }
      change
        (if parameter.scope = .shared then
            forward parameter value
          else if update.settings.penalty != session.settings.penalty then
            forward .penalty update.settings.penalty
          else
            pure () : SessionM σ τ α Unit) stored =
          (update.told.forM fun (parameter, value) =>
            forward parameter value) stored
      unfold update SettingsUpdate.assigning
      dsimp only
      split
      · rw [tellOne_eq]
      · split
        · rw [tellOne_eq]
        · rfl

/-- A real parameter is assigned in the session or left to the solver. -/
theorem setReal_updates
    (parameter : Parameter)
    (value : α)
    (session : Session σ τ α) :
    Updates (setReal parameter value) session
      ((Operation.setReal parameter value).update? session) := by
  change
    Updates (setReal parameter value) session
      (if parameter.isReal ∧ parameter.scope ≠ .solver then _ else _)
  unfold setReal
  by_cases isReal : parameter.isReal = true
  · rw [if_neg (by simp [isReal])]
    by_cases atSolver : parameter.scope = .solver
    · rw [if_pos atSolver, if_neg fun own => own.2 atSolver]
      exact .none_of_keeps (assignAtSolver_keepsSettings parameter _) session
    · rw [if_neg atSolver, if_pos ⟨isReal, atSolver⟩]
      exact .checked (setOwnReal_eq parameter value session)
  · rw [if_pos (by simp [isReal]), if_neg fun own => isReal own.1]
    exact .none_of_keeps (.throw _) session

omit [Scalar α] in
/-- An integral parameter is assigned in the session or left to the solver. -/
theorem setInteger_updates
    (parameter : Parameter)
    (value : Int32)
    (session : Session σ τ α) :
    Updates (setInteger parameter value) session
      (SettingsUpdate.assigningInteger? session.settings value parameter) := by
  cases parameter with
  | slaterCheck =>
      unfold SettingsUpdate.assigningInteger?
      cases chosen : SlaterCheck.ofInt? value with
      | some choice =>
          change setInteger .slaterCheck value session = _
          simp only [setInteger, chosen]
          rfl
      | none =>
          change
            (stateAfter (setInteger .slaterCheck value session)).settings = _
          simp only [setInteger, chosen]
          rfl
  | penaltyIncreases =>
      unfold SettingsUpdate.assigningInteger?
      by_cases negative : value < 0
      · rw [if_pos negative]
        change
          (stateAfter (setInteger .penaltyIncreases value session)).settings = _
        simp only [setInteger, if_pos negative]
        rfl
      · rw [if_neg negative]
        change setInteger .penaltyIncreases value session = _
        simp only [setInteger, if_neg negative]
        rfl
  | solverOutput | threads | presolving | scaling | objectiveScaling =>
      exact .none_of_keeps (assignAtSolver_keepsSettings _ _) session
  | _ =>
      exact .none_of_keeps (.throw _) session

omit [Scalar α] [Solver σ α] in
/-- Where two steps end alike, they still do without their answers. -/
theorem discard_congr
    {first second : SessionM σ τ α α}
    {start other : Session σ τ α}
    (same : first start = second other) :
    discard first start = discard second other := by
  change EStateM.map _ first start = EStateM.map _ second other
  unfold EStateM.map
  rw [same]

omit [Scalar α] in
/-- A value that is passed on before an answer is all that the solver is told. -/
theorem discard_forward
    (parameter : Parameter)
    (value answer : α)
    (session : Session σ τ α) :
    discard
        (do
          forward parameter value
          return answer : SessionM σ τ α α)
        session =
      ([(parameter, value)].forM fun (parameter, value) =>
        forward parameter value) session := by
  rw [tellOne_eq]
  change EStateM.map _ (EStateM.bind _ _) session = _
  unfold EStateM.map EStateM.bind
  cases forward parameter value session with
  | ok _ next => rfl
  | error fault next => rfl

/-- A suggested penalty is stored as it is, up to the maximum. -/
theorem choosePenalty_updates
    (coefficient : α)
    (session : Session σ τ α) :
    Updates (discard (choosePenalty coefficient)) session
      ((Solver.suggestPenalty session.run.solver coefficient).toOption.map
        (SettingsUpdate.cuttingPenalty session.settings)) := by
  have settings := choosePenalty_settings coefficient session
  cases suggestion :
      Solver.suggestPenalty session.run.solver coefficient with
  | error fault =>
      change
        (stateAfter
          (discard (choosePenalty coefficient) session)).settings = _
      rw [stateAfter_discard, settings, suggestion]
  | ok suggested =>
      let update :=
        SettingsUpdate.cuttingPenalty session.settings suggested
      have chosen :
          choosePenalty coefficient session =
            (do
              forward .penalty update.settings.penalty
              return update.settings.penalty : SessionM σ τ α α)
              { session with settings := update.settings } := by
        change
          (liftExcept .solver
              (Solver.suggestPenalty session.run.solver coefficient) >>= _ :
            SessionM σ τ α α) session = _
        rw [suggestion]
        rfl
      exact (discard_congr chosen).trans (discard_forward _ _ _ _)

/-- A suggested maximum is stored as it is, and the penalty lowered to it. -/
theorem chooseMaxPenalty_updates
    (penalty : α)
    (session : Session σ τ α) :
    Updates (discard (chooseMaxPenalty penalty)) session
      ((Solver.suggestMaxPenalty session.run.solver penalty).toOption.map
        (SettingsUpdate.loweringPenalty session.settings)) := by
  have settings := chooseMaxPenalty_settings penalty session
  cases suggestion :
      Solver.suggestMaxPenalty session.run.solver penalty with
  | error fault =>
      change
        (stateAfter
          (discard (chooseMaxPenalty penalty) session)).settings = _
      rw [stateAfter_discard, settings, suggestion]
  | ok suggested =>
      have chosen :
          chooseMaxPenalty penalty session =
            (if suggested < session.settings.penalty then do
                putSettings
                  {
                    session.settings with
                    maxPenalty := suggested
                    penalty := suggested
                  }
                forward .penalty suggested
                return suggested
              else do
                putSettings { session.settings with maxPenalty := suggested }
                return suggested : SessionM σ τ α α) session := by
        change
          (liftExcept .solver
              (Solver.suggestMaxPenalty session.run.solver penalty) >>= _ :
            SessionM σ τ α α) session = _
        rw [suggestion]
        rfl
      change
        discard (chooseMaxPenalty penalty) session =
          (SettingsUpdate.loweringPenalty session.settings suggested).perform
            session
      refine (discard_congr chosen).trans ?_
      unfold SettingsUpdate.loweringPenalty
      split
      · exact discard_forward _ _ _ _
      · rfl

end Session

namespace Operation

open SessionM Session

variable [OneVariableSolver τ α]

/-- Every operation makes the update that it stands for. -/
theorem perform_updates
    (operation : Operation α)
    (session : Session σ τ α) :
    Updates operation.perform session (operation.update? session) := by
  cases operation with
  | edit change =>
      have keeps :
          Keeps settings (change.perform : SessionM σ τ α Unit) :=
        change.perform_keeps (fun _ _ => rfl) (fun _ => rfl) (fun _ => rfl)
          (fun _ => rfl)
      exact .none_of_keeps keeps session
  | setSentinel sentinel =>
      exact .none_of_keeps (.modify fun _ => rfl) session
  | updateSettings settings =>
      have isStep :
          Session.updateSettings settings session =
            (do
              liftExcept .setting settings.validate
              (SettingsUpdate.replacing settings).perform :
                SessionM σ τ α Unit) session :=
        rfl
      exact .checked isStep
  | setReal parameter value =>
      exact setReal_updates parameter value session
  | setInteger parameter value =>
      exact setInteger_updates parameter value session
  | guessScaling largest =>
      exact .none_of_keeps (keeps_onRun fun _ _ => rfl) session
  | choosePenalty coefficient =>
      exact choosePenalty_updates coefficient session
  | chooseMaxPenalty penalty =>
      exact chooseMaxPenalty_updates penalty session
  | takeNotices =>
      exact .none_of_keeps (.modify fun _ => rfl) session
  | redirect outlet =>
      exact .none_of_keeps (.modify fun _ => rfl) session
  | setMemory memory =>
      exact .none_of_keeps (.modify fun _ => rfl) session
  | solve options watch =>
      exact
        congrArg (fun assignment => assignment.2.2)
          (solve_keepsAssignment options watch session)

/-- Settings that an operation stores stay in place, and it succeeds if the solver takes the rest. -/
theorem performed_of_update
    {operation : Operation α}
    {session : Session σ τ α}
    {update : SettingsUpdate α}
    (isUpdate : operation.update? session = some update) :
    (operation.performed session).settings = update.settings ∧
      ((∃ next, operation.perform session = .ok () next) ↔
        Solver.Takes update.told session.run.solver) := by
  have updates := operation.perform_updates session
  rw [isUpdate] at updates
  change operation.perform session = update.perform session at updates
  unfold performed
  rw [updates]
  exact ⟨update.perform_settings session, SettingsUpdate.perform_eq_ok_iff⟩

/-- Without an update the settings stay as they are. -/
theorem performed_of_noUpdate
    {operation : Operation α}
    {session : Session σ τ α}
    (none : operation.update? session = none) :
    (operation.performed session).settings = session.settings := by
  have updates := operation.perform_updates session
  rw [none] at updates
  exact updates

end Operation

namespace Session

variable [OneVariableSolver τ α]

/--
A call that fails leaves the settings as they were exactly if it had nothing to
store, or the solver takes all values that it is told, or the settings to be stored
were in place already.  What a call stores stays, and whether the call succeeds is
then decided by the solver alone.
-/
theorem failed_call_keeps_settings_iff
    (operation : Operation α)
    (session : Session σ τ α) :
    ((∀ fault next,
        operation.perform session = .error fault next →
          next.settings = session.settings) ↔
      ∀ update, operation.update? session = some update →
        Solver.Takes update.told session.run.solver ∨
          update.settings = session.settings) ∧
    (∀ update, operation.update? session = some update →
      (operation.performed session).settings = update.settings ∧
        ((∃ next, operation.perform session = .ok () next) ↔
          Solver.Takes update.told session.run.solver)) ∧
    (operation.update? session = none →
      (operation.performed session).settings = session.settings) := by
  refine
    ⟨⟨?_, ?_⟩, fun _ => Operation.performed_of_update,
      Operation.performed_of_noUpdate⟩
  · intro keeps update isUpdate
    obtain ⟨stored, succeeds⟩ := Operation.performed_of_update isUpdate
    unfold Operation.performed at stored
    cases outcome : operation.perform session with
    | ok answer next =>
        exact .inl (succeeds.mp ⟨next, outcome⟩)
    | error fault next =>
        rw [outcome] at stored
        exact .inr (stored.symm.trans (keeps fault next outcome))
  · intro harmless fault next failed
    have performed : operation.performed session = next := by
      unfold Operation.performed
      rw [failed]
      rfl
    cases isUpdate : operation.update? session with
    | none =>
        rw [← performed]
        exact Operation.performed_of_noUpdate isUpdate
    | some update =>
        obtain ⟨stored, succeeds⟩ := Operation.performed_of_update isUpdate
        rw [← performed, stored]
        refine (harmless update isUpdate).resolve_left fun takes => ?_
        obtain ⟨_, succeeded⟩ := succeeds.mpr takes
        cases failed.symm.trans succeeded

end Session

/-- A solver that takes a number of values and fails at every assignment after that. -/
structure FragileSolver where
  patience : Nat

namespace FragileSolver

/-- Why an assignment fails once the patience is used up. -/
def worn : SolverFault :=
  .failed "worn out"

/-- Take a value if there is patience left. -/
def assign : EStateM SolverFault FragileSolver Unit
  | ⟨0⟩ => .error worn ⟨0⟩
  | ⟨patience + 1⟩ => .ok () ⟨patience⟩

instance : Solver FragileSolver ℚ where
  name := fun _ => "fragile"
  description := fun _ => "a solver that takes a limited number of values"
  defaultPenaltyIncreases := fun _ => 8
  warmStartNeedsPrimal := fun _ => false
  countProblem := id
  resetCount := id
  solve := fun _ => throw .notAvailable
  report := fun _ => Solver.missingReport
  getReal := fun _ _ => .error .parameterUnknown
  setReal := fun _ _ => assign
  getInteger := fun _ _ => .error .parameterUnknown
  setInteger := fun _ _ => assign
  guessScaling := fun _ => assign
  suggestPenalty := fun _ coefficient => .ok (10 * coefficient)
  suggestMaxPenalty := fun _ penalty => .ok (1000 * penalty)

end FragileSolver

namespace Session

/-- A session whose solver took the four values of its settings and fails from then on. -/
def wornSession : Session FragileSolver NewtonMethod ℚ :=
  assemble standardSentinel Settings.standard ⟨0⟩ NewtonMethod.standard

/-- A call of each kind that tells the solver something. -/
def tellingOperations : List (Operation ℚ) :=
  [
    .updateSettings { Settings.standard with gapTolerance := 1 / 100000 },
    .setReal .gapTolerance (1 / 100000),
    .setReal .maxPenalty 1000,
    .choosePenalty 5,
    .chooseMaxPenalty 1
  ]

/-- Each of these calls fails because of the solver, and yet its settings are in place. -/
theorem refused_settings_are_stored :
    create standardSentinel Settings.standard ⟨4⟩ NewtonMethod.standard =
        .ok wornSession ∧
      ∀ operation ∈ tellingOperations,
        answerOf (operation.perform wornSession) =
            .error (.solver FragileSolver.worn) ∧
          (operation.performed wornSession).settings ≠
            wornSession.settings := by
  refine ⟨?_, by decide +kernel⟩
  exact
    create_eq_ok_iff.mpr
      ⟨by decide +kernel, eq_ok_of_answerOf (by decide +kernel)⟩

end Session

end SdpRelay
