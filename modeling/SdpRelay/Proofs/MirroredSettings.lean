import SdpRelay.Proofs.GapCourse
import SdpRelay.Proofs.SettingsHistory
import SdpRelay.Proofs.SharedParameters

namespace SdpRelay

/-!
# Settings that the solver mirrors

A session tells its solver of every change of the parameters that they share.  As
long as every call succeeds, a solver that stores what it is told has the values
of the settings, for all of these parameters that it knows.  A recovery breaks
this on purpose, and mends it before it ends.
-/

variable {σ τ α β : Type}

namespace Settings

/-- The real parameters that a session keeps are read from the numbers of its settings. -/
theorem real?_congr
    {first second : Settings α}
    (same : first.get = second.get) :
    first.real? = second.real? := by
  have field (field : SettingField) : first.get field = second.get field :=
    congrFun same field
  funext parameter
  cases parameter with
  | epsilon => exact congrArg some (field .epsilon)
  | gapTolerance => exact congrArg some (field .gapTolerance)
  | feasTolerance => exact congrArg some (field .feasTolerance)
  | penalty => exact congrArg some (field .penalty)
  | maxPenalty => exact congrArg some (field .maxPenalty)
  | infeasibilityFactor => exact congrArg some (field .infeasibilityFactor)
  | _ => rfl

variable [Scalar α]

/-- A shared parameter that is assigned has its new value. -/
theorem real?_withReal_self
    (settings : Settings α)
    (value : α)
    {parameter : Parameter}
    (shared : parameter.scope = .shared) :
    (settings.withReal value parameter).real? parameter = some value := by
  rcases Parameter.shared_iff.mp shared with rfl | rfl | rfl | rfl <;> rfl

/-- An assignment leaves other shared parameters alone, except that a maximum may lower the penalty. -/
theorem real?_withReal_of_ne
    (settings : Settings α)
    (value : α)
    {parameter other : Parameter}
    (shared : parameter.scope = .shared)
    (differs : parameter ≠ other)
    (notLowered : parameter ≠ .penalty ∨ other ≠ .maxPenalty) :
    (settings.withReal value other).real? parameter =
      settings.real? parameter := by
  rcases Parameter.shared_iff.mp shared with rfl | rfl | rfl | rfl
  · cases other with
    | epsilon => exact absurd rfl differs
    | _ => rfl
  · cases other with
    | gapTolerance => exact absurd rfl differs
    | _ => rfl
  · cases other with
    | feasTolerance => exact absurd rfl differs
    | _ => rfl
  · cases other with
    | penalty => exact absurd rfl differs
    | maxPenalty => exact absurd rfl (notLowered.resolve_left (absurd rfl))
    | _ => rfl

end Settings

namespace Session

variable [Solver σ α]

/-- If the solver knows a parameter, it has the value of the settings. -/
def Mirrored
    (session : Session σ τ α)
    (parameter : Parameter) :
    Prop :=
  Solver.Supports session.run.solver parameter →
    ∃ value,
      session.settings.real? parameter = some value ∧
        Solver.getReal session.run.solver parameter = .ok value

/-- The shared parameters are mirrored, except perhaps for some of them. -/
def MirrorsOutside
    (pending : List Parameter)
    (session : Session σ τ α) :
    Prop :=
  ∀ parameter, parameter.scope = .shared → parameter ∉ pending →
    session.Mirrored parameter

/-- All shared parameters are mirrored. -/
abbrev Mirrors (session : Session σ τ α) : Prop :=
  session.MirrorsOutside []

/-- A parameter stays mirrored where neither side changes it. -/
theorem Mirrored.ofSame
    {session next : Session σ τ α}
    {parameter : Parameter}
    (mirrored : session.Mirrored parameter)
    (sameReal :
      next.settings.real? parameter = session.settings.real? parameter)
    (sameHolding :
      Solver.holding parameter next.run.solver =
        Solver.holding parameter session.run.solver) :
    next.Mirrored parameter := by
  intro supports
  have sameValue :
      Solver.getReal next.run.solver parameter =
        Solver.getReal session.run.solver parameter :=
    congrArg Prod.fst sameHolding
  have known : Solver.Supports session.run.solver parameter :=
    (congrArg Prod.snd sameHolding).mp supports
  rw [sameReal, sameValue]
  exact mirrored known

/-- A value that is passed on is mirrored from then on. -/
theorem forward_mirrors
    (stores : StoresShared σ)
    {session : Session σ τ α}
    {parameter : Parameter}
    {pending : List Parameter}
    (mirrors : session.MirrorsOutside (parameter :: pending))
    (shared : parameter.scope = .shared)
    {value : α}
    (own : session.settings.real? parameter = some value) :
    Ends
      (fun _ next =>
        next.settings = session.settings ∧ next.MirrorsOutside pending)
      (fun _ _ => True)
      (forward parameter value session) := by
  have stored := stores.forward_ends shared value session.run.solver
  have kept {other : Parameter}
      (otherShared : other.scope = .shared)
      (differs : other ≠ parameter) :=
    stores.forward_keeps otherShared differs.symm value session.run.solver
  unfold forward SessionM.onRun SolveM.askSolver
  revert stored kept
  generalize Solver.forward parameter value session.run.solver = result
  intro stored kept
  cases result with
  | error fault next =>
      trivial
  | ok answer next =>
      refine ⟨rfl, ?_⟩
      intro other otherShared outside
      by_cases same : other = parameter
      · subst same
        intro supports
        exact ⟨value, own, stored.2 supports⟩
      · have before : session.Mirrored other :=
          mirrors other otherShared
            (List.not_mem_cons_of_ne_of_not_mem same outside)
        exact before.ofSame rfl (kept otherShared same)

/-- Values that are passed on one after the other are all mirrored in the end. -/
theorem forwardAll_mirrors
    (stores : StoresShared σ)
    (items : List (Parameter × α))
    {session : Session σ τ α}
    (mirrors : session.MirrorsOutside (items.map Prod.fst))
    (own :
      ∀ item ∈ items,
        item.1.scope = .shared ∧
          session.settings.real? item.1 = some item.2) :
    Ends
      (fun _ next => next.Mirrors)
      (fun _ _ => True)
      ((items.forM fun item => forward item.1 item.2 :
        SessionM σ τ α Unit) session) := by
  induction items generalizing session with
  | nil =>
      exact mirrors
  | cons item rest inductionHypothesis =>
      obtain ⟨shared, isOwn⟩ := own item List.mem_cons_self
      refine
        Ends.bind (forward_mirrors stores mirrors shared isOwn)
          (fun _ _ => id) ?_
      rintro _ next ⟨sameSettings, nextMirrors⟩
      refine inductionHypothesis nextMirrors ?_
      intro other member
      rw [sameSettings]
      exact own other (List.mem_cons_of_mem item member)

/-- A solver that is told of all settings mirrors them. -/
theorem forwardSettings_mirrors
    (stores : StoresShared σ)
    (session : Session σ τ α) :
    Ends
      (fun _ next => next.Mirrors)
      (fun _ _ => True)
      (forwardSettings session) := by
  refine forwardAll_mirrors stores session.settings.shared ?_ ?_
  · intro parameter shared untold
    rcases Parameter.shared_iff.mp shared with rfl | rfl | rfl | rfl
    all_goals exact absurd (by simp [Settings.shared]) untold
  · intro item member
    simp only [Settings.shared, List.mem_cons, List.not_mem_nil,
      or_false] at member
    rcases member with rfl | rfl | rfl | rfl
    all_goals exact ⟨rfl, rfl⟩

/-- A session mirrors its settings as long as neither side changes a shared parameter. -/
theorem MirrorsOutside.ofSame
    {session next : Session σ τ α}
    (mirrors : session.Mirrors)
    (sameReals : next.settings.real? = session.settings.real?)
    (sameHolding :
      ∀ parameter, parameter.scope = .shared →
        Solver.holding parameter next.run.solver =
          Solver.holding parameter session.run.solver) :
    next.Mirrors :=
  fun parameter shared outside =>
    (mirrors parameter shared outside).ofSame (congrFun sameReals parameter)
      (sameHolding parameter shared)

/-- Settings that differ in one parameter are mirrored once its value is passed on. -/
theorem forwardChange_mirrors
    (stores : StoresShared σ)
    {session : Session σ τ α}
    (mirrors : session.Mirrors)
    {changed : Settings α}
    {parameter : Parameter}
    (shared : parameter.scope = .shared)
    {value : α}
    (own : changed.real? parameter = some value)
    (others :
      ∀ other, other.scope = .shared → other ≠ parameter →
        changed.real? other = session.settings.real? other) :
    Ends
      (fun _ next => next.Mirrors)
      (fun _ _ => True)
      (forward parameter value { session with settings := changed }) := by
  have outside :
      { session with settings := changed }.MirrorsOutside [parameter] := by
    intro other otherShared untold
    refine
      (mirrors other otherShared List.not_mem_nil).ofSame
        (others other otherShared ?_) rfl
    exact fun same => untold (List.mem_singleton.mpr same)
  refine (forward_mirrors stores outside shared own).mono ?_ (fun _ _ => id)
  exact fun _ _ told => told.2

/-- A penalty that was stored is mirrored once it is passed on. -/
theorem forwardPenalty_mirrors
    (stores : StoresShared σ)
    {session : Session σ τ α}
    (mirrors : session.Mirrors)
    (changed : Settings α)
    (sameEpsilon : changed.epsilon = session.settings.epsilon)
    (sameGap : changed.gapTolerance = session.settings.gapTolerance)
    (sameFeas : changed.feasTolerance = session.settings.feasTolerance)
    (answer : β) :
    Ends
      (fun _ next => next.Mirrors)
      (fun _ _ => True)
      ((do
        forward .penalty changed.penalty
        return answer : SessionM σ τ α β)
        { session with settings := changed }) := by
  have told :
      Ends
        (fun _ next => next.Mirrors)
        (fun _ _ => True)
        (forward .penalty changed.penalty
          { session with settings := changed }) := by
    refine forwardChange_mirrors stores mirrors rfl rfl ?_
    intro other shared notPenalty
    rcases Parameter.shared_iff.mp shared with rfl | rfl | rfl | rfl
    · exact congrArg some sameEpsilon
    · exact congrArg some sameGap
    · exact congrArg some sameFeas
    · exact absurd rfl notPenalty
  exact Ends.bind told (fun _ _ => id) (fun _ _ => id)

omit [Solver σ α] in
/-- An assignment at the solver leaves alone what the solver leaves alone. -/
theorem assignAtSolver_keeps
    {γ : Type}
    {view : σ → γ}
    {assignment : EStateM SolverFault σ Unit}
    (keeps : Keeps view assignment)
    (parameter : Parameter) :
    Keeps (fun session => view session.run.solver)
      (assignAtSolver parameter assignment : SessionM σ τ α Unit) := by
  intro session
  have kept := keeps session.run.solver
  unfold assignAtSolver
  cases result : assignment session.run.solver with
  | ok answer next =>
      rw [result] at kept
      exact kept
  | error fault next =>
      rw [result] at kept
      exact kept

/-- Integral parameters are not shared. -/
theorem setInteger_keepsHolding
    (stores : StoresShared σ)
    {parameter : Parameter}
    (shared : parameter.scope = .shared)
    (other : Parameter)
    (value : Int32) :
    Keeps (fun session => Solver.holding parameter session.run.solver)
      (setInteger other value : SessionM σ τ α Unit) := by
  refine .bind .get fun session => ?_
  split
  · split
    · exact .modify fun _ => rfl
    · exact .throw _
  · split
    · exact .throw _
    · exact .modify fun _ => rfl
  · split
    · exact .throw _
    · exact assignAtSolver_keeps (stores.setInteger shared other value) other

/-- The scaling is not shared. -/
theorem guessScaling_keepsHolding
    (stores : StoresShared σ)
    {parameter : Parameter}
    (shared : parameter.scope = .shared)
    (largest : α) :
    Keeps (fun session => Solver.holding parameter session.run.solver)
      (guessScaling largest : SessionM σ τ α Unit) := by
  intro session
  have kept := stores.guessScaling shared largest session.run.solver
  unfold guessScaling SessionM.onRun SolveM.askSolver
  cases result : Solver.guessScaling largest session.run.solver with
  | ok answer next =>
      rw [result] at kept
      exact kept
  | error fault next =>
      rw [result] at kept
      exact kept

variable [Scalar α]

/-- A real parameter that the session keeps is mirrored after its assignment. -/
theorem setOwnReal_mirrors
    [SettingsArithmetic α]
    (stores : StoresShared σ)
    {session : Session σ τ α}
    (mirrors : session.Mirrors)
    (parameter : Parameter)
    (value : α) :
    Ends
      (fun _ next => next.Mirrors)
      (fun _ _ => True)
      (setOwnReal parameter value session) := by
  have others {other : Parameter}
      (shared : other.scope = .shared)
      (differs : other ≠ parameter) :=
    session.settings.real?_withReal_of_ne value shared differs
  change
    Ends _ _
      ((SessionM.liftExcept .setting
          (session.settings.withReal value parameter).validate >>= _ :
        SessionM σ τ α Unit) session)
  cases checked : (session.settings.withReal value parameter).validate with
  | error fault =>
      trivial
  | ok _ =>
      change
        Ends _ _
          ((if parameter.scope = .shared then _ else _ : SessionM σ τ α Unit)
            {
              session with
              settings := session.settings.withReal value parameter
            })
      split
      · rename_i shared
        refine
          forwardChange_mirrors stores mirrors shared
            (session.settings.real?_withReal_self value shared) ?_
        intro other otherShared differs
        refine others otherShared differs (.inr ?_)
        rintro rfl
        cases shared
      · rename_i unshared
        have differs {other : Parameter} (shared : other.scope = .shared) :
            other ≠ parameter := by
          rintro rfl
          exact unshared shared
        split
        · refine forwardChange_mirrors stores mirrors rfl rfl ?_
          intro other shared notPenalty
          exact others shared (differs shared) (.inl notPenalty)
        · rename_i notLowered
          have positive :=
            (Settings.validate_iff_valid.mp checked).positive .penalty
          have samePenalty :
              (session.settings.withReal value parameter).penalty =
                session.settings.penalty :=
            SettingsArithmetic.eq_of_beq positive
              (by simpa [bne] using notLowered)
          intro other shared outside
          refine (mirrors other shared outside).ofSame ?_ rfl
          by_cases isPenalty : other = .penalty
          · subst isPenalty
            exact congrArg some samePenalty
          · exact others shared (differs shared) (.inl isPenalty)

/-- A suggested penalty is mirrored. -/
theorem choosePenalty_mirrors
    (stores : StoresShared σ)
    {session : Session σ τ α}
    (mirrors : session.Mirrors)
    (coefficient : α) :
    Ends
      (fun _ next => next.Mirrors)
      (fun _ _ => True)
      (choosePenalty coefficient session) := by
  change
    Ends _ _
      ((SessionM.liftExcept .solver
          (Solver.suggestPenalty session.run.solver coefficient) >>= _ :
        SessionM σ τ α α) session)
  cases Solver.suggestPenalty session.run.solver coefficient with
  | error fault =>
      trivial
  | ok suggested =>
      exact
        forwardPenalty_mirrors stores mirrors
          {
            session.settings with
            penalty := Scalar.smaller suggested session.settings.maxPenalty
          }
          rfl rfl rfl _

/-- The penalty is mirrored when it is lowered to a suggested maximum. -/
theorem chooseMaxPenalty_mirrors
    (stores : StoresShared σ)
    {session : Session σ τ α}
    (mirrors : session.Mirrors)
    (penalty : α) :
    Ends
      (fun _ next => next.Mirrors)
      (fun _ _ => True)
      (chooseMaxPenalty penalty session) := by
  change
    Ends _ _
      ((SessionM.liftExcept .solver
          (Solver.suggestMaxPenalty session.run.solver penalty) >>= _ :
        SessionM σ τ α α) session)
  cases Solver.suggestMaxPenalty session.run.solver penalty with
  | error fault =>
      trivial
  | ok suggested =>
      change
        Ends _ _
          ((if suggested < session.settings.penalty then _ else _ :
            SessionM σ τ α α) session)
      split
      · exact
          forwardPenalty_mirrors stores mirrors
            {
              session.settings with
              maxPenalty := suggested
              penalty := suggested
            }
            rfl rfl rfl _
      · intro parameter shared outside
        refine (mirrors parameter shared outside).ofSame ?_ rfl
        rcases Parameter.shared_iff.mp shared with rfl | rfl | rfl | rfl
        all_goals rfl

/-- A new session is mirrored. -/
theorem create_mirrors
    (stores : StoresShared σ)
    {sentinel : α}
    {settings : Settings α}
    {solver : σ}
    {oneVariable : τ}
    {session : Session σ τ α}
    (created : create sentinel settings solver oneVariable = .ok session) :
    session.Mirrors := by
  have told :=
    forwardSettings_mirrors stores
      (assemble sentinel settings solver oneVariable)
  rw [(create_eq_ok_iff.mp created).2] at told
  exact told

/-- A solver that stores the gap tolerance follows its course as far as it knows it. -/
theorem gapCourse_of_stores
    (stores : StoresShared σ)
    (settings : Settings α) :
    GapCourse (Solver.holding (σ := σ) .gapTolerance) settings
      (fun count held => held.2 → held.1 = .ok (settings.tightenedGap count))
      (fun held => held.2 → held.1 = .ok settings.gapTolerance) where
  solve := stores.solve rfl
  countProblem := stores.countProblem rfl
  tighten _ _ soFar := stores.forward_replaces rfl _ soFar
  restore _ _ soFar := stores.forward_replaces rfl _ soFar

/-- A solve leaves the other shared parameters alone. -/
theorem constantCourse_of_stores
    (stores : StoresShared σ)
    (settings : Settings α)
    {parameter : Parameter}
    (shared : parameter.scope = .shared)
    (notGap : parameter ≠ .gapTolerance)
    (held : Except SolverFault α × Prop) :
    GapCourse (Solver.holding (σ := σ) parameter) settings
      (fun _ known => known = held)
      (fun known => known = held) where
  solve := stores.solve shared
  countProblem := stores.countProblem shared
  tighten _ solver soFar :=
    Ends.always_iff.mpr
      ((stores.forward_keeps shared notGap.symm _ solver).trans soFar)
  restore _ solver soFar :=
    Ends.always_iff.mpr
      ((stores.forward_keeps shared notGap.symm _ solver).trans soFar)

omit [Scalar α] in
/-- A mirrored gap tolerance is that of the settings. -/
theorem MirrorsOutside.gapTolerance
    {session : Session σ τ α}
    (mirrors : session.Mirrors)
    (supports : Solver.Supports session.run.solver .gapTolerance) :
    Solver.getReal session.run.solver .gapTolerance =
      .ok session.settings.gapTolerance := by
  obtain ⟨value, isSetting, isHeld⟩ :=
    mirrors .gapTolerance rfl List.not_mem_nil supports
  cases isSetting
  exact isHeld

variable [OneVariableSolver τ α]

/-- A solve that ends well has mended what its recovery broke. -/
theorem solve_mirrors
    (stores : StoresShared σ)
    {session : Session σ τ α}
    (mirrors : session.Mirrors)
    (options : SolveOptions α)
    (watch : Nat → α) :
    Ends
      (fun _ next => next.Mirrors)
      (fun _ _ => True)
      (solve options watch session) := by
  have keeps := solve_keepsAssignment options watch session
  have gapCourse :=
    solve_gapCourse (gapCourse_of_stores stores session.settings)
      mirrors.gapTolerance options watch
  have constantCourse {parameter : Parameter}
      (shared : parameter.scope = .shared)
      (notGap : parameter ≠ .gapTolerance) :=
    solve_gapCourse
      (constantCourse_of_stores stores session.settings shared notGap
        (Solver.holding parameter session.run.solver))
      rfl options watch
  revert keeps gapCourse constantCourse
  generalize solve options watch session = result
  intro keeps gapCourse constantCourse
  cases result with
  | error fault next =>
      trivial
  | ok _ next =>
      have sameSettings : next.settings = session.settings :=
        congrArg (fun assignment => assignment.2.2) keeps
      intro parameter shared outside
      by_cases isGap : parameter = .gapTolerance
      · subst isGap
        intro supports
        refine ⟨session.settings.gapTolerance, by rw [sameSettings]; rfl, ?_⟩
        exact gapCourse.elim (fun told => told supports) (fun told => told supports)
      · refine (mirrors parameter shared outside).ofSame ?_ ?_
        · rw [sameSettings]
        · exact (constantCourse shared isGap).elim id id

variable [SettingsArithmetic α]

/-- Every operation that succeeds leaves the settings mirrored. -/
theorem MirrorsOutside.performed
    (stores : StoresShared σ)
    {session : Session σ τ α}
    (mirrors : session.Mirrors)
    (operation : Operation α) :
    Ends
      (fun _ next => next.Mirrors)
      (fun _ _ => True)
      (operation.perform session) := by
  -- An operation that changes nothing shared is settled by what it keeps.
  have unshared {step : SessionM σ τ α Unit}
      (keepsReals :
        (stateAfter (step session)).settings.real? = session.settings.real?)
      (keepsHolding :
        ∀ parameter, parameter.scope = .shared →
          Keeps (fun session => Solver.holding parameter session.run.solver)
            step) :
      Ends (fun _ next => next.Mirrors) (fun _ _ => True) (step session) := by
    have kept : (stateAfter (step session)).Mirrors :=
      mirrors.ofSame keepsReals fun parameter shared =>
        keepsHolding parameter shared session
    exact
      (Ends.always_iff.mpr kept).mono (fun _ _ => id) (fun _ _ _ => trivial)
  cases operation with
  | edit change =>
      refine unshared ?_ fun parameter shared => ?_
      · have keeps :
            Keeps Session.settings (change.perform : SessionM σ τ α Unit) :=
          change.perform_keeps (fun _ _ => rfl) (fun _ => rfl) (fun _ => rfl)
            (fun _ => rfl)
        exact congrArg Settings.real? (keeps session)
      · exact
          change.perform_keeps (fun _ _ => rfl) (fun _ => rfl) (fun _ => rfl)
            (fun session => stores.resetCount shared session.run.solver)
  | setSentinel sentinel =>
      exact unshared rfl fun _ _ => .modify fun _ => rfl
  | updateSettings settings =>
      change
        Ends _ _
          ((SessionM.liftExcept .setting settings.validate >>= _ :
            SessionM σ τ α Unit) session)
      cases settings.validate with
      | error fault => trivial
      | ok _ => exact forwardSettings_mirrors stores _
  | setReal parameter value =>
      change Ends _ _ (setReal parameter value session)
      unfold setReal
      split
      · trivial
      · split
        · rename_i atSolver
          refine unshared ?_ fun other shared => ?_
          · rw [assignAtSolver_keepsSettings parameter _ session]
          · refine assignAtSolver_keeps (stores.setOther shared ?_ value) parameter
            rintro rfl
            rw [shared] at atSolver
            cases atSolver
        · exact setOwnReal_mirrors stores mirrors parameter value
  | setInteger parameter value =>
      refine unshared ?_ fun other shared => ?_
      · exact
          Settings.real?_congr (setInteger_keepsNumbers parameter value session)
      · exact setInteger_keepsHolding stores shared parameter value
  | guessScaling largest =>
      refine unshared ?_ fun other shared => ?_
      · exact congrArg Settings.real? (keeps_onRun (fun _ _ => rfl) session)
      · exact guessScaling_keepsHolding stores shared largest
  | choosePenalty coefficient =>
      exact (choosePenalty_mirrors stores mirrors coefficient).discard
  | chooseMaxPenalty penalty =>
      exact (chooseMaxPenalty_mirrors stores mirrors penalty).discard
  | takeNotices =>
      exact unshared rfl fun _ _ => .modify fun _ => rfl
  | redirect outlet =>
      exact unshared rfl fun _ _ => .modify fun _ => rfl
  | setMemory memory =>
      exact unshared rfl fun _ _ => .modify fun _ => rfl
  | solve options watch =>
      exact solve_mirrors stores mirrors options watch

/-- The sessions that a history leads to in which every call succeeded. -/
inductive Answered : Session σ τ α → Prop where
  | created {sentinel settings solver oneVariable session}
      (created : create sentinel settings solver oneVariable = .ok session) :
      Answered session
  | copied {session copy : Session σ τ α} {solver oneVariable}
      (before : Answered session)
      (copied : session.copyWith solver oneVariable = .ok copy) :
      Answered copy
  | operated {session next : Session σ τ α} {operation : Operation α}
      (before : Answered session)
      (succeeded : operation.perform session = .ok () next) :
      Answered next

/-- A history in which every call succeeded leaves the settings mirrored. -/
theorem Answered.mirrors
    (stores : StoresShared σ)
    {session : Session σ τ α}
    (answered : session.Answered) :
    session.Mirrors := by
  induction answered with
  | created created =>
      exact create_mirrors stores created
  | copied before copied inductionHypothesis =>
      obtain ⟨fresh, created, copies⟩ := Check.bind_eq_ok.mp copied
      cases copies
      exact (create_mirrors stores created).ofSame rfl fun _ _ => rfl
  | @operated session next operation before succeeded inductionHypothesis =>
      have performed := inductionHypothesis.performed stores operation
      rw [succeeded] at performed
      exact performed

/--
As long as every call succeeds, a solver that stores what it is told has the value
of the settings, for each shared parameter that it knows: after every assignment,
after a lower maximum or a suggestion has moved the penalty, and after every solve
with its recoveries.
-/
theorem solver_mirrors_settings
    (stores : StoresShared σ)
    {session : Session σ τ α}
    (answered : session.Answered)
    {parameter : Parameter}
    (shared : parameter.scope = .shared)
    (supports : Solver.Supports session.run.solver parameter) :
    ∃ value,
      session.settings.real? parameter = some value ∧
        Solver.getReal session.run.solver parameter = .ok value :=
  answered.mirrors stores parameter shared List.not_mem_nil supports

/-- A solver that knows three of the shared parameters and follows a script. -/
def knowingSolver (script : List (ScriptedAnswer ℚ)) : ScriptedSolver ℚ :=
  {
    scriptedSolver script with
    supported := [.epsilon, .gapTolerance, .penalty]
  }

/-- A new session around that solver. -/
def knowingSession
    (script : List (ScriptedAnswer ℚ)) :
    Session (ScriptedSolver ℚ) NewtonMethod ℚ :=
  stateAfter
    (forwardSettings
      (assemble standardSentinel Settings.standard (knowingSolver script)
        NewtonMethod.standard))

/-- Operations that solve a problem and lower the penalty in two ways. -/
def loweringOperations : List (Operation ℚ) :=
  [
    .edit (.load openProgram),
    .solve patientOptions (fun _ => 0),
    .setReal .maxPenalty 1000,
    .choosePenalty 5
  ]

/--
The recovery of the solve tightens the gap tolerance and succeeds, a lower maximum
lowers the penalty, and a suggestion lowers it again: in the end the solver has the
penalty and the gap tolerance of the settings.
-/
theorem knowingSession_is_mirrored :
    let start :=
      knowingSession [unsureAnswer, unsureAnswer, infeasibleAnswer, sureAnswer]
    let session := loweringOperations.foldl Operation.performed start
    session.Answered ∧
      .real .gapTolerance 1e-7 ∈ session.run.solver.assignments ∧
      Solver.getReal session.run.solver .gapTolerance = .ok 1e-4 ∧
      Solver.getReal session.run.solver .penalty = .ok 50 := by
  intro start session
  have created :
      create standardSentinel Settings.standard
          (knowingSolver
            [unsureAnswer, unsureAnswer, infeasibleAnswer, sureAnswer])
          NewtonMethod.standard =
        .ok start :=
    create_eq_ok_iff.mpr
      ⟨by decide +kernel, eq_ok_of_answerOf (by decide +kernel)⟩
  have performed {before : Session (ScriptedSolver ℚ) NewtonMethod ℚ}
      (answered : before.Answered)
      (operation : Operation ℚ)
      (succeeds : answerOf (operation.perform before) = .ok ()) :
      (operation.performed before).Answered :=
    .operated answered (eq_ok_of_answerOf succeeds)
  have answered : session.Answered := by
    refine
      performed
        (performed (performed (performed (.created created) _ ?_) _ ?_) _ ?_)
        _ ?_
    all_goals decide +kernel
  have mirrored (parameter : Parameter)
      (shared : parameter.scope = .shared)
      (listed : parameter ∈ session.run.solver.supported) :=
    solver_mirrors_settings ScriptedSolver.storesShared answered shared
      ((ScriptedSolver.supports_iff _ _).mpr (.inr listed))
  refine ⟨answered, by decide +kernel, ?_, ?_⟩
  · obtain ⟨gap, isSetting, isHeld⟩ :=
      mirrored .gapTolerance rfl (by decide +kernel)
    have isStandard :
        session.settings.real? .gapTolerance = some 1e-4 := by
      decide +kernel
    cases isSetting.symm.trans isStandard
    exact isHeld
  · obtain ⟨penalty, isSetting, isHeld⟩ :=
      mirrored .penalty rfl (by decide +kernel)
    have isLowered : session.settings.real? .penalty = some 50 := by
      decide +kernel
    cases isSetting.symm.trans isLowered
    exact isHeld

end Session

end SdpRelay
