import SdpRelay.Proofs.SessionHistory
import SdpRelay.Proofs.ValidSettings

namespace SdpRelay

/-!
# Settings over the history of a session

A session checks its settings when it is made, replaced or given a parameter, and
a solve does not change them.  The two operations in which the solver suggests a
penalty parameter are the exception: they store what comes of the suggestion
without a check.  So the settings are valid after each call of a history exactly
if every suggestion that was taken along the way was sound.
-/

variable {σ τ α : Type}

/-- A call on a session: an operation, or to go on with a copy around another solver. -/
inductive SessionCall (σ τ α : Type) where
  | operate (operation : Operation α)
  | copyTo (solver : σ) (oneVariable : τ)

variable [Scalar α] [Solver σ α]

namespace Session

open SessionM

/-- The sessions that a program can begin with. -/
inductive Started : Session σ τ α → Prop where
  | standard (sentinel solver oneVariable) :
      Started (assemble sentinel Settings.standard solver oneVariable)
  | created {sentinel settings solver oneVariable session}
      (created : create sentinel settings solver oneVariable = .ok session) :
      Started session

/-- A session is made of settings that pass their check, and its solver is told of them. -/
theorem create_eq_ok_iff
    {sentinel : α}
    {settings : Settings α}
    {solver : σ}
    {oneVariable : τ}
    {session : Session σ τ α} :
    create sentinel settings solver oneVariable = .ok session ↔
      settings.validate = .ok () ∧
        forwardSettings (assemble sentinel settings solver oneVariable) =
          .ok () session := by
  unfold create
  cases settings.validate with
  | error fault =>
      exact iff_of_false nofun (fun both => nomatch both.1)
  | ok _ =>
      cases forwardSettings (assemble sentinel settings solver oneVariable) with
      | error fault next =>
          exact iff_of_false nofun (fun both => nomatch both.2)
      | ok _ next =>
          constructor
          · rintro ⟨⟩
            exact ⟨rfl, rfl⟩
          · rintro ⟨_, ⟨⟩⟩
            rfl

omit [Scalar α] in
theorem forward_keepsSettings
    (parameter : Parameter)
    (value : α) :
    Keeps settings (forward parameter value : SessionM σ τ α Unit) :=
  forward_keepsUntold (fun _ _ => rfl) parameter value

omit [Scalar α] in
theorem forwardSettings_keepsSettings :
    Keeps settings (forwardSettings : SessionM σ τ α Unit) :=
  forwardSettings_keepsUntold fun _ _ => rfl

omit [Scalar α] [Solver σ α] in
theorem assignAtSolver_keepsSettings
    (parameter : Parameter)
    (assignment : EStateM SolverFault σ Unit) :
    Keeps settings
      (assignAtSolver parameter assignment : SessionM σ τ α Unit) :=
  assignAtSolver_keepsUntold (fun _ _ => rfl) parameter assignment

omit [Scalar α] in
/-- Integral parameters are no numbers of the settings. -/
theorem setInteger_keepsNumbers
    (parameter : Parameter)
    (value : Int32)
    (session : Session σ τ α) :
    (stateAfter (setInteger parameter value session)).settings.get =
      session.settings.get := by
  have atSolver (assignment : EStateM SolverFault σ Unit) :
      (stateAfter
        (assignAtSolver parameter assignment session)).settings.get =
        session.settings.get := by
    rw [assignAtSolver_keepsSettings parameter assignment session]
  cases parameter with
  | slaterCheck =>
      cases chosen : SlaterCheck.ofInt? value with
      | some choice =>
          simp only [setInteger, chosen]
          funext field
          cases field <;> rfl
      | none =>
          simp only [setInteger, chosen]
          rfl
  | penaltyIncreases =>
      change
        (stateAfter
          ((if value < 0 then _ else _ :
            SessionM σ τ α Unit) session)).settings.get = _
      split
      · rfl
      · funext field
        cases field <;> rfl
  | solverOutput | threads | presolving | scaling | objectiveScaling =>
      exact atSolver _
  | _ =>
      rfl

omit [Solver σ α] in
/-- Settings that are checked before they are put in place are replaced by ones that pass. -/
theorem putChecked_checked
    (session : Session σ τ α)
    (changed : Settings α)
    {rest : SessionM σ τ α Unit}
    (keeps : Keeps settings rest) :
    let next :=
      stateAfter
        ((do
          liftExcept .setting changed.validate
          putSettings changed
          rest : SessionM σ τ α Unit) session)
    next.settings = session.settings ∨ next.settings.validate = .ok () := by
  intro next
  cases checked : changed.validate with
  | error fault =>
      refine .inl ?_
      unfold next
      rw [checked]
      rfl
  | ok _ =>
      have kept := keeps { session with settings := changed }
      refine .inr ?_
      unfold next
      rw [checked]
      change
        (stateAfter
          (rest { session with settings := changed })).settings.validate = _
      rw [kept]
      exact checked

/-- An assignment of a real parameter leaves the settings alone or passes their check. -/
theorem setReal_checked
    (parameter : Parameter)
    (value : α)
    (session : Session σ τ α) :
    (stateAfter (setReal parameter value session)).settings =
        session.settings ∨
      (stateAfter (setReal parameter value session)).settings.validate =
        .ok () := by
  unfold setReal
  split
  · exact .inl rfl
  · split
    · exact .inl (assignAtSolver_keepsSettings parameter _ session)
    · refine putChecked_checked session _ ?_
      split
      · exact forward_keepsSettings _ _
      · split
        · exact forward_keepsSettings _ _
        · exact .pure _

/-- A suggested penalty is stored as it is, up to the maximum. -/
theorem choosePenalty_settings
    (coefficient : α)
    (session : Session σ τ α) :
    (stateAfter (choosePenalty coefficient session)).settings =
      match Solver.suggestPenalty session.run.solver coefficient with
      | .error _ => session.settings
      | .ok suggested =>
          {
            session.settings with
            penalty := Scalar.smaller suggested session.settings.maxPenalty
          } := by
  unfold choosePenalty
  change
    (stateAfter
      ((liftExcept .solver
          (Solver.suggestPenalty session.run.solver coefficient) >>= _ :
        SessionM σ τ α α) session)).settings = _
  cases Solver.suggestPenalty session.run.solver coefficient with
  | error fault =>
      rfl
  | ok suggested =>
      exact
        Keeps.bind (forward_keepsSettings _ _) (fun _ => .pure _)
          {
            session with
            settings :=
              {
                session.settings with
                penalty := Scalar.smaller suggested session.settings.maxPenalty
              }
          }

/-- A suggested maximum is stored as it is, and the penalty lowered to it. -/
theorem chooseMaxPenalty_settings
    (penalty : α)
    (session : Session σ τ α) :
    (stateAfter (chooseMaxPenalty penalty session)).settings =
      match Solver.suggestMaxPenalty session.run.solver penalty with
      | .error _ => session.settings
      | .ok suggested =>
          if suggested < session.settings.penalty then
            {
              session.settings with
              maxPenalty := suggested
              penalty := suggested
            }
          else
            { session.settings with maxPenalty := suggested } := by
  unfold chooseMaxPenalty
  change
    (stateAfter
      ((liftExcept .solver
          (Solver.suggestMaxPenalty session.run.solver penalty) >>= _ :
        SessionM σ τ α α) session)).settings = _
  cases Solver.suggestMaxPenalty session.run.solver penalty with
  | error fault =>
      rfl
  | ok suggested =>
      change
        (stateAfter
          ((if suggested < session.settings.penalty then _ else _ :
            SessionM σ τ α α) session)).settings = _
      dsimp only
      split
      · exact
          Keeps.bind (forward_keepsSettings _ _) (fun _ => .pure _)
            {
              session with
              settings :=
                {
                  session.settings with
                  maxPenalty := suggested
                  penalty := suggested
                }
            }
      · rfl

/-- A new session has valid settings. -/
theorem Started.valid
    [SettingsArithmetic α]
    {session : Session σ τ α}
    (started : session.Started) :
    session.settings.Valid := by
  cases started with
  | standard sentinel solver oneVariable =>
      exact Settings.validate_iff_valid.mp SettingsArithmetic.standard_validate
  | @created sentinel settings solver oneVariable _ created =>
      obtain ⟨passes, told⟩ := create_eq_ok_iff.mp created
      have kept :=
        forwardSettings_keepsSettings
          (assemble sentinel settings solver oneVariable)
      rw [told] at kept
      change session.settings = settings at kept
      rw [kept]
      exact Settings.validate_iff_valid.mp passes

end Session

variable [OneVariableSolver τ α]

namespace SessionCall

open Session

/-- The session to go on with after a call, whether it failed or not. -/
def taken
    (session : Session σ τ α) :
    SessionCall σ τ α → Session σ τ α
  | .operate operation => operation.performed session
  | .copyTo solver oneVariable =>
      match session.copyWith solver oneVariable with
      | .ok copy => copy
      | .error _ => session

/--
What the solver suggests in a call can be stored as it is: a penalty that is not
cut off at the maximum is positive, and a maximum is positive and finite.
-/
def SuggestsSoundly
    (session : Session σ τ α) :
    SessionCall σ τ α → Prop
  | .operate (.choosePenalty coefficient) =>
      ∀ suggested,
        Solver.suggestPenalty session.run.solver coefficient = .ok suggested →
          suggested < session.settings.maxPenalty → 0 < suggested
  | .operate (.chooseMaxPenalty penalty) =>
      ∀ suggested,
        Solver.suggestMaxPenalty session.run.solver penalty = .ok suggested →
          0 < suggested ∧ Scalar.isFinite suggested = true
  | _ => True

/-- The call makes the solver suggest a penalty parameter. -/
def AsksForSuggestion : SessionCall σ τ α → Prop
  | .operate (.choosePenalty _) => True
  | .operate (.chooseMaxPenalty _) => True
  | _ => False

/-- Without a suggestion a call leaves the numbers alone, or its settings pass their check. -/
theorem taken_checked
    {call : SessionCall σ τ α}
    (unasked : ¬ call.AsksForSuggestion)
    (session : Session σ τ α) :
    (call.taken session).settings.get = session.settings.get ∨
      (call.taken session).settings.validate = .ok () := by
  cases call with
  | copyTo solver oneVariable =>
      unfold taken
      dsimp only
      split
      · rename_i copy copied
        obtain ⟨fresh, created, copies⟩ := Check.bind_eq_ok.mp copied
        cases copies
        obtain ⟨passes, told⟩ := create_eq_ok_iff.mp created
        have kept :=
          forwardSettings_keepsSettings
            (assemble session.sentinel session.settings solver oneVariable)
        rw [told] at kept
        exact .inl (congrArg Settings.get kept)
      · exact .inl rfl
  | operate operation =>
      cases operation with
      | edit change =>
          have keeps :
              Keeps Session.settings (change.perform : SessionM σ τ α Unit) :=
            change.perform_keeps (fun _ _ => rfl) (fun _ => rfl)
              (fun _ => rfl) (fun _ => rfl)
          exact .inl (congrArg Settings.get (keeps session))
      | setSentinel sentinel =>
          exact .inl rfl
      | updateSettings settings =>
          exact
            (putChecked_checked session settings
              forwardSettings_keepsSettings).imp_left (congrArg Settings.get)
      | setReal parameter value =>
          exact
            (setReal_checked parameter value session).imp_left
              (congrArg Settings.get)
      | setInteger parameter value =>
          exact .inl (setInteger_keepsNumbers parameter value session)
      | guessScaling largest =>
          exact
            .inl
              (congrArg Settings.get (keeps_onRun (fun _ _ => rfl) session))
      | choosePenalty coefficient =>
          exact absurd trivial unasked
      | chooseMaxPenalty penalty =>
          exact absurd trivial unasked
      | takeNotices =>
          exact .inl rfl
      | redirect outlet =>
          exact .inl rfl
      | setMemory memory =>
          exact .inl rfl
      | solve options watch =>
          have kept := solve_keepsAssignment options watch session
          exact .inl (congrArg (fun assignment => assignment.2.2.get) kept)

/-- No call makes the gap tolerance zero or negative: no suggestion is about it. -/
theorem taken_gapTolerance_pos
    {session : Session σ τ α}
    (positive : 0 < session.settings.gapTolerance)
    (call : SessionCall σ τ α) :
    0 < (call.taken session).settings.gapTolerance := by
  have checked
      {next : Session σ τ α}
      (either :
        next.settings.get = session.settings.get ∨
          next.settings.validate = .ok ()) :
      0 < next.settings.gapTolerance := by
    rcases either with same | passes
    · have sameGap :
          next.settings.gapTolerance = session.settings.gapTolerance :=
        congrFun same .gapTolerance
      rw [sameGap]
      exact positive
    · exact Settings.get_pos passes .gapTolerance
  cases call with
  | copyTo solver oneVariable =>
      exact checked (taken_checked id session)
  | operate operation =>
      cases operation with
      | choosePenalty coefficient =>
          change
            0 <
              (stateAfter
                (discard (choosePenalty coefficient) session)).settings.gapTolerance
          rw [stateAfter_discard, choosePenalty_settings]
          split
          · exact positive
          · exact positive
      | chooseMaxPenalty penalty =>
          change
            0 <
              (stateAfter
                (discard (chooseMaxPenalty penalty) session)).settings.gapTolerance
          rw [stateAfter_discard, chooseMaxPenalty_settings]
          split
          · exact positive
          · split
            · exact positive
            · exact positive
      | _ =>
          exact checked (taken_checked id session)

variable [SettingsArithmetic α]

/-- A stored penalty is valid exactly if the suggestion for it was sound. -/
theorem choosePenalty_valid_iff
    {session : Session σ τ α}
    (valid : session.settings.Valid)
    (coefficient : α) :
    (taken session (.operate (.choosePenalty coefficient))).settings.Valid ↔
      SuggestsSoundly session (.operate (.choosePenalty coefficient)) := by
  change
    (stateAfter (discard (choosePenalty coefficient) session)).settings.Valid ↔
      ∀ suggested,
        Solver.suggestPenalty session.run.solver coefficient = .ok suggested →
          suggested < session.settings.maxPenalty → 0 < suggested
  rw [stateAfter_discard, choosePenalty_settings]
  cases Solver.suggestPenalty session.run.solver coefficient with
  | error fault =>
      exact iff_of_true valid nofun
  | ok suggested =>
      simpa only [Except.ok.injEq, forall_eq'] using
        valid.cutPenalty_iff suggested

/-- A stored maximum is valid exactly if the suggestion for it was sound. -/
theorem chooseMaxPenalty_valid_iff
    {session : Session σ τ α}
    (valid : session.settings.Valid)
    (penalty : α) :
    (taken session (.operate (.chooseMaxPenalty penalty))).settings.Valid ↔
      SuggestsSoundly session (.operate (.chooseMaxPenalty penalty)) := by
  change
    (stateAfter (discard (chooseMaxPenalty penalty) session)).settings.Valid ↔
      ∀ suggested,
        Solver.suggestMaxPenalty session.run.solver penalty = .ok suggested →
          0 < suggested ∧ Scalar.isFinite suggested = true
  rw [stateAfter_discard, chooseMaxPenalty_settings]
  cases Solver.suggestMaxPenalty session.run.solver penalty with
  | error fault =>
      exact iff_of_true valid nofun
  | ok suggested =>
      simpa only [Except.ok.injEq, forall_eq'] using
        valid.loweredTo_iff suggested

/-- A call leaves valid settings exactly if what it takes from the solver is sound. -/
theorem taken_valid_iff
    {session : Session σ τ α}
    (valid : session.settings.Valid)
    (call : SessionCall σ τ α) :
    (call.taken session).settings.Valid ↔ call.SuggestsSoundly session := by
  have checked
      {next : Session σ τ α}
      (either :
        next.settings.get = session.settings.get ∨
          next.settings.validate = .ok ()) :
      next.settings.Valid ↔ True :=
    iff_of_true
      (either.elim valid.ofNumbers Settings.validate_iff_valid.mp) trivial
  cases call with
  | copyTo solver oneVariable =>
      exact checked (taken_checked id session)
  | operate operation =>
      cases operation with
      | choosePenalty coefficient =>
          exact choosePenalty_valid_iff valid coefficient
      | chooseMaxPenalty penalty =>
          exact chooseMaxPenalty_valid_iff valid penalty
      | _ =>
          exact checked (taken_checked id session)

end SessionCall

namespace Session

/-- The session after a sequence of calls. -/
def afterCalls
    (session : Session σ τ α)
    (calls : List (SessionCall σ τ α)) :
    Session σ τ α :=
  calls.foldl SessionCall.taken session

theorem afterCalls_concat
    (session : Session σ τ α)
    (calls : List (SessionCall σ τ α))
    (call : SessionCall σ τ α) :
    session.afterCalls (calls ++ [call]) =
      call.taken (session.afterCalls calls) :=
  List.foldl_concat SessionCall.taken session call calls

variable [SettingsArithmetic α]

/-- The gap tolerance of a session is positive, whatever is done with the session. -/
theorem Started.gapTolerance_pos
    {session : Session σ τ α}
    (started : session.Started)
    (calls : List (SessionCall σ τ α)) :
    0 < (session.afterCalls calls).settings.gapTolerance := by
  induction calls using List.reverseRecOn with
  | nil =>
      exact started.valid.positive .gapTolerance
  | append_singleton earlier call inductionHypothesis =>
      rw [afterCalls_concat]
      exact SessionCall.taken_gapTolerance_pos inductionHypothesis call

/-- Calls in which every suggestion is sound leave valid settings. -/
theorem afterCalls_valid
    {session : Session σ τ α}
    (valid : session.settings.Valid)
    {calls : List (SessionCall σ τ α)}
    (sound :
      ∀ done call, done ++ [call] <+: calls →
        call.SuggestsSoundly (session.afterCalls done)) :
    (session.afterCalls calls).settings.Valid := by
  induction calls using List.reverseRecOn with
  | nil =>
      exact valid
  | append_singleton earlier call inductionHypothesis =>
      have before : (session.afterCalls earlier).settings.Valid := by
        refine inductionHypothesis fun done other isPrefix => ?_
        exact sound done other (isPrefix.trans (List.prefix_append _ _))
      rw [afterCalls_concat, SessionCall.taken_valid_iff before]
      exact sound earlier call List.prefix_rfl

/--
The settings of a session pass their check after each of its calls exactly if
every suggestion of the solver that was stored along the way was sound; and they
pass their check exactly if all their numbers are positive and finite and the
penalty does not exceed its maximum.
-/
theorem settings_stay_valid_iff
    {session : Session σ τ α}
    (started : session.Started)
    (calls : List (SessionCall σ τ α)) :
    ((∀ done, done <+: calls →
        (session.afterCalls done).settings.validate = .ok ()) ↔
      ∀ done call, done ++ [call] <+: calls →
        call.SuggestsSoundly (session.afterCalls done)) ∧
      ∀ settings : Settings α, settings.validate = .ok () ↔ settings.Valid := by
  refine ⟨⟨?_, ?_⟩, fun _ => Settings.validate_iff_valid⟩
  · intro passes done call isPrefix
    have before : (session.afterCalls done).settings.Valid :=
      Settings.validate_iff_valid.mp
        (passes done ((List.prefix_append _ _).trans isPrefix))
    have after : (session.afterCalls (done ++ [call])).settings.Valid :=
      Settings.validate_iff_valid.mp (passes _ isPrefix)
    rw [afterCalls_concat] at after
    exact (SessionCall.taken_valid_iff before call).mp after
  · intro sound done isPrefix
    refine Settings.validate_iff_valid.mpr (afterCalls_valid started.valid ?_)
    intro earlier call isEarlier
    exact sound earlier call (isEarlier.trans isPrefix)

/-- A session with the standard settings, around a solver that suggests multiples. -/
def suggestingSession : Session (ScriptedSolver ℚ) NewtonMethod ℚ :=
  assemble standardSentinel Settings.standard (scriptedSolver [])
    NewtonMethod.standard

/-- Calls that lower the maximum, choose both penalty parameters and make a copy. -/
def soundCalls : List (SessionCall (ScriptedSolver ℚ) NewtonMethod ℚ) :=
  [
    .operate (.setReal .maxPenalty 1000),
    .operate (.choosePenalty 5),
    .operate (.chooseMaxPenalty (1 / 100)),
    .copyTo (scriptedSolver []) NewtonMethod.standard
  ]

/--
The maximum is lowered from ten thousand millions to ten, below the penalty that
was chosen before, and the settings pass their check all along.
-/
theorem suggestingSession_stays_valid :
    suggestingSession.Started ∧
      (suggestingSession.afterCalls soundCalls).settings.penalty = 10 ∧
      ∀ done, done <+: soundCalls →
        (suggestingSession.afterCalls done).settings.validate = .ok () := by
  have started : suggestingSession.Started := .standard _ _ _
  refine ⟨started, by decide +kernel, ?_⟩
  refine (settings_stay_valid_iff started soundCalls).1.mpr ?_
  intro done call isPrefix
  have isCall : call ∈ soundCalls := isPrefix.subset (by simp)
  generalize suggestingSession.afterCalls done = session
  simp only [soundCalls, List.mem_cons, List.not_mem_nil, or_false] at isCall
  rcases isCall with rfl | rfl | rfl | rfl
  · trivial
  · rintro suggested ⟨⟩ _
    norm_num
  · rintro suggested ⟨⟩
    exact ⟨by norm_num, rfl⟩
  · trivial

/--
For a zero coefficient the solver suggests a zero penalty, which is stored although
the settings then fail their check, and although an assignment of zero is refused.
-/
theorem zero_suggestion_is_stored :
    let session := suggestingSession.afterCalls [.operate (.choosePenalty 0)]
    suggestingSession.Started ∧
      session.settings.validate = .error { field := .penalty } ∧
      answerOf (setReal .penalty 0 suggestingSession) =
        .error (.setting { field := .penalty }) := by
  exact ⟨.standard _ _ _, by decide +kernel, by decide +kernel⟩

end Session

end SdpRelay
