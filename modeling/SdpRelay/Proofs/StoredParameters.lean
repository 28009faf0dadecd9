import SdpRelay.Proofs.SettingsUpdates

namespace SdpRelay

/-!
# Stored parameters

A parameter that the session keeps is read from its settings.  What is assigned is
read back, and the value that is read can be assigned again without a change, with
one exception: the number of penalty increases is stored as a count without sign
and read as a number with sign, so that the larger half of the counts is read as
negative numbers, which no assignment accepts.
-/

variable {σ τ α : Type}

/-- Positive numbers of the settings of which neither exceeds the other are the same. -/
class SettingsOrder (α : Type) [Scalar α] : Prop
    extends SettingsArithmetic α where
  le_antisymm {a b : α}
      (positive : 0 < a)
      (atMost : a ≤ b)
      (atLeast : b ≤ a) :
      a = b

instance : SettingsOrder Float where
  le_antisymm {a b} positive atMost atLeast := by
    obtain ⟨order, compared, notGreater⟩ := (Double.le_iff a b).mp atMost
    obtain ⟨turned, swapped, notLess⟩ := (Double.le_iff b a).mp atLeast
    rw [Double.compare_swap (Double.parts a), compared] at swapped
    cases swapped
    refine Double.eq_of_beq positive ((Double.beq_iff a b).mpr ?_)
    rw [compared]
    cases order with
    | eq => rfl
    | lt => exact absurd rfl notLess
    | gt => exact absurd rfl notGreater

instance (priority := low) ExactField.settingsOrder
    {K : Type}
    [ExactField K] :
    SettingsOrder K where
  le_antisymm _ := le_antisymm

/-- Counts are read as negative numbers exactly in their larger half. -/
theorem toInt32_neg_iff (count : UInt32) :
    count.toInt32 < 0 ↔ 2 ^ 31 ≤ count.toNat := by
  change count.toBitVec.slt 0#32 = true ↔ _
  rw [BitVec.slt_zero_eq_msb, BitVec.msb_eq_decide]
  simp

namespace SlaterCheck

/-- The number of a choice is the number of that choice alone. -/
theorem ofInt?_eq_some_iff
    {number : Int32}
    {choice : SlaterCheck} :
    ofInt? number = some choice ↔ choice.toInt = number := by
  constructor
  · unfold ofInt?
    intro isChoice
    split at isChoice
    · rename_i isOff
      cases isChoice
      exact isOff.symm
    · split at isChoice
      · rename_i isCheck
        cases isChoice
        exact isCheck.symm
      · split at isChoice
        · rename_i isPrint
          cases isChoice
          exact isPrint.symm
        · cases isChoice
  · rintro rfl
    cases choice <;> decide

end SlaterCheck

namespace Settings

/-- The value of an integral parameter that a session keeps. -/
def integer? (settings : Settings α) : Parameter → Option Int32
  | .slaterCheck => some settings.slaterCheck.toInt
  | .penaltyIncreases => some settings.penaltyIncreases.toInt32
  | _ => none

/-- A real parameter is read from the settings exactly if the session keeps it. -/
theorem real?_isSome_iff
    {settings : Settings α}
    {parameter : Parameter} :
    (settings.real? parameter).isSome ↔
      parameter.isReal ∧ parameter.scope ≠ .solver := by
  cases parameter <;> simp [real?, Parameter.isReal, Parameter.scope]

variable [Scalar α]

/-- A parameter that is assigned has its new value. -/
theorem real?_withReal
    (settings : Settings α)
    (value : α)
    {parameter : Parameter}
    (isReal : parameter.isReal)
    (own : parameter.scope ≠ .solver) :
    (settings.withReal value parameter).real? parameter = some value := by
  cases parameter with
  | epsilon | gapTolerance | feasTolerance | penalty | maxPenalty
  | infeasibilityFactor => rfl
  | solverFeasTolerance | objectiveLimit | lambdaStar | warmStartGap =>
      exact absurd rfl own
  | _ => cases isReal

/-- The penalty of valid settings is the smaller of the two penalty parameters. -/
theorem Valid.smaller_maxPenalty
    [SettingsOrder α]
    {settings : Settings α}
    (valid : settings.Valid) :
    Scalar.smaller settings.penalty settings.maxPenalty = settings.penalty := by
  have penaltyFinite : Scalar.isFinite settings.penalty = true :=
    valid.finite .penalty
  have maximumFinite : Scalar.isFinite settings.maxPenalty = true :=
    valid.finite .maxPenalty
  rw [SettingsArithmetic.smaller_eq maximumFinite]
  split
  · rfl
  · rename_i notBelow
    have atMost : settings.maxPenalty ≤ settings.penalty :=
      (SettingsArithmetic.not_lt_iff_le maximumFinite penaltyFinite).mp notBelow
    exact
      SettingsOrder.le_antisymm (valid.positive .maxPenalty) atMost
        valid.ordered

/-- Valid settings do not change if a parameter is assigned the value that it has. -/
theorem Valid.withReal_real?
    [SettingsOrder α]
    {settings : Settings α}
    (valid : settings.Valid)
    {parameter : Parameter}
    {value : α}
    (read : settings.real? parameter = some value) :
    settings.withReal value parameter = settings := by
  cases parameter with
  | maxPenalty =>
      cases read
      unfold withReal
      rw [valid.smaller_maxPenalty]
  | epsilon | gapTolerance | feasTolerance | penalty | infeasibilityFactor =>
      cases read
      rfl
  | _ => cases read

end Settings

namespace SettingsUpdate

/-- An integral parameter that is assigned has its new value, and the solver is not told. -/
theorem integer?_of_assigningInteger?
    {settings : Settings α}
    {parameter : Parameter}
    {value : Int32}
    {update : SettingsUpdate α}
    (assigned : assigningInteger? settings value parameter = some update) :
    update.settings.integer? parameter = some value ∧ update.told = [] := by
  cases parameter with
  | slaterCheck =>
      obtain ⟨choice, chosen, rfl⟩ := Option.map_eq_some_iff.mp assigned
      have number := SlaterCheck.ofInt?_eq_some_iff.mp chosen
      exact ⟨congrArg some number, rfl⟩
  | penaltyIncreases =>
      obtain ⟨notNegative, ⟨⟩⟩ := Option.ite_none_left_eq_some.mp assigned
      exact ⟨congrArg some (Int32.toInt32_toUInt32 value), rfl⟩
  | _ => cases assigned

/--
The value that is read of an integral parameter can be assigned and changes
nothing, unless it is a number of penalty increases in the larger half of the counts.
-/
theorem assigningInteger?_integer?
    {settings : Settings α}
    {parameter : Parameter}
    {value : Int32}
    (read : settings.integer? parameter = some value) :
    assigningInteger? settings value parameter =
      if parameter = .penaltyIncreases ∧
          2 ^ 31 ≤ settings.penaltyIncreases.toNat then
        none
      else
        some { settings := settings, told := [] } := by
  cases parameter with
  | slaterCheck =>
      cases read
      have chosen :
          SlaterCheck.ofInt? settings.slaterCheck.toInt =
            some settings.slaterCheck :=
        SlaterCheck.ofInt?_eq_some_iff.mpr rfl
      rw [if_neg (by simp)]
      unfold assigningInteger?
      rw [chosen]
      rfl
  | penaltyIncreases =>
      cases read
      unfold assigningInteger?
      simp only [toInt32_neg_iff, UInt32.toUInt32_toInt32, true_and]
  | _ => cases read

end SettingsUpdate

namespace Session

open SessionM

variable [Solver σ α]

/-- The solver takes what it is told next of a shared parameter, or need not know it. -/
def TakesShared (session : Session σ τ α) : Prop :=
  ∀ parameter value, parameter.scope = .shared →
    ∃ next,
      Solver.forward parameter value session.run.solver = .ok () next

/-- A solver that takes the shared parameters takes what an assignment tells it. -/
theorem TakesShared.assigning
    [Scalar α]
    {session : Session σ τ α}
    (takes : session.TakesShared)
    (parameter : Parameter)
    (value : α) :
    Solver.Takes
      (SettingsUpdate.assigning session.settings parameter value).told
      session.run.solver := by
  unfold SettingsUpdate.assigning
  dsimp only
  split
  · rename_i isShared
    obtain ⟨next, told⟩ := takes parameter value isShared
    exact ⟨next, told, trivial⟩
  · split
    · obtain ⟨next, told⟩ := takes .penalty _ rfl
      exact ⟨next, told, trivial⟩
    · trivial

/-- A real parameter that the session keeps is read from its settings. -/
theorem getReal_eq_ok_iff
    {session : Session σ τ α}
    {parameter : Parameter}
    (own : parameter.scope ≠ .solver)
    {value : α} :
    session.getReal parameter = .ok value ↔
      session.settings.real? parameter = some value := by
  unfold getReal
  cases read : session.settings.real? parameter with
  | some found => simp
  | none =>
      have notReal : ¬ parameter.isReal = true := by
        intro isReal
        have isSome : (session.settings.real? parameter).isSome = true :=
          Settings.real?_isSome_iff.mpr ⟨isReal, own⟩
        rw [read] at isSome
        cases isSome
      simp [notReal]

/-- An integral parameter that the session keeps is read from its settings. -/
theorem getInteger_eq_ok_iff
    {session : Session σ τ α}
    {parameter : Parameter}
    (own : parameter.scope ≠ .solver)
    {value : Int32} :
    session.getInteger parameter = .ok value ↔
      session.settings.integer? parameter = some value := by
  cases parameter with
  | slaterCheck | penaltyIncreases | epsilon | gapTolerance | feasTolerance
  | penalty | maxPenalty | infeasibilityFactor =>
      simp [getInteger, Settings.integer?, Parameter.isReal]
  | _ => exact absurd rfl own

variable [Scalar α]

/-- A real parameter that the session keeps is assigned if the changed settings pass their check. -/
theorem setReal_eq_ok_iff
    {parameter : Parameter}
    (own : parameter.scope ≠ .solver)
    {value : α}
    {session next : Session σ τ α} :
    setReal parameter value session = .ok () next ↔
      parameter.isReal = true ∧
        (session.settings.withReal value parameter).validate = .ok () ∧
          (SettingsUpdate.assigning session.settings parameter value).perform
              session = .ok () next := by
  unfold setReal
  by_cases isReal : parameter.isReal = true
  · rw [if_neg (by simp [isReal]), if_neg own, setOwnReal_eq]
    cases (session.settings.withReal value parameter).validate with
    | ok _ =>
        rw [and_iff_right isReal, and_iff_right rfl]
        rfl
    | error fault =>
        exact iff_of_false nofun (fun both => nomatch both.2.1)
  · rw [if_pos (by simp [isReal])]
    exact iff_of_false nofun fun both => isReal both.1

omit [Scalar α] in
/-- An integral parameter that the session keeps is assigned if the value is in range. -/
theorem setInteger_eq_ok_iff
    {parameter : Parameter}
    (own : parameter.scope ≠ .solver)
    {value : Int32}
    {session next : Session σ τ α} :
    setInteger parameter value session = .ok () next ↔
      ∃ update,
        SettingsUpdate.assigningInteger? session.settings value parameter =
            some update ∧
          next = { session with settings := update.settings } := by
  have updates := setInteger_updates parameter value session
  cases assigned :
      SettingsUpdate.assigningInteger? session.settings value parameter with
  | some update =>
      rw [assigned] at updates
      change setInteger parameter value session = _ at updates
      obtain ⟨-, silent⟩ := SettingsUpdate.integer?_of_assigningInteger? assigned
      have performed :
          update.perform session =
            .ok () { session with settings := update.settings } := by
        unfold SettingsUpdate.perform
        rw [silent]
        rfl
      rw [updates, performed]
      simp [eq_comm]
  | none =>
      refine iff_of_false (fun succeeded => ?_) (by simp)
      cases parameter with
      | slaterCheck =>
          have outOfRange : SlaterCheck.ofInt? value = none :=
            Option.map_eq_none_iff.mp assigned
          simp only [setInteger, outOfRange] at succeeded
          cases succeeded
      | penaltyIncreases =>
          have negative : value < 0 := by
            by_contra notNegative
            unfold SettingsUpdate.assigningInteger? at assigned
            rw [if_neg notNegative] at assigned
            cases assigned
          simp only [setInteger, if_pos negative] at succeeded
          cases succeeded
      | epsilon | gapTolerance | feasTolerance | penalty | maxPenalty
      | infeasibilityFactor =>
          cases succeeded
      | _ => exact absurd rfl own

/--
The session's parameters are read back as they were assigned, and the value that
is read of one can be assigned again and changes nothing, if the settings are valid
and the solver takes what it is told.  The exception is the number of penalty
increases: from half of its range on it is read as a negative number, whose
assignment fails.
-/
theorem own_parameters_round_trip
    [SettingsOrder α]
    {session : Session σ τ α}
    (valid : session.settings.Valid)
    (takes : session.TakesShared)
    (parameter : Parameter)
    (own : parameter.scope ≠ .solver) :
    (∀ value, session.getReal parameter = .ok value →
      ∃ next,
        setReal parameter value session = .ok () next ∧
          next.settings = session.settings) ∧
    (∀ value next, setReal parameter value session = .ok () next →
      next.getReal parameter = .ok value) ∧
    (∀ value, session.getInteger parameter = .ok value →
      ((∃ next, setInteger parameter value session = .ok () next) ↔
        (parameter = .penaltyIncreases →
          session.settings.penaltyIncreases.toNat < 2 ^ 31)) ∧
      (stateAfter (setInteger parameter value session)).settings =
        session.settings) ∧
    (∀ value next, setInteger parameter value session = .ok () next →
      next.getInteger parameter = .ok value) := by
  refine ⟨?_, ?_, ?_, ?_⟩
  · intro value isValue
    have read := (getReal_eq_ok_iff own).mp isValue
    have isReal : parameter.isReal = true := by
      have isSome : (session.settings.real? parameter).isSome = true := by
        rw [read]
        rfl
      exact (Settings.real?_isSome_iff.mp isSome).1
    have same := valid.withReal_real? read
    have passes :
        (session.settings.withReal value parameter).validate = .ok () := by
      rw [same]
      exact Settings.validate_iff_valid.mpr valid
    obtain ⟨next, performed⟩ :=
      SettingsUpdate.perform_eq_ok_iff.mpr (takes.assigning parameter value)
    have stored :=
      SettingsUpdate.perform_settings
        (SettingsUpdate.assigning session.settings parameter value) session
    rw [performed] at stored
    exact
      ⟨next, (setReal_eq_ok_iff own).mpr ⟨isReal, passes, performed⟩,
        stored.trans same⟩
  · intro value next assigned
    obtain ⟨isReal, -, performed⟩ := (setReal_eq_ok_iff own).mp assigned
    have stored :=
      SettingsUpdate.perform_settings
        (SettingsUpdate.assigning session.settings parameter value) session
    rw [performed] at stored
    refine (getReal_eq_ok_iff own).mpr ?_
    change next.settings = _ at stored
    rw [stored]
    exact Settings.real?_withReal session.settings value isReal own
  · intro value isValue
    have read := (getInteger_eq_ok_iff own).mp isValue
    have updates := setInteger_updates parameter value session
    have assigned := SettingsUpdate.assigningInteger?_integer? read
    simp only [setInteger_eq_ok_iff own]
    by_cases unreadable :
        parameter = .penaltyIncreases ∧
          2 ^ 31 ≤ session.settings.penaltyIncreases.toNat
    · rw [if_pos unreadable] at assigned
      rw [assigned] at updates ⊢
      refine ⟨iff_of_false (by simp) fun below => ?_, updates⟩
      exact Nat.not_lt.mpr unreadable.2 (below unreadable.1)
    · rw [if_neg unreadable] at assigned
      rw [assigned] at updates ⊢
      refine ⟨iff_of_true (by simp) fun isCount => ?_, ?_⟩
      · exact Nat.not_le.mp fun above => unreadable ⟨isCount, above⟩
      · change setInteger parameter value session = _ at updates
        rw [updates, SettingsUpdate.perform_settings]
  · intro value next assigned
    obtain ⟨update, isUpdate, rfl⟩ := (setInteger_eq_ok_iff own).mp assigned
    exact
      (getInteger_eq_ok_iff own).mpr
        (SettingsUpdate.integer?_of_assigningInteger? isUpdate).1

end Session

/-- A scripted solver without failing parameters takes every value that is passed on. -/
theorem Session.takesShared_of_neverFails
    [Scalar α]
    {session : Session (ScriptedSolver α) τ α}
    (neverFails : session.run.solver.failing = []) :
    session.TakesShared := by
  intro parameter value _
  simp only [Solver.forward, Solver.setReal, ScriptedSolver.assign,
    ScriptedSolver.checkAssignable, neverFails, List.not_mem_nil, if_false]
  split_ifs
  · exact ⟨_, rfl⟩
  · exact ⟨_, rfl⟩

namespace Session

/-- A session that was given a number of penalty increases with its settings. -/
def countingSession (count : UInt32) :
    Session (ScriptedSolver ℚ) NewtonMethod ℚ :=
  (Operation.updateSettings
      { Settings.standard with penaltyIncreases := count }).performed
    (assemble standardSentinel Settings.standard (scriptedSolver [])
      NewtonMethod.standard)

theorem countingSession_reachable (count : UInt32) :
    (countingSession count).Reachable :=
  .operated (.assembled _ _ _ _) _

/-- The maximum of the penalty, and the last count that can be read and assigned again. -/
theorem countingSession_round_trip :
    let session := countingSession 2147483647
    session.settings.Valid ∧
      session.TakesShared ∧
      (∃ next,
        setReal .maxPenalty 10000000000 session = .ok () next ∧
          next.settings = session.settings) ∧
      ∃ next,
        setInteger .penaltyIncreases 2147483647 session = .ok () next := by
  intro session
  have valid : session.settings.Valid :=
    Settings.validate_iff_valid.mp (by decide +kernel)
  have takes : session.TakesShared :=
    takesShared_of_neverFails (by decide +kernel)
  obtain ⟨assignable, -⟩ :=
    own_parameters_round_trip valid takes .maxPenalty (by decide)
  obtain ⟨-, -, counts, -⟩ :=
    own_parameters_round_trip valid takes .penaltyIncreases (by decide)
  obtain ⟨succeeds, -⟩ := counts 2147483647 (by decide +kernel)
  exact
    ⟨valid, takes, assignable 10000000000 (by decide +kernel),
      succeeds.mpr fun _ => by decide +kernel⟩

/--
The first count in the larger half is read as the smallest number, and the
assignment of this number fails although the solver takes everything.
-/
theorem large_count_is_not_assignable :
    let session := countingSession 2147483648
    session.Reachable ∧
      session.settings.validate = .ok () ∧
      session.TakesShared ∧
      session.getInteger .penaltyIncreases = .ok (-2147483648) ∧
      answerOf (setInteger .penaltyIncreases (-2147483648) session) =
        .error (.penaltyIncreasesRange (-2147483648)) :=
  ⟨countingSession_reachable _, by decide +kernel,
    takesShared_of_neverFails (by decide +kernel), by decide +kernel,
    by decide +kernel⟩

end Session

end SdpRelay
