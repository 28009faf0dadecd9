import SdpRelay.Proofs.SolverCalls
import SdpRelay.Solver.Scripted

namespace SdpRelay

/-!
# Solvers that store shared parameters

The parameters that a session shares with its solver are passed on to it.  Nothing
is known about what a solver does with them unless it stores them: it returns the
last value that it accepted, and no other request changes it.  Scripted solvers
are of this kind.
-/

variable {σ α : Type}

/-- The parameters that a session shares with its solver. -/
theorem Parameter.shared_iff {parameter : Parameter} :
    parameter.scope = .shared ↔
      parameter = .epsilon ∨ parameter = .gapTolerance ∨
        parameter = .feasTolerance ∨ parameter = .penalty := by
  cases parameter <;> decide

namespace Solver

variable [Solver σ α]

/-- The solver knows a parameter, whether or not it accepts a value of it. -/
def Supports
    (solver : σ)
    (parameter : Parameter) :
    Prop :=
  ∀ value next,
    Solver.setReal parameter value solver ≠ .error .parameterUnknown next

/-- What a solver has of a parameter: its value, and whether it is known at all. -/
def holding
    (parameter : Parameter)
    (solver : σ) :
    Except SolverFault α × Prop :=
  (Solver.getReal solver parameter, Solver.Supports solver parameter)

end Solver

/-- A solver stores the shared parameters, and changes them only when it is told to. -/
structure StoresShared
    (σ : Type)
    {α : Type}
    [Solver σ α] :
    Prop where
  accepted
      {parameter : Parameter}
      {value : α}
      {solver next : σ}
      (shared : parameter.scope = .shared)
      (accepts : Solver.setReal parameter value solver = .ok () next) :
      Solver.holding parameter next =
        (.ok value, Solver.Supports solver parameter)
  refused
      {parameter : Parameter}
      {value : α}
      {solver next : σ}
      {fault : SolverFault}
      (shared : parameter.scope = .shared)
      (refuses : Solver.setReal parameter value solver = .error fault next) :
      Solver.holding parameter next = Solver.holding parameter solver
  setOther
      {parameter other : Parameter}
      (shared : parameter.scope = .shared)
      (differs : other ≠ parameter)
      (value : α) :
      Keeps (Solver.holding parameter)
        (Solver.setReal other value : EStateM SolverFault σ Unit)
  setInteger
      {parameter : Parameter}
      (shared : parameter.scope = .shared)
      (other : Parameter)
      (value : Int32) :
      Keeps (Solver.holding parameter)
        (Solver.setInteger other value : EStateM SolverFault σ Unit)
  guessScaling
      {parameter : Parameter}
      (shared : parameter.scope = .shared)
      (largest : α) :
      Keeps (Solver.holding parameter)
        (Solver.guessScaling largest : EStateM SolverFault σ Unit)
  solve
      {parameter : Parameter}
      (shared : parameter.scope = .shared)
      (request : SolveRequest α) :
      Keeps (Solver.holding parameter)
        (Solver.solve request : EStateM SolverFault σ PenaltyOutcome)
  countProblem
      {parameter : Parameter}
      (shared : parameter.scope = .shared)
      (solver : σ) :
      Solver.holding parameter (Solver.countProblem solver) =
        Solver.holding parameter solver
  resetCount
      {parameter : Parameter}
      (shared : parameter.scope = .shared)
      (solver : σ) :
      Solver.holding parameter (Solver.resetCount solver) =
        Solver.holding parameter solver

namespace StoresShared

variable [Solver σ α] {parameter : Parameter}

/-- A value that is passed on is stored if the parameter is known, unless the solver fails. -/
theorem forward_ends
    (stores : StoresShared σ)
    (shared : parameter.scope = .shared)
    (value : α)
    (solver : σ) :
    Ends
      (fun _ next =>
        (Solver.Supports next parameter ↔ Solver.Supports solver parameter) ∧
          (Solver.Supports next parameter →
            Solver.getReal next parameter = .ok value))
      (fun _ next =>
        Solver.holding parameter next = Solver.holding parameter solver)
      (Solver.forward parameter value solver) := by
  unfold Solver.forward
  cases result : Solver.setReal parameter value solver with
  | ok answer next =>
      have stored := stores.accepted shared result
      exact ⟨iff_of_eq (congrArg Prod.snd stored), fun _ => congrArg Prod.fst stored⟩
  | error fault next =>
      have kept := stores.refused shared result
      cases fault with
      | parameterUnknown =>
          have same := iff_of_eq (congrArg Prod.snd kept)
          refine ⟨same, fun supports => ?_⟩
          exact absurd result (same.mp supports value next)
      | notAvailable => exact kept
      | failed reason => exact kept

/-- As far as the parameter is known, a value that is passed on replaces the old one. -/
theorem forward_replaces
    (stores : StoresShared σ)
    (shared : parameter.scope = .shared)
    (value : α)
    {old : α}
    {solver : σ}
    (before :
      Solver.Supports solver parameter →
        Solver.getReal solver parameter = .ok old) :
    Ends
      (fun _ next =>
        Solver.Supports next parameter →
          Solver.getReal next parameter = .ok value)
      (fun _ next =>
        Solver.Supports next parameter →
          Solver.getReal next parameter = .ok old)
      (Solver.forward parameter value solver) := by
  refine (stores.forward_ends shared value solver).mono ?_ ?_
  · exact fun _ _ stored => stored.2
  · intro _ next kept supports
    have sameValue := congrArg Prod.fst kept
    have sameSupport := congrArg Prod.snd kept
    exact sameValue.trans (before (sameSupport.mp supports))

/-- A value that is passed on leaves all other parameters alone. -/
theorem forward_keeps
    (stores : StoresShared σ)
    (shared : parameter.scope = .shared)
    {other : Parameter}
    (differs : other ≠ parameter)
    (value : α) :
    Keeps (Solver.holding parameter)
      (Solver.forward other value : EStateM SolverFault σ Unit) := by
  intro solver
  rw [Solver.stateAfter_forward]
  exact stores.setOther shared differs value solver

end StoresShared

namespace ScriptedSolver

/-- An assignment either changes the solver or is refused without a change. -/
theorem assign_cases
    (parameter : Parameter)
    (change : ScriptedSolver α → ScriptedSolver α)
    (solver : ScriptedSolver α) :
    assign parameter change solver = .ok () (change solver) ∨
      ∃ fault, assign parameter change solver = .error fault solver := by
  unfold assign
  cases solver.checkAssignable parameter with
  | ok _ => exact .inl rfl
  | error fault => exact .inr ⟨fault, rfl⟩

/-- An assignment leaves alone what its change leaves alone. -/
theorem assign_keeps
    {γ : Type}
    {view : ScriptedSolver α → γ}
    {change : ScriptedSolver α → ScriptedSolver α}
    (kept : ∀ solver, view (change solver) = view solver)
    (parameter : Parameter) :
    Keeps view (assign parameter change) := by
  intro solver
  rcases assign_cases parameter change solver with changed | ⟨fault, unchanged⟩
  · rw [changed]
    exact kept solver
  · rw [unchanged]
    rfl

/-- A value that is kept for another parameter is not looked at. -/
theorem kept_cons_of_ne
    {β : Type}
    {parameter other : Parameter}
    (differs : other ≠ parameter)
    (value : β)
    (values : List (Parameter × β)) :
    kept ((other, value) :: values) parameter = kept values parameter := by
  unfold kept
  rw [List.lookup_cons, beq_eq_false_iff_ne.mpr differs.symm]

variable [Scalar α]

/-- A scripted solver knows the parameters that it accepts and those at which it fails. -/
theorem supports_iff
    (solver : ScriptedSolver α)
    (parameter : Parameter) :
    Solver.Supports solver parameter ↔
      parameter ∈ solver.failing ∨ parameter ∈ solver.supported := by
  constructor
  · intro supports
    by_contra neither
    obtain ⟨notFailing, notSupported⟩ := not_or.mp neither
    refine supports 0 solver ?_
    change assign parameter _ solver = _
    simp only [assign, checkAssignable, if_neg notFailing, if_neg notSupported]
  · intro listed value next
    change assign parameter _ solver ≠ _
    unfold assign checkAssignable
    by_cases failing : parameter ∈ solver.failing
    · rw [if_pos failing]
      exact nofun
    · rw [if_neg failing, if_pos (listed.resolve_left failing)]
      exact nofun

/-- What a scripted solver has of a parameter depends on its lists alone. -/
theorem holding_congr
    {parameter : Parameter}
    {first second : ScriptedSolver α}
    (reals : kept first.reals parameter = kept second.reals parameter)
    (failing : first.failing = second.failing)
    (supported : first.supported = second.supported) :
    Solver.holding parameter first = Solver.holding parameter second := by
  refine Prod.ext reals (propext ?_)
  change Solver.Supports first parameter ↔ Solver.Supports second parameter
  rw [supports_iff, supports_iff, failing, supported]

/-- A scripted solver stores whatever it accepts. -/
theorem storesShared : StoresShared (ScriptedSolver α) where
  accepted {parameter value solver next} shared accepts := by
    rcases assign_cases parameter _ solver with changed | ⟨fault, unchanged⟩
    · cases changed.symm.trans accepts
      refine Prod.ext ?_ (propext ?_)
      · change kept ((parameter, value) :: solver.reals) parameter = .ok value
        unfold kept
        rw [List.lookup_cons_self]
      · change Solver.Supports _ parameter ↔ Solver.Supports solver parameter
        rw [supports_iff, supports_iff]
        rfl
    · cases unchanged.symm.trans accepts
  refused {parameter value solver next fault} shared refuses := by
    rcases assign_cases parameter _ solver with changed | ⟨fault, unchanged⟩
    · cases changed.symm.trans refuses
    · cases unchanged.symm.trans refuses
      rfl
  setOther {parameter other} shared differs value := by
    refine assign_keeps (fun solver => ?_) other
    exact holding_congr (kept_cons_of_ne differs value solver.reals) rfl rfl
  setInteger shared other value := by
    refine assign_keeps (fun solver => ?_) other
    exact holding_congr rfl rfl rfl
  guessScaling {parameter} shared largest := by
    refine assign_keeps (fun solver => ?_) .lambdaStar
    refine holding_congr (kept_cons_of_ne ?_ largest solver.reals) rfl rfl
    rintro rfl
    cases shared
  solve shared request solver := by
    change
      Solver.holding _ (stateAfter (ScriptedSolver.solve request solver)) = _
    unfold ScriptedSolver.solve
    dsimp only
    split
    · exact holding_congr rfl rfl rfl
    · exact holding_congr rfl rfl rfl
  countProblem shared solver := holding_congr rfl rfl rfl
  resetCount shared solver := holding_congr rfl rfl rfl

end ScriptedSolver

end SdpRelay
