import SdpRelay.Proofs.GapCourse
import SdpRelay.Proofs.SharedParameters
import SdpRelay.Proofs.ValidSettings

namespace SdpRelay

/-!
# Gap tolerances that a failed solve leaves behind

The journal of a solver shows which parameters it accepted in a solve.  The only
ones that a failed solve assigns are the tightened gap tolerances of its recovery,
and the last of them is what the solver is left with.  It is not given its own
tolerance back, as it is after a solve that ends well.  Only a print that is refused
ends a solve after that.
-/

variable {σ τ α β : Type}

namespace JournaledSolver

variable [Solver σ α]

/-- What a solver has accepted so far, and what it has of the gap tolerance. -/
def known
    (journaled : JournaledSolver σ α) :
    List (Parameter × α) × Except SolverFault α × Prop :=
  (journaled.accepted, Solver.holding .gapTolerance journaled.solver)

/-- A gap tolerance that is passed on is noted and stored, unless the solver fails. -/
theorem forwardGap_ends
    (stores : StoresShared σ)
    {journaled : JournaledSolver σ α}
    (supports : Solver.Supports journaled.solver .gapTolerance)
    (value : α) :
    Ends
      (fun _ next =>
        next.accepted = journaled.accepted ++ [(.gapTolerance, value)] ∧
          Solver.getReal next.solver .gapTolerance = .ok value ∧
          Solver.Supports next.solver .gapTolerance)
      (fun _ next => next.known = journaled.known)
      (Solver.forward .gapTolerance value journaled) := by
  have isShared : Parameter.gapTolerance.scope = .shared := rfl
  have stored := stores.forward_ends isShared value journaled.solver
  have sent :
      Solver.setReal .gapTolerance value journaled =
        setReal .gapTolerance value journaled :=
    rfl
  have refused
      {fault : SolverFault}
      {next : σ}
      (kept :
        Solver.holding .gapTolerance next =
          Solver.holding .gapTolerance journaled.solver) :
      known
          {
            solver := next
            journal :=
              journaled.journal ++ [.told .gapTolerance value (.error fault)]
          } =
        journaled.known := by
    refine Prod.ext ?_ kept
    change (_ ++ _ : List (SolverEvent α)).filterMap _ = _
    rw [List.filterMap_append]
    exact List.append_nil _
  unfold Solver.forward at stored ⊢
  rw [sent]
  unfold setReal
  cases result : Solver.setReal .gapTolerance value journaled.solver with
  | ok answer next =>
      rw [result] at stored
      obtain ⟨sameSupport, holds⟩ := stored
      have supportsNext := sameSupport.mpr supports
      exact ⟨List.filterMap_append, holds supportsNext, supportsNext⟩
  | error fault next =>
      rw [result] at stored
      cases fault with
      | parameterUnknown => exact absurd result (supports value next)
      | notAvailable => exact refused stored
      | failed reason => exact refused stored

end JournaledSolver

namespace Session

variable [Scalar α] [Solver σ α] [OneVariableSolver τ α]

/-- The real parameters that the solver accepts in a solve, in order. -/
def assignments
    (session : Session σ τ α)
    (options : SolveOptions α)
    (watch : Nat → α) :
    List (Parameter × α) :=
  (session.journaledSolver options watch).accepted

end Session

variable [Scalar α]

/-- The gap tolerances of a number of tightenings, in order. -/
def Settings.tightenings
    (settings : Settings α)
    (count : Nat) :
    List α :=
  (List.range count).map fun index => settings.tightenedGap (index + 1)

/-- What a solver has of the gap tolerance after a number of tightenings. -/
def Settings.gapAfter
    (settings : Settings α)
    (before : Except SolverFault α) :
    Nat → Except SolverFault α
  | 0 => before
  | count + 1 => .ok (settings.tightenedGap (count + 1))

theorem Settings.tightenings_succ
    (settings : Settings α)
    (count : Nat) :
    settings.tightenings (count + 1) =
      settings.tightenings count ++ [settings.tightenedGap (count + 1)] := by
  simp [tightenings, List.range_succ]

section Exact

variable {K : Type} [ExactField K]

theorem Settings.gapFactor_lt_one (settings : Settings K) :
    settings.gapFactor < 1 := by
  unfold gapFactor Escalation.start PenaltySchedule.start
  dsimp only
  split
  · assumption
  · norm_num

/-- In exact arithmetic the tightened gap tolerances are a geometric sequence. -/
theorem Settings.tightenedGap_eq
    (settings : Settings K)
    (count : Nat) :
    settings.tightenedGap count =
      settings.gapTolerance * settings.gapFactor ^ count := by
  induction count with
  | zero =>
      simp [tightenedGap]
  | succ count inductionHypothesis =>
      rw [tightenedGap, inductionHypothesis, pow_succ, mul_assoc]

/-- In exact arithmetic every tightening makes the gap tolerance smaller. -/
theorem Settings.tightenedGap_lt
    {settings : Settings K}
    (gapPositive : 0 < settings.gapTolerance)
    (factorPositive : 0 < settings.gapFactor)
    {count : Nat}
    (some : 0 < count) :
    settings.tightenedGap count < settings.gapTolerance := by
  have below : settings.gapFactor ^ count < 1 :=
    pow_lt_one₀ factorPositive.le settings.gapFactor_lt_one some.ne'
  rw [settings.tightenedGap_eq]
  exact mul_lt_of_lt_one_right gapPositive below

end Exact

variable [Solver σ α]

namespace JournaledSolver

/-- What is known of a solver after a number of tightenings. -/
structure Tightened
    (settings : Settings α)
    (before : Except SolverFault α)
    (count : Nat)
    (known : List (Parameter × α) × Except SolverFault α × Prop) :
    Prop where
  accepted :
    known.1 =
      (settings.tightenings count).map fun gap => (.gapTolerance, gap)
  gap : known.2.1 = settings.gapAfter before count
  supports : known.2.2

/-- What is known of a solver that was given its gap tolerance back. -/
structure Restored
    (settings : Settings α)
    (known : List (Parameter × α) × Except SolverFault α × Prop) :
    Prop where
  accepted :
    ∃ count,
      known.1 =
        (settings.tightenings count).map (fun gap => (.gapTolerance, gap)) ++
          [(.gapTolerance, settings.gapTolerance)]
  gap : known.2.1 = .ok settings.gapTolerance

/-- A journaled solver that stores the gap tolerance follows its course. -/
theorem gapCourse
    (stores : StoresShared σ)
    (settings : Settings α)
    (before : Except SolverFault α) :
    GapCourse (known (σ := σ)) settings (Tightened settings before)
      (Restored settings) where
  solve := by
    intro request journaled
    change known (stateAfter (solve request journaled)) = _
    unfold solve
    rw [stateAfter_withState]
    refine Prod.ext ?_ (stores.solve rfl request journaled.solver)
    change (_ ++ _ : List (SolverEvent α)).filterMap _ = _
    rw [List.filterMap_append]
    exact List.append_nil _
  countProblem journaled :=
    Prod.ext rfl (stores.countProblem rfl journaled.solver)
  tighten := by
    intro count journaled soFar
    refine (forwardGap_ends stores soFar.supports _).mono ?_ ?_
    · rintro _ next ⟨accepted, gap, supports⟩
      refine ⟨?_, gap, supports⟩
      calc
        next.accepted = journaled.accepted ++ [(.gapTolerance, _)] := accepted
        _ = (settings.tightenings count).map (fun gap => (.gapTolerance, gap)) ++
              [(.gapTolerance, settings.tightenedGap (count + 1))] :=
            congrArg (· ++ _) soFar.accepted
        _ = _ := by rw [settings.tightenings_succ, List.map_append]; rfl
    · intro _ next same
      rw [same]
      exact soFar
  restore := by
    intro count journaled soFar
    refine (forwardGap_ends stores soFar.supports _).mono ?_ ?_
    · rintro _ next ⟨accepted, gap, _⟩
      exact ⟨⟨count, accepted.trans (congrArg (· ++ _) soFar.accepted)⟩, gap⟩
    · intro _ next same
      rw [same]
      exact soFar

end JournaledSolver

namespace Session

variable [OneVariableSolver τ α]

/-- What a solve that fails has assigned, and the gap tolerance that it leaves. -/
inductive LeavesGap
    (session : Session σ τ α)
    (options : SolveOptions α)
    (watch : Nat → α)
    (fault : Fault α)
    (gap : Except SolverFault α) :
    Prop where
  /-- The tightened tolerances of its recovery, up to one, which is left. -/
  | tightened (count : Nat)
      (assigned :
        session.assignments options watch =
          (session.settings.tightenings count).map
            fun gap => (.gapTolerance, gap))
      (left :
        gap =
          session.settings.gapAfter
            (Solver.getReal session.run.solver .gapTolerance) count)
  /-- All of them and the tolerance of the settings, before a print was refused. -/
  | unprinted (count : Nat)
      (assigned :
        session.assignments options watch =
          (session.settings.tightenings count).map
              (fun gap => (.gapTolerance, gap)) ++
            [(.gapTolerance, session.settings.gapTolerance)])
      (left : gap = .ok session.settings.gapTolerance)
      (refused : ∃ refusal, fault = .file refusal)

/-- A failed solve has assigned the tightened gap tolerances of its recovery and nothing else. -/
theorem failed_solve_assigns
    (stores : StoresShared σ)
    {session next : Session σ τ α}
    (supports : Solver.Supports session.run.solver .gapTolerance)
    {options : SolveOptions α}
    {watch : Nat → α}
    {fault : Fault α}
    (failed : solve options watch session = .error fault next) :
    session.LeavesGap options watch fault
      (Solver.getReal next.run.solver .gapTolerance) := by
  have started :
      JournaledSolver.Tightened session.settings
        (Solver.getReal session.run.solver .gapTolerance) 0
        session.journaled.run.solver.known :=
    ⟨rfl, rfl, supports⟩
  have ended :=
    solve_gapCourse
      (JournaledSolver.gapCourse stores session.journaled.settings _)
      started options watch
  have alike := solve_journaled session options watch
  have isAssigned :
      session.assignments options watch =
        (stateAfter
          (solve options watch session.journaled)).run.solver.accepted :=
    rfl
  rw [failed] at alike
  revert alike ended isAssigned
  generalize solve options watch session.journaled = replayed
  intro ended alike isAssigned
  cases alike with
  | fault agree =>
      rw [← agree.run.solver]
      rcases ended with ⟨count, tightened⟩ | ⟨restored, refused⟩
      · exact
          .tightened count (isAssigned.trans tightened.accepted) tightened.gap
      · obtain ⟨count, accepted⟩ := restored.accepted
        exact
          .unprinted count (isAssigned.trans accepted) restored.gap refused

/--
A failed solve leaves the solver with the last gap tolerance that its recovery
tightened to, and it has assigned nothing else, unless it fails because a print is
refused.  Where a tightened tolerance is never that of the settings, the solver has
the one of the settings afterwards exactly if it had it before and nothing was
assigned, or if it was given it back before such a print.
-/
theorem failed_solve_leaves_gap_tightened
    (stores : StoresShared σ)
    {session next : Session σ τ α}
    (supports : Solver.Supports session.run.solver .gapTolerance)
    {options : SolveOptions α}
    {watch : Nat → α}
    {fault : Fault α}
    (failed : solve options watch session = .error fault next) :
    session.LeavesGap options watch fault
        (Solver.getReal next.run.solver .gapTolerance) ∧
      next.settings = session.settings ∧
      ((∀ count, 0 < count →
          session.settings.tightenedGap count ≠
            session.settings.gapTolerance) →
        (Solver.getReal next.run.solver .gapTolerance =
            .ok next.settings.gapTolerance ↔
          (session.assignments options watch = [] ∧
              Solver.getReal session.run.solver .gapTolerance =
                .ok session.settings.gapTolerance) ∨
            (.gapTolerance, session.settings.gapTolerance) ∈
              session.assignments options watch)) := by
  have left := failed_solve_assigns stores supports failed
  have sameSettings : next.settings = session.settings := by
    have keeps := solve_keepsAssignment options watch session
    rw [failed] at keeps
    exact congrArg (fun assignment => assignment.2.2) keeps
  refine ⟨left, sameSettings, ?_⟩
  intro differs
  rw [sameSettings]
  cases left with
  | unprinted count assigned gap refused =>
      rw [gap, assigned]
      exact iff_of_true rfl (.inr (by simp))
  | tightened count assigned gap =>
      have notGivenBack :
          (Parameter.gapTolerance, session.settings.gapTolerance) ∉
            session.assignments options watch := by
        rw [assigned]
        simp only [Settings.tightenings, List.map_map, List.mem_map,
          Function.comp_apply, Prod.mk.injEq, true_and, not_exists, not_and]
        exact fun index _ => differs (index + 1) index.succ_pos
      rw [or_iff_left notGivenBack, gap, assigned]
      cases count with
      | zero =>
          exact (and_iff_right rfl).symm
      | succ count =>
          refine iff_of_false ?_ ?_
          · intro same
            exact differs (count + 1) count.succ_pos (Except.ok.inj same)
          · rintro ⟨none, _⟩
            rw [Settings.tightenings_succ] at none
            simp at none

/-- A session whose solver follows a script and has the gap tolerance of the settings. -/
def toldSession
    (script : List (ScriptedAnswer ℚ)) :
    Session (ScriptedSolver ℚ) NewtonMethod ℚ :=
  (Operation.updateSettings Settings.standard).performed
    (scriptedSession .off script)

/--
The recovery tightens the gap tolerance twice before the solver fails in the third
round: the solver is left with a tolerance that is smaller by a factor of a million.
-/
theorem twice_tightened_gap_is_left :
    let session :=
      toldSession
        [unsureAnswer, unsureAnswer, infeasibleAnswer, infeasibleAnswer,
          failingAnswer]
    ∃ fault next,
      solve patientOptions (fun _ => 0) session = .error fault next ∧
      Solver.Supports session.run.solver .gapTolerance ∧
      Solver.getReal session.run.solver .gapTolerance =
        .ok session.settings.gapTolerance ∧
      (session.assignments patientOptions (fun _ => 0)).length = 2 ∧
      Solver.getReal next.run.solver .gapTolerance =
        .ok (session.settings.gapTolerance / 1000000) ∧
      Solver.getReal next.run.solver .gapTolerance ≠
        .ok next.settings.gapTolerance := by
  intro session
  have supports : Solver.Supports session.run.solver .gapTolerance := by
    rw [ScriptedSolver.supports_iff]
    decide +kernel
  have told :
      Solver.getReal session.run.solver .gapTolerance =
        .ok session.settings.gapTolerance := by
    decide +kernel
  have failed :
      solve patientOptions (fun _ => 0) session =
        .error (.solver (.failed "out of memory"))
          (stateAfter (solve patientOptions (fun _ => 0) session)) :=
    eq_error_of_answerOf (by decide +kernel)
  have twice :
      (session.assignments patientOptions (fun _ => 0)).length = 2 := by
    decide +kernel
  have smaller (count : Nat) (some : 0 < count) :
      session.settings.tightenedGap count ≠ session.settings.gapTolerance :=
    (Settings.tightenedGap_lt (by decide +kernel) (by decide +kernel) some).ne
  obtain ⟨_, _, restoredIff⟩ :=
    failed_solve_leaves_gap_tightened ScriptedSolver.storesShared supports failed
  refine ⟨_, _, failed, supports, told, twice, by decide +kernel, ?_⟩
  rw [Ne, restoredIff smaller]
  rintro (⟨none, _⟩ | givenBack)
  · rw [none] at twice
    cases twice
  · revert givenBack
    decide +kernel

/--
One tightening and then a failure: the solver is left with the tightened tolerance,
and the settings have another one.
-/
theorem tightened_gap_outlives_failed_solve :
    let session :=
      toldSession
        [unsureAnswer, unsureAnswer, infeasibleAnswer, failingAnswer]
    let result := solve patientOptions (fun _ => 0) session
    answerOf result = .error (.solver (.failed "out of memory")) ∧
      session.assignments patientOptions (fun _ => 0) =
        [(.gapTolerance, 1e-7)] ∧
      Solver.getReal (stateAfter result).run.solver .gapTolerance = .ok 1e-7 ∧
      (stateAfter result).settings.gapTolerance = 1e-4 := by
  exact
    ⟨by decide +kernel, by decide +kernel, by decide +kernel,
      by decide +kernel⟩

end Session

end SdpRelay
