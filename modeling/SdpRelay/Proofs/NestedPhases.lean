import SdpRelay.Proofs.UnseenSteps

namespace SdpRelay

/-!
# Nested phases

A phase is entered below the path of the active ones and left again when its step
is over, whether the step answers or fails.  The path of the active phases is then
one of the tree at all times, so that no phase is ever entered in the wrong place,
and a step inside a phase changes nothing outside of it: the path is the same
before and after, and so are the outermost phases and their counts.  The clock is
read along the way, and neither started nor stopped.
-/

variable {σ τ α β γ : Type}

namespace PhaseTree

/-- The outermost phases, and how often each was entered. -/
def roots : PhaseTree → List (String × Nat)
  | leaf => []
  | node name calls _ others => (name, calls) :: others.roots

/-- The parts of an outermost phase. -/
def parts? (name : String) : PhaseTree → Option PhaseTree
  | leaf => none
  | node other _ parts others =>
      if name = other then some parts else others.parts? name

/-- A path of phases, each of them a part of the one before. -/
def HasPath : List String → PhaseTree → Prop
  | [], _ => True
  | name :: rest, tree =>
      ∃ parts, tree.parts? name = some parts ∧ HasPath rest parts

/-- A phase that was entered has parts, which may be none. -/
theorem exists_parts_enter
    (name : String)
    (tree : PhaseTree) :
    ∃ parts, (tree.enter name).parts? name = some parts := by
  induction tree with
  | leaf =>
      exact ⟨leaf, if_pos rfl⟩
  | node other calls parts others _ inductionHypothesis =>
      unfold enter
      split
      · rename_i same
        exact ⟨parts, if_pos same⟩
      · rename_i different
        split
        · exact ⟨leaf, if_pos rfl⟩
        · obtain ⟨found, isFound⟩ := inductionHypothesis
          exact ⟨found, (if_neg different).trans isFound⟩

/-- A change of the parts of one phase leaves all outermost phases in place. -/
theorem updateParts_of_parts
    {name : String}
    {change : PhaseTree → Option PhaseTree}
    {tree parts changed : PhaseTree}
    (found : tree.parts? name = some parts)
    (changes : change parts = some changed) :
    ∃ next,
      tree.updateParts name change = some next ∧
        next.parts? name = some changed ∧ next.roots = tree.roots := by
  induction tree with
  | leaf =>
      cases found
  | node other calls inner others _ inductionHypothesis =>
      unfold updateParts
      by_cases same : name = other
      · cases (if_pos same).symm.trans found
        rw [if_pos same, changes]
        exact ⟨_, rfl, if_pos same, rfl⟩
      · obtain ⟨next, updated, hasChanged, sameRoots⟩ :=
          inductionHypothesis ((if_neg same).symm.trans found)
        rw [if_neg same, updated]
        exact
          ⟨_, rfl, (if_neg same).trans hasChanged,
            congrArg ((other, calls) :: ·) sameRoots⟩

/-- A phase can be entered below every path, and inside of a phase it adds no root. -/
theorem enterBelow_of_hasPath
    {path : List String}
    {tree : PhaseTree}
    (hasPath : tree.HasPath path)
    (name : String) :
    ∃ next,
      tree.enterBelow name path = some next ∧
        next.HasPath (path ++ [name]) ∧
        (path ≠ [] → next.roots = tree.roots) := by
  induction path generalizing tree with
  | nil =>
      obtain ⟨parts, found⟩ := exists_parts_enter name tree
      exact ⟨_, rfl, ⟨parts, found, trivial⟩, fun none => absurd rfl none⟩
  | cons first rest inductionHypothesis =>
      obtain ⟨parts, found, restOfPath⟩ := hasPath
      obtain ⟨changed, entered, extended, -⟩ := inductionHypothesis restOfPath
      obtain ⟨next, updated, hasChanged, sameRoots⟩ :=
        updateParts_of_parts found entered
      exact ⟨next, updated, ⟨changed, hasChanged, extended⟩, fun _ => sameRoots⟩

theorem HasPath.of_prefix
    {tree : PhaseTree}
    {path start : List String}
    (hasPath : tree.HasPath path)
    (isStart : start <+: path) :
    tree.HasPath start := by
  induction start generalizing tree path with
  | nil =>
      trivial
  | cons first rest inductionHypothesis =>
      obtain ⟨behind, rfl, isRest⟩ := List.cons_prefix_iff.mp isStart
      obtain ⟨parts, found, restOfPath⟩ := hasPath
      exact ⟨parts, found, inductionHypothesis restOfPath isRest⟩

/-- A tree with one root is the phase at that root with its parts. -/
theorem eq_node_of_roots
    {tree : PhaseTree}
    {name : String}
    {calls : Nat}
    (single : tree.roots = [(name, calls)]) :
    ∃ parts, tree = .node name calls parts .leaf := by
  cases tree with
  | leaf =>
      cases single
  | node other count parts others =>
      obtain ⟨⟨⟩, none⟩ := List.cons.inj single
      cases others with
      | leaf => exact ⟨parts, rfl⟩
      | node => cases none

end PhaseTree

namespace Phases

/-- The path of the active phases is one of the tree. -/
def Stands (phases : Phases) : Prop :=
  phases.tree.HasPath phases.active

/-- A phase that is entered becomes the last one of a path that stands. -/
theorem Stands.enter
    {phases : Phases}
    (stands : phases.Stands)
    (name : String) :
    (phases.enter name).Stands ∧
      (phases.active ≠ [] →
        (phases.enter name).tree.roots = phases.tree.roots) := by
  obtain ⟨next, entered, hasPath, sameRoots⟩ :=
    PhaseTree.enterBelow_of_hasPath stands name
  have isNext : (phases.enter name).tree = next := by
    unfold Phases.enter
    rw [entered]
    rfl
  unfold Stands
  rw [isNext]
  exact ⟨hasPath, sameRoots⟩

theorem Stands.leave
    {phases : Phases}
    (stands : phases.Stands) :
    phases.leave.Stands :=
  stands.of_prefix (List.dropLast_prefix _)

end Phases

/-- The clock is the reason of a fault. -/
def Fault.OfClock : Fault α → Prop
  | .clock _ => True
  | _ => False

namespace SolveRun

/-- The phases of a run, and whether its clock is going. -/
def timing (run : SolveRun σ τ α) : Phases × Bool :=
  (run.phases, run.clock.running)

/-- A run with the same path of active phases, below the same roots, and the clock as it was. -/
structure Nested (run next : SolveRun σ τ α) : Prop where
  stands : next.phases.Stands
  active : next.phases.active = run.phases.active
  roots : next.phases.tree.roots = run.phases.tree.roots
  running : next.clock.running = run.clock.running

namespace Nested

variable {run next last : SolveRun σ τ α}

theorem of_timing
    (stands : run.phases.Stands)
    (same : next.timing = run.timing) :
    Nested run next := by
  obtain ⟨samePhases, sameRunning⟩ := Prod.mk.inj same
  constructor
  · rw [samePhases]
    exact stands
  · rw [samePhases]
  · rw [samePhases]
  · exact sameRunning

theorem trans
    (first : Nested run next)
    (second : Nested next last) :
    Nested run last where
  stands := second.stands
  active := second.active.trans first.active
  roots := second.roots.trans first.roots
  running := second.running.trans first.running

end Nested

end SolveRun

namespace SolveM

open SolveRun

/-- A phase is left however its step ends; what is known of the fault stays known. -/
theorem timed_nested
    {onFault : Fault α → Prop}
    {step : SolveM σ τ α β}
    {run : SolveRun σ τ α}
    (stands : run.phases.Stands)
    (inside : run.phases.active ≠ [])
    (name : String)
    (ends :
      (run.phases.enter name).Stands →
        (run.phases.enter name).active ≠ [] →
        Ends
          (fun _ next => Nested { run with phases := run.phases.enter name } next)
          (fun fault next =>
            onFault fault ∧
              Nested { run with phases := run.phases.enter name } next)
          (step { run with phases := run.phases.enter name })) :
    Ends
      (fun _ next => Nested run next)
      (fun fault next => onFault fault ∧ Nested run next)
      (timed name step run) := by
  obtain ⟨enteredStands, sameRoots⟩ := stands.enter name
  let entered : SolveRun σ τ α :=
    { run with phases := run.phases.enter name }
  have left
      {next : SolveRun σ τ α}
      (nested : Nested entered next) :
      Nested run { next with phases := next.phases.leave } := by
    have active : next.phases.active = run.phases.active ++ [name] :=
      nested.active
    exact
      {
        stands := nested.stands.leave
        active := by
          change next.phases.active.dropLast = _
          rw [active, List.dropLast_concat]
        roots := nested.roots.trans (sameRoots inside)
        running := nested.running
      }
  have isInside : entered.phases.active ≠ [] :=
    List.append_ne_nil_of_right_ne_nil _ (List.cons_ne_nil _ _)
  refine timed_ends ((ends enteredStands isInside).mono ?_ ?_)
  · exact fun _ _ => left
  · exact fun _ _ failed => ⟨failed.1, left failed.2⟩

/--
A step inside of a phase leaves all phases that it enters, and does not fail
because of the clock.
-/
def Nests (step : SolveM σ τ α β) : Prop :=
  ∀ run : SolveRun σ τ α,
    run.phases.Stands → run.phases.active ≠ [] →
      Ends
        (fun _ next => Nested run next)
        (fun fault next => ¬ fault.OfClock ∧ Nested run next)
        (step run)

namespace Nests

theorem of_completes
    {step : SolveM σ τ α β}
    (completes : Completes timing step) :
    Nests step := by
  intro run stands _
  refine (completes run).mono ?_ (fun _ _ => False.elim)
  exact fun _ _ same => .of_timing stands same

/-- A print that is refused is no matter of the clock. -/
theorem of_announces
    {step : SolveM σ τ α β}
    (announces : Announces timing step) :
    Nests step := by
  intro run stands _
  refine (announces run).mono ?_ ?_
  · exact fun _ _ same => .of_timing stands same
  · rintro _ next ⟨same, refusal, rfl⟩
    exact ⟨id, .of_timing stands same⟩

theorem pure (answer : β) : Nests (pure answer : SolveM σ τ α β) :=
  of_completes (.pure answer)

theorem get : Nests (get : SolveM σ τ α (SolveRun σ τ α)) :=
  of_completes .get

theorem modify
    {change : SolveRun σ τ α → SolveRun σ τ α}
    (untimed : ∀ run, (change run).timing = run.timing) :
    Nests (modify change : SolveM σ τ α PUnit) :=
  of_completes (.modify untimed)

theorem bind
    {first : SolveM σ τ α β}
    {second : β → SolveM σ τ α γ}
    (nests : Nests first)
    (continues : ∀ answer, Nests (second answer)) :
    Nests (first >>= second) := by
  intro run stands inside
  refine Ends.bind (nests run stands inside) (fun _ _ => id) ?_
  intro answer next nested
  have stillInside : next.phases.active ≠ [] := by
    rw [nested.active]
    exact inside
  refine (continues answer next nested.stands stillInside).mono ?_ ?_
  · exact fun _ _ => nested.trans
  · exact fun _ _ failed => ⟨failed.1, nested.trans failed.2⟩

/-- A phase around a step is left however the step ends. -/
theorem timed
    {step : SolveM σ τ α β}
    (nests : Nests step)
    (name : String) :
    Nests (timed name step) :=
  fun _ stands inside =>
    timed_nested stands inside name fun enteredStands isInside =>
      nests _ enteredStands isInside

end Nests

/-- A request to the solver fails because of the solver. -/
theorem askSolver_nests (request : EStateM SolverFault σ β) :
    Nests (askSolver request : SolveM σ τ α β) := by
  intro run stands _
  unfold askSolver
  cases request run.solver with
  | ok answer solver =>
      exact .of_timing stands rfl
  | error fault solver =>
      exact ⟨id, .of_timing stands rfl⟩

variable [Scalar α]

/-- Presolve fails because of an eigenvalue, or for want of memory. -/
theorem presolve_nests (task : SolveTask α) :
    Nests (presolve task : SolveM σ τ α (PresolveOutcome α)) := by
  intro run stands _
  have nested :
      Ends
        (fun _ next => Nested run next)
        (fun _ next => Nested run next)
        (presolve task run) :=
    presolve_stays fun _ => .of_timing stands rfl
  refine (nested.and (presolve_writes task run)).mono (fun _ _ => And.left) ?_
  rintro _ next ⟨nested, rfl | ⟨reason, rfl⟩, _⟩
  · exact ⟨id, nested⟩
  · exact ⟨id, nested⟩

/-- The compaction fails for want of memory. -/
theorem compact_nests (task : SolveTask α) :
    Nests (compact task : SolveM σ τ α Unit) := by
  intro run stands _
  unfold compact
  split
  · exact .of_timing stands rfl
  · exact ⟨id, .of_timing stands rfl⟩

/-- The path for one free variable fails as its method does. -/
theorem solveOneVariable_nested
    [OneVariableSolver τ α]
    (task : SolveTask α)
    (fixedObjective : α)
    {run : SolveRun σ τ α}
    (stands : run.phases.Stands) :
    Ends
      (fun _ next => Nested run next)
      (fun fault next =>
        OneVariableSolver.FailsWith task.sentinel run.oneVariable fault ∧
          Nested run next)
      (solveOneVariable task fixedObjective run) := by
  have keepsTiming :
      Keeps timing
        (solveOneVariable task fixedObjective :
          SolveM σ τ α (Option (OneVariableResult α))) :=
    solveOneVariable_keeps (fun _ _ => rfl) task fixedObjective
  refine
    ((solveOneVariable_gives task fixedObjective run).and
      (keepsTiming.ends run)).mono ?_ ?_
  · exact fun _ _ given => .of_timing stands given.2
  · rintro fault next ⟨failed, same⟩
    exact ⟨SolveTask.pathResult_eq_error failed, .of_timing stands same⟩

theorem timeLeft_nests (task : SolveTask α) :
    Nests (timeLeft task : SolveM σ τ α α) :=
  .of_completes (.bind (fun _ => rfl) fun _ => .pure _)

theorem timeIsUp_nests (task : SolveTask α) :
    Nests (timeIsUp task : SolveM σ τ α Bool) :=
  .bind (timeLeft_nests task) fun _ => .pure _

omit [Scalar α] in
theorem settle_nests (verdict : Verdict α) :
    Nests (settle verdict : SolveM σ τ α Unit) :=
  .modify fun _ => rfl

variable [Solver σ α]

omit [Scalar α] in
theorem settleDirectly_nests
    (verdict : Verdict α)
    (count : Tally → Tally) :
    Nests (settleDirectly verdict count : SolveM σ τ α Unit) :=
  .modify fun _ => rfl

omit [Scalar α] in
theorem report_nests :
    Nests (report : SolveM σ τ α (SolverReport α)) :=
  .of_completes report_completes

theorem addUsage_nests : Nests (addUsage : SolveM σ τ α Unit) :=
  .modify fun _ => rfl

theorem improveBound_nests (settings : Settings α) :
    Nests (improveBound settings : SolveM σ τ α Unit) := by
  refine .modify fun run => ?_
  dsimp only
  split
  · split
    · rfl
    · rfl
  · rfl

theorem solvePrepared_nests
    (task : SolveTask α)
    (penalty : Option (PenaltyRequest α))
    (start : Option (WarmStart α))
    (setting : SolverSetting) :
    Nests
      (solvePrepared task penalty start setting :
        SolveM σ τ α PenaltyOutcome) :=
  .bind (timeLeft_nests task) fun _ => .bind .get fun _ => askSolver_nests _

theorem solveDirectly_nests (task : SolveTask α) :
    Nests (solveDirectly task : SolveM σ τ α Unit) :=
  .bind (solvePrepared_nests task _ _ _) fun _ => addUsage_nests

/-- A Slater check keeps what its requests come to for itself. -/
theorem checkSlater_nests
    (task : SolveTask α)
    (explains : Bool) :
    Nests (checkSlater task explains : SolveM σ τ α Unit) := by
  have overlooks :
      OverlooksCheck task (timing : SolveRun σ τ α → Phases × Bool) :=
    {
      printed := fun _ _ _ => rfl
      looked := fun _ => rfl
      slater := fun _ _ => rfl
      dual := fun _ _ => askSolver_keeps (fun _ _ => rfl) _
      primal := fun _ _ => askSolver_keeps (fun _ _ => rfl) _
    }
  exact .of_announces (checkSlater_announces_of overlooks explains)

theorem escalateOnce_nests
    (task : SolveTask α)
    (escalation : Escalation α) :
    Nests (escalateOnce task escalation : SolveM σ τ α (Escalation α)) := by
  refine .bind (solvePrepared_nests task _ _ _) fun outcome => ?_
  refine .bind addUsage_nests fun _ => ?_
  refine .bind report_nests fun report => ?_
  refine .bind (improveBound_nests _) fun _ => ?_
  dsimp only
  split
  · exact .bind (askSolver_nests _) fun _ => .pure _
  · exact .pure _

theorem escalate_nests
    (task : SolveTask α)
    (rounds : Nat)
    (escalation : Escalation α) :
    Nests (escalate task rounds escalation : SolveM σ τ α (Escalation α)) := by
  induction rounds generalizing escalation with
  | zero =>
      exact .pure escalation
  | succ rounds inductionHypothesis =>
      unfold escalate
      split
      · exact .pure escalation
      · refine .bind (timeIsUp_nests task) fun isUp => ?_
        split
        · exact .pure escalation
        · exact
            .bind (escalateOnce_nests task escalation) inductionHypothesis

theorem recover_nests (task : SolveTask α) :
    Nests (recover task : SolveM σ τ α Unit) := by
  rw [recover_eq]
  refine .bind (solvePrepared_nests task _ _ _) fun _ => ?_
  refine .bind addUsage_nests fun _ => ?_
  refine .bind report_nests fun report => ?_
  split
  · exact settle_nests _
  refine .bind (escalate_nests task _ _) fun last => ?_
  have restored : Nests (restoreGap task last : SolveM σ τ α Unit) := by
    unfold restoreGap
    split
    · exact askSolver_nests _
    · exact .pure ()
  refine .bind restored fun _ => ?_
  unfold settleRecovery
  split
  · exact settle_nests _
  · refine .bind (settle_nests _) fun _ => ?_
    split
    · exact checkSlater_nests task true
    · exact .pure ()

theorem solveBySolver_nests (task : SolveTask α) :
    Nests (solveBySolver task : SolveM σ τ α Unit) := by
  have opened : Nests (openWithSlater task : SolveM σ τ α Unit) := by
    unfold openWithSlater
    split
    · exact (checkSlater_nests task false).timed _
    · exact .pure ()
  have accepted : Nests (acceptOrRecover task : SolveM σ τ α Unit) := by
    refine .bind report_nests fun report => ?_
    split
    · exact .pure ()
    · refine .bind (timeIsUp_nests task) fun isUp => ?_
      split
      · exact .pure ()
      · exact (recover_nests task).timed _
  refine .bind opened fun _ => ?_
  refine .bind ((solveDirectly_nests task).timed _) fun _ => ?_
  exact .bind (settle_nests _) fun _ => accepted

variable [OneVariableSolver τ α]

omit [Scalar α] [OneVariableSolver τ α] in
/-- Only the path for one free variable touches its method. -/
theorem method_overlooks :
    SolveRun.Overlooks (fun run : SolveRun σ τ α => run.oneVariable) where
  phases _ _ := rfl
  printed _ _ _ := rfl
  looked _ := rfl
  usage _ _ := rfl
  bestBound _ _ := rfl
  slater _ _ := rfl
  solve _ := askSolver_keeps (fun _ _ => rfl) _

/--
A solve leaves each of its phases, whatever presolve, method and solver come to.  It
fails because of the clock only if the method for one free variable does.
-/
theorem solve_nested
    (task : SolveTask α)
    {run : SolveRun σ τ α}
    (stands : run.phases.Stands)
    (inside : run.phases.active ≠ []) :
    Ends
      (fun _ next => Nested run next)
      (fun fault next =>
        (fault.OfClock →
          OneVariableSolver.FailsWith task.sentinel run.oneVariable fault) ∧
          Nested run next)
      (solve task run) := by
  have goOn
      {step : SolveM σ τ α Unit}
      (nests : Nests step)
      {next : SolveRun σ τ α}
      (nested : Nested run next) :
      Ends
        (fun _ last => Nested run last)
        (fun fault last =>
          (fault.OfClock →
            OneVariableSolver.FailsWith task.sentinel run.oneVariable fault) ∧
            Nested run last)
        (step next) := by
    have stillInside : next.phases.active ≠ [] := by
      rw [nested.active]
      exact inside
    refine (nests next nested.stands stillInside).mono ?_ ?_
    · exact fun _ _ => nested.trans
    · exact fun _ _ failed =>
        ⟨fun ofClock => absurd ofClock failed.1, nested.trans failed.2⟩
  unfold solve
  split
  · exact goOn (settleDirectly_nests _ _) (.of_timing stands rfl)
  have presolved :=
    ((presolve_nests task).timed "preprocess" run stands inside).and
      ((timed_keeps method_overlooks
        (presolve_keeps (fun _ _ => rfl) task) "preprocess").ends run)
  refine Ends.bind presolved ?_ ?_
  · exact fun _ _ failed =>
      ⟨fun ofClock => absurd ofClock failed.1.1, failed.1.2⟩
  rintro found next ⟨nested, sameMethod⟩
  cases found with
  | infeasible =>
      exact goOn (settleDirectly_nests _ _) nested
  | allFixed feasible =>
      exact goOn (settleDirectly_nests _ _) nested
  | undecided fixedObjective =>
      change Ends _ _ (solveUndecided task fixedObjective next)
      rw [solveUndecided_eq]
      have stillInside : next.phases.active ≠ [] := by
        rw [nested.active]
        exact inside
      have tried :=
        timed_nested nested.stands stillInside "onevar"
          fun enteredStands _ =>
            solveOneVariable_nested task fixedObjective enteredStands
      refine Ends.bind tried ?_ ?_
      · rintro fault last ⟨failed, nestedThere⟩
        change OneVariableSolver.FailsWith _ next.oneVariable _ at failed
        have sameMethod : next.oneVariable = run.oneVariable := sameMethod
        rw [sameMethod] at failed
        exact ⟨fun _ => failed, nested.trans nestedThere⟩
      · intro result last nestedThere
        cases result with
        | some result =>
            exact goOn (settleDirectly_nests _ _) (nested.trans nestedThere)
        | none =>
            exact
              goOn
                (.bind ((compact_nests task).timed _) fun _ =>
                  solveBySolver_nests task)
                (nested.trans nestedThere)

end SolveM

end SdpRelay
