import SdpRelay.Proofs.FileRecords
import SdpRelay.Proofs.StoredPrograms
import SdpRelay.Proofs.WrittenDoubles
import SdpRelay.Solver.OneVariable
import SdpRelay.Solver.Scripted

namespace SdpRelay

/-!
# Saved sessions are restored

The file of a session holds its problem and its settings, and is read back as just
these.  A session that is restored from it, around a solver that takes the settings,
has the same problem and the same settings.  This holds for every session whose
sentinel is finite and has stayed the same since the problem was stored, if the
numbers without a limit in their place are finite, and if no limit is the number
that stands for infinity in a file.
-/

variable {σ τ α : Type}

namespace Triplets

variable {entries : Triplets α}

/-- The rows and the columns of a matrix that fits a size are those of its entries. -/
theorem Balanced.indices
    (balanced : entries.Balanced) :
    entries.rows = entries.entries.map Entry.row ∧
      entries.cols = entries.entries.map Entry.col := by
  obtain ⟨rowCount, colCount⟩ := balanced
  have pairCount :
      (entries.cols.zip entries.values).length = entries.rows.length := by
    rw [List.length_zip, colCount, rowCount, min_self]
  unfold Triplets.entries
  rw [List.map_map, List.map_map]
  constructor
  · exact (List.map_fst_zip pairCount.ge).symm
  · calc
      entries.cols = (entries.cols.zip entries.values).map Prod.fst :=
        (List.map_fst_zip colCount.le).symm
      _ =
          ((entries.rows.zip (entries.cols.zip entries.values)).map
            Prod.snd).map Prod.fst := by
        rw [List.map_snd_zip pairCount.le]
      _ = _ := by
        rw [List.map_map]
        rfl

/-- The indices of a matrix that fits a size are below this size. -/
theorem Fits.indices_lt
    {size : Nat}
    (fits : entries.Fits size) :
    (∀ row ∈ entries.rows, row < size) ∧
      ∀ col ∈ entries.cols, col < size := by
  obtain ⟨balanced, inside⟩ := fits
  rw [balanced.indices.1, balanced.indices.2]
  constructor
  · intro row member
    obtain ⟨entry, isEntry, rfl⟩ := List.mem_map.mp member
    exact (inside entry isEntry).2
  · intro col member
    obtain ⟨entry, isEntry, rfl⟩ := List.mem_map.mp member
    exact (inside entry isEntry).1.trans_lt (inside entry isEntry).2

end Triplets

namespace Program

/-- The number of variables and the sizes of the blocks fit into sixty-four bits. -/
structure WordSized (program : Program α) : Prop where
  count : program.objective.length ≤ UInt64.size
  sizes : ∀ block ∈ program.blocks, block.size < UInt64.size

/-- The objective and the matrices are finite. -/
@[mk_iff]
structure FiniteEntries (program : Program Float) : Prop where
  objective : ∀ value ∈ program.objective, value.isFinite = true
  terms :
    ∀ block ∈ program.blocks, ∀ term ∈ block.terms,
      ∀ value ∈ term.entries.values, value.isFinite = true
  constants :
    ∀ block ∈ program.blocks, ∀ value ∈ block.constant.values,
      value.isFinite = true

section Limits

variable
  {sentinel : α}
  {program : Program α}

/-- The limits of an acceptable program are numbers. -/
theorem Acceptable.isNaN_of_mem_limits
    [Scalar α]
    (acceptable : program.Acceptable sentinel)
    {limit : α}
    (member : limit ∈ program.limits) :
    Scalar.isNaN limit = false := by
  have sameLength : program.lower.length = program.upper.length :=
    acceptable.lowerLength.trans acceptable.upperLength.symm
  rcases List.mem_append.mp member with isBound | isSide
  · rcases List.mem_append.mp isBound with isLower | isUpper
    · rw [← List.map_fst_zip sameLength.le] at isLower
      obtain ⟨bounds, inBounds, rfl⟩ := List.mem_map.mp isLower
      exact (acceptable.bounds bounds inBounds).1
    · rw [← List.map_snd_zip sameLength.ge] at isUpper
      obtain ⟨bounds, inBounds, rfl⟩ := List.mem_map.mp isUpper
      exact (acceptable.bounds bounds inBounds).2.1
  · obtain ⟨row, inRows, isSide⟩ := List.mem_flatMap.mp isSide
    have sides := (acceptable.rows row inRows).sides
    simp only [List.mem_cons, List.not_mem_nil, or_false] at isSide
    rcases isSide with rfl | rfl
    · exact sides.1
    · exact sides.2.1

theorem mem_limits_of_mem_lower
    {limit : α}
    (member : limit ∈ program.lower) :
    limit ∈ program.limits :=
  List.mem_append_left _ (List.mem_append_left _ member)

theorem mem_limits_of_mem_upper
    {limit : α}
    (member : limit ∈ program.upper) :
    limit ∈ program.limits :=
  List.mem_append_left _ (List.mem_append_right _ member)

theorem mem_limits_of_mem_rows
    {row : LinearRow α}
    (member : row ∈ program.rows) :
    row.left ∈ program.limits ∧ row.right ∈ program.limits :=
  ⟨List.mem_append_right _ (List.mem_flatMap.mpr ⟨row, member, by simp⟩),
    List.mem_append_right _ (List.mem_flatMap.mpr ⟨row, member, by simp⟩)⟩

/-- Limits that are changed and changed back leave a program as it was. -/
theorem mapLimits_mapLimits
    {change back : α → α}
    (inverse : ∀ limit ∈ program.limits, back (change limit) = limit) :
    (program.mapLimits change).mapLimits back = program := by
  have restored
      {β : Type}
      {items : List β}
      {there andBack : β → β}
      (same : ∀ item ∈ items, andBack (there item) = item) :
      (items.map there).map andBack = items := by
    rw [List.map_map]
    exact (List.map_congr_left same).trans (List.map_id items)
  have lower :=
    restored fun limit member => inverse limit (mem_limits_of_mem_lower member)
  have upper :=
    restored fun limit member => inverse limit (mem_limits_of_mem_upper member)
  have rows :
      (program.rows.map fun row =>
          { row with left := change row.left, right := change row.right }).map
        (fun row =>
          { row with left := back row.left, right := back row.right }) =
        program.rows := by
    apply restored
    intro row member
    obtain ⟨left, right⟩ := mem_limits_of_mem_rows member
    rw [inverse _ left, inverse _ right]
  unfold mapLimits
  rw [lower, upper, rows]

end Limits

/-- The limits of a changed program are the changed limits. -/
theorem limits_mapLimits
    (program : Program α)
    (change : α → α) :
    (program.mapLimits change).limits = program.limits.map change := by
  simp [limits, mapLimits, List.flatMap_map, List.map_flatMap]

/-- The objective, the matrices and the coefficients of the rows are finite. -/
@[mk_iff]
structure FiniteNumbers (program : Program Float) : Prop
    extends program.FiniteEntries where
  coefs :
    ∀ row ∈ program.rows, ∀ coef ∈ row.coefs, coef.isFinite = true

/-- These are all numbers of a program but its limits. -/
theorem forall_numbers_isFinite_iff (program : Program Float) :
    (∀ x ∈ program.numbers, x.isFinite = true) ↔
      program.FiniteNumbers ∧
        ∀ limit ∈ program.limits, limit.isFinite = true := by
  simp only [numbers, Block.numbers, finiteNumbers_iff, finiteEntries_iff,
    List.forall_mem_append, List.forall_mem_flatMap, forall_and]
  tauto

/-- A program with changed limits is finite in just the same places. -/
theorem finiteNumbers_mapLimits
    (program : Program Float)
    (change : Float → Float) :
    (program.mapLimits change).FiniteNumbers ↔ program.FiniteNumbers := by
  simp only [finiteNumbers_iff, finiteEntries_iff, mapLimits,
    List.forall_mem_map]

/-- The indices of a program that refers to its own variables fit into words if its sizes do. -/
theorem WordSized.indices_lt
    {program : Program α}
    (sized : program.WordSized)
    (indexed : program.Indexed) :
    ∀ n ∈ program.indices, n < UInt64.size := by
  have index
      {var : Nat}
      (known : var < program.objective.length) :
      var < UInt64.size :=
    known.trans_le sized.count
  have matrixIndices
      {entries : Triplets α}
      {size : Nat}
      (fits : entries.Fits size)
      (isSize : size < UInt64.size) :
      (∀ row ∈ entries.rows, row < UInt64.size) ∧
        ∀ col ∈ entries.cols, col < UInt64.size :=
    ⟨fun row member => (fits.indices_lt.1 row member).trans isSize,
      fun col member => (fits.indices_lt.2 col member).trans isSize⟩
  refine List.forall_mem_append.mpr
    ⟨List.forall_mem_flatMap.mpr fun row member var inRow =>
        index (indexed.rows row member var inRow),
      List.forall_mem_flatMap.mpr fun block member => ?_⟩
  have isSize := sized.sizes block member
  have acceptable := indexed.blocks block member
  refine List.forall_mem_cons.mpr
    ⟨isSize, List.forall_mem_append.mpr
      ⟨List.forall_mem_append.mpr (matrixIndices acceptable.constant isSize),
        List.forall_mem_flatMap.mpr fun term isTerm => ?_⟩⟩
  exact
    List.forall_mem_cons.mpr
      ⟨index (acceptable.known term isTerm),
        List.forall_mem_append.mpr
          (matrixIndices (acceptable.terms term isTerm) isSize)⟩

/-- The coefficients of acceptable rows are finite as well if the sentinel is. -/
theorem FiniteEntries.finiteNumbers
    {sentinel : Float}
    {program : Program Float}
    (finite : program.FiniteEntries)
    (acceptable : program.Acceptable sentinel)
    (finiteSentinel : sentinel.isFinite = true) :
    program.FiniteNumbers where
  toFiniteEntries := finite
  coefs := by
    intro row isRow coef isCoef
    obtain ⟨notBeyond, number⟩ := (acceptable.rows row isRow).finite coef isCoef
    exact
      Double.isFinite_of_not_beyondSentinel finiteSentinel number notBeyond

theorem Acceptable.indexed
    {sentinel : α}
    [Scalar α]
    {program : Program α}
    (acceptable : program.Acceptable sentinel) :
    program.Indexed where
  rows := fun row member => (acceptable.rows row member).known
  blocks := acceptable.blocks

/-- An acceptable program with finite entries is written with finite numbers only. -/
theorem FiniteEntries.isFinite_written
    {sentinel : Float}
    {program : Program Float}
    (finite : program.FiniteEntries)
    (acceptable : program.Acceptable sentinel)
    (finiteSentinel : sentinel.isFinite = true)
    (limits : ∀ limit ∈ program.limits, ¬ DoubleFile.IsLargest limit) :
    ∀ x ∈ (program.mapLimits DoubleFile.clamp).numbers,
      x.isFinite = true := by
  rw [forall_numbers_isFinite_iff, finiteNumbers_mapLimits,
    limits_mapLimits, List.forall_mem_map]
  refine ⟨finite.finiteNumbers acceptable finiteSentinel, ?_⟩
  intro limit member
  exact
    (DoubleFile.clamp_spec (acceptable.isNaN_of_mem_limits member)
      (limits limit member)).1

end Program

/-- A solver takes values in order: it accepts each of them, or does not know the parameter. -/
def Solver.Takes
    [Solver σ α] :
    List (Parameter × α) → σ → Prop
  | [], _ => True
  | (parameter, value) :: rest, solver =>
      ∃ next,
        Solver.forward parameter value solver = .ok () next ∧
          Takes rest next

/-- What stands in for a missing solver takes every value. -/
theorem Solver.takes_none
    [Scalar α]
    [Solver σ α]
    (values : List (Parameter × α)) :
    Solver.Takes values (none : Option σ) := by
  induction values with
  | nil => trivial
  | cons told values inductionHypothesis =>
      exact ⟨none, rfl, inductionHypothesis⟩

namespace Session

section Creation

variable [Scalar α] [Solver σ α]

omit [Scalar α] in
/-- Passing on values fails unless the solver takes them. -/
theorem forwardAll_eq_ok_iff
    {values : List (Parameter × α)}
    {session : Session σ τ α} :
    (∃ next,
        (values.forM fun (parameter, value) => forward parameter value)
            session =
          .ok () next) ↔
      Solver.Takes values session.run.solver := by
  induction values generalizing session with
  | nil => exact iff_of_true ⟨session, rfl⟩ trivial
  | cons told values inductionHypothesis =>
      obtain ⟨parameter, value⟩ := told
      change
        (∃ next,
            (forward parameter value >>= fun _ =>
              values.forM fun (parameter, value) => forward parameter value)
                session =
              .ok () next) ↔
          ∃ solver,
            Solver.forward parameter value session.run.solver =
                .ok () solver ∧
              Solver.Takes values solver
      cases told : Solver.forward parameter value session.run.solver with
      | ok _ solver =>
          let next : Session σ τ α :=
            { session with run := { session.run with solver := solver } }
          have forwarded : forward parameter value session = .ok () next := by
            unfold forward SessionM.onRun SolveM.askSolver
            rw [told]
          simp only [bind, EStateM.bind, forwarded, EStateM.Result.ok.injEq,
            true_and, exists_eq_left']
          exact @inductionHypothesis next
      | error fault solver =>
          obtain ⟨next, refused⟩ :
              ∃ next,
                forward parameter value session =
                  .error (.solver fault) next := by
            unfold forward SessionM.onRun SolveM.askSolver
            rw [told]
            exact ⟨_, rfl⟩
          simp only [bind, EStateM.bind, refused]
          refine iff_of_false ?_ ?_
          · rintro ⟨_, ⟨⟩⟩
          · rintro ⟨_, ⟨⟩, _⟩

/-- A session can be put around a solver, with valid settings, if the solver takes these. -/
theorem exists_create_iff
    {settings : Settings α}
    (valid : settings.validate = .ok ())
    {sentinel : α}
    {solver : σ}
    {oneVariable : τ} :
    (∃ session, create sentinel settings solver oneVariable = .ok session) ↔
      Solver.Takes settings.shared solver := by
  let fresh : Session σ τ α := assemble sentinel settings solver oneVariable
  have told : settings.shared = fresh.settings.shared := rfl
  calc
    (∃ session, create sentinel settings solver oneVariable = .ok session) ↔
        ∃ session, forwardSettings fresh = .ok () session := by
      simp only [create_eq_ok_iff, valid, true_and, fresh]
    _ ↔ Solver.Takes settings.shared solver :=
      @forwardAll_eq_ok_iff _ _ _ _ _ fresh

end Creation

section Restoring

variable {ρ ν : Type}

/-- An edit leaves the settings alone. -/
theorem edit_keepsSettings
    [Scalar α]
    [Solver σ α]
    (edit : Edit α) :
    Keeps settings (edit.perform : SessionM σ τ α Unit) :=
  edit.perform_keeps (fun _ _ => rfl) (fun _ => rfl) (fun _ => rfl)
    (fun _ => rfl)

/-- A new session takes an acceptable program and keeps its settings. -/
theorem load_of_acceptable
    [Scalar α]
    [Solver σ α]
    {session : Session σ τ α}
    {program : Program α}
    (acceptable : program.Acceptable session.sentinel) :
    ∃ next,
      load program session = .ok () next ∧
        next.store.toProgram = program.filled ∧
        next.settings = session.settings := by
  have shows := Edit.perform_shows (.load program) session
  have outcome :
      Store.load session.sentinel program = .ok (Store.ofProgram program) :=
    Store.load_eq_ok.mpr ⟨acceptable, rfl⟩
  rw [Edit.onStore, outcome] at shows
  obtain ⟨next, loaded, _⟩ := shows
  have kept := edit_keepsSettings (.load program) session
  rw [loaded] at kept
  exact ⟨next, loaded, (load_holds loaded).2, kept⟩

/--
A file is restored around the solvers that take its settings, if these are valid and
its program is acceptable, and the session then has the content of the file.
-/
theorem restore_of_read
    [Scalar α]
    [Solver σ α]
    {format : FileFormat α}
    {text : List Char}
    {file : ProblemFile α}
    (isRead : format.read text = .ok file)
    {sentinel : α}
    (valid : file.settings.validate = .ok ())
    (acceptable : file.program.Acceptable sentinel)
    (solver : σ)
    (oneVariable : τ) :
    ((∃ restored,
        restore format text sentinel solver oneVariable = .ok restored) ↔
      Solver.Takes file.settings.shared solver) ∧
      ∀ restored,
        restore format text sentinel solver oneVariable = .ok restored →
          restored.store.toProgram = file.program.filled ∧
            restored.settings = file.settings := by
  rw [← exists_create_iff valid]
  have continued :=
    restore_eq (τ := τ) isRead sentinel solver oneVariable
  cases created :
      create (τ := τ) sentinel file.settings solver oneVariable with
  | error fault =>
      have refused :
          restore (τ := τ) format text sentinel solver oneVariable =
            .error fault := by
        rw [continued, created]
        rfl
      rw [refused]
      refine ⟨iff_of_false ?_ ?_, ?_⟩
      · rintro ⟨_, ⟨⟩⟩
      · rintro ⟨_, ⟨⟩⟩
      · rintro _ ⟨⟩
  | ok fresh =>
      obtain ⟨holds, freshSettings⟩ := create_holds created
      rw [← holds.current] at acceptable
      obtain ⟨restored, loaded, program, settings⟩ :=
        load_of_acceptable acceptable
      have outcome :
          restore (τ := τ) format text sentinel solver oneVariable =
            .ok restored := by
        rw [continued, created]
        simp only [bind, Except.bind, loaded]
        rfl
      rw [outcome]
      refine ⟨iff_of_true ⟨restored, rfl⟩ ⟨fresh, rfl⟩, ?_⟩
      intro other same
      cases same
      exact ⟨program, settings.trans freshSettings⟩

/--
A session is restored from the file that it is saved to: the file is read as its
problem and its settings, the restoring succeeds around every solver that takes
these settings, and around no other, and the new session has the same problem and
the same settings.  The problem may have been edited in every way since it was
stored, as long as the sentinel is finite and has stayed the same.  The serialiser
may be any that reads back finite doubles and keeps the records that they stand in.
-/
theorem saved_session_is_restored
    [Solver σ Float]
    [OneVariableSolver τ Float]
    [Solver ρ Float]
    {serialiser : Serialiser Float}
    (inverse : serialiser.InverseOnFinite)
    (keeps : serialiser.KeepsRecords)
    {sentinel : Float}
    {session : Session σ τ Float}
    (stored : session.StoredUnder sentinel)
    (finiteSentinel : sentinel.isFinite = true)
    (valid : session.settings.validate = .ok ())
    (finite : session.store.toProgram.FiniteEntries)
    (limits :
      ∀ limit ∈ session.store.toProgram.limits,
        ¬ DoubleFile.IsLargest limit)
    (sized : session.store.toProgram.WordSized) :
    let format := serialiser.doubleFormat
    format.read (session.save format) =
        .ok
          {
            program := session.store.toProgram
            settings := session.settings
          } ∧
      ∀ (solver : ρ) (oneVariable : ν),
        ((∃ restored,
            restore format (session.save format) sentinel solver
                oneVariable =
              .ok restored) ↔
          Solver.Takes session.settings.shared solver) ∧
          ∀ restored,
            restore format (session.save format) sentinel solver
                oneVariable =
              .ok restored →
              restored.store.toProgram = session.store.toProgram ∧
                restored.settings = session.settings := by
  intro format
  obtain ⟨_, program, represents, acceptable⟩ := stored.holds
  rw [← represents.toProgram_eq] at acceptable
  have settingsFinite := (Settings.validate_eq_ok_iff.mp valid).1
  have written :=
    finite.isFinite_written acceptable finiteSentinel limits
  let saved : ProblemFile Float :=
    { program := session.store.toProgram, settings := session.settings }
  have isRead : format.read (session.save format) = .ok saved := by
    have restored :
        (saved.program.mapLimits DoubleFile.clamp).mapLimits
            DoubleFile.restore =
          saved.program :=
      Program.mapLimits_mapLimits fun limit member =>
        (DoubleFile.clamp_spec (acceptable.isNaN_of_mem_limits member)
          (limits limit member)).2
    change format.read (format.write saved) = _
    rw [serialiser.read_write inverse keeps
      (sized.indices_lt acceptable.indexed), restored]
    rintro x (inProgram | ⟨field, rfl⟩)
    · exact written x inProgram
    · exact (settingsFinite field).2
  exact ⟨isRead, restore_of_read isRead valid acceptable⟩

/-- A program with infinite limits, with a block of size zero and one without terms. -/
def limitlessProgram : Program Float :=
  {
    objective := [1, -0.5]
    lower := [-1, -infiniteDouble]
    upper := [infiniteDouble, 2]
    integral := none
    blocks :=
      [
        { size := 0, terms := [], constant := ⟨[], [], []⟩ },
        { size := 3, terms := [], constant := ⟨[1], [0], [1e-300]⟩ },
        {
          size := 2
          terms := [{ var := 0, entries := ⟨[0, 1], [0, 1], [1, 0.1]⟩ }]
          constant := ⟨[], [], []⟩
        }
      ]
    rows :=
      [
        {
          left := -infiniteDouble
          right := 4
          vars := [0, 1]
          coefs := [1, -3]
        }
      ]
  }

/-- A session without a solver that holds this program. -/
def limitlessSession :
    Session (Option (ScriptedSolver Float)) NewtonMethod Float :=
  stateAfter
    (load limitlessProgram
      (assemble standardSentinel Settings.standard none
        NewtonMethod.standard))

theorem limitlessSession_restored :
    ∃ restored :
        Session (Option (ScriptedSolver Float)) NewtonMethod Float,
      restore doubleFile (limitlessSession.save doubleFile) standardSentinel
          none NewtonMethod.standard =
        .ok restored ∧
      restored.store.toProgram = limitlessProgram.filled ∧
      restored.settings = Settings.standard := by
  let fresh : Session (Option (ScriptedSolver Float)) NewtonMethod Float :=
    assemble standardSentinel Settings.standard none NewtonMethod.standard
  have acceptable : limitlessProgram.Acceptable fresh.sentinel := by
    decide +kernel
  obtain ⟨session, loaded, program, settings⟩ :=
    load_of_acceptable acceptable
  have isSession : limitlessSession = session := by
    unfold limitlessSession
    rw [loaded]
    rfl
  have finite : limitlessProgram.filled.FiniteEntries :=
    ⟨by decide +kernel, by decide +kernel, by decide +kernel⟩
  have limits :
      ∀ limit ∈ limitlessProgram.filled.limits,
        ¬ DoubleFile.IsLargest limit := by
    decide +kernel
  have sized : limitlessProgram.filled.WordSized :=
    ⟨by decide +kernel, by decide +kernel⟩
  have valid : (Settings.standard : Settings Float).validate = .ok () := by
    decide +kernel
  rw [← program] at finite limits sized
  have sameSettings : session.settings = Settings.standard := settings
  rw [← sameSettings] at valid
  obtain ⟨_, restores⟩ :=
    saved_session_is_restored
      (ρ := Option (ScriptedSolver Float)) (ν := NewtonMethod)
      DoubleFile.serialiser_inverseOnFinite
      ProblemFile.serialiser_keepsRecords
      (.loaded (.assembled _ _ _ _) rfl loaded) (by decide +kernel) valid
      finite limits sized
  obtain ⟨succeeds, same⟩ := restores none NewtonMethod.standard
  obtain ⟨restored, outcome⟩ := succeeds.mpr (Solver.takes_none _)
  obtain ⟨sameProgram, sameAsSaved⟩ := same restored outcome
  rw [isSession]
  exact
    ⟨restored, outcome, sameProgram.trans program,
      sameAsSaved.trans sameSettings⟩

end Restoring

end Session

end SdpRelay
