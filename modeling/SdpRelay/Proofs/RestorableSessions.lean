import SdpRelay.Proofs.RestoredSessions

namespace SdpRelay

/-!
# Sessions that can be restored

A stored problem is checked less strictly than a problem file is read: its objective
and its matrices may hold infinite numbers, which are written as a word that no
number is read from.  The file of a session is read exactly if it has no such
number, and its problem is then taken exactly if it is still acceptable after the
limits that stand for infinity in a file have become infinite.  Under a finite
sentinel it always is.
-/

variable {σ τ ρ ν α : Type}

namespace DoubleFile

open Double

/-- Limits stay valid under a finite sentinel if the largest ones become infinite. -/
theorem limitsValid_kept
    {sentinel lower upper : Float}
    (finite : sentinel.isFinite = true)
    (valid : Check.LimitsValid sentinel lower upper) :
    Check.LimitsValid sentinel (kept lower) (kept upper) := by
  obtain ⟨lowerNumber, upperNumber, lowerBelow, upperAbove⟩ := valid
  have aboveNegative : ¬ sentinel ≤ -infiniteDouble :=
    not_le_of_lt (infinite_lt finite).2
  have belowPositive : ¬ infiniteDouble ≤ -sentinel :=
    not_le_of_lt (infinite_lt (isFinite_neg finite)).1
  have keptLower :
      Scalar.isNaN (kept lower) = false ∧ ¬ sentinel ≤ kept lower := by
    rcases (kept_cases lowerNumber).2 with
      same | ⟨isLargest, isInfinite⟩ | ⟨_, isInfinite⟩
    · rw [same]
      exact ⟨lowerNumber, lowerBelow⟩
    · -- No acceptable lower limit reaches a finite sentinel.
      refine (lowerBelow ?_).elim
      rw [le_iff, isLargest, ← le_iff]
      exact (largest_bounds finite).1
    · rw [isInfinite]
      exact ⟨by decide +kernel, aboveNegative⟩
  have keptUpper :
      Scalar.isNaN (kept upper) = false ∧ ¬ kept upper ≤ -sentinel := by
    rcases (kept_cases upperNumber).2 with
      same | ⟨_, isInfinite⟩ | ⟨isLargest, isInfinite⟩
    · rw [same]
      exact ⟨upperNumber, upperAbove⟩
    · rw [isInfinite]
      exact ⟨by decide +kernel, belowPositive⟩
    · refine (upperAbove ?_).elim
      rw [le_iff, isLargest, ← le_iff]
      exact (largest_bounds (isFinite_neg finite)).2
  exact ⟨keptLower.1, keptUpper.1, keptLower.2, keptUpper.2⟩

end DoubleFile

namespace Program

/-- A program with other limits is acceptable if those limits are valid. -/
theorem Acceptable.mapLimits
    [Scalar α]
    {sentinel : α}
    {program : Program α}
    (acceptable : program.Acceptable sentinel)
    {change : α → α}
    (valid :
      ∀ lower upper,
        Check.LimitsValid sentinel lower upper →
          Check.LimitsValid sentinel (change lower) (change upper)) :
    (program.mapLimits change).Acceptable sentinel where
  lowerLength := (List.length_map change).trans acceptable.lowerLength
  upperLength := (List.length_map change).trans acceptable.upperLength
  integralLength := acceptable.integralLength
  bounds := by
    intro limits member
    have isMapped :
        limits ∈
          (program.lower.zip program.upper).map (Prod.map change change) := by
      rw [← List.zip_map]
      exact member
    obtain ⟨old, wasLimit, rfl⟩ := List.mem_map.mp isMapped
    exact valid _ _ (acceptable.bounds old wasLimit)
  blocks := acceptable.blocks
  rows := by
    intro row member
    obtain ⟨old, wasRow, rfl⟩ := List.mem_map.mp member
    have oldAcceptable := acceptable.rows old wasRow
    exact
      { oldAcceptable with sides := valid _ _ oldAcceptable.sides }

theorem mapLimits_comp
    (program : Program α)
    (first second : α → α) :
    (program.mapLimits first).mapLimits second =
      program.mapLimits (second ∘ first) := by
  simp [mapLimits, Function.comp_def]

/-- The limits of a program that is acceptable as it is read are written as finite numbers. -/
theorem isFinite_clamp_of_kept_acceptable
    {sentinel : Float}
    {program : Program Float}
    (acceptable :
      (program.mapLimits DoubleFile.kept).Acceptable sentinel)
    {limit : Float}
    (member : limit ∈ program.limits) :
    (DoubleFile.clamp limit).isFinite = true := by
  have isKept :
      DoubleFile.kept limit ∈
        (program.mapLimits DoubleFile.kept).limits := by
    rw [limits_mapLimits]
    exact List.mem_map_of_mem member
  have keptNumber := acceptable.isNaN_of_mem_limits isKept
  cases number : limit.isNaN with
  | false => exact (DoubleFile.kept_cases number).1
  | true =>
      rw [DoubleFile.kept_of_isNaN number] at keptNumber
      cases keptNumber.symm.trans number

end Program

namespace Session

/-- What a session takes is acceptable under its sentinel. -/
theorem acceptable_of_load
    [Scalar α]
    [Solver σ α]
    {session next : Session σ τ α}
    {program : Program α}
    (loaded : load program session = .ok () next) :
    program.Acceptable session.sentinel := by
  have shows := Edit.perform_shows (.load program) session
  cases outcome : Store.load session.sentinel program with
  | error fault =>
      rw [Edit.onStore, outcome] at shows
      obtain ⟨other, refused, _⟩ := shows
      cases loaded.symm.trans refused
  | ok store =>
      exact (Store.load_eq_ok.mp outcome).1

/--
A file that is read is restored exactly if its program is acceptable and the solver
takes its settings, if these are valid.
-/
theorem exists_restore_iff
    [Scalar α]
    [Solver σ α]
    {format : FileFormat α}
    {text : List Char}
    {file : ProblemFile α}
    (isRead : format.read text = .ok file)
    (valid : file.settings.validate = .ok ())
    {sentinel : α}
    {solver : σ}
    {oneVariable : τ} :
    (∃ restored,
        restore format text sentinel solver oneVariable = .ok restored) ↔
      file.program.Acceptable sentinel ∧
        Solver.Takes file.settings.shared solver := by
  constructor
  · rintro ⟨restored, outcome⟩
    have acceptable : file.program.Acceptable sentinel := by
      rw [restore_eq isRead] at outcome
      obtain ⟨fresh, created, loading⟩ := Check.bind_eq_ok.mp outcome
      rw [← (create_holds created).1.current]
      split at loading
      · rename_i loaded
        exact acceptable_of_load loaded
      · cases loading
    exact
      ⟨acceptable,
        (restore_of_read isRead valid acceptable solver
          oneVariable).1.mp ⟨restored, outcome⟩⟩
  · rintro ⟨acceptable, takes⟩
    exact
      (restore_of_read isRead valid acceptable solver oneVariable).1.mpr takes

section Saving

variable
  {serialiser : Serialiser Float}
  (inverse : serialiser.InverseOnFinite)
  (null : serialiser.NullForOthers)
  (keeps : serialiser.KeepsRecords)
  (refuses : serialiser.RefusesRecords)
  {session : Session σ τ Float}
  (indexed : session.store.toProgram.Indexed)
  (sized : session.store.toProgram.WordSized)
  (valid : session.settings.validate = .ok ())

include null refuses

/-- A saved session is not restored if one of the numbers that are written is not finite. -/
theorem restore_save_refused
    [Solver ρ Float]
    {x : Float}
    (isNumber :
      x ∈ (session.store.toProgram.mapLimits DoubleFile.clamp).numbers)
    (infinite : x.isFinite = false)
    (sentinel : Float)
    (solver : ρ)
    (oneVariable : ν) :
    ∃ fault,
      restore serialiser.doubleFormat (session.save serialiser.doubleFormat)
          sentinel solver oneVariable =
        .error (.file fault) := by
  let saved : ProblemFile Float :=
    { program := session.store.toProgram, settings := session.settings }
  obtain ⟨fault, refused⟩ :
      ∃ fault,
        serialiser.doubleFormat.read (serialiser.doubleFormat.write saved) =
          .error fault :=
    serialiser.read_write_refused null refuses (.inl isNumber) infinite
  refine ⟨fault, ?_⟩
  unfold restore save
  rw [refused]
  rfl

include inverse keeps indexed sized valid

/-- A saved session is restored exactly if its numbers are read and its problem is acceptable then. -/
theorem exists_restore_save_iff
    [Solver ρ Float]
    (sentinel : Float)
    (solver : ρ)
    (oneVariable : ν) :
    (∃ restored,
        restore serialiser.doubleFormat
            (session.save serialiser.doubleFormat) sentinel solver
            oneVariable =
          .ok restored) ↔
      session.store.toProgram.FiniteNumbers ∧
        (session.store.toProgram.mapLimits DoubleFile.kept).Acceptable
            sentinel ∧
          Solver.Takes session.settings.shared solver := by
  let format := serialiser.doubleFormat
  let saved : ProblemFile Float :=
    { program := session.store.toProgram, settings := session.settings }
  have isSaved : session.save format = format.write saved := rfl
  have settingsFinite := (Settings.validate_eq_ok_iff.mp valid).1
  by_cases finite :
      ∀ x ∈ (saved.program.mapLimits DoubleFile.clamp).numbers,
        x.isFinite = true
  · have isRead :
        format.read (format.write saved) =
          .ok
            { saved with
              program := saved.program.mapLimits DoubleFile.kept } := by
      rw [serialiser.read_write inverse keeps (sized.indices_lt indexed),
        Program.mapLimits_comp]
      · rfl
      · rintro x (inProgram | ⟨field, rfl⟩)
        · exact finite x inProgram
        · exact (settingsFinite field).2
    rw [isSaved]
    refine (exists_restore_iff isRead valid).trans ?_
    have numbers :=
      ((saved.program.mapLimits
        DoubleFile.clamp).forall_numbers_isFinite_iff.mp finite).1
    rw [Program.finiteNumbers_mapLimits] at numbers
    exact ⟨fun accepted => ⟨numbers, accepted⟩, And.right⟩
  · obtain ⟨x, isNumber, infinite⟩ := not_forall₂.mp finite
    rw [Bool.not_eq_true] at infinite
    obtain ⟨fault, refused⟩ :=
      restore_save_refused null refuses isNumber infinite sentinel solver
        oneVariable
    rw [refused]
    refine iff_of_false ?_ ?_
    · rintro ⟨_, ⟨⟩⟩
    · rintro ⟨numbers, acceptable, _⟩
      refine finite ((Program.forall_numbers_isFinite_iff _).mpr ⟨?_, ?_⟩)
      · exact (Program.finiteNumbers_mapLimits _ _).mpr numbers
      · rw [Program.limits_mapLimits, List.forall_mem_map]
        exact fun limit member =>
          Program.isFinite_clamp_of_kept_acceptable acceptable member

end Saving

/--
The file that a session is saved to can be restored exactly if every number of the
objective, of the matrices and of the rows is finite, the problem is acceptable with
the limits that are read for its own, and the solver takes the settings.  If the
problem was stored under the sentinel that it is restored with, and this is finite,
then only an infinite objective or an infinite matrix entry prevents it.

The serialiser may be any that obeys the laws: finite doubles are read back, all
others become a word that is refused, and what holds of the numbers of a file holds of
the file.
-/
theorem saved_session_is_restorable_iff
    [Solver σ Float]
    [OneVariableSolver τ Float]
    [Solver ρ Float]
    {serialiser : Serialiser Float}
    (inverse : serialiser.InverseOnFinite)
    (null : serialiser.NullForOthers)
    (keeps : serialiser.KeepsRecords)
    (refuses : serialiser.RefusesRecords)
    {session : Session σ τ Float}
    (reachable : session.Reachable)
    (valid : session.settings.validate = .ok ())
    (sized : session.store.toProgram.WordSized)
    (sentinel : Float)
    (solver : ρ)
    (oneVariable : ν) :
    let format := serialiser.doubleFormat
    ((∃ restored,
        restore format (session.save format) sentinel solver oneVariable =
          .ok restored) ↔
      session.store.toProgram.FiniteNumbers ∧
        (session.store.toProgram.mapLimits DoubleFile.kept).Acceptable
            sentinel ∧
          Solver.Takes session.settings.shared solver) ∧
      (session.StoredUnder sentinel →
        sentinel.isFinite = true →
          ((∃ restored,
              restore format (session.save format) sentinel solver
                  oneVariable =
                .ok restored) ↔
            session.store.toProgram.FiniteEntries ∧
              Solver.Takes session.settings.shared solver)) := by
  intro format
  obtain ⟨program, represents, indexed⟩ := reachable.atRest.held
  rw [← represents.toProgram_eq] at indexed
  have restores :=
    exists_restore_save_iff inverse null keeps refuses indexed sized valid
      sentinel solver oneVariable
  refine ⟨restores, ?_⟩
  intro stored finite
  obtain ⟨_, held, heldRepresents, acceptable⟩ := stored.holds
  rw [← heldRepresents.toProgram_eq] at acceptable
  have acceptableThen :
      (session.store.toProgram.mapLimits DoubleFile.kept).Acceptable
        sentinel :=
    acceptable.mapLimits fun _ _ => DoubleFile.limitsValid_kept finite
  rw [restores]
  constructor
  · rintro ⟨numbers, _, takes⟩
    exact ⟨numbers.toFiniteEntries, takes⟩
  · rintro ⟨entries, takes⟩
    exact
      ⟨entries.finiteNumbers acceptable finite, acceptableThen, takes⟩

section Examples

/-- An acceptable program can be stored under the standard sentinel, with standard settings. -/
theorem exists_storedUnder
    (program : Program Float)
    (acceptable : program.Acceptable standardSentinel) :
    ∃ session : Session (Option (ScriptedSolver Float)) NewtonMethod Float,
      session.StoredUnder standardSentinel ∧
        session.Reachable ∧
        session.store.toProgram = program.filled ∧
        session.settings = Settings.standard := by
  let fresh : Session (Option (ScriptedSolver Float)) NewtonMethod Float :=
    assemble standardSentinel Settings.standard none NewtonMethod.standard
  have freshReachable : fresh.Reachable := .assembled _ _ _ _
  have freshAcceptable : program.Acceptable fresh.sentinel := acceptable
  obtain ⟨session, loaded, sameProgram, sameSettings⟩ :=
    load_of_acceptable freshAcceptable
  have isPerformed :
      (Operation.edit (.load program)).performed fresh = session := by
    change stateAfter (load program fresh) = session
    rw [loaded]
    rfl
  refine ⟨session, .loaded freshReachable rfl loaded, ?_, sameProgram,
    sameSettings⟩
  rw [← isPerformed]
  exact .operated freshReachable _

theorem validate_standard :
    (Settings.standard : Settings Float).validate = .ok () := by
  decide +kernel

/-- A program with one variable that may be as large as the largest double. -/
def largestProgram : Program Float :=
  {
    objective := [1]
    lower := [-largestDouble]
    upper := [largestDouble]
    integral := none
    blocks := []
    rows := []
  }

theorem largestProgram_restored :
    ∃ session restored :
        Session (Option (ScriptedSolver Float)) NewtonMethod Float,
      session.store.toProgram = largestProgram.filled ∧
        restore doubleFile (session.save doubleFile) standardSentinel none
            NewtonMethod.standard =
          .ok restored := by
  obtain ⟨session, stored, reachable, program, settings⟩ :=
    exists_storedUnder largestProgram (by decide +kernel)
  have entries : largestProgram.filled.FiniteEntries :=
    ⟨by decide +kernel, by decide +kernel, by decide +kernel⟩
  have sized : largestProgram.filled.WordSized :=
    ⟨by decide +kernel, by decide +kernel⟩
  rw [← program] at entries sized
  have restorable :=
    saved_session_is_restorable_iff DoubleFile.serialiser_inverseOnFinite
      DoubleFile.serialiser_nullForOthers ProblemFile.serialiser_keepsRecords
      ProblemFile.serialiser_refusesRecords reachable
      (by rw [settings]; exact validate_standard) sized standardSentinel
      (none : Option (ScriptedSolver Float)) NewtonMethod.standard
  obtain ⟨restored, outcome⟩ :=
    (restorable.2 stored (by decide +kernel)).mpr
      ⟨entries, Solver.takes_none _⟩
  exact ⟨session, restored, program, outcome⟩

/-- A program with an infinite objective. -/
def infiniteProgram : Program Float :=
  {
    objective := [infiniteDouble]
    lower := [0]
    upper := [1]
    integral := none
    blocks := []
    rows := []
  }

/--
A session that has accepted an infinite objective cannot be restored from its file,
whatever serialiser writes infinite numbers as a word that it refuses.
-/
theorem infiniteProgram_not_restored :
    ∃ session : Session (Option (ScriptedSolver Float)) NewtonMethod Float,
      session.StoredUnder standardSentinel ∧
        session.settings.validate = .ok () ∧
        session.store.toProgram = infiniteProgram.filled ∧
        (∀ serialiser : Serialiser Float,
          serialiser.NullForOthers →
            serialiser.RefusesRecords →
              ¬ ∃ restored :
                  Session (Option (ScriptedSolver Float)) NewtonMethod Float,
                restore serialiser.doubleFormat
                    (session.save serialiser.doubleFormat) standardSentinel
                    none NewtonMethod.standard =
                  .ok restored) ∧
        ¬ ∃ restored :
            Session (Option (ScriptedSolver Float)) NewtonMethod Float,
          restore doubleFile (session.save doubleFile) standardSentinel none
              NewtonMethod.standard =
            .ok restored := by
  obtain ⟨session, stored, reachable, program, settings⟩ :=
    exists_storedUnder infiniteProgram (by decide +kernel)
  have valid : session.settings.validate = .ok () := by
    rw [settings]
    exact validate_standard
  have isNumber :
      infiniteDouble ∈
        (session.store.toProgram.mapLimits DoubleFile.clamp).numbers := by
    rw [program]
    exact
      List.mem_append_left _ (List.mem_append_left _
        (List.mem_append_left _ (List.mem_singleton.mpr rfl)))
  have notRestored (serialiser : Serialiser Float)
      (null : serialiser.NullForOthers)
      (refuses : serialiser.RefusesRecords) :
      ¬ ∃ restored :
          Session (Option (ScriptedSolver Float)) NewtonMethod Float,
        restore serialiser.doubleFormat
            (session.save serialiser.doubleFormat) standardSentinel none
            NewtonMethod.standard =
          .ok restored := by
    obtain ⟨fault, refused⟩ :=
      restore_save_refused null refuses isNumber (by decide +kernel)
        standardSentinel (none : Option (ScriptedSolver Float))
        NewtonMethod.standard
    rw [refused]
    rintro ⟨_, ⟨⟩⟩
  exact
    ⟨session, stored, valid, program, notRestored,
      notRestored _ DoubleFile.serialiser_nullForOthers
        ProblemFile.serialiser_refusesRecords⟩

end Examples

end Session

end SdpRelay
