import SdpRelay.Proofs.SessionHistory
import SdpRelay.Proofs.SettingsHistory

namespace SdpRelay

/-!
# What sessions hold

Every edit is checked under the sentinel of its time.  As long as the sentinel stays
the same after a problem is stored, whatever else happens to the session, the whole
problem would pass the check of a program that is loaded under this sentinel.
-/

variable {σ τ α : Type}

section Lists

variable {β γ : Type}

/-- Replacing pairs is replacing their parts. -/
theorem zip_set
    {first : List β}
    {second : List γ}
    (i : Nat)
    (a : β)
    (b : γ) :
    (first.set i a).zip (second.set i b) = (first.zip second).set i (a, b) := by
  induction first generalizing second i with
  | nil => simp
  | cons x first inductionHypothesis =>
      cases second with
      | nil => cases i <;> simp
      | cons y second =>
          cases i with
          | zero => rfl
          | succ i => simp [inductionHypothesis]

/-- Two lists that are changed at the same places are changed as one list of pairs. -/
theorem zip_replaced
    {places : List Nat}
    {firstValues : List β}
    {secondValues : List γ}
    (firstLength : firstValues.length = places.length)
    (secondLength : secondValues.length = places.length)
    (first : List β)
    (second : List γ) :
    (replaced (fun _ value => value) (places.zip firstValues) first).zip
        (replaced (fun _ value => value) (places.zip secondValues) second) =
      replaced (fun _ value => value)
        (places.zip (firstValues.zip secondValues)) (first.zip second) := by
  rw [← foldl_set_eq_replaced, ← foldl_set_eq_replaced,
    ← foldl_set_eq_replaced]
  induction places generalizing firstValues secondValues first second with
  | nil => rfl
  | cons place places inductionHypothesis =>
      obtain ⟨a, firstValues, rfl⟩ :=
        List.exists_cons_of_length_eq_add_one firstLength
      obtain ⟨b, secondValues, rfl⟩ :=
        List.exists_cons_of_length_eq_add_one secondLength
      simp only [List.length_cons, Nat.add_right_cancel_iff]
        at firstLength secondLength
      simp only [List.zip_cons_cons, List.foldl_cons]
      rw [inductionHypothesis firstLength secondLength, zip_set]

/-- What replacements leave is an old item or one of them. -/
theorem mem_replaced
    {replace : β → γ → β}
    {changes : List (Nat × γ)}
    {items : List β}
    {item : β}
    (member : item ∈ replaced replace changes items) :
    ∃ old ∈ items,
      item = old ∨ ∃ change ∈ changes, item = replace old change.2 := by
  obtain ⟨i, inRange, rfl⟩ := List.mem_mapIdx.mp member
  refine ⟨items[i], List.getElem_mem inRange, ?_⟩
  split
  · rename_i change found
    refine .inr ⟨change, ?_, rfl⟩
    exact List.mem_reverse.mp (List.mem_of_find?_eq_some found)
  · exact .inl rfl

end Lists

namespace Edit

variable [Scalar α]

/-- An edit leaves a program acceptable under the sentinel that it is checked with. -/
theorem applied_acceptable
    {sentinel : α}
    {program : Program α}
    (acceptable : program.Acceptable sentinel)
    (edit : Edit α) :
    (edit.applied sentinel program).Acceptable sentinel := by
  unfold applied
  split
  · rename_i wellFormed
    cases edit with
    | load loaded =>
        exact
          ⟨wellFormed.lowerLength, wellFormed.upperLength,
            wellFormed.integralLength, wellFormed.bounds, wellFormed.blocks,
            wellFormed.rows⟩
    | addRows rows =>
        refine { acceptable with rows := ?_ }
        intro row member
        rcases List.mem_append.mp member with old | new
        · exact acceptable.rows row old
        · exact wellFormed row new
    | deleteRows first last =>
        refine { acceptable with rows := ?_ }
        intro row member
        rcases List.mem_append.mp member with before | behind
        · exact acceptable.rows row (List.mem_of_mem_take before)
        · exact acceptable.rows row (List.mem_of_mem_drop behind)
    | deleteRowSet flags =>
        refine { acceptable with rows := ?_ }
        intro row member
        exact acceptable.rows row (mem_of_mem_unflagged member)
    | changeObjective vars values =>
        have sameCount :
            ((changeObjective vars values).apply program).objective.length =
              program.objective.length := by
          simp only [apply, length_replaced]
        have integralLength := acceptable.integralLength
        unfold Program.integralFlags at integralLength
        exact
          {
            lowerLength := acceptable.lowerLength.trans sameCount.symm
            upperLength := acceptable.upperLength.trans sameCount.symm
            integralLength := by
              rw [sameCount]
              unfold Program.integralFlags
              rw [sameCount]
              exact integralLength
            bounds := acceptable.bounds
            blocks := by rw [sameCount]; exact acceptable.blocks
            rows := by rw [sameCount]; exact acceptable.rows
          }
    | changeBounds vars lowers uppers =>
        obtain ⟨lowersLength, uppersLength, _, valid⟩ := wellFormed
        refine
          { acceptable with
            lowerLength := ?_, upperLength := ?_, bounds := ?_ }
        · simp only [apply, length_replaced]
          exact acceptable.lowerLength
        · simp only [apply, length_replaced]
          exact acceptable.upperLength
        · simp only [apply]
          rw [zip_replaced lowersLength uppersLength]
          intro limits member
          obtain ⟨old, wasLimit, same | ⟨change, isChange, same⟩⟩ :=
            mem_replaced member
          · rw [same]
            exact acceptable.bounds old wasLimit
          · rw [same]
            exact valid change.2 (List.of_mem_zip isChange).2
    | changeSides rows lefts rights =>
        obtain ⟨_, _, _, valid⟩ := wellFormed
        refine { acceptable with rows := ?_ }
        simp only [apply]
        intro row member
        obtain ⟨old, wasRow, same | ⟨change, isChange, same⟩⟩ :=
          mem_replaced member
        · rw [same]
          exact acceptable.rows old wasRow
        · rw [same]
          exact
            { acceptable.rows old wasRow with
              sides := valid change.2 (List.of_mem_zip isChange).2 }
    | clear =>
        exact
          ⟨rfl, rfl, rfl, List.forall_mem_nil _, List.forall_mem_nil _,
            List.forall_mem_nil _⟩
  · exact acceptable

end Edit

namespace Session

section Stored

variable [Scalar α] [Solver σ α] [OneVariableSolver τ α]

/--
The sessions whose problem was stored under a sentinel that has not changed since.
Before the problem was stored anything may have happened to the session, its
sentinel included.
-/
inductive StoredUnder (sentinel : α) :
    Session σ τ α → Prop where
  | assembled (settings solver oneVariable) :
      StoredUnder sentinel (assemble sentinel settings solver oneVariable)
  | created {settings solver oneVariable session}
      (created :
        create sentinel settings solver oneVariable = .ok session) :
      StoredUnder sentinel session
  | restored {format text solver oneVariable session}
      (restored :
        restore format text sentinel solver oneVariable = .ok session) :
      StoredUnder sentinel session
  | loaded {session next : Session σ τ α} {program}
      (before : session.Reachable)
      (current : session.sentinel = sentinel)
      (loaded : load program session = .ok () next) :
      StoredUnder sentinel next
  | cleared {session next : Session σ τ α}
      (before : session.Reachable)
      (current : session.sentinel = sentinel)
      (cleared : clear session = .ok () next) :
      StoredUnder sentinel next
  | copied {session copy : Session σ τ α} {solver oneVariable}
      (before : StoredUnder sentinel session)
      (copied : session.copyWith solver oneVariable = .ok copy) :
      StoredUnder sentinel copy
  | operated {session}
      (before : StoredUnder sentinel session)
      (operation : Operation α)
      (unchanged :
        (operation.performed session).sentinel = session.sentinel) :
      StoredUnder sentinel (operation.performed session)

end Stored

/-- A session holds a program that may be stored under the sentinel of the session. -/
structure Holds
    [Scalar α]
    (sentinel : α)
    (session : Session σ τ α) : Prop where
  current : session.sentinel = sentinel
  held :
    ∃ program,
      session.store.Represents program ∧ program.Acceptable sentinel

section Held

variable [Scalar α]

/-- The empty program may be stored under every sentinel. -/
theorem empty_acceptable (sentinel : α) :
    Program.empty.filled.Acceptable sentinel :=
  ⟨rfl, rfl, rfl, List.forall_mem_nil _, List.forall_mem_nil _,
    List.forall_mem_nil _⟩

/-- What has the same store and the same sentinel holds the same program. -/
theorem Holds.ofSame
    {sentinel : α}
    {session next : Session σ τ α}
    (holds : session.Holds sentinel)
    (sameStore : next.store = session.store)
    (sameSentinel : next.sentinel = session.sentinel) :
    next.Holds sentinel where
  current := sameSentinel.trans holds.current
  held := by
    rw [sameStore]
    exact holds.held

variable [Solver σ α]

/-- A new session has its sentinel and its settings, and holds nothing yet. -/
theorem create_holds
    {sentinel : α}
    {settings : Settings α}
    {solver : σ}
    {oneVariable : τ}
    {session : Session σ τ α}
    (created : create sentinel settings solver oneVariable = .ok session) :
    session.Holds sentinel ∧ session.settings = settings := by
  have sameStore : session.store = Store.empty := store_of_create created
  have sameSentinel : session.sentinel = sentinel :=
    create_keepsUntold (fun _ _ => rfl) created
  have sameSettings : session.settings = settings :=
    create_keepsUntold (fun _ _ => rfl) created
  refine ⟨⟨sameSentinel, ?_⟩, sameSettings⟩
  rw [sameStore]
  exact ⟨_, Store.empty_represents, empty_acceptable sentinel⟩

/-- An edit leaves a session holding what may be stored under its sentinel. -/
theorem Holds.edited
    {sentinel : α}
    {session : Session σ τ α}
    (holds : session.Holds sentinel)
    (edit : Edit α) :
    (Edit.performed session edit).Holds sentinel := by
  obtain ⟨sameSentinel, program, represents, acceptable⟩ := holds
  obtain ⟨nextRepresents, nextSentinel⟩ :=
    Edit.performed_represents represents edit
  rw [sameSentinel] at nextRepresents
  exact
    ⟨nextSentinel.trans sameSentinel, _, nextRepresents,
      Edit.applied_acceptable acceptable edit⟩

/-- Loading stores a program that its session may hold, whatever was stored before. -/
theorem load_holds
    {session next : Session σ τ α}
    {program : Program α}
    (loaded : load program session = .ok () next) :
    next.Holds session.sentinel ∧ next.store.toProgram = program.filled := by
  have shows := Edit.perform_shows (.load program) session
  cases outcome : Store.load session.sentinel program with
  | error fault =>
      rw [Edit.onStore, outcome] at shows
      obtain ⟨other, refused, _⟩ := shows
      cases loaded.symm.trans refused
  | ok store =>
      rw [Edit.onStore, outcome] at shows
      obtain ⟨other, performed, sameStore, sameSentinel⟩ := shows
      obtain ⟨acceptable, isStore⟩ := Store.load_eq_ok.mp outcome
      have same := loaded.symm.trans performed
      cases same
      have represents := Store.ofProgram_represents acceptable
      rw [isStore, ← sameStore] at represents
      refine ⟨⟨sameSentinel, _, represents, ?_⟩, represents.toProgram_eq⟩
      exact
        ⟨acceptable.lowerLength, acceptable.upperLength,
          acceptable.integralLength, acceptable.bounds, acceptable.blocks,
          acceptable.rows⟩

/-- A cleared session holds the empty program. -/
theorem clear_holds
    {session next : Session σ τ α}
    (cleared : clear session = .ok () next) :
    next.Holds session.sentinel := by
  have shows := Edit.perform_shows .clear session
  obtain ⟨other, performed, sameStore, sameSentinel⟩ := shows
  have same := cleared.symm.trans performed
  cases same
  refine ⟨sameSentinel, ?_⟩
  rw [sameStore]
  exact ⟨_, Store.empty_represents, empty_acceptable _⟩

/-- From a file that is read, a session is put around its settings and loads its program. -/
theorem restore_eq
    {format : FileFormat α}
    {text : List Char}
    {file : ProblemFile α}
    (isRead : format.read text = .ok file)
    (sentinel : α)
    (solver : σ)
    (oneVariable : τ) :
    restore format text sentinel solver oneVariable =
      (do
        let fresh ← create sentinel file.settings solver oneVariable
        match load file.program fresh with
        | .ok _ restored => return restored
        | .error fault _ => throw fault) := by
  unfold restore
  rw [isRead]
  rfl

variable [OneVariableSolver τ α]

/-- An operation that leaves the sentinel alone leaves a session holding an acceptable program. -/
theorem Holds.performed
    {sentinel : α}
    {session : Session σ τ α}
    (holds : session.Holds sentinel)
    {operation : Operation α}
    (unchanged :
      (operation.performed session).sentinel = session.sentinel) :
    (operation.performed session).Holds sentinel := by
  by_cases isEdit : ∃ change, operation = .edit change
  · obtain ⟨change, rfl⟩ := isEdit
    change (stateAfter (change.perform session)).Holds sentinel
    rw [Edit.stateAfter_perform]
    exact holds.edited change
  · have sameStore :=
      performed_keepsStore session fun change same => isEdit ⟨change, same⟩
    exact holds.ofSame sameStore unchanged

/-- While the sentinel stays, a session holds a program that may be stored under it. -/
theorem StoredUnder.holds
    {sentinel : α}
    {session : Session σ τ α}
    (stored : session.StoredUnder sentinel) :
    session.Holds sentinel := by
  induction stored with
  | assembled settings solver oneVariable =>
      exact ⟨rfl, _, Store.empty_represents, empty_acceptable sentinel⟩
  | created created =>
      exact (create_holds created).1
  | @restored format text solver oneVariable session restored =>
      obtain ⟨file, _, loading⟩ := Check.bind_eq_ok.mp restored
      obtain ⟨fresh, created, loaded⟩ := Check.bind_eq_ok.mp loading
      split at loaded
      · rename_i passed
        cases loaded
        have loadedHolds := (load_holds passed).1
        rw [(create_holds created).1.current] at loadedHolds
        exact loadedHolds
      · cases loaded
  | loaded before current loaded =>
      have loadedHolds := (load_holds loaded).1
      rw [current] at loadedHolds
      exact loadedHolds
  | cleared before current cleared =>
      have clearedHolds := clear_holds cleared
      rw [current] at clearedHolds
      exact clearedHolds
  | @copied session copy solver oneVariable before copied holds =>
      obtain ⟨fresh, created, copies⟩ := Check.bind_eq_ok.mp copied
      cases copies
      exact
        ⟨(create_holds created).1.current.trans holds.current, holds.held⟩
  | operated before operation unchanged holds =>
      exact holds.performed unchanged

end Held

end Session

end SdpRelay
