import Mathlib
import SdpRelay.Proofs.StoreLayout
import SdpRelay.Session.Basic

namespace SdpRelay

/-!
# The store refines the list of rows

Edits act on programs as operations on lists.  Performed on a session they act
on the compressed store; the list view of the store is the edited program, an
edit is accepted exactly if it is well formed, and a refused one leaves the store
as it was.
-/

/-- An edit of the stored problem. -/
inductive Edit (α : Type) where
  | load (program : Program α)
  | addRows (rows : List (LinearRow α))
  | deleteRows (first last : Nat)
  | deleteRowSet (flags : List Bool)
  | changeObjective (vars : List Nat) (values : List α)
  | changeBounds (vars : List Nat) (lowers uppers : List α)
  | changeSides (rows : List Nat) (lefts rights : List α)
  | clear

/--
Replace the items at some positions, where the last replacement of a position
counts.
-/
def replaced
    {β γ : Type}
    (replace : β → γ → β)
    (changes : List (Nat × γ))
    (items : List β) :
    List β :=
  items.mapIdx fun i item =>
    match changes.reverse.find? (fun change => change.1 == i) with
    | some change => replace item change.2
    | none => item

theorem replaced_concat
    {β γ : Type}
    (replace : β → γ → β)
    (overrides : ∀ item first second,
      replace (replace item first) second = replace item second)
    (changes : List (Nat × γ))
    (i : Nat)
    (change : γ)
    (items : List β) :
    replaced replace (changes ++ [(i, change)]) items =
      (replaced replace changes items).modify i fun item =>
        replace item change := by
  apply List.ext_getElem?
  intro j
  simp only [replaced, List.getElem?_modify, List.getElem?_mapIdx,
    List.reverse_append, List.reverse_cons, List.reverse_nil, List.nil_append,
    List.singleton_append, List.find?_cons]
  cases items[j]? with
  | none =>
      simp
  | some item =>
      by_cases atChange : i = j
      · subst j
        cases changes.reverse.find? (fun earlier => earlier.1 == i) <;>
          simp [overrides]
      · have elsewhere : (i == j) = false := by
          simpa using atChange
        simp [atChange, elsewhere]

/--
Replacing items one after the other replaces each by the last replacement of its
position.
-/
theorem foldl_modify_eq_replaced
    {β γ : Type}
    (replace : β → γ → β)
    (overrides : ∀ item first second,
      replace (replace item first) second = replace item second)
    (changes : List (Nat × γ))
    (items : List β) :
    changes.foldl
        (fun items change =>
          items.modify change.1 fun item => replace item change.2)
        items =
      replaced replace changes items := by
  induction changes using List.reverseRecOn with
  | nil =>
      apply List.ext_getElem?
      intro j
      simp [replaced]
  | append_singleton changes change inductionHypothesis =>
      rw [List.foldl_append, inductionHypothesis]
      exact (replaced_concat replace overrides changes change.1 change.2 items).symm

@[simp] theorem length_replaced
    {β γ : Type}
    (replace : β → γ → β)
    (changes : List (Nat × γ))
    (items : List β) :
    (replaced replace changes items).length = items.length := by
  simp [replaced]

/-- A property of items that replacements keep holds of all items afterwards. -/
theorem forall_mem_replaced
    {β γ : Type}
    {holds : β → Prop}
    {items : List β}
    (replace : β → γ → β)
    (kept : ∀ item change, holds item → holds (replace item change))
    (before : ∀ item ∈ items, holds item)
    (changes : List (Nat × γ)) :
    ∀ item ∈ replaced replace changes items, holds item := by
  intro item member
  obtain ⟨i, inRange, rfl⟩ := List.mem_mapIdx.mp member
  have old := before items[i] (List.getElem_mem inRange)
  split
  · exact kept _ _ old
  · exact old

/--
Replacing numbers one after the other replaces each by the last one of its
position.
-/
theorem foldl_set_eq_replaced
    {α : Type}
    (changes : List (Nat × α))
    (items : List α) :
    changes.foldl (fun items (i, value) => items.set i value) items =
      replaced (fun _ value => value) changes items := by
  rw [← foldl_modify_eq_replaced (fun _ value => value) (fun _ _ _ => rfl)]
  simp only [List.set_eq_modify]

/-- Changing sides of compressed rows one after the other changes them in the list. -/
theorem foldl_setSides_ofRows
    {α : Type}
    (changes : List (Nat × α × α))
    (rows : List (LinearRow α)) :
    changes.foldl
        (fun table (row, left, right) => table.setSides row left right)
        (RowTable.ofRows rows) =
      RowTable.ofRows
        (replaced (fun row sides => row.withSides sides.1 sides.2)
          changes rows) := by
  rw [← foldl_modify_eq_replaced
    (fun row (sides : α × α) => LinearRow.withSides row sides.1 sides.2)
    (fun _ _ _ => rfl)]
  induction changes generalizing rows with
  | nil =>
      rfl
  | cons change rest inductionHypothesis =>
      obtain ⟨row, left, right⟩ := change
      rw [List.foldl_cons, List.foldl_cons]
      simp only [RowTable.setSides_ofRows]
      exact inductionHypothesis _

theorem mem_of_mem_unflagged
    {β : Type}
    {flags : List Bool}
    {items : List β}
    {item : β}
    (member : item ∈ RowTable.unflagged flags items) :
    item ∈ items := by
  obtain ⟨pair, inFilter, rfl⟩ := List.mem_map.mp member
  exact (List.of_mem_zip (List.mem_filter.mp inFilter).1).2

namespace Edit

section Lists

variable {α : Type}

/-- What an edit does to a program. -/
def apply : Edit α → Program α → Program α
  | .load program, _ => program.filled
  | .addRows rows, program =>
      { program with rows := program.rows ++ rows }
  | .deleteRows first last, program =>
      {
        program with
        rows := program.rows.take first ++ program.rows.drop (last + 1)
      }
  | .deleteRowSet flags, program =>
      { program with rows := RowTable.unflagged flags program.rows }
  | .changeObjective vars values, program =>
      {
        program with
        objective :=
          replaced (fun _ value => value) (vars.zip values) program.objective
      }
  | .changeBounds vars lowers uppers, program =>
      {
        program with
        lower := replaced (fun _ value => value) (vars.zip lowers) program.lower
        upper := replaced (fun _ value => value) (vars.zip uppers) program.upper
      }
  | .changeSides rows lefts rights, program =>
      {
        program with
        rows :=
          replaced (fun row sides => row.withSides sides.1 sides.2)
            (rows.zip (lefts.zip rights)) program.rows
      }
  | .clear, _ => Program.empty.filled

/-- The arguments of an edit fit the program that it is applied to. -/
def WellFormed
    [Scalar α]
    (sentinel : α)
    (program : Program α) :
    Edit α → Prop
  | .load loaded => loaded.Acceptable sentinel
  | .addRows rows =>
      ∀ row ∈ rows, row.Acceptable sentinel program.objective.length
  | .deleteRows first last => first ≤ last ∧ last < program.rows.length
  | .deleteRowSet flags => flags.length = program.rows.length
  | .changeObjective vars values =>
      values.length = vars.length ∧
        ∀ var ∈ vars, var < program.objective.length
  | .changeBounds vars lowers uppers =>
      lowers.length = vars.length ∧
        uppers.length = vars.length ∧
        (∀ var ∈ vars, var < program.objective.length) ∧
        ∀ limits ∈ lowers.zip uppers,
          Check.LimitsValid sentinel limits.1 limits.2
  | .changeSides rows lefts rights =>
      lefts.length = rows.length ∧
        rights.length = rows.length ∧
        (∀ row ∈ rows, row < program.rows.length) ∧
        ∀ sides ∈ lefts.zip rights,
          Check.LimitsValid sentinel sides.1 sides.2
  | .clear => True

instance
    [Scalar α]
    (sentinel : α)
    (program : Program α) :
    (edit : Edit α) → Decidable (edit.WellFormed sentinel program)
  | .load loaded => inferInstanceAs (Decidable (loaded.Acceptable sentinel))
  | .addRows rows =>
      inferInstanceAs
        (Decidable
          (∀ row ∈ rows, row.Acceptable sentinel program.objective.length))
  | .deleteRows _ _ => inferInstanceAs (Decidable (_ ∧ _))
  | .deleteRowSet _ => inferInstanceAs (Decidable (_ = _))
  | .changeObjective _ _ => inferInstanceAs (Decidable (_ ∧ _))
  | .changeBounds _ _ _ => inferInstanceAs (Decidable (_ ∧ _ ∧ _ ∧ _))
  | .changeSides _ _ _ => inferInstanceAs (Decidable (_ ∧ _ ∧ _ ∧ _))
  | .clear => .isTrue trivial

/-- The program after an edit, which is the same one if the edit is refused. -/
def applied
    [Scalar α]
    (sentinel : α)
    (program : Program α)
    (edit : Edit α) :
    Program α :=
  if edit.WellFormed sentinel program then
    edit.apply program
  else
    program

end Lists

section Stores

variable {α : Type} [Scalar α]

/-- What an edit does to a store, if it is accepted. -/
def onStore
    (sentinel : α)
    (store : Store α) :
    Edit α → Except (StoreFault α) (Store α)
  | .load program => Store.load sentinel program
  | .addRows rows => store.addRows sentinel rows
  | .deleteRows first last => store.deleteRows first last
  | .deleteRowSet flags => Prod.fst <$> store.deleteRowSet flags
  | .changeObjective vars values => store.changeObjective vars values
  | .changeBounds vars lowers uppers =>
      store.changeBounds sentinel vars lowers uppers
  | .changeSides rows lefts rights =>
      store.changeSides sentinel rows lefts rights
  | .clear => .ok Store.empty

/-- The store that an accepted edit leaves. -/
def editedStore
    (store : Store α) :
    Edit α → Store α
  | .load program => Store.ofProgram program
  | .addRows rows => { store with rows := store.rows.pushAll rows }
  | .deleteRows first last =>
      { store with rows := store.rows.deleteRange first last }
  | .deleteRowSet flags =>
      { store with rows := store.rows.deleteFlagged flags 0 }
  | .changeObjective vars values =>
      {
        store with
        objective :=
          (vars.zip values).foldl
            (fun objective (var, value) => objective.set var value)
            store.objective
      }
  | .changeBounds vars lowers uppers =>
      {
        store with
        lower :=
          (vars.zip lowers).foldl
            (fun lower (var, value) => lower.set var value)
            store.lower
        upper :=
          (vars.zip uppers).foldl
            (fun upper (var, value) => upper.set var value)
            store.upper
      }
  | .changeSides rows lefts rights =>
      {
        store with
        rows :=
          (rows.zip (lefts.zip rights)).foldl
            (fun table (row, left, right) => table.setSides row left right)
            store.rows
      }
  | .clear => Store.empty

/-- The variables of a list exist. -/
theorem checkVariables_eq_ok
    {α : Type}
    {store : Store α}
    {vars : List Nat} :
    store.checkVariables vars = .ok () ↔
      ∀ var ∈ vars, var < store.objective.length := by
  unfold Store.checkVariables Store.variableCount
  cases found :
      vars.find? (fun var => decide (store.objective.length ≤ var)) with
  | some unknown =>
      have isUnknown : store.objective.length ≤ unknown := by
        simpa using List.find?_some found
      simp only [reduceCtorEq, false_iff]
      intro known
      have isKnown := known unknown (List.mem_of_find?_eq_some found)
      omega
  | none =>
      have known : ∀ var ∈ vars, var < store.objective.length := by
        simpa using List.find?_eq_none.mp found
      simpa using known

/-- A store accepts the edits that are well formed for the program it holds. -/
theorem onStore_eq_ok
    {sentinel : α}
    {store next : Store α}
    {program : Program α}
    (represents : store.Represents program)
    (edit : Edit α) :
    edit.onStore sentinel store = .ok next ↔
      edit.WellFormed sentinel program ∧ edit.editedStore store = next := by
  have rowCount : store.rows.rowCount = program.rows.length := by
    rw [represents.rows, RowTable.rowCount_ofRows]
  cases edit with
  | load loaded =>
      exact Store.load_eq_ok
  | addRows rows =>
      simp only [onStore, Store.addRows, Check.then_eq_ok, Check.forM_eq_ok,
        Check.row_eq_ok, Store.variableCount, WellFormed,
        ← represents.objective]
      simp [editedStore, pure, Except.pure]
  | deleteRows first last =>
      simp only [onStore, Store.deleteRows, WellFormed, editedStore, rowCount]
      split
      · rename_i wellFormed
        simp [wellFormed]
      · rename_i malformed
        simp [malformed]
  | deleteRowSet flags =>
      simp only [onStore, Store.deleteRowSet, WellFormed, editedStore,
        ← rowCount, Check.length]
      split
      · rename_i sameLength
        simp [sameLength, bind, Except.bind, pure, Except.pure,
          Functor.map, Except.map]
      · rename_i otherLength
        simp [otherLength, bind, Except.bind, Functor.map, Except.map]
  | changeObjective vars values =>
      simp only [onStore, Store.changeObjective, Check.then_eq_ok,
        Check.length_eq_ok, checkVariables_eq_ok, WellFormed,
        ← represents.objective]
      simp [editedStore, pure, Except.pure, and_assoc]
  | changeBounds vars lowers uppers =>
      simp only [onStore, Store.changeBounds, Check.then_eq_ok,
        Check.length_eq_ok, checkVariables_eq_ok, Check.forM_eq_ok,
        Check.bounds, Check.ite_eq_ok, WellFormed, ← represents.objective]
      simp [editedStore, pure, Except.pure, and_assoc]
  | changeSides rows lefts rights =>
      simp only [onStore, Store.changeSides, Check.then_eq_ok,
        Check.length_eq_ok, WellFormed, ← rowCount]
      cases found :
          rows.find? (fun row => decide (store.rows.rowCount ≤ row)) with
      | some unknown =>
          have isUnknown : store.rows.rowCount ≤ unknown := by
            simpa using List.find?_some found
          simp only [Check.then_eq_ok, reduceCtorEq, false_and, and_false,
            false_iff, not_and]
          rintro ⟨_, _, known, _⟩
          have isKnown := known unknown (List.mem_of_find?_eq_some found)
          omega
      | none =>
          have known : ∀ row ∈ rows, row < store.rows.rowCount := by
            simpa using List.find?_eq_none.mp found
          simp only [Check.then_eq_ok, Check.forM_eq_ok, Check.sides,
            Check.ite_eq_ok, true_and, and_assoc]
          constructor
          · rintro ⟨leftsLength, rightsLength, valid, isNext⟩
            exact
              ⟨leftsLength, rightsLength, known, valid, Except.ok.inj isNext⟩
          · rintro ⟨leftsLength, rightsLength, _, valid, isNext⟩
            exact ⟨leftsLength, rightsLength, valid, congrArg Except.ok isNext⟩
  | clear =>
      simp [onStore, WellFormed, editedStore]

/-- The store that a well formed edit leaves holds the edited program. -/
theorem editedStore_represents
    {sentinel : α}
    {store : Store α}
    {program : Program α}
    {edit : Edit α}
    (represents : store.Represents program)
    (wellFormed : edit.WellFormed sentinel program) :
    (edit.editedStore store).Represents (edit.apply program) := by
  have sameBlocks
      (edited : Store α)
      (layouts : edited.layouts = store.layouts)
      (matrices : edited.matrices = store.matrices)
      (constants : edited.constants = store.constants) :
      edited.BlocksTiled :=
    Store.BlocksTiled.congr store edited layouts matrices constants
      represents.tiled
  cases edit with
  | load loaded =>
      exact Store.ofProgram_represents wellFormed
  | addRows rows =>
      refine
        {
          represents with
          rows := ?_
          balanced := ?_
          tiled := sameBlocks _ rfl rfl rfl
        }
      · simp only [editedStore, apply, represents.rows]
        exact RowTable.pushAll_ofRows program.rows rows
      · intro row member
        rcases List.mem_append.mp member with stored | added
        · exact represents.balanced row stored
        · exact (wellFormed row added).balanced
  | deleteRows first last =>
      obtain ⟨ordered, inRange⟩ := wellFormed
      have split :
          program.rows =
            program.rows.take first ++
                (program.rows.take (last + 1)).drop first ++
              program.rows.drop (last + 1) := by
        have firstPart :
            program.rows.take first =
              (program.rows.take (last + 1)).take first := by
          rw [List.take_take, Nat.min_eq_left (by omega)]
        rw [firstPart, List.take_append_drop, List.take_append_drop]
      have lastOfMiddle :
          last + 1 =
            (program.rows.take first).length +
              ((program.rows.take (last + 1)).drop first).length := by
        simp only [List.length_take, List.length_drop]
        omega
      have deleted :=
        RowTable.deleteRange_ofRows (program.rows.take first)
          ((program.rows.take (last + 1)).drop first)
          (program.rows.drop (last + 1))
          (by rw [← split]; exact represents.balanced) lastOfMiddle
      have firstLength : (program.rows.take first).length = first := by
        rw [List.length_take, Nat.min_eq_left (by omega)]
      rw [← split, firstLength] at deleted
      refine
        {
          represents with
          rows := ?_
          balanced := ?_
          tiled := sameBlocks _ rfl rfl rfl
        }
      · simp only [editedStore, apply, represents.rows]
        exact deleted
      · intro row member
        rcases List.mem_append.mp member with before | after
        · exact represents.balanced row (List.mem_of_mem_take before)
        · exact represents.balanced row (List.mem_of_mem_drop after)
  | deleteRowSet flags =>
      refine
        {
          represents with
          rows := ?_
          balanced := ?_
          tiled := sameBlocks _ rfl rfl rfl
        }
      · have deleted :=
          RowTable.deleteFlagged_ofRows []
            (by simpa using represents.balanced) wellFormed
        simp only [editedStore, apply, represents.rows]
        simpa using deleted
      · intro row member
        exact represents.balanced row (mem_of_mem_unflagged member)
  | changeObjective vars values =>
      refine
        {
          represents with
          objective := ?_
          lowerLength := ?_
          upperLength := ?_
          integralLength := ?_
          tiled := sameBlocks _ rfl rfl rfl
        }
      · simp only [editedStore, apply, foldl_set_eq_replaced,
          represents.objective]
      · simpa [editedStore, foldl_set_eq_replaced] using represents.lowerLength
      · simpa [editedStore, foldl_set_eq_replaced] using represents.upperLength
      · simpa [editedStore, foldl_set_eq_replaced]
          using represents.integralLength
  | changeBounds vars lowers uppers =>
      refine
        {
          represents with
          lower := ?_
          upper := ?_
          lowerLength := ?_
          upperLength := ?_
          tiled := sameBlocks _ rfl rfl rfl
        }
      · simp only [editedStore, apply, foldl_set_eq_replaced, represents.lower]
      · simp only [editedStore, apply, foldl_set_eq_replaced, represents.upper]
      · simpa [editedStore, foldl_set_eq_replaced] using represents.lowerLength
      · simpa [editedStore, foldl_set_eq_replaced] using represents.upperLength
  | changeSides rows lefts rights =>
      refine
        {
          represents with
          rows := ?_
          balanced := ?_
          tiled := sameBlocks _ rfl rfl rfl
        }
      · simp only [editedStore, apply, represents.rows]
        exact foldl_setSides_ofRows _ _
      · exact
          forall_mem_replaced
            (fun row (sides : α × α) =>
              LinearRow.withSides row sides.1 sides.2)
            (fun _ _ balanced => balanced) represents.balanced _
  | clear =>
      exact Store.empty_represents

end Stores

section Sessions

variable {σ τ α : Type} [Scalar α] [Solver σ α]

/-- Perform an edit on a session. -/
def perform : Edit α → SessionM σ τ α Unit
  | .load program => Session.load program
  | .addRows rows => Session.addRows rows
  | .deleteRows first last => Session.deleteRows first last
  | .deleteRowSet flags => discard (Session.deleteRowSet flags)
  | .changeObjective vars values => Session.changeObjective vars values
  | .changeBounds vars lowers uppers =>
      Session.changeBounds vars lowers uppers
  | .changeSides rows lefts rights => Session.changeSides rows lefts rights
  | .clear => Session.clear

/-- An edit is accepted by a session. -/
def Accepted
    (edit : Edit α)
    (session : Session σ τ α) :
    Prop :=
  ∃ next, edit.perform session = .ok () next

/-- The session after an edit, accepted or not. -/
def performed
    (session : Session σ τ α)
    (edit : Edit α) :
    Session σ τ α :=
  match edit.perform session with
  | .ok _ next => next
  | .error _ next => next

section Shows

variable {σ τ α : Type}

/-- What an edit leaves of a session: its sentinel, and the store of the outcome. -/
def Leaves
    (session next : Session σ τ α)
    (store : Store α) :
    Prop :=
  next.store = store ∧ next.sentinel = session.sentinel

/-- How the outcome of a change of the store shows in a session. -/
def Shows
    (session : Session σ τ α)
    (operation : SessionM σ τ α Unit) :
    Except (StoreFault α) (Store α) → Prop
  | .ok store =>
      ∃ next, operation session = .ok () next ∧ Leaves session next store
  | .error fault =>
      ∃ next, operation session = .error (.store fault) next ∧
        Leaves session next session.store

/-- A change of the store behind a step that keeps store and sentinel. -/
theorem edit_shows
    {prepare : Session σ τ α → Session σ τ α}
    (session : Session σ τ α)
    (change : Session σ τ α → Except (StoreFault α) (Store α))
    (keepsStore : (prepare session).store = session.store)
    (keepsSentinel : (prepare session).sentinel = session.sentinel) :
    Shows session
      (do
        modify prepare
        Session.edit change)
      (change (prepare session)) := by
  cases outcome : change (prepare session) with
  | ok store =>
      refine ⟨{ prepare session with store := store }, ?_, rfl, keepsSentinel⟩
      change (Session.edit change) (prepare session) = _
      simp only [Session.edit, bind, EStateM.bind, get, getThe,
        MonadStateOf.get, EStateM.get, outcome]
      rfl
  | error fault =>
      refine ⟨prepare session, ?_, keepsStore, keepsSentinel⟩
      change (Session.edit change) (prepare session) = _
      simp only [Session.edit, bind, EStateM.bind, get, getThe,
        MonadStateOf.get, EStateM.get, outcome]
      rfl

end Shows

/--
A session performs an edit as its store does, and keeps the store if the store
refuses it.
-/
theorem perform_shows
    (edit : Edit α)
    (session : Session σ τ α) :
    Shows session edit.perform
      (edit.onStore session.sentinel session.store) := by
  cases edit with
  | load program =>
      exact
        edit_shows session
          (fun session => Store.load session.sentinel program) rfl rfl
  | addRows rows =>
      exact
        edit_shows session
          (fun session => session.store.addRows session.sentinel rows) rfl rfl
  | deleteRows first last =>
      exact
        edit_shows session
          (fun session => session.store.deleteRows first last) rfl rfl
  | deleteRowSet flags =>
      have asEdit :
          (Edit.deleteRowSet flags).perform session =
            (do
              Session.dropFindings
              Session.edit fun session =>
                Prod.fst <$> session.store.deleteRowSet flags) session := by
        change discard (Session.deleteRowSet flags) session = _
        cases outcome : session.store.deleteRowSet flags <;>
          simp [discard, Session.deleteRowSet, Session.dropFindings,
            Session.edit, SessionM.liftExcept, outcome, bind, EStateM.bind,
            modify, modifyGet, MonadStateOf.modifyGet, EStateM.modifyGet,
            get, getThe, MonadStateOf.get, EStateM.get, Functor.map,
            Functor.mapConst, EStateM.map, Except.map, pure, EStateM.pure,
            throw, throwThe, MonadExceptOf.throw, EStateM.throw]
      have shows :
          Shows session
            (do
              Session.dropFindings
              Session.edit fun session =>
                Prod.fst <$> session.store.deleteRowSet flags)
            (Prod.fst <$> session.store.deleteRowSet flags) :=
        edit_shows session
          (fun session => Prod.fst <$> session.store.deleteRowSet flags) rfl rfl
      unfold Shows at shows ⊢
      rw [asEdit]
      exact shows
  | changeObjective vars values =>
      exact
        edit_shows session
          (fun session => session.store.changeObjective vars values) rfl rfl
  | changeBounds vars lowers uppers =>
      exact
        edit_shows session
          (fun session =>
            session.store.changeBounds session.sentinel vars lowers uppers)
          rfl rfl
  | changeSides rows lefts rights =>
      exact
        edit_shows session
          (fun session =>
            session.store.changeSides session.sentinel rows lefts rights)
          rfl rfl
  | clear =>
      exact ⟨_, rfl, rfl, rfl⟩

section Steps

variable
  {session : Session σ τ α}
  {program : Program α}

/-- A well formed edit is accepted, and the store then holds the edited program. -/
theorem performed_of_wellFormed
    {edit : Edit α}
    (represents : session.store.Represents program)
    (wellFormed : edit.WellFormed session.sentinel program) :
    edit.Accepted session ∧
      (performed session edit).store.Represents (edit.apply program) ∧
      (performed session edit).sentinel = session.sentinel := by
  have onStore :
      edit.onStore session.sentinel session.store =
        .ok (edit.editedStore session.store) :=
    (onStore_eq_ok represents edit).mpr ⟨wellFormed, rfl⟩
  have shows := perform_shows edit session
  rw [onStore] at shows
  obtain ⟨next, accepted, sameStore, sameSentinel⟩ := shows
  refine ⟨⟨next, accepted⟩, ?_, ?_⟩
  · rw [performed, accepted]
    simp only [sameStore]
    exact editedStore_represents represents wellFormed
  · rw [performed, accepted]
    exact sameSentinel

/-- A malformed edit is refused, and the store stays what it was. -/
theorem performed_of_malformed
    {edit : Edit α}
    (represents : session.store.Represents program)
    (malformed : ¬ edit.WellFormed session.sentinel program) :
    ¬ edit.Accepted session ∧
      (performed session edit).store = session.store ∧
      (performed session edit).sentinel = session.sentinel := by
  have shows := perform_shows edit session
  cases outcome : edit.onStore session.sentinel session.store with
  | ok store =>
      exact absurd ((onStore_eq_ok represents edit).mp outcome).1 malformed
  | error fault =>
      rw [outcome] at shows
      obtain ⟨next, refused, sameStore, sameSentinel⟩ := shows
      refine ⟨?_, ?_, ?_⟩
      · rintro ⟨other, accepted⟩
        rw [refused] at accepted
        cases accepted
      · rw [performed, refused]
        exact sameStore
      · rw [performed, refused]
        exact sameSentinel

/-- An edit is accepted exactly if it is well formed for the program in the store. -/
theorem accepted_iff
    (represents : session.store.Represents program)
    (edit : Edit α) :
    edit.Accepted session ↔ edit.WellFormed session.sentinel program := by
  constructor
  · intro accepted
    by_contra malformed
    exact (performed_of_malformed represents malformed).1 accepted
  · intro wellFormed
    exact (performed_of_wellFormed represents wellFormed).1

/-- After any edit the store holds the program after this edit. -/
theorem performed_represents
    (represents : session.store.Represents program)
    (edit : Edit α) :
    (performed session edit).store.Represents
        (edit.applied session.sentinel program) ∧
      (performed session edit).sentinel = session.sentinel := by
  by_cases wellFormed : edit.WellFormed session.sentinel program
  · rw [applied, if_pos wellFormed]
    exact (performed_of_wellFormed represents wellFormed).2
  · obtain ⟨_, sameStore, sameSentinel⟩ :=
      performed_of_malformed represents wellFormed
    rw [applied, if_neg wellFormed, sameStore]
    exact ⟨represents, sameSentinel⟩

end Steps

/-- After any sequence of edits the store holds the program after these edits. -/
theorem foldl_performed_represents
    {session : Session σ τ α}
    {program : Program α}
    (represents : session.store.Represents program)
    (edits : List (Edit α)) :
    (edits.foldl performed session).store.Represents
        (edits.foldl (applied session.sentinel) program) ∧
      (edits.foldl performed session).sentinel = session.sentinel := by
  induction edits generalizing session program with
  | nil =>
      exact ⟨represents, rfl⟩
  | cons edit rest inductionHypothesis =>
      obtain ⟨next, sameSentinel⟩ := performed_represents represents edit
      have later := inductionHypothesis next
      rw [sameSentinel] at later
      exact later

end Sessions

end Edit

/--
After any sequence of edits of a new session, the list view of the store is the
program that these edits make of the empty one, and the store is well formed.
The next edit is accepted exactly if it is well formed, and a refused one leaves
the store as it is.
-/
theorem store_refines_program
    {σ τ α : Type}
    [Scalar α]
    [Solver σ α]
    (sentinel : α)
    (settings : Settings α)
    (solver : σ)
    (oneVariable : τ)
    (edits : List (Edit α))
    (edit : Edit α) :
    let session :=
      edits.foldl Edit.performed
        (Session.assemble sentinel settings solver oneVariable)
    let program :=
      edits.foldl (Edit.applied sentinel) Program.empty.filled
    session.store.toProgram = program ∧
      session.store.WellFormed ∧
      (edit.Accepted session ↔ edit.WellFormed sentinel program) ∧
      (¬ edit.Accepted session →
        (Edit.performed session edit).store = session.store) := by
  intro session program
  have start :
      (Session.assemble sentinel settings solver oneVariable).store.Represents
        Program.empty.filled :=
    Store.empty_represents
  obtain ⟨represents, sameSentinel⟩ :=
    Edit.foldl_performed_represents start edits
  have accepted := Edit.accepted_iff represents edit
  rw [sameSentinel] at accepted
  refine ⟨represents.toProgram_eq, represents.wellFormed, accepted, ?_⟩
  intro refused
  refine (Edit.performed_of_malformed represents ?_).2.1
  rw [sameSentinel]
  exact fun wellFormed => refused (accepted.mpr wellFormed)

end SdpRelay
