import Mathlib
import SdpRelay.Problem.RowTable

namespace SdpRelay

/-!
# Compressed rows and lists of rows

Every table that the operations of this library build is the table of a list of
rows: `RowTable.ofRows` writes it down in one go.  On such tables `toRows` gives
the list back, and appending, deleting and changing sides act on the list.  The
shape of a table (where rows start, how long the shared lists are) is then a
property of `ofRows` alone.
-/

namespace LinearRow

variable {α : Type}

/-- A row lists as many coefficients as variables. -/
def Balanced (row : LinearRow α) : Prop :=
  row.vars.length = row.coefs.length

instance (row : LinearRow α) : Decidable row.Balanced :=
  inferInstanceAs (Decidable (_ = _))

/-- Replace the sides of a row. -/
def withSides
    (row : LinearRow α)
    (left right : α) :
    LinearRow α :=
  { row with left := left, right := right }

end LinearRow

namespace RowTable

variable {α : Type}

/-- How many positions of the shared lists some rows take up. -/
def width (rows : List (LinearRow α)) : Nat :=
  (rows.flatMap LinearRow.vars).length

/-- The positions at which rows end if the first one starts at `base`. -/
def rowEnds : Nat → List (LinearRow α) → List Nat
  | _, [] => []
  | base, row :: rest =>
      (base + row.vars.length) :: rowEnds (base + row.vars.length) rest

/-- The table of a list of rows. -/
def ofRows (rows : List (LinearRow α)) : RowTable α :=
  {
    lefts := rows.map LinearRow.left
    rights := rows.map LinearRow.right
    starts := 0 :: rowEnds 0 rows
    vars := rows.flatMap LinearRow.vars
    coefs := rows.flatMap LinearRow.coefs
  }

/-- The unflagged items of a list. -/
def unflagged
    {β : Type}
    (flags : List Bool)
    (items : List β) :
    List β :=
  ((flags.zip items).filter fun (flag, _) => !flag).map Prod.snd

/--
The shape of a table: rows start at zero, in order and one behind the other, the
last one ends where the shared lists end, and those have one length.
-/
structure WellFormed (table : RowTable α) : Prop where
  firstStart : table.starts.head? = some 0
  startsSorted : table.starts.Pairwise (· ≤ ·)
  startCount : table.starts.length = table.rowCount + 1
  lastEnd : table.starts.getLast? = some table.vars.length
  coefCount : table.coefs.length = table.vars.length
  rightCount : table.rights.length = table.rowCount

@[simp] theorem width_nil : width ([] : List (LinearRow α)) = 0 :=
  rfl

@[simp] theorem width_cons (row : LinearRow α) (rest : List (LinearRow α)) :
    width (row :: rest) = row.vars.length + width rest := by
  simp [width]

@[simp] theorem width_append (first second : List (LinearRow α)) :
    width (first ++ second) = width first + width second := by
  simp [width]

/-- Balanced rows take up as many coefficients as variables. -/
theorem length_flatMap_coefs
    {rows : List (LinearRow α)}
    (balanced : ∀ row ∈ rows, row.Balanced) :
    (rows.flatMap LinearRow.coefs).length = width rows := by
  induction rows with
  | nil =>
      rfl
  | cons row rest inductionHypothesis =>
      have headBalanced : row.vars.length = row.coefs.length :=
        balanced row (by simp)
      have restLength :=
        inductionHypothesis
          (fun later member => balanced later (by simp [member]))
      simp only [List.flatMap_cons, List.length_append, width_cons]
      rw [restLength, headBalanced]

@[simp] theorem length_rowEnds
    (base : Nat)
    (rows : List (LinearRow α)) :
    (rowEnds base rows).length = rows.length := by
  induction rows generalizing base with
  | nil =>
      rfl
  | cons row rest inductionHypothesis =>
      simp [rowEnds, inductionHypothesis]

/-- Later rows end behind the earlier ones. -/
theorem rowEnds_append
    (base : Nat)
    (first second : List (LinearRow α)) :
    rowEnds base (first ++ second) =
      rowEnds base first ++ rowEnds (base + width first) second := by
  induction first generalizing base with
  | nil =>
      simp [rowEnds]
  | cons row rest inductionHypothesis =>
      simp [rowEnds, inductionHypothesis, Nat.add_assoc]

theorem rowEnds_shift
    (base amount : Nat)
    (rows : List (LinearRow α)) :
    (rowEnds (base + amount) rows).map (· - amount) =
      rowEnds base rows := by
  induction rows generalizing base with
  | nil =>
      rfl
  | cons row rest inductionHypothesis =>
      have moved :
          base + amount + row.vars.length =
            base + row.vars.length + amount := by
        omega
      simp only [rowEnds, List.map_cons, moved,
        Nat.add_sub_cancel, inductionHypothesis]

theorem base_le_of_mem_rowEnds
    {base stop : Nat}
    (rows : List (LinearRow α))
    (member : stop ∈ rowEnds base rows) :
    base ≤ stop := by
  induction rows generalizing base with
  | nil =>
      simp [rowEnds] at member
  | cons row rest inductionHypothesis =>
      simp only [rowEnds, List.mem_cons] at member
      rcases member with isHead | inRest
      · omega
      · have := inductionHypothesis inRest
        omega

theorem rowEnds_sorted
    (base : Nat)
    (rows : List (LinearRow α)) :
    (base :: rowEnds base rows).Pairwise (· ≤ ·) := by
  induction rows generalizing base with
  | nil =>
      simp [rowEnds]
  | cons row rest inductionHypothesis =>
      refine List.pairwise_cons.mpr ⟨?_, inductionHypothesis _⟩
      intro stop member
      exact base_le_of_mem_rowEnds (row :: rest) member

theorem getLast?_rowEnds
    (base : Nat)
    (rows : List (LinearRow α)) :
    (base :: rowEnds base rows).getLast? = some (base + width rows) := by
  induction rows generalizing base with
  | nil =>
      rfl
  | cons row rest inductionHypothesis =>
      rw [rowEnds, List.getLast?_cons_cons, inductionHypothesis]
      simp [Nat.add_assoc]

theorem getD_rowEnds
    (base : Nat)
    (before after : List (LinearRow α)) :
    (base :: rowEnds base (before ++ after)).getD before.length 0 =
      base + width before := by
  induction before generalizing base with
  | nil =>
      rfl
  | cons row rest inductionHypothesis =>
      have later := inductionHypothesis (base + row.vars.length)
      simpa [rowEnds, Nat.add_assoc] using later

theorem start_ofRows
    (before after : List (LinearRow α)) :
    (ofRows (before ++ after)).start before.length = width before := by
  have behind := getD_rowEnds 0 before after
  simpa [start, ofRows] using behind

/-- Rows are handed back as they were put in, one by one. -/
private theorem owned_ofRows
    {β : Type}
    (part : LinearRow α → List β)
    (before after : List (LinearRow α))
    (row : LinearRow α)
    (beforeLength : (before.flatMap part).length = width before)
    (rowLength : (part row).length = row.vars.length) :
    (ofRows (before ++ row :: after)).owned before.length
        ((before ++ row :: after).flatMap part) =
      part row := by
  have begins :
      (ofRows (before ++ row :: after)).start before.length =
        (before.flatMap part).length := by
    rw [start_ofRows, beforeLength]
  have ends :
      (ofRows (before ++ row :: after)).start (before.length + 1) =
        (before.flatMap part).length + (part row).length := by
    have behind := start_ofRows (before ++ [row]) after
    simp only [List.append_assoc, List.singleton_append,
      List.length_append, List.length_singleton, width_append,
      width_cons, width_nil, Nat.add_zero] at behind
    rw [behind, beforeLength, rowLength]
  rw [owned, begins, ends]
  simp [List.take_append]

/-- The table of balanced rows lists these rows. -/
theorem toRows_ofRows
    {rows : List (LinearRow α)}
    (balanced : ∀ row ∈ rows, row.Balanced) :
    (ofRows rows).toRows = rows := by
  apply List.ext_getElem
  · simp [toRows, ofRows]
  · intro i _ inRows
    have split :
        rows = rows.take i ++ rows[i] :: rows.drop (i + 1) := by
      rw [List.getElem_cons_drop, List.take_append_drop]
    have earlierBalanced :
        ∀ row ∈ rows.take i, row.Balanced :=
      fun row member => balanced row (List.mem_of_mem_take member)
    have rowBalanced : rows[i].vars.length = rows[i].coefs.length :=
      balanced _ (List.getElem_mem inRows)
    have takeLength : (rows.take i).length = i := by
      simp only [List.length_take]
      omega
    have varsOwned :=
      owned_ofRows LinearRow.vars (rows.take i) (rows.drop (i + 1)) rows[i]
        rfl rfl
    have coefsOwned :=
      owned_ofRows LinearRow.coefs (rows.take i) (rows.drop (i + 1)) rows[i]
        (length_flatMap_coefs earlierBalanced) rowBalanced.symm
    rw [← split, takeLength] at varsOwned coefsOwned
    simp [toRows, ofRows] at varsOwned coefsOwned ⊢
    rw [varsOwned, coefsOwned]

/-- The table without rows is the table of no rows. -/
theorem ofRows_nil : ofRows ([] : List (LinearRow α)) = empty :=
  rfl

@[simp] theorem rowCount_ofRows (rows : List (LinearRow α)) :
    (ofRows rows).rowCount = rows.length := by
  simp [rowCount, ofRows]

/-- Appending a row appends it to the list. -/
theorem push_ofRows
    (rows : List (LinearRow α))
    (row : LinearRow α) :
    (ofRows rows).push row = ofRows (rows ++ [row]) := by
  simp [push, ofRows, rowEnds_append, rowEnds, width]

/-- Appending rows appends them to the list. -/
theorem pushAll_ofRows
    (rows added : List (LinearRow α)) :
    (ofRows rows).pushAll added = ofRows (rows ++ added) := by
  induction added generalizing rows with
  | nil =>
      simp [pushAll]
  | cons row rest inductionHypothesis =>
      have later := inductionHypothesis (rows ++ [row])
      simp only [pushAll] at later
      simp only [pushAll, List.foldl_cons, push_ofRows, later,
        List.append_assoc, List.singleton_append]

private theorem cut_append
    {β : Type}
    (before middle after : List β) :
    cut (before ++ middle ++ after)
        before.length (before.length + middle.length) =
      before ++ after := by
  simp [cut, List.drop_append]

/-- Deleting the rows between some others leaves the others. -/
theorem deleteRange_ofRows
    {last : Nat}
    (before middle after : List (LinearRow α))
    (balanced : ∀ row ∈ before ++ middle ++ after, row.Balanced)
    (lastOfMiddle : last + 1 = before.length + middle.length) :
    (ofRows (before ++ middle ++ after)).deleteRange before.length last =
      ofRows (before ++ after) := by
  have begins :
      (ofRows (before ++ middle ++ after)).start before.length =
        width before := by
    rw [List.append_assoc, start_ofRows]
  have ends :
      (ofRows (before ++ middle ++ after)).start (last + 1) =
        width before + width middle := by
    have behind := start_ofRows (before ++ middle) after
    simpa [lastOfMiddle] using behind
  have beforeCoefs :
      (before.flatMap LinearRow.coefs).length = width before :=
    length_flatMap_coefs (fun row member => balanced row (by simp [member]))
  have middleCoefs :
      (middle.flatMap LinearRow.coefs).length = width middle :=
    length_flatMap_coefs (fun row member => balanced row (by simp [member]))
  have lefts :=
    cut_append (before.map LinearRow.left)
      (middle.map LinearRow.left) (after.map LinearRow.left)
  have rights :=
    cut_append (before.map LinearRow.right)
      (middle.map LinearRow.right) (after.map LinearRow.right)
  have vars :=
    cut_append (before.flatMap LinearRow.vars)
      (middle.flatMap LinearRow.vars) (after.flatMap LinearRow.vars)
  have coefs :=
    cut_append (before.flatMap LinearRow.coefs)
      (middle.flatMap LinearRow.coefs) (after.flatMap LinearRow.coefs)
  rw [beforeCoefs, middleCoefs] at coefs
  have firstStarts :
      (0 :: rowEnds 0 (before ++ middle ++ after)).take
          (before.length + 1) =
        0 :: rowEnds 0 before := by
    simp [List.append_assoc, rowEnds_append]
  have laterStarts :
      (0 :: rowEnds 0 (before ++ middle ++ after)).drop (last + 2) =
        rowEnds (width before + width middle) after := by
    rw [show last + 2 = (before.length + middle.length) + 1 by omega,
      List.drop_succ_cons, rowEnds_append]
    simp
  rw [deleteRange, begins, ends]
  simp only [ofRows, lastOfMiddle, firstStarts, laterStarts,
    Nat.add_sub_cancel_left, rowEnds_shift]
  simp only [List.length_map, List.map_append, List.flatMap_append,
    width, rowEnds_append, List.cons_append, Nat.zero_add] at lefts rights vars coefs ⊢
  rw [lefts, rights, vars, coefs]

/-- Deleting flagged rows keeps the unflagged ones. -/
theorem deleteFlagged_ofRows
    {flags : List Bool}
    {rows : List (LinearRow α)}
    (before : List (LinearRow α))
    (balanced : ∀ row ∈ before ++ rows, row.Balanced)
    (sameLength : flags.length = rows.length) :
    deleteFlagged flags before.length (ofRows (before ++ rows)) =
      ofRows (before ++ unflagged flags rows) := by
  induction flags generalizing before rows with
  | nil =>
      have noRows : rows = [] :=
        List.length_eq_zero_iff.mp sameLength.symm
      simp [noRows, deleteFlagged, unflagged]
  | cons flag flags inductionHypothesis =>
      cases rows with
      | nil =>
          simp at sameLength
      | cons row rest =>
          have restLength : flags.length = rest.length := by
            simpa using sameLength
          cases flag with
          | true =>
              have deleted :
                  (ofRows (before ++ row :: rest)).deleteRange
                      before.length before.length =
                    ofRows (before ++ rest) := by
                have lastOfMiddle :
                    before.length + 1 = before.length + [row].length :=
                  rfl
                have single :=
                  deleteRange_ofRows before [row] rest
                    (by simpa using balanced) lastOfMiddle
                simpa using single
              rw [deleteFlagged, deleted,
                inductionHypothesis before
                  (fun later member =>
                    balanced later (by simp at member ⊢; tauto))
                  restLength]
              simp [unflagged]
          | false =>
              have kept :=
                inductionHypothesis (before ++ [row])
                  (by simpa using balanced) restLength
              simp only [List.append_assoc, List.singleton_append,
                List.length_append, List.length_singleton] at kept
              rw [deleteFlagged, kept]
              simp [unflagged]

theorem rowEnds_congr
    {rows others : List (LinearRow α)}
    (sameVars : rows.map LinearRow.vars = others.map LinearRow.vars)
    (base : Nat) :
    rowEnds base rows = rowEnds base others := by
  induction rows generalizing others base with
  | nil =>
      have noOthers : others = [] := by
        simpa using sameVars.symm
      rw [noOthers]
  | cons row rest inductionHypothesis =>
      cases others with
      | nil =>
          simp at sameVars
      | cons other later =>
          simp only [List.map_cons, List.cons.injEq] at sameVars
          simp only [rowEnds, sameVars.1,
            inductionHypothesis sameVars.2]

/-- Changing sides keeps every part of the rows that does not depend on them. -/
private theorem map_modify_withSides
    {β : Type}
    (part : LinearRow α → β)
    (left right : α)
    (same :
      ∀ row : LinearRow α, part (row.withSides left right) = part row)
    (rows : List (LinearRow α))
    (i : Nat) :
    (rows.modify i fun row => row.withSides left right).map part =
      rows.map part := by
  apply List.ext_getElem?
  intro j
  simp only [List.getElem?_map, List.getElem?_modify]
  by_cases atRow : i = j
  · cases rows[j]? <;> simp [atRow, same]
  · cases rows[j]? <;> simp [atRow]

/-- Changing sides replaces one item in a list of sides. -/
private theorem map_modify_side
    (part : LinearRow α → α)
    {value : α}
    (left right : α)
    (changed :
      ∀ row : LinearRow α, part (row.withSides left right) = value)
    (rows : List (LinearRow α))
    (i : Nat) :
    (rows.modify i fun row => row.withSides left right).map part =
      (rows.map part).set i value := by
  apply List.ext_getElem?
  intro j
  simp only [List.getElem?_map, List.getElem?_modify, List.getElem?_set,
    List.length_map]
  by_cases atRow : i = j
  · cases found : rows[j]? with
    | none =>
        have outside := List.getElem?_eq_none_iff.mp found
        simp [atRow, Nat.not_lt.mpr outside]
    | some row =>
        obtain ⟨inside, _⟩ := List.getElem?_eq_some_iff.mp found
        simp [atRow, changed, inside]
  · cases rows[j]? <;> simp [atRow]

/-- Changing the sides of a row changes them in the list. -/
theorem setSides_ofRows
    (rows : List (LinearRow α))
    (i : Nat)
    (left right : α) :
    (ofRows rows).setSides i left right =
      ofRows (rows.modify i fun row => row.withSides left right) := by
  have lefts :=
    map_modify_side LinearRow.left left right (fun _ => rfl) rows i
  have rights :=
    map_modify_side LinearRow.right left right (fun _ => rfl) rows i
  have vars :=
    map_modify_withSides LinearRow.vars left right (fun _ => rfl) rows i
  have coefs :=
    map_modify_withSides LinearRow.coefs left right (fun _ => rfl) rows i
  simp only [ofRows, setSides, lefts, rights, List.flatMap_def,
    vars, coefs, rowEnds_congr vars]

/-- The table of balanced rows has the shape of a table. -/
theorem wellFormed_ofRows
    {rows : List (LinearRow α)}
    (balanced : ∀ row ∈ rows, row.Balanced) :
    (ofRows rows).WellFormed where
  firstStart := rfl
  startsSorted := rowEnds_sorted 0 rows
  startCount := by
    simp [ofRows, rowCount]
  lastEnd := by
    simpa [ofRows, width] using getLast?_rowEnds 0 rows
  coefCount := length_flatMap_coefs balanced
  rightCount := by
    simp [ofRows, rowCount]

end RowTable

end SdpRelay
