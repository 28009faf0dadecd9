import SdpRelay.Proofs.RepeatedPresolve
import SdpRelay.Proofs.SessionHistory

namespace SdpRelay

/-!
# The kept rows and their positions

Every pass, complete or not, leaves a table in the shape of a table and positions
that count the kept rows in the order of the stored ones.  The pass builds both from
what each visit keeps, `KeptRows.ofVisits`, so the shape is a matter of that fold
alone.

What the kept rows are about is a matter of the bounds at the visits.  After a run
without contradiction the last pass has fixed nothing, and so it told free and fixed
variables apart as the final bounds do.
-/

namespace RowBox

section

variable {α : Type} [Scalar α]

/-- The terms that are left by the visits of a row are about variables of the row. -/
theorem visitAll_vars
    {var : Nat}
    (box : RowBox α)
    (leftIsFinite rightIsFinite : Bool)
    (progress : RowProgress α)
    (terms : List (Nat × α))
    (member :
      var ∈
        (RowProgress.visitAll box leftIsFinite rightIsFinite progress
          terms).2.map Prod.fst) :
    var ∈ terms.map Prod.fst := by
  induction progress, terms using
      RowProgress.visitAll.induct box leftIsFinite rightIsFinite with
  | case1 progress =>
      rwa [RowProgress.visitAll] at member
  | case2 progress first coef rest visited final kept result
      inductionHypothesis =>
      rw [RowProgress.visitAll, visited] at member
      rcases List.mem_cons.mp member with isFirst | later
      · exact List.mem_cons.mpr (.inl isFirst)
      · exact List.mem_cons.mpr (.inr (inductionHypothesis later))
  | case3 progress first coef rest next reduced visited final kept result
      inductionHypothesis =>
      rw [RowProgress.visitAll, visited] at member
      rcases List.mem_cons.mp member with isFirst | later
      · exact List.mem_cons.mpr (.inl isFirst)
      · exact List.mem_cons.mpr (.inr (inductionHypothesis later))
  | case4 progress first coef rest next visited inductionHypothesis =>
      rw [RowProgress.visitAll, visited] at member
      obtain ⟨term, moved, isVar⟩ :=
        List.mem_map.mp (inductionHypothesis member)
      exact
        List.mem_map.mpr
          ⟨term, List.mem_cons_of_mem _ (mem_of_mem_lastToFront moved), isVar⟩

/-- A tightened row is about variables of the row. -/
theorem tighten_vars
    {var : Nat}
    (box : RowBox α)
    (terms : List (Nat × α))
    (left right : α)
    (member : var ∈ (box.tighten terms left right).terms.map Prod.fst) :
    var ∈ terms.map Prod.fst := by
  simp only [RowBox.tighten] at member
  split at member
  · exact member
  · split at member
    · exact member
    · split at member
      · exact member
      · split at member
        · exact member
        · exact visitAll_vars box _ _ _ terms member

end

end RowBox

namespace KeptRows

variable {α : Type}

/--
The shape of kept rows: a table, and for the stored rows seen the positions of those
that are kept, counted from zero in their order.
-/
structure WellFormed (kept : KeptRows α) : Prop where
  table : kept.table.WellFormed
  numbered : kept.positions.reduceOption = List.range kept.table.rowCount

theorem rowCount_ofVisits (visited : List (Option (LinearRow α))) :
    (ofVisits visited).table.rowCount = visited.reduceOption.length := by
  induction visited using List.reverseRecOn with
  | nil => rfl
  | append_singleton visited last inductionHypothesis =>
      rw [ofVisits_append_singleton, List.reduceOption_append,
        List.length_append, ← inductionHypothesis]
      cases last with
      | none => rfl
      | some row => simp [note, keep, RowTable.rowCount, RowTable.push]

/-- A row that is kept gets the number of rows kept before it. -/
theorem positions_ofVisits_append_singleton
    (visited : List (Option (LinearRow α)))
    (last : Option (LinearRow α)) :
    (ofVisits (visited ++ [last])).positions =
      (ofVisits visited).positions ++
        [last.map fun _ => visited.reduceOption.length] := by
  rw [ofVisits_append_singleton, ← rowCount_ofVisits]
  cases last <;> rfl

theorem length_positions_ofVisits (visited : List (Option (LinearRow α))) :
    (ofVisits visited).positions.length = visited.length := by
  have sameLength := congrArg List.length (isSome_positions_ofVisits visited)
  simpa using sameLength

/-- The rows that visits keep are numbered in order. -/
theorem reduceOption_positions_ofVisits
    (visited : List (Option (LinearRow α))) :
    (ofVisits visited).positions.reduceOption =
      List.range visited.reduceOption.length := by
  induction visited using List.reverseRecOn with
  | nil => rfl
  | append_singleton visited last inductionHypothesis =>
      rw [positions_ofVisits_append_singleton, List.reduceOption_append,
        List.reduceOption_append, inductionHypothesis]
      cases last with
      | none => simp
      | some row => simp [List.range_succ]

/-- What visits keep is well formed. -/
theorem wellFormed_ofVisits
    {visited : List (Option (LinearRow α))}
    (balanced : ∀ row, some row ∈ visited → row.Balanced) :
    (ofVisits visited).WellFormed where
  table := by
    have lists := ofVisits_lists balanced
    rw [lists.table]
    exact RowTable.wellFormed_ofRows lists.balanced
  numbered := by
    rw [rowCount_ofVisits]
    exact reduceOption_positions_ofVisits visited

/-- The position of a row that is kept is the one at which it is listed. -/
theorem listed_of_position
    {visited : List (Option (LinearRow α))}
    {index position : Nat}
    (isKept : (ofVisits visited).positions[index]? = some (some position)) :
    ∃ row,
      visited[index]? = some (some row) ∧
        visited.reduceOption[position]? = some row := by
  induction visited using List.reverseRecOn with
  | nil => cases isKept
  | append_singleton visited last inductionHypothesis =>
      have positionCount := length_positions_ofVisits visited
      rw [List.reduceOption_append]
      rw [positions_ofVisits_append_singleton] at isKept
      rcases Nat.lt_or_ge index visited.length with earlier | atEnd
      · rw [List.getElem?_append_left (by omega)] at isKept
        obtain ⟨row, visitedRow, listedRow⟩ := inductionHypothesis isKept
        obtain ⟨inList, _⟩ := List.getElem?_eq_some_iff.mp listedRow
        exact
          ⟨row, by rw [List.getElem?_append_left earlier]; exact visitedRow,
            by rw [List.getElem?_append_left inList]; exact listedRow⟩
      · rw [List.getElem?_append_right (by omega),
          List.getElem?_singleton] at isKept
        simp only [Option.ite_none_right_eq_some, Option.some.injEq,
          Option.map_eq_some_iff] at isKept
        obtain ⟨isLast, row, rfl, rfl⟩ := isKept
        have isIndex : index = visited.length := by omega
        exact ⟨row, by simp [isIndex], by simp⟩

/-- A row without a position is one of which nothing was kept. -/
theorem position_of_none
    {visited : List (Option (LinearRow α))}
    {index : Nat}
    (notKept : visited[index]? = some none) :
    (ofVisits visited).positions[index]? = some none := by
  have sameAt :=
    congrArg (fun flags => flags[index]?) (isSome_positions_ofVisits visited)
  simpa [notKept] using sameAt

end KeptRows

namespace RowPass

section Kept

variable
  {α : Type}
  [Scalar α]
  {store : Store α}
  {sentinel : α}
  {settings : Settings α}

/-- What visits keep is balanced. -/
theorem balanced_of_visits
    {integral : List Bool}
    {row : LinearRow α}
    (visits : List (Bounds α × LinearRow α))
    (member :
      some row ∈
        visits.map fun visit =>
          keptRow? sentinel settings integral visit.1 visit.2) :
    row.Balanced := by
  obtain ⟨_, _, isKept⟩ := List.mem_map.mp member
  exact balanced_of_keptRow? isKept

/-- A pass leaves well-formed rows, also one that stops at a contradiction. -/
theorem run_wellFormed
    (store : Store α)
    (sentinel : α)
    (settings : Settings α)
    (bounds : Bounds α) :
    (run store sentinel settings bounds).kept.WellFormed := by
  rw [run_kept]
  exact KeptRows.wellFormed_ofVisits fun _ => balanced_of_visits _

/-- So does a whole run, also one that ends with a contradiction. -/
theorem propagate_wellFormed
    {bounds : Bounds α}
    (inRange :
      ∀ row ∈ store.rows.toRows, ∀ var ∈ row.vars,
        var < bounds.lower.length) :
    (propagate store sentinel settings bounds).kept.WellFormed := by
  obtain ⟨last, _, _, isLast⟩ :=
    propagate_lastPass bounds sentinel settings inRange
  rw [isLast.kept]
  exact run_wellFormed store sentinel settings last

/-- A visit keeps only rows with several free terms, and only free variables of them. -/
theorem free_of_keptRow?
    {integral : List Bool}
    {bounds : Bounds α}
    {row kept : LinearRow α}
    (isKept : keptRow? sentinel settings integral bounds row = some kept) :
    2 ≤ (openTerms settings bounds row).length ∧
      ∀ var ∈ kept.vars,
        var ∈ row.vars ∧ ¬ bounds.Fixed settings.epsilon var := by
  have member := List.mem_of_mem_head? (Option.mem_def.mpr isKept)
  simp only [keptFrom] at member
  split at member
  · cases member
  · rename_i several
    rw [List.mem_singleton] at member
    subst member
    refine ⟨by omega, ?_⟩
    intro var inKept
    obtain ⟨⟨_, coef⟩, isOpen, rfl⟩ :=
      List.mem_map.mp (RowBox.tighten_vars _ _ _ _ inKept)
    obtain ⟨listed, _, notFixed⟩ := mem_openTerms isOpen
    exact ⟨(List.of_mem_zip listed).1, notFixed⟩

/-- At the end of a run without contradiction, the rows kept are those of its last pass. -/
theorem propagate_kept
    {bounds : Bounds α}
    (inRange :
      ∀ row ∈ store.rows.toRows, ∀ var ∈ row.vars,
        var < bounds.lower.length)
    (feasible :
      (propagate store sentinel settings bounds).summary.infeasible = false) :
    ∃ visits : List (Bounds α × LinearRow α),
      visits.map Prod.snd = store.rows.toRows ∧
        (propagate store sentinel settings bounds).kept =
          KeptRows.ofVisits
            (visits.map fun visit =>
              keptRow? sentinel settings store.integral visit.1 visit.2) ∧
        ∀ visit ∈ visits, ∀ var,
          visit.1.Fixed settings.epsilon var ↔
            (propagate store sentinel settings bounds).bounds.Fixed
              settings.epsilon var := by
  obtain ⟨last, sameLength, _, isLast⟩ :=
    propagate_lastPass bounds sentinel settings inRange
  refine
    ⟨passVisits store sentinel settings last, rowVisits_rows 0 ?_,
      isLast.kept.trans (run_kept last), ?_⟩
  · exact isLast.infeasible.symm.trans feasible
  · intro visit member var
    exact
      isLast.fixed_iff (by rw [sameLength]; exact inRange) feasible member var

end Kept

end RowPass

namespace Workspace

variable {α : Type} [Scalar α]

/--
The working rows of every pass are well formed, also of one that stops at a
contradiction.  After a run without contradiction there is one position for each
stored row, a kept row is about variables of its stored row that are free under the
final bounds, and a row with at most one free term under the final bounds is not
kept.
-/
theorem propagate_keeps_free_rows
    {store : Store α}
    {program : Program α}
    (work : Workspace α)
    (sentinel : α)
    (settings : Settings α)
    (represents : store.Represents program)
    (indexed : program.Indexed) :
    (work.passRows store sentinel settings).1.rows.WellFormed ∧
      let swept := work.propagate store sentinel settings
      work.bounds.lower.length = store.variableCount →
      swept.2.infeasible = false →
      swept.1.rows.WellFormed ∧
        swept.1.rows.positions.length = store.rows.rowCount ∧
        ∀ (index : Nat) (row : LinearRow α),
          program.rows[index]? = some row →
          (∀ position : Nat,
            swept.1.rows.positions[index]? = some (some position) →
            ∃ kept : LinearRow α,
              swept.1.rows.table.toRows[position]? = some kept ∧
                ∀ var ∈ kept.vars,
                  var ∈ row.vars ∧
                    ¬ swept.1.bounds.Fixed settings.epsilon var) ∧
          ((RowPass.openTerms settings swept.1.bounds row).length ≤ 1 →
            swept.1.rows.positions[index]? = some none) := by
  refine ⟨RowPass.run_wellFormed store sentinel settings work.bounds, ?_⟩
  intro swept oneForEach feasible
  have isRows : store.rows.toRows = program.rows := by
    rw [represents.rows, RowTable.toRows_ofRows represents.balanced]
  have inRange :
      ∀ row ∈ store.rows.toRows, ∀ var ∈ row.vars,
        var < work.bounds.lower.length := by
    rw [oneForEach, Store.variableCount, represents.objective, isRows]
    exact indexed.rows
  obtain ⟨visits, visited, isKept, sameFixed⟩ :=
    RowPass.propagate_kept inRange feasible
  rw [isRows] at visited
  have rowsKept :
      swept.1.rows =
        KeptRows.ofVisits
          (visits.map fun visit =>
            RowPass.keptRow? sentinel settings store.integral
              visit.1 visit.2) :=
    isKept
  refine ⟨RowPass.propagate_wellFormed inRange, ?_, ?_⟩
  · rw [rowsKept, KeptRows.length_positions_ofVisits, List.length_map,
      represents.rows, RowTable.rowCount_ofRows, ← visited, List.length_map]
  · intro index row stored
    obtain ⟨bounds, visitAt⟩ :
        ∃ bounds : Bounds α, visits[index]? = some (bounds, row) := by
      rw [← visited] at stored
      simpa using stored
    have finalFixed :
        ∀ var,
          bounds.Fixed settings.epsilon var ↔
            swept.1.bounds.Fixed settings.epsilon var :=
      sameFixed _ (List.mem_of_getElem? visitAt)
    constructor
    · intro position atPosition
      rw [rowsKept] at atPosition ⊢
      obtain ⟨kept, keptAt, listed⟩ :=
        KeptRows.listed_of_position atPosition
      rw [List.getElem?_map, visitAt, Option.map_some,
        Option.some.injEq] at keptAt
      refine ⟨kept, ?_, ?_⟩
      · rw [(KeptRows.ofVisits_lists fun _ =>
          RowPass.balanced_of_visits _).toRows_eq]
        exact listed
      · intro var inKept
        obtain ⟨inRow, notFixed⟩ :=
          (RowPass.free_of_keptRow? keptAt).2 var inKept
        exact ⟨inRow, fun isFixed => notFixed ((finalFixed var).mpr isFixed)⟩
    · intro fewOpen
      rw [← RowPass.openTerms_congr finalFixed] at fewOpen
      rw [rowsKept]
      refine KeptRows.position_of_none ?_
      rw [List.getElem?_map, visitAt, Option.map_some, Option.some.injEq]
      cases keptAt :
          RowPass.keptRow? sentinel settings store.integral bounds row with
      | none => rfl
      | some kept =>
          have several := (RowPass.free_of_keptRow? keptAt).1
          omega

/-- A run keeps one row of this program, after the fixing row has turned the other into bounds. -/
theorem propagate_keeps_free_rows_of_fixingProgram :
    let store := Store.ofProgram fixingProgram
    let swept :=
      (Workspace.empty.reset store Settings.standard).propagate store
        Session.standardSentinel Settings.standard
    swept.2.infeasible = false ∧
      swept.1.rows.WellFormed ∧
      swept.1.rows.positions = [none, none, some 0] ∧
      ∃ kept,
        swept.1.rows.table.toRows[0]? = some kept ∧
          ∀ var ∈ kept.vars,
            var ∈ [0, 1, 2] ∧
              ¬ swept.1.bounds.Fixed Settings.standard.epsilon var := by
  intro store swept
  have acceptable : fixingProgram.Acceptable Session.standardSentinel := by
    decide +kernel
  have indexed : fixingProgram.Indexed :=
    ⟨fun row member => (acceptable.rows row member).known, acceptable.blocks⟩
  have feasible : swept.2.infeasible = false := by decide +kernel
  have positions : swept.1.rows.positions = [none, none, some 0] := by
    decide +kernel
  obtain ⟨wellFormed, _, rows⟩ :=
    (propagate_keeps_free_rows
      (Workspace.empty.reset store Settings.standard)
      Session.standardSentinel Settings.standard
      (Store.ofProgram_represents acceptable)
      ⟨indexed.rows, indexed.blocks⟩).2 (by decide +kernel) feasible
  exact
    ⟨feasible, wellFormed, positions,
      (rows 2 _ rfl).1 0 (by rw [positions]; rfl)⟩

end Workspace

end SdpRelay
