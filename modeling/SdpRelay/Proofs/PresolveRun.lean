import Mathlib
import SdpRelay.Proofs.PresolveVisits

namespace SdpRelay

/-!
# Runs of the row presolve

What passes over the rows do, whatever the arithmetic is like.  A pass that fixes
something leaves fewer free variables, and the last pass of a run fixes nothing
or proves infeasibility.

The induction over the rows of a pass and the one over the passes of a run are
each made once, in `visitRows_run` and `repeated_run`.
-/

namespace RowPass

variable {α : Type} [Scalar α]

section Runs

variable
  (store : Store α)
  (sentinel : α)
  (settings : Settings α)
  (integral : List Bool)

/-- The rows that a scan visits, each with the bounds at its visit. -/
def rowVisits :
    Nat → List (LinearRow α) → RowPass α → List (Bounds α × LinearRow α)
  | _, [], _ => []
  | index, row :: rest, pass =>
      let next := pass.visitRow sentinel settings integral index row
      (pass.bounds, row) ::
        if next.summary.infeasible then
          []
        else
          rowVisits (index + 1) rest next

/-- The visits of one pass. -/
def passVisits (bounds : Bounds α) : List (Bounds α × LinearRow α) :=
  rowVisits sentinel settings store.integral 0 store.rows.toRows
    {
      bounds := bounds
      kept := KeptRows.empty
      summary := PassSummary.none
    }

/-- The visits of repeated passes. -/
def repeatedVisits : Nat → Bounds α → List (Bounds α × LinearRow α)
  | 0, _ => []
  | remaining + 1, bounds =>
      let next := run store sentinel settings bounds
      passVisits store sentinel settings bounds ++
        if next.summary.infeasible || !next.summary.fixedSome then
          []
        else
          repeatedVisits remaining next.bounds

/-- The visits of the last of repeated passes. -/
def lastVisits : Nat → Bounds α → List (Bounds α × LinearRow α)
  | 0, _ => []
  | remaining + 1, bounds =>
      let next := run store sentinel settings bounds
      if next.summary.infeasible || !next.summary.fixedSome then
        passVisits store sentinel settings bounds
      else
        lastVisits remaining next.bounds

/-- The visits of a whole run from the bounds of the store. -/
def propagateVisits : List (Bounds α × LinearRow α) :=
  repeatedVisits store sentinel settings (store.lower.length + 1)
    (Bounds.ofStored store.lower store.upper)

/-- The visits of the last pass of a whole run. -/
def finalVisits : List (Bounds α × LinearRow α) :=
  lastVisits store sentinel settings (store.lower.length + 1)
    (Bounds.ofStored store.lower store.upper)

variable {store sentinel settings integral}

/--
What one visit carries from the rows seen before to the rows seen after it, a
scan carries from none to all of them, unless it stops at a contradiction.
-/
theorem visitRows_run
    {motive : List (LinearRow α) → RowPass α → Prop}
    {rows : List (LinearRow α)}
    {pass : RowPass α}
    (good : Bounds α → LinearRow α → Prop)
    (seen : List (LinearRow α))
    (step :
      ∀ seen pass row, row ∈ rows → good pass.bounds row →
        motive seen pass →
        motive (seen ++ [row])
          (pass.visitRow sentinel settings integral seen.length row))
    (allGood :
      ∀ visit ∈ rowVisits sentinel settings integral seen.length rows pass,
        good visit.1 visit.2)
    (start : motive seen pass) :
    ∃ visited,
      visited <+: rows ∧
        motive (seen ++ visited)
          (visitRows sentinel settings integral seen.length rows pass) ∧
        ((visitRows sentinel settings integral seen.length rows
            pass).summary.infeasible = false →
          visited = rows) := by
  induction rows generalizing seen pass with
  | nil =>
      exact ⟨[], List.prefix_rfl, by simpa [visitRows] using start, fun _ => rfl⟩
  | cons row rest inductionHypothesis =>
      have headGood : good pass.bounds row :=
        allGood (pass.bounds, row) (by simp [rowVisits])
      have next := step seen pass row (by simp) headGood start
      rw [visitRows]
      by_cases stops :
          (pass.visitRow sentinel settings integral seen.length
            row).summary.infeasible = true
      · rw [if_pos stops]
        refine ⟨[row], by simp, next, ?_⟩
        intro feasible
        rw [stops] at feasible
        cases feasible
      · rw [if_neg stops]
        have restGood :
            ∀ visit ∈ rowVisits sentinel settings integral
                (seen ++ [row]).length rest
                (pass.visitRow sentinel settings integral seen.length row),
              good visit.1 visit.2 := by
          intro visit member
          apply allGood
          simp only [rowVisits, if_neg stops]
          simp only [List.length_append, List.length_singleton] at member
          exact List.mem_cons_of_mem _ member
        obtain ⟨visited, isPrefix, reached, complete⟩ :=
          inductionHypothesis (seen ++ [row])
            (fun seen pass row member =>
              step seen pass row (List.mem_cons_of_mem _ member))
            restGood next
        simp only [List.length_append, List.length_singleton,
          List.append_assoc, List.singleton_append] at reached complete
        refine ⟨row :: visited, ?_, reached, ?_⟩
        · exact List.cons_prefix_cons.mpr ⟨rfl, isPrefix⟩
        · intro feasible
          rw [complete feasible]

/--
What one visit carries from its bounds to the next ones holds at every visit of a
scan.
-/
theorem rowVisits_all
    {motive : Bounds α → Prop}
    {rows : List (LinearRow α)}
    {pass : RowPass α}
    (good : Bounds α → LinearRow α → Prop)
    (index : Nat)
    (step :
      ∀ index (pass : RowPass α) row, row ∈ rows → good pass.bounds row →
        motive pass.bounds →
        motive (pass.visitRow sentinel settings integral index row).bounds)
    (allGood :
      ∀ visit ∈ rowVisits sentinel settings integral index rows pass,
        good visit.1 visit.2)
    (start : motive pass.bounds) :
    ∀ visit ∈ rowVisits sentinel settings integral index rows pass,
      visit.2 ∈ rows ∧ motive visit.1 := by
  induction rows generalizing index pass with
  | nil =>
      intro visit member
      cases member
  | cons row rest inductionHypothesis =>
      intro visit member
      have headGood : good pass.bounds row :=
        allGood (pass.bounds, row) (by simp [rowVisits])
      rw [rowVisits] at member allGood
      rcases List.mem_cons.mp member with rfl | later
      · exact ⟨List.mem_cons_self, start⟩
      · split at later
        · cases later
        · rename_i continues
          rw [if_neg continues] at allGood
          obtain ⟨inRest, reached⟩ :=
            inductionHypothesis (index + 1)
              (fun index pass row member =>
                step index pass row (List.mem_cons_of_mem _ member))
              (fun visit member =>
                allGood visit (List.mem_cons_of_mem _ member))
              (step index pass row List.mem_cons_self headGood start)
              visit later
          exact ⟨List.mem_cons_of_mem _ inRest, reached⟩

/-- A scan without contradiction visits every row. -/
theorem rowVisits_rows
    {rows : List (LinearRow α)}
    {pass : RowPass α}
    (index : Nat)
    (feasible :
      (visitRows sentinel settings integral index rows
        pass).summary.infeasible = false) :
    (rowVisits sentinel settings integral index rows pass).map Prod.snd =
      rows := by
  induction rows generalizing index pass with
  | nil =>
      rfl
  | cons row rest inductionHypothesis =>
      rw [visitRows] at feasible
      rw [rowVisits, List.map_cons]
      split at feasible
      · rename_i stops
        rw [stops] at feasible
        cases feasible
      · rename_i continues
        rw [if_neg continues, inductionHypothesis (index + 1) feasible]

/-- A scan keeps, in order, the rows that its visits keep. -/
theorem visitRows_lists
    {rows kept : List (LinearRow α)}
    {pass : RowPass α}
    (index : Nat)
    (lists : pass.kept.Lists kept) :
    (visitRows sentinel settings integral index rows pass).kept.Lists
      (kept ++
        (rowVisits sentinel settings integral index rows pass).flatMap
          fun visit =>
            keptFrom sentinel settings integral visit.1 visit.2) := by
  induction rows generalizing index pass kept with
  | nil =>
      simpa [visitRows, rowVisits] using lists
  | cons row rest inductionHypothesis =>
      have next :
          (pass.visitRow sentinel settings integral index row).kept.Lists _ :=
        visitRow_lists sentinel integral index lists
      rw [visitRows, rowVisits, List.flatMap_cons, ← List.append_assoc]
      split
      · simpa using next
      · exact inductionHypothesis (index + 1) next

/--
A scan keeps what is fixed, and so does each part of it before and after a visit.
-/
theorem rowVisits_keepsFixed
    {rows : List (LinearRow α)}
    {variableCount : Nat}
    (pass : RowPass α)
    (index : Nat)
    (inRange : ∀ row ∈ rows, ∀ var ∈ row.vars, var < variableCount) :
    Bounds.KeepsFixed settings.epsilon pass.bounds
        (visitRows sentinel settings integral index rows pass).bounds ∧
      ∀ visit ∈ rowVisits sentinel settings integral index rows pass,
        Bounds.KeepsFixed settings.epsilon pass.bounds visit.1 ∧
          Bounds.KeepsFixed settings.epsilon visit.1
            (visitRows sentinel settings integral index rows pass).bounds := by
  induction rows generalizing index pass with
  | nil =>
      exact ⟨Bounds.KeepsFixed.refl pass.bounds, fun _ none => nomatch none⟩
  | cons row rest inductionHypothesis =>
      have first :
          Bounds.KeepsFixed settings.epsilon pass.bounds
            (pass.visitRow sentinel settings integral index row).bounds :=
        (visitRow_progress pass sentinel integral index
          (inRange row List.mem_cons_self)).keepsFixed
      rw [visitRows, rowVisits]
      split
      · refine ⟨first, ?_⟩
        intro visit member
        rw [List.mem_singleton.mp member]
        exact ⟨Bounds.KeepsFixed.refl pass.bounds, first⟩
      · obtain ⟨later, visits⟩ :=
          inductionHypothesis
            (pass.visitRow sentinel settings integral index row) (index + 1)
            (fun other member =>
              inRange other (List.mem_cons_of_mem _ member))
        refine ⟨first.trans later, ?_⟩
        intro visit member
        rcases List.mem_cons.mp member with rfl | inRest
        · exact ⟨Bounds.KeepsFixed.refl pass.bounds, first.trans later⟩
        · obtain ⟨before, after⟩ := visits visit inRest
          exact ⟨first.trans before, after⟩

/-- A pass over given bounds, before its first visit. -/
def atStart (bounds : Bounds α) : RowPass α :=
  {
    bounds := bounds
    kept := KeptRows.empty
    summary := PassSummary.none
  }

/--
What every visit carries on holds at the end of a pass, which has seen all rows or
stopped.
-/
theorem run_induction
    {motive : List (LinearRow α) → RowPass α → Prop}
    {start : Bounds α}
    (good : Bounds α → LinearRow α → Prop)
    (step :
      ∀ seen pass row, row ∈ store.rows.toRows → good pass.bounds row →
        motive seen pass →
        motive (seen ++ [row])
          (pass.visitRow sentinel settings store.integral seen.length row))
    (allGood :
      ∀ visit ∈ passVisits store sentinel settings start,
        good visit.1 visit.2)
    (atFirst : motive [] (atStart start)) :
    ∃ visited,
      visited <+: store.rows.toRows ∧
        motive visited (run store sentinel settings start) ∧
        ((run store sentinel settings start).summary.infeasible = false →
          visited = store.rows.toRows) :=
  visitRows_run good [] step allGood atFirst

/-- The rows that a pass keeps are those that its visits keep. -/
theorem run_keptRows (bounds : Bounds α) :
    (run store sentinel settings bounds).kept.table.toRows =
      (passVisits store sentinel settings bounds).flatMap
        fun visit =>
          keptFrom sentinel settings store.integral visit.1 visit.2 := by
  have lists :
      (run store sentinel settings bounds).kept.Lists _ :=
    visitRows_lists 0 KeptRows.Lists.empty
  rw [lists.toRows_eq, List.nil_append]
  rfl

/-- A pass over rows of the variables makes progress. -/
theorem run_progress
    {variableCount : Nat}
    (sentinel : α)
    (settings : Settings α)
    (bounds : Bounds α)
    (inRange :
      ∀ row ∈ store.rows.toRows, ∀ var ∈ row.vars, var < variableCount) :
    Progress settings variableCount (atStart bounds)
      (run store sentinel settings bounds) := by
  obtain ⟨_, _, progress, _⟩ :=
    run_induction
      (motive := fun _ pass =>
        Progress settings variableCount (atStart bounds) pass)
      (fun _ _ => True)
      (fun seen pass row member _ earlier =>
        earlier.trans
          (visitRow_progress pass sentinel store.integral seen.length
            (inRange row member)))
      (fun _ _ => trivial)
      (Progress.refl _)
  exact progress

/-- A pass that fixes a variable leaves fewer free ones. -/
theorem run_freeCount_lt
    {bounds : Bounds α}
    (inRange :
      ∀ row ∈ store.rows.toRows, ∀ var ∈ row.vars,
        var < bounds.lower.length)
    (feasible : (run store sentinel settings bounds).summary.infeasible = false)
    (fixes : (run store sentinel settings bounds).summary.fixedSome = true) :
    (run store sentinel settings bounds).bounds.freeCount settings.epsilon <
      bounds.freeCount settings.epsilon := by
  have progress := run_progress sentinel settings bounds inRange
  obtain ⟨var, varInRange, wasFree, isFixed⟩ :=
    progress.fixing feasible rfl fixes
  exact progress.keepsFixed.freeCount_lt varInRange wasFree isFixed

/--
The last pass of a run: it starts from some bounds, and it fixes nothing or stops.
-/
structure LastPass
    (store : Store α)
    (sentinel : α)
    (settings : Settings α)
    (start : Bounds α)
    (final : RowPass α) : Prop where
  bounds : final.bounds = (run store sentinel settings start).bounds
  kept : final.kept = (run store sentinel settings start).kept
  infeasible :
    final.summary.infeasible =
      (run store sentinel settings start).summary.infeasible
  settles :
    (run store sentinel settings start).summary.infeasible = true ∨
      (run store sentinel settings start).summary.fixedSome = false

/-- A last pass without contradiction fixes nothing. -/
theorem LastPass.fixesNothing
    {start : Bounds α}
    {final : RowPass α}
    (isLast : LastPass store sentinel settings start final)
    (feasible : final.summary.infeasible = false) :
    (run store sentinel settings start).summary.fixedSome = false := by
  rcases isLast.settles with infeasible | fixesNothing
  · rw [isLast.infeasible, infeasible] at feasible
    cases feasible
  · exact fixesNothing

/--
In a last pass without contradiction, the final fixed variables are fixed at every
visit.
-/
theorem LastPass.fixed_iff
    {start : Bounds α}
    {final : RowPass α}
    {visit : Bounds α × LinearRow α}
    (isLast : LastPass store sentinel settings start final)
    (inRange :
      ∀ row ∈ store.rows.toRows, ∀ var ∈ row.vars,
        var < start.lower.length)
    (feasible : final.summary.infeasible = false)
    (member : visit ∈ passVisits store sentinel settings start)
    (var : Nat) :
    visit.1.Fixed settings.epsilon var ↔
      final.bounds.Fixed settings.epsilon var := by
  have fixesNothing := isLast.fixesNothing feasible
  rw [isLast.infeasible] at feasible
  rw [isLast.bounds]
  have sameFixed :=
    (run_progress sentinel settings start inRange).fixed_iff feasible
      fixesNothing
  obtain ⟨before, after⟩ :=
    (rowVisits_keepsFixed (atStart start) 0 inRange).2 visit member
  constructor
  · intro isFixed
    exact after.fixed isFixed
  · intro isFixed
    exact before.fixed ((sameFixed var).mp isFixed)

/--
What every pass that fixes a variable carries on holds before the last pass, and
with as many passes as there are free variables and one more there is a last one.
-/
theorem repeated_run
    {motive : Bounds α → Prop}
    {fuel : Nat}
    (good : Bounds α → LinearRow α → Prop)
    (pass : RowPass α)
    (inRange :
      ∀ row ∈ store.rows.toRows, ∀ var ∈ row.vars,
        var < pass.bounds.lower.length)
    (step :
      ∀ bounds, motive bounds →
        (∀ visit ∈ passVisits store sentinel settings bounds,
          good visit.1 visit.2) →
        (run store sentinel settings bounds).summary.infeasible = false →
        motive (run store sentinel settings bounds).bounds)
    (allGood :
      ∀ visit ∈ repeatedVisits store sentinel settings fuel pass.bounds,
        good visit.1 visit.2)
    (enough : pass.bounds.freeCount settings.epsilon < fuel)
    (start : motive pass.bounds) :
    ∃ last,
      motive last ∧ last.lower.length = pass.bounds.lower.length ∧
        (∀ visit ∈ passVisits store sentinel settings last,
          good visit.1 visit.2) ∧
        lastVisits store sentinel settings fuel pass.bounds =
          passVisits store sentinel settings last ∧
        LastPass store sentinel settings last
          (repeated store sentinel settings fuel pass) := by
  induction fuel generalizing pass with
  | zero =>
      omega
  | succ fuel inductionHypothesis =>
      have passGood :
          ∀ visit ∈ passVisits store sentinel settings pass.bounds,
            good visit.1 visit.2 := by
        intro visit member
        apply allGood
        simp only [repeatedVisits, List.mem_append]
        exact .inl member
      rw [repeated]
      cases infeasible :
          (run store sentinel settings pass.bounds).summary.infeasible with
      | true =>
          refine
            ⟨pass.bounds, start, rfl, passGood,
              by simp [lastVisits, infeasible], ?_⟩
          simp only [Bool.true_or, ↓reduceIte]
          exact ⟨rfl, rfl, rfl, .inl infeasible⟩
      | false =>
          cases fixes :
              (run store sentinel settings pass.bounds).summary.fixedSome with
          | false =>
              refine
                ⟨pass.bounds, start, rfl, passGood,
                  by simp [lastVisits, fixes], ?_⟩
              simp only [Bool.not_false, Bool.or_true, ↓reduceIte]
              exact ⟨rfl, rfl, rfl, .inr fixes⟩
          | true =>
              simp only [Bool.not_true, Bool.or_self, Bool.false_eq_true,
                ↓reduceIte]
              have sameLength :
                  (run store sentinel settings pass.bounds).bounds.lower.length =
                    pass.bounds.lower.length :=
                (run_progress sentinel settings pass.bounds inRange).keepsFixed.lowerLength
              have fewer := run_freeCount_lt inRange infeasible fixes
              obtain
                ⟨last, reached, lastLength, lastGood, sameVisits, isLast⟩ :=
                inductionHypothesis
                  {
                    run store sentinel settings pass.bounds with
                    summary :=
                      pass.summary.followedBy
                        (run store sentinel settings pass.bounds).summary
                  }
                  (by rw [sameLength]; exact inRange)
                  (fun visit member => by
                    apply allGood
                    simp only [repeatedVisits, infeasible, fixes,
                      Bool.not_true, Bool.or_self, Bool.false_eq_true,
                      ↓reduceIte, List.mem_append]
                    exact .inr member)
                  (by simp only; omega)
                  (step pass.bounds start passGood infeasible)
              refine
                ⟨last, reached, lastLength.trans sameLength, lastGood, ?_,
                  isLast⟩
              rw [← sameVisits]
              simp [lastVisits, infeasible, fixes]

/--
What every visit carries from its bounds to the next ones holds at every visit of
repeated passes and at their end.
-/
theorem repeatedVisits_all
    {motive : Bounds α → Prop}
    (fuel : Nat)
    (pass : RowPass α)
    (step :
      ∀ index (pass : RowPass α) row, row ∈ store.rows.toRows →
        motive pass.bounds →
        motive (pass.visitRow sentinel settings store.integral index row).bounds)
    (start : motive pass.bounds) :
    motive (repeated store sentinel settings fuel pass).bounds ∧
      ∀ visit ∈ repeatedVisits store sentinel settings fuel pass.bounds,
        visit.2 ∈ store.rows.toRows ∧ motive visit.1 := by
  induction fuel generalizing pass with
  | zero =>
      exact ⟨start, fun _ none => nomatch none⟩
  | succ fuel inductionHypothesis =>
      have visits :
          ∀ visit ∈ passVisits store sentinel settings pass.bounds,
            visit.2 ∈ store.rows.toRows ∧ motive visit.1 :=
        rowVisits_all (fun _ _ => True) 0
          (fun index pass row member _ => step index pass row member)
          (fun _ _ => trivial) start
      obtain ⟨_, _, reached, _⟩ :=
        run_induction
          (motive := fun _ pass => motive pass.bounds)
          (fun _ _ => True)
          (fun seen pass row member _ => step seen.length pass row member)
          (fun _ _ => trivial)
          start
      rw [repeated, repeatedVisits]
      split
      · exact ⟨reached, by simpa using visits⟩
      · obtain ⟨atEnd, later⟩ :=
          inductionHypothesis
            {
              run store sentinel settings pass.bounds with
              summary :=
                pass.summary.followedBy
                  (run store sentinel settings pass.bounds).summary
            }
            reached
        refine ⟨atEnd, ?_⟩
        intro visit member
        rcases List.mem_append.mp member with inPass | inLater
        · exact visits visit inPass
        · exact later visit inLater

/-- A run over rows of the variables has a last pass, whatever bounds it starts from. -/
theorem propagate_lastPass
    (bounds : Bounds α)
    (sentinel : α)
    (settings : Settings α)
    (inRange :
      ∀ row ∈ store.rows.toRows, ∀ var ∈ row.vars,
        var < bounds.lower.length) :
    ∃ last : Bounds α,
      last.lower.length = bounds.lower.length ∧
        lastVisits store sentinel settings (bounds.lower.length + 1) bounds =
          passVisits store sentinel settings last ∧
        LastPass store sentinel settings last
          (propagate store sentinel settings bounds) := by
  obtain ⟨last, _, sameLength, _, sameVisits, isLast⟩ :=
    repeated_run
      (motive := fun _ => True)
      (fun _ _ => True)
      (atStart bounds)
      inRange
      (fun _ _ _ _ => trivial)
      (fun _ _ => trivial)
      (Nat.lt_succ_of_le (bounds.freeCount_le settings.epsilon))
      trivial
  exact ⟨last, sameLength, sameVisits, isLast⟩

/-- A whole run over rows of the variables has a last pass. -/
theorem propagate_last
    (sentinel : α)
    (settings : Settings α)
    (inRange :
      ∀ row ∈ store.rows.toRows, ∀ var ∈ row.vars,
        var < store.lower.length) :
    ∃ last : Bounds α,
      last.lower.length = store.lower.length ∧
        finalVisits store sentinel settings =
          passVisits store sentinel settings last ∧
        LastPass store sentinel settings last
          (propagate store sentinel settings
            (Bounds.ofStored store.lower store.upper)) :=
  propagate_lastPass (Bounds.ofStored store.lower store.upper) sentinel
    settings inRange

theorem propagate_lowerLength
    (sentinel : α)
    (settings : Settings α)
    (inRange :
      ∀ row ∈ store.rows.toRows, ∀ var ∈ row.vars,
        var < store.lower.length) :
    (propagate store sentinel settings
        (Bounds.ofStored store.lower store.upper)).bounds.lower.length =
      store.lower.length := by
  obtain ⟨last, sameLength, _, isLast⟩ :=
    propagate_last sentinel settings inRange
  rw [isLast.bounds, ← sameLength]
  exact (run_progress sentinel settings last inRange).keepsFixed.lowerLength

/--
The rows that a whole run keeps are those that the visits of its last pass keep.
-/
theorem propagate_keptRows
    (sentinel : α)
    (settings : Settings α)
    (inRange :
      ∀ row ∈ store.rows.toRows, ∀ var ∈ row.vars,
        var < store.lower.length) :
    (propagate store sentinel settings
        (Bounds.ofStored store.lower store.upper)).kept.table.toRows =
      (finalVisits store sentinel settings).flatMap
        fun visit =>
          keptFrom sentinel settings store.integral visit.1 visit.2 := by
  obtain ⟨last, _, sameVisits, isLast⟩ :=
    propagate_last sentinel settings inRange
  rw [isLast.kept, sameVisits]
  exact run_keptRows last

/-- A run without contradiction visits every stored row in its last pass. -/
theorem finalVisits_rows
    (inRange :
      ∀ row ∈ store.rows.toRows, ∀ var ∈ row.vars,
        var < store.lower.length)
    (feasible :
      (propagate store sentinel settings
        (Bounds.ofStored store.lower store.upper)).summary.infeasible =
          false) :
    (finalVisits store sentinel settings).map Prod.snd =
      store.rows.toRows := by
  obtain ⟨last, _, sameVisits, isLast⟩ :=
    propagate_last sentinel settings inRange
  rw [isLast.infeasible] at feasible
  rw [sameVisits]
  exact rowVisits_rows 0 feasible

/--
In a last pass without contradiction, the final fixed variables are fixed at every
visit.
-/
theorem finalVisits_fixed_iff
    {visit : Bounds α × LinearRow α}
    (inRange :
      ∀ row ∈ store.rows.toRows, ∀ var ∈ row.vars,
        var < store.lower.length)
    (feasible :
      (propagate store sentinel settings
        (Bounds.ofStored store.lower store.upper)).summary.infeasible = false)
    (member : visit ∈ finalVisits store sentinel settings)
    (var : Nat) :
    visit.1.Fixed settings.epsilon var ↔
      (propagate store sentinel settings
        (Bounds.ofStored store.lower store.upper)).bounds.Fixed
          settings.epsilon var := by
  obtain ⟨last, sameLength, sameVisits, isLast⟩ :=
    propagate_last sentinel settings inRange
  rw [sameVisits] at member
  exact
    isLast.fixed_iff (by rw [sameLength]; exact inRange) feasible member var

end Runs

end RowPass

end SdpRelay
