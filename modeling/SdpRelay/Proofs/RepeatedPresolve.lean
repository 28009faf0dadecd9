import Mathlib
import SdpRelay.Proofs.PresolvedPoints
import SdpRelay.Proofs.SettledRows

namespace SdpRelay

/-!
# Presolve of presolved problems

A run of presolve that finds no contradiction leaves every row settled, so that a
second run over the same workspace makes one pass and changes no bound, and all that
is derived from the bounds comes out the same.

The kept rows are another matter.  A row with several free terms is tightened
against the bounds at its visit, and rows that are visited later in the same pass may
still change those bounds.  The second run sees the final bounds at every visit:
it keeps the rows of the first one exactly if each row comes out of both visits the
same, and its own rows are kept for good.
-/

namespace RowPass

section Passes

variable
  {α : Type}
  [Scalar α]
  (store : Store α)
  (sentinel : α)
  (settings : Settings α)

/-- The passes of a run, in order. -/
def passes : Nat → Bounds α → List (RowPass α)
  | 0, _ => []
  | remaining + 1, bounds =>
      let next := run store sentinel settings bounds
      next ::
        if next.summary.infeasible || !next.summary.fixedSome then
          []
        else
          passes remaining next.bounds

/-- The passes of a whole run from given bounds. -/
def propagatePasses (bounds : Bounds α) : List (RowPass α) :=
  passes store sentinel settings (bounds.lower.length + 1) bounds

/-- A pass with what earlier passes found added to its summary. -/
def after (earlier later : RowPass α) : RowPass α :=
  { later with summary := earlier.summary.followedBy later.summary }

variable {store sentinel settings}

/-- Repeated passes leave what the last of them leaves, and sum up what all of them found. -/
theorem repeated_eq_foldl
    (fuel : Nat)
    (pass : RowPass α) :
    repeated store sentinel settings fuel pass =
      (passes store sentinel settings fuel pass.bounds).foldl after pass := by
  induction fuel generalizing pass with
  | zero =>
      rfl
  | succ fuel inductionHypothesis =>
      rw [repeated, passes, List.foldl_cons]
      split
      · rfl
      · exact inductionHypothesis _

/-- Over settled rows a run makes one pass. -/
theorem propagatePasses_of_settled
    {bounds : Bounds α}
    (settled :
      ∀ row ∈ store.rows.toRows, Settled sentinel settings bounds row) :
    propagatePasses store sentinel settings bounds =
      [run store sentinel settings bounds] := by
  obtain ⟨_, _, summary⟩ := run_of_settled settled
  simp [propagatePasses, passes, summary, PassSummary.none]

/-- Over settled rows a run is its only pass. -/
theorem propagate_of_settled
    {bounds : Bounds α}
    (settled :
      ∀ row ∈ store.rows.toRows, Settled sentinel settings bounds row) :
    propagate store sentinel settings bounds =
      run store sentinel settings bounds := by
  have onePass := propagatePasses_of_settled settled
  unfold propagatePasses at onePass
  rw [propagate, repeated_eq_foldl]
  simp only [onePass, List.foldl_cons, List.foldl_nil, after,
    PassSummary.followedBy, PassSummary.none, Bool.false_or, Nat.zero_add]

end Passes

end RowPass

section Rows

variable {α : Type}

namespace KeptRows

/-- Note a stored row, and keep what a visit made of it. -/
def note
    (kept : KeptRows α) :
    Option (LinearRow α) → KeptRows α
  | none => kept.skip
  | some row => kept.keep row

/-- The rows that visits kept, in order. -/
def ofVisits (visited : List (Option (LinearRow α))) : KeptRows α :=
  visited.foldl note empty

theorem ofVisits_append_singleton
    (visited : List (Option (LinearRow α)))
    (last : Option (LinearRow α)) :
    ofVisits (visited ++ [last]) = (ofVisits visited).note last := by
  simp [ofVisits]

/-- The positions tell which visits kept a row. -/
theorem isSome_positions_ofVisits (visited : List (Option (LinearRow α))) :
    (ofVisits visited).positions.map Option.isSome =
      visited.map Option.isSome := by
  induction visited using List.reverseRecOn with
  | nil =>
      rfl
  | append_singleton visited last inductionHypothesis =>
      rw [ofVisits_append_singleton]
      cases last with
      | none => simp [note, skip, inductionHypothesis]
      | some row => simp [note, keep, inductionHypothesis]

/-- The table lists the rows that were kept. -/
theorem ofVisits_lists
    {visited : List (Option (LinearRow α))}
    (balanced : ∀ row, some row ∈ visited → row.Balanced) :
    (ofVisits visited).Lists visited.reduceOption := by
  induction visited using List.reverseRecOn with
  | nil =>
      exact Lists.empty
  | append_singleton visited last inductionHypothesis =>
      have earlier :=
        inductionHypothesis fun row member => balanced row (by simp [member])
      rw [ofVisits_append_singleton, List.reduceOption_append]
      cases last with
      | none => simpa [note] using earlier.skip
      | some row => simpa [note] using earlier.keep (balanced row (by simp))

/-- Visits that kept rows at the same places, and the same rows in all, did the same. -/
private theorem eq_of_reduceOption_eq
    {β : Type}
    {first second : List (Option β)}
    (samePlaces : first.map Option.isSome = second.map Option.isSome)
    (sameItems : first.reduceOption = second.reduceOption) :
    first = second := by
  induction first generalizing second with
  | nil =>
      cases second with
      | nil => rfl
      | cons item rest => simp at samePlaces
  | cons item rest inductionHypothesis =>
      cases second with
      | nil => simp at samePlaces
      | cons other others =>
          rw [List.map_cons, List.map_cons, List.cons.injEq] at samePlaces
          obtain ⟨sameHead, sameTail⟩ := samePlaces
          cases item with
          | none =>
              cases other with
              | none =>
                  rw [inductionHypothesis sameTail (by simpa using sameItems)]
              | some value => cases sameHead
          | some value =>
              cases other with
              | none => cases sameHead
              | some value' =>
                  rw [List.reduceOption_cons_of_some,
                    List.reduceOption_cons_of_some,
                    List.cons.injEq] at sameItems
                  rw [sameItems.1, inductionHypothesis sameTail sameItems.2]

/-- Kept rows and their positions tell what each visit made of its row. -/
theorem ofVisits_inj
    {first second : List (Option (LinearRow α))}
    (firstBalanced : ∀ row, some row ∈ first → row.Balanced)
    (secondBalanced : ∀ row, some row ∈ second → row.Balanced) :
    ofVisits first = ofVisits second ↔ first = second := by
  constructor
  · intro same
    refine eq_of_reduceOption_eq ?_ ?_
    · rw [← isSome_positions_ofVisits, same, isSome_positions_ofVisits]
    · rw [← (ofVisits_lists firstBalanced).toRows_eq, same,
        (ofVisits_lists secondBalanced).toRows_eq]
  · rintro rfl
    rfl

end KeptRows

end Rows

section Tightening

/-- Moving the last item to the front adds no item. -/
theorem mem_of_mem_lastToFront
    {β : Type}
    {items : List β}
    {item : β}
    (member : item ∈ lastToFront items) :
    item ∈ items := by
  cases items with
  | nil => exact member
  | cons head rest =>
      rcases List.mem_cons.mp member with rfl | inFront
      · exact List.getLast_mem _
      · exact List.mem_of_mem_dropLast inFront

variable {α : Type} [Scalar α]

/-- Two boxes that bound the variables of some terms alike. -/
structure RowBox.AgreeOn
    (terms : List (Nat × α))
    (first second : RowBox α) : Prop where
  sentinel : second.sentinel = first.sentinel
  epsilon : second.epsilon = first.epsilon
  integral : second.integral = first.integral
  lower : ∀ term ∈ terms, second.lowerAt term.1 = first.lowerAt term.1
  upper : ∀ term ∈ terms, second.upperAt term.1 = first.upperAt term.1

namespace RowBox.AgreeOn

variable
  {terms : List (Nat × α)}
  {first second : RowBox α}

/-- Boxes that agree on some terms agree on fewer. -/
theorem mono
    {fewer : List (Nat × α)}
    (agree : AgreeOn terms first second)
    (subset : ∀ term ∈ fewer, term ∈ terms) :
    AgreeOn fewer first second :=
  {
    agree with
    lower := fun term member => agree.lower term (subset term member)
    upper := fun term member => agree.upper term (subset term member)
  }

theorem lowest_eq (agree : AgreeOn terms first second) :
    second.lowest terms = first.lowest terms := by
  refine List.foldl_ext _ _ _ ?_
  intro activity term member
  simp only [agree.sentinel, agree.lower term member, agree.upper term member]

theorem highest_eq (agree : AgreeOn terms first second) :
    second.highest terms = first.highest terms := by
  refine List.foldl_ext _ _ _ ?_
  intro activity term member
  simp only [agree.sentinel, agree.lower term member, agree.upper term member]

theorem isIntegral_eq
    (agree : AgreeOn terms first second)
    (var : Nat) :
    second.isIntegral var = first.isIntegral var := by
  rw [RowBox.isIntegral, agree.integral, ← RowBox.isIntegral]

theorem largestIntegral_eq (agree : AgreeOn terms first second) :
    second.largestIntegral terms = first.largestIntegral terms := by
  refine List.foldl_ext _ _ _ ?_
  intro largest term _
  simp only [agree.isIntegral_eq]

theorem visit_eq
    (agree : AgreeOn terms first second)
    {term : Nat × α}
    (member : term ∈ terms)
    (progress : RowProgress α)
    (leftIsFinite rightIsFinite : Bool) :
    progress.visit second leftIsFinite rightIsFinite term.1 term.2 =
      progress.visit first leftIsFinite rightIsFinite term.1 term.2 := by
  simp only [RowProgress.visit, agree.isIntegral_eq, agree.sentinel,
    agree.epsilon, agree.lower term member, agree.upper term member]

/-- The terms of a row are visited alike in boxes that agree on them. -/
theorem visitAll_eq
    (agree : AgreeOn terms first second)
    (leftIsFinite rightIsFinite : Bool)
    (progress : RowProgress α) :
    RowProgress.visitAll second leftIsFinite rightIsFinite progress terms =
      RowProgress.visitAll first leftIsFinite rightIsFinite progress terms := by
  induction progress, terms using
      RowProgress.visitAll.induct first leftIsFinite rightIsFinite with
  | case1 progress =>
      rw [RowProgress.visitAll, RowProgress.visitAll]
  | case2 progress var coef rest visited _ _ _ inductionHypothesis =>
      have same := agree.visit_eq List.mem_cons_self progress
        leftIsFinite rightIsFinite
      rw [RowProgress.visitAll, RowProgress.visitAll, same, visited]
      simp only
      rw [inductionHypothesis
        (agree.mono fun term member => List.mem_cons_of_mem _ member)]
  | case3 progress var coef rest next reduced visited _ _ _
      inductionHypothesis =>
      have same := agree.visit_eq List.mem_cons_self progress
        leftIsFinite rightIsFinite
      rw [RowProgress.visitAll, RowProgress.visitAll, same, visited]
      simp only
      rw [inductionHypothesis
        (agree.mono fun term member => List.mem_cons_of_mem _ member)]
  | case4 progress var coef rest next visited inductionHypothesis =>
      have same := agree.visit_eq List.mem_cons_self progress
        leftIsFinite rightIsFinite
      rw [RowProgress.visitAll, RowProgress.visitAll, same, visited]
      simp only
      exact
        inductionHypothesis
          (agree.mono fun term member =>
            List.mem_cons_of_mem _ (mem_of_mem_lastToFront member))

/-- A row is tightened alike in boxes that agree on its terms. -/
theorem tighten_eq
    (agree : AgreeOn terms first second)
    (left right : α) :
    second.tighten terms left right = first.tighten terms left right := by
  simp only [RowBox.tighten, agree.lowest_eq, agree.highest_eq,
    agree.largestIntegral_eq, agree.isIntegral_eq, agree.sentinel,
    agree.epsilon, agree.visitAll_eq]

end RowBox.AgreeOn

end Tightening

namespace RowPass

section Kept

variable
  {α : Type}
  [Scalar α]
  {store : Store α}
  {sentinel : α}
  {settings : Settings α}

/-- The row that a visit keeps, if it keeps one. -/
def keptRow?
    (sentinel : α)
    (settings : Settings α)
    (integral : List Bool)
    (bounds : Bounds α)
    (row : LinearRow α) :
    Option (LinearRow α) :=
  (keptFrom sentinel settings integral bounds row).head?

/-- What a visit keeps is balanced, because it is a tightened row. -/
theorem balanced_of_keptRow?
    {integral : List Bool}
    {bounds : Bounds α}
    {row kept : LinearRow α}
    (isKept : keptRow? sentinel settings integral bounds row = some kept) :
    kept.Balanced := by
  have member := List.mem_of_mem_head? (Option.mem_def.mpr isKept)
  simp only [keptFrom] at member
  split at member
  · cases member
  · rw [List.mem_singleton.mp member]
    exact TightenedRow.toRow_balanced _

/-- A visit notes its row with what it keeps of it. -/
theorem visitRow_kept
    (pass : RowPass α)
    (sentinel : α)
    (settings : Settings α)
    (integral : List Bool)
    (index : Nat)
    (row : LinearRow α) :
    (pass.visitRow sentinel settings integral index row).kept =
      pass.kept.note (keptRow? sentinel settings integral pass.bounds row) := by
  rcases openTerms_cases settings pass.bounds row with
    noTerm | ⟨var, coef, oneTerm⟩ | severalTerms
  · rw [visitRow_of_none sentinel integral index noTerm]
    simp [keptRow?, keptFrom, noTerm, visitFixed, KeptRows.note]
  · rw [visitRow_of_single sentinel integral index oneTerm]
    simp [keptRow?, keptFrom, oneTerm, visitSingle, KeptRows.note]
  · rw [visitRow_of_several sentinel integral index severalTerms]
    simp only [keptRow?, keptFrom, Nat.not_lt.mpr severalTerms, false_or]
    split
    · rename_i redundant
      exact if_pos redundant
    · rename_i needed
      exact if_neg needed

/-- A pass keeps what its visits keep, at the same positions. -/
theorem visitRows_kept
    {integral : List Bool}
    {rows : List (LinearRow α)}
    {pass : RowPass α}
    {visited : List (Option (LinearRow α))}
    (index : Nat)
    (soFar : pass.kept = KeptRows.ofVisits visited) :
    (visitRows sentinel settings integral index rows pass).kept =
      KeptRows.ofVisits
        (visited ++
          (rowVisits sentinel settings integral index rows pass).map
            fun visit =>
              keptRow? sentinel settings integral visit.1 visit.2) := by
  induction rows generalizing index pass visited with
  | nil =>
      simpa [visitRows, rowVisits] using soFar
  | cons row rest inductionHypothesis =>
      have next :
          (pass.visitRow sentinel settings integral index row).kept =
            KeptRows.ofVisits
              (visited ++
                [keptRow? sentinel settings integral pass.bounds row]) := by
        rw [visitRow_kept, soFar, KeptRows.ofVisits_append_singleton]
      rw [visitRows, rowVisits, List.map_cons, List.append_cons]
      split
      · simpa using next
      · exact inductionHypothesis (index + 1) next

theorem run_kept (bounds : Bounds α) :
    (run store sentinel settings bounds).kept =
      KeptRows.ofVisits
        ((passVisits store sentinel settings bounds).map fun visit =>
          keptRow? sentinel settings store.integral visit.1 visit.2) := by
  have noVisit : (atStart bounds).kept = KeptRows.ofVisits [] :=
    rfl
  exact visitRows_kept 0 noVisit

/--
Bounds under which a visit would keep the same of a row: the row has too few free terms
to be kept, none of them is integral, or their bounds are those at the visit.
-/
def Undisturbed
    (settings : Settings α)
    (integral : List Bool)
    (final : Bounds α)
    (visit : Bounds α × LinearRow α) :
    Prop :=
  (openTerms settings visit.1 visit.2).length < 2 ∨
  (∀ term ∈ openTerms settings visit.1 visit.2,
    integral.getD term.1 false = false) ∨
  ∀ term ∈ openTerms settings visit.1 visit.2,
    final.lowerAt term.1 = visit.1.lowerAt term.1 ∧
      final.upperAt term.1 = visit.1.upperAt term.1

instance
    [DecidableEq α]
    (settings : Settings α)
    (integral : List Bool)
    (final : Bounds α)
    (visit : Bounds α × LinearRow α) :
    Decidable (Undisturbed settings integral final visit) :=
  inferInstanceAs (Decidable (_ ∨ _))

/-- An undisturbed visit would keep the same row under the final bounds. -/
theorem Undisturbed.keptRow?_eq
    {integral : List Bool}
    {final : Bounds α}
    {visit : Bounds α × LinearRow α}
    (undisturbed : Undisturbed settings integral final visit)
    (same : SameFixed settings.epsilon visit.1 final) :
    keptRow? sentinel settings integral final visit.2 =
      keptRow? sentinel settings integral visit.1 visit.2 := by
  rcases undisturbed with few | tightenedAlike
  · simp only [keptRow?, keptFrom, same.openTerms_eq, few, true_or, if_true]
  have sameTightened :
      tightenedOpen sentinel settings integral final visit.2 =
        tightenedOpen sentinel settings integral visit.1 visit.2 := by
    unfold tightenedOpen
    rw [same.openTerms_eq, same.openLeft_eq, same.openRight_eq]
    rcases tightenedAlike with continuous | unmoved
    · rw [RowBox.tighten_of_continuous _ _ _ _ continuous,
        RowBox.tighten_of_continuous _ _ _ _ continuous]
    · have agree :
          RowBox.AgreeOn (openTerms settings visit.1 visit.2)
            (visitBox sentinel settings integral visit.1)
            (visitBox sentinel settings integral final) :=
        {
          sentinel := rfl
          epsilon := rfl
          integral := rfl
          lower := fun term member => (unmoved term member).1
          upper := fun term member => (unmoved term member).2
        }
      exact agree.tighten_eq _ _
  simp only [keptRow?, keptFrom, same.openTerms_eq, sameTightened]

/-- From a visit of the last pass on, the same variables are fixed at the same values. -/
theorem finalVisits_sameFixed
    {visit : Bounds α × LinearRow α}
    (inRange :
      ∀ row ∈ store.rows.toRows, ∀ var ∈ row.vars,
        var < store.lower.length)
    (feasible :
      (propagate store sentinel settings
        (Bounds.ofStored store.lower store.upper)).summary.infeasible = false)
    (member : visit ∈ finalVisits store sentinel settings) :
    SameFixed settings.epsilon visit.1
      (propagate store sentinel settings
        (Bounds.ofStored store.lower store.upper)).bounds where
  fixed var := (finalVisits_fixed_iff inRange feasible member var).symm
  lower := by
    obtain ⟨last, _, sameVisits, isLast⟩ :=
      propagate_last sentinel settings inRange
    rw [sameVisits] at member
    rw [isLast.bounds]
    exact ((rowVisits_keepsFixed (atStart last) 0 inRange).2 visit member).2.lower

end Kept

end RowPass

namespace Presolvable

open RowPass

variable
  {K : Type}
  [ExactField K]
  {store : Store K}
  {sentinel : K}
  {settings : Settings K}

/-- After a run without contradiction every stored row is settled. -/
theorem propagate_settles
    (presolvable : Presolvable store sentinel settings)
    (feasible :
      (propagate store sentinel settings
        (storedBounds store)).summary.infeasible = false) :
    ∀ row ∈ store.rows.toRows,
      Settled sentinel settings
        (propagate store sentinel settings
          (storedBounds store)).bounds row := by
  obtain ⟨last, sized, _, _, _, isLast⟩ :=
    repeated_run
      (motive := Sized store)
      (fun _ _ => True)
      (atStart (storedBounds store))
      presolvable.known
      (fun bounds sized _ _ => (presolvable.run_encloses sized).2)
      (fun _ _ => trivial)
      (Nat.lt_succ_of_le ((storedBounds store).freeCount_le settings.epsilon))
      presolvable.sized_storedBounds
  have fixesNothing := isLast.fixesNothing feasible
  have lastFeasible := isLast.infeasible.symm.trans feasible
  have sameBounds :
      (propagate store sentinel settings (storedBounds store)).bounds =
        (run store sentinel settings last).bounds :=
    isLast.bounds
  rw [sameBounds]
  exact presolvable.run_settles sized lastFeasible fixesNothing

/--
A second run keeps the rows of the first exactly if each row that is visited in the
last pass comes out of its visit as it would under the final bounds.
-/
theorem keptRows_again_iff
    (presolvable : Presolvable store sentinel settings)
    (feasible :
      (propagate store sentinel settings
        (storedBounds store)).summary.infeasible = false) :
    (run store sentinel settings
          (propagate store sentinel settings (storedBounds store)).bounds).kept =
        (propagate store sentinel settings (storedBounds store)).kept ↔
      ∀ visit ∈ finalVisits store sentinel settings,
        keptRow? sentinel settings store.integral
            (propagate store sentinel settings (storedBounds store)).bounds
            visit.2 =
          keptRow? sentinel settings store.integral visit.1 visit.2 := by
  have settled := presolvable.propagate_settles feasible
  have firstKept :
      (propagate store sentinel settings (storedBounds store)).kept =
        KeptRows.ofVisits
          ((finalVisits store sentinel settings).map fun visit =>
            keptRow? sentinel settings store.integral visit.1 visit.2) := by
    obtain ⟨last, _, sameVisits, isLast⟩ :=
      propagate_last sentinel settings presolvable.known
    rw [sameVisits, ← run_kept]
    exact isLast.kept
  rw [run_kept, passVisits_of_settled settled, firstKept,
    ← finalVisits_rows presolvable.known feasible, List.map_map, List.map_map,
    KeptRows.ofVisits_inj, List.map_inj_left]
  · rfl
  · intro row member
    obtain ⟨visit, _, isKept⟩ := List.mem_map.mp member
    exact balanced_of_keptRow? isKept
  · intro row member
    obtain ⟨visit, _, isKept⟩ := List.mem_map.mp member
    exact balanced_of_keptRow? isKept

end Presolvable

namespace Workspace

/-- Over settled rows presolve makes one pass. -/
theorem propagate_of_settled
    {α : Type}
    [Scalar α]
    {work : Workspace α}
    {store : Store α}
    {sentinel : α}
    {settings : Settings α}
    (settled :
      ∀ row ∈ store.rows.toRows,
        RowPass.Settled sentinel settings work.bounds row) :
    work.propagate store sentinel settings =
      work.passRows store sentinel settings := by
  simp only [propagate, passRows, RowPass.propagate_of_settled settled]

/-- A pass over settled rows replaces the kept rows, and nothing else. -/
theorem passRows_of_settled
    {α : Type}
    [Scalar α]
    {work : Workspace α}
    {store : Store α}
    {sentinel : α}
    {settings : Settings α}
    (settled :
      ∀ row ∈ store.rows.toRows,
        RowPass.Settled sentinel settings work.bounds row) :
    ∃ changes,
      work.passRows store sentinel settings =
        ({ work with
            rows :=
              (RowPass.run store sentinel settings work.bounds).kept },
          { PassSummary.none with changedCoefs := changes }) := by
  obtain ⟨changes, sameBounds, summary⟩ := RowPass.run_of_settled settled
  exact ⟨changes, by simp only [passRows, afterPass, sameBounds, summary]⟩

/-- A second pass over settled rows changes nothing. -/
theorem passRows_passRows_of_settled
    {α : Type}
    [Scalar α]
    {work : Workspace α}
    {store : Store α}
    {sentinel : α}
    {settings : Settings α}
    (settled :
      ∀ row ∈ store.rows.toRows,
        RowPass.Settled sentinel settings work.bounds row) :
    (work.passRows store sentinel settings).1.passRows store sentinel
        settings =
      work.passRows store sentinel settings := by
  obtain ⟨_, sameBounds, _⟩ := RowPass.run_of_settled settled
  simp only [passRows, afterPass, sameBounds]

end Workspace

/-- After presolve of a loaded problem without contradiction every row is settled. -/
theorem Presolvable.reset_propagate_settles
    {K : Type}
    [ExactField K]
    {sentinel : K}
    {store : Store K}
    {settings : Settings K}
    {work : Workspace K}
    (presolvable : Presolvable store sentinel settings)
    (feasible :
      ((work.reset store settings).propagate store sentinel
        settings).2.infeasible = false) :
    ∀ row ∈ store.rows.toRows,
      RowPass.Settled sentinel settings
        ((work.reset store settings).propagate store sentinel
          settings).1.bounds row :=
  presolvable.propagate_settles feasible

open Presolvable

/--
Presolve of a loaded problem is idempotent on bounds: a second run over the same
workspace finds neither a contradiction nor a fixing, changes no bound and makes
exactly one pass.  The bounds and their sources stay, and so does all that is derived
from them.
-/
theorem propagate_again_keeps_bounds
    {K : Type}
    [ExactField K]
    {sentinel : K}
    {program : Program K}
    {store : Store K}
    (settings : Settings K)
    (work : Workspace K)
    (loaded : Store.load sentinel program = .ok store)
    (epsilonNonneg : 0 ≤ settings.epsilon)
    (toleranceNonneg : 0 ≤ settings.feasTolerance)
    (feasible :
      ((work.reset store settings).propagate store sentinel
        settings).2.infeasible = false) :
    let once := (work.reset store settings).propagate store sentinel settings
    let twice := once.1.propagate store sentinel settings
    (twice.2.infeasible = false ∧
        twice.2.fixedSome = false ∧
        twice.2.changedBounds = 0) ∧
      RowPass.propagatePasses store sentinel settings once.1.bounds =
        [RowPass.run store sentinel settings once.1.bounds] ∧
      twice = once.1.passRows store sentinel settings ∧
      twice.1.bounds = once.1.bounds ∧
      twice.1.fixedObjective store = once.1.fixedObjective store ∧
      (twice.1.foldConstants store).constants =
        (once.1.foldConstants store).constants ∧
      ∀ memory,
        ((twice.1.foldConstants store).compact store memory).map
            Workspace.compaction =
          ((once.1.foldConstants store).compact store memory).map
            Workspace.compaction := by
  intro once twice
  have settled :
      ∀ row ∈ store.rows.toRows,
        RowPass.Settled sentinel settings once.1.bounds row :=
    (of_load loaded epsilonNonneg toleranceNonneg).reset_propagate_settles
      feasible
  have onePass : twice = once.1.passRows store sentinel settings :=
    Workspace.propagate_of_settled settled
  obtain ⟨changes, outcome⟩ := Workspace.passRows_of_settled settled
  have again := onePass.trans outcome
  refine
    ⟨?_, RowPass.propagatePasses_of_settled settled, onePass, ?_, ?_, ?_, ?_⟩
  · rw [again]
    exact ⟨rfl, rfl, rfl⟩
  · rw [again]
  · rw [again]
    rfl
  · rw [again]
    rfl
  · -- Compaction reads the bounds and the folded constants, which are the same.
    intro memory
    rw [again]
    unfold Workspace.compact
    split
    · rfl
    · rfl

/-- A second run over the program with the fixing row, after two passes of the first. -/
theorem propagate_again_keeps_fixed_bounds :
    let store := Store.ofProgram fixingProgram
    let once :=
      (Workspace.empty.reset store Settings.standard).propagate store
        Session.standardSentinel Settings.standard
    let twice :=
      once.1.propagate store Session.standardSentinel Settings.standard
    once.2.fixedSome = true ∧
      once.1.bounds.lower = [0, 2, 0] ∧
      twice.2.infeasible = false ∧
      twice.2.fixedSome = false ∧
      twice.2.changedBounds = 0 ∧
      twice.1.bounds = once.1.bounds := by
  intro store once twice
  have loaded :
      Store.load Session.standardSentinel fixingProgram = .ok store :=
    Store.load_eq_ok.mpr ⟨by decide +kernel, rfl⟩
  obtain ⟨⟨feasible, fixesNothing, noChange⟩, _, _, sameBounds, _⟩ :=
    propagate_again_keeps_bounds Settings.standard Workspace.empty loaded
      (by decide +kernel) (by decide +kernel) (by decide +kernel)
  exact
    ⟨by decide +kernel, by decide +kernel, feasible, fixesNothing, noChange,
      sameBounds⟩

/--
What a second presolve run does to the kept rows of a loaded problem.  They stay
exactly if each stored row comes out of its visit in the last pass of the first run as
it would under the final bounds.  They do if no row that has several free terms, an
integral one among them, has bounds that change after its visit, in particular without
integral variables.  From the second run on nothing changes.
-/
theorem propagate_again_keeps_rows_iff
    {K : Type}
    [ExactField K]
    {sentinel : K}
    {program : Program K}
    {store : Store K}
    (settings : Settings K)
    (work : Workspace K)
    (loaded : Store.load sentinel program = .ok store)
    (epsilonNonneg : 0 ≤ settings.epsilon)
    (toleranceNonneg : 0 ≤ settings.feasTolerance)
    (feasible :
      ((work.reset store settings).propagate store sentinel
        settings).2.infeasible = false) :
    let once := (work.reset store settings).propagate store sentinel settings
    let twice := once.1.propagate store sentinel settings
    (twice.1.rows = once.1.rows ↔
        ∀ visit ∈ RowPass.finalVisits store sentinel settings,
          RowPass.keptRow? sentinel settings store.integral once.1.bounds
              visit.2 =
            RowPass.keptRow? sentinel settings store.integral visit.1
              visit.2) ∧
      ((∀ visit ∈ RowPass.finalVisits store sentinel settings,
          RowPass.Undisturbed settings store.integral once.1.bounds visit) →
        twice.1.rows = once.1.rows) ∧
      ((∀ flag ∈ store.integral, flag = false) →
        twice.1.rows = once.1.rows) ∧
      twice.1.propagate store sentinel settings = twice := by
  intro once twice
  have presolvable : Presolvable store sentinel settings :=
    of_load loaded epsilonNonneg toleranceNonneg
  have settled :
      ∀ row ∈ store.rows.toRows,
        RowPass.Settled sentinel settings once.1.bounds row :=
    presolvable.reset_propagate_settles feasible
  have onePass : twice = once.1.passRows store sentinel settings :=
    Workspace.propagate_of_settled settled
  obtain ⟨changes, outcome⟩ := Workspace.passRows_of_settled settled
  have again := onePass.trans outcome
  have sameRows_iff :
      twice.1.rows = once.1.rows ↔
        ∀ visit ∈ RowPass.finalVisits store sentinel settings,
          RowPass.keptRow? sentinel settings store.integral once.1.bounds
              visit.2 =
            RowPass.keptRow? sentinel settings store.integral visit.1
              visit.2 := by
    rw [again]
    exact presolvable.keptRows_again_iff feasible
  have sameRows_of_undisturbed
      (undisturbed :
        ∀ visit ∈ RowPass.finalVisits store sentinel settings,
          RowPass.Undisturbed settings store.integral once.1.bounds visit) :
      twice.1.rows = once.1.rows :=
    sameRows_iff.mpr fun visit member =>
      (undisturbed visit member).keptRow?_eq
        (RowPass.finalVisits_sameFixed presolvable.known feasible member)
  refine ⟨sameRows_iff, sameRows_of_undisturbed, ?_, ?_⟩
  · intro continuous
    exact
      sameRows_of_undisturbed fun _ _ =>
        .inr (.inl fun term _ => getD_of_all_false continuous term.1)
  · -- The bounds are settled, and so are those after the second run.
    have sameBounds : twice.1.bounds = once.1.bounds := by rw [again]
    have stillSettled :
        ∀ row ∈ store.rows.toRows,
          RowPass.Settled sentinel settings twice.1.bounds row := by
      rw [sameBounds]
      exact settled
    rw [Workspace.propagate_of_settled stillSettled, onePass,
      Workspace.passRows_passRows_of_settled settled]

/-- A program with an integral variable and a continuous one. -/
def mixedProgram (rows : List (LinearRow ℚ)) : Program ℚ :=
  {
    objective := [0, 0]
    lower := [0, 0]
    upper := [10, 10]
    integral := some [true, false]
    blocks := []
    rows := rows
  }

/-- A row that bounds the sum of both variables. -/
def sumRow (limit : ℚ) : LinearRow ℚ :=
  { left := -1e20, right := limit, vars := [0, 1], coefs := [1, 1] }

/-- A row that bounds one variable. -/
def capRow (var : Nat) : LinearRow ℚ :=
  { left := -1e20, right := 2, vars := [var], coefs := [1] }

/-- With the caps before the sum, the sum is kept by all runs. -/
theorem propagate_again_keeps_sum_after_caps :
    let store :=
      Store.ofProgram (mixedProgram [capRow 0, capRow 1, sumRow 3])
    let once :=
      (Workspace.empty.reset store Settings.standard).propagate store
        Session.standardSentinel Settings.standard
    let twice :=
      once.1.propagate store Session.standardSentinel Settings.standard
    once.1.rows.table.toRows = [sumRow 3] ∧
      twice.1.rows = once.1.rows ∧
      twice.1.propagate store Session.standardSentinel Settings.standard =
        twice := by
  intro store once twice
  have loaded :
      Store.load Session.standardSentinel
          (mixedProgram [capRow 0, capRow 1, sumRow 3]) =
        .ok store :=
    Store.load_eq_ok.mpr ⟨by decide +kernel, rfl⟩
  obtain ⟨_, sameRows, _, fixedPoint⟩ :=
    propagate_again_keeps_rows_iff Settings.standard Workspace.empty loaded
      (by decide +kernel) (by decide +kernel) (by decide +kernel)
  exact ⟨by decide +kernel, sameRows (by decide +kernel), fixedPoint⟩

/--
With the caps after the sum, the sum is kept by the first run and redundant in the
second, which sees the caps.
-/
theorem propagate_again_drops_sum_before_caps :
    let store :=
      Store.ofProgram (mixedProgram [sumRow 5, capRow 0, capRow 1])
    let once :=
      (Workspace.empty.reset store Settings.standard).propagate store
        Session.standardSentinel Settings.standard
    let twice :=
      once.1.propagate store Session.standardSentinel Settings.standard
    Store.load Session.standardSentinel
          (mixedProgram [sumRow 5, capRow 0, capRow 1]) =
        .ok store ∧
      once.2.infeasible = false ∧
      once.1.rows.positions = [some 0, none, none] ∧
      once.1.rows.table.toRows = [sumRow 5] ∧
      twice.1.rows.positions = [none, none, none] ∧
      twice.1.rows.table.toRows = [] :=
  ⟨Store.load_eq_ok.mpr ⟨by decide +kernel, rfl⟩, by decide +kernel,
    by decide +kernel, by decide +kernel, by decide +kernel,
    by decide +kernel⟩

end SdpRelay
