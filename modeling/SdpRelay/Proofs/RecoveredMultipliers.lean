import SdpRelay.Proofs.KeptRowPositions
import SdpRelay.Proofs.NamedSides
import SdpRelay.Proofs.SweptWorkspaces
import SdpRelay.Session.Queries

namespace SdpRelay

/-!
# Multipliers of rows that the solver has not seen

The solver knows the rows that presolve has kept, and the bounds.  A session asks for
the multipliers of all stored rows, and puts them together from those of the bounds
and then from those of the kept rows, the later ones written over the earlier ones.
Because no side is named by two bounds and no kept row is named at all, nothing is
overwritten: every multiplier that has a side arrives there, and all other sides
have the multiplier zero.
-/

/-- The part of a pair that belongs to a side. -/
def Side.pick
    {β : Type}
    (pair : β × β) :
    Side → β
  | .left => pair.1
  | .right => pair.2

/-- The part of a pair that belongs to a bound. -/
def BoundEnd.pick
    {β : Type}
    (pair : β × β) :
    BoundEnd → β
  | .lower => pair.1
  | .upper => pair.2

namespace Session

section Crediting

variable
  {α : Type}
  {index : Nat}
  {side : Side}

/-- Crediting a bound changes no number of sides. -/
theorem length_creditBound
    (sides : List α × List α)
    (entry : BoundSource × α)
    (side : Side) :
    (side.pick (creditBound sides entry)).length = (side.pick sides).length := by
  rcases entry with ⟨_ | ⟨row, _ | _⟩, value⟩ <;> cases side <;>
    simp [creditBound, Side.pick]

/-- A bound that names a side is credited there. -/
theorem creditBound_named
    {sides : List α × List α}
    (inside : index < (side.pick sides).length)
    (value : α) :
    (side.pick (creditBound sides (.row index side, value)))[index]? =
      some value := by
  cases side with
  | left => exact List.getElem?_set_self inside
  | right => exact List.getElem?_set_self inside

/-- No other side changes. -/
theorem creditBound_unnamed
    {entry : BoundSource × α}
    (sides : List α × List α)
    (unnamed : entry.1 ≠ .row index side) :
    (side.pick (creditBound sides entry))[index]? =
      (side.pick sides)[index]? := by
  rcases entry with ⟨_ | ⟨row, other⟩, value⟩
  · rfl
  · have elsewhere : other = side → row ≠ index := by
      rintro rfl rfl
      exact unnamed rfl
    cases other <;> cases side <;>
      simp_all [creditBound, Side.pick]

variable [Scalar α]

/-- Crediting a row changes no number of sides. -/
theorem length_creditRow
    (kept sides : List α × List α)
    (entry : Option Nat × Nat)
    (side : Side) :
    (side.pick (creditRow kept sides entry)).length =
      (side.pick sides).length := by
  rcases entry with ⟨_ | position, row⟩ <;> cases side <;>
    simp [creditRow, Side.pick]

/-- A kept row is credited at its place among the stored rows. -/
theorem creditRow_kept
    {sides : List α × List α}
    (inside : index < (side.pick sides).length)
    (kept : List α × List α)
    (position : Nat) :
    (side.pick (creditRow kept sides (some position, index)))[index]? =
      some ((side.pick kept).getD position 0) := by
  cases side with
  | left => exact List.getElem?_set_self inside
  | right => exact List.getElem?_set_self inside

/-- No other row changes. -/
theorem creditRow_other
    {entry : Option Nat × Nat}
    (kept sides : List α × List α)
    (other : ∀ position, entry ≠ (some position, index)) :
    (side.pick (creditRow kept sides entry))[index]? =
      (side.pick sides)[index]? := by
  rcases entry with ⟨_ | position, row⟩
  · rfl
  · have elsewhere : row ≠ index := by
      rintro rfl
      exact other position rfl
    cases side <;> simp [creditRow, Side.pick, elsewhere]

end Crediting

section Claims

variable
  {α β : Type}
  {credit : List α × List α → β → List α × List α}
  {entries : List β}
  {index : Nat}
  {side : Side}

/-- Crediting all entries changes no number of sides. -/
theorem length_foldl_credit
    (keepsLength :
      ∀ sides entry,
        (side.pick (credit sides entry)).length = (side.pick sides).length)
    (sides : List α × List α) :
    (side.pick (entries.foldl credit sides)).length =
      (side.pick sides).length := by
  induction entries generalizing sides with
  | nil => rfl
  | cons entry rest inductionHypothesis =>
      exact (inductionHypothesis _).trans (keepsLength sides entry)

/-- A side that no entry claims stays as it is. -/
theorem foldl_credit_unclaimed
    (claims : β → Prop)
    (others :
      ∀ sides entry, ¬ claims entry →
        (side.pick (credit sides entry))[index]? = (side.pick sides)[index]?)
    (sides : List α × List α)
    (unclaimed : ∀ entry ∈ entries, ¬ claims entry) :
    (side.pick (entries.foldl credit sides))[index]? =
      (side.pick sides)[index]? := by
  induction entries generalizing sides with
  | nil => rfl
  | cons entry rest inductionHypothesis =>
      have later :=
        inductionHypothesis (credit sides entry) fun other member =>
          unclaimed other (List.mem_cons_of_mem entry member)
      exact later.trans (others sides entry (unclaimed entry List.mem_cons_self))

/-- A side that some entry claims has in the end the value on which all claims agree. -/
theorem foldl_credit_claimed
    {value : α}
    (claims : β → Prop)
    (keepsLength :
      ∀ sides entry,
        (side.pick (credit sides entry)).length = (side.pick sides).length)
    (others :
      ∀ sides entry, ¬ claims entry →
        (side.pick (credit sides entry))[index]? = (side.pick sides)[index]?)
    (credited :
      ∀ sides, ∀ entry ∈ entries, claims entry →
        index < (side.pick sides).length →
        (side.pick (credit sides entry))[index]? = some value)
    (sides : List α × List α)
    (inside : index < (side.pick sides).length)
    (claimed : ∃ entry ∈ entries, claims entry) :
    (side.pick (entries.foldl credit sides))[index]? = some value := by
  induction entries generalizing sides with
  | nil =>
      obtain ⟨_, member, _⟩ := claimed
      cases member
  | cons entry rest inductionHypothesis =>
      rw [List.foldl_cons]
      -- the last claim decides, so look behind this entry first
      by_cases laterClaim : ∃ other ∈ rest, claims other
      · exact
          inductionHypothesis
            (fun sides other member =>
              credited sides other (List.mem_cons_of_mem entry member))
            (credit sides entry)
            (by rw [keepsLength]; exact inside) laterClaim
      · obtain ⟨claimant, member, claim⟩ := claimed
        have isFirst : claimant = entry := by
          rcases List.mem_cons.mp member with isFirst | inRest
          · exact isFirst
          · exact absurd ⟨claimant, inRest, claim⟩ laterClaim
        subst claimant
        rw [foldl_credit_unclaimed claims others _ fun other inRest otherClaim =>
          laterClaim ⟨other, inRest, otherClaim⟩]
        exact credited sides entry List.mem_cons_self claim inside

end Claims

end Session

namespace Bounds

variable {α : Type}

/-- A bound that names a side is listed with that name. -/
theorem sourceAt_eq_row_iff
    {bounds : Bounds α}
    {var index : Nat}
    {place : BoundEnd}
    {side : Side} :
    bounds.sourceAt var place = .row index side ↔
      (place.pick (bounds.lowerSource, bounds.upperSource))[var]? =
        some (.row index side) := by
  have listed
      (sources : List BoundSource) :
      sources.getD var .stored = .row index side ↔
        sources[var]? = some (.row index side) := by
    rw [List.getD_eq_getElem?_getD]
    cases sources[var]? <;> simp
  cases place with
  | lower => exact listed bounds.lowerSource
  | upper => exact listed bounds.upperSource

/-- The multipliers that a side is credited with are those of the bounds that name it. -/
theorem mem_credits_iff
    {bounds : Bounds α}
    {limits : List α × List α}
    {index : Nat}
    {side : Side}
    {value : α} :
    (.row index side, value) ∈
        bounds.lowerSource.zip limits.1 ++ bounds.upperSource.zip limits.2 ↔
      ∃ var place,
        bounds.sourceAt var place = .row index side ∧
          (place.pick limits)[var]? = some value := by
  rw [List.mem_append]
  simp only [sourceAt_eq_row_iff, List.mem_iff_getElem?,
    List.getElem?_zip_eq_some]
  constructor
  · rintro (⟨var, named, isValue⟩ | ⟨var, named, isValue⟩)
    · exact ⟨var, .lower, named, isValue⟩
    · exact ⟨var, .upper, named, isValue⟩
  · rintro ⟨var, place, named, isValue⟩
    cases place with
    | lower => exact .inl ⟨var, named, isValue⟩
    | upper => exact .inr ⟨var, named, isValue⟩

/-- A variable with a named bound is one of the variables. -/
theorem Sized.inside_of_sourceAt
    {bounds : Bounds α}
    {size var index : Nat}
    {place : BoundEnd}
    {side : Side}
    (sized : bounds.Sized size)
    (isNoted : bounds.sourceAt var place = .row index side) :
    var < size := by
  have listed := sourceAt_eq_row_iff.mp isNoted
  have inside := (List.getElem?_eq_some_iff.mp listed).1
  cases place with
  | lower => exact sized.lowerSource ▸ inside
  | upper => exact sized.upperSource ▸ inside

end Bounds

namespace Workspace

variable {α : Type} [Scalar α]

/--
The multipliers of all stored rows are recovered from those of the kept rows and those
of the bounds: there are two for each stored row, a kept row has the two of its
position, a side that a bound names has the one of that bound, and all others are
zero.
-/
structure Recovers
    (rowCount : Nat)
    (work : Workspace α)
    (kept limits given : List α × List α) : Prop where
  length : ∀ side : Side, (side.pick given).length = rowCount
  ofKept :
    ∀ index < rowCount, ∀ position,
      work.rows.positions[index]? = some (some position) →
      ∀ side : Side,
        ∃ value,
          (side.pick kept)[position]? = some value ∧
            (side.pick given)[index]? = some value
  ofBound :
    ∀ var place index side,
      work.bounds.sourceAt var place = .row index side →
      ∃ value,
        (place.pick limits)[var]? = some value ∧
          (side.pick given)[index]? = some value
  zero :
    ∀ index < rowCount,
      (∀ position, work.rows.positions[index]? ≠ some (some position)) →
      ∀ side : Side,
        (∀ var place, work.bounds.sourceAt var place ≠ .row index side) →
        (side.pick given)[index]? = some 0

end Workspace

namespace Session

variable {σ τ α : Type} [Scalar α]

section Credits

variable
  {session : Session σ τ α}
  {kept limits : List α × List α}
  {index : Nat}
  {side : Side}

/-- The multipliers of the stored rows before those of the kept rows are put in. -/
def boundCredits
    (session : Session σ τ α)
    (limits : List α × List α) :
    List α × List α :=
  let zeros : List α := List.replicate session.store.rows.rowCount 0
  (session.run.work.bounds.lowerSource.zip limits.1 ++
      session.run.work.bounds.upperSource.zip limits.2).foldl creditBound
    (zeros, zeros)

theorem length_boundCredits
    (session : Session σ τ α)
    (limits : List α × List α)
    (side : Side) :
    (side.pick (session.boundCredits limits)).length =
      session.store.rows.rowCount := by
  refine
    (length_foldl_credit (fun sides entry => length_creditBound sides entry side)
      _).trans ?_
  cases side <;> exact List.length_replicate

/-- If no other bound names the side, it has the multiplier of the bound that does. -/
theorem boundCredits_named
    {var : Nat}
    {place : BoundEnd}
    {value : α}
    (apart : session.run.work.NamesApart session.store.rows.rowCount)
    (isNoted : session.run.work.bounds.sourceAt var place = .row index side)
    (isValue : (place.pick limits)[var]? = some value) :
    (side.pick (session.boundCredits limits))[index]? = some value := by
  refine
    foldl_credit_claimed (fun entry => entry.1 = .row index side)
      (fun sides entry => length_creditBound sides entry side)
      (fun sides _ unnamed => creditBound_unnamed sides unnamed)
      ?_ _ ?_ ?_
  · rintro sides ⟨_, other⟩ member rfl inside
    obtain ⟨otherVar, otherPlace, otherNoted, isOther⟩ :=
      Bounds.mem_credits_iff.mp member
    obtain ⟨rfl, rfl⟩ :=
      apart.once var otherVar place otherPlace index side isNoted otherNoted
    rw [isValue, Option.some.injEq] at isOther
    subst isOther
    exact creditBound_named inside value
  · have inside := apart.stored var place index side isNoted
    cases side <;> simpa [Side.pick] using inside
  · exact ⟨_, Bounds.mem_credits_iff.mpr ⟨var, place, isNoted, isValue⟩, rfl⟩

/-- A side without a name has the multiplier zero. -/
theorem boundCredits_unnamed
    (inside : index < session.store.rows.rowCount)
    (unnamed :
      ∀ var place,
        session.run.work.bounds.sourceAt var place ≠ .row index side) :
    (side.pick (session.boundCredits limits))[index]? = some 0 := by
  refine
    (foldl_credit_unclaimed (fun entry => entry.1 = .row index side)
      (fun sides _ unnamed => creditBound_unnamed sides unnamed)
      _ ?_).trans ?_
  · rintro ⟨_, value⟩ member rfl
    obtain ⟨var, place, isNoted, _⟩ := Bounds.mem_credits_iff.mp member
    exact unnamed var place isNoted
  · cases side <;> simp [Side.pick, inside]

/-- A kept row has the multipliers of its position. -/
theorem storedSideMultipliers_kept
    {position : Nat}
    (limits : List α × List α)
    (inside : index < session.store.rows.rowCount)
    (isKept :
      session.run.work.rows.positions[index]? = some (some position)) :
    (side.pick (session.storedSideMultipliers kept limits))[index]? =
      some ((side.pick kept).getD position 0) := by
  refine
    foldl_credit_claimed
      (fun entry => ∃ position, entry = (some position, index))
      (fun sides entry => length_creditRow kept sides entry side)
      (fun sides _ unclaimed =>
        creditRow_other kept sides fun position isEntry =>
          unclaimed ⟨position, isEntry⟩)
      ?_ (session.boundCredits limits) ?_ ?_
  · rintro sides _ member ⟨other, rfl⟩ inside
    have isOther := List.mem_zipIdx_iff_getElem?.mp member
    rw [isKept] at isOther
    cases isOther
    exact creditRow_kept inside kept position
  · rw [length_boundCredits]
    exact inside
  · exact
      ⟨_, List.mem_zipIdx_iff_getElem?.mpr isKept, position, rfl⟩

/-- A row that is not kept has what the bounds have left there. -/
theorem storedSideMultipliers_unkept
    (kept limits : List α × List α)
    (unkept :
      ∀ position,
        session.run.work.rows.positions[index]? ≠ some (some position)) :
    (side.pick (session.storedSideMultipliers kept limits))[index]? =
      (side.pick (session.boundCredits limits))[index]? := by
  refine
    foldl_credit_unclaimed
      (fun entry => ∃ position, entry = (some position, index))
      (fun sides _ unclaimed =>
        creditRow_other kept sides fun position isEntry =>
          unclaimed ⟨position, isEntry⟩)
      (session.boundCredits limits) ?_
  rintro _ member ⟨position, rfl⟩
  exact unkept position (List.mem_zipIdx_iff_getElem?.mp member)

/-- If names are apart and every multiplier is there, all are recovered. -/
theorem storedSideMultipliers_recovers
    {size : Nat}
    (apart : session.run.work.NamesApart session.store.rows.rowCount)
    (wellFormed : session.run.work.rows.WellFormed)
    (sized : session.run.work.bounds.Sized size)
    (keptLength :
      ∀ side : Side,
        (side.pick kept).length = session.run.work.rows.table.rowCount)
    (limitsLength :
      ∀ place : BoundEnd, (place.pick limits).length = size) :
    session.run.work.Recovers session.store.rows.rowCount kept limits
      (session.storedSideMultipliers kept limits) where
  length side := by
    refine
      (length_foldl_credit
        (fun sides entry => length_creditRow kept sides entry side)
        (session.boundCredits limits)).trans ?_
    exact length_boundCredits session limits side
  ofKept index inside position isKept side := by
    have listed : position < (side.pick kept).length := by
      rw [keptLength, ← List.mem_range, ← wellFormed.numbered,
        List.reduceOption_mem_iff]
      exact List.mem_of_getElem? isKept
    refine ⟨(side.pick kept)[position], List.getElem?_eq_getElem listed, ?_⟩
    rw [storedSideMultipliers_kept limits inside isKept,
      List.getD_eq_getElem _ _ listed]
  ofBound var place index side isNoted := by
    have inside : var < (place.pick limits).length := by
      rw [limitsLength]
      exact sized.inside_of_sourceAt isNoted
    have isValue := List.getElem?_eq_getElem inside
    refine ⟨(place.pick limits)[var], isValue, ?_⟩
    rw [storedSideMultipliers_unkept kept limits
      (apart.unkept var place index side isNoted)]
    exact boundCredits_named apart isNoted isValue
  zero index inside unkept side unnamed := by
    rw [storedSideMultipliers_unkept kept limits unkept]
    exact boundCredits_unnamed inside unnamed

end Credits

variable [Solver σ α] [OneVariableSolver τ α]

/-- Where the solver has the answer, all that presolve has found fits a recovery. -/
theorem namesApart_of_solve
    [SignArithmetic α]
    {session : Session σ τ α}
    {options : SolveOptions α}
    {watch : Nat → α}
    {byPenalty : Bool}
    (reachable : session.Reachable)
    (epsilonNonneg : 0 ≤ session.settings.epsilon)
    (bySolver :
      (stateAfter (solve options watch session)).run.verdict =
        .solved byPenalty) :
    let work := (stateAfter (solve options watch session)).run.work
    work.NamesApart session.store.rows.rowCount ∧
      work.rows.WellFormed ∧
      work.bounds.Sized session.store.variableCount := by
  intro work
  obtain ⟨program, represents, indexed⟩ := reachable.atRest.held
  have sound := represents.sound indexed
  let swept :=
    Workspace.empty.swept session.store session.sentinel session.settings
  have apart : swept.NamesApart session.store.rows.rowCount :=
    Workspace.namesApart_afterRuns sound epsilonNonneg
      reachable.coefsAreNumbers Workspace.empty session.sentinel 0
  have sized : swept.bounds.Sized session.store.variableCount :=
    (Workspace.afterRuns_traced sound Workspace.empty session.sentinel
      session.settings 1).1
  have wellFormed : swept.rows.WellFormed :=
    RowPass.propagate_wellFormed (represents.inRange indexed).1
  have hasSwept := solve_hasSwept bySolver
  have sameBounds : work.bounds = swept.bounds := hasSwept.bounds
  have sameRows : work.rows = swept.rows := hasSwept.rows
  refine ⟨apart.ofSame sameBounds sameRows, ?_, ?_⟩
  · rw [sameRows]
    exact wellFormed
  · rw [sameBounds]
    exact sized

/--
Presolve of the problem of a session never lets two bounds name the same side, name a
row that is not stored, or name a row that it keeps, however often it is repeated.

So after a solve with an answer of the solver that is not primal infeasible, a session
gives out two multipliers for each stored row.  A kept row has those that the solver
gives for it, a side that a bound names has that of the bound, and all others are zero.
-/
theorem sideMultipliers_recover_removed_rows
    [SignArithmetic α]
    {session : Session σ τ α}
    (reachable : session.Reachable) :
    (∀ sentinel (settings : Settings α), 0 ≤ settings.epsilon →
      ∀ (work : Workspace α) count,
        (work.afterRuns session.store sentinel settings
          (count + 1)).NamesApart session.store.rows.rowCount) ∧
    (0 ≤ session.settings.epsilon →
      ∀ options watch byPenalty kept limits,
        let next := stateAfter (solve options watch session)
        next.run.verdict = .solved byPenalty →
        next.solverReport.flags.primalInfeasible = false →
        next.solverReport.sideMultipliers = .ok kept →
        next.solverReport.boundMultipliers = .ok limits →
        (∀ side : Side,
          (side.pick kept).length = next.run.work.rows.table.rowCount) →
        (∀ place : BoundEnd,
          (place.pick limits).length = session.store.variableCount) →
        ∃ given,
          next.sideMultipliers = .ok (some given) ∧
            next.run.work.Recovers session.store.rows.rowCount kept limits
              given) := by
  constructor
  · intro sentinel settings epsilonNonneg work count
    obtain ⟨program, represents, indexed⟩ := reachable.atRest.held
    exact
      Workspace.namesApart_afterRuns (represents.sound indexed) epsilonNonneg
        reachable.coefsAreNumbers work sentinel count
  · intro epsilonNonneg options watch byPenalty kept limits next bySolver
      feasible isKept isLimits keptLength limitsLength
    have sameStore : next.store = session.store :=
      congrArg (fun assignment => assignment.2.1)
        (solve_keepsAssignment options watch session)
    obtain ⟨apart, wellFormed, sized⟩ :=
      namesApart_of_solve reachable epsilonNonneg bySolver
    have recovers :
        next.run.work.Recovers next.store.rows.rowCount kept limits
          (next.storedSideMultipliers kept limits) :=
      storedSideMultipliers_recovers (by rw [sameStore]; exact apart)
        wellFormed sized keptLength limitsLength
    rw [sameStore] at recovers
    refine ⟨_, ?_, recovers⟩
    unfold sideMultipliers unlessPrimalInfeasible
    rw [bySolver]
    simp only [feasible, isKept, isLimits]
    rfl

/-- An answer with multipliers for three variables and for one row. -/
def multiplierAnswer : ScriptedAnswer ℚ :=
  {
    sureAnswer with
    lowerMultipliers := [1, 2, 3]
    upperMultipliers := [4, 5, 6]
    leftMultipliers := [7]
    rightMultipliers := [8]
  }

/-- A session that holds the program with the fixing row, around a solver that gives this answer. -/
def multiplierSession : Session (ScriptedSolver ℚ) NewtonMethod ℚ :=
  Operation.performed
    (assemble standardSentinel Settings.standard
      (scriptedSolver [multiplierAnswer]) NewtonMethod.standard)
    (.edit (.load fixingProgram))

/--
The first row has become an upper bound and the second one has fixed a variable, so
their sides have the multipliers of bounds; the third row is the one that the solver
knows.
-/
theorem multiplierSession_recovers_removed_rows :
    (∃ given,
      (solved multiplierSession).sideMultipliers = .ok (some given) ∧
        (solved multiplierSession).run.work.Recovers 3 ([7], [8])
          ([1, 2, 3], [4, 5, 6]) given) ∧
      (solved multiplierSession).sideMultipliers =
        .ok (some ([0, 2, 7], [4, 5, 8])) := by
  have reachable : multiplierSession.Reachable :=
    .operated (.assembled _ _ _ _) _
  have rowCount : multiplierSession.store.rows.rowCount = 3 := by
    decide +kernel
  have recovers :=
    (sideMultipliers_recover_removed_rows reachable).2 (by decide +kernel)
      patientOptions (fun _ => 0) false ([7], [8]) ([1, 2, 3], [4, 5, 6])
      (by decide +kernel) (by decide +kernel) (by decide +kernel)
      (by decide +kernel)
      (fun side => by cases side <;> decide +kernel)
      (fun place => by cases place <;> decide +kernel)
  rw [rowCount] at recovers
  exact ⟨recovers, by decide +kernel⟩

end Session

end SdpRelay
