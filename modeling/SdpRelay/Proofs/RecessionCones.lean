import Mathlib
import SdpRelay.Proofs.CheckedSolve
import SdpRelay.Proofs.FoldedConstants
import SdpRelay.Proofs.KeptRowPositions
import SdpRelay.Proofs.SolveSteps

namespace SdpRelay

/-!
# Recession cones

The check of the primal side hands over a homogenised problem: finite limits become
zero, and the constants of the blocks disappear.  What it admits are the directions
in which one can go on for ever from any point that the prepared problem admits.
One more row, of the traces of the variables, leaves only directions of trace at
least one.
-/

open Matrix

variable {K : Type} [ExactField K]

/-!
## Going along a direction
-/

/-- A number keeps to two limits, of which those at or beyond the sentinel say nothing. -/
structure KeepsTo
    (sentinel left right x : K) : Prop where
  above : |left| < sentinel → left ≤ x
  below : |right| < sentinel → x ≤ right

/-- A number that does not become negative by adding multiples of another one bounds it. -/
theorem nonneg_of_multiples
    (start : K)
    {slope : K}
    (staysNonneg : ∀ t, 0 ≤ t → 0 ≤ start + t * slope) :
    0 ≤ slope := by
  by_contra negative
  have positive : 0 < -slope := neg_pos.mpr (not_le.mp negative)
  let steps := (|start| + 1) / -slope
  have passed : steps * slope = -(|start| + 1) := by
    have cancelled : steps * -slope = |start| + 1 :=
      div_mul_cancel₀ _ positive.ne'
    linarith
  have stillNonneg := staysNonneg steps (by positivity)
  rw [passed] at stillNonneg
  linarith [le_abs_self start]

namespace PrimalFinding

theorem homogenised_of_finite
    {sentinel x : K}
    (finite : |x| < sentinel) :
    homogenised sentinel x = 0 := by
  obtain ⟨above, below⟩ := abs_lt.mp finite
  simp [homogenised, beyondSentinel, above, below]

theorem homogenised_of_infinite
    {sentinel x : K}
    (infinite : ¬ |x| < sentinel) :
    homogenised sentinel x = x := by
  have beyond : sentinel ≤ x ∨ x ≤ -sentinel := by
    rw [← le_neg]
    exact le_abs.mp (not_lt.mp infinite)
  simp only [homogenised, beyondSentinel, Bool.or_eq_true, decide_eq_true_eq]
  exact if_pos beyond

/-- A homogenised limit says something exactly if the limit does. -/
theorem abs_homogenised_lt
    {sentinel x : K} :
    |homogenised sentinel x| < sentinel ↔ |x| < sentinel := by
  by_cases finite : |x| < sentinel
  · rw [homogenised_of_finite finite, abs_zero]
    exact iff_of_true ((abs_nonneg x).trans_lt finite) finite
  · rw [homogenised_of_infinite finite]

/-- A limit that is missing counts as zero, also among homogenised ones. -/
theorem getD_map_homogenised
    (sentinel : K)
    (limits : List K)
    (var : Nat) :
    (limits.map (homogenised sentinel)).getD var 0 =
      homogenised sentinel (limits.getD var 0) := by
  have zeroStays : homogenised sentinel (0 : K) = 0 := by
    rw [homogenised, ite_self]
  have mapped :=
    List.getD_map (l := limits) (n := var) (d := 0) (homogenised sentinel)
  rwa [zeroStays] at mapped

end PrimalFinding

open PrimalFinding

/-- A number keeps to homogenised limits exactly if adding its multiples keeps to the limits. -/
theorem KeepsTo.direction_iff
    {sentinel left right x d : K}
    (keeps : KeepsTo sentinel left right x) :
    KeepsTo sentinel (homogenised sentinel left) (homogenised sentinel right) d ↔
      ∀ t, 0 ≤ t → KeepsTo sentinel left right (x + t * d) := by
  constructor
  · intro direction t nonneg
    constructor
    · intro finite
      have forward := direction.above (abs_homogenised_lt.mpr finite)
      rw [homogenised_of_finite finite] at forward
      linarith [keeps.above finite, mul_nonneg nonneg forward]
    · intro finite
      have backward := direction.below (abs_homogenised_lt.mpr finite)
      rw [homogenised_of_finite finite] at backward
      linarith [keeps.below finite, mul_nonneg nonneg (neg_nonneg.mpr backward)]
  · intro stays
    constructor
    · intro homogenisedFinite
      have finite := abs_homogenised_lt.mp homogenisedFinite
      rw [homogenised_of_finite finite]
      refine nonneg_of_multiples (x - left) fun t nonneg => ?_
      linarith [(stays t nonneg).above finite]
    · intro homogenisedFinite
      have finite := abs_homogenised_lt.mp homogenisedFinite
      rw [homogenised_of_finite finite, ← neg_nonneg]
      refine nonneg_of_multiples (right - x) fun t nonneg => ?_
      linarith [(stays t nonneg).below finite]

/--
A symmetric matrix is positive semidefinite exactly if adding its multiples keeps a
positive semidefinite matrix so.
-/
theorem IsPositiveSemidefinite.direction_iff
    {size : Nat}
    {matrix direction : Matrix (Fin size) (Fin size) K}
    (semidefinite : IsPositiveSemidefinite matrix)
    (symmetric : direction.IsSymm) :
    IsPositiveSemidefinite direction ↔
      ∀ t : K, 0 ≤ t → IsPositiveSemidefinite (matrix + t • direction) := by
  have form (t : K) (vector : Fin size → K) :
      vector ⬝ᵥ (matrix + t • direction) *ᵥ vector =
        vector ⬝ᵥ matrix *ᵥ vector + t * (vector ⬝ᵥ direction *ᵥ vector) := by
    rw [add_mulVec, smul_mulVec, dotProduct_add, dotProduct_smul, smul_eq_mul]
  constructor
  · intro recedes t nonneg
    refine
      ⟨semidefinite.symmetric.add (symmetric.smul t), fun vector => ?_⟩
    rw [form]
    exact
      add_nonneg (semidefinite.nonneg vector)
        (mul_nonneg nonneg (recedes.nonneg vector))
  · intro stays
    refine ⟨symmetric, fun vector => ?_⟩
    refine
      nonneg_of_multiples (vector ⬝ᵥ matrix *ᵥ vector)
        fun t nonneg => ?_
    rw [← form]
    exact (stays t nonneg).nonneg vector

/-!
## What a prepared problem admits
-/

/-- The combination of the matrices of a block at a point, without those of fixed variables. -/
def PreparedBlock.combinationAt
    (isFixed : Nat → Bool)
    (block : PreparedBlock K)
    (point : Nat → K) :
    Matrix (Fin block.size) (Fin block.size) K :=
  ((block.terms.filter fun term => !isFixed term.var).map fun term =>
    point term.var • term.entries.symmetric block.size).sum

/-- The slack of a prepared block at a point, without the terms of fixed variables. -/
def PreparedBlock.slackAt
    (isFixed : Nat → Bool)
    (block : PreparedBlock K)
    (point : Nat → K) :
    Matrix (Fin block.size) (Fin block.size) K :=
  block.combinationAt isFixed point - block.constant.symmetric block.size

section Blocks

variable
  (isFixed : Nat → Bool)
  (block : PreparedBlock K)

theorem PreparedBlock.combinationAt_isSymm (point : Nat → K) :
    (block.combinationAt isFixed point).IsSymm := by
  unfold combinationAt
  induction block.terms.filter fun term => !isFixed term.var with
  | nil =>
      exact isSymm_zero
  | cons term rest inductionHypothesis =>
      rw [List.map_cons, List.sum_cons]
      exact
        ((term.entries.symmetric_isSymm block.size).smul _).add
          inductionHypothesis

theorem PreparedBlock.combinationAt_add_smul
    (point direction : Nat → K)
    (t : K) :
    block.combinationAt isFixed (point + t • direction) =
      block.combinationAt isFixed point +
        t • block.combinationAt isFixed direction := by
  unfold combinationAt
  induction block.terms.filter fun term => !isFixed term.var with
  | nil =>
      simp
  | cons term rest inductionHypothesis =>
      rw [List.map_cons, List.sum_cons, inductionHypothesis]
      simp only [List.map_cons, List.sum_cons, Pi.add_apply, Pi.smul_apply,
        smul_eq_mul, add_smul, smul_add, mul_smul]
      abel

/-- Without a constant, the slack of a block is the combination of its matrices. -/
theorem PreparedBlock.slackAt_of_empty
    (isEmpty : block.constant = Triplets.empty)
    (point : Nat → K) :
    block.slackAt isFixed point = block.combinationAt isFixed point := by
  have zero :
      (Triplets.empty : Triplets K).symmetric block.size = 0 :=
    rfl
  rw [slackAt, isEmpty, zero, sub_zero]

/-- The directions of a block are those at which the combination of its matrices is semidefinite. -/
theorem PreparedBlock.direction_iff
    {isFixed : Nat → Bool}
    {block : PreparedBlock K}
    {point direction : Nat → K}
    (semidefinite : IsPositiveSemidefinite (block.slackAt isFixed point)) :
    IsPositiveSemidefinite (block.combinationAt isFixed direction) ↔
      ∀ t : K, 0 ≤ t →
        IsPositiveSemidefinite
          (block.slackAt isFixed (point + t • direction)) := by
  have along (t : K) :
      block.slackAt isFixed (point + t • direction) =
        block.slackAt isFixed point +
          t • block.combinationAt isFixed direction := by
    rw [slackAt, slackAt, combinationAt_add_smul]
    abel
  simp only [along]
  exact
    semidefinite.direction_iff (block.combinationAt_isSymm isFixed direction)

end Blocks

/-- The value of a row along a direction. -/
theorem LinearRow.value_add_smul
    (row : LinearRow K)
    (point direction : Nat → K)
    (t : K) :
    row.value (point + t • direction) =
      row.value point + t * row.value direction := by
  unfold value
  induction row.terms with
  | nil =>
      simp
  | cons term rest inductionHypothesis =>
      simp only [termsValue_cons, inductionHypothesis, Pi.add_apply,
        Pi.smul_apply, smul_eq_mul]
      ring

/-- A point is admitted by the bounds, some of the rows and the blocks of a prepared problem. -/
structure PreparedProblem.Admits
    (problem : PreparedProblem K)
    (sentinel : K)
    (isFixed : Nat → Bool)
    (rows : List (LinearRow K))
    (point : Nat → K) : Prop where
  bounds :
    ∀ var < problem.variableCount,
      KeepsTo sentinel (problem.lower.getD var 0) (problem.upper.getD var 0)
        (point var)
  rows :
    ∀ row ∈ rows, KeepsTo sentinel row.left row.right (row.value point)
  blocks :
    ∀ block ∈ problem.blocks,
      IsPositiveSemidefinite (block.slackAt isFixed point)

/-- A point is admitted by the problem that is prepared from a store. -/
def Workspace.Admits
    (work : Workspace K)
    (store : Store K)
    (sentinel : K)
    (point : Nat → K) :
    Prop :=
  (PreparedProblem.ofWorkspace store work).Admits sentinel
    (fun var => decide (work.Fixed var)) work.rows.table.toRows point

/-- A row with homogenised sides. -/
def LinearRow.homogenised
    (sentinel : K)
    (row : LinearRow K) :
    LinearRow K :=
  row.withSides (PrimalFinding.homogenised sentinel row.left)
    (PrimalFinding.homogenised sentinel row.right)

/-- A problem with homogenised bounds and without constants. -/
def PreparedProblem.homogenised
    (sentinel : K)
    (problem : PreparedProblem K) :
    PreparedProblem K :=
  {
    problem with
    lower := problem.lower.map (PrimalFinding.homogenised sentinel)
    upper := problem.upper.map (PrimalFinding.homogenised sentinel)
    blocks :=
      problem.blocks.map fun block =>
        { block with constant := Triplets.empty }
  }

/-- A homogenised problem admits the directions that go on from an admitted point for ever. -/
theorem PreparedProblem.Admits.direction_iff
    {problem : PreparedProblem K}
    {sentinel : K}
    {isFixed : Nat → Bool}
    {rows : List (LinearRow K)}
    {point direction : Nat → K}
    (admits : problem.Admits sentinel isFixed rows point) :
    (problem.homogenised sentinel).Admits sentinel isFixed
        (rows.map (LinearRow.homogenised sentinel)) direction ↔
      ∀ t : K, 0 ≤ t →
        problem.Admits sentinel isFixed rows (point + t • direction) := by
  constructor
  · intro direct t nonneg
    constructor
    · intro var known
      have recedes := direct.bounds var known
      simp only [homogenised, getD_map_homogenised] at recedes
      exact (admits.bounds var known).direction_iff.mp recedes t nonneg
    · intro row member
      have recedes :=
        direct.rows (row.homogenised sentinel) (List.mem_map_of_mem member)
      rw [row.value_add_smul]
      exact (admits.rows row member).direction_iff.mp recedes t nonneg
    · intro block member
      have recedes :=
        direct.blocks { block with constant := Triplets.empty }
          (List.mem_map_of_mem member)
      rw [PreparedBlock.slackAt_of_empty _ _ rfl] at recedes
      exact
        (PreparedBlock.direction_iff (admits.blocks block member)).mp recedes t
          nonneg
  · intro stays
    constructor
    · intro var known
      simp only [homogenised, getD_map_homogenised]
      exact
        (admits.bounds var known).direction_iff.mpr fun t nonneg =>
          (stays t nonneg).bounds var known
    · intro row member
      obtain ⟨source, isSource, rfl⟩ := List.mem_map.mp member
      refine
        (admits.rows source isSource).direction_iff.mpr fun t nonneg => ?_
      have onWay := (stays t nonneg).rows source isSource
      rw [source.value_add_smul] at onWay
      exact onWay
    · intro block member
      obtain ⟨source, isSource, rfl⟩ := List.mem_map.mp member
      rw [PreparedBlock.slackAt_of_empty _ _ rfl]
      exact
        (PreparedBlock.direction_iff (admits.blocks source isSource)).mpr
          fun t nonneg => (stays t nonneg).blocks source isSource

/-- Whether a variable is taken for fixed makes no difference at points where it is zero. -/
theorem PreparedBlock.combinationAt_congr
    (one other : Nat → Bool)
    {block : PreparedBlock K}
    {point : Nat → K}
    (sameOrZero :
      ∀ term ∈ block.terms,
        one term.var = other term.var ∨ point term.var = 0) :
    block.combinationAt one point = block.combinationAt other point := by
  simp only [combinationAt, ← Bool.decide_eq_false]
  rw [sum_map_filter, sum_map_filter]
  congr 1
  refine List.map_congr_left fun term isTerm => ?_
  rcases sameOrZero term isTerm with same | isZero
  · rw [same]
  · rw [isZero, zero_smul, ite_self, ite_self]

/-!
## The trace row
-/

/-- The traces of all matrices of a variable, added up over all blocks and listings. -/
def Store.traceAt
    (store : Store K)
    (var : Nat) :
    K :=
  (store.blocks.map fun block =>
    (block.terms.map fun term =>
      if term.var = var then
        (term.entries.symmetric block.size).trace
      else
        0).sum).sum

/-- Steps that each add a number add up their sum. -/
theorem foldl_eq_add_sum
    {β : Type}
    {step : K → β → K}
    {number : β → K}
    {items : List β}
    (adds : ∀ total, ∀ item ∈ items, step total item = total + number item)
    (start : K) :
    items.foldl step start = start + (items.map number).sum := by
  induction items generalizing start with
  | nil =>
      simp
  | cons item rest inductionHypothesis =>
      rw [List.foldl_cons, adds start item List.mem_cons_self,
        inductionHypothesis
          (fun total other member =>
            adds total other (List.mem_cons_of_mem item member)),
        List.map_cons, List.sum_cons, add_assoc]

/-- The trace of a matrix is the sum of its diagonal entries. -/
theorem Triplets.trace_symmetric
    {entries : Triplets K}
    {size : Nat}
    (inside : entries.Inside size) :
    (entries.symmetric size).trace =
      (entries.entries.map fun entry =>
        if entry.row = entry.col then entry.value else 0).sum := by
  have onDiagonal (entry : Entry K) (rowInside : entry.row < size) :
      (∑ i : Fin size,
          if (entry.row = i.val ∧ entry.col = i.val) ∨
              (entry.row = i.val ∧ entry.col = i.val) then
            entry.value
          else
            0) =
        if entry.row = entry.col then entry.value else 0 := by
    have isHere (i : Fin size) :
        ((entry.row = i.val ∧ entry.col = i.val) ∨
            (entry.row = i.val ∧ entry.col = i.val)) ↔
          (⟨entry.row, rowInside⟩ : Fin size) = i ∧
            entry.row = entry.col := by
      simp only [Fin.ext_iff]
      omega
    simp only [isHere, ite_and, Finset.sum_ite_eq, Finset.mem_univ, if_true]
  have summed
      (listed : List (Entry K))
      (rowsInside : ∀ entry ∈ listed, entry.row < size) :
      (∑ i : Fin size,
          (listed.map fun entry =>
            if (entry.row = i.val ∧ entry.col = i.val) ∨
                (entry.row = i.val ∧ entry.col = i.val) then
              entry.value
            else
              0).sum) =
        (listed.map fun entry =>
          if entry.row = entry.col then entry.value else 0).sum := by
    induction listed with
    | nil =>
        simp
    | cons entry rest inductionHypothesis =>
        obtain ⟨rowInside, restInside⟩ := List.forall_mem_cons.mp rowsInside
        simp only [List.map_cons, List.sum_cons, Finset.sum_add_distrib]
        rw [onDiagonal entry rowInside, inductionHypothesis restInside]
  exact summed entries.entries fun entry member => (inside entry member).1

namespace PrimalFinding

/-- The diagonal entries of a sound store are added up to the traces of its matrices. -/
theorem traceOf_eq
    {store : Store K}
    (sound : store.Sound)
    (var : Nat) :
    traceOf store.blocks var = store.traceAt var := by
  rw [Store.traceAt, ← zero_add (List.sum _)]
  refine foldl_eq_add_sum (fun total block isBlock => ?_) 0
  refine foldl_eq_add_sum (fun total term isTerm => ?_) total
  have fits := (sound.acceptable block isBlock).terms term isTerm
  split
  · rw [Triplets.trace_symmetric fits.inside]
    refine foldl_eq_add_sum (fun total entry _ => ?_) total
    split
    · rfl
    · rw [add_zero]
  · rw [add_zero]

/-- A row that asks for directions of trace at least one. -/
structure IsTraceRow
    (sentinel epsilon : K)
    (store : Store K)
    (work : Workspace K)
    (row : LinearRow K) : Prop where
  left : row.left = 1
  right : row.right = sentinel
  balanced : row.Balanced
  increasing : row.vars.Pairwise (· < ·)
  terms :
    ∀ var coef,
      (var, coef) ∈ row.terms ↔
        var < store.variableCount ∧
          ¬ work.Fixed var ∧
            coef = store.traceAt var ∧ epsilon < |coef|

/-- The variables of a trace row are known. -/
theorem IsTraceRow.known
    {sentinel epsilon : K}
    {store : Store K}
    {work : Workspace K}
    {row : LinearRow K}
    {var : Nat}
    (isTraceRow : IsTraceRow sentinel epsilon store work row)
    (inRow : var ∈ row.vars) :
    var < store.variableCount := by
  obtain ⟨position, inside, rfl⟩ := List.getElem_of_mem inRow
  have inCoefs : position < row.coefs.length :=
    isTraceRow.balanced ▸ inside
  have isTerm : (row.vars[position], row.coefs[position]) ∈ row.terms :=
    List.mem_iff_getElem.mpr
      ⟨position, by simp [LinearRow.terms, inside, inCoefs],
        by simp [LinearRow.terms]⟩
  exact ((isTraceRow.terms _ _).mp isTerm).1

/-- The variables that are not fixed and have a trace, each with it. -/
def traceTerms
    (epsilon : K)
    (store : Store K)
    (work : Workspace K) : List (Nat × K) :=
  ((List.range store.variableCount).map fun var =>
    (var, traceOf store.blocks var)).filter fun term =>
      !decide (work.Fixed term.1) && decide (epsilon < Scalar.abs term.2)

/-- A trace row lists the trace terms, unless there are none. -/
theorem traceRow?_eq_traceTerms
    (sentinel epsilon : K)
    (store : Store K)
    (work : Workspace K) :
    traceRow? sentinel epsilon store work =
      if (traceTerms epsilon store work).isEmpty then
        none
      else
        some
          {
            left := 1
            right := sentinel
            vars := (traceTerms epsilon store work).map Prod.fst
            coefs := (traceTerms epsilon store work).map Prod.snd
          } :=
  rfl

/-- The trace terms of a sound store are the traces beyond the tolerance. -/
theorem mem_traceTerms
    {store : Store K}
    (sound : store.Sound)
    {epsilon : K}
    {work : Workspace K}
    {var : Nat}
    {coef : K} :
    (var, coef) ∈ traceTerms epsilon store work ↔
      var < store.variableCount ∧
        ¬ work.Fixed var ∧
          coef = store.traceAt var ∧ epsilon < |coef| := by
  simp only [traceTerms, List.mem_filter, List.mem_map, List.mem_range,
    Prod.mk.injEq, traceOf_eq sound, Bool.and_eq_true, Bool.not_eq_true',
    decide_eq_false_iff_not, decide_eq_true_eq, scalarAbs_eq]
  constructor
  · rintro ⟨⟨_, known, rfl, rfl⟩, notFixed, large⟩
    exact ⟨known, notFixed, rfl, large⟩
  · rintro ⟨known, notFixed, rfl, large⟩
    exact ⟨⟨var, known, rfl, rfl⟩, notFixed, large⟩

/-- The trace terms are listed by increasing variable. -/
theorem traceTerms_increasing
    (epsilon : K)
    (store : Store K)
    (work : Workspace K) :
    ((traceTerms epsilon store work).map Prod.fst).Pairwise (· < ·) := by
  have sublist :
      ((traceTerms epsilon store work).map Prod.fst).Sublist
        (((List.range store.variableCount).map fun var =>
          (var, traceOf store.blocks var)).map Prod.fst) :=
    List.filter_sublist.map Prod.fst
  have vars :
      ((List.range store.variableCount).map fun var =>
          (var, traceOf store.blocks var)).map Prod.fst =
        List.range store.variableCount := by
    rw [List.map_map]
    exact List.map_id _
  rw [vars] at sublist
  exact List.pairwise_lt_range.sublist sublist

/-- There is a trace row exactly if a variable that is not fixed has a trace. -/
theorem traceRow?_isSome_iff
    {store : Store K}
    (sound : store.Sound)
    (sentinel epsilon : K)
    (work : Workspace K) :
    (traceRow? sentinel epsilon store work).isSome ↔
      ∃ var < store.variableCount,
        ¬ work.Fixed var ∧ epsilon < |store.traceAt var| := by
  rw [traceRow?_eq_traceTerms]
  constructor
  · intro present
    split_ifs at present with empty
    · cases present
    · obtain ⟨⟨var, coef⟩, member⟩ :=
        List.exists_mem_of_ne_nil _ (mt List.isEmpty_iff.mpr empty)
      obtain ⟨known, notFixed, rfl, large⟩ := (mem_traceTerms sound).mp member
      exact ⟨var, known, notFixed, large⟩
  · rintro ⟨var, known, notFixed, large⟩
    have member : (var, store.traceAt var) ∈ traceTerms epsilon store work :=
      (mem_traceTerms sound).mpr ⟨known, notFixed, rfl, large⟩
    have nonempty : ¬ (traceTerms epsilon store work).isEmpty :=
      mt List.isEmpty_iff.mp (List.ne_nil_of_mem member)
    rw [if_neg nonempty]
    rfl

/-- The row found is a trace row. -/
theorem traceRow?_isTraceRow
    {store : Store K}
    (sound : store.Sound)
    {sentinel epsilon : K}
    {work : Workspace K}
    {row : LinearRow K}
    (found : row ∈ traceRow? sentinel epsilon store work) :
    IsTraceRow sentinel epsilon store work row := by
  rw [traceRow?_eq_traceTerms] at found
  split at found
  · cases found
  · cases found
    exact
      {
        left := rfl
        right := rfl
        balanced := by simp [LinearRow.Balanced]
        increasing := traceTerms_increasing epsilon store work
        terms := fun var coef => by
          rw [LinearRow.terms, ← List.zip_of_prod rfl rfl]
          exact mem_traceTerms sound
      }

end PrimalFinding

/-!
## The auxiliary problem
-/

/-- Homogenising the sides of a table homogenises its rows. -/
theorem RowTable.homogenised_ofRows
    (sentinel : K)
    (rows : List (LinearRow K)) :
    { ofRows rows with
        lefts := (ofRows rows).lefts.map (PrimalFinding.homogenised sentinel)
        rights :=
          (ofRows rows).rights.map (PrimalFinding.homogenised sentinel) } =
      ofRows (rows.map (LinearRow.homogenised sentinel)) := by
  have sameVars :
      (rows.map (LinearRow.homogenised sentinel)).map LinearRow.vars =
        rows.map LinearRow.vars := by
    rw [List.map_map]
    rfl
  simp only [ofRows, List.map_map, List.flatMap_map, rowEnds_congr sameVars]
  rfl

/-- The trace row stands behind the homogenised rows. -/
theorem PrimalFinding.auxiliaryRows_eq
    {work : Workspace K}
    {kept : List (LinearRow K)}
    (isTable : work.rows.table = RowTable.ofRows kept)
    (sentinel epsilon : K)
    (store : Store K) :
    auxiliaryRows sentinel epsilon store work =
      RowTable.ofRows
        (kept.map (LinearRow.homogenised sentinel) ++
          (traceRow? sentinel epsilon store work).toList) := by
  rw [auxiliaryRows, isTable, RowTable.homogenised_ofRows]
  cases traceRow? sentinel epsilon store work with
  | none =>
      rw [Option.toList_none, List.append_nil]
  | some row =>
      exact RowTable.push_ofRows _ row

/-- The rows that a prepared workspace has kept are balanced and about known variables. -/
theorem SolveTask.prepared?_rows
    {task : SolveTask K}
    {work : Workspace K}
    (sound : task.store.Sound)
    (prepared : task.prepared? = some work) :
    ∃ kept,
      work.rows.Lists kept ∧
        ∀ row ∈ kept, ∀ var ∈ row.vars, var < task.store.variableCount := by
  have inRange :
      ∀ row ∈ task.store.rows.toRows, ∀ var ∈ row.vars,
        var < (Bounds.ofStored task.store.lower task.store.upper).lower.length :=
    fun row member var inRow =>
      sound.wellFormed.lowerLength ▸ sound.known row member var inRow
  obtain ⟨found, fixedObjective, presolved, rfl⟩ :=
    task.exists_of_prepared prepared
  obtain ⟨feasible, _, isFound, _⟩ := Workspace.presolve_open presolved
  obtain ⟨visits, visited, isKept, _⟩ :=
    RowPass.propagate_kept inRange (Bool.eq_false_iff.mpr feasible)
  let keptBy (visit : Bounds K × LinearRow K) : Option (LinearRow K) :=
    RowPass.keptRow? task.sentinel task.settings task.store.integral visit.1
      visit.2
  have rows : found.rows = KeptRows.ofVisits (visits.map keptBy) := by
    rw [isFound]
    exact isKept
  refine ⟨(visits.map keptBy).reduceOption, ?_, fun row member var inRow => ?_⟩
  · rw [Workspace.compacted, rows]
    exact KeptRows.ofVisits_lists fun _ => RowPass.balanced_of_visits visits
  · obtain ⟨visit, isVisit, keeps⟩ :=
      List.mem_map.mp (List.reduceOption_mem_iff.mp member)
    have stored : visit.2 ∈ task.store.rows.toRows :=
      visited ▸ List.mem_map_of_mem isVisit
    exact
      sound.known visit.2 stored var
        ((RowPass.free_of_keptRow? keeps).2 var inRow).1

/--
A problem asks for the directions of what a workspace admits: without its last row it
admits those in which one can go on for ever, and that row is the trace row, if there
is one.
-/
structure IsRecessionProblem
    (sentinel epsilon : K)
    (store : Store K)
    (work : Workspace K)
    (problem : PreparedProblem K)
    (last : Option (LinearRow K)) : Prop where
  rows :
    problem.rows.toRows =
      work.rows.table.toRows.map (LinearRow.homogenised sentinel) ++
        last.toList
  wellFormed : problem.rows.WellFormed
  known :
    ∀ row ∈ problem.rows.toRows,
      ∀ var ∈ row.vars, var < store.variableCount
  directions :
    (∃ point, work.Admits store sentinel point) →
      ∀ direction,
        problem.Admits sentinel (fun var => decide (work.Fixed var))
            (work.rows.table.toRows.map (LinearRow.homogenised sentinel))
            direction ↔
          ∀ point,
            work.Admits store sentinel point →
              ∀ t : K, 0 ≤ t →
                work.Admits store sentinel (point + t • direction)
  present :
    last.isSome ↔
      ∃ var < store.variableCount,
        ¬ work.Fixed var ∧ epsilon < |store.traceAt var|
  traceRow :
    ∀ row ∈ last, PrimalFinding.IsTraceRow sentinel epsilon store work row

/--
The problem of the primal check is that of the directions in which one can go on for
ever from any point that the prepared problem admits, with a row behind the others
that asks for a trace of at least one.
-/
theorem SolveTask.primalCheck_isRecessionProblem
    {task : SolveTask K}
    {work : Workspace K}
    (sound : task.store.Sound)
    (prepared : task.prepared? = some work)
    (look : Nat) :
    IsRecessionProblem task.sentinel task.settings.epsilon task.store work
      (task.primalCheck work look).problem
      (PrimalFinding.traceRow? task.sentinel task.settings.epsilon task.store
        work) := by
  obtain ⟨kept, lists, keptKnown⟩ := task.prepared?_rows sound prepared
  have isTable :
      (task.primalCheck work look).problem.rows = RowTable.ofRows _ :=
    PrimalFinding.auxiliaryRows_eq lists.table task.sentinel
      task.settings.epsilon task.store
  have balanced :
      ∀ row ∈
        kept.map (LinearRow.homogenised task.sentinel) ++
          (PrimalFinding.traceRow? task.sentinel task.settings.epsilon
            task.store work).toList,
        row.Balanced := by
    intro row member
    rcases List.mem_append.mp member with isKept | isLast
    · obtain ⟨source, isSource, rfl⟩ := List.mem_map.mp isKept
      exact lists.balanced source isSource
    · have found := Option.mem_toList.mp isLast
      exact (PrimalFinding.traceRow?_isTraceRow sound found).balanced
  have rows :
      (task.primalCheck work look).problem.rows.toRows =
        work.rows.table.toRows.map (LinearRow.homogenised task.sentinel) ++
          (PrimalFinding.traceRow? task.sentinel task.settings.epsilon
            task.store work).toList := by
    rw [isTable, RowTable.toRows_ofRows balanced, lists.toRows_eq]
  refine
    ⟨rows, ?_, ?_, ?_, PrimalFinding.traceRow?_isSome_iff sound _ _ work,
      fun row found => PrimalFinding.traceRow?_isTraceRow sound found⟩
  · rw [isTable]
    exact RowTable.wellFormed_ofRows balanced
  · intro row member var inRow
    rw [rows, lists.toRows_eq] at member
    rcases List.mem_append.mp member with isKept | isLast
    · obtain ⟨source, isSource, rfl⟩ := List.mem_map.mp isKept
      exact keptKnown source isSource var inRow
    · have found := Option.mem_toList.mp isLast
      exact (PrimalFinding.traceRow?_isTraceRow sound found).known inRow
  · rintro ⟨start, admitted⟩ direction
    constructor
    · intro recedes point isAdmitted
      exact (PreparedProblem.Admits.direction_iff isAdmitted).mp
        ⟨recedes.bounds, recedes.rows, recedes.blocks⟩
    · intro stays
      obtain ⟨bounds, onRows, blocks⟩ :=
        (PreparedProblem.Admits.direction_iff admitted).mpr
          (stays start admitted)
      exact ⟨bounds, onRows, blocks⟩

instance
    (sentinel left right x : K) :
    Decidable (KeepsTo sentinel left right x) :=
  decidable_of_iff
    ((|left| < sentinel → left ≤ x) ∧ (|right| < sentinel → x ≤ right))
    ⟨fun ⟨above, below⟩ => ⟨above, below⟩,
      fun keeps => ⟨keeps.above, keeps.below⟩⟩

/-- A matrix with a single entry is positive semidefinite if that is not negative. -/
theorem isPositiveSemidefinite_of_single
    {matrix : Matrix (Fin 1) (Fin 1) K}
    (nonneg : 0 ≤ matrix 0 0) :
    IsPositiveSemidefinite matrix := by
  refine ⟨IsSymm.ext fun i j => ?_, fun vector => ?_⟩
  · rw [Fin.eq_zero i, Fin.eq_zero j]
  · have form :
        vector ⬝ᵥ matrix *ᵥ vector = matrix 0 0 * (vector 0 * vector 0) := by
      simp only [dotProduct, mulVec, Fin.sum_univ_one]
      ring
    rw [form]
    exact mul_nonneg nonneg (mul_self_nonneg (vector 0))

/-- A block of size one in which both variables of a program raise the trace. -/
def rayBlock : Block ℚ :=
  {
    size := 1
    terms :=
      [
        {
          var := 0
          entries := { rows := [0], cols := [0], values := [2] }
        },
        {
          var := 1
          entries := { rows := [0], cols := [0], values := [1] }
        }
      ]
    constant := Triplets.empty
  }

/-- A program in which the second variable can grow for ever. -/
def rayProgram : Program ℚ :=
  {
    objective := [1, 1]
    lower := [0, 0]
    upper := [1, 1e20]
    integral := none
    blocks := [rayBlock]
    rows := [{ left := 1, right := 1e20, vars := [0, 1], coefs := [1, 1] }]
  }

/-- The task of solving that program. -/
def rayTask : SolveTask ℚ :=
  {
    SolveM.repeatingTask 1 with
    store :=
      [(Session.standardSentinel, Edit.load rayProgram)].foldl Store.edited
        Store.empty
  }

/-- A point of that program, which is also a direction of it. -/
def rayPoint (var : Nat) : ℚ :=
  if var = 1 then 1 else 0

/-- The prepared program admits the point. -/
theorem rayTask_admits
    {work : Workspace ℚ}
    (prepared : rayTask.prepared? = some work) :
    work.Admits rayTask.store rayTask.sentinel rayPoint := by
  have limits :
      rayTask.prepared?.all fun work =>
        decide
          ((∀ var < rayTask.store.variableCount,
              KeepsTo rayTask.sentinel (work.bounds.lower.getD var 0)
                (work.bounds.upper.getD var 0) (rayPoint var)) ∧
            (∀ row ∈ work.rows.table.toRows,
              KeepsTo rayTask.sentinel row.left row.right
                (row.value rayPoint)) ∧
              work.constants = [Triplets.empty] ∧ ¬ work.Fixed 1) := by
    decide +kernel
  rw [prepared, Option.all_some, decide_eq_true_eq] at limits
  obtain ⟨bounds, rows, constants, notFixed⟩ := limits
  refine ⟨bounds, rows, fun block member => ?_⟩
  have isStored : rayTask.store.blocks = [rayBlock] := by
    decide +kernel
  simp only [PreparedProblem.ofWorkspace, isStored, constants] at member
  rw [List.mem_singleton.mp member, PreparedBlock.slackAt_of_empty _ _ rfl]
  refine isPositiveSemidefinite_of_single ?_
  rw [PreparedBlock.combinationAt_congr _ fun _ => false]
  · -- the slack only depends on the terms of the block, so its compaction may stay unknown
    change
      0 ≤
        (0 : ℚ) * rayBlock.terms[0].entries.symmetric 1 0 0 +
          (1 * rayBlock.terms[1].entries.symmetric 1 0 0 + 0)
    decide +kernel
  · simp [rayBlock, rayPoint, notFixed]

/-- The growth of the second variable is a direction of that program. -/
theorem rayTask_isRecessionProblem :
    rayTask.store.Sound ∧
      ∃ work,
        rayTask.prepared? = some work ∧
          work.Admits rayTask.store rayTask.sentinel rayPoint ∧
            IsRecessionProblem rayTask.sentinel rayTask.settings.epsilon
              rayTask.store work (rayTask.primalCheck work 0).problem
              (some
                { left := 1, right := 1e20, vars := [0, 1], coefs := [2, 1] }) := by
  have sound : rayTask.store.Sound := Store.sound_of_edits _
  have isPrepared : rayTask.prepared?.isSome := by
    decide +kernel
  obtain ⟨work, prepared⟩ := Option.isSome_iff_exists.mp isPrepared
  have isRecession := rayTask.primalCheck_isRecessionProblem sound prepared 0
  have isLast :
      rayTask.prepared?.map
          (PrimalFinding.traceRow? rayTask.sentinel rayTask.settings.epsilon
            rayTask.store) =
        some
          (some
            { left := 1, right := 1e20, vars := [0, 1], coefs := [2, 1] }) := by
    decide +kernel
  rw [prepared, Option.map_some, Option.some.injEq] at isLast
  rw [isLast] at isRecession
  exact ⟨sound, work, prepared, rayTask_admits prepared, isRecession⟩

end SdpRelay
