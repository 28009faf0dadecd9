import Mathlib
import SdpRelay.Proofs.CheckedSolve
import SdpRelay.Proofs.MergedEntries

namespace SdpRelay

/-!
# Folded constants

The matrices of the fixed variables of a block are moved into its constant, each
times the value of its variable.  A variable may be listed several times, and so
may a position of a matrix; what counts is the sum of all values at a position.
Over an exact field the folded constant lists exactly the sums that are not small,
so that the block and what is left of it differ by at most `epsilon`.
-/

open Matrix

variable {K : Type} [ExactField K]

/-- The sum of all values that are listed at a position. -/
def Triplets.totalAt
    (entries : Triplets K)
    (row col : Nat) :
    K :=
  (valuesAt entries.entries row col).sum

/-- Values have a sum if there are any; it does not depend on the order. -/
theorem runningSum?_eq_some
    {values : List K}
    {total : K} :
    runningSum? values = some total ↔ values ≠ [] ∧ values.sum = total := by
  cases values with
  | nil =>
      simp [runningSum?]
  | cons first rest =>
      have inOrder (start : K) :
          rest.foldl (· + ·) start = start + rest.sum := by
        induction rest generalizing start with
        | nil =>
            simp
        | cons next rest inductionHypothesis =>
            rw [List.foldl_cons, inductionHypothesis, List.sum_cons, add_assoc]
      simp [runningSum?, inOrder]

namespace Triplets

variable
  {t other : Triplets K}
  {row col size : Nat}

/-- A merged matrix lists exactly the totals that are not small. -/
theorem mem_merge_iff_totalAt
    {epsilon value : K}
    (nonneg : 0 ≤ epsilon) :
    ⟨row, col, value⟩ ∈ (t.merge epsilon).entries ↔
      value = t.totalAt row col ∧ epsilon < |value| := by
  rw [mem_merge_iff, runningSum?_eq_some]
  constructor
  · rintro ⟨⟨_, isSum⟩, large⟩
    exact ⟨isSum.symm, large⟩
  · rintro ⟨isTotal, large⟩
    refine ⟨⟨fun none => ?_, isTotal.symm⟩, large⟩
    have isZero : value = 0 := by
      rw [isTotal, totalAt, none, List.sum_nil]
    rw [isZero, abs_zero] at large
    exact absurd large nonneg.not_gt

/-- Merging changes the total at a position by at most `epsilon`. -/
theorem abs_totalAt_merge_sub_le
    {epsilon : K}
    (nonneg : 0 ≤ epsilon)
    (row col : Nat) :
    |(t.merge epsilon).totalAt row col - t.totalAt row col| ≤ epsilon := by
  let total := t.totalAt row col
  by_cases large : epsilon < |total|
  · have member : ⟨row, col, total⟩ ∈ (t.merge epsilon).entries :=
      (mem_merge_iff_totalAt nonneg).mpr ⟨rfl, large⟩
    have listed := valuesAt_of_mem (t.merge_pairwise_before epsilon) member
    rw [totalAt, listed, List.sum_singleton, sub_self, abs_zero]
    exact nonneg
  · have none : valuesAt (t.merge epsilon).entries row col = [] := by
      refine List.eq_nil_iff_forall_not_mem.mpr fun value listed => large ?_
      obtain ⟨isTotal, isLarge⟩ :=
        (mem_merge_iff_totalAt nonneg).mp (mem_valuesAt.mp listed)
      rw [isTotal] at isLarge
      exact isLarge
    rw [totalAt, none, List.sum_nil, zero_sub, abs_neg]
    exact not_lt.mp large

/-- Appending a matrix times a factor adds its totals times the factor. -/
theorem totalAt_appendScaled
    (balanced : t.Balanced)
    (other : Triplets K)
    (factor : K)
    (row col : Nat) :
    (t.appendScaled other factor).totalAt row col =
      t.totalAt row col + factor * other.totalAt row col := by
  have scaled (listed : List (Entry K)) :
      valuesAt
          (listed.map fun entry =>
            { entry with value := entry.value * factor })
          row col =
        (valuesAt listed row col).map (· * factor) := by
    simp only [valuesAt, List.filter_map, List.map_map]
    rfl
  rw [totalAt, entries_appendScaled balanced, valuesAt_append, scaled,
    List.sum_append, List.sum_map_mul_right, List.map_id', mul_comm]
  rfl

/-- An entry of the symmetric matrix is the total at its lower triangular position. -/
theorem symmetric_eq_totalAt
    {entries : Triplets K}
    (fits : entries.Fits size)
    (i j : Fin size) :
    entries.symmetric size i j =
      entries.totalAt (max i.val j.val) (min i.val j.val) := by
  have summed (listed : List (Entry K)) (row col : Nat) :
      (valuesAt listed row col).sum =
        (listed.map fun entry =>
          if entry.At row col then entry.value else 0).sum := by
    induction listed with
    | nil =>
        rfl
    | cons entry rest inductionHypothesis =>
        rw [List.map_cons, List.sum_cons, ← inductionHypothesis]
        by_cases isHere : entry.At row col
        · rw [valuesAt_cons_of_at isHere, List.sum_cons, if_pos isHere]
        · rw [valuesAt_cons_of_not_at isHere, if_neg isHere, zero_add]
  rw [totalAt, summed, symmetric, of_apply]
  congr 1
  refine List.map_congr_left fun entry member => ?_
  have lowerTriangle := (fits.2 entry member).1
  have samePlace :
      (entry.row = i.val ∧ entry.col = j.val) ∨
          (entry.row = j.val ∧ entry.col = i.val) ↔
        entry.At (max i.val j.val) (min i.val j.val) := by
    simp only [Entry.At]
    omega
  simp only [samePlace]

end Triplets

/-- A sum over the items that pass a test counts the other ones as zero. -/
theorem sum_map_filter
    {β M : Type}
    [AddCommMonoid M]
    (passes : β → Prop)
    [DecidablePred passes]
    (number : β → M)
    (items : List β) :
    ((items.filter fun item => decide (passes item)).map number).sum =
      (items.map fun item => if passes item then number item else 0).sum := by
  rw [List.sum_map_ite]
  simp

/-- The slack of a block that nothing is left out of, entry by entry. -/
theorem Block.slackAt_zero_apply
    (block : Block K)
    (point : Nat → K)
    (i j : Fin block.size) :
    block.slackAt 0 point i j =
      (block.terms.map fun term =>
          point term.var * term.entries.symmetric block.size i j).sum -
        block.constant.symmetric block.size i j := by
  rw [slackAt_apply, List.filter_eq_self.mpr fun term _ => by simp]

namespace Workspace

/-- The variable of a term is fixed at a value that is not small. -/
def Folds
    (work : Workspace K)
    (term : BlockTerm K) :
    Prop :=
  work.Fixed term.var ∧ work.epsilon < |work.bounds.lowerAt term.var|

instance
    (work : Workspace K)
    (term : BlockTerm K) :
    Decidable (work.Folds term) :=
  inferInstanceAs (Decidable (_ ∧ _))

/-- The constant of a block at a position, less all listed terms that are folded into it. -/
def remainderAt
    (work : Workspace K)
    (block : Block K)
    (row col : Nat) :
    K :=
  block.constant.totalAt row col -
    ((block.terms.filter fun term => decide (work.Folds term)).map fun term =>
      work.bounds.lowerAt term.var * term.entries.totalAt row col).sum

/-- A block without the terms of its fixed variables, with another constant. -/
def openBlock
    (work : Workspace K)
    (block : Block K)
    (constant : Triplets K) :
    Block K :=
  {
    size := block.size
    terms := block.terms.filter fun term => !decide (work.Fixed term.var)
    constant := constant
  }

/-- The slack of a block whose fixed variables have been folded into its constant. -/
def openSlackAt
    (work : Workspace K)
    (block : Block K)
    (constant : Triplets K)
    (point : Nat → K) :
    Matrix (Fin block.size) (Fin block.size) K :=
  (work.openBlock block constant).slackAt 0 point

/-- A constant is what folding should leave of a block. -/
structure FoldsInto
    (work : Workspace K)
    (block : Block K)
    (constant : Triplets K) : Prop where
  increasing : constant.entries.Pairwise Entry.Before
  fits : constant.Fits block.size
  listed :
    ∀ row col value,
      ⟨row, col, value⟩ ∈ constant.entries ↔
        value = work.remainderAt block row col ∧ work.epsilon < |value|
  close :
    (∀ term ∈ block.terms,
      work.Fixed term.var →
        work.bounds.lowerAt term.var = 0 ∨
          work.epsilon < |work.bounds.lowerAt term.var|) →
      ∀ point,
        (∀ term ∈ block.terms,
          work.Fixed term.var →
            point term.var = work.bounds.lowerAt term.var) →
          ∀ i j,
            |block.slackAt 0 point i j -
                work.openSlackAt block constant point i j| ≤
              work.epsilon

variable
  {work : Workspace K}
  {block : Block K}
  {size : Nat}

/-- Appending the terms of a block to its constant one by one subtracts all of them. -/
theorem appendScaled_terms
    (work : Workspace K)
    {terms : List (BlockTerm K)}
    {constant : Triplets K}
    (termsFit : ∀ term ∈ terms, term.entries.Fits size)
    (fits : constant.Fits size) :
    (terms.foldl
        (fun folded term =>
          folded.appendScaled term.entries (-work.bounds.lowerAt term.var))
        constant).Fits size ∧
      ∀ row col,
        (terms.foldl
            (fun folded term =>
              folded.appendScaled term.entries (-work.bounds.lowerAt term.var))
            constant).totalAt row col =
          constant.totalAt row col -
            (terms.map fun term =>
              work.bounds.lowerAt term.var *
                term.entries.totalAt row col).sum := by
  induction terms generalizing constant with
  | nil =>
      exact ⟨fits, fun row col => by simp⟩
  | cons term rest inductionHypothesis =>
      have appendedFits :=
        fits.appendScaled (termsFit term List.mem_cons_self)
          (-work.bounds.lowerAt term.var)
      obtain ⟨restFits, totals⟩ :=
        inductionHypothesis
          (fun other member => termsFit other (List.mem_cons_of_mem term member))
          appendedFits
      refine ⟨restFits, fun row col => ?_⟩
      rw [List.foldl_cons, totals,
        Triplets.totalAt_appendScaled fits.1, List.map_cons, List.sum_cons]
      ring

/-- The folded constant is merged from entries that add up to what is left of the block. -/
theorem foldedConstant_eq_merge
    {variableCount : Nat}
    (acceptable : block.Acceptable variableCount)
    (work : Workspace K) :
    ∃ appended : Triplets K,
      work.foldedConstant block = appended.merge work.epsilon ∧
        appended.Fits block.size ∧
          ∀ row col,
            appended.totalAt row col = work.remainderAt block row col := by
  have foldedFit :
      ∀ term ∈ block.terms.filter fun term => decide (work.Folds term),
        term.entries.Fits block.size :=
    fun term member => acceptable.terms term (List.mem_of_mem_filter member)
  obtain ⟨fits, totals⟩ :=
    appendScaled_terms work foldedFit acceptable.constant
  have sameTerms :
      (block.terms.filter fun term => decide (work.Folds term)) =
        work.foldedTerms block :=
    congrArg (fun test => block.terms.filter test)
      (funext fun term => Bool.decide_and _ _)
  refine ⟨_, ?_, fits, totals⟩
  rw [foldedConstant, ← sameTerms]

theorem openSlackAt_apply
    (work : Workspace K)
    (block : Block K)
    (constant : Triplets K)
    (point : Nat → K)
    (i j : Fin block.size) :
    work.openSlackAt block constant point i j =
      ((block.terms.filter fun term => !decide (work.Fixed term.var)).map
          fun term =>
            point term.var * term.entries.symmetric block.size i j).sum -
        constant.symmetric block.size i j :=
  Block.slackAt_zero_apply (work.openBlock block constant) point i j

/-- Where the fixed variables have their values, folding changes a term of the slack only by moving it. -/
theorem term_eq_open_add_folded
    {term : BlockTerm K}
    {point : Nat → K}
    (isValue :
      work.Fixed term.var → point term.var = work.bounds.lowerAt term.var)
    (zeroOrLarge :
      work.Fixed term.var →
        work.bounds.lowerAt term.var = 0 ∨
          work.epsilon < |work.bounds.lowerAt term.var|)
    (value : K) :
    point term.var * value =
      (if ¬ work.Fixed term.var then point term.var * value else 0) +
        (if work.Folds term then work.bounds.lowerAt term.var * value else 0) := by
  by_cases fixed : work.Fixed term.var
  · rw [if_neg (not_not.mpr fixed), zero_add, isValue fixed]
    rcases zeroOrLarge fixed with isZero | large
    · rw [isZero, zero_mul, ite_self]
    · rw [if_pos ⟨fixed, large⟩]
  · rw [if_pos fixed, if_neg fun folds => fixed folds.1, add_zero]

/--
Where the fixed variables have their values, the slack of a block is the slack of
what is left of it, less what the constant should be and plus what it is.
-/
theorem slackAt_eq_openSlackAt
    {variableCount : Nat}
    {constant : Triplets K}
    {point : Nat → K}
    (acceptable : block.Acceptable variableCount)
    (fits : constant.Fits block.size)
    (zeroOrLarge :
      ∀ term ∈ block.terms,
        work.Fixed term.var →
          work.bounds.lowerAt term.var = 0 ∨
            work.epsilon < |work.bounds.lowerAt term.var|)
    (isValue :
      ∀ term ∈ block.terms,
        work.Fixed term.var →
          point term.var = work.bounds.lowerAt term.var)
    (i j : Fin block.size) :
    block.slackAt 0 point i j =
      work.openSlackAt block constant point i j +
        (constant.totalAt (max i.val j.val) (min i.val j.val) -
          work.remainderAt block (max i.val j.val) (min i.val j.val)) := by
  let total (term : BlockTerm K) :=
    term.entries.totalAt (max i.val j.val) (min i.val j.val)
  have moved :
      (block.terms.map fun term =>
          point term.var * term.entries.symmetric block.size i j).sum =
        ((block.terms.filter fun term => !decide (work.Fixed term.var)).map
            fun term =>
              point term.var * term.entries.symmetric block.size i j).sum +
          ((block.terms.filter fun term => decide (work.Folds term)).map
            fun term => work.bounds.lowerAt term.var * total term).sum := by
    simp only [← decide_not]
    rw [sum_map_filter, sum_map_filter, ← List.sum_map_add]
    congr 1
    refine List.map_congr_left fun term member => ?_
    rw [Triplets.symmetric_eq_totalAt (acceptable.terms term member)]
    exact
      term_eq_open_add_folded (isValue term member) (zeroOrLarge term member)
        (total term)
  rw [Block.slackAt_zero_apply, openSlackAt_apply, moved,
    Triplets.symmetric_eq_totalAt acceptable.constant,
    Triplets.symmetric_eq_totalAt fits, remainderAt]
  ring

/-- Folding leaves of a block what it should. -/
theorem foldedConstant_foldsInto
    {variableCount : Nat}
    (acceptable : block.Acceptable variableCount)
    (nonneg : 0 ≤ work.epsilon) :
    work.FoldsInto block (work.foldedConstant block) := by
  obtain ⟨appended, isMerged, appendedFits, totals⟩ :=
    foldedConstant_eq_merge acceptable work
  have fits : (work.foldedConstant block).Fits block.size := by
    rw [isMerged]
    exact appendedFits.merge work.epsilon
  refine ⟨?_, fits, fun row col value => ?_, ?_⟩
  · rw [isMerged]
    exact appended.merge_pairwise_before work.epsilon
  · rw [isMerged, Triplets.mem_merge_iff_totalAt nonneg, totals]
  · intro zeroOrLarge point isValue i j
    have near :=
      Triplets.abs_totalAt_merge_sub_le (t := appended) nonneg
        (max i.val j.val) (min i.val j.val)
    rw [slackAt_eq_openSlackAt acceptable fits zeroOrLarge isValue,
      add_sub_cancel_left, isMerged, ← totals]
    exact near

/--
Folding the fixed variables of a problem leaves in each constant, strictly
increasing and in the lower triangle, exactly the sums at a position that are not
small.  So if no fixed value is small but zero, a block differs from what is left
of it by at most `epsilon` wherever the fixed variables have their values.
-/
theorem foldConstants_foldsInto
    {store : Store K}
    (sound : store.Sound)
    (work : Workspace K)
    (nonneg : 0 ≤ work.epsilon) :
    List.Forall₂ work.FoldsInto store.blocks
      (work.foldConstants store).constants := by
  refine List.forall₂_map_right_iff.mpr (List.forall₂_same.mpr ?_)
  intro block member
  exact foldedConstant_foldsInto (sound.acceptable block member) nonneg

/--
A block that lists a variable twice, with a position in common, and a constant that
the diagonal entries of the variable cancel.
-/
def doubledBlock : Block ℚ :=
  {
    size := 2
    terms :=
      [
        {
          var := 0
          entries := { rows := [0, 1], cols := [0, 0], values := [1, 2] }
        },
        {
          var := 1
          entries := { rows := [1], cols := [1], values := [1] }
        },
        {
          var := 0
          entries := { rows := [1, 1], cols := [1, 0], values := [3, 1] }
        }
      ]
    constant := { rows := [1, 0], cols := [1, 0], values := [6, 2] }
  }

/-- A program with the doubled block, whose first variable is fixed. -/
def doubledProgram : Program ℚ :=
  {
    objective := [1, 1]
    lower := [2, 0]
    upper := [2, 5]
    integral := none
    blocks := [doubledBlock]
    rows := []
  }

/-- The store of the doubled program. -/
def doubledStore : Store ℚ :=
  [(1e20, Edit.load doubledProgram)].foldl Store.edited Store.empty

/-- The bounds of the doubled program, before anything has been folded. -/
def doubledWork : Workspace ℚ :=
  {
    Workspace.empty with
    epsilon := 1 / 1000
    bounds := Bounds.ofStored doubledStore.lower doubledStore.upper
  }

/-- The folded constant keeps the entry that both listings share, and drops the one that cancels. -/
theorem doubledStore_foldsInto :
    doubledStore.Sound ∧
      0 ≤ doubledWork.epsilon ∧
        List.Forall₂ doubledWork.FoldsInto doubledStore.blocks
            (doubledWork.foldConstants doubledStore).constants ∧
          ∃ constant,
            (doubledWork.foldConstants doubledStore).constants = [constant] ∧
              ⟨1, 0, -6⟩ ∈ constant.entries ∧
                ∀ value, ⟨1, 1, value⟩ ∉ constant.entries := by
  have sound : doubledStore.Sound :=
    Store.sound_of_edits [(1e20, Edit.load doubledProgram)]
  have nonneg : 0 ≤ doubledWork.epsilon := by
    decide +kernel
  have folds := foldConstants_foldsInto sound doubledWork nonneg
  refine ⟨sound, nonneg, folds, doubledWork.foldedConstant doubledBlock, ?_⟩
  have isBlock : doubledStore.blocks = [doubledBlock] := by
    decide +kernel
  have isConstant :
      (doubledWork.foldConstants doubledStore).constants =
        [doubledWork.foldedConstant doubledBlock] := by
    rw [foldConstants, isBlock]
    rfl
  rw [isBlock, isConstant] at folds
  obtain ⟨foldsInto, -⟩ := List.forall₂_cons.mp folds
  have shared : doubledWork.remainderAt doubledBlock 1 0 = -6 := by
    decide +kernel
  have cancels : doubledWork.remainderAt doubledBlock 1 1 = 0 := by
    decide +kernel
  refine ⟨isConstant, (foldsInto.listed 1 0 (-6)).mpr ⟨shared.symm, ?_⟩, ?_⟩
  · decide +kernel
  · intro value member
    obtain ⟨isZero, large⟩ := (foldsInto.listed 1 1 value).mp member
    rw [isZero, cancels, abs_zero] at large
    exact absurd large nonneg.not_gt

end Workspace

end SdpRelay
