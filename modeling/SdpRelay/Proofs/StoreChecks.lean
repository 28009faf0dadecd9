import Mathlib
import SdpRelay.Problem.Store
import SdpRelay.Proofs.CompressedRows

namespace SdpRelay

/-!
# What the checks of the store accept

Every check of the store stops at the first fault it meets.  The predicates
below say what it accepts without an order: a check succeeds if and only if its
argument is acceptable.
-/

namespace Check

section Sequences

variable {ε β γ : Type}

/-- A computation in two steps succeeds if both steps do. -/
theorem bind_eq_ok
    {first : Except ε β}
    {second : β → Except ε γ}
    {result : γ} :
    (first >>= second) = .ok result ↔
      ∃ middle, first = .ok middle ∧ second middle = .ok result := by
  cases first with
  | error fault =>
      simp [bind, Except.bind]
  | ok middle =>
      simp [bind, Except.bind]

theorem then_eq_ok
    {check : Except ε Unit}
    {second : Unit → Except ε γ}
    {result : γ} :
    (check >>= second) = .ok result ↔
      check = .ok () ∧ second () = .ok result := by
  rw [bind_eq_ok]
  constructor
  · rintro ⟨⟨⟩, passes, succeeds⟩
    exact ⟨passes, succeeds⟩
  · rintro ⟨passes, succeeds⟩
    exact ⟨(), passes, succeeds⟩

/-- A check of every item of a list succeeds if every item passes. -/
theorem forM_eq_ok
    {items : List β}
    {check : β → Except ε Unit} :
    items.forM check = .ok () ↔ ∀ item ∈ items, check item = .ok () := by
  induction items with
  | nil =>
      simp [pure, Except.pure]
  | cons item rest inductionHypothesis =>
      have unfolded :
          (item :: rest).forM check =
            (check item >>= fun _ => rest.forM check) :=
        rfl
      rw [unfolded, then_eq_ok, List.forall_mem_cons, inductionHypothesis]

theorem ite_eq_ok
    {test : Prop}
    [Decidable test]
    {fault : ε} :
    (if test then Except.ok () else Except.error fault) = .ok () ↔ test := by
  by_cases passes : test <;> simp [passes]

theorem ite_error_eq_ok
    {test : Prop}
    [Decidable test]
    {fault : ε} :
    (if test then Except.error fault else Except.ok ()) = .ok () ↔ ¬ test := by
  by_cases passes : test <;> simp [passes]

end Sequences

theorem length_eq_ok
    {α : Type}
    {what : String}
    {actual expected : Nat} :
    length (α := α) what actual expected = .ok () ↔ actual = expected :=
  ite_eq_ok

/-- Whether a check succeeds can be found out by running it. -/
def decidableOfCheck
    {ε : Type}
    {accepts : Prop}
    {check : Except ε Unit}
    (spec : check = .ok () ↔ accepts) :
    Decidable accepts :=
  match check, spec with
  | .ok (), spec => .isTrue (spec.mp rfl)
  | .error _, spec => .isFalse fun accepted => nomatch spec.mpr accepted

end Check

section Matrices

variable {α : Type}

/--
A sparse matrix fits a size: its lists have one length, and its entries lie in
the lower triangle and within the size.
-/
def Triplets.Fits
    (entries : Triplets α)
    (size : Nat) :
    Prop :=
  entries.Balanced ∧
    ∀ entry ∈ entries.entries, entry.col ≤ entry.row ∧ entry.row < size

/-- A block that may be stored beside a number of variables. -/
structure Block.Acceptable
    (variableCount : Nat)
    (block : Block α) : Prop where
  known : ∀ term ∈ block.terms, term.var < variableCount
  terms : ∀ term ∈ block.terms, term.entries.Fits block.size
  constant : block.constant.Fits block.size

namespace Check

/-- The check of a sparse matrix accepts those that fit. -/
theorem matrix_eq_ok
    {size : Nat}
    {entries : Triplets α} :
    matrix size entries = .ok () ↔ entries.Fits size := by
  have checked :
      matrix size entries = .ok () ↔ entries.check size = .ok () := by
    unfold matrix
    cases entries.check size <;> simp
  rw [checked, Triplets.check, Triplets.Fits]
  by_cases balanced : entries.Balanced
  · rw [if_pos balanced, forM_eq_ok]
    simp only [balanced, true_and]
    apply forall₂_congr
    intro entry _
    unfold Triplets.checkEntry
    split
    · simp only [reduceCtorEq, false_iff]
      omega
    · split
      · simp only [reduceCtorEq, false_iff]
        omega
      · simp only [true_iff]
        omega
  · simp [balanced]

/-- The check of a term accepts a known variable with a matrix that fits. -/
theorem term_eq_ok
    {variableCount blockNumber size : Nat}
    {candidate : BlockTerm α} :
    term variableCount blockNumber size candidate = .ok () ↔
      candidate.var < variableCount ∧ candidate.entries.Fits size := by
  unfold term
  by_cases unknown : variableCount ≤ candidate.var
  · have notKnown : ¬ candidate.var < variableCount := Nat.not_lt.mpr unknown
    simp [unknown, notKnown, then_eq_ok]
  · have known : candidate.var < variableCount := Nat.not_le.mp unknown
    simp [unknown, known, then_eq_ok, matrix_eq_ok]

/-- The check of blocks accepts the acceptable ones. -/
theorem blocksFrom_eq_ok
    {variableCount blockNumber : Nat}
    {blocks : List (Block α)} :
    blocksFrom variableCount blockNumber blocks = .ok () ↔
      ∀ block ∈ blocks, block.Acceptable variableCount := by
  induction blocks generalizing blockNumber with
  | nil =>
      simp [blocksFrom]
  | cons block rest inductionHypothesis =>
      rw [blocksFrom, List.forall_mem_cons, ← inductionHypothesis]
      simp only [then_eq_ok, forM_eq_ok, term_eq_ok, matrix_eq_ok]
      constructor
      · rintro ⟨termsFit, constantFits, restAccepted⟩
        exact
          ⟨⟨fun term member => (termsFit term member).1,
              fun term member => (termsFit term member).2,
              constantFits⟩,
            restAccepted⟩
      · rintro ⟨acceptable, restAccepted⟩
        exact
          ⟨fun term member =>
              ⟨acceptable.known term member, acceptable.terms term member⟩,
            acceptable.constant, restAccepted⟩

end Check

end Matrices

section Programs

variable {α : Type} [Scalar α]

/-- A row that may be stored beside a number of variables. -/
structure LinearRow.Acceptable
    (sentinel : α)
    (variableCount : Nat)
    (row : LinearRow α) : Prop where
  balanced : row.Balanced
  sides : Check.LimitsValid sentinel row.left row.right
  known : ∀ var ∈ row.vars, var < variableCount
  finite :
    ∀ coef ∈ row.coefs,
      beyondSentinel sentinel coef = false ∧ Scalar.isNaN coef = false

/-- A program that may be stored. -/
structure Program.Acceptable
    (sentinel : α)
    (program : Program α) : Prop where
  lowerLength : program.lower.length = program.objective.length
  upperLength : program.upper.length = program.objective.length
  integralLength : program.integralFlags.length = program.objective.length
  bounds :
    ∀ limits ∈ program.lower.zip program.upper,
      Check.LimitsValid sentinel limits.1 limits.2
  blocks :
    ∀ block ∈ program.blocks, block.Acceptable program.objective.length
  rows :
    ∀ row ∈ program.rows,
      row.Acceptable sentinel program.objective.length

namespace Check

/-- The check of a row accepts the acceptable ones. -/
theorem row_eq_ok
    {sentinel : α}
    {variableCount : Nat}
    {candidate : LinearRow α} :
    row sentinel variableCount candidate = .ok () ↔
      candidate.Acceptable sentinel variableCount := by
  unfold row sides
  simp only [then_eq_ok, length_eq_ok, ite_eq_ok]
  cases found :
      candidate.vars.find? (fun var => decide (variableCount ≤ var)) with
  | some unknown =>
      have isUnknown : variableCount ≤ unknown := by
        simpa using List.find?_some found
      simp only [then_eq_ok, reduceCtorEq, false_and, and_false, false_iff]
      intro acceptable
      have isKnown :=
        acceptable.known unknown (List.mem_of_find?_eq_some found)
      omega
  | none =>
      have known : ∀ var ∈ candidate.vars, var < variableCount := by
        simpa using List.find?_eq_none.mp found
      simp only [then_eq_ok, ite_error_eq_ok, List.any_eq_true,
        Bool.or_eq_true, not_exists, not_and, not_or, Bool.not_eq_true]
      constructor
      · rintro ⟨balanced, sidesValid, _, finite⟩
        exact ⟨balanced.symm, sidesValid, known, finite⟩
      · intro acceptable
        exact
          ⟨acceptable.balanced.symm, acceptable.sides, trivial,
            acceptable.finite⟩

/-- The check of a program accepts the acceptable ones. -/
theorem program_eq_ok
    {sentinel : α}
    {candidate : Program α} :
    program sentinel candidate = .ok () ↔ candidate.Acceptable sentinel := by
  unfold program bounds
  cases flagsGiven : candidate.integral with
  | none =>
      simp only [then_eq_ok, length_eq_ok, forM_eq_ok, ite_eq_ok,
        blocksFrom_eq_ok, row_eq_ok, true_and]
      constructor
      · rintro ⟨lowerLength, upperLength, boundsValid, blocks, rows⟩
        exact
          ⟨lowerLength, upperLength,
            by simp [Program.integralFlags, flagsGiven],
            boundsValid, blocks, rows⟩
      · intro acceptable
        exact
          ⟨acceptable.lowerLength, acceptable.upperLength,
            acceptable.bounds, acceptable.blocks, acceptable.rows⟩
  | some flags =>
      simp only [then_eq_ok, length_eq_ok, forM_eq_ok, ite_eq_ok,
        blocksFrom_eq_ok, row_eq_ok]
      constructor
      · rintro ⟨lowerLength, upperLength, flagsLength, boundsValid, blocks, rows⟩
        exact
          ⟨lowerLength, upperLength,
            by simpa [Program.integralFlags, flagsGiven] using flagsLength,
            boundsValid, blocks, rows⟩
      · intro acceptable
        exact
          ⟨acceptable.lowerLength, acceptable.upperLength,
            by simpa [Program.integralFlags, flagsGiven]
              using acceptable.integralLength,
            acceptable.bounds, acceptable.blocks, acceptable.rows⟩

end Check

instance
    (sentinel : α)
    (variableCount : Nat)
    (row : LinearRow α) :
    Decidable (row.Acceptable sentinel variableCount) :=
  Check.decidableOfCheck Check.row_eq_ok

instance
    (sentinel : α)
    (program : Program α) :
    Decidable (program.Acceptable sentinel) :=
  Check.decidableOfCheck Check.program_eq_ok

end Programs

end SdpRelay
