import Mathlib
import SdpRelay.Proofs.CheckedOneVariable
import SdpRelay.Proofs.KeptIndices

namespace SdpRelay

/-!
# Marked indices

The indices of a block are marked in a map as long as the block: first those of the
entries of free variables, then those of the folded constant.  Marking counts the
indices that are marked for the first time, and stops as soon as there are as many as
the block has.  After a stop, marking the rest would change nothing; so the marked
indices are the touched ones.
-/

/-- The marked indices of a block, and how many they are. -/
structure Marking where
  map : List (Option Nat)
  found : Nat
  deriving Repr, DecidableEq

namespace Checked

/-- Mark an index, and count it if it was not marked before. -/
def countMark
    (marking : Marking)
    (i : Nat) :
    Checked Marking := do
  match ← item marking.map i with
  | none =>
      return {
        map := ← replace marking.map i (some 1)
        found := marking.found + 1
      }
  | some _ => return marking

/-- Mark the rows and columns of entries until all indices are found, and tell whether they are. -/
def markListed (size : Nat) :
    List (Entry α) → Marking → Checked (Marking × Bool)
  | [], marking => return (marking, false)
  | entry :: rest, marking => do
      let rowMarked ← countMark marking entry.row
      let marked ← countMark rowMarked entry.col
      if marked.found = size then
        return (marked, true)
      else
        markListed size rest marked

variable {α : Type} [Scalar α]

/-- Mark the terms of the variables that are not fixed until all indices are found. -/
def markTerms
    (work : Workspace α)
    (size : Nat) :
    List (BlockTerm α) → Marking → Checked Marking
  | [], marking => return marking
  | term :: rest, marking => do
      if ← fixedAt work.bounds work.epsilon term.var then
        markTerms work size rest marking
      else
        let (marked, full) ← markListed size term.entries.entries marking
        if full then
          return marked
        else
          markTerms work size rest marked

/-- Mark the indices of a block, those of its constant unless its terms touch all. -/
def markBlock
    (work : Workspace α)
    (block : Block α)
    (constant : Triplets α)
    (map : List (Option Nat)) :
    Checked (List (Option Nat)) := do
  let terms ← markTerms work block.size block.terms { map := map, found := 0 }
  if terms.found < block.size then
    let (marked, _) ← markListed block.size constant.entries terms
    return marked.map
  else
    return terms.map

/-!
## Nothing is left after a stop
-/

/-- The map of a size in which the given indices are marked. -/
def marksOf
    (size : Nat)
    (indices : List Nat) :
    List (Option Nat) :=
  (List.range size).map fun i => if i ∈ indices then some 1 else none

section Marks

variable
  {size : Nat}
  {indices : List Nat}

theorem marksOf_nil (size : Nat) :
    marksOf size [] = List.replicate size none := by
  simp [marksOf]

theorem marksOf_succ
    (size : Nat)
    (indices : List Nat) :
    marksOf (size + 1) indices =
      marksOf size indices ++ [if size ∈ indices then some 1 else none] := by
  rw [marksOf, List.range_succ, List.map_append]
  rfl

/-- A marked index can be marked again. -/
theorem marksOf_append_of_mem
    {i : Nat}
    (marked : i ∈ indices) :
    marksOf size (indices ++ [i]) = marksOf size indices := by
  refine List.map_congr_left fun j _ => ?_
  have same : j ∈ indices ++ [i] ↔ j ∈ indices := by
    rw [List.mem_append, List.mem_singleton]
    exact or_iff_left_of_imp fun isHere => isHere ▸ marked
  simp only [same]

/-- One more index is marked in its place. -/
theorem set_marksOf
    (size i : Nat)
    (indices : List Nat) :
    (marksOf size indices).set i (some 1) = marksOf size (indices ++ [i]) := by
  apply List.ext_getElem
  · simp [marksOf]
  · intro j _ _
    by_cases isHere : i = j
    · subst j
      simp [marksOf]
    · have isOther : ¬ j = i := fun same => isHere same.symm
      simp [marksOf, isHere, isOther]

/-- The unmarked indices of a map are the ones that are removed. -/
theorem countP_marksOf
    (size : Nat)
    (indices : List Nat) :
    (marksOf size indices).countP Option.isNone =
      IndexCompaction.removedBefore indices size := by
  rw [marksOf, List.countP_map, IndexCompaction.removedBefore]
  refine List.countP_congr fun i _ => ?_
  by_cases listed : i ∈ indices
  · simp [listed]
  · simp [listed]

/-- The marking of a size that has found the given indices. -/
def markingOf
    (size : Nat)
    (indices : List Nat) :
    Marking :=
  {
    map := marksOf size indices
    found := (marksOf size indices).countP Option.isSome
  }

theorem markingOf_nil (size : Nat) :
    markingOf size [] = { map := List.replicate size none, found := 0 } := by
  simp [markingOf, marksOf_nil]

/-- There are never more indices found than the size has. -/
theorem found_markingOf_le
    (size : Nat)
    (indices : List Nat) :
    (markingOf size indices).found ≤ size := by
  have atMostAll :=
    List.countP_le_length (p := Option.isSome) (l := marksOf size indices)
  simpa [markingOf, marksOf] using atMostAll

/-- Once all indices are found, marking more of them changes nothing. -/
theorem markingOf_append_of_full
    (full : (markingOf size indices).found = size)
    (more : List Nat) :
    markingOf size (indices ++ more) = markingOf size indices := by
  have marksLength : (marksOf size indices).length = size := by
    simp [marksOf]
  have allMarked : ∀ i < size, i ∈ indices := by
    intro i inside
    have isMarked :=
      List.countP_eq_length.mp (full.trans marksLength.symm)
        (if i ∈ indices then some 1 else none)
        (List.mem_map.mpr ⟨i, List.mem_range.mpr inside, rfl⟩)
    by_contra unlisted
    rw [if_neg unlisted] at isMarked
    cases isMarked
  have sameMarks : marksOf size (indices ++ more) = marksOf size indices := by
    refine List.map_congr_left fun i member => ?_
    have listed := allMarked i (List.mem_range.mp member)
    rw [if_pos listed, if_pos (List.mem_append_left more listed)]
  rw [markingOf, markingOf, sameMarks]

theorem countMark_eq
    {i : Nat}
    (inside : i < size)
    (indices : List Nat) :
    countMark (markingOf size indices) i =
      .ok (markingOf size (indices ++ [i])) := by
  have inMap : i < (marksOf size indices).length := by
    simpa [marksOf] using inside
  have isMark :
      (marksOf size indices)[i] = if i ∈ indices then some 1 else none := by
    simp [marksOf]
  rw [countMark, markingOf, item_getElem inMap, ok_bind, isMark]
  by_cases listed : i ∈ indices
  · rw [if_pos listed, markingOf, marksOf_append_of_mem listed]
    rfl
  · have oneMore :
        (marksOf size (indices ++ [i])).countP Option.isSome =
          (marksOf size indices).countP Option.isSome + 1 := by
      rw [← set_marksOf, List.countP_set inMap, isMark, if_neg listed]
      rfl
    rw [if_neg listed]
    dsimp only
    rw [replace_eq inMap, ok_bind, markingOf, oneMore, set_marksOf]
    rfl

omit [Scalar α] in
/-- Entries inside the size are marked until all indices are found. -/
theorem markListed_eq
    {entries : List (Entry α)}
    (inside : ∀ entry ∈ entries, entry.row < size ∧ entry.col < size)
    (indices : List Nat) :
    ∃ stopped,
      markListed size entries (markingOf size indices) =
          .ok
            (markingOf size
              (indices ++ entries.flatMap fun entry => [entry.row, entry.col]),
              stopped) ∧
        (stopped = true →
          (markingOf size
            (indices ++
              entries.flatMap fun entry => [entry.row, entry.col])).found =
            size) := by
  induction entries generalizing indices with
  | nil =>
      rw [List.flatMap_nil, List.append_nil]
      exact ⟨false, rfl, fun stopped => by cases stopped⟩
  | cons entry rest inductionHypothesis =>
      obtain ⟨rowInside, colInside⟩ := inside entry List.mem_cons_self
      have restInside :
          ∀ other ∈ rest, other.row < size ∧ other.col < size :=
        fun other member => inside other (List.mem_cons_of_mem entry member)
      have split :
          indices ++
              (entry :: rest).flatMap (fun entry => [entry.row, entry.col]) =
            (indices ++ [entry.row] ++ [entry.col]) ++
              rest.flatMap fun entry => [entry.row, entry.col] := by
        simp
      rw [markListed, countMark_eq rowInside, ok_bind, countMark_eq colInside,
        ok_bind, split]
      split
      · rename_i full
        rw [markingOf_append_of_full full]
        exact ⟨true, rfl, fun _ => full⟩
      · exact inductionHypothesis restInside _

variable
  {work : Workspace α}
  {store : Store α}
  {block : Block α}

/-- The terms of the variables that are not fixed are marked until all indices are found. -/
theorem markTerms_eq
    {variableCount : Nat}
    {terms : List (BlockTerm α)}
    (sized : work.bounds.Sized variableCount)
    (known : ∀ term ∈ terms, term.var < variableCount)
    (inside : ∀ term ∈ terms, term.entries.Inside size)
    (indices : List Nat) :
    markTerms work size terms (markingOf size indices) =
      .ok
        (markingOf size
          (indices ++
            (terms.filter fun term =>
              !decide (work.bounds.Fixed work.epsilon term.var)).flatMap
                fun term => Compaction.touchedBy term.entries)) := by
  induction terms generalizing indices with
  | nil =>
      rw [List.filter_nil, List.flatMap_nil, List.append_nil]
      rfl
  | cons term rest inductionHypothesis =>
      have later :=
        inductionHypothesis
          (fun other member => known other (List.mem_cons_of_mem term member))
          (fun other member => inside other (List.mem_cons_of_mem term member))
      rw [markTerms,
        fixedAt_eq sized (known term List.mem_cons_self) work.epsilon, ok_bind]
      by_cases fixed : work.bounds.Fixed work.epsilon term.var
      · rw [if_pos (decide_eq_true fixed), later,
          List.filter_cons_of_neg (by simpa using fixed)]
      · obtain ⟨stopped, marked, full⟩ :=
          markListed_eq (inside term List.mem_cons_self) indices
        rw [if_neg (by simpa using fixed), marked, ok_bind,
          List.filter_cons_of_pos (by simpa using fixed), List.flatMap_cons,
          ← List.append_assoc]
        cases stopped with
        | true =>
            rw [← markingOf_append_of_full (full rfl)]
            rfl
        | false =>
            exact later _

/-- A block is marked in range in a map of its size, and all touched indices are. -/
theorem markBlock_eq
    {constant : Triplets α}
    {variableCount : Nat}
    (sized : work.bounds.Sized variableCount)
    (acceptable : block.Acceptable variableCount)
    (inside : constant.Inside block.size) :
    markBlock work block constant (marksOf block.size []) =
      .ok
        (marksOf block.size
          (Compaction.touchedIndices work.bounds work.epsilon block
            constant)) := by
  let free :=
    (block.terms.filter fun term =>
      !decide (work.bounds.Fixed work.epsilon term.var)).flatMap
        fun term => Compaction.touchedBy term.entries
  have terms :
      markTerms work block.size block.terms
          { map := marksOf block.size [], found := 0 } =
        .ok (markingOf block.size free) := by
    rw [marksOf_nil, ← markingOf_nil]
    exact
      markTerms_eq sized acceptable.known
        (fun term member => (acceptable.terms term member).inside) []
  rw [markBlock, terms, ok_bind]
  split
  · obtain ⟨stopped, marked, _⟩ := markListed_eq inside free
    rw [marked]
    rfl
  · rename_i notLess
    have full : (markingOf block.size free).found = block.size :=
      (found_markingOf_le block.size free).antisymm (not_lt.mp notLess)
    have unchanged :=
      markingOf_append_of_full full (Compaction.touchedBy constant)
    exact congrArg (fun marking => Except.ok marking.map) unchanged.symm

end Marks

end Checked

end SdpRelay
