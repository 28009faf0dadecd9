import Mathlib
import SdpRelay.Presolve.Compaction

namespace SdpRelay

/-!
# Kept indices

A compaction keeps the listed indices below its size, in increasing order.  So the
new number of a kept index is the number of kept indices before it, and it moves up
by the number of removed ones before it.
-/

/-- Behind what it has found, the loop that drops repetitions puts a strictly sorted list. -/
theorem eraseReps_loop
    {first : Nat}
    {rest : List Nat}
    (sorted : (first :: rest).Pairwise (· ≤ ·))
    (found : List Nat) :
    ∃ distinct,
      List.eraseRepsBy.loop (· == ·) first rest found =
          found.reverse ++ distinct ∧
        distinct.Pairwise (· < ·) ∧
        ∀ i, i ∈ distinct ↔ i ∈ first :: rest := by
  induction rest generalizing first found with
  | nil =>
      exact
        ⟨[first], by simp [List.eraseRepsBy.loop], List.pairwise_singleton _ _,
          fun _ => Iff.rfl⟩
  | cons second rest inductionHypothesis =>
      obtain ⟨isLeast, restSorted⟩ := List.pairwise_cons.mp sorted
      rw [List.eraseRepsBy.loop]
      by_cases repeated : first = second
      · subst second
        obtain ⟨distinct, reached, increasing, sameMembers⟩ :=
          inductionHypothesis restSorted found
        refine ⟨distinct, ?_, increasing, fun i => ?_⟩
        · simpa using reached
        · rw [sameMembers]
          simp
      · obtain ⟨distinct, reached, increasing, sameMembers⟩ :=
          inductionHypothesis restSorted (first :: found)
        have isLess : first < second :=
          lt_of_le_of_ne (isLeast second List.mem_cons_self) repeated
        refine ⟨first :: distinct, ?_, List.pairwise_cons.mpr ⟨?_, increasing⟩, ?_⟩
        · have differ : (first == second) = false := by
            simpa using repeated
          rw [differ]
          simpa using reached
        · intro i member
          rcases List.mem_cons.mp ((sameMembers i).mp member) with isSecond | inRest
          · exact isSecond ▸ isLess
          · exact
              isLess.trans_le
                ((List.pairwise_cons.mp restSorted).1 i inRest)
        · intro i
          rw [List.mem_cons, sameMembers, ← List.mem_cons]

/-- Dropping repetitions of a sorted list leaves it strictly sorted, with the same members. -/
theorem eraseReps_of_sorted
    {indices : List Nat}
    (sorted : indices.Pairwise (· ≤ ·)) :
    indices.eraseReps.Pairwise (· < ·) ∧
      ∀ i, i ∈ indices.eraseReps ↔ i ∈ indices := by
  cases indices with
  | nil =>
      exact ⟨List.Pairwise.nil, fun _ => Iff.rfl⟩
  | cons first rest =>
      obtain ⟨distinct, reached, increasing, sameMembers⟩ :=
        eraseReps_loop sorted []
      have isDistinct : (first :: rest).eraseReps = distinct := reached
      rw [isDistinct]
      exact ⟨increasing, sameMembers⟩

namespace IndexCompaction

variable
  (size : Nat)
  (indices : List Nat)

/-- A compaction keeps the listed indices below its size in increasing order. -/
theorem kept_keeping :
    (keeping size indices).kept =
      (List.range size).filter fun i => decide (i ∈ indices) := by
  have sorted :
      ((indices.filter (· < size)).mergeSort fun i j => i ≤ j).Pairwise
        (· ≤ ·) := by
    have byTest :
        ((indices.filter (· < size)).mergeSort fun i j => i ≤ j).Pairwise
          fun i j => decide (i ≤ j) = true :=
      List.pairwise_mergeSort
        (fun first second third => by simpa using Nat.le_trans)
        (fun first second => by simpa using Nat.le_total first second)
        (indices.filter (· < size))
    simpa using byTest
  obtain ⟨increasing, sameMembers⟩ := eraseReps_of_sorted sorted
  refine
    List.Pairwise.eq_of_mem_iff increasing
      (List.pairwise_lt_range.filter _) fun i => ?_
  refine (sameMembers i).trans (List.mem_mergeSort.trans ?_)
  simp [and_comm]

/-- How many of the listed indices are below an index. -/
def keptBefore
    (indices : List Nat)
    (i : Nat) :
    Nat :=
  (List.range i).countP fun j => decide (j ∈ indices)

/-- How many indices below an index are not listed. -/
def removedBefore
    (indices : List Nat)
    (i : Nat) :
    Nat :=
  (List.range i).countP fun j => !decide (j ∈ indices)

theorem keptBefore_add_removedBefore (i : Nat) :
    keptBefore indices i + removedBefore indices i = i := by
  have counted :=
    List.length_eq_countP_add_countP (fun j => decide (j ∈ indices))
      (l := List.range i)
  rw [List.length_range] at counted
  simpa [keptBefore, removedBefore] using counted.symm

/-- A kept index gets the number of kept indices before it, and any other one no number. -/
theorem newIndex_keeping
    {size i : Nat}
    (inside : i < size)
    (indices : List Nat) :
    (keeping size indices).newIndex i =
      if i ∈ indices then some (keptBefore indices i) else none := by
  rw [newIndex, kept_keeping]
  split
  · rename_i listed
    let before := (List.range i).filter fun j => decide (j ∈ indices)
    obtain ⟨after, isKept⟩ :
        ∃ after,
          ((List.range size).filter fun j => decide (j ∈ indices)) =
            before ++ i :: after := by
      obtain ⟨later, rfl⟩ : ∃ later, size = i + 1 + later :=
        ⟨size - (i + 1), by omega⟩
      refine
        ⟨((List.range later).map (i + 1 + ·)).filter fun j =>
          decide (j ∈ indices), ?_⟩
      rw [List.range_add, List.filter_append, List.range_succ,
        List.filter_append, List.filter_singleton, decide_eq_true listed,
        List.append_assoc]
      rfl
    have beforeLength : before.length = keptBefore indices i :=
      List.countP_eq_length_filter.symm
    rw [isKept, List.idxOf?_eq_some_iff, ← beforeLength]
    refine ⟨by simp, by simp, fun j earlier => ?_⟩
    rw [List.getElem_append_left earlier]
    have below : before[j] < i :=
      List.mem_range.mp (List.mem_of_mem_filter (List.getElem_mem earlier))
    exact below.ne
  · rename_i unlisted
    rw [List.idxOf?_eq_none_iff]
    simp [unlisted]

/-- A kept index moves up by the number of removed indices before it. -/
theorem shift_keeping
    {size i : Nat}
    (inside : i < size)
    (indices : List Nat) :
    (keeping size indices).shift i =
      if i ∈ indices then some (removedBefore indices i) else none := by
  have counted := keptBefore_add_removedBefore indices i
  have moved : i - keptBefore indices i = removedBefore indices i := by
    omega
  rw [shift, newIndex_keeping inside]
  split
  · exact congrArg some moved
  · rfl

/-- The removed indices are the ones below the size that are not listed. -/
theorem removed_keeping :
    (keeping size indices).removed = removedBefore indices size := by
  have counted := keptBefore_add_removedBefore indices size
  rw [removed, kept_keeping, ← List.countP_eq_length_filter]
  simp only [keeping]
  rw [keptBefore] at counted
  omega

/-- All indices are removed exactly if none is kept. -/
theorem removed_eq_size :
    (keeping size indices).removed = size ↔
      (keeping size indices).kept.isEmpty := by
  have counted := keptBefore_add_removedBefore indices size
  rw [removed_keeping, kept_keeping, List.isEmpty_iff_length_eq_zero,
    ← List.countP_eq_length_filter]
  rw [keptBefore] at counted
  omega

end IndexCompaction

end SdpRelay
