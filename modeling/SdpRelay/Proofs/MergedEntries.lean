import Mathlib
import SdpRelay.Proofs.CheckedBlocks
import SdpRelay.Proofs.ExactField

namespace SdpRelay

/-!
# Merged entries

Merging sorts listed entries by position, adds up the neighbours at one position and
drops small sums.  The sort is stable, so that the values at a position keep the order
in which they were listed.  A merged matrix then lists every position at most once, in
strictly increasing order, with the sum of its values from the first to the last.
-/

variable {α : Type}

/-- An entry stands before another one, by rows first. -/
def Entry.Before (first second : Entry α) : Prop :=
  first.row < second.row ∨
    (first.row = second.row ∧ first.col < second.col)

instance (first second : Entry α) : Decidable (first.Before second) :=
  inferInstanceAs (Decidable (_ ∨ _))

/-- An entry stands at a position. -/
def Entry.At
    (row col : Nat)
    (entry : Entry α) :
    Prop :=
  entry.row = row ∧ entry.col = col

instance
    (row col : Nat)
    (entry : Entry α) :
    Decidable (entry.At row col) :=
  inferInstanceAs (Decidable (_ ∧ _))

/-- The values that are listed at a position, in order. -/
def valuesAt
    (listed : List (Entry α))
    (row col : Nat) :
    List α :=
  (listed.filter fun entry => decide (entry.At row col)).map Entry.value

/-- The sum of some values, added up from the first to the last, if there are any. -/
def runningSum? [Add α] : List α → Option α
  | [] => none
  | first :: rest => some (rest.foldl (· + ·) first)

section Listed

variable
  {row col : Nat}
  {entry : Entry α}
  {rest : List (Entry α)}

@[simp] theorem valuesAt_nil (row col : Nat) :
    valuesAt ([] : List (Entry α)) row col = [] :=
  rfl

theorem valuesAt_cons_of_at
    (isHere : entry.At row col)
    (rest : List (Entry α)) :
    valuesAt (entry :: rest) row col =
      entry.value :: valuesAt rest row col := by
  simp [valuesAt, isHere]

theorem valuesAt_cons_of_not_at
    (elsewhere : ¬ entry.At row col)
    (rest : List (Entry α)) :
    valuesAt (entry :: rest) row col = valuesAt rest row col := by
  simp [valuesAt, elsewhere]

theorem valuesAt_append (first second : List (Entry α)) (row col : Nat) :
    valuesAt (first ++ second) row col =
      valuesAt first row col ++ valuesAt second row col := by
  simp [valuesAt]

/-- Nothing is listed at a position that all entries stand behind. -/
theorem valuesAt_of_before
    (isHere : entry.At row col)
    (behind : ∀ later ∈ rest, entry.Before later) :
    valuesAt rest row col = [] := by
  obtain ⟨rfl, rfl⟩ := isHere
  simp only [valuesAt, List.map_eq_nil_iff, List.filter_eq_nil_iff,
    decide_eq_true_eq]
  rintro later member ⟨sameRow, sameCol⟩
  rcases behind later member with lower | ⟨_, further⟩
  · omega
  · omega

/-- A value is listed at a position exactly if an entry is. -/
theorem mem_valuesAt
    {listed : List (Entry α)}
    {value : α} :
    value ∈ valuesAt listed row col ↔ ⟨row, col, value⟩ ∈ listed := by
  simp only [valuesAt, List.mem_map, List.mem_filter, decide_eq_true_eq]
  constructor
  · rintro ⟨entry, ⟨member, rfl, rfl⟩, rfl⟩
    exact member
  · intro member
    exact ⟨_, ⟨member, rfl, rfl⟩, rfl⟩

/-- Among strictly increasing entries, only one is listed at its position. -/
theorem valuesAt_of_mem
    {listed : List (Entry α)}
    (increasing : listed.Pairwise Entry.Before)
    (member : entry ∈ listed) :
    valuesAt listed entry.row entry.col = [entry.value] := by
  induction listed with
  | nil =>
      cases member
  | cons first rest inductionHypothesis =>
      obtain ⟨isFirst, restIncreasing⟩ := List.pairwise_cons.mp increasing
      rcases List.mem_cons.mp member with isHead | inRest
      · subst entry
        rw [valuesAt_cons_of_at ⟨rfl, rfl⟩, valuesAt_of_before ⟨rfl, rfl⟩ isFirst]
      · have elsewhere : ¬ first.At entry.row entry.col := by
          have before := isFirst entry inRest
          simp only [Entry.Before, Entry.At] at before ⊢
          omega
        rw [valuesAt_cons_of_not_at elsewhere,
          inductionHypothesis restIncreasing inRest]

end Listed

namespace Triplets

variable
  {pending : Entry α}
  {rest : List (Entry α)}

theorem notAfter_iff {first second : Entry α} :
    notAfter first second = true ↔
      first.Before second ∨ second.At first.row first.col := by
  simp only [notAfter, Bool.or_eq_true, Bool.and_eq_true, decide_eq_true_eq,
    beq_iff_eq, Entry.Before, Entry.At]
  omega

theorem notAfter_trans
    (first second third : Entry α)
    (one : notAfter first second = true)
    (other : notAfter second third = true) :
    notAfter first third = true := by
  simp only [notAfter, Bool.or_eq_true, Bool.and_eq_true, decide_eq_true_eq,
    beq_iff_eq] at one other ⊢
  omega

theorem notAfter_total (first second : Entry α) :
    (notAfter first second || notAfter second first) = true := by
  simp only [notAfter, Bool.or_eq_true, Bool.and_eq_true, decide_eq_true_eq,
    beq_iff_eq]
  omega

/-- Sorting is stable: it keeps the values at a position in the order in which they were listed. -/
theorem valuesAt_mergeSort
    (listed : List (Entry α))
    (row col : Nat) :
    valuesAt (listed.mergeSort notAfter) row col = valuesAt listed row col := by
  let here := listed.filter fun entry => decide (entry.At row col)
  have atOnePlace : here.Pairwise fun first second => notAfter first second = true := by
    refine List.pairwise_of_forall_mem_list fun first inFirst second inSecond => ?_
    obtain ⟨_, firstHere⟩ := List.mem_filter.mp inFirst
    obtain ⟨_, secondHere⟩ := List.mem_filter.mp inSecond
    obtain ⟨rfl, rfl⟩ := of_decide_eq_true firstHere
    exact notAfter_iff.mpr (.inr (of_decide_eq_true secondHere))
  have stays : here.Sublist (listed.mergeSort notAfter) :=
    List.sublist_mergeSort notAfter_trans notAfter_total atOnePlace
      List.filter_sublist
  have filtered := stays.filter fun entry => decide (entry.At row col)
  rw [List.filter_filter] at filtered
  simp only [Bool.and_self] at filtered
  have sameLength :
      ((listed.mergeSort notAfter).filter fun entry =>
          decide (entry.At row col)).length = here.length :=
    ((List.mergeSort_perm listed notAfter).filter _).length_eq
  rw [valuesAt, ← filtered.eq_of_length sameLength.symm]
  rfl

/-- Sorted entries stay sorted when the second one is added to the first one. -/
theorem sorted_of_joined
    {next : Entry α}
    (sorted :
      (pending :: next :: rest).Pairwise fun first second =>
        notAfter first second = true)
    (value : α) :
    ({ pending with value := value } :: rest).Pairwise fun first second =>
      notAfter first second = true := by
  obtain ⟨isFirst, restSorted⟩ := List.pairwise_cons.mp sorted
  exact
    List.pairwise_cons.mpr
      ⟨fun later member => isFirst later (List.mem_cons_of_mem next member),
        (List.pairwise_cons.mp restSorted).2⟩

/-- Sorted entries that do not stand at the place of the first one stand behind it. -/
theorem before_of_elsewhere
    {next : Entry α}
    (sorted :
      (pending :: next :: rest).Pairwise fun first second =>
        notAfter first second = true)
    (elsewhere : ¬ next.At pending.row pending.col) :
    ∀ later ∈ next :: rest, pending.Before later := by
  obtain ⟨isFirst, restSorted⟩ := List.pairwise_cons.mp sorted
  have nextBehind : pending.Before next :=
    (notAfter_iff.mp (isFirst next List.mem_cons_self)).resolve_right elsewhere
  intro later member
  rcases List.mem_cons.mp member with isNext | inRest
  · rw [isNext]
    exact nextBehind
  · have behindNext :=
      notAfter_iff.mp ((List.pairwise_cons.mp restSorted).1 later inRest)
    simp only [Entry.Before, Entry.At] at nextBehind behindNext ⊢
    omega

variable [Scalar α]

/-- Adding up sorted entries leaves the sum of the values at each position. -/
theorem valuesAt_addedUp
    (sorted :
      (pending :: rest).Pairwise fun first second =>
        notAfter first second = true)
    (row col : Nat) :
    valuesAt (addedUp pending rest) row col =
      (runningSum? (valuesAt (pending :: rest) row col)).toList := by
  induction rest generalizing pending with
  | nil =>
      rw [addedUp]
      by_cases isHere : pending.At row col
      · rw [valuesAt_cons_of_at isHere]
        rfl
      · rw [valuesAt_cons_of_not_at isHere]
        rfl
  | cons next rest inductionHypothesis =>
      have restSorted := (List.pairwise_cons.mp sorted).2
      rw [addedUp]
      split
      · rename_i samePlace
        -- the next entry is added to the pending one, which stays where it is
        let sum := { pending with value := pending.value + next.value }
        rw [inductionHypothesis (sorted_of_joined sorted sum.value)]
        by_cases isHere : pending.At row col
        · have nextHere : next.At row col :=
            ⟨samePlace.1.trans isHere.1, samePlace.2.trans isHere.2⟩
          have sumHere : sum.At row col := isHere
          rw [valuesAt_cons_of_at isHere, valuesAt_cons_of_at nextHere,
            valuesAt_cons_of_at sumHere]
          rfl
        · have nextElsewhere : ¬ next.At row col := fun nextHere =>
            isHere
              ⟨samePlace.1.symm.trans nextHere.1,
                samePlace.2.symm.trans nextHere.2⟩
          have sumElsewhere : ¬ sum.At row col := isHere
          rw [valuesAt_cons_of_not_at isHere,
            valuesAt_cons_of_not_at nextElsewhere,
            valuesAt_cons_of_not_at sumElsewhere]
      · rename_i otherPlace
        by_cases isHere : pending.At row col
        · rw [valuesAt_cons_of_at isHere, valuesAt_cons_of_at isHere,
            inductionHypothesis restSorted,
            valuesAt_of_before isHere (before_of_elsewhere sorted otherPlace)]
          rfl
        · rw [valuesAt_cons_of_not_at isHere, valuesAt_cons_of_not_at isHere,
            inductionHypothesis restSorted]

/-- Adding up sorted entries leaves each position at most once, in increasing order. -/
theorem addedUp_pairwise_before
    (sorted :
      (pending :: rest).Pairwise fun first second =>
        notAfter first second = true) :
    (addedUp pending rest).Pairwise Entry.Before := by
  induction rest generalizing pending with
  | nil =>
      exact List.pairwise_singleton _ _
  | cons next rest inductionHypothesis =>
      have restSorted := (List.pairwise_cons.mp sorted).2
      rw [addedUp]
      split
      · exact inductionHypothesis (sorted_of_joined sorted _)
      · rename_i otherPlace
        refine
          List.pairwise_cons.mpr
            ⟨fun sum member => ?_, inductionHypothesis restSorted⟩
        obtain ⟨source, isSource, sameRow, sameCol⟩ := mem_addedUp member
        have behind := before_of_elsewhere sorted otherPlace source isSource
        simpa only [Entry.Before, sameRow, sameCol] using behind

/--
The entries of a merged matrix are those sums of values at a position that are not
small, one for each position, in increasing order.
-/
theorem entries_merge
    (t : Triplets α)
    (epsilon : α) :
    ∃ sums,
      (t.merge epsilon).entries =
        sums.filter (fun entry => decide (epsilon < Scalar.abs entry.value)) ∧
      sums.Pairwise Entry.Before ∧
      ∀ row col,
        valuesAt sums row col =
          (runningSum? (valuesAt t.entries row col)).toList := by
  have ofNone (none : t.entries = []) :
      ([] : List (Entry α)).Pairwise Entry.Before ∧
        ∀ row col,
          valuesAt ([] : List (Entry α)) row col =
            (runningSum? (valuesAt t.entries row col)).toList :=
    ⟨List.Pairwise.nil, fun _ _ => by rw [none]; rfl⟩
  unfold merge
  split
  · rename_i noValues
    have none : t.entries = [] := by
      simp [entries, noValues]
    exact ⟨[], none, ofNone none⟩
  · rename_i noneSorted _
    have permutation := List.mergeSort_perm t.entries notAfter
    rw [noneSorted] at permutation
    exact ⟨[], rfl, ofNone permutation.symm.eq_nil⟩
  · rename_i first rest sortedEntries _
    have sorted :=
      List.pairwise_mergeSort notAfter_trans notAfter_total t.entries
    rw [sortedEntries] at sorted
    refine
      ⟨addedUp first rest, entries_ofEntries _, addedUp_pairwise_before sorted,
        fun row col => ?_⟩
    rw [valuesAt_addedUp sorted, ← sortedEntries, valuesAt_mergeSort]

/-- A merged matrix lists each position at most once, in increasing order. -/
theorem merge_pairwise_before
    (t : Triplets α)
    (epsilon : α) :
    (t.merge epsilon).entries.Pairwise Entry.Before := by
  obtain ⟨sums, merged, increasing, _⟩ := t.entries_merge epsilon
  rw [merged]
  exact increasing.filter _

/-- A merged matrix lists exactly the sums at a position that are not small. -/
theorem mem_merge_iff
    {t : Triplets α}
    {epsilon : α}
    {entry : Entry α} :
    entry ∈ (t.merge epsilon).entries ↔
      runningSum? (valuesAt t.entries entry.row entry.col) =
          some entry.value ∧
        epsilon < Scalar.abs entry.value := by
  obtain ⟨sums, merged, _, values⟩ := t.entries_merge epsilon
  rw [merged, List.mem_filter, decide_eq_true_eq, ← mem_valuesAt, values,
    Option.mem_toList]

/-- Merging keeps the lists of a matrix equally long. -/
theorem Balanced.merge
    {t : Triplets α}
    (balanced : t.Balanced)
    (epsilon : α) :
    (t.merge epsilon).Balanced := by
  unfold Triplets.merge
  split
  · exact balanced
  · exact ⟨rfl, rfl⟩
  · simp [Balanced, ofEntries]

/-- Merging makes no new position. -/
theorem exists_listed_of_mem_merge
    {t : Triplets α}
    {epsilon : α}
    {entry : Entry α}
    (member : entry ∈ (t.merge epsilon).entries) :
    ∃ listed ∈ t.entries, listed.At entry.row entry.col := by
  have summed := (mem_merge_iff.mp member).1
  have hasValues : valuesAt t.entries entry.row entry.col ≠ [] := by
    intro none
    rw [none] at summed
    cases summed
  obtain ⟨value, isValue⟩ := List.exists_mem_of_ne_nil _ hasValues
  exact ⟨_, mem_valuesAt.mp isValue, rfl, rfl⟩

/-- The lower triangular entries of a matrix stay so when they are merged. -/
theorem Fits.merge
    {t : Triplets α}
    {size : Nat}
    (fits : t.Fits size)
    (epsilon : α) :
    (t.merge epsilon).Fits size := by
  refine ⟨fits.1.merge epsilon, fun entry member => ?_⟩
  obtain ⟨listed, isListed, sameRow, sameCol⟩ :=
    exists_listed_of_mem_merge member
  rw [← sameRow, ← sameCol]
  exact fits.2 listed isListed

/-- Lower triangular entries stay so when others are appended. -/
theorem Fits.appendScaled
    {t other : Triplets α}
    {size : Nat}
    (fits : t.Fits size)
    (otherFits : other.Fits size)
    (factor : α) :
    (t.appendScaled other factor).Fits size := by
  refine ⟨fits.1.appendScaled otherFits.1 factor, fun entry member => ?_⟩
  rw [entries_appendScaled fits.1, List.mem_append] at member
  rcases member with old | new
  · exact fits.2 entry old
  · obtain ⟨source, isSource, rfl⟩ := List.mem_map.mp new
    exact otherFits.2 source isSource

omit [Scalar α] in
/-- Lists of one length are those of the entries that they list. -/
theorem Balanced.ofEntries_entries
    {t : Triplets α}
    (balanced : t.Balanced) :
    ofEntries t.entries = t := by
  obtain ⟨sameRows, sameCols⟩ := balanced
  obtain ⟨rows, cols, values⟩ := t
  simp only at sameRows sameCols
  have sameLength : (cols.zip values).length = values.length := by
    rw [List.length_zip, sameCols, min_self]
  have listedRows : (rows.zip (cols.zip values)).map Prod.fst = rows :=
    List.map_fst_zip (sameRows.trans sameLength.symm).le
  have listedPairs :
      (rows.zip (cols.zip values)).map Prod.snd = cols.zip values :=
    List.map_snd_zip (sameLength.trans sameRows.symm).le
  have listedCols : (cols.zip values).map Prod.fst = cols :=
    List.map_fst_zip sameCols.le
  have listedValues : (cols.zip values).map Prod.snd = values :=
    List.map_snd_zip sameCols.ge
  rw [ofEntries, entries]
  simp only [List.map_map, mk.injEq]
  refine ⟨listedRows, ?_, ?_⟩
  · rw [← listedPairs, List.map_map] at listedCols
    exact listedCols
  · rw [← listedPairs, List.map_map] at listedValues
    exact listedValues

/-- Entries at different positions stay as they are when neighbours are added up. -/
theorem addedUp_of_increasing
    (increasing : (pending :: rest).Pairwise Entry.Before) :
    addedUp pending rest = pending :: rest := by
  induction rest generalizing pending with
  | nil =>
      rfl
  | cons next rest inductionHypothesis =>
      obtain ⟨isFirst, restIncreasing⟩ := List.pairwise_cons.mp increasing
      have otherPlace :
          ¬ (next.row = pending.row ∧ next.col = pending.col) := by
        have before := isFirst next List.mem_cons_self
        simp only [Entry.Before] at before
        omega
      rw [addedUp, if_neg otherPlace, inductionHypothesis restIncreasing]

/-- Merging changes nothing if the entries are in strict order and none of them is small. -/
theorem merge_of_increasing
    {t : Triplets α}
    {epsilon : α}
    (balanced : t.Balanced)
    (increasing : t.entries.Pairwise Entry.Before)
    (large : ∀ entry ∈ t.entries, epsilon < Scalar.abs entry.value) :
    t.merge epsilon = t := by
  have sorted :
      t.entries.Pairwise fun first second => notAfter first second = true :=
    increasing.imp fun before => notAfter_iff.mpr (.inl before)
  have sameOrder : t.entries.mergeSort notAfter = t.entries :=
    List.mergeSort_of_pairwise sorted
  unfold merge
  rw [sameOrder]
  split
  · rfl
  · rename_i noEntries _
    rw [← balanced.ofEntries_entries, noEntries]
    rfl
  · rename_i first rest isEntries _
    rw [isEntries] at increasing large
    rw [addedUp_of_increasing increasing,
      List.filter_eq_self.mpr fun entry member =>
        decide_eq_true (large entry member),
      ← isEntries, balanced.ofEntries_entries]

/--
What merging makes of entries over any arithmetic.  The merged entries stand in
strictly increasing order.  A position is among them exactly if the values listed at
it, added up from the first to the last, come to more than `epsilon` in magnitude, and
this sum is its value.  So no position is new, the entries stay in the lower triangle
and within the size of a matrix, and merging again changes nothing.
-/
theorem merge_lists_large_sums
    (t : Triplets α)
    (balanced : t.Balanced)
    (epsilon : α) :
    (t.merge epsilon).Balanced ∧
      (t.merge epsilon).entries.Pairwise Entry.Before ∧
      (∀ row col value,
        ⟨row, col, value⟩ ∈ (t.merge epsilon).entries ↔
          runningSum? (valuesAt t.entries row col) = some value ∧
            epsilon < Scalar.abs value) ∧
      (∀ entry ∈ (t.merge epsilon).entries,
        ∃ listed ∈ t.entries, listed.At entry.row entry.col) ∧
      (∀ size, t.Fits size → (t.merge epsilon).Fits size) ∧
      (t.merge epsilon).merge epsilon = t.merge epsilon := by
  have increasing := t.merge_pairwise_before epsilon
  refine
    ⟨balanced.merge epsilon, increasing, fun _ _ _ => mem_merge_iff,
      fun _ => exists_listed_of_mem_merge, fun _ fits => fits.merge epsilon, ?_⟩
  exact
    merge_of_increasing (balanced.merge epsilon) increasing
      fun _ member => (mem_merge_iff.mp member).2

/-- Entries out of order, two of them at each of two positions. -/
def scatteredEntries : Triplets ℚ :=
  {
    rows := [1, 0, 1, 2, 1, 2]
    cols := [0, 0, 0, 2, 1, 2]
    values := [2, 1, -2, 1, 1 / 1000000000000, 3]
  }

/-- Of the scattered entries, two add up to one and two cancel. -/
theorem scatteredEntries_merge :
    scatteredEntries.Balanced ∧
      ⟨2, 2, 4⟩ ∈ (scatteredEntries.merge (1 / 1000000000)).entries ∧
      (∀ value,
        ⟨1, 0, value⟩ ∉ (scatteredEntries.merge (1 / 1000000000)).entries) ∧
      (scatteredEntries.merge (1 / 1000000000)).merge (1 / 1000000000) =
        scatteredEntries.merge (1 / 1000000000) := by
  have balanced : scatteredEntries.Balanced := by
    decide
  obtain ⟨-, -, listed, -, -, again⟩ :=
    merge_lists_large_sums scatteredEntries balanced (1 / 1000000000)
  have cancelled :
      runningSum? (valuesAt scatteredEntries.entries 1 0) = some 0 := by
    decide +kernel
  refine ⟨balanced, (listed 2 2 4).mpr (by decide +kernel), ?_, again⟩
  intro value member
  obtain ⟨isSum, large⟩ := (listed 1 0 value).mp member
  cases cancelled.symm.trans isSum
  revert large
  decide +kernel

end Triplets

end SdpRelay
