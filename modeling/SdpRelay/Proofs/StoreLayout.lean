import Mathlib
import SdpRelay.Proofs.StoreChecks

namespace SdpRelay

/-!
# How the store lays out a program

The matrices of a program lie one behind the other in two shared triplet lists.
Adding a block behind the others leaves the earlier ranges where they are, so the
blocks of the store are the blocks of the program.  The compressed rows are those
of `RowTable.ofRows`.
-/

/-- Ranges stand one behind the other from a first position up to a stop. -/
def Tiles : Nat → List (Nat × Nat) → Nat → Prop
  | base, [], stop => base = stop
  | base, (first, next) :: rest, stop =>
      first = base ∧ first ≤ next ∧ Tiles next rest stop

namespace Tiles

theorem base_le
    {base stop : Nat}
    {ranges : List (Nat × Nat)}
    (tiles : Tiles base ranges stop) :
    base ≤ stop := by
  induction ranges generalizing base with
  | nil =>
      exact Nat.le_of_eq tiles
  | cons range rest inductionHypothesis =>
      obtain ⟨first, next⟩ := range
      obtain ⟨atBase, ordered, later⟩ := tiles
      have := inductionHypothesis later
      omega

/-- Ranges may be continued where they stop. -/
theorem append
    {base middle stop : Nat}
    {first second : List (Nat × Nat)}
    (earlier : Tiles base first middle)
    (later : Tiles middle second stop) :
    Tiles base (first ++ second) stop := by
  induction first generalizing base with
  | nil =>
      have atMiddle : base = middle := earlier
      rw [atMiddle]
      exact later
  | cons range rest inductionHypothesis =>
      obtain ⟨atBase, ordered, between⟩ := earlier
      exact ⟨atBase, ordered, inductionHypothesis between⟩

theorem next_le
    {base stop : Nat}
    {ranges : List (Nat × Nat)}
    {range : Nat × Nat}
    (tiles : Tiles base ranges stop)
    (member : range ∈ ranges) :
    range.2 ≤ stop := by
  induction ranges generalizing base with
  | nil =>
      cases member
  | cons head rest inductionHypothesis =>
      obtain ⟨atBase, ordered, later⟩ := tiles
      rcases List.mem_cons.mp member with isHead | inRest
      · subst range
        exact later.base_le
      · exact inductionHypothesis later inRest

end Tiles

namespace Triplets

variable {α : Type}

theorem Balanced.append
    {first second : Triplets α}
    (firstBalanced : first.Balanced)
    (secondBalanced : second.Balanced) :
    (first.append second).Balanced := by
  obtain ⟨firstRows, firstCols⟩ := firstBalanced
  obtain ⟨secondRows, secondCols⟩ := secondBalanced
  simp [Balanced, Triplets.append, firstRows, firstCols, secondRows, secondCols]

theorem count_append (first second : Triplets α) :
    (first.append second).count = first.count + second.count := by
  simp [count, Triplets.append]

/-- A range of a matrix stays what it is when entries are appended behind it. -/
theorem slice_append_of_le
    {first : Triplets α}
    {stop : Nat}
    (start : Nat)
    (balanced : first.Balanced)
    (inside : stop ≤ first.count)
    (second : Triplets α) :
    (first.append second).slice start stop = first.slice start stop := by
  obtain ⟨rowsLength, colsLength⟩ := balanced
  have insideRows : stop ≤ first.rows.length := by
    rw [rowsLength]
    exact inside
  have insideCols : stop ≤ first.cols.length := by
    rw [colsLength]
    exact inside
  simp only [slice, Triplets.append, List.take_append_of_le_length insideRows,
    List.take_append_of_le_length insideCols,
    List.take_append_of_le_length inside]

/-- The range behind a matrix holds what is appended to it. -/
theorem slice_append_behind
    {first second : Triplets α}
    (firstBalanced : first.Balanced)
    (secondBalanced : second.Balanced) :
    (first.append second).slice first.count (first.append second).count =
      second := by
  obtain ⟨firstRows, firstCols⟩ := firstBalanced
  obtain ⟨secondRows, secondCols⟩ := secondBalanced
  have rows :
      ((first.rows ++ second.rows).take
          (first.values.length + second.values.length)).drop
        first.values.length = second.rows := by
    rw [← firstRows, ← secondRows, ← List.length_append, List.take_length,
      List.drop_left]
  have cols :
      ((first.cols ++ second.cols).take
          (first.values.length + second.values.length)).drop
        first.values.length = second.cols := by
    rw [← firstCols, ← secondCols, ← List.length_append, List.take_length,
      List.drop_left]
  have values :
      ((first.values ++ second.values).take
          (first.values.length + second.values.length)).drop
        first.values.length = second.values := by
    rw [← List.length_append, List.take_length, List.drop_left]
  rw [count_append]
  simp only [slice, Triplets.append, count, rows, cols, values]

end Triplets

namespace Store

variable {α : Type}

/-- The terms that a layout describes inside a shared list of entries. -/
def termsOf
    (layout : BlockLayout)
    (matrices : Triplets α) :
    List (BlockTerm α) :=
  (layout.vars.zip layout.ranges).map fun (var, start, stop) =>
    { var := var, entries := matrices.slice start stop }

/-- A layout whose ranges tile the shared entries from a position on. -/
structure LaidOut
    (base : Nat)
    (layout : BlockLayout)
    (matrices : Triplets α) : Prop where
  balanced : matrices.Balanced
  sameCount : layout.ranges.length = layout.vars.length
  tiles : Tiles base layout.ranges matrices.count

theorem termsOf_append
    {matrices : Triplets α}
    (layout : BlockLayout)
    (balanced : matrices.Balanced)
    (inside : ∀ range ∈ layout.ranges, range.2 ≤ matrices.count)
    (more : Triplets α) :
    termsOf layout (matrices.append more) = termsOf layout matrices := by
  apply List.map_congr_left
  intro item member
  obtain ⟨var, start, stop⟩ := item
  have isRange : (start, stop) ∈ layout.ranges := (List.of_mem_zip member).2
  simp only [Triplets.slice_append_of_le start balanced (inside _ isRange)]

/-- Adding a term puts it behind the terms of the layout. -/
theorem addTerm_spec
    {base : Nat}
    {layout : BlockLayout}
    {matrices : Triplets α}
    {term : BlockTerm α}
    (laidOut : LaidOut base layout matrices)
    (termBalanced : term.entries.Balanced) :
    LaidOut base (addTerm layout matrices term).1
        (addTerm layout matrices term).2 ∧
      termsOf (addTerm layout matrices term).1
          (addTerm layout matrices term).2 =
        termsOf layout matrices ++ [term] ∧
      (addTerm layout matrices term).1.size = layout.size ∧
      (addTerm layout matrices term).1.constant = layout.constant := by
  refine ⟨⟨?_, ?_, ?_⟩, ?_, rfl, rfl⟩
  · exact laidOut.balanced.append termBalanced
  · simp [addTerm, laidOut.sameCount]
  · refine laidOut.tiles.append ⟨rfl, ?_, rfl⟩
    rw [Triplets.count_append]
    exact Nat.le_add_right _ _
  · have earlier :=
      termsOf_append layout laidOut.balanced
        (fun range member => laidOut.tiles.next_le member) term.entries
    have added :=
      Triplets.slice_append_behind laidOut.balanced termBalanced
    rw [← earlier]
    simp only [termsOf, addTerm]
    rw [List.zip_append laidOut.sameCount.symm]
    simp [added]

/-- Adding terms one by one puts them behind the terms of the layout. -/
theorem foldl_addTerm_spec
    {base : Nat}
    {terms : List (BlockTerm α)}
    {layout : BlockLayout}
    {matrices : Triplets α}
    (laidOut : LaidOut base layout matrices)
    (balanced : ∀ term ∈ terms, term.entries.Balanced) :
    ∃ (final : BlockLayout) (more : Triplets α),
      terms.foldl
          (fun (layout, matrices) term => addTerm layout matrices term)
          (layout, matrices) =
        (final, matrices.append more) ∧
        LaidOut base final (matrices.append more) ∧
        termsOf final (matrices.append more) =
          termsOf layout matrices ++ terms ∧
        final.size = layout.size ∧
        final.constant = layout.constant := by
  induction terms generalizing layout matrices with
  | nil =>
      have nothing : matrices.append Triplets.empty = matrices := by
        simp [Triplets.append, Triplets.empty]
      refine ⟨layout, Triplets.empty, ?_⟩
      rw [nothing]
      exact ⟨rfl, laidOut, by simp, rfl, rfl⟩
  | cons term rest inductionHypothesis =>
      obtain ⟨nextLaidOut, nextTerms, nextSize, nextConstant⟩ :=
        addTerm_spec laidOut (balanced term (by simp))
      obtain ⟨final, more, reached, finalLaidOut, finalTerms, size, constant⟩ :=
        inductionHypothesis nextLaidOut
          (fun later member => balanced later (by simp [member]))
      have regrouped :
          (addTerm layout matrices term).2.append more =
            matrices.append (term.entries.append more) := by
        simp [addTerm, Triplets.append]
      rw [regrouped] at reached finalLaidOut finalTerms
      refine
        ⟨final, term.entries.append more, reached, finalLaidOut, ?_,
          size.trans nextSize, constant.trans nextConstant⟩
      rw [finalTerms, nextTerms, List.append_assoc, List.singleton_append]

/-- The shared lists have the shape of lists that the ranges of the blocks tile. -/
structure BlocksTiled (store : Store α) : Prop where
  matricesBalanced : store.matrices.Balanced
  constantsBalanced : store.constants.Balanced
  rangeCount :
    ∀ layout ∈ store.layouts, layout.ranges.length = layout.vars.length
  rangesTile :
    Tiles 0 (store.layouts.flatMap BlockLayout.ranges) store.matrices.count
  constantsTile :
    Tiles 0 (store.layouts.map BlockLayout.constant) store.constants.count

theorem BlocksTiled.congr
    (first second : Store α)
    (layouts : second.layouts = first.layouts)
    (matrices : second.matrices = first.matrices)
    (constants : second.constants = first.constants)
    (tiled : first.BlocksTiled) :
    second.BlocksTiled := by
  refine ⟨?_, ?_, ?_, ?_, ?_⟩
  · rw [matrices]
    exact tiled.matricesBalanced
  · rw [constants]
    exact tiled.constantsBalanced
  · rw [layouts]
    exact tiled.rangeCount
  · rw [layouts, matrices]
    exact tiled.rangesTile
  · rw [layouts, constants]
    exact tiled.constantsTile

/-- The matrices of a block have balanced lists. -/
structure BlockBalanced (block : Block α) : Prop where
  terms : ∀ term ∈ block.terms, term.entries.Balanced
  constant : block.constant.Balanced

theorem blockOf_append
    {store : Store α}
    {layout : BlockLayout}
    (tiled : store.BlocksTiled)
    (member : layout ∈ store.layouts)
    (moreMatrices moreConstants : Triplets α) :
    blockOf
        {
          store with
          matrices := store.matrices.append moreMatrices
          constants := store.constants.append moreConstants
        }
        layout =
      store.blockOf layout := by
  have terms :=
    termsOf_append layout tiled.matricesBalanced
      (fun range inLayout =>
        tiled.rangesTile.next_le
          (List.mem_flatMap.mpr ⟨layout, member, inLayout⟩))
      moreMatrices
  have constant :=
    Triplets.slice_append_of_le layout.constant.1 tiled.constantsBalanced
      (tiled.constantsTile.next_le
        (List.mem_map.mpr ⟨layout, member, rfl⟩))
      moreConstants
  simp only [termsOf] at terms
  simp only [blockOf, terms, constant]

/-- Adding a block puts it behind the blocks of the store. -/
theorem addBlock_spec
    {store : Store α}
    {block : Block α}
    (tiled : store.BlocksTiled)
    (balanced : BlockBalanced block) :
    (store.addBlock block).BlocksTiled ∧
      (store.addBlock block).blocks = store.blocks ++ [block] := by
  let start : BlockLayout :=
    {
      size := block.size
      vars := []
      ranges := []
      constant :=
        (store.constants.count, (store.constants.append block.constant).count)
    }
  have startLaidOut :
      LaidOut store.matrices.count start store.matrices :=
    ⟨tiled.matricesBalanced, rfl, rfl⟩
  obtain ⟨layout, more, reached, laidOut, terms, size, constant⟩ :=
    foldl_addTerm_spec startLaidOut balanced.terms
  have shape :
      store.addBlock block =
        {
          store with
          layouts := store.layouts ++ [layout]
          matrices := store.matrices.append more
          constants := store.constants.append block.constant
        } := by
    unfold addBlock
    extract_lets constants begun
    rw [show begun = start from rfl, reached]
  have newConstantTiles :
      Tiles store.constants.count [layout.constant]
        (store.constants.append block.constant).count := by
    rw [constant]
    refine ⟨rfl, ?_, rfl⟩
    rw [Triplets.count_append]
    exact Nat.le_add_right _ _
  rw [shape]
  refine ⟨⟨laidOut.balanced, ?_, ?_, ?_, ?_⟩, ?_⟩
  · exact tiled.constantsBalanced.append balanced.constant
  · intro other member
    rcases List.mem_append.mp member with earlier | isNew
    · exact tiled.rangeCount other earlier
    · rw [List.mem_singleton.mp isNew]
      exact laidOut.sameCount
  · simp only [List.flatMap_append, List.flatMap_singleton]
    exact tiled.rangesTile.append laidOut.tiles
  · simp only [List.map_append, List.map_cons, List.map_nil]
    exact tiled.constantsTile.append newConstantTiles
  · have newBlock :
        blockOf
            {
              store with
              layouts := store.layouts ++ [layout]
              matrices := store.matrices.append more
              constants := store.constants.append block.constant
            }
            layout = block := by
      have newTerms : termsOf layout (store.matrices.append more) = block.terms := by
        simpa [termsOf, start] using terms
      have newConstant :=
        Triplets.slice_append_behind tiled.constantsBalanced balanced.constant
      simp only [termsOf] at newTerms
      simp only [blockOf, newTerms, constant, size, start, newConstant]
    simp only [blocks, List.map_append, List.map_cons, List.map_nil, newBlock]
    congr 1
    apply List.map_congr_left
    intro other member
    exact blockOf_append tiled member more block.constant

/-- Two stores agree on everything but the blocks. -/
structure SameBesidesBlocks (first second : Store α) : Prop where
  objective : second.objective = first.objective
  lower : second.lower = first.lower
  upper : second.upper = first.upper
  integral : second.integral = first.integral
  rows : second.rows = first.rows

/-- Adding blocks one by one puts them behind the blocks of the store. -/
theorem foldl_addBlock_spec
    {store : Store α}
    {blocks : List (Block α)}
    (tiled : store.BlocksTiled)
    (balanced : ∀ block ∈ blocks, BlockBalanced block) :
    (blocks.foldl addBlock store).BlocksTiled ∧
      (blocks.foldl addBlock store).blocks = store.blocks ++ blocks ∧
      SameBesidesBlocks store (blocks.foldl addBlock store) := by
  induction blocks generalizing store with
  | nil =>
      exact ⟨tiled, by simp, ⟨rfl, rfl, rfl, rfl, rfl⟩⟩
  | cons block rest inductionHypothesis =>
      obtain ⟨nextTiled, nextBlocks⟩ :=
        addBlock_spec tiled (balanced block (by simp))
      obtain ⟨finalTiled, finalBlocks, same⟩ :=
        inductionHypothesis nextTiled
          (fun later member => balanced later (by simp [member]))
      refine
        ⟨finalTiled, ?_,
          ⟨same.objective, same.lower, same.upper, same.integral, same.rows⟩⟩
      rw [List.foldl_cons, finalBlocks, nextBlocks, List.append_assoc,
        List.singleton_append]

/-- The shape of a store. -/
structure WellFormed (store : Store α) : Prop where
  lowerLength : store.lower.length = store.objective.length
  upperLength : store.upper.length = store.objective.length
  integralLength : store.integral.length = store.objective.length
  rows : store.rows.WellFormed
  blocks : store.BlocksTiled

/-- A store holds a program whose integrality flags are filled in. -/
structure Represents
    (store : Store α)
    (program : Program α) : Prop where
  objective : store.objective = program.objective
  lower : store.lower = program.lower
  upper : store.upper = program.upper
  integral : some store.integral = program.integral
  blocks : store.blocks = program.blocks
  rows : store.rows = RowTable.ofRows program.rows
  balanced : ∀ row ∈ program.rows, row.Balanced
  lowerLength : store.lower.length = store.objective.length
  upperLength : store.upper.length = store.objective.length
  integralLength : store.integral.length = store.objective.length
  tiled : store.BlocksTiled

namespace Represents

variable
  {store : Store α}
  {program : Program α}

/-- The list view of a store is the program that it holds. -/
theorem toProgram_eq
    (represents : store.Represents program) :
    store.toProgram = program := by
  have rows := RowTable.toRows_ofRows represents.balanced
  cases program with
  | mk objective lower upper integral blocks programRows =>
      simp only [toProgram, represents.objective, represents.lower,
        represents.upper, represents.integral, represents.blocks,
        represents.rows, rows]

/-- A store that holds a program has the shape of a store. -/
theorem wellFormed
    (represents : store.Represents program) :
    store.WellFormed where
  lowerLength := represents.lowerLength
  upperLength := represents.upperLength
  integralLength := represents.integralLength
  rows := by
    rw [represents.rows]
    exact RowTable.wellFormed_ofRows represents.balanced
  blocks := represents.tiled

end Represents

theorem empty_blocksTiled : (empty : Store α).BlocksTiled where
  matricesBalanced := ⟨rfl, rfl⟩
  constantsBalanced := ⟨rfl, rfl⟩
  rangeCount layout member := by
    cases member
  rangesTile := rfl
  constantsTile := rfl

end Store

namespace Program

variable {α : Type}

/-- A program with its integrality flags written out. -/
def filled (program : Program α) : Program α :=
  { program with integral := some program.integralFlags }

end Program

namespace Store

variable {α : Type}

/-- The store without variables holds the empty program. -/
theorem empty_represents :
    (empty : Store α).Represents Program.empty.filled where
  objective := rfl
  lower := rfl
  upper := rfl
  integral := rfl
  blocks := rfl
  rows := rfl
  balanced row member := by
    cases member
  lowerLength := rfl
  upperLength := rfl
  integralLength := rfl
  tiled := empty_blocksTiled

/-- The store of an acceptable program holds this program. -/
theorem ofProgram_represents
    [Scalar α]
    {sentinel : α}
    {program : Program α}
    (acceptable : program.Acceptable sentinel) :
    (ofProgram program).Represents program.filled := by
  have startTiled :
      ({
        (empty : Store α) with
        objective := program.objective
        lower := program.lower
        upper := program.upper
        integral := program.integralFlags
        rows := RowTable.empty.pushAll program.rows
      } : Store α).BlocksTiled :=
    BlocksTiled.congr empty _ rfl rfl rfl empty_blocksTiled
  obtain ⟨tiled, blocks, same⟩ :=
    foldl_addBlock_spec startTiled
      (fun block member =>
        ⟨fun term inBlock =>
            ((acceptable.blocks block member).terms term inBlock).1,
          (acceptable.blocks block member).constant.1⟩)
  have rows :
      RowTable.empty.pushAll program.rows = RowTable.ofRows program.rows := by
    rw [← RowTable.ofRows_nil, RowTable.pushAll_ofRows, List.nil_append]
  exact
    {
      objective := same.objective
      lower := same.lower
      upper := same.upper
      integral := congrArg some same.integral
      blocks := blocks
      rows := same.rows.trans rows
      balanced := fun row member => (acceptable.rows row member).balanced
      lowerLength := by
        rw [ofProgram, same.lower, same.objective]
        exact acceptable.lowerLength
      upperLength := by
        rw [ofProgram, same.upper, same.objective]
        exact acceptable.upperLength
      integralLength := by
        rw [ofProgram, same.integral, same.objective]
        exact acceptable.integralLength
      tiled := tiled
    }

/-- Loading succeeds for the acceptable programs, and gives their stores. -/
theorem load_eq_ok
    [Scalar α]
    {sentinel : α}
    {program : Program α}
    {store : Store α} :
    load sentinel program = .ok store ↔
      program.Acceptable sentinel ∧ ofProgram program = store := by
  rw [load, Check.then_eq_ok, Check.program_eq_ok]
  simp [pure, Except.pure]

/-- The rows of a loaded store are acceptable for its variables. -/
theorem acceptable_of_load
    [Scalar α]
    {sentinel : α}
    {program : Program α}
    {store : Store α}
    (loaded : load sentinel program = .ok store) :
    ∀ row ∈ store.rows.toRows,
      row.Acceptable sentinel store.lower.length := by
  obtain ⟨acceptable, rfl⟩ := load_eq_ok.mp loaded
  have represents := ofProgram_represents acceptable
  have sameCount :
      (ofProgram program).lower.length = program.objective.length := by
    rw [represents.lowerLength, represents.objective]
    rfl
  intro row member
  rw [represents.rows, RowTable.toRows_ofRows represents.balanced] at member
  rw [sameCount]
  exact acceptable.rows row member

end Store

end SdpRelay
