import Mathlib
import SdpRelay.Proofs.NumberLiterals
import SdpRelay.Proofs.SerialiserLaws
import SdpRelay.Session.File

namespace SdpRelay

/-!
# The standard serialiser keeps records

Every record of a problem file is read as the record that it was written from, if
its numbers are read back from their texts and its indices fit into sixty-four
bits; otherwise it is refused.  The whole file follows.
-/

namespace ProblemFile

open Reader Shape

variable {α β δ : Type}

/-- A field of a draft is read as its value is. -/
theorem readsIff_field
    {key : String}
    {get : δ → Option β}
    {put : δ → β → δ}
    {value : Reader β}
    {text : List Char}
    {read : β}
    {condition : Prop}
    (taken : ReadsIff value text read condition)
    (draft : δ) :
    ReadsIff ((field key get put value).read draft) text (put draft read)
      condition where
  reads := by
    intro holds
    have reads := taken.reads holds
    refine ⟨reads.starts, ?_⟩
    intro rest ends
    change (value >>= fun read => pure (put draft read)) (text ++ rest) = _
    rw [bind_of_ok (reads.taken rest ends)]
    rfl
  refuses := fun fails => (taken.refuses fails).bind _

section Keys

variable {numbers : FileNumbers α}

theorem tripletsShape_keyed : (tripletsShape numbers).Keyed where
  distinct := by
    simp [tripletsShape, field]
  plain := by
    simp [tripletsShape, field, Plain]

theorem termShape_keyed : (termShape numbers).Keyed where
  distinct := by
    simp [termShape, field]
  plain := by
    simp [termShape, field, Plain]

theorem blockShape_keyed : (blockShape numbers).Keyed where
  distinct := by
    simp [blockShape, field]
  plain := by
    simp [blockShape, field, Plain]

theorem rowShape_keyed : (rowShape numbers).Keyed where
  distinct := by
    simp [rowShape, field]
  plain := by
    simp [rowShape, field, Plain]

theorem programShape_keyed : (programShape numbers).Keyed where
  distinct := by
    simp [programShape, field]
  plain := by
    simp [programShape, field, Plain]

variable [Scalar α]

theorem settingsShape_keyed : (settingsShape numbers).Keyed where
  distinct := by
    simp [settingsShape, field]
  plain := by
    simp [settingsShape, field, Plain]

theorem fileShape_keyed : (fileShape numbers).Keyed where
  distinct := by
    simp [fileShape, field]
  plain := by
    simp [fileShape, field, Plain]

end Keys

variable (numbers : FileNumbers α)

/-- A number is read back from its text. -/
def Readable (x : α) : Prop :=
  Reads (numberValue numbers) (numbers.write x) x

/-- A number is read back from its text, or its text is refused. -/
class DecidesNumbers : Prop where
  readsIff :
    ∀ x, ReadsIff (numberValue numbers) (numbers.write x) x
      (Readable numbers x)

theorem readsIff_index (n : Nat) :
    ReadsIff indexValue (naturalText n) n (n < UInt64.size) := by
  refine (readsIff_natural n (UInt64.size - 1)).congr ?_
  have positive : 0 < UInt64.size := by decide
  omega

theorem readsIff_indices (indices : List Nat) :
    ReadsIff (listOf indexValue) (listText naturalText indices) indices
      (∀ n ∈ indices, n < UInt64.size) :=
  readsIff_listOf fun n _ => readsIff_index n

/-- The numbers and indices of a sparse matrix are read back. -/
@[mk_iff]
structure ReadableTriplets (entries : Triplets α) : Prop where
  rows : ∀ row ∈ entries.rows, row < UInt64.size
  cols : ∀ col ∈ entries.cols, col < UInt64.size
  values : ∀ value ∈ entries.values, Readable numbers value

variable
  {numbers}
  [DecidesNumbers numbers]

theorem readsIff_numbers (values : List α) :
    ReadsIff (listOf (numberValue numbers)) (listText numbers.write values)
      values (∀ value ∈ values, Readable numbers value) :=
  readsIff_listOf fun value _ => DecidesNumbers.readsIff value

/-- A sparse matrix is read back if its parts are, and refused otherwise. -/
theorem readsIff_triplets (entries : Triplets α) :
    ReadsIff (tripletsShape numbers).read (tripletsText numbers entries)
      entries (ReadableTriplets numbers entries) := by
  refine
    (readsIff_record tripletsShape_keyed
      (.cons rfl (readsIff_field (readsIff_indices entries.rows) _)
        (.cons rfl (readsIff_field (readsIff_indices entries.cols) _)
          (.cons rfl (readsIff_field (readsIff_numbers entries.values) _) (.nil _))))
      rfl).congr ?same
  case same => rw [readableTriplets_iff, and_true]

/-- The index and the matrix of a term are read back. -/
@[mk_iff]
structure ReadableTerm
    (numbers : FileNumbers α)
    (term : BlockTerm α) : Prop where
  var : term.var < UInt64.size
  entries : ReadableTriplets numbers term.entries

/-- A term is read back if its parts are, and refused otherwise. -/
theorem readsIff_term (term : BlockTerm α) :
    ReadsIff (termShape numbers).read (termText numbers term) term
      (ReadableTerm numbers term) := by
  refine
    (readsIff_record termShape_keyed
      (.cons rfl (readsIff_field (readsIff_index term.var) _)
        (.cons rfl (readsIff_field (readsIff_triplets term.entries) _)
          (.nil _)))
      rfl).congr ?same
  case same => rw [readableTerm_iff, and_true]

/-- The size and the matrices of a block are read back. -/
@[mk_iff]
structure ReadableBlock
    (numbers : FileNumbers α)
    (block : Block α) : Prop where
  size : block.size < UInt64.size
  terms : ∀ term ∈ block.terms, ReadableTerm numbers term
  constant : ReadableTriplets numbers block.constant

/-- A block is read back if its parts are, whatever its size and its number of terms. -/
theorem readsIff_block (block : Block α) :
    ReadsIff (blockShape numbers).read (blockText numbers block) block
      (ReadableBlock numbers block) := by
  refine
    (readsIff_record blockShape_keyed
      (.cons rfl (readsIff_field (readsIff_index block.size) _)
        (.cons rfl (readsIff_field (readsIff_listOf fun term _ => readsIff_term term) _)
          (.cons rfl (readsIff_field (readsIff_triplets block.constant) _)
            (.nil _))))
      rfl).congr ?same
  case same => rw [readableBlock_iff, and_true]

/-- The sides, the variables and the coefficients of a row are read back. -/
@[mk_iff]
structure ReadableRow
    (numbers : FileNumbers α)
    (row : LinearRow α) : Prop where
  left : Readable numbers row.left
  right : Readable numbers row.right
  vars : ∀ var ∈ row.vars, var < UInt64.size
  coefs : ∀ coef ∈ row.coefs, Readable numbers coef

/-- A linear row is read back if its parts are, and refused otherwise. -/
theorem readsIff_row (row : LinearRow α) :
    ReadsIff (rowShape numbers).read (rowText numbers row) row
      (ReadableRow numbers row) := by
  refine
    (readsIff_record rowShape_keyed
      (.cons rfl (readsIff_field (DecidesNumbers.readsIff row.left) _)
        (.cons rfl (readsIff_field (DecidesNumbers.readsIff row.right) _)
          (.cons rfl (readsIff_field (readsIff_indices row.vars) _)
            (.cons rfl (readsIff_field (readsIff_numbers row.coefs) _)
              (.nil _)))))
      rfl).congr ?same
  case same => rw [readableRow_iff, and_true]

/-- All parts of a program are read back. -/
@[mk_iff]
structure ReadableProgram
    (numbers : FileNumbers α)
    (program : Program α) : Prop where
  objective : ∀ value ∈ program.objective, Readable numbers value
  lower : ∀ bound ∈ program.lower, Readable numbers bound
  upper : ∀ bound ∈ program.upper, Readable numbers bound
  blocks : ∀ block ∈ program.blocks, ReadableBlock numbers block
  rows : ∀ row ∈ program.rows, ReadableRow numbers row

/-- Integrality flags are read back, and so is their absence. -/
theorem reads_integral (integral : Option (List Bool)) :
    Reads (orNull (listOf truth)) (integralText integral) integral := by
  cases integral with
  | none => exact reads_orNull_null
  | some flags => exact reads_orNull_listOf fun flag _ => reads_truth flag

/-- A program is read back if its parts are, whatever its numbers of variables, blocks and rows. -/
theorem readsIff_program (program : Program α) :
    ReadsIff (programShape numbers).read (programText numbers program)
      program (ReadableProgram numbers program) := by
  refine
    (readsIff_record programShape_keyed
      (.cons rfl (readsIff_field (readsIff_numbers program.objective) _)
        (.cons rfl (readsIff_field (readsIff_numbers program.lower) _)
          (.cons rfl (readsIff_field (readsIff_numbers program.upper) _)
            (.cons rfl
              (readsIff_field (reads_integral program.integral).readsIff _)
              (.cons rfl (readsIff_field (readsIff_listOf fun block _ => readsIff_block block) _)
                (.cons rfl (readsIff_field (readsIff_listOf fun row _ => readsIff_row row) _)
                  (.nil _)))))))
      rfl).congr ?same
  case same => simp only [readableProgram_iff, and_true, true_and]

section Files

variable [Scalar α]

/-- The numbers of settings are read back. -/
def ReadableSettings
    (numbers : FileNumbers α)
    (settings : Settings α) :
    Prop :=
  ∀ field, Readable numbers (settings.get field)

/-- The number of penalty steps is read back. -/
theorem reads_word (n : UInt32) :
    Reads (return UInt32.ofNat (← natural (UInt32.size - 1)))
      (naturalText n.toNat) n := by
  have small : n.toNat < UInt32.size := n.toNat_lt_size
  have number :=
    (readsIff_natural n.toNat (UInt32.size - 1)).reads
      (Nat.le_sub_one_of_lt small)
  refine ⟨number.starts, ?_⟩
  intro rest ends
  rw [bind_of_ok (number.taken rest ends), UInt32.ofNat_toNat]
  rfl

theorem reads_slaterCheck (choice : SlaterCheck) :
    Reads (Reader.choice SlaterCheck.names) (quotedText choice.key) choice := by
  refine reads_choice ?_ ?_
  · cases choice <;> simp [Plain, SlaterCheck.key]
  · cases choice <;> decide

theorem reads_clockKind (kind : ClockKind) :
    Reads (Reader.choice ClockKind.names) (quotedText kind.key) kind := by
  refine reads_choice ?_ ?_
  · cases kind <;> simp [Plain, ClockKind.key]
  · cases kind <;> decide

/-- Settings are read back if their numbers are, and refused otherwise. -/
theorem readsIff_settings (settings : Settings α) :
    ReadsIff (settingsShape numbers).read (settingsText numbers settings)
      settings (ReadableSettings numbers settings) := by
  have number (field : SettingField) :
      ReadsIff (numberValue numbers) (numbers.write (settings.get field))
        (settings.get field) (Readable numbers (settings.get field)) :=
    DecidesNumbers.readsIff (settings.get field)
  refine
    (readsIff_record settingsShape_keyed
      (.cons rfl (readsIff_field (number .epsilon) _)
        (.cons rfl (readsIff_field (number .gapTolerance) _)
          (.cons rfl (readsIff_field (number .feasTolerance) _)
            (.cons rfl (readsIff_field (number .penalty) _)
              (.cons rfl (readsIff_field (number .maxPenalty) _)
                (.cons rfl (readsIff_field (number .infeasibilityFactor) _)
                  (.cons rfl
                    (readsIff_field
                      (reads_word settings.penaltyIncreases).readsIff _)
                    (.cons rfl
                      (readsIff_field
                        (reads_slaterCheck settings.slaterCheck).readsIff _)
                      (.cons rfl
                        (readsIff_field
                          (reads_clockKind settings.clockKind).readsIff _)
                        (.cons rfl
                          (readsIff_field
                            (reads_truth settings.verbose).readsIff _)
                          (.cons rfl
                            (readsIff_field
                              (reads_truth
                                settings.keepsFixedVectors).readsIff _)
                            (.nil _))))))))))))
      rfl).congr ?same
  case same =>
    unfold ReadableSettings
    constructor
    · rintro ⟨epsilon, gap, feas, penalty, maxPenalty, factor, _⟩ field
      cases field <;> assumption
    · intro readable
      exact
        ⟨readable .epsilon, readable .gapTolerance, readable .feasTolerance,
          readable .penalty, readable .maxPenalty,
          readable .infeasibilityFactor, trivial, trivial, trivial, trivial,
          trivial, trivial⟩

/-- A file is read back if its numbers are, and refused otherwise. -/
theorem readsIff_file (file : ProblemFile α) :
    ReadsIff (fileShape numbers).read (encode numbers file) file
      (ReadableProgram numbers file.program ∧
        ReadableSettings numbers file.settings) := by
  refine
    (readsIff_record fileShape_keyed
      (.cons rfl (readsIff_field (readsIff_program _) _)
        (.cons rfl (readsIff_field (readsIff_settings file.settings) _)
          (.nil _)))
      rfl).congr ?same
  case same => rw [and_true]

omit [DecidesNumbers numbers] [Scalar α] in
/-- A block is read back if each of its numbers and indices is. -/
theorem readableBlock_iff_numbers (block : Block α) :
    ReadableBlock numbers block ↔
      (∀ x ∈ block.numbers, Readable numbers x) ∧
        ∀ n ∈ block.indices, n < UInt64.size := by
  simp only [readableBlock_iff, readableTerm_iff, readableTriplets_iff,
    Block.numbers, Block.indices, List.forall_mem_append,
    List.forall_mem_cons, List.forall_mem_flatMap, forall_and]
  tauto

omit [DecidesNumbers numbers] [Scalar α] in
/-- A program is read back if each of its numbers and indices is. -/
theorem readableProgram_iff_numbers (program : Program α) :
    ReadableProgram numbers program ↔
      (∀ x ∈ program.numbers, Readable numbers x) ∧
        ∀ n ∈ program.indices, n < UInt64.size := by
  simp only [readableProgram_iff, readableBlock_iff_numbers,
    readableRow_iff, Program.numbers, Program.limits, Program.indices,
    List.forall_mem_append, List.forall_mem_cons, List.forall_mem_flatMap,
    forall_and]
  tauto

/-- The text of a number stands for the number exactly if it is read back. -/
theorem readNumber_writeNumber_iff (x : α) :
    numbers.serialiser.readNumber (numbers.serialiser.writeNumber x) =
        some x ↔
      Readable numbers x := by
  have decides :
      ReadsIff (numberValue numbers) (numbers.write x) x (Readable numbers x) :=
    DecidesNumbers.readsIff x
  unfold FileNumbers.serialiser
  dsimp only
  by_cases readable : Readable numbers x
  · have taken := readable.taken [] nofun
    rw [List.append_nil] at taken
    rw [taken]
    exact iff_of_true rfl readable
  · obtain ⟨fault, refused⟩ := (decides.refuses readable).refused [] nofun
    rw [List.append_nil] at refused
    rw [refused]
    exact iff_of_false nofun readable

/-- A file is read back by the standard serialiser if each of its numbers is. -/
theorem serialiser_keepsRecords : numbers.serialiser.KeepsRecords := by
  intro file words readBack
  have readable (x : α) (isNumber : file.HasNumber x) : Readable numbers x :=
    readNumber_writeNumber_iff x |>.mp (readBack x isNumber)
  have read :=
    (readsIff_file file).reads
      ⟨(readableProgram_iff_numbers file.program).mpr
          ⟨fun x member => readable x (.inl member), words⟩,
        fun field => readable _ (.inr ⟨field, rfl⟩)⟩
  have taken := read.taken [] nofun
  rw [List.append_nil] at taken
  change decode numbers (encode numbers file) = _
  unfold decode
  rw [taken]
  rfl

/-- It refuses a file if one of the numbers is refused. -/
theorem serialiser_refusesRecords : numbers.serialiser.RefusesRecords := by
  intro file x isNumber unread
  have unreadable : ¬ Readable numbers x := by
    rw [← readNumber_writeNumber_iff, unread]
    exact nofun
  have notBoth :
      ¬ (ReadableProgram numbers file.program ∧
        ReadableSettings numbers file.settings) := by
    rintro ⟨program, settings⟩
    rcases isNumber with inProgram | ⟨field, rfl⟩
    · exact
        unreadable
          (((readableProgram_iff_numbers _).mp program).1 x inProgram)
    · exact unreadable (settings field)
  obtain ⟨fault, refused⟩ :=
    ((readsIff_file file).refuses notBoth).refused [] nofun
  rw [List.append_nil] at refused
  refine ⟨fault, ?_⟩
  change decode numbers (encode numbers file) = _
  unfold decode
  rw [refused]
  rfl

end Files

end ProblemFile

end SdpRelay
