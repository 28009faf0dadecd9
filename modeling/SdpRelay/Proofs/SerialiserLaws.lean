import Mathlib
import SdpRelay.ProblemFile.Format

namespace SdpRelay

/-!
# What is relied on of a serialiser

The text of a problem file is up to a serialiser.  What is proved about files relies on
four laws of it: finite doubles are read back from their texts; all other doubles are
written as a word, which is refused where a number is read; a file is read back if all
of its numbers are; and it is refused if one of them is refused.

With these laws a file of doubles is read back but for its limits, which were changed
when it was written and are changed back.
-/

variable {α : Type}

namespace Block

/-- All numbers of a block. -/
def numbers (block : Block α) : List α :=
  block.constant.values ++
    block.terms.flatMap fun term => term.entries.values

/-- The size of a block, and all indices of variables, rows and columns in it. -/
def indices (block : Block α) : List Nat :=
  block.size ::
    (block.constant.rows ++ block.constant.cols ++
      block.terms.flatMap fun term =>
        term.var :: (term.entries.rows ++ term.entries.cols))

end Block

namespace Program

/-- The bounds of the variables and the sides of the rows. -/
def limits (program : Program α) : List α :=
  program.lower ++ program.upper ++
    program.rows.flatMap fun row => [row.left, row.right]

/-- All numbers of a program, its limits among them. -/
def numbers (program : Program α) : List α :=
  program.objective ++ program.limits ++
    program.rows.flatMap LinearRow.coefs ++
    program.blocks.flatMap Block.numbers

/-- All indices in the rows and blocks of a program, and the sizes of the blocks. -/
def indices (program : Program α) : List Nat :=
  program.rows.flatMap LinearRow.vars ++
    program.blocks.flatMap Block.indices

/-- Changed limits have no indices. -/
theorem indices_mapLimits
    (program : Program α)
    (change : α → α) :
    (program.mapLimits change).indices = program.indices := by
  simp [indices, mapLimits, List.flatMap_map]

end Program

/-- A number stands in the program or in the settings of a file. -/
def ProblemFile.HasNumber
    (file : ProblemFile α)
    (x : α) :
    Prop :=
  x ∈ file.program.numbers ∨ ∃ field, file.settings.get field = x

namespace Serialiser

/-- A file whose indices fit into words is read back if each of its numbers is. -/
def KeepsRecords (serialiser : Serialiser α) : Prop :=
  ∀ file : ProblemFile α,
    (∀ n ∈ file.program.indices, n < UInt64.size) →
      (∀ x, file.HasNumber x →
        serialiser.readNumber (serialiser.writeNumber x) = some x) →
        serialiser.decode (serialiser.encode file) = .ok file

/-- A file is refused if the text of one of its numbers is. -/
def RefusesRecords (serialiser : Serialiser α) : Prop :=
  ∀ (file : ProblemFile α) x,
    file.HasNumber x →
      serialiser.readNumber (serialiser.writeNumber x) = none →
        ∃ fault, serialiser.decode (serialiser.encode file) = .error fault

/-- Every finite double is read back from its text. -/
def InverseOnFinite (serialiser : Serialiser Float) : Prop :=
  ∀ x, x.isFinite = true →
    serialiser.readNumber (serialiser.writeNumber x) = some x

/-- A double that is not finite is written as a word, which is no number. -/
structure NullForOthers (serialiser : Serialiser Float) : Prop where
  written :
    ∀ x, x.isFinite = false → serialiser.writeNumber x = "null".toList
  refused : serialiser.readNumber "null".toList = none

variable
  {serialiser : Serialiser Float}
  {file : ProblemFile Float}

/-- A file whose numbers are finite as they are written is read with restored limits. -/
theorem read_write
    (inverse : serialiser.InverseOnFinite)
    (keeps : serialiser.KeepsRecords)
    (words : ∀ n ∈ file.program.indices, n < UInt64.size)
    (finite :
      ∀ x,
        ProblemFile.HasNumber
            { file with program := file.program.mapLimits DoubleFile.clamp }
            x →
          x.isFinite = true) :
    serialiser.doubleFormat.read (serialiser.doubleFormat.write file) =
      .ok
        { file with
          program :=
            (file.program.mapLimits DoubleFile.clamp).mapLimits
              DoubleFile.restore } := by
  have kept :=
    keeps { file with program := file.program.mapLimits DoubleFile.clamp }
      (by rw [Program.indices_mapLimits]; exact words)
      (fun x isNumber => inverse x (finite x isNumber))
  change (serialiser.decode (serialiser.encode _) >>= _) = _
  rw [doubleFormat, kept]
  rfl

/-- A file is refused if one of its numbers is not finite as it is written. -/
theorem read_write_refused
    (null : serialiser.NullForOthers)
    (refuses : serialiser.RefusesRecords)
    {x : Float}
    (isNumber :
      ProblemFile.HasNumber
        { file with program := file.program.mapLimits DoubleFile.clamp } x)
    (infinite : x.isFinite = false) :
    ∃ fault,
      serialiser.doubleFormat.read (serialiser.doubleFormat.write file) =
        .error fault := by
  have unread : serialiser.readNumber (serialiser.writeNumber x) = none := by
    rw [null.written x infinite]
    exact null.refused
  obtain ⟨fault, refused⟩ := refuses _ x isNumber unread
  refine ⟨fault, ?_⟩
  change (serialiser.decode (serialiser.encode _) >>= _) = _
  rw [doubleFormat, refused]
  rfl

end Serialiser

end SdpRelay
