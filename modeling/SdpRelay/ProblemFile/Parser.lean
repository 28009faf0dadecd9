import SdpRelay.ProblemFile.Format

namespace SdpRelay

/-!
# Reading problem files

The records of a problem file as shapes. Fields of a program are required, except
for the integrality flags; fields of settings have standard values.
-/

namespace ProblemFile

open Reader

variable {α : Type}

/-- A field that is kept as an optional part of a draft. -/
def field
    {δ β : Type}
    (key : String)
    (get : δ → Option β)
    (put : δ → β → δ)
    (value : Reader β) :
    RecordField δ :=
  {
    key := key
    given := fun draft => (get draft).isSome
    read := fun draft => return put draft (← value)
  }

/-- Take a number. -/
def numberValue (numbers : FileNumbers α) : Reader α := do
  match numbers.ofLiteral (← anyNumber) with
  | some value => return value
  | none => throw .invalid

/-- Take an index, which fits into sixty-four bits. -/
def indexValue : Reader Nat :=
  natural (UInt64.size - 1)

/-- A draft of a sparse matrix. -/
structure TripletsDraft (α : Type) where
  rows : Option (List Nat) := none
  cols : Option (List Nat) := none
  values : Option (List α) := none

/-- A sparse matrix. -/
def tripletsShape
    (numbers : FileNumbers α) :
    Shape (TripletsDraft α) (Triplets α) where
  start := {}
  fields :=
    [field "row" TripletsDraft.rows
        (fun draft rows => { draft with rows := some rows })
        (listOf indexValue),
      field "col" TripletsDraft.cols
        (fun draft cols => { draft with cols := some cols })
        (listOf indexValue),
      field "val" TripletsDraft.values
        (fun draft values => { draft with values := some values })
        (listOf (numberValue numbers))]
  mayEnd := false
  complete := fun draft => do
    return {
      rows := ← draft.rows
      cols := ← draft.cols
      values := ← draft.values
    }

/-- A draft of a term. -/
structure TermDraft (α : Type) where
  var : Option Nat := none
  entries : Option (Triplets α) := none

/-- One term of a block. -/
def termShape
    (numbers : FileNumbers α) :
    Shape (TermDraft α) (BlockTerm α) where
  start := {}
  fields :=
    [field "var" TermDraft.var
        (fun draft var => { draft with var := some var })
        indexValue,
      field "entries" TermDraft.entries
        (fun draft entries => { draft with entries := some entries })
        (tripletsShape numbers).read]
  mayEnd := false
  complete := fun draft => do
    return { var := ← draft.var, entries := ← draft.entries }

/-- A draft of a block. -/
structure BlockDraft (α : Type) where
  size : Option Nat := none
  terms : Option (List (BlockTerm α)) := none
  constant : Option (Triplets α) := none

/-- A block. -/
def blockShape
    (numbers : FileNumbers α) :
    Shape (BlockDraft α) (Block α) where
  start := {}
  fields :=
    [field "size" BlockDraft.size
        (fun draft size => { draft with size := some size })
        indexValue,
      field "vars" BlockDraft.terms
        (fun draft terms => { draft with terms := some terms })
        (listOf (termShape numbers).read),
      field "constant" BlockDraft.constant
        (fun draft constant => { draft with constant := some constant })
        (tripletsShape numbers).read]
  mayEnd := false
  complete := fun draft => do
    return {
      size := ← draft.size
      terms := ← draft.terms
      constant := ← draft.constant
    }

/-- A draft of a row. -/
structure RowDraft (α : Type) where
  left : Option α := none
  right : Option α := none
  vars : Option (List Nat) := none
  coefs : Option (List α) := none

/-- A linear row. -/
def rowShape
    (numbers : FileNumbers α) :
    Shape (RowDraft α) (LinearRow α) where
  start := {}
  fields :=
    [field "lhs" RowDraft.left
        (fun draft left => { draft with left := some left })
        (numberValue numbers),
      field "rhs" RowDraft.right
        (fun draft right => { draft with right := some right })
        (numberValue numbers),
      field "ind" RowDraft.vars
        (fun draft vars => { draft with vars := some vars })
        (listOf indexValue),
      field "val" RowDraft.coefs
        (fun draft coefs => { draft with coefs := some coefs })
        (listOf (numberValue numbers))]
  mayEnd := false
  complete := fun draft => do
    return {
      left := ← draft.left
      right := ← draft.right
      vars := ← draft.vars
      coefs := ← draft.coefs
    }

/-- A draft of a program. -/
structure ProgramDraft (α : Type) where
  objective : Option (List α) := none
  lower : Option (List α) := none
  upper : Option (List α) := none
  integral : Option (Option (List Bool)) := none
  blocks : Option (List (Block α)) := none
  rows : Option (List (LinearRow α)) := none

/-- A program; without integrality flags no variable is integral. -/
def programShape
    (numbers : FileNumbers α) :
    Shape (ProgramDraft α) (Program α) where
  start := {}
  fields :=
    [field "obj" ProgramDraft.objective
        (fun draft objective => { draft with objective := some objective })
        (listOf (numberValue numbers)),
      field "lb" ProgramDraft.lower
        (fun draft lower => { draft with lower := some lower })
        (listOf (numberValue numbers)),
      field "ub" ProgramDraft.upper
        (fun draft upper => { draft with upper := some upper })
        (listOf (numberValue numbers)),
      field "isintegral" ProgramDraft.integral
        (fun draft integral => { draft with integral := some integral })
        (orNull (listOf truth)),
      field "blocks" ProgramDraft.blocks
        (fun draft blocks => { draft with blocks := some blocks })
        (listOf (blockShape numbers).read),
      field "rows" ProgramDraft.rows
        (fun draft rows => { draft with rows := some rows })
        (listOf (rowShape numbers).read)]
  mayEnd := false
  complete := fun draft => do
    return {
      objective := ← draft.objective
      lower := ← draft.lower
      upper := ← draft.upper
      integral := draft.integral.getD none
      blocks := ← draft.blocks
      rows := ← draft.rows
    }

/-- Settings; fields that are not given have their standard values. -/
def settingsShape
    [Scalar α]
    (numbers : FileNumbers α) :
    Shape (SettingsChange α) (Settings α) where
  start := {}
  fields :=
    [field "epsilon" SettingsChange.epsilon
        (fun draft value => { draft with epsilon := some value })
        (numberValue numbers),
      field "gaptol" SettingsChange.gapTolerance
        (fun draft value => { draft with gapTolerance := some value })
        (numberValue numbers),
      field "feastol" SettingsChange.feasTolerance
        (fun draft value => { draft with feasTolerance := some value })
        (numberValue numbers),
      field "penaltyparam" SettingsChange.penalty
        (fun draft value => { draft with penalty := some value })
        (numberValue numbers),
      field "maxpenaltyparam" SettingsChange.maxPenalty
        (fun draft value => { draft with maxPenalty := some value })
        (numberValue numbers),
      field "peninfeasadjust" SettingsChange.infeasibilityFactor
        (fun draft value => { draft with infeasibilityFactor := some value })
        (numberValue numbers),
      field "npenaltyincr" SettingsChange.penaltyIncreases
        (fun draft value => { draft with penaltyIncreases := some value })
        (return UInt32.ofNat (← natural (UInt32.size - 1))),
      field "slatercheck" SettingsChange.slaterCheck
        (fun draft value => { draft with slaterCheck := some value })
        (choice SlaterCheck.names),
      field "clock_type" SettingsChange.clockKind
        (fun draft value => { draft with clockKind := some value })
        (choice ClockKind.names),
      field "verbose" SettingsChange.verbose
        (fun draft value => { draft with verbose := some value })
        truth,
      field "allfixed_primal_ray" SettingsChange.keepsFixedVectors
        (fun draft value => { draft with keepsFixedVectors := some value })
        truth]
  mayEnd := true
  complete := fun draft => some (draft.apply Settings.standard)

/-- A draft of a file. -/
structure FileDraft (α : Type) where
  program : Option (Program α) := none
  settings : Option (Settings α) := none

/-- A whole file. -/
def fileShape
    [Scalar α]
    (numbers : FileNumbers α) :
    Shape (FileDraft α) (ProblemFile α) where
  start := {}
  fields :=
    [field "problem" FileDraft.program
        (fun draft program => { draft with program := some program })
        (programShape numbers).read,
      field "settings" FileDraft.settings
        (fun draft settings => { draft with settings := some settings })
        (settingsShape numbers).read]
  mayEnd := false
  complete := fun draft => do
    return { program := ← draft.program, settings := ← draft.settings }

/-- Read a file. -/
def decode
    [Scalar α]
    (numbers : FileNumbers α)
    (text : List Char) :
    Except FileFault (ProblemFile α) := do
  let (file, rest) ← (fileShape numbers).read text
  let _ ← finish rest
  return file

end ProblemFile

end SdpRelay
