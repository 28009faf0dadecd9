import SdpRelay.Number.Text
import SdpRelay.Problem.Program
import SdpRelay.ProblemFile.Shape
import SdpRelay.Settings

namespace SdpRelay

/-!
# Problem files

A problem file holds a program and settings. Numbers are written with the fewest
digits that read back. Infinite bounds and sides have no number of their own and
are written as the largest number, which stands for infinity when a file is read.

How a file becomes a text is left to a serialiser, about which nothing is assumed
here. The programs use one that writes records with named members.
-/

/-- The content of a problem file. -/
structure ProblemFile (α : Type) where
  program : Program α
  settings : Settings α
  deriving Repr, DecidableEq

/-- A way to turn files into texts and back, and the numbers in them. -/
structure Serialiser (α : Type) where
  /-- The text of a number. -/
  writeNumber : α → List Char
  /-- The number that a text stands for, if there is one. -/
  readNumber : List Char → Option α
  encode : ProblemFile α → List Char
  decode : List Char → Except FileFault (ProblemFile α)

/-- Change the bounds and the sides of a program. -/
def Program.mapLimits
    {α : Type}
    (change : α → α)
    (program : Program α) :
    Program α :=
  {
    program with
    lower := program.lower.map change
    upper := program.upper.map change
    rows :=
      program.rows.map fun row =>
        { row with left := change row.left, right := change row.right }
  }

/-- A serialiser with the numbers that stand for infinite limits. -/
structure FileFormat (α : Type) extends Serialiser α where
  /-- The number that is written for a limit. -/
  clamp : α → α
  /-- The limit that a written number stands for. -/
  restore : α → α

namespace FileFormat

variable {α : Type}

/-- The text of a file. -/
def write
    (format : FileFormat α)
    (file : ProblemFile α) :
    List Char :=
  format.encode
    { file with program := file.program.mapLimits format.clamp }

/-- The file of a text. -/
def read
    (format : FileFormat α)
    (text : List Char) :
    Except FileFault (ProblemFile α) := do
  let file ← format.decode text
  return { file with program := file.program.mapLimits format.restore }

end FileFormat

/-- How numbers stand in the texts of the standard serialiser. -/
structure FileNumbers (α : Type) where
  /-- The text of a number. -/
  write : α → List Char
  /-- The number of a literal, unless it is out of range. -/
  ofLiteral : Reader.DecimalLiteral → Option α

/-- Numbers in files: shortest digits, positional from `1e-5` to below `1e16`, with a point. -/
def NumberLayout.file : NumberLayout :=
  {
    NumberLayout.plain with
    choice := .shortest .toEven
    positional := fun lead => decide (-5 ≤ lead) && decide (lead < 16)
    keepsPoint := true
    exponentPlus := true
  }

namespace DoubleFile

/-- The text of a double; what is no finite number is written as a word. -/
def write (x : Float) : List Char :=
  match doubleShape x with
  | .finite _ _ _ => NumberLayout.file.characters x
  | _ => "null".toList

/-- How many digits of a literal count. No double, and no half between two doubles, has more. -/
def digitLimit : Nat := 768

/--
Cut a literal with too many digits. A one after the digits that count stands for
all others, whatever they are: such a literal lies above the ones that it starts with.
-/
def cut (literal : Reader.DecimalLiteral) : Reader.DecimalLiteral :=
  if literal.digits.length ≤ digitLimit then
    literal
  else
    {
      literal with
      digits := literal.digits.take digitLimit ++ ['1']
      exponent := literal.exponent + literal.digits.length - digitLimit - 1
    }

/-- The double nearest to a literal, unless that is infinite. -/
def ofLiteral (literal : Reader.DecimalLiteral) : Option Float :=
  let lead := literal.exponent + literal.digits.length
  if literal.digits = [] ∨ lead < -400 then
    some (nearestDecimal literal.negative 0 0)
  else if 400 < lead then
    none
  else
    let kept := cut literal
    let x :=
      nearestDecimal kept.negative (Reader.digitsValue kept.digits) kept.exponent
    if Scalar.isFinite x then some x else none

/-- The largest double in place of an infinite one. -/
def clamp (x : Float) : Float :=
  match doubleShape x with
  | .infinite false => largestDouble
  | .infinite true => -largestDouble
  | _ => x

/-- An infinite double in place of the largest one. -/
def restore (x : Float) : Float :=
  if x == largestDouble then infiniteDouble
  else if x == -largestDouble then -infiniteDouble
  else x

end DoubleFile

/-- How doubles stand in the texts of the standard serialiser. -/
def doubleNumbers : FileNumbers Float where
  write := DoubleFile.write
  ofLiteral := DoubleFile.ofLiteral

/-- Files of doubles by any serialiser. -/
def Serialiser.doubleFormat (serialiser : Serialiser Float) : FileFormat Float :=
  {
    serialiser with
    clamp := DoubleFile.clamp
    restore := DoubleFile.restore
  }

namespace SlaterCheck

/-- The name of a choice. -/
def key : SlaterCheck → String
  | off => "Off"
  | check => "Check"
  | print => "Print"

/-- The choices by name. -/
def names : List (String × SlaterCheck) :=
  [off, check, print].map fun choice => (choice.key, choice)

end SlaterCheck

namespace ClockKind

/-- The name of a choice. -/
def key : ClockKind → String
  | cpu => "Cpu"
  | wall => "Wall"

/-- The choices by name. -/
def names : List (String × ClockKind) :=
  [cpu, wall].map fun kind => (kind.key, kind)

end ClockKind

end SdpRelay
