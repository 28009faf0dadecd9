import SdpRelay.Number.Binary64
import SdpRelay.Number.Decimal

namespace SdpRelay

/-!
# Written numbers

`NumberLayout` collects the decisions of a number format: which digits are
shown, when the point stands in place of an exponent, and how signs, exponents
and the special values are spelled. `NumberLayout.write` is the one function
that follows such a layout.
-/

/-- Which digits of a number are shown. -/
inductive DigitChoice where
  /-- The fewest digits that read back. -/
  | shortest (tie : Tie)
  /-- A fixed number of significant digits. -/
  | significant (count : Nat)
  /-- A fixed number of places after the point. -/
  | places (count : Nat)
  deriving Repr, DecidableEq

/-- The decisions of one number format. -/
structure NumberLayout where
  choice : DigitChoice
  /-- By the power of ten of the leading digit: whether no exponent is written. -/
  positional : Int → Bool
  /-- A whole number still shows one place after the point. -/
  keepsPoint : Bool
  /-- Exponents above zero carry a plus sign. -/
  exponentPlus : Bool
  /-- Numbers that are not negative carry a plus sign. -/
  plus : Bool
  undefined : String
  infinite : String

namespace NumberLayout

/-- The digits shown, and the power of ten of the first of them. -/
def shownDigits
    (choice : DigitChoice)
    (mantissa : Nat)
    (exponent : Int) :
    List Char × Int :=
  let (unitUp, unitDown) := powerRatio 2 exponent
  match choice with
  | .places count =>
      let rounded :=
        Decimal.atPlace (mantissa * unitUp) unitDown (-(count : Int))
      let written := Nat.toDigits 10 rounded.digits
      let padded :=
        List.replicate (count + 1 - written.length) '0' ++ written
      (padded, (padded.length : Int) - 1 - count)
  | .significant count =>
      if mantissa = 0 then
        (List.replicate count '0', 0)
      else
        let decimal :=
          Decimal.significant count (mantissa * unitUp) unitDown
        let written := Nat.toDigits 10 decimal.digits
        (written, decimal.exponent + written.length - 1)
  | .shortest tie =>
      if mantissa = 0 then
        (['0'], 0)
      else
        let decimal := Decimal.shortest tie mantissa exponent
        let written := Nat.toDigits 10 decimal.digits
        (written, decimal.exponent + written.length - 1)

/-- Digits with a point, the first digit having the given power of ten. -/
def positionalText
    (keepsPoint : Bool)
    (digits : List Char)
    (lead : Int) :
    List Char :=
  if lead < 0 then
    '0' :: '.' :: (List.replicate (-lead - 1).toNat '0' ++ digits)
  else
    let count := lead.toNat + 1
    let padded := digits ++ List.replicate (count - digits.length) '0'
    let fraction := padded.drop count
    if fraction.isEmpty then
      padded ++ (if keepsPoint then ['.', '0'] else [])
    else
      padded.take count ++ '.' :: fraction

/-- The digits of an integer, with a sign. -/
def exponentText
    (exponentPlus : Bool)
    (exponent : Int) :
    List Char :=
  if exponent < 0 then
    '-' :: Nat.toDigits 10 exponent.natAbs
  else if exponentPlus then
    '+' :: Nat.toDigits 10 exponent.natAbs
  else
    Nat.toDigits 10 exponent.natAbs

/-- Digits with an exponent, the point after the first digit. -/
def scientificText
    (exponentPlus : Bool)
    (digits : List Char)
    (lead : Int) :
    List Char :=
  let shown :=
    match digits with
    | first :: second :: rest => first :: '.' :: second :: rest
    | few => few
  shown ++ 'e' :: exponentText exponentPlus lead

/-- The characters of a double in a layout. -/
def characters
    (layout : NumberLayout)
    (x : Float) :
    List Char :=
  let signText := fun negative : Bool =>
    if negative then ['-'] else if layout.plus then ['+'] else []
  match doubleShape x with
  | .undefined => layout.undefined.toList
  | .infinite negative => signText negative ++ layout.infinite.toList
  | .finite negative mantissa exponent =>
      let (digits, lead) := shownDigits layout.choice mantissa exponent
      signText negative ++
        if layout.positional lead then
          positionalText layout.keepsPoint digits lead
        else
          scientificText layout.exponentPlus digits lead

/-- The text of a double in a layout. -/
def write
    (layout : NumberLayout)
    (x : Float) :
    String :=
  String.ofList (layout.characters x)

/-- Shortest digits without exponent, as in messages. -/
def plain : NumberLayout where
  choice := .shortest .up
  positional := fun _ => true
  keepsPoint := false
  exponentPlus := false
  plus := false
  undefined := "NaN"
  infinite := "inf"

/-- Shortest digits with an exponent. -/
def scientific : NumberLayout :=
  { plain with positional := fun _ => false }

/-- A fixed number of significant digits with an exponent. -/
def significantDigits (count : Nat) : NumberLayout :=
  { scientific with choice := .significant count }

/-- A fixed number of places after the point. -/
def fixedPlaces (count : Nat) : NumberLayout :=
  { plain with choice := .places count }

/-- Objective values in solve summaries: a sign and nine significant digits. -/
def objective : NumberLayout :=
  { significantDigits 9 with plus := true }

end NumberLayout

/-- Drop the zeros at the end of a fraction. -/
def withoutTrailingZeros (digits : List Char) : List Char :=
  (digits.reverse.dropWhile (· == '0')).reverse

/-- A count of units with a fraction, given in the smallest unit, and the name of the unit. -/
def unitText
    (whole fraction places : Nat)
    (unit : String) :
    String :=
  let written := Nat.toDigits 10 fraction
  let padded := List.replicate (places - written.length) '0' ++ written
  let shown := withoutTrailingZeros padded
  let point := if shown.isEmpty then "" else "." ++ String.ofList shown
  toString whole ++ point ++ unit

/-- A time span in nanoseconds, in the largest unit of which it has at least one. -/
def nanosecondText (nanoseconds : Nat) : String :=
  if 1000000000 ≤ nanoseconds then
    unitText (nanoseconds / 1000000000) (nanoseconds % 1000000000) 9 "s"
  else if 1000000 ≤ nanoseconds then
    unitText (nanoseconds / 1000000) (nanoseconds % 1000000) 6 "ms"
  else if 1000 ≤ nanoseconds then
    unitText (nanoseconds / 1000) (nanoseconds % 1000) 3 "µs"
  else
    toString nanoseconds ++ "ns"

/-- A time span in seconds, rounded to nanoseconds; what is not a positive time counts as none. -/
def secondText (seconds : Float) : String :=
  match doubleShape seconds with
  | .finite false mantissa exponent =>
      let (unitUp, unitDown) := powerRatio 2 exponent
      nanosecondText
        (roundedQuotient .toEven (mantissa * unitUp * 1000000000) unitDown)
  | _ => nanosecondText 0

/-- The ways in which messages and notices write numbers. -/
structure NumberText (α : Type) where
  /-- Numbers inside error messages. -/
  plain : α → String
  /-- Eigenvalues inside notices. -/
  scientific : α → String
  /-- Objective values inside summaries. -/
  objective : α → String
  /-- Times in seconds inside summaries. -/
  seconds : α → String

/-- How doubles are written. -/
def doubleText : NumberText Float where
  plain := NumberLayout.plain.write
  scientific := NumberLayout.scientific.write
  objective := NumberLayout.objective.write
  seconds := secondText

end SdpRelay
