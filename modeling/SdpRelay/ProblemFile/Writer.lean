import SdpRelay.ProblemFile.Format

namespace SdpRelay

/-!
# Writing problem files

Files are written without blanks, and every record with its fields in a fixed
order.
-/

namespace ProblemFile

variable {α β : Type}

/-- Texts with a comma between any two of them. -/
def separated : List (List Char) → List Char
  | [] => []
  | [last] => last
  | first :: rest => first ++ ',' :: separated rest

/-- A list of values. -/
def listText
    (write : β → List Char)
    (values : List β) :
    List Char :=
  '[' :: separated (values.map write) ++ [']']

/-- A quoted string without anything to escape. -/
def quotedText (text : String) : List Char :=
  '"' :: text.toList ++ ['"']

/-- A record with its fields in order. -/
def recordText (fields : List (String × List Char)) : List Char :=
  '{' ::
    separated (fields.map fun (key, value) => quotedText key ++ ':' :: value) ++
    ['}']

/-- A whole number that is not negative. -/
def naturalText (n : Nat) : List Char :=
  Nat.toDigits 10 n

/-- A truth value. -/
def truthText (b : Bool) : List Char :=
  if b then "true".toList else "false".toList

/-- A sparse matrix as three lists. -/
def tripletsText
    (numbers : FileNumbers α)
    (entries : Triplets α) :
    List Char :=
  recordText
    [("row", listText naturalText entries.rows),
      ("col", listText naturalText entries.cols),
      ("val", listText numbers.write entries.values)]

/-- One term of a block. -/
def termText
    (numbers : FileNumbers α)
    (term : BlockTerm α) :
    List Char :=
  recordText
    [("var", naturalText term.var),
      ("entries", tripletsText numbers term.entries)]

/-- A block. -/
def blockText
    (numbers : FileNumbers α)
    (block : Block α) :
    List Char :=
  recordText
    [("size", naturalText block.size),
      ("vars", listText (termText numbers) block.terms),
      ("constant", tripletsText numbers block.constant)]

/-- A linear row. -/
def rowText
    (numbers : FileNumbers α)
    (row : LinearRow α) :
    List Char :=
  recordText
    [("lhs", numbers.write row.left),
      ("rhs", numbers.write row.right),
      ("ind", listText naturalText row.vars),
      ("val", listText numbers.write row.coefs)]

/-- The integrality flags of a program, or a word where it has none. -/
def integralText : Option (List Bool) → List Char
  | some flags => listText truthText flags
  | none => "null".toList

/-- A program. -/
def programText
    (numbers : FileNumbers α)
    (program : Program α) :
    List Char :=
  recordText
    [("obj", listText numbers.write program.objective),
      ("lb", listText numbers.write program.lower),
      ("ub", listText numbers.write program.upper),
      ("isintegral", integralText program.integral),
      ("blocks", listText (blockText numbers) program.blocks),
      ("rows", listText (rowText numbers) program.rows)]

/-- Settings. -/
def settingsText
    (numbers : FileNumbers α)
    (settings : Settings α) :
    List Char :=
  recordText
    [("epsilon", numbers.write settings.epsilon),
      ("gaptol", numbers.write settings.gapTolerance),
      ("feastol", numbers.write settings.feasTolerance),
      ("penaltyparam", numbers.write settings.penalty),
      ("maxpenaltyparam", numbers.write settings.maxPenalty),
      ("peninfeasadjust", numbers.write settings.infeasibilityFactor),
      ("npenaltyincr", naturalText settings.penaltyIncreases.toNat),
      ("slatercheck", quotedText settings.slaterCheck.key),
      ("clock_type", quotedText settings.clockKind.key),
      ("verbose", truthText settings.verbose),
      ("allfixed_primal_ray", truthText settings.keepsFixedVectors)]

/-- A whole file. -/
def encode
    (numbers : FileNumbers α)
    (file : ProblemFile α) :
    List Char :=
  recordText
    [("problem", programText numbers file.program),
      ("settings", settingsText numbers file.settings)]

end ProblemFile

end SdpRelay
