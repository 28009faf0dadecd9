import SdpRelay.ProblemFile.Fault

namespace SdpRelay

/-!
# Reading strict text

A reader takes characters from the front of a text and yields a value, or the
first fault it comes across. The text is a nest of lists in brackets, of named
members in braces, of quoted strings, of numbers, and of the words `true`, `false`
and `null`; blanks may stand between any two of them.

Values that nobody asked for are skipped by a laxer rule than values that are
used: a number may be too large, and escapes may stand for halves of characters.
-/

/-- Take a value from the front of a text. -/
abbrev Reader := StateT (List Char) (Except FileFault)

namespace Reader

variable {β δ : Type}

/-- Characters that may stand between two parts of a text. -/
def isBlank (c : Char) : Bool :=
  c == ' ' || c == '\n' || c == '\t' || c == '\r'

/-- Drop the blanks in front. -/
def skipBlanks : Reader Unit :=
  modify fun text => text.dropWhile isBlank

/-- The next character that is not blank, which stays in place. -/
def peek : Reader Char := do
  skipBlanks
  match ← get with
  | [] => throw .endsEarly
  | c :: _ => return c

/-- Drop one character. -/
def dropOne : Reader Unit :=
  modify List.tail

/-- Take given characters. -/
def exactly : List Char → Reader Unit
  | [] => return
  | c :: rest => do
      match ← get with
      | [] => throw .endsEarly
      | d :: left =>
          if c = d then
            set left
            exactly rest
          else
            throw .invalid

/-- Take one given character after blanks. -/
def mark (c : Char) : Reader Unit := do
  if (← peek) = c then
    dropOne
  else
    throw .invalid

/-- A number as it is written: a sign, decimal digits, and a power of ten. -/
structure DecimalLiteral where
  negative : Bool
  /-- The digits without zeros in front, and without zeros at the end of the places after the point. -/
  digits : List Char
  exponent : Int
  /-- There is neither a point nor an exponent. -/
  whole : Bool
  deriving Repr, DecidableEq

/-- The number that digits spell. -/
def digitsValue (digits : List Char) : Nat :=
  digits.foldl (fun value c => 10 * value + (c.toNat - '0'.toNat)) 0

/-- Take digits, of which there may be none. -/
def digits : Reader (List Char) := do
  let text ← get
  set (text.dropWhile Char.isDigit)
  return text.takeWhile Char.isDigit

/-- Take digits, at least one; `atEnd` is the fault where the text ends instead. -/
def someDigits (atEnd : FileFault) : Reader (List Char) := do
  match ← get with
  | [] => throw atEnd
  | c :: _ =>
      if c.isDigit then
        digits
      else
        throw .invalid

/-- Take a given character if it is next. -/
def optionalMark (accept : Char → Bool) : Reader (Option Char) := do
  match ← get with
  | [] => return none
  | c :: rest =>
      if accept c then
        set rest
        return some c
      else
        return none

/-- Take the digits before the point, which start with zero only if there is no other digit. -/
def wholeDigits (atEnd : FileFault) : Reader (List Char) := do
  match ← someDigits atEnd with
  | '0' :: _ :: _ => throw .invalid
  | taken => return taken

/-- Take an exponent if there is one. -/
def exponentPart (atEnd : FileFault) : Reader (Option Int) := do
  match ← optionalMark (fun c => c == 'e' || c == 'E') with
  | none => return none
  | some _ =>
      let sign ← optionalMark fun c => c == '+' || c == '-'
      let value := digitsValue (← someDigits atEnd)
      return some (if sign = some '-' then -(value : Int) else value)

/-- Digits without the zeros at their end. -/
def withoutFinalZeros (digits : List Char) : List Char :=
  (digits.reverse.dropWhile (· == '0')).reverse

/-- Take a number; `atEnd` is the fault where the text ends inside of it. -/
def number (atEnd : FileFault) : Reader DecimalLiteral := do
  let sign ← optionalMark (· == '-')
  let whole ← wholeDigits atEnd
  let fraction ←
    match ← optionalMark (· == '.') with
    | some _ => some <$> someDigits atEnd
    | none => pure none
  let exponent ← exponentPart atEnd
  let places := withoutFinalZeros (fraction.getD [])
  return {
    negative := sign.isSome
    digits := (whole ++ places).dropWhile (· == '0')
    exponent := exponent.getD 0 - places.length
    whole := fraction.isNone && exponent.isNone
  }

/-- What the characters of a quoted string so far ask of the next one. -/
inductive StringState where
  | text
  /-- After a backslash. -/
  | escape
  /-- Inside an escaped code unit; `high` is the unit before it in a pair. -/
  | unit (high : Option Nat) (missing value : Nat)
  /-- After the first unit of a pair, where a backslash has to come. -/
  | pair (high : Nat)
  /-- After the first unit of a pair and a backslash. -/
  | pairEscape (high : Nat)
  deriving Repr, DecidableEq

namespace StringState

/-- The value of a hexadecimal digit. -/
def hexValue? (c : Char) : Option Nat :=
  if c.isDigit then
    some (c.toNat - '0'.toNat)
  else if 'a' ≤ c ∧ c ≤ 'f' then
    some (c.toNat - 'a'.toNat + 10)
  else if 'A' ≤ c ∧ c ≤ 'F' then
    some (c.toNat - 'A'.toNat + 10)
  else
    none

/-- The character of an escape that is a single letter. -/
def escaped? : Char → Option Char
  | '"' => some '"'
  | '\\' => some '\\'
  | '/' => some '/'
  | 'b' => some '\x08'
  | 'f' => some '\x0c'
  | 'n' => some '\n'
  | 'r' => some '\r'
  | 't' => some '\t'
  | _ => none

/-- Start an escaped code unit, for which four bytes have to be left. -/
def startUnit
    (high : Option Nat)
    (rest : List Char) :
    Except FileFault StringState :=
  if ((rest.take 4).map Char.utf8Size).foldl (· + ·) 0 < 4 then
    .error .endsEarly
  else
    .ok (.unit high 4 0)

/-- The first unit of a pair. -/
def isHigh (value : Nat) : Bool :=
  0xD800 ≤ value && value ≤ 0xDBFF

/-- The second unit of a pair. -/
def isLow (value : Nat) : Bool :=
  0xDC00 ≤ value && value ≤ 0xDFFF

/-- The end of an escaped code unit: halves of characters only count where the string is used. -/
def finishUnit
    (used : Bool)
    (high : Option Nat)
    (value : Nat) :
    Except FileFault (StringState × List Char) :=
  if !used then
    .ok (.text, [])
  else
    match high with
    | some first =>
        if isLow value then
          .ok (.text,
            [Char.ofNat
              (0x10000 + (first - 0xD800) * 0x400 + (value - 0xDC00))])
        else
          .error .invalid
    | none =>
        if isLow value then
          .error .invalid
        else if isHigh value then
          .ok (.pair value, [])
        else
          .ok (.text, [Char.ofNat value])

/-- Take one character; the closing quote is not among them. -/
def step
    (used : Bool)
    (c : Char)
    (rest : List Char) :
    StringState → Except FileFault (StringState × List Char)
  | text =>
      if c = '\\' then
        .ok (.escape, [])
      else if c < ' ' then
        .error .invalid
      else
        .ok (.text, [c])
  | escape =>
      if c = 'u' then
        (startUnit none rest).map fun state => (state, [])
      else
        match escaped? c with
        | some plain => .ok (.text, [plain])
        | none => .error .invalid
  | unit high missing value =>
      match hexValue? c with
      | none => .error .invalid
      | some digit =>
          if missing ≤ 1 then
            finishUnit used high (16 * value + digit)
          else
            .ok (.unit high (missing - 1) (16 * value + digit), [])
  | pair high =>
      if c = '\\' then
        .ok (.pairEscape high, [])
      else
        .error .invalid
  | pairEscape high =>
      if c = 'u' then
        (startUnit (some high) rest).map fun state => (state, [])
      else
        .error .invalid

end StringState

/-- The characters of a quoted string up to the closing quote, and the text after it. -/
def quotedFrom
    (used : Bool) :
    StringState → List Char → Except FileFault (List Char × List Char)
  | _, [] => .error .endsEarly
  | state, c :: rest =>
      if state = .text ∧ c = '"' then
        .ok ([], rest)
      else do
        let (next, taken) ← state.step used c rest
        let (others, left) ← quotedFrom used next rest
        return (taken ++ others, left)

/-- Take a quoted string, of which the opening quote is next. -/
def quoted (used : Bool) : Reader String := do
  exactly ['"']
  let (taken, left) ← quotedFrom used .text (← get)
  set left
  return String.ofList taken

/-- Take a word, a number or a string, and forget it. -/
def scalar (used : Bool) : Reader Unit := do
  match ← peek with
  | 'n' => exactly "null".toList
  | 't' => exactly "true".toList
  | 'f' => exactly "false".toList
  | '"' => let _ ← quoted used
  | c =>
      if c = '-' ∨ c.isDigit then
        let _ ← number (if used then .endsEarly else .invalid)
      else
        throw .invalid

/-- Refuse a value of the wrong kind, after faults that it has of its own. -/
def mismatch : Reader β := do
  scalar true
  throw .invalid

/-- Whether another item follows before the closing mark; items are divided by commas. -/
def another
    (close : Char)
    (first : Bool) :
    Reader Bool := do
  let c ← peek
  if c = close then
    return false
  else if first then
    return true
  else if c = ',' then
    dropOne
    if (← peek) = close then
      throw .invalid
    else
      return true
  else
    throw .invalid

/-- Take items up to the closing mark, each changing a value; the limit bounds their number. -/
def items
    (close : Char)
    (item : δ → Reader δ) :
    Nat → Bool → δ → Reader δ
  | 0, _, _ => throw .invalid
  | limit + 1, first, value => do
      if ← another close first then
        items close item limit false (← item value)
      else
        dropOne
        return value

/-- Take items up to the closing mark; there cannot be more of them than characters. -/
def allItems
    (close : Char)
    (item : δ → Reader δ)
    (start : δ) :
    Reader δ := do
  items close item ((← get).length + 1) true start

/-- Take a list of values. -/
def listOf (item : Reader β) : Reader (List β) := do
  if (← peek) = '[' then
    dropOne
    let reversed ←
      allItems ']' (fun taken => return (← item) :: taken) []
    return reversed.reverse
  else
    mismatch

/--
Skip a value of which nothing is used. The limit, which no text that is left is
longer than, bounds how deep the value is nested and how many items it has.
-/
def skipNested : Nat → Reader Unit
  | 0 => throw .invalid
  | limit + 1 => do
      match ← peek with
      | '[' =>
          dropOne
          items ']' (fun _ => skipNested limit) limit true ()
      | '{' =>
          dropOne
          items '}'
            (fun _ => do
              let _ ← quoted false
              mark ':'
              skipNested limit)
            limit true ()
      | _ => scalar false

/-- Skip a value of which nothing is used. -/
def skipValue : Reader Unit := do
  skipNested ((← get).length + 1)

/-- Take a truth value. -/
def truth : Reader Bool := do
  match ← peek with
  | 't' =>
      exactly "true".toList
      return true
  | 'f' =>
      exactly "false".toList
      return false
  | _ => mismatch

/-- Take a number of any kind. -/
def anyNumber : Reader DecimalLiteral := do
  let c ← peek
  if c = '-' ∨ c.isDigit then
    number .endsEarly
  else
    mismatch

/-- Take a whole number that is not negative, up to a maximum. -/
def natural (maximum : Nat) : Reader Nat := do
  let literal ← anyNumber
  let value := digitsValue literal.digits
  if literal.whole && !literal.negative && decide (value ≤ maximum) then
    return value
  else
    throw .invalid

/-- Take a value, or nothing where the word `null` stands. -/
def orNull (value : Reader β) : Reader (Option β) := do
  match ← observePeek with
  | some 'n' =>
      exactly "null".toList
      return none
  | _ => some <$> value
where
  /-- The next character that is not blank, if there is one. -/
  observePeek : Reader (Option Char) := do
    skipBlanks
    return (← get).head?

/-- One of several named choices. -/
def chosen
    (choices : List (String × β))
    (name : String) :
    Reader β :=
  match choices.lookup name with
  | some choice => return choice
  | none => throw .invalid

/-- Take a name, which is quoted; nothing else in its place is looked at any further. -/
def name : Reader String := do
  if (← peek) = '"' then
    quoted true
  else
    throw .invalid

/-- Take a choice: its name, or its name as the only member in braces, without a value. -/
def choice (choices : List (String × β)) : Reader β := do
  match ← peek with
  | '"' => chosen choices (← quoted true)
  | '{' =>
      dropOne
      let taken ← chosen choices (← name)
      mark ':'
      if (← peek) = 'n' then
        exactly "null".toList
      else
        mismatch
      mark '}'
      return taken
  | _ => throw .invalid

/-- Nothing but blanks is left. -/
def finish : Reader Unit := do
  skipBlanks
  match ← get with
  | [] => return
  | _ => throw .invalid

end Reader

end SdpRelay
