import Mathlib
import SdpRelay.Proofs.DoublePatterns
import SdpRelay.Proofs.FileRecords
import SdpRelay.Proofs.ShortestDigits

namespace SdpRelay

/-!
# Written doubles are read back

A finite double is written with its shortest digits, with a point or with a power
of ten.  Either way the text is a proper spelling of a number that the double
covers, so that reading it gives the double again, with its sign.  Other doubles are
written as a word that no number is read from.  The infinite limits of a program are
written as the largest double and restored from it.
-/

namespace Reader

section Layouts

variable {digits : List Char}

/-- Digits that a number is written with: no zero leads them. -/
structure Significant (digits : List Char) : Prop where
  nonempty : digits ≠ []
  areDigits : ∀ c ∈ digits, c.isDigit = true
  notZero : digits.head? ≠ some '0'

/-- The number of digits of which the first stands at a power of ten. -/
def placedValue
    (digits : List Char)
    (lead : Int) :
    ℚ :=
  digitsValue digits * (10 : ℚ) ^ (lead + 1 - digits.length)

/-- A text spells digits at a power of ten, with a number of zeros beside them. -/
structure Spells
    (spelling : Spelling)
    (text digits : List Char)
    (lead : Int)
    (zeros : Nat) : Prop where
  proper : spelling.Proper
  isText : spelling.text = text
  value : spelling.value = placedValue digits lead
  length :
    (spelling.whole ++ spelling.places).length ≤ digits.length + zeros

/-- Digits with an exponent are a proper spelling. -/
theorem scientificText_spells
    (significant : Significant digits)
    (lead : Int) :
    ∃ spelling,
      Spells spelling (NumberLayout.scientificText true digits lead) digits
        lead 0 := by
  obtain ⟨first, others, rfl⟩ :=
    List.exists_cons_of_ne_nil significant.nonempty
  have isDigit := significant.areDigits first List.mem_cons_self
  have notZero : first ≠ '0' := fun zero =>
    significant.notZero (by rw [zero]; rfl)
  cases others with
  | nil =>
      refine
        ⟨{ whole := [first], fraction := none, exponent := some lead },
          ⟨by simp, by simpa using isDigit, .inr (by simpa using notZero),
            nofun, nofun⟩, ?_, ?_, ?_⟩
      · rfl
      · simp [Spelling.value, Spelling.places, placedValue]
      · simp [Spelling.places]
  | cons second others =>
      refine
        ⟨{
            whole := [first]
            fraction := some (second :: others)
            exponent := some lead
          },
          ⟨by simp, by simpa using isDigit, .inr (by simpa using notZero),
            by simp, fun c member =>
              significant.areDigits c (List.mem_cons_of_mem _ member)⟩,
          ?_, ?_, ?_⟩
      · rfl
      · have places :
            lead - ((second :: others).length : Int) =
              lead + 1 - (first :: second :: others).length := by
          simp only [List.length_cons]
          omega
        unfold Spelling.value Spelling.places placedValue
        simp only [Option.getD_some, List.singleton_append]
        rw [places]
      · simp [Spelling.places]

/-- Zeros in front of digits and behind the point are a proper spelling. -/
theorem smallText_spells
    (significant : Significant digits)
    {lead : Int}
    (small : lead < 0) :
    ∃ spelling,
      Spells spelling
        ('0' :: '.' :: (List.replicate (-lead - 1).toNat '0' ++ digits)) digits
        lead (lead.natAbs + 2) := by
  refine
    ⟨{
        whole := ['0']
        fraction := some (List.replicate (-lead - 1).toNat '0' ++ digits)
        exponent := none
      },
      ⟨by simp, by simp, .inl rfl, ?_, ?_⟩, ?_, ?_, ?_⟩
  · simp [significant.nonempty]
  · intro c member
    rcases List.mem_append.mp member with zero | digit
    · rw [List.eq_of_mem_replicate zero]
      rfl
    · exact significant.areDigits c digit
  · simp [Spelling.text, Spelling.fractionText, Spelling.exponentText]
  · have places :
        -(((-lead - 1).toNat + digits.length : Nat) : Int) =
          lead + 1 - digits.length := by
      omega
    unfold Spelling.value Spelling.places placedValue
    simp only [Option.getD_some, Option.getD_none, List.length_append,
      List.length_replicate]
    rw [zero_sub, places, digitsValue_append, digitsValue_append,
      digitsValue_replicate_zero]
    simp [digitsValue]
  · simp [Spelling.places]
    omega

/-- Digits with zeros behind them up to the point are a proper spelling. -/
theorem wholeText_spells
    (significant : Significant digits)
    {count : Nat}
    (few : digits.length ≤ count) :
    ∃ spelling,
      Spells spelling
        (digits ++ List.replicate (count - digits.length) '0' ++ ['.', '0'])
        digits (count - 1) (((count : Int) - 1).natAbs + 2) := by
  refine
    ⟨{
        whole := digits ++ List.replicate (count - digits.length) '0'
        fraction := some ['0']
        exponent := none
      },
      ⟨by simp [significant.nonempty], ?_, .inr ?_, by simp, by simp [Spelling.places]⟩,
      ?_, ?_, ?_⟩
  · intro c member
    rcases List.mem_append.mp member with digit | zero
    · exact significant.areDigits c digit
    · rw [List.eq_of_mem_replicate zero]
      rfl
  · rw [List.head?_append_of_ne_nil _ significant.nonempty]
    exact significant.notZero
  · simp [Spelling.text, Spelling.fractionText, Spelling.exponentText]
  · have places :
        (count : Int) - 1 + 1 - digits.length =
          ((count - digits.length : Nat) : Int) := by
      omega
    unfold Spelling.value Spelling.places placedValue
    rw [places, zpow_natCast]
    simp only [Option.getD_some, Option.getD_none, List.length_singleton]
    rw [digitsValue_append, digitsValue_append, digitsValue_replicate_zero]
    simp [digitsValue]
    ring
  · simp [Spelling.places]
    omega

/-- Digits with a point between them are a proper spelling. -/
theorem mixedText_spells
    (significant : Significant digits)
    {count : Nat}
    (positive : 0 < count)
    (many : count < digits.length) :
    ∃ spelling,
      Spells spelling (digits.take count ++ '.' :: digits.drop count) digits
        (count - 1) (((count : Int) - 1).natAbs + 2) := by
  refine
    ⟨{
        whole := digits.take count
        fraction := some (digits.drop count)
        exponent := none
      },
      ⟨?_, ?_, .inr ?_, ?_, ?_⟩, ?_, ?_, ?_⟩
  · simp [significant.nonempty, positive.ne']
  · intro c member
    exact significant.areDigits c (List.mem_of_mem_take member)
  · rw [List.head?_take, if_neg positive.ne']
    exact significant.notZero
  · simpa using many
  · intro c member
    exact significant.areDigits c (List.mem_of_mem_drop member)
  · simp [Spelling.text, Spelling.fractionText, Spelling.exponentText]
  · have places :
        -((digits.length - count : Nat) : Int) =
          count - 1 + 1 - digits.length := by
      omega
    unfold Spelling.value Spelling.places placedValue
    simp only [Option.getD_some, Option.getD_none, List.take_append_drop,
      List.length_drop]
    rw [zero_sub, places]
  · simp [Spelling.places]

/-- Digits with a point are a proper spelling. -/
theorem positionalText_spells
    (significant : Significant digits)
    (lead : Int) :
    ∃ spelling,
      Spells spelling (NumberLayout.positionalText true digits lead) digits
        lead (lead.natAbs + 2) := by
  unfold NumberLayout.positionalText
  rcases lt_or_ge lead 0 with small | large
  · rw [if_pos small]
    exact smallText_spells significant small
  · rw [if_neg (not_lt.mpr large)]
    have isLead : ((lead.toNat + 1 : Nat) : Int) - 1 = lead := by
      omega
    simp only [↓reduceIte]
    generalize lead.toNat + 1 = count at isLead ⊢
    rw [← isLead]
    rcases Nat.lt_or_ge count digits.length with many | few
    · have noZeros : count - digits.length = 0 := by
        omega
      have behind : (digits.drop count).isEmpty = false := by
        simp [many]
      rw [noZeros, List.replicate_zero, List.append_nil, behind]
      exact mixedText_spells significant (by omega) many
    · have padded :
          (digits ++ List.replicate (count - digits.length) '0').drop count =
            [] := by
        simp
        omega
      rw [padded]
      exact wholeText_spells significant few

/-- The digits of a positive number are those that it is written with. -/
theorem significant_toDigits
    {n : Nat}
    (positive : 0 < n) :
    Significant (Nat.toDigits 10 n) where
  nonempty := Nat.toDigits_ne_nil
  areDigits := fun _ member =>
    Nat.isDigit_of_mem_toDigits (by norm_num) (by norm_num) member
  notZero := head_toDigits positive

end Layouts

end Reader

open Reader

namespace DoubleFile

open Double

/-- Powers of ten are larger than powers of two with three times the exponent. -/
theorem binary_lt_decimal :
    (2 : ℚ) ^ (1100 : Nat) < 10 ^ (400 : Nat) := by
  calc
    (2 : ℚ) ^ (1100 : Nat) = (2 ^ 11) ^ 100 := by rw [← pow_mul]
    _ < (10 ^ 4) ^ 100 := pow_lt_pow_left₀ (by norm_num) (by norm_num) (by norm_num)
    _ = 10 ^ (400 : Nat) := by rw [← pow_mul]

/-- The sizes of the doubles, as powers of ten. -/
theorem covers_bounds
    {mantissa : Nat}
    {exponent : Int}
    (canonical : Canonical mantissa exponent)
    {x : ℚ}
    (covers : Covers mantissa exponent x) :
    (10 : ℚ) ^ (-400 : Int) < x ∧ x < (10 : ℚ) ^ (400 : Int) := by
  obtain ⟨low, high, _⟩ := covers
  have positive : (1 : ℚ) ≤ mantissa := by
    exact_mod_cast canonical.positive
  have small : (mantissa : ℚ) + 1 ≤ 2 ^ 53 := by
    exact_mod_cast canonical.small
  have quarters : (quartersBelow mantissa exponent : ℚ) ≤ 2 := by
    exact_mod_cast quartersBelow_le mantissa exponent
  have smallest : (2 : ℚ) ^ (-(1100 : Nat) : Int) ≤ 2 ^ (exponent - 2) :=
    zpow_le_zpow_right₀ one_le_two (by have := canonical.lowest; omega)
  have largest : (2 : ℚ) ^ (exponent - 2) ≤ 2 ^ (1000 : Int) :=
    zpow_le_zpow_right₀ one_le_two (by have := canonical.highest; omega)
  have powerPositive : (0 : ℚ) < 2 ^ (exponent - 2) := zpow_pos two_pos _
  constructor
  · calc
      (10 : ℚ) ^ (-400 : Int) < 2 ^ (-(1100 : Nat) : Int) := by
          have asNat : (-400 : Int) = -((400 : Nat) : Int) := rfl
          rw [asNat, zpow_neg, zpow_neg, zpow_natCast, zpow_natCast]
          exact inv_strictAnti₀ (by positivity) binary_lt_decimal
      _ ≤ 2 ^ (exponent - 2) := smallest
      _ ≤ (4 * mantissa - quartersBelow mantissa exponent) *
            2 ^ (exponent - 2) :=
          le_mul_of_one_le_left powerPositive.le (by linarith)
      _ ≤ x := low
  · calc
      x ≤ (4 * mantissa + 2) * 2 ^ (exponent - 2) := high
      _ ≤ 2 ^ (100 : Int) * 2 ^ (1000 : Int) :=
          mul_le_mul (by norm_num; linarith) largest powerPositive.le
            (by positivity)
      _ = 2 ^ (1100 : Nat) := by
          have sum : ((1100 : Nat) : Int) = 100 + 1000 := rfl
          rw [← zpow_natCast, sum, zpow_add₀ two_ne_zero]
      _ < 10 ^ (400 : Int) := binary_lt_decimal

/-- A literal of which no zero leads lies between the powers of ten around its first digit. -/
theorem literal_bounds
    {literal : DecimalLiteral}
    (areDigits : ∀ c ∈ literal.digits, c.isDigit = true)
    (notZero : literal.digits.head? ≠ some '0')
    (nonempty : literal.digits ≠ []) :
    (10 : ℚ) ^ (literal.exponent + literal.digits.length - 1) ≤
        literal.value ∧
      literal.value <
        (10 : ℚ) ^ (literal.exponent + literal.digits.length) := by
  have powerPositive : (0 : ℚ) < 10 ^ literal.exponent :=
    zpow_pos (by norm_num) _
  unfold DecimalLiteral.value
  constructor
  · obtain ⟨first, others, isCons⟩ := List.exists_cons_of_ne_nil nonempty
    rw [isCons] at areDigits notZero ⊢
    have least : 10 ^ others.length ≤ digitsValue (first :: others) :=
      le_digitsValue (areDigits first List.mem_cons_self)
        fun zero => notZero (by rw [zero]; rfl)
    have leastCast :
        (10 : ℚ) ^ others.length ≤ digitsValue (first :: others) := by
      exact_mod_cast least
    have places :
        literal.exponent + ((first :: others).length : Int) - 1 =
          (others.length : Int) + literal.exponent := by
      simp only [List.length_cons]
      omega
    rw [places, zpow_add₀ (by norm_num), zpow_natCast]
    exact mul_le_mul_of_nonneg_right leastCast powerPositive.le
  · have mostCast :
        (digitsValue literal.digits : ℚ) < 10 ^ literal.digits.length := by
      exact_mod_cast digitsValue_lt areDigits
    rw [add_comm, zpow_add₀ (by norm_num), zpow_natCast]
    exact mul_lt_mul_of_pos_right mostCast powerPositive

/-- A literal whose value a double covers is read as the double. -/
theorem ofLiteral_of_covers
    {x : Float}
    (finite : x.isFinite = true)
    {mantissa : Nat}
    {exponent : Int}
    (canonical : Canonical mantissa exponent)
    {literal : DecimalLiteral}
    (isDouble :
      signedDouble literal.negative
          ((exponent + 1074).toNat * 2 ^ 52 + mantissa) =
        x)
    (areDigits : ∀ c ∈ literal.digits, c.isDigit = true)
    (notZero : literal.digits.head? ≠ some '0')
    (short : literal.digits.length ≤ digitLimit)
    (covers : Covers mantissa exponent literal.value) :
    ofLiteral literal = some x := by
  obtain ⟨notTooSmall, notTooLarge⟩ := covers_bounds canonical covers
  have nonempty : literal.digits ≠ [] := by
    intro empty
    have positive := covers.pos canonical
    rw [DecimalLiteral.value, empty] at positive
    simp [digitsValue] at positive
  obtain ⟨low, high⟩ := literal_bounds areDigits notZero nonempty
  have leadLow :
      (-400 : Int) < literal.exponent + literal.digits.length :=
    (zpow_lt_zpow_iff_right₀ (by norm_num)).mp (notTooSmall.trans high)
  have leadHigh :
      literal.exponent + literal.digits.length - 1 < (400 : Int) :=
    (zpow_lt_zpow_iff_right₀ (by norm_num)).mp (low.trans_lt notTooLarge)
  have inRange :
      ¬ (literal.digits = [] ∨
        literal.exponent + literal.digits.length < -400) := by
    rintro (empty | small)
    · exact nonempty empty
    · omega
  have notBeyond :
      ¬ 400 < literal.exponent + (literal.digits.length : Int) := by
    omega
  have isKept : cut literal = literal := if_pos short
  have read :
      nearestDecimal literal.negative (digitsValue literal.digits)
          literal.exponent =
        x := by
    rw [nearestDecimal_of_covers canonical literal.negative covers, isDouble]
  unfold ofLiteral
  simp only [inRange, notBeyond, isKept, read, ↓reduceIte]
  exact if_pos finite

/-- A literal without digits that count is the zero of its sign. -/
theorem ofLiteral_of_zero
    {literal : DecimalLiteral}
    (zero : literal.digits = []) :
    ofLiteral literal = some (signedDouble literal.negative 0) := by
  have read :
      nearestDecimal literal.negative 0 0 =
        signedDouble literal.negative 0 := by
    unfold nearestDecimal nearestDouble
    simp
  unfold ofLiteral
  simp [zero, read]

/-- The digits that a double is written with, and the power of ten of the first. -/
theorem shownDigits_spec
    {mantissa : Nat}
    {exponent : Int}
    (canonical : Canonical mantissa exponent) :
    ∃ digits lead,
      NumberLayout.shownDigits (.shortest .toEven) mantissa exponent =
          (digits, lead) ∧
        Significant digits ∧
        digits.length ≤ 18 ∧
        Covers mantissa exponent (placedValue digits lead) := by
  obtain ⟨covers, few⟩ := Decimal.shortest_spec .toEven canonical
  generalize isShortest :
    Decimal.shortest .toEven mantissa exponent = shortest at covers few
  have digitsPositive : 0 < shortest.digits := by
    have positive := covers.pos canonical
    rw [Nat.pos_iff_ne_zero]
    intro zero
    rw [Decimal.value, zero] at positive
    simp at positive
  refine
    ⟨Nat.toDigits 10 shortest.digits,
      shortest.exponent + (Nat.toDigits 10 shortest.digits).length - 1,
      ?_, significant_toDigits digitsPositive, ?_, ?_⟩
  · unfold NumberLayout.shownDigits
    simp only [canonical.positive.ne', ↓reduceIte, isShortest]
  · exact (Nat.length_toDigits_le_iff (by norm_num) (by norm_num)).mpr few
  · have places :
        shortest.exponent + (Nat.toDigits 10 shortest.digits).length - 1 + 1 -
            (Nat.toDigits 10 shortest.digits).length =
          shortest.exponent := by
      omega
    unfold placedValue
    rw [places, digitsValue_toDigits]
    exact covers

/-- A finite double that is not zero is written as a proper spelling of a number that it covers. -/
theorem write_spells
    {x : Float}
    {negative : Bool}
    {mantissa : Nat}
    {exponent : Int}
    (shape : doubleShape x = .finite negative mantissa exponent)
    (canonical : Canonical mantissa exponent) :
    ∃ spelling : Spelling,
      spelling.Proper ∧
        write x = Spelling.signText negative ++ spelling.text ∧
        Covers mantissa exponent spelling.value ∧
        (spelling.whole ++ spelling.places).length ≤ digitLimit := by
  obtain ⟨digits, lead, shown, significant, few, covers⟩ :=
    shownDigits_spec canonical
  have sign :
      (if negative = true then ['-']
        else if NumberLayout.file.plus = true then ['+'] else []) =
        Spelling.signText negative := by
    cases negative <;> rfl
  have written :
      write x =
        Spelling.signText negative ++
          if NumberLayout.file.positional lead then
            NumberLayout.positionalText true digits lead
          else
            NumberLayout.scientificText true digits lead := by
    unfold write NumberLayout.characters
    rw [shape]
    simp only
    have choice : NumberLayout.file.choice = .shortest .toEven := rfl
    rw [sign, choice, shown]
    rfl
  have limit : digitLimit = 768 := rfl
  by_cases positional : NumberLayout.file.positional lead = true
  · have bounds : -5 ≤ lead ∧ lead < 16 := by
      have both : (decide (-5 ≤ lead) && decide (lead < 16)) = true :=
        positional
      simpa using both
    obtain ⟨spelling, spells⟩ := positionalText_spells significant lead
    rw [if_pos positional] at written
    refine ⟨spelling, spells.proper, ?_, ?_, ?_⟩
    · rw [written, spells.isText]
    · rw [spells.value]
      exact covers
    · have length := spells.length
      omega
  · obtain ⟨spelling, spells⟩ := scientificText_spells significant lead
    rw [if_neg positional] at written
    refine ⟨spelling, spells.proper, ?_, ?_, ?_⟩
    · rw [written, spells.isText]
    · rw [spells.value]
      exact covers
    · have length := spells.length
      omega

/-- A finite double is read back from the text that it is written as. -/
theorem reads_write
    {x : Float}
    (finite : x.isFinite = true) :
    Reads (ProblemFile.numberValue doubleNumbers) (doubleNumbers.write x) x := by
  obtain ⟨negative, mantissa, exponent, shape, size, isDouble⟩ :=
    doubleShape_of_isFinite finite
  have read : ∃ spelling : Spelling,
      spelling.Proper ∧
        write x = Spelling.signText negative ++ spelling.text ∧
        ofLiteral (spelling.literal negative) = some x := by
    rcases size with ⟨rfl, rfl⟩ | canonical
    · refine
        ⟨{ whole := ['0'], fraction := some ['0'], exponent := none },
          ⟨by simp, by simp, .inl rfl, by simp, by simp [Spelling.places]⟩,
          ?_, ?_⟩
      · unfold write NumberLayout.characters
        rw [shape]
        cases negative <;> rfl
      · rw [← isDouble]
        exact ofLiteral_of_zero rfl
    · obtain ⟨spelling, proper, written, covers, short⟩ :=
        write_spells shape canonical
      obtain ⟨areDigits, notZero, length⟩ := proper.literal_digits negative
      refine ⟨spelling, proper, written, ?_⟩
      refine
        ofLiteral_of_covers finite canonical isDouble areDigits notZero
          (length.trans short) ?_
      rw [Spelling.value_literal]
      exact covers
  obtain ⟨spelling, proper, written, isNumber⟩ := read
  have number := Spelling.reads_anyNumber proper negative
  change Reads _ (write x) x
  rw [written]
  refine ⟨number.starts, ?_⟩
  intro rest ends
  unfold ProblemFile.numberValue
  have isValue :
      doubleNumbers.ofLiteral (spelling.literal negative) = some x :=
    isNumber
  rw [bind_of_ok (number.taken rest ends), isValue]
  rfl

/-- A double that is not finite is written as a word. -/
theorem write_of_not_isFinite
    {x : Float}
    (infinite : x.isFinite = false) :
    doubleNumbers.write x = "null".toList := by
  change write x = _
  unfold write
  rcases doubleShape_of_not_isFinite infinite with
    shape | ⟨_, shape, _⟩
  · rw [shape]
  · rw [shape]

/-- What is written for such a double is refused. -/
theorem refuses_write
    {x : Float}
    (infinite : x.isFinite = false) :
    Refuses (ProblemFile.numberValue doubleNumbers) (doubleNumbers.write x) := by
  rw [write_of_not_isFinite infinite]
  exact refuses_null.bind _

/-- The doubles that are read back are the finite ones. -/
theorem readable_iff {x : Float} :
    ProblemFile.Readable doubleNumbers x ↔ x.isFinite = true := by
  constructor
  · intro reads
    by_contra infinite
    rw [Bool.not_eq_true] at infinite
    obtain ⟨fault, refused⟩ := (refuses_write infinite).refused [] nofun
    cases (reads.taken [] nofun).symm.trans refused
  · exact reads_write

instance : ProblemFile.DecidesNumbers doubleNumbers where
  readsIff := fun x => by
    constructor
    · exact id
    · intro unreadable
      rw [readable_iff, Bool.not_eq_true] at unreadable
      exact refuses_write unreadable

/-- The standard serialiser for doubles obeys the laws for numbers. -/
theorem serialiser_inverseOnFinite :
    doubleNumbers.serialiser.InverseOnFinite :=
  fun x finite =>
    (ProblemFile.readNumber_writeNumber_iff x).mpr (readable_iff.mpr finite)

theorem serialiser_nullForOthers :
    doubleNumbers.serialiser.NullForOthers where
  written := fun _ infinite => write_of_not_isFinite infinite
  refused := rfl

/-- Equality with the largest double, or with its negative, as the double compares. -/
def IsLargest (x : Float) : Prop :=
  (x == largestDouble) = true ∨ (x == -largestDouble) = true

instance (x : Float) : Decidable (IsLargest x) :=
  inferInstanceAs (Decidable (_ ∨ _))

theorem clamp_of_isFinite
    {x : Float}
    (finite : x.isFinite = true) :
    clamp x = x := by
  obtain ⟨negative, mantissa, exponent, shape, _⟩ :=
    doubleShape_of_isFinite finite
  unfold clamp
  rw [shape]

theorem restore_of_not_largest
    {x : Float}
    (notLargest : ¬ IsLargest x) :
    restore x = x := by
  rw [IsLargest, not_or] at notLargest
  unfold restore
  rw [if_neg notLargest.1, if_neg notLargest.2]

/-- An infinite limit is finite in the file, and restored from it. -/
theorem clamp_of_infinite
    {x : Float}
    (infinite : x = infiniteDouble ∨ x = -infiniteDouble) :
    (clamp x).isFinite = true ∧ restore (clamp x) = x := by
  rcases infinite with rfl | rfl
  · constructor
    · decide +kernel
    · apply Float.toBits_inj.mp
      decide +kernel
  · constructor
    · decide +kernel
    · apply Float.toBits_inj.mp
      decide +kernel

/-- A limit other than the largest double is finite in the file, and restored from it. -/
theorem clamp_spec
    {x : Float}
    (number : x.isNaN = false)
    (notLargest : ¬ IsLargest x) :
    (clamp x).isFinite = true ∧ restore (clamp x) = x := by
  cases finite : x.isFinite with
  | true =>
      rw [clamp_of_isFinite finite]
      exact ⟨finite, restore_of_not_largest notLargest⟩
  | false =>
      exact clamp_of_infinite (eq_infinite_of_not_isFinite number finite)

/-- The limit that is read where a limit is written. -/
def kept (x : Float) : Float :=
  restore (clamp x)

/-- Limits are kept, but for the largest double and its negative, which become infinite. -/
theorem kept_cases
    {x : Float}
    (number : x.isNaN = false) :
    (clamp x).isFinite = true ∧
      (kept x = x ∨
        parts x = parts largestDouble ∧ kept x = infiniteDouble ∨
        parts x = parts (-largestDouble) ∧ kept x = -infiniteDouble) := by
  by_cases largest : IsLargest x
  · have isParts :
        parts x = parts largestDouble ∨ parts x = parts (-largestDouble) :=
      largest.imp (parts_of_beq rfl) (parts_of_beq rfl)
    have finite : x.isFinite = true := by
      change (parts x).isFinite = true
      rcases isParts with same | same
      · rw [same]
        rfl
      · rw [same]
        rfl
    rw [kept, clamp_of_isFinite finite]
    refine ⟨finite, .inr ?_⟩
    unfold restore
    rcases largest with isPositive | isNegative
    · exact .inl ⟨parts_of_beq rfl isPositive, if_pos isPositive⟩
    · have notPositive : ¬ (x == largestDouble) = true := by
        rw [beq_iff, parts_of_beq rfl isNegative]
        decide +kernel
      rw [if_neg notPositive, if_pos isNegative]
      exact .inr ⟨parts_of_beq rfl isNegative, rfl⟩
  · obtain ⟨finite, restored⟩ := clamp_spec number largest
    exact ⟨finite, .inl restored⟩

/-- What is not a number in a program is none in the file. -/
theorem kept_of_isNaN
    {x : Float}
    (undefined : x.isNaN = true) :
    kept x = x := by
  have infinite : x.isFinite = false := by
    by_contra finite
    rw [Bool.not_eq_false] at finite
    rw [isNaN_of_isFinite finite] at undefined
    cases undefined
  have isClamped : clamp x = x := by
    unfold clamp
    rcases doubleShape_of_not_isFinite infinite with
      shape | ⟨_, _, rfl | rfl⟩
    · rw [shape]
    · cases undefined
    · cases undefined
  have incomparable (y : Float) : ¬ (x == y) = true := by
    rw [beq_iff, (compare_eq_none_iff (parts x) _).mpr (.inl undefined)]
    exact nofun
  rw [kept, isClamped]
  exact restore_of_not_largest (not_or.mpr ⟨incomparable _, incomparable _⟩)

end DoubleFile

end SdpRelay
