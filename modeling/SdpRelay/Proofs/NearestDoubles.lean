import Mathlib
import SdpRelay.Number.Binary64

namespace SdpRelay

/-!
# Rounding to the nearest double

A positive finite double is a mantissa of at most fifty-three binary digits times
a power of two.  The numbers that round to it lie around it, half a unit of its
last place to each side, and a quarter of one below a power of two, where the
doubles below lie closer together.  The ends of this range belong to it exactly if
the mantissa is even.  Every quotient in the range is rounded to the double,
whatever the exponent that its own size suggests.
-/

section Quotients

/-- A power of a positive base as a quotient has no zero in it. -/
theorem powerRatio_pos
    {base : Nat}
    (positive : 0 < base)
    (exponent : Int) :
    0 < (powerRatio base exponent).1 ∧ 0 < (powerRatio base exponent).2 := by
  unfold powerRatio
  split_ifs
  · exact ⟨Nat.pow_pos positive, Nat.one_pos⟩
  · exact ⟨Nat.one_pos, Nat.pow_pos positive⟩

/-- The two parts of a power are the power as a quotient. -/
theorem powerRatio_fst
    {base : Nat}
    (positive : 0 < base)
    (exponent : Int) :
    ((powerRatio base exponent).1 : ℚ) =
      (base : ℚ) ^ exponent * (powerRatio base exponent).2 := by
  have baseNonzero : (base : ℚ) ≠ 0 := by exact_mod_cast positive.ne'
  unfold powerRatio
  split_ifs with natural
  · have asNat : exponent = (exponent.toNat : Int) :=
      (Int.toNat_of_nonneg natural).symm
    simp only [Nat.pow_eq, Nat.cast_pow, Nat.cast_one, mul_one]
    conv_rhs => rw [asNat, zpow_natCast]
  · have asNat : exponent = -((-exponent).toNat : Int) := by omega
    simp only [Nat.pow_eq, Nat.cast_pow, Nat.cast_one]
    conv_rhs => rw [asNat, zpow_neg, zpow_natCast]
    rw [Int.neg_neg, Int.toNat_natCast,
      inv_mul_cancel₀ (pow_ne_zero _ baseNonzero)]

/-- A quotient that is scaled by a power is the quotient of the scaled parts. -/
theorem scaled_quotient
    {base : Nat}
    (positive : 0 < base)
    (numerator denominator : Nat)
    (exponent : Int) :
    ((numerator * (powerRatio base exponent).2 : Nat) : ℚ) /
        ((denominator * (powerRatio base exponent).1 : Nat) : ℚ) =
      (numerator : ℚ) / denominator / (base : ℚ) ^ exponent := by
  have downNonzero : ((powerRatio base exponent).2 : ℚ) ≠ 0 := by
    exact_mod_cast (powerRatio_pos positive exponent).2.ne'
  push_cast
  rw [powerRatio_fst positive, ← mul_assoc,
    mul_div_mul_right _ _ downNonzero, div_div]

/-- A scaled quotient is below a natural number as the quotient is below the scaled number. -/
theorem scaled_div_lt_iff
    {base : Nat}
    (positive : 0 < base)
    (numerator : Nat)
    {denominator : Nat}
    (denominatorPositive : 0 < denominator)
    (exponent : Int)
    (bound : Nat) :
    numerator * (powerRatio base exponent).2 /
          (denominator * (powerRatio base exponent).1) < bound ↔
      (numerator : ℚ) / denominator < bound * (base : ℚ) ^ exponent := by
  have scaledPositive : 0 < denominator * (powerRatio base exponent).1 :=
    Nat.mul_pos denominatorPositive (powerRatio_pos positive exponent).1
  have scaledCast :
      (0 : ℚ) < ((denominator * (powerRatio base exponent).1 : Nat) : ℚ) := by
    exact_mod_cast scaledPositive
  have powerPositive : (0 : ℚ) < (base : ℚ) ^ exponent :=
    zpow_pos (by exact_mod_cast positive) exponent
  rw [Nat.div_lt_iff_lt_mul scaledPositive, ← Nat.cast_lt (α := ℚ),
    Nat.cast_mul bound, ← div_lt_iff₀ scaledCast, scaled_quotient positive,
    div_lt_iff₀ powerPositive]

/-- A number lies between two ends, which belong to the range under a condition. -/
def Between
    (closed : Prop)
    (low high x : ℚ) :
    Prop :=
  low ≤ x ∧ x ≤ high ∧ (closed ∨ low < x ∧ x < high)

theorem Between.widen
    {closed : Prop}
    {low high lower higher x : ℚ}
    (between : Between closed low high x)
    (below : lower ≤ low)
    (above : high ≤ higher) :
    Between closed lower higher x := by
  obtain ⟨lowLe, leHigh, inside⟩ := between
  refine ⟨below.trans lowLe, leHigh.trans above, inside.imp_right ?_⟩
  rintro ⟨lowLt, ltHigh⟩
  exact ⟨below.trans_lt lowLt, ltHigh.trans_le above⟩

/-- Scaling moves the ends of a range along. -/
theorem Between.scale
    {closed : Prop}
    {low high x : ℚ}
    (between : Between closed low high x)
    {factor : ℚ}
    (positive : 0 < factor) :
    Between closed (low * factor) (high * factor) (x * factor) := by
  obtain ⟨lowLe, leHigh, inside⟩ := between
  refine
    ⟨mul_le_mul_of_nonneg_right lowLe positive.le,
      mul_le_mul_of_nonneg_right leHigh positive.le, inside.imp_right ?_⟩
  rintro ⟨lowLt, ltHigh⟩
  exact
    ⟨mul_lt_mul_of_pos_right lowLt positive,
      mul_lt_mul_of_pos_right ltHigh positive⟩

/-- A quotient within a half of a number is rounded to it, if it is no tie of an odd one. -/
theorem roundedQuotient_of_near
    {numerator denominator rounded : Nat}
    (positive : 0 < denominator)
    (below : 2 * (denominator * rounded) ≤ 2 * numerator + denominator)
    (above : 2 * numerator ≤ 2 * (denominator * rounded) + denominator)
    (strict :
      rounded % 2 = 0 ∨
        2 * (denominator * rounded) < 2 * numerator + denominator ∧
          2 * numerator < 2 * (denominator * rounded) + denominator) :
    roundedQuotient .toEven numerator denominator = rounded := by
  have parts := Nat.div_add_mod numerator denominator
  have small := Nat.mod_lt numerator positive
  -- The quotient is the number or the one below it, and the remainder tells which.
  have adjacent :
      numerator / denominator = rounded ∨
        numerator / denominator + 1 = rounded := by
    have notAbove : numerator / denominator < rounded + 1 := by
      rw [Nat.div_lt_iff_lt_mul positive]
      nlinarith
    have notBelow : rounded < numerator / denominator + 2 := by
      by_contra farBelow
      have scaled :
          denominator * (numerator / denominator + 2) ≤
            denominator * rounded :=
        Nat.mul_le_mul_left _ (by omega)
      rw [Nat.mul_add] at scaled
      omega
    omega
  unfold roundedQuotient
  rcases adjacent with same | next
  · rw [same] at parts
    simp only [same]
    split_ifs <;> omega
  · rw [← next, Nat.mul_add] at below above strict
    simp only
    split_ifs <;> omega

/-- A quotient within a half of a number, and within less if the number is odd, is rounded to it. -/
theorem roundedQuotient_eq
    {numerator denominator rounded : Nat}
    (positive : 0 < denominator)
    (near :
      Between (rounded % 2 = 0) (rounded - 1 / 2) (rounded + 1 / 2)
        ((numerator : ℚ) / denominator)) :
    roundedQuotient .toEven numerator denominator = rounded := by
  obtain ⟨lowLe, leHigh, inside⟩ := near
  have castPositive : (0 : ℚ) < denominator := by exact_mod_cast positive
  rw [le_div_iff₀ castPositive] at lowLe
  rw [div_le_iff₀ castPositive] at leHigh
  rw [lt_div_iff₀ castPositive, div_lt_iff₀ castPositive] at inside
  refine roundedQuotient_of_near positive ?_ ?_ (inside.imp_right ?_)
  · qify
    linarith
  · qify
    linarith
  · rintro ⟨lowLt, ltHigh⟩
    constructor
    · qify
      linarith
    · qify
      linarith

end Quotients

namespace Double

/--
The mantissa and the exponent of a positive finite double: below the largest
mantissa, and with a leading digit unless the exponent is the lowest one.
-/
structure Canonical
    (mantissa : Nat)
    (exponent : Int) : Prop where
  positive : 0 < mantissa
  small : mantissa < 2 ^ 53
  lowest : -1074 ≤ exponent
  leading : 2 ^ 52 ≤ mantissa ∨ exponent = -1074
  highest : exponent ≤ 971

/-- Quarters of the last place below a double that are nearer to it than to the double below. -/
def quartersBelow
    (mantissa : Nat)
    (exponent : Int) :
    Nat :=
  if mantissa = 2 ^ 52 ∧ -1074 < exponent then 1 else 2

theorem quartersBelow_le
    (mantissa : Nat)
    (exponent : Int) :
    quartersBelow mantissa exponent ≤ 2 := by
  unfold quartersBelow
  split_ifs
  · exact one_le_two
  · exact le_rfl

/-- The positive numbers that are nearest to a double; the ends count if the mantissa is even. -/
def Covers
    (mantissa : Nat)
    (exponent : Int)
    (x : ℚ) :
    Prop :=
  Between (mantissa % 2 = 0)
    ((4 * mantissa - quartersBelow mantissa exponent) *
      (2 : ℚ) ^ (exponent - 2))
    ((4 * mantissa + 2) * (2 : ℚ) ^ (exponent - 2)) x

/-- A quotient lies within a factor of two around the quotient of the leading powers of two. -/
theorem quotient_bounds
    {numerator denominator : Nat}
    (numeratorPositive : 0 < numerator)
    (denominatorPositive : 0 < denominator) :
    (2 : ℚ) ^ ((numerator.log2 : Int) - denominator.log2 - 1) <
        (numerator : ℚ) / denominator ∧
      (numerator : ℚ) / denominator <
        (2 : ℚ) ^ ((numerator.log2 : Int) - denominator.log2 + 1) := by
  have castPositive : (0 : ℚ) < denominator := by
    exact_mod_cast denominatorPositive
  have numeratorLow : (2 : ℚ) ^ numerator.log2 ≤ numerator := by
    exact_mod_cast Nat.log2_self_le numeratorPositive.ne'
  have numeratorHigh : (numerator : ℚ) < 2 ^ numerator.log2 * 2 := by
    exact_mod_cast Nat.lt_log2_self (n := numerator)
  have denominatorLow : (2 : ℚ) ^ denominator.log2 ≤ denominator := by
    exact_mod_cast Nat.log2_self_le denominatorPositive.ne'
  have denominatorHigh : (denominator : ℚ) < 2 ^ denominator.log2 * 2 := by
    exact_mod_cast Nat.lt_log2_self (n := denominator)
  have numeratorPower : (0 : ℚ) < 2 ^ numerator.log2 := by positivity
  have denominatorPower : (0 : ℚ) < 2 ^ denominator.log2 := by positivity
  rw [zpow_sub₀ two_ne_zero, zpow_add₀ two_ne_zero, zpow_sub₀ two_ne_zero,
    zpow_natCast, zpow_natCast, zpow_one]
  constructor
  · rw [div_div, div_lt_div_iff₀ (by positivity) castPositive]
    calc
      (2 : ℚ) ^ numerator.log2 * denominator <
          2 ^ numerator.log2 * (2 ^ denominator.log2 * 2) := by gcongr
      _ ≤ numerator * (2 ^ denominator.log2 * 2) := by gcongr
  · rw [div_mul_eq_mul_div, div_lt_div_iff₀ castPositive denominatorPower]
    calc
      (numerator : ℚ) * 2 ^ denominator.log2 <
          2 ^ numerator.log2 * 2 * 2 ^ denominator.log2 := by gcongr
      _ ≤ 2 ^ numerator.log2 * 2 * denominator := by gcongr

/-- To its last place a quotient has fifty-three binary digits, or fewer at the lowest one. -/
theorem lastPlaceExponent_spec
    {numerator denominator : Nat}
    (numeratorPositive : 0 < numerator)
    (denominatorPositive : 0 < denominator) :
    -1074 ≤ lastPlaceExponent numerator denominator ∧
      (numerator : ℚ) / denominator <
        2 ^ 53 * (2 : ℚ) ^ lastPlaceExponent numerator denominator ∧
      (lastPlaceExponent numerator denominator = -1074 ∨
        2 ^ 52 * (2 : ℚ) ^ lastPlaceExponent numerator denominator ≤
          (numerator : ℚ) / denominator) := by
  obtain ⟨low, high⟩ := quotient_bounds numeratorPositive denominatorPositive
  have shifted (digits : Nat) (exponent : Int) :
      (2 : ℚ) ^ digits * (2 : ℚ) ^ exponent = 2 ^ (digits + exponent) := by
    rw [zpow_add₀ two_ne_zero, zpow_natCast]
  unfold lastPlaceExponent
  generalize (numerator.log2 : Int) - denominator.log2 = size at low high ⊢
  have check :=
    scaled_div_lt_iff two_pos numerator denominatorPositive
      (max (-1074) (size - 53)) (Nat.pow 2 53)
  simp only [check]
  simp only [Nat.pow_eq, Nat.cast_pow, Nat.cast_ofNat]
  split_ifs with fits
  · refine ⟨le_max_left _ _, fits, ?_⟩
    rcases max_choice (-1074) (size - 53) with lowest | guessed
    · exact .inl lowest
    · right
      have places : ((52 : Nat) : Int) + (size - 53) = size - 1 := by omega
      rw [guessed, shifted, places]
      exact low.le
  · rw [not_lt] at fits
    refine ⟨by omega, ?_, ?_⟩
    · refine high.trans_le ?_
      rw [shifted]
      exact zpow_le_zpow_right₀ one_le_two (by omega)
    · right
      have places :
          ((52 : Nat) : Int) + (max (-1074) (size - 53) + 1) =
            (53 : Nat) + max (-1074) (size - 53) := by
        omega
      rw [shifted, places]
      rwa [shifted] at fits

/-- The exponent of the last place is where a quotient has its digits. -/
theorem lastPlaceExponent_eq
    {numerator denominator : Nat}
    (numeratorPositive : 0 < numerator)
    (denominatorPositive : 0 < denominator)
    {exponent : Int}
    (lowest : -1074 ≤ exponent)
    (below : (numerator : ℚ) / denominator < 2 ^ 53 * (2 : ℚ) ^ exponent)
    (leading :
      exponent = -1074 ∨
        2 ^ 52 * (2 : ℚ) ^ exponent ≤ (numerator : ℚ) / denominator) :
    lastPlaceExponent numerator denominator = exponent := by
  obtain ⟨foundLowest, foundBelow, foundLeading⟩ :=
    lastPlaceExponent_spec numeratorPositive denominatorPositive
  -- A quotient that reaches the digits of one exponent is too large for every lower one.
  have apart
      {lower higher : Int}
      (reaches :
        higher = -1074 ∨
          2 ^ 52 * (2 : ℚ) ^ higher ≤ (numerator : ℚ) / denominator)
      (fits : (numerator : ℚ) / denominator < 2 ^ 53 * (2 : ℚ) ^ lower)
      (lowerLowest : -1074 ≤ lower) :
      higher ≤ lower := by
    rcases reaches with lowestHigher | reaches
    · omega
    · have powers : (2 : ℚ) ^ (52 + higher) < 2 ^ (53 + lower) := by
        rw [zpow_add₀ two_ne_zero, zpow_add₀ two_ne_zero]
        exact_mod_cast reaches.trans_lt fits
      have := (zpow_lt_zpow_iff_right₀ one_lt_two).mp powers
      omega
  exact
    le_antisymm (apart foundLeading below lowest)
      (apart leading foundBelow foundLowest)

section Rounding

variable
  {mantissa : Nat}
  {exponent : Int}

/-- What a double covers is positive. -/
theorem Covers.pos
    {x : ℚ}
    (canonical : Canonical mantissa exponent)
    (covers : Covers mantissa exponent x) :
    0 < x := by
  have quarters : (quartersBelow mantissa exponent : ℚ) ≤ 2 := by
    exact_mod_cast quartersBelow_le mantissa exponent
  have mantissaCast : (1 : ℚ) ≤ mantissa := by
    exact_mod_cast canonical.positive
  refine lt_of_lt_of_le ?_ covers.1
  exact mul_pos (by linarith) (zpow_pos two_pos _)

/-- A quarter of a power of two. -/
theorem two_zpow_sub_two (exponent : Int) :
    (2 : ℚ) ^ (exponent - 2) = 2 ^ exponent / 4 := by
  rw [zpow_sub₀ two_ne_zero]
  norm_num

/-- A number that a double covers, counted in units of the last place of the double. -/
theorem Covers.units
    {x : ℚ}
    (covers : Covers mantissa exponent x) :
    Between (mantissa % 2 = 0)
      (mantissa - quartersBelow mantissa exponent / 4) (mantissa + 1 / 2)
      (x / (2 : ℚ) ^ exponent) := by
  have powerPositive : (0 : ℚ) < 2 ^ exponent := zpow_pos two_pos _
  have scaled := Between.scale covers (inv_pos.mpr powerPositive)
  rw [two_zpow_sub_two] at scaled
  convert scaled using 1 <;> field_simp
  ring

section Quotients

variable
  {numerator denominator : Nat}
  (numeratorPositive : 0 < numerator)
  (denominatorPositive : 0 < denominator)

include numeratorPositive denominatorPositive

/-- A quotient is rounded to what it is near to, counted in units of its last place. -/
theorem nearestDouble_of_near
    (negative : Bool)
    {place : Int}
    (isPlace : lastPlaceExponent numerator denominator = place)
    {rounded : Nat}
    (near :
      Between (rounded % 2 = 0) (rounded - 1 / 2) (rounded + 1 / 2)
        ((numerator : ℚ) / denominator / (2 : ℚ) ^ place)) :
    nearestDouble negative numerator denominator =
      signedDouble negative ((place + 1074).toNat * 2 ^ 52 + rounded) := by
  unfold nearestDouble
  rw [if_neg numeratorPositive.ne']
  simp only [isPlace]
  rw [roundedQuotient_eq
    (Nat.mul_pos denominatorPositive (powerRatio_pos two_pos place).1)]
  · rfl
  · rw [scaled_quotient two_pos]
    exact near

/-- A quotient just below a power of two is rounded up to it, and a digit is carried. -/
theorem nearestDouble_below_power
    (negative : Bool)
    (above : -1074 < exponent)
    (low :
      (2 : ℚ) ^ 52 - 1 / 4 ≤
        (numerator : ℚ) / denominator / (2 : ℚ) ^ exponent)
    (short :
      (numerator : ℚ) / denominator / (2 : ℚ) ^ exponent < 2 ^ 52) :
    nearestDouble negative numerator denominator =
      signedDouble negative
        ((exponent + 1074).toNat * 2 ^ 52 + 2 ^ 52) := by
  have half :
      (numerator : ℚ) / denominator / (2 : ℚ) ^ (exponent - 1) =
        2 * ((numerator : ℚ) / denominator / (2 : ℚ) ^ exponent) := by
    rw [zpow_sub_one₀ two_ne_zero]
    field_simp
  have halfPositive : (0 : ℚ) < 2 ^ (exponent - 1) := zpow_pos two_pos _
  have isPlace :
      lastPlaceExponent numerator denominator = exponent - 1 := by
    refine
      lastPlaceExponent_eq numeratorPositive denominatorPositive
        (by omega) ?_ (.inr ?_)
    · rw [← div_lt_iff₀ halfPositive, half]
      linarith
    · rw [← le_div_iff₀ halfPositive, half]
      linarith
  have carried :
      (exponent - 1 + 1074).toNat * 2 ^ 52 + 2 ^ 53 =
        (exponent + 1074).toNat * 2 ^ 52 + 2 ^ 52 := by
    omega
  rw [← carried]
  refine
    nearestDouble_of_near numeratorPositive denominatorPositive negative
      isPlace ?_
  rw [half]
  push_cast
  exact ⟨by linarith, by linarith, .inl (by norm_num)⟩

end Quotients

/--
A quotient that a double covers is rounded to it. Just below a power of two the
quotient has its digits at the exponent below that of the double, and rounding
carries over to the double.
-/
theorem nearestDouble_of_covers
    (canonical : Canonical mantissa exponent)
    (negative : Bool)
    {numerator denominator : Nat}
    (denominatorPositive : 0 < denominator)
    (covers :
      Covers mantissa exponent ((numerator : ℚ) / denominator)) :
    nearestDouble negative numerator denominator =
      signedDouble negative
        ((exponent + 1074).toNat * 2 ^ 52 + mantissa) := by
  have positive := covers.pos canonical
  have numeratorPositive : 0 < numerator := by
    rw [Nat.pos_iff_ne_zero]
    rintro rfl
    simp at positive
  have units := covers.units
  have powerPositive : (0 : ℚ) < 2 ^ exponent := zpow_pos two_pos _
  have mantissaSmall : (mantissa : ℚ) + 1 ≤ 2 ^ 53 := by
    exact_mod_cast canonical.small
  have quarters : (quartersBelow mantissa exponent : ℚ) ≤ 2 := by
    exact_mod_cast quartersBelow_le mantissa exponent
  by_cases digits :
      exponent = -1074 ∨
        2 ^ 52 * (2 : ℚ) ^ exponent ≤ (numerator : ℚ) / denominator
  · have below :
        (numerator : ℚ) / denominator < 2 ^ 53 * (2 : ℚ) ^ exponent := by
      rw [← div_lt_iff₀ powerPositive]
      linarith [units.2.1]
    exact
      nearestDouble_of_near numeratorPositive denominatorPositive negative
        (lastPlaceExponent_eq numeratorPositive denominatorPositive
          canonical.lowest below digits)
        (units.widen (by linarith) le_rfl)
  · rw [not_or, not_le] at digits
    obtain ⟨notLowest, short⟩ := digits
    have above : -1074 < exponent :=
      lt_of_le_of_ne canonical.lowest (Ne.symm notLowest)
    rw [← div_lt_iff₀ powerPositive] at short
    -- Only the range of a power of two reaches below the digits at its own exponent.
    obtain rfl : mantissa = 2 ^ 52 := by
      by_contra notPower
      have leading := canonical.leading.resolve_right notLowest
      have next : (2 : ℚ) ^ 52 + 1 ≤ mantissa := by
        exact_mod_cast Nat.lt_of_le_of_ne leading (Ne.symm notPower)
      linarith [units.1]
    have quarter : quartersBelow (2 ^ 52) exponent = 1 :=
      if_pos ⟨rfl, above⟩
    have low := units.1
    rw [quarter] at low
    push_cast at low
    exact
      nearestDouble_below_power numeratorPositive denominatorPositive negative
        above low short

/-- A decimal that a double covers is read as the double. -/
theorem nearestDecimal_of_covers
    (canonical : Canonical mantissa exponent)
    (negative : Bool)
    {digits : Nat}
    {place : Int}
    (covers : Covers mantissa exponent (digits * (10 : ℚ) ^ place)) :
    nearestDecimal negative digits place =
      signedDouble negative
        ((exponent + 1074).toNat * 2 ^ 52 + mantissa) := by
  have tenPositive : 0 < 10 := by norm_num
  have downPositive := (powerRatio_pos tenPositive place).2
  have downNonzero : ((powerRatio 10 place).2 : ℚ) ≠ 0 := by
    exact_mod_cast downPositive.ne'
  have covered :
      Covers mantissa exponent
        (((digits * (powerRatio 10 place).1 : Nat) : ℚ) /
          (powerRatio 10 place).2) := by
    rw [Nat.cast_mul, powerRatio_fst tenPositive, ← mul_assoc,
      mul_div_cancel_right₀ _ downNonzero]
    exact covers
  exact nearestDouble_of_covers canonical negative downPositive covered

end Rounding

end Double

end SdpRelay
